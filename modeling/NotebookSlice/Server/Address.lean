/-! # Addresses

Joining the parts of an address with single slashes.
-/

namespace NotebookSlice.Address

def dropSlashes (cs : List Char) : List Char := cs.dropWhile (· == '/')

def bare (part : String) : String :=
  String.ofList (dropSlashes (dropSlashes part.toList).reverse).reverse

/-- Joins two parts. A slash before the first and after the last stays, and empty parts are left
out. -/
def join (first last : String) : String :=
  let parts := [first, last].map bare
  let middle := String.intercalate "/" (parts.filter fun p => !p.isEmpty)
  let start := if first.toList.head? == some '/' then "/" else ""
  let final := if last.toList.getLast? == some '/' then "/" else ""
  let whole := start ++ middle ++ final
  if whole == "//" then "/" else whole

/-- The addresses of the requests, under the server's base address. -/
def routes (base : String) : List String :=
  let stem := join base "cellgather"
  ["log", "gather", "reset", "notebook"].map (join stem)

end NotebookSlice.Address
