/-
# Paths

A path is a text.  Slashes divide it into components; empty components and `.` stay where they
are, and `..` goes up.  `Path.parent?` is the path of the directory that holds what a path names.
-/

namespace ConstStore
namespace Path

/-! ## 1. Components -/

/-- Splits a text at the slashes. -/
def splitSlashes : List Char → List (List Char)
  | [] => [[]]
  | c :: rest =>
    if c = '/' then [] :: splitSlashes rest
    else match splitSlashes rest with
    | [] => [[c]]
    | part :: parts => (c :: part) :: parts

/-- The components of a path. -/
def components (path : String) : List String :=
  (splitSlashes path.toList).map String.ofList

/-- Puts components together again. -/
def ofComponents (parts : List String) : String := String.intercalate "/" parts

/-- Whether a path starts at the root. -/
def isAbsolute (path : String) : Bool := path.toList.head? = some '/'

/-- A component that leads nowhere. -/
def isIdle (component : String) : Bool := component = "" || component = "."

/-! ## 2. Parents and children -/

/-- Drops idle components at the end, but neither the root nor a single `.`. -/
def dropIdle (parts : List String) : List String :=
  match parts with
  | [] => []
  | first :: rest => first :: (rest.reverse.dropWhile isIdle).reverse

/-- The path of the directory that a path lies in: the path without its last component.  The root
and the empty path have none; what lies in the working directory has the empty one. -/
def parent? (path : String) : Option String :=
  match dropIdle (components path) with
  | [] => none
  | [first] => if first = "" then none else some ""
  | first :: rest =>
    let above := dropIdle (first :: rest.dropLast)
    some (if above = [""] then "/" else ofComponents above)

/-- The directory in which to put files that are to lie beside `path`. -/
def directory (path : String) : String :=
  match parent? path with
  | none => "."
  | some above => if above = "" then "." else above

/-- The path of `name` in a directory. -/
def child (above name : String) : String :=
  if above = "" ∨ isAbsolute name then name
  else if above.toList.getLast? = some '/' then above ++ name
  else above ++ "/" ++ name

end Path
end ConstStore
