/-!
# Splitting text at a character

* `splitOn`: the pieces between the separators, at least one.
* `cutAt?`: what stands before and after the first separator.
* `joinWith`: pieces with a separator between them.
-/

namespace Rim.Text

/-- The pieces between the separators. -/
def splitOn (sep : Char) : List Char → List (List Char)
  | [] => [[]]
  | c :: r =>
    if c = sep then [] :: splitOn sep r
    else
      match splitOn sep r with
      | [] => [[c]]
      | piece :: pieces => (c :: piece) :: pieces

/-- What stands before and after the first separator, if there is one. -/
def cutAt? (sep : Char) : List Char → Option (List Char × List Char)
  | [] => none
  | c :: r => if c = sep then some ([], r) else (cutAt? sep r).map fun p => (c :: p.1, p.2)

/-- The pieces with a separator between them. -/
def joinWith (sep : Char) : List (List Char) → List Char
  | [] => []
  | [piece] => piece
  | piece :: pieces => piece ++ sep :: joinWith sep pieces

end Rim.Text
