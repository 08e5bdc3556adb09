import Rim.Error

/-!
# Maps in key order

A map is held as its entries in the order of their keys. It is written by setting keys one by one,
absent ones not at all, and read by taking keys one by one, after which nothing may be left.

* `Keyed.get?`, `Keyed.without`, `Keyed.insert`, `Keyed.merge`: entries in key order.
* `Keyed.ofList`, `Keyed.ofFields`: put entries, or fields that may be absent, in key order.
* `Unread`: what is left of a map that is being read.
* `Unread.readAll`: reads a whole map; an entry that nothing took is refused.
-/

namespace Rim

namespace Keyed

variable {κ ν : Type}

/-- The entries of fields, leaving out those without a value. -/
def present (fields : List (κ × Option ν)) : List (κ × ν) :=
  fields.filterMap fun f => f.2.map (f.1, ·)

variable [Ord κ]

/-- The value of a key, if it is there. -/
def get? (key : κ) : List (κ × ν) → Option ν
  | [] => none
  | (k, v) :: r => if compare k key = .eq then some v else get? key r

/-- The entries without the one of a key. -/
def without (key : κ) : List (κ × ν) → List (κ × ν)
  | [] => []
  | (k, v) :: r => if compare k key = .eq then r else (k, v) :: without key r

/-- Sets `key` to `value` in entries that are in key order; an equal key stays as it was. -/
def insert (key : κ) (value : ν) : List (κ × ν) → List (κ × ν)
  | [] => [(key, value)]
  | (k, v) :: r =>
    match compare key k with
    | .lt => (key, value) :: (k, v) :: r
    | .eq => (k, value) :: r
    | .gt => (k, v) :: insert key value r

/-- The entries with other ones set over them, one after the other. -/
def merge (entries others : List (κ × ν)) : List (κ × ν) :=
  others.foldl (fun sorted e => insert e.1 e.2 sorted) entries

/-- Entries in key order; of equal keys the last one's value. -/
def ofList (entries : List (κ × ν)) : List (κ × ν) := merge [] entries

/-- The entries of fields in key order, leaving out those without a value. -/
def ofFields (fields : List (κ × Option ν)) : List (κ × ν) := ofList (present fields)

end Keyed

/-- The entries of a map not yet taken, and what the map is. -/
structure Unread (κ ν : Type) where
  what : String
  entries : List (κ × ν)

namespace Unread

variable {κ ν α : Type}

/-- A step of reading a map. -/
abbrev Taking (κ ν : Type) := StateT (Unread κ ν) Result

def takeRest : Taking κ ν (List (κ × ν)) := fun u => .ok (u.entries, { u with entries := [] })

/-- Refuses a map of which something is left, naming the first entry. -/
def finish (unexpected : κ → String) : Taking κ ν Unit := fun u =>
  match u.entries with
  | [] => .ok ((), u)
  | (k, _) :: _ => .error (.malformed u.what ("unexpected " ++ unexpected k))

/-- Reads a map by steps that have to take all of it. -/
def readAll (unexpected : κ → String) (body : Taking κ ν α) (u : Unread κ ν) : Result α := do
  let (a, _) ← (do let a ← body; finish unexpected; return a : Taking κ ν α).run u
  return a

variable [Ord κ]

/-- Takes the value of a key, if it is there. -/
def take (key : κ) : Taking κ ν (Option ν) := fun u =>
  .ok (Keyed.get? key u.entries, { u with entries := Keyed.without key u.entries })

/-- Takes the value of a key that has to be there. -/
def require (key : κ) (field : String) : Taking κ ν ν := do
  match ← take key with
  | some v => return v
  | none => throw (.missingField ((← get).what ++ " " ++ field))

/-- Takes the value of a key, if it is there, and reads it. -/
def takeWith (key : κ) (read : ν → Result α) : Taking κ ν (Option α) := do
  match ← take key with
  | some v => some <$> read v
  | none => return none

/-- Takes the value of a key that has to be there, and reads it. -/
def requireWith (key : κ) (field : String) (read : ν → Result α) : Taking κ ν α := do
  read (← require key field)

end Unread

end Rim
