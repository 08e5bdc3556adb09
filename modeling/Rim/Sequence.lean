import Rim.Error

/-!
# Members by index

Reading and checking the members of a list one after the other, where a failure says at which index
it arose.
-/

namespace Rim

/-- The context of a member: what the list holds, and the index. -/
def atIndex (what : String) (i : Nat) : String := what ++ " at index " ++ toString i

/-- Reads each member, the first one having index `i`. -/
def readFrom {α β : Type} (what : String) (read : α → Result β) (i : Nat) :
    List α → Result (List β)
  | [] => .ok []
  | x :: xs => do
    let y ← (read x).context (atIndex what i)
    let ys ← readFrom what read (i + 1) xs
    return y :: ys

/-- Reads each member. -/
def readEach {α β : Type} (what : String) (read : α → Result β) (xs : List α) :
    Result (List β) :=
  readFrom what read 0 xs

/-- Checks each member, the first one having index `i`. -/
def checkFrom {α : Type} (what : String) (check : α → Result Unit) (i : Nat) :
    List α → Result Unit
  | [] => .ok ()
  | x :: xs => do
    (check x).context (atIndex what i)
    checkFrom what check (i + 1) xs

/-- Checks each member. -/
def checkEach {α : Type} (what : String) (check : α → Result Unit) (xs : List α) : Result Unit :=
  checkFrom what check 0 xs

/-- Checks a value if there is one. -/
def checkOptional {α : Type} (check : α → Result Unit) : Option α → Result Unit
  | some x => check x
  | none => .ok ()

end Rim
