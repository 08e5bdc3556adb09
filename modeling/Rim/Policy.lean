import Rim.Key.Algorithm
import Rim.Text.Blank
import Rim.Text.Split

/-!
# Verification policies

What a verifier asks beyond a signature that holds. Settings change a policy one at a time; named
variables are overrides, of which the first one that cannot be read ends the row and leaves in place
what the ones before it set.

* `Policy.validate`, `Policy.allows`: whether a policy makes sense, and what it lets through.
* `Policy.override`: applies variables.
-/

namespace Rim

/-- What a verifier asks beyond a signature that holds. -/
structure Policy where
  algorithms : List String
  requireMeta : Bool
  checkValidity : Bool
deriving DecidableEq

namespace Policy

/-- Every algorithm is allowed, and nothing more is asked. -/
def standard : Policy := ⟨Algorithm.all.map Algorithm.name, false, false⟩

/-- A change of one part of a policy. -/
inductive Setting
  | algorithms (names : List String)
  | requireMeta (b : Bool)
  | checkValidity (b : Bool)
deriving DecidableEq

/-- The policy with a part changed. -/
def set (p : Policy) : Setting → Policy
  | .algorithms names => { p with algorithms := names }
  | .requireMeta b => { p with requireMeta := b }
  | .checkValidity b => { p with checkValidity := b }

/-- There are allowed algorithms, and all their names are known. -/
def validate (p : Policy) : Result Unit := do
  if p.algorithms.isEmpty then .error (.config "no allowed algorithms")
  p.algorithms.forM fun name =>
    if (Algorithm.ofName? name).isSome then .ok ()
    else .error (.config ("unknown algorithm " ++ Text.quote name))

def allows (p : Policy) (a : Algorithm) : Bool := p.algorithms.contains a.name

def lower (c : Char) : Char := if 'A' ≤ c ∧ c ≤ 'Z' then Char.ofNat (c.toNat + 32) else c

/-- The truth value that a variable writes, in either case and with blanks around it. -/
def flagOf (name value : String) : Result Bool :=
  let word := String.ofList ((Text.trim value.toList).map lower)
  if word ∈ ["1", "true", "yes"] then .ok true
  else if word ∈ ["0", "false", "no"] then .ok false
  else .error (.config (name ++ ": expecting a boolean, got " ++ Text.quote word))

/-- The names between commas, without blanks around them and without empty ones. -/
def namesOf (value : String) : List String :=
  (((Text.splitOn ',' value.toList).map Text.trim).filter (!·.isEmpty)).map String.ofList

/-- The setting that a variable stands for, if its name is one of those that do. -/
def settingOf (name value : String) : Result (Option Setting) :=
  if name = "CORIM_ALLOWED_ALGORITHMS" then .ok (some (.algorithms (namesOf value)))
  else if name = "CORIM_REQUIRE_META" then (some ∘ .requireMeta) <$> flagOf name value
  else if name = "CORIM_CHECK_VALIDITY" then (some ∘ .checkValidity) <$> flagOf name value
  else .ok none

/-- Applies variables up to the first one that cannot be read: the policy that is left, and the
failure if there was one. -/
def override (p : Policy) : List (String × String) → Policy × Option Error
  | [] => (p, none)
  | (name, value) :: r =>
    match settingOf name value with
    | .ok none => override p r
    | .ok (some s) => override (p.set s) r
    | .error e => (p, some e)

end Policy

end Rim
