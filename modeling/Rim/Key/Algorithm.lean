import Rim.Error

/-!
# Signature algorithms

The two algorithms that sign and verify manifests, their names and their registered numbers.
-/

namespace Rim

/-- A signature algorithm. -/
inductive Algorithm
  /-- ECDSA over P-256 with SHA-256. -/
  | es256
  /-- Ed25519. -/
  | edDsa
deriving DecidableEq, Repr

namespace Algorithm

def all : List Algorithm := [es256, edDsa]

/-- The registered name. -/
def name : Algorithm → String
  | es256 => "ES256"
  | edDsa => "EdDSA"

def ofName? (name : String) : Option Algorithm := all.find? (·.name == name)

/-- The registered number. -/
def number : Algorithm → Int
  | es256 => -7
  | edDsa => -8

def ofNumber? (n : Int) : Option Algorithm := all.find? (·.number == n)

@[simp] theorem ofName?_name (a : Algorithm) : ofName? a.name = some a := by cases a <;> decide

@[simp] theorem ofNumber?_number (a : Algorithm) : ofNumber? a.number = some a := by
  cases a <;> decide

end Algorithm

end Rim
