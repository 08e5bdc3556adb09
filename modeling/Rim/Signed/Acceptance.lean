import Rim.Policy
import Rim.Signed

/-!
# Acceptance under a policy

A signed manifest is accepted under a policy if the policy makes sense and allows its algorithm, if
the metadata that it asks for is there, if the windows that it looks at hold the given instant, and
if the signature holds.
-/

namespace Rim.SignedManifest

/-- The algorithm is known and allowed. -/
def checkAlgorithm (p : Policy) (s : SignedManifest) : Result Unit :=
  match s.algorithm with
  | none => .error (.signatureMismatch "unsupported algorithm")
  | some a =>
    if p.allows a then .ok ()
    else .error (.signatureMismatch ("algorithm " ++ a.name ++ " not allowed by policy"))

/-- The metadata is there, if the policy asks for it. -/
def checkMetadata (p : Policy) (s : SignedManifest) : Result Unit :=
  if p.requireMeta ∧ s.metadata.isNone then .error (.missingField "meta") else .ok ()

/-- The windows of metadata and manifest hold an instant, if the policy asks for it. -/
def checkWindows (p : Policy) (now : Time.Instant) (s : SignedManifest) : Result Unit := do
  if p.checkValidity then
    checkOptional (Meta.checkValidity now) s.metadata
    s.manifest.checkValidity now

/-- Checks a signed manifest under a policy, the signature last. -/
def verifyUnder (p : Policy) (now : Time.Instant) (v : Verifier) (s : SignedManifest) :
    Result Unit := do
  p.validate
  checkAlgorithm p s
  checkMetadata p s
  checkWindows p now s
  s.verify v

end Rim.SignedManifest
