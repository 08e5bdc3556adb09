import Rim.Manifest.Digest
import Rim.Cbor.Fields
import Rim.Json.Members

/-!
# Locators

Where to fetch another manifest, and the digest it should have.
-/

namespace Rim

/-- The URI of another manifest, and its digest. -/
structure Locator where
  href : String
  thumbprint : Option Digest
deriving DecidableEq

namespace Locator

/-- The URI is not empty, and the digest is valid. -/
def validate (l : Locator) : Result Unit := do
  if l.href = "" then .error (.invalid "locator" "empty href")
  (checkOptional Digest.validate l.thumbprint).context "thumbprint"

def toCbor (l : Locator) : Cbor.Value :=
  .ofFields [(0, some (.uri l.href)), (1, l.thumbprint.map Digest.toCbor)]

def ofCbor (v : Cbor.Value) : Result Locator :=
  v.readMap "locator" do
    let href ← Cbor.Fields.requireWith 0 "href" (·.toUri "href")
    let thumbprint ← Cbor.Fields.takeWith 1 Digest.ofCbor
    return ⟨href, thumbprint⟩

def toJson (l : Locator) : Json.Value :=
  .ofMemberList [("href", some (.string l.href)), ("thumbprint", l.thumbprint.map Digest.toJson)]

def ofJson (v : Json.Value) : Result Locator :=
  v.readObject "locator" do
    let href ← Json.Remaining.requireWith "href" (·.toText "href")
    let thumbprint ← Json.Remaining.takeWith "thumbprint" Digest.ofJson
    return ⟨href, thumbprint⟩

end Locator

end Rim
