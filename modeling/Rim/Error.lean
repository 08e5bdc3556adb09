import Rim.Text.Quoted

/-!
# Errors

Why something was refused. A context says what was being done when an inner error arose and never
hides it, so the kind of an error is the kind of its root. Where input does not follow a format that
is defined elsewhere (CBOR, JSON, TOML, base64, UUIDs, times, envelopes) or a key or signature does not
hold, the end of the message says so in words of this library, which other readers of the format need
not share.

* `Error.message`: the text of an error, contexts first.
* `Error.isMalformed`, `Error.isInvalid`, `Error.isUntrusted`: input that cannot be read, input that
  breaks a rule, and input whose signature does not hold.
-/

namespace Rim

/-- Why something was refused. -/
inductive Error
  /-- A tag, type name or profile identifier that is already taken. -/
  | duplicateRegistration (key : String)
  /-- A tag or type name that is not registered. -/
  | unknownTypeChoice (discriminator : String)
  /-- Input of the wrong shape. -/
  | malformed (what detail : String)
  /-- Input of the right shape that breaks a rule. -/
  | invalid (what detail : String)
  /-- A mandatory part that is absent. -/
  | missingField (field : String)
  /-- A document without an identifier. -/
  | emptyIdentifier
  /-- Input that is no signed envelope. -/
  | notAnEnvelope (detail : String)
  /-- A protected header without a content type. -/
  | missingContentType
  /-- A protected header with another content type. -/
  | unexpectedContentType (expected actual : String)
  /-- Signing without a signer. -/
  | nilSigner
  /-- A signature that does not hold. -/
  | signatureMismatch (detail : String)
  /-- A key that cannot be used, or a signer that failed. -/
  | crypto (detail : String)
  /-- A policy that cannot be loaded or contradicts itself. -/
  | config (detail : String)
  /-- An inner error and what was being done. -/
  | context (doing : String) (inner : Error)
deriving DecidableEq, Repr, Inhabited

/-- The kinds of errors. -/
inductive ErrorKind
  | duplicateRegistration
  | unknownTypeChoice
  | malformed
  | invalid
  | missingField
  | emptyIdentifier
  | notAnEnvelope
  | missingContentType
  | unexpectedContentType
  | nilSigner
  | signatureMismatch
  | crypto
  | config
deriving DecidableEq, Repr

namespace Error

/-- The innermost error. -/
def root : Error → Error
  | context _ inner => root inner
  | e => e

/-- The kind of the innermost error. -/
def kind : Error → ErrorKind
  | duplicateRegistration _ => .duplicateRegistration
  | unknownTypeChoice _ => .unknownTypeChoice
  | malformed _ _ => .malformed
  | invalid _ _ => .invalid
  | missingField _ => .missingField
  | emptyIdentifier => .emptyIdentifier
  | notAnEnvelope _ => .notAnEnvelope
  | missingContentType => .missingContentType
  | unexpectedContentType _ _ => .unexpectedContentType
  | nilSigner => .nilSigner
  | signatureMismatch _ => .signatureMismatch
  | crypto _ => .crypto
  | config _ => .config
  | context _ inner => inner.kind

def message : Error → String
  | duplicateRegistration key => "duplicate registration: " ++ key ++ " is already registered"
  | unknownTypeChoice discriminator => "unknown type choice " ++ discriminator
  | malformed what detail => "malformed " ++ what ++ ": " ++ detail
  | invalid what detail => "invalid " ++ what ++ ": " ++ detail
  | missingField field => "missing mandatory field: " ++ field
  | emptyIdentifier => "empty id"
  | notAnEnvelope detail => "not a COSE_Sign1 envelope: " ++ detail
  | missingContentType => "missing mandatory content type"
  | unexpectedContentType expected actual =>
    "expecting content type " ++ Text.quote expected ++ ", got " ++ Text.quote actual ++ " instead"
  | nilSigner => "nil signer"
  | signatureMismatch detail => "signature verification failed: " ++ detail
  | crypto detail => "crypto error: " ++ detail
  | config detail => "configuration error: " ++ detail
  | context doing inner => doing ++ ": " ++ inner.message

/-- The input cannot be read at all. -/
def isMalformed (e : Error) : Bool :=
  match e.kind with
  | .unknownTypeChoice | .malformed | .notAnEnvelope => true
  | _ => false

/-- The input can be read and breaks a rule. -/
def isInvalid (e : Error) : Bool :=
  match e.kind with
  | .invalid | .missingField | .emptyIdentifier | .missingContentType
  | .unexpectedContentType => true
  | _ => false

/-- The input is in order and its signature does not hold. -/
def isUntrusted (e : Error) : Bool := e.kind == .signatureMismatch

@[simp] theorem kind_context (doing : String) (e : Error) : (context doing e).kind = e.kind := rfl

@[simp] theorem kind_root (e : Error) : e.root.kind = e.kind := by
  induction e <;> simp_all [root, kind]

end Error

/-- A value, or why there is none. -/
abbrev Result := Except Error

/-- Says of a failure what was being done. -/
def Result.context {α : Type} (doing : String) (r : Result α) : Result α :=
  r.mapError (.context doing)

end Rim
