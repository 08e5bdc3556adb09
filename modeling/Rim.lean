import Rim.Bytes
import Rim.Cbor.Access
import Rim.Cbor.Fields
import Rim.Cbor.Parser
import Rim.Cbor.Value
import Rim.Choice
import Rim.Choice.Masked
import Rim.Choice.Oid
import Rim.Choice.Psa
import Rim.Choice.PublicKey
import Rim.Choice.Registry
import Rim.Choice.Ueid
import Rim.Choice.Uuid
import Rim.Comid
import Rim.Comid.Build
import Rim.Comid.Environment
import Rim.Comid.Measurement
import Rim.Comid.Triples
import Rim.Comid.Version
import Rim.Cose.Header
import Rim.Cose.Registered
import Rim.Cose.Sign1
import Rim.Crypto.Ecdsa
import Rim.Crypto.Ed25519
import Rim.Crypto.Nonce
import Rim.Crypto.P256
import Rim.Crypto.Power
import Rim.Crypto.Sha2
import Rim.Document
import Rim.Error
import Rim.Json.Access
import Rim.Json.Members
import Rim.Json.Parser
import Rim.Json.Skip
import Rim.Json.Value
import Rim.Key
import Rim.Key.Algorithm
import Rim.Key.Jwk
import Rim.Keyed
import Rim.Manifest
import Rim.Manifest.Build
import Rim.Manifest.Digest
import Rim.Manifest.Entity
import Rim.Manifest.Identifier
import Rim.Manifest.Locator
import Rim.Manifest.Meta
import Rim.Manifest.Tag
import Rim.Manifest.Validity
import Rim.Number.Binary
import Rim.Number.Power
import Rim.Number.Scaling
import Rim.Number.Shortest
import Rim.Policy
import Rim.Policy.File
import Rim.Profile
import Rim.Profile.Bundled
import Rim.Profile.Catalogue
import Rim.Profile.Extension
import Rim.Profile.Id
import Rim.Proofs.Accepted
import Rim.Proofs.Bytes
import Rim.Proofs.Catalogue
import Rim.Proofs.Cbor.Equality
import Rim.Proofs.Cbor.Extent
import Rim.Proofs.Cbor.Failure
import Rim.Proofs.Cbor.Fields
import Rim.Proofs.Cbor.Heads
import Rim.Proofs.Cbor.Order
import Rim.Proofs.Cbor.Ordered
import Rim.Proofs.Cbor.Reading
import Rim.Proofs.Cbor.Rewriting
import Rim.Proofs.Choice.Ber
import Rim.Proofs.Choice.Cbor
import Rim.Proofs.Choice.Dotted
import Rim.Proofs.Choice.Equality
import Rim.Proofs.Choice.Failure
import Rim.Proofs.Choice.Faults
import Rim.Proofs.Choice.Formats
import Rim.Proofs.Choice.Json
import Rim.Proofs.Choice.Lossless
import Rim.Proofs.Choice.Masked
import Rim.Proofs.Choice.Oid
import Rim.Proofs.Choice.PublicKey
import Rim.Proofs.Comid.Building
import Rim.Proofs.Comid.Cbor
import Rim.Proofs.Comid.Equality
import Rim.Proofs.Comid.Failure
import Rim.Proofs.Comid.Growth
import Rim.Proofs.Comid.Json
import Rim.Proofs.Comid.Lossless
import Rim.Proofs.Comid.Reads
import Rim.Proofs.Comid.Whole
import Rim.Proofs.Contents
import Rim.Proofs.Cose.Header
import Rim.Proofs.Cose.Layers
import Rim.Proofs.Document
import Rim.Proofs.Failure
import Rim.Proofs.Growth
import Rim.Proofs.Json.Members
import Rim.Proofs.Json.Reading
import Rim.Proofs.Keyed
import Rim.Proofs.Layout
import Rim.Proofs.Layout.Cbor
import Rim.Proofs.Layout.Json
import Rim.Proofs.Layout.Missing
import Rim.Proofs.Layout.Reading
import Rim.Proofs.List
import Rim.Proofs.Manifest.Building
import Rim.Proofs.Manifest.Cbor
import Rim.Proofs.Manifest.Digest
import Rim.Proofs.Manifest.Failure
import Rim.Proofs.Manifest.Identifiers
import Rim.Proofs.Manifest.Json
import Rim.Proofs.Manifest.Lossless
import Rim.Proofs.Manifest.OwnProfile
import Rim.Proofs.Manifest.PartsCbor
import Rim.Proofs.Manifest.PartsFailure
import Rim.Proofs.Manifest.PartsJson
import Rim.Proofs.Manifest.PartsLossless
import Rim.Proofs.Manifest.Readers
import Rim.Proofs.Manifest.Rules
import Rim.Proofs.Manifest.StrayMembers
import Rim.Proofs.Manifest.Tag
import Rim.Proofs.Manifest.UnknownKinds
import Rim.Proofs.Manifest.Validity
import Rim.Proofs.Policy
import Rim.Proofs.Profile.Extension
import Rim.Proofs.Profile.Identifier
import Rim.Proofs.Profile.Registered
import Rim.Proofs.Put
import Rim.Proofs.Registry
import Rim.Proofs.Registry.Dispatch
import Rim.Proofs.Registry.Order
import Rim.Proofs.Result
import Rim.Proofs.Signed.Acceptance
import Rim.Proofs.Signed.Altered
import Rim.Proofs.Signed.Decoding
import Rim.Proofs.Signed.Outcomes
import Rim.Proofs.Signed.Signing
import Rim.Proofs.Staged
import Rim.Proofs.Staged.FirstError
import Rim.Proofs.Text.Blank
import Rim.Proofs.Text.Digits
import Rim.Proofs.Text.Octets
import Rim.Proofs.Text.Split
import Rim.Proofs.Time.Calendar
import Rim.Proofs.Time.Rfc3339
import Rim.Proofs.Unread
import Rim.Proofs.Within
import Rim.Registry
import Rim.Sequence
import Rim.Signed
import Rim.Signed.Acceptance
import Rim.Staged
import Rim.Table
import Rim.Text.Base64
import Rim.Text.Blank
import Rim.Text.Hex
import Rim.Text.Numeral
import Rim.Text.Printable
import Rim.Text.Quoted
import Rim.Text.Reading
import Rim.Text.Split
import Rim.Time.Calendar
import Rim.Time.Instant
import Rim.Time.Rfc3339
import Rim.Toml
import Rim.Proofs.Cbor.Maps
