import Rim.Crypto.Sha2

/-!
# Deterministic nonces

Keyed hashes and the secret numbers that signatures draw from them: the number depends on the
private key and on the hash of the message alone.

* `hmac`: the keyed hash of a message.
* `nonce?`: the secret number of a key and a hash, below the order of a group.
-/

namespace Rim.Crypto

/-- A key as one block of the hash. -/
def keyBlock (key : Bytes) : Bytes :=
  let k := if 64 < key.length then sha256 key else key
  k ++ List.replicate (64 - k.length) 0

/-- The keyed hash of a message. -/
def hmac (key message : Bytes) : Bytes :=
  sha256 ((keyBlock key).map (· ^^^ 0x5c) ++ sha256 ((keyBlock key).map (· ^^^ 0x36) ++ message))

/-- The key and the value that nonces are drawn from. -/
structure Drawing where
  key : Bytes
  value : Bytes

namespace Drawing

/-- Mixes a separating octet and data into the key, and steps the value. -/
def mix (separator : UInt8) (data : Bytes) (s : Drawing) : Drawing :=
  let key := hmac s.key (s.value ++ separator :: data)
  ⟨key, hmac key s.value⟩

/-- The start for a private key and a hash. -/
def start (seed : Bytes) : Drawing :=
  (Drawing.mk (List.replicate 32 0) (List.replicate 32 1)).mix 0 seed |>.mix 1 seed

/-- The first number that is neither zero nor too large, in at most so many draws. -/
def draw? (order : Nat) : (draws : Nat) → Drawing → Option Nat
  | 0, _ => none
  | draws + 1, s =>
    let value := hmac s.key s.value
    let n := Bytes.toNatBE value
    if 0 < n ∧ n < order then some n
    -- a value that is no nonce changes the key before the next draw
    else draw? order draws (Drawing.mix 0 [] ⟨s.key, value⟩)

end Drawing

/-- The nonce of a private number and a hash, both below the order of the group. -/
def nonce? (order secret hash : Nat) : Option Nat :=
  (Drawing.start (Bytes.ofNatBE 32 secret ++ Bytes.ofNatBE 32 hash)).draw? order 64

end Rim.Crypto
