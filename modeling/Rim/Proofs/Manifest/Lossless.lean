import Rim.Proofs.Comid.Lossless
import Rim.Proofs.Manifest.Cbor

/-!
# Manifests are read without loss

A manifest is written as it was read, but for three things: a security version that stands as a plain
number is written under its tag, an empty list that may be left out is left out, and a module tag is
written anew inside its octets. So nothing of what was read is passed over, and two values that are
read as one manifest differ in these three things only.

* `EmbeddedTag.tidied`, `Manifest.tidied`: a value with these three changes, at every depth.
* `Manifest.toCbor_of_ofCbor`: a manifest is written as it was read, tidied.
-/

namespace Rim

open Cbor

variable {s : Scope}

namespace EmbeddedTag

/-- A module tag, tidied under its tag. -/
def tidiedItem : Value → Value
  | .tag n body => .tag n (Comid.tidied body)
  | v => v

/-- The octets of a module tag written anew from what they hold, and any others as they are. -/
def tidiedOctets (b : Bytes) : Bytes :=
  if comidHead.isPrefixOf b then
    match decode? b with
    | some v => (tidiedItem v).encode
    | none => b
  else b

/-- An embedded tag with its octets tidied. -/
def tidied : Value → Value
  | .bytes b => .bytes (tidiedOctets b)
  | v => v

theorem restores (hs : s.Consistent) (ho : s.registry.Owned) :
    Restores EmbeddedTag.toCbor tidied (EmbeddedTag.ofCbor s) := by
  intro v t hv h
  obtain ⟨b, hb, h⟩ := Result.bind_eq_ok.1 h
  obtain rfl : Value.bytes b = v := Value.lossless_toBytes _ v b hv hb
  show t.toCbor = .bytes (tidiedOctets b)
  rcases ofOctets_eq_ok.1 h with ⟨hp, body, d, hdecode, hd, rfl⟩ | ⟨hn, rfl⟩
  · have hbody : d.toCbor = Comid.tidied body :=
      Comid.restores hs ho body d (decode_inOrder hdecode).body hd
    rw [tidiedOctets, if_pos (List.isPrefixOf_iff_prefix.2 hp), decode_eq_ok.1 hdecode]
    show Value.bytes (Value.tag Comid.tag d.toCbor).encode = _
    rw [hbody]
    rfl
  · rw [tidiedOctets, if_neg fun hp => hn (List.isPrefixOf_iff_prefix.1 hp)]
    rfl

end EmbeddedTag

namespace Manifest

variable {c : Catalogue}

/-- A manifest with its tags tidied, and without lists of locators or entities that are empty. -/
def tidied : Value → Value := Value.rewrite [(1, some ∘ Value.mapItems EmbeddedTag.tidied),
  (2, Value.ifAny), (5, Value.ifAny)]

theorem restores (hc : c.Consistent) (ho : c.registry.Owned) :
    Restores Manifest.toCbor tidied (Manifest.ofCbor c) := by
  refine Accounts.readMap _ ?_
  refine .takeWith (ProfileId.lossless.context _) rfl fun profile => ?_
  have htag := EmbeddedTag.restores (hc.scope profile) ho
  refine .requireWith (Identifier.lossless.context _) rfl fun id => ?_
  refine .requireWith (htag.arrayEach _ _) rfl fun tags => ?_
  refine .takeList (Restores.array Locator.lossless _) rfl fun dependents => ?_
  refine .takeWith (Validity.lossless.context _) rfl fun validity => ?_
  refine .takeList (Restores.array Entity.lossless _) rfl fun entities => ?_
  -- the profile was taken before the fields that it is written behind
  exact .pure (@List.perm_middle _ _ [_, _, _] _).symm

/-- **A manifest is written as it was read**, but for three changes wherever they apply, and two values
that are read as one manifest are the same once they are made. -/
theorem toCbor_of_ofCbor (hc : c.Reachable) (ho : c.registry.Owned) {v : Value} (hv : v.InOrder)
    {m : Manifest} (h : Manifest.ofCbor c v = .ok m) :
    m.toCbor = tidied v ∧
      ∀ w : Value, w.InOrder → Manifest.ofCbor c w = .ok m → tidied w = tidied v := by
  have hr := restores (Catalogue.consistent_of_reachable hc) ho
  have hm : m.toCbor = tidied v := hr v m hv h
  refine ⟨hm, fun w hw hwm => ?_⟩
  rw [← hm, hr w m hw hwm]

/-- A module tag in octets of indefinite length, with a plain security version and empty lists. -/
def untidyTag : Bytes :=
  let measurement : Value := .map [(.natural 1, .map [(.natural 1, .natural 7)])]
  let moduleClass : Value := .map [(.natural 0, .tag Kind.oid.tag (.bytes [0x2a, 0x03]))]
  let environment : Value := .map [(.natural 0, moduleClass)]
  let triples : Value := .map [(.natural 0, .array [.array [environment, .array [measurement]]]),
    (.natural 1, .array []), (.natural 2, .array []), (.natural 3, .array [])]
  EmbeddedTag.comidHead ++ 0xbf :: Value.encodeEntries [
    (.natural 1, .map [(.natural 0, .text "acme-module")]), (.natural 2, .array []),
    (.natural 4, triples)] ++ [0xff]

/-- A manifest that all three changes apply to. -/
def untidy : Value := .map [(.natural 0, .text "acme-rim"), (.natural 1, .array [.bytes untidyTag]),
  (.natural 2, .array []), (.natural 5, .array [])]

/-- What it is read as. -/
def tidy : Manifest := single (.comid .plain)

/-- The untidy value is read, and what is written of it is another value that is read as the same
manifest. -/
theorem toCbor_of_ofCbor_untidy :
    Manifest.ofCbor Catalogue.bundled untidy = .ok tidy ∧
      Manifest.ofCbor Catalogue.bundled tidy.toCbor = .ok tidy ∧
      tidy.toCbor = tidied untidy ∧ tidied tidy.toCbor = tidied untidy ∧
      tidy.toCbor.encode ≠ untidy.encode := by
  obtain ⟨hm, hw⟩ := toCbor_of_ofCbor Catalogue.bundled_reachable (by decide +kernel)
    (Value.inOrder_of_normal (v := untidy) rfl) (m := tidy) rfl
  exact ⟨rfl, rfl, hm, hw tidy.toCbor (Value.inOrder_of_normal rfl) rfl, by decide +kernel⟩

end Manifest

end Rim
