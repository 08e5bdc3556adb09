import Rim.Proofs.Choice.Cbor
import Rim.Proofs.Choice.Oid
import Rim.Proofs.Json.Members

/-!
# Type choices in the text format

What stands beside the type name of a valid choice is read back by the reading of its kind. Unlike in
the binary format validity matters: an object identifier without arcs has no notation.

* `Uuid.parse_toText`: the grouped form of a UUID.
* `Choice.ofJson_text`: the reading of a kind undoes the writing of its valid values.
* `ChoiceRegistry.ofJson_toJson`: a registry reads a valid choice of a kind that it holds.
* `Choice.canonical_toJson`: what is written is canonical.
-/

namespace Rim

open Json Unread

/-! ### UUIDs -/

namespace Uuid

/-- Hyphens that stand where they have to are taken out. -/
theorem ungroup?_grouped {a b c d : List Char} (ha : a.length = 8) (hb : b.length = 4)
    (hc : c.length = 4) (hd : d.length = 4) (e : List Char) :
    ungroup? (a ++ '-' :: b ++ '-' :: c ++ '-' :: d ++ '-' :: e) = some (a ++ b ++ c ++ d ++ e) := by
  unfold ungroup?
  simp [List.drop_append, ha, hb, hc, hd, List.drop_eq_nil_of_le]

/-- A text of characters that take one octet each. -/
theorem utf8ByteSize_ofList {text : List Char} (h : ∀ c ∈ text, c.utf8Size = 1) :
    (String.ofList text).utf8ByteSize = text.length := by
  induction text with
  | nil => rfl
  | cons c r ih =>
    obtain ⟨hc, hr⟩ := List.forall_mem_cons.1 h
    rw [String.ofList_cons, String.utf8ByteSize_append, String.utf8ByteSize_singleton, hc, ih hr,
      List.length_cons, Nat.add_comm]

/-- The digits of a part of a UUID. -/
def group (u : Uuid) (start size : Nat) : List Char :=
  Text.Hex.encode ((u.octets.drop start).take size)

variable (u : Uuid)

theorem group_length {start size : Nat} (h : start + size ≤ 16) :
    (u.group start size).length = 2 * size := by
  have := u.length_octets
  rw [group, Text.Hex.encode_length, List.length_take, List.length_drop]
  omega

/-- The groups are the digits of all octets. -/
theorem groups_append : u.group 0 4 ++ u.group 4 2 ++ u.group 6 2 ++ u.group 8 2 ++ u.group 10 6 =
    Text.Hex.encode u.octets := by
  have hcut (start size : Nat) : (u.octets.drop start).take size ++ u.octets.drop (start + size) =
      u.octets.drop start := by
    rw [← List.drop_drop, List.take_append_drop]
  have hlast : (u.octets.drop 10).take 6 = u.octets.drop 10 := by
    have := u.length_octets
    exact List.take_of_length_le (by rw [List.length_drop]; omega)
  have hjoin (b d : Bytes) : Text.Hex.encode b ++ Text.Hex.encode d = Text.Hex.encode (b ++ d) :=
    List.flatMap_append.symm
  unfold group
  rw [hjoin, hjoin, hjoin, hjoin, hlast]
  simp only [List.append_assoc]
  rw [hcut 8 2, hcut 6 2, hcut 4 2, hcut 0 4]
  rfl

theorem toText_eq : u.toText = String.ofList (u.group 0 4 ++ '-' :: u.group 4 2 ++
    '-' :: u.group 6 2 ++ '-' :: u.group 8 2 ++ '-' :: u.group 10 6) := rfl

/-- The grouped form has 36 octets. -/
theorem utf8ByteSize_toText : u.toText.utf8ByteSize = 36 := by
  have hone (start size : Nat) : ∀ c ∈ u.group start size, c.utf8Size = 1 :=
    fun _ => Text.Hex.utf8Size_of_mem_encode
  have hyphen : '-'.utf8Size = 1 := rfl
  -- 32 digits and four hyphens, of one octet each
  rw [toText_eq, utf8ByteSize_ofList]
  · simp [group_length]
  · intro c hc
    simp only [List.mem_append, List.mem_cons] at hc
    rcases hc with (((hc | rfl | hc) | rfl | hc) | rfl | hc) | rfl | hc
    all_goals first | exact hyphen | exact hone _ _ _ hc

/-- **A UUID is read back from its grouped form.** -/
theorem parse_toText : parse u.toText = .ok u := by
  have hgroups : ungroup? u.toText.toList = some (Text.Hex.encode u.octets) := by
    rw [toText_eq, String.toList_ofList, ← groups_append]
    exact ungroup?_grouped (u.group_length (by omega)) (u.group_length (by omega))
      (u.group_length (by omega)) (u.group_length (by omega)) _
  rw [parse, if_neg (not_not.2 u.utf8ByteSize_toText), hgroups, Option.bind_some,
    Text.Hex.decode?_encode]
  exact dif_pos u.length_octets

end Uuid

/-! ### Choices -/

theorem ReferenceValueId.ofJson_toJson (i : ReferenceValueId) :
    ReferenceValueId.ofJson i.toJson = .ok i := by
  refine Value.readObject_ofMemberList ["label", "version", "signer-id"] rfl (by decide) ?_
  refine .bind (.takeWith fun _ _ => rfl) ?_
  refine .bind (.takeWith fun _ _ => rfl) ?_
  exact .bind (.requireWith (Value.toBytes_ofBytes _ _)) (.pure _ _)

theorem ReferenceValueId.canonical_toJson (i : ReferenceValueId) : i.toJson.Canonical 1 :=
  .ofMemberList (.map .string (.map .string (.some (.ofBytes _) .nil)))

theorem MaskedValue.ofJson_toJson (x : MaskedValue) : MaskedValue.ofJson x.toJson = .ok x := by
  refine Value.readObject_ofMemberList ["value", "mask"] rfl (by decide) ?_
  refine .bind (.requireWith (Value.toBytes_ofBytes _ _)) ?_
  exact .bind (.requireWith (Value.toBytes_ofBytes _ _)) (.pure _ _)

theorem MaskedValue.canonical_toJson (x : MaskedValue) : x.toJson.Canonical 1 :=
  .ofMemberList (.some (.ofBytes _) (.some (.ofBytes _) .nil))

theorem Ueid.ofJson_toJson (u : Ueid) : Ueid.ofJson u.toJson = .ok u := by
  show (do return ⟨← (Value.ofBytes u.octets).toBytes "UEID"⟩ : Result Ueid) = _
  rw [Value.toBytes_ofBytes]
  rfl

theorem ImplementationId.ofJson_toJson (i : ImplementationId) :
    ImplementationId.ofJson i.toJson = .ok i := by
  show (do ofBytes (← (Value.ofBytes i.octets).toBytes "PSA implementation id") : Result _) = _
  rw [Value.toBytes_ofBytes]
  exact i.ofBytes_octets

namespace Choice

/-- **The reading of a kind undoes the writing of its valid values.** -/
theorem ofJson_text {x : Choice} (h : x.validate = .ok ()) : x.kind.ofJson x.text = .ok x := by
  cases x with
  | uuid u =>
    show Choice.uuid <$> Uuid.parse u.toText = _
    rw [u.parse_toText]
    rfl
  | oid o =>
    show Choice.oid <$> Oid.parse o.toText = _
    rw [Oid.parse_toText h]
    rfl
  | ueid u =>
    show Choice.ueid <$> Ueid.ofJson u.toJson = _
    rw [u.ofJson_toJson]
    rfl
  | int n | svn n | minSvn n =>
    show _ <$> (Value.ofUInt64 n).toUInt64 _ = _
    rw [Value.toUInt64_ofUInt64]
    rfl
  | publicKey => rfl
  | bytes b =>
    show Choice.bytes <$> (Value.ofBytes b).toBytes _ = _
    rw [Value.toBytes_ofBytes]
    rfl
  | masked x =>
    show Choice.masked <$> MaskedValue.ofJson x.toJson = _
    rw [x.ofJson_toJson]
    rfl
  | implementationId i =>
    show Choice.implementationId <$> ImplementationId.ofJson i.toJson = _
    rw [i.ofJson_toJson]
    rfl
  | referenceValueId i =>
    show Choice.referenceValueId <$> ReferenceValueId.ofJson i.toJson = _
    rw [i.ofJson_toJson]
    rfl

theorem canonical_text (x : Choice) : x.text.Canonical 1 := by
  cases x with
  | int | svn | minSvn => exact .ofUInt64 _
  | masked x => exact x.canonical_toJson
  | referenceValueId i => exact i.canonical_toJson
  | uuid | oid | ueid | publicKey | bytes | implementationId => exact .string _

theorem canonical_toJson (x : Choice) : x.toJson.Canonical 2 := .typed x.canonical_text

end Choice

namespace Registry

variable {κ χ : Type} [Checkable χ] {r : Registry κ χ} {x : χ}

/-- What is read from the text format is valid. -/
theorem validate_of_ofJson {v : Json.Value} (h : r.ofJson v = .ok x) :
    Checkable.validate x = .ok () := by
  obtain ⟨t, -, h⟩ := Result.bind_eq_ok.1 h
  obtain ⟨y, -, h⟩ := Result.bind_eq_ok.1 h
  obtain ⟨hv, rfl⟩ := checked_eq_ok.1 h
  exact hv

/-- **What a held kind reads beside its name** is accepted if it is valid. -/
theorem ofJson_of_holds [DecidableEq κ] [KindFamily κ χ] {k : κ} {value : Json.Value}
    (h : r.Consistent) (hk : r.holds k) (hread : (KindFamily.reader k).ofJson value = .ok x)
    (hv : Checkable.validate x = .ok ()) : r.ofJson (.typed (KindFamily.name k) value) = .ok x := by
  have ht : r.readNamed (KindFamily.name k) value = .ok x := by
    rw [readNamed, readerOfName_of_holds h hk]
    exact hread
  rw [Registry.ofJson, Value.untyped_typed]
  show (do checked (← r.readNamed (KindFamily.name k) value) : Result χ) = _
  rw [ht]
  exact checked_eq_ok.2 ⟨hv, rfl⟩

end Registry

namespace ChoiceRegistry

variable {r : ChoiceRegistry} {x : Choice}

/-- **A registry reads a valid choice back** if it holds the kind. -/
theorem ofJson_toJson (hr : r.Consistent) (hk : r.holds x.kind) (hv : x.validate = .ok ()) :
    r.ofJson x.toJson = .ok x :=
  Registry.ofJson_of_holds hr hk (Choice.ofJson_text hv) hv

end ChoiceRegistry

end Rim
