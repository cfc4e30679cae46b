import OpenID4VP.Lib.Once
import OpenID4VP.Core.AuthorizationRequest.TransactionData

/-! # Items of transaction data by their members

Which JSON is read as an item, and as one of which type. An item that names the known type is read
as it only if its members are those of that type, and otherwise the variant for unknown types takes
it, under the same name (`exists_fromTree_unknown_iff`). -/

namespace OpenID4VP
open Members

/-! ## Well-formed items -/

/-- The trees that name a format. -/
inductive NamesFormat : Json → Prop
  | text (h : name ∈ ["dSD-JWT", "dSD-JWT+KB"]) : NamesFormat (.string name)
  | key (h : name ∈ ["dSD-JWT", "dSD-JWT+KB"]) (hx : x = .null ∨ x = .object []) :
    NamesFormat (.object [(name, x)])

inductive NamesHashAlgorithm : Json → Prop
  | text (h : name ∈ ["sha-256", "sha-384", "sha-512"]) : NamesHashAlgorithm (.string name)

/-- The members of the known type. -/
structure DelegateMembers (ms : List (String × Json)) : Prop where
  format : RequiredOf NamesFormat (lookupAll "format" ms)
  delegatePayloadDisclosure : RequiredOf IsText (lookupAll "delegate_payload_disclosure" ms)
  delegateDisclosures : OptionalOf (IsArrayOf IsText) (lookupAll "delegate_disclosures" ms)

/-- The members that an item of any type has. -/
structure ItemMembers (ms : List (String × Json)) : Prop where
  credentialIds : RequiredOf (IsArrayOf IsText) (lookupAll "credential_ids" ms)
  transactionDataHashesAlg :
    OptionalOf (IsArrayOf NamesHashAlgorithm) (lookupAll "transaction_data_hashes_alg" ms)
  type : (lookupAll "type" ms).length = 1

/-- An item that names the known type, whose members are not those of it. -/
structure MalformedDelegate (ms : List (String × Json)) : Prop where
  type : .string "delegate" ∈ lookupAll "type" ms
  members : ¬DelegateMembers ms

/-! ## Formats and algorithms -/

theorem reads_format : Reads DelegateSdJwtTransactionDataFormat NamesFormat := by
  intro x
  constructor
  · rintro ⟨f, hf⟩
    change bufferedUnitVariant _ x = some f at hf
    have hname {name : String} (h : List.lookup name
        [("dSD-JWT", DelegateSdJwtTransactionDataFormat.open), ("dSD-JWT+KB", .holderBinding)] =
          some f) : name ∈ ["dSD-JWT", "dSD-JWT+KB"] :=
      List.mem_map_of_mem (f := Prod.fst) (Members.mem_of_lookup_eq_some h)
    unfold bufferedUnitVariant at hf
    split at hf
    · exact .key (hname hf) (.inr rfl)
    · unfold unitVariant at hf
      split at hf
      · exact .text (hname hf)
      · exact .key (hname hf) (.inl rfl)
      · cases hf
  · have hname {name : String} (h : name ∈ ["dSD-JWT", "dSD-JWT+KB"]) :
        name = "dSD-JWT" ∨ name = "dSD-JWT+KB" := by simpa using h
    rintro (h | ⟨h, rfl | rfl⟩) <;> obtain rfl | rfl := hname h
    all_goals first | exact ⟨.open, rfl⟩ | exact ⟨.holderBinding, rfl⟩

theorem reads_hashAlgorithm : Reads HashAlgorithm NamesHashAlgorithm := by
  intro x
  constructor
  · rintro ⟨a, ha⟩
    change ((fromTree x : Option String) >>= fun s => (HashAlgorithm.tryFrom s).toOption) =
      some a at ha
    obtain ⟨s, hs, ht⟩ := Option.bind_eq_some_iff.mp ha
    obtain rfl := fromTree_eq_text_iff.mp hs
    obtain rfl := HashAlgorithm.tryFrom_eq_ok_iff.mp (Except.toOption_eq_some_iff.mp ht)
    refine .text ?_
    cases a <;> simp [HashAlgorithm.toString]
  · rintro ⟨h⟩
    simp only [List.mem_cons, List.not_mem_nil, or_false] at h
    obtain rfl | rfl | rfl := h
    · exact ⟨.sha256, rfl⟩
    · exact ⟨.sha384, rfl⟩
    · exact ⟨.sha512, rfl⟩

/-! ## Reading the contents -/

namespace DelegateSdJwtTransactionData

theorem read_eq_some_iff {ms : List (String × Json)} {d : DelegateSdJwtTransactionData} :
    read ms = some d ↔
      namesOnce ["format", "delegate_payload_disclosure", "delegate_disclosures"] ms = true ∧
        (memberSlot ms "format").required = some d.format ∧
        (memberSlot ms "delegate_payload_disclosure").required =
          some d.delegatePayloadDisclosure ∧
        (memberSlot ms "delegate_disclosures").optional = some d.delegateDisclosures := by
  rw [read, mapFields]
  split
  · next h =>
    simp only [Option.bind_eq_bind, Option.bind_some, Option.bind_eq_some_iff, Option.pure_def,
      Option.some_inj, h, true_and]
    constructor
    · rintro ⟨f, hf, p, hp, ds, hds, rfl⟩
      exact ⟨hf, hp, hds⟩
    · rintro ⟨hf, hp, hds⟩
      exact ⟨_, hf, _, hp, _, hds, rfl⟩
  · next h => exact iff_of_false (Option.some_ne_none _ ·.symm) (h ·.1)

theorem exists_read_iff {ms : List (String × Json)} :
    (∃ d, read ms = some d) ↔ DelegateMembers ms := by
  have hf := exists_required_iff reads_format ms "format"
  have hp := exists_required_iff reads_text ms "delegate_payload_disclosure"
  have hd := exists_optional_iff (reads_list reads_text) ms "delegate_disclosures"
  simp only [read_eq_some_iff, namesOnce_iff, List.forall_mem_cons]
  constructor
  · rintro ⟨d, ⟨hf1, hp1, hd1, -⟩, hf2, hp2, hd2⟩
    exact ⟨hf.mp ⟨hf1, _, hf2⟩, hp.mp ⟨hp1, _, hp2⟩, hd.mp ⟨hd1, _, hd2⟩⟩
  · intro h
    obtain ⟨hf1, f, hf2⟩ := hf.mpr h.format
    obtain ⟨hp1, p, hp2⟩ := hp.mpr h.delegatePayloadDisclosure
    obtain ⟨hd1, ds, hd2⟩ := hd.mpr h.delegateDisclosures
    exact ⟨⟨f, p, ds⟩, ⟨hf1, hp1, hd1, fun _ hk => absurd hk List.not_mem_nil⟩, hf2, hp2, hd2⟩

end DelegateSdJwtTransactionData

/-- Only the members of the known type matter. -/
theorem delegateMembers_congr {ms ns : List (String × Json)}
    (h : ∀ k ∈ ["format", "delegate_payload_disclosure", "delegate_disclosures"],
      lookupAll k ms = lookupAll k ns) : DelegateMembers ms ↔ DelegateMembers ns := by
  simp only [List.forall_mem_cons] at h
  obtain ⟨hf, hp, hd, -⟩ := h
  constructor
  · rintro ⟨h1, h2, h3⟩
    exact ⟨hf ▸ h1, hp ▸ h2, hd ▸ h3⟩
  · rintro ⟨h1, h2, h3⟩
    exact ⟨hf ▸ h1, hp ▸ h2, hd ▸ h3⟩

theorem delegateMembers_filter (names : List String) (ms : List (String × Json))
    (h : ∀ k ∈ ["format", "delegate_payload_disclosure", "delegate_disclosures"], k ∉ names) :
    DelegateMembers (ms.filter fun m => m.1 ∉ names) ↔ DelegateMembers ms :=
  delegateMembers_congr fun k hk => lookupAll_filter_of_not_mem (h k hk) ms

namespace TransactionDataItemTypeContent

variable {ms : List (String × Json)} {c : TransactionDataItemTypeContent}

theorem readDelegate_eq_some_iff : readDelegate ms = some c ↔
    ∃ x d, lookupAll "type" ms = [x] ∧ isDelegateTag x = true ∧
      DelegateSdJwtTransactionData.read (ms.filter fun m => m.1 ∉ ["type"]) = some d ∧
      c = delegateSdJwt d := by
  simp only [readDelegate, Option.bind_eq_bind, Option.bind_eq_some_iff, takeNames_eq_some_iff,
    List.forall_mem_singleton, lookupAll_eq_singleton_iff]
  constructor
  · rintro ⟨_, ⟨ht, rfl⟩, x, hx, h⟩
    split at h
    · next htag =>
      obtain ⟨d, hd, h⟩ := Option.bind_eq_some_iff.mp h
      obtain rfl := Option.some.inj h
      exact ⟨x, d, ⟨ht, hx⟩, htag, hd, rfl⟩
    · cases h
  · rintro ⟨x, d, ⟨ht, hx⟩, htag, hd, rfl⟩
    refine ⟨_, ⟨ht, rfl⟩, x, hx, ?_⟩
    rw [if_pos htag, hd]
    rfl

theorem readUnknown_eq_some_iff : readUnknown ms = some c ↔
    ∃ type, lookupAll "type" ms = [.string type] ∧
      c = unknown type (.ofMembers (ms.filter fun m => m.1 ∉ ["type"])) := by
  simp only [readUnknown, Option.bind_eq_bind, Option.bind_eq_some_iff, takeNames_eq_some_iff,
    List.forall_mem_singleton, lookupAll_eq_singleton_iff, Slot.required_eq_some_iff,
    memberSlot_eq_given_iff, fromTree_eq_text_iff, Option.pure_def, Option.some_inj]
  constructor
  · rintro ⟨_, ⟨ht, rfl⟩, type, ⟨x, hx, rfl⟩, rfl⟩
    exact ⟨type, ⟨ht, hx⟩, rfl⟩
  · rintro ⟨type, ⟨ht, hx⟩, rfl⟩
    exact ⟨_, ⟨ht, rfl⟩, type, ⟨_, hx, rfl⟩, rfl⟩

theorem exists_readDelegate_iff : (∃ c, readDelegate ms = some c) ↔
    (∃ x, lookupAll "type" ms = [x] ∧ isDelegateTag x = true) ∧ DelegateMembers ms := by
  rw [← delegateMembers_filter ["type"] ms (by simp),
    ← DelegateSdJwtTransactionData.exists_read_iff]
  simp only [readDelegate_eq_some_iff]
  constructor
  · rintro ⟨_, x, d, hx, htag, hd, -⟩
    exact ⟨⟨x, hx, htag⟩, d, hd⟩
  · rintro ⟨⟨x, hx, htag⟩, d, hd⟩
    exact ⟨_, x, d, hx, htag, hd, rfl⟩

theorem read_eq_some_iff : read ms = some c ↔
    readDelegate ms = some c ∨ (¬∃ c, readDelegate ms = some c) ∧ readUnknown ms = some c := by
  rw [read]
  cases readDelegate ms with
  | some c' => simp
  | none => simp

theorem lookupAll_type_of_read (h : read ms = some c) : (lookupAll "type" ms).length = 1 := by
  rcases read_eq_some_iff.mp h with hd | ⟨-, hu⟩
  · obtain ⟨x, -, hx, -⟩ := readDelegate_eq_some_iff.mp hd
    rw [hx, List.length_singleton]
  · obtain ⟨type, ht, -⟩ := readUnknown_eq_some_iff.mp hu
    rw [ht, List.length_singleton]

/-- What is read as an unknown type: all that names a type, but for the well-formed items of the
known one. -/
theorem read_eq_some_unknown_iff {type : String} {data : JsonMap} :
    read ms = some (unknown type data) ↔ lookupAll "type" ms = [.string type] ∧
      data = .ofMembers (ms.filter fun m => m.1 ∉ ["type"]) ∧
      ¬(type = "delegate" ∧ DelegateMembers ms) := by
  have hd : readDelegate ms ≠ some (unknown type data) := by
    intro h
    obtain ⟨_, _, -, -, -, he⟩ := readDelegate_eq_some_iff.mp h
    cases he
  rw [read_eq_some_iff, or_iff_right hd, exists_readDelegate_iff, readUnknown_eq_some_iff]
  have htag {x : Json} (hx : lookupAll "type" ms = [.string type]) :
      lookupAll "type" ms = [x] ∧ isDelegateTag x = true ↔
        .string type = x ∧ type = "delegate" := by
    rw [hx, List.cons.injEq, and_iff_left rfl]
    refine and_congr_right ?_
    rintro rfl
    exact decide_eq_true_iff
  constructor
  · rintro ⟨hn, type', ht, h⟩
    cases h
    refine ⟨ht, rfl, fun h => hn ⟨⟨_, (htag ht).mpr ⟨rfl, h.1⟩⟩, h.2⟩⟩
  · rintro ⟨ht, rfl, hn⟩
    refine ⟨?_, type, ht, rfl⟩
    rintro ⟨⟨x, hx⟩, hm⟩
    exact hn ⟨((htag ht).mp hx).2, hm⟩

end TransactionDataItemTypeContent

/-! ## Reading items -/

namespace TransactionDataItem

variable {ms : List (String × Json)} {item : TransactionDataItem}

theorem fromTree_eq_some_iff :
    (fromTree (.object ms) : Option TransactionDataItem) = some item ↔
      (∀ k ∈ ["credential_ids", "transaction_data_hashes_alg"], (lookupAll k ms).length ≤ 1) ∧
        (memberSlot ms "credential_ids").required = some item.credentialIds ∧
        (memberSlot ms "transaction_data_hashes_alg").optional =
          some item.transactionDataHashesAlg ∧
        TransactionDataItemTypeContent.read (ms.filter fun m =>
          m.1 ∉ ["credential_ids", "transaction_data_hashes_alg"]) = some item.content := by
  change (takeNames ["credential_ids", "transaction_data_hashes_alg"] ms >>= fun rest => _) =
    some item ↔ _
  simp only [Option.bind_eq_bind, Option.bind_eq_some_iff, takeNames_eq_some_iff, Option.pure_def,
    Option.some_inj]
  constructor
  · rintro ⟨_, ⟨hk, rfl⟩, ids, hids, alg, halg, content, hc, rfl⟩
    exact ⟨hk, hids, halg, hc⟩
  · rintro ⟨hk, hids, halg, hc⟩
    exact ⟨_, ⟨hk, rfl⟩, _, hids, _, halg, _, hc, rfl⟩

theorem itemMembers_iff : ItemMembers ms ↔
    (∀ k ∈ ["credential_ids", "transaction_data_hashes_alg"], (lookupAll k ms).length ≤ 1) ∧
      (∃ ids : List String, (memberSlot ms "credential_ids").required = some ids) ∧
      (∃ alg : Option (List HashAlgorithm),
        (memberSlot ms "transaction_data_hashes_alg").optional = some alg) ∧
      (lookupAll "type" ms).length = 1 := by
  have hi := exists_required_iff (reads_list reads_text) ms "credential_ids"
  have ha := exists_optional_iff (reads_list reads_hashAlgorithm) ms "transaction_data_hashes_alg"
  simp only [List.forall_mem_cons]
  constructor
  · intro h
    obtain ⟨hi1, hi2⟩ := hi.mpr h.credentialIds
    obtain ⟨ha1, ha2⟩ := ha.mpr h.transactionDataHashesAlg
    exact ⟨⟨hi1, ha1, fun _ hk => absurd hk List.not_mem_nil⟩, hi2, ha2, h.type⟩
  · rintro ⟨⟨hi1, ha1, -⟩, hi2, ha2, ht⟩
    exact ⟨hi.mp ⟨hi1, hi2⟩, ha.mp ⟨ha1, ha2⟩, ht⟩

/-- What is left of an item for its contents. -/
theorem lookupAll_rest {k : String} (h : k ∉ ["credential_ids", "transaction_data_hashes_alg"]) :
    lookupAll k (ms.filter fun m => m.1 ∉ ["credential_ids", "transaction_data_hashes_alg"]) =
      lookupAll k ms := lookupAll_filter_of_not_mem h ms

theorem itemMembers_of_fromTree (h : fromTree (.object ms) = some item) : ItemMembers ms := by
  obtain ⟨hk, hids, halg, hc⟩ := fromTree_eq_some_iff.mp h
  have ht := TransactionDataItemTypeContent.lookupAll_type_of_read hc
  rw [lookupAll_rest (by simp)] at ht
  exact itemMembers_iff.mpr ⟨hk, ⟨_, hids⟩, ⟨_, halg⟩, ht⟩

/-- The members that an unknown type keeps. -/
def furtherMembers (ms : List (String × Json)) : List (String × Json) :=
  (ms.filter fun m => m.1 ∉ ["credential_ids", "transaction_data_hashes_alg"]).filter fun m =>
    m.1 ∉ ["type"]

/-- What is read as an item of an unknown type. -/
theorem exists_fromTree_unknown_iff {type : String} {data : JsonMap} :
    (∃ item : TransactionDataItem,
      fromTree (.object ms) = some item ∧ item.content = .unknown type data) ↔
      ItemMembers ms ∧ lookupAll "type" ms = [.string type] ∧
        data = .ofMembers (furtherMembers ms) ∧ ¬(type = "delegate" ∧ DelegateMembers ms) := by
  rw [← lookupAll_rest (k := "type") (by simp),
    ← delegateMembers_filter ["credential_ids", "transaction_data_hashes_alg"] ms (by simp),
    furtherMembers,
    ← TransactionDataItemTypeContent.read_eq_some_unknown_iff]
  constructor
  · rintro ⟨item, h, hc⟩
    refine ⟨itemMembers_of_fromTree h, ?_⟩
    rw [← hc]
    exact (fromTree_eq_some_iff.mp h).2.2.2
  · rintro ⟨hm, hc⟩
    obtain ⟨hk, ⟨ids, hids⟩, ⟨alg, halg⟩, -⟩ := itemMembers_iff.mp hm
    exact ⟨⟨ids, alg, _⟩, fromTree_eq_some_iff.mpr ⟨hk, hids, halg, hc⟩, rfl⟩

/-- A malformed item of the known type is read as one of an unknown type. -/
theorem exists_fromTree_of_malformed {ms : List (String × Json)} (hi : ItemMembers ms)
    (hm : MalformedDelegate ms) : ∃ item : TransactionDataItem,
      fromTree (.object ms) = some item ∧
        item.content = .unknown "delegate" (.ofMembers (furtherMembers ms)) := by
  refine exists_fromTree_unknown_iff.mpr ⟨hi, ?_, rfl, fun h => hm.members h.2⟩
  obtain ⟨x, hx⟩ := List.length_eq_one_iff.mp hi.type
  have ht := hm.type
  rw [hx, List.mem_singleton] at ht
  rw [hx, ht]

theorem delegateMembers_of_fromTree {ms : List (String × Json)} {d : DelegateSdJwtTransactionData}
    (h : fromTree (.object ms) = some item) (hc : item.content = .delegateSdJwt d) :
    DelegateMembers ms := by
  have hr := (fromTree_eq_some_iff.mp h).2.2.2
  rcases TransactionDataItemTypeContent.read_eq_some_iff.mp hr with hd | ⟨-, hu⟩
  · have hm := (TransactionDataItemTypeContent.exists_readDelegate_iff.mp ⟨_, hd⟩).2
    rwa [delegateMembers_filter _ ms (by simp)] at hm
  · obtain ⟨type, -, hu⟩ := TransactionDataItemTypeContent.readUnknown_eq_some_iff.mp hu
    cases hc.symm.trans hu

end TransactionDataItem
end OpenID4VP
