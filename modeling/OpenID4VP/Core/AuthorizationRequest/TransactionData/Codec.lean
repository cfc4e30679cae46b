import OpenID4VP.Core.AuthorizationRequest.TransactionData.Members
import OpenID4VP.Crates.Reference

/-! # Items of transaction data that are written again

An item of the known type is read back. One of an unknown type is, unless it has the name of the
known type and, once it has been written, the members of it, too. -/

namespace OpenID4VP
open Members

/-! ## Writing the contents -/

namespace DelegateSdJwtTransactionData

def slots (d : DelegateSdJwtTransactionData) : List (String × Option Json) :=
  [("format", some (toTree d.format)),
    ("delegate_payload_disclosure", some (toTree d.delegatePayloadDisclosure)),
    ("delegate_disclosures", d.delegateDisclosures.map toTree)]

theorem write_eq_present (d : DelegateSdJwtTransactionData) : d.write = present d.slots := by
  rw [write, optionalMember_eq_present]
  rfl

theorem nodup_keys_slots (d : DelegateSdJwtTransactionData) : (keys d.slots).Nodup := by
  change ["format", "delegate_payload_disclosure", "delegate_disclosures"].Nodup
  decide

theorem read_write (d : DelegateSdJwtTransactionData) : read d.write = some d := by
  have hs := memberSlot_present d.nodup_keys_slots
  rw [write_eq_present]
  refine read_eq_some_iff.mpr ⟨namesOnce_of_nodup _ (nodup_keys_present d.nodup_keys_slots), ?_⟩
  rw [hs, hs, hs]
  refine ⟨?_, rfl, Slot.optional_ofOption d.delegateDisclosures⟩
  exact LawfulSerde.fromTree_toTree d.format

theorem apart_write {names : List String} (d : DelegateSdJwtTransactionData)
    (h : ∀ k ∈ ["format", "delegate_payload_disclosure", "delegate_disclosures"], k ∉ names) :
    Apart names d.write := by
  rw [write_eq_present]
  intro m hm
  exact h m.1 ((keys_present_sublist d.slots).subset (List.mem_map_of_mem hm))

end DelegateSdJwtTransactionData

namespace TransactionDataItemTypeContent

/-- Contents keep no members of these names. -/
def ApartFrom (names : List String) : TransactionDataItemTypeContent → Prop
  | delegateSdJwt _ => True
  | unknown _ data => Apart names data.entries

theorem ApartFrom.mono {names names' : List String} {c : TransactionDataItemTypeContent}
    (h : c.ApartFrom names) (hs : names' ⊆ names) : c.ApartFrom names' := by
  cases c with
  | delegateSdJwt d => trivial
  | unknown type data => exact Apart.mono h hs

theorem nodup_keys_write {c : TransactionDataItemTypeContent} (h : c.ApartFrom ["type"]) :
    (keys c.write).Nodup := by
  cases c with
  | delegateSdJwt d =>
    have hd : (keys d.write).Nodup := by
      rw [d.write_eq_present]
      exact nodup_keys_present d.nodup_keys_slots
    exact List.nodup_cons.mpr ⟨(d.apart_write (by simp)).not_mem_keys (List.mem_singleton.mpr rfl),
      hd⟩
  | unknown type data =>
    exact List.nodup_cons.mpr ⟨Apart.not_mem_keys h (List.mem_singleton.mpr rfl), data.nodup_keys⟩

theorem apart_write {names : List String} {c : TransactionDataItemTypeContent}
    (h : c.ApartFrom names) (hn : ∀ k ∈ ["type", "format", "delegate_payload_disclosure",
      "delegate_disclosures"], k ∉ names) : Apart names c.write := by
  rw [List.forall_mem_cons] at hn
  cases c with
  | delegateSdJwt d => exact apart_cons.mpr ⟨hn.1, d.apart_write hn.2⟩
  | unknown type data => exact apart_cons.mpr ⟨hn.1, h⟩

/-- The tag is taken off the contents again. -/
theorem filter_tagged {type : String} {ms : List (String × Json)} (h : Apart ["type"] ms) :
    ((member "type" type ++ ms).filter fun m => m.1 ∉ ["type"]) = ms := by
  change (((("type", toTree type) :: ms) : List (String × Json)).filter fun m =>
    m.1 ∉ ["type"]) = ms
  rw [filter_cons_of_mem (List.mem_singleton.mpr rfl), filter_of_apart h]

/-- The known type is always read back. -/
theorem read_write_delegate (d : DelegateSdJwtTransactionData) :
    read (delegateSdJwt d).write = some (delegateSdJwt d) := by
  have hn := nodup_keys_write (c := delegateSdJwt d) trivial
  refine read_eq_some_iff.mpr (.inl (readDelegate_eq_some_iff.mpr
    ⟨.string "delegate", d, ?_, rfl, ?_, rfl⟩))
  · rw [lookupAll_of_nodup hn]
    rfl
  · have hf : ((delegateSdJwt d).write.filter fun m => m.1 ∉ ["type"]) = d.write :=
      filter_tagged (d.apart_write (by simp))
    rw [hf, d.read_write]

/-- An unknown type is read back unless its members make it the known one. -/
theorem read_write_unknown_iff {type : String} {data : JsonMap}
    (h : Apart ["type"] data.entries) :
    read (unknown type data).write = some (unknown type data) ↔
      ¬(type = "delegate" ∧ DelegateMembers data.entries) := by
  have hn := nodup_keys_write (c := unknown type data) h
  have hf : ((unknown type data).write.filter fun m => m.1 ∉ ["type"]) = data.entries :=
    filter_tagged h
  have hd : DelegateMembers (unknown type data).write ↔ DelegateMembers data.entries := by
    rw [← delegateMembers_filter ["type"] _ (by simp), hf]
  rw [read_eq_some_unknown_iff, hf, hd, JsonMap.ofMembers_entries, lookupAll_of_nodup hn]
  exact ⟨fun h => h.2.2, fun h => ⟨rfl, rfl, h⟩⟩

end TransactionDataItemTypeContent

/-! ## Writing items -/

namespace TransactionDataItem

def ownMembers (item : TransactionDataItem) : List (String × Json) :=
  member "credential_ids" item.credentialIds ++
  nullableMember "transaction_data_hashes_alg" item.transactionDataHashesAlg

theorem keys_ownMembers (item : TransactionDataItem) :
    keys item.ownMembers = ["credential_ids", "transaction_data_hashes_alg"] := by
  rw [ownMembers, nullableMember_eq]
  rfl

theorem toTree_eq (item : TransactionDataItem) :
    toTree item = .object (item.ownMembers ++ item.content.write) := rfl

variable {item : TransactionDataItem}

/-- An item is read back exactly when its contents are. -/
theorem fromTree_toTree_iff
    (h : item.content.ApartFrom ["credential_ids", "transaction_data_hashes_alg", "type"]) :
    fromTree (toTree item) = some item ↔
      TransactionDataItemTypeContent.read item.content.write = some item.content := by
  have hc : item.content.ApartFrom ["credential_ids", "transaction_data_hashes_alg"] :=
    h.mono (by simp)
  have ha : Apart ["credential_ids", "transaction_data_hashes_alg"] item.content.write :=
    TransactionDataItemTypeContent.apart_write hc (by simp)
  have hn : (keys (item.ownMembers ++ item.content.write)).Nodup := by
    refine nodup_keys_append ?_ (TransactionDataItemTypeContent.nodup_keys_write (h.mono (by simp)))
      ?_
    · rw [keys_ownMembers]
      decide
    · rwa [keys_ownMembers]
  have hf : ((item.ownMembers ++ item.content.write).filter fun m =>
      m.1 ∉ ["credential_ids", "transaction_data_hashes_alg"]) = item.content.write := by
    have ho : (item.ownMembers.filter fun m =>
        m.1 ∉ ["credential_ids", "transaction_data_hashes_alg"]) = [] := by
      rw [List.filter_eq_nil_iff]
      intro m hm hd
      exact of_decide_eq_true hd (item.keys_ownMembers ▸ List.mem_map_of_mem hm)
    rw [List.filter_append, ho, List.nil_append, filter_of_apart ha]
  rw [toTree_eq, fromTree_eq_some_iff, hf]
  refine ⟨fun h => h.2.2.2, fun hr => ⟨?_, ?_, ?_, hr⟩⟩
  · intro k _
    rw [lookupAll_of_nodup hn]
    exact Option.length_toList_le
  · exact LawfulSerde.fromTree_toTree item.credentialIds
  · have hs : memberSlot (item.ownMembers ++ item.content.write) "transaction_data_hashes_alg" =
        .given ((item.transactionDataHashesAlg.map toTree).getD .null) := by
      rw [ownMembers, nullableMember_eq]
      rfl
    rw [hs]
    exact Slot.optional_nullable item.transactionDataHashesAlg

/-- Of the members of one name a map keeps the last, whatever the other names are. -/
theorem delegateMembers_ofMembers_filter {names : List String} {ms : List (String × Json)}
    (h : ∀ k ∈ ["format", "delegate_payload_disclosure", "delegate_disclosures"], k ∉ names) :
    DelegateMembers (JsonMap.ofMembers (ms.filter fun m => m.1 ∉ names)).entries ↔
      DelegateMembers (JsonMap.ofMembers ms).entries := by
  refine delegateMembers_congr fun k hk => ?_
  have hg : (JsonMap.ofMembers (ms.filter fun m => m.1 ∉ names)).get? k =
      (JsonMap.ofMembers ms).get? k := by
    rw [JsonMap.get?_ofMembers_last, JsonMap.get?_ofMembers_last, ← List.filter_reverse,
      lookup_filter_of_not_mem (h k hk)]
  rw [lookupAll_of_nodup (JsonMap.nodup_keys _), lookupAll_of_nodup (JsonMap.nodup_keys _)]
  exact congrArg Option.toList hg

/-- What is read is read back from what it is written as, unless it is an item of an unknown type
whose members make it one of the known type once each of them is kept only once. -/
theorem fromTree_toTree_iff_of_fromTree {ms : List (String × Json)}
    (h : fromTree (.object ms) = some item) :
    fromTree (toTree item) = some item ↔
      ¬(MalformedDelegate ms ∧ DelegateMembers (JsonMap.ofMembers ms).entries) := by
  cases hc : item.content with
  | delegateSdJwt d =>
    refine iff_of_true ?_ fun hm => hm.1.members (delegateMembers_of_fromTree h hc)
    have hr := TransactionDataItemTypeContent.read_write_delegate d
    rw [← hc] at hr
    refine (fromTree_toTree_iff ?_).mpr hr
    rw [hc]
    trivial
  | unknown type data =>
    obtain ⟨-, ht, hdata, hn⟩ := exists_fromTree_unknown_iff.mp ⟨item, h, hc⟩
    have ha : Apart ["credential_ids", "transaction_data_hashes_alg", "type"] data.entries := by
      rw [hdata]
      have hk : Apart (["credential_ids", "transaction_data_hashes_alg"] ++ ["type"])
          (furtherMembers ms) :=
        apart_append.mpr ⟨(apart_filter _ ms).filter _, apart_filter _ _⟩
      exact JsonMap.apart_ofMembers hk
    have hd : DelegateMembers data.entries ↔ DelegateMembers (JsonMap.ofMembers ms).entries := by
      rw [hdata, furtherMembers, delegateMembers_ofMembers_filter (by simp),
        delegateMembers_ofMembers_filter (by simp)]
    have hm : MalformedDelegate ms ↔ type = "delegate" := by
      constructor
      · rintro ⟨hm, -⟩
        rw [ht, List.mem_singleton] at hm
        exact (Json.string.inj hm).symm
      · intro he
        refine ⟨?_, fun hm => hn ⟨he, hm⟩⟩
        rw [ht, he]
        exact List.mem_singleton.mpr rfl
    have hr : TransactionDataItemTypeContent.read
        (TransactionDataItemTypeContent.unknown type data).write = _ ↔ _ :=
      TransactionDataItemTypeContent.read_write_unknown_iff (ha.mono (by simp))
    rw [fromTree_toTree_iff (hc ▸ ha), hc, hr, hm, hd]

/-! ## Encoded items -/

section
variable [SerdeJson] [Base64Url] {encoded : String}

theorem fromBase64urlEncoded_eq_ok_iff : fromBase64urlEncoded encoded = .ok item ↔
    ∃ ms, readTokenPart encoded = some (.object ms) ∧ fromTree (.object ms) = some item := by
  have hx : fromBase64urlEncoded encoded = .ok item ↔
      ∃ x, readTokenPart encoded = some x ∧ fromTree x = some item := by
    rw [fromBase64urlEncoded, readTokenPart]
    cases Base64Url.decode encoded with
    | none => simp
    | some bytes =>
      simp only [orInternal_eq_ok_iff, Option.bind_eq_bind, Option.bind_some, fromSlice]
      cases String.fromUTF8? ⟨bytes.toArray⟩ with
      | none => simp
      | some text => simp [fromStr_eq_ok_iff]
  rw [hx]
  constructor
  · rintro ⟨x, hd, hf⟩
    cases x with
    | object ms => exact ⟨ms, hd, hf⟩
    | _ => cases hf
  · rintro ⟨ms, hd, hf⟩
    exact ⟨_, hd, hf⟩

theorem fromBase64urlEncoded_tokenPart (ms : List (String × Json)) :
    fromBase64urlEncoded (tokenPart (.object ms)) = .ok item ↔
      fromTree (.object ms) = some item := by
  rw [fromBase64urlEncoded_eq_ok_iff, readTokenPart_tokenPart]
  constructor
  · rintro ⟨_, hm, h⟩
    cases hm
    exact h
  · exact fun h => ⟨ms, rfl, h⟩

/-- Decoding an encoded item gives the item back. -/
def RoundTrips (encoded : String) : Prop :=
  ∀ item, fromBase64urlEncoded encoded = .ok item →
    ∃ e, item.intoBase64urlEncoded = .ok e ∧ fromBase64urlEncoded e = .ok item

/-- Items are of the known type exactly when they are named so, and an item that is named so without
the members of that type is refused. -/
structure ClassifiesDelegates (encoded : String) : Prop where
  type_iff : ∀ item, fromBase64urlEncoded encoded = .ok item →
    (item.type = "delegate" ↔ ∃ d, item.content = .delegateSdJwt d)
  refuses : ∀ ms, readTokenPart encoded = some (.object ms) → MalformedDelegate ms →
    ∀ item, fromBase64urlEncoded encoded ≠ .ok item

theorem reencodes_iff_of_fromTree {ms : List (String × Json)}
    (h : fromTree (.object ms) = some item) :
    (∃ e, item.intoBase64urlEncoded = .ok e ∧ fromBase64urlEncoded e = .ok item) ↔
      ¬(MalformedDelegate ms ∧ DelegateMembers (JsonMap.ofMembers ms).entries) := by
  rw [← fromTree_toTree_iff_of_fromTree h, toTree_eq, ← fromBase64urlEncoded_tokenPart]
  constructor
  · rintro ⟨_, he, hd⟩
    obtain rfl := Except.pure_eq_ok_iff.mp he
    exact hd
  · exact fun hd => ⟨_, rfl, hd⟩

theorem itemRoundTrips_iff : RoundTrips encoded ↔
    ¬∃ ms, readTokenPart encoded = some (.object ms) ∧ ItemMembers ms ∧ MalformedDelegate ms ∧
      DelegateMembers (JsonMap.ofMembers ms).entries := by
  constructor
  · rintro h ⟨ms, hd, hi, hm, hl⟩
    obtain ⟨item, hf, -⟩ := exists_fromTree_of_malformed hi hm
    have he := h item (fromBase64urlEncoded_eq_ok_iff.mpr ⟨ms, hd, hf⟩)
    exact (reencodes_iff_of_fromTree hf).mp he ⟨hm, hl⟩
  · intro h item he
    obtain ⟨ms, hd, hf⟩ := fromBase64urlEncoded_eq_ok_iff.mp he
    refine (reencodes_iff_of_fromTree hf).mpr fun hm => ?_
    exact h ⟨ms, hd, itemMembers_of_fromTree hf, hm.1, hm.2⟩

theorem classifiesDelegates_iff : ClassifiesDelegates encoded ↔
    ¬∃ ms, readTokenPart encoded = some (.object ms) ∧ ItemMembers ms ∧
      MalformedDelegate ms := by
  constructor
  · rintro h ⟨ms, hd, hi, hm⟩
    obtain ⟨item, hf, -⟩ := exists_fromTree_of_malformed hi hm
    exact h.refuses ms hd hm item (fromBase64urlEncoded_eq_ok_iff.mpr ⟨ms, hd, hf⟩)
  · intro h
    refine ⟨fun item he => ?_, fun ms hd hm item he => ?_⟩
    · obtain ⟨ms, hd, hf⟩ := fromBase64urlEncoded_eq_ok_iff.mp he
      rw [type]
      cases hc : item.content with
      | delegateSdJwt d => exact iff_of_true rfl ⟨d, rfl⟩
      | unknown type data =>
        obtain ⟨hi, ht, -, hn⟩ := exists_fromTree_unknown_iff.mp ⟨item, hf, hc⟩
        refine iff_of_false (fun hty => h ⟨ms, hd, hi, ?_, fun hm => hn ⟨hty, hm⟩⟩) ?_
        · change type = "delegate" at hty
          rw [ht, hty]
          exact List.mem_singleton.mpr rfl
        · rintro ⟨d, hd⟩
          cases hd
    · obtain ⟨ns, hd', hf⟩ := fromBase64urlEncoded_eq_ok_iff.mp he
      cases hd.symm.trans hd'
      exact h ⟨ms, hd, itemMembers_of_fromTree hf, hm⟩

end
end TransactionDataItem

/-! ## Items that are taken for others -/

namespace Sample
open scoped Reference

/-- An item that names the known type and has none of its members. -/
def incompleteDelegate : List (String × Json) :=
  [("type", .string "delegate"), ("credential_ids", .array [])]

theorem not_classifiesDelegates_incomplete :
    ¬TransactionDataItem.ClassifiesDelegates (tokenPart (.object incompleteDelegate)) := by
  intro h
  have hf : fromTree (.object incompleteDelegate) = some
      (⟨[], none, .unknown "delegate" .empty⟩ : TransactionDataItem) := rfl
  obtain ⟨d, hd⟩ := (h.type_iff _
    ((TransactionDataItem.fromBase64urlEncoded_tokenPart _).mpr hf)).mp rfl
  cases hd

/-- An item of the known type, but for its format, which is there twice. -/
def repeatedFormat : List (String × Json) :=
  [("type", .string "delegate"), ("credential_ids", .array []), ("format", .string "dSD-JWT"),
    ("format", .string "dSD-JWT"), ("delegate_payload_disclosure", .string "")]

theorem not_roundTrips_repeatedFormat :
    ¬TransactionDataItem.RoundTrips (tokenPart (.object repeatedFormat)) := by
  intro h
  have hf : fromTree (.object repeatedFormat) = some
      (⟨[], none, .unknown "delegate" (.ofMembers [("format", .string "dSD-JWT"),
        ("delegate_payload_disclosure", .string "")])⟩ : TransactionDataItem) := rfl
  have hm : MalformedDelegate repeatedFormat := by
    refine ⟨List.mem_singleton.mpr rfl, fun hm => ?_⟩
    have hr : RequiredOf NamesFormat [.string "dSD-JWT", .string "dSD-JWT"] := hm.format
    cases hr
  have hl : DelegateMembers (JsonMap.ofMembers repeatedFormat).entries :=
    ⟨.given (.text List.mem_cons_self), .given (.string ""), .absent⟩
  have he := h _ ((TransactionDataItem.fromBase64urlEncoded_tokenPart _).mpr hf)
  exact (TransactionDataItem.reencodes_iff_of_fromTree hf).mp he ⟨hm, hl⟩

end Sample
end OpenID4VP
