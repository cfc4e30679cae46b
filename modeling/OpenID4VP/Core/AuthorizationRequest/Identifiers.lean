import OpenID4VP.Core.AuthorizationRequest.Parameters

/-! # Identifiers in JSON

Client ids and identifiers of queries are read and written in two ways: as typed parameters of an
untyped object, and as parts of typed values. A codec agrees with the other one where both accept
the same values, as the same identifiers, and write them as they were. -/

namespace OpenID4VP

section
variable (α : Type) [TypedParameter α] [Deserialize α] [Serialize α]

/-- Both readers take the value for the same, and both writers give it back. -/
structure CodecsAgreeAt (x : Json) : Prop where
  decode : ∀ a : α, TypedParameter.tryFrom x = .ok a ↔ fromTree x = some a
  encode : ∀ a : α, TypedParameter.tryFrom x = .ok a ∨ fromTree x = some a →
    TypedParameter.intoJson a = x ∧ toTree a = x

variable {α}

/-- A value that both readers refuse is one on which they agree. -/
theorem codecsAgreeAt_of_refused {x : Json} (h : ∀ a : α, TypedParameter.tryFrom x ≠ .ok a)
    (h' : fromTree x = (none : Option α)) : CodecsAgreeAt α x := by
  have hn : ∀ a : α, fromTree x ≠ some a := fun a => by simp [h']
  exact { decode := fun a => iff_of_false (h a) (hn a)
          encode := fun a ha => absurd ha (not_or.mpr ⟨h a, hn a⟩) }

/-- Both readers read what either of the writers writes. -/
structure ReadsBack (a : α) : Prop where
  param_param : TypedParameter.tryFrom (TypedParameter.intoJson a) = .ok a
  param_serde : TypedParameter.tryFrom (toTree a) = .ok a
  serde_param : fromTree (TypedParameter.intoJson a) = some a
  serde_serde : fromTree (toTree a) = some a

end

/-! ## Client ids -/

namespace ClientId

theorem tryFrom_ne_ok {x : Json} (h : ∀ s, x ≠ .string s) (c : ClientId) :
    TypedParameter.tryFrom x ≠ .ok c := by
  cases x with
  | string s => exact absurd rfl (h s)
  | _ => exact Except.throw_ne_ok

theorem fromTree_of_mem {s : String} (h : ':' ∈ s.toList) :
    (fromTree (.string s) : Option ClientId) = (new s).toOption := by
  change (splitOnce ':' s >>= fun p => (new (p.1 ++ ":" ++ p.2)).toOption) = _
  cases hs : splitOnce ':' s with
  | none => exact absurd h (splitOnce_eq_none_iff.mp hs)
  | some p =>
    have hp : p.1 ++ ":" ++ p.2 = s := by
      apply String.toList_inj.mp
      rw [(splitOnce_eq_some_iff.mp hs).1]
      simp
    rw [Option.bind_eq_bind, Option.bind_some, hp]

theorem fromTree_of_not_mem {s : String} (h : ':' ∉ s.toList) :
    (fromTree (.string s) : Option ClientId) = none := by
  change (splitOnce ':' s >>= fun p => (new (p.1 ++ ":" ++ p.2)).toOption) = _
  rw [splitOnce_eq_none_iff.mpr h]
  rfl

/-- A text without a prefix is an id for one of the readers only. -/
theorem codecsAgreeAt_iff {x : Json} :
    CodecsAgreeAt ClientId x ↔ ∀ s, x = .string s → s ≠ "" → ':' ∈ s.toList := by
  constructor
  · rintro h s rfl hne
    by_contra hs
    have hn : new s = .ok ⟨s, .preRegistered⟩ := new_eq_ok_iff.mpr (.inr ⟨rfl, rfl, hne, hs⟩)
    have hd := (h.decode _).mp hn
    rw [fromTree_of_not_mem hs] at hd
    exact nomatch hd
  · intro h
    cases x with
    | string s =>
      by_cases hs : ':' ∈ s.toList
      · have hd : ∀ c : ClientId, new s = .ok c ↔ fromTree (.string s) = some c := by
          intro c
          rw [fromTree_of_mem hs]
          cases new s <;> simp [Except.toOption]
        refine ⟨hd, fun c hc => ?_⟩
        have hc : new s = .ok c := hc.elim (fun h => h) (hd c).mpr
        have hf : Json.string c.getFullId = .string s := by rw [getFullId_of_mem hc hs]
        exact ⟨hf, hf⟩
      · obtain rfl : s = "" := by_contra fun hne => hs (h s rfl hne)
        exact codecsAgreeAt_of_refused (fun c => Except.throw_ne_ok) (fromTree_of_not_mem hs)
    | _ =>
      refine codecsAgreeAt_of_refused (tryFrom_ne_ok fun s hs => ?_) rfl
      cases hs

theorem readsBack (c : ClientId) : ReadsBack c := by
  have hn := new_getFullId c
  have hf : fromTree (.string c.getFullId) = some c := by
    rw [fromTree_of_mem (by simp [getFullId]), hn]
    rfl
  exact { param_param := hn, param_serde := hn, serde_param := hf, serde_serde := hf }

end ClientId

/-! ## Identifiers of queries -/

namespace ID

variable [SerdeJson]

/-- As a parameter an identifier is read from JSON text, where it stands between quotation marks. -/
theorem tryFrom_eq_ok_iff {x : Json} {id : ID} :
    TypedParameter.tryFrom x = .ok id ↔
      ∃ s, x = .string s ∧ SerdeJson.parse s = some (.string id.value) := by
  change ((fromStringOrValue x : Except Anyhow String) >>= new) = .ok id ↔ _
  simp only [Except.bind_eq_ok_iff, new_eq_ok_iff, exists_eq_right]
  cases x with
  | string s =>
    simp only [fromStringOrValue, fromStr_eq_ok_iff, fromTree_eq_text_iff, Json.string.injEq,
      exists_eq_left', exists_eq_right]
  | _ => simp [fromStringOrValue, fromTree_eq_text_iff]

/-- An identifier is not JSON text of a string. -/
theorem parse_ne_string {s t : String} (h : isId s = true) :
    SerdeJson.parse s ≠ some (.string t) := by
  intro hp
  obtain ⟨p, r, hs, -⟩ := SerdeJson.openQuote_of_parse s _ hp rfl
  have hq : '"' ∈ s.toList := by simp [hs]
  have hc := List.all_eq_true.mp (Bool.and_eq_true_iff.mp h).2 _ hq
  exact absurd hc (by decide)

/-- The readers agree only on values that neither of them accepts. -/
theorem codecsAgreeAt_iff {x : Json} :
    CodecsAgreeAt ID x ↔ ∀ s, x = .string s →
      isId s = false ∧ ∀ t, SerdeJson.parse s = some (.string t) → isId t = false := by
  constructor
  · rintro h s rfl
    have hs : isId s = false := by
      by_contra hid
      have hid : isId s = true := Bool.eq_true_of_not_eq_false hid
      have hd := (h.decode ⟨s, hid⟩).mpr (fromTree_eq_some_iff.mpr rfl)
      obtain ⟨_, hx, hp⟩ := tryFrom_eq_ok_iff.mp hd
      obtain rfl := Json.string.inj hx
      exact parse_ne_string hid hp
    refine ⟨hs, fun t ht => ?_⟩
    by_contra hid
    have hid : isId t = true := Bool.eq_true_of_not_eq_false hid
    have he := (h.encode ⟨t, hid⟩ (.inl (tryFrom_eq_ok_iff.mpr ⟨s, rfl, ht⟩))).2
    obtain rfl : t = s := Json.string.inj he
    exact Bool.false_ne_true (hs.symm.trans hid)
  · intro h
    refine codecsAgreeAt_of_refused (fun id hid => ?_) ?_
    · obtain ⟨s, rfl, hp⟩ := tryFrom_eq_ok_iff.mp hid
      exact Bool.false_ne_true (((h s rfl).2 _ hp).symm.trans id.valid)
    · refine Option.eq_none_iff_forall_ne_some.mpr fun id hid => ?_
      obtain rfl := fromTree_eq_some_iff.mp hid
      exact Bool.false_ne_true ((h _ rfl).1.symm.trans id.valid)

theorem not_readsBack (id : ID) : ¬ReadsBack id := by
  intro h
  obtain ⟨_, hx, hp⟩ := tryFrom_eq_ok_iff.mp h.param_param
  obtain rfl := Json.string.inj hx
  exact parse_ne_string id.valid hp

end ID

/-- Where the codecs of identifiers agree: those of client ids on all values but texts without a
prefix, and those of identifiers of queries on values only that are none. What is written of a
client id is always read back, and of an identifier of a query never by both readers. -/
theorem identifierCodecs_iff [SerdeJson] :
    (∀ x, CodecsAgreeAt ClientId x ↔ ∀ s, x = .string s → s ≠ "" → ':' ∈ s.toList) ∧
    (∀ c : ClientId, ReadsBack c) ∧
    (∀ x, CodecsAgreeAt ID x ↔ ∀ s, x = .string s →
      isId s = false ∧ ∀ t, SerdeJson.parse s = some (.string t) → isId t = false) ∧
    ∀ id : ID, ¬ReadsBack id :=
  ⟨fun _ => ClientId.codecsAgreeAt_iff, ClientId.readsBack, fun _ => ID.codecsAgreeAt_iff,
    ID.not_readsBack⟩

namespace Sample

/-- A registered client is known under its plain name to one of the readers only. -/
theorem not_codecsAgreeAt_verifier : ¬CodecsAgreeAt ClientId (.string "verifier") := by
  intro h
  exact nomatch (h.decode ⟨"verifier", .preRegistered⟩).mp rfl

end Sample
end OpenID4VP
