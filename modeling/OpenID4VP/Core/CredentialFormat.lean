import OpenID4VP.Lib.Json.Equality
import OpenID4VP.Utils

/-! # Claim formats -/

namespace OpenID4VP

inductive ClaimFormatDesignation
  | jwt | jwtVc | sdJwtVc | jwtVp | jwtVcJson | jwtVpJson | ldp | ldpVc | ldpVp | acVc | acVp
  | msoMDoc
  | other (name : String)
  deriving DecidableEq

namespace ClaimFormatDesignation

/-- The designations that have a name of their own. -/
def registered : List (String × ClaimFormatDesignation) := [
  ("jwt", jwt), ("jwt_vc", jwtVc), ("jwt_vp", jwtVp), ("jwt_vc_json", jwtVcJson),
  ("dc+sd-jwt", sdJwtVc), ("jwt_vp_json", jwtVpJson), ("ldp", ldp), ("ldp_vc", ldpVc),
  ("ldp_vp", ldpVp), ("ac_vc", acVc), ("ac_vp", acVp), ("mso_mdoc", msoMDoc)]

def fromName (name : String) : ClaimFormatDesignation :=
  match registered.lookup name with
  | some d => d
  | none => other name

def name : ClaimFormatDesignation → String
  | jwt => "jwt"
  | jwtVc => "jwt_vc"
  | jwtVp => "jwt_vp"
  | jwtVcJson => "jwt_vc_json"
  | sdJwtVc => "dc+sd-jwt"
  | jwtVpJson => "jwt_vp_json"
  | ldp => "ldp"
  | ldpVc => "ldp_vc"
  | ldpVp => "ldp_vp"
  | acVc => "ac_vc"
  | acVp => "ac_vp"
  | msoMDoc => "mso_mdoc"
  | other name => name

/-- The designation is the one its name stands for: no registered name under `other`. -/
def Canonical (d : ClaimFormatDesignation) : Prop := fromName d.name = d

instance : DecidablePred Canonical := fun _ => inferInstanceAs (Decidable (_ = _))

@[simp] theorem name_fromName (s : String) : (fromName s).name = s := by
  rw [fromName]
  split
  · next h =>
    have hmem := Members.mem_of_lookup_eq_some h
    simp only [registered, List.mem_cons, Prod.mk.injEq, List.not_mem_nil, or_false] at hmem
    rcases hmem with ⟨rfl, rfl⟩ | ⟨rfl, rfl⟩ | ⟨rfl, rfl⟩ | ⟨rfl, rfl⟩ | ⟨rfl, rfl⟩ | ⟨rfl, rfl⟩ |
      ⟨rfl, rfl⟩ | ⟨rfl, rfl⟩ | ⟨rfl, rfl⟩ | ⟨rfl, rfl⟩ | ⟨rfl, rfl⟩ | ⟨rfl, rfl⟩ <;> rfl
  · rfl

/-- Whatever is read is canonical. -/
theorem canonical_fromName (s : String) : (fromName s).Canonical := by
  rw [Canonical, name_fromName]

instance : Deserialize ClaimFormatDesignation := ⟨fun x => do return fromName (← fromTree x)⟩
instance : Serialize ClaimFormatDesignation := ⟨fun d => toTree d.name⟩

end ClaimFormatDesignation

inductive ClaimFormatPayload
  | alg (algs : List String)
  | algValuesSupported (algs : List String)
  | proofType (proofs : List String)
  | sdJwtAlgValues (sdJwtAlgValues kbJwtAlgValues : List String)
  | json (value : Value)
  deriving DecidableEq

namespace ClaimFormatPayload

/-- The variants that are written under their own name. -/
def fromTagged : Json → Option ClaimFormatPayload
  | .object [(k, x)] =>
    if k = "alg" then (fromTree x).map alg
    else if k = "alg_values_supported" then (fromTree x).map algValuesSupported
    else if k = "proof_type" then (fromTree x).map proofType
    else none
  | _ => none

def fromSdJwtAlgValues (x : Json) : Option ClaimFormatPayload := do
  let f ← mapFields ["sd-jwt_alg_values", "kb-jwt_alg_values"] x
  return sdJwtAlgValues (← (f "sd-jwt_alg_values").required) (← (f "kb-jwt_alg_values").required)

-- the untagged variants are tried in their order, and the last one takes any value
instance : Deserialize ClaimFormatPayload := ⟨fun x =>
  fromTagged x <|> fromSdJwtAlgValues x <|> (fromTree x).map json⟩

instance : Serialize ClaimFormatPayload := ⟨fun
  | alg algs => .object (member "alg" algs)
  | algValuesSupported algs => .object (member "alg_values_supported" algs)
  | proofType proofs => .object (member "proof_type" proofs)
  | sdJwtAlgValues sd kb =>
    .object (member "sd-jwt_alg_values" sd ++ member "kb-jwt_alg_values" kb)
  | json value => toTree value⟩

instance : WritesValues ClaimFormatPayload := ⟨fun p => by
  have list (xs : List String) : (toTree xs).wellFormed = true := WritesValues.wellFormed xs
  cases p with
  | json value => exact value.wf
  | sdJwtAlgValues sd kb =>
    refine Json.wellFormed_object.mpr ⟨by simp [Members.keys, member], ?_⟩
    simp only [member, List.cons_append, List.nil_append, List.forall_mem_cons]
    exact ⟨list sd, list kb, nofun⟩
  | alg xs | algValuesSupported xs | proofType xs =>
    refine Json.wellFormed_object.mpr ⟨by simp [Members.keys, member], ?_⟩
    simp only [member, List.forall_mem_cons]
    exact ⟨list xs, nofun⟩⟩

/-- The payload is not a JSON value that reads as one of the other payloads. -/
def Canonical : ClaimFormatPayload → Prop
  | json value => fromTagged value.tree = none ∧ fromSdJwtAlgValues value.tree = none
  | _ => True

instance : DecidablePred Canonical
  | json _ => inferInstanceAs (Decidable (_ ∧ _))
  | alg _ | algValuesSupported _ | proofType _ | sdJwtAlgValues _ _ =>
    inferInstanceAs (Decidable True)

theorem fromTagged_ne_json {x : Json} {value : Value} : fromTagged x ≠ some (json value) := by
  intro h
  unfold fromTagged at h
  split at h
  · split at h
    · obtain ⟨_, -, h⟩ := Option.map_eq_some_iff.mp h
      exact nomatch h
    split at h
    · obtain ⟨_, -, h⟩ := Option.map_eq_some_iff.mp h
      exact nomatch h
    split at h
    · obtain ⟨_, -, h⟩ := Option.map_eq_some_iff.mp h
      exact nomatch h
    · cases h
  · cases h

theorem fromSdJwtAlgValues_ne_json {x : Json} {value : Value} :
    fromSdJwtAlgValues x ≠ some (json value) := by
  intro h
  simp only [fromSdJwtAlgValues, Option.bind_eq_bind, Option.bind_eq_some_iff, Option.pure_def,
    Option.some.injEq] at h
  obtain ⟨_, -, _, -, _, -, h⟩ := h
  cases h

/-- A tree is read as a JSON value when it is read as nothing else. -/
theorem fromTree_eq_json_iff {x : Json} {value : Value} :
    fromTree x = some (json value) ↔
      fromTagged x = none ∧ fromSdJwtAlgValues x = none ∧ fromTree x = some value := by
  change (fromTagged x <|> fromSdJwtAlgValues x <|> (fromTree x).map json) = _ ↔ _
  cases ht : fromTagged x with
  | some p =>
    refine iff_of_false (fun h => ?_) (fun h => nomatch h.1)
    exact fromTagged_ne_json (ht.trans h)
  | none =>
    cases hs : fromSdJwtAlgValues x with
    | some p =>
      refine iff_of_false (fun h => ?_) (fun h => nomatch h.2.1)
      exact fromSdJwtAlgValues_ne_json (hs.trans h)
    | none => simp

theorem fromTree_toTree_iff {p : ClaimFormatPayload} :
    fromTree (toTree p) = some p ↔ p.Canonical := by
  have list (xs : List String) : fromTree (toTree xs) = some xs := LawfulSerde.fromTree_toTree xs
  cases p with
  | json value =>
    refine fromTree_eq_json_iff.trans ?_
    rw [Canonical, ← and_assoc]
    exact and_iff_left (LawfulSerde.fromTree_toTree value)
  | alg xs | algValuesSupported xs | proofType xs =>
    refine iff_of_true ?_ trivial
    change (Option.map _ (fromTree (toTree xs)) <|> _) = _
    rw [list]
    rfl
  | sdJwtAlgValues sd kb =>
    refine iff_of_true ?_ trivial
    change ((fromTree (toTree sd) >>= fun sd => fromTree (toTree kb) >>= fun kb =>
      some (sdJwtAlgValues sd kb)) <|> _) = _
    rw [list, list]
    rfl

/-- Whatever is read from a value is canonical. -/
theorem canonical_of_fromTree {x : Json} {p : ClaimFormatPayload} (hx : x.wellFormed = true)
    (h : fromTree x = some p) : p.Canonical := by
  cases p with
  | json value =>
    obtain ⟨ht, hs, hv⟩ := fromTree_eq_json_iff.mp h
    obtain rfl : ⟨x.toValue, x.toValue_wellFormed⟩ = value := Option.some.inj hv
    have he : x.toValue = x := Json.toValue_of_wellFormed hx
    exact ⟨(congrArg fromTagged he).trans ht, (congrArg fromSdJwtAlgValues he).trans hs⟩
  | _ => trivial

/-- Adds an algorithm to a list of algorithms, and does nothing to other payloads. -/
def addAlg (a : String) : ClaimFormatPayload → ClaimFormatPayload
  | alg algs => alg (algs ++ [a])
  | algValuesSupported algs => algValuesSupported (algs ++ [a])
  | payload => payload

/-- Adds a proof type to a list of proof types, and does nothing to other payloads. -/
def addProofType (p : String) : ClaimFormatPayload → ClaimFormatPayload
  | proofType proofs => proofType (proofs ++ [p])
  | payload => payload

def contains : ClaimFormatPayload → ClaimFormatPayload → Bool
  | alg algs, alg other => containsAny algs other
  | algValuesSupported algs, algValuesSupported other => containsAny algs other
  | proofType proofs, proofType other => containsAny proofs other
  | sdJwtAlgValues sd kb, sdJwtAlgValues otherSd otherKb =>
    containsAny sd otherSd && containsAny kb otherKb
  | json value, json other => value.same other
  | _, _ => false

end ClaimFormatPayload

/-- A map of claim formats to their payloads: no format is listed twice. -/
structure ClaimFormatMap where
  entries : List (ClaimFormatDesignation × ClaimFormatPayload)
  nodup : (Members.keys entries).Nodup

namespace ClaimFormatMap

def empty : ClaimFormatMap := ⟨[], List.nodup_nil⟩

def isEmpty (m : ClaimFormatMap) : Bool := m.entries.isEmpty

def get? (m : ClaimFormatMap) (d : ClaimFormatDesignation) : Option ClaimFormatPayload :=
  m.entries.lookup d

def containsKey (m : ClaimFormatMap) (d : ClaimFormatDesignation) : Bool := (m.get? d).isSome

def insert (m : ClaimFormatMap) (d : ClaimFormatDesignation) (p : ClaimFormatPayload) :
    ClaimFormatMap :=
  ⟨Members.insert d p m.entries, Members.nodup_keys_insert m.nodup⟩

/-- The map a list of entries builds up: the last entry of a format stays. -/
def ofEntries (es : List (ClaimFormatDesignation × ClaimFormatPayload)) : ClaimFormatMap :=
  ⟨Members.collect es, Members.nodup_keys_collect es⟩

instance : Deserialize ClaimFormatMap := ⟨fun
  | .object ms => do
    let es ← ms.mapM fun m => do return (ClaimFormatDesignation.fromName m.1, ← fromTree m.2)
    return ofEntries es
  | _ => none⟩

instance : Serialize ClaimFormatMap := ⟨fun m =>
  .object (m.entries.map fun e => (e.1.name, toTree e.2))⟩

/-- Every format and every payload is canonical. -/
def Canonical (m : ClaimFormatMap) : Prop := ∀ e ∈ m.entries, e.1.Canonical ∧ e.2.Canonical

theorem canonical_empty : empty.Canonical := List.forall_mem_nil _

/-- A format by its name, with the payload as a tree. -/
def writeEntry (e : ClaimFormatDesignation × ClaimFormatPayload) : String × Json :=
  (e.1.name, toTree e.2)

def readEntry (m : String × Json) : Option (ClaimFormatDesignation × ClaimFormatPayload) := do
  return (.fromName m.1, ← fromTree m.2)

theorem readEntry_writeEntry_iff {e : ClaimFormatDesignation × ClaimFormatPayload} :
    readEntry (writeEntry e) = some e ↔ e.1.Canonical ∧ e.2.Canonical := by
  obtain ⟨d, p⟩ := e
  simp only [readEntry, writeEntry, Option.bind_eq_bind, Option.bind_eq_some_iff, Option.pure_def,
    Option.some.injEq, Prod.mk.injEq, ← ClaimFormatPayload.fromTree_toTree_iff]
  constructor
  · rintro ⟨p, hp, hd, rfl⟩
    exact ⟨hd, hp⟩
  · rintro ⟨hd, hp⟩
    exact ⟨p, hp, hd, rfl⟩

/-- Canonical formats have names of their own. -/
theorem Canonical.nodup_names {m : ClaimFormatMap} (h : m.Canonical) :
    (Members.keys (m.entries.map writeEntry)).Nodup := by
  have hk : Members.keys (m.entries.map writeEntry) =
      (Members.keys m.entries).map ClaimFormatDesignation.name := by
    rw [Members.keys, Members.keys, List.map_map, List.map_map]
    rfl
  rw [hk]
  refine List.Nodup.map_on (fun d hd d' hd' hn => ?_) m.nodup
  obtain ⟨e, he, rfl⟩ := List.mem_map.mp hd
  obtain ⟨e', he', rfl⟩ := List.mem_map.mp hd'
  rw [← (h e he).1, ← (h e' he').1, hn]

theorem Canonical.wellFormed_toTree {m : ClaimFormatMap} (h : m.Canonical) :
    (toTree m).wellFormed = true := by
  refine Json.wellFormed_object.mpr ⟨h.nodup_names, fun x hx => ?_⟩
  obtain ⟨e, -, rfl⟩ := List.mem_map.mp hx
  exact WritesValues.wellFormed e.2

theorem Canonical.fromTree_toTree {m : ClaimFormatMap} (h : m.Canonical) :
    fromTree (toTree m) = some m := by
  have hm : (m.entries.map writeEntry).mapM readEntry = some (m.entries.map id) :=
    mapM_map_eq_map fun e he => readEntry_writeEntry_iff.mpr (h e he)
  have he : ofEntries m.entries = m := by
    obtain ⟨es, hn⟩ := m
    simp only [ofEntries, Members.collect_of_nodup hn]
  change ((m.entries.map writeEntry).mapM readEntry >>= fun es => some (ofEntries es)) = _
  rw [hm, List.map_id]
  exact congrArg some he

/-- Whatever is read from a value is canonical. -/
theorem canonical_of_fromTree {x : Json} {m : ClaimFormatMap} (hx : x.wellFormed = true)
    (h : fromTree x = some m) : m.Canonical := by
  cases x with
  | object ms =>
    change (ms.mapM readEntry >>= fun es => some (ofEntries es)) = _ at h
    obtain ⟨es, hes, h⟩ := Option.bind_eq_some_iff.mp h
    obtain rfl := Option.some.inj h
    intro e he
    obtain ⟨y, hy, hr⟩ := exists_of_mem_mapM hes (Members.mem_collect he)
    obtain ⟨p, hp, he⟩ := Option.bind_eq_some_iff.mp hr
    obtain rfl := Option.some.inj he
    have hw := (Json.wellFormed_object.mp hx).2 y hy
    exact ⟨ClaimFormatDesignation.canonical_fromName y.1,
      ClaimFormatPayload.canonical_of_fromTree hw hp⟩
  | _ => exact nomatch h

theorem eq_empty_of_isEmpty {m : ClaimFormatMap} (h : m.isEmpty = true) : m = empty := by
  obtain ⟨es, hn⟩ := m
  obtain rfl : es = [] := List.isEmpty_iff.mp h
  rfl

end ClaimFormatMap
end OpenID4VP
