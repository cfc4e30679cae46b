import OpenID4VP.Core.Response
import OpenID4VP.Crates.Reference

/-! # Transaction data in forms

The hashes go to the form as JSON text and are read as JSON text. The hash algorithm goes there as
JSON text, too, but is read as a plain name: with its quotation marks it is none. -/

namespace OpenID4VP

section
variable [SerdeJson]

/-- A name as JSON text is not the name of an algorithm. -/
theorem HashAlgorithm.tryFrom_toJsonString_ne_ok (a b : HashAlgorithm) :
    tryFrom (toJsonString a) ≠ .ok b := by
  intro h
  have hq : String.ofList (Json.Text.quote a.toString.toList) = b.toString :=
    (SerdeJson.print_string a.toString).symm.trans (tryFrom_eq_ok_iff.mp h)
  have hh : b.toString.toList.head? = some '"' := by
    rw [← hq, String.toList_ofList]
    rfl
  cases b <;> cases hh

namespace TransactionDataResponse

/-- What is written for a form is read back. -/
def RoundTrips (t : TransactionDataResponse) : Prop :=
  ∃ j, JsonTransactionDataResponse.tryFrom t = .ok j ∧ tryFrom j = .ok t

theorem fromStr_toJsonString (h : TransactionDataHashes) :
    (fromStr (toJsonString h) : Except Anyhow TransactionDataHashes) = .ok h := by
  rw [toJsonString, fromStr_print, fromValue_eq_ok_iff]
  change (fromTree (toTree h.hashes)).map TransactionDataHashes.mk = some h
  rw [LawfulSerde.fromTree_toTree]
  rfl

omit [SerdeJson] in
/-- The algorithm is read as none only where there is none. -/
theorem readAlg_eq_ok_none_iff {alg : Option String} : readAlg alg = .ok none ↔ alg = none := by
  cases alg with
  | none => simp [readAlg]
  | some alg => simp [readAlg]

theorem readAlg_toJsonString_ne_ok (a : TransactionDataHashesAlg)
    (r : Option TransactionDataHashesAlg) : readAlg (some (toJsonString a.alg)) ≠ .ok r := by
  intro h
  rw [readAlg, Except.bind_eq_ok_iff] at h
  obtain ⟨b, hb, -⟩ := h
  exact HashAlgorithm.tryFrom_toJsonString_ne_ok a.alg b (Except.mapError_eq_ok_iff.mp hb)

variable {t : TransactionDataResponse}

theorem roundTrips_iff : t.RoundTrips ↔ t.transactionDataHashesAlg = none := by
  obtain ⟨hashes, alg⟩ := t
  simp only [RoundTrips, JsonTransactionDataResponse.tryFrom, tryFrom, Except.pure_eq_ok_iff,
    exists_eq_left', fromStr_toJsonString, Except.bind_eq_ok_iff, mk.injEq]
  constructor
  · rintro ⟨_, -, r, hr, -⟩
    cases alg with
    | none => rfl
    | some a => exact absurd hr (readAlg_toJsonString_ne_ok a r)
  · rintro rfl
    exact ⟨hashes, rfl, none, rfl, rfl, rfl⟩

theorem alg_eq_none_iff {j : JsonTransactionDataResponse} (h : tryFrom j = .ok t) :
    t.transactionDataHashesAlg = none ↔ j.transactionDataHashesAlg = none := by
  simp only [tryFrom, Except.bind_eq_ok_iff, Except.pure_eq_ok_iff] at h
  obtain ⟨hashes, -, alg, ha, rfl⟩ := h
  constructor
  · rintro rfl
    exact readAlg_eq_ok_none_iff.mp ha
  · intro hj
    rw [hj] at ha
    exact (Except.ok.inj ha).symm

/-- Transaction data is read back from a form exactly when it names no hash algorithm, whether it
was made by the wallet or was received before. -/
theorem roundTrips_iff_without_alg :
    (∀ t : TransactionDataResponse, t.RoundTrips ↔ t.transactionDataHashesAlg = none) ∧
    ∀ (j : JsonTransactionDataResponse) (t : TransactionDataResponse), tryFrom j = .ok t →
      (t.RoundTrips ↔ j.transactionDataHashesAlg = none) :=
  ⟨fun _ => roundTrips_iff, fun _ _ h => roundTrips_iff.trans (alg_eq_none_iff h)⟩

end TransactionDataResponse
end

/-! ## One hash with an algorithm -/

namespace Sample
open scoped Reference

def hashedTransaction : TransactionDataResponse := ⟨⟨["hash"]⟩, some ⟨.sha256⟩⟩

/-- The same as a wallet would have to write it. -/
def receivedTransaction : JsonTransactionDataResponse :=
  ⟨toJsonString hashedTransaction.transactionDataHashes, some "sha-256"⟩

theorem tryFrom_receivedTransaction :
    TransactionDataResponse.tryFrom receivedTransaction = .ok hashedTransaction := by
  rw [TransactionDataResponse.tryFrom, receivedTransaction,
    TransactionDataResponse.fromStr_toJsonString]
  rfl

theorem roundTrips_iff_without_alg_received :
    (hashedTransaction.RoundTrips ↔ hashedTransaction.transactionDataHashesAlg = none) ∧
    (hashedTransaction.RoundTrips ↔ receivedTransaction.transactionDataHashesAlg = none) :=
  ⟨TransactionDataResponse.roundTrips_iff_without_alg.1 hashedTransaction,
    TransactionDataResponse.roundTrips_iff_without_alg.2 _ _ tryFrom_receivedTransaction⟩

theorem not_roundTrips_hashedTransaction :
    ¬hashedTransaction.RoundTrips ∧
    TransactionDataResponse.tryFrom receivedTransaction = .ok hashedTransaction := by
  refine ⟨fun h => ?_, tryFrom_receivedTransaction⟩
  cases TransactionDataResponse.roundTrips_iff.mp h

end Sample
end OpenID4VP
