import OpenID4VP.Core.AuthorizationRequest.Resolve

/-! # The form that asks for a request object

A request object that is fetched with POST is asked for with a form: the metadata of the wallet and,
if it gives one, a wallet nonce. The metadata is escaped and the nonce is not; `sentAsForm_iff` says
for which nonces the form is read as what was put into it. -/

namespace OpenID4VP

section
variable [SerdeJson] [UrlCrate] [FormUrlencoded] {m : WalletMetadata} {nonce : WalletNonce}

/-- The body is read as the form of these metadata and this nonce. -/
def SentAsForm (walletMetadata : WalletMetadata) (nonce : WalletNonce) (body : ByteArray) : Prop :=
  (String.fromUTF8? body).map (fun text => Form.parse text.toList) =
    some [("wallet_metadata", toJsonString walletMetadata), ("wallet_nonce", nonce.value)]

theorem postBody_some : postBody m (some nonce) = "wallet_metadata=" ++
    FormUrlencoded.byteSerialize (toJsonString m) ++ "&wallet_nonce=" ++ nonce.value := rfl

variable [FormBytes]

/-- A body with a nonce is a pair that was escaped and one whose text was not. -/
theorem toList_postBody : (postBody m (some nonce)).toList =
    Form.printPair ("wallet_metadata", toJsonString m) ++
      '&' :: (Form.printComponent "wallet_nonce" ++ '=' :: nonce.value.toList) := by
  have hm : Form.printComponent "wallet_metadata" = "wallet_metadata".toList :=
    Form.printComponent_of_isUnreserved rfl
  have hn : Form.printComponent "wallet_nonce" = "wallet_nonce".toList :=
    Form.printComponent_of_isUnreserved rfl
  rw [postBody_some]
  simp only [String.toList_append, FormBytes.byteSerialize_eq, String.toList_ofList,
    Form.printPair, hm, hn]
  simp

theorem sentAsForm_postBody_iff : SentAsForm m nonce (postBody m (some nonce)).toUTF8 ↔
    '&' ∉ nonce.value.toList ∧ Form.Literal nonce.value.toList := by
  have ht : String.fromUTF8? (postBody m (some nonce)).toUTF8 = some (postBody m (some nonce)) :=
    dif_pos (String.isValidUTF8 _)
  have hp : Form.printPair ("wallet_metadata", toJsonString m) ≠ [] := by simp [Form.printPair]
  rw [SentAsForm, ht, Option.map_some, toList_postBody,
    Form.parse_append (Form.ampersand_not_mem_printPair _) hp, Form.readPair_printPair,
    ← Form.parse_text_iff (k := "wallet_nonce")]
  simp

end

section
variable [SerdeJson] [SerdeJsonPath] [JsonSchema] [UrlCrate] [SsiJwt] [HttpCrate] [FormUrlencoded]

namespace Wallet

variable {w : Wallet σ} {s : σ} {reference : RequestReference}

/-- With POST a nonce is asked for, and then at most the form with it is sent. -/
theorem log_getByReference (hp : reference.requestUriMethod = some .post) :
    ∃ generated, (w.getByReference reference ⟨s, []⟩).2.log = [.nonceGenerated generated] ∨
      ∃ request outcome,
        request.body = (postBody w.metadata (generated.toOption.getD none)).toUTF8 ∧
        (w.getByReference reference ⟨s, []⟩).2.log =
          [.nonceGenerated generated, .sent request outcome] := by
  obtain ⟨uri, method⟩ := reference
  obtain rfl : method = some .post := hp
  refine ⟨(w.generateNonce s).1, ?_⟩
  have hl : (w.getByReference ⟨uri, some .post⟩ ⟨s, []⟩).2 =
      ((Prog.ofExcept (orInternal (createPostRequest uri (postBody w.metadata
        ((w.generateNonce s).1.toOption.getD none)).toUTF8 mimeTypeFormUrlencoded
        mimeTypeOauthReqJwt)) >>= fun request =>
          Prog.mapError .internal (w.callExecute request) >>= fun resp =>
            .ofExcept (httpRespToUnverifiedJwt resp))
          ⟨(w.generateNonce s).2, [.nonceGenerated (w.generateNonce s).1]⟩).2 := rfl
  rw [hl]
  cases hr : createPostRequest uri (postBody w.metadata
      ((w.generateNonce s).1.toOption.getD none)).toUTF8 mimeTypeFormUrlencoded
      mimeTypeOauthReqJwt with
  | error e => exact .inl rfl
  | ok request =>
    refine .inr ⟨request, (w.execute request (w.generateNonce s).2).1, ?_, ?_⟩
    · rw [createPostRequest] at hr
      obtain ⟨u, -, hr⟩ := Except.bind_eq_ok_iff.mp hr
      rw [← Except.pure_eq_ok_iff.mp hr]
    · rw [orInternal_ok, Prog.ofExcept_ok_bind, Prog.state_bind_ofExcept]
      rfl

variable [FormBytes] {nonce : WalletNonce} {request : Request} {outcome : Except Anyhow Response}

/-- The form that goes out with a nonce is read as the metadata and the nonce just when the nonce
needs no escapes. -/
theorem sentAsForm_iff (hp : reference.requestUriMethod = some .post)
    (hg : .nonceGenerated (.ok (some nonce)) ∈ (w.getByReference reference ⟨s, []⟩).2.log)
    (hs : .sent request outcome ∈ (w.getByReference reference ⟨s, []⟩).2.log) :
    SentAsForm w.metadata nonce request.body ↔
      '&' ∉ nonce.value.toList ∧ Form.Literal nonce.value.toList := by
  obtain ⟨generated, hl | ⟨request', outcome', hb, hl⟩⟩ := log_getByReference (w := w) (s := s) hp
  · rw [hl, List.mem_singleton] at hs
    cases hs
  · rw [hl] at hg hs
    obtain rfl : .ok (some nonce) = generated := by simpa using hg
    obtain ⟨rfl, -⟩ : request = request' ∧ outcome = outcome' := by simpa using hs
    rw [hb]
    exact sentAsForm_postBody_iff

end Wallet
end

/-! ## A nonce in standard Base64 -/

namespace Sample
open scoped Reference

theorem sentAsForm_fresh_iff :
    SentAsForm (nonceWallet "jwt").metadata ⟨"fresh"⟩ (objectRequest (nonceWallet "jwt")).body ↔
      '&' ∉ "fresh".toList ∧ Form.Literal "fresh".toList := by
  have hl := getByReference_nonceWallet "jwt"
  have hp : nonceReference.requestUriMethod = some .post := rfl
  apply Wallet.sentAsForm_iff (w := nonceWallet "jwt") (s := ()) hp
  · rw [hl]
    exact List.mem_cons_self
  · rw [hl]
    exact List.mem_cons_of_mem _ List.mem_cons_self

/-- A wallet whose nonces are in an alphabet that has a sign of forms in it. -/
def plusWallet : Wallet Unit :=
  { nonceWallet "jwt" with generateNonce := pure (some ⟨"a+b="⟩) }

theorem not_sentAsForm_plusWallet : ¬∀ nonce request outcome,
    .nonceGenerated (.ok (some nonce)) ∈
      (plusWallet.getByReference nonceReference ⟨(), []⟩).2.log →
    .sent request outcome ∈ (plusWallet.getByReference nonceReference ⟨(), []⟩).2.log →
    SentAsForm plusWallet.metadata nonce request.body := by
  intro h
  have hs := h ⟨"a+b="⟩ _ _ List.mem_cons_self (List.mem_cons_of_mem _ List.mem_cons_self)
  exact (sentAsForm_postBody_iff.mp hs).2.plus (by decide)

end Sample
end OpenID4VP
