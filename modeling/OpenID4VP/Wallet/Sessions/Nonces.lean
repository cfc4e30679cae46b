import OpenID4VP.Wallet.Sessions.Interleaving

/-! # Wallet nonces

A wallet that accepts each nonce once is protected against replay: whatever the schedule is, no two
sessions accept request objects of tokens with the same wallet nonce. A session that only looks up
where to answer uses the nonce up, too. Where a wallet accepts only nonces that it has issued, the
nonce of an accepted object was generated before. -/

namespace OpenID4VP

section
variable [SerdeJson] [SerdeJsonPath] [JsonSchema] [UrlCrate] [Base64Url] [SsiJwt]

/-! ## Wallets with nonces for one time -/

/-- The method does not replace the state of the wallet. A state that it put back would undo what
other sessions have done meanwhile. -/
inductive VerifierProg.ReadOnly : VerifierProg σ → Prop
  | done {outcome : Except Error Unit} : ReadOnly (.done outcome)
  | get {next : σ → VerifierProg σ} (h : ∀ s, ReadOnly (next s)) : ReadOnly (.get next)
  | redirectUri {next : Except Error Unit → VerifierProg σ}
    (h : ∀ outcome, ReadOnly (next outcome)) : ReadOnly (.redirectUri request uri next)

omit [SerdeJson] [Base64Url] in
theorem readOnly_redirectUriJwt (o : AuthorizationRequestObject) (jwt : String) :
    (redirectUriJwt σ o jwt).ReadOnly := by
  rw [redirectUriJwt]
  split
  · exact .done
  · exact .done
  · split
    · exact .redirectUri fun _ => .done
    · exact .done

/-- The methods of the wallet, but for the one that generates nonces, go to states of this relation,
and none of them replaces the state. -/
structure Wallet.Keeps (w : Wallet σ) (R : σ → σ → Prop) : Prop where
  verifier : ∀ method o jwt s, R s (w.verifier method o jwt s).2
  redirectUri : ∀ o uri s, R s (w.redirectUri o uri s).2
  redirectUriJwt : ∀ o jwt, (w.redirectUriJwt o jwt).ReadOnly
  execute : ∀ request s, R s (w.execute request s).2
  validateNonce : ∀ nonce s, R s (w.validateNonce nonce s).2

/-- The wallet accepts a nonce only if it is not spent, and spends it. No spent nonce becomes good
again. -/
structure Wallet.OneTimeNonces (w : Wallet σ) (spent : σ → WalletNonce → Prop) : Prop where
  keeps : w.Keeps fun s s' => ∀ nonce, spent s nonce → spent s' nonce
  generateNonce : ∀ s nonce, spent s nonce → spent (w.generateNonce s).2 nonce
  valid : ∀ nonce s, (w.validateNonce nonce s).1 = .ok true →
    ¬spent s nonce ∧ spent (w.validateNonce nonce s).2 nonce

/-- The wallet accepts a nonce only if it has issued it, and it issues those it generates. -/
structure Wallet.IssuedNonces (w : Wallet σ) (issued : σ → WalletNonce → Prop) : Prop where
  keeps : w.Keeps fun s s' => ∀ nonce, issued s' nonce → issued s nonce
  generateNonce : ∀ s nonce, issued (w.generateNonce s).2 nonce →
    issued s nonce ∨ (w.generateNonce s).1 = .ok (some nonce)
  valid : ∀ nonce s, (w.validateNonce nonce s).1 = .ok true → issued s nonce

/-- An operation that does not replace the state of the wallet. -/
def Operation.Keeping : Operation σ → Prop
  | set _ => False
  | _ => True

/-- A nonce is issued when it is generated, and accepted when it is valid. -/
def nonceTokens : Calls.Tokens (walletInterface σ) WalletNonce where
  issues
    | ⟨.generateNonce, .ok nonce⟩ => nonce
    | _ => none
  accepts
    | ⟨.validateNonce nonce, .ok true⟩ => some nonce
    | _ => none

omit [SerdeJson] [Base64Url] [SsiJwt] in
theorem accepts_eq_some_iff {c : (walletInterface σ).Call} {nonce : WalletNonce} :
    nonceTokens.accepts c = some nonce ↔ c = ⟨.validateNonce nonce, .ok true⟩ := by
  constructor
  · intro h
    obtain ⟨op, answer⟩ := c
    cases op with
    | validateNonce n =>
      obtain (e | _ | _) := answer <;> cases h
      rfl
    | _ => cases h
  · rintro rfl
    rfl

omit [SerdeJson] [Base64Url] [SsiJwt] in
theorem issues_eq_some_iff {c : (walletInterface σ).Call} {nonce : WalletNonce} :
    nonceTokens.issues c = some nonce ↔ c = ⟨.generateNonce, .ok (some nonce)⟩ := by
  constructor
  · intro h
    obtain ⟨op, answer⟩ := c
    cases op with
    | generateNonce =>
      obtain (e | n) := answer <;> cases h
      rfl
    | _ => cases h
  · rintro rfl
    rfl

omit [SerdeJson] [Base64Url] in
/-- What an operation does to the state of the wallet, other than to generate a nonce. -/
theorem Wallet.Keeps.answer {w : Wallet σ} {R : σ → σ → Prop} (h : w.Keeps R) (hr : ∀ s, R s s)
    {op : Operation σ} (ho : op.Keeping) (hg : op ≠ .generateNonce) (world : World σ) :
    R world.state (w.answer op world).2.state := by
  cases op with
  | get => exact hr _
  | set => exact absurd ho not_false
  | verify method o jwt => exact h.verifier method o jwt world.state
  | redirectUri o uri => exact h.redirectUri o uri world.state
  | execute request => exact h.execute request world.state
  | validateNonce nonce => exact h.validateNonce nonce world.state
  | generateNonce => exact absurd rfl hg

/-- The nonces of a wallet that are spent. -/
def Wallet.OneTimeNonces.spending {w : Wallet σ} {spent : σ → WalletNonce → Prop}
    (hw : w.OneTimeNonces spent) : Calls.Spending w.answer nonceTokens Operation.Keeping where
  spent world := spent world.state
  spent_call op world nonce ho hs := by
    by_cases hg : op = .generateNonce
    · subst hg
      exact hw.generateNonce world.state nonce hs
    · exact hw.keeps.answer (fun _ _ h => h) ho hg world nonce hs
  accepts_call op world nonce _ ha := by
    obtain ⟨rfl, hv⟩ := Interface.Call.mk.inj (accepts_eq_some_iff.mp ha)
    exact hw.valid nonce world.state (eq_of_heq hv)

/-- The nonces of a wallet that it has issued. -/
def Wallet.IssuedNonces.issuing {w : Wallet σ} {issued : σ → WalletNonce → Prop}
    (hw : w.IssuedNonces issued) : Calls.Issuing w.answer nonceTokens Operation.Keeping where
  issued world := issued world.state
  issued_call op world nonce ho hi := by
    by_cases hg : op = .generateNonce
    · subst hg
      refine (hw.generateNonce world.state nonce hi).imp_right fun h => ?_
      exact issues_eq_some_iff.mpr (congrArg _ h)
    · exact .inl (hw.keeps.answer (fun _ _ h => h) ho hg world nonce hi)
  accepts_call op world nonce _ ha := by
    obtain ⟨rfl, hv⟩ := Interface.Call.mk.inj (accepts_eq_some_iff.mp ha)
    exact hw.valid nonce world.state (eq_of_heq hv)

/-! ## Sessions that leave the state alone -/

namespace Session

variable {w : Wallet σ}

omit [SerdeJson] [Base64Url] [SsiJwt] in
theorem only_ofVerifier {p : VerifierProg σ} (h : p.ReadOnly) :
    (ofVerifier p).Only Operation.Keeping := by
  induction h with
  | done => exact .done
  | get _ ih => exact .call trivial ih
  | redirectUri _ ih => exact .call trivial ih

omit [SerdeJson] [Base64Url] [SsiJwt] in
theorem only_authenticatePlain (o : AuthorizationRequestObject) :
    (authenticatePlain o : Session σ Error Unit).Only Operation.Keeping := by
  rw [authenticatePlain]
  split
  · exact .call trivial fun _ => .done
  · split <;> exact .done

omit [SerdeJson] [Base64Url] in
theorem only_authenticateJwt (h : ∀ o jwt, (w.redirectUriJwt o jwt).ReadOnly)
    (o : AuthorizationRequestObject) (jwt : String) :
    (authenticateJwt w o jwt).Only Operation.Keeping := by
  rw [authenticateJwt]
  split
  · exact only_ofVerifier (h o jwt)
  · exact .call trivial fun _ => .done

theorem only_verifyRequest (h : ∀ o jwt, (w.redirectUriJwt o jwt).ReadOnly)
    (fetched : FetchedAuthorizationRequest) : (verifyRequest w fetched).Only Operation.Keeping := by
  cases fetched with
  | plain request => exact (only_authenticatePlain request).bind fun _ => .bind .done fun _ => .done
  | unverifiedJwt jwt =>
    refine .bind .done fun request => ?_
    exact (only_authenticateJwt h request jwt).bind fun _ => .bind .done fun _ => .done

omit [SerdeJson] [Base64Url] [SsiJwt] in
theorem only_execute (request : Request) :
    (execute request : Session σ Anyhow Response).Only Operation.Keeping :=
  .call trivial fun _ => .done

omit [SerdeJson] [Base64Url] [SsiJwt] in
theorem only_validateWalletNonce (o : AuthorizationRequestObject) :
    (validateWalletNonce o : Session σ Error Unit).Only Operation.Keeping := by
  rw [validateWalletNonce]
  split
  · exact .done
  · refine .bind .done fun _ => .bind (.mapError (.call trivial fun _ => .done)) fun valid => ?_
    split <;> exact .done

variable [HttpCrate] [FormUrlencoded]

omit [Base64Url] in
theorem only_retrieveUnverifiedJwt (r : SignedAuthorizationRequest) :
    (retrieveUnverifiedJwt w r).Only Operation.Keeping := by
  rw [retrieveUnverifiedJwt]
  split
  · exact .done
  · rw [getByReference]
    split
    · refine .bind .done fun request => ?_
      exact .bind (only_execute request).mapError fun _ => .done
    · refine .bind (.attempt (.call trivial fun _ => .done)) fun _ => .bind .done fun request => ?_
      exact .bind (only_execute request).mapError fun _ => .done

theorem only_validateRequest (h : ∀ o jwt, (w.redirectUriJwt o jwt).ReadOnly) (url : Url) :
    (validateRequest w url).Only Operation.Keeping := by
  refine .bind .done fun ar => .mapError ?_
  cases ar with
  | plain o => exact only_verifyRequest h (.plain o)
  | signed r =>
    refine (only_retrieveUnverifiedJwt r).bind fun jwt => ?_
    refine (only_verifyRequest h (.unverifiedJwt jwt)).bind fun o => ?_
    exact (only_validateWalletNonce o).bind fun _ => .bind .done fun _ => .done

theorem only_resolveResponseUriAndMode (r : SignedAuthorizationRequest) :
    (resolveResponseUriAndMode w r).Only Operation.Keeping := by
  refine (only_retrieveUnverifiedJwt r).bind fun jwt => .bind .done fun o => ?_
  exact (only_validateWalletNonce o).bind fun _ => .done

omit [Base64Url] [SsiJwt] [FormUrlencoded] in
theorem only_resolvePresentationQuery (o : AuthorizationRequestObject) :
    (resolvePresentationQuery o : Session σ Error _).Only Operation.Keeping := by
  rw [resolvePresentationQuery.eq_def]
  split
  · exact .done
  · exact .done
  · exact .bind .done fun request => .bind (only_execute request).mapError fun _ => .done

variable [HttpStatus] [UuidCrate] [UrlFragment]

omit [Base64Url] in
theorem only_submitResponse (uri : Url) (mode : ResponseMode) (response : AuthorizationResponse) :
    (submitResponse uri mode response : Session σ Error (Option Url)).Only Operation.Keeping := by
  have hp : ∀ body, (postForm uri body : Session σ Error (Option Url)).Only Operation.Keeping := by
    intro body
    refine .bind .done fun request => .bind (only_execute request).mapError fun _ => ?_
    exact .bind .done fun _ => .done
  cases mode with
  | directPost | directPostJwt => exact .bind .done hp
  | fragment | fragmentJwt => exact .bind .done fun _ => .done
  | dcApi | dcApiJwt | unsupported => exact .done

end Session

/-! ## Agreement on nonces -/

namespace Wallet
open Calls.Pool

variable [HttpCrate] [FormUrlencoded] [HttpStatus] [UuidCrate] [UrlFragment] [DecidableEq κ]

variable {w : Wallet σ} {spent issued : σ → WalletNonce → Prop} {tasks : κ → Task} {s : World σ}
  {t : List (κ × (walletInterface σ).Call)} {k k' : κ}
  {P : Calls.Pool (walletInterface σ) (World σ) κ Error Outcome}
  {o o' : AuthorizationRequestObject} {nonce : WalletNonce}

/-- The session has succeeded with the request object of a token: it has accepted the object, or
looked up where to answer it. -/
inductive Uses (w : Wallet σ) (tasks : κ → Task) (t : List (κ × (walletInterface σ).Call))
    (P : Calls.Pool (walletInterface σ) (World σ) κ Error Outcome) (k : κ)
    (o : AuthorizationRequestObject) : Prop
  | accepted (hp : P.progs k = .done (.ok (.accepted o))) (hk : tasks k = .validate url)
    (hu : AuthorizationRequest.fromUrl url w.metadata.authorizationEndpoint.url = .ok (.signed r))
  | located (hk : tasks k = .locate r) (hl : Session.Locates w r o (callsOf k t))

/-- A session that has succeeded with an object with a nonce has had the nonce validated. -/
theorem Uses.mem (ha : w.Uses tasks t P k o)
    (h : (w.sessions tasks s).Steps w.answer t P)
    (hn : o.inner.get WalletNonce = some (.ok nonce)) :
    (k, ⟨.validateNonce nonce, .ok true⟩) ∈ t := by
  rw [← mem_callsOf]
  have hm : ∀ {cs : List (walletInterface σ).Call}, Session.ChecksNonce o cs →
      ⟨.validateNonce nonce, .ok true⟩ ∈ cs := by
    intro cs hc
    cases hc with
    | absent hn' => cases hn.symm.trans hn'
    | valid hn' =>
      cases hn.symm.trans hn'
      exact List.mem_singleton_self _
  cases ha with
  | accepted hp hk hu =>
    have hc : w.Completes (tasks k) _ (callsOf k t) :=
      finishes_session_iff.mp (h.progs_eq_done_iff.mp hp)
    rw [hk] at hc
    cases hc with
    | accepted hc =>
      generalize callsOf k t = cs at hc
      cases hc with
      | browser hu' | plain hu' => cases hu.symm.trans hu'
      | signed _ _ _ _ _ hc => exact List.mem_append_right _ (hm hc)
  | located hk hl =>
    generalize callsOf k t = cs at hl
    cases hl with
    | intro _ _ hc => exact List.mem_append_right _ (hm hc)

theorem Keeps.keeping {R : σ → σ → Prop} (hw : w.Keeps R)
    (h : (w.sessions tasks s).Steps w.answer t P) :
    ∀ c ∈ t.map Prod.snd, c.op.Keeping := by
  intro c hc
  obtain ⟨⟨k, c⟩, hk, rfl⟩ := List.mem_map.mp hc
  have ho : ((tasks k).session w).Only Operation.Keeping := by
    cases tasks k with
    | validate url => exact (Session.only_validateRequest hw.redirectUriJwt url).bind fun _ => .done
    | submit uri mode response =>
      exact (Session.only_submitResponse uri mode response).bind fun _ => .done
    | resolve o => exact (Session.only_resolvePresentationQuery o).bind fun _ => .done
    | locate r => exact (Session.only_resolveResponseUriAndMode r).bind fun _ => .done
  exact ho.of_does (h.does k) c (mem_callsOf.mpr hk)

/-- Two sessions of a wallet with nonces for one time do not succeed with objects that have the same
nonce. In particular an object is not accepted after it was looked up where to answer it. -/
theorem OneTimeNonces.get_walletNonce_ne (hw : w.OneTimeNonces spent)
    (h : (w.sessions tasks s).Steps w.answer t P) (hk : k ≠ k') (ha : w.Uses tasks t P k o)
    (ha' : w.Uses tasks t P k' o') (hn : o.inner.get WalletNonce = some (.ok nonce)) :
    o'.inner.get WalletNonce ≠ some (.ok nonce) := by
  intro hn'
  have hd := hw.spending.nodup_accepts h.answered (hw.keeps.keeping h)
  rw [List.filterMap_map] at hd
  have he := eq_of_nodup_filterMap hd (ha.mem h hn) (ha'.mem h hn') rfl rfl
  exact hk (congrArg Prod.fst he)

/-- The nonce of an object that a session succeeds with was issued at first, or the wallet has
generated it before it was validated. -/
theorem IssuedNonces.exists_issued (hw : w.IssuedNonces issued)
    (h : (w.sessions tasks s).Steps w.answer t P) (ha : w.Uses tasks t P k o)
    (hn : o.inner.get WalletNonce = some (.ok nonce)) : ∃ before after,
      t = before ++ (k, ⟨.validateNonce nonce, .ok true⟩) :: after ∧
      (issued s.state nonce ∨ ∃ k', (k', ⟨.generateNonce, .ok (some nonce)⟩) ∈ before) := by
  obtain ⟨before, after, rfl⟩ := List.append_of_mem (ha.mem h hn)
  refine ⟨before, after, rfl, ?_⟩
  have hs := h.answered
  have ho := hw.keeps.keeping h
  rw [List.map_append, List.map_cons] at hs ho
  rcases hw.issuing.issued_before hs ho (accepts_eq_some_iff.mpr rfl) with hi | ⟨c, hc, hi⟩
  · exact .inl hi
  · obtain ⟨⟨k', c⟩, hk', rfl⟩ := List.mem_map.mp hc
    cases issues_eq_some_iff.mp hi
    exact .inr ⟨k', hk'⟩

end Wallet
end

/-! ## Two sessions -/

namespace Sample
open scoped Reference
open Calls.Pool

def deskSpent (s : Desk) (nonce : WalletNonce) : Prop := nonce.value ∈ s.spent

def deskIssued (s : Desk) (nonce : WalletNonce) : Prop := nonce.value ∈ s.issued

/-- A nonce is valid at the desk when it was issued and is not spent, and is spent then. -/
theorem deskWallet_validateNonce (nonce : WalletNonce) (s : Desk) :
    (nonce.value ∈ s.issued ∧ nonce.value ∉ s.spent ∧
      deskWallet.validateNonce nonce s = (.ok true, { s with spent := nonce.value :: s.spent })) ∨
    deskWallet.validateNonce nonce s = (.ok false, s) := by
  by_cases h : nonce.value ∈ s.issued ∧ nonce.value ∉ s.spent
  · exact .inl ⟨h.1, h.2, if_pos h⟩
  · exact .inr (if_neg h)

theorem keeps_deskWallet {R : Desk → Desk → Prop} (hr : ∀ s, R s s)
    (hs : ∀ (s : Desk) value, R s { s with spent := value :: s.spent }) : deskWallet.Keeps R where
  verifier method o jwt s := by cases method <;> exact hr s
  redirectUri o uri s := hr s
  redirectUriJwt := readOnly_redirectUriJwt
  execute request s := hr s
  validateNonce nonce s := by
    obtain ⟨-, -, h⟩ | h := deskWallet_validateNonce nonce s
    · exact h ▸ hs s nonce.value
    · exact h ▸ hr s

theorem oneTimeNonces_deskWallet : deskWallet.OneTimeNonces deskSpent where
  keeps := keeps_deskWallet (fun _ _ => id) fun _ _ _ => List.mem_cons_of_mem _
  generateNonce _ _ := id
  valid nonce s h := by
    obtain ⟨-, hs, hv⟩ | hv := deskWallet_validateNonce nonce s
    · exact ⟨hs, hv ▸ List.mem_cons_self⟩
    · cases h.symm.trans (congrArg Prod.fst hv)

theorem issuedNonces_deskWallet : deskWallet.IssuedNonces deskIssued where
  keeps := keeps_deskWallet (fun _ _ => id) fun _ _ _ => id
  generateNonce s nonce h := by
    rcases List.mem_cons.mp h with hn | hn
    · obtain ⟨value⟩ := nonce
      cases hn
      exact .inr rfl
    · exact .inl hn
  valid nonce s h := by
    obtain ⟨hs, -, -⟩ | hv := deskWallet_validateNonce nonce s
    · exact hs
    · cases h.symm.trans (congrArg Prod.fst hv)

theorem uses_noncedEnd (s : World Desk) (k : Bool) :
    deskWallet.Uses noncedTasks noncedTrace (noncedEnd s) k (noncedRequest (nonceOf k)) :=
  .accepted rfl rfl (fromUrl_noncedReference k)

theorem get_walletNonce_ne_deskWallet :
    (noncedRequest "b").inner.get WalletNonce ≠ some (.ok ⟨"a"⟩) := by
  obtain ⟨s, hs⟩ := exists_steps_noncedTrace
  have hk : true ≠ false := Bool.noConfusion
  exact oneTimeNonces_deskWallet.get_walletNonce_ne hs hk
    (uses_noncedEnd s true) (uses_noncedEnd s false) rfl

theorem exists_issued_deskWallet : ∃ before after,
    noncedTrace = before ++ (true, nonceCall true) :: after ∧
    (deskIssued ⟨["a", "b"], []⟩ ⟨"a"⟩ ∨
      ∃ k, (k, ⟨.generateNonce, .ok (some ⟨"a"⟩)⟩) ∈ before) := by
  obtain ⟨s, hs⟩ := exists_steps_noncedTrace
  exact issuedNonces_deskWallet.exists_issued hs (uses_noncedEnd s true) rfl

end Sample
end OpenID4VP
