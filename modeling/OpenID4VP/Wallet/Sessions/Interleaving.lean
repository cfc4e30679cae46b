import OpenID4VP.Lib.Ledger
import OpenID4VP.Wallet.Sessions.Lookups
import OpenID4VP.Wallet.Sessions.Responses

/-! # Sessions that run side by side

Any number of sessions of one wallet run together, and one of them goes on at a time. What becomes
of a session depends only on how its own calls were answered. -/

namespace OpenID4VP

section
variable [SerdeJson] [SerdeJsonPath] [JsonSchema] [UrlCrate] [Base64Url] [SsiJwt] [HttpCrate]
  [FormUrlencoded] [HttpStatus] [UuidCrate] [UrlFragment]

/-- What a session is for. -/
inductive Task
  | validate (url : Url)
  | submit (responseUri : Url) (responseMode : ResponseMode) (response : AuthorizationResponse)
  | resolve (o : AuthorizationRequestObject)
  | locate (r : SignedAuthorizationRequest)

/-- What a session that succeeds comes to. -/
inductive Outcome
  | accepted (o : AuthorizationRequestObject)
  | submitted (redirectUri : Option Url)
  | resolved (query : ResolvedPresentationQuery)
  | located (responseUri : Option Url) (responseMode : ResponseMode)

def Task.session (w : Wallet σ) : Task → Session σ Error Outcome
  | validate url => do .done (.ok (.accepted (← Session.validateRequest w url)))
  | submit uri mode response => do
    .done (.ok (.submitted (← Session.submitResponse uri mode response)))
  | resolve o => do .done (.ok (.resolved (← Session.resolvePresentationQuery o)))
  | locate r => do
    let (uri, mode) ← Session.resolveResponseUriAndMode w r
    .done (.ok (.located uri mode))

/-- The sessions of a wallet, one for each task. -/
def Wallet.sessions (w : Wallet σ) (tasks : κ → Task) (s : World σ) :
    Calls.Pool (walletInterface σ) (World σ) κ Error Outcome where
  progs k := (tasks k).session w
  state := s

namespace Wallet
open Calls.Pool

variable {w : Wallet σ} {tasks : κ → Task} {s : World σ} [DecidableEq κ] {k : κ}
  {t : List (κ × (walletInterface σ).Call)}
  {P : Calls.Pool (walletInterface σ) (World σ) κ Error Outcome}

/-! ## Outcomes -/

/-- The calls that a session with an outcome has made. -/
inductive Completes (w : Wallet σ) : Task → Outcome → List (walletInterface σ).Call → Prop
  | accepted (h : Session.Accepts w url o cs) : Completes w (.validate url) (.accepted o) cs
  | submitted (h : Session.Submits uri mode response u cs) :
    Completes w (.submit uri mode response) (.submitted u) cs
  | resolved (h : Session.Resolves o (.ok query) cs) : Completes w (.resolve o) (.resolved query) cs
  | located (h : Session.Locates w r o cs) :
    Completes w (.locate r) (.located o.returnUri o.responseMode) cs

theorem finishes_session_iff {task : Task} {outcome : Outcome}
    {cs : List (walletInterface σ).Call} :
    (task.session w).Finishes cs (.ok outcome) ↔ w.Completes task outcome cs := by
  cases task with
  | validate url =>
    simp only [Task.session, Calls.finishes_bind_done_iff, Session.finishes_validateRequest_iff]
    constructor
    · rintro ⟨o, ho, he⟩
      cases he
      exact .accepted ho
    · intro h
      cases h with
      | accepted h => exact ⟨_, h, rfl⟩
  | submit uri mode response =>
    simp only [Task.session, Calls.finishes_bind_done_iff, Session.finishes_submitResponse_iff]
    constructor
    · rintro ⟨u, hu, he⟩
      cases he
      exact .submitted hu
    · intro h
      cases h with
      | submitted h => exact ⟨_, h, rfl⟩
  | resolve o =>
    simp only [Task.session, Calls.finishes_bind_done_iff,
      Session.finishes_resolvePresentationQuery_iff]
    constructor
    · rintro ⟨query, hq, he⟩
      cases he
      exact .resolved hq
    · intro h
      cases h with
      | resolved h => exact ⟨_, h, rfl⟩
  | locate r =>
    simp only [Task.session, Calls.finishes_bind_done_iff,
      Session.finishes_resolveResponseUriAndMode_iff]
    constructor
    · rintro ⟨x, ⟨o, ho, rfl⟩, he⟩
      cases he
      exact .located ho
    · intro h
      cases h with
      | located h => exact ⟨_, ⟨_, h, rfl⟩, rfl⟩

/-- Under every schedule a session has the outcome exactly when its own calls, as they were
answered, are those that lead to it. -/
theorem progs_eq_done_ok_iff (h : (w.sessions tasks s).Steps w.answer t P) {outcome : Outcome} :
    P.progs k = .done (.ok outcome) ↔ w.Completes (tasks k) outcome (callsOf k t) := by
  rw [h.progs_eq_done_iff]
  exact finishes_session_iff

/-- What the wallet accepts in one go a session accepts, too, if it runs alone. -/
theorem exists_steps_of_validateRequest {url : Url} {o : AuthorizationRequestObject}
    {s' : World σ} (hk : tasks k = .validate url) (h : w.validateRequest url s = (.ok o, s')) :
    ∃ t P, (w.sessions tasks s).Steps w.answer t P ∧ P.progs k = .done (.ok (.accepted o)) := by
  have hr : (((w.sessions tasks s).progs k).run w.answer) (w.sessions tasks s).state =
      (.ok (.accepted o), s') := by
    change ((tasks k).session w).run w.answer s = _
    rw [hk, Task.session, Calls.run_bind, Session.run_validateRequest]
    exact Prog.bind_eq_ok_iff.mpr ⟨o, s', h, rfl⟩
  obtain ⟨t, ht⟩ := exists_steps_of_run hr
  exact ⟨t, _, ht, Function.update_self ..⟩

/-! ## What leaves the wallet -/

/-- What the log of a wallet says about a call. -/
def callEvent : (walletInterface σ).Call → Option Event
  | ⟨.get, _⟩ | ⟨.set _, _⟩ => none
  | ⟨.verify method request _, outcome⟩ => some (.verified method request outcome)
  | ⟨.redirectUri request _, outcome⟩ => some (.verified .redirectUri request outcome)
  | ⟨.execute request, outcome⟩ => some (.sent request outcome)
  | ⟨.generateNonce, outcome⟩ => some (.nonceGenerated outcome)
  | ⟨.validateNonce nonce, outcome⟩ => some (.nonceValidated nonce outcome)

omit [SerdeJson] [Base64Url] [HttpCrate] [FormUrlencoded] [HttpStatus] [UuidCrate]
  [UrlFragment] in
/-- The log grows by the calls that are answered. -/
theorem log_of_answered {s s' : World σ} {cs : List (walletInterface σ).Call}
    (h : Calls.Answered w.answer s cs s') : s'.log = s.log ++ cs.filterMap callEvent := by
  induction h with
  | nil => exact (List.append_nil _).symm
  | @cons op s s' cs _ ih =>
    rw [ih]
    cases op with
    | get | set => rfl
    | _ => exact List.append_assoc ..

omit [SerdeJson] [Base64Url] [SsiJwt] [HttpCrate] [FormUrlencoded] [HttpStatus] [UuidCrate]
  [UrlFragment] in
theorem callEvent_eq_sent {c : (walletInterface σ).Call} {request : Request}
    {outcome : Except Anyhow Response} (h : callEvent c = some (.sent request outcome)) :
    c = ⟨.execute request, outcome⟩ := by
  obtain ⟨op, answer⟩ := c
  cases op <;> cases h
  rfl

/-- The requests that a session sends, with the calls that it has made before: for a request object,
for a presentation definition, or with the response that it was given. -/
inductive Sends (w : Wallet σ) : Task → Request → List (walletInterface σ).Call → Prop
  | object (hu : AuthorizationRequest.fromUrl url w.metadata.authorizationEndpoint.url =
      .ok (.signed r)) (h : Session.AsksForObject w r request cs) :
    Sends w (.validate url) request cs
  | lookup (h : Session.AsksForObject w r request cs) : Sends w (.locate r) request cs
  | definition (h : Session.IsFetched o request) : Sends w (.resolve o) request []
  | response (h : Session.IsPosted uri mode response request) :
    Sends w (.submit uri mode response) request []

omit [HttpStatus] [UrlFragment] in
theorem Sends.not_isSent {task : Task} {request : Request} {cs : List (walletInterface σ).Call}
    (h : w.Sends task request cs) : ∀ c ∈ cs, ¬Session.IsSent c := by
  cases h with
  | response | definition => exact List.forall_mem_nil _
  | object _ h | lookup h =>
    cases h with
    | get => exact List.forall_mem_nil _
    | post => exact List.forall_mem_singleton.mpr not_false

omit [SerdeJson] [Base64Url] [SsiJwt] [HttpCrate] [FormUrlencoded] [HttpStatus] [UuidCrate]
  [UrlFragment] in
/-- A call of a session that makes no call but one that sends a request. -/
theorem sent_of_eq_or {p : Request → Prop} {before after : List (walletInterface σ).Call}
    {c : (walletInterface σ).Call} (h : before ++ c :: after = [] ∨
      ∃ request outcome, p request ∧ before ++ c :: after = [⟨.execute request, outcome⟩]) :
    before = [] ∧ after = [] ∧ ∃ request outcome, p request ∧ c = ⟨.execute request, outcome⟩ := by
  rcases h with ht | ⟨request, outcome, hp, ht⟩
  · exact absurd ht (List.append_ne_nil_of_right_ne_nil _ (List.cons_ne_nil _ _))
  · obtain ⟨rfl, rfl, rfl⟩ := append_cons_eq_concat [] ht List.not_mem_nil
    exact ⟨rfl, rfl, request, outcome, hp, rfl⟩

/-- A session sends one request at most. -/
theorem sends_of_does {task : Task} {before after : List (walletInterface σ).Call}
    {request : Request} {outcome : Except Anyhow Response}
    (h : (task.session w).Does (before ++ ⟨.execute request, outcome⟩ :: after)) :
    w.Sends task request before ∧ ∀ c ∈ after, ¬Session.IsSent c := by
  cases task with
  | validate url =>
    have hp := Session.progress_of_validateRequest (Calls.does_bind_done h)
    obtain ⟨⟨r, hu, ha⟩, hs⟩ := hp.asksForObject
    exact ⟨.object hu ha, hs⟩
  | submit uri mode response =>
    obtain ⟨rfl, rfl, request', outcome', hp, hc⟩ :=
      sent_of_eq_or (Session.does_submitResponse (Calls.does_bind_done h))
    cases hc
    exact ⟨.response hp, List.forall_mem_nil _⟩
  | resolve o =>
    obtain ⟨rfl, rfl, request', outcome', hf, hc⟩ :=
      sent_of_eq_or (Session.does_resolvePresentationQuery (Calls.does_bind_done h))
    cases hc
    exact ⟨.definition hf, List.forall_mem_nil _⟩
  | locate r =>
    have hl := Session.locating_of_resolveResponseUriAndMode (Calls.does_bind_done h)
    exact ⟨.lookup hl.asksForObject.1, hl.asksForObject.2⟩

/-- Under every schedule, every request in the log belongs to one session, which sends it for its
own task and sends no other. -/
theorem sends_of_mem_log (h : (w.sessions tasks s).Steps w.answer t P) {request : Request}
    {outcome : Except Anyhow Response} (hr : .sent request outcome ∈ P.state.log) :
    .sent request outcome ∈ s.log ∨ ∃ k before after,
      callsOf k t = before ++ ⟨.execute request, outcome⟩ :: after ∧
      w.Sends (tasks k) request before ∧ ∀ c ∈ before ++ after, ¬Session.IsSent c := by
  rw [log_of_answered h.answered] at hr
  rcases List.mem_append.mp hr with hr | hr
  · exact .inl hr
  obtain ⟨c, hc, he⟩ := List.mem_filterMap.mp hr
  obtain ⟨⟨k, c⟩, hk, rfl⟩ := List.mem_map.mp hc
  obtain rfl := callEvent_eq_sent he
  obtain ⟨before, after, ht⟩ := List.append_of_mem (mem_callsOf.mpr hk)
  have hd := h.does k
  rw [ht] at hd
  obtain ⟨hs, ha⟩ := sends_of_does hd
  exact .inr ⟨k, before, after, ht, hs, List.forall_mem_append.mpr ⟨hs.not_isSent, ha⟩⟩

/-! ## Nonces -/

/-- The calls after which a session has a nonce validated. The request object with this nonce has
been retrieved, and if it is to be accepted then it has been authenticated, too. -/
inductive Presents (w : Wallet σ) (nonce : WalletNonce) :
    Task → List (walletInterface σ).Call → Prop
  | validate (h : Session.Presents w url nonce cs) : Presents w nonce (.validate url) cs
  | locate (hj : Session.Retrieves w r jwt cs) (hd : Session.decodeObject jwt = .ok o)
    (hn : o.inner.get WalletNonce = some (.ok nonce)) : Presents w nonce (.locate r) cs

/-- A nonce is validated once in a session, and that is its last call. -/
theorem presents_of_does {task : Task} {before after : List (walletInterface σ).Call}
    {nonce : WalletNonce} {outcome : Except Anyhow Bool}
    (h : (task.session w).Does (before ++ ⟨.validateNonce nonce, outcome⟩ :: after)) :
    w.Presents nonce task before ∧ after = [] := by
  cases task with
  | validate url =>
    have hp := Session.progress_of_validateRequest (Calls.does_bind_done h)
    exact ⟨.validate hp.presented.1, hp.presented.2⟩
  | submit uri mode response =>
    obtain ⟨-, -, request, outcome', -, hc⟩ :=
      sent_of_eq_or (Session.does_submitResponse (Calls.does_bind_done h))
    cases hc
  | resolve o =>
    obtain ⟨-, -, request, outcome', -, hc⟩ :=
      sent_of_eq_or (Session.does_resolvePresentationQuery (Calls.does_bind_done h))
    cases hc
  | locate r =>
    have hl := Session.locating_of_resolveResponseUriAndMode (Calls.does_bind_done h)
    obtain ⟨⟨jwt, o, hj, hd, hn⟩, ha⟩ := hl.presented
    exact ⟨.locate hj hd hn, ha⟩

/-- Under every schedule, the calls of the session that has a nonce validated are, up to there,
those that retrieve the object with this nonce, and authenticate it if it is to be accepted. The
session makes no call after. -/
theorem presents_of_steps {before after : List (κ × (walletInterface σ).Call)} {nonce : WalletNonce}
    {outcome : Except Anyhow Bool} (h : (w.sessions tasks s).Steps w.answer
      (before ++ (k, ⟨Operation.validateNonce nonce, outcome⟩) :: after) P) :
    w.Presents nonce (tasks k) (callsOf k before) ∧ callsOf k after = [] := by
  have hd := h.does k
  rw [callsOf_append_cons] at hd
  exact presents_of_does hd

end Wallet
end

/-! ## Two sessions -/

namespace Sample
open scoped Reference
open Calls.Pool

/-- The nonces that a wallet has issued and accepted. -/
structure Desk where
  issued : List String
  spent : List String

def deskWallet : Wallet Desk where
  metadata := wallet.metadata
  x509SanDns _ _ := pure ()
  execute _ := throw (.msg "offline")
  generateNonce := fun s => (.ok (some ⟨"fresh"⟩), { s with issued := "fresh" :: s.issued })
  validateNonce nonce := fun s =>
    if nonce.value ∈ s.issued ∧ nonce.value ∉ s.spent then
      (.ok true, { s with spent := nonce.value :: s.spent })
    else (.ok false, s)

/-- A request object with a nonce of the wallet. -/
def noncedRequest (nonce : String) : AuthorizationRequestObject :=
  request ⟨"verifier.example", .x509SanDns⟩
    ((requestObject "x509_san_dns:verifier.example").insert "wallet_nonce" (.string nonce))

def noncedReference (o : AuthorizationRequestObject) : SignedAuthorizationRequest :=
  ⟨o.clientId.getFullId, .byValue (token o)⟩

def nonceOf (k : Bool) : String := bif k then "a" else "b"

def noncedTasks (k : Bool) : Task :=
  .validate ((noncedReference (noncedRequest (nonceOf k))).intoUrl endpoint)

def verifyCall (k : Bool) : (walletInterface Desk).Call :=
  ⟨.verify .x509SanDns (noncedRequest (nonceOf k)) (token (noncedRequest (nonceOf k))), .ok ()⟩

def nonceCall (k : Bool) : (walletInterface Desk).Call := ⟨.validateNonce ⟨nonceOf k⟩, .ok true⟩

theorem fromUrl_noncedReference (k : Bool) : AuthorizationRequest.fromUrl
    ((noncedReference (noncedRequest (nonceOf k))).intoUrl endpoint)
      deskWallet.metadata.authorizationEndpoint.url =
        .ok (.signed (noncedReference (noncedRequest (nonceOf k)))) :=
  AuthorizationRequest.fromUrl_intoUrl_signed _ endpoint

theorem accepts_noncedReference (k : Bool) : Session.Accepts deskWallet
    ((noncedReference (noncedRequest (nonceOf k))).intoUrl endpoint) (noncedRequest (nonceOf k))
      [verifyCall k, nonceCall k] := by
  change Session.Accepts _ _ _ ([] ++ [verifyCall k] ++ [nonceCall k])
  refine .signed
    (fromUrl_noncedReference k) (.byValue rfl) (decodeRequest_token ?_) (.method ?_) ?_ (.valid ?_)
    rfl
  all_goals cases k <;> first | rfl | exact nofun

/-- The same is looked up with the nonce alone. -/
theorem locates_noncedReference : ∃ retrieval authentication nonce,
    [verifyCall true, nonceCall true] = retrieval ++ authentication ++ nonce ∧
    Session.Locates deskWallet (noncedReference (noncedRequest "a")) (noncedRequest "a")
      (retrieval ++ nonce) ∧ ∀ c ∈ authentication, Session.IsAuthentication c :=
  (accepts_noncedReference true).locates (fromUrl_noncedReference true)

theorem completes_noncedTasks (k : Bool) :
    deskWallet.Completes (noncedTasks k) (.accepted (noncedRequest (nonceOf k)))
      [verifyCall k, nonceCall k] :=
  .accepted (accepts_noncedReference k)

/-- The calls of the two sessions, one within the other. -/
def noncedTrace : List (Bool × (walletInterface Desk).Call) :=
  [(true, verifyCall true), (false, verifyCall false), (false, nonceCall false),
    (true, nonceCall true)]

theorem callsOf_noncedTrace (k : Bool) : callsOf k noncedTrace = [verifyCall k, nonceCall k] := by
  cases k <;> rfl

/-- Both sessions have accepted their requests. -/
def noncedEnd (s : World Desk) :
    Calls.Pool (walletInterface Desk) (World Desk) Bool Error Outcome where
  progs k := .done (.ok (.accepted (noncedRequest (nonceOf k))))
  state := s

theorem exists_steps_noncedTrace :
    ∃ s, (deskWallet.sessions noncedTasks ⟨⟨["a", "b"], []⟩, []⟩).Steps deskWallet.answer
      noncedTrace (noncedEnd s) := by
  refine ⟨_, steps_iff.mpr ⟨fun k => ?_, .cons (.cons (.cons (.cons .nil)))⟩⟩
  have hf := Wallet.finishes_session_iff.mpr (completes_noncedTasks k)
  rw [callsOf_noncedTrace]
  exact hf

theorem progs_noncedEnd_iff : ∃ s, ((noncedEnd s).progs true =
    .done (.ok (.accepted (noncedRequest "a"))) ↔ deskWallet.Completes (noncedTasks true)
      (.accepted (noncedRequest "a")) (callsOf true noncedTrace)) := by
  obtain ⟨s, hs⟩ := exists_steps_noncedTrace
  exact ⟨s, Wallet.progs_eq_done_ok_iff hs⟩

theorem presents_noncedTrace : deskWallet.Presents ⟨"a"⟩ (noncedTasks true)
      (callsOf true
        [(true, verifyCall true), (false, verifyCall false), (false, nonceCall false)]) ∧
    callsOf true ([] : List (Bool × (walletInterface Desk).Call)) = [] := by
  obtain ⟨s, hs⟩ := exists_steps_noncedTrace
  have hs : (deskWallet.sessions noncedTasks ⟨⟨["a", "b"], []⟩, []⟩).Steps deskWallet.answer
      ([(true, verifyCall true), (false, verifyCall false), (false, nonceCall false)] ++
        (true, nonceCall true) :: []) (noncedEnd s) := hs
  exact Wallet.presents_of_steps hs

/-- The request that posts a response in the clear. -/
def clearPost : Request where
  method := .post
  uri := "https://verifier.example/response"
  headers := [("content-type", "application/x-www-form-urlencoded"), ("accept", "application/json")]
  body := "vp_token=string".toUTF8

def clearTask : Task := .submit responseUri .directPost clearResponse

theorem sends_clearPost : ∃ t, ∃ k : Unit, ∃ before after,
    callsOf k t = before ++ ⟨.execute clearPost, .error (.msg "offline")⟩ :: after ∧
      wallet.Sends clearTask clearPost before ∧ ∀ c ∈ before ++ after, ¬Session.IsSent c := by
  have hs := Calls.Pool.Steps.concat (h := wallet.answer) (k := ())
    (.refl (P := wallet.sessions (fun _ => clearTask) ⟨(), []⟩)) rfl
  have hr : Event.sent clearPost (.error (.msg "offline")) ∈
      [Event.sent clearPost (.error (.msg "offline"))] := List.mem_cons_self
  have hm := Wallet.sends_of_mem_log hs hr
  exact ⟨_, hm.resolve_left List.not_mem_nil⟩

end Sample
end OpenID4VP
