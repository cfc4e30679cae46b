import OpenID4VP.Verifier.HonestRun

/-! # What a client has signed

Verifiers share a client, and all of them build their requests with it. A log of the calls on the
client has the request objects for which it made tokens, and these are the objects of the requests
that were built. -/

namespace OpenID4VP

section
variable [SerdeJson] [SerdeJsonPath] [JsonSchema] [UrlCrate] [Base64Url]

open RequestBuilder

/-- A request that a verifier is to build with a client. -/
structure Order where
  defaults : UntypedObject
  submissionEndpoint : Option Url
  calls : List Call
  walletMetadata : WalletMetadata
  requestType : RequestType

namespace Order

def verifier (x : Order) (c : Client σ) : Verifier σ := ⟨c, x.defaults, x.submissionEndpoint⟩

def builder (x : Order) (c : Client σ) : RequestBuilder σ := after (x.verifier c) x.calls

/-- The request object of the order. -/
def object (x : Order) (c : Client σ) : Except Error AuthorizationRequestObject :=
  (x.builder c).requestObject x.walletMetadata x.requestType

end Order

/-- A call on a client, with its outcome. -/
abbrev SigningCall := AuthorizationRequestObject × Except Anyhow String

/-- The client with a log of the calls on it. -/
def Client.logged (c : Client σ) : Client (Recorded σ SigningCall) where
  id := c.id
  idPrefix := c.idPrefix
  generateRequestObjectJwt o := record (o, ·) (c.generateRequestObjectJwt o)

variable {σ τ : Type} {x : Order} {c : Client σ} {c' : Client τ} {o : AuthorizationRequestObject}

omit [SerdeJson] [Base64Url] in
theorem Order.requestParameters_eq :
    (x.builder c).requestParameters = (x.builder c').requestParameters := by
  obtain ⟨defaults, submissionEndpoint, calls, walletMetadata, requestType⟩ := x
  simp only [builder]
  induction calls using List.reverseRecOn with
  | nil => rfl
  | append_singleton calls call ih =>
    rw [after_concat, after_concat]
    cases call with
    | withRequestParameter a => exact congrArg (fun params => (params.insertParam a).1) ih
    | withPresentationDefinition | withDcql => exact ih

/-- The request object depends on the client only for its id and its prefix. -/
theorem Order.object_eq (hid : c.id = c'.id) (hp : c.idPrefix = c'.idPrefix) :
    x.object c = x.object c' := by
  have hps : (x.builder c).requestParameters = (x.builder c').requestParameters :=
    requestParameters_eq
  obtain ⟨hv, hq, hd⟩ := after_fields (x.verifier c) x.calls
  obtain ⟨hv', hq', hd'⟩ := after_fields (x.verifier c') x.calls
  rw [← builder] at hv hq hd hv' hq' hd'
  rw [object, object, requestObject, requestObject, hps, hq, hd, hq', hd', hv, hv']
  simp only [verifier, hid, hp]

variable [FormUrlencoded]

def Order.build (x : Order) (c : Client σ) : Prog σ Error (Url × Option String) :=
  (x.builder c).build x.walletMetadata x.requestType

/-- The state of the client after orders, one after the other. -/
def Client.serve (c : Client σ) (orders : List Order) (s : σ) : σ :=
  orders.foldl (fun s x => (x.build c s).2) s

/-- The calls on the client while it serves orders. -/
def Client.log (c : Client σ) (orders : List Order) (s : σ) : List SigningCall :=
  (c.logged.serve orders ⟨s, []⟩).log

/-- In this state a request is built for the order, with a token for the request object. -/
structure Order.Signs (x : Order) (c : Client σ) (s : σ) (o : AuthorizationRequestObject)
    (jwt : String) : Prop where
  object : x.object c = .ok o
  built : ∃ url s', x.build c s = (.ok (url, some jwt), s')

/-- The client makes one token for an order, of the request object and with the last step. -/
theorem Order.build_eq : x.build c = do
    let o ← .ofExcept (x.object c)
    let endpoint ← .ofExcept <| orInternal <|
      parsingError (x.walletMetadata.object.get AuthorizationEndpoint)
    match x.requestType with
    | .plain => return (o.intoUrl endpoint.url, none)
    | .signedJwt r => do
      let jwt ← .mapError .internal (c.generateRequestObjectJwt o)
      return (SignedAuthorizationRequest.intoUrl ⟨c.id.getFullId, r.indirection jwt⟩ endpoint.url,
        some jwt) := by
  have hv : (x.builder c).verifier.client = c :=
    congrArg Verifier.client (after_fields (x.verifier c) x.calls).1
  rw [build, RequestBuilder.build, hv]
  rfl

/-- A token is made for an order exactly when there is a request object, the endpoint of the wallet
can be read, and a signed request is asked for. -/
theorem Order.signs_iff {s : σ} {jwt : String} : x.Signs c s o jwt ↔ x.object c = .ok o ∧
    (∃ endpoint, x.walletMetadata.object.get AuthorizationEndpoint = some (.ok endpoint)) ∧
    (∃ r, x.requestType = .signedJwt r) ∧ (c.generateRequestObjectJwt o s).1 = .ok jwt := by
  constructor
  · rintro ⟨ho, url, s', hb⟩
    rw [build_eq, ho, Prog.ofExcept_ok_bind] at hb
    obtain ⟨endpoint, he, hb⟩ := Prog.ofExcept_bind_eq_ok_iff.mp hb
    rw [orInternal_eq_ok_iff, parsingError_eq_ok_iff] at he
    cases hr : x.requestType with
    | plain =>
      rw [hr] at hb
      cases hb
    | signedJwt r =>
      rw [hr] at hb
      obtain ⟨jwt', s₁, hj, hb⟩ := Prog.bind_eq_ok_iff.mp hb
      obtain ⟨hb, -⟩ := Prog.pure_eq_ok_iff.mp hb
      rw [← Option.some.inj (congrArg Prod.snd hb)]
      exact ⟨ho, ⟨endpoint, he⟩, ⟨r, rfl⟩, congrArg Prod.fst (Prog.mapError_eq_ok_iff.mp hj)⟩
  · rintro ⟨ho, ⟨endpoint, he⟩, ⟨r, hr⟩, hj⟩
    rw [← parsingError_eq_ok_iff, ← orInternal_eq_ok_iff] at he
    refine ⟨ho, SignedAuthorizationRequest.intoUrl ⟨c.id.getFullId, r.indirection jwt⟩ endpoint.url,
      (c.generateRequestObjectJwt o s).2, ?_⟩
    rw [build_eq, ho, Prog.ofExcept_ok_bind, he, Prog.ofExcept_ok_bind, hr]
    exact Prog.bind_apply_ok (Prog.mapError_eq_ok_iff.mpr (Prod.ext hj rfl))

/-- A logged client does for an order what it does without its log, in which the tokens are those
that are made in this state. -/
theorem Order.build_logged (x : Order) (c : Client σ) (w : Recorded σ SigningCall) :
    ∃ new, x.build c.logged w =
        ((x.build c w.state).1, ⟨(x.build c w.state).2, w.log ++ new⟩) ∧
      ∀ o jwt, (o, .ok jwt) ∈ new ↔ x.Signs c w.state o jwt := by
  have hl : x.object c.logged = x.object c := object_eq rfl rfl
  simp only [signs_iff, build_eq, hl]
  cases ho : x.object c with
  | error e => exact ⟨[], by rw [List.append_nil]; rfl, fun o jwt => iff_of_false nofun nofun⟩
  | ok o =>
    simp only [Prog.ofExcept_ok_bind]
    cases he : orInternal (parsingError (x.walletMetadata.object.get AuthorizationEndpoint)) with
    | error e =>
      refine ⟨[], by rw [List.append_nil]; rfl, fun o jwt => iff_of_false nofun ?_⟩
      rintro ⟨-, ⟨endpoint, hk⟩, -⟩
      rw [hk] at he
      cases he
    | ok endpoint =>
      rw [orInternal_eq_ok_iff, parsingError_eq_ok_iff] at he
      simp only [Prog.ofExcept_ok_bind]
      cases x.requestType with
      | plain =>
        refine ⟨[], by rw [List.append_nil]; rfl, fun o jwt => iff_of_false nofun ?_⟩
        rintro ⟨-, -, ⟨r, hr⟩, -⟩
        cases hr
      | signedJwt r =>
        refine ⟨[(o, (c.generateRequestObjectJwt o w.state).1)], ?_, fun o' jwt => ?_⟩
        · simp only [Client.logged, Prog.bind_apply, Prog.mapError, record_apply]
          rcases c.generateRequestObjectJwt o w.state with ⟨_ | jwt, s'⟩ <;> rfl
        · rw [List.mem_singleton, Prod.mk.injEq, Except.ok.injEq]
          constructor
          · rintro ⟨rfl, hj⟩
            exact ⟨rfl, ⟨endpoint, he⟩, ⟨r, rfl⟩, hj.symm⟩
          · rintro ⟨rfl, -, -, hj⟩
            exact ⟨rfl, hj.symm⟩

/-- What is signed for orders is signed for the first one or, in the state after it, for the
others. -/
theorem Client.exists_signs_cons {orders : List Order} {s : σ} {jwt : String} :
    (∃ earlier y later, x :: orders = earlier ++ y :: later ∧
      y.Signs c (c.serve earlier s) o jwt) ↔ x.Signs c s o jwt ∨
        ∃ earlier y later, orders = earlier ++ y :: later ∧
          y.Signs c (c.serve earlier (x.build c s).2) o jwt := by
  constructor
  · rintro ⟨earlier, y, later, h, hs⟩
    rcases List.cons_eq_append_iff.mp h with ⟨rfl, h⟩ | ⟨earlier, rfl, h⟩
    · cases h
      exact .inl hs
    · exact .inr ⟨earlier, y, later, (List.cons.inj h).2, hs⟩
  · rintro (hs | ⟨earlier, y, later, rfl, hs⟩)
    · exact ⟨[], x, orders, rfl, hs⟩
    · exact ⟨x :: earlier, y, later, rfl, hs⟩

theorem Client.mem_serve_log_iff {orders : List Order} {w : Recorded σ SigningCall}
    {jwt : String} : (o, .ok jwt) ∈ (c.logged.serve orders w).log ↔ (o, .ok jwt) ∈ w.log ∨
      ∃ earlier x later, orders = earlier ++ x :: later ∧
        x.Signs c (c.serve earlier w.state) o jwt := by
  induction orders generalizing w with
  | nil => simp [serve]
  | cons x orders ih =>
    obtain ⟨new, hb, hnew⟩ := x.build_logged c w
    change _ ∈ (c.logged.serve orders (x.build c.logged w).2).log ↔ _
    rw [ih, hb, List.mem_append, hnew, or_assoc, exists_signs_cons]

/-- The client has signed exactly what was built for one of the orders, in the state after the
earlier ones. -/
theorem Client.mem_log_iff {orders : List Order} {s : σ} {jwt : String} :
    (o, .ok jwt) ∈ c.log orders s ↔ ∃ earlier x later, orders = earlier ++ x :: later ∧
      x.Signs c (c.serve earlier s) o jwt :=
  mem_serve_log_iff.trans (or_iff_right List.not_mem_nil)

end
end OpenID4VP
