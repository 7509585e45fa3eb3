import HsmProxy.Authz.Memo
import HsmProxy.Grpc.Plan
import HsmProxy.Pkcs11.WorkerSteps

/-!
# Admission

What `admit` decides, without the memo it consults: `authorization` is the decision of the policy on
the identity of the leaf certificate, `Granted` when it is favourable.
`admissionContract` says what a handler does before and after that decision, relying on the memo to
hold only what `parse_identity` said; `admission_outline` establishes both for every run.

* `complete_mediation`: a call that is not granted sends no job, touches neither the cache nor a
  bucket, and is answered the same in every state; a job that is sent is the one planned by a call
  that was granted.
-/

namespace HsmProxy

open Interleaving Interleaving.Prog

/-! ## The decision -/

section

variable (P : Platform)

/-- The decision of a policy on a call. -/
def authorization (policy : Policy) (peerCerts : Option (List Bytes)) (keyLabel : String)
    (operation : Operation) : Except Status String :=
  match identityOf P peerCerts with
  | .error status => .error status
  | .ok identity =>
    if policy.isAllowed identity keyLabel operation then .ok identity
    else .error (.permissionDenied
      s!"identity '{identity}' is not permitted to {operation.asStr} key '{keyLabel}'")

/-- The policy grants the call: its leaf certificate has an identity, which may perform the
operation on the key. -/
def Granted (policy : Policy) (rpc : Rpc) : Prop :=
  ∃ identity, identityOf P rpc.peerCerts = .ok identity ∧
    policy.isAllowed identity rpc.keyLabel rpc.operation = true

/-- The decision is favourable for the calls that are granted. -/
lemma granted_iff {policy : Policy} {rpc : Rpc} : Granted P policy rpc ↔
    ∃ identity, authorization P policy rpc.peerCerts rpc.keyLabel rpc.operation = .ok identity := by
  unfold Granted authorization
  cases identityOf P rpc.peerCerts with
  | error status => simp
  | ok identity =>
    by_cases hallowed : policy.isAllowed identity rpc.keyLabel rpc.operation = true
    · simp [hallowed]
    · simp [hallowed]

/-- The status a call that is not granted deserves. -/
lemma authorization_error {policy : Policy} {rpc : Rpc} (h : ¬ Granted P policy rpc) :
    ∃ status, authorization P policy rpc.peerCerts rpc.keyLabel rpc.operation = .error status := by
  cases hauth : authorization P policy rpc.peerCerts rpc.keyLabel rpc.operation with
  | error status => exact ⟨status, rfl⟩
  | ok identity => exact absurd ((granted_iff P).mpr ⟨identity, hauth⟩) h

/-- An identity that cannot be established is an authentication failure. -/
lemma identityOf_code {peerCerts : Option (List Bytes)} {status : Status}
    (h : identityOf P peerCerts = .error status) : status.code = .unauthenticated := by
  unfold identityOf parseIdentity at h
  split at h
  · cases h
    rfl
  · split at h
    · cases h
      rfl
    · split at h
      · cases h
        rfl
      · split at h
        · cases h
        · split at h
          · cases h
          · cases h
            rfl

/-- A refusal says that the caller is unknown, or not permitted. -/
lemma authorization_code {policy : Policy} {peerCerts : Option (List Bytes)} {keyLabel : String}
    {operation : Operation} {status : Status}
    (h : authorization P policy peerCerts keyLabel operation = .error status) :
    status.code = .unauthenticated ∨ status.code = .permissionDenied := by
  unfold authorization at h
  split at h
  · rename_i status' hidentity
    obtain rfl := Except.error.inj h
    exact Or.inl (identityOf_code P hidentity)
  · split at h
    · cases h
    · obtain rfl := Except.error.inj h
      exact Or.inr rfl

end

/-! ## What a handler knows -/

/-- What a handler knows about its admission: the answer of `allow`, whether `authorize` has let it
through, and whether the rate limiter has. -/
structure AdmissionLog where
  allowed : Option Bool
  authorized : Bool
  passed : Bool
  deriving DecidableEq

namespace AdmissionLog

/-- Nothing has been asked. -/
def empty : AdmissionLog := ⟨none, false, false⟩

/-- One more event. -/
def note (g : AdmissionLog) : Event Op.Ans → AdmissionLog
  | ⟨.breaker .load, .closed⟩ => { g with allowed := some true }
  | ⟨.breaker .load, .halfOpen⟩ => { g with allowed := some true }
  | ⟨.breaker .probe, answer⟩ => { g with allowed := some answer }
  | ⟨.authz (.count .allowed), _⟩ => { g with authorized := true }
  | ⟨.limiterCheck _, answer⟩ => { g with passed := answer }
  | _ => g

/-- Every check the configuration asks for has been passed. -/
def Admitted (cfg : ServiceConfig) (g : AdmissionLog) : Prop :=
  g.allowed = some true ∧ (cfg.authorizer.isSome → g.authorized = true ∧
    (cfg.rateLimiter.isSome → g.passed = true))

end AdmissionLog

/-- What a history says about the admission of a call. -/
def admissionLog (h : List (Event Op.Ans)) : AdmissionLog := h.foldl AdmissionLog.note .empty

section

variable (P : Platform) (cfg : ServiceConfig)

/-- The call is granted, if there is a policy. -/
def Permitted (rpc : Rpc) : Prop := ∀ policy, cfg.authorizer = some policy → Granted P policy rpc

/-- The request is the one the call plans. -/
def Planned (rpc : Rpc) (request : JobRequest) : Prop :=
  ∃ p, plan P rpc = .ok p ∧ p.Carries rpc.keyLabel request

/-- A handler writes to the memo what `parse_identity` said, and touches the rate limiter, the cache
and the pool for a call that is granted; it sends the request of the call, once admitted.  It relies
on the memo.  A worker neither touches the authorizer nor sends a request. -/
def admissionContract (party : Party) : Contract Op.Ans AdmissionLog where
  init := .empty
  next g o a := g.note ⟨o, a⟩
  pre g o :=
    match party, o with
    | .rpc rpc, .pool (.trySend request _) =>
      g.Admitted cfg ∧ Permitted P cfg rpc ∧ Planned P rpc request
    | .rpc rpc, .pool _ => Permitted P cfg rpc
    | .rpc rpc, .cache _ => Permitted P cfg rpc
    | .rpc rpc, .limiterCheck _ => Permitted P cfg rpc
    | .rpc _, .authz (.writeMemo der identity) => parseIdentity P.fromDer der = .ok identity
    | .rpc _, .token _ => False
    | .worker _, .authz _ => False
    | .worker _, .pool (.trySend _ _) => False
    | _, _ => True
  post _ o a :=
    match o, a with
    | .authz (.readMemo der), some identity => parseIdentity P.fromDer der = .ok identity
    | _, _ => True

variable {rpc : Rpc} {g : AdmissionLog}

/-- `identify` returns the identity of the chain. -/
lemma identify_meets {peerCerts : Option (List Bytes)} :
    (identify P peerCerts).run.Meets (admissionContract P cfg (.rpc rpc))
      (fun g' r => g' = g ∧ r = identityOf P peerCerts) g :=
  meets_identify P (fun _ => ⟨True.intro, fun _ h => h, fun _ => rfl⟩) fun _ _ h => ⟨h, fun _ => rfl⟩

/-- `authorize` returns the decision of the policy. -/
lemma authorize_meets {policy : Policy} {peerCerts : Option (List Bytes)} {keyLabel : String}
    {operation : Operation} :
    (authorize P policy peerCerts keyLabel operation).run.Meets (admissionContract P cfg (.rpc rpc))
      (fun g' r => r = authorization P policy peerCerts keyLabel operation ∧
        g' = if r.isOk then { g with authorized := true } else g) g := by
  unfold authorize authorization
  rw [meets_run_bind]
  refine (meets_map Except.ok _).mpr ((identify_meets P cfg).mono fun g' r hr => ?_)
  obtain ⟨rfl, rfl⟩ := hr
  cases identityOf P peerCerts with
  | error status => exact ⟨True.intro, fun _ _ => ⟨rfl, rfl⟩⟩
  | ok identity =>
    dsimp only
    split
    · exact ⟨True.intro, fun _ _ => ⟨rfl, rfl⟩⟩
    · exact ⟨True.intro, fun _ _ => ⟨rfl, rfl⟩⟩

/-- The log has the answer of `allow`. -/
lemma allow_meets : Program.allow.Meets (admissionContract P cfg (.rpc rpc))
    (fun g' answer => g' = { g with allowed := some answer }) g := by
  refine ⟨True.intro, fun state _ => ?_⟩
  cases state with
  | closed => rfl
  | halfOpen => rfl
  | «open» => exact ⟨True.intro, fun answer _ => rfl⟩

/-- What a refused call is answered under a policy: that the circuit is open, or the refusal of the
policy. -/
def Refused (rpc : Rpc) (g : AdmissionLog) (status : Status) : Prop :=
  ∀ policy, cfg.authorizer = some policy → ∀ refusal,
    authorization P policy rpc.peerCerts rpc.keyLabel rpc.operation = .error refusal →
    status = if g.allowed = some true then refusal else breakerOpen

/-- A call that passes `admit` is admitted and granted; one that does not is refused. -/
lemma admitRequest_meets :
    (admitRequest P cfg rpc.peerCerts rpc.keyLabel rpc.operation).run.Meets
      (admissionContract P cfg (.rpc rpc))
      (fun g r => g.allowed.isSome ∧ match r with
        | .ok _ => g.Admitted cfg ∧ Permitted P cfg rpc
        | .error status => Refused P cfg rpc g status) .empty := by
  unfold admitRequest
  rw [meets_run_bind, meets_run_lift]
  refine (allow_meets P cfg).mono fun g answer hg => ?_
  subst hg
  cases answer with
  | false => exact ⟨rfl, fun policy _ refusal _ => rfl⟩
  | true =>
    simp only [if_true]
    cases hpolicy : cfg.authorizer with
    | none =>
      refine ⟨rfl, ⟨rfl, fun h => ?_⟩, fun policy h => ?_⟩
      · rw [hpolicy] at h
        cases h
      · rw [hpolicy] at h
        cases h
    | some policy =>
      dsimp only
      rw [meets_run_bind]
      refine (authorize_meets P cfg).mono fun g r hr => ?_
      obtain ⟨hr, rfl⟩ := hr
      cases r with
      | error status =>
        refine ⟨rfl, fun policy' hpolicy' refusal hrefusal => ?_⟩
        rw [hpolicy] at hpolicy'
        obtain rfl := Option.some.inj hpolicy'
        rw [hrefusal] at hr
        exact Except.error.inj hr
      | ok identity =>
        have hpermitted : Permitted P cfg rpc := by
          intro policy' hpolicy'
          rw [hpolicy] at hpolicy'
          obtain rfl := Option.some.inj hpolicy'
          exact (granted_iff P).mpr ⟨identity, hr.symm⟩
        have hrefused : ∀ g status, Refused P cfg rpc g status := by
          intro g status policy' hpolicy' refusal hrefusal
          rw [hpolicy] at hpolicy'
          obtain rfl := Option.some.inj hpolicy'
          rw [hrefusal] at hr
          cases hr
        cases hlimiter : cfg.rateLimiter with
        | none =>
          refine ⟨rfl, ⟨rfl, fun _ => ⟨rfl, fun h => ?_⟩⟩, hpermitted⟩
          rw [hlimiter] at h
          cases h
        | some limit =>
          refine ⟨hpermitted, fun passed _ => ?_⟩
          cases passed with
          | true => exact ⟨rfl, ⟨rfl, fun _ => ⟨rfl, fun _ => rfl⟩⟩, hpermitted⟩
          | false => exact ⟨rfl, hrefused _ _⟩

/-- After admission the contract allows what the plan of the call does, and does not look at it. -/
lemma admissionContract_performs {p : Plan} (hadmitted : g.Admitted cfg)
    (hpermitted : Permitted P cfg rpc) (hplan : plan P rpc = .ok p) {o : Op}
    (ho : o.performs ∧ ∀ sent, o.sends = some sent → p.Carries rpc.keyLabel sent) :
    (admissionContract P cfg (.rpc rpc)).pre g o ∧
      ∀ a, (admissionContract P cfg (.rpc rpc)).next g o a = g := by
  obtain ⟨hperforms, hsends⟩ := ho
  cases o with
  | pool q =>
    cases q with
    | trySend request t =>
      exact ⟨⟨hadmitted, hpermitted, p, hplan, hsends request rfl⟩, fun _ => rfl⟩
    | count c n => exact ⟨hpermitted, fun _ => rfl⟩
    | awaitResult j d => exact ⟨hpermitted, fun _ => rfl⟩
    | _ => cases hperforms
  | cache q => exact ⟨hpermitted, fun _ => rfl⟩
  | breaker q =>
    cases q with
    | load => cases hperforms
    | probe => cases hperforms
    | _ => exact ⟨True.intro, fun _ => rfl⟩
  | randomIv => exact ⟨True.intro, fun _ => rfl⟩
  | now => exact ⟨True.intro, fun _ => rfl⟩
  | _ => cases hperforms

/-- What a handler replies to a call that is not granted. -/
def AdmissionReply (rpc : Rpc) (g : AdmissionLog) (reply : Except Status RpcResponse) : Prop :=
  g.allowed.isSome ∧
    (Permitted P cfg rpc ∨ ∃ status, reply = .error status ∧ Refused P cfg rpc g status)

/-- Every handler keeps to the contract. -/
theorem pooled_admission (rpc : Rpc) :
    (pooled P cfg rpc).Meets (admissionContract P cfg (.rpc rpc)) (AdmissionReply P cfg rpc)
      .empty := by
  have hdone : ∀ g r, AdmissionReply P cfg rpc g r → Meets (admissionContract P cfg (.rpc rpc))
      (AdmissionReply P cfg rpc) g (record rpc.operation r >>= fun _ => pure r) := by
    intro g r hr
    rw [meets_bind]
    refine (record_only rpc.operation r).meets (fun o ho => ?_) fun _ => hr
    cases o <;> first | exact ⟨True.intro, fun _ => rfl⟩ | cases ho
  unfold pooled
  rw [meets_bind, inner_eq, meets_run_bind]
  refine (admitRequest_meets P cfg).mono fun g r hr => ?_
  obtain ⟨hallowed, hr⟩ := hr
  cases r with
  | error status => exact hdone g _ ⟨hallowed, Or.inr ⟨status, rfl, hr⟩⟩
  | ok u =>
    obtain ⟨hadmitted, hpermitted⟩ := hr
    have hreply : ∀ r, AdmissionReply P cfg rpc g r := fun r => ⟨hallowed, Or.inl hpermitted⟩
    cases hplan : plan P rpc with
    | error status => exact hdone g _ (hreply _)
    | ok p =>
      exact (perform_only P cfg rpc.keyLabel p).meets
        (fun o ho => admissionContract_performs P cfg hadmitted hpermitted hplan ho)
        fun r => hdone g r (hreply r)

/-- Every worker keeps to the contract. -/
theorem iterate_admission {session : SessionHandle} (w : Worker) (g : AdmissionLog) :
    (Worker.iterate P w).Meets (admissionContract P cfg (.worker session)) (fun _ _ => True) g := by
  refine (Worker.iterate_only P w).meets_of_invariant (J := fun _ => True) (fun g o _ ho => ?_)
    True.intro fun _ _ _ => True.intro
  cases o with
  | authz q => cases ho
  | pool q => cases q <;> first | exact ⟨True.intro, fun _ => True.intro⟩ | cases ho
  | _ => exact ⟨True.intro, fun _ => True.intro⟩

end

/-! ## Every run -/

section

variable {P : Platform} {cfg : ServiceConfig} {t₀ : ℕ} {sessions : List SessionHandle}
  {token : P.token.State} {as : List (Action Choice (EnvAction P) Party)}
  {c : Config Op.Ans (Shared P) Party ThreadResult}

/-- What the threads end with. -/
def AdmissionEnds (P : Platform) (cfg : ServiceConfig) : Party → AdmissionLog → ThreadResult → Prop
  | .rpc method, g, .reply reply => AdmissionReply P cfg method g reply
  | _, _, _ => True

/-- The obligations of the shared-invariant method. -/
lemma admission_sound : System.Sound (pooledProxy P cfg) (fun _ _ => True) (admissionContract P cfg)
    (AdmissionEnds P cfg) (fun s _ => MemoSound P.fromDer s.authz) := by
  refine proxy_sound (fun rpc => pooled_admission P cfg rpc)
    (fun _ g w _ => iterate_admission P cfg w g) (fun c i e l o k a s' hc _ _ hpre he => ?_)
    (fun c i l o k hc _ _ _ => ?_) fun c v hc _ => ?_
  · by_cases hauthz : ∃ q, o = .authz q
    · obtain ⟨q, rfl⟩ := hauthz
      cases he
      cases l with
      | worker session => cases hpre
      | rpc rpc =>
        cases q with
        | readMemo der =>
          refine ⟨?_, hc.inv⟩
          cases hlookup : c.shared.authz.memo.lookup der with
          | none => simp [hlookup, admissionContract]
          | some identity =>
            simpa [AuthzState.exec, hlookup, admissionContract] using hc.inv der identity hlookup
        | writeMemo der identity => exact ⟨True.intro, hc.inv.writeMemo hpre⟩
        | count counter => exact ⟨True.intro, hc.inv⟩
    · have hframe : s'.authz = c.shared.authz := (execOp_frame he).authz fun q hq => hauthz ⟨q, hq⟩
      refine ⟨?_, hframe ▸ hc.inv⟩
      cases o with
      | authz q => exact absurd ⟨q, rfl⟩ hauthz
      | _ => exact True.intro
  · cases l <;> exact hc.inv
  · cases v <;> exact hc.inv

/-- What is known after every run: the memo is sound, and every step taken was allowed. -/
lemma admission_outline
    (hrun : (pooledProxy P cfg).run (started P t₀ sessions token) as = some c) :
    System.Outline (admissionContract P cfg) (AdmissionEnds P cfg)
      (fun s tr => MemoSound P.fromDer s.authz ∧ ∀ en ∈ tr, (admissionContract P cfg en.label).pre
        ((admissionContract P cfg en.label).ghost en.hist) en.event.1) c := by
  refine admission_sound.obeying.run (outline_started (fun session => iterate_admission P cfg _ _)
    ⟨fun der identity h => ?_, fun en hen => absurd hen List.not_mem_nil⟩)
    (System.throughout_true _ as) hrun
  simp [Shared.start, AuthzState.new] at h

/-- The steps that only an admitted call may take: those on the rate limiter, the cache and the
pool. -/
def Op.mediated : Op → Bool
  | .limiterCheck _ => true
  | .cache _ => true
  | .pool _ => true
  | _ => false

/-- The operations a request may be sent for. -/
def JobRequest.serves : JobRequest → Operation → Bool
  | .sign _ _ _, .sign => true
  | .encrypt _ _ _ _, .encrypt => true
  | .decrypt _ _ _ _, .decrypt => true
  | .getPublicKey _, .verify => true
  | .getPublicKey _, .getPublicKey => true
  | _, _ => false

/-- The request a call plans is for its label and its operation. -/
lemma Planned.serves {rpc : Rpc} {request : JobRequest} (h : Planned P rpc request) :
    request.keyLabel = rpc.keyLabel ∧ request.serves rpc.operation = true := by
  obtain ⟨p, hplan, hcarries⟩ := h
  cases rpc with
  | sign r =>
    obtain ⟨input, -, hplan⟩ := except_bind_ok hplan
    obtain ⟨prepared, -, hplan⟩ := except_bind_ok hplan
    cases hplan
    obtain ⟨iv, rfl⟩ := hcarries
    exact ⟨rfl, rfl⟩
  | verify r =>
    obtain ⟨input, -, hplan⟩ := except_bind_ok hplan
    cases hplan
    obtain rfl : request = .getPublicKey r.inner.keyLabel := hcarries
    exact ⟨rfl, rfl⟩
  | encrypt r =>
    obtain ⟨u, -, hplan⟩ := except_bind_ok hplan
    cases hplan
    obtain ⟨iv, rfl⟩ := hcarries
    exact ⟨rfl, rfl⟩
  | decrypt r =>
    obtain ⟨u, -, hplan⟩ := except_bind_ok hplan
    obtain ⟨u', -, hplan⟩ := except_bind_ok hplan
    cases hplan
    obtain ⟨iv, rfl⟩ := hcarries
    exact ⟨rfl, rfl⟩
  | getPublicKey r =>
    cases hplan
    obtain rfl : request = .getPublicKey r.inner.keyLabel := hcarries
    exact ⟨rfl, rfl⟩

/-- The call behind a request that was sent: it was admitted, it is granted, and it planned the
request. -/
lemma planned_of_sends
    (hrun : (pooledProxy P cfg).run (started P t₀ sessions token) as = some c)
    {en : Entry Op.Ans (Shared P) Party} (hen : en ∈ c.trace) {request : JobRequest}
    (hsends : en.event.1.sends = some request) :
    ∃ rpc, en.label = .rpc rpc ∧ (admissionLog en.hist).Admitted cfg ∧ Permitted P cfg rpc ∧
      Planned P rpc request := by
  have hpre := (admission_outline hrun).inv.2 en hen
  obtain ⟨tid, label, hist, before, o, a⟩ := en
  obtain ⟨t, rfl⟩ : ∃ t, o = .pool (.trySend request t) := by
    cases o with
    | pool q =>
      cases q with
      | trySend request' t =>
        obtain rfl := Option.some.inj hsends
        exact ⟨t, rfl⟩
      | _ => cases hsends
    | _ => cases hsends
  cases label with
  | worker session => cases hpre
  | rpc rpc => exact ⟨rpc, rfl, hpre⟩

/-- A call that is not granted takes no step that only an admitted one may take, and makes no call
into the module. -/
lemma unmediated_of_not_granted
    (hrun : (pooledProxy P cfg).run (started P t₀ sessions token) as = some c) {policy : Policy}
    (hpolicy : cfg.authorizer = some policy) {en : Entry Op.Ans (Shared P) Party}
    (hen : en ∈ c.trace) {rpc : Rpc} (hlabel : en.label = .rpc rpc)
    (hgranted : ¬ Granted P policy rpc) :
    en.event.1.mediated = false ∧ ∀ call, en.event.1 ≠ .token call := by
  have hpre := (admission_outline hrun).inv.2 en hen
  have hrefused : ¬ Permitted P cfg rpc := fun h => hgranted (h policy hpolicy)
  obtain ⟨tid, label, hist, before, o, a⟩ := en
  obtain rfl : label = .rpc rpc := hlabel
  cases o with
  | limiterCheck identity => exact absurd hpre hrefused
  | cache q => exact absurd hpre hrefused
  | pool q =>
    cases q with
    | trySend request t => exact absurd hpre.2.1 hrefused
    | _ => exact absurd hpre hrefused
  | token call => cases hpre
  | _ => exact ⟨rfl, nofun⟩

/-- The reply to a call that is not granted is determined by the answer of `allow`. -/
lemma reply_of_not_granted
    (hrun : (pooledProxy P cfg).run (started P t₀ sessions token) as = some c) {policy : Policy}
    (hpolicy : cfg.authorizer = some policy) {i : ℕ} {rpc : Rpc}
    {reply : Except Status RpcResponse} (hi : replied c i = some (rpc, reply)) {refusal : Status}
    (hrefusal : authorization P policy rpc.peerCerts rpc.keyLabel rpc.operation = .error refusal) :
    reply = .error (if (admissionLog (histOf c.trace i)).allowed = some true then refusal
      else breakerOpen) := by
  have hends : AdmissionReply P cfg rpc (admissionLog (histOf c.trace i)) reply :=
    ends_of_replied (admission_outline hrun) hi
  rcases hends.2 with hpermitted | ⟨status, rfl, hrefused⟩
  · obtain ⟨identity, hidentity⟩ := (granted_iff P).mp (hpermitted policy hpolicy)
    rw [hidentity] at hrefusal
    cases hrefusal
  · rw [hrefused policy hpolicy refusal hrefusal]

/-- Complete mediation, in every run of a proxy with a policy.  A call that is not granted takes no
step on the rate limiter, the cache or the pool.  Its reply is the same in every other run under the
same policy and certificate parser, whatever the platform, the configuration and the state are, if
`allow` gives the same answer.  A request that is sent to the pool is sent for the label and the
operation of a call that is granted. -/
theorem complete_mediation {policy : Policy} (hpolicy : cfg.authorizer = some policy)
    (hrun : (pooledProxy P cfg).run (started P t₀ sessions token) as = some c) :
    (∀ en ∈ c.trace, ∀ rpc, en.label = .rpc rpc → ¬ Granted P policy rpc →
      en.event.1.mediated = false) ∧
    (∀ (P' : Platform) (cfg' : ServiceConfig) (t₀' : ℕ) (sessions' : List SessionHandle)
      (token' : P'.token.State) (as' : List (Action Choice (EnvAction P') Party))
      (c' : Config Op.Ans (Shared P') Party ThreadResult), P'.fromDer = P.fromDer →
      cfg'.authorizer = some policy →
      (pooledProxy P' cfg').run (started P' t₀' sessions' token') as' = some c' →
      ∀ i i' rpc reply reply', ¬ Granted P policy rpc → replied c i = some (rpc, reply) →
        replied c' i' = some (rpc, reply') →
        (admissionLog (histOf c.trace i)).allowed = (admissionLog (histOf c'.trace i')).allowed →
        reply = reply') ∧
    ∀ en ∈ c.trace, ∀ request, en.event.1.sends = some request →
      ∃ rpc, en.label = .rpc rpc ∧ Granted P policy rpc ∧ request.keyLabel = rpc.keyLabel ∧
        request.serves rpc.operation = true := by
  refine ⟨fun en hen rpc hlabel hgranted => ?_, ?_, fun en hen request hsends => ?_⟩
  · exact (unmediated_of_not_granted hrun hpolicy hen hlabel hgranted).1
  · intro P' cfg' t₀' sessions' token' as' c' hparser hpolicy' hrun' i i' rpc reply reply' hgranted
      hi hi' hallowed
    have hsame : authorization P' policy rpc.peerCerts rpc.keyLabel rpc.operation =
        authorization P policy rpc.peerCerts rpc.keyLabel rpc.operation := by
      simp only [authorization, identityOf, hparser]
    obtain ⟨refusal, hrefusal⟩ := authorization_error P hgranted
    rw [reply_of_not_granted hrun hpolicy hi hrefusal,
      reply_of_not_granted hrun' hpolicy' hi' (hsame.trans hrefusal), hallowed]
  · obtain ⟨rpc, hlabel, -, hpermitted, hplanned⟩ := planned_of_sends hrun hen hsends
    exact ⟨rpc, hlabel, hpermitted policy hpolicy, hplanned.serves⟩

end

/-! ## A run under a policy -/

/-- A platform on which every certificate is that of `alice`. -/
abbrev alicePlatform : Platform := { anyPlatform with fromDer := fun _ => some ⟨[], [some "alice"]⟩ }

/-- A policy that lets `alice` sign with the key `k`, and nothing else. -/
def signOnly : Policy := Policy.compile ⟨[⟨"alice", [⟨"k", [.sign]⟩]⟩]⟩

/-- A service with that policy and a rate limiter. -/
def ServiceConfig.guarded : ServiceConfig :=
  { ServiceConfig.plain 1 10 with authorizer := some signOnly, rateLimiter := some ⟨1, 1, 4096⟩ }

/-- A call of `sign` by `alice`. -/
def aliceSign : Rpc :=
  .sign ⟨⟨"k", 1, some ⟨some (.digest (List.replicate sha256Len 0))⟩⟩, some [[1]]⟩

/-- A call of `get_public_key` by `alice`. -/
def aliceLookup : Rpc := .getPublicKey ⟨⟨"k"⟩, some [[1]]⟩

/-- `alice` signs, and asks for the public key. -/
def signThenLookup : List (Action Choice (EnvAction alicePlatform) Party) :=
  [.exec 0 .success, .spawn (.rpc aliceSign)] ++ execs 1 8 .success ++
    [.spawn (.rpc aliceLookup)] ++ execs 2 5 .success

/-- The lookup is denied without a step on anything that is mediated. -/
theorem complete_mediation_denied_lookup :
    ∃ c : Config Op.Ans (Shared alicePlatform) Party ThreadResult,
      (pooledProxy alicePlatform .guarded).run (started _ 0 [7] ()) signThenLookup = some c ∧
      (replied c 2).map (fun r => r.2.toOption) = some none ∧
      ∀ en ∈ c.trace, en.label = .rpc aliceLookup → en.event.1.mediated = false := by
  have hreply : ((pooledProxy alicePlatform .guarded).run (started _ 0 [7] ()) signThenLookup).map
      (fun c => (replied c 2).map (fun r => r.2.toOption)) = some (some none) := by
    decide +kernel
  have hdenied : ¬ Granted alicePlatform signOnly aliceLookup := by
    rintro ⟨identity, hidentity, hallowed⟩
    obtain rfl := Except.ok.inj hidentity
    revert hallowed
    decide +kernel
  obtain ⟨c, hrun, hc⟩ := Option.map_eq_some_iff.mp hreply
  exact ⟨c, hrun, hc, fun en hen hlabel =>
    (complete_mediation rfl hrun).1 en hen aliceLookup hlabel hdenied⟩

end HsmProxy
