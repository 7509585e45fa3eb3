import HsmProxy.Grpc.Admission
import HsmProxy.Pkcs11.Delivery
import Mathlib.Algebra.Order.BigOperators.Group.Finset

/-!
# The exported counters of admission

`PooledService::record` reconstructs from the status of a finished request why it was refused, and
exports a counter for each reason; the authorizer and the rate limiter count the same decisions
where they are made.  A `Ledger` is what a history says about both, and about the two things
`record` cannot see: a request that was shed because the queue was full, and one that was permitted
and failed.

Once all requests have returned (`exported_counters_iff`), what was denied and what was not
authenticated are exported as they were decided.  The exported rate-limited requests are the
rejected ones exactly when no job was shed, and the exported permitted ones are the permitted ones
exactly when none of them failed.
-/

namespace HsmProxy

open Interleaving Interleaving.Prog

/-! ## What a history has counted -/

/-- The decisions on a request, whether it was shed, and what it has exported. -/
structure Ledger where
  admitted : ℕ
  allowed : ℕ
  denied : ℕ
  unauthenticated : ℕ
  rejected : ℕ
  shed : ℕ
  exported : List Metric
  deriving DecidableEq

namespace Ledger

/-- `allow` returns `true`. -/
def admits : Event Op.Ans → ℕ
  | ⟨.breaker .load, .closed⟩ => 1
  | ⟨.breaker .load, .halfOpen⟩ => 1
  | ⟨.breaker .probe, true⟩ => 1
  | _ => 0

/-- The authorizer counts its decision. -/
def decides (c : AuthzCounter) : Event Op.Ans → ℕ
  | ⟨.authz (.count c'), _⟩ => if c' = c then 1 else 0
  | _ => 0

/-- The rate limiter says no. -/
def rejects : Event Op.Ans → ℕ
  | ⟨.limiterCheck _, false⟩ => 1
  | _ => 0

/-- The queue is full. -/
def sheds : Event Op.Ans → ℕ
  | ⟨.pool (.trySend _ _), .error .full⟩ => 1
  | _ => 0

/-- A counter is exported. -/
def exports : Event Op.Ans → List Metric
  | ⟨.record m, _⟩ => [m]
  | _ => []

/-- Nothing yet. -/
def empty : Ledger := ⟨0, 0, 0, 0, 0, 0, []⟩

/-- A request that has been admitted. -/
def passed : Ledger := ⟨1, 1, 0, 0, 0, 0, []⟩

/-- One more event. -/
def note (g : Ledger) (ev : Event Op.Ans) : Ledger where
  admitted := g.admitted + admits ev
  allowed := g.allowed + decides .allowed ev
  denied := g.denied + decides .denied ev
  unauthenticated := g.unauthenticated + decides .unauthenticated ev
  rejected := g.rejected + rejects ev
  shed := g.shed + sheds ev
  exported := g.exported ++ exports ev

/-- The jobs a request was shed with: a lookup answers a full queue with an internal error. -/
def shedFor (rpc : Rpc) (g : Ledger) : ℕ := if rpc.readsPublicKey then 0 else g.shed

end Ledger

/-- What a history has counted. -/
def ledger (h : List (Event Op.Ans)) : Ledger := h.foldl Ledger.note .empty

/-- One more event. -/
@[simp] lemma ledger_snoc (h : List (Event Op.Ans)) (ev : Event Op.Ans) :
    ledger (h ++ [ev]) = (ledger h).note ev := by
  simp [ledger, List.foldl_append]

/-- One more entry of a trace. -/
lemma ledger_trace_snoc {S : Type} (tr : List (Entry Op.Ans S Party)) (en : Entry Op.Ans S Party) :
    ledger ((tr ++ [en]).map Entry.event) = (ledger (tr.map Entry.event)).note en.event := by
  rw [List.map_append, List.map_singleton, ledger_snoc]

/-- A number that every event adds to is a sum over the history. -/
lemma ledger_total {φ : Ledger → ℕ} {w : Event Op.Ans → ℕ} (hempty : φ .empty = 0)
    (hnote : ∀ g ev, φ (g.note ev) = φ g + w ev) (h : List (Event Op.Ans)) :
    φ (ledger h) = total w h := by
  induction h using List.reverseRecOn with
  | nil => exact hempty
  | append_singleton h ev ih => rw [ledger_snoc, hnote, ih, total_snoc]

/-- Such a number adds up over the threads of a trace. -/
lemma ledger_sum {S : Type} {φ : Ledger → ℕ} {w : Event Op.Ans → ℕ} (hempty : φ .empty = 0)
    (hnote : ∀ g ev, φ (g.note ev) = φ g + w ev) {tr : List (Entry Op.Ans S Party)} {n : ℕ}
    (htids : ∀ en ∈ tr, en.tid < n) :
    φ (ledger (tr.map Entry.event)) = ∑ i ∈ Finset.range n, φ (ledger (histOf tr i)) := by
  rw [ledger_total hempty hnote, total_trace htids]
  exact Finset.sum_congr rfl fun i _ => (ledger_total hempty hnote _).symm

/-- The steps a ledger looks at. -/
def Op.books : Op → Bool
  | .breaker .load => true
  | .breaker .probe => true
  | .authz (.count _) => true
  | .limiterCheck _ => true
  | .pool (.trySend _ _) => true
  | .record _ => true
  | _ => false

/-- No other step changes it. -/
lemma Ledger.note_of_not_books (g : Ledger) {o : Op} (ho : o.books = false) (a : o.Ans) :
    g.note ⟨o, a⟩ = g := by
  have hsilent : ∀ {ev}, (admits ev, rejects ev, sheds ev, exports ev) = (0, 0, 0, []) →
      (∀ c, decides c ev = 0) → g.note ev = g := by
    intro ev hev hdecides
    simp only [Prod.mk.injEq] at hev
    obtain ⟨hadmits, hrejects, hsheds, hexports⟩ := hev
    simp [note, hadmits, hrejects, hsheds, hexports, hdecides]
  cases o with
  | breaker q => cases q <;> first | exact hsilent rfl fun _ => rfl | cases ho
  | authz q => cases q <;> first | exact hsilent rfl fun _ => rfl | cases ho
  | pool q => cases q <;> first | exact hsilent rfl fun _ => rfl | cases ho
  | limiterCheck identity => cases ho
  | record m => cases ho
  | _ => exact hsilent rfl fun _ => rfl

/-- A worker takes no step a ledger looks at. -/
lemma not_books_of_ofWorker {o : Op} (ho : Worker.ofWorker o = true) : o.books = false := by
  cases o with
  | breaker q => cases ho
  | authz q => cases ho
  | limiterCheck identity => cases ho
  | record m => cases ho
  | pool q => cases q <;> first | rfl | cases ho
  | _ => rfl

/-! ## What a handler has counted -/

/-- Is this the status code of a reply? -/
def endsIn {α : Type} (code : Code) : Except Status α → ℕ
  | .error status => if status.code = code then 1 else 0
  | .ok _ => 0

/-- Any other status code. -/
lemma endsIn_of_ne {α : Type} {code : Code} {status : Status} (h : status.code ≠ code) :
    endsIn code (.error status : Except Status α) = 0 := if_neg h

/-- What the ledger of a request says when its reply is about to be recorded. -/
structure Due (rpc : Rpc) (g : Ledger) (reply : Except Status RpcResponse) : Prop where
  exported : g.exported = []
  admitted : g.allowed + g.denied + g.unauthenticated = g.admitted
  denied : endsIn .permissionDenied reply = g.denied
  unauthenticated : endsIn .unauthenticated reply = g.unauthenticated
  limited : endsIn .resourceExhausted reply = g.rejected + g.shedFor rpc
  allowed : ∀ response, reply = .ok response → g.allowed = 1

namespace Metric

/-- `hsm_rate_limited_total`, for any operation. -/
def isRateLimited : Metric → Bool
  | .rateLimited _ => true
  | _ => false

/-- `hsm_authz_denied_total`, for any operation. -/
def isAuthzDenied : Metric → Bool
  | .authzDenied _ => true
  | _ => false

/-- `hsm_unauthenticated_total`. -/
def isUnauthenticated : Metric → Bool
  | .unauthenticated => true
  | _ => false

/-- `hsm_authz_allowed_total`, for any operation. -/
def isAuthzAllowed : Metric → Bool
  | .authzAllowed _ => true
  | _ => false

end Metric

/-- What it says when the request has returned. -/
structure Balanced (rpc : Rpc) (g : Ledger) (reply : Except Status RpcResponse) : Prop where
  admitted : g.allowed + g.denied + g.unauthenticated = g.admitted
  denied : g.exported.countP Metric.isAuthzDenied = g.denied
  unauthenticated : g.exported.countP Metric.isUnauthenticated = g.unauthenticated
  limited : g.exported.countP Metric.isRateLimited = g.rejected + g.shedFor rpc
  allowed : g.exported.countP Metric.isAuthzAllowed = if reply.isOk then g.allowed else 0

/-- A handler relies on a worker not to answer that the queue is full; a worker counts nothing. -/
def ledgerContract (party : Party) : Contract Op.Ans Ledger where
  init := .empty
  next g o a := g.note ⟨o, a⟩
  pre _ o :=
    match party with
    | .rpc _ => True
    | .worker _ => Worker.ofWorker o = true
  post _ o a :=
    match o, a with
    | .pool (.awaitResult _ _), .value (.error .overloaded) => False
    | _, _ => True

section

variable (P : Platform) (cfg : ServiceConfig) (rpc : Rpc) {g : Ledger}

/-- A step the ledger does not look at. -/
lemma ledgerContract_skip {o : Op} (ho : o.books = false) :
    (ledgerContract (.rpc rpc)).pre g o ∧ ∀ a, (ledgerContract (.rpc rpc)).next g o a = g :=
  ⟨True.intro, fun a => g.note_of_not_books ho a⟩

/-- An identity that is not in the certificate is an authentication failure. -/
lemma parseIdentity_code {der : Bytes} {status : Status}
    (h : parseIdentity P.fromDer der = .error status) : status.code = .unauthenticated := by
  have hidentity : identityOf P (some [der]) = .error status := h
  exact identityOf_code P hidentity

/-- `identify` counts nothing, and fails as an authentication failure. -/
lemma identify_counts {peerCerts : Option (List Bytes)} :
    (identify P peerCerts).run.Meets (ledgerContract (.rpc rpc))
      (fun g' r => g' = g ∧ ∀ status, r = .error status → status.code = .unauthenticated) g := by
  unfold identify
  split
  · exact ⟨rfl, fun status h => by cases h; rfl⟩
  · split
    · exact ⟨rfl, fun status h => by cases h; rfl⟩
    · rename_i der _
      refine ⟨True.intro, fun memo _ => ?_⟩
      rw [(ledgerContract_skip rpc rfl).2]
      cases memo with
      | some identity => exact ⟨rfl, fun status h => nomatch h⟩
      | none =>
        cases hparse : parseIdentity P.fromDer der with
        | error status =>
          refine ⟨rfl, fun status' h => ?_⟩
          obtain rfl := Except.error.inj h
          exact parseIdentity_code P hparse
        | ok identity =>
          refine ⟨True.intro, fun _ _ => ?_⟩
          rw [(ledgerContract_skip rpc rfl).2]
          exact ⟨rfl, fun status h => nomatch h⟩

/-- `admit` counts its decision. -/
lemma admitRequest_counts {policy : Policy} {limit : RateLimitConfig}
    (hpolicy : cfg.authorizer = some policy) (hlimit : cfg.rateLimiter = some limit)
    {peerCerts : Option (List Bytes)} {keyLabel : String} {operation : Operation} :
    (admitRequest P cfg peerCerts keyLabel operation).run.Meets (ledgerContract (.rpc rpc))
      (fun g r => match r with
        | .ok _ => g = .passed
        | .error status => Due rpc g (.error status)) .empty := by
  have hlimited : ∀ (g : Ledger) (n : ℕ), g.shed = 0 → n = g.rejected →
      n = g.rejected + g.shedFor rpc := by
    intro g n hg hn
    rw [Ledger.shedFor, hg, ite_self]
    exact hn
  have hauthorize : (authorize P policy peerCerts keyLabel operation).run.Meets
      (ledgerContract (.rpc rpc)) (fun g r => match r with
        | .ok _ => g = .passed
        | .error status => Due rpc g (.error status)) ⟨1, 0, 0, 0, 0, 0, []⟩ := by
    unfold authorize
    rw [meets_run_bind]
    refine (meets_map Except.ok _).mpr ((identify_counts P rpc).mono fun g r hr => ?_)
    obtain ⟨rfl, hcode⟩ := hr
    cases r with
    | error status =>
      refine ⟨True.intro, fun _ _ => ⟨rfl, rfl, ?_, ?_, ?_, nofun⟩⟩
      · exact endsIn_of_ne (by rw [hcode status rfl]; nofun)
      · exact if_pos (hcode status rfl)
      · exact hlimited _ _ rfl (endsIn_of_ne (by rw [hcode status rfl]; nofun))
    | ok identity =>
      dsimp only
      split
      · exact ⟨True.intro, fun _ _ => rfl⟩
      · exact ⟨True.intro, fun _ _ => ⟨rfl, rfl, rfl, rfl, hlimited _ _ rfl rfl, nofun⟩⟩
  have hallow : Program.allow.Meets (ledgerContract (.rpc rpc))
      (fun g answer => g = ⟨if answer then 1 else 0, 0, 0, 0, 0, 0, []⟩) .empty := by
    refine ⟨True.intro, fun state _ => ?_⟩
    cases state with
    | closed => rfl
    | halfOpen => rfl
    | «open» => exact ⟨True.intro, fun answer _ => by cases answer <;> rfl⟩
  unfold admitRequest
  rw [meets_run_bind, meets_run_lift]
  refine hallow.mono fun g answer hg => ?_
  subst hg
  cases answer with
  | false => exact ⟨rfl, rfl, rfl, rfl, hlimited _ _ rfl rfl, nofun⟩
  | true =>
    simp only [if_true, hpolicy]
    rw [meets_run_bind]
    refine hauthorize.mono fun g r hr => ?_
    cases r with
    | error status => exact hr
    | ok identity =>
      obtain rfl : g = .passed := hr
      simp only [hlimit]
      refine ⟨True.intro, fun passed _ => ?_⟩
      cases passed with
      | true => rfl
      | false => exact ⟨rfl, rfl, rfl, rfl, hlimited _ _ rfl rfl, nofun⟩

/-- The codes `record` exports a counter for. -/
def Code.exported : Code → Bool
  | .resourceExhausted => true
  | .permissionDenied => true
  | .unauthenticated => true
  | _ => false

/-- Any other code is none of them. -/
lemma endsIn_of_not_exported {α : Type} {reply : Except Status α} {code : Code}
    (hcode : code.exported = true)
    (h : ∀ status, reply = .error status → status.code.exported = false) : endsIn code reply = 0 := by
  cases reply with
  | ok a => rfl
  | error status =>
    refine endsIn_of_ne fun heq => ?_
    rw [← heq, h status rfl] at hcode
    cases hcode

/-- A check that failed failed in one of its parts. -/
lemma except_bind_error {ε α β : Type} {x : Except ε α} {f : α → Except ε β} {e : ε}
    (h : x >>= f = .error e) : x = .error e ∨ ∃ a, x = .ok a ∧ f a = .error e := by
  cases x with
  | error e' =>
    cases h
    exact Or.inl rfl
  | ok a => exact Or.inr ⟨a, rfl, h⟩

/-- A request without an input is invalid. -/
lemma extractInput_code {input : Option SigningInputMessage} {status : Status}
    (h : extractInput input = .error status) : status.code = .invalidArgument := by
  unfold extractInput at h
  split at h
  · cases h
    rfl
  · cases h
  · cases h

/-- A request that names another mechanism is invalid. -/
lemma requireAesGcm_code {mechanism : Int32} {status : Status}
    (h : requireAesGcm mechanism = .error status) : status.code = .invalidArgument := by
  unfold requireAesGcm at h
  split at h
  · cases h
  · cases h
    rfl

/-- A request whose checks fail is invalid. -/
lemma plan_error_code {status : Status} (h : plan P rpc = .error status) :
    status.code = .invalidArgument := by
  cases rpc with
  | sign request =>
    rcases except_bind_error h with h | ⟨input, -, h⟩
    · exact extractInput_code h
    · rcases except_bind_error h with h | ⟨prepared, -, h⟩
      · cases hprepared : prepare P.crypto request.inner.mechanism input with
        | ok prepared =>
          rw [hprepared] at h
          cases h
        | error message =>
          rw [hprepared] at h
          cases h
          rfl
      · cases h
  | verify request =>
    rcases except_bind_error h with h | ⟨input, -, h⟩
    · exact extractInput_code h
    · cases h
  | encrypt request =>
    rcases except_bind_error h with h | ⟨u, -, h⟩
    · exact requireAesGcm_code h
    · cases h
  | decrypt request =>
    rcases except_bind_error h with h | ⟨u, -, h⟩
    · exact requireAesGcm_code h
    · rcases except_bind_error h with h | ⟨u', -, h⟩
      · unfold checkIv at h
        split at h
        · cases h
          rfl
        · cases h
      · cases h
  | getPublicKey request => cases h

/-- What a plan for a job makes of a response is not an error that is exported. -/
lemma plan_job_code {drawsIv : Bool} {request : Bytes → JobRequest}
    {finish : Bytes → JobResponse → Except Status RpcResponse}
    (hplan : plan P rpc = .ok (.job drawsIv request finish)) {iv : Bytes} {response : JobResponse}
    {status : Status} (h : finish iv response = .error status) : status.code.exported = false := by
  have hjob := plan_job P hplan
  cases rpc with
  | sign request =>
    obtain ⟨input, -, heq⟩ := except_bind_ok hplan
    obtain ⟨prepared, -, heq⟩ := except_bind_ok heq
    obtain ⟨-, -, rfl⟩ := Plan.job.inj (Except.ok.inj heq)
    cases response <;> cases h <;> rfl
  | encrypt request =>
    obtain ⟨u, -, heq⟩ := except_bind_ok hplan
    obtain ⟨-, -, rfl⟩ := Plan.job.inj (Except.ok.inj heq)
    cases response <;> cases h <;> rfl
  | decrypt request =>
    obtain ⟨u, -, heq⟩ := except_bind_ok hplan
    obtain ⟨u', -, heq⟩ := except_bind_ok heq
    obtain ⟨-, -, rfl⟩ := Plan.job.inj (Except.ok.inj heq)
    cases response <;> cases h <;> rfl
  | verify request => cases hjob
  | getPublicKey request => cases hjob

/-- Nor is what a plan for a lookup makes of its outcome. -/
lemma plan_key_code {finish : Lookup × Bool → Except Status RpcResponse}
    (hplan : plan P rpc = .ok (.key finish)) {found : Lookup × Bool} {status : Status}
    (h : finish found = .error status) : status.code.exported = false := by
  have hkey := plan_key P hplan
  obtain ⟨lookup, wasPresent⟩ := found
  cases rpc with
  | verify request =>
    obtain ⟨input, -, heq⟩ := except_bind_ok hplan
    obtain rfl := Plan.key.inj (Except.ok.inj heq)
    cases lookup with
    | notFound =>
      cases h
      rfl
    | found key =>
      simp only [finishVerify] at h
      split at h
      · cases h
      · cases h
        rfl
  | getPublicKey request =>
    obtain rfl := Plan.key.inj (Except.ok.inj hplan)
    cases lookup with
    | notFound =>
      cases h
      rfl
    | found key => cases h
  | _ => cases hkey

/-- An admitted request that was not refused later. -/
lemma due_of_not_exported (shed : ℕ) {reply : Except Status RpcResponse}
    (hcode : ∀ status, reply = .error status → status.code.exported = false)
    (hshed : rpc.readsPublicKey = false → shed = 0) :
    Due rpc { Ledger.passed with shed := shed } reply := by
  refine ⟨rfl, rfl, endsIn_of_not_exported rfl hcode, endsIn_of_not_exported rfl hcode, ?_,
    fun _ _ => rfl⟩
  refine (endsIn_of_not_exported rfl hcode).trans ?_
  cases hreads : rpc.readsPublicKey with
  | true => simp [Ledger.shedFor, Ledger.passed, hreads]
  | false => simp [Ledger.shedFor, Ledger.passed, hreads, hshed hreads]

/-- A submission is shed exactly when it returns that the queue is full. -/
lemma submit_counts (request : JobRequest) :
    (submit cfg request).Meets (ledgerContract (.rpc rpc))
      (fun g r => g = { Ledger.passed with shed := 1 } ∧ r = .error .overloaded ∨
        g = .passed ∧ r ≠ .error .overloaded) .passed := by
  refine ⟨True.intro, fun _ _ => ⟨True.intro, fun _ _ => ⟨True.intro, fun sent _ => ?_⟩⟩⟩
  cases sent with
  | error refusal =>
    cases refusal with
    | full => exact ⟨True.intro, fun _ _ => Or.inl ⟨rfl, rfl⟩⟩
    | disconnected => exact Or.inr ⟨rfl, nofun⟩
  | ok job =>
    refine ⟨True.intro, fun _ _ => ⟨True.intro, fun awaited hawaited => ?_⟩⟩
    cases awaited with
    | value result =>
      refine Or.inr ⟨rfl, fun h => ?_⟩
      subst h
      exact hawaited
    | closed => exact Or.inr ⟨rfl, nofun⟩
    | elapsed => exact ⟨True.intro, fun _ _ => Or.inr ⟨rfl, nofun⟩⟩

/-- Reporting to the breaker counts nothing. -/
lemma observe_counts {α : Type} {Q : Ledger → Unit → Prop} (r : Except Status α) (hQ : Q g ()) :
    (observe r).Meets (ledgerContract (.rpc rpc)) Q g := by
  refine (observe_reports r).meets (fun o ho => ledgerContract_skip rpc ?_) fun _ => hQ
  cases o with
  | breaker q => cases q <;> first | rfl | cases ho
  | _ => cases ho

/-- A lookup counts nothing, apart from a job that is shed. -/
lemma getOrLoad_counts (keyLabel : String) :
    (getOrLoad keyLabel (loadPublicKey cfg keyLabel)).Meets (ledgerContract (.rpc rpc))
      (fun g _ => ∃ shed, g = { Ledger.passed with shed := shed }) .passed := by
  refine (getOrLoad_only cfg keyLabel).meets_of_invariant
    (J := fun g => ∃ shed, g = { Ledger.passed with shed := shed }) (fun g o hg ho => ?_) ⟨0, rfl⟩
    fun _ _ h => h
  obtain ⟨shed, rfl⟩ := hg
  refine ⟨True.intro, fun a => ?_⟩
  by_cases hsend : ∃ request t, o = .pool (.trySend request t)
  · obtain ⟨request, t, rfl⟩ := hsend
    exact ⟨shed + Ledger.sheds ⟨.pool (.trySend request t), a⟩, rfl⟩
  · refine ⟨shed, (ledgerContract_skip rpc ?_).2 a⟩
    have hperforms := ho.1
    cases o with
    | pool q => cases q <;> first | rfl | exact absurd ⟨_, _, rfl⟩ hsend
    | breaker q => cases q <;> first | rfl | cases hperforms
    | cache q => rfl
    | now => rfl
    | randomIv => rfl
    | _ => cases hperforms

/-- What has been counted when a plan has been carried out. -/
lemma perform_counts {p : Plan} (hplan : plan P rpc = .ok p) :
    (perform P cfg rpc.keyLabel p).run.Meets (ledgerContract (.rpc rpc)) (Due rpc) .passed := by
  cases p with
  | job drawsIv request finish =>
    rw [meets_perform_job]
    refine (drawIv_only drawsIv).meets (fun o ho => ?_) fun iv => ?_
    · subst ho
      exact ledgerContract_skip rpc rfl
    · rw [meets_submitObserved]
      refine (submit_counts cfg rpc _).mono fun g r hr => observe_counts rpc _ ?_
      rcases hr with ⟨rfl, rfl⟩ | ⟨rfl, hr⟩
      · refine ⟨rfl, rfl, rfl, rfl, ?_, nofun⟩
        rw [Ledger.shedFor, plan_job P hplan]
        rfl
      · refine due_of_not_exported rpc 0 (fun status hstatus => ?_) fun _ => rfl
        cases r with
        | error e =>
          cases hstatus
          cases e <;> first | rfl | exact absurd rfl hr
        | ok response => exact plan_job_code P rpc hplan hstatus
  | key finish =>
    rw [meets_perform_key, meets_publicKey]
    refine (getOrLoad_counts cfg rpc _).mono fun g r hr => observe_counts rpc _ ?_
    obtain ⟨shed, rfl⟩ := hr
    refine due_of_not_exported rpc shed (fun status hstatus => ?_) fun h => ?_
    · cases r with
      | error e =>
        cases hstatus
        rfl
      | ok found => exact plan_key_code P rpc hplan hstatus
    · rw [plan_key P hplan] at h
      cases h

/-- `record` exports what is due. -/
lemma record_counts {reply : Except Status RpcResponse} (hdue : Due rpc g reply) :
    (record rpc.operation reply >>= fun _ => pure reply).Meets (ledgerContract (.rpc rpc))
      (Balanced rpc) g := by
  obtain ⟨admitted, allowed, denied, unauthenticated, rejected, shed, exported⟩ := g
  obtain ⟨rfl, hadmitted, hdenied, hunauthenticated, hlimited, hallowed⟩ := hdue
  cases reply with
  | ok response =>
    refine ⟨True.intro, fun _ _ => ⟨True.intro, fun _ _ => ⟨hadmitted, hdenied, hunauthenticated,
      hlimited, ?_⟩⟩⟩
    exact (hallowed response rfl).symm
  | error status =>
    refine ⟨True.intro, fun _ _ => ?_⟩
    obtain ⟨code, message⟩ := status
    cases code with
    | resourceExhausted =>
      exact ⟨True.intro, fun _ _ => ⟨hadmitted, hdenied, hunauthenticated, hlimited, rfl⟩⟩
    | permissionDenied =>
      exact ⟨True.intro, fun _ _ => ⟨hadmitted, hdenied, hunauthenticated, hlimited, rfl⟩⟩
    | unauthenticated =>
      exact ⟨True.intro, fun _ _ => ⟨hadmitted, hdenied, hunauthenticated, hlimited, rfl⟩⟩
    | _ => exact ⟨hadmitted, hdenied, hunauthenticated, hlimited, rfl⟩

/-- What a handler has counted when it returns. -/
theorem pooled_counts {policy : Policy} {limit : RateLimitConfig}
    (hpolicy : cfg.authorizer = some policy) (hlimit : cfg.rateLimiter = some limit) :
    (pooled P cfg rpc).Meets (ledgerContract (.rpc rpc)) (Balanced rpc) .empty := by
  unfold pooled
  rw [meets_bind, inner_eq, meets_run_bind]
  refine (admitRequest_counts P cfg rpc hpolicy hlimit).mono fun g r hr => ?_
  cases r with
  | error status => exact record_counts rpc hr
  | ok u =>
    obtain rfl : g = .passed := hr
    cases hplan : plan P rpc with
    | error status =>
      refine record_counts rpc (due_of_not_exported rpc 0 (fun status' h => ?_) fun _ => rfl)
      obtain rfl := Except.error.inj h
      rw [plan_error_code P rpc hplan]
      rfl
    | ok p => exact (perform_counts P cfg rpc hplan).mono fun g reply hdue => record_counts rpc hdue

/-- A worker counts nothing. -/
lemma iterate_counts {session : SessionHandle} (w : Worker) (g : Ledger) :
    (Worker.iterate P w).Meets (ledgerContract (.worker session)) (fun _ _ => True) g :=
  (Worker.iterate_only P w).meets_of_invariant (J := fun _ => True)
    (fun _ _ _ ho => ⟨ho, fun _ => True.intro⟩) True.intro fun _ _ _ => True.intro

end

/-! ## Every run -/

section

variable {P : Platform} {cfg : ServiceConfig} {s s' : Shared P}
  {tr : List (Entry Op.Ans (Shared P) Party)}

/-- The counters of the shared state are those of the whole trace. -/
structure Booked (s : Shared P) (tr : List (Entry Op.Ans (Shared P) Party)) : Prop where
  allowed : s.authz.metrics.allowedTotal = (ledger (tr.map Entry.event)).allowed
  denied : s.authz.metrics.deniedTotal = (ledger (tr.map Entry.event)).denied
  unauthenticated :
    s.authz.metrics.unauthenticatedTotal = (ledger (tr.map Entry.event)).unauthenticated
  rejected : s.limiter.rejected = (ledger (tr.map Entry.event)).rejected
  exported : s.telemetry = (ledger (tr.map Entry.event)).exported

namespace Booked

/-- A step that changes none of the counters. -/
lemma keep (h : Booked s tr) {ev : Event Op.Ans} (hauthz : s'.authz.metrics = s.authz.metrics)
    (hlimiter : s'.limiter.rejected = s.limiter.rejected) (htelemetry : s'.telemetry = s.telemetry)
    (hdecides : ∀ c, Ledger.decides c ev = 0) (hrejects : Ledger.rejects ev = 0)
    (hexports : Ledger.exports ev = []) {i : ℕ} {l : Party} {hist : List (Event Op.Ans)} :
    Booked s' (tr ++ [⟨i, l, hist, s, ev⟩]) := by
  refine ⟨?_, ?_, ?_, ?_, ?_⟩ <;> rw [ledger_trace_snoc]
  · simpa [Ledger.note, hdecides, hauthz] using h.allowed
  · simpa [Ledger.note, hdecides, hauthz] using h.denied
  · simpa [Ledger.note, hdecides, hauthz] using h.unauthenticated
  · simpa [Ledger.note, hrejects, hlimiter] using h.rejected
  · simpa [Ledger.note, hexports, htelemetry] using h.exported

/-- Every step keeps the account. -/
lemma exec (h : Booked s tr) {e : Choice} {i : ℕ} {l : Party} {hist : List (Event Op.Ans)} {o : Op}
    {a : o.Ans} (he : execOp cfg e i s o = some (a, s')) :
    Booked s' (tr ++ [⟨i, l, hist, s, ⟨o, a⟩⟩]) := by
  have hframe := execOp_frame he
  cases o with
  | authz q =>
    cases he
    cases q with
    | readMemo der => exact h.keep (by rfl) (by rfl) (by rfl) (fun _ => by rfl) (by rfl) (by rfl)
    | writeMemo der identity =>
      exact h.keep (by rfl) (by rfl) (by rfl) (fun _ => by rfl) (by rfl) (by rfl)
    | count counter =>
      obtain ⟨hallowed, hdenied, hunauthenticated, hrejected, hexported⟩ := h
      cases counter <;> refine ⟨?_, ?_, ?_, ?_, ?_⟩ <;> rw [ledger_trace_snoc] <;>
        simp [Ledger.note, Ledger.decides, Ledger.rejects, Ledger.exports,
          AuthzMetrics.count, hallowed, hdenied, hunauthenticated, hrejected, hexported]
  | limiterCheck identity =>
    simp only [execOp] at he
    split at he
    · cases he
    · rename_i limit _
      cases he
      obtain ⟨hallowed, hdenied, hunauthenticated, hrejected, hexported⟩ := h
      have hrejects : ((s.limiter.check limit s.now identity).2).rejected = s.limiter.rejected +
          Ledger.rejects ⟨.limiterCheck identity, (s.limiter.check limit s.now identity).1⟩ := by
        unfold LimiterState.check
        dsimp only
        split <;> rfl
      refine ⟨hallowed.trans ?_, hdenied.trans ?_, hunauthenticated.trans ?_, ?_, hexported.trans ?_⟩
      · rw [ledger_trace_snoc]
        rfl
      · rw [ledger_trace_snoc]
        rfl
      · rw [ledger_trace_snoc]
        rfl
      · rw [ledger_trace_snoc]
        exact hrejects.trans (congrArg (· + _) hrejected)
      · rw [ledger_trace_snoc]
        exact (List.append_nil _).symm
  | record m =>
    cases he
    obtain ⟨hallowed, hdenied, hunauthenticated, hrejected, hexported⟩ := h
    refine ⟨?_, ?_, ?_, ?_, ?_⟩ <;> rw [ledger_trace_snoc]
    · exact hallowed
    · exact hdenied
    · exact hunauthenticated
    · exact hrejected
    · exact congrArg (· ++ [m]) hexported
  | _ =>
    have hauthz := hframe.authz (by rintro _ ⟨⟩)
    have hlimiter := hframe.limiter (by rintro _ ⟨⟩)
    have htelemetry := hframe.telemetry (by rintro _ ⟨⟩)
    exact h.keep (congrArg AuthzState.metrics hauthz) (congrArg LimiterState.rejected hlimiter)
      htelemetry (fun _ => rfl) rfl rfl

end Booked

/-- A worker does not answer that the queue is full. -/
lemma not_overloaded {c : Config Op.Ans (Shared P) Party ThreadResult} (hc : Delivering c)
    {e : Choice} {i j d : ℕ} :
    execOp cfg e i c.shared (.pool (.awaitResult j d)) ≠ some (.value (.error .overloaded), s') := by
  intro he
  obtain ⟨p, hp, -⟩ := execOp_pool.mp he
  obtain ⟨job, -, -, -, w, w', hruns⟩ := hc.inv.responded _ _ (hc.inv.responded_of_value hp)
  have hends := Worker.execute_endsWith P hruns
  revert hends
  cases job.request <;> exact fun h => h

/-- What the threads end with. -/
def CountsEnd : Party → Ledger → ThreadResult → Prop
  | .rpc rpc, g, .reply reply => Balanced rpc g reply
  | _, _, _ => True

/-- The obligations of the shared-invariant method. -/
lemma counts_sound {policy : Policy} {limit : RateLimitConfig}
    (hpolicy : cfg.authorizer = some policy) (hlimit : cfg.rateLimiter = some limit) :
    System.Sound (pooledProxy P cfg) (fun c _ => Delivering c) ledgerContract CountsEnd Booked := by
  refine proxy_sound (fun rpc => pooled_counts P cfg rpc hpolicy hlimit)
    (fun _ g w _ => iterate_counts P w g) (fun c i e l o k a s' hc hdelivering _ _ he => ?_)
    (fun c i l o k hc _ _ _ => ?_) fun c v hc _ => ?_
  · refine ⟨?_, hc.inv.exec he⟩
    cases o with
    | pool q =>
      cases q with
      | awaitResult j d =>
        rcases a with (e' | response) | _ | _
        · cases e' <;> first | exact True.intro | exact not_overloaded hdelivering he
        all_goals exact True.intro
      | _ => exact True.intro
    | _ => exact True.intro
  · obtain ⟨hallowed, hdenied, hunauthenticated, hrejected, hexported⟩ := hc.inv
    cases l <;> exact ⟨hallowed, hdenied, hunauthenticated, hrejected, hexported⟩
  · obtain ⟨hallowed, hdenied, hunauthenticated, hrejected, hexported⟩ := hc.inv
    cases v <;> exact ⟨hallowed, hdenied, hunauthenticated, hrejected, hexported⟩

variable {t₀ : ℕ} {sessions : List SessionHandle} {token : P.token.State}
  {as : List (Action Choice (EnvAction P) Party)}
  {c : Config Op.Ans (Shared P) Party ThreadResult}

/-- What is known after every run. -/
lemma counts_outline {policy : Policy} {limit : RateLimitConfig}
    (hpolicy : cfg.authorizer = some policy) (hlimit : cfg.rateLimiter = some limit)
    (hrun : (pooledProxy P cfg).run (started P t₀ sessions token) as = some c) :
    System.Outline ledgerContract CountsEnd
      (fun s tr => Booked s tr ∧ ∀ en ∈ tr, (ledgerContract en.label).pre
        ((ledgerContract en.label).ghost en.hist) en.event.1) c := by
  have hdelivering : (pooledProxy P cfg).Throughout (fun c _ => Delivering c)
      (started P t₀ sessions token) as :=
    System.throughout_invariant (fun _ _ _ hc h => delivering_step hc h) delivering_started
  refine (counts_sound hpolicy hlimit).obeying.run (outline_started (fun session => ?_)
    ⟨⟨rfl, rfl, rfl, rfl, rfl⟩, fun en hen => absurd hen List.not_mem_nil⟩) hdelivering hrun
  exact iterate_counts P _ _

/-- The workers have counted nothing. -/
lemma ledger_worker {policy : Policy} {limit : RateLimitConfig}
    (hpolicy : cfg.authorizer = some policy) (hlimit : cfg.rateLimiter = some limit)
    (hrun : (pooledProxy P cfg).run (started P t₀ sessions token) as = some c) {i : ℕ}
    (hi : i < sessions.length) : ledger (histOf c.trace i) = .empty := by
  have hall : ∀ ev ∈ histOf c.trace i, ev.1.books = false := by
    intro ev hev
    obtain ⟨en, hen, rfl, rfl⟩ := mem_histOf.mp hev
    obtain ⟨session, hlabel⟩ := (workersBelow_run hrun).entries en hen hi
    have hpre := (counts_outline hpolicy hlimit hrun).inv.2 en hen
    rw [hlabel] at hpre
    exact not_books_of_ofWorker hpre
  generalize histOf c.trace i = h at hall
  induction h using List.reverseRecOn with
  | nil => rfl
  | append_singleton h ev ih =>
    rw [ledger_snoc, ih fun ev' hev' => hall ev' (List.mem_append_left _ hev')]
    exact Ledger.note_of_not_books _ (hall ev (by simp)) ev.2

/-- Two numbers that every event adds to agree when they agree for every thread. -/
lemma ledger_congr {φ ψ : Ledger → ℕ} {w v : Event Op.Ans → ℕ} (hφ : φ .empty = 0)
    (hw : ∀ g ev, φ (g.note ev) = φ g + w ev) (hψ : ψ .empty = 0)
    (hv : ∀ g ev, ψ (g.note ev) = ψ g + v ev) {n : ℕ} (htids : ∀ en ∈ tr, en.tid < n)
    (h : ∀ i < n, φ (ledger (histOf tr i)) = ψ (ledger (histOf tr i))) :
    φ (ledger (tr.map Entry.event)) = ψ (ledger (tr.map Entry.event)) := by
  rw [ledger_sum hφ hw htids, ledger_sum hψ hv htids]
  exact Finset.sum_congr rfl fun i hi => h i (Finset.mem_range.mp hi)

/-- When one of them is never larger, they agree exactly when they agree for every thread. -/
lemma ledger_eq_iff {φ ψ : Ledger → ℕ} {w v : Event Op.Ans → ℕ} (hφ : φ .empty = 0)
    (hw : ∀ g ev, φ (g.note ev) = φ g + w ev) (hψ : ψ .empty = 0)
    (hv : ∀ g ev, ψ (g.note ev) = ψ g + v ev) {n : ℕ} (htids : ∀ en ∈ tr, en.tid < n)
    (hle : ∀ i < n, φ (ledger (histOf tr i)) ≤ ψ (ledger (histOf tr i))) :
    φ (ledger (tr.map Entry.event)) = ψ (ledger (tr.map Entry.event)) ↔
      ∀ i < n, φ (ledger (histOf tr i)) = ψ (ledger (histOf tr i)) := by
  rw [ledger_sum hφ hw htids, ledger_sum hψ hv htids,
    Finset.sum_eq_sum_iff_of_le fun i hi => hle i (Finset.mem_range.mp hi)]
  simp only [Finset.mem_range]

/-- An exported counter counts what the events export. -/
lemma countP_note (p : Metric → Bool) (g : Ledger) (ev : Event Op.Ans) :
    (g.note ev).exported.countP p = g.exported.countP p + (Ledger.exports ev).countP p :=
  List.countP_append

/-- A try to send a job has found the queue full. -/
def FoundFull (h : List (Event Op.Ans)) : Prop :=
  ∃ request enqueuedAt,
    (⟨.pool (.trySend request enqueuedAt), .error .full⟩ : Event Op.Ans) ∈ h

/-- That is when it was shed. -/
lemma shed_eq_zero_iff {h : List (Event Op.Ans)} : (ledger h).shed = 0 ↔ ¬ FoundFull h := by
  rw [ledger_total (φ := Ledger.shed) rfl (fun _ _ => rfl), total_eq_zero_iff]
  constructor
  · rintro hall ⟨request, enqueuedAt, hmem⟩
    exact absurd (hall _ hmem) Nat.one_ne_zero
  · intro hfull ev hev
    unfold Ledger.sheds
    split
    · exact absurd ⟨_, _, hev⟩ hfull
    · rfl

/-- The authorizer has let a request through. -/
def LetThrough (h : List (Event Op.Ans)) : Prop :=
  (⟨.authz (.count .allowed), ()⟩ : Event Op.Ans) ∈ h

/-- That is when it was counted. -/
lemma allowed_eq_zero_iff {h : List (Event Op.Ans)} : (ledger h).allowed = 0 ↔ ¬ LetThrough h := by
  rw [ledger_total (φ := Ledger.allowed) rfl (fun _ _ => rfl), total_eq_zero_iff]
  constructor
  · intro hall hmem
    exact absurd (hall _ hmem) Nat.one_ne_zero
  · intro hpermitted ev hev
    unfold Ledger.decides
    split
    · rename_i counter a
      by_cases hcounter : counter = .allowed
      · subst hcounter
        exact absurd hev hpermitted
      · exact if_neg hcounter
    · rfl

/-- Every thread is a worker, which has counted nothing, or a handler that has returned. -/
def Returned (c : Config Op.Ans (Shared P) Party ThreadResult) : Prop :=
  ∀ i < c.spawned, ledger (histOf c.trace i) = .empty ∨
    ∃ rpc reply, replied c i = some (rpc, reply) ∧ Balanced rpc (ledger (histOf c.trace i)) reply

/-- What is exported as rate limited is what was rejected, unless a job was shed. -/
lemma rate_limited_eq_iff (htids : ∀ en ∈ c.trace, en.tid < c.spawned) (hthreads : Returned c)
    (hbalanced : ∀ i rpc reply, replied c i = some (rpc, reply) →
      i < c.spawned ∧ Balanced rpc (ledger (histOf c.trace i)) reply) :
    (ledger (c.trace.map Entry.event)).exported.countP Metric.isRateLimited =
        (ledger (c.trace.map Entry.event)).rejected ↔
      ∀ i rpc reply, replied c i = some (rpc, reply) → rpc.readsPublicKey = false →
        ¬ FoundFull (histOf c.trace i) := by
  rw [eq_comm, ledger_eq_iff (φ := Ledger.rejected)
    (ψ := fun g => g.exported.countP Metric.isRateLimited) rfl (fun _ _ => rfl) rfl (countP_note _)
    htids fun i hi => ?_]
  · constructor
    · intro heq i rpc reply hreply hjob
      obtain ⟨hi, hbalanced⟩ := hbalanced i rpc reply hreply
      have hrejected := (heq i hi).trans hbalanced.limited
      rw [Ledger.shedFor, hjob, if_neg Bool.false_ne_true] at hrejected
      exact shed_eq_zero_iff.mp (by omega)
    · intro hfull i hi
      rcases hthreads i hi with hempty | ⟨rpc, reply, hreply, hbalanced⟩
      · rw [hempty]
        rfl
      · rw [hbalanced.limited, Ledger.shedFor]
        split
        · rfl
        · rename_i hreads
          have hjob : rpc.readsPublicKey = false := Bool.eq_false_iff.mpr hreads
          rw [shed_eq_zero_iff.mpr (hfull i rpc reply hreply hjob), Nat.add_zero]
  · rcases hthreads i hi with hempty | ⟨rpc, reply, -, hbalanced⟩
    · rw [hempty]
      exact Nat.le_refl _
    · rw [hbalanced.limited]
      exact Nat.le_add_right _ _

/-- What is exported as permitted is what was let through, unless it failed. -/
lemma authz_allowed_eq_iff (htids : ∀ en ∈ c.trace, en.tid < c.spawned) (hthreads : Returned c)
    (hbalanced : ∀ i rpc reply, replied c i = some (rpc, reply) →
      i < c.spawned ∧ Balanced rpc (ledger (histOf c.trace i)) reply) :
    (ledger (c.trace.map Entry.event)).exported.countP Metric.isAuthzAllowed =
        (ledger (c.trace.map Entry.event)).allowed ↔
      ∀ i rpc reply, replied c i = some (rpc, reply) → LetThrough (histOf c.trace i) →
        reply.isOk = true := by
  rw [ledger_eq_iff (φ := fun g => g.exported.countP Metric.isAuthzAllowed) (ψ := Ledger.allowed) rfl
    (countP_note _) rfl (fun _ _ => rfl) htids fun i hi => ?_]
  · constructor
    · intro heq i rpc reply hreply hthrough
      obtain ⟨hi, hbalanced⟩ := hbalanced i rpc reply hreply
      have hallowed := hbalanced.allowed.symm.trans (heq i hi)
      by_contra hfailed
      rw [if_neg hfailed] at hallowed
      exact allowed_eq_zero_iff.mp hallowed.symm hthrough
    · intro hok i hi
      rcases hthreads i hi with hempty | ⟨rpc, reply, hreply, hbalanced⟩
      · rw [hempty]
        rfl
      · rw [hbalanced.allowed]
        split
        · rfl
        · rename_i hfailed
          refine (allowed_eq_zero_iff.mpr fun hthrough => ?_).symm
          exact hfailed (hok i rpc reply hreply hthrough)
  · rcases hthreads i hi with hempty | ⟨rpc, reply, -, hbalanced⟩
    · rw [hempty]
      exact Nat.le_refl _
    · rw [hbalanced.allowed]
      split
      · exact Nat.le_refl _
      · exact Nat.zero_le _

/-- In every run of the pooled service with an authorizer and a rate limiter in which every request
that was started has returned: the exported denials and authentication failures are those the
authorizer has counted, and its three counters add up to the requests the breaker admitted.  The
exported rate-limited requests are those the rate limiter has rejected exactly when no `sign`,
`encrypt` or `decrypt` has found the queue full; the exported permitted requests are those the
authorizer has let through exactly when none of them was answered with an error. -/
theorem exported_counters_iff {policy : Policy} {limit : RateLimitConfig}
    (hpolicy : cfg.authorizer = some policy) (hlimit : cfg.rateLimiter = some limit)
    (hrun : (pooledProxy P cfg).run (started P t₀ sessions token) as = some c)
    (hreturned : ∀ i, sessions.length ≤ i → i < c.spawned → (replied c i).isSome) :
    c.shared.telemetry.countP Metric.isAuthzDenied = c.shared.authz.metrics.deniedTotal ∧
    c.shared.telemetry.countP Metric.isUnauthenticated =
      c.shared.authz.metrics.unauthenticatedTotal ∧
    c.shared.authz.metrics.allowedTotal + c.shared.authz.metrics.deniedTotal +
      c.shared.authz.metrics.unauthenticatedTotal =
      total Ledger.admits (c.trace.map Entry.event) ∧
    (c.shared.telemetry.countP Metric.isRateLimited = c.shared.limiter.rejected ↔
      ∀ i rpc reply, replied c i = some (rpc, reply) → rpc.readsPublicKey = false →
        ¬ FoundFull (histOf c.trace i)) ∧
    (c.shared.telemetry.countP Metric.isAuthzAllowed = c.shared.authz.metrics.allowedTotal ↔
      ∀ i rpc reply, replied c i = some (rpc, reply) → LetThrough (histOf c.trace i) →
        reply.isOk = true) := by
  have hc := counts_outline hpolicy hlimit hrun
  have htids := hc.recorded.tids
  have hbooked := hc.inv.1
  have hbalanced : ∀ i rpc reply, replied c i = some (rpc, reply) →
      i < c.spawned ∧ Balanced rpc (ledger (histOf c.trace i)) reply := by
    intro i rpc reply hreply
    refine ⟨?_, ends_of_replied hc hreply⟩
    obtain ⟨hist, ht⟩ := System.exists_returned (returned_of_replied hreply)
    by_contra hi
    rw [hc.recorded.fresh i (Nat.le_of_not_lt hi)] at ht
    cases ht
  have hthreads : Returned c := by
    intro i hi
    by_cases hworker : i < sessions.length
    · exact Or.inl (ledger_worker hpolicy hlimit hrun hworker)
    · obtain ⟨⟨rpc, reply⟩, hreply⟩ :=
        Option.isSome_iff_exists.mp (hreturned i (Nat.le_of_not_lt hworker) hi)
      exact Or.inr ⟨rpc, reply, hreply, (hbalanced i rpc reply hreply).2⟩
  rw [hbooked.exported, hbooked.allowed, hbooked.denied, hbooked.unauthenticated, hbooked.rejected]
  refine ⟨?_, ?_, ?_, rate_limited_eq_iff htids hthreads hbalanced,
    authz_allowed_eq_iff htids hthreads hbalanced⟩
  · refine ledger_congr (φ := fun g => g.exported.countP Metric.isAuthzDenied) (ψ := Ledger.denied) rfl
      (countP_note _) rfl (fun _ _ => rfl) htids fun i hi => ?_
    rcases hthreads i hi with hempty | ⟨rpc, reply, -, hbalanced⟩
    · rw [hempty]
      rfl
    · exact hbalanced.denied
  · refine ledger_congr (φ := fun g => g.exported.countP Metric.isUnauthenticated)
      (ψ := Ledger.unauthenticated) rfl (countP_note _) rfl (fun _ _ => rfl) htids fun i hi => ?_
    rcases hthreads i hi with hempty | ⟨rpc, reply, -, hbalanced⟩
    · rw [hempty]
      rfl
    · exact hbalanced.unauthenticated
  · rw [← ledger_total (φ := Ledger.admitted) rfl fun _ _ => rfl]
    refine ledger_congr (φ := fun g => g.allowed + g.denied + g.unauthenticated)
      (w := fun ev => Ledger.decides .allowed ev + Ledger.decides .denied ev +
        Ledger.decides .unauthenticated ev) (ψ := Ledger.admitted) rfl (fun g ev => ?_) rfl
      (fun _ _ => rfl) htids fun i hi => ?_
    · simp only [Ledger.note]
      omega
    · rcases hthreads i hi with hempty | ⟨rpc, reply, -, hbalanced⟩
      · rw [hempty]
        rfl
      · exact hbalanced.admitted

end

/-- `alice` signs, and is denied the public key. -/
def signAndDenial : List (Action Choice (EnvAction alicePlatform) Party) :=
  [.spawn (.rpc aliceSign)] ++ execs 1 8 .success ++ [.spawn (.rpc aliceLookup)] ++
    execs 2 5 .success ++ execs 0 10 .success ++ execs 1 5 .success

/-- The denial is exported, as the authorizer has counted it. -/
theorem exported_counters_denied_lookup :
    ∃ c : Config Op.Ans (Shared alicePlatform) Party ThreadResult,
      (pooledProxy alicePlatform .guarded).run (started _ 0 [7] ()) signAndDenial = some c ∧
      c.shared.authz.metrics = ⟨1, 1, 0⟩ ∧
      c.shared.telemetry.countP Metric.isAuthzDenied = c.shared.authz.metrics.deniedTotal := by
  have hend : ((pooledProxy alicePlatform .guarded).run (started _ 0 [7] ()) signAndDenial).map
      (fun c => (c.shared.authz.metrics, c.spawned, (replied c 1).isSome, (replied c 2).isSome)) =
      some (⟨1, 1, 0⟩, 3, true, true) := by
    decide +kernel
  obtain ⟨c, hrun, hc⟩ := Option.map_eq_some_iff.mp hend
  simp only [Prod.mk.injEq] at hc
  obtain ⟨hmetrics, hspawned, hfirst, hsecond⟩ := hc
  have hreturned : ∀ i, [7].length ≤ i → i < c.spawned → (replied c i).isSome := by
    intro i hlow hhigh
    rw [hspawned] at hhigh
    rcases i with _ | _ | _ | i
    · exact absurd hlow (by decide)
    · exact hfirst
    · exact hsecond
    · omega
  exact ⟨c, hrun, hmetrics, (exported_counters_iff rfl rfl hrun hreturned).1⟩

/-- Two requests to sign are permitted; the second one finds the queue full. -/
def secondSignShed : List (Action Choice (EnvAction alicePlatform) Party) :=
  [.spawn (.rpc aliceSign)] ++ execs 1 8 .success ++ [.spawn (.rpc aliceSign)] ++
    execs 2 11 .success ++ execs 0 10 .success ++ execs 1 5 .success

/-- Both have returned.  One request is exported as rate limited and none was rejected; one is
exported as permitted and two were. -/
theorem exported_counters_shed_sign :
    ((pooledProxy alicePlatform .guarded).run (started _ 0 [7] ()) secondSignShed).map
      (fun c => (c.spawned, (replied c 1).isSome, (replied c 2).isSome)) = some (3, true, true) ∧
    ((pooledProxy alicePlatform .guarded).run (started _ 0 [7] ()) secondSignShed).map
      (fun c => (c.shared.telemetry.countP Metric.isRateLimited, c.shared.limiter.rejected,
        c.shared.telemetry.countP Metric.isAuthzAllowed, c.shared.authz.metrics.allowedTotal)) =
      some (1, 0, 1, 2) := by
  refine ⟨by decide +kernel, by decide +kernel⟩

end HsmProxy
