import HsmProxy.Service.CrossTalk
import HsmProxy.Service.Serial

/-!
# The two backends agree

`PROXY_MODE` exchanges the backend and nothing else: the baseline with one session behind a mutex,
and the pool with its queue, its workers and their handle caches.  Both make the same calls into the
token for a request, `direct`, and read the answers in the same way.

`pool_agrees_with_single` says so for every run of pool mode: a reply that comes from a worker is
the reply of single mode on the same answers of the token, except for the text of an internal
error.  The worker's calls are those of single mode; it may leave out the search for a key it has
found before, and it may replace its session afterwards.
-/

namespace HsmProxy

open Interleaving Interleaving.Prog

/-- The calls into the token among the events of a history. -/
def tokenCalls (h : List (Event Op.Ans)) : List (Event Op.Ans) :=
  h.filter fun ev => decide (ev.1.role = .touch)

/-- Of two histories in a row. -/
@[simp] lemma tokenCalls_append (h₁ h₂ : List (Event Op.Ans)) :
    tokenCalls (h₁ ++ h₂) = tokenCalls h₁ ++ tokenCalls h₂ :=
  List.filter_append ..

/-- A history of calls into the token. -/
lemma tokenCalls_eq_self {h : List (Event Op.Ans)} (hh : ∀ ev ∈ h, ev.1.role = .touch) :
    tokenCalls h = h :=
  List.filter_eq_self.mpr fun ev hev => decide_eq_true (hh ev hev)

/-- How single mode words a failure: the token's part of an internal error is not hidden. -/
def singleStatus : PoolError → Status
  | .internal message => .internal message
  | e => toStatus e

section

variable (P : Platform)

/-- What both backends do with a request on a session: search for the key, then use it. -/
def direct (session : SessionHandle) (request : JobRequest) : Program JobResult := do
  let found ← Program.token (.findObjects session request.kind.objectClass request.keyLabel)
  match searchResult request.keyLabel found with
  | .error e => return .error e
  | .ok key => Worker.operation P request session key

/-- It makes calls into the token, and the first of them is the search. -/
lemma direct_only (session : SessionHandle) (request : JobRequest) :
    Only (fun o => o.role = .touch) (direct P session request) := by
  refine ⟨rfl, fun found => ?_⟩
  rcases found with e | (_ | ⟨key, rest⟩)
  · exact only_ret _
  · exact only_ret _
  · refine (Worker.operation_only P request session key).weaken fun o ho => ?_
    cases o <;> first | rfl | cases ho

/-- Its runs: the search fails, or the key it finds is used. -/
lemma direct_cases {session : SessionHandle} {request : JobRequest} {calls : List (Event Op.Ans)}
    {r : JobResult} (h : Runs (direct P session request) calls r) :
    ∃ found ops, calls = ⟨.token (.findObjects session request.kind.objectClass request.keyLabel),
        found⟩ :: ops ∧
      ((∃ e, searchResult request.keyLabel found = .error e ∧ ops = [] ∧ r = .error e) ∨
        ∃ key, searchResult request.keyLabel found = .ok key ∧
          Runs (Worker.operation P request session key) ops r) := by
  cases h with
  | @call _ _ found ops _ h =>
    refine ⟨found, ops, rfl, ?_⟩
    rcases found with e | (_ | ⟨key, rest⟩)
    · cases h
      exact Or.inl ⟨_, rfl, rfl, rfl⟩
    · cases h
      exact Or.inl ⟨_, rfl, rfl, rfl⟩
    · exact Or.inr ⟨key, rfl, h⟩

/-! ## Single mode -/

/-- `require_object`, and what comes after it. -/
lemma requireObject_bind {α : Type} (session : SessionHandle) (objectClass : ObjectClass)
    (label : String) (f : ObjectHandle → Handler α) :
    (Single.requireObject session objectClass label >>= f).run =
      call (.token (.findObjects session objectClass label)) fun found =>
        match searchResult label found with
        | .error e => ret (.error (singleStatus e))
        | .ok key => (f key).run := by
  refine congrArg (call _) (funext fun found => ?_)
  rcases found with e | (_ | ⟨key, rest⟩) <;> rfl

/-- `direct`, and what is made of its result. -/
lemma direct_bind {α : Type} (session : SessionHandle) (request : JobRequest)
    (g : JobResult → Except Status α) :
    (do let result ← direct P session request
        Handler.check (g result) : Handler α).run =
      call (.token (.findObjects session request.kind.objectClass request.keyLabel)) fun found =>
        match searchResult request.keyLabel found with
        | .error e => ret (g (.error e))
        | .ok key => g <$> Worker.operation P request session key := by
  have hrun : (do let result ← direct P session request
                  Handler.check (g result) : Handler α).run = g <$> direct P session request := by
    show (Except.ok <$> direct P session request) >>= _ = _
    rw [bind_map_left, map_eq_pure_bind]
    rfl
  rw [hrun]
  refine congrArg (call _) (funext fun found => ?_)
  rcases found with e | (_ | ⟨key, rest⟩) <;> rfl

/-- Two methods that do the same with the key they find are the same. -/
lemma requireObject_eq_direct {α : Type} {session : SessionHandle} (request : JobRequest)
    {g : JobResult → Except Status α} {f : ObjectHandle → Handler α}
    (herror : ∀ e, g (.error e) = .error (singleStatus e))
    (hf : ∀ key, (f key).run = g <$> Worker.operation P request session key) :
    Single.requireObject session request.kind.objectClass request.keyLabel >>= f = (do
      let result ← direct P session request
      Handler.check (g result)) := by
  refine ExceptT.ext ?_
  rw [requireObject_bind, direct_bind]
  refine congrArg (call _) (funext fun found => ?_)
  cases searchResult request.keyLabel found with
  | error e => exact congrArg ret (herror e).symm
  | ok key => exact hf key

/-- A method of single mode that works on a key: it draws its IV, takes the mutex, serves the
request, and shapes the answer. -/
theorem single_eq {session : SessionHandle} {rpc : Rpc} {drawsIv : Bool}
    {request : Bytes → JobRequest} {finish : Bytes → JobResponse → Except Status RpcResponse}
    (hplan : plan P rpc = .ok (.job drawsIv request finish)) :
    Single.single P session rpc = (do
      let iv ← drawIv drawsIv
      Single.locked do
        let result ← direct P session (request iv)
        Handler.check (result.mapError singleStatus >>= finish iv) : Handler RpcResponse).run := by
  cases rpc with
  | sign r =>
    obtain ⟨input, hinput, hplan⟩ := except_bind_ok hplan
    obtain ⟨prepared, hprepared, hplan⟩ := except_bind_ok hplan
    cases hplan
    show (Single.sign P session r.inner).run = _
    unfold Single.sign
    rw [hinput, check_ok_bind, hprepared, check_ok_bind]
    refine congrArg ExceptT.run (congrArg Single.locked ?_)
    refine requireObject_eq_direct P (.sign r.inner.keyLabel prepared.algorithm
      prepared.payload) (fun e => rfl) fun key => ?_
    refine congrArg (call _) (funext fun answer => ?_)
    cases answer <;> rfl
  | verify r =>
    obtain ⟨input, -, hplan⟩ := except_bind_ok hplan
    cases hplan
  | encrypt r =>
    obtain ⟨u, hmechanism, hplan⟩ := except_bind_ok hplan
    cases hplan
    show (Single.encrypt P session r.inner).run = _
    unfold Single.encrypt
    rw [hmechanism, check_ok_bind]
    refine congrArg ExceptT.run (bind_congr fun iv => congrArg Single.locked ?_)
    refine requireObject_eq_direct P (.encrypt r.inner.keyLabel r.inner.plaintext
      r.inner.associatedData iv) (fun e => rfl) fun key => ?_
    simp only [Single.gcmParams, Worker.operation]
    cases P.gcmParams iv r.inner.associatedData gcmTagBits with
    | error e => rfl
    | ok u =>
      refine congrArg (call _) (funext fun answer => ?_)
      cases answer <;> rfl
  | decrypt r =>
    obtain ⟨u, hmechanism, hplan⟩ := except_bind_ok hplan
    obtain ⟨u', hiv, hplan⟩ := except_bind_ok hplan
    cases hplan
    show (Single.decrypt P session r.inner).run = _
    unfold Single.decrypt
    rw [hmechanism, check_ok_bind, hiv, check_ok_bind]
    refine congrArg ExceptT.run (congrArg Single.locked ?_)
    refine requireObject_eq_direct P (.decrypt r.inner.keyLabel r.inner.ciphertext
      r.inner.associatedData r.inner.iv) (fun e => rfl) fun key => ?_
    simp only [Single.gcmParams, Worker.operation]
    cases P.gcmParams r.inner.iv r.inner.associatedData gcmTagBits with
    | error e => rfl
    | ok u =>
      refine congrArg (call _) (funext fun answer => ?_)
      rcases answer with (rv | message) | plaintext
      · cases rv <;> rfl
      · rfl
      · rfl
  | getPublicKey r => cases hplan

/-- A run of a handler that holds the mutex. -/
lemma locked_runs {α : Type} {body : Handler α} {calls : List (Event Op.Ans)} {r : Except Status α}
    (hruns : Runs body.run calls r) :
    Runs (Single.locked body).run (⟨.lockSession, ()⟩ :: (calls ++ [⟨.unlockSession, ()⟩])) r := by
  refine Runs.call ?_
  show Runs (ExceptT.lift body.run >>= fun result => do
    Program.unlockSession
    Handler.check result : Handler α).run _ r
  rw [ExceptT.run_bind, runs_bind]
  refine ⟨.ok r, calls, _, rfl, runs_map.mpr ⟨r, hruns, rfl⟩, ?_⟩
  cases r <;> exact Runs.call (Runs.ret _)

/-- The key a planned job uses is the one its call names. -/
lemma plan_job_key {rpc : Rpc} {drawsIv : Bool} {request : Bytes → JobRequest}
    {finish : Bytes → JobResponse → Except Status RpcResponse}
    (hplan : plan P rpc = .ok (.job drawsIv request finish)) (iv : Bytes) :
    (request iv).kind.objectClass = rpc.keyClass ∧ (request iv).keyLabel = rpc.keyLabel := by
  cases rpc with
  | sign r =>
    obtain ⟨input, -, hplan⟩ := except_bind_ok hplan
    obtain ⟨prepared, -, hplan⟩ := except_bind_ok hplan
    cases hplan
    exact ⟨rfl, rfl⟩
  | verify r =>
    obtain ⟨input, -, hplan⟩ := except_bind_ok hplan
    cases hplan
  | encrypt r =>
    obtain ⟨u, -, hplan⟩ := except_bind_ok hplan
    cases hplan
    exact ⟨rfl, rfl⟩
  | decrypt r =>
    obtain ⟨u, -, hplan⟩ := except_bind_ok hplan
    obtain ⟨u', -, hplan⟩ := except_bind_ok hplan
    cases hplan
    exact ⟨rfl, rfl⟩
  | getPublicKey r => cases hplan

/-- The IV a plan draws, as it stands in a history. -/
def ivEvents (drawsIv : Bool) (iv : Bytes) : List (Event Op.Ans) :=
  if drawsIv then [⟨.randomIv, iv⟩] else []

/-- A run of `direct` is the part of a run of single mode between taking and releasing the
mutex. -/
lemma single_runs {session : SessionHandle} {rpc : Rpc} {drawsIv : Bool}
    {request : Bytes → JobRequest} {finish : Bytes → JobResponse → Except Status RpcResponse}
    (hplan : plan P rpc = .ok (.job drawsIv request finish)) {iv : Bytes}
    (hiv : drawsIv = false → iv = []) {calls : List (Event Op.Ans)} {result : JobResult}
    (hruns : Runs (direct P session (request iv)) calls result) :
    Runs (Single.single P session rpc)
      (ivEvents drawsIv iv ++ (⟨.lockSession, ()⟩ :: (calls ++ [⟨.unlockSession, ()⟩])))
      (result.mapError singleStatus >>= finish iv) := by
  have hbody : Runs (do
        let result ← direct P session (request iv)
        Handler.check (result.mapError singleStatus >>= finish iv) : Handler RpcResponse).run calls
      (result.mapError singleStatus >>= finish iv) := by
    rw [ExceptT.run_bind, runs_bind]
    refine ⟨.ok result, calls, [], (List.append_nil _).symm, runs_map.mpr ⟨result, hruns, rfl⟩, ?_⟩
    exact Runs.ret _
  have hdraw : Runs (drawIv drawsIv) (ivEvents drawsIv iv) iv := by
    cases drawsIv with
    | true => exact Runs.call (Runs.ret _)
    | false =>
      rw [hiv rfl]
      exact Runs.ret _
  rw [single_eq P hplan, ExceptT.run_bind, runs_bind]
  exact ⟨.ok iv, _, _, rfl, runs_map.mpr ⟨iv, hdraw, rfl⟩, locked_runs hbody⟩

/-- The calls into the token in such a run. -/
lemma tokenCalls_single (drawsIv : Bool) (iv : Bytes) {calls : List (Event Op.Ans)}
    (htouch : ∀ ev ∈ calls, ev.1.role = .touch) :
    tokenCalls (ivEvents drawsIv iv ++ (⟨.lockSession, ()⟩ :: (calls ++ [⟨.unlockSession, ()⟩]))) =
      calls := by
  have hcalls : tokenCalls (⟨.lockSession, ()⟩ :: (calls ++ [⟨.unlockSession, ()⟩])) =
      tokenCalls (calls ++ [⟨.unlockSession, ()⟩]) := rfl
  have hunlock : tokenCalls [⟨.unlockSession, ()⟩] = [] := rfl
  have hdraw : tokenCalls (ivEvents drawsIv iv) = [] := by cases drawsIv <;> rfl
  rw [tokenCalls_append, hcalls, tokenCalls_append, hdraw, hunlock, tokenCalls_eq_self htouch,
    List.nil_append, List.append_nil]

/-! ## A worker -/

/-- Once the key is resolved: the operation, and possibly a reset of the session. -/
lemma operate_runs {w w' : Worker} {request : JobRequest} {key : ObjectHandle}
    {calls : List (Event Op.Ans)} {result : JobResult}
    (hruns : Runs (do
      let result ← Worker.operation P request w.session key
      if Worker.needsReset result then
        return (result, ← Worker.resetSession P w)
      else
        return (result, w)) calls (result, w')) :
    ∃ ops reset, Runs (Worker.operation P request w.session key) ops result ∧
      tokenCalls calls = ops ++ reset ∧ (∀ ev ∈ ops, ev.1.usesHandle = some (w.session, key)) ∧
      ∀ ev ∈ reset, ev.1.opensSession := by
  obtain ⟨result', ops, rest, rfl, hops, hrest⟩ := runs_bind.mp hruns
  have huses := (Worker.operation_only P request w.session key).runs hops
  have htouch : ∀ ev ∈ ops, ev.1.role = .touch := by
    rintro ⟨o, a⟩ hev
    have hused : o.usesHandle = some (w.session, key) := huses _ hev
    cases o <;> first | rfl | cases hused
  have hreset : result' = result ∧ ∀ ev ∈ tokenCalls rest, ev.1.opensSession := by
    split at hrest
    · obtain ⟨w₂, rest', last, rfl, hrest', hlast⟩ := runs_bind.mp hrest
      cases hlast
      refine ⟨rfl, ?_⟩
      rintro ⟨o, a⟩ hev
      rw [List.append_nil] at hev
      obtain ⟨hev, hrole⟩ := List.mem_filter.mp hev
      have hresets := (Worker.resetSession_only P w).runs hrest' _ hev
      have htouches : o.role = .touch := of_decide_eq_true hrole
      cases o <;> first | exact hresets | cases htouches
    · cases hrest
      exact ⟨rfl, fun ev hev => absurd hev List.not_mem_nil⟩
  obtain ⟨rfl, hreset⟩ := hreset
  refine ⟨ops, tokenCalls rest, hops, ?_, huses, hreset⟩
  rw [tokenCalls_append, tokenCalls_eq_self htouch]

/-- What a worker does for a request: the calls of `direct`, without the search when it has found
the key before, and then possibly those that replace its session. -/
lemma execute_runs {w w' : Worker} {request : JobRequest} {calls : List (Event Op.Ans)}
    {result : JobResult} (hruns : Runs (Worker.execute P w request) calls (result, w')) :
    ∃ find ops reset, Runs (direct P w.session request) (find :: ops) result ∧
      (tokenCalls calls = find :: ops ++ reset ∨ tokenCalls calls = ops ++ reset) ∧
      (∀ ev ∈ ops, ∃ key, ev.1.usesHandle = some (w.session, key)) ∧
      ∀ ev ∈ reset, ev.1.opensSession := by
  rw [Worker.execute_eq] at hruns
  obtain ⟨⟨r, w₁⟩, resolving, rest, rfl, hresolve, hrest⟩ := runs_bind.mp hruns
  unfold Worker.resolve at hresolve
  cases hcached : w.cached request.kind request.keyLabel with
  | some key =>
    rw [hcached] at hresolve
    cases hresolve with
    | call hresolve =>
      cases hresolve
      obtain ⟨ops, reset, hops, hcalls, huses, hreset⟩ := operate_runs P hrest
      refine ⟨⟨.token (.findObjects w.session request.kind.objectClass request.keyLabel),
        .ok [key]⟩, ops, reset, Runs.call hops, Or.inr ?_, fun ev hev => ⟨key, huses ev hev⟩, hreset⟩
      rw [tokenCalls_append, hcalls]
      rfl
  | none =>
    rw [hcached] at hresolve
    cases hresolve with
    | call hresolve =>
      cases hresolve with
      | @call _ _ found _ _ hresolve =>
        refine ⟨⟨.token (.findObjects w.session request.kind.objectClass request.keyLabel), found⟩, ?_⟩
        rcases found with e | (_ | ⟨key, others⟩)
        · cases hresolve
          cases hrest
          exact ⟨[], [], Runs.call (Runs.ret _), Or.inl rfl,
            fun ev hev => absurd hev List.not_mem_nil, fun ev hev => absurd hev List.not_mem_nil⟩
        · cases hresolve
          cases hrest
          exact ⟨[], [], Runs.call (Runs.ret _), Or.inl rfl,
            fun ev hev => absurd hev List.not_mem_nil, fun ev hev => absurd hev List.not_mem_nil⟩
        · cases hresolve
          obtain ⟨ops, reset, hops, hcalls, huses, hreset⟩ :=
            operate_runs P (w := w.store request.kind request.keyLabel key) hrest
          refine ⟨ops, reset, Runs.call hops, Or.inl ?_, fun ev hev => ⟨key, huses ev hev⟩, hreset⟩
          rw [tokenCalls_append, hcalls]
          rfl

/-! ## The replies of pool mode -/

/-- A handler whose job was answered replies with that answer, success or not. -/
def JobAnswer (rpc : Rpc) (g : JobLog) (reply : Except Status RpcResponse) : Prop :=
  ∀ r, g.got = some r → ∀ drawsIv request finish,
    plan P rpc = .ok (.job drawsIv request finish) →
      ∃ iv j, (drawsIv = false → iv = []) ∧ g.sent = some (j, request iv) ∧
        reply = r.mapError toStatus >>= finish iv

/-- Every method does. -/
theorem pooled_jobAnswer (cfg : ServiceConfig) (rpc : Rpc) :
    (pooled P cfg rpc).Meets (jobContract P) (JobAnswer P rpc) .empty := by
  refine meets_pooled P cfg (fun g o ho => jobContract_skip P ?_ ?_ ?_ g)
    (fun g o ho => jobContract_skip P ?_ ?_ ?_ g) (fun st r h => by cases h) fun p hp => ?_
  · simp [Op.ofHandler, ho]
  · rintro request t rfl
    cases ho
  · rintro j d rfl
    cases ho
  · simp [Op.ofHandler, ho]
  · rintro request t rfl
    cases ho
  · rintro j d rfl
    cases ho
  · cases p with
    | job drawsIv request finish =>
      rw [meets_perform_job]
      have hsubmit : ∀ iv, (drawsIv = false → iv = []) →
          (submitObserved cfg (request iv)).run.Meets (jobContract P)
            (fun g r => JobAnswer P rpc g (r >>= finish iv)) .empty := by
        intro iv hiv
        rw [meets_submitObserved]
        refine (submit_delivers P cfg _).mono fun g r hr => observe_delivers P _ ?_
        intro r' hgot drawsIv' request' finish' hplan
        rw [hp] at hplan
        cases hplan
        rcases hr with ⟨hnone, -⟩ | ⟨hsome, j, hsent⟩
        · rw [hnone] at hgot
          cases hgot
        · rw [hsome] at hgot
          obtain rfl := Option.some.inj hgot
          exact ⟨iv, j, hiv, hsent, rfl⟩
      cases drawsIv with
      | true => exact ⟨True.intro, fun iv _ => hsubmit iv Bool.noConfusion⟩
      | false => exact hsubmit [] fun _ => rfl
    | key finish =>
      rw [meets_perform_key, meets_publicKey]
      refine (getOrLoad_delivers P cfg _).mono fun g r _ => observe_delivers P _ ?_
      intro r' _ drawsIv request finish' hplan
      rw [hp] at hplan
      cases hplan

/-! ## Every run -/

/-- The reply of pool mode and that of single mode: the same, or internal errors with texts of
their own. -/
def SameAnswer (pool single : Except Status RpcResponse) : Prop :=
  pool = single ∨ ∃ st st', pool = .error st ∧ single = .error st' ∧
    st.code = .internal ∧ st'.code = .internal

/-- The two ways of wording a failure differ in the text of an internal error alone. -/
lemma sameAnswer_of_result (r : JobResult) (finish : JobResponse → Except Status RpcResponse) :
    SameAnswer (r.mapError toStatus >>= finish) (r.mapError singleStatus >>= finish) := by
  rcases r with e | response
  · cases e with
    | internal message => exact Or.inr ⟨_, _, rfl, rfl, rfl, rfl⟩
    | _ => exact Or.inl rfl
  · exact Or.inl rfl

end

section

variable {P : Platform} {cfg : ServiceConfig} {t₀ : ℕ} {sessions : List SessionHandle}
  {token : P.token.State} {as : List (Action Choice (EnvAction P) Party)}
  {c : Config Op.Ans (Shared P) Party ThreadResult}

/-- The calls a worker made for the job of handler `i`, on session `session`, next to those of a
run `h` of single mode. -/
structure SameCalls (tr : List (Entry Op.Ans (Shared P) Party)) (i : ℕ) (rpc : Rpc)
    (session : SessionHandle) (h : List (Event Op.Ans)) : Prop where
  /-- They are the same, but for a search left out and a session replaced. -/
  calls : ∃ job find ops reset, (i, job) ∈ sentJobs tr ∧ tokenCalls h = find :: ops ∧
    (tokenCalls (callsOf tr job.id) = find :: ops ++ reset ∨
      tokenCalls (callsOf tr job.id) = ops ++ reset) ∧ (∀ ev ∈ reset, ev.1.opensSession)
  /-- A key that single mode uses was found by the worker, under the label and class of the
  call. -/
  found : ∀ ev ∈ h, ∀ key, ev.1.usesHandle = some (session, key) → ∃ en ∈ tr, en.event = ev ∧
    ⟨session, rpc.keyClass, rpc.keyLabel, key⟩ ∈ (handleLog en.hist).found

/-- The job whose answer a handler has received, and its execution. -/
lemma execution_of_got (hc : Delivering c) {i : ℕ} {r : JobResult}
    (hgot : (jobLog (histOf c.trace i)).got = some r) :
    ∃ job w w', (i, job) ∈ sentJobs c.trace ∧
      (jobLog (histOf c.trace i)).sent = some (job.id, job.request) ∧
      Runs (Worker.execute P w job.request) (callsOf c.trace job.id) (r, w') := by
  obtain ⟨j, request, hsent, hresponded⟩ := hc.inv.received i r hgot
  obtain ⟨t, hmem⟩ := hc.inv.log.own i j request hsent
  obtain ⟨job', hjob', hid, -, w, w', hruns⟩ := hc.inv.responded j r hresponded
  obtain ⟨i', hi'⟩ := hc.inv.sent_of_taken hjob'
  obtain ⟨-, rfl⟩ := Prod.mk.inj (hc.inv.jobs.eq_of_id hi' hmem hid)
  exact ⟨_, w, w', hmem, hsent, hruns⟩

/-- The plan of a call whose job was sent, when it is not a key lookup. -/
lemma plan_of_sent (hrun : (pooledProxy P cfg).run (started P t₀ sessions token) as = some c)
    {i : ℕ} {rpc : Rpc} {reply : Except Status RpcResponse}
    (hi : replied c i = some (rpc, reply)) (hreads : rpc.readsPublicKey = false) {job : Job}
    (hsent : (i, job) ∈ sentJobs c.trace) :
    ∃ drawsIv request finish, plan P rpc = .ok (.job drawsIv request finish) := by
  obtain ⟨sub, hsub, -, htid, hsends⟩ := exists_entry_of_sent hsent
  obtain ⟨rpc', hlabel, -, -, p, hplan, -⟩ := planned_of_sends hrun hsub hsends
  obtain ⟨hist, ht⟩ := System.exists_returned (returned_of_replied hi)
  have hrpc : Party.rpc rpc' = .rpc rpc :=
    hlabel.symm.trans ((delivering_run hrun).recorded.label i _ ht sub hsub htid)
  obtain rfl := Party.rpc.inj hrpc
  cases p with
  | job drawsIv request finish => exact ⟨drawsIv, request, finish, hplan⟩
  | key finish =>
    rw [plan_key P hplan] at hreads
    cases hreads

/-- A call made for a job on an object used a handle found under the label and class of the job. -/
lemma found_of_call (hrun : (pooledProxy P cfg).run (started P t₀ sessions token) as = some c)
    {i : ℕ} {job : Job} (hsent : (i, job) ∈ sentJobs c.trace) {ev : Event Op.Ans}
    (hev : ev ∈ callsOf c.trace job.id) {session : SessionHandle} {key : ObjectHandle}
    (huses : ev.1.usesHandle = some (session, key)) :
    ∃ en ∈ c.trace, en.event = ev ∧
      ⟨session, job.request.kind.objectClass, job.request.keyLabel, key⟩ ∈
        (handleLog en.hist).found := by
  have hc : Delivering c := delivering_run hrun
  obtain ⟨en, hen, rfl⟩ := List.mem_map.mp hev
  obtain ⟨hmem, hmade⟩ := List.mem_filter.mp hen
  obtain ⟨job', hjob', hid⟩ :=
    Option.map_eq_some_iff.mp (of_decide_eq_true (Bool.and_eq_true_iff.mp hmade).2)
  obtain ⟨request, hrequest, hfound⟩ := usable_of_uses (pooled_only P cfg) hrun hmem huses
  rw [handleLog_job hjob'] at hrequest
  obtain rfl := Option.some.inj hrequest
  -- the job the call was made for is the one that was sent under that name
  obtain ⟨tr₁, tr₂, htr⟩ := List.append_of_mem hmem
  obtain ⟨-, i', hi'⟩ := hc.inv.log.after tr₁ en tr₂ job' htr hjob'
  have hi'' : (i', job') ∈ sentJobs c.trace := by
    rw [htr, sentJobs, List.filterMap_append]
    exact List.mem_append_left _ hi'
  obtain ⟨-, rfl⟩ := Prod.mk.inj (hc.inv.jobs.eq_of_id hi'' hsent hid)
  exact ⟨en, hmem, rfl, hfound⟩

/-- What a worker did for a call whose job it has answered: a run of `direct`, on its session, with
the answer, on handles found under the label and class of the call. -/
theorem direct_of_got
    (hrun : (pooledProxy P cfg).run (started P t₀ sessions token) as = some c) {i : ℕ} {rpc : Rpc}
    {reply : Except Status RpcResponse} {r : JobResult} (hreads : rpc.readsPublicKey = false)
    (hi : replied c i = some (rpc, reply)) (hgot : (jobLog (histOf c.trace i)).got = some r) :
    ∃ drawsIv request finish iv session job find ops reset,
      plan P rpc = .ok (.job drawsIv request finish) ∧ (drawsIv = false → iv = []) ∧
      reply = r.mapError toStatus >>= finish iv ∧
      Runs (direct P session (request iv)) (find :: ops) r ∧ (i, job) ∈ sentJobs c.trace ∧
      (tokenCalls (callsOf c.trace job.id) = find :: ops ++ reset ∨
        tokenCalls (callsOf c.trace job.id) = ops ++ reset) ∧
      (∀ ev ∈ reset, ev.1.opensSession) ∧
      ∀ ev ∈ ops, ∃ en ∈ c.trace, en.event = ev ∧ ∀ key, ev.1.usesHandle = some (session, key) →
        ⟨session, rpc.keyClass, rpc.keyLabel, key⟩ ∈ (handleLog en.hist).found := by
  have hc : Delivering c := delivering_run hrun
  obtain ⟨job, w, w', hsent, hlog, hexecute⟩ := execution_of_got hc hgot
  obtain ⟨drawsIv, request, finish, hplan⟩ := plan_of_sent hrun hi hreads hsent
  have hanswer : JobAnswer P rpc (jobLog (histOf c.trace i)) reply :=
    (pooled_jobAnswer P cfg rpc).runs (runs_of_reply hrun hi) fun _ _ _ => True.intro
  obtain ⟨iv, j, hiv, hlog', rfl⟩ := hanswer r hgot drawsIv request finish hplan
  have hrequest : job.request = request iv := by
    rw [hlog] at hlog'
    exact congrArg Prod.snd (Option.some.inj hlog')
  obtain ⟨find, ops, reset, hdirect, hcalls, huses, hreset⟩ := execute_runs P hexecute
  rw [hrequest] at hdirect
  refine ⟨drawsIv, request, finish, iv, w.session, job, find, ops, reset, hplan, hiv, rfl, hdirect,
    hsent, hcalls, hreset, fun ev hev => ?_⟩
  have hmade : ev ∈ tokenCalls (callsOf c.trace job.id) := by
    rcases hcalls with hcalls | hcalls <;> rw [hcalls]
    · exact List.mem_append_left _ (List.mem_cons_of_mem _ hev)
    · exact List.mem_append_left _ hev
  obtain ⟨key, hkey⟩ := huses ev hev
  obtain ⟨en, hen, hevent, hfound⟩ :=
    found_of_call hrun hsent (List.mem_filter.mp hmade).1 hkey
  obtain ⟨hclass, hlabel⟩ := plan_job_key P hplan iv
  rw [hrequest, hclass, hlabel] at hfound
  refine ⟨en, hen, hevent, fun key' hkey' => ?_⟩
  rw [hkey] at hkey'
  obtain ⟨-, rfl⟩ := Prod.mk.inj (Option.some.inj hkey')
  exact hfound

/-- Pool mode agrees with single mode, in every run: for a `sign`, `encrypt` or `decrypt` call whose
job a worker has answered there is a run of single mode, on the worker's session, with the same
reply, up to the text of an internal error, and the same calls into the token, up to a search for a
key that the worker had found before and a replacement of the session afterwards. -/
theorem pool_agrees_with_single
    (hrun : (pooledProxy P cfg).run (started P t₀ sessions token) as = some c) {i : ℕ} {rpc : Rpc}
    {reply : Except Status RpcResponse} {r : JobResult} (hreads : rpc.readsPublicKey = false)
    (hi : replied c i = some (rpc, reply)) (hgot : (jobLog (histOf c.trace i)).got = some r) :
    ∃ session h reply', Runs (Single.single P session rpc) h reply' ∧ SameAnswer reply reply' ∧
      SameCalls c.trace i rpc session h := by
  obtain ⟨drawsIv, request, finish, iv, session, job, find, ops, reset, hplan, hiv, rfl, hdirect,
    hsent, hcalls, hreset, hfound⟩ := direct_of_got hrun hreads hi hgot
  have htouch := (direct_only P session (request iv)).runs hdirect
  have htokens := tokenCalls_single drawsIv iv htouch
  refine ⟨session, _, _, single_runs P hplan hiv hdirect, sameAnswer_of_result r (finish iv),
    ⟨job, find, ops, reset, hsent, htokens, hcalls, hreset⟩, fun ev hev key hkey => ?_⟩
  -- a call on an object is not the search, so the worker made it too
  have hev' : ev ∈ find :: ops := by
    rw [← htokens]
    refine List.mem_filter.mpr ⟨hev, decide_eq_true ?_⟩
    obtain ⟨o, a⟩ := ev
    cases o <;> first | rfl | cases hkey
  rcases List.mem_cons.mp hev' with rfl | hops
  · cases hdirect
    cases hkey
  · obtain ⟨en, hen, hevent, hkeys⟩ := hfound ev hops
    exact ⟨en, hen, hevent, hkeys key hkey⟩

end

/-- The second of two calls of `sign` is served with the handle of the first, and answered as single
mode would. -/
theorem pool_agrees_with_single_second :
    ∃ (c : Config Op.Ans (Shared anyPlatform) Party ThreadResult) (session : SessionHandle)
      (h : List (Event Op.Ans)) (reply : Except Status RpcResponse),
      (pooledProxy anyPlatform (.plain 1 10)).run (started _ 0 [7] ()) signTwice = some c ∧
      (tokenCalls (callsOf c.trace 1)).length = 1 ∧
      Runs (Single.single anyPlatform session signCall) h reply ∧
      SameAnswer (.ok (.sign ⟨[], "k"⟩)) reply ∧ SameCalls c.trace 2 signCall session h := by
  have hend : ((pooledProxy anyPlatform (.plain 1 10)).run (started _ 0 [7] ()) signTwice).map
      (fun c => (replied c 2, (jobLog (histOf c.trace 2)).got,
        (tokenCalls (callsOf c.trace 1)).length)) =
      some (some (signCall, .ok (.sign ⟨[], "k"⟩)), some (.ok (.signature [])), 1) := by
    decide +kernel
  obtain ⟨c, hrun, hc⟩ := Option.map_eq_some_iff.mp hend
  obtain ⟨hreplied, hrest⟩ := Prod.mk.inj hc
  obtain ⟨hgot, hlength⟩ := Prod.mk.inj hrest
  obtain ⟨session, h, reply, hruns, hanswer, hcalls⟩ :=
    pool_agrees_with_single hrun rfl hreplied hgot
  exact ⟨c, session, h, reply, hrun, hlength, hruns, hanswer, hcalls⟩

end HsmProxy
