import HsmProxy.Pkcs11.Delivery
import HsmProxy.Pkcs11.StartVerdict
import HsmProxy.Pkcs11.Waiting

/-!
# A started pool serves

`submitAnswer` reads off a step what it makes `Pool::submit` return.  As long as no worker dies, the
workers of the start keep the queue connected and no oneshot channel is closed without a value; so
when there are workers at all, every submission ends with the result of its own job, with
`overloaded` or with `timeout` (`pool_serves`).  A configuration with no workers is started like any
other, and then the queue has no receiver (`pool_without_workers`).
-/

namespace HsmProxy

open Interleaving Interleaving.Prog

/-! ## A pool that was started -/

/-- The session a worker serves with. -/
def Fate.session : Fate → Option SessionHandle
  | .serving session => some session
  | _ => none

/-- `Pool::start` can have returned `Ok` with workers on these sessions. -/
def StartedWith (workers : ℕ) (sessions : List SessionHandle) : Prop :=
  ∃ fate as c, (startSystem workers fate).run (starting workers) as = some c ∧
    c.returned 0 = some (.main, .ok ()) ∧
    sessions = (List.range workers).filterMap fun id => (fate id).session

/-- A pool that was started has all its workers. -/
lemma StartedWith.length_eq {workers : ℕ} {sessions : List SessionHandle}
    (h : StartedWith workers sessions) : sessions.length = workers := by
  obtain ⟨fate, as, c, hrun, hreturned, rfl⟩ := h
  have hc := starting_run hrun
  obtain ⟨-, hready⟩ := (hc.verdict_iff hreturned).mp rfl
  have hserving : ∀ id ∈ List.range workers, ((fate id).session).isSome = true := by
    intro id hid
    have hreport := (hc.outline.inv.sent _ (hready id (List.mem_range.mp hid))).2.2
    cases hfate : fate id with
    | serving session => rfl
    | failed e => rw [hfate] at hreport; cases hreport
    | died => rw [hfate] at hreport; cases hreport
  rw [List.length_filterMap_eq_countP, List.countP_eq_length.mpr hserving, List.length_range]

/-! ## What a submission returns -/

/-- What a step makes `submit` return. -/
def submitAnswer : Event Op.Ans → Option JobResult
  | ⟨.pool (.trySend _ _), .error .full⟩ => some (.error .overloaded)
  | ⟨.pool (.trySend _ _), .error .disconnected⟩ => some (.error .shuttingDown)
  | ⟨.pool (.awaitResult _ _), .value result⟩ => some result
  | ⟨.pool (.awaitResult _ _), .closed⟩ => some (.error .shuttingDown)
  | ⟨.pool (.awaitResult _ _), .elapsed⟩ => some (.error .timeout)
  | _ => none

/-- A submission returns the one answer its steps give. -/
lemma submit_answer (cfg : ServiceConfig) {request : JobRequest} {tr : List (Event Op.Ans)}
    {r : JobResult} (h : Runs (submit cfg request) tr r) : tr.filterMap submitAnswer = [r] := by
  have hmeets : (submit cfg request).Meets
      (Contract.watch [] fun g o a => g ++ (submitAnswer ⟨o, a⟩).toList) (fun g r => g = [r]) [] := by
    refine ⟨True.intro, fun _ _ => ⟨True.intro, fun _ _ => ⟨True.intro, fun sent _ => ?_⟩⟩⟩
    cases sent with
    | error refusal =>
      cases refusal with
      | full => exact ⟨True.intro, fun _ _ => rfl⟩
      | disconnected => exact rfl
    | ok j =>
      refine ⟨True.intro, fun _ _ => ⟨True.intro, fun awaited _ => ?_⟩⟩
      cases awaited with
      | value result => exact rfl
      | closed => exact rfl
      | elapsed => exact ⟨True.intro, fun _ _ => rfl⟩
  have hfold : ∀ (tr : List (Event Op.Ans)) (g : List JobResult),
      tr.foldl (fun g ev => g ++ (submitAnswer ⟨ev.1, ev.2⟩).toList) g =
        g ++ tr.filterMap submitAnswer := by
    intro tr
    induction tr with
    | nil => simp
    | cons ev tr ih =>
      intro g
      rw [List.foldl_cons, ih, List.filterMap_cons]
      cases submitAnswer ev <;> simp
  have hend := meets_watch_iff.mp hmeets tr r h
  rw [hfold] at hend
  exact hend

/-! ## Every run in which no worker dies -/

section

variable {P : Platform} {cfg : ServiceConfig} {t₀ : ℕ} {sessions : List SessionHandle}
  {token : P.token.State} {as : List (Action Choice (EnvAction P) Party)}
  {c c' : Config Op.Ans (Shared P) Party ThreadResult}
  {a : Action Choice (EnvAction P) Party}

/-- An operation on the pool keeps the receivers of the queue. -/
lemma PoolState.exec_receivers {pcfg : PoolConfig} {now tid : ℕ} {s s' : PoolState} {q : PoolOp}
    {a : q.Ans} (hp : s.exec pcfg now tid q = some (a, s')) : s'.receivers = s.receivers := by
  cases q with
  | count c n => cases hp; rfl
  | respond j r => cases hp; rfl
  | awaitResult j d =>
    obtain ⟨o, -, rfl, -⟩ := exec_awaitResult hp
    rfl
  | trySend request t =>
    obtain ⟨-, ⟨-, -, rfl⟩ | ⟨w, ws, -, -, -, rfl⟩ | ⟨-, -, -, -, rfl⟩ | ⟨-, -, -, -, rfl⟩⟩ :=
      exec_trySend hp <;> rfl
  | poll => obtain ⟨job, rest, -, -, rfl⟩ | ⟨-, -, -, rfl⟩ | ⟨-, -, -, rfl⟩ := exec_poll hp <;> rfl
  | unpark => obtain ⟨job, -, -, rfl⟩ | ⟨-, -, -, rfl⟩ := exec_unpark hp <;> rfl

/-- A step that drops no worker leaves the number of receivers alone. -/
lemma receivers_step (ha : NoWorkerDies c a) (h : (pooledProxy P cfg).step c a = some c') :
    c'.shared.pool.receivers = c.shared.pool.receivers := by
  rcases System.step_cases h with ⟨l, -, -, rfl⟩ | ⟨i, e, l, hist, o, k, ans, s', -, -, he, rfl⟩ |
    ⟨i, l, hist, r, p, -, -, -, rfl⟩ | ⟨i, l, hist, o, k, rfl, ht, -, rfl⟩ | ⟨v, s', -, hv, rfl⟩
  · rfl
  · by_cases hpool : ∃ q, o = .pool q
    · obtain ⟨q, rfl⟩ := hpool
      have he : execOp cfg e i c.shared (.pool q) = some (ans, s') := he
      obtain ⟨p, hp, rfl⟩ := execOp_pool.mp he
      exact PoolState.exec_receivers hp
    · exact congrArg PoolState.receivers ((execOp_frame he).pool fun q hq => hpool ⟨q, hq⟩)
  · rfl
  · cases l with
    | worker session => exact absurd ht (ha i session hist _ rfl)
    | rpc rpc => rfl
  · obtain rfl := Option.some.inj hv
    cases v <;> rfl

/-- A submission is answered: with the result of a job the thread has sent, and a worker has
responded to, with `overloaded`, or with `timeout`. -/
def Answered (tr : List (Entry Op.Ans (Shared P) Party)) (i : ℕ) (r : JobResult) : Prop :=
  r ≠ .error .shuttingDown ∧
    (r = .error .overloaded ∨ r = .error .timeout ∨
      ∃ job, (i, job) ∈ sentJobs tr ∧
        (⟨.pool (.respond job.id r), ()⟩ : Event Op.Ans) ∈ tr.map Entry.event)

/-- An answer stays one. -/
lemma Answered.snoc {tr : List (Entry Op.Ans (Shared P) Party)} {i : ℕ} {r : JobResult}
    (h : Answered tr i r) (en : Entry Op.Ans (Shared P) Party) : Answered (tr ++ [en]) i r := by
  obtain ⟨hne, h | h | ⟨job, hsent, hresponded⟩⟩ := h
  · exact ⟨hne, Or.inl h⟩
  · exact ⟨hne, Or.inr (Or.inl h)⟩
  · refine ⟨hne, Or.inr (Or.inr ⟨job, ?_, ?_⟩)⟩
    · rw [sentJobs_snoc]
      exact List.mem_append_left _ hsent
    · rw [List.map_append]
      exact List.mem_append_left _ hresponded

/-- No worker reports that the pool is shutting down. -/
lemma ne_shuttingDown_of_endsWith {session : SessionHandle} {request : JobRequest}
    {ops : List (Event Op.Ans)} {r : JobResult} (h : Worker.EndsWith session request ops r) :
    r ≠ .error .shuttingDown := by
  rintro rfl
  cases request <;> exact h

/-- The answer one step gives a submission. -/
lemma answered_exec (hdelivering : Delivering c) (hwaiting : Waiting c)
    (hreceivers : c.shared.pool.receivers ≠ 0) {i : ℕ} {e : Choice} {l : Party}
    {o : Op} {k : o.Ans → Prog Op.Ans ThreadResult} {ans : o.Ans} {s' : Shared P}
    (ht : c.threads i = some ⟨l, histOf c.trace i, .call o k⟩)
    (he : execOp cfg e i c.shared o = some (ans, s')) {r : JobResult}
    (hr : submitAnswer ⟨o, ans⟩ = some r) : Answered c.trace i r := by
  cases o with
  | pool q =>
    obtain ⟨p, hp, rfl⟩ := execOp_pool.mp he
    cases q with
    | trySend request t =>
      obtain ⟨-, ⟨hnone, -, -⟩ | ⟨w, ws, -, -, rfl, -⟩ | ⟨-, -, -, rfl, -⟩ | ⟨-, -, -, rfl, -⟩⟩ :=
        PoolState.exec_trySend hp
      · exact absurd hnone hreceivers
      · cases hr
      · cases hr
      · cases hr
        exact ⟨nofun, Or.inl rfl⟩
    | awaitResult j d =>
      cases ans with
      | value result =>
        obtain rfl := Option.some.inj hr
        obtain ⟨job, rfl, hsent, -⟩ := hdelivering.sent_of_await ht
        have hresponded := hdelivering.inv.responded_of_value hp
        obtain ⟨session, hends⟩ := hdelivering.inv.endsWith hsent hresponded
        exact ⟨ne_shuttingDown_of_endsWith hends, Or.inr (Or.inr ⟨job, hsent, hresponded⟩)⟩
      | closed => exact absurd he (hwaiting.not_closed ht)
      | elapsed =>
        cases hr
        exact ⟨nofun, Or.inr (Or.inl rfl)⟩
    | _ => cases hr
  | _ => cases hr

/-- In every run in which no worker dies, of a pool that was started with at least one worker, every
submission is answered with the result of its own job, with `overloaded`, or with `timeout`, and
never with `shuttingDown`. -/
theorem pool_serves (hstart : StartedWith cfg.pool.workers sessions) (hworkers : cfg.pool.workers ≠ 0)
    (hrun : (pooledProxy P cfg).run (started P t₀ sessions token) as = some c)
    (hlive : (pooledProxy P cfg).Throughout NoWorkerDies (started P t₀ sessions token) as) :
    ∀ en ∈ c.trace, ∀ r, submitAnswer en.event = some r → Answered c.trace en.tid r := by
  have hsessions := hstart.length_eq
  let Good := fun c : Config Op.Ans (Shared P) Party ThreadResult =>
    (Delivering c ∧ Waiting c ∧ c.shared.pool.receivers = sessions.length) ∧
      ∀ en ∈ c.trace, ∀ r, submitAnswer en.event = some r → Answered c.trace en.tid r
  have hstep : ∀ c a c', Good c → NoWorkerDies c a → (pooledProxy P cfg).step c a = some c' →
      Good c' := by
    rintro c a c' ⟨⟨hdelivering, hwaiting, hreceivers⟩, hanswered⟩ ha h
    refine ⟨⟨delivering_step hdelivering h, waiting_step hwaiting ha h,
      (receivers_step ha h).trans hreceivers⟩, ?_⟩
    rcases System.step_cases h with ⟨l, -, -, rfl⟩ | ⟨i, e, l, hist, o, k, ans, s', -, ht, he, rfl⟩ |
      ⟨i, l, hist, r, p, -, -, -, rfl⟩ | ⟨i, l, hist, o, k, -, -, -, rfl⟩ | ⟨v, s', -, -, rfl⟩
    · exact hanswered
    · obtain rfl : hist = histOf c.trace i := hdelivering.recorded.hist i _ ht
      have hsome : c.shared.pool.receivers ≠ 0 := by omega
      intro en hen r hr
      rcases List.mem_append.mp hen with hen | hen
      · exact (hanswered en hen r hr).snoc _
      · obtain rfl := List.mem_singleton.mp hen
        exact (answered_exec hdelivering hwaiting hsome ht he hr).snoc _
    · exact hanswered
    · exact hanswered
    · exact hanswered
  have hgood : Good (started P t₀ sessions token) :=
    ⟨⟨delivering_started, waiting_started, rfl⟩, fun en hen => absurd hen List.not_mem_nil⟩
  exact (System.run_invariant (I := Good) hstep hgood hlive hrun).2

end

/-- One worker is started; of two submissions one finds the queue full and one waits too long. -/
theorem pool_serves_shed_and_timeout :
    StartedWith 1 [7] ∧ ∃ c : Config Op.Ans (Shared anyPlatform) Party ThreadResult,
      (pooledProxy anyPlatform (.plain 1 10)).run (started _ 0 [7] ()) shedAndTimeout = some c ∧
      some (.error .timeout) ∈ c.trace.map (fun en => submitAnswer en.event) ∧
      ∀ en ∈ c.trace, ∀ r, submitAnswer en.event = some r → Answered c.trace en.tid r := by
  have hstart : StartedWith 1 [7] :=
    ⟨fun _ => .serving 7, [.exec 0 none, .exec 0 none, .exec 0 none, .exec 1 none, .exec 1 none,
      .exec 1 none, .exec 0 none], _, rfl, rfl, rfl⟩
  have htimeout : ((pooledProxy anyPlatform (.plain 1 10)).run (started _ 0 [7] ())
      shedAndTimeout).map (fun c => decide (some (.error .timeout) ∈
        c.trace.map fun en => submitAnswer en.event)) = some true := by
    decide +kernel
  obtain ⟨c, hrun, hc⟩ := Option.map_eq_some_iff.mp htimeout
  exact ⟨hstart, c, hrun, of_decide_eq_true hc,
    pool_serves hstart (by decide) hrun shedAndTimeout_live⟩

/-! ## A pool without workers -/

/-- The environment sets the number of workers to zero and nothing else. -/
def noWorkersEnv : String → Option String
  | "HSM_WORKERS" => some "0"
  | _ => none

/-- A service with the pool this configures. -/
def noWorkersConfig : ServiceConfig :=
  { ServiceConfig.plain 1 10 with pool := .fromEnv (some 8) noWorkersEnv }

/-- `start` returns `Ok` for a pool without workers, and the first submission is told that the pool
is shutting down. -/
theorem pool_without_workers :
    noWorkersConfig.pool.workers = 0 ∧ StartedWith 0 [] ∧
    ∃ c : Config Op.Ans (Shared anyPlatform) Party ThreadResult,
      (pooledProxy anyPlatform noWorkersConfig).run (started _ 0 [] ())
        (.spawn (.rpc signCall) :: execs 0 6 .success) = some c ∧
      some (.error .shuttingDown) ∈ c.trace.map (fun en => submitAnswer en.event) := by
  have hanswer : ((pooledProxy anyPlatform noWorkersConfig).run (started _ 0 [] ())
      (.spawn (.rpc signCall) :: execs 0 6 .success)).map (fun c =>
        decide (some (.error .shuttingDown) ∈ c.trace.map fun en => submitAnswer en.event)) =
      some true := by
    decide +kernel
  obtain ⟨c, hrun, hc⟩ := Option.map_eq_some_iff.mp hanswer
  exact ⟨by decide +kernel, ⟨fun _ => .died, [.exec 0 none, .exec 0 none], _, rfl, rfl, rfl⟩, c,
    hrun, of_decide_eq_true hc⟩

end HsmProxy
