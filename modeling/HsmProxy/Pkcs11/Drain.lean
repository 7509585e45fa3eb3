import HsmProxy.Pkcs11.Leaving

/-!
# Draining the pool

`Pool::shutdown` drops the sender; the workers go on with the jobs that were accepted, and every
worker that finds the queue closed and empty logs out before it drops its session.  The login is
shared, as `open_worker_session` documents it: `TokenModel.documentedLogin` is a token with one flag
for the application, which one `C_Logout` clears for every session.

A worker that leaves while another one is still executing a job logs that one out.
`drained_while_logged_in`: as long as no worker logs out before every accepted job is finished,
every call for a job is made while the token is logged in, and when all workers have left, every
accepted job was executed and answered.
-/

namespace HsmProxy

open Interleaving Interleaving.Prog

/-! ## The token -/

/-- The answers of a token with one login flag. -/
def loginAnswer (loggedIn : Bool) : (o : TokenOp) → o.Ans → Option Bool
  | .login _, .ok () => if loggedIn then none else some true
  | .login _, .error e =>
    if e = .pkcs11 .userAlreadyLoggedIn ∧ loggedIn = false then none else some loggedIn
  | .logout _, .ok () => if loggedIn then some false else none
  | _, _ => some loggedIn

/-- The login state as the code documents it. -/
def TokenModel.documentedLogin : TokenModel where
  State := Bool
  Change := Empty
  answer := loginAnswer
  change loggedIn _ := loggedIn

/-- A platform with this token. -/
abbrev Platform.documentingLogin (P : Platform) : Platform := { P with token := .documentedLogin }

/-- Only a logout clears the flag. -/
lemma loginAnswer_keeps {loggedIn : Bool} {o : TokenOp} {a : o.Ans}
    (h : loginAnswer true o a = some loggedIn) (ho : ∀ session, o ≠ .logout session) :
    loggedIn = true := by
  cases o with
  | logout session => exact absurd rfl (ho session)
  | login session =>
    cases a with
    | error e =>
      simp only [loginAnswer] at h
      split at h
      · cases h
      · exact (Option.some.inj h).symm
    | ok u => cases h
  | _ => exact (Option.some.inj h).symm

/-! ## The pool after the sender is gone -/

namespace PoolState

variable {cfg : PoolConfig} {now tid : ℕ} {s s' : PoolState} {q : PoolOp} {a : q.Ans}

/-- The sender does not come back. -/
lemma exec_closed (h : s.exec cfg now tid q = some (a, s')) (hclosed : s.senderAlive = false) :
    s'.senderAlive = false := by
  cases q with
  | count c n =>
    cases h
    exact hclosed
  | trySend request t =>
    obtain ⟨halive, -⟩ := exec_trySend h
    rw [hclosed] at halive
    cases halive
  | awaitResult j d =>
    obtain ⟨o, -, rfl, -⟩ := exec_awaitResult h
    exact hclosed
  | poll =>
    obtain ⟨job, rest, -, -, rfl⟩ | ⟨-, -, -, rfl⟩ | ⟨-, -, -, rfl⟩ := exec_poll h <;> exact hclosed
  | unpark => obtain ⟨job, -, -, rfl⟩ | ⟨-, -, -, rfl⟩ := exec_unpark h <;> exact hclosed
  | respond j r =>
    cases h
    exact hclosed

/-- A pool that is closed and finished stays finished. -/
lemma exec_finished (h : s.exec cfg now tid q = some (a, s')) (hclosed : s.senderAlive = false)
    (hs : s.Finished) : s'.Finished := by
  cases q with
  | count c n =>
    cases h
    exact ⟨hs.queue, hs.handed, hs.held⟩
  | trySend request t =>
    obtain ⟨halive, -⟩ := exec_trySend h
    rw [hclosed] at halive
    cases halive
  | awaitResult j d =>
    obtain ⟨o, -, rfl, -⟩ := exec_awaitResult h
    exact ⟨hs.queue, hs.handed, hs.held⟩
  | poll =>
    obtain ⟨job, rest, hqueue, -, rfl⟩ | ⟨-, -, -, rfl⟩ | ⟨-, -, -, rfl⟩ := exec_poll h
    · rw [hs.queue] at hqueue
      cases hqueue
    · exact ⟨hs.queue, hs.handed, hs.held⟩
    · exact hs
  | unpark =>
    obtain ⟨job, hjob, -, rfl⟩ | ⟨-, -, -, rfl⟩ := exec_unpark h
    · rw [hs.handed] at hjob
      cases hjob
    · exact ⟨hs.queue, hs.handed, hs.held⟩
  | respond j r =>
    cases h
    refine ⟨hs.queue, hs.handed, ?_⟩
    change s.held.filter _ = []
    rw [hs.held]
    rfl

/-- What the others hold, they still hold. -/
lemma exec_held (h : s.exec cfg now tid q = some (a, s')) {i j : ℕ} (hi : i ≠ tid)
    (hheld : (i, j) ∈ s.held) : (i, j) ∈ s'.held := by
  cases q with
  | count c n =>
    cases h
    exact hheld
  | trySend request t =>
    obtain ⟨-, ⟨-, -, rfl⟩ | ⟨w, ws, -, -, -, rfl⟩ | ⟨-, -, -, -, rfl⟩ | ⟨-, -, -, -, rfl⟩⟩ :=
      exec_trySend h <;> exact hheld
  | awaitResult j d =>
    obtain ⟨o, -, rfl, -⟩ := exec_awaitResult h
    exact hheld
  | poll =>
    obtain ⟨job, rest, -, -, rfl⟩ | ⟨-, -, -, rfl⟩ | ⟨-, -, -, rfl⟩ := exec_poll h
    · exact List.mem_append_left _ hheld
    · exact hheld
    · exact hheld
  | unpark =>
    obtain ⟨job, -, -, rfl⟩ | ⟨-, -, -, rfl⟩ := exec_unpark h
    · exact List.mem_append_left _ hheld
    · exact hheld
  | respond j r =>
    cases h
    exact List.mem_filter.mpr ⟨hheld, decide_eq_true hi⟩

end PoolState

/-! ## Every run -/

section

variable {P : Platform} {cfg : ServiceConfig} {e : Choice} {i : ℕ} {o : Op} {ans : o.Ans}
  {s s' : Shared P}

/-- A worker that executes a job after a step holds one. -/
lemma held_of_executing (he : execOp cfg e i s o = some (ans, s')) {g : JobLog}
    (hg : g.job ≠ none → ∃ j, (i, j) ∈ s.pool.held) (hafter : (g.note ⟨o, ans⟩).job ≠ none) :
    ∃ j, (i, j) ∈ s'.pool.held := by
  by_cases hpool : ∃ q, o = .pool q
  · obtain ⟨q, rfl⟩ := hpool
    obtain ⟨p, hp, rfl⟩ := execOp_pool.mp he
    cases q with
    | count c n =>
      cases hp
      refine hg ?_
      cases c <;> exact hafter
    | trySend request t =>
      obtain ⟨-, ⟨-, rfl, rfl⟩ | ⟨w, ws, -, -, rfl, rfl⟩ | ⟨-, -, -, rfl, rfl⟩ | ⟨-, -, -, rfl, rfl⟩⟩ :=
        PoolState.exec_trySend hp <;> exact hg hafter
    | awaitResult j d =>
      obtain ⟨o, -, rfl, -⟩ := PoolState.exec_awaitResult hp
      refine hg ?_
      cases ans <;> exact hafter
    | poll =>
      obtain ⟨job, rest, -, rfl, rfl⟩ | ⟨-, -, rfl, rfl⟩ | ⟨-, -, rfl, rfl⟩ := PoolState.exec_poll hp
      · exact ⟨job.id, List.mem_append_right _ (List.mem_singleton_self _)⟩
      · exact hg hafter
      · exact hg hafter
    | unpark =>
      obtain ⟨job, -, rfl, rfl⟩ | ⟨-, -, rfl, rfl⟩ := PoolState.exec_unpark hp
      · exact ⟨job.id, List.mem_append_right _ (List.mem_singleton_self _)⟩
      · exact hg hafter
    | respond j r => exact absurd rfl hafter
  · have hframe : s'.pool = s.pool := (execOp_frame he).pool fun q hq => hpool ⟨q, hq⟩
    rw [hframe]
    refine hg ?_
    cases o with
    | pool q => exact absurd ⟨q, rfl⟩ hpool
    | _ => exact hafter

/-- A worker that is leaving after a step has found the sender gone. -/
lemma closed_of_leaving (he : execOp cfg e i s o = some (ans, s')) {g : Station}
    (hg : g = .leaving → s.pool.senderAlive = false) (hafter : g.note ⟨o, ans⟩ = .leaving) :
    s'.pool.senderAlive = false := by
  by_cases hpool : ∃ q, o = .pool q
  · obtain ⟨q, rfl⟩ := hpool
    obtain ⟨p, hp, rfl⟩ := execOp_pool.mp he
    refine PoolState.exec_closed hp ?_
    cases q with
    | poll =>
      obtain ⟨job, rest, -, rfl, rfl⟩ | ⟨-, -, rfl, rfl⟩ | ⟨-, hclosed, rfl, rfl⟩ :=
        PoolState.exec_poll hp
      · cases hafter
      · cases hafter
      · exact hclosed
    | unpark =>
      obtain ⟨job, -, rfl, rfl⟩ | ⟨-, hclosed, rfl, rfl⟩ := PoolState.exec_unpark hp
      · cases hafter
      · exact hclosed
    | respond j r => cases hafter
    | _ => exact hg hafter
  · have hframe : s'.pool = s.pool := (execOp_frame he).pool fun q hq => hpool ⟨q, hq⟩
    rw [hframe]
    refine hg ?_
    cases o with
    | pool q => exact absurd ⟨q, rfl⟩ hpool
    | _ => exact hafter

end

instance (s : PoolState) : Decidable s.Finished :=
  decidable_of_iff (s.queue = [] ∧ s.handed = [] ∧ s.held = [])
    ⟨fun h => ⟨h.1, h.2.1, h.2.2⟩, fun h => ⟨h.queue, h.handed, h.held⟩⟩

section

variable {P : Platform} {cfg : ServiceConfig}
  {c c' : Config Op.Ans (Shared P.documentingLogin) Party ThreadResult}
  {a : Action Choice (EnvAction P.documentingLogin) Party}

/-- Is the token logged in? -/
def Shared.loggedIn (s : Shared P.documentingLogin) : Bool := s.token

/-- A worker that logs out does so when no accepted job is left. -/
def LogsOutLast (c : Config Op.Ans (Shared P.documentingLogin) Party ThreadResult)
    (a : Action Choice (EnvAction P.documentingLogin) Party) : Prop :=
  match c.opOf a with
  | some (.token (.logout _)) => c.shared.pool.Finished
  | _ => True

instance : Decidable (LogsOutLast c a) := by
  unfold LogsOutLast
  split <;> infer_instance

/-- What is known while the pool drains. -/
structure Draining (c : Config Op.Ans (Shared P.documentingLogin) Party ThreadResult) : Prop where
  /-- A worker that executes a job holds it. -/
  executing : ∀ i t, c.threads i = some t → (jobLog t.hist).job ≠ none →
    ∃ j, (i, j) ∈ c.shared.pool.held
  /-- A worker leaves when the sender is gone. -/
  leaving : ∀ i t, c.threads i = some t → station t.hist = .leaving →
    c.shared.pool.senderAlive = false
  /-- After the logout there is nothing to do, and there will be nothing. -/
  finished : c.shared.loggedIn = false → c.shared.pool.senderAlive = false ∧ c.shared.pool.Finished
  /-- The calls for jobs were made while the token was logged in. -/
  executed : ∀ en ∈ c.trace, (jobLog en.hist).job ≠ none → ∀ q, en.event.1 = .token q →
    en.before.loggedIn = true

/-- A step on the token is an answer of the token. -/
lemma execOp_documentedLogin {e : Choice} {tid : ℕ} {s s' : Shared P.documentingLogin} {q : TokenOp}
    {ans : q.Ans} (h : execOp cfg e tid s (.token q) = some (ans, s')) :
    loginAnswer s.loggedIn q ans = some s'.loggedIn := by
  unfold execOp at h
  obtain ⟨t, ht, heq⟩ := Option.map_eq_some_iff.mp h
  obtain ⟨rfl, rfl⟩ := Prod.mk.inj heq
  exact ht

/-- A step that clears the login finds nothing left to do. -/
lemma finished_exec (hout : LeaveOutline c) (hc : Draining c) {i : ℕ} {e : Choice} {l : Party}
    {o : Op}
    {k : o.Ans → Prog Op.Ans ThreadResult} {ans : o.Ans} {s' : Shared P.documentingLogin}
    (hlast : LogsOutLast c (.exec i e)) (ht : c.threads i = some ⟨l, histOf c.trace i, .call o k⟩)
    (he : execOp cfg e i c.shared o = some (ans, s')) (hout' : s'.loggedIn = false) :
    s'.pool.senderAlive = false ∧ s'.pool.Finished := by
  by_cases hpool : ∃ q, o = .pool q
  · obtain ⟨q, rfl⟩ := hpool
    obtain ⟨p, hp, rfl⟩ := execOp_pool.mp he
    obtain ⟨hclosed, hfinished⟩ := hc.finished hout'
    exact ⟨PoolState.exec_closed hp hclosed, PoolState.exec_finished hp hclosed hfinished⟩
  · rw [(execOp_frame he).pool fun q hq => hpool ⟨q, hq⟩]
    by_cases hlogged : c.shared.loggedIn = false
    · exact hc.finished hlogged
    · have hlogged : c.shared.loggedIn = true := Bool.not_eq_false _ ▸ hlogged
      by_cases hlogout : ∃ session, o = .token (.logout session)
      · obtain ⟨session, rfl⟩ := hlogout
        have hnext : c.opOf (.exec i e : Action Choice (EnvAction P.documentingLogin) Party) =
            some (.token (.logout session)) := System.nextOp_eq ht
        rw [LogsOutLast, hnext] at hlast
        have hpre := (hout.threads i _ ht).1
        cases l with
        | rpc rpc => exact absurd hpre Bool.false_ne_true
        | worker w => exact ⟨hc.leaving i _ ht hpre, hlast⟩
      · have hkept : s'.loggedIn = true := by
          cases o with
          | token q =>
            have hanswer := execOp_documentedLogin he
            rw [hlogged] at hanswer
            exact loginAnswer_keeps hanswer fun session hq => hlogout ⟨session, congrArg Op.token hq⟩
          | _ => exact ((execOp_frame he).token nofun).trans hlogged
        rw [hkept] at hout'
        cases hout'

/-- After a step a worker that executes a job still holds it, and leaves only when the sender is
gone. -/
lemma Draining.threads_step (hc : Draining c)
    (h : (pooledProxy P.documentingLogin cfg).step c a = some c') :
    ∀ j t, c'.threads j = some t →
      ((jobLog t.hist).job ≠ none → ∃ job, (j, job) ∈ c'.shared.pool.held) ∧
      (station t.hist = .leaving → c'.shared.pool.senderAlive = false) := by
  refine System.threads_step (K := fun (s : Shared P.documentingLogin) j h =>
    ((jobLog h).job ≠ none → ∃ job, (j, job) ∈ s.pool.held) ∧
    (station h = .leaving → s.pool.senderAlive = false))
    (fun j t hj => ⟨hc.executing j t hj, hc.leaving j t hj⟩)
    ⟨fun hne => absurd rfl hne, fun hl => by cases hl⟩ ?_ ?_ ?_ ?_ h
  · intro i e l hist o k ans s' _ ht he
    rw [station_snoc, jobLog_snoc]
    exact ⟨held_of_executing he (hc.executing i _ ht), closed_of_leaving he (hc.leaving i _ ht)⟩
  · intro i e l hist o k ans s' _ ht he j t hij hj
    have he : execOp cfg e i c.shared o = some (ans, s') := he
    by_cases hpool : ∃ q, o = .pool q
    · obtain ⟨q, rfl⟩ := hpool
      obtain ⟨p, hp, rfl⟩ := execOp_pool.mp he
      refine ⟨fun hexecuting => ?_,
        fun hleaving => PoolState.exec_closed hp (hc.leaving j t hj hleaving)⟩
      obtain ⟨job, hjob⟩ := hc.executing j t hj hexecuting
      exact ⟨job, PoolState.exec_held hp hij hjob⟩
    · rw [(execOp_frame he).pool fun q hq => hpool ⟨q, hq⟩]
      exact ⟨hc.executing j t hj, hc.leaving j t hj⟩
  · intro i l _ j t hij hj
    cases l with
    | rpc rpc => exact ⟨hc.executing j t hj, hc.leaving j t hj⟩
    | worker w =>
      refine ⟨fun hexecuting => ?_, hc.leaving j t hj⟩
      obtain ⟨job, hjob⟩ := hc.executing j t hj hexecuting
      exact ⟨job, List.mem_filter.mpr ⟨hjob, decide_eq_true hij⟩⟩
  · rintro v s' - hv j t hj
    obtain rfl := Option.some.inj hv
    cases v with
    | shutdown => exact ⟨hc.executing j t hj, fun _ => rfl⟩
    | _ => exact ⟨hc.executing j t hj, hc.leaving j t hj⟩

/-- After a step that logs nobody out too early, a token that is logged out has nothing to do. -/
lemma Draining.finished_step (hc : Draining c) (hout : LeaveOutline c) (hlast : LogsOutLast c a)
    (h : (pooledProxy P.documentingLogin cfg).step c a = some c')
    (hloggedOut : c'.shared.loggedIn = false) :
    c'.shared.pool.senderAlive = false ∧ c'.shared.pool.Finished := by
  rcases System.step_cases h with ⟨l, -, -, rfl⟩ | ⟨i, e, l, hist, o, k, ans, s', rfl, ht, he, rfl⟩ |
    ⟨i, l, hist, r, p, -, ht, -, rfl⟩ | ⟨i, l, hist, o, k, -, ht, -, rfl⟩ | ⟨v, s', rfl, hv, rfl⟩
  · exact hc.finished hloggedOut
  · obtain rfl := hout.recorded.hist i _ ht
    exact finished_exec hout hc hlast ht he hloggedOut
  · exact hc.finished hloggedOut
  · cases l with
    | rpc rpc =>
      obtain ⟨hclosed, hfinished⟩ := hc.finished hloggedOut
      exact ⟨hclosed, hfinished.queue, hfinished.handed, hfinished.held⟩
    | worker w =>
      obtain ⟨hclosed, hfinished⟩ := hc.finished hloggedOut
      refine ⟨hclosed, hfinished.queue, ?_, ?_⟩
      · change c.shared.pool.handed.filter _ = []
        rw [hfinished.handed]
        rfl
      · change c.shared.pool.held.filter _ = []
        rw [hfinished.held]
        rfl
  · obtain rfl := Option.some.inj hv
    cases v with
    | shutdown =>
      obtain ⟨-, hfinished⟩ := hc.finished hloggedOut
      exact ⟨rfl, hfinished.queue, hfinished.handed, hfinished.held⟩
    | changeToken change => cases change
    | _ => exact hc.finished hloggedOut

/-- A call for a job is made while the token is logged in: its worker holds the job. -/
lemma Draining.executed_step (hc : Draining c)
    (h : (pooledProxy P.documentingLogin cfg).step c a = some c') :
    ∀ en ∈ c'.trace, (jobLog en.hist).job ≠ none → ∀ q, en.event.1 = .token q →
      en.before.loggedIn = true := by
  intro en hen hexecuting q hq
  rcases System.trace_step h with htrace | ⟨i, l, hist, o, k, ans, ht, htrace⟩
  · exact hc.executed en (htrace ▸ hen) hexecuting q hq
  · rw [htrace] at hen
    rcases List.mem_append.mp hen with hen | hen
    · exact hc.executed en hen hexecuting q hq
    · obtain rfl := List.mem_singleton.mp hen
      obtain ⟨job, hjob⟩ := hc.executing i _ ht hexecuting
      by_contra hloggedOut
      rw [(hc.finished ((Bool.not_eq_true _).mp hloggedOut)).2.held] at hjob
      cases hjob

/-- Every step with which nobody logs out too early keeps the pool draining. -/
lemma draining_step (hout : LeaveOutline c) (hc : Draining c) (hlast : LogsOutLast c a)
    (h : (pooledProxy P.documentingLogin cfg).step c a = some c') : Draining c' where
  executing j t hj := (hc.threads_step h j t hj).1
  leaving j t hj := (hc.threads_step h j t hj).2
  finished := hc.finished_step hout hlast h
  executed := hc.executed_step h

/-- The outline of a run in which nobody logs out too early. -/
lemma draining_run {t₀ : ℕ} {sessions : List SessionHandle}
    {as : List (Action Choice (EnvAction P.documentingLogin) Party)}
    (hrun : (pooledProxy P.documentingLogin cfg).run
      (started P.documentingLogin t₀ sessions true) as = some c)
    (hlast : (pooledProxy P.documentingLogin cfg).Throughout LogsOutLast
      (started P.documentingLogin t₀ sessions true) as) : LeaveOutline c ∧ Draining c := by
  have hstart : Draining (started P.documentingLogin t₀ sessions true) := by
    refine ⟨fun i t hi hexecuting => ?_, fun i t hi hleaving => ?_,
      fun h => absurd h.symm Bool.false_ne_true, fun en hen => absurd hen List.not_mem_nil⟩
    · obtain ⟨session, -, rfl⟩ := Option.map_eq_some_iff.mp hi
      exact absurd rfl hexecuting
    · obtain ⟨session, -, rfl⟩ := Option.map_eq_some_iff.mp hi
      cases hleaving
  exact System.run_invariant (I := fun c => LeaveOutline c ∧ Draining c)
    (fun d a d' hd ha h => ⟨leave_sound.step hd.1 True.intro h, draining_step hd.1 hd.2 ha h⟩)
    ⟨leave_started, hstart⟩ hlast hrun

/-- The token has an answer to every call, whether it is logged in or not. -/
lemma exists_loginAnswer (loggedIn : Bool) (q : TokenOp) :
    ∃ e : Choice, (loginAnswer loggedIn q (e.token q)).isSome = true := by
  refine ⟨.failing (.pkcs11 .userNotLoggedIn), ?_⟩
  cases q <;> rfl

/-- In every run of the pooled service on a token that is logged in at the start, before and after
`shutdown` drops the sender: as long as a worker logs out only when no accepted job is queued,
handed to a worker, or held by one, every call that a worker makes for a job is made while the token
is logged in.

No accepted job is forgotten: when no worker has died and all have left, none is queued, handed to a
worker or held by one, and each was answered with the result of a complete execution of its request,
made of the calls the trace has for it.  And once the sender is gone, a worker that has not left can
take its next step. -/
theorem drained_while_logged_in {t₀ : ℕ} {sessions : List SessionHandle}
    {as : List (Action Choice (EnvAction P.documentingLogin) Party)}
    (hrun : (pooledProxy P.documentingLogin cfg).run
      (started P.documentingLogin t₀ sessions true) as = some c)
    (hlast : (pooledProxy P.documentingLogin cfg).Throughout LogsOutLast
      (started P.documentingLogin t₀ sessions true) as) :
    (∀ en ∈ c.trace, (jobLog en.hist).job ≠ none → ∀ q, en.event.1 = .token q →
      en.before.loggedIn = true) ∧
    ((pooledProxy P.documentingLogin cfg).Throughout NoWorkerDies
        (started P.documentingLogin t₀ sessions true) as → sessions ≠ [] →
      (∀ i < sessions.length, hasLeft c i = true) →
      c.shared.pool.Finished ∧ ∀ p ∈ sentJobs c.trace, ∃ r w w',
        (⟨.pool (.respond p.2.id r), ()⟩ : Event Op.Ans) ∈ c.trace.map Entry.event ∧
        Runs (Worker.execute P.documentingLogin w p.2.request) (callsOf c.trace p.2.id) (r, w')) ∧
    (c.shared.pool.senderAlive = false → ∀ i session hist p,
      c.threads i = some ⟨.worker session, hist, p⟩ → p ≠ .ret (.round none) →
      ((pooledProxy P.documentingLogin cfg).step c (.again i)).isSome ∨
        ∃ e, ((pooledProxy P.documentingLogin cfg).step c (.exec i e)).isSome) := by
  obtain ⟨hout, hdraining⟩ := draining_run hrun hlast
  refine ⟨hdraining.executed, fun hlive hworkers hleft => ?_, fun hclosed i session hist p hi hp => ?_⟩
  · exact answered_of_left hrun hlive hworkers hleft
  · exact exists_step_of_closed hout hclosed (exists_loginAnswer c.shared.loggedIn) hi hp

end

/-- The call of a job that uses a private key. -/
def Op.isSign : Op → Bool
  | .token (.sign _ _ _ _) => true
  | _ => false

/-- The jobs for which a signature was made, and whether the token was logged in. -/
def signedWhile {P : Platform} (c : Config Op.Ans (Shared P.documentingLogin) Party ThreadResult) :
    List (Option ℕ × Bool) :=
  (c.trace.filter fun en => en.event.1.isSign).map fun en =>
    ((jobLog en.hist).job.map Job.id, en.before.loggedIn)

/-- Two workers wait; a job is handed to the first one, and the sender is dropped. -/
def handedThenClosed : List (Action Choice (EnvAction anyPlatform.documentingLogin) Party) :=
  [.exec 0 .success, .exec 1 .success, .spawn (.rpc signCall)] ++ execs 2 4 .success ++
    [.env .shutdown]

/-- The second worker logs out after the first one has answered; then the first one leaves too. -/
def leavesLast : List (Action Choice (EnvAction anyPlatform.documentingLogin) Party) :=
  handedThenClosed ++ execs 0 10 .success ++ execs 1 3 .success ++ [.again 0] ++
    execs 0 3 (.failing (.pkcs11 .userNotLoggedIn))

/-- Nobody is dropped in it. -/
lemma leavesLast_live : (pooledProxy anyPlatform.documentingLogin (.plain 1 10)).Throughout
    NoWorkerDies (started _ 0 [7, 8] true) leavesLast := by
  have hnodrop : ∀ a ∈ leavesLast, a.drops = false := by decide +kernel
  refine System.throughout_of_forall (fun a ha c i session hist p hcancel => ?_) _
  have hdrops := hnodrop a ha
  rw [hcancel] at hdrops
  cases hdrops

/-- Then the job has signed while the token was logged in, both workers have left, and the job was
answered. -/
theorem drained_two_workers :
    ∃ c : Config Op.Ans (Shared anyPlatform.documentingLogin) Party ThreadResult,
      (pooledProxy _ (.plain 1 10)).run (started _ 0 [7, 8] true) leavesLast = some c ∧
      signedWhile c = [(some 0, true)] ∧
      (∀ en ∈ c.trace, (jobLog en.hist).job ≠ none → ∀ q, en.event.1 = .token q →
        en.before.loggedIn = true) ∧
      (sentJobs c.trace).length = 1 ∧ c.shared.pool.Finished ∧
      ∀ p ∈ sentJobs c.trace, ∃ r w w',
        (⟨.pool (.respond p.2.id r), ()⟩ : Event Op.Ans) ∈ c.trace.map Entry.event ∧
        Runs (Worker.execute anyPlatform.documentingLogin w p.2.request)
          (callsOf c.trace p.2.id) (r, w') := by
  have hend : ((pooledProxy anyPlatform.documentingLogin (.plain 1 10)).run
      (started _ 0 [7, 8] true) leavesLast).map
      (fun c => (signedWhile c, (sentJobs c.trace).length, (List.range 2).all (hasLeft c))) =
      some ([(some 0, true)], 1, true) := by
    decide +kernel
  have hlast : (pooledProxy anyPlatform.documentingLogin (.plain 1 10)).Throughout LogsOutLast
      (started _ 0 [7, 8] true) leavesLast := by
    decide +kernel
  obtain ⟨c, hrun, hc⟩ := Option.map_eq_some_iff.mp hend
  obtain ⟨hsigned, hc⟩ := Prod.mk.inj hc
  obtain ⟨hsent, hleft⟩ := Prod.mk.inj hc
  obtain ⟨hlogged, hdrained, -⟩ := drained_while_logged_in hrun hlast
  obtain ⟨hfinished, hanswered⟩ :=
    hdrained leavesLast_live (List.cons_ne_nil _ _) fun i hi =>
      List.all_eq_true.mp hleft i (List.mem_range.mpr hi)
  exact ⟨c, hrun, hsigned, hlogged, hsent, hfinished, hanswered⟩

/-- The second worker logs out before the first one has woken up. -/
def leavesFirst : List (Action Choice (EnvAction anyPlatform.documentingLogin) Party) :=
  handedThenClosed ++ execs 1 3 .success ++ execs 0 4 .success ++
    [.exec 0 (.failing (.pkcs11 .userNotLoggedIn))] ++ execs 0 10 .success ++ execs 2 4 .success

/-- Then the job signs while the token is logged out, and fails. -/
theorem drained_while_logged_out :
    ((pooledProxy anyPlatform.documentingLogin (.plain 1 10)).run
      (started _ 0 [7, 8] true) leavesFirst).map
      (fun c => (signedWhile c, (replied c 2).map fun r => r.2.toOption.isSome)) =
      some ([(some 0, false)], some false) := by
  decide +kernel

end HsmProxy
