import HsmProxy.Interleaving.Progress
import HsmProxy.Service.SingleFlight

/-!
# No caller hangs

A handler of pool mode waits in two places only: for the result of its job, which ends when the job
times out, and for a load that another handler runs.  The runner of a load does not wait for a load
itself.  So whatever the workers do, or fail to do, time and the steps of the handlers alone bring
every handler to its reply: `callers_never_hang`.
-/

namespace HsmProxy

open Interleaving Interleaving.Prog

/-! ## The steps of a handler -/

/-- The steps a handler takes under a configuration: the rate limiter is asked only where there is
one. -/
def Op.serves (cfg : ServiceConfig) (o : Op) : Prop :=
  o.ofHandler = true ∧ ∀ identity, o = .limiterCheck identity → cfg.rateLimiter.isSome = true

section

variable (P : Platform) (cfg : ServiceConfig)

/-- A step of a handler that is not one of the rate limiter. -/
lemma serves_of_ofHandler {o : Op} (ho : o.ofHandler = true)
    (hne : ∀ identity, o ≠ .limiterCheck identity) : o.serves cfg :=
  ⟨ho, fun identity h => absurd h (hne identity)⟩

/-- Authorization does not touch the rate limiter. -/
lemma authorize_serves (policy : Policy) (peerCerts : Option (List Bytes)) (keyLabel : String)
    (operation : Operation) :
    Only (Op.serves cfg) (authorize P policy peerCerts keyLabel operation).run := by
  have hauthz : ∀ q, (Op.authz q).serves cfg :=
    fun q => serves_of_ofHandler cfg rfl fun _ h => by cases h
  have hidentify : Only (Op.serves cfg) (identify P peerCerts).run := by
    unfold identify
    split
    · exact only_ret _
    · split
      · exact only_ret _
      · refine ⟨hauthz _, fun memo => ?_⟩
        cases memo with
        | some identity => exact only_ret _
        | none =>
          refine only_run_bind (only_check _) fun identity => ?_
          exact ⟨hauthz _, fun _ => only_ret _⟩
  refine only_run_bind (hidentify.bind fun r => only_ret _) fun r => ?_
  cases r with
  | error st => exact ⟨hauthz _, fun _ => only_ret _⟩
  | ok identity =>
    dsimp only
    split <;> exact ⟨hauthz _, fun _ => only_ret _⟩

/-- Admission asks the rate limiter where there is one. -/
lemma admitRequest_serves (peerCerts : Option (List Bytes)) (keyLabel : String)
    (operation : Operation) :
    Only (Op.serves cfg) (admitRequest P cfg peerCerts keyLabel operation).run := by
  have hallow : Only (Op.serves cfg) Program.allow := by
    have hbreaker : ∀ q, (Op.breaker q).serves cfg :=
      fun q => serves_of_ofHandler cfg (Bool.or_true _) fun _ h => by cases h
    refine ⟨hbreaker _, fun s => ?_⟩
    cases s with
    | «open» => exact ⟨hbreaker _, fun _ => only_ret _⟩
    | closed => exact only_ret _
    | halfOpen => exact only_ret _
  refine only_run_bind (hallow.bind fun _ => only_ret _) fun admitted => ?_
  split
  · split
    · exact only_ret _
    · refine only_run_bind (authorize_serves P cfg _ peerCerts keyLabel operation) fun identity => ?_
      split
      · exact only_ret _
      · rename_i limit hlimit
        refine ⟨⟨rfl, fun _ _ => by rw [hlimit]; rfl⟩, fun ok => ?_⟩
        cases ok <;> exact only_ret _
  · exact only_ret _

/-- A method is made of such steps. -/
theorem pooled_serves (rpc : Rpc) : Only (Op.serves cfg) (pooled P cfg rpc) := by
  unfold pooled
  rw [inner_eq]
  refine Only.bind ?_ fun r => Only.bind ?_ fun _ => only_ret _
  · refine only_run_bind (admitRequest_serves P cfg _ _ _) fun _ =>
      only_run_bind (only_check _) fun p => (perform_only P cfg _ p).weaken fun o ho => ?_
    refine serves_of_ofHandler cfg (ofHandler_of_performs ho.1) ?_
    rintro identity rfl
    cases ho.1
  · refine (record_only _ r).weaken fun o ho => serves_of_ofHandler cfg ?_ ?_
    · simp [Op.ofHandler, ho]
    · rintro identity rfl
      cases ho

end

/-- Handlers take such steps. -/
def servesContract (cfg : ServiceConfig) (party : Party) : Contract Op.Ans Unit where
  init := ()
  next _ _ _ := ()
  pre _ o :=
    match party with
    | .rpc _ => o.serves cfg
    | .worker _ => True
  post _ _ _ := True

/-! ## Channels of jobs -/

namespace PoolState

variable {cfg : PoolConfig} {now tid : ℕ} {s s' : PoolState}

/-- Every job that was given a name has a oneshot channel. -/
def Channelled (s : PoolState) : Prop := ∀ j, j < s.nextJob → (s.oneshots j).isSome = true

/-- A channel is replaced by another. -/
lemma Channelled.set (h : s.Channelled) (hnext : s'.nextJob = s.nextJob) {j : ℕ} {o : Oneshot}
    (honeshots : s'.oneshots = Function.update s.oneshots j (some o)) : s'.Channelled := by
  intro j' hj'
  rw [honeshots]
  by_cases hjj : j' = j
  · subst hjj
    rw [Function.update_self]
    rfl
  · rw [Function.update_of_ne hjj]
    exact h j' (hnext ▸ hj')

/-- A job is taken on. -/
lemma Channelled.accept (h : s.Channelled) : (s.accept tid).Channelled := by
  intro j hj
  by_cases hjj : j = s.nextJob
  · subst hjj
    simp [PoolState.accept]
  · have hlt : j < s.nextJob := Nat.lt_of_le_of_ne (Nat.le_of_lt_succ hj) hjj
    simpa [PoolState.accept, hjj] using h j hlt

/-- Channels are only changed. -/
lemma Channelled.map (h : s.Channelled) (hnext : s'.nextJob = s.nextJob) {f : ℕ → Oneshot → Oneshot}
    (honeshots : ∀ j, s'.oneshots j = (s.oneshots j).map (f j)) : s'.Channelled := by
  intro j hj
  rw [honeshots, Option.isSome_map]
  exact h j (hnext ▸ hj)

/-- One operation keeps the channels. -/
lemma Channelled.exec (h : s.Channelled) {q : PoolOp} {a : q.Ans}
    (hq : s.exec cfg now tid q = some (a, s')) : s'.Channelled := by
  cases q with
  | count counter n =>
    cases hq
    exact h
  | trySend request t =>
    obtain ⟨-, ⟨-, -, rfl⟩ | ⟨w, ws, -, -, -, rfl⟩ | ⟨-, -, -, -, rfl⟩ | ⟨-, -, -, -, rfl⟩⟩ :=
      exec_trySend hq
    · exact h
    · exact h.accept
    · exact h.accept
    · exact h
  | awaitResult j deadline =>
    obtain ⟨o, -, rfl, -⟩ := exec_awaitResult hq
    exact h.set rfl rfl
  | poll =>
    obtain ⟨job, rest, -, -, rfl⟩ | ⟨-, -, -, rfl⟩ | ⟨-, -, -, rfl⟩ := exec_poll hq <;> exact h
  | unpark =>
    obtain ⟨job, -, -, rfl⟩ | ⟨-, -, -, rfl⟩ := exec_unpark hq <;> exact h
  | respond j r =>
    cases hq
    intro j' hj'
    by_cases hjj : j' = j
    · subst hjj
      simpa [PoolState.respond] using h j' hj'
    · simpa [PoolState.respond, hjj] using h j' hj'

/-- No operation closes the queue. -/
lemma exec_senderAlive {q : PoolOp} {a : q.Ans} (hq : s.exec cfg now tid q = some (a, s')) :
    s'.senderAlive = s.senderAlive := by
  cases q with
  | count counter n =>
    cases hq
    rfl
  | trySend request t =>
    obtain ⟨-, ⟨-, -, rfl⟩ | ⟨w, ws, -, -, -, rfl⟩ | ⟨-, -, -, -, rfl⟩ | ⟨-, -, -, -, rfl⟩⟩ :=
      exec_trySend hq <;> rfl
  | awaitResult j deadline =>
    obtain ⟨o, -, rfl, -⟩ := exec_awaitResult hq
    rfl
  | poll =>
    obtain ⟨job, rest, -, -, rfl⟩ | ⟨-, -, -, rfl⟩ | ⟨-, -, -, rfl⟩ := exec_poll hq <;> rfl
  | unpark =>
    obtain ⟨job, -, -, rfl⟩ | ⟨-, -, -, rfl⟩ := exec_unpark hq <;> rfl
  | respond j r =>
    cases hq
    rfl

/-- Waiting for a job that has a channel ends at the deadline, at the latest. -/
lemma exists_awaitResult {j deadline : ℕ} (hj : (s.oneshots j).isSome = true)
    (hdeadline : deadline ≤ now) :
    ∃ a s', s.exec cfg now tid (.awaitResult j deadline) = some (a, s') := by
  obtain ⟨⟨owner, value, tx, rx⟩, ho⟩ := Option.isSome_iff_exists.mp hj
  simp only [PoolState.exec, PoolState.awaitResult, ho]
  cases value with
  | some r => exact ⟨_, _, rfl⟩
  | none =>
    cases tx with
    | false => exact ⟨_, _, rfl⟩
    | true => exact ⟨_, _, if_pos hdeadline⟩

end PoolState

/-! ## Runs of handlers and time -/

section

variable {P : Platform} {cfg : ServiceConfig} {t₀ : ℕ} {sessions : List SessionHandle}
  {token : P.token.State} {c : Config Op.Ans (Shared P) Party ThreadResult}

/-- Handlers take their steps, and every job has its channel. -/
lemma serves_sound : System.Sound (pooledProxy P cfg) (fun _ _ => True) (servesContract cfg)
    (fun _ _ _ => True) (fun s _ => s.pool.Channelled) := by
  refine proxy_sound (fun rpc => (pooled_serves P cfg rpc).meets (fun o ho => ⟨ho, fun _ => rfl⟩)
      fun _ => True.intro)
    (fun session g w _ => (Worker.iterate_only P w).meets (fun o _ => ⟨True.intro, fun _ => rfl⟩)
      fun _ => True.intro)
    (fun c i e l o k a s' hc _ _ _ he => ⟨True.intro, ?_⟩) (fun c i l o k hc _ _ _ => ?_)
    fun c v hc _ => ?_
  · by_cases hpool : ∃ q, o = .pool q
    · obtain ⟨q, rfl⟩ := hpool
      obtain ⟨p, hp, rfl⟩ := execOp_pool.mp he
      exact hc.inv.exec hp
    · rw [(execOp_frame he).pool fun q hq => hpool ⟨q, hq⟩]
      exact hc.inv
  · cases l with
    | rpc rpc => exact hc.inv.map rfl fun _ => rfl
    | worker session => exact hc.inv.map rfl fun _ => rfl
  · cases v <;> exact hc.inv

/-- Time passes, or a handler executes an operation. -/
def Quiet (n : ℕ) : Action Choice (EnvAction P) Party → Prop
  | .env (.tick _) => True
  | .exec i _ => n ≤ i
  | _ => False

/-- Is a thread a handler? -/
def Party.handles : Party → Bool
  | .rpc _ => true
  | .worker _ => false

variable (cfg t₀ sessions token c) in
/-- A configuration of a run in which the pool was not shut down. -/
structure Serving : Prop where
  reached : ∃ as, (pooledProxy P cfg).run (started P t₀ sessions token) as = some c
  up : c.shared.pool.senderAlive = true

namespace Serving

/-- What the steps and channels are, while serving. -/
lemma serves (hc : Serving cfg t₀ sessions token c) :
    System.Outline (servesContract cfg) (fun _ _ _ => True) (fun s _ => s.pool.Channelled) c := by
  obtain ⟨as, hrun⟩ := hc.reached
  refine serves_sound.run (outline_started (fun session => ?_) ?_) (System.throughout_true _ as) hrun
  · exact (Worker.iterate_only P _).meets (fun o _ => ⟨True.intro, fun _ => rfl⟩) fun _ => True.intro
  · exact fun j hj => absurd hj (Nat.not_lt_zero j)

/-- Which loads are running. -/
lemma inFlight (hc : Serving cfg t₀ sessions token c) : InFlight c := by
  obtain ⟨as, hrun⟩ := hc.reached
  exact inFlight_run hrun

/-- The next operation of a handler can be executed after some time, unless it waits for a load that
is running. -/
theorem exists_exec (hc : Serving cfg t₀ sessions token c) {i : ℕ} {rpc : Rpc}
    {hist : List (Event Op.Ans)} {o : Op} {k : o.Ans → Prog Op.Ans ThreadResult}
    (ht : c.threads i = some ⟨.rpc rpc, hist, .call o k⟩)
    (hwait : ∀ n, o = .cache (.wait n) → ∀ label j,
      c.shared.cache.loads n ≠ some ⟨label, some j, none⟩) :
    ∃ d a s', execOp cfg .success i { c.shared with now := c.shared.now + d } o = some (a, s') := by
  obtain ⟨hhandler, hlimiter⟩ : o.serves cfg := (hc.serves.threads i _ ht).1
  cases o with
  | breaker q => exact ⟨0, _, _, rfl⟩
  | authz q => exact ⟨0, _, _, rfl⟩
  | limiterCheck identity =>
    obtain ⟨limit, hlimit⟩ := Option.isSome_iff_exists.mp (hlimiter identity rfl)
    exact ⟨0, _, _, by simp only [execOp, hlimit]; rfl⟩
  | cache q =>
    cases q with
    | wait n =>
      obtain ⟨-, label, hticket⟩ : (loadLog hist).running = false ∧
          ∃ label, (loadLog hist).ticket = some (label, n) := (hc.inFlight.outline.threads i _ ht).1
      have hlog : handlerLogs c i = some (loadLog hist) := by
        unfold handlerLogs
        rw [ht]
        rfl
      obtain ⟨⟨label', owner, outcome⟩, hl, -⟩ := hc.inFlight.flight.ticket i _ label n hlog hticket
      cases outcome with
      | some r =>
        exact ⟨0, .finished r, _, by simp [execOp, CacheState.exec, CacheState.wait, hl]; rfl⟩
      | none =>
        cases owner with
        | none => exact ⟨0, .own, _, by simp [execOp, CacheState.exec, CacheState.wait, hl]; rfl⟩
        | some j => exact absurd hl (hwait n rfl label' j)
    | _ => exact ⟨0, _, _, rfl⟩
  | pool q =>
    cases q with
    | count counter n => exact ⟨0, _, _, rfl⟩
    | trySend request t =>
      exact ⟨0, _, _, by simp only [execOp, PoolState.exec, if_pos hc.up]; rfl⟩
    | awaitResult j deadline =>
      obtain ⟨as, hrun⟩ := hc.reached
      have hdelivering := delivering_run hrun
      obtain rfl := hdelivering.recorded.hist i _ ht
      obtain ⟨job, rfl, hsent, -⟩ := hdelivering.sent_of_await ht
      have hlt : job.id < c.shared.pool.nextJob := by
        rw [← List.mem_range, ← hdelivering.inv.jobs.names]
        exact List.mem_map_of_mem (f := fun p : ℕ × Job => p.2.id) hsent
      obtain ⟨a, s', hs'⟩ := PoolState.exists_awaitResult (hc.serves.inv job.id hlt)
        (Nat.le_add_left deadline c.shared.now)
      exact ⟨deadline, a, _, execOp_pool.mpr ⟨s', hs', rfl⟩⟩
    | poll => cases hhandler
    | unpark => cases hhandler
    | respond j r => cases hhandler
  | token q => cases hhandler
  | record m => exact ⟨0, _, _, rfl⟩
  | now => exact ⟨0, _, _, rfl⟩
  | randomIv => exact ⟨0, _, _, rfl⟩
  | lockSession => cases hhandler
  | unlockSession => cases hhandler

/-- A handler executes an operation, after some time. -/
lemma exec (hc : Serving cfg t₀ sessions token c) {i : ℕ} {rpc : Rpc} {hist : List (Event Op.Ans)}
    {o : Op} {k : o.Ans → Prog Op.Ans ThreadResult}
    (ht : c.threads i = some ⟨.rpc rpc, hist, .call o k⟩) {d : ℕ} {e : Choice} {a : o.Ans}
    {s' : Shared P}
    (he : execOp cfg e i { c.shared with now := c.shared.now + d } o = some (a, s')) :
    ∃ c' : Config Op.Ans (Shared P) Party ThreadResult,
      (pooledProxy P cfg).ReachesBy (Quiet sessions.length) c c' ∧
      Serving cfg t₀ sessions token c' ∧ c'.shared = s' ∧
      c'.threads = Function.update c.threads i (some ⟨.rpc rpc, hist ++ [⟨o, a⟩], k a⟩) := by
  obtain ⟨as, hrun⟩ := hc.reached
  have hquiet : sessions.length ≤ i := by
    by_contra hlt
    obtain ⟨session, hl⟩ := (workersBelow_run hrun).threads i _ (Nat.lt_of_not_le hlt) ht
    cases hl
  have hup : s'.pool.senderAlive = true := by
    by_cases hpool : ∃ q, o = .pool q
    · obtain ⟨q, rfl⟩ := hpool
      obtain ⟨p, hp, rfl⟩ := execOp_pool.mp he
      exact (PoolState.exec_senderAlive hp).trans hc.up
    · rw [(execOp_frame he).pool fun q hq => hpool ⟨q, hq⟩]
      exact hc.up
  let c₁ : Config Op.Ans (Shared P) Party ThreadResult :=
    { c with shared := { c.shared with now := c.shared.now + d } }
  obtain ⟨c₂, hstep, hshared, hthreads⟩ : ∃ c₂, (pooledProxy P cfg).step c₁ (.exec i e) = some c₂ ∧
      c₂.shared = s' ∧
      c₂.threads = Function.update c.threads i (some ⟨.rpc rpc, hist ++ [⟨o, a⟩], k a⟩) := by
    have hexec : (pooledProxy P cfg).exec e i c₁.shared o = some (a, s') := he
    exact ⟨_, by simp only [System.step, c₁, ht]; rw [hexec]; rfl, rfl, rfl⟩
  have hreach : (pooledProxy P cfg).ReachesBy (Quiet sessions.length) c c₂ :=
    (System.ReachesBy.of_step (a := .env (.tick d)) True.intro rfl).trans
      (System.ReachesBy.of_step (a := .exec i e) hquiet hstep)
  obtain ⟨bs, -, hbs⟩ := id hreach
  refine ⟨c₂, hreach, ⟨⟨as ++ bs, ?_⟩, hshared ▸ hup⟩, hshared, hthreads⟩
  rw [System.run_append, hrun, Option.bind_some, hbs]

/-- The handler that runs a load can be brought to finish it. -/
theorem exists_finished {i n : ℕ} {rpc : Rpc} {hist : List (Event Op.Ans)}
    {p : Prog Op.Ans ThreadResult} {label : String} (hc : Serving cfg t₀ sessions token c)
    (ht : c.threads i = some ⟨.rpc rpc, hist, p⟩) (hlog : loadLog hist = ⟨some (label, n), true⟩) :
    ∃ c' : Config Op.Ans (Shared P) Party ThreadResult,
      (pooledProxy P cfg).ReachesBy (Quiet sessions.length) c c' ∧
      Serving cfg t₀ sessions token c' ∧ System.Keeps Party.handles c c' ∧
      (∀ j, j ≠ i → c'.threads j = c.threads j) ∧
      ∃ owner outcome, c'.shared.cache.loads n = some ⟨label, owner, some outcome⟩ := by
  -- The runner has not returned, for it would leave its load running; it does not wait for a load.
  induction p generalizing c hist with
  | ret r =>
    have hends : (loadLog hist).running = false := hc.inFlight.outline.threads i _ ht
    rw [hlog] at hends
    cases hends
  | call o k ih =>
    have hpre : (loadContract (.rpc rpc)).pre (loadLog hist) o :=
      (hc.inFlight.outline.threads i _ ht).1
    have hrunning : (loadLog hist).running = true := by rw [hlog]
    obtain ⟨d, a, s', he⟩ := hc.exists_exec ht (by
      rintro m rfl label j
      obtain ⟨hidle, -⟩ : (loadLog hist).running = false ∧ _ := hpre
      rw [hrunning] at hidle
      cases hidle)
    obtain ⟨c₁, hreach, hc₁, hshared, hthreads⟩ := hc.exec ht he
    have hi : c₁.threads i = some ⟨.rpc rpc, hist ++ [⟨o, a⟩], k a⟩ := by
      rw [hthreads, Function.update_self]
    have hother : ∀ j, j ≠ i → c₁.threads j = c.threads j := by
      intro j hj
      rw [hthreads, Function.update_of_ne hj]
    have hkeeps : System.Keeps Party.handles c c₁ := .of_update ht rfl hi hother
    by_cases hfinish : ∃ m outcome, o = .cache (.finish m outcome)
    · obtain ⟨m, outcome, rfl⟩ := hfinish
      obtain ⟨-, label', hticket⟩ : (loadLog hist).running = true ∧
          ∃ label, (loadLog hist).ticket = some (label, m) := hpre
      rw [hlog] at hticket
      cases hticket
      have hl : c.shared.cache.loads n = some ⟨label, some i, none⟩ := by
        refine (hc.inFlight.flight.runner i label n).mp ?_
        unfold handlerLogs
        rw [ht, Option.bind_some, threadLog, hlog]
      obtain ⟨s'', hs'', rfl⟩ := execOp_cache.mp he
      obtain rfl : c.shared.cache.finish cfg.cache (c.shared.now + d) n outcome = s'' :=
        congrArg Prod.snd (Option.some.inj hs'')
      refine ⟨c₁, hreach, hc₁, hkeeps, hother, some i, outcome, ?_⟩
      rw [hshared]
      exact (congrFun (CacheState.finish_loads _ _ hl outcome) n).trans (Function.update_self ..)
    · have hsame : loadLog (hist ++ [⟨o, a⟩]) = ⟨some (label, n), true⟩ := by
        rw [loadLog_snoc, ← hlog]
        cases o with
        | cache q =>
          cases q with
          | enter label' =>
            have hidle : (loadLog hist).running = false := hpre
            rw [hrunning] at hidle
            cases hidle
          | wait m =>
            obtain ⟨hidle, -⟩ : (loadLog hist).running = false ∧ _ := hpre
            rw [hrunning] at hidle
            cases hidle
          | finish m outcome => exact absurd ⟨m, outcome, rfl⟩ hfinish
          | _ => rfl
        | _ => rfl
      obtain ⟨c', hreach', hc', hkeeps', hother', hdone⟩ := ih a hc₁ hi hsame
      exact ⟨c', hreach.trans hreach', hc', hkeeps.trans hkeeps',
        fun j hj => (hother' j hj).trans (hother j hj), hdone⟩

/-- A handler can be brought past its next operation, when need be by letting another finish its
load. -/
theorem exists_advanced (hc : Serving cfg t₀ sessions token c) {i : ℕ} {rpc : Rpc}
    {hist : List (Event Op.Ans)} {o : Op} {k : o.Ans → Prog Op.Ans ThreadResult}
    (ht : c.threads i = some ⟨.rpc rpc, hist, .call o k⟩) :
    ∃ (c' : Config Op.Ans (Shared P) Party ThreadResult) (hist' : List (Event Op.Ans)) (a : o.Ans),
      (pooledProxy P cfg).ReachesBy (Quiet sessions.length) c c' ∧
      Serving cfg t₀ sessions token c' ∧ System.Keeps Party.handles c c' ∧
      c'.threads i = some ⟨.rpc rpc, hist', k a⟩ := by
  -- First to a configuration in which no running load is waited for.
  obtain ⟨c₁, hreach, hc₁, hkeeps, ht₁, hwait⟩ :
      ∃ c₁ : Config Op.Ans (Shared P) Party ThreadResult,
        (pooledProxy P cfg).ReachesBy (Quiet sessions.length) c c₁ ∧
        Serving cfg t₀ sessions token c₁ ∧ System.Keeps Party.handles c c₁ ∧
        c₁.threads i = some ⟨.rpc rpc, hist, .call o k⟩ ∧
        ∀ n, o = .cache (.wait n) → ∀ label j,
          c₁.shared.cache.loads n ≠ some ⟨label, some j, none⟩ := by
    by_cases hruns : ∃ n label j, o = .cache (.wait n) ∧
        c.shared.cache.loads n = some ⟨label, some j, none⟩
    · obtain ⟨n, label, j, rfl, hl⟩ := hruns
      have hlog := (hc.inFlight.flight.runner j label n).mpr hl
      obtain ⟨⟨l, hist', p⟩, htj, htlog⟩ := Option.bind_eq_some_iff.mp hlog
      cases l with
      | worker session => cases htlog
      | rpc rpc' =>
        have hlogj : loadLog hist' = ⟨some (label, n), true⟩ := Option.some.inj htlog
        have hji : i ≠ j := by
          rintro rfl
          obtain ⟨hidle, -⟩ : (loadLog hist).running = false ∧ _ :=
            (hc.inFlight.outline.threads i _ ht).1
          rw [ht] at htj
          cases htj
          rw [hlogj] at hidle
          cases hidle
        obtain ⟨c₁, hreach, hc₁, hkeeps, hother, owner, outcome, hdone⟩ :=
          hc.exists_finished htj hlogj
        refine ⟨c₁, hreach, hc₁, hkeeps, (hother i hji).trans ht, fun m hm label' j' hm' => ?_⟩
        cases hm
        rw [hdone] at hm'
        cases hm'
    · exact ⟨c, .refl c, hc, .refl c, ht, fun n hn label j hl => hruns ⟨n, label, j, hn, hl⟩⟩
  obtain ⟨d, a, s', he⟩ := hc₁.exists_exec ht₁ hwait
  obtain ⟨c', hreach', hc', -, hthreads⟩ := hc₁.exec ht₁ he
  have hi : c'.threads i = some ⟨.rpc rpc, hist ++ [⟨o, a⟩], k a⟩ := by
    rw [hthreads, Function.update_self]
  refine ⟨c', _, a, hreach.trans hreach', hc', hkeeps.trans (.of_update ht₁ rfl hi ?_), hi⟩
  intro j hj
  rw [hthreads, Function.update_of_ne hj]

end Serving

/-- No caller hangs: in every run in which the pool was not shut down, time and the steps of the
handlers, without any step of a worker, can bring every handler to its reply. -/
theorem callers_never_hang {as : List (Action Choice (EnvAction P) Party)}
    (hrun : (pooledProxy P cfg).run (started P t₀ sessions token) as = some c)
    (hup : c.shared.pool.senderAlive = true) :
    ∃ bs c', (∀ a ∈ bs, Quiet sessions.length a) ∧ (pooledProxy P cfg).run c bs = some c' ∧
      ∀ i rpc hist p, c.threads i = some ⟨.rpc rpc, hist, p⟩ →
        ∃ reply, replied c' i = some (rpc, reply) := by
  have hc : Serving cfg t₀ sessions token c := ⟨⟨as, hrun⟩, hup⟩
  have hadvance : ∀ c i l h o k, Serving cfg t₀ sessions token c → Party.handles l = true →
      c.threads i = some ⟨l, h, .call o k⟩ →
      ∃ c' h' a, (pooledProxy P cfg).ReachesBy (Quiet sessions.length) c c' ∧
        Serving cfg t₀ sessions token c' ∧ System.Keeps Party.handles c c' ∧
        c'.threads i = some ⟨l, h', k a⟩ := by
    intro c i l h o k hc hl ht
    cases l with
    | rpc rpc => exact hc.exists_advanced ht
    | worker session => cases hl
  obtain ⟨c', ⟨bs, hquiet, hbs⟩, hc', hkeeps, hdone⟩ :=
    System.exists_all_returned_by hadvance hc hc.serves.recorded.fresh
  refine ⟨bs, c', hquiet, hbs, fun i rpc hist p hi => ?_⟩
  have hlabel := hkeeps.labels i
  rw [hi] at hlabel
  obtain ⟨⟨l, hist', p'⟩, ht', hl⟩ := Option.map_eq_some_iff.mp hlabel
  obtain rfl : l = .rpc rpc := hl
  cases p' with
  | call o k => exact absurd ⟨_, _, _, _, ht', rfl⟩ (hdone i)
  | ret r =>
    obtain ⟨as', hrun'⟩ := hc'.reached
    have hreturned : c'.returned i = some (.rpc rpc, r) := by
      unfold Config.returned
      rw [ht']
    have hruns := System.runs_of_returned recorded_started unstarted_started hrun' hreturned
      fun _ => rfl
    obtain ⟨reply, -, rfl⟩ := Prog.runs_map.mp hruns
    refine ⟨reply, ?_⟩
    unfold replied
    rw [hreturned]

end

/-- Two lookups of one label: the first sends a job, the second joins. -/
def lookupJoined : List (Action Choice (EnvAction anyPlatform) Party) :=
  [.exec 0 .success, .spawn (.rpc lookupCall)] ++ execs 1 7 .success ++
    [.spawn (.rpc lookupCall)] ++ execs 2 3 .success

/-- A lookup waits for its job, another for the load of the first, and the worker does nothing: both
can get their replies. -/
theorem callers_never_hang_joined :
    ∃ c : Config Op.Ans (Shared anyPlatform) Party ThreadResult,
      (pooledProxy anyPlatform (.plain 1 10)).run (started _ 0 [7] ()) lookupJoined = some c ∧
      c.nextOp 2 = some (.cache (.wait 0)) ∧
      ∃ bs c', (∀ a ∈ bs, Quiet 1 a) ∧
        (pooledProxy anyPlatform (.plain 1 10)).run c bs = some c' ∧
        ∀ i, i = 1 ∨ i = 2 → (replied c' i).isSome := by
  have hend : ((pooledProxy anyPlatform (.plain 1 10)).run (started _ 0 [7] ()) lookupJoined).map
      (fun c => (c.shared.pool.senderAlive, c.nextOp 2, handlerLogs c 1, handlerLogs c 2)) =
      some (true, some (.cache (.wait 0)), some ⟨some ("k", 0), true⟩,
        some ⟨some ("k", 0), false⟩) := by
    decide +kernel
  obtain ⟨c, hrun, hc⟩ := Option.map_eq_some_iff.mp hend
  obtain ⟨hup, hc⟩ := Prod.mk.inj hc
  obtain ⟨hnext, hc⟩ := Prod.mk.inj hc
  obtain ⟨hfirst, hsecond⟩ := Prod.mk.inj hc
  obtain ⟨bs, c', hquiet, hbs, hreplies⟩ := callers_never_hang hrun hup
  have hlive : ∀ i log, handlerLogs c i = some log → (replied c' i).isSome := by
    intro i log hlog
    obtain ⟨⟨l, hist, p⟩, ht, htlog⟩ := Option.bind_eq_some_iff.mp hlog
    cases l with
    | worker session => cases htlog
    | rpc rpc =>
      obtain ⟨reply, hreply⟩ := hreplies i rpc hist p ht
      exact Option.isSome_iff_exists.mpr ⟨_, hreply⟩
  refine ⟨c, hrun, hnext, bs, c', hquiet, hbs, ?_⟩
  rintro i (rfl | rfl)
  · exact hlive 1 _ hfirst
  · exact hlive 2 _ hsecond

end HsmProxy
