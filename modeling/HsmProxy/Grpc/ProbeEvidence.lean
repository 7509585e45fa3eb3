import HsmProxy.Cache.CacheSteps
import HsmProxy.Grpc.FailureCount

/-!
# What closes a half-open circuit

While the circuit is half open, the successes that `observe` reports are taken as evidence that the
token is back.  `finding` is what a handler has learned and not reported yet: an outcome that the
breaker does not take for a failure.  Some of these are outcomes of jobs; the others are a key found
in the cache, a job refused by the pool, and a job whose channel was closed.

When the jobs that are answered while the circuit is half open all fail in the token or in the
worker (`JobsFail`), and the outcomes of the other kind do not occur (`ProbedStep`), then no success
is reported and the circuit does not close (`dead_token_not_recovered`).  A key in the cache is
enough to close it (`recovered_by_cached_key`).
-/

namespace HsmProxy

open Interleaving Interleaving.Prog

/-! ## What a handler has learned -/

/-- Does the result of a job blame the token? -/
def resultBlames : JobResult → Bool
  | .ok _ => false
  | .error e => e.blamesToken

/-- What a handler has learned: whether the job it has sent is that of a key lookup, and whether it
knows an outcome that the breaker does not take for a failure and that it has not reported yet. -/
structure Finding where
  lookup : Bool
  favourable : Bool
  deriving DecidableEq

namespace Finding

/-- Nothing has been learned. -/
def empty : Finding := ⟨false, false⟩

/-- One more event.  A lookup reports every refusal as a failure, the other methods do not. -/
def note (g : Finding) : Event Op.Ans → Finding
  | ⟨.cache (.enter _), .hit _⟩ => { g with favourable := true }
  | ⟨.cache (.wait _), .finished (.ok _)⟩ => { g with favourable := true }
  | ⟨.pool (.trySend request _), .ok _⟩ => { g with lookup := request.looksUp }
  | ⟨.pool (.trySend request _), .error _⟩ =>
    { g with favourable := g.favourable || !request.looksUp }
  | ⟨.pool (.awaitResult _ _), .value r⟩ =>
    { g with favourable := g.favourable || !resultBlames r }
  | ⟨.pool (.awaitResult _ _), .closed⟩ => { g with favourable := g.favourable || !g.lookup }
  | ⟨.breaker .recordSuccess, _⟩ => { g with favourable := false }
  | ⟨.breaker .recordFailure, _⟩ => { g with favourable := false }
  | _ => g

end Finding

/-- What a handler has learned in a history. -/
def finding (h : List (Event Op.Ans)) : Finding := h.foldl Finding.note .empty

/-- One more event. -/
@[simp] lemma finding_snoc (h : List (Event Op.Ans)) (ev : Event Op.Ans) :
    finding (h ++ [ev]) = (finding h).note ev := by
  simp [finding, List.foldl_append]

/-- A success is reported only by who knows an outcome that is no failure. -/
def findingContract : Contract Op.Ans Finding where
  init := .empty
  next g o a := g.note ⟨o, a⟩
  pre g
    | .breaker .recordSuccess => g.favourable = true
    | _ => True
  post _ _ _ := True

/-- The steps at which something is learned or reported. -/
def Op.informs : Op → Bool
  | .cache (.enter _) => true
  | .cache (.wait _) => true
  | .pool (.trySend _ _) => true
  | .pool (.awaitResult _ _) => true
  | .breaker .recordSuccess => true
  | .breaker .recordFailure => true
  | _ => false

/-- The other steps teach nothing. -/
lemma Finding.note_of_not_informs {o : Op} (ho : o.informs = false) (g : Finding) (a : o.Ans) :
    g.note ⟨o, a⟩ = g := by
  cases o with
  | cache q => cases q <;> first | rfl | cases ho
  | pool q => cases q <;> first | rfl | cases ho
  | breaker q => cases q <;> first | rfl | cases ho
  | _ => rfl

/-- The contract does not look at them. -/
lemma findingContract_skip {o : Op} (ho : o.informs = false) (g : Finding) :
    findingContract.pre g o ∧ ∀ a, findingContract.next g o a = g := by
  refine ⟨?_, g.note_of_not_informs ho⟩
  cases o with
  | breaker q =>
    cases q with
    | recordSuccess => cases ho
    | _ => exact True.intro
  | _ => exact True.intro

/-- Admission, bookkeeping and the counters of the cache teach nothing. -/
lemma not_informs {o : Op} (ho : o.admits ∨ o.records ∨ o.countsLookup) : o.informs = false := by
  cases o with
  | cache q => cases q <;> first | rfl | (rcases ho with ho | ho | ho <;> cases ho)
  | pool q => cases q <;> first | rfl | (rcases ho with ho | ho | ho <;> cases ho)
  | breaker q => cases q <;> first | rfl | (rcases ho with ho | ho | ho <;> cases ho)
  | _ => rfl

section

variable (P : Platform) (cfg : ServiceConfig)

/-! ## Handlers report what they have learned -/

/-- A method that plans a job plans one that is not a key lookup. -/
lemma plan_job_request {rpc : Rpc} {drawsIv : Bool} {request : Bytes → JobRequest}
    {finish : Bytes → JobResponse → Except Status RpcResponse}
    (h : plan P rpc = .ok (.job drawsIv request finish)) (iv : Bytes) :
    (request iv).looksUp = false := by
  have hjob := plan_job P h
  cases rpc with
  | sign r =>
    obtain ⟨input, -, h⟩ := except_bind_ok h
    obtain ⟨prepared, -, h⟩ := except_bind_ok h
    obtain ⟨-, rfl, -⟩ := Plan.job.inj (Except.ok.inj h)
    rfl
  | encrypt r =>
    obtain ⟨u, -, h⟩ := except_bind_ok h
    obtain ⟨-, rfl, -⟩ := Plan.job.inj (Except.ok.inj h)
    rfl
  | decrypt r =>
    obtain ⟨u, -, h⟩ := except_bind_ok h
    obtain ⟨u', -, h⟩ := except_bind_ok h
    obtain ⟨-, rfl, -⟩ := Plan.job.inj (Except.ok.inj h)
    rfl
  | verify r => cases hjob
  | getPublicKey r => cases hjob

/-- How a submission ends: with something favourable learned, in a failure of the token or of the
worker, in a timeout, or, in a key lookup, in a refusal. -/
def SubmitFinding (request : JobRequest) (g : Finding) (r : JobResult) : Prop :=
  g.favourable = true ∨ resultBlames r = true ∨ r = .error .timeout ∨
    request.looksUp = true ∧ (r = .error .overloaded ∨ r = .error .shuttingDown)

/-- Every submission ends so. -/
lemma submit_finding (request : JobRequest) :
    (submit cfg request).Meets findingContract (SubmitFinding request) .empty := by
  refine ⟨True.intro, fun _ _ => ⟨True.intro, fun _ _ => ⟨True.intro, fun sent _ => ?_⟩⟩⟩
  have hrefused : ∀ {p : Prop}, (request.looksUp = true → p) →
      (false || !request.looksUp) = true ∨ p := by
    intro p hp
    cases hlooks : request.looksUp with
    | true => exact Or.inr (hp hlooks)
    | false => exact Or.inl rfl
  cases sent with
  | error refusal =>
    cases refusal with
    | full => exact ⟨True.intro, fun _ _ => hrefused fun h => Or.inr (Or.inr ⟨h, Or.inl rfl⟩)⟩
    | disconnected => exact hrefused fun h => Or.inr (Or.inr ⟨h, Or.inr rfl⟩)
  | ok j =>
    refine ⟨True.intro, fun _ _ => ⟨True.intro, fun awaited _ => ?_⟩⟩
    cases awaited with
    | value r =>
      cases hblames : resultBlames r with
      | true => exact Or.inr (Or.inl hblames)
      | false =>
        refine Or.inl ?_
        show (false || !resultBlames r) = true
        rw [hblames]
        rfl
    | closed => exact hrefused fun h => Or.inr (Or.inr ⟨h, Or.inr rfl⟩)
    | elapsed => exact ⟨True.intro, fun _ _ => Or.inr (Or.inr (Or.inl rfl))⟩

/-- Who has learned of no failure may report a success. -/
lemma observe_finding {α : Type} {g : Finding} {r : Except Status α}
    (hr : (∀ st, r = .error st → st.code ≠ .internal ∧ st.code ≠ .deadlineExceeded) →
      g.favourable = true) :
    (observe r).Meets findingContract (fun _ _ => True) g := by
  cases r with
  | ok a => exact ⟨hr fun st h => (by cases h), fun _ _ => True.intro⟩
  | error st =>
    obtain ⟨code, message⟩ := st
    have hfavourable : code ≠ .internal → code ≠ .deadlineExceeded → g.favourable = true := by
      intro hinternal hdeadline
      refine hr fun st h => ?_
      obtain rfl := Except.error.inj h
      exact ⟨hinternal, hdeadline⟩
    cases code with
    | internal => exact ⟨True.intro, fun _ _ => True.intro⟩
    | deadlineExceeded => exact ⟨True.intro, fun _ _ => True.intro⟩
    | _ => exact ⟨hfavourable Code.noConfusion Code.noConfusion, fun _ _ => True.intro⟩

/-- A key lookup that ends with a key, or without one, has learned of a success. -/
lemma getOrLoad_finding (keyLabel : String) :
    (getOrLoad keyLabel (loadPublicKey cfg keyLabel)).Meets findingContract
      (fun g r => ∀ found, r = .ok found → g.favourable = true) .empty := by
  have hload : ∀ k, (runLoad k (loadPublicKey cfg keyLabel)).Meets findingContract
      (fun g r => ∀ (wasPresent : Bool) found, r.map (fun v => (v, wasPresent)) = .ok found →
        g.favourable = true) .empty := by
    intro k
    rw [meets_runLoad]
    refine (submit_finding cfg _).mono fun g r hr => ⟨True.intro, fun _ _ wasPresent found h => ?_⟩
    rcases hr with hr | hr | rfl | ⟨-, rfl | rfl⟩
    · exact hr
    · cases r with
      | ok response => cases hr
      | error e =>
        cases e with
        | hsm operation source => cases h
        | internal message => cases h
        | _ => cases hr
    · cases h
    · cases h
    · cases h
  refine meets_getOrLoad (fun g o ho => findingContract_skip (not_informs (Or.inr (Or.inr ho))) g)
    ⟨True.intro, fun entered _ => ?_⟩
  cases entered with
  | hit value => exact fun _ _ _ => rfl
  | own k => exact hload k
  | join k =>
    refine ⟨True.intro, fun joined _ => ?_⟩
    cases joined with
    | own => exact hload k
    | finished outcome =>
      cases outcome with
      | ok value => exact fun _ _ _ => rfl
      | error e => exact fun _ _ h => by cases h

/-- A handler keeps to the contract. -/
theorem pooled_finding (rpc : Rpc) :
    (pooled P cfg rpc).Meets findingContract (fun _ _ => True) .empty := by
  refine meets_pooled P cfg (fun g o ho => findingContract_skip (not_informs (Or.inl ho)) g)
    (fun g o ho => findingContract_skip (not_informs (Or.inr (Or.inl ho))) g)
    (fun _ => True.intro) fun p hp => ?_
  cases p with
  | job drawsIv request finish =>
    rw [meets_perform_job]
    refine (drawIv_only drawsIv).meets (fun o ho => ?_) fun iv => ?_
    · subst ho
      exact findingContract_skip rfl _
    · rw [meets_submitObserved]
      refine (submit_finding cfg _).mono fun g r hr => observe_finding fun hcode => ?_
      rcases hr with hr | hr | rfl | ⟨hlooks, -⟩
      · exact hr
      · cases r with
        | ok response => cases hr
        | error e =>
          cases e with
          | hsm operation source => exact absurd rfl (hcode _ rfl).1
          | internal message => exact absurd rfl (hcode _ rfl).1
          | _ => cases hr
      · exact absurd rfl (hcode _ rfl).2
      · rw [plan_job_request P hp iv] at hlooks
        cases hlooks
  | key finish =>
    rw [meets_perform_key, meets_publicKey]
    refine (getOrLoad_finding cfg _).mono fun g r hr => observe_finding fun hcode => ?_
    cases r with
    | ok found => exact hr found rfl
    | error e => exact absurd rfl (hcode _ rfl).1

/-- A worker reports nothing. -/
theorem iterate_finding (w : Worker) (g : Finding) :
    (Worker.iterate P w).Meets findingContract (fun _ _ => True) g := by
  refine (Worker.iterate_only P w).meets (fun o ho => findingContract_skip ?_ g) fun _ => True.intro
  cases o with
  | pool q => cases q <;> first | rfl | cases ho
  | cache q => cases ho
  | breaker q => cases ho
  | _ => rfl

/-! ## Steps while the circuit is half open -/

/-- While the circuit is half open, a job that is answered has failed in the token or in the
worker. -/
def JobsFail (c : Config Op.Ans (Shared P) Party ThreadResult)
    (a : Action Choice (EnvAction P) Party) : Bool :=
  match a with
  | .exec i _ =>
    match c.nextOp i with
    | some (.pool (.respond _ r)) => c.shared.breaker.state ≠ .halfOpen || resultBlames r
    | _ => true
  | _ => true

/-- No thread has a favourable outcome to report, and no result that does not blame the token waits
to be received. -/
def nothingFavourable (c : Config Op.Ans (Shared P) Party ThreadResult) : Bool :=
  ((List.range c.spawned).all fun i =>
    (c.threads i).all fun t => !(finding t.hist).favourable) &&
  (List.range c.shared.pool.nextJob).all fun j =>
    (c.shared.pool.oneshots j).all fun o => o.value.all resultBlames

/-- In this state the step teaches its handler nothing favourable, except perhaps by the result of a
job: its key is not in the cache, the load it waits for has not succeeded, and, unless it is a
lookup, its job is not refused and the channel of its job is not closed without a result. -/
def probedOp (s : Shared P) (g : Finding) : Op → Bool
  | .cache (.enter label) => (s.cache.entries.lookup label).all fun e => decide (e.expires ≤ s.now)
  | .cache (.wait k) =>
    match s.cache.loads k with
    | some ⟨_, _, some (.ok _)⟩ => false
    | _ => true
  | .pool (.trySend request _) => request.looksUp || decide (s.pool.receivers ≠ 0 ∧
      (s.pool.parked ≠ [] ∨ s.pool.queue.length < cfg.pool.queueDepth))
  | .pool (.awaitResult j _) => g.lookup ||
    match s.pool.oneshots j with
    | some ⟨_, none, false, _⟩ => false
    | _ => true
  | _ => true

/-- A step that makes the circuit half open is made when nothing favourable is on its way to the
breaker, and while it is half open, steps teach nothing favourable except by results of jobs. -/
def ProbedStep (c : Config Op.Ans (Shared P) Party ThreadResult)
    (a : Action Choice (EnvAction P) Party) : Bool :=
  match a with
  | .exec i _ =>
    match c.threads i with
    | some ⟨_, hist, .call o _⟩ =>
      if c.shared.breaker.state = .halfOpen then probedOp P cfg c.shared (finding hist) o
      else !(decide (o = .breaker .probe) &&
          Breaker.cooledDown cfg.breaker c.shared.now c.shared.breaker.window) ||
        nothingFavourable P c
    | _ => true
  | _ => true

variable {P cfg} {c c' : Config Op.Ans (Shared P) Party ThreadResult}
  {a : Action Choice (EnvAction P) Party}

/-- Handlers and workers keep to the contract. -/
lemma finding_sound : System.Sound (pooledProxy P cfg) (fun _ _ => True) (fun _ => findingContract)
    (fun _ _ _ => True) (fun _ _ => True) :=
  proxy_sound (fun rpc => pooled_finding P cfg rpc) (fun _ g w _ => iterate_finding P w g)
    (fun _ _ _ _ _ _ _ _ _ _ _ _ _ => ⟨True.intro, True.intro⟩)
    (fun _ _ _ _ _ _ _ _ _ => True.intro) fun _ _ _ _ => True.intro

/-- What the contract says of a running thread. -/
abbrev Reporting (c : Config Op.Ans (Shared P) Party ThreadResult) : Prop :=
  System.Outline (fun _ => findingContract) (fun _ _ _ => True) (fun _ _ => True) c

/-- While the circuit is half open, nothing favourable is on its way to the breaker. -/
structure Untold (c : Config Op.Ans (Shared P) Party ThreadResult) : Prop where
  threads : ∀ i t, c.threads i = some t → c.shared.breaker.state = .halfOpen →
    (finding t.hist).favourable = false
  results : c.shared.breaker.state = .halfOpen → ∀ j o r, c.shared.pool.oneshots j = some o →
    o.value = some r → resultBlames r = true

/-- The circuit becomes half open by a probe after the cooldown. -/
lemma halfOpen_exec {e : Choice} {i : ℕ} {s s' : Shared P} {o : Op} {ans : o.Ans}
    (he : execOp cfg e i s o = some (ans, s')) (hstate : s'.breaker.state = .halfOpen) :
    s.breaker.state = .halfOpen ∨ o = .breaker .probe ∧
      Breaker.cooledDown cfg.breaker s.now s.breaker.window = true := by
  by_cases hb : ∃ q, o = .breaker q
  · obtain ⟨q, rfl⟩ := hb
    obtain ⟨-, rfl⟩ := execOp_breaker.mp he
    refine or_iff_not_imp_left.mpr fun hnot => ?_
    cases q with
    | load => exact absurd hstate hnot
    | probe =>
      refine ⟨rfl, ?_⟩
      by_contra hcold
      simp [Breaker.exec, Breaker.probe, hcold] at hstate
      exact hnot hstate
    | recordSuccess =>
      cases hs : s.breaker.state with
      | halfOpen => exact absurd hs hnot
      | closed => simp [Breaker.exec, Breaker.recordSuccess, hs] at hstate
      | «open» => simp [Breaker.exec, Breaker.recordSuccess, hs] at hstate
    | recordFailure =>
      cases hs : s.breaker.state with
      | halfOpen => exact absurd hs hnot
      | closed =>
        simp only [Breaker.exec, Breaker.recordFailure, hs] at hstate
        split at hstate <;> simp at hstate
      | «open» =>
        simp only [Breaker.exec, Breaker.recordFailure, hs] at hstate
        split at hstate <;> simp at hstate
  · rw [(execOp_frame he).breaker fun q hq => hb ⟨q, hq⟩] at hstate
    exact Or.inl hstate

/-- A half-open circuit is closed by a success that is reported. -/
lemma closed_exec {e : Choice} {i : ℕ} {s s' : Shared P} {o : Op} {ans : o.Ans}
    (he : execOp cfg e i s o = some (ans, s')) (hhalf : s.breaker.state = .halfOpen)
    (hclosed : s'.breaker.state = .closed) : o = .breaker .recordSuccess := by
  by_cases hb : ∃ q, o = .breaker q
  · obtain ⟨q, rfl⟩ := hb
    obtain ⟨-, rfl⟩ := execOp_breaker.mp he
    cases q with
    | recordSuccess => rfl
    | load => simp [Breaker.exec, hhalf] at hclosed
    | probe =>
      simp only [Breaker.exec, Breaker.probe] at hclosed
      split at hclosed <;> simp [hhalf] at hclosed
    | recordFailure => simp [Breaker.exec, Breaker.recordFailure, hhalf] at hclosed
  · rw [(execOp_frame he).breaker fun q hq => hb ⟨q, hq⟩, hhalf] at hclosed
    cases hclosed

/-- While the circuit is half open, a step teaches nothing favourable. -/
lemma note_unfavourable {e : Choice} {i : ℕ} {s s' : Shared P} {g : Finding} {o : Op} {ans : o.Ans}
    (he : execOp cfg e i s o = some (ans, s')) (hop : probedOp P cfg s g o = true)
    (hresults : ∀ j o r, s.pool.oneshots j = some o → o.value = some r → resultBlames r = true)
    (hg : g.favourable = false) : (g.note ⟨o, ans⟩).favourable = false := by
  by_cases hinforms : o.informs = false
  · rw [g.note_of_not_informs hinforms]
    exact hg
  cases o with
  | cache q =>
    obtain ⟨p, hp, -⟩ := execOp_cache.mp he
    cases q with
    | enter label =>
      rcases CacheState.exec_enter hp with ⟨entry, hentry, hlive, -, -⟩ | ⟨k, l, -, -, rfl, -⟩ |
        ⟨k, -, rfl, -⟩ | ⟨-, rfl, -⟩
      · have hexpired : entry.expires ≤ s.now := by simpa [probedOp, hentry] using hop
        omega
      · exact hg
      · exact hg
      · exact hg
    | wait k =>
      rcases CacheState.exec_wait hp with ⟨⟨label, owner, outcome'⟩, outcome, hl, houtcome, rfl, -⟩ |
        ⟨label, -, rfl, -⟩
      · obtain rfl : outcome' = some outcome := houtcome
        cases outcome with
        | error err => exact hg
        | ok value => simp [probedOp, hl] at hop
      · exact hg
    | _ => exact absurd rfl hinforms
  | pool q =>
    obtain ⟨p, hp, -⟩ := execOp_pool.mp he
    cases q with
    | trySend request t =>
      cases ans with
      | ok j => exact hg
      | error refusal =>
        show (g.favourable || !request.looksUp) = false
        rw [hg]
        cases hlooks : request.looksUp with
        | true => rfl
        | false =>
          have hroom : s.pool.receivers ≠ 0 ∧
              (s.pool.parked ≠ [] ∨ s.pool.queue.length < cfg.pool.queueDepth) := by
            simpa [probedOp, hlooks] using hop
          obtain ⟨-, ⟨hnone, -, -⟩ | ⟨w, ws, -, -, heq, -⟩ | ⟨-, -, -, heq, -⟩ |
            ⟨-, hparked, hfull, -, -⟩⟩ := PoolState.exec_trySend hp
          · exact absurd hnone hroom.1
          · cases heq
          · cases heq
          · rcases hroom.2 with hroom | hroom
            · exact absurd hparked hroom
            · omega
    | awaitResult j d =>
      obtain ⟨⟨owner, value, sender, receiver⟩, ho, -, ⟨r, hvalue, rfl⟩ | ⟨hvalue, hsender, rfl⟩ |
        ⟨-, -, -, rfl⟩⟩ := PoolState.exec_awaitResult hp
      · show (g.favourable || !resultBlames r) = false
        rw [hg, hresults j _ r ho hvalue]
        rfl
      · obtain rfl : value = none := hvalue
        obtain rfl : sender = false := hsender
        show (g.favourable || !g.lookup) = false
        have hlookup : g.lookup = true := by simpa [probedOp, ho] using hop
        rw [hg, hlookup]
        rfl
      · exact hg
    | _ => exact absurd rfl hinforms
  | breaker q =>
    cases q with
    | recordSuccess => rfl
    | recordFailure => rfl
    | _ => exact absurd rfl hinforms
  | _ => exact absurd rfl hinforms

/-- What `nothingFavourable` says. -/
lemma untold_of_nothingFavourable (hdelivering : Delivering c) (h : nothingFavourable P c = true) :
    (∀ i t, c.threads i = some t → (finding t.hist).favourable = false) ∧
      ∀ j o r, c.shared.pool.oneshots j = some o → o.value = some r → resultBlames r = true := by
  obtain ⟨hthreads, hresults⟩ := (Bool.and_eq_true _ _).mp h
  constructor
  · intro i t ht
    have hi : i < c.spawned := by
      by_contra hi
      rw [hdelivering.recorded.fresh i (Nat.le_of_not_lt hi)] at ht
      cases ht
    simpa [ht] using List.all_eq_true.mp hthreads i (List.mem_range.mpr hi)
  · intro j o r ho hr
    have hj : j < c.shared.pool.nextJob := by
      obtain ⟨job, hjob, rfl, -⟩ :=
        hdelivering.inv.responded _ _ (hdelivering.inv.answered j o r ho hr)
      exact hdelivering.inv.jobs.id_lt (List.mem_append_right _ hjob)
    simpa [ho, hr] using List.all_eq_true.mp hresults j (List.mem_range.mpr hj)

/-- What is known in a run in which the token is dead while the circuit is half open. -/
structure Probed (c : Config Op.Ans (Shared P) Party ThreadResult) : Prop where
  delivering : Delivering c
  reporting : Reporting c
  untold : Untold c

/-- After the start the circuit is closed, and nothing is on its way to it. -/
lemma probed_started {t₀ : ℕ} {sessions : List SessionHandle} {token : P.token.State} :
    Probed (started P t₀ sessions token) where
  delivering := delivering_started
  reporting := outline_started (fun _ => iterate_finding P _ _) True.intro
  untold := ⟨(fun _ _ _ hstate => nomatch hstate), fun hstate => nomatch hstate⟩

/-- A step of a thread leaves nothing favourable on its way to a half-open circuit. -/
lemma Probed.exec (hc : Probed c) {i : ℕ} {e : Choice} {l : Party} {hist : List (Event Op.Ans)}
    {o : Op} {k : o.Ans → Prog Op.Ans ThreadResult} {ans : o.Ans} {s' : Shared P}
    (hprobed : ProbedStep P cfg c (.exec i e) = true)
    (ht : c.threads i = some ⟨l, hist, .call o k⟩)
    (he : execOp cfg e i c.shared o = some (ans, s')) (hstate : s'.breaker.state = .halfOpen) :
    (finding (hist ++ [⟨o, ans⟩])).favourable = false ∧
      (∀ j t, c.threads j = some t → (finding t.hist).favourable = false) ∧
      ∀ j o r, c.shared.pool.oneshots j = some o → o.value = some r → resultBlames r = true := by
  rw [finding_snoc]
  by_cases hhalf : c.shared.breaker.state = .halfOpen
  · have hop : probedOp P cfg c.shared (finding hist) o = true := by
      simpa [ProbedStep, ht, hhalf] using hprobed
    have hresults := hc.untold.results hhalf
    exact ⟨note_unfavourable he hop hresults (hc.untold.threads i _ ht hhalf),
      fun j t hj => hc.untold.threads j t hj hhalf, hresults⟩
  · rcases halfOpen_exec he hstate with h | ⟨rfl, hcool⟩
    · exact absurd h hhalf
    · have hnothing : nothingFavourable P c = true := by
        simpa [ProbedStep, ht, hhalf, hcool] using hprobed
      obtain ⟨hthreads, hresults⟩ := untold_of_nothingFavourable hc.delivering hnothing
      exact ⟨hthreads i _ ht, hthreads, hresults⟩

/-- A step in which jobs fail and probes are attributed keeps what is known of a dead token. -/
theorem probed_step (hc : Probed c) (hfail : JobsFail P c a = true)
    (hprobed : ProbedStep P cfg c a = true) (h : (pooledProxy P cfg).step c a = some c') :
    Probed c' := by
  refine ⟨delivering_step hc.delivering h, finding_sound.step hc.reporting True.intro h, ⟨?_, ?_⟩⟩
  · refine System.threads_step (K := fun (s : Shared P) _ h => s.breaker.state = .halfOpen →
      (finding h).favourable = false) hc.untold.threads (fun _ => rfl) ?_ ?_ ?_ ?_ h
    · rintro i e l hist o k ans s' rfl ht he hstate
      exact (hc.exec hprobed ht he hstate).1
    · rintro i e l hist o k ans s' rfl ht he j t - hj hstate
      exact (hc.exec hprobed ht he hstate).2.1 j t hj
    · rintro i l - j t - hj hstate
      refine hc.untold.threads j t hj ?_
      cases l <;> exact hstate
    · rintro v s' - hv j t hj hstate
      obtain rfl := Option.some.inj hv
      refine hc.untold.threads j t hj ?_
      cases v <;> exact hstate
  · intro hstate j o' r ho' hr
    rcases System.step_cases h with ⟨l, -, -, rfl⟩ | ⟨i, e, l, hist, o, k, ans, s', rfl, ht, he, rfl⟩ |
      ⟨i, l, hist, r', p, -, ht, -, rfl⟩ | ⟨i, l, hist, o, k, rfl, ht, -, rfl⟩ | ⟨v, s', -, hv, rfl⟩
    · exact hc.untold.results hstate j o' r ho' hr
    · have he : execOp cfg e i c.shared o = some (ans, s') := he
      have hresults := (hc.exec hprobed ht he hstate).2.2
      by_cases hpool : ∃ q, o = .pool q
      · obtain ⟨q, rfl⟩ := hpool
        obtain ⟨p, hp, rfl⟩ := execOp_pool.mp he
        rcases PoolState.oneshot_exec hp ho' hr with ⟨o, ho, hr⟩ | rfl
        · exact hresults j o r ho hr
        · have hhalf : c.shared.breaker.state = .halfOpen := hstate
          simpa [JobsFail, System.nextOp_eq ht, hhalf] using hfail
      · have hframe : s'.pool = c.shared.pool := (execOp_frame he).pool fun q hq => hpool ⟨q, hq⟩
        refine hresults j o' r ?_ hr
        rw [← hframe]
        exact ho'
    · exact hc.untold.results hstate j o' r ho' hr
    · obtain ⟨o, ho, hr⟩ := oneshot_release ho' hr
      have hhalf : c.shared.breaker.state = .halfOpen := by cases l <;> exact hstate
      exact hc.untold.results hhalf j o r ho hr
    · obtain rfl := Option.some.inj hv
      cases v <;> exact hc.untold.results hstate j o' r ho' hr

/-- The step reports a success to a half-open circuit, or closes it. -/
def Recovers (cfg : ServiceConfig) (c : Config Op.Ans (Shared P) Party ThreadResult)
    (a : Action Choice (EnvAction P) Party) : Prop :=
  c.shared.breaker.state = .halfOpen ∧
    ((∃ i e, a = .exec i e ∧ c.nextOp i = some (.breaker .recordSuccess)) ∨
      ∃ c', (pooledProxy P cfg).step c a = some c' ∧ c'.shared.breaker.state = .closed)

/-- Then no success is reported to a half-open circuit. -/
lemma Probed.not_recovers (hc : Probed c) : ¬Recovers cfg c a := by
  rintro ⟨hhalf, hrecovers⟩
  have hreports : ∀ i, c.nextOp i ≠ some (.breaker .recordSuccess) := by
    intro i hnext
    obtain ⟨l, hist, k, ht⟩ := System.exists_thread hnext
    have hfavourable : (finding hist).favourable = true := (hc.reporting.threads i _ ht).1
    rw [hc.untold.threads i _ ht hhalf] at hfavourable
    cases hfavourable
  rcases hrecovers with ⟨i, e, -, hnext⟩ | ⟨c', h, hclosed⟩
  · exact hreports i hnext
  · have hkept : ∀ s' : Shared P, s'.breaker = c.shared.breaker → s'.breaker.state ≠ .closed := by
      intro s' heq hs'
      rw [heq, hhalf] at hs'
      cases hs'
    rcases System.step_cases h with ⟨l, -, -, rfl⟩ | ⟨i, e, l, hist, o, k, ans, s', rfl, ht, he, rfl⟩ |
      ⟨i, l, hist, r, p, -, ht, -, rfl⟩ | ⟨i, l, hist, o, k, rfl, ht, -, rfl⟩ | ⟨v, s', -, hv, rfl⟩
    · exact hkept _ rfl hclosed
    · obtain rfl := closed_exec he hhalf hclosed
      exact hreports i (System.nextOp_eq ht)
    · exact hkept _ rfl hclosed
    · cases l <;> exact hkept _ rfl hclosed
    · obtain rfl := Option.some.inj hv
      cases v <;> exact hkept _ rfl hclosed

/-- In every run of the pooled service in which jobs answered while the circuit is half open fail in
the token or in the worker, and nothing favourable is learned otherwise, no success is reported to
the half-open circuit and no step closes it. -/
theorem dead_token_not_recovered {t₀ : ℕ} {sessions : List SessionHandle} {token : P.token.State}
    {as : List (Action Choice (EnvAction P) Party)}
    (hfail : (pooledProxy P cfg).Throughout (fun c a => JobsFail P c a) (started P t₀ sessions token)
      as)
    (hprobed : (pooledProxy P cfg).Throughout (fun c a => ProbedStep P cfg c a)
      (started P t₀ sessions token) as) :
    (pooledProxy P cfg).Throughout (fun c a => ¬Recovers cfg c a) (started P t₀ sessions token)
      as := by
  have hthrough := (hfail.and hprobed).and_kept
    (fun _ _ _ hc ha h => probed_step hc ha.1 ha.2 h) probed_started
  exact hthrough.mono fun _ _ h => h.2.not_recovers

end

/-- A service that keeps keys longer than the cooldown of its breaker. -/
def ServiceConfig.keepingKeys : ServiceConfig :=
  { ServiceConfig.plain 1 1 with
    breaker := ⟨1 / 2, 1, 100, 10, 1⟩
    cache := ⟨100, 100⟩ }

/-- A token that has failed. -/
abbrev Choice.dead : Choice := .failing (.pkcs11 .deviceError)

/-- The results with which jobs were answered while the circuit was half open. -/
def answersWhileHalfOpen {P : Platform} (tr : List (Entry Op.Ans (Shared P) Party)) :
    List JobResult :=
  tr.filterMap fun en =>
    match en.before.breaker.state, en.event.1 with
    | .halfOpen, .pool (.respond _ r) => some r
    | _, _ => none

/-- A signature fails and opens the circuit, and so does the next one after the cooldown. -/
def failedProbe : List (Action Choice (EnvAction anyPlatform) Party) :=
  [.exec 0 .success, .spawn (.rpc signCall)] ++ execs 1 5 .success ++ execs 0 4 .success ++
    execs 0 9 .dead ++ execs 1 2 .success ++
    [.again 0, .exec 0 .dead, .env (.tick 10), .spawn (.rpc signCall)] ++ execs 2 6 .success ++
    execs 0 4 .success ++ execs 0 9 .dead ++ execs 2 2 .success

/-- No step of that run closes the half-open circuit. -/
theorem dead_token_not_recovered_failed_probe :
    (pooledProxy anyPlatform .keepingKeys).Throughout
      (fun c a => ¬Recovers ServiceConfig.keepingKeys c a) (started _ 0 [7] ()) failedProbe ∧
    ((pooledProxy anyPlatform .keepingKeys).run (started _ 0 [7] ()) failedProbe).map
      (fun c => (answersWhileHalfOpen c.trace, c.shared.breaker.state)) =
      some ([.error (.hsm "C_Sign" (.pkcs11 .deviceError))], .open) := by
  have hfail : (pooledProxy anyPlatform .keepingKeys).Throughout
      (fun c a => JobsFail anyPlatform c a) (started _ 0 [7] ()) failedProbe := by
    decide +kernel
  have hprobed : (pooledProxy anyPlatform .keepingKeys).Throughout
      (fun c a => ProbedStep anyPlatform .keepingKeys c a) (started _ 0 [7] ()) failedProbe := by
    decide +kernel
  refine ⟨dead_token_not_recovered hfail hprobed, ?_⟩
  decide +kernel

/-- A key is looked up and cached.  A signature fails and opens the circuit.  After the cooldown a
lookup of the same key probes; another signature fails; and the lookup finds its key. -/
def cachedKeyProbe : List (Action Choice (EnvAction anyPlatform) Party) :=
  [.exec 0 .success, .spawn (.rpc lookupCall)] ++ execs 1 7 .success ++ execs 0 11 .success ++
    execs 1 4 .success ++ [.again 0, .exec 0 .success, .spawn (.rpc signCall)] ++
    execs 2 5 .success ++ execs 0 4 .success ++ execs 0 9 .dead ++ execs 2 2 .success ++
    [.again 0, .exec 0 .dead, .env (.tick 10), .spawn (.rpc lookupCall)] ++ execs 3 2 .success ++
    [.spawn (.rpc signCall)] ++ execs 4 5 .success ++ execs 0 4 .success ++ execs 0 9 .dead ++
    execs 3 3 .success

/-- The only job that is answered while the circuit is half open fails, and the next step of the
lookup closes the circuit. -/
theorem recovered_by_cached_key :
    (pooledProxy anyPlatform .keepingKeys).Throughout (fun c a => JobsFail anyPlatform c a)
      (started _ 0 [7] ()) (cachedKeyProbe ++ [.exec 3 .success]) ∧
    ((pooledProxy anyPlatform .keepingKeys).run (started _ 0 [7] ()) cachedKeyProbe).map
      (fun c => (answersWhileHalfOpen c.trace, c.shared.breaker.state)) =
      some ([.error (.hsm "C_Sign" (.pkcs11 .deviceError))], .halfOpen) ∧
    ((pooledProxy anyPlatform .keepingKeys).run (started _ 0 [7] ())
      (cachedKeyProbe ++ [.exec 3 .success])).map (fun c => c.shared.breaker.state) =
      some .closed := by
  refine ⟨?_, ?_, ?_⟩
  · decide +kernel
  · decide +kernel
  · decide +kernel

end HsmProxy
