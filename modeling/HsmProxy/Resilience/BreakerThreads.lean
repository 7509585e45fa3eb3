import HsmProxy.Interleaving.System
import HsmProxy.Resilience.BreakerCalls

/-!
# The circuit breaker under concurrent callers

`allow` is two atomic steps: the state is read without the lock, and only when `open` was read the
critical section runs.  Between the two, other threads may do anything.  A run is an interleaving
of any number of callers with a clock that never goes back.

* `legal_iff`: the stored state changes along the four intended edges exactly as long as no caller
  that read `open` earlier enters its critical section after the circuit has moved on.
* `probing_bounded_iff`: nothing bounds the callers let through while the circuit is half-open, so
  only a configuration under which the circuit can never open has a bound.
* `attributed_iff`: an outcome counts for the half-open period it is reported in, so probes are
  attributed correctly exactly as long as no older request reports then.
-/

namespace HsmProxy

open Interleaving

/-- `allow` as its two atomic steps. -/
def allowSteps : Prog BreakerOp.Ans Bool := do
  match ← Prog.op BreakerOp.load with
  | .closed => return true
  | .halfOpen => return true
  | .open => Prog.op BreakerOp.probe

/-- A call as a program. -/
def BreakerCall.steps : BreakerCall → Prog BreakerOp.Ans Unit
  | .allow => (fun _ => ()) <$> allowSteps
  | .recordSuccess => Prog.op BreakerOp.recordSuccess
  | .recordFailure => Prog.op BreakerOp.recordFailure

/-- A caller that makes a list of calls. -/
def script : List BreakerCall → Prog BreakerOp.Ans Unit
  | [] => return ()
  | c :: cs => do
    c.steps
    script cs

/-- A request: if it is admitted, it reports its outcome. -/
def request (succeeds : Bool) : Prog BreakerOp.Ans Unit := do
  if ← allowSteps then
    if succeeds then Prog.op BreakerOp.recordSuccess else Prog.op BreakerOp.recordFailure

/-- The breaker with the clock its callers read. -/
structure Clocked where
  now : ℕ
  breaker : Breaker
  deriving DecidableEq, Repr

/-- Any number of callers on one breaker, at non-decreasing times. -/
def breakerSystem (cfg : BreakerConfig) {L : Type} (body : L → Prog BreakerOp.Ans Unit) :
    System BreakerOp.Ans Clocked Unit ℕ L Unit where
  body := body
  again _ _ := none
  spawnable _ := true
  exec _ _ s o :=
    some ((s.breaker.exec cfg s.now o).1, { s with breaker := (s.breaker.exec cfg s.now o).2 })
  droppable _ _ := true
  cancel _ _ s := s
  env d s := some { s with now := s.now + d }

/-- A breaker created at time `t₀`, without callers. -/
def freshBreaker (t₀ : ℕ) {L : Type} : Config BreakerOp.Ans Clocked L Unit :=
  Config.initial ⟨t₀, Breaker.new t₀⟩

section

variable (cfg : BreakerConfig) {L : Type} {body : L → Prog BreakerOp.Ans Unit}

/-- What a step of the system does to the breaker: an operation of one caller, or nothing. -/
lemma breakerSystem_step {c c' : Config BreakerOp.Ans Clocked L Unit} {a : Action Unit ℕ L}
    (h : (breakerSystem cfg body).step c a = some c') :
    (∃ i l hist o k, a = .exec i () ∧ c.threads i = some ⟨l, hist, .call o k⟩ ∧
      c'.shared.breaker = (c.shared.breaker.exec cfg c.shared.now o).2 ∧
      c'.trace = c.trace ++
        [⟨i, l, hist, c.shared, ⟨o, (c.shared.breaker.exec cfg c.shared.now o).1⟩⟩]) ∨
    (c.opOf a = none ∧ c'.shared.breaker = c.shared.breaker ∧ c'.trace = c.trace) := by
  rcases System.step_cases h with ⟨l, rfl, -, rfl⟩ |
    ⟨i, e, l, hist, o, k, ans, s', rfl, ht, he, rfl⟩ | ⟨i, l, hist, r, p, rfl, -, -, rfl⟩ |
    ⟨i, l, hist, o, k, rfl, -, -, rfl⟩ | ⟨v, s', rfl, hv, rfl⟩
  · exact Or.inr ⟨rfl, rfl, rfl⟩
  · cases he
    exact Or.inl ⟨i, l, hist, o, k, rfl, ht, rfl, rfl⟩
  · exact Or.inr ⟨rfl, rfl, rfl⟩
  · exact Or.inr ⟨rfl, rfl, rfl⟩
  · cases hv
    exact Or.inr ⟨rfl, rfl, rfl⟩

/-- A caller with a next operation can always execute it. -/
lemma breakerSystem_exec (body : L → Prog BreakerOp.Ans Unit)
    {c : Config BreakerOp.Ans Clocked L Unit} {i : ℕ} {l : L} {hist : List (Event BreakerOp.Ans)}
    {o : BreakerOp} {k : o.Ans → Prog BreakerOp.Ans Unit}
    (ht : c.threads i = some ⟨l, hist, .call o k⟩) :
    ∃ c', (breakerSystem cfg body).step c (.exec i ()) = some c' ∧
      c'.shared.breaker = (c.shared.breaker.exec cfg c.shared.now o).2 ∧
      c'.trace = c.trace ++
        [⟨i, l, hist, c.shared, ⟨o, (c.shared.breaker.exec cfg c.shared.now o).1⟩⟩] :=
  ⟨_, System.step_exec ht rfl, rfl, rfl⟩

/-- A caller that has executed an operation goes on with the answer of the breaker. -/
lemma breakerSystem_reaches (body : L → Prog BreakerOp.Ans Unit)
    {c : Config BreakerOp.Ans Clocked L Unit} {i : ℕ} {l : L} {hist : List (Event BreakerOp.Ans)}
    {o : BreakerOp} {k : o.Ans → Prog BreakerOp.Ans Unit}
    (ht : c.threads i = some ⟨l, hist, .call o k⟩) :
    ∃ c' hist', (breakerSystem cfg body).Reaches c c' ∧
      c'.threads i = some ⟨l, hist', k (c.shared.breaker.exec cfg c.shared.now o).1⟩ ∧
      c'.shared = { c.shared with breaker := (c.shared.breaker.exec cfg c.shared.now o).2 } := by
  have hexec : (breakerSystem cfg body).exec () i c.shared o =
      some ((c.shared.breaker.exec cfg c.shared.now o).1,
        { c.shared with breaker := (c.shared.breaker.exec cfg c.shared.now o).2 }) := rfl
  obtain ⟨c', hreach, ht', -, hshared⟩ := System.exists_exec ht hexec
  exact ⟨c', _, hreach, ht', hshared⟩

/-! ## The edges of the state machine -/

/-- The four intended transitions, and staying put. -/
def Edge : BreakerState → BreakerState → Prop
  | .closed, .open | .open, .halfOpen | .halfOpen, .closed | .halfOpen, .open => True
  | s, s' => s = s'

/-- A change of the breaker by an operation goes along an edge; it leaves `closed` only by a failure
that meets both thresholds; it never sets a probe count in progress back to zero. -/
structure LegalChange (s : Clocked) (o : Option BreakerOp) (b' : Breaker) : Prop where
  edge : Edge s.breaker.state b'.state
  leavesClosed : s.breaker.state = .closed → b'.state ≠ .closed → o = some .recordFailure ∧
    Breaker.tripsAt cfg (Breaker.countFailure cfg s.now s.breaker.window) = true
  keepsProbes : s.breaker.state = .halfOpen → b'.state = .halfOpen →
    s.breaker.window.probeSuccesses ≠ 0 → b'.window.probeSuccesses ≠ 0

/-- The critical section of `allow`, entered after the cooldown, finds the circuit still open, or
half-open with no probe counted yet. -/
def FreshProbe (s : Clocked) (o : Option BreakerOp) : Prop :=
  o = some .probe → Breaker.cooledDown cfg s.now s.breaker.window = true →
    s.breaker.state = .open ∨
      (s.breaker.state = .halfOpen ∧ s.breaker.window.probeSuccesses = 0)

/-- A change that keeps the state and the probe count is legal. -/
lemma LegalChange.same {s : Clocked} {o : Option BreakerOp} {b' : Breaker}
    (hs : b'.state = s.breaker.state)
    (hp : b'.window.probeSuccesses = s.breaker.window.probeSuccesses) : LegalChange cfg s o b' := by
  refine ⟨?_, fun h h' => absurd (hs.trans h) h', fun _ _ h => by rwa [hp]⟩
  rw [hs]
  cases s.breaker.state <;> exact rfl

/-- Rolling the window keeps the probe count. -/
@[simp] lemma Breaker.rollIfStale_probeSuccesses (now : ℕ) (w : Window) :
    (Breaker.rollIfStale cfg now w).probeSuccesses = w.probeSuccesses := by
  unfold Breaker.rollIfStale Breaker.resetWindow
  split <;> rfl

/-- Reporting an outcome is always legal. -/
lemma legalChange_call (s : Clocked) {c : BreakerCall} {o : BreakerOp} (hc : c ≠ .allow)
    (ho : c = .recordFailure → o = .recordFailure) :
    LegalChange cfg s (some o) (s.breaker.call cfg s.now c) := by
  have hstep := Breaker.step_call cfg s.now s.breaker c
  generalize s.breaker.call cfg s.now c = b' at hstep ⊢
  cases hstep with
  | pass _ | probe _ _ | reject _ _ => exact absurd rfl hc
  | close h _ =>
    refine ⟨by rw [h]; trivial, fun hcl => ?_, fun _ hh => by cases hh⟩
    rw [h] at hcl
    cases hcl
  | probed h _ =>
    refine ⟨by rw [h]; rfl, fun hcl => ?_, fun _ _ _ => Nat.succ_ne_zero _⟩
    rw [h] at hcl
    cases hcl
  | success _ => exact LegalChange.same cfg rfl (by simp [Breaker.countSuccess])
  | reopen h =>
    refine ⟨by rw [h]; trivial, fun hcl => ?_, fun _ hh => by cases hh⟩
    rw [h] at hcl
    cases hcl
  | trip h ht =>
    refine ⟨?_, fun _ _ => ⟨congrArg some (ho rfl), ht⟩, fun hh => absurd hh h⟩
    cases hs : s.breaker.state with
    | closed => trivial
    | «open» => rfl
    | halfOpen => exact absurd hs h
  | failure _ _ => exact LegalChange.same cfg rfl (by simp [Breaker.countFailure])

/-- The critical section of `allow` is legal exactly when the circuit has not moved on. -/
lemma legalChange_probe (s : Clocked) :
    LegalChange cfg s (some .probe) (Breaker.probe cfg s.now s.breaker).2 ↔
      FreshProbe cfg s (some .probe) := by
  unfold FreshProbe Breaker.probe
  cases hcool : Breaker.cooledDown cfg s.now s.breaker.window with
  | false =>
    simp only [Bool.false_eq_true, if_false, false_implies, implies_true, iff_true]
    exact LegalChange.same cfg rfl rfl
  | true =>
    simp only [if_true, forall_const]
    constructor
    · intro h
      cases hs : s.breaker.state with
      | closed =>
        have hedge := h.edge
        rw [hs] at hedge
        cases hedge
      | «open» => exact Or.inl rfl
      | halfOpen =>
        refine Or.inr ⟨rfl, ?_⟩
        by_contra hp
        exact h.keepsProbes hs rfl hp rfl
    · rintro (h | ⟨h, hp⟩)
      · refine ⟨by rw [h]; trivial, fun hcl => ?_, fun hh => ?_⟩
        · rw [h] at hcl
          cases hcl
        · rw [h] at hh
          cases hh
      · refine ⟨by rw [h]; rfl, fun hcl => ?_, fun _ _ hne => absurd hp hne⟩
        rw [h] at hcl
        cases hcl

/-- An atomic operation is legal exactly when it is not a critical section of `allow` entered after
the circuit has moved on. -/
lemma legalChange_exec (s : Clocked) (o : BreakerOp) :
    LegalChange cfg s (some o) (s.breaker.exec cfg s.now o).2 ↔ FreshProbe cfg s (some o) := by
  cases o with
  | load => exact iff_of_true (LegalChange.same cfg rfl rfl) (fun h => by cases h)
  | probe => exact legalChange_probe cfg s
  | recordSuccess =>
    exact iff_of_true (legalChange_call cfg s (c := .recordSuccess) (by simp) (by simp))
      (fun h => by cases h)
  | recordFailure =>
    exact iff_of_true (legalChange_call cfg s (c := .recordFailure) (by simp) (by simp))
      (fun h => by cases h)

/-- Whatever the callers do and however they are interleaved, the breaker changes legally exactly
as long as every critical section of `allow` that is entered after the cooldown finds the circuit
still open, or half-open with no probe counted yet. -/
theorem legal_iff (t₀ : ℕ) (acts : List (Action Unit ℕ (List BreakerCall))) :
    (breakerSystem cfg script).Throughout
        (fun c a => ∀ c', (breakerSystem cfg script).step c a = some c' →
          LegalChange cfg c.shared (c.opOf a) c'.shared.breaker) (freshBreaker t₀) acts ↔
      (breakerSystem cfg script).Throughout (fun c a => FreshProbe cfg c.shared (c.opOf a))
        (freshBreaker t₀) acts := by
  refine System.throughout_congr (I := fun _ => True) (fun c a _ => ?_)
    (fun _ _ _ _ _ _ => trivial) trivial
  constructor
  · intro h ho
    -- Only an execution step has an operation, and a breaker operation is never blocked.
    cases a with
    | exec i e =>
      obtain ⟨l, hist, k, ht⟩ := System.exists_thread ho
      obtain ⟨c', hc', hb, -⟩ := breakerSystem_exec cfg script ht
      have hlegal := h c' hc'
      rw [hb] at hlegal
      have hop : c.opOf (Action.exec i e : Action Unit ℕ (List BreakerCall)) = some .probe := ho
      rw [hop] at hlegal
      exact (legalChange_exec cfg c.shared .probe).mp hlegal rfl
    | spawn _ | again _ | cancel _ | env _ => cases ho
  · intro h c' hc'
    rcases breakerSystem_step cfg hc' with ⟨i, l, hist, o, k, rfl, ht, hb, -⟩ | ⟨-, hb, -⟩
    · have hop : c.opOf (Action.exec i () : Action Unit ℕ (List BreakerCall)) = some o :=
        System.nextOp_eq ht
      rw [hop] at h ⊢
      rw [hb]
      exact (legalChange_exec cfg c.shared o).mpr h
    · exact LegalChange.same cfg (by rw [hb]) (by rw [hb])

end

/-- A breaker that trips on one failure, cools down for 10 and closes after one probe. -/
def touchyConfig : BreakerConfig := ⟨1 / 2, 1, 100, 10, 1⟩

/-- One caller trips the breaker, a second one reads `open` and pauses, a third one probes after the
cooldown and closes the circuit. -/
def stalledProbe : List (Action Unit ℕ (List BreakerCall)) :=
  [.spawn [.recordFailure], .exec 0 (), .spawn [.allow], .exec 1 (), .env 10,
    .spawn [.allow, .recordSuccess], .exec 2 (), .exec 2 (), .exec 2 ()]

/-- When the second caller goes on, it moves the closed circuit to `halfOpen`. -/
theorem closed_to_halfOpen_stalled_probe :
    ((breakerSystem touchyConfig script).run (freshBreaker 0) stalledProbe).map
      (fun c => c.shared.breaker.state) = some .closed ∧
    ((breakerSystem touchyConfig script).run (freshBreaker 0)
      (stalledProbe ++ [.exec 1 ()])).map (fun c => c.shared.breaker.state) = some .halfOpen ∧
    ¬ Edge .closed .halfOpen := by
  refine ⟨by decide +kernel, by decide +kernel, ?_⟩
  intro h
  cases h

/-! ## Probes of one half-open period -/

section

variable (cfg : BreakerConfig)

/-- How an executed operation changes the list of requests that were admitted in the current
half-open period and have not reported yet. -/
def probingStep (ps : List ℕ) (en : Entry BreakerOp.Ans Clocked Bool) : List ℕ :=
  if (en.before.breaker.exec cfg en.before.now en.event.1).2.state ≠ .halfOpen then []
  else if en.before.breaker.state ≠ .halfOpen then [en.tid]
  else
    match en.event with
    | ⟨.load, _⟩ => ps ++ [en.tid]
    | ⟨.probe, true⟩ => ps ++ [en.tid]
    | ⟨.probe, false⟩ => ps
    | ⟨.recordSuccess, _⟩ => ps.erase en.tid
    | ⟨.recordFailure, _⟩ => ps.erase en.tid

/-- The requests admitted in the current half-open period that have not reported yet. -/
def probing (tr : List (Entry BreakerOp.Ans Clocked Bool)) : List ℕ :=
  tr.foldl (probingStep cfg) []

@[simp] lemma probing_nil : probing cfg [] = [] := rfl

@[simp] lemma probing_snoc (tr : List (Entry BreakerOp.Ans Clocked Bool))
    (en : Entry BreakerOp.Ans Clocked Bool) :
    probing cfg (tr ++ [en]) = probingStep cfg (probing cfg tr) en := by
  simp [probing, List.foldl_append]

/-- Letting a request through while the circuit is half-open adds one unreported probe. -/
lemma probingStep_admits (ps : List ℕ) (i : ℕ) (l : Bool) (hist : List (Event BreakerOp.Ans))
    (s : Clocked) (o : BreakerOp) (hs : s.breaker.state = .halfOpen)
    (ho : o = .load ∨ (o = .probe ∧ Breaker.cooledDown cfg s.now s.breaker.window = true)) :
    probingStep cfg ps ⟨i, l, hist, s, ⟨o, (s.breaker.exec cfg s.now o).1⟩⟩ = ps ++ [i] := by
  rcases ho with rfl | ⟨rfl, hcool⟩
  · simp [probingStep, Breaker.exec, hs]
  · simp [probingStep, Breaker.exec, Breaker.probe, hs, hcool]

/-! ### Configurations under which the circuit cannot open -/

/-- Can outcomes open the circuit?  A window of no length is rolled before every outcome, so it never
holds more than one. -/
def BreakerConfig.CanTrip : Prop :=
  cfg.failureRatio ≤ 1 ∧ (0 < cfg.window ∨ cfg.minimumRequests ≤ 1)

variable {cfg}

/-- No share of failures exceeds one. -/
lemma failures_div_le_one (w : Window) :
    (w.failures : ℚ) / ((w.successes + w.failures : ℕ) : ℚ) ≤ 1 := by
  have hle : (w.failures : ℚ) ≤ ((w.successes + w.failures : ℕ) : ℚ) := by
    exact_mod_cast Nat.le_add_left w.failures w.successes
  exact div_le_one_of_le₀ hle (Nat.cast_nonneg _)

/-- Then no failure meets both thresholds. -/
lemma not_tripsAt (hcan : ¬ cfg.CanTrip) (now : ℕ) (w : Window) :
    Breaker.tripsAt cfg (Breaker.countFailure cfg now w) = false := by
  by_contra htrips
  rw [Bool.not_eq_false, Breaker.tripsAt, Bool.and_eq_true, decide_eq_true_eq, decide_eq_true_eq]
    at htrips
  obtain ⟨hmin, hratio⟩ := htrips
  have hone : cfg.failureRatio ≤ 1 := hratio.trans (failures_div_le_one _)
  refine hcan ⟨hone, or_iff_not_imp_left.mpr fun hwindow => ?_⟩
  have hroll : Breaker.rollIfStale cfg now w = Breaker.resetWindow now w :=
    if_pos ((Nat.eq_zero_of_not_pos hwindow).trans_le (Nat.zero_le _))
  simpa [Breaker.countFailure, hroll, Breaker.resetWindow] using hmin

/-- The circuit is closed and was never open. -/
def Breaker.NeverOpened (b : Breaker) : Prop := b.state = .closed ∧ b.window.openedAt = none

/-- Then it stays closed. -/
lemma Breaker.NeverOpened.exec (hcan : ¬ cfg.CanTrip) {b : Breaker} (hb : b.NeverOpened) (now : ℕ)
    (o : BreakerOp) : (b.exec cfg now o).2.NeverOpened := by
  obtain ⟨hclosed, hnone⟩ := hb
  have hne : b.state ≠ .halfOpen := by
    rw [hclosed]
    exact BreakerState.noConfusion
  cases o with
  | load => exact ⟨hclosed, hnone⟩
  | probe =>
    have hcool : Breaker.cooledDown cfg now b.window = false := by
      simp [Breaker.cooledDown, hnone]
    simp only [Breaker.exec, Breaker.probe, hcool]
    exact ⟨hclosed, hnone⟩
  | recordSuccess =>
    show (b.recordSuccess cfg now).NeverOpened
    rw [Breaker.recordSuccess_of_ne cfg hne]
    refine ⟨hclosed, ?_⟩
    simpa [Breaker.countSuccess] using hnone
  | recordFailure =>
    show (b.recordFailure cfg now).NeverOpened
    rw [Breaker.recordFailure_of_ne cfg hne, not_tripsAt hcan]
    refine ⟨hclosed, ?_⟩
    simpa [Breaker.countFailure] using hnone

/-- Under a configuration that cannot trip, nobody is ever let through by a half-open circuit. -/
lemma probing_eq_nil (hcan : ¬ cfg.CanTrip) {t₀ : ℕ} {acts : List (Action Unit ℕ Bool)}
    {c : Config BreakerOp.Ans Clocked Bool Unit}
    (hrun : (breakerSystem cfg request).run (freshBreaker t₀) acts = some c) :
    probing cfg c.trace = [] := by
  refine (System.run_invariant (I := fun c => probing cfg c.trace = [] ∧
    c.shared.breaker.NeverOpened) (fun c a c' hc _ hstep => ?_) ⟨rfl, rfl, rfl⟩
    (System.throughout_true _ acts) hrun).1
  obtain ⟨hprobing, hb⟩ := hc
  rcases breakerSystem_step cfg hstep with ⟨i, l, hist, o, k, -, -, hb', htr⟩ | ⟨-, hb', htr⟩
  · have hkept := hb.exec hcan c.shared.now o
    have hne : (c.shared.breaker.exec cfg c.shared.now o).2.state ≠ .halfOpen := by
      rw [hkept.1]
      exact BreakerState.noConfusion
    refine ⟨?_, hb' ▸ hkept⟩
    rw [htr, probing_snoc, probingStep, if_pos hne]
  · exact ⟨by rw [htr, hprobing], hb' ▸ hb⟩

/-! ### Configurations under which it can -/

/-- A request that finds the circuit closed is let through, and its failure is recorded. -/
lemma exists_failing_request (cfg : BreakerConfig) {c : Config BreakerOp.Ans Clocked Bool Unit}
    (hs : c.shared.breaker.state = .closed) :
    ∃ c', (breakerSystem cfg request).Reaches c c' ∧ c'.shared =
      { c.shared with breaker := c.shared.breaker.recordFailure cfg c.shared.now } := by
  obtain ⟨c₁, hspawn, hshared₁, ht₁⟩ :
      ∃ c₁, (breakerSystem cfg request).step c (.spawn false) = some c₁ ∧ c₁.shared = c.shared ∧
        c₁.threads c.spawned = some ⟨false, [], request false⟩ :=
    ⟨_, rfl, rfl, by simp [breakerSystem]⟩
  -- it reads `closed`
  obtain ⟨c₂, hist₂, hreach₂, ht₂, hshared₂⟩ := breakerSystem_reaches cfg request ht₁
  rw [hshared₁] at ht₂ hshared₂
  have hread : (c.shared.breaker.exec cfg c.shared.now .load).1 = .closed := hs
  rw [hread] at ht₂
  -- and reports its failure
  obtain ⟨c₃, -, hreach₃, -, hshared₃⟩ :=
    breakerSystem_reaches cfg request (o := .recordFailure) ht₂
  rw [hshared₂] at hshared₃
  exact ⟨c₃, ((System.Reaches.of_step hspawn).trans hreach₂).trans hreach₃, hshared₃⟩

/-- The circuit is closed, and `n` failures and nothing else have been counted at this moment. -/
structure Failing (s : Clocked) (n : ℕ) : Prop where
  closed : s.breaker.state = .closed
  started : s.breaker.window.started = s.now
  successes : s.breaker.window.successes = 0
  failures : s.breaker.window.failures = n

/-- One more failure: the circuit opens, or the failure is counted. -/
lemma Failing.recordFailure {s : Clocked} {n : ℕ} (hs : Failing s n) (hwindow : 0 < cfg.window)
    (hratio : cfg.failureRatio ≤ 1) :
    let b := s.breaker.recordFailure cfg s.now
    (b.state = .open ∧ b.window.openedAt = some s.now) ∨
      (Failing { s with breaker := b } (n + 1) ∧ n + 1 < cfg.minimumRequests) := by
  have hne : s.breaker.state ≠ .halfOpen := by
    rw [hs.closed]
    exact BreakerState.noConfusion
  have hroll : Breaker.rollIfStale cfg s.now s.breaker.window = s.breaker.window := by
    refine if_neg ?_
    rw [hs.started, Nat.sub_self]
    exact Nat.not_le_of_lt hwindow
  dsimp only
  rw [Breaker.recordFailure_of_ne cfg hne]
  split
  · exact Or.inl ⟨rfl, rfl⟩
  · rename_i htrips
    refine Or.inr ⟨⟨hs.closed, ?_, ?_, ?_⟩, ?_⟩
    · simpa [Breaker.countFailure, hroll] using hs.started
    · simpa [Breaker.countFailure, hroll] using hs.successes
    · simpa [Breaker.countFailure, hroll] using hs.failures
    · -- all outcomes are failures, so it is their number that does not suffice
      by_contra hmin
      refine htrips ?_
      have hpos : (n : ℚ) + 1 ≠ 0 := Nat.cast_add_one_ne_zero n
      simpa [Breaker.tripsAt, Breaker.countFailure, hroll, hs.successes, hs.failures, div_self hpos,
        hratio] using Nat.le_of_not_lt hmin

/-- Enough failures open the circuit. -/
lemma exists_open_of_failing (hwindow : 0 < cfg.window) (hratio : cfg.failureRatio ≤ 1) (k : ℕ) :
    ∀ {n : ℕ} {c : Config BreakerOp.Ans Clocked Bool Unit}, Failing c.shared n →
      cfg.minimumRequests ≤ n + k + 1 →
      ∃ c' t, (breakerSystem cfg request).Reaches c c' ∧ c'.shared.breaker.state = .open ∧
        c'.shared.breaker.window.openedAt = some t := by
  induction k with
  | zero =>
    intro n c hc hmin
    obtain ⟨c', hreach, hshared⟩ := exists_failing_request cfg hc.closed
    rcases hc.recordFailure hwindow hratio with ⟨hopen, hat⟩ | ⟨-, hlt⟩
    · exact ⟨c', _, hreach, by rw [hshared]; exact hopen, by rw [hshared]; exact hat⟩
    · omega
  | succ k ih =>
    intro n c hc hmin
    obtain ⟨c', hreach, hshared⟩ := exists_failing_request cfg hc.closed
    rcases hc.recordFailure hwindow hratio with ⟨hopen, hat⟩ | ⟨hmore, -⟩
    · exact ⟨c', _, hreach, by rw [hshared]; exact hopen, by rw [hshared]; exact hat⟩
    · obtain ⟨c'', t, hreach', hopen⟩ := ih (hshared ▸ hmore) (by omega)
      exact ⟨c'', t, hreach.trans hreach', hopen⟩

/-- The circuit of a new breaker can be brought to open. -/
lemma exists_open (hcan : cfg.CanTrip) (t₀ : ℕ) :
    ∃ c t, (breakerSystem cfg request).Reaches (freshBreaker t₀) c ∧
      c.shared.breaker.state = .open ∧ c.shared.breaker.window.openedAt = some t := by
  obtain ⟨hratio, hwindow⟩ := hcan
  by_cases hpos : 0 < cfg.window
  · have hstart : Failing (freshBreaker t₀ : Config BreakerOp.Ans Clocked Bool Unit).shared 0 :=
      ⟨rfl, rfl, rfl, rfl⟩
    exact exists_open_of_failing hpos hratio cfg.minimumRequests hstart (by omega)
  · -- the first failure is all that the window holds
    have hmin : cfg.minimumRequests ≤ 1 := hwindow.resolve_left hpos
    obtain ⟨c, hreach, hshared⟩ := exists_failing_request cfg (c := freshBreaker t₀) rfl
    have hcount : Breaker.countFailure cfg t₀ (Breaker.new t₀).window = ⟨t₀, 0, 1, none, 0⟩ := by
      unfold Breaker.countFailure Breaker.rollIfStale
      split <;> rfl
    have htrips : Breaker.tripsAt cfg (Breaker.countFailure cfg t₀ (Breaker.new t₀).window) = true := by
      rw [hcount]
      simpa [Breaker.tripsAt] using ⟨hmin, hratio⟩
    have hopens : (Breaker.new t₀).recordFailure cfg t₀ = _ :=
      (Breaker.recordFailure_of_ne cfg BreakerState.noConfusion t₀).trans (if_pos htrips)
    have hbreaker : c.shared.breaker = (Breaker.new t₀).recordFailure cfg t₀ := by
      rw [hshared]
      rfl
    rw [hopens] at hbreaker
    exact ⟨c, t₀, hreach, by rw [hbreaker], by rw [hbreaker]⟩

/-- After the cooldown one request turns an open circuit half-open. -/
lemma exists_halfOpen (cfg : BreakerConfig) {c : Config BreakerOp.Ans Clocked Bool Unit} {t : ℕ}
    (hopen : c.shared.breaker.state = .open) (hat : c.shared.breaker.window.openedAt = some t) :
    ∃ c', (breakerSystem cfg request).Reaches c c' ∧ c'.shared.breaker.state = .halfOpen ∧
      (probing cfg c'.trace).length = 1 := by
  obtain ⟨c₁, htick, hnow, hbreaker, hspawned⟩ :
      ∃ c₁, (breakerSystem cfg request).step c (.env (cfg.cooldown + t)) = some c₁ ∧
        c₁.shared.now = c.shared.now + (cfg.cooldown + t) ∧ c₁.shared.breaker = c.shared.breaker ∧
        c₁.spawned = c.spawned := ⟨_, rfl, rfl, rfl, rfl⟩
  obtain ⟨c₂, hspawn, hshared₂, ht₂⟩ :
      ∃ c₂, (breakerSystem cfg request).step c₁ (.spawn true) = some c₂ ∧ c₂.shared = c₁.shared ∧
        c₂.threads c₁.spawned = some ⟨true, [], request true⟩ :=
    ⟨_, rfl, rfl, by simp [breakerSystem]⟩
  obtain ⟨c₃, hist₃, hreach₃, ht₃, hshared₃⟩ := breakerSystem_reaches cfg request ht₂
  have hread : (c₂.shared.breaker.exec cfg c₂.shared.now .load).1 = .open := by
    rw [hshared₂, hbreaker]
    exact hopen
  rw [hread] at ht₃
  have hshared₃ : c₃.shared = c₁.shared := hshared₃.trans hshared₂
  have hcool : Breaker.cooledDown cfg c₃.shared.now c₃.shared.breaker.window = true := by
    rw [hshared₃, hbreaker, hnow, Breaker.cooledDown, hat]
    exact decide_eq_true (by omega)
  obtain ⟨c₄, hstep₄, hbreaker₄, htrace₄⟩ := breakerSystem_exec cfg request (o := .probe) ht₃
  have hhalf : (c₃.shared.breaker.exec cfg c₃.shared.now .probe).2.state = .halfOpen := by
    simp [Breaker.exec, Breaker.probe, hcool]
  refine ⟨c₄, (((System.Reaches.of_step htick).trans (.of_step hspawn)).trans hreach₃).trans
    (.of_step hstep₄), by rw [hbreaker₄, hhalf], ?_⟩
  have hbefore : c₃.shared.breaker.state ≠ .halfOpen := by
    rw [hshared₃, hbreaker, hopen]
    exact BreakerState.noConfusion
  rw [htrace₄, probing_snoc, probingStep, if_neg (not_not.mpr hhalf), if_pos hbefore]
  rfl

/-- One more request arrives while the circuit is half-open: it is let through. -/
lemma exists_probing_succ (cfg : BreakerConfig) {c : Config BreakerOp.Ans Clocked Bool Unit}
    (hs : c.shared.breaker.state = .halfOpen) :
    ∃ c', (breakerSystem cfg request).Reaches c c' ∧ c'.shared.breaker.state = .halfOpen ∧
      (probing cfg c'.trace).length = (probing cfg c.trace).length + 1 := by
  obtain ⟨c₁, hspawn, hshared, htrace, ht⟩ :
      ∃ c₁, (breakerSystem cfg request).step c (.spawn true) = some c₁ ∧ c₁.shared = c.shared ∧
        c₁.trace = c.trace ∧ c₁.threads c.spawned = some ⟨true, [], request true⟩ :=
    ⟨_, rfl, rfl, rfl, by simp [breakerSystem]⟩
  obtain ⟨c', hc', hb, htr⟩ := breakerSystem_exec (o := .load) cfg request ht
  rw [hshared] at hb
  rw [htrace, hshared] at htr
  refine ⟨c', (System.Reaches.of_step hspawn).trans (.of_step hc'), ?_, ?_⟩
  · rw [hb]
    exact hs
  · rw [htr, probing_snoc, probingStep_admits cfg _ _ _ _ _ _ hs (Or.inl rfl)]
    simp

/-- A burst of any size is let through in one half-open period before any outcome is known. -/
lemma exists_probing_burst (hcan : cfg.CanTrip) (t₀ n : ℕ) :
    ∃ c, (breakerSystem cfg request).Reaches (freshBreaker t₀) c ∧
      c.shared.breaker.state = .halfOpen ∧ (probing cfg c.trace).length = n + 1 := by
  induction n with
  | zero =>
    obtain ⟨c, t, hreach, hopen, hat⟩ := exists_open hcan t₀
    obtain ⟨c', hreach', hhalf, hlen⟩ := exists_halfOpen cfg hopen hat
    exact ⟨c', hreach.trans hreach', hhalf, hlen⟩
  | succ n ih =>
    obtain ⟨c, hreach, hhalf, hlen⟩ := ih
    obtain ⟨c', hreach', hhalf', hlen'⟩ := exists_probing_succ cfg hhalf
    exact ⟨c', hreach.trans hreach', hhalf', by omega⟩

variable (cfg)

/-- A configuration has a limit for the requests that are let through in one half-open period before
they report, for all runs, exactly if the circuit can never open under it. -/
theorem probing_bounded_iff :
    (∃ limit, ∀ t₀ acts c, (breakerSystem cfg request).run (freshBreaker t₀) acts = some c →
      (probing cfg c.trace).length ≤ limit) ↔ ¬ cfg.CanTrip := by
  constructor
  · rintro ⟨limit, hlimit⟩ hcan
    obtain ⟨c, ⟨acts, hrun⟩, -, hlen⟩ := exists_probing_burst hcan 0 limit
    have hle := hlimit 0 acts c hrun
    omega
  · intro hcan
    refine ⟨0, fun t₀ acts c hrun => ?_⟩
    rw [probing_eq_nil hcan hrun]
    exact Nat.le_refl 0

end

/-- No limit that depends only on the configuration bounds the probes of a half-open period. -/
theorem not_exists_probe_limit :
    ¬ ∃ limit : BreakerConfig → ℕ, ∀ cfg t₀ acts c,
      (breakerSystem cfg request).run (freshBreaker t₀) acts = some c →
      (probing cfg c.trace).length ≤ limit cfg := by
  rintro ⟨limit, h⟩
  have hcan : touchyConfig.CanTrip := by
    refine ⟨?_, Or.inl (by decide)⟩
    decide +kernel
  obtain ⟨c, ⟨acts, hrun⟩, -, hlen⟩ := exists_probing_burst hcan 0 (limit touchyConfig)
  have hle := h touchyConfig 0 acts c hrun
  omega

/-! ## Whose outcomes count -/

section

variable (cfg : BreakerConfig)

/-- Does the operation report an outcome? -/
def BreakerOp.reports : BreakerOp → Bool
  | .recordSuccess | .recordFailure => true
  | _ => false

/-- The step moves the circuit out of `halfOpen`, or counts a probe, only by the outcome of a
request admitted in the current half-open period. -/
def Attributed (c : Config BreakerOp.Ans Clocked Bool Unit) (a : Action Unit ℕ Bool)
    (c' : Config BreakerOp.Ans Clocked Bool Unit) : Prop :=
  c.shared.breaker.state = .halfOpen →
    (c'.shared.breaker.state ≠ .halfOpen ∨
      c.shared.breaker.window.probeSuccesses < c'.shared.breaker.window.probeSuccesses) →
    ∃ i o, a = .exec i () ∧ c.nextOp i = some o ∧ o.reports = true ∧ i ∈ probing cfg c.trace

/-- A request that reports while the circuit is half-open was admitted in this half-open period. -/
def ReportsOwnPeriod (c : Config BreakerOp.Ans Clocked Bool Unit) (a : Action Unit ℕ Bool) : Prop :=
  ∀ i o, a = .exec i () → c.nextOp i = some o → o.reports = true →
    c.shared.breaker.state = .halfOpen → i ∈ probing cfg c.trace

/-- A report while the circuit is half-open always moves it on or counts a probe; nothing else
does. -/
lemma reports_iff_changes (s : Clocked) (o : BreakerOp) (hs : s.breaker.state = .halfOpen) :
    o.reports = true ↔ (s.breaker.exec cfg s.now o).2.state ≠ .halfOpen ∨
      s.breaker.window.probeSuccesses <
        (s.breaker.exec cfg s.now o).2.window.probeSuccesses := by
  cases o with
  | load => simp [BreakerOp.reports, Breaker.exec, hs]
  | probe =>
    cases hcool : Breaker.cooledDown cfg s.now s.breaker.window <;>
      simp [BreakerOp.reports, Breaker.exec, Breaker.probe, hcool, hs]
  | recordSuccess =>
    by_cases hp : cfg.probeSuccesses ≤ s.breaker.window.probeSuccesses + 1 <;>
      simp [BreakerOp.reports, Breaker.exec, Breaker.recordSuccess, hs, hp]
  | recordFailure => simp [BreakerOp.reports, Breaker.exec, Breaker.recordFailure, hs]

/-- However requests overlap, the circuit leaves `halfOpen` and counts probes only by outcomes of
that half-open period exactly as long as no older request reports during it. -/
theorem attributed_iff (t₀ : ℕ) (acts : List (Action Unit ℕ Bool)) :
    (breakerSystem cfg request).Throughout
        (fun c a => ∀ c', (breakerSystem cfg request).step c a = some c' → Attributed cfg c a c')
        (freshBreaker t₀) acts ↔
      (breakerSystem cfg request).Throughout (ReportsOwnPeriod cfg) (freshBreaker t₀) acts := by
  refine System.throughout_congr (I := fun _ => True) (fun c a _ => ?_)
    (fun _ _ _ _ _ _ => trivial) trivial
  constructor
  · rintro h i o rfl hop hrep hs
    obtain ⟨l, hist, k, ht⟩ := System.exists_thread hop
    obtain ⟨c', hc', hb, -⟩ := breakerSystem_exec cfg request ht
    have hchange := (reports_iff_changes cfg c.shared o hs).mp hrep
    rw [← hb] at hchange
    obtain ⟨j, o', ha, -, -, hmem⟩ := h c' hc' hs hchange
    cases ha
    exact hmem
  · intro h c' hc' hs hchange
    rcases breakerSystem_step cfg hc' with ⟨i, l, hist, o, k, rfl, ht, hb, -⟩ | ⟨-, hb, -⟩
    · have hop := System.nextOp_eq ht
      rw [hb] at hchange
      have hrep := (reports_iff_changes cfg c.shared o hs).mpr hchange
      exact ⟨i, o, rfl, hop, hrep, h i o rfl hop hrep hs⟩
    · rw [hb] at hchange
      rcases hchange with hne | hlt
      · exact absurd hs hne
      · exact absurd hlt (lt_irrefl _)

end

/-- A request is admitted while the circuit is closed; another one fails and trips it, and after the
cooldown a third one probes. -/
def lateReport : List (Action Unit ℕ Bool) :=
  [.spawn true, .exec 0 (), .spawn false, .exec 1 (), .exec 1 (), .env 10,
    .spawn true, .exec 2 (), .exec 2 ()]

/-- When the first request reports, the circuit closes although the probe has no outcome yet. -/
theorem closed_by_late_report :
    ((breakerSystem touchyConfig request).run (freshBreaker 0) lateReport).map
      (fun c => (c.shared.breaker.state, probing touchyConfig c.trace)) =
        some (.halfOpen, [2]) ∧
    ((breakerSystem touchyConfig request).run (freshBreaker 0) (lateReport ++ [.exec 0 ()])).map
      (fun c => c.shared.breaker.state) = some .closed := by
  refine ⟨by decide +kernel, by decide +kernel⟩

end HsmProxy
