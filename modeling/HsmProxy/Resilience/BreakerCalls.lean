import HsmProxy.Resilience.Breaker
import Mathlib.Data.List.Infix
import Mathlib.Data.Rat.Defs

/-!
# Sequences of calls on the circuit breaker

Here every call of the breaker is one step and the calls come with their times, so a run is a list
of timed calls on a fresh breaker (`Breaker.after`).  `Breaker.Step` says once what a call can do;
the results below are inductions over the list of calls from its end.

* The time from which the cooldown is measured: `openedAt` is the time of the last transition into
  `open` exactly as long as no failure reported while the circuit is already open reaches the trip
  thresholds again.
* What a trip is based on: the counts of the window are the outcomes recorded since the last
  creation, close or roll (`Breaker.evidence`).
* The window tumbles: whether a failure trips the circuit is decided by the outcomes since the last
  roll, not by those of the trailing interval.
-/

namespace HsmProxy

/-- The calls of the breaker's interface. -/
inductive BreakerCall where
  | allow
  | recordSuccess
  | recordFailure
  deriving DecidableEq, Repr

/-- A recorded outcome of a request. -/
structure Outcome where
  time : ℕ
  success : Bool
  deriving DecidableEq, Repr

/-- The outcome a call at time `t` records, if any. -/
def BreakerCall.outcome (t : ℕ) : BreakerCall → Option Outcome
  | .allow => none
  | .recordSuccess => some ⟨t, true⟩
  | .recordFailure => some ⟨t, false⟩

/-- All outcomes a list of calls records, oldest first. -/
def outcomes (calls : List (ℕ × BreakerCall)) : List Outcome :=
  calls.filterMap fun c => c.2.outcome c.1

@[simp] lemma outcomes_snoc (calls : List (ℕ × BreakerCall)) (c : ℕ × BreakerCall) :
    outcomes (calls ++ [c]) = outcomes calls ++ (c.2.outcome c.1).toList := by
  simp only [outcomes, List.filterMap_append]
  cases h : c.2.outcome c.1 <;> simp [h]

/-- An outcome was recorded at the time of a call. -/
lemma mem_outcomes_time {calls : List (ℕ × BreakerCall)} {o : Outcome} (h : o ∈ outcomes calls) :
    o.time ∈ calls.map Prod.fst := by
  obtain ⟨⟨t, c⟩, hc, ho⟩ := List.mem_filterMap.mp h
  refine List.mem_map.mpr ⟨(t, c), hc, ?_⟩
  cases c with
  | allow => cases ho
  | recordSuccess => cases ho; rfl
  | recordFailure => cases ho; rfl

/-- Do these outcomes reach both trip thresholds? -/
def Reaches (cfg : BreakerConfig) (os : List Outcome) : Prop :=
  cfg.minimumRequests ≤ os.length ∧
    cfg.failureRatio ≤ ((os.countP fun o => !o.success : ℕ) : ℚ) / (os.length : ℚ)

instance (cfg : BreakerConfig) (os : List Outcome) : Decidable (Reaches cfg os) :=
  inferInstanceAs (Decidable (_ ∧ _))

namespace Breaker

variable (cfg : BreakerConfig)

/-- `allow`, without anything happening between its two steps. -/
def allow (now : ℕ) (b : Breaker) : Bool × Breaker :=
  match b.state with
  | .closed => (true, b)
  | .halfOpen => (true, b)
  | .open => probe cfg now b

/-- One call at time `now`. -/
def call (b : Breaker) (now : ℕ) : BreakerCall → Breaker
  | .allow => (b.allow cfg now).2
  | .recordSuccess => b.recordSuccess cfg now
  | .recordFailure => b.recordFailure cfg now

/-- The breaker after a list of timed calls, created at time `t₀`. -/
def after (t₀ : ℕ) (calls : List (ℕ × BreakerCall)) : Breaker :=
  calls.foldl (fun b c => b.call cfg c.1 c.2) (new t₀)

@[simp] lemma after_nil (t₀ : ℕ) : after cfg t₀ [] = new t₀ := rfl

@[simp] lemma after_snoc (t₀ : ℕ) (calls : List (ℕ × BreakerCall)) (c : ℕ × BreakerCall) :
    after cfg t₀ (calls ++ [c]) = (after cfg t₀ calls).call cfg c.1 c.2 := by
  simp [after, List.foldl_append]

/-- The window after a success has been counted outside of `halfOpen`. -/
def countSuccess (now : ℕ) (w : Window) : Window :=
  { rollIfStale cfg now w with successes := (rollIfStale cfg now w).successes + 1 }

/-- The window after a failure has been counted outside of `halfOpen`. -/
def countFailure (now : ℕ) (w : Window) : Window :=
  { rollIfStale cfg now w with failures := (rollIfStale cfg now w).failures + 1 }

/-- Outside of `halfOpen`, a success is counted in the window. -/
lemma recordSuccess_of_ne {b : Breaker} (h : b.state ≠ .halfOpen) (now : ℕ) :
    b.recordSuccess cfg now = { b with window := countSuccess cfg now b.window } := by
  obtain ⟨state, w, trips, rejected⟩ := b
  cases state with
  | closed => rfl
  | «open» => rfl
  | halfOpen => exact absurd rfl h

/-- Outside of `halfOpen`, a failure is counted in the window, and then the thresholds decide. -/
lemma recordFailure_of_ne {b : Breaker} (h : b.state ≠ .halfOpen) (now : ℕ) :
    b.recordFailure cfg now =
      if tripsAt cfg (countFailure cfg now b.window) then
        { b with
          window := { countFailure cfg now b.window with openedAt := some now }
          state := .open
          trips := b.trips + 1 }
      else { b with window := countFailure cfg now b.window } := by
  obtain ⟨state, w, trips, rejected⟩ := b
  cases state with
  | closed => rfl
  | «open» => rfl
  | halfOpen => exact absurd rfl h

/-- What a call can do to the breaker, one constructor for every path through the code. -/
inductive Step (now : ℕ) (b : Breaker) : BreakerCall → Breaker → Prop
  | pass (h : b.state ≠ .open) : Step now b .allow b
  | probe (h : b.state = .open) (hc : cooledDown cfg now b.window = true) :
      Step now b .allow
        { b with window := { b.window with probeSuccesses := 0 }, state := .halfOpen }
  | reject (h : b.state = .open) (hc : cooledDown cfg now b.window = false) :
      Step now b .allow { b with rejected := b.rejected + 1 }
  | close (h : b.state = .halfOpen) (hp : cfg.probeSuccesses ≤ b.window.probeSuccesses + 1) :
      Step now b .recordSuccess
        { b with
          window := resetWindow now
            { b.window with probeSuccesses := b.window.probeSuccesses + 1 }
          state := .closed }
  | probed (h : b.state = .halfOpen) (hp : b.window.probeSuccesses + 1 < cfg.probeSuccesses) :
      Step now b .recordSuccess
        { b with window := { b.window with probeSuccesses := b.window.probeSuccesses + 1 } }
  | success (h : b.state ≠ .halfOpen) :
      Step now b .recordSuccess { b with window := countSuccess cfg now b.window }
  | reopen (h : b.state = .halfOpen) :
      Step now b .recordFailure
        { b with
          window := { b.window with openedAt := some now, probeSuccesses := 0 }
          state := .open }
  | trip (h : b.state ≠ .halfOpen) (ht : tripsAt cfg (countFailure cfg now b.window) = true) :
      Step now b .recordFailure
        { b with
          window := { countFailure cfg now b.window with openedAt := some now }
          state := .open
          trips := b.trips + 1 }
  | failure (h : b.state ≠ .halfOpen) (ht : tripsAt cfg (countFailure cfg now b.window) = false) :
      Step now b .recordFailure { b with window := countFailure cfg now b.window }

/-- Every call takes one of the steps. -/
theorem step_call (now : ℕ) (b : Breaker) (c : BreakerCall) :
    Step cfg now b c (b.call cfg now c) := by
  cases c with
  | allow =>
    unfold call allow
    cases hs : b.state with
    | closed => exact Step.pass (by simp [hs])
    | halfOpen => exact Step.pass (by simp [hs])
    | «open» =>
      cases hc : cooledDown cfg now b.window with
      | true => simpa [Breaker.probe, hc] using Step.probe hs hc
      | false => simpa [Breaker.probe, hc] using Step.reject hs hc
  | recordSuccess =>
    show Step cfg now b .recordSuccess (b.recordSuccess cfg now)
    by_cases hs : b.state = .halfOpen
    · unfold recordSuccess
      rw [hs]
      by_cases hp : cfg.probeSuccesses ≤ b.window.probeSuccesses + 1
      · simpa [hp] using Step.close hs hp
      · have hlt : Step cfg now b .recordSuccess _ := Step.probed hs (Nat.lt_of_not_le hp)
        simpa [hp, hs] using hlt
    · rw [recordSuccess_of_ne cfg hs]
      exact Step.success hs
  | recordFailure =>
    show Step cfg now b .recordFailure (b.recordFailure cfg now)
    by_cases hs : b.state = .halfOpen
    · unfold recordFailure
      rw [hs]
      exact Step.reopen hs
    · rw [recordFailure_of_ne cfg hs]
      cases ht : tripsAt cfg (countFailure cfg now b.window) with
      | true => exact Step.trip hs ht
      | false => exact Step.failure hs ht

/-! ## The time from which the cooldown is measured -/

/-- One call, together with the time of the last transition into `open`. -/
def openedStep (acc : Breaker × Option ℕ) (c : ℕ × BreakerCall) : Breaker × Option ℕ :=
  (acc.1.call cfg c.1 c.2,
    if acc.1.state ≠ .open ∧ (acc.1.call cfg c.1 c.2).state = .open then some c.1 else acc.2)

/-- The time of the last transition into `open`, if there was one. -/
def lastOpened (t₀ : ℕ) (calls : List (ℕ × BreakerCall)) : Option ℕ :=
  (calls.foldl (openedStep cfg) (new t₀, none)).2

/-- The first component of the fold behind `lastOpened` is the breaker itself. -/
lemma foldl_openedStep_fst (t₀ : ℕ) (calls : List (ℕ × BreakerCall)) :
    (calls.foldl (openedStep cfg) (new t₀, none)).1 = after cfg t₀ calls := by
  induction calls using List.reverseRecOn with
  | nil => rfl
  | append_singleton calls c ih => simp [List.foldl_append, openedStep, ih]

/-- A call is the last transition into `open` when it is one. -/
lemma lastOpened_snoc (t₀ : ℕ) (calls : List (ℕ × BreakerCall)) (c : ℕ × BreakerCall) :
    lastOpened cfg t₀ (calls ++ [c]) =
      if (after cfg t₀ calls).state ≠ .open ∧ (after cfg t₀ (calls ++ [c])).state = .open then
        some c.1
      else lastOpened cfg t₀ calls := by
  unfold lastOpened
  rw [List.foldl_append, after_snoc, ← foldl_openedStep_fst]
  rfl

/-- Along the whole list of calls, `openedAt` is the time of the last transition into `open`
whenever the breaker is open, and an `allow` once the cooldown has passed since then is admitted
and moves the breaker to `halfOpen`. -/
def CooldownFromOpening (t₀ : ℕ) (calls : List (ℕ × BreakerCall)) : Prop :=
  ∀ sofar, sofar <+: calls → (after cfg t₀ sofar).state = .open →
    (after cfg t₀ sofar).window.openedAt = lastOpened cfg t₀ sofar ∧
    ∀ opened t, lastOpened cfg t₀ sofar = some opened → opened + cfg.cooldown ≤ t →
      ((after cfg t₀ sofar).allow cfg t).1 = true ∧
      ((after cfg t₀ sofar).allow cfg t).2.state = .halfOpen

/-- No failure that is reported while the breaker is already open, later than its opening time,
finds counts that reach the trip thresholds. -/
def NoTripWhileOpen (t₀ : ℕ) (calls : List (ℕ × BreakerCall)) : Prop :=
  ∀ sofar t, sofar ++ [(t, .recordFailure)] <+: calls → (after cfg t₀ sofar).state = .open →
    (after cfg t₀ sofar).window.openedAt ≠ some t →
    tripsAt cfg (countFailure cfg t (after cfg t₀ sofar).window) = false

/-- Rolling the window keeps the opening time. -/
@[simp] lemma rollIfStale_openedAt (now : ℕ) (w : Window) :
    (rollIfStale cfg now w).openedAt = w.openedAt := by
  unfold rollIfStale resetWindow
  split <;> rfl

/-- Once the cooldown has passed, an open breaker admits the caller and becomes half-open. -/
lemma allow_of_cooledDown {b : Breaker} {opened t : ℕ} (hs : b.state = .open)
    (ho : b.window.openedAt = some opened) (ht : opened + cfg.cooldown ≤ t) :
    (b.allow cfg t).1 = true ∧ (b.allow cfg t).2.state = .halfOpen := by
  have hle : cfg.cooldown ≤ t - opened := by omega
  have hc : cooledDown cfg t b.window = true := by simp [cooledDown, ho, hle]
  unfold allow
  rw [hs]
  simp [probe, hc]

/-- One call keeps `openedAt` at the last transition into `open`, unless it is a failure that trips
an open breaker at a later time. -/
lemma openedAt_call {t₀ : ℕ} {calls : List (ℕ × BreakerCall)} {c : ℕ × BreakerCall}
    (ih : (after cfg t₀ calls).state = .open →
      (after cfg t₀ calls).window.openedAt = lastOpened cfg t₀ calls)
    (hc : c.2 = .recordFailure → (after cfg t₀ calls).state = .open →
      (after cfg t₀ calls).window.openedAt ≠ some c.1 →
      tripsAt cfg (countFailure cfg c.1 (after cfg t₀ calls).window) = false)
    (ho : (after cfg t₀ (calls ++ [c])).state = .open) :
    (after cfg t₀ (calls ++ [c])).window.openedAt = lastOpened cfg t₀ (calls ++ [c]) := by
  rw [lastOpened_snoc]
  rw [after_snoc] at ho ⊢
  obtain ⟨t, c⟩ := c
  have hstep := step_call cfg t (after cfg t₀ calls) c
  generalize (after cfg t₀ calls).call cfg t c = b' at *
  cases hstep with
  | pass h => exact absurd ho h
  | probe h _ => cases ho
  | reject h _ => simpa [h] using ih h
  | close _ _ => cases ho
  | probed h _ => rw [h] at ho; cases ho
  | success h =>
    have hopen : (after cfg t₀ calls).state = .open := ho
    simpa [hopen, countSuccess] using ih hopen
  | reopen h => simp [h]
  | trip h ht =>
    by_cases hopen : (after cfg t₀ calls).state = .open
    · -- A second trip of an open breaker: harmless only at the time it opened.
      have heq : (after cfg t₀ calls).window.openedAt = some t := by
        by_contra hne
        rw [hc rfl hopen hne] at ht
        cases ht
      simp [hopen, ← ih hopen, heq]
    · simp [hopen]
  | failure h _ =>
    have hopen : (after cfg t₀ calls).state = .open := ho
    simpa [hopen, countFailure] using ih hopen

/-- The cooldown is measured from the opening exactly as long as no failure reported while the
breaker is already open reaches the thresholds again. -/
theorem cooldownFromOpening_iff (t₀ : ℕ) (calls : List (ℕ × BreakerCall)) :
    CooldownFromOpening cfg t₀ calls ↔ NoTripWhileOpen cfg t₀ calls := by
  constructor
  · intro h sofar t hpre hopen hne
    by_contra htrip
    have htrip' : tripsAt cfg (countFailure cfg t (after cfg t₀ sofar).window) = true := by
      simpa using htrip
    have hnh : (after cfg t₀ sofar).state ≠ .halfOpen := by simp [hopen]
    have hafter : after cfg t₀ (sofar ++ [(t, .recordFailure)]) =
        (after cfg t₀ sofar).recordFailure cfg t := after_snoc cfg t₀ sofar _
    rw [recordFailure_of_ne cfg hnh, if_pos htrip'] at hafter
    have hbefore := (h sofar ((List.prefix_append _ _).trans hpre) hopen).1
    have hnow := (h _ hpre (by rw [hafter])).1
    rw [lastOpened_snoc, hafter] at hnow
    simp only [hopen, ne_eq, not_true_eq_false, false_and, if_false] at hnow
    rw [← hbefore] at hnow
    exact hne hnow.symm
  · intro h sofar hpre hopen
    have hopened : (after cfg t₀ sofar).window.openedAt = lastOpened cfg t₀ sofar := by
      induction sofar using List.reverseRecOn with
      | nil => cases hopen
      | append_singleton sofar c ih =>
        have hsub : sofar <+: calls := (List.prefix_append _ _).trans hpre
        refine openedAt_call cfg (fun ho => ih hsub ho) ?_ hopen
        obtain ⟨t, c⟩ := c
        rintro rfl
        exact h sofar t hpre
    refine ⟨hopened, fun opened t hlast ht => ?_⟩
    exact allow_of_cooledDown cfg hopen (hopened.trans hlast) ht

/-- Two failures trip the breaker at times 0 and 1; the second one, reported while the circuit is
already open, moves the cooldown, and the probe due at time 10 is refused. -/
theorem not_cooldownFromOpening_late_failure :
    ((0 :: [(0, BreakerCall.recordFailure), (1, .recordFailure)].map Prod.fst).Pairwise (· ≤ ·)) ∧
    lastOpened ⟨1 / 2, 1, 100, 10, 1⟩ 0 [(0, .recordFailure), (1, .recordFailure)] = some 0 ∧
    ((after ⟨1 / 2, 1, 100, 10, 1⟩ 0 [(0, .recordFailure), (1, .recordFailure)]).allow
      ⟨1 / 2, 1, 100, 10, 1⟩ 10).1 = false ∧
    ¬ CooldownFromOpening ⟨1 / 2, 1, 100, 10, 1⟩ 0 [(0, .recordFailure), (1, .recordFailure)] := by
  refine ⟨by decide, by decide +kernel, by decide +kernel, fun h => ?_⟩
  have hboth := h _ List.prefix_rfl (by decide +kernel)
  exact absurd hboth.1 (by decide +kernel)

/-! ## What a trip is based on -/

/-- How a call changes the outcomes recorded since the last creation, close or roll. -/
def evidenceStep (b : Breaker) (ev : List Outcome) (c : ℕ × BreakerCall) : List Outcome :=
  match c.2.outcome c.1 with
  | none => ev
  | some o =>
    if b.state = .halfOpen ∧ (b.call cfg c.1 c.2).state = .closed then []
    else if b.state ≠ .halfOpen ∧ cfg.window ≤ c.1 - b.window.started then [o]
    else ev ++ [o]

/-- The outcomes recorded since the latest of the creation, the last close and the last roll of
the window. -/
def evidence (t₀ : ℕ) (calls : List (ℕ × BreakerCall)) : List Outcome :=
  (calls.foldl (fun (acc : Breaker × List Outcome) c =>
    (acc.1.call cfg c.1 c.2, evidenceStep cfg acc.1 acc.2 c)) (new t₀, [])).2

@[simp] lemma evidence_nil (t₀ : ℕ) : evidence cfg t₀ [] = [] := rfl

/-- The first component of the fold behind `evidence` is the breaker itself. -/
lemma foldl_evidence_fst (t₀ : ℕ) (calls : List (ℕ × BreakerCall)) :
    (calls.foldl (fun (acc : Breaker × List Outcome) c =>
      (acc.1.call cfg c.1 c.2, evidenceStep cfg acc.1 acc.2 c)) (new t₀, [])).1 =
      after cfg t₀ calls := by
  induction calls using List.reverseRecOn with
  | nil => rfl
  | append_singleton calls c ih => simp [List.foldl_append, ih]

/-- One more call. -/
lemma evidence_snoc (t₀ : ℕ) (calls : List (ℕ × BreakerCall)) (c : ℕ × BreakerCall) :
    evidence cfg t₀ (calls ++ [c]) =
      evidenceStep cfg (after cfg t₀ calls) (evidence cfg t₀ calls) c := by
  unfold evidence
  rw [List.foldl_append, ← foldl_evidence_fst]
  rfl

/-- One call keeps the evidence inside what has been recorded. -/
lemma evidenceStep_suffix (b : Breaker) {ev os : List Outcome} (h : ev <:+ os)
    (c : ℕ × BreakerCall) : evidenceStep cfg b ev c <:+ os ++ (c.2.outcome c.1).toList := by
  unfold evidenceStep
  cases ho : c.2.outcome c.1 with
  | none => simpa using h
  | some o =>
    simp only [Option.toList_some]
    split_ifs
    · exact List.nil_suffix
    · exact List.suffix_append os [o]
    · obtain ⟨old, rfl⟩ := h
      exact ⟨old, by simp⟩

/-- From some point on, the evidence is made of the evidence at that point and of what has been
recorded since. -/
lemma evidence_append_suffix (t₀ : ℕ) (calls rest : List (ℕ × BreakerCall)) :
    evidence cfg t₀ (calls ++ rest) <:+ evidence cfg t₀ calls ++ outcomes rest := by
  induction rest using List.reverseRecOn with
  | nil => simp [outcomes]
  | append_singleton rest c ih =>
    rw [← List.append_assoc, evidence_snoc, outcomes_snoc, ← List.append_assoc]
    exact evidenceStep_suffix cfg _ ih c

/-- The evidence is the last part of all recorded outcomes. -/
lemma evidence_suffix (t₀ : ℕ) (calls : List (ℕ × BreakerCall)) :
    evidence cfg t₀ calls <:+ outcomes calls := by
  simpa using evidence_append_suffix cfg t₀ [] calls

/-- Nothing recorded before a close is evidence after it. -/
lemma evidence_after_close (t₀ : ℕ) (sofar rest : List (ℕ × BreakerCall)) (c : ℕ × BreakerCall)
    (hh : (after cfg t₀ sofar).state = .halfOpen)
    (hc : (after cfg t₀ (sofar ++ [c])).state = .closed) :
    evidence cfg t₀ (sofar ++ c :: rest) <:+ outcomes rest := by
  have hempty : evidence cfg t₀ (sofar ++ [c]) = [] := by
    rw [after_snoc] at hc
    rw [evidence_snoc]
    unfold evidenceStep
    obtain ⟨t, c⟩ := c
    cases c with
    | allow =>
      -- An `allow` does not close the breaker.
      simp [call, allow, hh] at hc
    | recordSuccess => simp [BreakerCall.outcome, hh, hc]
    | recordFailure => simp [BreakerCall.outcome, hh, hc]
  have h := evidence_append_suffix cfg t₀ (sofar ++ [c]) rest
  rw [hempty] at h
  simpa using h

/-- The counts of the window are those of the evidence, all of it recorded since the window
started. -/
structure Tallied (w : Window) (ev : List Outcome) : Prop where
  successes : w.successes = ev.countP fun o => o.success
  failures : w.failures = ev.countP fun o => !o.success
  started : ∀ o ∈ ev, w.started ≤ o.time

/-- A window that has just been reset. -/
lemma Tallied.reset (now : ℕ) (w : Window) : Tallied (resetWindow now w) [] :=
  ⟨rfl, rfl, by simp⟩

/-- The window starts at its creation or at the time of a call. -/
lemma started_mem (t₀ : ℕ) (calls : List (ℕ × BreakerCall)) :
    (after cfg t₀ calls).window.started ∈ t₀ :: calls.map Prod.fst := by
  induction calls using List.reverseRecOn with
  | nil => simp [new]
  | append_singleton calls c ih =>
    rw [after_snoc]
    obtain ⟨t, c⟩ := c
    have hroll : (rollIfStale cfg t (after cfg t₀ calls).window).started = t ∨
        (rollIfStale cfg t (after cfg t₀ calls).window).started =
          (after cfg t₀ calls).window.started := by
      unfold rollIfStale
      split
      · exact Or.inl rfl
      · exact Or.inr rfl
    have hold : (after cfg t₀ calls).window.started ∈ t₀ :: (calls ++ [(t, c)]).map Prod.fst := by
      simp only [List.map_append, List.mem_cons, List.mem_append] at ih ⊢
      rcases ih with h | h
      · exact Or.inl h
      · exact Or.inr (Or.inl h)
    have hnew : t ∈ t₀ :: (calls ++ [(t, c)]).map Prod.fst := by simp
    have hstep := step_call cfg t (after cfg t₀ calls) c
    generalize (after cfg t₀ calls).call cfg t c = b' at hstep ⊢
    cases hstep with
    | pass _ | probe _ _ | reject _ _ | probed _ _ | reopen _ => exact hold
    | close _ _ => exact hnew
    | success _ | trip _ _ | failure _ _ =>
      rcases hroll with h | h
      · simp [countSuccess, countFailure, h]
      · simpa [countSuccess, countFailure, h] using hold

section Sorted

variable {t₀ t : ℕ} {calls : List (ℕ × BreakerCall)}

/-- In a list of calls at non-decreasing times, everything before the last call is not later. -/
lemma le_of_sorted {c : BreakerCall}
    (hs : (t₀ :: (calls ++ [(t, c)]).map Prod.fst).Pairwise (· ≤ ·)) :
    ∀ u ∈ t₀ :: calls.map Prod.fst, u ≤ t := by
  rw [List.map_append, ← List.cons_append, List.pairwise_append] at hs
  intro u hu
  exact hs.2.2 u hu t (by simp)

/-- Dropping the last call keeps the times sorted. -/
lemma sorted_of_snoc {c : ℕ × BreakerCall}
    (hs : (t₀ :: (calls ++ [c]).map Prod.fst).Pairwise (· ≤ ·)) :
    (t₀ :: calls.map Prod.fst).Pairwise (· ≤ ·) := by
  rw [List.map_append, ← List.cons_append, List.pairwise_append] at hs
  exact hs.1

/-- Counting one more outcome in a closed breaker. -/
lemma Tallied.count {b : Breaker} {ev : List Outcome} {c : BreakerCall} {o : Outcome}
    (h : Tallied b.window ev) (hb : b.state = .closed) (hle : b.window.started ≤ t)
    (ho : c.outcome t = some o) :
    Tallied { rollIfStale cfg t b.window with
      successes := (rollIfStale cfg t b.window).successes + if o.success then 1 else 0
      failures := (rollIfStale cfg t b.window).failures + if o.success then 0 else 1 }
      (evidenceStep cfg b ev (t, c)) := by
  have htime : o.time = t := by
    cases c <;> cases ho <;> rfl
  unfold evidenceStep rollIfStale
  rw [ho]
  simp only [hb, reduceCtorEq, false_and, if_false, ne_eq, not_false_eq_true, true_and]
  split
  · refine ⟨?_, ?_, ?_⟩
    · cases hsucc : o.success <;> simp [resetWindow, hsucc]
    · cases hsucc : o.success <;> simp [resetWindow, hsucc]
    · simp [resetWindow, htime]
  · refine ⟨?_, ?_, ?_⟩
    · cases hsucc : o.success <;> simp [h.successes, hsucc]
    · cases hsucc : o.success <;> simp [h.failures, hsucc]
    · intro o' ho'
      rcases List.mem_append.mp ho' with ho' | ho'
      · exact h.started o' ho'
      · obtain rfl := List.mem_singleton.mp ho'
        rw [htime]
        exact hle

/-- A success counted by a closed breaker. -/
lemma Tallied.countSuccess {b : Breaker} {ev : List Outcome} (h : Tallied b.window ev)
    (hb : b.state = .closed) (hle : b.window.started ≤ t) :
    Tallied (countSuccess cfg t b.window) (evidenceStep cfg b ev (t, .recordSuccess)) :=
  h.count cfg hb hle (c := .recordSuccess) (o := ⟨t, true⟩) rfl

/-- A failure counted by a closed breaker. -/
lemma Tallied.countFailure {b : Breaker} {ev : List Outcome} (h : Tallied b.window ev)
    (hb : b.state = .closed) (hle : b.window.started ≤ t) :
    Tallied (countFailure cfg t b.window) (evidenceStep cfg b ev (t, .recordFailure)) :=
  h.count cfg hb hle (c := .recordFailure) (o := ⟨t, false⟩) rfl

/-- While the breaker is closed, its counts are those of the evidence. -/
lemma tallied_of_closed (hs : (t₀ :: calls.map Prod.fst).Pairwise (· ≤ ·))
    (hc : (after cfg t₀ calls).state = .closed) :
    Tallied (after cfg t₀ calls).window (evidence cfg t₀ calls) := by
  induction calls using List.reverseRecOn with
  | nil => exact ⟨rfl, rfl, by simp⟩
  | append_singleton calls c ih =>
    obtain ⟨t, c⟩ := c
    have hle := le_of_sorted hs _ (started_mem cfg t₀ calls)
    have ih' := ih (sorted_of_snoc hs)
    rw [evidence_snoc]
    rw [after_snoc] at hc ⊢
    have hstep := step_call cfg t (after cfg t₀ calls) c
    generalize hcall : (after cfg t₀ calls).call cfg t c = b' at hc hstep ⊢
    cases hstep with
    | pass _ => exact ih' hc
    | probe _ _ => cases hc
    | reject h _ => rw [h] at hc; cases hc
    | close h _ =>
      have hnil : evidenceStep cfg (after cfg t₀ calls) (evidence cfg t₀ calls)
          (t, .recordSuccess) = [] := by
        simp [evidenceStep, BreakerCall.outcome, h, hcall]
      rw [hnil]
      exact Tallied.reset t _
    | probed h _ => rw [h] at hc; cases hc
    | success _ => exact (ih' hc).countSuccess cfg hc hle
    | reopen _ => cases hc
    | trip _ _ => cases hc
    | failure _ _ => exact (ih' hc).countFailure cfg hc hle

/-- Both thresholds, read off the evidence instead of the window. -/
lemma Tallied.tripsAt_iff {w : Window} {ev : List Outcome} (h : Tallied w ev) :
    tripsAt cfg w = true ↔ Reaches cfg ev := by
  have hlen : w.successes + w.failures = ev.length := by
    rw [h.successes, h.failures, List.length_eq_countP_add_countP (fun o => o.success)]
    simp
  unfold tripsAt Reaches
  rw [hlen, h.failures]
  simp

/-- A failure reported to a closed breaker trips it exactly when the evidence, with this failure,
reaches the thresholds; then the counts it acted on are those of the evidence. -/
lemma trip_of_closed
    (hs : (t₀ :: (calls ++ [(t, BreakerCall.recordFailure)]).map Prod.fst).Pairwise (· ≤ ·))
    (hc : (after cfg t₀ calls).state = .closed) :
    Tallied (countFailure cfg t (after cfg t₀ calls).window)
        (evidence cfg t₀ (calls ++ [(t, .recordFailure)])) ∧
      ((after cfg t₀ (calls ++ [(t, .recordFailure)])).state = .open ↔
        Reaches cfg (evidence cfg t₀ (calls ++ [(t, .recordFailure)]))) := by
  have hle := le_of_sorted hs _ (started_mem cfg t₀ calls)
  have htally : Tallied (countFailure cfg t (after cfg t₀ calls).window)
      (evidence cfg t₀ (calls ++ [(t, .recordFailure)])) := by
    rw [evidence_snoc]
    exact (tallied_of_closed cfg (sorted_of_snoc hs) hc).countFailure cfg hc hle
  refine ⟨htally, ?_⟩
  rw [after_snoc, ← htally.tripsAt_iff]
  show ((after cfg t₀ calls).recordFailure cfg t).state = .open ↔ _
  rw [recordFailure_of_ne cfg (by simp [hc])]
  split
  · rename_i h
    simp [h]
  · rename_i h
    simp [h, hc]

/-- With a window of positive width, everything a failure reported to a closed breaker is judged by
lies in the trailing interval. -/
lemma evidence_in_window (hw : 0 < cfg.window)
    (hs : (t₀ :: (calls ++ [(t, BreakerCall.recordFailure)]).map Prod.fst).Pairwise (· ≤ ·))
    (hc : (after cfg t₀ calls).state = .closed) {o : Outcome}
    (ho : o ∈ evidence cfg t₀ (calls ++ [(t, .recordFailure)])) :
    o.time ≤ t ∧ t < o.time + cfg.window := by
  have hmem : o ∈ outcomes (calls ++ [(t, .recordFailure)]) :=
    (evidence_suffix cfg t₀ _).subset ho
  have htime : o.time ≤ t := by
    have h := mem_outcomes_time hmem
    rw [List.map_append, List.mem_append] at h
    rcases h with h | h
    · exact le_of_sorted hs _ (List.mem_cons_of_mem _ h)
    · simp only [List.map_cons, List.map_nil, List.mem_singleton] at h
      exact le_of_eq h
  refine ⟨htime, ?_⟩
  -- The window in force was started at most `cfg.window` ago.
  have hstart := (trip_of_closed cfg hs hc).1.started o ho
  have hfresh : t < (countFailure cfg t (after cfg t₀ calls).window).started + cfg.window := by
    unfold countFailure rollIfStale
    split
    · simp only [resetWindow]
      omega
    · simp only
      omega
  omega

/-- With a window of width zero, every call that reports to a closed breaker rolls the window, and a
failure is judged by itself. -/
lemma evidence_of_empty_window (hw : cfg.window = 0) (hc : (after cfg t₀ calls).state = .closed) :
    evidence cfg t₀ (calls ++ [(t, .recordFailure)]) = [⟨t, false⟩] := by
  rw [evidence_snoc]
  simp [evidenceStep, BreakerCall.outcome, hc, hw]

/-- The probe count never exceeds what closes the breaker. -/
lemma probeSuccesses_le (t₀ : ℕ) (calls : List (ℕ × BreakerCall)) :
    (after cfg t₀ calls).window.probeSuccesses ≤ max 1 cfg.probeSuccesses ∧
      ((after cfg t₀ calls).state = .halfOpen →
        (after cfg t₀ calls).window.probeSuccesses < max 1 cfg.probeSuccesses) := by
  induction calls using List.reverseRecOn with
  | nil => simp [new]
  | append_singleton calls c ih =>
    rw [after_snoc]
    have hroll : ∀ t, (rollIfStale cfg t (after cfg t₀ calls).window).probeSuccesses =
        (after cfg t₀ calls).window.probeSuccesses := by
      intro t
      unfold rollIfStale resetWindow
      split <;> rfl
    obtain ⟨hle, hlt⟩ := ih
    obtain ⟨t, c⟩ := c
    have hstep := step_call cfg t (after cfg t₀ calls) c
    generalize (after cfg t₀ calls).call cfg t c = b' at hstep ⊢
    cases hstep with
    | pass _ => exact ⟨hle, hlt⟩
    | probe _ _ => simp
    | reject h _ => exact ⟨hle, by simp [h]⟩
    | close h _ =>
      exact ⟨hlt h, by simp⟩
    | probed h hp =>
      refine ⟨?_, fun _ => ?_⟩
      · exact le_max_of_le_right hp.le
      · exact lt_max_of_lt_right hp
    | success h => exact ⟨by simpa [Breaker.countSuccess, hroll] using hle, fun hh => absurd hh h⟩
    | reopen _ => simp
    | trip _ _ => exact ⟨by simpa [Breaker.countFailure, hroll] using hle, by simp⟩
    | failure h _ => exact ⟨by simpa [Breaker.countFailure, hroll] using hle, fun hh => absurd hh h⟩

/-- A run without failures never leaves `closed`. -/
lemma closed_of_no_failure (t₀ : ℕ) (calls : List (ℕ × BreakerCall))
    (h : ∀ c ∈ calls, c.2 ≠ .recordFailure) : (after cfg t₀ calls).state = .closed := by
  induction calls using List.reverseRecOn with
  | nil => rfl
  | append_singleton calls c ih =>
    have hc := ih fun c hc => h c (List.mem_append_left _ hc)
    obtain ⟨t, c⟩ := c
    have hne : c ≠ .recordFailure := h (t, c) (by simp)
    rw [after_snoc]
    have hstep := step_call cfg t (after cfg t₀ calls) c
    generalize (after cfg t₀ calls).call cfg t c = b' at hstep ⊢
    cases hstep with
    | pass _ => exact hc
    | probe hopen _ => rw [hopen] at hc; cases hc
    | reject _ _ => exact hc
    | close _ _ => rfl
    | probed _ _ => exact hc
    | success _ => exact hc
    | reopen _ => exact absurd rfl hne
    | trip _ _ => exact absurd rfl hne
    | failure _ _ => exact hc

end Sorted

/-- What makes the trip of a closed breaker by a failure at time `t` sound. -/
structure SoundTrip (t₀ : ℕ) (calls : List (ℕ × BreakerCall)) (t : ℕ) : Prop where
  /-- The counts are those of the outcomes since the last creation, close or roll. -/
  counted : Tallied (after cfg t₀ (calls ++ [(t, .recordFailure)])).window
    (evidence cfg t₀ (calls ++ [(t, .recordFailure)]))
  /-- With a window of positive width, these outcomes lie in the trailing interval. -/
  recent : 0 < cfg.window → ∀ o ∈ evidence cfg t₀ (calls ++ [(t, .recordFailure)]),
    o.time ≤ t ∧ t < o.time + cfg.window
  /-- With a window of width zero there is one of them, the failure itself. -/
  alone : cfg.window = 0 → evidence cfg t₀ (calls ++ [(t, .recordFailure)]) = [⟨t, false⟩]
  /-- They reach both thresholds. -/
  reaches : Reaches cfg (evidence cfg t₀ (calls ++ [(t, .recordFailure)]))
  /-- None of them was recorded before the breaker was closed after a half-open period. -/
  notReused : ∀ sofar c rest, calls ++ [(t, .recordFailure)] = sofar ++ c :: rest →
    (after cfg t₀ sofar).state = .halfOpen → (after cfg t₀ (sofar ++ [c])).state = .closed →
    evidence cfg t₀ (calls ++ [(t, .recordFailure)]) <:+ outcomes rest

/-- Trips are sound: whenever a failure moves the breaker from `closed` to `open`, it is judged by
exactly the outcomes since the last creation, close or roll, which are recent, reach the thresholds
and are not reused; without failures the breaker stays closed; the probe count is bounded. -/
theorem trips_sound (t₀ : ℕ) (calls : List (ℕ × BreakerCall))
    (hs : (t₀ :: calls.map Prod.fst).Pairwise (· ≤ ·)) :
    (∀ sofar t, sofar ++ [(t, .recordFailure)] <+: calls →
      (after cfg t₀ sofar).state = .closed →
      (after cfg t₀ (sofar ++ [(t, .recordFailure)])).state = .open →
      SoundTrip cfg t₀ sofar t) ∧
    ((∀ c ∈ calls, c.2 ≠ .recordFailure) → (after cfg t₀ calls).state = .closed) ∧
    (after cfg t₀ calls).window.probeSuccesses ≤ max 1 cfg.probeSuccesses := by
  refine ⟨fun sofar t hpre hc ho => ?_, closed_of_no_failure cfg t₀ calls,
    (probeSuccesses_le cfg t₀ calls).1⟩
  have hsorted : (t₀ :: (sofar ++ [(t, BreakerCall.recordFailure)]).map Prod.fst).Pairwise
      (· ≤ ·) := by
    refine hs.sublist (List.Sublist.cons_cons t₀ ?_)
    exact hpre.sublist.map Prod.fst
  obtain ⟨htally, hiff⟩ := trip_of_closed cfg hsorted hc
  refine ⟨?_, fun hw o hmem => evidence_in_window cfg hw hsorted hc hmem,
    fun hw => evidence_of_empty_window cfg hw hc, hiff.mp ho, ?_⟩
  · have htrip := (htally.tripsAt_iff cfg).mpr (hiff.mp ho)
    have hafter : after cfg t₀ (sofar ++ [(t, .recordFailure)]) =
        (after cfg t₀ sofar).recordFailure cfg t := after_snoc cfg t₀ sofar _
    rw [recordFailure_of_ne cfg (by simp [hc]), if_pos htrip] at hafter
    rw [hafter]
    exact ⟨htally.successes, htally.failures, htally.started⟩
  · intro before c rest heq hh hcl
    rw [heq]
    exact evidence_after_close cfg t₀ before rest c hh hcl

/-- Calls of a breaker that asks for four outcomes, half of them failures: it trips, closes after a
probe, and trips again when the window has rolled. -/
def twoTrips : List (ℕ × BreakerCall) :=
  [(1, .recordSuccess), (2, .recordFailure), (3, .recordSuccess), (4, .recordFailure),
    (20, .allow), (21, .recordSuccess),
    (30, .recordFailure), (130, .recordFailure), (131, .recordFailure), (132, .recordSuccess),
    (133, .recordFailure)]

/-- The second trip counts the four outcomes since the roll, neither those before the close nor the
failure at time 30; and with a window of width zero a failure counts itself, but not the success
recorded at the same time. -/
theorem trips_sound_twice :
    (after ⟨1 / 2, 4, 100, 10, 1⟩ 0 (twoTrips.take 3)).state = .closed ∧
    (after ⟨1 / 2, 4, 100, 10, 1⟩ 0 (twoTrips.take 4)).state = .open ∧
    SoundTrip ⟨1 / 2, 4, 100, 10, 1⟩ 0 (twoTrips.take 3) 4 ∧
    (after ⟨1 / 2, 4, 100, 10, 1⟩ 0 (twoTrips.take 10)).state = .closed ∧
    (after ⟨1 / 2, 4, 100, 10, 1⟩ 0 twoTrips).state = .open ∧
    evidence ⟨1 / 2, 4, 100, 10, 1⟩ 0 twoTrips =
      [⟨130, false⟩, ⟨131, false⟩, ⟨132, true⟩, ⟨133, false⟩] ∧
    SoundTrip ⟨1 / 2, 4, 100, 10, 1⟩ 0 (twoTrips.take 10) 133 ∧
    SoundTrip ⟨1 / 2, 1, 0, 10, 1⟩ 0 [(5, .recordSuccess)] 5 := by
  have hfirst : (after ⟨1 / 2, 4, 100, 10, 1⟩ 0 (twoTrips.take 3)).state = .closed ∧
      (after ⟨1 / 2, 4, 100, 10, 1⟩ 0 (twoTrips.take 4)).state = .open := by decide +kernel
  have hsecond : (after ⟨1 / 2, 4, 100, 10, 1⟩ 0 (twoTrips.take 10)).state = .closed ∧
      (after ⟨1 / 2, 4, 100, 10, 1⟩ 0 twoTrips).state = .open := by decide +kernel
  have hboth := (trips_sound ⟨1 / 2, 4, 100, 10, 1⟩ 0 twoTrips (by decide)).1
  refine ⟨hfirst.1, hfirst.2, hboth (twoTrips.take 3) 4 ?_ hfirst.1 hfirst.2, hsecond.1, hsecond.2,
    by decide +kernel, hboth (twoTrips.take 10) 133 List.prefix_rfl hsecond.1 hsecond.2, ?_⟩
  · exact List.take_prefix 4 twoTrips
  · exact (trips_sound ⟨1 / 2, 1, 0, 10, 1⟩ 0 [(5, .recordSuccess), (5, .recordFailure)]
      (by decide)).1 [(5, .recordSuccess)] 5 List.prefix_rfl (by decide +kernel) (by decide +kernel)

/-- With a window of width zero a failure at time 5 trips the breaker although no outcome can lie in
the empty trailing interval. -/
theorem trip_outside_empty_window :
    ((0 :: [(5, BreakerCall.recordFailure)].map Prod.fst).Pairwise (· ≤ ·)) ∧
    (after ⟨1 / 2, 1, 0, 10, 1⟩ 0 []).state = .closed ∧
    (after ⟨1 / 2, 1, 0, 10, 1⟩ 0 [(5, .recordFailure)]).state = .open ∧
    evidence ⟨1 / 2, 1, 0, 10, 1⟩ 0 [(5, .recordFailure)] = [⟨5, false⟩] ∧
    ¬ ∀ o ∈ evidence ⟨1 / 2, 1, 0, 10, 1⟩ 0 [(5, .recordFailure)], 5 < o.time + 0 := by
  refine ⟨by decide, rfl, by decide +kernel, by decide +kernel, by decide +kernel⟩

/-! ## The window tumbles -/

/-- The outcomes of a list of calls that lie in the trailing interval of time `t`. -/
def trailing (t : ℕ) (calls : List (ℕ × BreakerCall)) : List Outcome :=
  (outcomes calls).filter fun o => decide (t < o.time + cfg.window)

/-- Every call made in the trailing interval of time `t` finds the breaker closed. -/
def ClosedThroughout (t₀ : ℕ) (calls : List (ℕ × BreakerCall)) (t : ℕ) : Prop :=
  ∀ n, (h : n < calls.length) → t < calls[n].1 + cfg.window →
    (after cfg t₀ (calls.take n)).state = .closed

instance (t₀ : ℕ) (calls : List (ℕ × BreakerCall)) (t : ℕ) :
    Decidable (ClosedThroughout cfg t₀ calls t) :=
  inferInstanceAs (Decidable (∀ n, (h : n < calls.length) → t < calls[n].1 + cfg.window →
    (after cfg t₀ (calls.take n)).state = .closed))

/-- A suffix whose elements all pass a test is a suffix of what passes the test. -/
lemma suffix_filter {α : Type} {p : α → Bool} {l l' : List α} (h : l <:+ l')
    (hp : ∀ a ∈ l, p a = true) : l <:+ l'.filter p := by
  obtain ⟨old, rfl⟩ := h
  rw [List.filter_append, List.filter_eq_self.mpr hp]
  exact List.suffix_append _ _

/-- When the breaker has been closed throughout the trailing interval, what a failure at time `t` is
judged by is the part of that interval recorded since the last roll; so the failure opens the
circuit whenever the interval reaches the thresholds exactly if that part then does, too. -/
theorem opens_on_trailing_iff (hw : 0 < cfg.window) (t₀ t : ℕ) (calls : List (ℕ × BreakerCall))
    (hs : (t₀ :: (calls ++ [(t, BreakerCall.recordFailure)]).map Prod.fst).Pairwise (· ≤ ·))
    (hc : ClosedThroughout cfg t₀ (calls ++ [(t, .recordFailure)]) t) :
    evidence cfg t₀ (calls ++ [(t, .recordFailure)]) <:+
        trailing cfg t (calls ++ [(t, .recordFailure)]) ∧
      ((Reaches cfg (trailing cfg t (calls ++ [(t, .recordFailure)])) →
          (after cfg t₀ (calls ++ [(t, .recordFailure)])).state = .open) ↔
        (Reaches cfg (trailing cfg t (calls ++ [(t, .recordFailure)])) →
          Reaches cfg (evidence cfg t₀ (calls ++ [(t, .recordFailure)])))) := by
  have hclosed : (after cfg t₀ calls).state = .closed := by
    have h := hc calls.length (by simp) (by simpa using hw)
    simpa using h
  refine ⟨?_, ?_⟩
  · refine suffix_filter (evidence_suffix cfg t₀ _) fun o ho => ?_
    exact decide_eq_true (evidence_in_window cfg hw hs hclosed ho).2
  · rw [(trip_of_closed cfg hs hclosed).2]

/-- A burst of two failures inside one window: no roll separates them, and the circuit opens. -/
theorem opens_on_trailing_one_window :
    Reaches ⟨1 / 2, 2, 10, 10, 1⟩
      (trailing ⟨1 / 2, 2, 10, 10, 1⟩ 4 [(3, .recordFailure), (4, .recordFailure)]) ∧
    (after ⟨1 / 2, 2, 10, 10, 1⟩ 0 [(3, .recordFailure), (4, .recordFailure)]).state = .open := by
  have hreach : Reaches ⟨1 / 2, 2, 10, 10, 1⟩
      (trailing ⟨1 / 2, 2, 10, 10, 1⟩ 4 [(3, .recordFailure), (4, .recordFailure)]) := by
    decide +kernel
  exact ⟨hreach, (opens_on_trailing_iff ⟨1 / 2, 2, 10, 10, 1⟩ (by decide) 0 4
    [(3, .recordFailure)] (by decide) (by decide +kernel)).2.mpr (fun _ => by decide +kernel) hreach⟩

/-- Four failures within four time units, two on each side of a roll: the trailing interval reaches
the thresholds, the circuit stays closed. -/
theorem closed_on_straddling_burst :
    ((0 :: [(8, BreakerCall.recordFailure), (9, .recordFailure), (10, .recordFailure),
      (11, .recordFailure)].map Prod.fst).Pairwise (· ≤ ·)) ∧
    ClosedThroughout ⟨1 / 2, 4, 10, 10, 1⟩ 0
      [(8, .recordFailure), (9, .recordFailure), (10, .recordFailure), (11, .recordFailure)] 11 ∧
    Reaches ⟨1 / 2, 4, 10, 10, 1⟩ (trailing ⟨1 / 2, 4, 10, 10, 1⟩ 11
      [(8, .recordFailure), (9, .recordFailure), (10, .recordFailure), (11, .recordFailure)]) ∧
    (after ⟨1 / 2, 4, 10, 10, 1⟩ 0 [(8, .recordFailure), (9, .recordFailure),
      (10, .recordFailure), (11, .recordFailure)]).state = .closed := by
  refine ⟨by decide, by decide +kernel, by decide +kernel, by decide +kernel⟩

end Breaker

end HsmProxy
