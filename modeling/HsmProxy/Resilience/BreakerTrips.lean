import HsmProxy.Resilience.BreakerCalls

/-!
# What the trip counter counts

`trips` is exported as the number of times the circuit breaker has opened.  An opening is a
transition into `open` from another state; `record_failure` opens the circuit in two places and
counts in one of them, which it also reaches while the circuit is open already.  The counter is the
number of openings along a list of calls exactly as long as no failure is reported while probing,
and none that reaches the thresholds while the circuit is open (`tripsCountOpenings_iff`).
-/

namespace HsmProxy

namespace Breaker

variable (cfg : BreakerConfig)

/-- Does a call open the circuit? -/
def opens (b : Breaker) (now : ℕ) (c : BreakerCall) : Bool :=
  b.state ≠ .open ∧ (b.call cfg now c).state = .open

/-- One call, together with the number of openings. -/
def openingStep (acc : Breaker × ℕ) (c : ℕ × BreakerCall) : Breaker × ℕ :=
  (acc.1.call cfg c.1 c.2, acc.2 + if opens cfg acc.1 c.1 c.2 then 1 else 0)

/-- The number of transitions into `open` from another state. -/
def openings (t₀ : ℕ) (calls : List (ℕ × BreakerCall)) : ℕ :=
  (calls.foldl (openingStep cfg) (new t₀, 0)).2

/-- The first component of the fold behind `openings` is the breaker itself. -/
lemma foldl_openingStep_fst (t₀ : ℕ) (calls : List (ℕ × BreakerCall)) :
    (calls.foldl (openingStep cfg) (new t₀, 0)).1 = after cfg t₀ calls := by
  induction calls using List.reverseRecOn with
  | nil => rfl
  | append_singleton calls c ih => simp [List.foldl_append, openingStep, ih]

/-- One more call. -/
lemma openings_snoc (t₀ : ℕ) (calls : List (ℕ × BreakerCall)) (c : ℕ × BreakerCall) :
    openings cfg t₀ (calls ++ [c]) =
      openings cfg t₀ calls + if opens cfg (after cfg t₀ calls) c.1 c.2 then 1 else 0 := by
  unfold openings
  rw [List.foldl_append, ← foldl_openingStep_fst]
  rfl

/-- A call that the counter gets wrong: a failed probe opens the circuit without being counted, and
a failure that reaches the thresholds while the circuit is open is counted without opening it. -/
def Miscounts (b : Breaker) (now : ℕ) (c : BreakerCall) : Prop :=
  c = .recordFailure ∧ (b.state = .halfOpen ∨
    b.state = .open ∧ tripsAt cfg (countFailure cfg now b.window) = true)

/-- One call counts what it opens, unless it is one of those. -/
lemma trips_call_iff (b : Breaker) (now : ℕ) (c : BreakerCall) :
    (b.call cfg now c).trips = b.trips + (if opens cfg b now c then 1 else 0) ↔
      ¬ Miscounts cfg b now c := by
  unfold opens Miscounts
  have hstep := step_call cfg now b c
  generalize b.call cfg now c = b' at *
  cases hstep with
  | pass h => simp [h]
  | probe h _ => simp [h]
  | reject h _ => simp [h]
  | close h _ => simp [h]
  | probed h _ => simp [h]
  | success h => simp
  | reopen h => simp [h]
  | trip h ht =>
    by_cases hopen : b.state = .open
    · simp [hopen, ht]
    · simp [hopen, h]
  | failure h ht => simp [h, ht]

/-- Along the whole list of calls, the counter is the number of openings. -/
def TripsCountOpenings (t₀ : ℕ) (calls : List (ℕ × BreakerCall)) : Prop :=
  ∀ sofar, sofar <+: calls → (after cfg t₀ sofar).trips = openings cfg t₀ sofar

/-- No failure is reported while the circuit is half-open, and none that finds counts reaching the
trip thresholds while it is open. -/
def NoMiscount (t₀ : ℕ) (calls : List (ℕ × BreakerCall)) : Prop :=
  ∀ sofar t, sofar ++ [(t, .recordFailure)] <+: calls →
    (after cfg t₀ sofar).state ≠ .halfOpen ∧
    ((after cfg t₀ sofar).state = .open →
      tripsAt cfg (countFailure cfg t (after cfg t₀ sofar).window) = false)

/-- Trips are the openings of the circuit exactly as long as no probe fails and no failure reported
while the circuit is open reaches the thresholds again. -/
theorem tripsCountOpenings_iff (t₀ : ℕ) (calls : List (ℕ × BreakerCall)) :
    TripsCountOpenings cfg t₀ calls ↔ NoMiscount cfg t₀ calls := by
  constructor
  · intro h sofar t hpre
    have hbefore := h sofar ((List.prefix_append _ _).trans hpre)
    have hafter := h _ hpre
    rw [openings_snoc, after_snoc, ← hbefore] at hafter
    have hcounts := (trips_call_iff cfg _ t .recordFailure).mp hafter
    refine ⟨fun hhalf => hcounts ⟨rfl, Or.inl hhalf⟩, fun hopen => ?_⟩
    by_contra htrips
    exact hcounts ⟨rfl, Or.inr ⟨hopen, (Bool.not_eq_false _).mp htrips⟩⟩
  · intro h sofar hpre
    induction sofar using List.reverseRecOn with
    | nil => rfl
    | append_singleton sofar c ih =>
      have hsofar := ih ((List.prefix_append _ _).trans hpre)
      rw [openings_snoc, after_snoc, ← hsofar, trips_call_iff]
      obtain ⟨t, c⟩ := c
      rintro ⟨rfl, hhalf | ⟨hopen, htrips⟩⟩
      · exact (h sofar t hpre).1 hhalf
      · have hquiet := (h sofar t hpre).2 hopen
        rw [htrips] at hquiet
        cases hquiet

/-- A failure, a probe after the cooldown, and the failure of the probe: the circuit has opened
twice and the counter says once.  Two failures in a row: it has opened once and the counter says
twice. -/
theorem not_tripsCountOpenings :
    openings ⟨1 / 2, 1, 100, 10, 1⟩ 0 [(0, .recordFailure), (10, .allow), (11, .recordFailure)] = 2 ∧
    (after ⟨1 / 2, 1, 100, 10, 1⟩ 0
      [(0, .recordFailure), (10, .allow), (11, .recordFailure)]).trips = 1 ∧
    openings ⟨1 / 2, 1, 100, 10, 1⟩ 0 [(0, .recordFailure), (1, .recordFailure)] = 1 ∧
    (after ⟨1 / 2, 1, 100, 10, 1⟩ 0 [(0, .recordFailure), (1, .recordFailure)]).trips = 2 := by
  decide +kernel

end Breaker

end HsmProxy
