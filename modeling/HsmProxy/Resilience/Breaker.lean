import HsmProxy.Wire.Messages
import Mathlib.Algebra.Order.Field.Rat
import Mathlib.Order.Basic

/-!
# The circuit breaker

`resilience/breaker.rs`: a state that is read without a lock, and a window of counts behind a
mutex.  Times are nanoseconds of a monotonic clock, so `Instant::elapsed` is a difference of
naturals; the failure ratio is an exact rational.

The atomic steps are `load` (the unlocked read in `allow`), `probe` (the critical section `allow`
enters when it has read `open`), `recordSuccess` and `recordFailure` (one critical section each).
-/

namespace HsmProxy

/-- Circuit state. -/
inductive BreakerState where
  | closed
  | open
  | halfOpen
  deriving DecidableEq, Repr

/-- `BreakerConfig`. -/
structure BreakerConfig where
  failureRatio : ℚ
  minimumRequests : ℕ
  window : ℕ
  cooldown : ℕ
  probeSuccesses : ℕ

/-- Counts inside the current window, plus when the window started. -/
structure Window where
  started : ℕ
  successes : ℕ
  failures : ℕ
  openedAt : Option ℕ
  probeSuccesses : ℕ
  deriving DecidableEq, Repr

/-- `CircuitBreaker`, without its configuration. -/
structure Breaker where
  state : BreakerState
  window : Window
  trips : ℕ
  rejected : ℕ
  deriving DecidableEq, Repr

/-- The operations on the breaker that are atomic. -/
inductive BreakerOp where
  | load
  | probe
  | recordSuccess
  | recordFailure
  deriving DecidableEq, Repr

/-- What the atomic operations return. -/
abbrev BreakerOp.Ans : BreakerOp → Type
  | .load => BreakerState
  | .probe => Bool
  | .recordSuccess => Unit
  | .recordFailure => Unit

namespace Breaker

/-- `CircuitBreaker::new` at time `now`. -/
def new (now : ℕ) : Breaker where
  state := .closed
  window := ⟨now, 0, 0, none, 0⟩
  trips := 0
  rejected := 0

/-- `reset_window`. -/
def resetWindow (now : ℕ) (w : Window) : Window :=
  { w with started := now, successes := 0, failures := 0 }

/-- `roll_if_stale`. -/
def rollIfStale (cfg : BreakerConfig) (now : ℕ) (w : Window) : Window :=
  if cfg.window ≤ now - w.started then resetWindow now w else w

/-- Has the cooldown elapsed since the breaker last opened? -/
def cooledDown (cfg : BreakerConfig) (now : ℕ) (w : Window) : Bool :=
  match w.openedAt with
  | some t => decide (cfg.cooldown ≤ now - t)
  | none => false

/-- The critical section of `allow`.  It does not look at the state again. -/
def probe (cfg : BreakerConfig) (now : ℕ) (b : Breaker) : Bool × Breaker :=
  if cooledDown cfg now b.window then
    (true, { b with window := { b.window with probeSuccesses := 0 }, state := .halfOpen })
  else
    (false, { b with rejected := b.rejected + 1 })

/-- `record_success`. -/
def recordSuccess (cfg : BreakerConfig) (now : ℕ) (b : Breaker) : Breaker :=
  match b.state with
  | .halfOpen =>
    let w := { b.window with probeSuccesses := b.window.probeSuccesses + 1 }
    if cfg.probeSuccesses ≤ w.probeSuccesses then
      { b with window := resetWindow now w, state := .closed }
    else
      { b with window := w }
  | _ =>
    let w := rollIfStale cfg now b.window
    { b with window := { w with successes := w.successes + 1 } }

/-- Do the counts of a window reach both thresholds? -/
def tripsAt (cfg : BreakerConfig) (w : Window) : Bool :=
  decide (cfg.minimumRequests ≤ w.successes + w.failures) &&
    decide (cfg.failureRatio ≤ (w.failures : ℚ) / ((w.successes + w.failures : ℕ) : ℚ))

/-- `record_failure`. -/
def recordFailure (cfg : BreakerConfig) (now : ℕ) (b : Breaker) : Breaker :=
  match b.state with
  | .halfOpen =>
    { b with
      window := { b.window with openedAt := some now, probeSuccesses := 0 }
      state := .open }
  | _ =>
    let rolled := rollIfStale cfg now b.window
    let w := { rolled with failures := rolled.failures + 1 }
    if tripsAt cfg w then
      { b with
        window := { w with openedAt := some now }
        state := .open
        trips := b.trips + 1 }
    else
      { b with window := w }

/-- One atomic operation at time `now`. -/
def exec (cfg : BreakerConfig) (now : ℕ) (b : Breaker) : (o : BreakerOp) → o.Ans × Breaker
  | .load => (b.state, b)
  | .probe => probe cfg now b
  | .recordSuccess => ((), recordSuccess cfg now b)
  | .recordFailure => ((), recordFailure cfg now b)

end Breaker

end HsmProxy
