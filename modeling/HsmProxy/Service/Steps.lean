import HsmProxy.Pkcs11.PoolSteps
import HsmProxy.Service.System

/-!
# What one step does to each component

An operation changes the component it belongs to and no other.  The lemmas here are the inversions
of `execOp`, one for each component that an invariant looks at, and the account of the counters of
the pool: a counter is the sum of what the trace has counted.
-/

namespace HsmProxy

open Interleaving

variable {P : Platform} {cfg : ServiceConfig} {e : Choice} {tid : ℕ} {s s' : Shared P}

/-- A step of the pool. -/
lemma execOp_pool {q : PoolOp} {a : q.Ans} :
    execOp cfg e tid s (.pool q) = some (a, s') ↔
      ∃ p, s.pool.exec cfg.pool s.now tid q = some (a, p) ∧ s' = { s with pool := p } := by
  unfold execOp
  rw [Option.map_eq_some_iff]
  constructor
  · rintro ⟨⟨a', p⟩, hp, heq⟩
    obtain ⟨rfl, rfl⟩ := Prod.mk.inj heq
    exact ⟨p, hp, rfl⟩
  · rintro ⟨p, hp, rfl⟩
    exact ⟨(a, p), hp, rfl⟩

/-- A step of the cache. -/
lemma execOp_cache {q : CacheOp} {a : q.Ans} :
    execOp cfg e tid s (.cache q) = some (a, s') ↔
      ∃ p, s.cache.exec cfg.cache s.now tid q = some (a, p) ∧ s' = { s with cache := p } := by
  unfold execOp
  rw [Option.map_eq_some_iff]
  constructor
  · rintro ⟨⟨a', p⟩, hp, heq⟩
    obtain ⟨rfl, rfl⟩ := Prod.mk.inj heq
    exact ⟨p, hp, rfl⟩
  · rintro ⟨p, hp, rfl⟩
    exact ⟨(a, p), hp, rfl⟩

/-- A step of the breaker. -/
lemma execOp_breaker {q : BreakerOp} {a : q.Ans} :
    execOp cfg e tid s (.breaker q) = some (a, s') ↔
      a = (s.breaker.exec cfg.breaker s.now q).1 ∧
        s' = { s with breaker := (s.breaker.exec cfg.breaker s.now q).2 } := by
  unfold execOp
  simp [Prod.ext_iff, eq_comm]

/-- What a step leaves alone: the clock, and every component but its own. -/
structure StepFrame (o : Op) (s s' : Shared P) : Prop where
  now : s'.now = s.now
  breaker : (∀ q, o ≠ .breaker q) → s'.breaker = s.breaker
  authz : (∀ q, o ≠ .authz q) → s'.authz = s.authz
  limiter : (∀ identity, o ≠ .limiterCheck identity) → s'.limiter = s.limiter
  cache : (∀ q, o ≠ .cache q) → s'.cache = s.cache
  pool : (∀ q, o ≠ .pool q) → s'.pool = s.pool
  token : (∀ q, o ≠ .token q) → s'.token = s.token
  telemetry : (∀ m, o ≠ .record m) → s'.telemetry = s.telemetry

/-- A step changes the component its operation belongs to. -/
theorem execOp_frame {o : Op} {a : o.Ans} (h : execOp cfg e tid s o = some (a, s')) :
    StepFrame o s s' := by
  cases o with
  | breaker q =>
    obtain ⟨-, rfl⟩ := execOp_breaker.mp h
    exact ⟨rfl, fun hq => absurd rfl (hq q), fun _ => rfl, fun _ => rfl, fun _ => rfl, fun _ => rfl,
      fun _ => rfl, fun _ => rfl⟩
  | authz q =>
    cases h
    exact ⟨rfl, fun _ => rfl, fun hq => absurd rfl (hq q), fun _ => rfl, fun _ => rfl, fun _ => rfl,
      fun _ => rfl, fun _ => rfl⟩
  | limiterCheck identity =>
    simp only [execOp] at h
    split at h
    · cases h
    · cases h
      exact ⟨rfl, fun _ => rfl, fun _ => rfl, fun hq => absurd rfl (hq identity), fun _ => rfl,
        fun _ => rfl, fun _ => rfl, fun _ => rfl⟩
  | cache q =>
    obtain ⟨p, -, rfl⟩ := execOp_cache.mp h
    exact ⟨rfl, fun _ => rfl, fun _ => rfl, fun _ => rfl, fun hq => absurd rfl (hq q), fun _ => rfl,
      fun _ => rfl, fun _ => rfl⟩
  | pool q =>
    obtain ⟨p, -, rfl⟩ := execOp_pool.mp h
    exact ⟨rfl, fun _ => rfl, fun _ => rfl, fun _ => rfl, fun _ => rfl, fun hq => absurd rfl (hq q),
      fun _ => rfl, fun _ => rfl⟩
  | token q =>
    unfold execOp at h
    obtain ⟨t, -, heq⟩ := Option.map_eq_some_iff.mp h
    cases heq
    exact ⟨rfl, fun _ => rfl, fun _ => rfl, fun _ => rfl, fun _ => rfl, fun _ => rfl,
      fun hq => absurd rfl (hq q), fun _ => rfl⟩
  | randomIv =>
    simp only [execOp] at h
    split at h
    · cases h
      exact ⟨rfl, fun _ => rfl, fun _ => rfl, fun _ => rfl, fun _ => rfl, fun _ => rfl, fun _ => rfl,
        fun _ => rfl⟩
    · cases h
  | lockSession =>
    simp only [execOp] at h
    split at h
    · cases h
      exact ⟨rfl, fun _ => rfl, fun _ => rfl, fun _ => rfl, fun _ => rfl, fun _ => rfl, fun _ => rfl,
        fun _ => rfl⟩
    · cases h
  | record m =>
    cases h
    exact ⟨rfl, fun _ => rfl, fun _ => rfl, fun _ => rfl, fun _ => rfl, fun _ => rfl, fun _ => rfl,
      fun hm => absurd rfl (hm m)⟩
  | now =>
    cases h
    exact ⟨rfl, fun _ => rfl, fun _ => rfl, fun _ => rfl, fun _ => rfl, fun _ => rfl, fun _ => rfl,
      fun _ => rfl⟩
  | unlockSession =>
    cases h
    exact ⟨rfl, fun _ => rfl, fun _ => rfl, fun _ => rfl, fun _ => rfl, fun _ => rfl, fun _ => rfl,
      fun _ => rfl⟩

/-! ## The counters of the pool -/

/-- What an event adds to a counter of the pool. -/
def counted (c : PoolCounter) : Event Op.Ans → ℕ
  | ⟨.pool (.count c' n), _⟩ => if c' = c then n else 0
  | _ => 0

/-- A step adds to a counter what it counts. -/
lemma execOp_counters {o : Op} {a : o.Ans} (h : execOp cfg e tid s o = some (a, s'))
    (c : PoolCounter) : s'.pool.counters c = s.pool.counters c + counted c ⟨o, a⟩ := by
  by_cases ho : ∃ q, o = .pool q
  · obtain ⟨q, rfl⟩ := ho
    obtain ⟨p, hp, rfl⟩ := execOp_pool.mp h
    cases q with
    | count c' n =>
      cases hp
      by_cases hc : c' = c
      · subst hc
        simp [counted]
      · simp [counted, hc, Function.update_of_ne (Ne.symm hc)]
    | trySend request enqueuedAt =>
      obtain ⟨-, ⟨-, -, rfl⟩ | ⟨w, ws, -, -, -, rfl⟩ | ⟨-, -, -, -, rfl⟩ | ⟨-, -, -, -, rfl⟩⟩ :=
        PoolState.exec_trySend hp <;> rfl
    | awaitResult j deadline =>
      obtain ⟨o, -, rfl, -⟩ := PoolState.exec_awaitResult hp
      rfl
    | poll =>
      obtain ⟨job, rest, -, -, rfl⟩ | ⟨-, -, -, rfl⟩ | ⟨-, -, -, rfl⟩ := PoolState.exec_poll hp <;> rfl
    | unpark =>
      obtain ⟨job, -, -, rfl⟩ | ⟨-, -, -, rfl⟩ := PoolState.exec_unpark hp <;> rfl
    | respond j r =>
      cases hp
      rfl
  · rw [(execOp_frame h).pool fun q hq => ho ⟨q, hq⟩]
    cases o with
    | pool q => exact absurd ⟨q, rfl⟩ ho
    | _ => rfl

/-- Every counter of the pool is the sum of what the trace has counted. -/
def Counted (s : Shared P) (tr : List (Entry Op.Ans (Shared P) Party)) : Prop :=
  ∀ c, s.pool.counters c = total (counted c) (tr.map Entry.event)

namespace Counted

/-- Nothing has been counted at the start. -/
lemma start {t₀ n : ℕ} {token : P.token.State} : Counted (Shared.start P t₀ n token) [] :=
  fun _ => rfl

/-- A step keeps the account. -/
lemma exec {o : Op} {a : o.Ans} {i : ℕ} {l : Party} {hist : List (Event Op.Ans)}
    {tr : List (Entry Op.Ans (Shared P) Party)} (h : execOp cfg e tid s o = some (a, s'))
    (hs : Counted s tr) : Counted s' (tr ++ [⟨i, l, hist, s, ⟨o, a⟩⟩]) := by
  intro c
  rw [execOp_counters h c, hs c, List.map_append, List.map_singleton, total_snoc]

/-- Dropping a thread counts nothing. -/
lemma release {l : Party} {tr : List (Entry Op.Ans (Shared P) Party)} (hs : Counted s tr) :
    Counted (release P tid l s) tr := by
  cases l <;> exact hs

/-- The environment counts nothing. -/
lemma env {v : EnvAction P} {tr : List (Entry Op.Ans (Shared P) Party)} (hs : Counted s tr) :
    Counted (envStep P v s) tr := by
  cases v <;> exact hs

end Counted

end HsmProxy
