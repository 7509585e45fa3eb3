import HsmProxy.Wire.Messages
import Mathlib.Data.List.AList

/-!
# Per-identity rate limiting

`resilience/ratelimit.rs`: one bucket per identity, created on first use and kept in a bounded
cache.  The bucket itself is `governor`'s direct limiter, a parameter here; which buckets the
bounded cache drops, and when, is left to the environment.
-/

namespace HsmProxy

/-- `RateLimitConfig`. -/
structure RateLimitConfig where
  perSecond : ℕ
  burst : ℕ
  maxIdentities : ℕ

/-- `governor::Quota`: neither component is zero. -/
structure Quota where
  perSecond : ℕ
  burst : ℕ
  perSecond_pos : 0 < perSecond
  burst_pos : 0 < burst

/-- The quota of `RateLimiter::new`. -/
def RateLimitConfig.quota (cfg : RateLimitConfig) : Quota where
  perSecond := max cfg.perSecond 1
  burst := max cfg.burst 1
  perSecond_pos := Nat.lt_of_lt_of_le Nat.zero_lt_one (Nat.le_max_right _ _)
  burst_pos := Nat.lt_of_lt_of_le Nat.zero_lt_one (Nat.le_max_right _ _)

/-- `governor`'s direct limiter: a fresh bucket, and one check at a time. -/
structure Governor where
  Bucket : Type
  direct : Quota → Bucket
  check : Bucket → ℕ → Bool × Bucket

/-- The shared state of a `RateLimiter`. -/
structure LimiterState (G : Governor) where
  buckets : AList fun _ : String => G.Bucket
  allowed : ℕ
  rejected : ℕ

namespace LimiterState

variable {G : Governor}

/-- `RateLimiter::new`. -/
def new : LimiterState G := ⟨∅, 0, 0⟩

/-- `RateLimiter::check` at time `now`. -/
def check (cfg : RateLimitConfig) (now : ℕ) (s : LimiterState G) (identity : String) :
    Bool × LimiterState G :=
  let bucket := (s.buckets.lookup identity).getD (G.direct cfg.quota)
  let (ok, bucket') := G.check bucket now
  let s' := { s with buckets := s.buckets.insert identity bucket' }
  if ok then (true, { s' with allowed := s.allowed + 1 })
  else (false, { s' with rejected := s.rejected + 1 })

/-- The bounded cache drops a bucket. -/
def evict (identity : String) (s : LimiterState G) : LimiterState G :=
  { s with buckets := s.buckets.erase identity }

end LimiterState

end HsmProxy
