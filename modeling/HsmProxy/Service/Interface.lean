import HsmProxy.Interleaving.System
import HsmProxy.Authz.Identity
import HsmProxy.Cache.PublicKeyCache
import HsmProxy.Crypto.Prepare
import HsmProxy.Pkcs11.Pool
import HsmProxy.Pkcs11.Token
import HsmProxy.Resilience.Breaker
import HsmProxy.Resilience.RateLimiter

/-!
# The shared state of a running proxy

Handlers and workers are programs over one interface, `Op`: every atomic step on something they
share is an operation, with the answer it returns.  `Shared` is what they share, `execOp` is what
an operation does to it.  Everything that is not in the repository (the PKCS#11 module, `governor`,
the cryptography crates, `x509-parser`) is a `Platform`, and the development is parametric in it.
-/

namespace HsmProxy

open Interleaving

/-- The third-party code the proxy runs on. -/
structure Platform where
  token : TokenModel
  governor : Governor
  crypto : CryptoLibs
  /-- `X509Certificate::from_der`. -/
  fromDer : Bytes → Option X509Certificate
  /-- `GcmParams::new`. -/
  gcmParams : Bytes → Bytes → ℕ → Except String Unit
  /-- The text of a cryptoki error. -/
  display : CryptokiError → String
  /-- The debug text of an attribute. -/
  debugAttribute : Option Attribute → String

/-- The counters of `telemetry/metrics.rs` that `PooledService::record` increments; the result of
a request is its status code, or `none` when it succeeded. -/
inductive Metric where
  | requestsTotal (operation : Operation) (result : Option Code)
  | rateLimited (operation : Operation)
  | authzDenied (operation : Operation)
  | unauthenticated
  | authzAllowed (operation : Operation)
  deriving DecidableEq, Repr

/-- The atomic steps of handlers and workers. -/
inductive Op where
  | breaker (o : BreakerOp)
  | authz (o : AuthzOp)
  | limiterCheck (identity : String)
  | cache (o : CacheOp)
  | pool (o : PoolOp)
  | token (o : TokenOp)
  | record (metric : Metric)
  | now
  | randomIv
  | lockSession
  | unlockSession
  deriving DecidableEq

/-- What the atomic steps return. -/
abbrev Op.Ans : Op → Type
  | .breaker o => o.Ans
  | .authz o => o.Ans
  | .limiterCheck _ => Bool
  | .cache o => o.Ans
  | .pool o => o.Ans
  | .token o => o.Ans
  | .record _ => Unit
  | .now => ℕ
  | .randomIv => Bytes
  | .lockSession => Unit
  | .unlockSession => Unit

/-- The configuration of the service; `none` for an absent authorizer or rate limiter. -/
structure ServiceConfig where
  authorizer : Option Policy
  rateLimiter : Option RateLimitConfig
  breaker : BreakerConfig
  cache : CacheConfig
  pool : PoolConfig

/-- Everything handlers and workers share. -/
structure Shared (P : Platform) where
  now : ℕ
  breaker : Breaker
  authz : AuthzState
  limiter : LimiterState P.governor
  cache : CacheState
  pool : PoolState
  token : P.token.State
  telemetry : List Metric
  /-- The holder of the mutex around the one session of `SingleSessionService`. -/
  sessionLock : Option ℕ

/-- What the environment decides about one step: the answer of the token, and random bytes. -/
structure Choice where
  token : (o : TokenOp) → o.Ans
  random : Bytes

/-- 96-bit IV: the standard GCM size. -/
def gcmIvLen : ℕ := 12

variable {P : Platform}

/-- One atomic step by thread `tid`; `none` when it cannot proceed in this state, or when the
environment's choice is not one that can occur. -/
def execOp (cfg : ServiceConfig) (e : Choice) (tid : ℕ) (s : Shared P) :
    (o : Op) → Option (o.Ans × Shared P)
  | .breaker o =>
    let (a, b) := s.breaker.exec cfg.breaker s.now o
    some (a, { s with breaker := b })
  | .authz o =>
    let (a, z) := s.authz.exec o
    some (a, { s with authz := z })
  | .limiterCheck identity =>
    match cfg.rateLimiter with
    | none => none
    | some limit =>
      let (a, l) := s.limiter.check limit s.now identity
      some (a, { s with limiter := l })
  | .cache o => (s.cache.exec cfg.cache s.now tid o).map fun r => (r.1, { s with cache := r.2 })
  | .pool o => (s.pool.exec cfg.pool s.now tid o).map fun r => (r.1, { s with pool := r.2 })
  | .token o => (P.token.answer s.token o (e.token o)).map fun t => (e.token o, { s with token := t })
  | .record m => some ((), { s with telemetry := s.telemetry ++ [m] })
  | .now => some (s.now, s)
  | .randomIv => if e.random.length = gcmIvLen then some (e.random, s) else none
  | .lockSession =>
    match s.sessionLock with
    | none => some ((), { s with sessionLock := some tid })
    | some _ => none
  | .unlockSession => some ((), { s with sessionLock := none })

/-- Programs of handlers and workers. -/
abbrev Program (α : Type) := Prog Op.Ans α

/-- Programs that may end in a gRPC status. -/
abbrev Handler (α : Type) := ExceptT Status (Prog Op.Ans) α

namespace Program

/-- One atomic step of the breaker. -/
def breaker (o : BreakerOp) : Program o.Ans := Prog.op (Op.breaker o)

/-- One atomic step of the authorizer. -/
def authz (o : AuthzOp) : Program o.Ans := Prog.op (Op.authz o)

/-- `RateLimiter::check`. -/
def limiterCheck (identity : String) : Program Bool := Prog.op (Op.limiterCheck identity)

/-- One atomic step of the public key cache. -/
def cache (o : CacheOp) : Program o.Ans := Prog.op (Op.cache o)

/-- One atomic step of the pool. -/
def pool (o : PoolOp) : Program o.Ans := Prog.op (Op.pool o)

/-- One call into the PKCS#11 module. -/
def token (o : TokenOp) : Program o.Ans := Prog.op (Op.token o)

/-- Increment an exported counter. -/
def record (m : Metric) : Program Unit := Prog.op (Op.record m)

/-- `Instant::now`. -/
def now : Program ℕ := Prog.op Op.now

/-- A fresh IV from the thread's random generator. -/
def randomIv : Program Bytes := Prog.op Op.randomIv

/-- Take the mutex around the one session of `SingleSessionService`. -/
def lockSession : Program Unit := Prog.op Op.lockSession

/-- Release that mutex. -/
def unlockSession : Program Unit := Prog.op Op.unlockSession

/-- `PoolMetrics::incr`. -/
def incr (c : PoolCounter) : Program Unit := pool (.count c 1)

end Program

end HsmProxy
