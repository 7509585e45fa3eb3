import HsmProxy.Pkcs11.Job
import Mathlib.Data.List.AList

/-!
# The public key cache

`cache/mod.rs` over the moka cache it wraps.  moka is third-party code; what the proxy relies on
is modelled by the state below: a live entry is returned until the duration chosen at its creation
has elapsed, `try_get_with` returns a live entry, joins a load in progress for the same label, or
makes the caller run the load itself, and hands the outcome of a load, error or not, to every
caller that joined it.  When the caller that runs a load is dropped, the load is left `vacant` and
one of the callers that joined it, or the next one to arrive, runs it.
-/

namespace HsmProxy

/-- A public key as the token gave it to us, re-encoded as DER SubjectPublicKeyInfo. -/
structure CachedPublicKey where
  spkiDer : Bytes
  keyType : String
  deriving DecidableEq, Repr

/-- Cached lookup outcome. -/
inductive Lookup where
  | found (key : CachedPublicKey)
  | notFound
  deriving DecidableEq, Repr

/-- `CacheConfig`, without the capacity: what is evicted, and when, is left to the environment. -/
structure CacheConfig where
  ttl : ℕ
  negativeTtl : ℕ

/-- `TtlByOutcome::expire_after_create`. -/
def CacheConfig.expireAfterCreate (cfg : CacheConfig) : Lookup → ℕ
  | .found _ => cfg.ttl
  | .notFound => cfg.negativeTtl

/-- An entry and the time at which it stops being live. -/
structure CacheEntry where
  value : Lookup
  expires : ℕ
  deriving DecidableEq, Repr

/-- A load of a label: who runs it (`none` when its runner was dropped), and how it ended. -/
structure Load where
  label : String
  owner : Option ℕ
  outcome : Option (Except PoolError Lookup)
  deriving DecidableEq

/-- `CacheMetrics`. -/
structure CacheMetrics where
  hits : ℕ
  misses : ℕ
  negativeHits : ℕ
  deriving DecidableEq, Repr

/-- The cache: its entries, the ticket of the load in progress for a label, every load by its
ticket, the next ticket, and the counters. -/
structure CacheState where
  entries : AList fun _ : String => CacheEntry
  inflight : AList fun _ : String => ℕ
  loads : ℕ → Option Load
  nextTicket : ℕ
  metrics : CacheMetrics

/-- What `try_get_with` finds. -/
inductive Entered where
  | hit (value : Lookup)
  | own (ticket : ℕ)
  | join (ticket : ℕ)
  deriving DecidableEq, Repr

/-- How waiting for a load ends. -/
inductive Joined where
  | finished (outcome : Except PoolError Lookup)
  | own
  deriving DecidableEq

/-- The atomic operations on the cache. -/
inductive CacheOp where
  | containsKey (label : String)
  | enter (label : String)
  | wait (ticket : ℕ)
  | finish (ticket : ℕ) (outcome : Except PoolError Lookup)
  | countHit (negative : Bool)
  | countMiss
  deriving DecidableEq

/-- What the atomic operations return. -/
abbrev CacheOp.Ans : CacheOp → Type
  | .containsKey _ => Bool
  | .enter _ => Entered
  | .wait _ => Joined
  | .finish _ _ => Unit
  | .countHit _ => Unit
  | .countMiss => Unit

namespace CacheState

/-- The empty cache. -/
def new : CacheState where
  entries := ∅
  inflight := ∅
  loads _ := none
  nextTicket := 0
  metrics := ⟨0, 0, 0⟩

/-- The value stored under a label, if it has not expired. -/
def live (s : CacheState) (now : ℕ) (label : String) : Option Lookup :=
  match s.entries.lookup label with
  | some e => if now < e.expires then some e.value else none
  | none => none

/-- Replace the load with ticket `k`. -/
def setLoad (s : CacheState) (k : ℕ) (l : Load) : CacheState :=
  { s with loads := Function.update s.loads k (some l) }

/-- `try_get_with`, up to the point where the caller has a value, runs the load or waits. -/
def enter (now tid : ℕ) (s : CacheState) (label : String) : Entered × CacheState :=
  match s.live now label with
  | some value => (.hit value, s)
  | none =>
    match s.inflight.lookup label with
    | some k =>
      match s.loads k with
      | some ⟨_, some _, _⟩ => (.join k, s)
      | _ => (.own k, s.setLoad k ⟨label, some tid, none⟩)
    | none =>
      (.own s.nextTicket,
        { s.setLoad s.nextTicket ⟨label, some tid, none⟩ with
          inflight := s.inflight.insert label s.nextTicket
          nextTicket := s.nextTicket + 1 })

/-- Waiting for the load with ticket `k`; `none` while it is still running. -/
def wait (tid : ℕ) (s : CacheState) (k : ℕ) : Option (Joined × CacheState) :=
  match s.loads k with
  | some ⟨_, _, some outcome⟩ => some (.finished outcome, s)
  | some ⟨label, none, none⟩ => some (.own, s.setLoad k ⟨label, some tid, none⟩)
  | _ => none

/-- The runner of the load with ticket `k` publishes its outcome; only a value is stored. -/
def finish (cfg : CacheConfig) (now : ℕ) (s : CacheState) (k : ℕ)
    (outcome : Except PoolError Lookup) : CacheState :=
  match s.loads k with
  | some ⟨label, owner, _⟩ =>
    let s' := { s.setLoad k ⟨label, owner, some outcome⟩ with
      inflight := s.inflight.erase label }
    match outcome with
    | .ok value =>
      { s' with entries := s.entries.insert label ⟨value, now + cfg.expireAfterCreate value⟩ }
    | .error _ => s'
  | none => s

/-- One atomic operation at time `now` by thread `tid`. -/
def exec (cfg : CacheConfig) (now tid : ℕ) (s : CacheState) :
    (o : CacheOp) → Option (o.Ans × CacheState)
  | .containsKey label => some ((s.live now label).isSome, s)
  | .enter label => some (enter now tid s label)
  | .wait k => wait tid s k
  | .finish k outcome => some ((), finish cfg now s k outcome)
  | .countHit negative =>
    some ((), { s with metrics := { s.metrics with
      hits := s.metrics.hits + 1
      negativeHits := s.metrics.negativeHits + if negative then 1 else 0 } })
  | .countMiss => some ((), { s with metrics := { s.metrics with misses := s.metrics.misses + 1 } })

/-- The runner `tid` of a load is dropped: the load is left without a runner. -/
def abandon (tid : ℕ) (s : CacheState) : CacheState :=
  { s with loads := fun k => (s.loads k).map fun l =>
      if l.owner = some tid ∧ l.outcome = none then { l with owner := none } else l }

/-- An entry is dropped: evicted for capacity, or by `invalidate`. -/
def evict (label : String) (s : CacheState) : CacheState :=
  { s with entries := s.entries.erase label }

end CacheState

end HsmProxy
