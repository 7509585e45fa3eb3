import HsmProxy.Pkcs11.Job
import Mathlib.Algebra.Group.Nat.Defs
import Mathlib.Data.List.AList

/-!
# The queue between the handlers and the workers

`pkcs11/pool.rs` over the two channels it is made of.  The bounded flume channel carries jobs to
whichever worker asks first: a worker that finds the queue empty is parked, and `try_send` hands
the next job to the longest-parked worker before it uses the queue.  Every job has a oneshot
channel for its result; it delivers at most one value, to the handler that submitted the job, and
nothing once that handler has stopped waiting.
-/

namespace HsmProxy

/-- `PoolConfig`. -/
structure PoolConfig where
  workers : ℕ
  queueDepth : ℕ
  jobTimeout : ℕ
  deriving DecidableEq, Repr

/-- `str::parse::<usize>`: decimal digits, with a leading plus sign allowed, of a value that
fits. -/
def parseUsize (text : String) : Option ℕ :=
  let digits := match text.toList with
    | '+' :: rest => rest
    | digits => digits
  if digits ≠ [] ∧ digits.all Char.isDigit then
    let value := digits.foldl (fun n d => 10 * n + (d.toNat - '0'.toNat)) 0
    if value < 2 ^ 64 then some value else none
  else none

namespace PoolConfig

/-- `PoolConfig::default`; `parallelism` is what `available_parallelism` answers. -/
def default (parallelism : Option ℕ) : PoolConfig where
  workers := parallelism.getD 4
  queueDepth := parallelism.getD 4 * 2
  jobTimeout := 5 * 10 ^ 9

/-- `PoolConfig::from_env`: a variable that is not set, or does not parse, leaves the default. -/
def fromEnv (parallelism : Option ℕ) (env : String → Option String) : PoolConfig where
  workers := ((env "HSM_WORKERS").bind parseUsize).getD (default parallelism).workers
  queueDepth := ((env "HSM_QUEUE_DEPTH").bind parseUsize).getD (default parallelism).queueDepth
  jobTimeout := (((env "HSM_JOB_TIMEOUT_MS").bind parseUsize).map fun ms => ms * 10 ^ 6).getD
    (default parallelism).jobTimeout

end PoolConfig

/-- The counters of `PoolMetrics`. -/
inductive PoolCounter where
  | jobsSubmitted
  | jobsCompleted
  | jobsFailed
  | jobsRejectedQueueFull
  | jobsTimedOut
  | queueWaitNanosTotal
  | serviceNanosTotal
  | sessionResets
  | handleCacheHits
  | handleCacheMisses
  deriving DecidableEq, Repr

/-- A job in the queue; `id` names its oneshot channel. -/
structure Job where
  id : ℕ
  request : JobRequest
  enqueuedAt : ℕ
  deriving DecidableEq, Repr

/-- A worker's result for a job. -/
abbrev JobResult := Except PoolError JobResponse

/-- The oneshot channel of a job: who waits on it, the value sent, and which ends are alive. -/
structure Oneshot where
  owner : ℕ
  value : Option JobResult
  senderAlive : Bool
  receiverAlive : Bool
  deriving DecidableEq

/-- Why `try_send` refused a job. -/
inductive TrySendError where
  | full
  | disconnected
  deriving DecidableEq, Repr

/-- What awaiting a result under a timeout ends with. -/
inductive Awaited where
  | value (result : JobResult)
  | closed
  | elapsed
  deriving DecidableEq

/-- What a worker finds when it asks for a job. -/
inductive Polled where
  | job (job : Job)
  | disconnected
  | parked
  deriving DecidableEq, Repr

/-- The atomic operations of the pool: counting, the two ends of the queue, the two ends of a
oneshot channel. -/
inductive PoolOp where
  | count (counter : PoolCounter) (amount : ℕ)
  | trySend (request : JobRequest) (enqueuedAt : ℕ)
  | awaitResult (job deadline : ℕ)
  | poll
  | unpark
  | respond (job : ℕ) (result : JobResult)
  deriving DecidableEq

/-- What the atomic operations return. -/
abbrev PoolOp.Ans : PoolOp → Type
  | .count _ _ => Unit
  | .trySend _ _ => Except TrySendError ℕ
  | .awaitResult _ _ => Awaited
  | .poll => Polled
  | .unpark => Option Job
  | .respond _ _ => Unit

/-- The queue, the workers parked on it in order, the jobs handed to a parked worker, the jobs
held by a worker, the oneshot channels, and the counters. -/
structure PoolState where
  queue : List Job
  senderAlive : Bool
  receivers : ℕ
  parked : List ℕ
  handed : List (ℕ × Job)
  held : List (ℕ × ℕ)
  nextJob : ℕ
  oneshots : ℕ → Option Oneshot
  counters : PoolCounter → ℕ

namespace PoolState

/-- A pool that has just started with `n` workers. -/
def new (n : ℕ) : PoolState where
  queue := []
  senderAlive := true
  receivers := n
  parked := []
  handed := []
  held := []
  nextJob := 0
  oneshots _ := none
  counters _ := 0

/-- `try_send` of a freshly made job. -/
def trySend (depth tid : ℕ) (s : PoolState) (request : JobRequest) (enqueuedAt : ℕ) :
    Except TrySendError ℕ × PoolState :=
  let job : Job := ⟨s.nextJob, request, enqueuedAt⟩
  let accepted := { s with
    nextJob := s.nextJob + 1
    oneshots := Function.update s.oneshots s.nextJob (some ⟨tid, none, true, true⟩) }
  if s.receivers = 0 then (.error .disconnected, s)
  else
    match s.parked with
    | w :: ws => (.ok s.nextJob, { accepted with parked := ws, handed := s.handed ++ [(w, job)] })
    | [] =>
      if s.queue.length < depth then (.ok s.nextJob, { accepted with queue := s.queue ++ [job] })
      else (.error .full, s)

/-- Awaiting the result of job `j` until `deadline`; `none` while there is nothing to return.  A
value that has arrived is taken even when the deadline has passed. -/
def awaitResult (now : ℕ) (s : PoolState) (j deadline : ℕ) : Option (Awaited × PoolState) :=
  match s.oneshots j with
  | some ⟨tid, some r, tx, _⟩ =>
    some (.value r, { s with oneshots := Function.update s.oneshots j (some ⟨tid, none, tx, false⟩) })
  | some ⟨tid, none, false, _⟩ =>
    some (.closed, { s with
      oneshots := Function.update s.oneshots j (some ⟨tid, none, false, false⟩) })
  | some ⟨tid, none, true, _⟩ =>
    if deadline ≤ now then
      some (.elapsed, { s with
        oneshots := Function.update s.oneshots j (some ⟨tid, none, true, false⟩) })
    else none
  | none => none

/-- A worker asks for the next job; finding the queue empty but connected, it is parked. -/
def poll (tid : ℕ) (s : PoolState) : Polled × PoolState :=
  match s.queue with
  | job :: rest => (.job job, { s with queue := rest, held := s.held ++ [(tid, job.id)] })
  | [] =>
    if s.senderAlive then (.parked, { s with parked := s.parked ++ [tid] })
    else (.disconnected, s)

/-- A parked worker wakes up: with the job it was handed, or because the queue is closed. -/
def unpark (tid : ℕ) (s : PoolState) : Option (Option Job × PoolState) :=
  match s.handed.lookup tid with
  | some job => some (some job, { s with
      handed := s.handed.filter fun p => decide (p.1 ≠ tid)
      held := s.held ++ [(tid, job.id)] })
  | none =>
    if s.senderAlive then none
    else some (none, { s with parked := s.parked.filter fun w => decide (w ≠ tid) })

/-- A worker sends the result of a job; it is lost when nobody waits any more. -/
def respond (tid : ℕ) (s : PoolState) (j : ℕ) (r : JobResult) : PoolState :=
  { s with
    held := s.held.filter fun p => decide (p.1 ≠ tid)
    oneshots := Function.update s.oneshots j ((s.oneshots j).map fun o =>
      { o with value := if o.receiverAlive then some r else none, senderAlive := false }) }

/-- One atomic operation at time `now` by thread `tid`. -/
def exec (cfg : PoolConfig) (now tid : ℕ) (s : PoolState) :
    (o : PoolOp) → Option (o.Ans × PoolState)
  | .count c n =>
    some ((), { s with counters := Function.update s.counters c (s.counters c + n) })
  -- `shutdown` consumes the pool, so nothing is submitted once the sender is gone.
  | .trySend request enqueuedAt =>
    if s.senderAlive then some (trySend cfg.queueDepth tid s request enqueuedAt) else none
  | .awaitResult j deadline => awaitResult now s j deadline
  | .poll => some (poll tid s)
  | .unpark => unpark tid s
  | .respond j r => some ((), respond tid s j r)

/-- `shutdown` drops the sender. -/
def shutdown (s : PoolState) : PoolState := { s with senderAlive := false }

/-- A handler is dropped: nobody waits on its oneshot channels any more. -/
def abandon (tid : ℕ) (s : PoolState) : PoolState :=
  { s with oneshots := fun j => (s.oneshots j).map fun o =>
      if o.owner = tid then { o with receiverAlive := false, value := none } else o }

/-- A worker dies: its end of the queue is gone, and with it the senders of the jobs it held. -/
def bury (tid : ℕ) (s : PoolState) : PoolState :=
  { s with
    receivers := s.receivers - 1
    parked := s.parked.filter fun w => decide (w ≠ tid)
    handed := s.handed.filter fun p => decide (p.1 ≠ tid)
    held := s.held.filter fun p => decide (p.1 ≠ tid)
    oneshots := fun j => (s.oneshots j).map fun o =>
      if (tid, j) ∈ s.held ∨ ∃ p ∈ s.handed, p.1 = tid ∧ p.2.id = j then
        { o with senderAlive := false }
      else o }

end PoolState

end HsmProxy
