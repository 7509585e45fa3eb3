import HsmProxy.Collections.Quantile
import HsmProxy.Crypto.Prepare
import HsmProxy.Interleaving.Sound
import HsmProxy.Pkcs11.Token

/-!
# The baseline without a proxy

`baseline/main.go` measures signing by direct PKCS#11 calls, with one session for all goroutines or
one for each.  `measure` opens the sessions, warms the module up, lets the goroutines sign until the
time is over, and reports what they have measured.

The goroutines are the threads below `count`, and the thread `count` is the one that runs `measure`.
A goroutine stands in front of `<-start` from the beginning; what it has captured it receives there.
The module may answer anything, except that it opens no session under a handle that is in use.
-/

namespace HsmProxy.Baseline

open Interleaving Interleaving.Prog Quantile

/-- `config`, as far as `measure` reads it; times are in nanoseconds. -/
structure Settings where
  keyLabel : String
  mechanism : String
  mode : String
  workers : ℕ
  duration : ℕ
  warmup : ℕ

/-- An error: what was done, and what the module returned. -/
structure Failure where
  message : String
  source : Option RvError
  deriving DecidableEq

/-- A session and the key found in it. -/
structure Worker where
  session : SessionHandle
  key : ObjectHandle
  deriving DecidableEq

/-- `result`. -/
structure Result where
  mode : String
  mechanism : String
  keyLabel : String
  workers : ℕ
  operations : ℕ
  duration : ℕ
  p50Micros : ℕ
  p99Micros : ℕ
  maxMicros : ℕ
  deriving DecidableEq

/-- What is signed. -/
def benchmarkPayload : Bytes := "baseline benchmark payload".toUTF8.toList

/-- `mechanismFor`: the mechanism and what it is given. -/
def mechanismFor (sha256 : Bytes → Bytes) (name : String) : Except Failure (Mechanism × Bytes) :=
  match name with
  | "ecdsa" => .ok (.ecdsa, sha256 benchmarkPayload)
  | "rsa" => .ok (.sha256RsaPkcs, benchmarkPayload)
  | name => .error ⟨s!"unknown mechanism \"{name}\" (want ecdsa or rsa)", none⟩

/-- The number of goroutines of a mode, and whether they share one session. -/
def modeOf (cfg : Settings) : Except Failure (ℕ × Bool) :=
  match cfg.mode with
  | "serial" => .ok (1, true)
  | "naive-concurrent" => .ok (cfg.workers, true)
  | "pooled" => .ok (cfg.workers, false)
  | mode => .error ⟨s!"unknown mode \"{mode}\"", none⟩

/-- What `run` calls `measure` with, and what `measure` looks up first: the number of goroutines,
whether they share one session, and what they sign. -/
def measureParameters (sha256 : Bytes → Bytes) (cfg : Settings) :
    Except Failure (ℕ × Bool × Mechanism × Bytes) := do
  let (count, shared) ← modeOf cfg
  let work ← mechanismFor sha256 cfg.mechanism
  return (count, shared, work)

/-! ## The steps -/

/-- The atomic steps.  `launch` makes the goroutines, with what each has captured, and closes
`start`; `start` receives from it; `publish` is the critical section under `latMu`. -/
inductive BenchOp where
  | openSession
  | login (session : SessionHandle)
  | findObjectsInit (session : SessionHandle) (label : String)
  | findObjects (session : SessionHandle)
  | findObjectsFinal (session : SessionHandle)
  | signInit (session : SessionHandle) (mechanism : Mechanism) (key : ObjectHandle)
  | sign (session : SessionHandle) (data : Bytes)
  | closeSession (session : SessionHandle)
  | now
  | lockShared
  | unlockShared
  | launch (captured : List Worker)
  | start
  | publish (latency : List ℕ) (ops : ℕ)
  | done
  | wait
  deriving DecidableEq

/-- What the steps return. -/
abbrev BenchOp.Ans : BenchOp → Type
  | .openSession => Except RvError SessionHandle
  | .login _ => Except RvError Unit
  | .findObjectsInit _ _ => Except RvError Unit
  | .findObjects _ => Except RvError (List ObjectHandle)
  | .findObjectsFinal _ => Except RvError Unit
  | .signInit _ _ _ => Except RvError Unit
  | .sign _ _ => Except RvError Bytes
  | .closeSession _ => Unit
  | .now => ℕ
  | .lockShared => Unit
  | .unlockShared => Unit
  | .launch _ => Unit
  | .start => Worker
  | .publish _ _ => Unit
  | .done => Unit
  | .wait => List ℕ × ℕ

/-- Programs over these steps. -/
abbrev Bench (α : Type) := Prog BenchOp.Ans α

/-- What a thread ends a part of its program with: main is warming up, a goroutine is signing, a
goroutine has ended, or `measure` has ended. -/
inductive Round where
  | warming (opened : List SessionHandle) (sessions : List Worker) (deadline : ℕ)
  | signing (w : Worker) (stop : ℕ) (latency : List ℕ) (ops : ℕ)
  | ended
  | failed (e : Failure)
  | crashed
  | measured (r : Result)
  deriving DecidableEq

/-! ## The programs -/

/-- One step. -/
def step (o : BenchOp) : Bench o.Ans := op o

/-- `findKey`. -/
def findKey (session : SessionHandle) (label : String) : ExceptT Failure Bench ObjectHandle := do
  match ← step (.findObjectsInit session label) with
  | .error e => throw ⟨"C_FindObjectsInit", some e⟩
  | .ok () =>
    match ← step (.findObjects session) with
    | .error e => throw ⟨"C_FindObjects", some e⟩
    | .ok objs =>
      match ← step (.findObjectsFinal session) with
      | .error e => throw ⟨"C_FindObjectsFinal", some e⟩
      | .ok () =>
        match objs with
        | [] => throw ⟨s!"no private key labelled \"{label}\"", none⟩
        | key :: _ => return key

/-- What `measure` does with a session it has opened: `C_Login`, and then the key. -/
def prepareSession (session : SessionHandle) (label : String) :
    ExceptT Failure Bench ObjectHandle := do
  match ← step (.login session) with
  -- the other sessions of the application are logged in already
  | .error .userAlreadyLoggedIn => findKey session label
  | .error e => throw ⟨"C_Login", some e⟩
  | .ok () => findKey session label

/-- The loop that opens `n` more sessions; with what it has opened, the latest first. -/
def openSessions (label : String) : ℕ → List SessionHandle → List Worker →
    Bench (List SessionHandle × Except Failure (List Worker))
  | 0, opened, sessions => return (opened, .ok sessions)
  | n + 1, opened, sessions => do
    match ← step .openSession with
    | .error e => return (opened, .error ⟨"C_OpenSession", some e⟩)
    | .ok session =>
      match ← (prepareSession session label).run with
      | .error e => return (session :: opened, .error e)
      | .ok key => openSessions label n (session :: opened) (sessions ++ [⟨session, key⟩])

/-- The deferred calls of `CloseSession`. -/
def closeAll : List SessionHandle → Bench Unit
  | [] => return ()
  | session :: opened => do
    step (.closeSession session)
    closeAll opened

/-- `sign`. -/
def signOnce (work : Mechanism × Bytes) (w : Worker) : Bench (Except RvError Unit) := do
  match ← step (.signInit w.session work.1 w.key) with
  | .error e => return .error e
  | .ok () =>
    match ← step (.sign w.session work.2) with
    | .error e => return .error e
    | .ok _ => return .ok ()

/-- What the goroutines capture: the one session, or each its own. -/
def captured (shared : Bool) (count : ℕ) (sessions : List Worker) : List Worker :=
  if shared then
    match sessions with
    | [] => []
    | w :: _ => List.replicate count w
  else sessions

/-- `pct`: a percentile in microseconds. -/
def pctMicros (latency : List ℕ) (p : ℕ) : ℕ := (percentile p latency).getD 0 / 1000

/-- What `measure` makes of the latencies and the operations. -/
def report (cfg : Settings) (count elapsed : ℕ) (latency : List ℕ) (opsTotal : ℕ) : Round :=
  if latency = [] then .failed ⟨"no operations completed", none⟩
  else .measured
    { mode := cfg.mode
      mechanism := cfg.mechanism
      keyLabel := cfg.keyLabel
      workers := count
      operations := opsTotal
      duration := elapsed
      p50Micros := pctMicros latency 50
      p99Micros := pctMicros latency 99
      maxMicros := (latency.insertionSort (· ≤ ·)).getLast?.getD 0 / 1000 }

section

variable (cfg : Settings) (shared : Bool) (count : ℕ) (work : Mechanism × Bytes)

/-- The number of sessions that are opened. -/
def sessionCount : ℕ := if shared then 1 else count

/-- `measure` up to the warm-up. -/
def setUp : Bench Round := do
  let (opened, sessions) ← openSessions cfg.keyLabel (sessionCount shared count) [] []
  match sessions with
  | .error e =>
    closeAll opened
    return .failed e
  | .ok sessions =>
    let t ← step .now
    return .warming opened sessions (t + cfg.warmup)

/-- The measurement: start the goroutines, wait for them, report, close the sessions. -/
def launchAndWait (opened : List SessionHandle) (sessions : List Worker) : Bench Round := do
  let t₀ ← step .now
  step (.launch (captured shared count sessions))
  let (latency, opsTotal) ← step .wait
  let t ← step .now
  closeAll opened
  return report cfg count (t - t₀) latency opsTotal

/-- One turn of the warm-up; after the last one, the measurement. -/
def warmUp (opened : List SessionHandle) (sessions : List Worker) (deadline : ℕ) : Bench Round := do
  let t ← step .now
  if t < deadline then
    match sessions with
    -- `sessions[0]` is out of range
    | [] =>
      closeAll opened
      return .crashed
    | w :: _ =>
      match ← signOnce work w with
      | .error e =>
        closeAll opened
        return .failed ⟨"warm-up sign", some e⟩
      | .ok () => return .warming opened sessions deadline
  else launchAndWait cfg shared count opened sessions

/-- A goroutine up to its loop. -/
def goroutine : Bench Round := do
  let w ← step .start
  let t ← step .now
  return .signing w (t + cfg.duration) [] 0

/-- A signature, behind the mutex when the session is shared. -/
def guardedSign (w : Worker) : Bench (Except RvError Unit) := do
  if shared then
    step .lockShared
    let r ← signOnce work w
    step .unlockShared
    return r
  else signOnce work w

/-- One turn of the loop of a goroutine; after the last one, its measurements are published. -/
def signRound (w : Worker) (stop : ℕ) (latency : List ℕ) (ops : ℕ) : Bench Round := do
  let t ← step .now
  if t < stop then
    let t₀ ← step .now
    match ← guardedSign shared work w with
    | .error _ =>
      step .done
      return .ended
    | .ok () =>
      let t₁ ← step .now
      return .signing w stop (latency ++ [t₁ - t₀]) (ops + 1)
  else
    step (.publish latency ops)
    step .done
    return .ended

end

/-! ## The system -/

/-- The clock, the open sessions, who has an operation active on a session, the mutex, what the
goroutines have captured once they are started, how many have not ended, and what they have
published. -/
structure BenchState where
  now : ℕ
  sessions : List SessionHandle
  active : SessionHandle → Option ℕ
  lock : Option ℕ
  launched : Option (List Worker)
  pending : ℕ
  latency : List ℕ
  opsTotal : ℕ

/-- Nothing has happened. -/
def BenchState.initial (t₀ : ℕ) : BenchState := ⟨t₀, [], fun _ => none, none, none, 0, [], 0⟩

/-- One step of a thread; `answer` is what the module says. -/
def execBench (answer : (o : BenchOp) → o.Ans) (tid : ℕ) (s : BenchState) :
    (o : BenchOp) → Option (o.Ans × BenchState)
  | .openSession =>
    match answer .openSession with
    | .ok session =>
      if session ∈ s.sessions then none
      else some (.ok session, { s with sessions := session :: s.sessions })
    | .error e => some (.error e, s)
  | .login session => some (answer (.login session), s)
  | .findObjectsInit session label => some (answer (.findObjectsInit session label), s)
  | .findObjects session => some (answer (.findObjects session), s)
  | .findObjectsFinal session => some (answer (.findObjectsFinal session), s)
  | .signInit session mechanism key =>
    match answer (.signInit session mechanism key) with
    | .ok () =>
      some (.ok (), { s with active := Function.update s.active session (some tid) })
    | .error e => some (.error e, s)
  -- `C_Sign` ends the operation, whatever it returns
  | .sign session data => some (answer (.sign session data),
      { s with active := Function.update s.active session none })
  | .closeSession session => some ((),
      { s with
        sessions := s.sessions.filter fun h => decide (h ≠ session)
        active := Function.update s.active session none })
  | .now => some (s.now, s)
  | .lockShared => if s.lock = none then some ((), { s with lock := some tid }) else none
  | .unlockShared => some ((), { s with lock := none })
  | .launch workers =>
    some ((), { s with launched := some workers, pending := workers.length })
  | .start => (s.launched.bind fun workers => workers[tid]?).map fun w => (w, s)
  | .publish latency ops =>
    some ((), { s with latency := s.latency ++ latency, opsTotal := s.opsTotal + ops })
  | .done => some ((), { s with pending := s.pending - 1 })
  | .wait =>
    if s.launched.isSome ∧ s.pending = 0 then some ((s.latency, s.opsTotal), s) else none

/-- The two kinds of threads. -/
inductive Task where
  | main
  | goroutine
  deriving DecidableEq

section

variable (cfg : Settings) (shared : Bool) (count : ℕ) (work : Mechanism × Bytes)

/-- `measure` with its goroutines, for parameters such as `measureParameters` gives; the environment
lets time pass. -/
def measuring :
    System BenchOp.Ans BenchState ((o : BenchOp) → o.Ans) ℕ Task Round where
  body
    | .main => setUp cfg shared count
    | .goroutine => goroutine cfg
  again
    | .main, .warming opened sessions deadline =>
      some (warmUp cfg shared count work opened sessions deadline)
    | .goroutine, .signing w stop latency ops => some (signRound shared work w stop latency ops)
    | _, _ => none
  spawnable _ := false
  exec answer tid s o := execBench answer tid s o
  droppable _ _ := false
  cancel _ _ s := s
  env d s := some { s with now := s.now + d }

/-- The start of `measure`. -/
def measureStarted (t₀ : ℕ) : Config BenchOp.Ans BenchState Task Round where
  shared := .initial t₀
  threads i :=
    if i < count then some ⟨.goroutine, [], goroutine cfg⟩
    else if i = count then some ⟨.main, [], setUp cfg shared count⟩
    else none
  spawned := count + 1
  trace := []

end

end HsmProxy.Baseline
