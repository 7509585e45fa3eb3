import HsmProxy.Interleaving.Sound
import HsmProxy.Pkcs11.SetupTools

/-!
# The ceiling of the token

`hsm-ceiling` measures how fast the token signs without a proxy.  `run_point` starts a number of
threads; each opens a session and finds the key, waits at a barrier for the others and for main, and
signs until it is told to stop.  Main sleeps between the barrier and the stop, joins the threads and
adds up what they have counted.

The probes are the threads below `threads`, and the thread `threads` is main.  The token may answer
anything.
-/

namespace HsmProxy.Ceiling

open Interleaving Interleaving.Prog

/-- What a point is measured with; `display` is the text of an error, and `digest` is the SHA-256
digest of the payload. -/
structure Point where
  label : String
  threads : ℕ
  duration : ℕ
  digest : Bytes
  display : CryptokiError → String

/-- `b"ceiling probe"`. -/
def ceilingProbe : Bytes := "ceiling probe".toUTF8.toList

namespace Point

/-- What is signed. -/
def payload (p : Point) : Bytes := if Setup.isRsa p.label then ceilingProbe else p.digest

/-- The mechanism. -/
def mechanism (p : Point) : Mechanism := if Setup.isRsa p.label then .sha256RsaPkcs else .ecdsa

/-- `anyhow::Error::from`. -/
def anyhow (p : Point) (e : CryptokiError) : AnyhowError := ⟨p.display e, some e⟩

end Point

/-! ## The steps -/

/-- The atomic steps.  `Barrier::wait` is `arrive` and then `pass`, which waits for the others; `exit`
is the end of the closure of a thread, and `join` waits for it. -/
inductive CeilingOp where
  | token (o : TokenOp)
  | arrive
  | pass
  | loadStop
  | storeStop
  | now
  | sleep (wake : ℕ)
  | exit (r : Except AnyhowError ℕ)
  | join (i : ℕ)

/-- What the steps return. -/
abbrev CeilingOp.Ans : CeilingOp → Type
  | .token o => o.Ans
  | .arrive => Unit
  | .pass => Unit
  | .loadStop => Bool
  | .storeStop => Unit
  | .now => ℕ
  | .sleep _ => Unit
  | .exit _ => Unit
  | .join _ => Except AnyhowError ℕ

/-- Programs over these steps. -/
abbrev Probing (α : Type) := Prog CeilingOp.Ans α

/-- One step. -/
def step (o : CeilingOp) : Probing o.Ans := op o

/-- What a thread ends a part of its program with. -/
inductive Turn where
  | signing (session : SessionHandle) (key : ObjectHandle) (count : ℕ)
  | ended
  | measured (total elapsed : ℕ)
  | failed (e : AnyhowError)
  deriving DecidableEq

/-! ## The programs -/

/-- `login_session`. -/
def loginSession : Probing (Except AnyhowError SessionHandle) :=
  loginSessionBy fun o => step (.token o)

section

variable (p : Point)

/-- A session: when the login fails, one without it, since the application may be logged in. -/
def openSession : Probing (Except AnyhowError SessionHandle) := do
  match ← loginSession with
  | .ok session => return .ok session
  | .error _ =>
    match ← step (.token .openRwSession) with
    | .ok session => return .ok session
    | .error e => return .error (p.anyhow e)

/-- `find_object`. -/
def findObject (session : SessionHandle) : Probing (Except AnyhowError (Option ObjectHandle)) :=
  findObjectBy (step (.token (.findObjects session .privateKey p.label)))

/-- The key, or the error for one that is not there. -/
def findKey (session : SessionHandle) : Probing (Except AnyhowError ObjectHandle) := do
  match ← findObject p session with
  | .error e => return .error e
  | .ok none => return .error ⟨s!"key '{p.label}' not found", none⟩
  | .ok (some key) => return .ok key

/-- A probe up to its loop. -/
def probe : Probing Turn := do
  match ← openSession p with
  | .error e =>
    step (.exit (.error e))
    return .ended
  | .ok session =>
    match ← findKey p session with
    | .error e =>
      step (.token (.closeSession session))
      step (.exit (.error e))
      return .ended
    | .ok key =>
      step .arrive
      step .pass
      return .signing session key 0

/-- One turn of the loop of a probe. -/
def signTurn (session : SessionHandle) (key : ObjectHandle) (count : ℕ) : Probing Turn := do
  if ← step .loadStop then
    step (.token (.closeSession session))
    step (.exit (.ok count))
    return .ended
  else
    match ← step (.token (.sign session p.mechanism key p.payload)) with
    | .error e =>
      step (.token (.closeSession session))
      step (.exit (.error (p.anyhow e)))
      return .ended
    | .ok _ => return .signing session key (count + 1)

/-- The loop over the handles: it stops at the first thread that has failed. -/
def joinAll : List ℕ → ℕ → Probing (Except AnyhowError ℕ)
  | [], total => return .ok total
  | i :: rest, total => do
    match ← step (.join i) with
    | .error e => return .error e
    | .ok n => joinAll rest (total + n)

/-- `run_point` after the threads are spawned. -/
def runPoint : Probing Turn := do
  step .arrive
  step .pass
  let started ← step .now
  step (.sleep (started + p.duration))
  step .storeStop
  let stopped ← step .now
  match ← joinAll (List.range p.threads) 0 with
  | .error e => return .failed e
  | .ok total => return .measured total (stopped - started)

end

/-! ## The system -/

/-- The clock, how many have arrived at the barrier, the flag, and how the threads have ended. -/
structure CeilingState where
  now : ℕ
  arrived : ℕ
  stop : Bool
  results : ℕ → Option (Except AnyhowError ℕ)

/-- One step of a thread; `answer` is what the token says. -/
def execCeiling (threads : ℕ) (answer : (o : TokenOp) → o.Ans) (tid : ℕ) (s : CeilingState) :
    (o : CeilingOp) → Option (o.Ans × CeilingState)
  | .token o => some (answer o, s)
  | .arrive => some ((), { s with arrived := s.arrived + 1 })
  | .pass => if threads + 1 ≤ s.arrived then some ((), s) else none
  | .loadStop => some (s.stop, s)
  | .storeStop => some ((), { s with stop := true })
  | .now => some (s.now, s)
  | .sleep wake => if wake ≤ s.now then some ((), s) else none
  | .exit r => some ((), { s with results := Function.update s.results tid (some r) })
  | .join i => (s.results i).map fun r => (r, s)

/-- The two kinds of threads. -/
inductive Role where
  | main
  | probe
  deriving DecidableEq

section

variable (p : Point)

/-- `run_point` with its threads; the environment lets time pass. -/
def ceiling :
    System CeilingOp.Ans CeilingState ((o : TokenOp) → o.Ans) ℕ Role Turn where
  body
    | .main => runPoint p
    | .probe => probe p
  again
    | .probe, .signing session key count => some (signTurn p session key count)
    | _, _ => none
  spawnable _ := false
  exec answer tid s o := execCeiling p.threads answer tid s o
  droppable _ _ := false
  cancel _ _ s := s
  env d s := some { s with now := s.now + d }

/-- The start of a point. -/
def pointStarted (t₀ : ℕ) : Config CeilingOp.Ans CeilingState Role Turn where
  shared := ⟨t₀, 0, false, fun _ => none⟩
  threads i :=
    if i < p.threads then some ⟨.probe, [], probe p⟩
    else if i = p.threads then some ⟨.main, [], runPoint p⟩
    else none
  spawned := p.threads + 1
  trace := []

end

end HsmProxy.Ceiling
