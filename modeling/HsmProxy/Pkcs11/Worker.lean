import HsmProxy.Crypto.PublicKey

/-!
# A pool worker

`pkcs11/worker.rs`: one OS thread that owns one PKCS#11 session and a map from labels to the
object handles that session has found.  Rust's `&mut self` keeps what a method changed before it
returned an error, so a worker method is a state transformer under the error, `WorkerM`.
-/

namespace HsmProxy

open Interleaving

/-- Handles for one label, filled in lazily as each class is first needed. -/
structure KeyHandles where
  privateKey : Option ObjectHandle
  publicKey : Option ObjectHandle
  secretKey : Option ObjectHandle
  deriving DecidableEq, Repr

namespace KeyHandles

/-- `KeyHandles::default`. -/
def default : KeyHandles := ⟨none, none, none⟩

/-- `KeyHandles::get`. -/
def get (h : KeyHandles) : KeyKind → Option ObjectHandle
  | .privateKey => h.privateKey
  | .publicKey => h.publicKey
  | .secretKey => h.secretKey

/-- `KeyHandles::set`. -/
def set (h : KeyHandles) (kind : KeyKind) (handle : ObjectHandle) : KeyHandles :=
  match kind with
  | .privateKey => { h with privateKey := some handle }
  | .publicKey => { h with publicKey := some handle }
  | .secretKey => { h with secretKey := some handle }

end KeyHandles

/-- `Worker`: its session and its handle map. -/
structure Worker where
  session : SessionHandle
  handles : AList fun _ : String => KeyHandles

/-- The handle a worker has cached for a label and a kind. -/
def Worker.cached (w : Worker) (kind : KeyKind) (label : String) : Option ObjectHandle :=
  (w.handles.lookup label).bind fun h => h.get kind

/-- Store a handle under a label and a kind. -/
def Worker.store (w : Worker) (kind : KeyKind) (label : String) (handle : ObjectHandle) : Worker :=
  { w with handles :=
      w.handles.insert label (((w.handles.lookup label).getD .default).set kind handle) }

/-- Methods of a worker: they may fail, and keep what they changed. -/
abbrev WorkerM (α : Type) := ExceptT PoolError (StateT Worker (Prog Op.Ans)) α

/-- AES-GCM: 128-bit tag. -/
def gcmTagBits : ℕ := 128

/-- `find_object`. -/
def findObject (session : SessionHandle) (objectClass : ObjectClass) (label : String) :
    Program (Except AnyhowError (Option ObjectHandle)) :=
  findObjectBy (Program.token (.findObjects session objectClass label))

/-- `login_session`. -/
def loginSession : Program (Except AnyhowError SessionHandle) := loginSessionBy Program.token

section

variable (P : Platform)

/-- `open_worker_session`: being logged in already is success. -/
def openWorkerSession : Program (Except PoolError SessionHandle) := do
  match ← loginSession with
  | .ok session => return .ok session
  | .error err =>
    if err.source = some (.pkcs11 .userAlreadyLoggedIn) then
      match ← Program.token .openRwSession with
      | .ok session => return .ok session
      | .error e => return .error (.hsm "C_OpenSession" e)
    else
      match err.source with
      | some e => return .error (.internal s!"{err.message}: {P.display e}")
      | none => return .error (.internal err.message)

namespace Worker

/-- Run a program inside a worker method. -/
def lift {α : Type} (p : Program α) : WorkerM α := ExceptT.lift (StateT.lift p)

/-- Run a PKCS#11 call and turn its error into a `PoolError`. -/
def callMap {α : Type} (p : Program (Except CryptokiError α)) (f : CryptokiError → PoolError) :
    WorkerM α := do
  match ← lift p with
  | .ok a => return a
  | .error e => throw (f e)

/-- `Worker::handle`: resolve a label to an object handle, caching it for this session. -/
def handle (kind : KeyKind) (label : String) : WorkerM ObjectHandle := do
  let w ← get
  match w.cached kind label with
  | some handle =>
    lift (Program.incr .handleCacheHits)
    return handle
  | none =>
    lift (Program.incr .handleCacheMisses)
    match ← lift (findObject w.session kind.objectClass label) with
    | .error e => throw (.internal e.message)
    | .ok none => throw (.keyNotFound label)
    | .ok (some handle) =>
      modify fun w => w.store kind label handle
      return handle

/-- `GcmParams::new` on the worker's thread. -/
def gcmMechanism (iv aad : Bytes) : WorkerM Mechanism :=
  match P.gcmParams iv aad gcmTagBits with
  | .ok () => return .aesGcm iv aad gcmTagBits
  | .error e => throw (.invalidRequest e)

/-- `Worker::dispatch`. -/
def dispatch (request : JobRequest) : WorkerM JobResponse :=
  match request with
  | .sign keyLabel algorithm payload => do
    let key ← handle .privateKey keyLabel
    let session := (← get).session
    let signature ← callMap (Program.token (.sign session algorithm.mechanism key payload))
      (.hsm "C_Sign")
    return .signature signature
  | .verify keyLabel algorithm payload signature => do
    let key ← handle .publicKey keyLabel
    let session := (← get).session
    match ← lift (Program.token (.verify session algorithm.mechanism key payload signature)) with
    | .ok () => return .verified true
    | .error (.pkcs11 .signatureInvalid) => return .verified false
    | .error (.pkcs11 .signatureLenRange) => return .verified false
    | .error e => throw (.hsm "C_Verify" e)
  | .encrypt keyLabel plaintext associatedData iv => do
    let key ← handle .secretKey keyLabel
    let mechanism ← gcmMechanism P iv associatedData
    let session := (← get).session
    let ciphertext ← callMap (Program.token (.encrypt session mechanism key plaintext))
      (.hsm "C_Encrypt")
    return .ciphertext ciphertext
  | .decrypt keyLabel ciphertext associatedData iv => do
    let key ← handle .secretKey keyLabel
    let mechanism ← gcmMechanism P iv associatedData
    let session := (← get).session
    match ← lift (Program.token (.decrypt session mechanism key ciphertext)) with
    | .ok plaintext => return .plaintext plaintext
    -- Failed authentication is the caller's problem, not a broken token.
    | .error (.pkcs11 .encryptedDataInvalid) =>
      throw (.invalidRequest "ciphertext failed authentication")
    | .error (.pkcs11 .encryptedDataLenRange) =>
      throw (.invalidRequest "ciphertext failed authentication")
    | .error e => throw (.hsm "C_Decrypt" e)
  | .getPublicKey keyLabel => do
    let key ← handle .publicKey keyLabel
    let session := (← get).session
    match ← lift (publicKeyToSpkiDer P session key).run with
    | .ok (spkiDer, keyType) => return .publicKey spkiDer keyType
    | .error e => throw (.internal e.message)

/-- `Worker::reset_session`: drop every cached handle and try to open a fresh session; the old one
is closed when it is replaced and kept when the attempt fails. -/
def resetSession (w : Worker) : Program Worker := do
  Program.incr .sessionResets
  match ← openWorkerSession P with
  | .ok session =>
    Program.token (.closeSession w.session)
    return ⟨session, ∅⟩
  | .error _ => return ⟨w.session, ∅⟩

/-- `Worker::execute`: dispatch, and recover when a session-level failure is reported. -/
def execute (w : Worker) (request : JobRequest) : Program (JobResult × Worker) := do
  let (result, w) ← (dispatch P request).run.run w
  match result with
  | .error (.hsm _ source) =>
    if isSessionFatal source then
      return (result, ← resetSession P w)
    else
      return (result, w)
  | _ => return (result, w)

/-- Receive a job: `none` once the queue is closed and empty. -/
def recv : Program (Option Job) := do
  match ← Program.pool .poll with
  | .job job => return some job
  | .disconnected => return none
  | .parked => Program.pool .unpark

/-- One round of the loop of `Worker::run`: `some` worker to go on with, or `none` after the queue
was closed, when the worker has logged out and dropped its session. -/
def iterate (w : Worker) : Program (Option Worker) := do
  match ← recv with
  | some job =>
    let started ← Program.now
    let (result, w) ← execute P w job.request
    let finished ← Program.now
    Program.pool (.count .queueWaitNanosTotal (started - job.enqueuedAt))
    Program.pool (.count .serviceNanosTotal (finished - started))
    Program.incr .jobsCompleted
    match result with
    | .ok _ => pure ()
    | .error _ => Program.incr .jobsFailed
    Program.pool (.respond job.id result)
    return some w
  | none =>
    let _ ← Program.token (.logout w.session)
    Program.token (.closeSession w.session)
    return none

end Worker

end

end HsmProxy
