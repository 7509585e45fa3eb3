import HsmProxy.Pkcs11.Worker

/-!
# The steps of a worker

A job first resolves its label to a handle and then performs one operation with that handle.  This
module writes the methods of `Worker` in that form, as programs over the atomic steps:
`Worker.resolve` is `handle`, `Worker.operation` is what is left of `dispatch`, and
`Worker.execute_eq` puts them together.  A round of the loop is taken apart by the rule
`Worker.meets_iterate`.
-/

namespace HsmProxy

open Interleaving Interleaving.Prog

/-- The class of key a job uses. -/
def JobRequest.kind : JobRequest → KeyKind
  | .sign _ _ _ => .privateKey
  | .verify _ _ _ _ => .publicKey
  | .encrypt _ _ _ _ => .secretKey
  | .decrypt _ _ _ _ => .secretKey
  | .getPublicKey _ => .publicKey

/-- Is the job that of a key lookup? -/
def JobRequest.looksUp : JobRequest → Bool
  | .getPublicKey _ => true
  | _ => false

/-- What a handle search amounts to. -/
def searchResult (label : String) :
    Except CryptokiError (List ObjectHandle) → Except PoolError ObjectHandle
  | .error _ => .error (.internal "C_FindObjects failed")
  | .ok [] => .error (.keyNotFound label)
  | .ok (handle :: _) => .ok handle

/-- How `verify` reads the answer of the token. -/
def verifyResult : Except CryptokiError Unit → JobResult
  | .ok () => .ok (.verified true)
  | .error (.pkcs11 .signatureInvalid) => .ok (.verified false)
  | .error (.pkcs11 .signatureLenRange) => .ok (.verified false)
  | .error e => .error (.hsm "C_Verify" e)

/-- How `decrypt` reads the answer of the token. -/
def decryptResult : Except CryptokiError Bytes → JobResult
  | .ok plaintext => .ok (.plaintext plaintext)
  | .error (.pkcs11 .encryptedDataInvalid) =>
    .error (.invalidRequest "ciphertext failed authentication")
  | .error (.pkcs11 .encryptedDataLenRange) =>
    .error (.invalidRequest "ciphertext failed authentication")
  | .error e => .error (.hsm "C_Decrypt" e)

/-- How an exported key becomes a response. -/
def exportResult : Except AnyhowError (Bytes × String) → JobResult
  | .ok (spkiDer, keyType) => .ok (.publicKey spkiDer keyType)
  | .error e => .error (.internal e.message)

/-- An answer of the token as a result: a value under a constructor, or an error of the token. -/
def tokenResult (operation : String) (f : Bytes → JobResponse) :
    Except CryptokiError Bytes → JobResult
  | .ok bytes => .ok (f bytes)
  | .error e => .error (.hsm operation e)

/-- The session and the handle of a PKCS#11 call on an object. -/
def Op.usesHandle : Op → Option (SessionHandle × ObjectHandle)
  | .token (.getAttributes session object _) => some (session, object)
  | .token (.sign session _ key _) => some (session, key)
  | .token (.verify session _ key _ _) => some (session, key)
  | .token (.encrypt session _ key _) => some (session, key)
  | .token (.decrypt session _ key _) => some (session, key)
  | _ => none

/-- The calls that open a session, log in, and close it again. -/
def Op.opensSession : Op → Bool
  | .token .openRwSession => true
  | .token (.login _) => true
  | .token (.closeSession _) => true
  | _ => false

namespace Worker

/-- `handle`, as a program on the worker. -/
def resolve (w : Worker) (kind : KeyKind) (label : String) :
    Program (Except PoolError ObjectHandle × Worker) :=
  match w.cached kind label with
  | some handle => do
    Program.incr .handleCacheHits
    return (.ok handle, w)
  | none => do
    Program.incr .handleCacheMisses
    let found ← Program.token (.findObjects w.session kind.objectClass label)
    match searchResult label found with
    | .error e => return (.error e, w)
    | .ok handle => return (.ok handle, w.store kind label handle)

section

variable (P : Platform)

/-- What `dispatch` does with the handle it resolved. -/
def operation (request : JobRequest) (session : SessionHandle) (key : ObjectHandle) :
    Program JobResult :=
  match request with
  | .sign _ algorithm payload =>
    tokenResult "C_Sign" .signature <$>
      Program.token (.sign session algorithm.mechanism key payload)
  | .verify _ algorithm payload signature =>
    verifyResult <$> Program.token (.verify session algorithm.mechanism key payload signature)
  | .encrypt _ plaintext associatedData iv =>
    match P.gcmParams iv associatedData gcmTagBits with
    | .error e => return .error (.invalidRequest e)
    | .ok () => tokenResult "C_Encrypt" .ciphertext <$>
        Program.token (.encrypt session (.aesGcm iv associatedData gcmTagBits) key plaintext)
  | .decrypt _ ciphertext associatedData iv =>
    match P.gcmParams iv associatedData gcmTagBits with
    | .error e => return .error (.invalidRequest e)
    | .ok () => decryptResult <$>
        Program.token (.decrypt session (.aesGcm iv associatedData gcmTagBits) key ciphertext)
  | .getPublicKey _ => exportResult <$> (publicKeyToSpkiDer P session key).run

/-- Sequencing of worker methods, as programs on the worker. -/
lemma run_bind {α β : Type} (x : WorkerM α) (f : α → WorkerM β) (w : Worker) :
    (x >>= f).run.run w = x.run.run w >>= fun r =>
      match r with
      | (.error e, w') => return (.error e, w')
      | (.ok a, w') => (f a).run.run w' := by
  rw [ExceptT.run_bind, StateT.run_bind]
  refine bind_congr fun r => ?_
  obtain ⟨r, w'⟩ := r
  cases r <;> rfl

/-- A program inside a worker method leaves the worker as it is. -/
lemma run_lift {α : Type} (p : Program α) (w : Worker) :
    (lift p).run.run w = (fun a => (.ok a, w)) <$> p := by
  simp only [lift, ExceptT.run_lift, map_eq_pure_bind, StateT.run_bind, StateT.run_lift,
    StateT.run_pure, bind_assoc, pure_bind]

/-- `handle` is `resolve`. -/
lemma handle_eq (w : Worker) (kind : KeyKind) (label : String) :
    (handle kind label).run.run w = resolve w kind label := by
  unfold handle resolve
  show StateT.run (ExceptT.run (match w.cached kind label with
    | some _ => _
    | none => _)) w = _
  cases w.cached kind label with
  | some handle => rfl
  | none =>
    refine congrArg (call _) (funext fun _ => congrArg (call _) (funext fun found => ?_))
    cases found with
    | error e => rfl
    | ok handles => cases handles <;> rfl

/-- The handle is resolved, then the operation performed. -/
lemma dispatch_eq (w : Worker) (request : JobRequest) :
    (dispatch P request).run.run w = resolve w request.kind request.keyLabel >>= fun r =>
      match r with
      | (.error e, w') => return (.error e, w')
      | (.ok key, w') => (fun result => (result, w')) <$> operation P request w'.session key := by
  cases request with
  | sign label algorithm payload =>
    simp only [dispatch, run_bind, handle_eq]
    refine bind_congr fun r => ?_
    obtain ⟨r, w'⟩ := r
    cases r with
    | error e => rfl
    | ok key =>
      refine congrArg (call _) (funext fun answer => ?_)
      cases answer <;> rfl
  | verify label algorithm payload signature =>
    simp only [dispatch, run_bind, handle_eq]
    refine bind_congr fun r => ?_
    obtain ⟨r, w'⟩ := r
    cases r with
    | error e => rfl
    | ok key =>
      refine congrArg (call _) (funext fun answer => ?_)
      rcases answer with (rv | _) | _
      · cases rv <;> rfl
      · rfl
      · rfl
  | encrypt label plaintext associatedData iv =>
    simp only [dispatch, run_bind, handle_eq]
    refine bind_congr fun r => ?_
    obtain ⟨r, w'⟩ := r
    cases r with
    | error e => rfl
    | ok key =>
      simp only [gcmMechanism, operation]
      cases P.gcmParams iv associatedData gcmTagBits with
      | error e => rfl
      | ok u =>
        refine congrArg (call _) (funext fun answer => ?_)
        cases answer <;> rfl
  | decrypt label ciphertext associatedData iv =>
    simp only [dispatch, run_bind, handle_eq]
    refine bind_congr fun r => ?_
    obtain ⟨r, w'⟩ := r
    cases r with
    | error e => rfl
    | ok key =>
      simp only [gcmMechanism, operation]
      cases P.gcmParams iv associatedData gcmTagBits with
      | error e => rfl
      | ok u =>
        refine congrArg (call _) (funext fun answer => ?_)
        rcases answer with (rv | _) | _
        · cases rv <;> rfl
        · rfl
        · rfl
  | getPublicKey label =>
    simp only [dispatch, run_bind, handle_eq]
    refine bind_congr fun r => ?_
    obtain ⟨r, w'⟩ := r
    cases r with
    | error e => rfl
    | ok key =>
      show (ExceptT.run (lift (publicKeyToSpkiDer P w'.session key).run)).run w' >>= _ =
        (fun result => (result, w')) <$> exportResult <$> (publicKeyToSpkiDer P w'.session key).run
      rw [run_lift, bind_map_left, Functor.map_map, map_eq_pure_bind]
      refine bind_congr fun answer => ?_
      cases answer <;> rfl

/-- Does a result make the worker replace its session? -/
def needsReset : JobResult → Bool
  | .error (.hsm _ source) => isSessionFatal source
  | _ => false

/-- What `execute` does with the result of an operation. -/
lemma operation_reset (w : Worker) (request : JobRequest) (key : ObjectHandle) :
    ((fun result => (result, w)) <$> operation P request w.session key
      >>= fun p => match p with
        | (result, w) => match result with
          | .error (.hsm _ source) =>
            if isSessionFatal source then do return (result, ← resetSession P w)
            else return (result, w)
          | _ => return (result, w)) = do
        let result ← operation P request w.session key
        if needsReset result then return (result, ← resetSession P w) else return (result, w) := by
  rw [bind_map_left]
  refine bind_congr fun result => ?_
  rcases result with (_ | _ | _ | _ | _ | _ | _) | _ <;> rfl

/-- `execute`: resolve, operate, and reset when the operation reports a failure of the session. -/
theorem execute_eq (w : Worker) (request : JobRequest) :
    execute P w request = resolve w request.kind request.keyLabel >>= fun r =>
      match r with
      | (.error e, w') => return (.error e, w')
      | (.ok key, w') => do
        let result ← operation P request w'.session key
        if needsReset result then
          return (result, ← resetSession P w')
        else
          return (result, w') := by
  unfold execute
  rw [dispatch_eq, bind_assoc]
  unfold resolve
  -- `handle` fails with an error that never asks for a reset
  cases w.cached request.kind request.keyLabel with
  | some handle => exact congrArg (call _) (funext fun _ => operation_reset P w request handle)
  | none =>
    refine congrArg (call _) (funext fun _ => congrArg (call _) (funext fun found => ?_))
    rcases found with e | handles
    · rfl
    · cases handles with
      | nil => rfl
      | cons handle rest => exact operation_reset P (w.store _ _ handle) request handle

/-- The end of a job: what is counted, and the response. -/
def account (job : Job) (started finished : ℕ) (result : JobResult) : Program Unit := do
  Program.pool (.count .queueWaitNanosTotal (started - job.enqueuedAt))
  Program.pool (.count .serviceNanosTotal (finished - started))
  Program.incr .jobsCompleted
  match result with
  | .ok _ => pure ()
  | .error _ => Program.incr .jobsFailed
  Program.pool (.respond job.id result)

/-- A round with a job. -/
def serve (w : Worker) (job : Job) : Program (Option Worker) := do
  let started ← Program.now
  let (result, w) ← execute P w job.request
  let finished ← Program.now
  account job started finished result
  return some w

/-- The last round. -/
def leave (w : Worker) : Program (Option Worker) := do
  let _ ← Program.token (.logout w.session)
  Program.token (.closeSession w.session)
  return none

/-- A round receives a job and serves it, or leaves. -/
theorem iterate_eq (w : Worker) :
    iterate P w = recv >>= fun received =>
      match received with
      | some job => serve P w job
      | none => leave w := by
  refine bind_congr fun received => ?_
  cases received with
  | none => rfl
  | some job =>
    refine congrArg (call _) (funext fun started => ?_)
    show execute P w job.request >>= _ = execute P w job.request >>= _
    refine bind_congr fun r => ?_
    obtain ⟨result, w'⟩ := r
    cases result <;> rfl

/-! ## What the parts of a round touch -/

/-- The steps at the end of a job. -/
def accounts : Op → Bool
  | .pool (.count .queueWaitNanosTotal _) => true
  | .pool (.count .serviceNanosTotal _) => true
  | .pool (.count .jobsCompleted _) => true
  | .pool (.count .jobsFailed _) => true
  | .pool (.respond _ _) => true
  | _ => false

/-- The end of a job counts and responds. -/
lemma account_only (job : Job) (started finished : ℕ) (result : JobResult) :
    Only (fun o => accounts o) (account job started finished result) := by
  cases result with
  | ok response => exact ⟨rfl, fun _ => ⟨rfl, fun _ => ⟨rfl, fun _ => ⟨rfl, fun _ => only_ret _⟩⟩⟩⟩
  | error e =>
    exact ⟨rfl, fun _ => ⟨rfl, fun _ => ⟨rfl, fun _ => ⟨rfl, fun _ => ⟨rfl, fun _ => only_ret _⟩⟩⟩⟩⟩

/-- Exporting a public key reads the attributes of one object. -/
lemma publicKeyToSpkiDer_reads (session : SessionHandle) (key : ObjectHandle) :
    Only (fun o => ∃ types, o = .token (.getAttributes session key types))
      (publicKeyToSpkiDer P session key).run := by
  refine only_run_bind ⟨⟨_, rfl⟩, fun _ => only_ret _⟩ fun attributes => ?_
  split
  · exact only_run_bind (only_run_bind ⟨⟨_, rfl⟩, fun _ => only_ret _⟩ fun _ => only_ret _)
      fun _ => only_ret _
  · exact only_run_bind (only_run_bind ⟨⟨_, rfl⟩, fun _ => only_ret _⟩ fun _ => only_ret _)
      fun _ => only_ret _
  · exact only_ret _

/-- The operation of a job makes calls on the resolved object alone. -/
lemma operation_only (request : JobRequest) (session : SessionHandle) (key : ObjectHandle) :
    Only (fun o => o.usesHandle = some (session, key)) (operation P request session key) := by
  cases request with
  | sign label algorithm payload => exact ⟨rfl, fun _ => only_ret _⟩
  | verify label algorithm payload signature => exact ⟨rfl, fun _ => only_ret _⟩
  | encrypt label plaintext associatedData iv =>
    simp only [operation]
    split
    · exact only_ret _
    · exact ⟨rfl, fun _ => only_ret _⟩
  | decrypt label ciphertext associatedData iv =>
    simp only [operation]
    split
    · exact only_ret _
    · exact ⟨rfl, fun _ => only_ret _⟩
  | getPublicKey label =>
    refine Only.bind ((publicKeyToSpkiDer_reads P session key).weaken fun o ho => ?_)
      fun _ => only_ret _
    obtain ⟨types, rfl⟩ := ho
    rfl

/-- Opening a session and logging in makes no call on an object. -/
lemma openWorkerSession_only : Only (fun o => o.opensSession) (openWorkerSession P) := by
  have hlogin : Only (fun o => o.opensSession) loginSession :=
    loginSessionBy_only ⟨rfl, fun _ => only_ret _⟩ (fun _ => ⟨rfl, fun _ => only_ret _⟩)
      fun _ => ⟨rfl, fun _ => only_ret _⟩
  refine hlogin.bind fun r => ?_
  rcases r with err | session
  · dsimp only
    split
    · refine ⟨rfl, fun opened => ?_⟩
      cases opened <;> exact only_ret _
    · split <;> exact only_ret _
  · exact only_ret _

/-- The steps of the execution of a job. -/
def executes : Op → Bool
  | .token _ => true
  | .pool (.count .handleCacheHits _) => true
  | .pool (.count .handleCacheMisses _) => true
  | .pool (.count .sessionResets _) => true
  | _ => false

/-- The steps of a reset. -/
def resets : Op → Bool
  | .pool (.count .sessionResets _) => true
  | o => o.opensSession

/-- The steps that replace a session are part of an execution. -/
lemma executes_of_resets {o : Op} (ho : resets o) : executes o := by
  cases o with
  | pool q =>
    cases q with
    | count c n => cases c <;> first | rfl | cases ho
    | _ => cases ho
  | token t => rfl
  | _ => cases ho

/-- A reset counts itself, opens a session and closes the old one. -/
lemma resetSession_only (w : Worker) : Only (fun o => resets o) (resetSession P w) := by
  refine ⟨rfl, fun _ => ?_⟩
  show Only _ (openWorkerSession P >>= _)
  refine Only.bind ((openWorkerSession_only P).weaken fun o ho => ?_) fun r => ?_
  · cases o <;> first | exact absurd ho Bool.false_ne_true | exact ho
  · cases r with
    | error e => exact only_ret _
    | ok session => exact ⟨rfl, fun _ => only_ret _⟩

/-- What an execution is made of: a count of the lookup, at most one search, calls on the object, and
a reset. -/
lemma execute_only_of {K : Op → Prop} (w : Worker) (request : JobRequest)
    (hhit : K (.pool (.count .handleCacheHits 1))) (hmiss : K (.pool (.count .handleCacheMisses 1)))
    (hsearch : K (.token (.findObjects w.session request.kind.objectClass request.keyLabel)))
    (hoperation : ∀ o, o.usesHandle.isSome = true → K o) (hreset : ∀ o, resets o = true → K o) :
    Only K (execute P w request) := by
  rw [execute_eq]
  refine Only.bind ?_ fun r => ?_
  · unfold resolve
    split
    · exact ⟨hhit, fun _ => only_ret _⟩
    · refine ⟨hmiss, fun _ => ⟨hsearch, fun found => ?_⟩⟩
      rcases found with e | (_ | ⟨handle, rest⟩) <;> exact only_ret _
  · obtain ⟨r, w'⟩ := r
    cases r with
    | error e => exact only_ret _
    | ok key =>
      refine Only.bind ((operation_only P request _ key).weaken fun o ho => ?_) fun result => ?_
      · exact hoperation o (by rw [ho]; rfl)
      · split
        · exact ((resetSession_only P w').weaken hreset).bind fun _ => only_ret _
        · exact only_ret _

/-- Executing a job calls the token, and counts handles and resets. -/
lemma execute_only (w : Worker) (request : JobRequest) :
    Only (fun o => executes o) (execute P w request) := by
  refine execute_only_of P w request rfl rfl rfl (fun o ho => ?_) fun _ => executes_of_resets
  cases o <;> first | rfl | cases ho

/-- The steps of a worker. -/
def ofWorker : Op → Bool
  | .token _ => true
  | .pool (.trySend _ _) => false
  | .pool (.awaitResult _ _) => false
  | .pool _ => true
  | .now => true
  | _ => false

/-- A round of a worker uses its ends of the channels, the token and the clock. -/
theorem iterate_only (w : Worker) : Only (fun o => ofWorker o) (iterate P w) := by
  have hserve : ∀ job, Only (fun o => ofWorker o) (serve P w job) := by
    intro job
    refine ⟨rfl, fun started => ?_⟩
    show Only _ (execute P w job.request >>= _)
    refine Only.bind ?_ fun r => ⟨rfl, fun finished => ?_⟩
    · refine (execute_only P w job.request).weaken fun o ho => ?_
      cases o with
      | pool q => cases q <;> first | rfl | cases ho
      | _ => first | rfl | cases ho
    · show Only _ (account job started finished r.1 >>= _)
      refine Only.bind ((account_only job started finished r.1).weaken fun o ho => ?_)
        fun _ => only_ret _
      cases o with
      | pool q => cases q <;> first | rfl | cases ho
      | _ => cases ho
  have hleave : Only (fun o => ofWorker o) (leave w) := ⟨rfl, fun _ => ⟨rfl, fun _ => only_ret _⟩⟩
  rw [iterate_eq]
  refine Only.bind ⟨rfl, fun polled => ?_⟩ fun received => ?_
  · cases polled with
    | job job => exact only_ret _
    | disconnected => exact only_ret _
    | parked => exact ⟨rfl, fun _ => only_ret _⟩
  · cases received with
    | some job => exact hserve job
    | none => exact hleave

/-! ## The rule for a round -/

section

variable {P} {G : Type} {C : Contract Op.Ans G} {g : G}

/-- How a lookup ends: with a handle that is ready for use, or with an error. -/
def Resolved (Ready : G → Worker → ObjectHandle → Prop) (Failed : G → Worker → PoolError → Prop)
    (g : G) : Except PoolError ObjectHandle × Worker → Prop
  | (.ok key, w) => Ready g w key
  | (.error e, w) => Failed g w e

/-- The rule for an execution: the handle is resolved, the operation is performed with it, and the
session is reset if the result asks for that. -/
theorem meets_execute (Ready : G → Worker → ObjectHandle → Prop)
    (Failed : G → Worker → PoolError → Prop) (Operated : G → Worker → JobResult → Prop)
    {Q : G → JobResult × Worker → Prop} {w : Worker} {request : JobRequest}
    (hresolve : Meets C (Resolved Ready Failed) g (w.resolve request.kind request.keyLabel))
    (hfailed : ∀ g w' e, Failed g w' e → Q g (.error e, w'))
    (hoperation : ∀ g w' key, Ready g w' key →
      Meets C (fun g result => Operated g w' result) g (operation P request w'.session key))
    (hkeep : ∀ g w' result, needsReset result = false → Operated g w' result → Q g (result, w'))
    (hreset : ∀ g w' result, Operated g w' result →
      Meets C (fun g w'' => Q g (result, w'')) g (resetSession P w')) :
    Meets C Q g (execute P w request) := by
  rw [execute_eq, meets_bind]
  refine hresolve.mono fun g r hr => ?_
  obtain ⟨resolved, w'⟩ := r
  cases resolved with
  | error e => exact hfailed g w' e hr
  | ok key =>
    rw [meets_bind]
    refine (hoperation g w' key hr).mono fun g result hresult => ?_
    split
    · rw [meets_bind]
      exact hreset g w' result hresult
    · rename_i hfine
      exact hkeep g w' result ((Bool.not_eq_true _).mp hfine) hresult

/-- The rule for a lookup, when it does not matter whether the map had the handle. -/
lemma meets_resolve {Ready : G → Worker → ObjectHandle → Prop}
    {Failed : G → Worker → PoolError → Prop} {w : Worker} {kind : KeyKind} {label : String}
    (hhit : C.pre g (.pool (.count .handleCacheHits 1)) ∧
      ∀ a key, Ready (C.next g (.pool (.count .handleCacheHits 1)) a) w key)
    (hmiss : C.pre g (.pool (.count .handleCacheMisses 1)))
    (hsearch : ∀ a, Meets C
      (fun g found => (∀ e, searchResult label found = .error e → Failed g w e) ∧
        ∀ key, searchResult label found = .ok key → Ready g (w.store kind label key) key)
      (C.next g (.pool (.count .handleCacheMisses 1)) a)
      (Program.token (.findObjects w.session kind.objectClass label))) :
    Meets C (Resolved Ready Failed) g (w.resolve kind label) := by
  unfold resolve
  cases w.cached kind label with
  | some key => exact ⟨hhit.1, fun a _ => hhit.2 a key⟩
  | none =>
    refine ⟨hmiss, fun a _ => ⟨(hsearch a).1, fun found hfound => ?_⟩⟩
    have hready := (hsearch a).2 found hfound
    rcases found with e | (_ | ⟨key, rest⟩)
    · exact hready.1 _ rfl
    · exact hready.1 _ rfl
    · exact hready.2 key rfl

/-- The rule for receiving: a job is there, or the queue is closed, or the worker parks until one of
the two is the case. -/
lemma meets_recv {Received : G → Option Job → Prop} (hpoll : C.pre g (.pool .poll))
    (hjob : ∀ job, C.post g (.pool .poll) (.job job) →
      Received (C.next g (.pool .poll) (.job job)) (some job))
    (hclosed : C.post g (.pool .poll) .disconnected →
      Received (C.next g (.pool .poll) .disconnected) none)
    (hparked : C.post g (.pool .poll) .parked →
      Meets C Received (C.next g (.pool .poll) .parked) (Program.pool .unpark)) :
    Meets C Received g recv := by
  refine ⟨hpoll, fun polled hpolled => ?_⟩
  cases polled with
  | job job => exact hjob job hpolled
  | disconnected => exact hclosed hpolled
  | parked => exact hparked hpolled

/-- The rule for the end of a job, when only the response matters. -/
lemma meets_account {J : G → Prop} {Q : G → Unit → Prop} {job : Job} {started finished : ℕ}
    {result : JobResult}
    (hcount : ∀ g c n, accounts (.pool (.count c n)) → J g →
      C.pre g (.pool (.count c n)) ∧ ∀ a, J (C.next g (.pool (.count c n)) a))
    (hrespond : ∀ g, J g → Meets C Q g (Program.pool (.respond job.id result))) (hg : J g) :
    Meets C Q g (account job started finished result) := by
  have hwait := hcount g .queueWaitNanosTotal (started - job.enqueuedAt) rfl hg
  refine ⟨hwait.1, fun u _ => ?_⟩
  have hservice := hcount _ .serviceNanosTotal (finished - started) rfl (hwait.2 u)
  refine ⟨hservice.1, fun u _ => ?_⟩
  have hcompleted := hcount _ .jobsCompleted 1 rfl (hservice.2 u)
  refine ⟨hcompleted.1, fun u _ => ?_⟩
  cases result with
  | ok response => exact hrespond _ (hcompleted.2 u)
  | error e =>
    have hfailed := hcount _ .jobsFailed 1 rfl (hcompleted.2 u)
    exact ⟨hfailed.1, fun u _ => hrespond _ (hfailed.2 u)⟩

/-- The rule for a round: what is received is executed between two looks at the clock and then
accounted for, or the worker leaves. -/
theorem meets_iterate (Received : G → Option Job → Prop)
    (Executed : Job → G → JobResult × Worker → Prop) {Q : G → Option Worker → Prop} {w : Worker}
    (hrecv : Meets C Received g recv)
    (hexecute : ∀ g job, Received g (some job) → C.pre g .now ∧
      ∀ started, Meets C (Executed job) (C.next g .now started) (execute P w job.request))
    (haccount : ∀ g job r, Executed job g r → C.pre g .now ∧ ∀ started finished,
      Meets C (fun g' _ => Q g' (some r.2)) (C.next g .now finished)
        (account job started finished r.1))
    (hleave : ∀ g, Received g none → Meets C Q g (leave w)) :
    Meets C Q g (iterate P w) := by
  rw [iterate_eq, meets_bind]
  refine hrecv.mono fun g received hreceived => ?_
  cases received with
  | none => exact hleave g hreceived
  | some job =>
    obtain ⟨hnow, hexecute⟩ := hexecute g job hreceived
    refine ⟨hnow, fun started _ => ?_⟩
    show Meets C Q _ (execute P w job.request >>= _)
    rw [meets_bind]
    refine (hexecute started).mono fun g r hr => ?_
    obtain ⟨hnow, haccount⟩ := haccount g job r hr
    refine ⟨hnow, fun finished _ => ?_⟩
    show Meets C Q _ (account job started finished r.1 >>= _)
    rw [meets_bind]
    exact haccount started finished

end

/-! ## What an execution performs -/

/-- The calls that use a key on data. -/
def operates : Op → Bool
  | .token (.sign _ _ _ _) => true
  | .token (.verify _ _ _ _ _) => true
  | .token (.encrypt _ _ _ _) => true
  | .token (.decrypt _ _ _ _) => true
  | _ => false

/-- The calls `ops` on data produce the response to a request: one call, for that request, with that
response. -/
def Performed (session : SessionHandle) : JobRequest → JobResponse → List (Event Op.Ans) → Prop
  | .sign _ algorithm payload, .signature bytes, ops =>
    ∃ key, ops = [⟨.token (.sign session algorithm.mechanism key payload), .ok bytes⟩]
  | .verify _ algorithm payload signature, .verified _, ops =>
    ∃ key answer,
      ops = [⟨.token (.verify session algorithm.mechanism key payload signature), answer⟩]
  | .encrypt _ plaintext associatedData iv, .ciphertext bytes, ops =>
    ∃ key, ops = [⟨.token (.encrypt session (.aesGcm iv associatedData gcmTagBits) key plaintext),
      .ok bytes⟩]
  | .decrypt _ ciphertext associatedData iv, .plaintext bytes, ops =>
    ∃ key, ops = [⟨.token (.decrypt session (.aesGcm iv associatedData gcmTagBits) key ciphertext),
      .ok bytes⟩]
  | .getPublicKey _, .publicKey _ _, ops => ops = []
  | _, _, _ => False

/-- The errors an execution of a request can end in. -/
def FailsWith : JobRequest → PoolError → Prop
  | request, .keyNotFound label => label = request.keyLabel
  | .encrypt _ _ _ _, .invalidRequest _ => True
  | .decrypt _ _ _ _, .invalidRequest _ => True
  | .getPublicKey _, .hsm _ _ => False
  | _, .hsm _ _ => True
  | _, .internal _ => True
  | _, _ => False

/-- What an execution ends with: a response it performed, or an error of its request. -/
def EndsWith (session : SessionHandle) (request : JobRequest) (ops : List (Event Op.Ans)) :
    JobResult → Prop
  | .ok response => Performed session request response ops
  | .error e => FailsWith request e

/-- The operation of a job ends with a response it performed, or with an error of its request. -/
lemma operation_endsWith (request : JobRequest) (session : SessionHandle) (key : ObjectHandle) :
    Meets (Contract.seen operates) (EndsWith session request) []
      (operation P request session key) := by
  cases request with
  | sign label algorithm payload =>
    refine meets_seen_call rfl fun answer => ?_
    cases answer with
    | error e => exact True.intro
    | ok bytes => exact ⟨key, rfl⟩
  | verify label algorithm payload signature =>
    refine meets_seen_call rfl fun answer => ?_
    rcases answer with (rv | message) | u
    · cases rv <;> first | exact True.intro | exact ⟨key, _, rfl⟩
    · exact True.intro
    · exact ⟨key, _, rfl⟩
  | encrypt label plaintext associatedData iv =>
    simp only [operation]
    split
    · exact True.intro
    · refine meets_seen_call rfl fun answer => ?_
      cases answer with
      | error e => exact True.intro
      | ok bytes => exact ⟨key, rfl⟩
  | decrypt label ciphertext associatedData iv =>
    simp only [operation]
    split
    · exact True.intro
    · refine meets_seen_call rfl fun answer => ?_
      rcases answer with (rv | message) | bytes
      · cases rv <;> exact True.intro
      · exact True.intro
      · exact ⟨key, rfl⟩
  | getPublicKey label =>
    simp only [operation, meets_map]
    refine (publicKeyToSpkiDer_reads P session key).meets_seen (fun o ho => ?_) fun exported => ?_
    · obtain ⟨types, rfl⟩ := ho
      rfl
    · rcases exported with e | ⟨spkiDer, keyType⟩
      · exact True.intro
      · rfl

/-- An execution ends with a response it performed on the session it started with, or with an error
of its request. -/
theorem execute_endsWith {w w' : Worker} {request : JobRequest} {calls : List (Event Op.Ans)}
    {result : JobResult} (h : Runs (execute P w request) calls (result, w')) :
    EndsWith w.session request (calls.filter fun ev => operates ev.1) result := by
  have hmeets : Meets (Contract.seen operates) (fun ops r => EndsWith w.session request ops r.1) []
      (execute P w request) := by
    refine meets_execute (fun ops w₁ _ => ops = [] ∧ w₁.session = w.session)
      (fun ops _ e => EndsWith w.session request ops (.error e))
      (fun ops _ result => EndsWith w.session request ops result) ?_
      (fun _ _ _ hfailed => hfailed) ?_ (fun _ _ _ _ hresult => hresult)
      fun ops w₁ result hresult => ?_
    · refine meets_resolve ⟨True.intro, fun _ _ => ⟨rfl, rfl⟩⟩ True.intro
        fun _ => ⟨True.intro, fun found _ => ⟨fun e he => ?_, fun key _ => ⟨rfl, rfl⟩⟩⟩
      rcases found with _ | (_ | _)
      · cases he
        cases request <;> exact True.intro
      · cases he
        cases request <;> rfl
      · cases he
    · rintro ops w₁ key ⟨rfl, hsession⟩
      rw [hsession]
      exact operation_endsWith P request w.session key
    · refine (resetSession_only P w₁).meets_seen (fun o ho => ?_) fun w₂ => hresult
      cases o with
      | token t => cases t <;> first | rfl | cases ho
      | _ => rfl
  exact forall_runs_seen_iff.mpr hmeets calls _ h

end

end Worker

end HsmProxy
