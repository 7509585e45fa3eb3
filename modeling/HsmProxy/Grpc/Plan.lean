import HsmProxy.Grpc.Pooled

/-!
# The common shape of the five methods

Every method of `PooledService` is admitted, checks its request without touching anything shared,
and then either submits one job or asks the cache for one public key.  `plan` is the pure middle
part, `inner_eq` says that each method is its plan, and `meets_pooled` is the rule that reduces a
contract of the whole method to one obligation for each part.
-/

namespace HsmProxy

open Interleaving Interleaving.Prog

/-- What a method does once its request has been checked: submit a job, for `encrypt` with a fresh
IV, or look a public key up; then shape the answer. -/
inductive Plan where
  | job (drawsIv : Bool) (request : Bytes → JobRequest)
      (finish : Bytes → JobResponse → Except Status RpcResponse)
  | key (finish : Lookup × Bool → Except Status RpcResponse)

/-- The answer of `sign`. -/
def finishSign (keyLabel : String) : JobResponse → Except Status RpcResponse
  | .signature signature => .ok (.sign ⟨signature, keyLabel⟩)
  | _ => .error unexpected

/-- The answer of `encrypt`. -/
def finishEncrypt (iv : Bytes) : JobResponse → Except Status RpcResponse
  | .ciphertext ciphertext => .ok (.encrypt ⟨ciphertext, iv⟩)
  | _ => .error unexpected

/-- The answer of `decrypt`. -/
def finishDecrypt : JobResponse → Except Status RpcResponse
  | .plaintext plaintext => .ok (.decrypt ⟨plaintext⟩)
  | _ => .error unexpected

/-- The answer of `verify`. -/
def finishVerify (libs : CryptoLibs) (request : VerifyRequest) (input : SigningInput) :
    Lookup × Bool → Except Status RpcResponse
  | (.notFound, _) => .error (keyNotFound request.keyLabel)
  | (.found key, servedFromCache) =>
    match verifyPublic libs key.spkiDer request.mechanism input request.signature with
    | .ok valid => .ok (.verify ⟨valid, servedFromCache⟩)
    | .error _ => .error (.internal "verification failed")

/-- The answer of `get_public_key`. -/
def finishGetPublicKey (keyLabel : String) : Lookup × Bool → Except Status RpcResponse
  | (.notFound, _) => .error (keyNotFound keyLabel)
  | (.found key, servedFromCache) =>
    .ok (.getPublicKey ⟨key.spkiDer, key.keyType, servedFromCache⟩)

section

variable (P : Platform) (cfg : ServiceConfig)

/-- The checks of a method, and what they lead to. -/
def plan : Rpc → Except Status Plan
  | .sign request => do
    let input ← extractInput request.inner.input
    let prepared ← asInvalidArgument (prepare P.crypto request.inner.mechanism input)
    return .job false
      (fun _ => .sign request.inner.keyLabel prepared.algorithm prepared.payload)
      (fun _ => finishSign request.inner.keyLabel)
  | .verify request => do
    let input ← extractInput request.inner.input
    return .key (finishVerify P.crypto request.inner input)
  | .encrypt request => do
    requireAesGcm request.inner.mechanism
    return .job true
      (.encrypt request.inner.keyLabel request.inner.plaintext request.inner.associatedData)
      finishEncrypt
  | .decrypt request => do
    requireAesGcm request.inner.mechanism
    checkIv request.inner.iv
    return .job false
      (fun _ => .decrypt request.inner.keyLabel request.inner.ciphertext
        request.inner.associatedData request.inner.iv)
      (fun _ => finishDecrypt)
  | .getPublicKey request => .ok (.key (finishGetPublicKey request.inner.keyLabel))

/-- The methods that look a public key up. -/
def Rpc.readsPublicKey : Rpc → Bool
  | .verify _ => true
  | .getPublicKey _ => true
  | _ => false

/-- A check that succeeded succeeded in each of its parts. -/
lemma except_bind_ok {ε α β : Type} {x : Except ε α} {f : α → Except ε β} {b : β}
    (h : x >>= f = .ok b) : ∃ a, x = .ok a ∧ f a = .ok b := by
  cases x with
  | error e => cases h
  | ok a => exact ⟨a, rfl, h⟩

/-- The methods that plan to submit a job. -/
lemma plan_job {rpc : Rpc} {drawsIv : Bool} {request : Bytes → JobRequest}
    {finish : Bytes → JobResponse → Except Status RpcResponse}
    (h : plan P rpc = .ok (.job drawsIv request finish)) : rpc.readsPublicKey = false := by
  cases rpc with
  | verify r =>
    obtain ⟨input, -, h⟩ := except_bind_ok h
    cases h
  | getPublicKey r => cases h
  | _ => rfl

/-- The methods that plan to look a key up. -/
lemma plan_key {rpc : Rpc} {finish : Lookup × Bool → Except Status RpcResponse}
    (h : plan P rpc = .ok (.key finish)) : rpc.readsPublicKey = true := by
  cases rpc with
  | sign r =>
    obtain ⟨input, -, h⟩ := except_bind_ok h
    obtain ⟨prepared, -, h⟩ := except_bind_ok h
    cases h
  | encrypt r =>
    obtain ⟨_, -, h⟩ := except_bind_ok h
    cases h
  | decrypt r =>
    obtain ⟨_, -, h⟩ := except_bind_ok h
    obtain ⟨_, -, h⟩ := except_bind_ok h
    cases h
  | _ => rfl

/-- A fresh IV, for a plan that needs one. -/
def drawIv (drawsIv : Bool) : Program Bytes :=
  if drawsIv then Program.randomIv else return []

/-- Carry a plan out. -/
def perform (keyLabel : String) : Plan → Handler RpcResponse
  | .job drawsIv request finish => do
    let iv ← drawIv drawsIv
    let response ← submitObserved cfg (request iv)
    Handler.check (finish iv response)
  | .key finish => do
    let found ← publicKey P cfg keyLabel
    Handler.check (finish found)

/-- A check that succeeds is not there. -/
@[simp] lemma check_ok_bind {α β : Type} (a : α) (f : α → Handler β) :
    (Handler.check (.ok a) >>= f) = f a := rfl

/-- A check that fails ends the handler. -/
@[simp] lemma check_error_bind {α β : Type} (st : Status) (f : α → Handler β) :
    (Handler.check (.error st) >>= f) = Handler.check (.error st) := rfl

/-- A check that succeeds, inside a check. -/
@[simp] lemma except_ok_bind {α β : Type} (a : α) (f : α → Except Status β) :
    ((Except.ok a : Except Status α) >>= f) = f a := rfl

/-- Every method is admitted, checks its request, and carries its plan out. -/
theorem inner_eq (rpc : Rpc) :
    inner P cfg rpc = admitRequest P cfg rpc.peerCerts rpc.keyLabel rpc.operation >>= fun _ =>
      Handler.check (plan P rpc) >>= perform P cfg rpc.keyLabel := by
  cases rpc with
  | sign request =>
    show signInner P cfg request = _
    unfold signInner
    refine bind_congr fun _ => ?_
    simp only [plan]
    cases hinput : extractInput request.inner.input with
    | error st => rfl
    | ok input =>
      simp only [check_ok_bind, except_ok_bind]
      cases hprepared : asInvalidArgument (prepare P.crypto request.inner.mechanism input) with
      | error st => rfl
      | ok prepared =>
        show submitObserved cfg _ >>= _ = submitObserved cfg _ >>= _
        refine bind_congr fun response => ?_
        cases response <;> rfl
  | verify request =>
    show verifyInner P cfg request = _
    unfold verifyInner
    refine bind_congr fun _ => ?_
    simp only [plan]
    cases hinput : extractInput request.inner.input with
    | error st => rfl
    | ok input =>
      show publicKey P cfg _ >>= _ = publicKey P cfg _ >>= _
      refine bind_congr fun found => ?_
      obtain ⟨lookup, servedFromCache⟩ := found
      cases lookup with
      | notFound => rfl
      | found key =>
        simp only [finishVerify]
        cases verifyPublic P.crypto key.spkiDer request.inner.mechanism input
          request.inner.signature <;> rfl
  | encrypt request =>
    show encryptInner P cfg request = _
    unfold encryptInner
    refine bind_congr fun _ => ?_
    simp only [plan]
    cases hmechanism : requireAesGcm request.inner.mechanism with
    | error st => rfl
    | ok u =>
      simp only [check_ok_bind, except_ok_bind]
      refine bind_congr fun iv => ?_
      refine bind_congr fun response => ?_
      cases response <;> rfl
  | decrypt request =>
    show decryptInner P cfg request = _
    unfold decryptInner
    refine bind_congr fun _ => ?_
    simp only [plan]
    cases hmechanism : requireAesGcm request.inner.mechanism with
    | error st => rfl
    | ok u =>
      simp only [check_ok_bind, except_ok_bind]
      cases hiv : checkIv request.inner.iv with
      | error st => rfl
      | ok u =>
        show submitObserved cfg _ >>= _ = submitObserved cfg _ >>= _
        refine bind_congr fun response => ?_
        cases response <;> rfl
  | getPublicKey request =>
    show getPublicKeyInner P cfg request = _
    unfold getPublicKeyInner
    refine bind_congr fun _ => ?_
    refine bind_congr fun found => ?_
    obtain ⟨lookup, servedFromCache⟩ := found
    cases lookup <;> rfl

/-! ## What the parts of a method touch -/

/-- The steps of admission. -/
def Op.admits : Op → Bool
  | .breaker .load => true
  | .breaker .probe => true
  | .authz _ => true
  | .limiterCheck _ => true
  | _ => false

/-- The steps of `Pool::submit`. -/
def Op.submits : Op → Bool
  | .pool (.count .jobsSubmitted _) => true
  | .pool (.count .jobsRejectedQueueFull _) => true
  | .pool (.count .jobsTimedOut _) => true
  | .pool (.trySend _ _) => true
  | .pool (.awaitResult _ _) => true
  | .now => true
  | _ => false

/-- The steps that count a finished request. -/
def Op.records : Op → Bool
  | .record _ => true
  | _ => false

/-- A check takes no step. -/
@[simp] lemma only_check {α : Type} {K : Op → Prop} (r : Except Status α) :
    Only K (Handler.check r).run := True.intro

/-- `CircuitBreaker::allow` loads the state and may enter its critical section. -/
lemma allow_only : Only (fun o => o.admits) Program.allow := by
  refine ⟨rfl, fun s => ?_⟩
  cases s with
  | «open» => exact ⟨rfl, fun _ => only_ret _⟩
  | closed => exact only_ret _
  | halfOpen => exact only_ret _

/-- Extracting an identity touches the memo alone. -/
lemma identify_only (peerCerts : Option (List Bytes)) :
    Only (fun o => o.admits) (identify P peerCerts).run := by
  unfold identify
  split
  · exact only_ret _
  · split
    · exact only_ret _
    · refine ⟨rfl, fun memo => ?_⟩
      cases memo with
      | some identity => exact only_ret _
      | none =>
        refine only_run_bind (only_check _) fun identity => ?_
        exact ⟨rfl, fun _ => only_ret _⟩

/-- Authorization touches the authorizer alone. -/
lemma authorize_only (policy : Policy) (peerCerts : Option (List Bytes)) (keyLabel : String)
    (operation : Operation) :
    Only (fun o => o.admits) (authorize P policy peerCerts keyLabel operation).run := by
  refine only_run_bind ?_ fun r => ?_
  · exact (identify_only P peerCerts).bind fun r => only_ret _
  · cases r with
    | error st => exact ⟨rfl, fun _ => only_ret _⟩
    | ok identity =>
      dsimp only
      split <;> exact ⟨rfl, fun _ => only_ret _⟩

/-- Admission touches the breaker's state, the authorizer and the rate limiter. -/
lemma admitRequest_only (peerCerts : Option (List Bytes)) (keyLabel : String)
    (operation : Operation) :
    Only (fun o => o.admits) (admitRequest P cfg peerCerts keyLabel operation).run := by
  refine only_run_bind (allow_only.bind fun _ => only_ret _) fun admitted => ?_
  split
  · split
    · exact only_ret _
    · refine only_run_bind (authorize_only P _ peerCerts keyLabel operation) fun identity => ?_
      split
      · exact only_ret _
      · refine ⟨rfl, fun ok => ?_⟩
        cases ok <;> exact only_ret _
  · exact only_ret _

/-- Recording a finished request counts. -/
lemma record_only {α : Type} (operation : Operation) (result : Except Status α) :
    Only (fun o => o.records) (record operation result) := by
  cases result with
  | ok a => exact ⟨rfl, fun _ => ⟨rfl, fun _ => only_ret _⟩⟩
  | error st =>
    refine ⟨rfl, fun _ => ?_⟩
    dsimp only
    split <;> first | exact only_ret _ | exact ⟨rfl, fun _ => only_ret _⟩

/-- Drawing an IV asks for random bytes, if for anything. -/
lemma drawIv_only (drawsIv : Bool) : Only (fun o => o = .randomIv) (drawIv drawsIv) := by
  cases drawsIv with
  | false => exact only_ret _
  | true => exact ⟨rfl, fun _ => only_ret _⟩

/-- Submitting a job touches the pool alone. -/
lemma submit_only (request : JobRequest) : Only (fun o => o.submits) (submit cfg request) := by
  refine ⟨rfl, fun _ => ⟨rfl, fun _ => ⟨rfl, fun sent => ?_⟩⟩⟩
  cases sent with
  | error e =>
    cases e with
    | full => exact ⟨rfl, fun _ => only_ret _⟩
    | disconnected => exact only_ret _
  | ok job =>
    refine ⟨rfl, fun _ => ⟨rfl, fun awaited => ?_⟩⟩
    cases awaited with
    | value r => exact only_ret _
    | closed => exact only_ret _
    | elapsed => exact ⟨rfl, fun _ => only_ret _⟩

/-- The steps of a handler. -/
def Op.ofHandler (o : Op) : Bool :=
  o.admits || o.submits || o.records ||
    match o with
    | .breaker _ => true
    | .cache _ => true
    | .randomIv => true
    | _ => false

/-- The steps that carry a plan out. -/
def Op.performs : Op → Bool
  | .breaker .recordSuccess => true
  | .breaker .recordFailure => true
  | .cache _ => true
  | .randomIv => true
  | o => o.submits

/-- The steps that perform a plan are steps of a handler. -/
lemma ofHandler_of_performs {o : Op} (ho : o.performs) : o.ofHandler := by
  cases o with
  | breaker q => exact Bool.or_true _
  | cache q => rfl
  | randomIv => rfl
  | pool q =>
    have hsubmits : (Op.pool q).submits = true := ho
    simp [Op.ofHandler, hsubmits]
  | now => rfl
  | _ => exact absurd ho Bool.false_ne_true

/-- The request a step sends to the pool. -/
def Op.sends : Op → Option JobRequest
  | .pool (.trySend request _) => some request
  | _ => none

/-- The requests a plan may send. -/
def Plan.Carries (keyLabel : String) : Plan → JobRequest → Prop
  | .job _ request _, sent => ∃ iv, sent = request iv
  | .key _, sent => sent = .getPublicKey keyLabel

/-- The steps of `observe`. -/
def Op.reports : Op → Bool
  | .breaker .recordSuccess => true
  | .breaker .recordFailure => true
  | _ => false

/-- `observe` reports to the breaker. -/
lemma observe_reports {α : Type} (r : Except Status α) :
    Only (fun o => o.reports) (observe r) := by
  rcases r with ⟨code, message⟩ | a
  · cases code <;> exact ⟨rfl, fun _ => only_ret _⟩
  · exact ⟨rfl, fun _ => only_ret _⟩

/-- Reporting to the breaker sends nothing. -/
lemma observe_only {α : Type} (r : Except Status α) {R : JobRequest → Prop} :
    Only (fun o => o.performs ∧ ∀ sent, o.sends = some sent → R sent) (observe r) := by
  refine (observe_reports r).weaken fun o ho => ?_
  cases o with
  | breaker q => cases q <;> first | exact ⟨rfl, fun _ h => by cases h⟩ | cases ho
  | _ => cases ho

/-- A submission sends its request, and nothing else. -/
lemma submit_sends (request : JobRequest) :
    Only (fun o => o.performs ∧ ∀ sent, o.sends = some sent → sent = request)
      (submit cfg request) := by
  refine ⟨⟨rfl, fun _ h => by cases h⟩, fun _ => ⟨⟨rfl, fun _ h => by cases h⟩, fun _ =>
    ⟨⟨rfl, fun sent h => (Option.some.inj h).symm⟩, fun answer => ?_⟩⟩⟩
  cases answer with
  | error e =>
    cases e with
    | full => exact ⟨⟨rfl, fun _ h => by cases h⟩, fun _ => only_ret _⟩
    | disconnected => exact only_ret _
  | ok job =>
    refine ⟨⟨rfl, fun _ h => by cases h⟩, fun _ => ⟨⟨rfl, fun _ h => by cases h⟩, fun awaited => ?_⟩⟩
    cases awaited with
    | value r => exact only_ret _
    | closed => exact only_ret _
    | elapsed => exact ⟨⟨rfl, fun _ h => by cases h⟩, fun _ => only_ret _⟩

/-- Looking a key up sends a job for that key, if any. -/
lemma getOrLoad_only (keyLabel : String) :
    Only (fun o => o.performs ∧ ∀ sent, o.sends = some sent → sent = .getPublicKey keyLabel)
      (getOrLoad keyLabel (loadPublicKey cfg keyLabel)) := by
  have hrun : ∀ k, Only (fun o => o.performs ∧
      ∀ sent, o.sends = some sent → sent = .getPublicKey keyLabel)
      (runLoad k (loadPublicKey cfg keyLabel)) := by
    intro k
    have hload : Only (fun o => o.performs ∧
        ∀ sent, o.sends = some sent → sent = .getPublicKey keyLabel) (loadPublicKey cfg keyLabel) := by
      refine (submit_sends cfg _).bind fun r => ?_
      rcases r with (_ | _ | _ | _ | _ | _ | _) | (_ | _ | _ | _ | _) <;> exact only_ret _
    exact hload.bind fun outcome => ⟨⟨rfl, fun _ h => by cases h⟩, fun _ => only_ret _⟩
  have hget : Only (fun o => o.performs ∧
      ∀ sent, o.sends = some sent → sent = .getPublicKey keyLabel)
      (tryGetWith keyLabel (loadPublicKey cfg keyLabel)) := by
    refine ⟨⟨rfl, fun _ h => by cases h⟩, fun entered => ?_⟩
    cases entered with
    | hit value => exact only_ret _
    | own k => exact hrun k
    | join k =>
      refine ⟨⟨rfl, fun _ h => by cases h⟩, fun joined => ?_⟩
      cases joined with
      | finished outcome => exact only_ret _
      | own => exact hrun k
  refine ⟨⟨rfl, fun _ h => by cases h⟩, fun wasPresent => hget.bind fun r => ?_⟩
  cases r with
  | error e => exact only_ret _
  | ok result => cases wasPresent <;> exact ⟨⟨rfl, fun _ h => by cases h⟩, fun _ => only_ret _⟩

/-- Carrying a plan out sends its request, if any. -/
lemma perform_only (keyLabel : String) (p : Plan) :
    Only (fun o => o.performs ∧ ∀ sent, o.sends = some sent → p.Carries keyLabel sent)
      (perform P cfg keyLabel p).run := by
  cases p with
  | job drawsIv request finish =>
    refine only_run_bind (Only.bind ?_ fun _ => only_ret _) fun iv =>
      only_run_bind ?_ fun _ => only_check _
    · refine (drawIv_only drawsIv).weaken fun o ho => ?_
      subst ho
      exact ⟨rfl, fun _ h => by cases h⟩
    · have hsubmit : Only (fun o => o.performs ∧ ∀ sent, o.sends = some sent →
          (Plan.job drawsIv request finish).Carries keyLabel sent) (submit cfg (request iv)) :=
        (submit_sends cfg _).weaken fun o ho => ⟨ho.1, fun sent h => ⟨iv, ho.2 sent h⟩⟩
      refine only_run_bind (hsubmit.bind fun _ => only_ret _) fun r => ?_
      exact only_run_bind ((observe_only _).bind fun _ => only_ret _) fun _ => only_check _
  | key finish =>
    refine only_run_bind (only_run_bind ((getOrLoad_only cfg keyLabel).bind fun _ => only_ret _)
      fun r => ?_) fun _ => only_check _
    exact only_run_bind ((observe_only _).bind fun _ => only_ret _) fun _ => only_check _

/-- A method is made of steps of a handler. -/
theorem pooled_only (rpc : Rpc) : Only (fun o => o.ofHandler) (pooled P cfg rpc) := by
  unfold pooled
  rw [inner_eq]
  refine Only.bind ?_ fun r => Only.bind ?_ fun _ => only_ret _
  · refine only_run_bind ?_ fun _ => only_run_bind (only_check _) fun p =>
      (perform_only P cfg _ p).weaken fun o ho => ofHandler_of_performs ho.1
    exact (admitRequest_only P cfg _ _ _).weaken fun o ho => by simp_all [Op.ofHandler]
  · exact (record_only _ r).weaken fun o ho => by simp_all [Op.ofHandler]

/-! ## Rules -/

section

variable {G : Type} {C : Contract Op.Ans G} {g : G}

/-- The rule for a method: admission and the counting of the finished request leave the ghost value
alone, where they happen. -/
theorem meets_pooled_of_quiet {Q : G → Except Status RpcResponse → Prop} {rpc : Rpc}
    (hadmission : ∀ o, o.admits → C.pre g o ∧ ∀ a, C.next g o a = g)
    (hrecord : ∀ g' r o, Q g' r → o.records → C.pre g' o ∧ ∀ a, C.next g' o a = g')
    (hrefused : ∀ st, Q g (.error st))
    (hperform : ∀ p, plan P rpc = .ok p → Meets C Q g (perform P cfg rpc.keyLabel p).run) :
    Meets C Q g (pooled P cfg rpc) := by
  have hdone : ∀ g' r, Q g' r → Meets C Q g' (record rpc.operation r >>= fun _ => pure r) := by
    intro g' r hr
    rw [meets_bind]
    exact (record_only rpc.operation r).meets (fun o ho => hrecord g' r o hr ho) fun _ => hr
  unfold pooled
  rw [meets_bind, inner_eq, meets_run_bind]
  refine (admitRequest_only P cfg _ _ _).meets hadmission fun admitted => ?_
  cases admitted with
  | error st => exact hdone g _ (hrefused st)
  | ok u =>
    cases hplan : plan P rpc with
    | error st => exact hdone g _ (hrefused st)
    | ok p => exact (hperform p hplan).mono hdone

/-- The rule for a method, under a contract that looks at neither admission nor the counting of the
finished request. -/
theorem meets_pooled {Q : G → Except Status RpcResponse → Prop} {rpc : Rpc}
    (hadmission : ∀ g o, o.admits → C.pre g o ∧ ∀ a, C.next g o a = g)
    (hrecord : ∀ g o, o.records → C.pre g o ∧ ∀ a, C.next g o a = g)
    (hrefused : ∀ st, Q g (.error st))
    (hperform : ∀ p, plan P rpc = .ok p → Meets C Q g (perform P cfg rpc.keyLabel p).run) :
    Meets C Q g (pooled P cfg rpc) :=
  meets_pooled_of_quiet P cfg (hadmission g) (fun g' _ o _ => hrecord g' o) hrefused hperform

/-- The rule for a job. -/
lemma meets_perform_job {Q : G → Except Status RpcResponse → Prop} {keyLabel : String}
    {drawsIv : Bool} {request : Bytes → JobRequest}
    {finish : Bytes → JobResponse → Except Status RpcResponse} :
    Meets C Q g (perform P cfg keyLabel (.job drawsIv request finish)).run ↔
      Meets C (fun g' iv => Meets C (fun g'' r => Q g'' (r >>= finish iv)) g'
        (submitObserved cfg (request iv)).run) g (drawIv drawsIv) := by
  simp only [perform]
  rw [meets_run_bind, meets_run_lift]
  constructor <;> intro h <;> refine h.mono fun g' iv hiv => ?_
  · refine ((meets_run_bind _ _).mp hiv).mono fun g'' r hr => ?_
    cases r <;> exact hr
  · refine (meets_run_bind _ _).mpr (Meets.mono hiv fun g'' r hr => ?_)
    cases r <;> exact hr

/-- The rule for a key lookup. -/
lemma meets_perform_key {Q : G → Except Status RpcResponse → Prop} {keyLabel : String}
    {finish : Lookup × Bool → Except Status RpcResponse} :
    Meets C Q g (perform P cfg keyLabel (.key finish)).run ↔
      Meets C (fun g' r => Q g' (r >>= finish)) g (publicKey P cfg keyLabel).run := by
  simp only [perform, meets_run_bind]
  constructor <;> intro h <;> refine h.mono fun g' r hr => ?_ <;> cases r <;> exact hr

/-- A job whose outcome is reported: first the job, then the report. -/
lemma meets_submitObserved {Q : G → Except Status JobResponse → Prop} {request : JobRequest} :
    Meets C Q g (submitObserved cfg request).run ↔
      Meets C (fun g' r => Meets C (fun g'' _ => Q g'' (r.mapError toStatus)) g'
        (observe (r.mapError toStatus))) g (submit cfg request) := by
  unfold submitObserved
  rw [meets_run_bind, meets_run_lift]
  simp only [meets_run_bind, meets_run_lift]
  exact Iff.rfl

/-- A key lookup whose outcome is reported. -/
lemma meets_publicKey {Q : G → Except Status (Lookup × Bool) → Prop} {keyLabel : String} :
    Meets C Q g (publicKey P cfg keyLabel).run ↔
      Meets C (fun g' r =>
        Meets C (fun g'' _ => Q g'' (r.mapError fun e => toStatus (.internal (e.display P)))) g'
          (observe (r.mapError fun e => toStatus (.internal (e.display P))))) g
        (getOrLoad keyLabel (loadPublicKey cfg keyLabel)) := by
  unfold publicKey
  rw [meets_run_bind, meets_run_lift]
  simp only [meets_run_bind, meets_run_lift]
  exact Iff.rfl

/-- The steps of `get_or_load` around the lookup proper. -/
def Op.countsLookup : Op → Bool
  | .cache (.containsKey _) => true
  | .cache (.countHit _) => true
  | .cache .countMiss => true
  | _ => false

/-- The rule for `get_or_load`: the counting around it leaves the ghost value alone, where it
happens. -/
lemma meets_getOrLoad_of_quiet {J : G → Prop} {Q : G → Except PoolError (Lookup × Bool) → Prop}
    {keyLabel : String} {load : Program (Except PoolError Lookup)}
    (hcount : ∀ g o, J g → o.countsLookup → C.pre g o ∧ ∀ a, C.next g o a = g) (hg : J g)
    (hget : Meets C (fun g' r => J g' ∧
      ∀ wasPresent, Q g' (r.map fun found => (found, wasPresent))) g (tryGetWith keyLabel load)) :
    Meets C Q g (getOrLoad keyLabel load) := by
  refine ⟨(hcount g _ hg rfl).1, fun wasPresent _ => ?_⟩
  rw [(hcount g _ hg rfl).2]
  show Meets C Q g (tryGetWith keyLabel load >>= _)
  rw [meets_bind]
  refine hget.mono fun g' r hr => ?_
  obtain ⟨hg', hr⟩ := hr
  cases r with
  | error e => exact hr true
  | ok found =>
    cases wasPresent with
    | true =>
      refine ⟨(hcount g' _ hg' rfl).1, fun _ _ => ?_⟩
      rw [(hcount g' _ hg' rfl).2]
      exact hr true
    | false =>
      refine ⟨(hcount g' _ hg' rfl).1, fun _ _ => ?_⟩
      rw [(hcount g' _ hg' rfl).2]
      exact hr false

/-- The rule for `get_or_load`, under a contract that does not look at the counting around it. -/
lemma meets_getOrLoad {Q : G → Except PoolError (Lookup × Bool) → Prop} {keyLabel : String}
    {load : Program (Except PoolError Lookup)}
    (hcount : ∀ g o, o.countsLookup → C.pre g o ∧ ∀ a, C.next g o a = g)
    (hget : Meets C (fun g' r => ∀ wasPresent, Q g' (r.map fun found => (found, wasPresent))) g
      (tryGetWith keyLabel load)) : Meets C Q g (getOrLoad keyLabel load) :=
  meets_getOrLoad_of_quiet (J := fun _ => True) (fun g o _ => hcount g o) True.intro
    (hget.mono fun _ _ hr => ⟨True.intro, hr⟩)

/-- What a load makes of the result of its job. -/
def loadOutcome : JobResult → Except PoolError Lookup
  | .ok (.publicKey spkiDer keyType) => .ok (.found ⟨spkiDer, keyType⟩)
  | .ok _ => .error (.internal "worker returned the wrong response variant")
  | .error (.keyNotFound _) => .ok .notFound
  | .error other => .error other

/-- The rule for a load: first the job, then its outcome is published. -/
lemma meets_runLoad {Q : G → Except PoolError Lookup → Prop} {keyLabel : String} {k : ℕ} :
    Meets C Q g (runLoad k (loadPublicKey cfg keyLabel)) ↔
      Meets C (fun g' r => C.pre g' (.cache (.finish k (loadOutcome r))) ∧
        ∀ a, C.post g' (.cache (.finish k (loadOutcome r))) a →
          Q (C.next g' (.cache (.finish k (loadOutcome r))) a) (loadOutcome r)) g
        (submit cfg (.getPublicKey keyLabel)) := by
  unfold runLoad loadPublicKey
  rw [meets_bind, meets_bind]
  constructor <;> intro h <;> refine h.mono fun g' r hr => ?_ <;>
    rcases r with (_ | _ | _ | _ | _ | _ | _) | (_ | _ | _ | _ | _) <;> exact hr

/-- What is established by the submission of a load is established by running the load. -/
lemma meets_runLoad_of_submit {J : G → Prop}
    (hcache : ∀ g' q, J g' → C.pre g' (.cache q) ∧ ∀ a, C.next g' (.cache q) a = g')
    (hsubmit : ∀ request, Meets C (fun g' _ => J g') g (submit cfg request)) (k : ℕ)
    (keyLabel : String) :
    Meets C (fun g' _ => J g' ∧ (Bool → J g')) g (runLoad k (loadPublicKey cfg keyLabel)) := by
  rw [meets_runLoad]
  refine (hsubmit _).mono fun g' r hg' => ⟨(hcache g' _ hg').1, fun a _ => ?_⟩
  rw [(hcache g' _ hg').2]
  exact ⟨hg', fun _ => hg'⟩

/-- The same of a lookup, which may find the key, run a load or join one. -/
lemma meets_getOrLoad_of_submit {J : G → Prop}
    (hcache : ∀ g' q, J g' → C.pre g' (.cache q) ∧ ∀ a, C.next g' (.cache q) a = g')
    (hsubmit : ∀ request, Meets C (fun g' _ => J g') g (submit cfg request)) (hg : J g)
    (keyLabel : String) :
    Meets C (fun g' _ => J g') g (getOrLoad keyLabel (loadPublicKey cfg keyLabel)) := by
  refine meets_getOrLoad_of_quiet (fun g' o hg' ho => ?_) hg ⟨(hcache g _ hg).1, fun entered _ => ?_⟩
  · cases o with
    | cache q => exact hcache g' q hg'
    | _ => cases ho
  rw [(hcache g _ hg).2]
  cases entered with
  | hit value => exact ⟨hg, fun _ => hg⟩
  | own k => exact meets_runLoad_of_submit cfg hcache hsubmit k keyLabel
  | join k =>
    refine ⟨(hcache g _ hg).1, fun joined _ => ?_⟩
    rw [(hcache g _ hg).2]
    cases joined with
    | finished outcome => exact ⟨hg, fun _ => hg⟩
    | own => exact meets_runLoad_of_submit cfg hcache hsubmit k keyLabel

/-- The rule for a method under a contract that looks at submissions alone: what holds before a
submission, and is established by it, is established by the method. -/
theorem meets_pooled_of_submit {J : G → Prop} (rpc : Rpc)
    (hsides : ∀ g o, J g → o.admits ∨ o.records → C.pre g o ∧ ∀ a, C.next g o a = g)
    (hskip : ∀ g o, J g → o.performs → o.submits = false → C.pre g o ∧ ∀ a, C.next g o a = g)
    (hsubmit : ∀ request, Meets C (fun g' _ => J g') g (submit cfg request)) (hg : J g) :
    Meets C (fun g' _ => J g') g (pooled P cfg rpc) := by
  have hobserve : ∀ {α : Type} (r : Except Status α) g', J g' →
      Meets C (fun g'' _ => J g'') g' (observe r) := by
    intro α r g' hg'
    refine (observe_reports r).meets (fun o ho => hskip g' o hg' ?_ ?_) fun _ => hg'
    · cases o with
      | breaker q => cases q <;> first | rfl | cases ho
      | _ => cases ho
    · cases o <;> first | rfl | cases ho
  have hcache : ∀ g' q, J g' → C.pre g' (.cache q) ∧ ∀ a, C.next g' (.cache q) a = g' :=
    fun g' q hg' => hskip g' (.cache q) hg' rfl rfl
  refine meets_pooled_of_quiet P cfg (fun o ho => hsides g o hg (Or.inl ho))
    (fun g' _ o hg' ho => hsides g' o hg' (Or.inr ho)) (fun _ => hg) fun p _ => ?_
  cases p with
  | job drawsIv request finish =>
    rw [meets_perform_job]
    refine (drawIv_only drawsIv).meets (fun o ho => ?_) fun iv => ?_
    · subst ho
      exact hskip g _ hg rfl rfl
    · rw [meets_submitObserved]
      exact (hsubmit _).mono fun g' r hg' => hobserve _ g' hg'
  | key finish =>
    rw [meets_perform_key, meets_publicKey]
    exact (meets_getOrLoad_of_submit cfg hcache hsubmit hg _).mono
      fun g' r hg' => hobserve _ g' hg'

end

end

end HsmProxy
