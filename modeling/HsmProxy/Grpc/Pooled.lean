import HsmProxy.Resilience.BreakerThreads
import HsmProxy.Service.Interface

/-!
# The pooled service

`grpc/pooled.rs` with what it calls on the handler's side: `CircuitBreaker::allow`,
`Authorizer::authorize`, `Pool::submit` and `PublicKeyCache::get_or_load`.  A handler is a program
over the atomic steps of the shared state; it ends in a response or a gRPC status.

The start time a handler takes for its latency histogram is left out: nothing else reads it.
-/

namespace HsmProxy

open Interleaving

/-! ## Translating requests -/

/-- `extract_input`. -/
def extractInput (input : Option SigningInputMessage) : Except Status SigningInput :=
  match input.bind SigningInputMessage.input with
  | none => .error (.invalidArgument "input must be set to either message or digest")
  | some (.message message) => .ok (.message message)
  | some (.digest digest) => .ok (.digest digest)

/-- The cipher mechanisms of the wire protocol. -/
inductive CipherMechanism where
  | unspecified
  | aesGcm
  deriving DecidableEq, Repr

/-- `CipherMechanism::try_from`. -/
def CipherMechanism.tryFrom (value : Int32) : Option CipherMechanism :=
  if value = 0 then some .unspecified else if value = 1 then some .aesGcm else none

/-- `require_aes_gcm`. -/
def requireAesGcm (mechanism : Int32) : Except Status Unit :=
  match CipherMechanism.tryFrom mechanism with
  | some .aesGcm => .ok ()
  | _ => .error (.invalidArgument "only CIPHER_MECHANISM_AES_GCM is supported")

/-- `key_not_found`. -/
def keyNotFound (label : String) : Status := .notFound s!"no key labelled '{label}' on the token"

/-- The length check of the IV in `decrypt`. -/
def checkIv (iv : Bytes) : Except Status Unit :=
  if iv.length ≠ gcmIvLen then
    .error (.invalidArgument s!"iv must be {gcmIvLen} bytes, got {iv.length}")
  else .ok ()

/-- A check without atomic steps, inside a handler. -/
def Handler.check {α : Type} (r : Except Status α) : Handler α := ExceptT.mk (pure r)

/-- `map_err(|e| Status::invalid_argument(e.to_string()))`. -/
def asInvalidArgument {α : Type} : Except String α → Except Status α
  | .ok a => .ok a
  | .error message => .error (.invalidArgument message)

/-! ## Failures of the pool -/

/-- The text of a `PoolError`. -/
def PoolError.display (P : Platform) : PoolError → String
  | .keyNotFound label => s!"no key labelled '{label}' on the token"
  | .invalidRequest message => s!"invalid request: {message}"
  | .overloaded => "overloaded: the request queue is full"
  | .timeout => "timed out waiting for a worker"
  | .shuttingDown => "the worker pool is shutting down"
  | .hsm operation source => s!"{operation} failed: {P.display source}"
  | .internal message => message

/-- `to_status`. -/
def toStatus : PoolError → Status
  | .keyNotFound label => .notFound s!"no key labelled '{label}' on the token"
  | .invalidRequest message => .invalidArgument message
  | .overloaded => .resourceExhausted "request queue is full; retry after backing off"
  | .timeout => .deadlineExceeded "timed out waiting for a worker"
  | .shuttingDown => .unavailable "server is shutting down"
  | .hsm operation _ => .internal s!"{operation} failed"
  | .internal _ => .internal "internal error"

/-- `unexpected`: a worker answered with the wrong variant. -/
def unexpected : Status := .internal "internal error"

/-! ## Admission -/

/-- `CircuitBreaker::allow`. -/
def Program.allow : Program Bool := allowSteps.embed Op.breaker fun _ a => a

section

variable (P : Platform) (cfg : ServiceConfig)

/-- `IdentityExtractor::identify`. -/
def identify (peerCerts : Option (List Bytes)) : Handler String :=
  match peerCerts with
  | none => throw (.unauthenticated "no client certificate presented; mTLS is required")
  | some certs =>
    match certs.head? with
    | none => throw (.unauthenticated "empty client certificate chain")
    | some der => do
      match ← Program.authz (.readMemo der) with
      | some identity => return identity
      | none =>
        let identity ← Handler.check (parseIdentity P.fromDer der)
        Program.authz (.writeMemo der identity)
        return identity

/-- `Authorizer::authorize`. -/
def authorize (policy : Policy) (peerCerts : Option (List Bytes)) (keyLabel : String)
    (operation : Operation) : Handler String := do
  match ← ExceptT.lift (identify P peerCerts).run with
  | .error status =>
    Program.authz (.count .unauthenticated)
    throw status
  | .ok identity =>
    if policy.isAllowed identity keyLabel operation then
      Program.authz (.count .allowed)
      return identity
    else
      Program.authz (.count .denied)
      throw (.permissionDenied
        s!"identity '{identity}' is not permitted to {operation.asStr} key '{keyLabel}'")

/-- The answer while the circuit is open. -/
def breakerOpen : Status :=
  .unavailable "circuit breaker is open; the HSM is failing. Retry after backoff."

/-- `PooledService::admit`. -/
def admitRequest (peerCerts : Option (List Bytes)) (keyLabel : String) (operation : Operation) :
    Handler Unit := do
  if ← Program.allow then
    match cfg.authorizer with
    | none => return ()
    | some policy =>
      let identity ← authorize P policy peerCerts keyLabel operation
      match cfg.rateLimiter with
      | none => return ()
      | some _ =>
        if ← Program.limiterCheck identity then
          return ()
        else
          throw (.resourceExhausted "rate limit exceeded for this workload identity")
  else
    throw breakerOpen

/-! ## Jobs and the public key cache -/

/-- `Pool::submit`. -/
def submit (request : JobRequest) : Program JobResult := do
  Program.incr .jobsSubmitted
  let enqueuedAt ← Program.now
  match ← Program.pool (.trySend request enqueuedAt) with
  | .error .full =>
    Program.incr .jobsRejectedQueueFull
    return .error .overloaded
  | .error .disconnected => return .error .shuttingDown
  | .ok job =>
    let started ← Program.now
    match ← Program.pool (.awaitResult job (started + cfg.pool.jobTimeout)) with
    | .value result => return result
    | .closed => return .error .shuttingDown
    | .elapsed =>
      Program.incr .jobsTimedOut
      return .error .timeout

/-- `PooledService::observe`. -/
def observe {α : Type} (result : Except Status α) : Program Unit :=
  match result with
  | .ok _ => Program.breaker .recordSuccess
  | .error status =>
    match status.code with
    | .internal | .deadlineExceeded => Program.breaker .recordFailure
    | _ => Program.breaker .recordSuccess

/-- Submit a job, report the outcome to the breaker, and go on with the response: what `sign_inner`,
`encrypt_inner` and `decrypt_inner` do alike. -/
def submitObserved (request : JobRequest) : Handler JobResponse := do
  let response ← submit cfg request
  observe (response.mapError toStatus)
  Handler.check (response.mapError toStatus)

/-- The load of `public_key`: a missing key is a value, every other failure is an error. -/
def loadPublicKey (keyLabel : String) : Program (Except PoolError Lookup) := do
  match ← submit cfg (.getPublicKey keyLabel) with
  | .ok (.publicKey spkiDer keyType) => return .ok (.found ⟨spkiDer, keyType⟩)
  | .ok _ => return .error (.internal "worker returned the wrong response variant")
  | .error (.keyNotFound _) => return .ok .notFound
  | .error other => return .error other

/-- The caller runs the load of ticket `k` and publishes its outcome. -/
def runLoad (k : ℕ) (load : Program (Except PoolError Lookup)) :
    Program (Except PoolError Lookup) := do
  let outcome ← load
  Program.cache (.finish k outcome)
  return outcome

/-- moka's `try_get_with_by_ref`. -/
def tryGetWith (keyLabel : String) (load : Program (Except PoolError Lookup)) :
    Program (Except PoolError Lookup) := do
  match ← Program.cache (.enter keyLabel) with
  | .hit value => return .ok value
  | .own k => runLoad k load
  | .join k =>
    match ← Program.cache (.wait k) with
    | .finished outcome => return outcome
    | .own => runLoad k load

/-- `PublicKeyCache::get_or_load`. -/
def getOrLoad (keyLabel : String) (load : Program (Except PoolError Lookup)) :
    Program (Except PoolError (Lookup × Bool)) := do
  let wasPresent ← Program.cache (.containsKey keyLabel)
  match ← tryGetWith keyLabel load with
  | .error e => return .error e
  | .ok result =>
    if wasPresent then
      Program.cache (.countHit (decide (result = .notFound)))
    else
      Program.cache .countMiss
    return .ok (result, wasPresent)

/-- `PooledService::public_key`. -/
def publicKey (keyLabel : String) : Handler (Lookup × Bool) := do
  let outcome ← getOrLoad keyLabel (loadPublicKey cfg keyLabel)
  let outcome := outcome.mapError fun e => toStatus (.internal (e.display P))
  observe outcome
  Handler.check outcome

/-! ## The five methods -/

/-- `sign_inner`. -/
def signInner (request : Request SignRequest) : Handler RpcResponse := do
  admitRequest P cfg request.peerCerts request.inner.keyLabel .sign
  let input ← Handler.check (extractInput request.inner.input)
  let prepared ← Handler.check
    (asInvalidArgument (prepare P.crypto request.inner.mechanism input))
  match ← submitObserved cfg
      (.sign request.inner.keyLabel prepared.algorithm prepared.payload) with
  | .signature signature => return .sign ⟨signature, request.inner.keyLabel⟩
  | _ => throw unexpected

/-- `verify_inner`. -/
def verifyInner (request : Request VerifyRequest) : Handler RpcResponse := do
  admitRequest P cfg request.peerCerts request.inner.keyLabel .verify
  let input ← Handler.check (extractInput request.inner.input)
  match ← publicKey P cfg request.inner.keyLabel with
  | (.notFound, _) => throw (keyNotFound request.inner.keyLabel)
  | (.found key, servedFromCache) =>
    match verifyPublic P.crypto key.spkiDer request.inner.mechanism input
        request.inner.signature with
    | .ok valid => return .verify ⟨valid, servedFromCache⟩
    | .error _ => throw (.internal "verification failed")

/-- `encrypt_inner`. -/
def encryptInner (request : Request EncryptRequest) : Handler RpcResponse := do
  admitRequest P cfg request.peerCerts request.inner.keyLabel .encrypt
  Handler.check (requireAesGcm request.inner.mechanism)
  let iv ← Program.randomIv
  match ← submitObserved cfg (.encrypt request.inner.keyLabel request.inner.plaintext
      request.inner.associatedData iv) with
  | .ciphertext ciphertext => return .encrypt ⟨ciphertext, iv⟩
  | _ => throw unexpected

/-- `decrypt_inner`. -/
def decryptInner (request : Request DecryptRequest) : Handler RpcResponse := do
  admitRequest P cfg request.peerCerts request.inner.keyLabel .decrypt
  Handler.check (requireAesGcm request.inner.mechanism)
  Handler.check (checkIv request.inner.iv)
  match ← submitObserved cfg (.decrypt request.inner.keyLabel request.inner.ciphertext
      request.inner.associatedData request.inner.iv) with
  | .plaintext plaintext => return .decrypt ⟨plaintext⟩
  | _ => throw unexpected

/-- `get_public_key_inner`. -/
def getPublicKeyInner (request : Request GetPublicKeyRequest) : Handler RpcResponse := do
  admitRequest P cfg request.peerCerts request.inner.keyLabel .getPublicKey
  match ← publicKey P cfg request.inner.keyLabel with
  | (.notFound, _) => throw (keyNotFound request.inner.keyLabel)
  | (.found key, servedFromCache) =>
    return .getPublicKey ⟨key.spkiDer, key.keyType, servedFromCache⟩

/-- `PooledService::record`, without the latency histogram. -/
def record {α : Type} (operation : Operation) (result : Except Status α) : Program Unit := do
  match result with
  | .ok _ =>
    Program.record (.requestsTotal operation none)
    Program.record (.authzAllowed operation)
  | .error status =>
    Program.record (.requestsTotal operation (some status.code))
    match status.code with
    | .resourceExhausted => Program.record (.rateLimited operation)
    | .permissionDenied => Program.record (.authzDenied operation)
    | .unauthenticated => Program.record .unauthenticated
    | _ => return ()

/-- The body of a method, before its result is recorded. -/
def inner : Rpc → Handler RpcResponse
  | .sign request => signInner P cfg request
  | .verify request => verifyInner P cfg request
  | .encrypt request => encryptInner P cfg request
  | .decrypt request => decryptInner P cfg request
  | .getPublicKey request => getPublicKeyInner P cfg request

/-- The five methods of `PooledService`. -/
def pooled (rpc : Rpc) : Program (Except Status RpcResponse) := do
  let result ← (inner P cfg rpc).run
  record rpc.operation result
  return result

end

end HsmProxy
