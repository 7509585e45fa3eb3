import HsmProxy.Grpc.Pooled
import HsmProxy.Pkcs11.Worker

/-!
# The single-session service

`grpc/service.rs`: the baseline backend, one PKCS#11 session behind a mutex.  Its methods work on
the session themselves; the guard of the mutex is released on every path out of a method.
-/

namespace HsmProxy

open Interleaving

namespace Single

/-- `hsm_failure`. -/
def hsmFailure (operation : String) : Status := .internal s!"{operation} failed"

/-- Run a PKCS#11 call and turn its error into a status. -/
def callOr {α : Type} (p : Program (Except CryptokiError α)) (f : CryptokiError → Status) :
    Handler α := do
  match ← ExceptT.lift p with
  | .ok a => return a
  | .error e => throw (f e)

/-- `require_object`. -/
def requireObject (session : SessionHandle) (objectClass : ObjectClass) (label : String) :
    Handler ObjectHandle := do
  match ← ExceptT.lift (findObject session objectClass label) with
  | .error _ => throw (hsmFailure "C_FindObjects")
  | .ok none => throw (keyNotFound label)
  | .ok (some handle) => return handle

/-- Run a handler while holding the mutex around the session. -/
def locked {α : Type} (body : Handler α) : Handler α := do
  Program.lockSession
  let result ← ExceptT.lift body.run
  Program.unlockSession
  Handler.check result

section

variable (P : Platform) (session : SessionHandle)

/-- `GcmParams::new` inside a method. -/
def gcmParams (iv aad : Bytes) : Handler Mechanism :=
  match P.gcmParams iv aad gcmTagBits with
  | .ok () => return .aesGcm iv aad gcmTagBits
  | .error e => throw (.invalidArgument e)

/-- `sign`. -/
def sign (request : SignRequest) : Handler RpcResponse := do
  let input ← Handler.check (extractInput request.input)
  let prepared ← Handler.check (asInvalidArgument (prepare P.crypto request.mechanism input))
  locked do
    let key ← requireObject session .privateKey request.keyLabel
    let signature ← callOr
      (Program.token (.sign session prepared.algorithm.mechanism key prepared.payload))
      fun _ => hsmFailure "C_Sign"
    return .sign ⟨signature, request.keyLabel⟩

/-- `verify`. -/
def verify (request : VerifyRequest) : Handler RpcResponse := do
  let input ← Handler.check (extractInput request.input)
  let prepared ← Handler.check (asInvalidArgument (prepare P.crypto request.mechanism input))
  locked do
    let key ← requireObject session .publicKey request.keyLabel
    match ← ExceptT.lift (Program.token (.verify session prepared.algorithm.mechanism key
        prepared.payload request.signature)) with
    | .ok () => return .verify ⟨true, false⟩
    | .error (.pkcs11 .signatureInvalid) => return .verify ⟨false, false⟩
    | .error (.pkcs11 .signatureLenRange) => return .verify ⟨false, false⟩
    | .error _ => throw (hsmFailure "C_Verify")

/-- `encrypt`. -/
def encrypt (request : EncryptRequest) : Handler RpcResponse := do
  Handler.check (requireAesGcm request.mechanism)
  let iv ← Program.randomIv
  locked do
    let key ← requireObject session .secretKey request.keyLabel
    let mechanism ← gcmParams P iv request.associatedData
    let ciphertext ← callOr (Program.token (.encrypt session mechanism key request.plaintext))
      fun _ => hsmFailure "C_Encrypt"
    return .encrypt ⟨ciphertext, iv⟩

/-- How `decrypt` classifies an error of the token. -/
def decryptError : CryptokiError → Status
  | .pkcs11 .encryptedDataInvalid => .invalidArgument "ciphertext failed authentication"
  | .pkcs11 .encryptedDataLenRange => .invalidArgument "ciphertext failed authentication"
  | _ => hsmFailure "C_Decrypt"

/-- `decrypt`. -/
def decrypt (request : DecryptRequest) : Handler RpcResponse := do
  Handler.check (requireAesGcm request.mechanism)
  Handler.check (checkIv request.iv)
  locked do
    let key ← requireObject session .secretKey request.keyLabel
    let mechanism ← gcmParams P request.iv request.associatedData
    let plaintext ← callOr (Program.token (.decrypt session mechanism key request.ciphertext))
      decryptError
    return .decrypt ⟨plaintext⟩

/-- `get_public_key`. -/
def getPublicKey (request : GetPublicKeyRequest) : Handler RpcResponse :=
  locked do
    let key ← requireObject session .publicKey request.keyLabel
    match ← ExceptT.lift (publicKeyToSpkiDer P session key).run with
    | .ok (spkiDer, keyType) => return .getPublicKey ⟨spkiDer, keyType, false⟩
    | .error _ => throw (hsmFailure "public key encoding")

/-- The five methods of `SingleSessionService`. -/
def single (rpc : Rpc) : Program (Except Status RpcResponse) :=
  match rpc with
  | .sign request => (sign P session request.inner).run
  | .verify request => (verify P session request.inner).run
  | .encrypt request => (encrypt P session request.inner).run
  | .decrypt request => (decrypt P session request.inner).run
  | .getPublicKey request => (getPublicKey P session request.inner).run

end

end Single

end HsmProxy
