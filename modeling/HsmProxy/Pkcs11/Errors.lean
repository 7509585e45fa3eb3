import HsmProxy.Wire.Messages

/-!
# Errors of the PKCS#11 layer

`cryptoki::error::Error` as far as the proxy distinguishes its cases, the `anyhow` errors the
session and crypto helpers wrap it in, and `PoolError`, the failure that crosses the worker-pool
boundary (`pkcs11/errors.rs`).
-/

namespace HsmProxy

/-- The PKCS#11 return values the proxy or its tests name; all remaining ones are `other`. -/
inductive RvError where
  | sessionHandleInvalid
  | sessionClosed
  | deviceError
  | deviceRemoved
  | tokenNotPresent
  | userNotLoggedIn
  | userAlreadyLoggedIn
  | signatureInvalid
  | signatureLenRange
  | encryptedDataInvalid
  | encryptedDataLenRange
  | keyTypeInconsistent
  | dataLenRange
  | objectHandleInvalid
  | other (code : ℕ)
  deriving DecidableEq, Repr

/-- `cryptoki::error::Error`: a return value of the module, or a failure of the binding itself. -/
inductive CryptokiError where
  | pkcs11 (rv : RvError)
  | other (message : String)
  deriving DecidableEq, Repr

/-- Does this error mean the session itself is unusable?  (`is_session_fatal`) -/
def isSessionFatal : CryptokiError → Bool
  | .pkcs11 .sessionHandleInvalid => true
  | .pkcs11 .sessionClosed => true
  | .pkcs11 .deviceError => true
  | .pkcs11 .deviceRemoved => true
  | .pkcs11 .tokenNotPresent => true
  | .pkcs11 .userNotLoggedIn => true
  | _ => false

/-- An `anyhow::Error`: the outermost message, and the cryptoki error it was put in front of. -/
structure AnyhowError where
  message : String
  source : Option CryptokiError
  deriving DecidableEq, Repr

/-- `Context::context` on the result of a PKCS#11 call. -/
def withContext {α : Type} (message : String) : Except CryptokiError α → Except AnyhowError α
  | .ok a => .ok a
  | .error e => .error ⟨message, some e⟩

/-- A failure from the pool. -/
inductive PoolError where
  | keyNotFound (label : String)
  | invalidRequest (message : String)
  | overloaded
  | timeout
  | shuttingDown
  | hsm (operation : String) (source : CryptokiError)
  | internal (message : String)
  deriving DecidableEq, Repr

end HsmProxy
