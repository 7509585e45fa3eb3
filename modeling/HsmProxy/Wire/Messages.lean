import Mathlib.Data.Nat.Notation

/-!
# The wire types of the HSM service

The messages of `proto/hsm/v1/hsm.proto` as the generated Rust code presents them (`key_label` is
a string, a mechanism is a bare `i32`, a `oneof` inside a message is an option inside an option),
a gRPC request together with the certificate chain its connection presented, and the gRPC
statuses the service answers with.
-/

namespace HsmProxy

/-- Raw bytes, as they cross the wire and the PKCS#11 boundary. -/
abbrev Bytes := List UInt8

/-- The gRPC status codes the service produces. -/
inductive Code where
  | invalidArgument
  | deadlineExceeded
  | notFound
  | permissionDenied
  | resourceExhausted
  | internal
  | unavailable
  | unauthenticated
  deriving DecidableEq, Repr

/-- A gRPC error status. -/
structure Status where
  code : Code
  message : String
  deriving DecidableEq, Repr

namespace Status

/-- `Status::invalid_argument`. -/
def invalidArgument (message : String) : Status := ⟨.invalidArgument, message⟩

/-- `Status::deadline_exceeded`. -/
def deadlineExceeded (message : String) : Status := ⟨.deadlineExceeded, message⟩

/-- `Status::not_found`. -/
def notFound (message : String) : Status := ⟨.notFound, message⟩

/-- `Status::permission_denied`. -/
def permissionDenied (message : String) : Status := ⟨.permissionDenied, message⟩

/-- `Status::resource_exhausted`. -/
def resourceExhausted (message : String) : Status := ⟨.resourceExhausted, message⟩

/-- `Status::internal`. -/
def internal (message : String) : Status := ⟨.internal, message⟩

/-- `Status::unavailable`. -/
def unavailable (message : String) : Status := ⟨.unavailable, message⟩

/-- `Status::unauthenticated`. -/
def unauthenticated (message : String) : Status := ⟨.unauthenticated, message⟩

end Status

/-- `signing_input::Input`: the `oneof` of the message `SigningInput`. -/
inductive OneofInput where
  | message (message : Bytes)
  | digest (digest : Bytes)
  deriving DecidableEq, Repr

/-- The message `SigningInput`: the `oneof` may be left unset. -/
structure SigningInputMessage where
  input : Option OneofInput
  deriving DecidableEq, Repr

/-- The message `SignRequest`. -/
structure SignRequest where
  keyLabel : String
  mechanism : Int32
  input : Option SigningInputMessage
  deriving DecidableEq

/-- The message `SignResponse`. -/
structure SignResponse where
  signature : Bytes
  keyLabel : String
  deriving DecidableEq, Repr

/-- The message `VerifyRequest`. -/
structure VerifyRequest where
  keyLabel : String
  mechanism : Int32
  input : Option SigningInputMessage
  signature : Bytes
  deriving DecidableEq

/-- The message `VerifyResponse`. -/
structure VerifyResponse where
  valid : Bool
  servedFromCache : Bool
  deriving DecidableEq, Repr

/-- The message `EncryptRequest`. -/
structure EncryptRequest where
  keyLabel : String
  mechanism : Int32
  plaintext : Bytes
  associatedData : Bytes
  deriving DecidableEq

/-- The message `EncryptResponse`. -/
structure EncryptResponse where
  ciphertext : Bytes
  iv : Bytes
  deriving DecidableEq, Repr

/-- The message `DecryptRequest`. -/
structure DecryptRequest where
  keyLabel : String
  mechanism : Int32
  ciphertext : Bytes
  iv : Bytes
  associatedData : Bytes
  deriving DecidableEq

/-- The message `DecryptResponse`. -/
structure DecryptResponse where
  plaintext : Bytes
  deriving DecidableEq, Repr

/-- The message `GetPublicKeyRequest`. -/
structure GetPublicKeyRequest where
  keyLabel : String
  deriving DecidableEq

/-- The message `GetPublicKeyResponse`. -/
structure GetPublicKeyResponse where
  spkiDer : Bytes
  keyType : String
  servedFromCache : Bool
  deriving DecidableEq, Repr

/-- `tonic::Request`: the decoded message and the certificate chain of the connection, leaf
first (`peer_certs`); `none` when the connection presented none. -/
structure Request (T : Type) where
  inner : T
  peerCerts : Option (List Bytes)
  deriving DecidableEq

/-- A call of one of the five methods of `HsmService`. -/
inductive Rpc where
  | sign (request : Request SignRequest)
  | verify (request : Request VerifyRequest)
  | encrypt (request : Request EncryptRequest)
  | decrypt (request : Request DecryptRequest)
  | getPublicKey (request : Request GetPublicKeyRequest)
  deriving DecidableEq

/-- A successful answer of one of the five methods. -/
inductive RpcResponse where
  | sign (response : SignResponse)
  | verify (response : VerifyResponse)
  | encrypt (response : EncryptResponse)
  | decrypt (response : DecryptResponse)
  | getPublicKey (response : GetPublicKeyResponse)
  deriving DecidableEq, Repr

/-- The key label a call names in its decoded body. -/
def Rpc.keyLabel : Rpc → String
  | .sign r => r.inner.keyLabel
  | .verify r => r.inner.keyLabel
  | .encrypt r => r.inner.keyLabel
  | .decrypt r => r.inner.keyLabel
  | .getPublicKey r => r.inner.keyLabel

/-- The certificate chain the connection of a call presented. -/
def Rpc.peerCerts : Rpc → Option (List Bytes)
  | .sign r => r.peerCerts
  | .verify r => r.peerCerts
  | .encrypt r => r.peerCerts
  | .decrypt r => r.peerCerts
  | .getPublicKey r => r.peerCerts

end HsmProxy
