import HsmProxy.Pkcs11.Errors

/-!
# Jobs and key classes

`crypto::SignAlgorithm`, the job types of `pkcs11/job.rs`, and the PKCS#11 mechanisms, object
classes and attributes the worker builds from them.
-/

namespace HsmProxy

/-- Which PKCS#11 mechanism to invoke, in a form that can be sent to a worker. -/
inductive SignAlgorithm where
  | ecdsa
  | rsaPkcs
  | sha256RsaPkcs
  | rsaPkcsPss
  | sha256RsaPkcsPss
  deriving DecidableEq, Repr

/-- `PkcsPssParams`; hash and mask generation function are SHA-256 throughout the proxy, so only
the salt length remains. -/
structure PkcsPssParams where
  sLen : ℕ
  deriving DecidableEq, Repr

/-- `cryptoki::Mechanism`, as far as the proxy builds it. -/
inductive Mechanism where
  | ecdsa
  | rsaPkcs
  | sha256RsaPkcs
  | rsaPkcsPss (params : PkcsPssParams)
  | sha256RsaPkcsPss (params : PkcsPssParams)
  | aesGcm (iv aad : Bytes) (tagBits : ℕ)
  deriving DecidableEq, Repr

/-- Length of a SHA-256 digest. -/
def sha256Len : ℕ := 32

/-- `pss_params`: a salt as long as the hash. -/
def pssParams : PkcsPssParams := ⟨sha256Len⟩

/-- `SignAlgorithm::mechanism`. -/
def SignAlgorithm.mechanism : SignAlgorithm → Mechanism
  | .ecdsa => .ecdsa
  | .rsaPkcs => .rsaPkcs
  | .sha256RsaPkcs => .sha256RsaPkcs
  | .rsaPkcsPss => .rsaPkcsPss pssParams
  | .sha256RsaPkcsPss => .sha256RsaPkcsPss pssParams

/-- Which class of object a label refers to. -/
inductive KeyKind where
  | privateKey
  | publicKey
  | secretKey
  deriving DecidableEq, Repr

/-- `cryptoki::object::ObjectClass`, as far as it is searched for. -/
inductive ObjectClass where
  | privateKey
  | publicKey
  | secretKey
  deriving DecidableEq, Repr

/-- `KeyKind::object_class`. -/
def KeyKind.objectClass : KeyKind → ObjectClass
  | .privateKey => .privateKey
  | .publicKey => .publicKey
  | .secretKey => .secretKey

/-- `cryptoki::object::KeyType`. -/
inductive KeyType where
  | ec
  | rsa
  | other (code : ℕ)
  deriving DecidableEq, Repr

/-- The attributes the proxy asks for. -/
inductive AttributeType where
  | keyType
  | ecPoint
  | modulus
  | publicExponent
  deriving DecidableEq, Repr

/-- An attribute with its value. -/
inductive Attribute where
  | keyType (t : KeyType)
  | ecPoint (point : Bytes)
  | modulus (bytes : Bytes)
  | publicExponent (bytes : Bytes)
  deriving DecidableEq, Repr

/-- The unit of work handed to a pool worker. -/
inductive JobRequest where
  | sign (keyLabel : String) (algorithm : SignAlgorithm) (payload : Bytes)
  | verify (keyLabel : String) (algorithm : SignAlgorithm) (payload signature : Bytes)
  | encrypt (keyLabel : String) (plaintext associatedData iv : Bytes)
  | decrypt (keyLabel : String) (ciphertext associatedData iv : Bytes)
  | getPublicKey (keyLabel : String)
  deriving DecidableEq, Repr

/-- The label a job names. -/
def JobRequest.keyLabel : JobRequest → String
  | .sign l _ _ => l
  | .verify l _ _ _ => l
  | .encrypt l _ _ _ => l
  | .decrypt l _ _ _ => l
  | .getPublicKey l => l

/-- What a worker answers. -/
inductive JobResponse where
  | signature (bytes : Bytes)
  | verified (valid : Bool)
  | ciphertext (bytes : Bytes)
  | plaintext (bytes : Bytes)
  | publicKey (spkiDer : Bytes) (keyType : String)
  deriving DecidableEq, Repr

end HsmProxy
