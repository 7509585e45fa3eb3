import HsmProxy.Pkcs11.Job

/-!
# Shaping signing input and verifying in process

The part of `crypto.rs` that never touches a session: resolving a wire mechanism and an input into
what PKCS#11 executes (`prepare`), undoing that choice (`verificationDigest`), and verifying a
signature in this process (`verifyPublic`).

The hash and the signature schemes belong to the crates `sha2`, `p256`, `ring` and `rsa`; they
enter as the fields of `CryptoLibs`, one field for each function the proxy calls.
-/

namespace HsmProxy

/-- What the caller supplied to sign or verify. -/
inductive SigningInput where
  | message (message : Bytes)
  | digest (digest : Bytes)
  deriving DecidableEq, Repr

/-- The signature mechanisms of the wire protocol. -/
inductive SignatureMechanism where
  | unspecified
  | ecdsaSha256
  | rsaPkcsSha256
  | rsaPssSha256
  deriving DecidableEq, Repr

/-- `SignatureMechanism::try_from`. -/
def SignatureMechanism.tryFrom (value : Int32) : Option SignatureMechanism :=
  if value = 0 then some .unspecified
  else if value = 1 then some .ecdsaSha256
  else if value = 2 then some .rsaPkcsSha256
  else if value = 3 then some .rsaPssSha256
  else none

/-- The functions of the cryptography crates that the proxy calls. -/
structure CryptoLibs where
  /-- `Sha256::digest`. -/
  sha256 : Bytes → Bytes
  P256PublicKey : Type
  RsaPublicKey : Type
  EcdsaSignature : Type
  /-- `p256::PublicKey::from_public_key_der`, also `VerifyingKey::from_public_key_der`. -/
  p256FromPublicKeyDer : Bytes → Option P256PublicKey
  /-- `p256::PublicKey::from_sec1_bytes`. -/
  p256FromSec1Bytes : Bytes → Except String P256PublicKey
  /-- `to_public_key_der` on a P-256 key. -/
  p256ToPublicKeyDer : P256PublicKey → Option Bytes
  /-- `to_encoded_point(false)`, the uncompressed SEC1 point. -/
  p256ToEncodedPoint : P256PublicKey → Bytes
  /-- `p256::ecdsa::Signature::from_slice`. -/
  ecdsaSignatureFromSlice : Bytes → Option EcdsaSignature
  /-- `verify_prehash(..).is_ok()`. -/
  p256VerifyPrehash : P256PublicKey → Bytes → EcdsaSignature → Bool
  /-- `UnparsedPublicKey::new(&ECDSA_P256_SHA256_FIXED, point).verify(message, sig).is_ok()`. -/
  ringVerifyP256Sha256Fixed : Bytes → Bytes → Bytes → Bool
  /-- `rsa::RsaPublicKey::from_public_key_der`. -/
  rsaFromPublicKeyDer : Bytes → Option RsaPublicKey
  /-- `RsaPublicKey::new` on a big-endian modulus and exponent. -/
  rsaNew : Bytes → Bytes → Option RsaPublicKey
  /-- `to_public_key_der` on an RSA key. -/
  rsaToPublicKeyDer : RsaPublicKey → Option Bytes
  /-- `key.verify(Pkcs1v15Sign::new::<Sha256>(), digest, sig).is_ok()`. -/
  rsaVerifyPkcs1v15Sha256 : RsaPublicKey → Bytes → Bytes → Bool
  /-- `key.verify(Pss::new::<Sha256>(), digest, sig).is_ok()`. -/
  rsaVerifyPssSha256 : RsaPublicKey → Bytes → Bytes → Bool

/-- DER `DigestInfo` prefix for SHA-256, per RFC 8017 section 9.2. -/
def sha256DigestInfoPrefix : Bytes :=
  [0x30, 0x31, 0x30, 0x0d, 0x06, 0x09, 0x60, 0x86, 0x48, 0x01, 0x65, 0x03, 0x04, 0x02, 0x01, 0x05,
    0x00, 0x04, 0x20]

/-- An algorithm paired with the exact bytes to hand `C_Sign`. -/
structure PreparedOperation where
  algorithm : SignAlgorithm
  payload : Bytes
  deriving DecidableEq, Repr

/-- `check_digest_len`. -/
def checkDigestLen (digest : Bytes) : Except String Unit :=
  if digest.length ≠ sha256Len then
    .error s!"expected a {sha256Len}-byte SHA-256 digest, got {digest.length} bytes"
  else .ok ()

section

variable (libs : CryptoLibs)

/-- Resolve a wire mechanism plus input into something PKCS#11 can execute. -/
def prepare (mechanism : Int32) (input : SigningInput) : Except String PreparedOperation :=
  match SignatureMechanism.tryFrom mechanism with
  | none => .error s!"unknown signature mechanism {mechanism}"
  | some mechanism =>
    match mechanism, input with
    | .unspecified, _ => .error "signature mechanism must be specified"
    -- ECDSA: CKM_ECDSA always signs a bare digest, so hash here if needed.
    | .ecdsaSha256, .message message => .ok ⟨.ecdsa, libs.sha256 message⟩
    | .ecdsaSha256, .digest digest => do
      checkDigestLen digest
      return ⟨.ecdsa, digest⟩
    -- RSA PKCS#1 v1.5: the token hashes a message; a digest is wrapped in DigestInfo.
    | .rsaPkcsSha256, .message message => .ok ⟨.sha256RsaPkcs, message⟩
    | .rsaPkcsSha256, .digest digest => do
      checkDigestLen digest
      return ⟨.rsaPkcs, sha256DigestInfoPrefix ++ digest⟩
    -- PSS encodes the digest itself.
    | .rsaPssSha256, .message message => .ok ⟨.sha256RsaPkcsPss, message⟩
    | .rsaPssSha256, .digest digest => do
      checkDigestLen digest
      return ⟨.rsaPkcsPss, digest⟩

/-- The bare SHA-256 digest a prepared operation is over. -/
def PreparedOperation.verificationDigest (op : PreparedOperation) : Except String Bytes :=
  match op.algorithm with
  | .ecdsa | .rsaPkcsPss => .ok op.payload
  | .sha256RsaPkcs | .sha256RsaPkcsPss => .ok (libs.sha256 op.payload)
  | .rsaPkcs =>
    if op.payload.length ≠ sha256DigestInfoPrefix.length + sha256Len ∨
        ¬ sha256DigestInfoPrefix <+: op.payload then
      .error "payload is not a SHA-256 DigestInfo"
    else .ok (op.payload.drop sha256DigestInfoPrefix.length)

/-- `digest_of`. -/
def digestOf : SigningInput → Except String Bytes
  | .message message => .ok (libs.sha256 message)
  | .digest digest => do
    checkDigestLen digest
    return digest

/-- `sec1_point_from_spki`. -/
def sec1PointFromSpki (spkiDer : Bytes) : Except String Bytes :=
  match libs.p256FromPublicKeyDer spkiDer with
  | none => .error "not a valid P-256 SPKI"
  | some key => .ok (libs.p256ToEncodedPoint key)

/-- `verify_ecdsa_ring`. -/
def verifyEcdsaRing (spkiDer message signature : Bytes) : Except String Bool := do
  let point ← sec1PointFromSpki libs spkiDer
  return libs.ringVerifyP256Sha256Fixed point message signature

/-- `verify_ecdsa_prehash`. -/
def verifyEcdsaPrehash (spkiDer digest signature : Bytes) : Except String Bool :=
  match libs.p256FromPublicKeyDer spkiDer with
  | none => .error "cached public key is not a valid P-256 SPKI"
  | some key =>
    match libs.ecdsaSignatureFromSlice signature with
    | none => .ok false
    | some signature => .ok (libs.p256VerifyPrehash key digest signature)

/-- `verify_rsa`. -/
def verifyRsa (spkiDer digest signature : Bytes) (pss : Bool) : Except String Bool :=
  match libs.rsaFromPublicKeyDer spkiDer with
  | none => .error "cached public key is not a valid RSA SPKI"
  | some key =>
    if pss then .ok (libs.rsaVerifyPssSha256 key digest signature)
    else .ok (libs.rsaVerifyPkcs1v15Sha256 key digest signature)

/-- Verify a signature in this process against a DER SubjectPublicKeyInfo. -/
def verifyPublic (spkiDer : Bytes) (mechanism : Int32) (input : SigningInput)
    (signature : Bytes) : Except String Bool :=
  match SignatureMechanism.tryFrom mechanism with
  | none => .error "unknown signature mechanism"
  | some mechanism =>
    match mechanism, input with
    | .unspecified, _ => .error "signature mechanism must be specified"
    | .ecdsaSha256, .message message => verifyEcdsaRing libs spkiDer message signature
    | .ecdsaSha256, .digest digest => do
      checkDigestLen digest
      verifyEcdsaPrehash libs spkiDer digest signature
    | .rsaPkcsSha256, input => do
      verifyRsa libs spkiDer (← digestOf libs input) signature false
    | .rsaPssSha256, input => do
      verifyRsa libs spkiDer (← digestOf libs input) signature true

end

end HsmProxy
