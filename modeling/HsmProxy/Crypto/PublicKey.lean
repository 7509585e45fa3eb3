import HsmProxy.Service.Interface

/-!
# Reading a public key off the token

The part of `crypto.rs` that runs on a session: `public_key_to_spki_der` asks for the components
of a public key object and re-encodes them as DER `SubjectPublicKeyInfo`.
-/

namespace HsmProxy

open Interleaving

/-- Programs that may end in an `anyhow` error. -/
abbrev Fallible (α : Type) := ExceptT AnyhowError (Prog Op.Ans) α

/-- `anyhow!` and `bail!`: an error without a source. -/
def anyhow (message : String) : AnyhowError := ⟨message, none⟩

/-- The length octets of a wrapped point: the length, and where the content starts. -/
def ecPointHeader (bytes : Bytes) : Except AnyhowError (ℕ × ℕ) :=
  -- Short form: one length byte. Long form 0x81: one following length byte.
  match bytes[1]? with
  | some n =>
    if n < 0x80 then .ok (n.toNat, 2)
    else if n = 0x81 then
      match bytes[2]? with
      | some len => .ok (len.toNat, 3)
      | none => .error (anyhow "truncated EC point")
    else .error (anyhow "unsupported CKA_EC_POINT length encoding")
  | none => .error (anyhow "unsupported CKA_EC_POINT length encoding")

/-- The content of a wrapped point: where it starts, and its length. -/
def ecPointContent (bytes : Bytes) : Except AnyhowError (ℕ × ℕ) :=
  if bytes.head? ≠ some 0x04 then
    .error (anyhow "CKA_EC_POINT is neither a DER OCTET STRING nor a SEC1 point")
  else
    match ecPointHeader bytes with
    | .error e => .error e
    | .ok (len, offset) =>
      if offset + len ≤ bytes.length then .ok (offset, len)
      else .error (anyhow s!"CKA_EC_POINT declares {len} bytes but the value is truncated")

/-- `unwrap_der_octet_string`: `CKA_EC_POINT` is a DER `OCTET STRING` around the SEC1 point, but
some modules return the bare point. -/
def unwrapDerOctetString (bytes : Bytes) : Except AnyhowError Bytes :=
  if bytes.length = 65 ∧ bytes.head? = some 0x04 then .ok bytes
  else (ecPointContent bytes).map fun (offset, len) => (bytes.drop offset).take len

/-- The value of the first `CKA_EC_POINT` among the returned attributes. -/
def Attribute.ecPoint? : Attribute → Option Bytes
  | .ecPoint point => some point
  | _ => none

section

variable (P : Platform)

/-- What `ec_spki` does with the attributes it was given. -/
def ecSpkiOf (attrs : List Attribute) : Except AnyhowError Bytes :=
  match attrs.findSome? Attribute.ecPoint? with
  | none => .error (anyhow "public key has no CKA_EC_POINT")
  | some ecPoint =>
    match unwrapDerOctetString ecPoint with
    | .error e => .error e
    | .ok sec1 =>
      match P.crypto.p256FromSec1Bytes sec1 with
      | .error e => .error (anyhow s!"CKA_EC_POINT is not a valid P-256 point: {e}")
      | .ok key =>
        match P.crypto.p256ToPublicKeyDer key with
        | none => .error (anyhow "failed to DER-encode the EC public key")
        | some der => .ok der

/-- `ec_spki`. -/
def ecSpki (session : SessionHandle) (publicKey : ObjectHandle) : Fallible Bytes := do
  let attrs ← ExceptT.mk (withContext "C_GetAttributeValue(CKA_EC_POINT) failed" <$>
    Program.token (.getAttributes session publicKey [.ecPoint]))
  ExceptT.mk (pure (ecSpkiOf P attrs))

/-- The loop of `rsa_spki` over the returned attributes: the last value of each kind counts. -/
def rsaComponents (attrs : List Attribute) : Option Bytes × Option Bytes :=
  attrs.foldl (fun acc attr =>
    match attr with
    | .modulus m => (some m, acc.2)
    | .publicExponent e => (acc.1, some e)
    | _ => acc) (none, none)

/-- What `rsa_spki` does with the attributes it was given. -/
def rsaSpkiOf (attrs : List Attribute) : Except AnyhowError Bytes :=
  match rsaComponents attrs with
  | (none, _) => .error (anyhow "public key has no modulus")
  | (some _, none) => .error (anyhow "public key has no exponent")
  | (some modulus, some exponent) =>
    match P.crypto.rsaNew modulus exponent with
    | none => .error (anyhow "token returned an invalid RSA public key")
    | some key =>
      match P.crypto.rsaToPublicKeyDer key with
      | none => .error (anyhow "failed to DER-encode the RSA public key")
      | some der => .ok der

/-- `rsa_spki`. -/
def rsaSpki (session : SessionHandle) (publicKey : ObjectHandle) : Fallible Bytes := do
  let attrs ← ExceptT.mk
    (withContext "C_GetAttributeValue(CKA_MODULUS/CKA_PUBLIC_EXPONENT) failed" <$>
      Program.token (.getAttributes session publicKey [.modulus, .publicExponent]))
  ExceptT.mk (pure (rsaSpkiOf P attrs))

/-- `public_key_to_spki_der`: the DER bytes and the key type. -/
def publicKeyToSpkiDer (session : SessionHandle) (publicKey : ObjectHandle) :
    Fallible (Bytes × String) := do
  let keyType ← ExceptT.mk (withContext "C_GetAttributeValue(CKA_KEY_TYPE) failed" <$>
    Program.token (.getAttributes session publicKey [.keyType]))
  match keyType.head? with
  | some (.keyType .ec) => return (← ecSpki P session publicKey, "EC")
  | some (.keyType .rsa) => return (← rsaSpki P session publicKey, "RSA")
  | other => throw (anyhow s!"unsupported public key type: {P.debugAttribute other}")

end

end HsmProxy
