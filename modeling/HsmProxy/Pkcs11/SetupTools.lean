import HsmProxy.Interleaving.Sound
import HsmProxy.Pkcs11.Token

/-!
# The tools that set a token up

`provision` creates the demo keys that are missing on a token (`pkcs11/provision.rs`), `token-check`
looks whether they are there, protected, and fit to sign (`bin/token-check.rs`).  Both are programs
over the calls of one session.

The token is a table of objects.  A call may fail at any time, and changes nothing then; a search
returns the objects that match in any order.  The tools are threads: several may run, each may be
killed between two calls.
-/

namespace HsmProxy

open Interleaving

/-! ## Objects -/

/-- `cryptoki::object::ObjectClass` in templates: the classes of keys, and data. -/
inductive StoredClass where
  | key (objectClass : ObjectClass)
  | data
  deriving DecidableEq, Repr

/-- `cryptoki::object::Attribute` in templates. -/
inductive ObjectAttribute where
  | ofClass (objectClass : StoredClass)
  | token (value : Bool)
  | isPrivate (value : Bool)
  | sensitive (value : Bool)
  | extractable (value : Bool)
  | sign (value : Bool)
  | verify (value : Bool)
  | encrypt (value : Bool)
  | decrypt (value : Bool)
  | label (label : String)
  | keyType (keyType : KeyType)
  | ecParams (der : Bytes)
  | modulusBits (bits : ℕ)
  | publicExponent (bytes : Bytes)
  | valueLen (length : ℕ)
  | value (bytes : Bytes)
  deriving DecidableEq, Repr

/-- The attributes `token-check` asks for. -/
inductive ProtectionType where
  | sensitive
  | extractable
  deriving DecidableEq, Repr

/-- Which of them an attribute is. -/
def ObjectAttribute.protection : ObjectAttribute → Option ProtectionType
  | .sensitive _ => some .sensitive
  | .extractable _ => some .extractable
  | _ => none

/-- The mechanisms keys are generated with. -/
inductive KeyGenMechanism where
  | eccKeyPairGen
  | rsaPkcsKeyPairGen
  | aesKeyGen
  deriving DecidableEq, Repr

/-- What a key is made of: the two objects of a pair have it in common. -/
structure Generated where
  mechanism : KeyGenMechanism
  secret : ℕ
  deriving DecidableEq, Repr

/-- An object on a token. -/
structure StoredObject where
  handle : ObjectHandle
  attributes : List ObjectAttribute
  key : Option Generated
  deriving DecidableEq, Repr

/-- Does an object have all attributes of a template? -/
def StoredObject.fits (o : StoredObject) (template : List ObjectAttribute) : Bool :=
  template.all fun wanted => decide (wanted ∈ o.attributes)

/-- The objects of a token, under handles that are not reused. -/
structure ObjectTable where
  objects : List StoredObject
  next : ℕ
  below : ∀ o ∈ objects, o.handle < next
  distinct : (objects.map StoredObject.handle).Nodup

namespace ObjectTable

variable (t : ObjectTable)

/-- A new object. -/
def create (attributes : List ObjectAttribute) (key : Option Generated) : ObjectTable where
  objects := t.objects ++ [⟨t.next, attributes, key⟩]
  next := t.next + 1
  below o ho := by
    rcases List.mem_append.mp ho with ho | ho
    · exact Nat.lt_succ_of_lt (t.below o ho)
    · obtain rfl := List.mem_singleton.mp ho
      exact Nat.lt_succ_self _
  distinct := by
    rw [List.map_append, List.map_singleton, List.nodup_append]
    refine ⟨t.distinct, List.nodup_singleton _, ?_⟩
    rintro handle hhandle handle' hhandle' rfl
    obtain ⟨o, ho, rfl⟩ := List.mem_map.mp hhandle
    exact absurd (t.below o ho) (by rw [List.mem_singleton.mp hhandle']; exact Nat.lt_irrefl _)

/-- An object is gone. -/
def destroy (handle : ObjectHandle) : ObjectTable where
  objects := t.objects.filter fun o => decide (o.handle ≠ handle)
  next := t.next
  below o ho := t.below o (List.mem_filter.mp ho).1
  distinct := t.distinct.sublist (List.filter_sublist.map _)

/-- The objects that fit a template. -/
def matching (template : List ObjectAttribute) : List StoredObject :=
  t.objects.filter fun o => o.fits template

/-- The object under a handle. -/
def object (handle : ObjectHandle) : Option StoredObject :=
  t.objects.find? fun o => decide (o.handle = handle)

/-- `C_GenerateKeyPair`: the public key, then the private key. -/
def generateKeyPair (mechanism : KeyGenMechanism)
    (publicTemplate privateTemplate : List ObjectAttribute) : ObjectTable :=
  let key := some ⟨mechanism, t.next⟩
  (t.create (.ofClass (.key .publicKey) :: publicTemplate) key).create
    (.ofClass (.key .privateKey) :: privateTemplate) key

/-- `C_GenerateKey`. -/
def generateKey (mechanism : KeyGenMechanism) (template : List ObjectAttribute) : ObjectTable :=
  t.create (.ofClass (.key .secretKey) :: template) (some ⟨mechanism, t.next⟩)

end ObjectTable

/-! ## Calls -/

/-- The calls the tools make on their session. -/
inductive SetupOp where
  | getTokenInfo
  | findObjects (template : List ObjectAttribute)
  | generateKeyPair (mechanism : KeyGenMechanism)
      (publicTemplate privateTemplate : List ObjectAttribute)
  | generateKey (mechanism : KeyGenMechanism) (template : List ObjectAttribute)
  | getAttributes (object : ObjectHandle) (types : List ProtectionType)
  | sign (mechanism : Mechanism) (key : ObjectHandle) (data : Bytes)
  | verify (mechanism : Mechanism) (key : ObjectHandle) (data signature : Bytes)
  | createObject (template : List ObjectAttribute)
  | destroyObject (object : ObjectHandle)
  | logout
  deriving DecidableEq, Repr

/-- What a call returns when it does not fail. -/
abbrev SetupOp.Result : SetupOp → Type
  | .getTokenInfo => Unit
  | .findObjects _ => List ObjectHandle
  | .generateKeyPair _ _ _ => ObjectHandle × ObjectHandle
  | .generateKey _ _ => ObjectHandle
  | .getAttributes _ _ => List ObjectAttribute
  | .sign _ _ _ => Bytes
  | .verify _ _ _ _ => Unit
  | .createObject _ => ObjectHandle
  | .destroyObject _ => Unit
  | .logout => Unit

/-- What a call returns. -/
abbrev SetupOp.Ans (o : SetupOp) : Type := Except CryptokiError o.Result

/-- What the token does with keys: a key signs with the mechanisms of its kind, and what it has
signed is verified. -/
structure SigningToken where
  sha256 : Bytes → Bytes
  sign : Generated → Mechanism → Bytes → Option Bytes
  verify : Generated → Mechanism → Bytes → Bytes → Bool
  sha256_length : ∀ message, (sha256 message).length = sha256Len
  sign_ecdsa : ∀ secret digest, digest.length = sha256Len →
    (sign ⟨.eccKeyPairGen, secret⟩ .ecdsa digest).isSome
  sign_rsa : ∀ secret message, (sign ⟨.rsaPkcsKeyPairGen, secret⟩ .sha256RsaPkcs message).isSome
  verify_sign : ∀ key mechanism data signature, sign key mechanism data = some signature →
    verify key mechanism data signature = true

/-- What an answer does to the table; `none` for an answer the token cannot give. -/
def ObjectTable.answer (T : SigningToken) (t : ObjectTable) :
    (o : SetupOp) → o.Ans → Option ObjectTable
  | _, .error _ => some t
  | .getTokenInfo, .ok _ => some t
  | .findObjects template, .ok handles =>
    if handles.Perm ((t.matching template).map StoredObject.handle) then some t else none
  | .generateKeyPair mechanism publicTemplate privateTemplate, .ok handles =>
    if handles = (t.next, t.next + 1) then
      some (t.generateKeyPair mechanism publicTemplate privateTemplate)
    else none
  | .generateKey mechanism template, .ok handle =>
    if handle = t.next then some (t.generateKey mechanism template) else none
  | .getAttributes handle types, .ok attributes =>
    match t.object handle with
    | some o =>
      if attributes = types.filterMap (fun type =>
          o.attributes.find? fun held => decide (held.protection = some type)) then some t
      else none
    | none => none
  | .sign mechanism handle data, .ok signature =>
    match (t.object handle).bind StoredObject.key with
    | some key => if T.sign key mechanism data = some signature then some t else none
    | none => none
  | .verify mechanism handle data signature, .ok _ =>
    match (t.object handle).bind StoredObject.key with
    | some key => if T.verify key mechanism data signature then some t else none
    | none => none
  | .createObject template, .ok handle =>
    if handle = t.next then some (t.create template none) else none
  | .destroyObject handle, .ok _ => some (t.destroy handle)
  | .logout, .ok _ => some t

/-! ## Programs -/

namespace Setup

/-- Programs of the tools. -/
abbrev Tool (α : Type) := ExceptT AnyhowError (Prog SetupOp.Ans) α

/-- A call, with the context its error is put under. -/
def call (o : SetupOp) (context : String) : Tool o.Result :=
  ExceptT.mk (withContext context <$> Prog.op o)

/-- `anyhow!`. -/
def fail {α : Type} (message : String) : Tool α := throw ⟨message, none⟩

/-- A call whose outcome is dropped, as in `session.logout().ok()`. -/
def callIgnored (o : SetupOp) : Tool Unit := ExceptT.lift ((fun _ => ()) <$> Prog.op o)

/-- `find_object`. -/
def findObject (objectClass : ObjectClass) (label : String) : Tool (Option ObjectHandle) :=
  ExceptT.mk (findObjectBy
    (Prog.op (SetupOp.findObjects [.ofClass (.key objectClass), .label label])))

/-- `find_object_pair`. -/
def findObjectPair (label : String) : Tool (Option (ObjectHandle × ObjectHandle)) := do
  let privateKey ← findObject .privateKey label
  let publicKey ← findObject .publicKey label
  match privateKey, publicKey with
  | some privateKey, some publicKey => return some (privateKey, publicKey)
  | _, _ => return none

/-! ### `provision` -/

/-- `SECP256R1_OID_DER`. -/
def secp256r1OidDer : Bytes := [0x06, 0x08, 0x2A, 0x86, 0x48, 0xCE, 0x3D, 0x03, 0x01, 0x07]

/-- `DEMO_EC_KEY`. -/
def demoEcKey : String := "demo-ec-p256"

/-- `DEMO_RSA_KEY`. -/
def demoRsaKey : String := "demo-rsa-2048"

/-- `DEMO_AES_KEY`. -/
def demoAesKey : String := "demo-aes-256"

/-- Whether a key had to be created or was already there. -/
inductive Provisioned where
  | created
  | alreadyPresent
  deriving DecidableEq, Repr

/-- `private_key_base`. -/
def privateKeyBase (label : String) : List ObjectAttribute :=
  [.token true, .isPrivate true, .sensitive true, .extractable false, .sign true, .label label]

/-- `public_key_base`. -/
def publicKeyBase (label : String) : List ObjectAttribute :=
  [.token true, .isPrivate false, .verify true, .label label]

/-- Search for a key, and generate it when there is none: what the three functions below have in
common. -/
def ensureKey (objectClass : ObjectClass) (label : String) (generate : SetupOp) (context : String) :
    Tool Provisioned := do
  match ← findObject objectClass label with
  | some _ => return .alreadyPresent
  | none =>
    let _ ← call generate context
    return .created

/-- The call by which `ensure_ec_key` creates the key pair. -/
def generateEcKey (label : String) : SetupOp :=
  .generateKeyPair .eccKeyPairGen
    (publicKeyBase label ++ [.keyType .ec, .ecParams secp256r1OidDer]) (privateKeyBase label)

/-- The call by which `ensure_rsa_key` creates the key pair. -/
def generateRsaKey (label : String) : SetupOp :=
  .generateKeyPair .rsaPkcsKeyPairGen
    (publicKeyBase label ++
      [.keyType .rsa, .modulusBits 2048, .publicExponent [0x01, 0x00, 0x01], .encrypt true])
    (privateKeyBase label ++ [.decrypt true])

/-- `CKK_AES`. -/
def aesKeyType : KeyType := .other 0x1F

/-- The call by which `ensure_aes_key` creates the key. -/
def generateAesKey (label : String) : SetupOp :=
  .generateKey .aesKeyGen [.token true, .isPrivate true, .sensitive true, .extractable false,
    .encrypt true, .decrypt true, .keyType aesKeyType, .valueLen 32, .label label]

/-- `ensure_ec_key`. -/
def ensureEcKey (label : String) : Tool Provisioned :=
  ensureKey .privateKey label (generateEcKey label)
    "C_GenerateKeyPair(CKM_EC_KEY_PAIR_GEN) failed"

/-- `ensure_rsa_key`. -/
def ensureRsaKey (label : String) : Tool Provisioned :=
  ensureKey .privateKey label (generateRsaKey label)
    "C_GenerateKeyPair(CKM_RSA_PKCS_KEY_PAIR_GEN) failed"

/-- `ensure_aes_key`. -/
def ensureAesKey (label : String) : Tool Provisioned :=
  ensureKey .secretKey label (generateAesKey label) "C_GenerateKey(CKM_AES_KEY_GEN) failed"

/-- `ensure_demo_keys`. -/
def ensureDemoKeys : Tool (List (String × Provisioned)) := do
  let ec ← ensureEcKey demoEcKey
  let rsa ← ensureRsaKey demoRsaKey
  let aes ← ensureAesKey demoAesKey
  return [(demoEcKey, ec), (demoRsaKey, rsa), (demoAesKey, aes)]

/-- `main` of `provision`, from the open session on. -/
def provision : Tool (List (String × Provisioned)) := do
  let report ← ensureDemoKeys
  callIgnored .logout
  return report

/-! ### `token-check` -/

/-- `EXPECTED_KEYPAIRS`. -/
def expectedKeypairs : List String := ["demo-ec-p256", "demo-rsa-2048"]

/-- `EXPECTED_SECRET_KEYS`. -/
def expectedSecretKeys : List String := ["demo-aes-256"]

/-- An error in the alternate format: the message, and what it was put in front of. -/
def alternate (display : CryptokiError → String) (e : AnyhowError) : String :=
  match e.source with
  | some source => e.message ++ ": " ++ display source
  | none => e.message

/-- The loop of `check_keypair` over the attributes of the private key. -/
def checkProtection : List ObjectAttribute → Tool Unit
  | [] => return ()
  | .sensitive false :: _ => fail "private key is CKA_SENSITIVE=false"
  | .extractable true :: _ => fail "private key is CKA_EXTRACTABLE=true"
  | _ :: attributes => checkProtection attributes

/-- `label.contains("rsa")`. -/
def isRsa (label : String) : Bool := decide ("rsa".toList <:+: label.toList)

/-- The bytes `token-check` signs, or whose digest it signs. -/
def probeMessage : Bytes := "token-check".toUTF8.toList

section

variable (T : SigningToken) (display : CryptokiError → String)

/-- The mechanism and the payload `check_keypair` signs with. -/
def probeFor (label : String) : Mechanism × Bytes :=
  if isRsa label then (.sha256RsaPkcs, probeMessage) else (.ecdsa, T.sha256 probeMessage)

/-- `check_keypair`; it returns the length of the signature, which its note reports. -/
def checkKeypair (label : String) : Tool ℕ := do
  match ← findObjectPair label with
  | none => fail "key pair not found; did softhsm-init run?"
  | some (privateKey, publicKey) =>
    let attributes ← call (.getAttributes privateKey [.sensitive, .extractable])
      "C_GetAttributeValue failed"
    checkProtection attributes
    let (mechanism, payload) := probeFor T label
    let signature ← call (.sign mechanism privateKey payload) "C_Sign failed"
    call (.verify mechanism publicKey payload signature) "C_Verify failed"
    return signature.length

/-- The object `write_probe` creates. -/
def probeTemplate : List ObjectAttribute :=
  [.ofClass .data, .token false, .isPrivate false, .label "token-check-probe",
    .value "probe".toUTF8.toList]

/-- `write_probe`. -/
def writeProbe : Tool Unit := do
  let handle ← call (.createObject probeTemplate)
    "C_CreateObject failed -- session is not read/write"
  call (.destroyObject handle) "C_DestroyObject failed"

/-- The loop over `EXPECTED_KEYPAIRS`: the failures it notes. -/
def checkKeypairs : List String → Tool (List String)
  | [] => return []
  | label :: labels => do
    let failure ← ExceptT.lift ((fun r => match r with
      | .ok _ => none
      | .error e => some (label ++ ": " ++ alternate display e)) <$> (checkKeypair T label).run)
    let failures ← checkKeypairs labels
    return failure.toList ++ failures

/-- The loop over `EXPECTED_SECRET_KEYS`; a search that fails ends the program. -/
def checkSecretKeys : List String → Tool (List String)
  | [] => return []
  | label :: labels => do
    let found ← findObject .secretKey label
    let failures ← checkSecretKeys labels
    return (if found.isSome then [] else [label ++ ": not found"]) ++ failures

/-- The read/write probe: the failure it notes. -/
def checkWritable : Tool (List String) :=
  ExceptT.lift ((fun r => match r with
    | .ok _ => []
    | .error e => ["read/write probe: " ++ alternate display e]) <$> writeProbe.run)

/-- How `token-check` ends, with the failures it has noted. -/
def verdict (failures : List String) : Tool Unit :=
  if failures.isEmpty then return ()
  else fail ("token-check failed:\n  - " ++ "\n  - ".intercalate failures)

/-- `main` of `token-check`, from the open session on. -/
def tokenCheck : Tool Unit := do
  call .getTokenInfo "C_GetTokenInfo failed"
  let keypairs ← checkKeypairs T display expectedKeypairs
  let secretKeys ← checkSecretKeys expectedSecretKeys
  let writable ← checkWritable display
  callIgnored .logout
  verdict (keypairs ++ secretKeys ++ writable)

end

end Setup

/-! ## The tools on a token -/

/-- The tools. -/
inductive SetupTool where
  | provision
  | tokenCheck
  deriving DecidableEq, Repr

/-- What the tools end with. -/
inductive SetupResult where
  | provisioned (outcome : Except AnyhowError (List (String × Setup.Provisioned)))
  | checked (outcome : Except AnyhowError Unit)
  deriving DecidableEq

/-- The tools on one token; the environment decides the answer to every call. -/
def setup (T : SigningToken) (display : CryptokiError → String) :
    System SetupOp.Ans ObjectTable ((o : SetupOp) → o.Ans) Empty SetupTool SetupResult where
  body
    | .provision => SetupResult.provisioned <$> Setup.provision.run
    | .tokenCheck => SetupResult.checked <$> (Setup.tokenCheck T display).run
  again _ _ := none
  spawnable _ := true
  exec answers _ t o := (t.answer T o (answers o)).map fun t' => (answers o, t')
  droppable _ _ := true
  cancel _ _ t := t
  env v _ := v.elim

/-! ## A token to evaluate runs on -/

/-- A token whose signatures are the secrets of the keys. -/
def secretToken : SigningToken where
  sha256 _ := List.replicate sha256Len 0
  sign key _ _ := some [UInt8.ofNat key.secret]
  verify key _ _ signature := decide (signature = [UInt8.ofNat key.secret])
  sha256_length _ := List.length_replicate
  sign_ecdsa _ _ _ := rfl
  sign_rsa _ _ := rfl
  verify_sign _ _ _ _ h := decide_eq_true (Option.some.inj h).symm

/-- The table of a token that was just initialized. -/
def ObjectTable.empty : ObjectTable where
  objects := []
  next := 0
  below _ ho := absurd ho List.not_mem_nil
  distinct := List.nodup_nil

/-- Answers that succeed: what a search finds, and the handle that is given out next. -/
def succeeding (found : List ObjectHandle) (n : ℕ) : (o : SetupOp) → o.Ans
  | .getTokenInfo => .ok ()
  | .findObjects _ => .ok found
  | .generateKeyPair _ _ _ => .ok (n, n + 1)
  | .generateKey _ _ => .ok n
  | .getAttributes _ _ => .ok [.sensitive true, .extractable false]
  | .sign _ _ _ => .ok [UInt8.ofNat n]
  | .verify _ _ _ _ => .ok ()
  | .createObject _ => .ok n
  | .destroyObject _ => .ok ()
  | .logout => .ok ()

end HsmProxy
