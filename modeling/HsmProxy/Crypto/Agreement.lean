import HsmProxy.Pkcs11.WorkerSteps
import HsmProxy.Service.System
import Mathlib.Data.Nat.Digits.Defs

/-!
# In-process verification and the token

A `Verify` request can be answered in two ways: by `verify_public` in this process, or by the
worker's `C_Verify` on what `prepare` made of the request.  `Schemes` are the verification relations
of the three signature schemes, on digests; `Schemes.accepts` is what both ways are to decide.
`Decides` says that the crates decide these relations, `Schemes.verifies` how a mechanism of PKCS#11
acts on its payload.

* `verifyPublic_eq`, `prepare_eq`: both ways come down to `Schemes.accepts` on the digest of
  the input.
* `verify_agrees`: hence they agree, also in what they reject, and a signature that the token made
  is accepted in this process.
-/

namespace HsmProxy

open Interleaving Interleaving.Prog

/-! ## The DER encoding of a `DigestInfo` -/

namespace Der

/-- A number in base `b`, most significant digit first. -/
def digits (b n : ℕ) : Bytes := ((Nat.digits b n).reverse).map UInt8.ofNat

/-- The length octets: one below 128, otherwise their number and the length in base 256. -/
def lengthOctets (n : ℕ) : Bytes :=
  if n < 128 then [UInt8.ofNat n]
  else UInt8.ofNat (128 + (digits 256 n).length) :: digits 256 n

/-- Tag, length and value. -/
def tlv (tag : UInt8) (value : Bytes) : Bytes := tag :: lengthOctets value.length ++ value

/-- A `SEQUENCE`. -/
def sequence (parts : List Bytes) : Bytes := tlv 0x30 parts.flatten

/-- An `OCTET STRING`. -/
def octetString (value : Bytes) : Bytes := tlv 0x04 value

/-- `NULL`. -/
def null : Bytes := tlv 0x05 []

/-- An arc of an object identifier: base 128, with the top bit set on all digits but the last. -/
def arc (n : ℕ) : Bytes :=
  (digits 128 n).dropLast.map (· ||| 0x80) ++ [UInt8.ofNat (n % 128)]

/-- An `OBJECT IDENTIFIER`; the first two arcs share an octet string. -/
def oid (first second : ℕ) (arcs : List ℕ) : Bytes :=
  tlv 0x06 (arc (40 * first + second) ++ arcs.flatMap arc)

/-- The object identifier of SHA-256. -/
def idSha256 : Bytes := oid 2 16 [840, 1, 101, 3, 4, 2, 1]

/-- The `DigestInfo` of a SHA-256 digest: the algorithm identifier and the digest. -/
def digestInfo (digest : Bytes) : Bytes :=
  sequence [sequence [idSha256, null], octetString digest]

/-- The prefix in the code is the encoding of everything before the digest. -/
theorem digestInfo_eq {digest : Bytes} (h : digest.length = sha256Len) :
    digestInfo digest = sha256DigestInfoPrefix ++ digest := by
  have hid : idSha256 = [0x06, 0x09, 0x60, 0x86, 0x48, 0x01, 0x65, 0x03, 0x04, 0x02, 0x01] := by
    decide +kernel
  have hlength : digest.length = 32 := h
  simp [digestInfo, sequence, octetString, null, tlv, lengthOctets, hid, hlength,
    sha256DigestInfoPrefix]

end Der

/-! ## The schemes -/

/-- A public key, of one of the two types the proxy knows. -/
inductive KeyMaterial (libs : CryptoLibs) where
  | ec (key : libs.P256PublicKey)
  | rsa (key : libs.RsaPublicKey)

/-- The verification relations of the signature schemes. -/
structure Schemes (libs : CryptoLibs) where
  /-- ECDSA over P-256: key, digest, signature. -/
  ecdsa : libs.P256PublicKey → Bytes → Bytes → Bool
  /-- RSASSA-PKCS1-v1_5: key, encoded `DigestInfo`, signature. -/
  pkcs1 : libs.RsaPublicKey → Bytes → Bytes → Bool
  /-- RSASSA-PSS: key, length of the salt, digest, signature. -/
  pss : libs.RsaPublicKey → ℕ → Bytes → Bytes → Bool

section

variable {libs : CryptoLibs}

/-- The encoding of a public key as a DER SubjectPublicKeyInfo, as the crates read it. -/
def KeyMaterial.Decodes (k : KeyMaterial libs) (spkiDer : Bytes) : Prop :=
  match k with
  | .ec key => libs.p256FromPublicKeyDer spkiDer = some key
  | .rsa key => libs.rsaFromPublicKeyDer spkiDer = some key

/-- The key is of the type of the mechanism. -/
def KeyMaterial.Fits (k : KeyMaterial libs) : SignatureMechanism → Prop
  | .unspecified => True
  | .ecdsaSha256 => ∃ key, k = .ec key
  | .rsaPkcsSha256 => ∃ key, k = .rsa key
  | .rsaPssSha256 => ∃ key, k = .rsa key

namespace Schemes

variable (S : Schemes libs)

/-- What a mechanism of the wire protocol accepts, on a digest. -/
def accepts : SignatureMechanism → KeyMaterial libs → Bytes → Bytes → Bool
  | .ecdsaSha256, .ec key, digest, signature => S.ecdsa key digest signature
  | .rsaPkcsSha256, .rsa key, digest, signature => S.pkcs1 key (Der.digestInfo digest) signature
  | .rsaPssSha256, .rsa key, digest, signature => S.pss key sha256Len digest signature
  | _, _, _, _ => false

/-- What a mechanism of PKCS#11 accepts, on a payload: some take a digest, some hash the payload,
and `CKM_RSA_PKCS` takes the encoded `DigestInfo`. -/
def verifies : Mechanism → KeyMaterial libs → Bytes → Bytes → Bool
  | .ecdsa, .ec key, payload, signature => S.ecdsa key payload signature
  | .rsaPkcs, .rsa key, payload, signature => S.pkcs1 key payload signature
  | .sha256RsaPkcs, .rsa key, payload, signature =>
    S.pkcs1 key (Der.digestInfo (libs.sha256 payload)) signature
  | .rsaPkcsPss params, .rsa key, payload, signature => S.pss key params.sLen payload signature
  | .sha256RsaPkcsPss params, .rsa key, payload, signature =>
    S.pss key params.sLen (libs.sha256 payload) signature
  | _, _, _, _ => false

end Schemes

/-- The crates decide the relations of the schemes: `ring` on the SHA-256 digest of the message,
`p256` on a signature it can read, `rsa` with PSS on a salt as long as the digest. -/
structure Decides (S : Schemes libs) : Prop where
  sha256_length : ∀ message, (libs.sha256 message).length = sha256Len
  ring : ∀ key message signature, libs.ringVerifyP256Sha256Fixed (libs.p256ToEncodedPoint key)
    message signature = S.ecdsa key (libs.sha256 message) signature
  p256 : ∀ key digest bytes signature, libs.ecdsaSignatureFromSlice bytes = some signature →
    libs.p256VerifyPrehash key digest signature = S.ecdsa key digest bytes
  p256_malformed : ∀ key digest bytes, libs.ecdsaSignatureFromSlice bytes = none →
    S.ecdsa key digest bytes = false
  rsa_pkcs1 : ∀ key digest signature, digest.length = sha256Len →
    libs.rsaVerifyPkcs1v15Sha256 key digest signature = S.pkcs1 key (Der.digestInfo digest) signature
  rsa_pss : ∀ key digest signature, digest.length = sha256Len →
    libs.rsaVerifyPssSha256 key digest signature = S.pss key sha256Len digest signature

/-! ## Both ways decide the scheme -/

/-- A digest that is accepted has the length of one. -/
lemma checkDigestLen_eq (digest : Bytes) :
    (digest.length = sha256Len ∧ checkDigestLen digest = .ok ()) ∨
      ∃ e, digest.length ≠ sha256Len ∧ checkDigestLen digest = .error e := by
  unfold checkDigestLen
  by_cases h : digest.length = sha256Len
  · exact Or.inl ⟨h, if_neg (not_not.mpr h)⟩
  · exact Or.inr ⟨_, h, if_pos h⟩

/-- `digest_of` gives something as long as a digest. -/
lemma Decides.digestOf_length {S : Schemes libs} (hS : Decides S) {input : SigningInput}
    {digest : Bytes} (h : digestOf libs input = .ok digest) : digest.length = sha256Len := by
  cases input with
  | message message =>
    obtain rfl := Except.ok.inj h
    exact hS.sha256_length message
  | digest d =>
    rcases checkDigestLen_eq d with ⟨hlength, hcheck⟩ | ⟨e, -, hcheck⟩
    · simp only [digestOf, hcheck] at h
      obtain rfl := Except.ok.inj h
      exact hlength
    · simp only [digestOf, hcheck] at h
      cases h

/-- A message and its digest have the same digest. -/
lemma Decides.digestOf_message {S : Schemes libs} (hS : Decides S) (message : Bytes) :
    digestOf libs (.digest (libs.sha256 message)) = digestOf libs (.message message) := by
  rcases checkDigestLen_eq (libs.sha256 message) with ⟨-, hcheck⟩ | ⟨e, hlength, -⟩
  · simp only [digestOf, hcheck]
    rfl
  · exact absurd (hS.sha256_length message) hlength

/-- `verify_rsa` on the digest of the input decides what the crate decides on it. -/
lemma verifyRsa_digestOf {key : libs.RsaPublicKey} {spkiDer : Bytes}
    (hspki : libs.rsaFromPublicKeyDer spkiDer = some key) {input : SigningInput}
    {signature : Bytes} {pss : Bool} {f : Bytes → Bool}
    (hf : ∀ digest, digestOf libs input = .ok digest →
      (if pss then libs.rsaVerifyPssSha256 key digest signature
        else libs.rsaVerifyPkcs1v15Sha256 key digest signature) = f digest) :
    (digestOf libs input >>= fun digest => verifyRsa libs spkiDer digest signature pss) =
      (digestOf libs input).map f := by
  cases hdigest : digestOf libs input with
  | error e => rfl
  | ok digest =>
    have hvalid := hf digest hdigest
    show verifyRsa libs spkiDer digest signature pss = .ok (f digest)
    simp only [verifyRsa, hspki, ← hvalid]
    cases pss <;> rfl

/-- `verify_public` decides the scheme on the digest of the input. -/
theorem verifyPublic_eq {S : Schemes libs} (hS : Decides S) {k : KeyMaterial libs} {spkiDer : Bytes}
    (hspki : k.Decodes spkiDer) {mechanism : Int32} {m : SignatureMechanism}
    (hm : SignatureMechanism.tryFrom mechanism = some m) (hused : m ≠ .unspecified)
    (hfits : k.Fits m) (input : SigningInput) (signature : Bytes) :
    verifyPublic libs spkiDer mechanism input signature =
      (digestOf libs input).map fun digest => S.accepts m k digest signature := by
  unfold verifyPublic
  rw [hm]
  cases m with
  | unspecified => exact absurd rfl hused
  | ecdsaSha256 =>
    obtain ⟨key, rfl⟩ := hfits
    have hkey : libs.p256FromPublicKeyDer spkiDer = some key := hspki
    cases input with
    | message message =>
      simp only [verifyEcdsaRing, sec1PointFromSpki, hkey]
      exact congrArg Except.ok (hS.ring key message signature)
    | digest digest =>
      simp only [digestOf]
      cases checkDigestLen digest with
      | error e => rfl
      | ok u =>
        show verifyEcdsaPrehash libs spkiDer digest signature =
          .ok (S.ecdsa key digest signature)
        simp only [verifyEcdsaPrehash, hkey]
        cases hslice : libs.ecdsaSignatureFromSlice signature with
        | none => rw [hS.p256_malformed key digest signature hslice]
        | some s => rw [← hS.p256 key digest signature s hslice]
  | rsaPkcsSha256 =>
    obtain ⟨key, rfl⟩ := hfits
    calc _ = digestOf libs input >>= fun digest => verifyRsa libs spkiDer digest signature false := by
            cases input <;> rfl
      _ = _ := verifyRsa_digestOf hspki fun digest hdigest =>
            hS.rsa_pkcs1 key digest signature (hS.digestOf_length hdigest)
  | rsaPssSha256 =>
    obtain ⟨key, rfl⟩ := hfits
    calc _ = digestOf libs input >>= fun digest => verifyRsa libs spkiDer digest signature true := by
            cases input <;> rfl
      _ = _ := verifyRsa_digestOf hspki fun digest hdigest =>
            hS.rsa_pss key digest signature (hS.digestOf_length hdigest)

/-- `prepare` fails where `digest_of` does, and what it prepares is accepted by the token exactly if
the scheme accepts it on the digest of the input.  It wraps a digest only, as a `DigestInfo`. -/
theorem prepare_eq (S : Schemes libs) (k : KeyMaterial libs) {mechanism : Int32}
    {m : SignatureMechanism} (hm : SignatureMechanism.tryFrom mechanism = some m)
    (hused : m ≠ .unspecified) (input : SigningInput) :
    (∃ e, digestOf libs input = .error e ∧ prepare libs mechanism input = .error e) ∨
    ∃ digest op, digestOf libs input = .ok digest ∧ prepare libs mechanism input = .ok op ∧
      (∀ signature, S.verifies op.algorithm.mechanism k op.payload signature =
        S.accepts m k digest signature) ∧
      (op.algorithm = .rsaPkcs → input = .digest digest ∧ op.payload = Der.digestInfo digest) := by
  unfold prepare
  rw [hm]
  cases input with
  | message message =>
    refine Or.inr ⟨libs.sha256 message, ?_⟩
    cases m with
    | unspecified => exact absurd rfl hused
    | ecdsaSha256 => exact ⟨⟨.ecdsa, _⟩, rfl, rfl, fun _ => by cases k <;> rfl, nofun⟩
    | rsaPkcsSha256 => exact ⟨⟨.sha256RsaPkcs, _⟩, rfl, rfl, fun _ => by cases k <;> rfl, nofun⟩
    | rsaPssSha256 => exact ⟨⟨.sha256RsaPkcsPss, _⟩, rfl, rfl, fun _ => by cases k <;> rfl, nofun⟩
  | digest digest =>
    rcases checkDigestLen_eq digest with ⟨hlength, hcheck⟩ | ⟨e, -, hcheck⟩
    · refine Or.inr ⟨digest, ?_⟩
      cases m with
      | unspecified => exact absurd rfl hused
      | ecdsaSha256 =>
        simp only [digestOf, hcheck]
        exact ⟨⟨.ecdsa, digest⟩, rfl, rfl, fun _ => by cases k <;> rfl, nofun⟩
      | rsaPkcsSha256 =>
        simp only [digestOf, hcheck]
        rw [← Der.digestInfo_eq hlength]
        exact ⟨⟨.rsaPkcs, _⟩, rfl, rfl, fun _ => by cases k <;> rfl, fun _ => ⟨trivial, rfl⟩⟩
      | rsaPssSha256 =>
        simp only [digestOf, hcheck]
        exact ⟨⟨.rsaPkcsPss, digest⟩, rfl, rfl, fun _ => by cases k <;> rfl, nofun⟩
    · refine Or.inl ⟨e, ?_⟩
      cases m with
      | unspecified => exact absurd rfl hused
      | _ =>
        simp only [digestOf, hcheck]
        exact ⟨rfl, rfl⟩

/-- A request fails both ways, or both ways come down to the scheme on a digest. -/
lemma prepare_cases {S : Schemes libs} (hS : Decides S) {k : KeyMaterial libs} {spkiDer : Bytes}
    (hspki : k.Decodes spkiDer) {mechanism : Int32}
    (hfits : ∀ m, SignatureMechanism.tryFrom mechanism = some m → k.Fits m) (input : SigningInput) :
    ((∃ e, prepare libs mechanism input = .error e) ∧
      ∀ signature, ∃ e, verifyPublic libs spkiDer mechanism input signature = .error e) ∨
    ∃ m digest op, (∀ input signature, verifyPublic libs spkiDer mechanism input signature =
        (digestOf libs input).map fun digest => S.accepts m k digest signature) ∧
      digestOf libs input = .ok digest ∧ prepare libs mechanism input = .ok op ∧
      (∀ signature, S.verifies op.algorithm.mechanism k op.payload signature =
        S.accepts m k digest signature) ∧
      (op.algorithm = .rsaPkcs → input = .digest digest ∧ op.payload = Der.digestInfo digest) := by
  cases hm : SignatureMechanism.tryFrom mechanism with
  | none =>
    refine Or.inl ?_
    unfold prepare verifyPublic
    rw [hm]
    exact ⟨⟨_, rfl⟩, fun signature => ⟨_, rfl⟩⟩
  | some m =>
    by_cases hused : m = .unspecified
    · subst hused
      refine Or.inl ?_
      unfold prepare verifyPublic
      rw [hm]
      cases input <;> exact ⟨⟨_, rfl⟩, fun signature => ⟨_, rfl⟩⟩
    · have hpublic := fun input signature =>
        verifyPublic_eq hS hspki hm hused (hfits m hm) input signature
      rcases prepare_eq S k hm hused input with ⟨e, hdigest, hprepare⟩ | ⟨digest, op, h⟩
      · refine Or.inl ⟨⟨e, hprepare⟩, fun signature => ⟨e, ?_⟩⟩
        rw [hpublic, hdigest]
        rfl
      · exact Or.inr ⟨m, digest, op, hpublic, h⟩

/-! ## The worker -/

/-- A token that works and has the key under the label: `carries` are the objects of the key. -/
def KeyAnswer (S : Schemes libs) (k : KeyMaterial libs) (label : String)
    (carries : ObjectHandle → Prop) : Event Op.Ans → Prop
  | ⟨.token (.findObjects _ objectClass label'), answer⟩ =>
    objectClass ≠ .secretKey → label' = label → ∃ key rest, answer = .ok (key :: rest) ∧ carries key
  | ⟨.token (.verify _ mechanism key payload signature), answer⟩ => carries key →
    if S.verifies mechanism k payload signature then answer = .ok ()
    else answer = .error (.pkcs11 .signatureInvalid) ∨
      answer = .error (.pkcs11 .signatureLenRange)
  | ⟨.token (.sign _ mechanism key payload), answer⟩ => carries key →
    ∀ signature, answer = .ok signature → S.verifies mechanism k payload signature = true
  | _ => True

/-- The worker has found no other object under the label. -/
def Worker.Holds (w : Worker) (label : String) (carries : ObjectHandle → Prop) : Prop :=
  ∀ kind key, kind ≠ .secretKey → w.cached kind label = some key → carries key

/-- The contract that relies on such a token. -/
def schemeContract (S : Schemes libs) (k : KeyMaterial libs) (label : String)
    (carries : ObjectHandle → Prop) : Contract Op.Ans Unit where
  init := ()
  next _ _ _ := ()
  pre _ _ := True
  post _ o a := KeyAnswer S k label carries ⟨o, a⟩

variable {S : Schemes libs} {k : KeyMaterial libs} {carries : ObjectHandle → Prop}

/-- A worker resolves the label to an object of the key, and goes on with that. -/
lemma execute_meets_key (P : Platform) (request : JobRequest) {w : Worker}
    {Q : JobResult → Prop} (hkind : request.kind ≠ .secretKey)
    (hw : w.Holds request.keyLabel carries)
    (hQ : ∀ session key, carries key → (Worker.operation P request session key).Meets
      (schemeContract S k request.keyLabel carries) (fun _ result => Q result) ()) :
    (Worker.execute P w request).Meets (schemeContract S k request.keyLabel carries)
      (fun _ r => Q r.1) () := by
  have hoperation : ∀ (w' : Worker) key, carries key → Meets
      (schemeContract S k request.keyLabel carries) (fun _ r => Q r.1) ()
      (Worker.operation P request w'.session key >>= fun result =>
        if Worker.needsReset result then do return (result, ← Worker.resetSession P w')
        else return (result, w')) := by
    intro w' key hkey
    rw [meets_bind]
    refine (hQ w'.session key hkey).mono fun _ result hresult => ?_
    split
    · rw [meets_bind]
      exact (Worker.resetSession_only P w').meets (fun _ _ => ⟨True.intro, fun _ => rfl⟩)
        fun _ => hresult
    · exact hresult
  rw [Worker.execute_eq]
  unfold Worker.resolve
  cases hcached : w.cached request.kind request.keyLabel with
  | some key => exact ⟨True.intro, fun _ _ => hoperation w key (hw _ key hkind hcached)⟩
  | none =>
    refine ⟨True.intro, fun _ _ => ⟨True.intro, fun found hfound => ?_⟩⟩
    have hclass : request.kind.objectClass ≠ .secretKey := by
      cases hrequest : request.kind <;> simp_all [KeyKind.objectClass]
    obtain ⟨key, rest, rfl, hkey⟩ := hfound hclass rfl
    exact hoperation _ key hkey

/-- What a worker answers to a verification. -/
lemma execute_verify {P : Platform} {w w' : Worker} {label : String} {algorithm : SignAlgorithm}
    {payload signature : Bytes} {tr : List (Event Op.Ans)} {result : JobResult}
    (hw : w.Holds label carries)
    (hruns : Runs (Worker.execute P w (.verify label algorithm payload signature)) tr (result, w'))
    (hanswers : ∀ ev ∈ tr, KeyAnswer S k label carries ev) :
    result = .ok (.verified (S.verifies algorithm.mechanism k payload signature)) := by
  have hmeets : (Worker.execute P w (.verify label algorithm payload signature)).Meets
      (schemeContract S k label carries) (fun _ r => r.1 =
        .ok (.verified (S.verifies algorithm.mechanism k payload signature))) () := by
    refine execute_meets_key P (.verify label algorithm payload signature) (Q := fun r => r = _)
      nofun hw fun session key hkey => ?_
    refine ⟨True.intro, fun answer hanswer => ?_⟩
    have hanswer := hanswer hkey
    show verifyResult answer = _
    by_cases hverifies : S.verifies algorithm.mechanism k payload signature = true
    · rw [if_pos hverifies] at hanswer
      rw [hverifies, hanswer]
      rfl
    · rw [if_neg hverifies] at hanswer
      rw [Bool.not_eq_true] at hverifies
      rw [hverifies]
      rcases hanswer with rfl | rfl <;> rfl
  exact hmeets.runs hruns fun _ ev hev => hanswers ev hev

/-- What a worker answers to a request for a signature. -/
lemma execute_sign {P : Platform} {w w' : Worker} {label : String} {algorithm : SignAlgorithm}
    {payload signature : Bytes} {tr : List (Event Op.Ans)} (hw : w.Holds label carries)
    (hruns : Runs (Worker.execute P w (.sign label algorithm payload)) tr
      (.ok (.signature signature), w'))
    (hanswers : ∀ ev ∈ tr, KeyAnswer S k label carries ev) :
    S.verifies algorithm.mechanism k payload signature = true := by
  have hmeets : (Worker.execute P w (.sign label algorithm payload)).Meets
      (schemeContract S k label carries) (fun _ r => ∀ signature, r.1 = .ok (.signature signature) →
        S.verifies algorithm.mechanism k payload signature = true) () := by
    refine execute_meets_key P (.sign label algorithm payload)
      (Q := fun r => ∀ signature, r = .ok (.signature signature) →
        S.verifies algorithm.mechanism k payload signature = true) nofun hw fun session key hkey => ?_
    refine ⟨True.intro, fun answer hanswer signature hresult => ?_⟩
    cases answer with
    | error e => cases hresult
    | ok bytes =>
      obtain rfl : bytes = signature := by
        simpa [tokenResult] using hresult
      exact hanswer hkey bytes rfl
  exact hmeets.runs hruns (fun _ ev hev => hanswers ev hev) signature rfl

end

/-- In-process verification agrees with the token, for every mechanism number, input, signature and
key of the mechanism's type.  `prepare` fails exactly where `verify_public` does; otherwise
`verify_public` returns what every worker answers to a `Verify` job with what was prepared; a
signature a worker returns for what was prepared is accepted for every input with the same digest,
in particular for a message and its digest alike; and the payload of `CKM_RSA_PKCS` is the DER
encoding of the `DigestInfo`. -/
theorem verify_agrees {P : Platform} {S : Schemes P.crypto} (hS : Decides S)
    {k : KeyMaterial P.crypto} {spkiDer : Bytes} (hspki : k.Decodes spkiDer) {mechanism : Int32}
    (hfits : ∀ m, SignatureMechanism.tryFrom mechanism = some m → k.Fits m) (input : SigningInput) :
    (∀ signature, (∃ e, prepare P.crypto mechanism input = .error e) ↔
      ∃ e, verifyPublic P.crypto spkiDer mechanism input signature = .error e) ∧
    (∀ op, prepare P.crypto mechanism input = .ok op → ∀ signature, ∃ valid,
      verifyPublic P.crypto spkiDer mechanism input signature = .ok valid ∧
      ∀ (w : Worker) (label : String) (carries : ObjectHandle → Prop) (tr : List (Event Op.Ans))
        (result : JobResult) (w' : Worker), w.Holds label carries →
        (Worker.execute P w (.verify label op.algorithm op.payload signature)).Runs tr
          (result, w') →
        (∀ ev ∈ tr, KeyAnswer S k label carries ev) → result = .ok (.verified valid)) ∧
    (∀ op, prepare P.crypto mechanism input = .ok op →
      ∀ (w : Worker) (label : String) (carries : ObjectHandle → Prop) (tr : List (Event Op.Ans))
        (signature : Bytes) (w' : Worker), w.Holds label carries →
        (Worker.execute P w (.sign label op.algorithm op.payload)).Runs tr
          (.ok (.signature signature), w') →
        (∀ ev ∈ tr, KeyAnswer S k label carries ev) →
        ∀ input', digestOf P.crypto input' = digestOf P.crypto input →
          verifyPublic P.crypto spkiDer mechanism input' signature = .ok true) ∧
    (∀ message, digestOf P.crypto (.digest (P.crypto.sha256 message)) =
      digestOf P.crypto (.message message)) ∧
    ∀ op, prepare P.crypto mechanism input = .ok op → op.algorithm = .rsaPkcs →
      ∃ digest, input = .digest digest ∧ op.payload = Der.digestInfo digest := by
  rcases prepare_cases hS hspki hfits input with ⟨hprepare, hpublic⟩ |
    ⟨m, digest, op, hpublic, hdigest, hprepare, hverifies, hwrapped⟩
  · have hnone : ∀ op, prepare P.crypto mechanism input ≠ .ok op := by
      intro op hop
      obtain ⟨e, he⟩ := hprepare
      rw [he] at hop
      cases hop
    exact ⟨fun signature => iff_of_true hprepare (hpublic signature),
      fun op hop => absurd hop (hnone op), fun op hop => absurd hop (hnone op), hS.digestOf_message,
      fun op hop => absurd hop (hnone op)⟩
  · have hop : ∀ op', prepare P.crypto mechanism input = .ok op' → op' = op :=
      fun op' hop' => Except.ok.inj (hop'.symm.trans hprepare)
    have hvalid : ∀ input' signature, digestOf P.crypto input' = .ok digest →
        verifyPublic P.crypto spkiDer mechanism input' signature =
          .ok (S.accepts m k digest signature) := by
      intro input' signature hinput'
      rw [hpublic, hinput']
      rfl
    refine ⟨fun signature => ?_, fun op' hop' signature => ?_, fun op' hop' w label carries tr
      signature w' hw hruns hanswers input' hinput' => ?_, hS.digestOf_message,
      fun op' hop' halgorithm => ?_⟩
    · rw [hprepare, hvalid input signature hdigest]
      exact iff_of_false (fun h => nomatch h) (fun h => nomatch h)
    · obtain rfl := hop op' hop'
      refine ⟨_, hvalid input signature hdigest, fun w label carries tr result w' hw hruns
        hanswers => ?_⟩
      rw [execute_verify hw hruns hanswers, hverifies]
    · obtain rfl := hop op' hop'
      rw [hvalid input' signature (hinput'.trans hdigest), ← hverifies,
        execute_sign hw hruns hanswers]
    · obtain rfl := hop op' hop'
      exact ⟨digest, hwrapped halgorithm⟩

/-! ## A platform with toy schemes -/

/-- Crates for schemes in which a signature is the key followed by what is signed: a hash that cuts
or pads to 32 bytes, and ECDSA signatures of exactly 64 bytes. -/
def toyLibs : CryptoLibs where
  sha256 message := (message ++ List.replicate sha256Len 0).take sha256Len
  P256PublicKey := Bytes
  RsaPublicKey := Bytes
  EcdsaSignature := Bytes
  p256FromPublicKeyDer := some
  p256FromSec1Bytes := .ok
  p256ToPublicKeyDer := some
  p256ToEncodedPoint := id
  ecdsaSignatureFromSlice bytes := if bytes.length = 64 then some bytes else none
  p256VerifyPrehash key digest signature := decide (signature = key ++ digest)
  ringVerifyP256Sha256Fixed key message signature := decide (signature.length = 64 ∧
    signature = key ++ (message ++ List.replicate sha256Len 0).take sha256Len)
  rsaFromPublicKeyDer := some
  rsaNew modulus exponent := some (modulus ++ exponent)
  rsaToPublicKeyDer := some
  rsaVerifyPkcs1v15Sha256 key digest signature :=
    decide (signature = key ++ (sha256DigestInfoPrefix ++ digest))
  rsaVerifyPssSha256 key digest signature :=
    decide (signature = key ++ digest ++ List.replicate sha256Len 0)

/-- The relations of these schemes. -/
def toySchemes : Schemes toyLibs where
  ecdsa := fun (key digest signature : Bytes) =>
    decide (signature.length = 64 ∧ signature = key ++ digest)
  pkcs1 := fun (key info signature : Bytes) => decide (signature = key ++ info)
  pss := fun (key : Bytes) salt digest signature =>
    decide (signature = key ++ digest ++ List.replicate salt 0)

/-- The toy crates decide them. -/
lemma toyLibs_decides : Decides toySchemes where
  sha256_length message := by simp [toyLibs, sha256Len]
  ring key message signature := rfl
  p256 key digest bytes signature h := by
    have hread : bytes.length = 64 ∧ bytes = signature :=
      ⟨(Option.ite_none_right_eq_some.mp h).1, Option.some.inj (Option.ite_none_right_eq_some.mp h).2⟩
    obtain ⟨hlength, rfl⟩ := hread
    simp [toyLibs, toySchemes, hlength]
  p256_malformed key digest bytes h := by
    have hlength : ¬ bytes.length = 64 := by
      simpa [toyLibs] using h
    simp [toySchemes, hlength]
  rsa_pkcs1 key digest signature hlength := by
    simp [toyLibs, toySchemes, Der.digestInfo_eq hlength]
  rsa_pss key digest signature hlength := rfl

/-- The platform with the toy crates. -/
abbrev toyPlatform : Platform := { anyPlatform with crypto := toyLibs }

/-- A digest of a message. -/
def toyDigest : Bytes := toyLibs.sha256 [1, 2, 3]

/-- A worker whose token holds the RSA key `[9]` as object 5 signs a digest with `CKM_RSA_PKCS`; in
this process the signature is accepted for the digest, and for the message. -/
theorem verify_agrees_toy_signature :
    verifyPublic toyLibs [9] 2 (.digest toyDigest)
      ([9] ++ (sha256DigestInfoPrefix ++ toyDigest)) = .ok true ∧
    verifyPublic toyLibs [9] 2 (.message [1, 2, 3])
      ([9] ++ (sha256DigestInfoPrefix ++ toyDigest)) = .ok true := by
  have hprepare : prepare toyLibs 2 (.digest toyDigest) =
      .ok ⟨.rsaPkcs, sha256DigestInfoPrefix ++ toyDigest⟩ := by
    decide +kernel
  have hfits : ∀ m, SignatureMechanism.tryFrom 2 = some m →
      (KeyMaterial.rsa [9] : KeyMaterial toyLibs).Fits m := by
    intro m hm
    obtain rfl : SignatureMechanism.rsaPkcsSha256 = m := Option.some.inj hm
    exact ⟨[9], rfl⟩
  let calls : List (Event Op.Ans) :=
    [⟨.pool (.count .handleCacheMisses 1), ()⟩,
      ⟨.token (.findObjects 7 .privateKey "k"), .ok [5]⟩,
      ⟨.token (.sign 7 .rsaPkcs 5 (sha256DigestInfoPrefix ++ toyDigest)),
        .ok ([9] ++ (sha256DigestInfoPrefix ++ toyDigest))⟩]
  have hruns : (Worker.execute toyPlatform ⟨7, ∅⟩ (.sign "k" .rsaPkcs
      (sha256DigestInfoPrefix ++ toyDigest))).Runs calls
      (.ok (.signature ([9] ++ (sha256DigestInfoPrefix ++ toyDigest))),
        Worker.store ⟨7, ∅⟩ .privateKey "k" 5) :=
    Runs.call (Runs.call (Runs.call (Runs.ret _)))
  have hspki : (KeyMaterial.rsa [9] : KeyMaterial toyLibs).Decodes [9] := rfl
  have hanswers : ∀ ev ∈ calls, KeyAnswer toySchemes (.rsa [9]) "k" (fun key => key = 5) ev := by
    intro ev hev
    simp only [calls, List.mem_cons, List.not_mem_nil, or_false] at hev
    rcases hev with rfl | rfl | rfl
    · exact True.intro
    · exact fun _ _ => ⟨5, [], rfl, rfl⟩
    · intro _ signature hsignature
      obtain rfl := Except.ok.inj hsignature
      decide +kernel
  have hagrees := verify_agrees (P := toyPlatform) toyLibs_decides hspki hfits (.digest toyDigest)
  have haccepted := hagrees.2.2.1 _ hprepare ⟨7, ∅⟩ "k" _ _ _ _ (fun kind key _ h => nomatch h)
    hruns hanswers
  exact ⟨haccepted _ rfl, haccepted _ (toyLibs_decides.digestOf_message _).symm⟩

end HsmProxy
