import HsmProxy.Crypto.Agreement

/-!
# Recovering the digest from what was prepared

`prepare` shapes its input for one of five PKCS#11 mechanisms: a bare digest, the message for a
token that hashes, or a `DigestInfo`.  `verification_digest` undoes the choice, and `digest_of`
computes the digest from the input itself.  `digest_recovered` says that the three fit together, and
that the one shape that is parsed, the `DigestInfo`, is accepted in exactly one form.
-/

namespace HsmProxy

/-- A mechanism that is specified: the three numbers the wire protocol has for one. -/
def specifiedMechanism (mechanism : Int32) : Prop := mechanism = 1 ∨ mechanism = 2 ∨ mechanism = 3

/-- An input with a digest: any message, and a digest of the right length. -/
def SigningInput.hasDigest : SigningInput → Prop
  | .message _ => True
  | .digest d => d.length = sha256Len

/-- The numbers of the mechanisms. -/
lemma specifiedMechanism_iff (mechanism : Int32) : specifiedMechanism mechanism ↔
    ∃ m, SignatureMechanism.tryFrom mechanism = some m ∧ m ≠ .unspecified := by
  unfold specifiedMechanism SignatureMechanism.tryFrom
  constructor
  · rintro (rfl | rfl | rfl)
    · exact ⟨.ecdsaSha256, by decide, by decide⟩
    · exact ⟨.rsaPkcsSha256, by decide, by decide⟩
    · exact ⟨.rsaPssSha256, by decide, by decide⟩
  · rintro ⟨m, hm, hused⟩
    split at hm
    · exact absurd (Option.some.inj hm).symm hused
    · split at hm
      · exact Or.inl ‹_›
      · split at hm
        · exact Or.inr (Or.inl ‹_›)
        · split at hm
          · exact Or.inr (Or.inr ‹_›)
          · cases hm

section

variable (libs : CryptoLibs)

/-- The digest of an input. -/
lemma digestOf_eq_ok_iff (input : SigningInput) (digest : Bytes) :
    digestOf libs input = .ok digest ↔ input.hasDigest ∧
      (∀ message, input = .message message → digest = libs.sha256 message) ∧
      ∀ d, input = .digest d → digest = d := by
  cases input with
  | message message =>
    constructor
    · intro h
      obtain rfl := Except.ok.inj h
      refine ⟨True.intro, fun message' h => ?_, fun d h => ?_⟩
      · cases h
        rfl
      · cases h
    · rintro ⟨-, hmessage, -⟩
      rw [hmessage message rfl]
      rfl
  | digest d =>
    rcases checkDigestLen_eq d with ⟨hlength, hcheck⟩ | ⟨e, hlength, hcheck⟩
    · have hdigest : digestOf libs (.digest d) = .ok d := by
        simp only [digestOf, hcheck]
        rfl
      rw [hdigest]
      constructor
      · intro h
        obtain rfl := Except.ok.inj h
        refine ⟨hlength, fun message h => ?_, fun d' h => ?_⟩
        · cases h
        · cases h
          rfl
      · rintro ⟨-, -, hd⟩
        rw [hd d rfl]
    · have hdigest : digestOf libs (.digest d) = .error e := by
        simp only [digestOf, hcheck]
        rfl
      rw [hdigest]
      constructor
      · intro h
        cases h
      · rintro ⟨h, -, -⟩
        exact absurd h hlength

/-- The payload of `CKM_RSA_PKCS` is read in one form: the prefix, and 32 bytes. -/
lemma verificationDigest_rsaPkcs (payload digest : Bytes) :
    (PreparedOperation.mk .rsaPkcs payload).verificationDigest libs = .ok digest ↔
      digest.length = sha256Len ∧ payload = sha256DigestInfoPrefix ++ digest := by
  unfold PreparedOperation.verificationDigest
  constructor
  · intro h
    simp only at h
    split at h
    · cases h
    · rename_i haccepted
      obtain ⟨hlength, hprefix⟩ := not_or.mp haccepted
      obtain ⟨rest, rfl⟩ := not_not.mp hprefix
      have hrest : rest = digest := by simpa using Except.ok.inj h
      rw [not_not, List.length_append] at hlength
      rw [← hrest]
      exact ⟨Nat.add_left_cancel hlength, rfl⟩
  · rintro ⟨hlength, rfl⟩
    have haccepted : ¬((sha256DigestInfoPrefix ++ digest).length ≠
        sha256DigestInfoPrefix.length + sha256Len ∨
        ¬ sha256DigestInfoPrefix <+: sha256DigestInfoPrefix ++ digest) := by
      rw [not_or, not_not, not_not, List.length_append, hlength]
      exact ⟨rfl, List.prefix_append _ _⟩
    simp only [if_neg haccepted, List.drop_left]

/-- What is prepared for a specified mechanism has the digest of the input. -/
lemma verificationDigest_prepare {mechanism : Int32} {input : SigningInput} {digest : Bytes}
    (hmechanism : specifiedMechanism mechanism) (hdigest : digestOf libs input = .ok digest) :
    ∃ op, prepare libs mechanism input = .ok op ∧ op.verificationDigest libs = .ok digest := by
  obtain ⟨m, hm, hused⟩ := (specifiedMechanism_iff mechanism).mp hmechanism
  obtain ⟨hhas, hmessage, hd⟩ := (digestOf_eq_ok_iff libs input digest).mp hdigest
  unfold prepare
  rw [hm]
  cases input with
  | message message =>
    rw [hmessage message rfl]
    cases m with
    | unspecified => exact absurd rfl hused
    | ecdsaSha256 => exact ⟨_, rfl, rfl⟩
    | rsaPkcsSha256 => exact ⟨_, rfl, rfl⟩
    | rsaPssSha256 => exact ⟨_, rfl, rfl⟩
  | digest d =>
    obtain rfl := hd d rfl
    have hcheck : checkDigestLen digest = .ok () := if_neg (not_not.mpr hhas)
    cases m with
    | unspecified => exact absurd rfl hused
    | ecdsaSha256 =>
      simp only [hcheck]
      exact ⟨_, rfl, rfl⟩
    | rsaPkcsSha256 =>
      simp only [hcheck]
      exact ⟨_, rfl, (verificationDigest_rsaPkcs libs _ digest).mpr ⟨hhas, rfl⟩⟩
    | rsaPssSha256 =>
      simp only [hcheck]
      exact ⟨_, rfl, rfl⟩

/-- Nothing is prepared for other mechanisms, or without a digest. -/
lemma of_prepare_eq_ok {mechanism : Int32} {input : SigningInput} {op : PreparedOperation}
    (h : prepare libs mechanism input = .ok op) :
    specifiedMechanism mechanism ∧ input.hasDigest := by
  unfold prepare at h
  cases hm : SignatureMechanism.tryFrom mechanism with
  | none =>
    rw [hm] at h
    cases h
  | some m =>
    rw [hm] at h
    have hused : m ≠ .unspecified := by
      rintro rfl
      cases input <;> cases h
    refine ⟨(specifiedMechanism_iff mechanism).mpr ⟨m, hm, hused⟩, ?_⟩
    cases input with
    | message message => exact True.intro
    | digest d =>
      rcases checkDigestLen_eq d with ⟨hlength, -⟩ | ⟨e, -, hcheck⟩
      · exact hlength
      · cases m <;> simp only [hcheck] at h <;> cases h

/-- Digest recovery inverts the shaping of payloads, for every mechanism number and every input.
`prepare` succeeds exactly for the specified mechanisms and for inputs that are a message or a
32-byte digest; then `verification_digest` of what it prepared succeeds and is `digest_of` the
input, the hash of a message or the digest itself.  A payload of `CKM_RSA_PKCS` is accepted exactly
if it is the `DigestInfo` prefix followed by 32 bytes, which are the digest. -/
theorem digest_recovered :
    (∀ mechanism input, (∃ op, prepare libs mechanism input = .ok op) ↔
      specifiedMechanism mechanism ∧ input.hasDigest) ∧
    (∀ mechanism input op, prepare libs mechanism input = .ok op →
      ∃ digest, op.verificationDigest libs = .ok digest ∧ digestOf libs input = .ok digest ∧
        (∀ message, input = .message message → digest = libs.sha256 message) ∧
        ∀ d, input = .digest d → digest = d) ∧
    ∀ payload digest, (PreparedOperation.mk .rsaPkcs payload).verificationDigest libs = .ok digest ↔
      digest.length = sha256Len ∧ payload = sha256DigestInfoPrefix ++ digest := by
  have hexists : ∀ input : SigningInput, input.hasDigest →
      ∃ digest, digestOf libs input = .ok digest := by
    intro input hhas
    cases input with
    | message message => exact ⟨_, rfl⟩
    | digest d =>
      refine ⟨d, (digestOf_eq_ok_iff libs _ d).mpr ⟨hhas, fun message h => ?_, fun d' h => ?_⟩⟩
      · cases h
      · cases h
        rfl
  refine ⟨fun mechanism input => ⟨?_, ?_⟩, fun mechanism input op hop => ?_,
    verificationDigest_rsaPkcs libs⟩
  · rintro ⟨op, hop⟩
    exact of_prepare_eq_ok libs hop
  · rintro ⟨hmechanism, hhas⟩
    obtain ⟨digest, hdigest⟩ := hexists input hhas
    obtain ⟨op, hop, -⟩ := verificationDigest_prepare libs hmechanism hdigest
    exact ⟨op, hop⟩
  · obtain ⟨hmechanism, hhas⟩ := of_prepare_eq_ok libs hop
    obtain ⟨digest, hdigest⟩ := hexists input hhas
    obtain ⟨op', hop', hrecovered⟩ := verificationDigest_prepare libs hmechanism hdigest
    rw [hop] at hop'
    obtain rfl := Except.ok.inj hop'
    obtain ⟨-, hmessage, hd⟩ := (digestOf_eq_ok_iff libs input digest).mp hdigest
    exact ⟨digest, hrecovered, hdigest, hmessage, hd⟩

end

/-- A digest that was wrapped in a `DigestInfo` comes back. -/
theorem digest_recovered_digestInfo :
    (PreparedOperation.mk .rsaPkcs (sha256DigestInfoPrefix ++ toyDigest)).verificationDigest
      toyLibs = .ok toyDigest := by
  have hprepare : prepare toyLibs 2 (.digest toyDigest) =
      .ok ⟨.rsaPkcs, sha256DigestInfoPrefix ++ toyDigest⟩ := by
    decide +kernel
  obtain ⟨digest, hrecovered, -, -, hdigest⟩ :=
    (digest_recovered toyLibs).2.1 2 (.digest toyDigest) _ hprepare
  rw [hrecovered, hdigest toyDigest rfl]

end HsmProxy
