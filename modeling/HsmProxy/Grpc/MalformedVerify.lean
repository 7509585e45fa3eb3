import HsmProxy.Grpc.Plan
import HsmProxy.Service.System

/-!
# Verify requests that `prepare` rejects

`sign` of the pooled service and `verify` of the single-session one call `prepare` before they touch
anything, and answer what it rejects with `InvalidArgument`.  `verify` of the pooled service looks
the key up first and leaves the check to `verify_public`, whose errors it maps to `Internal`.
`malformed_verify_blamed_on_server` compares the three for one mechanism and input: what is the
caller's error on two of the paths never is on the third.
-/

namespace HsmProxy

open Interleaving Interleaving.Prog

/-! ## What `verify_public` rejects -/

/-- `check_digest_len` is the same check in `prepare` and in `verify_public`. -/
lemma checkDigestLen_error {α : Type} {digest : Bytes} {message : String} {a : α}
    (h : (checkDigestLen digest >>= fun _ => .ok a) = .error message) :
    checkDigestLen digest = .error message := by
  cases hcheck : checkDigestLen digest with
  | error e =>
    rw [hcheck] at h
    exact congrArg Except.error (Except.error.inj h)
  | ok _ =>
    rw [hcheck] at h
    cases h

/-- What `prepare` rejects, `verify_public` rejects for every key and every signature. -/
lemma verifyPublic_error_of_prepare {libs : CryptoLibs} {mechanism : Int32} {input : SigningInput}
    {message : String} (h : prepare libs mechanism input = .error message)
    (spkiDer signature : Bytes) :
    ∃ e, verifyPublic libs spkiDer mechanism input signature = .error e := by
  unfold prepare at h
  unfold verifyPublic
  cases hmechanism : SignatureMechanism.tryFrom mechanism with
  | none => exact ⟨_, rfl⟩
  | some m =>
    rw [hmechanism] at h
    cases m with
    | unspecified => exact ⟨_, rfl⟩
    | ecdsaSha256 =>
      cases input with
      | message m => cases h
      | digest d =>
        have hcheck := checkDigestLen_error h
        exact ⟨message, by simp only [hcheck]; rfl⟩
    | rsaPkcsSha256 =>
      cases input with
      | message m => cases h
      | digest d =>
        have hcheck := checkDigestLen_error h
        exact ⟨message, by simp only [digestOf, hcheck]; rfl⟩
    | rsaPssSha256 =>
      cases input with
      | message m => cases h
      | digest d =>
        have hcheck := checkDigestLen_error h
        exact ⟨message, by simp only [digestOf, hcheck]; rfl⟩

/-! ## Requests that were admitted -/

section

variable (P : Platform) (cfg : ServiceConfig)

/-- A history begins with `admit` returning `Ok`. -/
def AdmittedBy (rpc : Rpc) (h : List (Event Op.Ans)) : Prop :=
  ∃ h₁ h₂, h = h₁ ++ h₂ ∧
    (admitRequest P cfg rpc.peerCerts rpc.keyLabel rpc.operation).run.Runs h₁ (.ok ())

variable {P cfg}

/-- What follows `admit` in the history of an admitted request: its checks, its plan, and the
counting of the result. -/
lemma runs_of_admitted {rpc : Rpc} {h : List (Event Op.Ans)} {reply : Except Status RpcResponse}
    (hruns : (pooled P cfg rpc).Runs h reply) (hadmitted : AdmittedBy P cfg rpc h) :
    ∃ h₁ h₂ h₃, h = h₁ ++ (h₂ ++ h₃) ∧
      (admitRequest P cfg rpc.peerCerts rpc.keyLabel rpc.operation).run.Runs h₁ (.ok ()) ∧
      (Handler.check (plan P rpc) >>= perform P cfg rpc.keyLabel).run.Runs h₂ reply ∧
      (record rpc.operation reply).Runs h₃ () := by
  obtain ⟨result, tr, h₃, rfl, hinner, hrest⟩ := runs_bind.mp hruns
  obtain ⟨_, tr₃, tr₄, rfl, hrecord, hret⟩ := runs_bind.mp hrest
  cases hret
  rw [List.append_nil] at hadmitted ⊢
  rw [inner_eq] at hinner
  obtain ⟨a₁, a₂, heq, hadmit⟩ := hadmitted
  have hbegins : a₁ <+: tr ++ tr₃ := heq ▸ List.prefix_append _ _
  rcases runs_run_bind hinner with ⟨e, herror, -⟩ | ⟨_, h₁, h₂, rfl, hok, hperform⟩
  · -- `admit` cannot also have returned an error
    have hsame := herror.unique hadmit (List.prefix_append _ _) hbegins
    cases hsame.2
  · exact ⟨h₁, h₂, tr₃, List.append_assoc _ _ _, hok, hperform, hrecord⟩

/-- Whatever goes wrong in a key lookup is an internal error. -/
lemma publicKey_internal {keyLabel : String} {h : List (Event Op.Ans)}
    {finish : Lookup × Bool → Except Status RpcResponse} {reply : Except Status RpcResponse}
    (hruns : (perform P cfg keyLabel (.key finish)).run.Runs h reply) :
    (∃ status, reply = .error status ∧ status.code = .internal) ∨
      ∃ found, reply = finish found := by
  have hmeets : Meets (Contract.watch () fun _ _ _ => ())
      (fun _ reply => (∃ status, reply = .error status ∧ status.code = .internal) ∨
        ∃ found, reply = finish found) () (perform P cfg keyLabel (.key finish)).run := by
    rw [meets_perform_key, meets_publicKey]
    refine meets_watch_iff.mpr fun tr r _ => meets_watch_iff.mpr fun _ _ _ => ?_
    cases r with
    | error e => exact Or.inl ⟨_, rfl, rfl⟩
    | ok found => exact Or.inr ⟨found, rfl⟩
  exact meets_watch_iff.mp hmeets h reply hruns

/-- An admitted request whose checks fail is answered with the failure, and nothing is sent. -/
lemma reply_of_plan_error {rpc : Rpc} {h : List (Event Op.Ans)} {reply : Except Status RpcResponse}
    {status : Status} (hruns : (pooled P cfg rpc).Runs h reply) (hadmitted : AdmittedBy P cfg rpc h)
    (hplan : plan P rpc = .error status) :
    reply = .error status ∧ ∀ ev ∈ h, ev.1.sends = none := by
  obtain ⟨h₁, h₂, h₃, rfl, hadmit, hperform, hrecord⟩ := runs_of_admitted hruns hadmitted
  rw [hplan, check_error_bind] at hperform
  cases hperform
  refine ⟨rfl, fun ev hev => ?_⟩
  rw [List.nil_append] at hev
  rcases List.mem_append.mp hev with hev | hev
  · have hadmits := (admitRequest_only P cfg _ _ _).runs hadmit ev hev
    revert hadmits
    cases ev.1 with
    | pool q => exact fun h => nomatch h
    | _ => exact fun _ => rfl
  · have hrecords := (record_only _ _).runs hrecord ev hev
    revert hrecords
    cases ev.1 with
    | pool q => exact fun h => nomatch h
    | _ => exact fun _ => rfl

/-! ## The three paths -/

variable {t₀ : ℕ} {sessions : List SessionHandle} {token : P.token.State}

/-- A mechanism and an input that `prepare` rejects: an admitted `verify` of the pooled service is
answered that the key does not exist, or with an internal error; an admitted `sign` is answered with
`InvalidArgument`, and nothing is sent to the pool; `verify` of the single-session service is
answered with the same `InvalidArgument`, without a single step. -/
theorem malformed_verify_blamed_on_server {mechanism : Int32} {wire : Option SigningInputMessage}
    {input : SigningInput} {message : String} (hinput : extractInput wire = .ok input)
    (hrejected : prepare P.crypto mechanism input = .error message) :
    (∀ as c i request reply,
      (pooledProxy P cfg).run (started P t₀ sessions token) as = some c →
      replied c i = some (.verify request, reply) →
      request.inner.mechanism = mechanism → request.inner.input = wire →
      AdmittedBy P cfg (.verify request) (histOf c.trace i) →
      ∃ status, reply = .error status ∧
        (status = keyNotFound request.inner.keyLabel ∨ status.code = .internal)) ∧
    (∀ as c i request reply,
      (pooledProxy P cfg).run (started P t₀ sessions token) as = some c →
      replied c i = some (.sign request, reply) →
      request.inner.mechanism = mechanism → request.inner.input = wire →
      AdmittedBy P cfg (.sign request) (histOf c.trace i) →
      reply = .error (.invalidArgument message) ∧ ∀ ev ∈ histOf c.trace i, ev.1.sends = none) ∧
    (∀ session as c i request reply,
      (singleProxy P cfg session).run (started P t₀ sessions token) as = some c →
      replied c i = some (.verify request, reply) →
      request.inner.mechanism = mechanism → request.inner.input = wire →
      reply = .error (.invalidArgument message) ∧ histOf c.trace i = []) := by
  refine ⟨?_, ?_, ?_⟩
  · rintro as c i request reply hrun hi rfl rfl hadmitted
    have hruns := runs_of_reply hrun hi
    obtain ⟨h₁, h₂, h₃, -, -, hperform, -⟩ := runs_of_admitted hruns hadmitted
    have hplan : plan P (.verify request) =
        .ok (.key (finishVerify P.crypto request.inner input)) := by
      simp only [plan, hinput, except_ok_bind]
      rfl
    rw [hplan, check_ok_bind] at hperform
    rcases publicKey_internal hperform with ⟨status, rfl, hcode⟩ | ⟨⟨lookup, cached⟩, rfl⟩
    · exact ⟨status, rfl, Or.inr hcode⟩
    · cases lookup with
      | notFound => exact ⟨_, rfl, Or.inl rfl⟩
      | found key =>
        obtain ⟨e, he⟩ := verifyPublic_error_of_prepare hrejected key.spkiDer request.inner.signature
        refine ⟨.internal "verification failed", ?_, Or.inr rfl⟩
        simp only [finishVerify, he]
  · rintro as c i request reply hrun hi rfl rfl hadmitted
    refine reply_of_plan_error (runs_of_reply hrun hi) hadmitted ?_
    simp only [plan, hinput, except_ok_bind, hrejected]
    rfl
  · rintro session as c i request reply hrun hi rfl rfl
    have hruns := runs_of_reply hrun hi
    have hsingle : Single.single P session (.verify request) =
        Prog.ret (.error (.invalidArgument message)) := by
      simp only [Single.single, Single.verify, hinput, check_ok_bind, hrejected]
      rfl
    rw [hsingle] at hruns
    generalize histOf c.trace i = h at hruns
    cases hruns
    exact ⟨rfl, rfl⟩

end

/-- A call of `verify` for the label `k` that names no mechanism. -/
def malformedVerify : Rpc := .verify ⟨⟨"k", 0, some ⟨some (.message [])⟩, []⟩, none⟩

/-- The call is admitted, a job looks the key up on the token, and the key is found. -/
def malformedVerifyRun : List (Action Choice (EnvAction anyPlatform) Party) :=
  [.exec 0 .success, .spawn (.rpc malformedVerify)] ++ execs 1 7 .success ++ execs 0 11 .success ++
    execs 1 5 .success

/-- The first step of a handler was `allow` with a closed circuit. -/
def foundClosed : List (Event Op.Ans) → Bool
  | ⟨.breaker .load, .closed⟩ :: _ => true
  | _ => false

/-- Without an authorizer such a request is admitted. -/
lemma admittedBy_of_foundClosed {P : Platform} {cfg : ServiceConfig} (hcfg : cfg.authorizer = none)
    {rpc : Rpc} {h : List (Event Op.Ans)} (hclosed : foundClosed h = true) :
    AdmittedBy P cfg rpc h := by
  unfold foundClosed at hclosed
  split at hclosed
  · rename_i rest
    refine ⟨[⟨.breaker .load, .closed⟩], rest, rfl, ?_⟩
    simp only [admitRequest, hcfg]
    exact Runs.call (Runs.ret _)
  · cases hclosed

/-- The caller is told that the server failed, and a job has been sent for the call. -/
theorem malformed_verify_internal :
    ∃ c : Config Op.Ans (Shared anyPlatform) Party ThreadResult,
      (pooledProxy anyPlatform (.plain 1 10)).run (started _ 0 [7] ()) malformedVerifyRun = some c ∧
      replied c 1 = some (malformedVerify, .error (.internal "verification failed")) ∧
      AdmittedBy anyPlatform (.plain 1 10) malformedVerify (histOf c.trace 1) ∧
      (∃ ev ∈ histOf c.trace 1, ev.1.sends = some (.getPublicKey "k")) ∧
      prepare anyPlatform.crypto 0 (.message []) =
        .error "signature mechanism must be specified" := by
  have hfacts : ((pooledProxy anyPlatform (.plain 1 10)).run (started _ 0 [7] ())
      malformedVerifyRun).map (fun c => (replied c 1, foundClosed (histOf c.trace 1),
        (histOf c.trace 1).filterMap fun ev => ev.1.sends)) =
      some (some (malformedVerify, .error (.internal "verification failed")), true,
        [.getPublicKey "k"]) := by
    decide +kernel
  obtain ⟨c, hrun, hc⟩ := Option.map_eq_some_iff.mp hfacts
  simp only [Prod.mk.injEq] at hc
  obtain ⟨hreplied, hclosed, hsends⟩ := hc
  have hmem : JobRequest.getPublicKey "k" ∈
      (histOf c.trace 1).filterMap fun ev => ev.1.sends := by
    rw [hsends]
    exact List.mem_singleton_self _
  exact ⟨c, hrun, hreplied, admittedBy_of_foundClosed rfl hclosed, List.mem_filterMap.mp hmem, rfl⟩

/-- The same call on the single-session service is answered that it is malformed. -/
theorem malformed_verify_single_session :
    ∃ c : Config Op.Ans (Shared anyPlatform) Party ThreadResult,
      (singleProxy anyPlatform (.plain 1 10) 7).run (started _ 0 [7] ())
        [.spawn (.rpc malformedVerify)] = some c ∧
      replied c 1 = some (malformedVerify,
        .error (.invalidArgument "signature mechanism must be specified")) ∧
      histOf c.trace 1 = [] := by
  have hreplied : ((singleProxy anyPlatform (.plain 1 10) 7).run (started _ 0 [7] ())
      [.spawn (.rpc malformedVerify)]).map (fun c => replied c 1) =
      some (some (malformedVerify,
        .error (.invalidArgument "signature mechanism must be specified"))) := by
    decide +kernel
  obtain ⟨c, hrun, hc⟩ := Option.map_eq_some_iff.mp hreplied
  have hpaths := @malformed_verify_blamed_on_server anyPlatform (.plain 1 10) 0 [7] () 0
    (some ⟨some (.message [])⟩) (.message []) "signature mechanism must be specified" rfl rfl
  exact ⟨c, hrun, hc, (hpaths.2.2 7 _ c 1 _ _ hrun hc rfl rfl).2⟩

end HsmProxy
