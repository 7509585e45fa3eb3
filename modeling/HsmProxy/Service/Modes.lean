import HsmProxy.Grpc.Admission
import HsmProxy.Grpc.Single

/-!
# The two modes of the proxy

`main` reads `PROXY_TLS` and `PROXY_MODE`, loads the policy, and starts one of the two services.
Only `PooledService` is given the policy: `policy_enforced_iff` says that a call that is not granted
is refused by the policy exactly in pool mode (and when the circuit breaker lets it come so far).
-/

namespace HsmProxy

open Interleaving Interleaving.Prog

/-- `PROXY_MODE`. -/
inductive Mode where
  | pool
  | single
  deriving DecidableEq, Repr

/-- The environment variables that choose the service. -/
structure ProxyEnv where
  proxyTls : Option String
  proxyMode : Option String

/-- `load_security`; `load` is what reading the certificates and the policy ends with. -/
def loadSecurity (env : ProxyEnv) (load : Except String Policy) : Except String (Option Policy) :=
  if env.proxyTls.getD "on" = "off" then .ok none
  else
    match load with
    | .ok policy => .ok (some policy)
    | .error e => .error e

/-- The match of `main` on the mode. -/
def selectMode (env : ProxyEnv) : Except String Mode :=
  let mode := env.proxyMode.getD "pool"
  if mode = "pool" then .ok .pool
  else if mode = "single" then .ok .single
  else .error s!"PROXY_MODE must be 'pool' or 'single', got '{mode}'"

section

variable (P : Platform) (cfg : ServiceConfig)

/-- The service of a mode: the pooled one gets the authorizer, the single-session one does not. -/
def startedService (session : SessionHandle) (security : Option Policy) :
    Mode → Rpc → Program (Except Status RpcResponse)
  | .pool => pooled P { cfg with authorizer := security }
  | .single => Single.single P session

/-- The proxy in a mode. -/
def modeProxy (session : SessionHandle) (security : Option Policy) (mode : Mode) :
    System Op.Ans (Shared P) Choice (EnvAction P) Party ThreadResult :=
  proxy P { cfg with authorizer := security } (startedService P cfg session security mode)

/-- The proxy `main` runs; `session` is the one `SingleSessionService::connect` opens. -/
def mainProxy (session : SessionHandle) (env : ProxyEnv) (load : Except String Policy) :
    Except String (System Op.Ans (Shared P) Choice (EnvAction P) Party ThreadResult) := do
  let security ← loadSecurity env load
  let mode ← selectMode env
  return modeProxy P cfg session security mode

/-! ## The single-session service refuses nobody -/

/-- The reply is a refusal by the policy: the caller is not permitted, or not known. -/
def RefusedByPolicy (reply : Except Status RpcResponse) : Prop :=
  ∃ status, reply = .error status ∧
    (status.code = .permissionDenied ∨ status.code = .unauthenticated)

/-- The result is not a refusal by a policy. -/
def Unguarded {α : Type} (r : Except Status α) : Prop :=
  ∀ status, r = .error status → status.code ≠ .permissionDenied ∧ status.code ≠ .unauthenticated

/-- A handler that never ends in a refusal by a policy. -/
def NeverGuards {α : Type} (h : Handler α) : Prop := ∀ tr r, h.run.Runs tr r → Unguarded r

namespace NeverGuards

variable {α β : Type}

/-- A success is not a refusal. -/
lemma ok (a : α) : Unguarded (.ok a : Except Status α) := fun _ h => by cases h

/-- A status with another code is not a refusal. -/
lemma error {status : Status} (hcode : status.code ≠ .permissionDenied ∧
    status.code ≠ .unauthenticated) : Unguarded (.error status : Except Status α) := by
  intro status' h
  obtain rfl := Except.error.inj h
  exact hcode

/-- Read as a contract that looks at nothing. -/
lemma iff_meets {h : Handler α} : NeverGuards h ↔
    h.run.Meets (Contract.watch () fun _ _ _ => ()) (fun _ r => Unguarded r) () := by
  rw [meets_watch_iff]
  rfl

/-- A result that is known. -/
lemma check {r : Except Status α} (hr : Unguarded r) : NeverGuards (Handler.check r) := by
  cases r <;> exact iff_meets.mpr hr

/-- Returning. -/
lemma pure (a : α) : NeverGuards (Pure.pure a) := iff_meets.mpr (ok a)

/-- Failing with another code. -/
lemma throw {status : Status} (hcode : status.code ≠ .permissionDenied ∧
    status.code ≠ .unauthenticated) : NeverGuards (MonadExcept.throw status : Handler α) :=
  iff_meets.mpr (error hcode)

/-- Sequencing. -/
lemma bind {h : Handler α} {f : α → Handler β} (hh : NeverGuards h) (hf : ∀ a, NeverGuards (f a)) :
    NeverGuards (h >>= f) := by
  rw [iff_meets] at hh ⊢
  rw [meets_run_bind]
  refine hh.mono fun u r hr => ?_
  cases r with
  | ok a => exact iff_meets.mp (hf a)
  | error status => exact error (hr status rfl)

/-- A step that cannot fail. -/
lemma lift {p : Program α} : NeverGuards (ExceptT.lift p) := by
  rw [iff_meets]
  exact (meets_map Except.ok _).mpr (meets_watch_iff.mpr fun _ a _ => ok a)

/-- Holding the mutex. -/
lemma locked {body : Handler α} (hbody : NeverGuards body) : NeverGuards (Single.locked body) := by
  refine bind lift fun _ => ?_
  rw [iff_meets, meets_run_bind]
  refine (meets_map Except.ok _).mpr ((iff_meets.mp hbody).mono fun _ r hr => ?_)
  exact iff_meets.mp (bind lift fun _ => check hr)

/-- A call whose errors are given another code. -/
lemma callOr {p : Program (Except CryptokiError α)} {f : CryptokiError → Status}
    (hf : ∀ e, (f e).code ≠ .permissionDenied ∧ (f e).code ≠ .unauthenticated) :
    NeverGuards (Single.callOr p f) := by
  refine bind lift fun r => ?_
  cases r with
  | ok a => exact pure a
  | error e => exact throw (hf e)

/-- `require_object`. -/
lemma requireObject {session : SessionHandle} {objectClass : ObjectClass} {label : String} :
    NeverGuards (Single.requireObject session objectClass label) := by
  refine bind lift fun r => ?_
  rcases r with e | (_ | handle)
  · exact throw (by decide)
  · exact throw ⟨nofun, nofun⟩
  · exact pure handle

/-- `GcmParams::new`. -/
lemma gcmParams {iv aad : Bytes} : NeverGuards (Single.gcmParams P iv aad) := by
  unfold Single.gcmParams
  split
  · exact pure _
  · exact throw ⟨nofun, nofun⟩

/-- The check of the input. -/
lemma extractInput {input : Option SigningInputMessage} :
    NeverGuards (Handler.check (HsmProxy.extractInput input)) := by
  unfold HsmProxy.extractInput
  split
  · exact check (error ⟨nofun, nofun⟩)
  · exact check (ok _)
  · exact check (ok _)

/-- A failure of the caller's. -/
lemma asInvalidArgument {r : Except String α} :
    NeverGuards (Handler.check (HsmProxy.asInvalidArgument r)) := by
  cases r with
  | ok a => exact check (ok a)
  | error message => exact check (error ⟨nofun, nofun⟩)

/-- The check of the cipher. -/
lemma requireAesGcm {mechanism : Int32} :
    NeverGuards (Handler.check (HsmProxy.requireAesGcm mechanism)) := by
  unfold HsmProxy.requireAesGcm
  split
  · exact check (ok ())
  · exact check (error ⟨nofun, nofun⟩)

/-- The check of the IV. -/
lemma checkIv {iv : Bytes} : NeverGuards (Handler.check (HsmProxy.checkIv iv)) := by
  unfold HsmProxy.checkIv
  split
  · exact check (error ⟨nofun, nofun⟩)
  · exact check (ok ())

end NeverGuards

/-- No method of the single-session service refuses a call on the grounds of a policy. -/
theorem single_neverGuards (session : SessionHandle) (rpc : Rpc) {tr : List (Event Op.Ans)}
    {reply : Except Status RpcResponse} (hruns : (Single.single P session rpc).Runs tr reply) :
    ¬ RefusedByPolicy reply := by
  have hunguarded : Unguarded reply := by
    cases rpc with
    | sign request =>
      refine NeverGuards.bind .extractInput (fun input => ?_) tr reply hruns
      refine .bind .asInvalidArgument fun prepared => .locked ?_
      exact .bind .requireObject fun key =>
        .bind (.callOr fun _ => ⟨nofun, nofun⟩) fun signature => .pure _
    | verify request =>
      refine NeverGuards.bind .extractInput (fun input => ?_) tr reply hruns
      refine .bind .asInvalidArgument fun prepared => .locked ?_
      refine .bind .requireObject fun key => .bind .lift fun answer => ?_
      split
      · exact .pure _
      · exact .pure _
      · exact .pure _
      · exact .throw ⟨nofun, nofun⟩
    | encrypt request =>
      refine NeverGuards.bind .requireAesGcm (fun _ => ?_) tr reply hruns
      refine .bind .lift fun iv => .locked ?_
      exact .bind .requireObject fun key => .bind (.gcmParams P) fun mechanism =>
        .bind (.callOr fun _ => ⟨nofun, nofun⟩) fun ciphertext => .pure _
    | decrypt request =>
      refine NeverGuards.bind .requireAesGcm (fun _ => ?_) tr reply hruns
      refine .bind .checkIv fun _ => .locked ?_
      refine .bind .requireObject fun key => .bind (.gcmParams P) fun mechanism =>
        .bind (.callOr fun e => ?_) fun plaintext => .pure _
      unfold Single.decryptError
      split
      · exact ⟨nofun, nofun⟩
      · exact ⟨nofun, nofun⟩
      · exact ⟨nofun, nofun⟩
    | getPublicKey request =>
      refine NeverGuards.locked (.bind .requireObject fun key => .bind .lift fun answer => ?_)
        tr reply hruns
      split
      · exact .pure _
      · exact .throw ⟨nofun, nofun⟩
  rintro ⟨status, rfl, hcode | hcode⟩
  · exact (hunguarded status rfl).1 hcode
  · exact (hunguarded status rfl).2 hcode

end

/-! ## Where the policy is enforced -/

/-- The steps that reach the token: a call into the module, and a job for a worker. -/
def Op.reachesToken : Op → Bool
  | .token _ => true
  | .pool (.trySend _ _) => true
  | _ => false

section

variable {P : Platform} {cfg : ServiceConfig} {t₀ : ℕ} {sessions : List SessionHandle}
  {token : P.token.State} {as : List (Action Choice (EnvAction P) Party)}
  {c : Config Op.Ans (Shared P) Party ThreadResult}

/-- In pool mode nothing of a call that is not granted reaches the token. -/
lemma not_reachesToken_of_not_granted
    (hrun : (pooledProxy P cfg).run (started P t₀ sessions token) as = some c) {policy : Policy}
    (hpolicy : cfg.authorizer = some policy) {i : ℕ} {rpc : Rpc}
    {reply : Except Status RpcResponse} (hi : replied c i = some (rpc, reply))
    (hgranted : ¬ Granted P policy rpc) :
    ∀ en ∈ c.trace, en.tid = i → en.event.1.reachesToken = false := by
  intro en hen htid
  obtain ⟨hist, ht⟩ := System.exists_returned (returned_of_replied hi)
  have hlabel := (admission_outline hrun).recorded.label i _ ht en hen htid
  obtain ⟨hmediated, htoken⟩ := unmediated_of_not_granted hrun hpolicy hen hlabel hgranted
  obtain ⟨tid, label, hist', before, o, a⟩ := en
  cases o with
  | token call => exact absurd rfl (htoken call)
  | pool q => cases hmediated
  | _ => rfl

/-- The mode `PROXY_MODE` selects. -/
lemma selectMode_eq_pool_iff {env : ProxyEnv} {mode : Mode} (h : selectMode env = .ok mode) :
    mode = .pool ↔ env.proxyMode.getD "pool" = "pool" := by
  unfold selectMode at h
  dsimp only at h
  split at h
  · rename_i hpool
    cases h
    exact iff_of_true rfl hpool
  · rename_i hpool
    split at h
    · cases h
      exact iff_of_false nofun hpool
    · cases h

/-- Where the policy is enforced, for every environment in which `load_security` gives a policy and
`main` starts a service, and for every run of the proxy: a call that is not granted is refused by
the policy and reaches the token in no way, exactly if the mode is `pool` and the circuit breaker
let the call through. -/
theorem policy_enforced_iff {session : SessionHandle} {env : ProxyEnv} {load : Except String Policy}
    {policy : Policy} (hsecurity : loadSecurity env load = .ok (some policy))
    {sys : System Op.Ans (Shared P) Choice (EnvAction P) Party ThreadResult}
    (hmain : mainProxy P cfg session env load = .ok sys)
    (hrun : sys.run (started P t₀ sessions token) as = some c) {i : ℕ} {rpc : Rpc}
    {reply : Except Status RpcResponse} (hi : replied c i = some (rpc, reply))
    (hgranted : ¬ Granted P policy rpc) :
    (RefusedByPolicy reply ∧ ∀ en ∈ c.trace, en.tid = i → en.event.1.reachesToken = false) ↔
      env.proxyMode.getD "pool" = "pool" ∧
        (admissionLog (histOf c.trace i)).allowed = some true := by
  obtain ⟨security, hloaded, hmain⟩ := except_bind_ok hmain
  obtain rfl : security = some policy := Except.ok.inj (hloaded.symm.trans hsecurity)
  obtain ⟨mode, hmode, hmain⟩ := except_bind_ok hmain
  obtain rfl := Except.ok.inj hmain
  rw [← selectMode_eq_pool_iff hmode]
  cases mode with
  | single =>
    refine iff_of_false (fun h => ?_) (fun h => nomatch h.1)
    exact single_neverGuards P session rpc (runs_of_reply hrun hi) h.1
  | pool =>
    obtain ⟨refusal, hrefusal⟩ := authorization_error P hgranted
    have hreply := reply_of_not_granted hrun rfl hi hrefusal
    have hquiet := not_reachesToken_of_not_granted hrun rfl hi hgranted
    constructor
    · rintro ⟨⟨status, hstatus, hcode⟩, -⟩
      refine ⟨rfl, ?_⟩
      by_contra hallowed
      rw [hreply, if_neg hallowed] at hstatus
      obtain rfl := Except.error.inj hstatus
      rcases hcode with hcode | hcode <;> cases hcode
    · rintro ⟨-, hallowed⟩
      rw [if_pos hallowed] at hreply
      exact ⟨⟨refusal, hreply, (authorization_code P hrefusal).symm⟩, hquiet⟩

end

/-- `alice` may not look the public key up. -/
lemma not_granted_aliceLookup : ¬ Granted alicePlatform signOnly aliceLookup := by
  rintro ⟨identity, hidentity, hallowed⟩
  obtain rfl := Except.ok.inj hidentity
  revert hallowed
  decide +kernel

/-- In pool mode, which is the default, the lookup is refused. -/
theorem policy_enforced_pool :
    ∃ c : Config Op.Ans (Shared alicePlatform) Party ThreadResult,
      (modeProxy alicePlatform (.plain 1 10) 0 (some signOnly) .pool).run (started _ 0 [7] ())
        (.spawn (.rpc aliceLookup) :: execs 1 6 .success) = some c ∧
      ∃ reply, replied c 1 = some (aliceLookup, reply) ∧ RefusedByPolicy reply := by
  have hlookup : ((modeProxy alicePlatform (.plain 1 10) 0 (some signOnly) .pool).run
      (started _ 0 [7] ()) (.spawn (.rpc aliceLookup) :: execs 1 6 .success)).map
      (fun c => ((replied c 1).map Prod.fst, (admissionLog (histOf c.trace 1)).allowed)) =
      some (some aliceLookup, some true) := by
    decide +kernel
  obtain ⟨c, hrun, hc⟩ := Option.map_eq_some_iff.mp hlookup
  obtain ⟨hcall, hallowed⟩ := Prod.mk.inj hc
  obtain ⟨⟨rpc, reply⟩, hi, rfl⟩ := Option.map_eq_some_iff.mp hcall
  have hsecurity : loadSecurity ⟨none, none⟩ (.ok signOnly) = .ok (some signOnly) := rfl
  have hmain : mainProxy alicePlatform (.plain 1 10) 0 ⟨none, none⟩ (.ok signOnly) =
      .ok (modeProxy alicePlatform (.plain 1 10) 0 (some signOnly) .pool) := rfl
  exact ⟨c, hrun, reply, hi, ((policy_enforced_iff hsecurity hmain hrun hi
    not_granted_aliceLookup).mpr ⟨rfl, hallowed⟩).1⟩

/-- In single mode, under the same policy, the key is looked up on the token and handed out. -/
theorem policy_ignored_single :
    loadSecurity ⟨none, some "single"⟩ (.ok signOnly) = .ok (some signOnly) ∧
    selectMode ⟨none, some "single"⟩ = .ok .single ∧
    ¬ Granted alicePlatform signOnly aliceLookup ∧
    ((modeProxy alicePlatform (.plain 1 10) 0 (some signOnly) .single).run (started _ 0 [] ())
      (.spawn (.rpc aliceLookup) :: execs 0 5 .success)).map
      (fun c => ((replied c 0).map fun r => r.2.isOk,
        (c.trace.filter fun en => en.event.1.reachesToken).length)) = some (some true, 3) :=
  ⟨rfl, rfl, not_granted_aliceLookup, by decide +kernel⟩

end HsmProxy
