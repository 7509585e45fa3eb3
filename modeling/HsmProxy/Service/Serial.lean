import HsmProxy.Interleaving.Serial
import HsmProxy.Pkcs11.WorkerSteps
import HsmProxy.Service.Steps

/-!
# Single mode is serial

`SingleSessionService` keeps its session behind a mutex, and a method makes all of its calls into
the token while it holds the mutex.  `single_linearizable` says what callers can rely on: however
their requests overlap and wherever they are dropped, the token has seen whole requests, one after
another and in the order of their replies, and every reply is the one its request gets when it is
served alone.
-/

namespace HsmProxy

open Interleaving Interleaving.Prog

/-- What an operation is for the mutex and the token. -/
def Op.role : Op → Role
  | .lockSession => .lock
  | .unlockSession => .unlock
  | .token _ => .touch
  | _ => .other

/-- Only taking and releasing the mutex changes its holder. -/
lemma execOp_sessionLock {P : Platform} {cfg : ServiceConfig} {e : Choice} {tid : ℕ}
    {s s' : Shared P} {o : Op} {a : o.Ans} (h : execOp cfg e tid s o = some (a, s'))
    (hlock : o.role ≠ .lock) (hunlock : o.role ≠ .unlock) : s'.sessionLock = s.sessionLock := by
  cases o with
  | breaker q =>
    obtain ⟨-, rfl⟩ := execOp_breaker.mp h
    rfl
  | authz q =>
    cases h
    rfl
  | limiterCheck identity =>
    simp only [execOp] at h
    split at h
    · cases h
    · cases h
      rfl
  | cache q =>
    obtain ⟨p, -, rfl⟩ := execOp_cache.mp h
    rfl
  | pool q =>
    obtain ⟨p, -, rfl⟩ := execOp_pool.mp h
    rfl
  | token q =>
    unfold execOp at h
    obtain ⟨t, -, heq⟩ := Option.map_eq_some_iff.mp h
    cases heq
    rfl
  | record m =>
    cases h
    rfl
  | now =>
    cases h
    rfl
  | randomIv =>
    simp only [execOp] at h
    split at h
    · cases h
      rfl
    · cases h
  | lockSession => exact absurd rfl hlock
  | unlockSession => exact absurd rfl hunlock

section

variable (P : Platform) (cfg : ServiceConfig) (session : SessionHandle)

/-- A call into the token, with its answer, and what it does to the token. -/
def tokenEffect (t : P.token.State) (ev : Event Op.Ans) (t' : P.token.State) : Prop :=
  ∃ o a, ev = ⟨.token o, a⟩ ∧ P.token.answer t o a = some t'

/-- The token stays as it is, or is changed by somebody else. -/
def tokenOutside (t t' : P.token.State) : Prop := t' = t ∨ ∃ ch, t' = P.token.change t ch

/-- The mutex of the single-session service, and the token behind it. -/
def sessionGuard : Guard (singleProxy P cfg session) P.token.State where
  role := Op.role
  resource s := s.token
  holder s := s.sessionLock
  effect := tokenEffect P
  outside := tokenOutside P
  exec_lock {e i s o a s'} hrole he := by
    cases o with
    | lockSession =>
      simp only [singleProxy, proxy, execOp] at he
      split at he
      · rename_i hfree
        cases he
        exact ⟨hfree, rfl, rfl⟩
      · cases he
    | _ => cases hrole
  exec_unlock {e i s o a s'} hrole he := by
    cases o with
    | unlockSession =>
      cases he
      exact ⟨rfl, rfl⟩
    | _ => cases hrole
  exec_touch {e i s o a s'} hrole he := by
    refine ⟨execOp_sessionLock he (by simp [hrole]) (by simp [hrole]), ?_⟩
    cases o with
    | token q =>
      simp only [singleProxy, proxy, execOp] at he
      obtain ⟨t, ht, heq⟩ := Option.map_eq_some_iff.mp he
      cases heq
      exact ⟨q, _, rfl, ht⟩
    | _ => cases hrole
  exec_other {e i s o a s'} hrole he := by
    refine ⟨execOp_sessionLock he (by simp [hrole]) (by simp [hrole]), ?_⟩
    refine (execOp_frame he).token fun q hq => ?_
    subst hq
    cases hrole
  cancel {i l s} hnot := by
    cases l with
    | rpc rpc => exact ⟨if_neg hnot, rfl⟩
    | worker session => exact ⟨rfl, rfl⟩
  env {v s s'} hv := by
    obtain rfl := Option.some.inj hv
    cases v with
    | changeToken ch => exact ⟨rfl, Or.inr ⟨ch, rfl⟩⟩
    | _ => exact ⟨rfl, Or.inl rfl⟩
  once {l} hl r := by
    cases l with
    | rpc rpc => rfl
    | worker session => cases hl
  undropped {l o} hl hd := by
    cases l with
    | worker session => cases hl
    | rpc rpc =>
      have hsuspends : o.suspends = true := hd
      cases o with
      | pool q => exact ⟨Role.noConfusion, Role.noConfusion⟩
      | cache q => exact ⟨Role.noConfusion, Role.noConfusion⟩
      | lockSession => exact ⟨Role.noConfusion, Role.noConfusion⟩
      | _ => cases hsuspends

/-! ## The methods keep to the discipline -/

/-- A program is disciplined from a phase on. -/
abbrev Disciplined {α : Type} (p : Phase) (prog : Program α) : Prop :=
  prog.Meets (discipline Op.role) (fun p' _ => p' ≠ .holding) p

variable {P cfg session}

/-- The calls a method makes while it holds the mutex are calls into the token. -/
abbrev CallsToken {α : Type} (h : Handler α) : Prop := Only (fun o => o.role = .touch) h.run

/-- Holding the mutex around calls into the token is disciplined. -/
lemma locked_disciplined {α : Type} {body : Handler α} (hbody : CallsToken body) :
    Disciplined .before (Single.locked body).run := by
  refine ⟨True.intro, fun _ _ => ?_⟩
  show Disciplined .holding (ExceptT.lift body.run >>= fun result => do
    Program.unlockSession
    Handler.check result : Handler α).run
  refine (meets_run_bind _ _).mpr ((meets_run_lift _).mpr ?_)
  refine hbody.meets (fun o ho => ?_) fun result => ⟨True.intro, fun _ _ => ?_⟩
  · simp only [discipline, ho]
    exact ⟨True.intro, fun _ => rfl⟩
  · cases result <;> exact Phase.noConfusion

/-- A check leaves the phase alone. -/
lemma check_disciplined {α β : Type} {r : Except Status α} {f : α → Handler β}
    (hf : ∀ a, Disciplined .before (f a).run) : Disciplined .before (Handler.check r >>= f).run := by
  cases r with
  | ok a => exact hf a
  | error st => exact Phase.noConfusion

/-- Finding the object of a label is a call into the token. -/
lemma requireObject_callsToken (session : SessionHandle) (objectClass : ObjectClass)
    (label : String) : CallsToken (Single.requireObject session objectClass label) := by
  refine only_run_bind ⟨rfl, fun _ => only_ret _⟩ fun found => ?_
  rcases found with e | (_ | handle) <;> exact only_ret _

/-- A call whose errors are turned into a status. -/
lemma callOr_callsToken {α : Type} {p : Program (Except CryptokiError α)}
    (hp : Only (fun o => o.role = .touch) p) (f : CryptokiError → Status) :
    CallsToken (Single.callOr p f) := by
  refine only_run_bind (hp.bind fun _ => only_ret _) fun r => ?_
  cases r <;> exact only_ret _

/-- Building the parameters of a cipher is no call at all. -/
lemma gcmParams_callsToken (iv aad : Bytes) : CallsToken (Single.gcmParams P iv aad) := by
  unfold Single.gcmParams
  split <;> exact only_ret _

/-- Every method of the single-session service is disciplined. -/
theorem single_disciplined (rpc : Rpc) : Disciplined .before (Single.single P session rpc) := by
  have hcall : ∀ o : TokenOp, Only (fun o => o.role = .touch) (Program.token o) :=
    fun o => ⟨rfl, fun _ => only_ret _⟩
  cases rpc with
  | sign request =>
    refine check_disciplined fun input => check_disciplined fun prepared => locked_disciplined ?_
    refine only_run_bind (requireObject_callsToken _ _ _) fun key => ?_
    exact only_run_bind (callOr_callsToken (hcall _) _) fun signature => only_ret _
  | verify request =>
    refine check_disciplined fun input => check_disciplined fun prepared => locked_disciplined ?_
    refine only_run_bind (requireObject_callsToken _ _ _) fun key => ?_
    refine only_run_bind ((hcall _).bind fun _ => only_ret _) fun valid => ?_
    split <;> exact only_ret _
  | encrypt request =>
    refine check_disciplined fun _ => ⟨True.intro, fun iv _ => locked_disciplined ?_⟩
    refine only_run_bind (requireObject_callsToken _ _ _) fun key => ?_
    refine only_run_bind (gcmParams_callsToken _ _) fun mechanism => ?_
    exact only_run_bind (callOr_callsToken (hcall _) _) fun ciphertext => only_ret _
  | decrypt request =>
    refine check_disciplined fun _ => check_disciplined fun _ => locked_disciplined ?_
    refine only_run_bind (requireObject_callsToken _ _ _) fun key => ?_
    refine only_run_bind (gcmParams_callsToken _ _) fun mechanism => ?_
    exact only_run_bind (callOr_callsToken (hcall _) _) fun plaintext => only_ret _
  | getPublicKey request =>
    refine locked_disciplined ?_
    refine only_run_bind (requireObject_callsToken _ _ _) fun key => ?_
    refine only_run_bind (Only.bind ?_ fun _ => only_ret _) fun r => ?_
    · refine (Worker.publicKeyToSpkiDer_reads P session key).weaken fun o ho => ?_
      obtain ⟨types, rfl⟩ := ho
      rfl
    · cases r <;> exact only_ret _

/-! ## Every run -/

/-- A start without workers is a start without threads. -/
lemma started_nil {t₀ : ℕ} {token : P.token.State} :
    started P t₀ [] token = Config.initial (Shared.start P t₀ 0 token) := by
  simp [started, Config.initial]

/-- Single mode is linearizable, in every run, with any number of overlapping requests, wherever
they are dropped and however the token is changed by others.

* The token has gone through a serial history: the requests that have been answered, each as a
  whole, in the order of their replies, and then the calls of the request that holds the mutex.
* That history has exactly the replies that were given, each of them once. -/
theorem single_linearizable {t₀ : ℕ} {token : P.token.State}
    {as : List (Action Choice (EnvAction P) Party)}
    {c : Config Op.Ans (Shared P) Party ThreadResult}
    (hrun : (singleProxy P cfg session).run (started P t₀ [] token) as = some c) :
    (∃ t, (sessionGuard P cfg session).Serial token
        ((singleProxy P cfg session).returnsAlong (started P t₀ [] token) as) t ∧
      (c.shared.sessionLock = none → c.shared.token = t) ∧
      ∀ i, c.shared.sessionLock = some i →
        (sessionGuard P cfg session).Performed t (histOf c.trace i) c.shared.token) ∧
    (∀ i rpc reply, (i, .rpc rpc, .reply reply) ∈
        (singleProxy P cfg session).returnsAlong (started P t₀ [] token) as ↔
      replied c i = some (rpc, reply)) ∧
    (((singleProxy P cfg session).returnsAlong (started P t₀ [] token) as).map Prod.fst).Nodup := by
  have hbody : ∀ l, (singleProxy P cfg session).spawnable l →
      ((singleProxy P cfg session).body l).Meets (discipline Op.role) (fun p _ => p ≠ .holding)
        .before := by
    intro l hl
    cases l with
    | rpc rpc => exact (meets_map _ _).mpr (single_disciplined rpc)
    | worker session => cases hl
  rw [started_nil] at hrun ⊢
  have hserving := (Guard.serial (G := sessionGuard P cfg session) hbody rfl hrun)
  refine ⟨hserving.used, fun i rpc reply => ?_, hserving.returns.nodup⟩
  rw [hserving.returns.mem i (.rpc rpc, .reply reply)]
  constructor
  · intro hi
    simp [replied, hi]
  · exact returned_of_replied

end

/-- Two calls of `sign` that overlap: the one that came last takes the mutex first. -/
def signOverlapping : List (Action Choice (EnvAction anyPlatform) Party) :=
  [.spawn (.rpc signCall), .spawn (.rpc signCall)] ++ execs 1 4 .success ++ execs 0 4 .success

/-- They are served in the order in which they took the mutex. -/
theorem single_linearizable_overlapping :
    ∃ (c : Config Op.Ans (Shared anyPlatform) Party ThreadResult)
      (done : List (ℕ × Party × ThreadResult)) (t : Unit),
      (singleProxy anyPlatform (.plain 1 10) 7).run (started _ 0 [] ()) signOverlapping = some c ∧
      (sessionGuard anyPlatform (.plain 1 10) 7).Serial () done t ∧
      done.map Prod.fst = [1, 0] ∧ (1, .rpc signCall, .reply (.ok (.sign ⟨[], "k"⟩))) ∈ done := by
  have hreplied : ((singleProxy anyPlatform (.plain 1 10) 7).run (started _ 0 [] ())
      signOverlapping).map (fun c => replied c 1) =
      some (some (signCall, .ok (.sign ⟨[], "k"⟩))) := by
    decide +kernel
  have horder : ((singleProxy anyPlatform (.plain 1 10) 7).returnsAlong (started _ 0 [] ())
      signOverlapping).map Prod.fst = [1, 0] := by
    decide +kernel
  obtain ⟨c, hrun, hc⟩ := Option.map_eq_some_iff.mp hreplied
  obtain ⟨⟨t, hserial, -⟩, hreplies, -⟩ := single_linearizable hrun
  exact ⟨c, _, t, hrun, hserial, horder, (hreplies 1 signCall _).mpr hc⟩

end HsmProxy
