import HsmProxy.Grpc.Plan
import HsmProxy.Pkcs11.WorkerSteps
import HsmProxy.Service.Steps

/-!
# Recovery of a dead session

A worker is meant to reopen its session before its next job whenever a call of a job has failed with
a session-fatal error.  `execute` looks for such an error in `PoolError::Hsm`, but `handle` and
`public_key_to_spki_der` turn theirs into `PoolError::Internal`.  `RecoveryLog` keeps the two apart:
whether any call has failed so since the last attempt to reopen, and whether a lookup has.
`reset_before_next_job_iff` says that the two agree whenever a job has been executed and whenever a
worker asks for the next one, so that a failure goes unnoticed exactly when it is one of a lookup.
-/

namespace HsmProxy

open Interleaving Interleaving.Prog

/-- A lookup of an object, or of its attributes, failed with a session-fatal error. -/
def fatalLookup : Event Op.Ans → Bool
  | ⟨.token (.findObjects _ _ _), .error e⟩ => isSessionFatal e
  | ⟨.token (.getAttributes _ _ _), .error e⟩ => isSessionFatal e
  | _ => false

/-- An operation with a key failed with a session-fatal error. -/
def fatalOperation : Event Op.Ans → Bool
  | ⟨.token (.sign _ _ _ _), .error e⟩ => isSessionFatal e
  | ⟨.token (.verify _ _ _ _ _), .error e⟩ => isSessionFatal e
  | ⟨.token (.encrypt _ _ _ _), .error e⟩ => isSessionFatal e
  | ⟨.token (.decrypt _ _ _ _), .error e⟩ => isSessionFatal e
  | _ => false

/-- What a history says about the session: since the last attempt to open one, has a call failed
with a session-fatal error, and has a lookup? -/
structure RecoveryLog where
  dead : Bool
  lookupDead : Bool
  deriving DecidableEq

namespace RecoveryLog

/-- The session is in order. -/
def alive : RecoveryLog := ⟨false, false⟩

/-- One more event. -/
def note (g : RecoveryLog) (ev : Event Op.Ans) : RecoveryLog :=
  if ev.1 = .token .openRwSession then alive
  else ⟨g.dead || fatalLookup ev || fatalOperation ev, g.lookupDead || fatalLookup ev⟩

/-- Every failure but those of lookups has been noticed: a session that has died has died in a
lookup. -/
def Noticed (g : RecoveryLog) : Prop := g.dead = g.lookupDead

/-- A session in order has not died. -/
lemma noticed_alive : alive.Noticed := rfl

/-- An event that is not a failed operation keeps the two in step. -/
lemma Noticed.note {g : RecoveryLog} (hg : g.Noticed) {ev : Event Op.Ans}
    (hoperation : fatalOperation ev = false) : (g.note ev).Noticed := by
  unfold RecoveryLog.note
  split
  · rfl
  · show (g.dead || fatalLookup ev || fatalOperation ev) = (g.lookupDead || fatalLookup ev)
    rw [hoperation, Bool.or_false, hg]

end RecoveryLog

/-- What a history says about the session. -/
def recoveryLog (h : List (Event Op.Ans)) : RecoveryLog := h.foldl RecoveryLog.note .alive

/-! ## The execution of one job -/

section

variable (P : Platform)

/-- The contract that keeps the log. -/
abbrev recoveryWatch : Contract Op.Ans RecoveryLog :=
  Contract.watch .alive fun g o a => g.note ⟨o, a⟩

variable {g : RecoveryLog}

/-- An operation that does not ask for a reset has not failed for good. -/
lemma operation_recovery (hg : g.Noticed) (request : JobRequest) (session : SessionHandle)
    (key : ObjectHandle) :
    (Worker.operation P request session key).Meets recoveryWatch
      (fun g' result => Worker.needsReset result = false → g'.Noticed) g := by
  have herror : ∀ {o : Op} (a : o.Ans) (e : CryptokiError), isSessionFatal e = false →
      fatalOperation ⟨o, a⟩ = isSessionFatal e → (g.note ⟨o, a⟩).Noticed :=
    fun a e hfatal hoperation => hg.note (hoperation.trans hfatal)
  cases request with
  | sign label algorithm payload =>
    refine ⟨True.intro, fun answer _ hreset => ?_⟩
    cases answer with
    | error e => exact herror _ e hreset rfl
    | ok bytes => exact hg.note rfl
  | verify label algorithm payload signature =>
    refine ⟨True.intro, fun answer _ hreset => ?_⟩
    rcases answer with (rv | message) | u
    · cases rv <;> first | exact hg.note rfl | cases hreset
    · exact hg.note rfl
    · exact hg.note rfl
  | encrypt label plaintext associatedData iv =>
    simp only [Worker.operation]
    split
    · exact fun _ => hg
    · refine ⟨True.intro, fun answer _ hreset => ?_⟩
      cases answer with
      | error e => exact herror _ e hreset rfl
      | ok bytes => exact hg.note rfl
  | decrypt label ciphertext associatedData iv =>
    simp only [Worker.operation]
    split
    · exact fun _ => hg
    · refine ⟨True.intro, fun answer _ hreset => ?_⟩
      rcases answer with (rv | message) | bytes
      · cases rv <;> first | exact hg.note rfl | cases hreset
      · exact hg.note rfl
      · exact hg.note rfl
  | getPublicKey label =>
    simp only [Worker.operation, meets_map]
    refine (Worker.publicKeyToSpkiDer_reads P session key).meets_of_invariant
      (J := RecoveryLog.Noticed) (fun g' o hg' ho => ⟨True.intro, fun a => ?_⟩) hg
      fun g' exported hg' _ => hg'
    obtain ⟨types, rfl⟩ := ho
    exact hg'.note rfl

/-- A reset attempts to open a session. -/
lemma resetSession_recovery (w : Worker) :
    (Worker.resetSession P w).Meets recoveryWatch (fun g' _ => g'.Noticed) g := by
  have hkeep : ∀ (g' : RecoveryLog) (o : Op), g'.Noticed → Worker.resets o →
      recoveryWatch.pre g' o ∧ ∀ a, (recoveryWatch.next g' o a).Noticed := by
    intro g' o hg' ho
    refine ⟨True.intro, fun a => hg'.note ?_⟩
    cases o with
    | token t => cases t <;> first | rfl | cases ho
    | _ => rfl
  obtain ⟨-, hrest⟩ := Worker.resetSession_only P w
  refine ⟨True.intro, fun u _ => ?_⟩
  obtain ⟨-, hrest⟩ := hrest u
  refine ⟨True.intro, fun opened _ => ?_⟩
  exact (hrest opened).meets_of_invariant (J := RecoveryLog.Noticed) hkeep rfl fun _ _ h => h

/-- After the execution of a job, a session that has died has died in a lookup. -/
lemma execute_recovery (hg : g.Noticed) (w : Worker) (request : JobRequest) :
    (Worker.execute P w request).Meets recoveryWatch (fun g' _ => g'.Noticed) g := by
  refine Worker.meets_execute (fun g' _ _ => g'.Noticed) (fun g' _ _ => g'.Noticed)
    (fun g' _ result => Worker.needsReset result = false → g'.Noticed) ?_
    (fun _ _ _ hg' => hg') (fun g' w' key hg' => operation_recovery P hg' request w'.session key)
    (fun _ _ _ hfine hresult => hresult hfine) fun _ w' _ _ => resetSession_recovery P w'
  refine Worker.meets_resolve ⟨True.intro, fun _ _ => hg.note rfl⟩ True.intro
    fun _ => ⟨True.intro, fun found _ => ?_⟩
  have hmissed : (g.note ⟨.pool (.count .handleCacheMisses 1), ()⟩).Noticed := hg.note rfl
  have hfound : RecoveryLog.Noticed (RecoveryLog.note _ ⟨.token
      (.findObjects w.session request.kind.objectClass request.keyLabel), found⟩) := hmissed.note rfl
  exact ⟨fun _ _ => hfound, fun _ _ => hfound⟩

end

/-! ## Every run -/

/-- When a worker asks for a job, a session that has died has died in a lookup. -/
def recoveryContract (party : Party) : Contract Op.Ans RecoveryLog where
  init := .alive
  next g o a := g.note ⟨o, a⟩
  pre g o := match party with
    | .rpc _ => o.ofHandler
    | .worker _ => o = .pool .poll ∨ o = .pool .unpark → g.Noticed
  post _ _ _ := True

/-- Steps that are not the start of a round, and not failed operations. -/
lemma recoveryContract_other (session : SessionHandle) {g : RecoveryLog} {o : Op}
    (hpoll : o ≠ .pool .poll) (hunpark : o ≠ .pool .unpark) (hg : g.Noticed)
    (ho : ∀ a, fatalOperation ⟨o, a⟩ = false) :
    (recoveryContract (.worker session)).pre g o ∧
      ∀ a, ((recoveryContract (.worker session)).next g o a).Noticed :=
  ⟨fun h => absurd h (not_or.mpr ⟨hpoll, hunpark⟩), fun a => hg.note (ho a)⟩

section

variable (P : Platform)

/-- A round of a worker keeps to the contract. -/
theorem iterate_recovery {session : SessionHandle} (w : Worker) {g : RecoveryLog} (hg : g.Noticed) :
    (Worker.iterate P w).Meets (recoveryContract (.worker session))
      (fun g' _ => g'.Noticed) g := by
  have hother : ∀ {o : Op}, Worker.executes o ∨ Worker.accounts o →
      o ≠ .pool .poll ∧ o ≠ .pool .unpark := by
    intro o ho
    constructor <;> rintro rfl <;> rcases ho with ho | ho <;> cases ho
  have hquiet : ∀ {g : RecoveryLog} {o : Op}, g.Noticed → o ≠ .pool .poll → o ≠ .pool .unpark →
      (recoveryContract (.worker session)).pre g o :=
    fun _ hpoll hunpark h => absurd h (not_or.mpr ⟨hpoll, hunpark⟩)
  refine Worker.meets_iterate (fun g' _ => g'.Noticed)
    (fun _ g' _ => g'.Noticed) ?_ (fun g' job hg' => ?_) (fun g' job r hg' => ?_)
    fun g' hg' => ?_
  · exact Worker.meets_recv (fun _ => hg) (fun _ _ => hg.note rfl) (fun _ => hg.note rfl)
      fun _ => ⟨fun _ => hg.note rfl, fun _ _ => (hg.note rfl).note rfl⟩
  · refine ⟨hquiet hg' nofun nofun, fun started => ?_⟩
    refine (Worker.execute_only P w job.request).meets_runs (fun g o ho h => ?_) fun tr r hr _ => ?_
    · exact absurd h (not_or.mpr (hother (Or.inl ho)))
    · have hstarted : (g'.note ⟨.now, started⟩).Noticed := hg'.note rfl
      exact meets_watch_iff.mp (execute_recovery P hstarted w job.request) tr r hr
  · refine ⟨hquiet hg' nofun nofun, fun started finished => ?_⟩
    refine (Worker.account_only job started finished r.1).meets_of_invariant
      (J := RecoveryLog.Noticed) (fun g o hg ho => ?_) (hg'.note rfl) fun _ _ h => h
    obtain ⟨hpoll, hunpark⟩ := hother (Or.inr ho)
    refine recoveryContract_other session hpoll hunpark hg fun a => ?_
    cases o <;> first | rfl | cases ho
  · refine ⟨hquiet hg' nofun nofun, fun answer _ => ?_⟩
    have hlogout : (g'.note ⟨.token (.logout w.session), answer⟩).Noticed := hg'.note rfl
    exact ⟨hquiet hlogout nofun nofun, fun _ _ => hlogout.note rfl⟩

end

section

variable {P : Platform} {cfg : ServiceConfig} {t₀ : ℕ} {sessions : List SessionHandle}
  {token : P.token.State} {as : List (Action Choice (EnvAction P) Party)}
  {c : Config Op.Ans (Shared P) Party ThreadResult}
  {serve : Rpc → Program (Except Status RpcResponse)}

/-- Whenever a worker asks for a job, a session that has died has died in a lookup. -/
lemma noticed_at_poll (hserve : ∀ rpc, Only (fun o => o.ofHandler) (serve rpc))
    (hrun : (proxy P cfg serve).run (started P t₀ sessions token) as = some c)
    {en : Entry Op.Ans (Shared P) Party} (hen : en ∈ c.trace)
    (hpoll : en.event.1 = .pool .poll ∨ en.event.1 = .pool .unpark) :
    (recoveryLog en.hist).Noticed := by
  have hsound : System.Sound (proxy P cfg serve) (fun _ _ => True) recoveryContract
      (fun party g _ => ∀ session, party = .worker session → g.Noticed) (fun _ _ => True) := by
    refine proxy_sound (fun rpc => ?_) (fun session g w hg => ?_)
      (fun c i e l o k a s' _ _ _ _ _ => ⟨True.intro, True.intro⟩)
      (fun c i l o k _ _ _ _ => True.intro)
      fun c v _ _ => True.intro
    · exact (hserve rpc).meets_of_invariant (J := fun _ => True)
        (fun g o _ ho => ⟨ho, fun _ => True.intro⟩) True.intro fun _ _ _ session h => by cases h
    · exact (iterate_recovery P w (hg session rfl)).mono fun g' r hg' _ _ => hg'
  have hc := hsound.obeying.run (outline_started (fun session => ?_)
    ⟨True.intro, fun en hen => absurd hen List.not_mem_nil⟩) (System.throughout_true _ as) hrun
  · have hpre := hc.inv.2 en hen
    obtain ⟨tid, label, hist, before, o, a⟩ := en
    cases label with
    | worker session => exact hpre hpoll
    | rpc rpc =>
      have ho : o.ofHandler = true := hpre
      have hpoll : o = .pool .poll ∨ o = .pool .unpark := hpoll
      rcases hpoll with rfl | rfl <;> cases ho
  · exact (iterate_recovery P _ RecoveryLog.noticed_alive).mono fun g' r hg' _ _ => hg'

/-- Every session-fatal failure of a call is followed by an attempt to reopen the session, within
the execution of its job and before the worker asks for the next one, exactly as long as it is not
one of a lookup: for every execution of every request by any worker, and whenever a worker asks for
a job in a run with any handlers. -/
theorem reset_before_next_job_iff (hserve : ∀ rpc, Only (fun o => o.ofHandler) (serve rpc))
    (hrun : (proxy P cfg serve).run (started P t₀ sessions token) as = some c) :
    (∀ w request calls result w', Runs (Worker.execute P w request) calls (result, w') →
      ((recoveryLog calls).dead = false ↔ (recoveryLog calls).lookupDead = false)) ∧
    ∀ en ∈ c.trace, en.event.1 = .pool .poll ∨ en.event.1 = .pool .unpark →
      ((recoveryLog en.hist).dead = false ↔ (recoveryLog en.hist).lookupDead = false) := by
  constructor
  · intro w request calls result w' hruns
    have hnoticed : (recoveryLog calls).Noticed :=
      meets_watch_iff.mp (execute_recovery P RecoveryLog.noticed_alive w request) calls _ hruns
    rw [hnoticed]
  · intro en hen hpoll
    have hnoticed : (recoveryLog en.hist).Noticed := noticed_at_poll hserve hrun hen hpoll
    rw [hnoticed]

end

/-- The entries of a trace at which a worker asks for a job although its session has died. -/
def asksOnDeadSession {S : Type} (tr : List (Entry Op.Ans S Party)) : List (Entry Op.Ans S Party) :=
  tr.filter fun en => decide (en.event.1 = .pool .poll ∨ en.event.1 = .pool .unpark) &&
    (recoveryLog en.hist).dead

/-- A `sign` job whose `C_Sign` fails for good; the worker asks for the next job. -/
def deadInSign : List (Action Choice (EnvAction anyPlatform) Party) :=
  [.exec 0 .success, .spawn (.rpc signCall)] ++ execs 1 5 .success ++ execs 0 4 .success ++
    [.exec 0 (.failing (.pkcs11 .sessionClosed))] ++ execs 0 10 .success ++
      [.again 0, .exec 0 .success]

/-- The session was reset in between. -/
theorem reset_before_next_job_dead_in_sign :
    ∃ c : Config Op.Ans (Shared anyPlatform) Party ThreadResult,
      (pooledProxy anyPlatform (.plain 1 10)).run (started _ 0 [7] ()) deadInSign = some c ∧
      c.shared.pool.counters .sessionResets = 1 ∧
      ∀ en ∈ c.trace, en.event.1 = .pool .poll ∨ en.event.1 = .pool .unpark →
        ((recoveryLog en.hist).dead = false ↔ (recoveryLog en.hist).lookupDead = false) := by
  have hresets : ((pooledProxy anyPlatform (.plain 1 10)).run (started _ 0 [7] ())
      deadInSign).map (fun c => c.shared.pool.counters .sessionResets) = some 1 := by
    decide +kernel
  obtain ⟨c, hrun, hc⟩ := Option.map_eq_some_iff.mp hresets
  exact ⟨c, hrun, hc, (reset_before_next_job_iff (pooled_only anyPlatform _) hrun).2⟩

/-- A `sign` job whose `C_FindObjects` fails for good; the worker asks for the next job. -/
def deadInSearch : List (Action Choice (EnvAction anyPlatform) Party) :=
  [.exec 0 .success, .spawn (.rpc signCall)] ++ execs 1 5 .success ++
    execs 0 10 (.failing (.pkcs11 .sessionHandleInvalid)) ++ [.again 0, .exec 0 .success]

/-- It asks on the dead session, without a reset. -/
theorem no_reset_dead_in_search :
    ((pooledProxy anyPlatform (.plain 1 10)).run (started _ 0 [7] ()) deadInSearch).map
      (fun c => (c.shared.pool.counters .sessionResets, (asksOnDeadSession c.trace).length)) =
      some (0, 1) := by
  decide +kernel

end HsmProxy
