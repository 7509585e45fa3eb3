import HsmProxy.Grpc.Plan
import HsmProxy.Service.System

/-!
# How a failed load reaches the caller

A failure of the pool reaches a `sign`, `encrypt` or `decrypt` handler as the answer of its own
`Pool::submit`, and a `verify` or `get_public_key` handler through the public key cache, whether it
ran the load itself or waited for another handler's.  This module compares the two paths: the code
of the status the caller gets, and the report the breaker gets.
-/

namespace HsmProxy

open Interleaving Interleaving.Prog

/-! ## What a history says -/

/-- The report an operation makes to the breaker. -/
def Op.report : Op → Option BreakerOp
  | .breaker .recordSuccess => some .recordSuccess
  | .breaker .recordFailure => some .recordFailure
  | _ => none

/-- The reports a history makes to the breaker. -/
def reports (h : List (Event Op.Ans)) : List BreakerOp := h.filterMap fun ev => ev.1.report

/-- The error of a load that an event brings to its handler: as its runner, or as a waiter. -/
def loadError : Event Op.Ans → Option PoolError
  | ⟨.cache (.finish _ (.error e)), _⟩ => some e
  | ⟨.cache (.wait _), .finished (.error e)⟩ => some e
  | _ => none

/-- The error `Pool::submit` ends with after an event. -/
def submitError : Event Op.Ans → Option PoolError
  | ⟨.pool (.trySend _ _), .error .full⟩ => some .overloaded
  | ⟨.pool (.trySend _ _), .error .disconnected⟩ => some .shuttingDown
  | ⟨.pool (.awaitResult _ _), .value (.error e)⟩ => some e
  | ⟨.pool (.awaitResult _ _), .closed⟩ => some .shuttingDown
  | ⟨.pool (.awaitResult _ _), .elapsed⟩ => some .timeout
  | _ => none

/-- What a failing call shows: the code of its status, and its reports to the breaker. -/
def shows (h : List (Event Op.Ans)) (reply : Except Status RpcResponse) :
    Option Code × List BreakerOp :=
  (match reply with
    | .ok _ => none
    | .error st => some st.code, reports h)

/-- The report `observe` makes about a status with this code. -/
def Code.observed : Code → Event Op.Ans
  | .internal => ⟨.breaker .recordFailure, ()⟩
  | .deadlineExceeded => ⟨.breaker .recordFailure, ()⟩
  | _ => ⟨.breaker .recordSuccess, ()⟩

/-- Does this error blame the token? -/
def PoolError.blamesToken : PoolError → Bool
  | .hsm _ _ => true
  | .internal _ => true
  | _ => false

/-! ## The operations a path is judged by -/

/-- The operations that bring the error of a load. -/
def Op.bringsLoad : Op → Bool
  | .cache (.finish _ _) => true
  | .cache (.wait _) => true
  | _ => false

/-- The operations that bring the error of a submission. -/
def Op.bringsSubmit : Op → Bool
  | .pool (.trySend _ _) => true
  | .pool (.awaitResult _ _) => true
  | _ => false

/-- The operations a path is judged by: those that bring its error, and the reports to the
breaker. -/
def Op.marks (brings : Op → Bool) (o : Op) : Bool := brings o || o.report.isSome

section

variable {brings : Op → Bool}

/-- Operations without a mark report nothing. -/
lemma report_of_not_marks {o : Op} (ho : o.marks brings = false) : o.report = none :=
  Option.not_isSome_iff_eq_none.mp (Bool.eq_false_iff.mp (Bool.or_eq_false_iff.mp ho).2)

/-- Operations without a mark bring no error. -/
lemma error_of_not_marks {error : Event Op.Ans → Option PoolError}
    (herror : ∀ o a, brings o = false → error ⟨o, a⟩ = none) {ev : Event Op.Ans}
    (ho : ev.1.marks brings = false) : error ev = none :=
  herror ev.1 ev.2 (Bool.or_eq_false_iff.mp ho).1

/-- The steps of admission have no mark. -/
lemma not_marks_of_admits {o : Op} (hbrings : brings o = false) (ho : o.admits = true) :
    o.marks brings = false := by
  cases o with
  | breaker b => cases b <;> first | exact (Bool.or_false _).trans hbrings | cases ho
  | _ => exact (Bool.or_false _).trans hbrings

/-- Nor have the steps that record a call. -/
lemma not_marks_of_records {o : Op} (hbrings : brings o = false) (ho : o.records = true) :
    o.marks brings = false := by
  cases o with
  | breaker b => cases ho
  | _ => exact (Bool.or_false _).trans hbrings

end

/-- What brings the error of a load. -/
lemma loadError_of_not_brings (o : Op) (a : o.Ans) (ho : o.bringsLoad = false) :
    loadError ⟨o, a⟩ = none := by
  cases o with
  | cache c => cases c <;> first | rfl | cases ho
  | _ => rfl

/-- The steps of a submission have no mark of a load. -/
lemma not_marks_of_submits {o : Op} (ho : o.submits = true) : o.marks Op.bringsLoad = false := by
  cases o with
  | cache c => cases ho
  | breaker b => cases ho
  | _ => rfl

/-- What brings the error of a submission. -/
lemma submitError_of_not_brings (o : Op) (a : o.Ans) (ho : o.bringsSubmit = false) :
    submitError ⟨o, a⟩ = none := by
  cases o with
  | pool q => cases q <;> first | rfl | cases ho
  | _ => rfl

/-- The report on a call that ended in a status. -/
lemma meets_observe_error {K : Op → Bool} {α : Type} {Q : List (Event Op.Ans) → Unit → Prop}
    {g : List (Event Op.Ans)} {st : Status} (hsuccess : K (.breaker .recordSuccess) = true)
    (hfailure : K (.breaker .recordFailure) = true) (hQ : Q (g ++ [st.code.observed]) ()) :
    Meets (Contract.seen K) Q g (observe (.error st : Except Status α)) := by
  obtain ⟨code, message⟩ := st
  cases code with
  | internal => exact meets_seen_call hfailure fun _ => hQ
  | deadlineExceeded => exact meets_seen_call hfailure fun _ => hQ
  | _ => exact meets_seen_call hsuccess fun _ => hQ

/-- The report on a call that succeeded. -/
lemma meets_observe_ok {K : Op → Bool} {α : Type} {Q : List (Event Op.Ans) → Unit → Prop}
    {g : List (Event Op.Ans)} {a : α} (hsuccess : K (.breaker .recordSuccess) = true)
    (hQ : Q (g ++ [⟨.breaker .recordSuccess, ()⟩]) ()) :
    Meets (Contract.seen K) Q g (observe (.ok a : Except Status α)) :=
  meets_seen_call hsuccess fun _ => hQ

/-! ## Through the cache -/

section

variable (P : Platform) (cfg : ServiceConfig)

/-- What a key lookup has seen when it ends: the error it ends with, and no report yet. -/
def LoadSeen {α : Type} (g : List (Event Op.Ans)) (r : Except PoolError α) : Prop :=
  (g.filterMap loadError = match r with
    | .error e => [e]
    | .ok _ => []) ∧ reports g = []

/-- Nothing to report, and no error seen yet. -/
def Unmarked (g : List (Event Op.Ans)) : Prop := g.filterMap loadError = [] ∧ reports g = []

/-- A load run by its caller is seen when its outcome is published. -/
lemma runLoad_seen (k : ℕ) (keyLabel : String) {g : List (Event Op.Ans)} (hg : Unmarked g) :
    Meets (Contract.seen (Op.marks Op.bringsLoad)) LoadSeen g
      (runLoad k (loadPublicKey cfg keyLabel)) := by
  rw [meets_runLoad]
  refine (submit_only cfg _).meets_seen (fun o ho => ?_) fun r => ?_
  · exact not_marks_of_submits ho
  · refine ⟨True.intro, fun _ _ => ?_⟩
    have hrep : reports (g ++ [⟨.cache (.finish k (loadOutcome r)), ()⟩]) = [] := by
      simpa [reports, Op.report] using hg.2
    refine ⟨?_, hrep⟩
    rw [Contract.seen_keep rfl, List.filterMap_append, hg.1]
    cases loadOutcome r <;> rfl

/-- A caller of the cache sees the error of the load it ran or joined. -/
lemma tryGetWith_seen (keyLabel : String) :
    Meets (Contract.seen (Op.marks Op.bringsLoad)) LoadSeen []
      (tryGetWith keyLabel (loadPublicKey cfg keyLabel)) := by
  refine meets_seen_skip rfl fun entered => ?_
  cases entered with
  | hit value => exact ⟨rfl, rfl⟩
  | own k => exact runLoad_seen cfg k keyLabel ⟨rfl, rfl⟩
  | join k =>
    refine meets_seen_call rfl fun joined => ?_
    cases joined with
    | finished outcome => cases outcome <;> exact ⟨rfl, rfl⟩
    | own => exact runLoad_seen cfg k keyLabel ⟨rfl, rfl⟩

/-- A caller of `get_or_load` sees the error of the load it ran or joined. -/
lemma getOrLoad_seen (keyLabel : String) :
    Meets (Contract.seen (Op.marks Op.bringsLoad)) LoadSeen []
      (getOrLoad keyLabel (loadPublicKey cfg keyLabel)) := by
  refine meets_getOrLoad (fun g o ho => Contract.seen_skip ?_)
    ((tryGetWith_seen cfg keyLabel).mono fun g r hr wasPresent => ?_)
  · cases o with
    | cache q => cases q <;> first | rfl | exact absurd ho Bool.false_ne_true
    | _ => exact absurd ho Bool.false_ne_true
  · cases r <;> exact hr

/-- What a caller of the cache path shows when it has seen an error. -/
def ShowsInternal {α : Type} (g : List (Event Op.Ans)) (r : Except Status α) : Prop :=
  g.filterMap loadError ≠ [] →
    (∃ st, r = .error st ∧ st.code = .internal) ∧ reports g = [.recordFailure]

/-- Every error of a load is rebuilt as an internal one before it is mapped to a status. -/
lemma publicKey_shows (keyLabel : String) :
    Meets (Contract.seen (Op.marks Op.bringsLoad)) ShowsInternal [] (publicKey P cfg keyLabel).run := by
  rw [meets_publicKey]
  refine (getOrLoad_seen cfg keyLabel).mono fun g r hr => ?_
  obtain ⟨herr, hrep⟩ := hr
  cases r with
  | error e =>
    refine meets_observe_error rfl rfl fun _ => ⟨⟨_, rfl, rfl⟩, ?_⟩
    show reports (g ++ [⟨.breaker .recordFailure, ()⟩]) = _
    simp only [reports, List.filterMap_append]
    rw [show g.filterMap (fun ev => ev.1.report) = [] from hrep]
    rfl
  | ok found =>
    refine meets_observe_ok rfl fun hne => ?_
    refine absurd ?_ hne
    rw [List.filterMap_append, herr]
    rfl

/-- The path through the cache: whatever the error, the caller gets an internal status, and the
breaker a failure. -/
theorem cache_path_shows {rpc : Rpc} {tr : List (Event Op.Ans)} {reply : Except Status RpcResponse}
    (hrun : Runs (pooled P cfg rpc) tr reply) {e : PoolError} (he : e ∈ tr.filterMap loadError) :
    shows tr reply = (some .internal, [.recordFailure]) := by
  have hmeets : Meets (Contract.seen (Op.marks Op.bringsLoad)) ShowsInternal [] (pooled P cfg rpc) := by
    refine meets_pooled P cfg (fun g o ho => Contract.seen_skip ?_)
      (fun g o ho => Contract.seen_skip ?_) (fun st hne => absurd rfl hne) fun p hp => ?_
    · exact not_marks_of_admits (by cases o <;> first | rfl | cases ho) ho
    · exact not_marks_of_records (by cases o <;> first | rfl | cases ho) ho
    · cases p with
      | job drawsIv request finish =>
        rw [meets_perform_job]
        refine (drawIv_only drawsIv).meets_seen (fun o ho => by rw [ho]; rfl) fun iv => ?_
        rw [meets_submitObserved]
        refine (submit_only cfg _).meets_seen (fun o ho => ?_) fun r => ?_
        · exact not_marks_of_submits ho
        · cases r with
          | error e =>
            refine meets_observe_error rfl rfl fun hne => absurd ?_ hne
            cases e <;> rfl
          | ok response => exact meets_observe_ok rfl fun hne => absurd rfl hne
      | key finish =>
        rw [meets_perform_key]
        refine (publicKey_shows P cfg rpc.keyLabel).mono fun g r hr hne => ?_
        obtain ⟨⟨st, rfl, hcode⟩, hrep⟩ := hr hne
        exact ⟨⟨st, rfl, hcode⟩, hrep⟩
  have hseen := forall_runs_seen_iff.mpr hmeets tr reply hrun
  rw [ShowsInternal, reports, Contract.filterMap_seen fun ev => error_of_not_marks loadError_of_not_brings,
    Contract.filterMap_seen fun ev => report_of_not_marks] at hseen
  obtain ⟨⟨st, rfl, hcode⟩, hrep⟩ := hseen (List.ne_nil_of_mem he)
  rw [shows, reports, hrep, hcode]

/-! ## Through an own job -/

/-- What a submission has seen when it ends: the error it ends with, and no report yet. -/
lemma submit_seen (request : JobRequest) :
    Meets (Contract.seen (Op.marks Op.bringsSubmit))
      (fun g r => (g.filterMap submitError = match r with
        | .error e => [e]
        | .ok _ => []) ∧ reports g = []) [] (submit cfg request) := by
  refine meets_seen_skip rfl fun _ => meets_seen_skip rfl fun _ => meets_seen_call rfl fun sent => ?_
  cases sent with
  | error refusal =>
    cases refusal with
    | full => exact meets_seen_skip rfl fun _ => ⟨rfl, rfl⟩
    | disconnected => exact ⟨rfl, rfl⟩
  | ok job =>
    refine meets_seen_skip rfl fun _ => meets_seen_call rfl fun awaited => ?_
    cases awaited with
    | value result => cases result <;> exact ⟨rfl, rfl⟩
    | closed => exact ⟨rfl, rfl⟩
    | elapsed => exact meets_seen_skip rfl fun _ => ⟨rfl, rfl⟩

/-- What a handler shows when its own submission has failed with `e`. -/
def ShowsOwn {α : Type} (g : List (Event Op.Ans)) (r : Except Status α) : Prop :=
  ∀ e ∈ g.filterMap submitError,
    r = .error (toStatus e) ∧ reports g = reports [(toStatus e).code.observed]

/-- The path of an own job: the caller gets the status of the error, and the breaker the report
that goes with it. -/
theorem own_job_shows {rpc : Rpc} {tr : List (Event Op.Ans)} {reply : Except Status RpcResponse}
    (hown : rpc.readsPublicKey = false) (hrun : Runs (pooled P cfg rpc) tr reply) {e : PoolError}
    (he : e ∈ tr.filterMap submitError) :
    shows tr reply = (some (toStatus e).code, reports [(toStatus e).code.observed]) := by
  have hmeets : Meets (Contract.seen (Op.marks Op.bringsSubmit)) ShowsOwn [] (pooled P cfg rpc) := by
    refine meets_pooled P cfg (fun g o ho => Contract.seen_skip ?_)
      (fun g o ho => Contract.seen_skip ?_) (fun st e he => absurd he List.not_mem_nil)
      fun p hp => ?_
    · exact not_marks_of_admits (by cases o <;> first | rfl | cases ho) ho
    · exact not_marks_of_records (by cases o <;> first | rfl | cases ho) ho
    · cases p with
      | job drawsIv request finish =>
        rw [meets_perform_job]
        refine (drawIv_only drawsIv).meets_seen (fun o ho => by rw [ho]; rfl) fun iv => ?_
        rw [meets_submitObserved]
        refine (submit_seen cfg _).mono fun g r hr => ?_
        obtain ⟨herr, hrep⟩ := hr
        cases r with
        | error e =>
          refine meets_observe_error rfl rfl fun e' he' => ?_
          have hobserved : submitError (toStatus e).code.observed = none := by
            cases (toStatus e).code <;> rfl
          rw [List.filterMap_append, herr] at he'
          obtain rfl : e' = e := by simpa [hobserved] using he'
          refine ⟨rfl, ?_⟩
          simp only [reports, List.filterMap_append] at hrep ⊢
          rw [hrep]
          rfl
        | ok response =>
          refine meets_observe_ok rfl fun e' he' => ?_
          rw [List.filterMap_append, herr] at he'
          exact absurd he' List.not_mem_nil
      | key finish => rw [plan_key P hp] at hown; cases hown
  have hseen := forall_runs_seen_iff.mpr hmeets tr reply hrun
  rw [ShowsOwn, reports, Contract.filterMap_seen fun ev => error_of_not_marks submitError_of_not_brings,
    Contract.filterMap_seen fun ev => report_of_not_marks] at hseen
  obtain ⟨rfl, hrep⟩ := hseen e he
  rw [shows, reports, hrep]

/-! ## The two paths compared -/

variable {P cfg} {t₀ t₁ : ℕ} {sessions sessions' : List SessionHandle}
  {token token' : P.token.State} {as as' : List (Action Choice (EnvAction P) Party)}
  {c c' : Config Op.Ans (Shared P) Party ThreadResult}

/-- In any run of the proxy let call `i` receive the error `e` of a key load, run by itself or by
another call, and in the same or another run let `e` end the own submission of call `j`.  The two
calls show the same status code and make the same report exactly when `e` blames the token. -/
theorem error_class_preserved_iff
    (hrun : (pooledProxy P cfg).run (started P t₀ sessions token) as = some c)
    (hrun' : (pooledProxy P cfg).run (started P t₁ sessions' token') as' = some c')
    {i j : ℕ} {lookup own : Rpc} {reply reply' : Except Status RpcResponse}
    (hi : replied c i = some (lookup, reply)) (hj : replied c' j = some (own, reply'))
    (hown : own.readsPublicKey = false)
    {e : PoolError} (hne : ∀ label, e ≠ .keyNotFound label)
    (he : e ∈ (histOf c.trace i).filterMap loadError)
    (he' : e ∈ (histOf c'.trace j).filterMap submitError) :
    shows (histOf c.trace i) reply = shows (histOf c'.trace j) reply' ↔ e.blamesToken := by
  rw [cache_path_shows P cfg (runs_of_reply hrun hi) he,
    own_job_shows P cfg hown (runs_of_reply hrun' hj) he']
  cases e with
  | keyNotFound label => exact absurd rfl (hne label)
  | hsm operation source => exact iff_of_true rfl rfl
  | internal message => exact iff_of_true rfl rfl
  | _ => refine iff_of_false (fun h => ?_) Bool.false_ne_true; cases h

end

/-- A key lookup and a signature whose jobs both fail in `C_FindObjects`. -/
def failingSearches : List (Action Choice (EnvAction anyPlatform) Party) :=
  let failing := Choice.failing (.pkcs11 .deviceError)
  [.exec 0 .success, .spawn (.rpc lookupCall)] ++ execs 1 7 .success ++ execs 0 10 failing ++
    execs 1 4 .success ++ [.again 0, .spawn (.rpc signCall)] ++ execs 2 5 .success ++
    execs 0 10 failing ++ execs 2 3 .success

/-- Here the two paths agree. -/
theorem error_class_preserved_failing_searches :
    ∃ c : Config Op.Ans (Shared anyPlatform) Party ThreadResult,
      (pooledProxy anyPlatform (.plain 1 10)).run (started _ 0 [7] ()) failingSearches = some c ∧
      shows (histOf c.trace 1) (.error (.internal "internal error")) =
        shows (histOf c.trace 2) (.error (.internal "internal error")) := by
  have hfacts : ((pooledProxy anyPlatform (.plain 1 10)).run (started _ 0 [7] ())
      failingSearches).map (fun c => ([replied c 1, replied c 2],
        [(histOf c.trace 1).filterMap loadError, (histOf c.trace 2).filterMap submitError])) =
      some ([some (lookupCall, .error (.internal "internal error")),
        some (signCall, .error (.internal "internal error"))],
        [[.internal "C_FindObjects failed"], [.internal "C_FindObjects failed"]]) := by
    decide +kernel
  obtain ⟨c, hrun, hc⟩ := Option.map_eq_some_iff.mp hfacts
  simp only [Prod.mk.injEq, List.cons.injEq, and_true] at hc
  obtain ⟨⟨hi, hj⟩, he, he'⟩ := hc
  have hagree := error_class_preserved_iff hrun hrun hi hj rfl (e := .internal "C_FindObjects failed")
    (fun label => PoolError.noConfusion) (by rw [he]; exact List.mem_singleton_self _)
    (by rw [he']; exact List.mem_singleton_self _)
  exact ⟨c, hrun, hagree.mpr rfl⟩

/-- A lookup of a key that is not cached meets a full queue, and so does another lookup that waits
for it; then a signature meets it. -/
def coldKeyFullQueue : List (Action Choice (EnvAction anyPlatform) Party) :=
  [.spawn (.rpc lookupCall)] ++ execs 1 3 .success ++ [.spawn (.rpc lookupCall)] ++
    execs 2 3 .success ++ execs 1 7 .success ++ execs 2 3 .success ++ [.spawn (.rpc signCall)] ++
    execs 3 8 .success

/-- The same overload is an internal error and a failure of the token for both lookups, and an
exhausted resource and no failure for the signature. -/
theorem error_class_lost_full_queue :
    ((pooledProxy anyPlatform (.plain 0 10)).run (started _ 0 [7] ()) coldKeyFullQueue).map
      (fun c => [1, 2].map fun i => ((histOf c.trace i).filterMap loadError,
        (replied c i).map fun r => shows (histOf c.trace i) r.2)) =
      some (List.replicate 2 ([.overloaded], some (some .internal, [.recordFailure]))) ∧
    ((pooledProxy anyPlatform (.plain 0 10)).run (started _ 0 [7] ()) coldKeyFullQueue).map
      (fun c => ((histOf c.trace 3).filterMap submitError,
        (replied c 3).map fun r => shows (histOf c.trace 3) r.2)) =
      some ([.overloaded], some (some .resourceExhausted, [.recordSuccess])) := by
  refine ⟨by decide +kernel, by decide +kernel⟩

end HsmProxy
