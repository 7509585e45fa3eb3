import HsmProxy.Grpc.Plan
import HsmProxy.Pkcs11.Login
import HsmProxy.Pkcs11.WorkerSteps
import Mathlib.Algebra.Order.BigOperators.Group.Finset

/-!
# Open sessions

A worker opens sessions when it starts and when it recovers from a failure, and the module has only
so many of them to give.  `login_session` closes the session on which the login was refused,
`reset_session` closes the old session once there is a new one, and a worker that leaves closes the
one it has.  `sessions_not_leaked`: however often workers fail and recover, a pool of `n` workers has
at most `2 * n` sessions open, and between rounds only those that its workers work with.
-/

namespace HsmProxy

open Interleaving Interleaving.Prog

/-! ## Holding sessions -/

/-- The sessions that are open after one more call. -/
def heldAfter (held : List SessionHandle) : Event Op.Ans → List SessionHandle
  | ⟨.token .openRwSession, .ok session⟩ => session :: held
  | ⟨.token (.closeSession session), _⟩ => held.erase session
  | _ => held

/-- The sessions a thread has opened and not closed. -/
def sessionsHeld (h : List (Event Op.Ans)) : List SessionHandle := h.foldl heldAfter []

/-- One more call. -/
lemma sessionsHeld_snoc (h : List (Event Op.Ans)) (ev : Event Op.Ans) :
    sessionsHeld (h ++ [ev]) = heldAfter (sessionsHeld h) ev := by
  rw [sessionsHeld, List.foldl_append]
  rfl

/-- The calls that open and close sessions. -/
def Op.handlesSessions : Op → Bool
  | .token .openRwSession => true
  | .token (.closeSession _) => true
  | _ => false

/-- The other steps leave the sessions alone. -/
lemma heldAfter_of_not {o : Op} (ho : o.handlesSessions = false) (held : List SessionHandle)
    (a : o.Ans) : heldAfter held ⟨o, a⟩ = held := by
  cases o with
  | token q => cases q <;> first | rfl | cases ho
  | _ => rfl

/-- Dropping a session, the last one or not. -/
lemma LoginState.sessions_drop (s : LoginState) (session : SessionHandle) :
    (s.drop session).sessions = s.sessions.erase session := by
  unfold drop
  split
  · rename_i hlast
    rw [hlast]
    exact (List.erase_cons_head session []).symm
  · rfl

/-- The token's list of open sessions changes as that of a thread does. -/
lemma LoginState.sessions_of_answer {s s' : LoginState} {q : TokenOp} {a : q.Ans}
    (h : s.answer q a = some s') : s'.sessions = heldAfter s.sessions ⟨.token q, a⟩ := by
  cases q with
  | openRwSession =>
    cases a <;> simp only [answer] at h <;> split at h <;> cases h <;> rfl
  | login session =>
    cases a <;> simp only [answer] at h <;> split at h <;> cases h <;> rfl
  | logout session =>
    cases a with
    | error e =>
      cases h
      rfl
    | ok u =>
      simp only [answer] at h
      split at h <;> cases h
      rfl
  | closeSession session =>
    cases h
    exact s.sessions_drop session
  | _ =>
    cases h
    rfl

/-- The sessions are distinct: an open one is not given out again. -/
lemma LoginState.nodup_of_answer {s s' : LoginState} {q : TokenOp} {a : q.Ans}
    (hs : s.sessions.Nodup) (h : s.answer q a = some s') : s'.sessions.Nodup := by
  by_cases hq : (Op.token q).handlesSessions = false
  · rw [sessions_of_answer h, heldAfter_of_not hq]
    exact hs
  · cases q with
    | openRwSession =>
      cases a with
      | error e =>
        rw [sessions_of_answer h]
        exact hs
      | ok session =>
        simp only [answer] at h
        split at h
        · cases h
        · rename_i hnew
          cases h
          exact List.nodup_cons.mpr ⟨hnew, hs⟩
    | closeSession session =>
      rw [sessions_of_answer h]
      exact hs.erase session
    | _ => exact absurd rfl hq

/-- Where one thread's calls are those of the token, what is open stays held by it or by others. -/
lemma mem_heldAfter {sessions held : List SessionHandle} {others : SessionHandle → Prop}
    (hnodup : sessions.Nodup) (hheld : ∀ s ∈ sessions, s ∈ held ∨ others s) (ev : Event Op.Ans) :
    ∀ s ∈ heldAfter sessions ev, s ∈ heldAfter held ev ∨ others s := by
  obtain ⟨o, a⟩ := ev
  by_cases ho : o.handlesSessions = false
  · rw [heldAfter_of_not ho, heldAfter_of_not ho]
    exact hheld
  · cases o with
    | token q =>
      cases q with
      | openRwSession =>
        cases a with
        | error e => exact hheld
        | ok session =>
          intro s hs
          rcases List.mem_cons.mp hs with rfl | hs
          · exact Or.inl List.mem_cons_self
          · exact (hheld s hs).imp_left (List.mem_cons_of_mem session)
      | closeSession session =>
        intro s hs
        obtain ⟨hne, hs⟩ := hnodup.mem_erase_iff.mp hs
        exact (hheld s hs).imp_left (List.mem_erase_of_ne hne).mpr
      | _ => exact absurd rfl ho
    | _ => exact absurd rfl ho

/-! ## What the programs hold -/

/-- A worker opens a session only when it holds at most one; a handler opens none. -/
def sessionContract (party : Party) : Contract Op.Ans (List SessionHandle) where
  init := []
  next held o a := heldAfter held ⟨o, a⟩
  pre held o :=
    match party with
    | .rpc _ => o.handlesSessions = false
    | .worker _ => o = .token .openRwSession → held.length ≤ 1
  post _ _ _ := True

/-- What a thread holds in the end: a worker, the session it goes on with. -/
def holdsItsOwn (party : Party) (held : List SessionHandle) : ThreadResult → Prop
  | .round (some w) => held = [w.session]
  | .round none => held = []
  | .reply _ => ∃ rpc, party = .rpc rpc

section

variable (P : Platform) {session : SessionHandle} {held : List SessionHandle}

/-- The contract does not look at the other steps of a worker. -/
lemma sessionContract_quiet {o : Op} (ho : o.handlesSessions = false) :
    (sessionContract (.worker session)).pre held o ∧
      ∀ a, (sessionContract (.worker session)).next held o a = held := by
  refine ⟨?_, heldAfter_of_not ho held⟩
  rintro rfl
  cases ho

/-- The session that was opened is held beside those that were held before. -/
def OpenedOver {ε : Type} (held held' : List SessionHandle) : Except ε SessionHandle → Prop
  | .ok opened => held' = opened :: held
  | .error _ => held' = held

/-- `open_worker_session` holds one session more than before, or none. -/
lemma openWorkerSession_holds (held : List SessionHandle) (hheld : held.length ≤ 1) :
    (openWorkerSession P).Meets (sessionContract (.worker session)) (OpenedOver held) held := by
  have hlogin : loginSession.Meets (sessionContract (.worker session)) (OpenedOver held) held := by
    refine ⟨fun _ => hheld, fun opened _ => ?_⟩
    cases opened with
    | error e => exact rfl
    | ok opened =>
      refine ⟨(sessionContract_quiet rfl).1, fun loggedIn _ => ?_⟩
      cases loggedIn with
      | ok u => exact rfl
      | error e =>
        refine ⟨(fun h => by cases h), fun _ _ => ?_⟩
        exact List.erase_cons_head opened held
  unfold openWorkerSession
  rw [meets_bind]
  refine hlogin.mono fun held' r hr => ?_
  cases r with
  | ok opened => exact hr
  | error e =>
    obtain rfl : held' = held := hr
    dsimp only
    split
    · refine ⟨fun _ => hheld, fun opened _ => ?_⟩
      cases opened <;> exact rfl
    · split <;> exact rfl

/-- After a reset the worker holds the session it goes on with. -/
lemma resetSession_holds (w : Worker) :
    (Worker.resetSession P w).Meets (sessionContract (.worker session))
      (fun held' w' => held' = [w'.session]) [w.session] := by
  refine ⟨(sessionContract_quiet rfl).1, fun _ _ => ?_⟩
  show Meets _ _ _ (openWorkerSession P >>= _)
  rw [meets_bind]
  refine (openWorkerSession_holds P [w.session] (Nat.le_refl 1)).mono fun held' r hr => ?_
  cases r with
  | error e => exact hr
  | ok opened =>
    obtain rfl : held' = [opened, w.session] := hr
    refine ⟨(fun h => by cases h), fun _ _ => ?_⟩
    show [opened, w.session].erase w.session = [opened]
    by_cases hsame : opened = w.session
    · rw [hsame, List.erase_cons_head]
    · rw [List.erase_cons_tail (by simpa using hsame), List.erase_cons_head]

/-- Resolving a handle is done on the worker's own session. -/
lemma resolve_holds (w : Worker) (kind : KeyKind) (label : String) :
    (w.resolve kind label).Meets (sessionContract (.worker session))
      (fun held' r => held' = [r.2.session]) [w.session] := by
  unfold Worker.resolve
  cases w.cached kind label with
  | some handle => exact ⟨(sessionContract_quiet rfl).1, fun _ _ => rfl⟩
  | none =>
    refine ⟨(sessionContract_quiet rfl).1, fun _ _ => ?_⟩
    refine ⟨(sessionContract_quiet rfl).1, fun found _ => ?_⟩
    rcases found with e | (_ | ⟨handle, rest⟩) <;> exact rfl

/-- The execution of a job, with or without a reset. -/
lemma execute_holds (w : Worker) (request : JobRequest) :
    (Worker.execute P w request).Meets (sessionContract (.worker session))
      (fun held' r => held' = [r.2.session]) [w.session] := by
  rw [Worker.execute_eq, meets_bind]
  refine (resolve_holds w request.kind request.keyLabel).mono fun held' r hr => ?_
  obtain ⟨r, w'⟩ := r
  cases r with
  | error e => exact hr
  | ok key =>
    obtain rfl : held' = [w'.session] := hr
    rw [meets_bind]
    refine (Worker.operation_only P request _ key).meets
      (fun o ho => sessionContract_quiet ?_) fun result => ?_
    · cases o with
      | token q => cases q <;> first | rfl | cases ho
      | _ => rfl
    · split
      · rw [meets_bind]
        exact (resetSession_holds P w').mono fun _ _ h => h
      · exact rfl

/-- A round of a worker. -/
lemma iterate_holds (w : Worker) :
    (Worker.iterate P w).Meets (sessionContract (.worker session))
      (fun held' r => holdsItsOwn (.worker session) held' (.round r)) [w.session] := by
  refine Worker.meets_iterate (fun held _ => held = [w.session])
    (fun _ held r => holdsItsOwn (.worker session) held (.round (some r.2))) ?_
    (fun held job hheld => ?_) (fun held job r hr => ?_) fun held hheld => ?_
  · exact Worker.meets_recv (sessionContract_quiet rfl).1 (fun _ _ => rfl) (fun _ => rfl)
      fun _ => ⟨(sessionContract_quiet rfl).1, fun _ _ => rfl⟩
  · subst hheld
    exact ⟨(sessionContract_quiet rfl).1, fun _ => execute_holds P w job.request⟩
  · refine ⟨(sessionContract_quiet rfl).1, fun started finished => ?_⟩
    refine (Worker.account_only job started finished r.1).meets
      (fun o ho => sessionContract_quiet ?_) fun _ => hr
    cases o <;> first | rfl | cases ho
  · subst hheld
    refine ⟨(sessionContract_quiet rfl).1, fun _ _ => ?_⟩
    refine ⟨(fun h => by cases h), fun _ _ => ?_⟩
    exact List.erase_cons_head w.session []

/-- A worker that starts. -/
lemma workerNew_holds :
    (Worker.new P).Meets (sessionContract (.worker session))
      (fun held' r => holdsItsOwn (.worker session) held' (.round r.toOption)) [] := by
  unfold Worker.new
  rw [meets_bind]
  refine (openWorkerSession_holds P [] (Nat.zero_le 1)).mono fun held' r hr => ?_
  cases r <;> exact hr

end

/-! ## Every run -/

section

variable {P : Platform} {cfg : ServiceConfig} {t₀ n : ℕ} {token : LoginState}
  {as : List (Action Choice (EnvAction P.sharingLogin) Party)}
  {c c' : Config Op.Ans (Shared P.sharingLogin) Party ThreadResult}

/-- Every open session is held by one of the `n` workers, and none holds more than two. -/
structure SessionsHeld (n : ℕ) (s : Shared P.sharingLogin)
    (tr : List (Entry Op.Ans (Shared P.sharingLogin) Party)) : Prop where
  nodup : (LoginState.sessions s.token).Nodup
  held : ∀ session ∈ LoginState.sessions s.token, ∃ i < n, session ∈ sessionsHeld (histOf tr i)
  few : ∀ i, (sessionsHeld (histOf tr i)).length ≤ 2

/-- A session that becomes invalid is one open session less. -/
lemma SessionsHeld.drop {s : Shared P.sharingLogin}
    {tr : List (Entry Op.Ans (Shared P.sharingLogin) Party)} (h : SessionsHeld n s tr)
    (session : SessionHandle) :
    SessionsHeld n { s with token := LoginState.drop s.token session } tr := by
  have hdrop := LoginState.sessions_drop s.token session
  refine ⟨?_, fun opened hopened => ?_, h.few⟩
  · exact hdrop ▸ h.nodup.erase session
  · exact h.held opened (List.mem_of_mem_erase (hdrop ▸ hopened))

/-- One step of a thread that keeps to its contract. -/
lemma SessionsHeld.exec {s s' : Shared P.sharingLogin}
    {tr : List (Entry Op.Ans (Shared P.sharingLogin) Party)} (h : SessionsHeld n s tr) {e : Choice}
    {i : ℕ} {l : Party} {o : Op} {a : o.Ans} (hi : ∀ session, l = .worker session → i < n)
    (hpre : (sessionContract l).pre (sessionsHeld (histOf tr i)) o)
    (he : execOp cfg e i s o = some (a, s')) :
    SessionsHeld n s' (tr ++ [⟨i, l, histOf tr i, s, ⟨o, a⟩⟩]) := by
  have hown : sessionsHeld (histOf (tr ++ [⟨i, l, histOf tr i, s, ⟨o, a⟩⟩]) i) =
      heldAfter (sessionsHeld (histOf tr i)) ⟨o, a⟩ := by
    rw [histOf_snoc, if_pos rfl, sessionsHeld_snoc]
  have hother : ∀ j ≠ i, histOf (tr ++ [⟨i, l, histOf tr i, s, ⟨o, a⟩⟩]) j = histOf tr j := by
    intro j hj
    rw [histOf_snoc, if_neg fun heq => hj heq.symm]
  by_cases ho : o.handlesSessions = false
  · -- nothing is opened or closed
    have hsame : ∀ j, sessionsHeld (histOf (tr ++ [⟨i, l, histOf tr i, s, ⟨o, a⟩⟩]) j) =
        sessionsHeld (histOf tr j) := by
      intro j
      by_cases hj : j = i
      · rw [hj, hown, heldAfter_of_not ho]
      · rw [hother j hj]
    have htoken : LoginState.sessions s'.token = LoginState.sessions s.token := by
      by_cases hq : ∃ q, o = .token q
      · obtain ⟨q, rfl⟩ := hq
        rw [LoginState.sessions_of_answer (execOp_sharedLogin he), heldAfter_of_not ho]
      · rw [(execOp_frame he).token fun q h => hq ⟨q, h⟩]
    refine ⟨htoken ▸ h.nodup, fun session hsession => ?_, fun j => ?_⟩
    · simp only [hsame]
      exact h.held session (htoken ▸ hsession)
    · rw [hsame]
      exact h.few j
  · obtain ⟨session, rfl⟩ : ∃ session, l = .worker session := by
      cases l with
      | rpc rpc => exact absurd hpre ho
      | worker session => exact ⟨session, rfl⟩
    obtain ⟨q, rfl⟩ : ∃ q, o = .token q := by
      cases o with
      | token q => exact ⟨q, rfl⟩
      | _ => exact absurd rfl ho
    have hanswer := execOp_sharedLogin he
    refine ⟨LoginState.nodup_of_answer h.nodup hanswer, fun opened hopened => ?_, fun j => ?_⟩
    · rw [LoginState.sessions_of_answer hanswer] at hopened
      have hheld : ∀ s' ∈ LoginState.sessions s.token, s' ∈ sessionsHeld (histOf tr i) ∨
          ∃ j < n, j ≠ i ∧ s' ∈ sessionsHeld (histOf tr j) := by
        intro s' hs'
        obtain ⟨j, hj, hmem⟩ := h.held s' hs'
        by_cases hij : j = i
        · exact Or.inl (hij ▸ hmem)
        · exact Or.inr ⟨j, hj, hij, hmem⟩
      rcases mem_heldAfter h.nodup hheld ⟨.token q, a⟩ opened hopened with hmem | ⟨j, hj, hij, hmem⟩
      · exact ⟨i, hi session rfl, hown ▸ hmem⟩
      · exact ⟨j, hj, (hother j hij).symm ▸ hmem⟩
    · by_cases hj : j = i
      · rw [hj, hown]
        cases q with
        | openRwSession =>
          cases a with
          | error e => exact h.few i
          | ok opened => exact Nat.succ_le_succ (hpre rfl)
        | closeSession closed => exact (List.erase_sublist.length_le).trans (h.few i)
        | _ => exact absurd rfl ho
      · rw [hother j hj]
        exact h.few j

/-- The workers are the first `n` threads. -/
abbrev WorkersOriginal (P : Platform) (cfg : ServiceConfig) (n : ℕ)
    (c : Config Op.Ans (Shared P.sharingLogin) Party ThreadResult) : Prop :=
  System.Original (openingProxy P.sharingLogin cfg) n c

/-- The obligations of the shared-invariant method. -/
lemma sessions_sound : System.Sound (openingProxy P.sharingLogin cfg)
    (fun c _ => WorkersOriginal P cfg n c) sessionContract holdsItsOwn (SessionsHeld n) where
  body l hl := by
    cases l with
    | rpc rpc =>
      refine (meets_map _ _).mpr ((pooled_only _ cfg rpc).meets (fun o ho => ?_) fun _ => ⟨rpc, rfl⟩)
      have hquiet : o.handlesSessions = false := by
        cases o with
        | token q => cases ho
        | _ => rfl
      exact ⟨hquiet, heldAfter_of_not hquiet []⟩
    | worker session => cases hl
  again l held r p hr hp := by
    cases l with
    | rpc rpc => cases hp
    | worker session =>
      rcases r with reply | (_ | w)
      · cases hp
      · cases hp
      · obtain rfl := Option.some.inj hp
        obtain rfl : held = [w.session] := hr
        exact (meets_map _ _).mpr (iterate_holds _ w)
  exec c i e l o k a s' hc hworkers ht hpre he := by
    refine ⟨True.intro, hc.inv.exec (fun session hl => ?_) hpre he⟩
    subst hl
    exact hworkers.old i _ ht rfl
  cancel c i l o k hc _ _ _ := by
    cases l <;> exact ⟨hc.inv.nodup, hc.inv.held, hc.inv.few⟩
  env c v s' hc _ hv := by
    obtain rfl := Option.some.inj hv
    cases v with
    | changeToken session => exact hc.inv.drop session
    | _ => exact ⟨hc.inv.nodup, hc.inv.held, hc.inv.few⟩

/-- The invariant holds of a pool whose workers have yet to open their sessions. -/
lemma sessions_unopened (htoken : token.sessions = []) :
    System.Outline sessionContract holdsItsOwn (SessionsHeld n)
      (unopened P.sharingLogin cfg t₀ n token) := by
  have hthread : ∀ i t, (unopened P.sharingLogin cfg t₀ n token).threads i = some t →
      t = ⟨.worker i, [], (openingProxy P.sharingLogin cfg).body (.worker i)⟩ := by
    intro i t hi
    simp only [unopened] at hi
    split at hi
    · exact (Option.some.inj hi).symm
    · cases hi
  refine ⟨System.Recorded.start (fun i hi => if_neg (Nat.not_lt.mpr hi)) (fun i t hi => ?_) rfl,
    ⟨?_, fun session hsession => ?_, fun _ => Nat.zero_le 2⟩, fun i t hi => ?_⟩
  · rw [hthread i t hi]
  · show token.sessions.Nodup
    rw [htoken]
    exact List.nodup_nil
  · have hsession : session ∈ token.sessions := hsession
    rw [htoken] at hsession
    cases hsession
  · rw [hthread i t hi]
    exact (meets_map _ _).mpr (workerNew_holds _)

/-- The workers of such a pool are its first threads. -/
lemma workersOriginal_unopened :
    WorkersOriginal P cfg n (unopened P.sharingLogin cfg t₀ n token) := by
  refine ⟨Nat.le_refl n, fun i t hi _ => ?_⟩
  simp only [unopened] at hi
  split at hi
  · assumption
  · cases hi

/-- What a worker that is between two rounds goes on with; nothing if it has stopped. -/
def betweenRounds (c : Config Op.Ans (Shared P.sharingLogin) Party ThreadResult) (i : ℕ) :
    Option (Option Worker) :=
  match c.returned i with
  | some (.worker _, .round w) => some w
  | _ => none

/-- A worker between two rounds holds what it goes on with. -/
lemma held_of_betweenRounds (hc : System.Outline sessionContract holdsItsOwn (SessionsHeld n) c)
    {i : ℕ} {w : Option Worker} (hi : betweenRounds c i = some w) :
    sessionsHeld (histOf c.trace i) = (w.map Worker.session).toList := by
  obtain ⟨session, hreturned⟩ : ∃ session, c.returned i = some (.worker session, .round w) := by
    unfold betweenRounds at hi
    split at hi
    · obtain rfl := Option.some.inj hi
      exact ⟨_, by assumption⟩
    · cases hi
  obtain ⟨hist, ht⟩ := System.exists_returned hreturned
  obtain rfl : hist = histOf c.trace i := hc.recorded.hist i _ ht
  have hown : holdsItsOwn (.worker session) (sessionsHeld (histOf c.trace i)) (.round w) :=
    hc.threads i _ ht
  cases w <;> exact hown

/-- However the workers of a pool start, fail, recover and leave, whatever sessions the token
invalidates: at most two sessions for each worker are open.  When every worker is between two rounds
or has stopped, every open session is the one a worker goes on with, so that a pool whose workers
have all left has closed its sessions. -/
theorem sessions_not_leaked (htoken : token.sessions = [])
    (hrun : (openingProxy P.sharingLogin cfg).run (unopened P.sharingLogin cfg t₀ n token) as =
      some c) :
    (LoginState.sessions c.shared.token).length ≤ 2 * n ∧
    ((∀ i < n, (betweenRounds c i).isSome) →
      ∀ opened ∈ LoginState.sessions c.shared.token,
        ∃ i < n, ∃ w, betweenRounds c i = some (some w) ∧ w.session = opened) := by
  have hthroughout : (openingProxy P.sharingLogin cfg).Throughout
      (fun c _ => WorkersOriginal P cfg n c) (unopened P.sharingLogin cfg t₀ n token) as :=
    System.throughout_invariant (fun _ _ _ hc h => hc.step h) workersOriginal_unopened
  have hc := sessions_sound.run (sessions_unopened htoken) hthroughout hrun
  refine ⟨?_, fun hidle opened hopened => ?_⟩
  · -- a union of `n` sets of at most two elements
    have hsubset : (LoginState.sessions c.shared.token).toFinset ⊆
        (Finset.range n).biUnion fun i => (sessionsHeld (histOf c.trace i)).toFinset := by
      intro session hsession
      obtain ⟨i, hi, hmem⟩ := hc.inv.held session (List.mem_toFinset.mp hsession)
      exact Finset.mem_biUnion.mpr ⟨i, Finset.mem_range.mpr hi, List.mem_toFinset.mpr hmem⟩
    calc (LoginState.sessions c.shared.token).length
        = (LoginState.sessions c.shared.token).toFinset.card :=
          (List.toFinset_card_of_nodup hc.inv.nodup).symm
      _ ≤ _ := Finset.card_le_card hsubset
      _ ≤ (Finset.range n).card * 2 := Finset.card_biUnion_le_card_mul _ _ _ fun i _ =>
          (List.toFinset_card_le _).trans (hc.inv.few i)
      _ = 2 * n := by rw [Finset.card_range, Nat.mul_comm]
  · obtain ⟨i, hi, hmem⟩ := hc.inv.held opened hopened
    obtain ⟨w, hw⟩ := Option.isSome_iff_exists.mp (hidle i hi)
    rw [held_of_betweenRounds hc hw] at hmem
    obtain ⟨w, rfl, rfl⟩ := Option.map_eq_some_iff.mp (Option.mem_toList.mp hmem)
    exact ⟨i, hi, w, hw, rfl⟩

end

/-- Two workers that have started: each has the session it works with. -/
theorem sessions_not_leaked_two :
    ∃ c, loginProxy.run twoWorkers (secondWorkerRefused ++ [.exec 1 (.opens 1)]) = some c ∧
      LoginState.sessions c.shared.token = [1, 0] ∧
      ∀ opened ∈ LoginState.sessions c.shared.token,
        ∃ i < 2, ∃ w, betweenRounds c i = some (some w) ∧ w.session = opened := by
  have hend : (loginProxy.run twoWorkers (secondWorkerRefused ++ [.exec 1 (.opens 1)])).map
      (fun c => (LoginState.sessions c.shared.token, (betweenRounds c 0).isSome,
        (betweenRounds c 1).isSome)) = some ([1, 0], true, true) := by
    decide +kernel
  obtain ⟨c, hrun, hc⟩ := Option.map_eq_some_iff.mp hend
  obtain ⟨hsessions, hc⟩ := Prod.mk.inj hc
  obtain ⟨hfirst, hsecond⟩ := Prod.mk.inj hc
  refine ⟨c, hrun, hsessions, (sessions_not_leaked rfl hrun).2 fun i hi => ?_⟩
  obtain rfl | rfl : i = 0 ∨ i = 1 := by omega
  · exact hfirst
  · exact hsecond

end HsmProxy
