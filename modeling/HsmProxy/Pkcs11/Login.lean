import HsmProxy.Service.Steps

/-!
# The shared login

PKCS#11 keeps one login flag for the whole application: `C_Login` fails with
`CKR_USER_ALREADY_LOGGED_IN` while it is set, and closing the last open session clears it.
`TokenModel.sharedLogin` is a token that does this and nothing else: it may answer any other call in
any way, and invalidate any session at any moment.

`open_worker_session` takes a refused login for a login.  Between the refusal and the session it
then opens lie two steps, and a flag that is cleared there is not noticed.
`fresh_session_logged_in`: in every run in which it is not cleared there, a worker that is given a
session is logged in.
-/

namespace HsmProxy

open Interleaving Interleaving.Prog

/-! ## A token with one login flag -/

/-- What the token knows of the application: its open sessions, and whether it is logged in. -/
structure LoginState where
  sessions : List SessionHandle
  loggedIn : Bool
  deriving DecidableEq, Repr

namespace LoginState

/-- A session is closed or becomes invalid; the last one takes the login with it. -/
def drop (s : LoginState) (session : SessionHandle) : LoginState :=
  if s.sessions = [session] then ⟨[], false⟩ else { s with sessions := s.sessions.erase session }

/-- What the token does when it gives an answer; `none` when it cannot give it. -/
def answer (s : LoginState) : (o : TokenOp) → o.Ans → Option LoginState
  | .openRwSession, .ok session =>
    if session ∈ s.sessions then none else some { s with sessions := session :: s.sessions }
  -- only `C_Login` says that somebody is logged in
  | .openRwSession, .error e => if e = .pkcs11 .userAlreadyLoggedIn then none else some s
  | .login session, .ok () =>
    if session ∈ s.sessions ∧ s.loggedIn = false then some { s with loggedIn := true } else none
  | .login _, .error e =>
    if e = .pkcs11 .userAlreadyLoggedIn ∧ s.loggedIn = false then none else some s
  | .logout session, .ok () =>
    if session ∈ s.sessions ∧ s.loggedIn = true then some { s with loggedIn := false } else none
  | .closeSession session, _ => some (s.drop session)
  | _, _ => some s

/-- A session that is not the last one leaves the login alone. -/
lemma drop_loggedIn {s : LoginState} {session : SessionHandle} (h : s.sessions ≠ [session]) :
    (s.drop session).loggedIn = s.loggedIn := by
  rw [drop, if_neg h]

/-- The calls that may clear the login: closing the last session, and logging out. -/
def clearedBy (s : LoginState) : TokenOp → Bool
  | .closeSession session => s.sessions = [session]
  | .logout _ => true
  | _ => false

/-- No other call clears it. -/
lemma answer_keeps {s s' : LoginState} {o : TokenOp} {a : o.Ans} (h : s.answer o a = some s')
    (hlogged : s.loggedIn = true) (ho : s.clearedBy o = false) : s'.loggedIn = true := by
  cases o with
  | openRwSession =>
    cases a <;> simp only [answer] at h <;> split at h <;> cases h <;> exact hlogged
  | login session =>
    cases a with
    | error e =>
      simp only [answer] at h
      split at h
      · cases h
      · cases h
        exact hlogged
    | ok u =>
      simp only [answer] at h
      split at h
      · cases h
        rfl
      · cases h
  | logout session => cases ho
  | closeSession session =>
    cases h
    rw [drop_loggedIn (of_decide_eq_false ho)]
    exact hlogged
  | _ =>
    cases h
    exact hlogged

/-- A login that is refused because of another one finds the flag set, and leaves it. -/
lemma answer_refused {s s' : LoginState} {session : SessionHandle}
    (h : s.answer (.login session) (.error (.pkcs11 .userAlreadyLoggedIn)) = some s') :
    s'.loggedIn = true := by
  simp only [answer] at h
  split at h
  · cases h
  · rename_i hset
    cases h
    simpa using hset

/-- No session is refused because of a login. -/
lemma answer_open_refused {s : LoginState} :
    s.answer .openRwSession (.error (.pkcs11 .userAlreadyLoggedIn)) = none := by
  simp [answer]

/-- A login that succeeds sets the flag. -/
lemma answer_login {s s' : LoginState} {session : SessionHandle}
    (h : s.answer (.login session) (.ok ()) = some s') : s'.loggedIn = true := by
  simp only [answer] at h
  split at h
  · cases h
    rfl
  · cases h

end LoginState

/-- The token; what comes from outside is that a session becomes invalid. -/
def TokenModel.sharedLogin : TokenModel where
  State := LoginState
  Change := SessionHandle
  answer := LoginState.answer
  change := LoginState.drop

/-- A platform with this token. -/
abbrev Platform.sharingLogin (P : Platform) : Platform := { P with token := .sharedLogin }

/-! ## A pool that opens its sessions -/

section

variable (P : Platform) (cfg : ServiceConfig)

/-- `Worker::new`. -/
def Worker.new : Program (Except PoolError Worker) := do
  match ← openWorkerSession P with
  | .ok session => return .ok ⟨session, ∅⟩
  | .error e => return .error e

/-- The proxy in pool mode, with workers that have yet to open their sessions. -/
def openingProxy : System Op.Ans (Shared P) Choice (EnvAction P) Party ThreadResult where
  body
    | .rpc rpc => ThreadResult.reply <$> pooled P cfg rpc
    | .worker _ => (fun r => ThreadResult.round r.toOption) <$> Worker.new P
  again := (pooledProxy P cfg).again
  spawnable := (pooledProxy P cfg).spawnable
  exec := (pooledProxy P cfg).exec
  droppable := (pooledProxy P cfg).droppable
  cancel := (pooledProxy P cfg).cancel
  env := (pooledProxy P cfg).env

/-- The configuration in which `n` worker threads have been spawned. -/
def unopened (t₀ n : ℕ) (token : P.token.State) : Config Op.Ans (Shared P) Party ThreadResult where
  shared := Shared.start P t₀ n token
  threads i := if i < n then some ⟨.worker i, [], (openingProxy P cfg).body (.worker i)⟩ else none
  spawned := n
  trace := []

end

/-! ## Between the refusal and the second session -/

/-- Is the worker between a login that was refused because of another one and the session it opens
then? -/
def awaitsReopen (h : List (Event Op.Ans)) : Bool :=
  h.foldl (fun b ev => match ev with
    | ⟨.token .openRwSession, .error e⟩ => e = .pkcs11 .userAlreadyLoggedIn
    | ⟨.token .openRwSession, .ok _⟩ => false
    | ⟨.token (.login _), .error e⟩ => e = .pkcs11 .userAlreadyLoggedIn
    | ⟨.token (.login _), .ok _⟩ => false
    | _ => b) false

/-- One more event. -/
lemma awaitsReopen_snoc (h : List (Event Op.Ans)) {ev : Event Op.Ans}
    (hev : awaitsReopen (h ++ [ev]) = true) :
    awaitsReopen h = true ∨ ev = ⟨.token .openRwSession, .error (.pkcs11 .userAlreadyLoggedIn)⟩ ∨
      ∃ session, ev = ⟨.token (.login session), .error (.pkcs11 .userAlreadyLoggedIn)⟩ := by
  rw [awaitsReopen, List.foldl_append] at hev
  simp only [List.foldl_cons, List.foldl_nil] at hev
  split at hev
  · rename_i e
    obtain rfl := of_decide_eq_true hev
    exact Or.inr (Or.inl rfl)
  · cases hev
  · rename_i session e
    obtain rfl := of_decide_eq_true hev
    exact Or.inr (Or.inr ⟨session, rfl⟩)
  · cases hev
  · exact Or.inl hev

/-- What `login_session` has done: it ends with a login, or with an error that was caused by a
refusal if it says so. -/
lemma loginSession_seen :
    Meets (Contract.seen fun _ => true) (fun calls r => match r with
      | .ok session => ∃ calls', calls = calls' ++ [⟨.token (.login session), .ok ()⟩]
      | .error err => err.source = some (.pkcs11 .userAlreadyLoggedIn) →
        ∀ h, awaitsReopen (h ++ calls) = true) [] loginSession := by
  refine meets_seen_call rfl fun opened => ?_
  cases opened with
  | error e =>
    intro he h
    obtain rfl : e = .pkcs11 .userAlreadyLoggedIn := Option.some.inj he
    simp [awaitsReopen, List.foldl_append]
  | ok session =>
    refine meets_seen_call rfl fun login => ?_
    cases login with
    | ok u => exact ⟨_, rfl⟩
    | error e =>
      refine meets_seen_call rfl fun _ he h => ?_
      obtain rfl : e = .pkcs11 .userAlreadyLoggedIn := Option.some.inj he
      simp [awaitsReopen, List.foldl_append]

/-- A complete history of `open_worker_session` that returns a session ends with a login, or with
the session that is opened after a refusal. -/
lemma runs_openWorkerSession {P : Platform} {calls : List (Event Op.Ans)} {session : SessionHandle}
    (h : Runs (openWorkerSession P) calls (.ok session)) :
    ∃ calls' ev, calls = calls' ++ [ev] ∧ (ev = ⟨.token (.login session), .ok ()⟩ ∨
      ev = ⟨.token .openRwSession, .ok session⟩ ∧ ∀ h, awaitsReopen (h ++ calls') = true) := by
  have hmeets : Meets (Contract.seen fun _ => true) (fun calls r => ∀ session, r = .ok session →
      ∃ calls' ev, calls = calls' ++ [ev] ∧ (ev = ⟨.token (.login session), .ok ()⟩ ∨
        ev = ⟨.token .openRwSession, .ok session⟩ ∧ ∀ h, awaitsReopen (h ++ calls') = true)) []
      (openWorkerSession P) := by
    unfold openWorkerSession
    rw [meets_bind]
    refine loginSession_seen.mono fun calls r hr => ?_
    cases r with
    | ok session =>
      intro session' hsession
      obtain rfl := Except.ok.inj hsession
      obtain ⟨calls', rfl⟩ := hr
      exact ⟨calls', _, rfl, Or.inl rfl⟩
    | error err =>
      dsimp only
      split
      · rename_i hrefused
        refine meets_seen_call rfl fun opened => ?_
        cases opened with
        | error e => exact fun session hsession => nomatch hsession
        | ok session =>
          intro session' hsession
          obtain rfl := Except.ok.inj hsession
          exact ⟨calls, _, rfl, Or.inr ⟨rfl, hr hrefused⟩⟩
      · split <;> exact fun session hsession => nomatch hsession
  have hkept := forall_runs_seen_iff.mpr hmeets calls _ h session rfl
  rwa [List.filter_true] at hkept

section

variable {P : Platform} {cfg : ServiceConfig}
  {c c' : Config Op.Ans (Shared P.sharingLogin) Party ThreadResult}
  {a : Action Choice (EnvAction P.sharingLogin) Party}

/-- Some worker is between a refused login and its second session. -/
def reopening (c : Config Op.Ans (Shared P.sharingLogin) Party ThreadResult) : Bool :=
  (List.range c.spawned).any fun i => (c.threads i).any fun t => awaitsReopen t.hist

/-- The step closes or invalidates the last session of the application, or logs out. -/
def clearsLogin (c : Config Op.Ans (Shared P.sharingLogin) Party ThreadResult) :
    Action Choice (EnvAction P.sharingLogin) Party → Bool
  | .exec i _ =>
    match c.nextOp i with
    | some (.token q) => LoginState.clearedBy c.shared.token q
    | _ => false
  | .env (.changeToken session) => LoginState.clearedBy c.shared.token (.closeSession session)
  | _ => false

/-- The login is not cleared under a worker that has seen it and has not opened its session yet. -/
def Undisturbed (c : Config Op.Ans (Shared P.sharingLogin) Party ThreadResult)
    (a : Action Choice (EnvAction P.sharingLogin) Party) : Prop :=
  reopening c = true → clearsLogin c a = false

instance : Decidable (Undisturbed c a) :=
  inferInstanceAs (Decidable (_ → _))

/-- A worker in between is on a token that is logged in. -/
def StillLoggedIn (c : Config Op.Ans (Shared P.sharingLogin) Party ThreadResult) : Prop :=
  ∀ i t, c.threads i = some t → awaitsReopen t.hist = true → LoginState.loggedIn c.shared.token = true

/-- Then a worker is in between. -/
lemma reopening_of_thread (hc : System.Recorded c) {i : ℕ} {t : Thread Op.Ans Party ThreadResult}
    (ht : c.threads i = some t) (hawaits : awaitsReopen t.hist = true) : reopening c = true := by
  refine List.any_eq_true.mpr ⟨i, List.mem_range.mpr ?_, ?_⟩
  · by_contra hi
    rw [hc.fresh i (Nat.le_of_not_lt hi)] at ht
    cases ht
  · rw [ht]
    exact hawaits

/-- A step on the token is an answer of the token. -/
lemma execOp_sharedLogin {e : Choice} {tid : ℕ} {s s' : Shared P.sharingLogin} {q : TokenOp}
    {ans : q.Ans}
    (h : execOp cfg e tid s (.token q) = some (ans, s')) :
    LoginState.answer s.token q ans = some s'.token := by
  unfold execOp at h
  obtain ⟨t, ht, heq⟩ := Option.map_eq_some_iff.mp h
  obtain ⟨rfl, rfl⟩ := Prod.mk.inj heq
  exact ht

/-- A step that is not one of those keeps the login. -/
lemma exec_keeps_login {e : Choice} {i : ℕ} {s : Shared P.sharingLogin} {l : Party}
    {hist : List (Event Op.Ans)} {o : Op} {k : o.Ans → Prog Op.Ans ThreadResult} {ans : o.Ans}
    (ht : c.threads i = some ⟨l, hist, .call o k⟩)
    (he : execOp cfg e i c.shared o = some (ans, s))
    (hlogged : LoginState.loggedIn c.shared.token = true)
    (hkeeps : clearsLogin c (.exec i e) = false) :
    LoginState.loggedIn s.token = true := by
  by_cases htoken : ∃ q, o = .token q
  · obtain ⟨q, rfl⟩ := htoken
    have hnext : c.nextOp i = some (.token q) := by
      rw [Config.nextOp, ht]
    rw [clearsLogin, hnext] at hkeeps
    exact LoginState.answer_keeps (execOp_sharedLogin he) hlogged hkeeps
  · have hframe : s.token = c.shared.token := (execOp_frame he).token fun q hq => htoken ⟨q, hq⟩
    rw [hframe]
    exact hlogged

/-- Every step that does not disturb keeps it so. -/
lemma stillLoggedIn_step (hrec : System.Recorded c) (hc : StillLoggedIn c) (ha : Undisturbed c a)
    (h : (openingProxy P.sharingLogin cfg).step c a = some c') : StillLoggedIn c' := by
  -- whoever was in between before the step keeps the login
  have hkeep : ∀ {i : ℕ} {e : Choice} {l h' o k ans} {s' : Shared P.sharingLogin}, a = .exec i e →
      c.threads i = some ⟨l, h', .call o k⟩ → execOp cfg e i c.shared o = some (ans, s') →
      ∀ j t, c.threads j = some t → awaitsReopen t.hist = true →
      LoginState.loggedIn s'.token = true := by
    rintro i e l h' o k ans s' rfl ht he j t hj hawaits
    exact exec_keeps_login ht he (hc j t hj hawaits) (ha (reopening_of_thread hrec hj hawaits))
  refine System.threads_step (K := fun (s : Shared P.sharingLogin) _ h =>
    awaitsReopen h = true → LoginState.loggedIn s.token = true) hc nofun ?_ ?_ ?_ ?_ h
  · intro i e l hist o k ans s' hexec ht he hawaits
    have he : execOp cfg e i c.shared o = some (ans, s') := he
    rcases awaitsReopen_snoc hist hawaits with hbefore | hopen | ⟨session, hlogin⟩
    · exact hkeep hexec ht he i _ ht hbefore
    · cases hopen
      exact nomatch LoginState.answer_open_refused.symm.trans (execOp_sharedLogin he)
    · cases hlogin
      exact LoginState.answer_refused (execOp_sharedLogin he)
  · intro i e l hist o k ans s' hexec ht he j t _ hj hawaits
    exact hkeep hexec ht he j t hj hawaits
  · intro i l _ j t _ hj hawaits
    cases l <;> exact hc j t hj hawaits
  · rintro v s' rfl hv j t hj hawaits
    obtain rfl := Option.some.inj hv
    cases v with
    | changeToken session =>
      have hkeeps := ha (reopening_of_thread hrec hj hawaits)
      change (LoginState.drop c.shared.token session).loggedIn = true
      rw [LoginState.drop_loggedIn (of_decide_eq_false hkeeps)]
      exact hc j t hj hawaits
    | _ => exact hc j t hj hawaits

/-- In every run of a pool of `n` workers that starts up, serves requests and resets sessions, with
a token that may invalidate any session at any moment: as long as the last session of the
application is not closed or invalidated, and nobody logs out, while a worker is between a login
that was refused because of another one and the session it opens then, the token is logged in
whenever `open_worker_session` has just returned a session to a worker. -/
theorem fresh_session_logged_in {t₀ n : ℕ} {token : LoginState}
    {as : List (Action Choice (EnvAction P.sharingLogin) Party)}
    (hrun : (openingProxy P.sharingLogin cfg).run (unopened P.sharingLogin cfg t₀ n token) as = some c)
    (hundisturbed : (openingProxy P.sharingLogin cfg).Throughout Undisturbed
      (unopened P.sharingLogin cfg t₀ n token) as)
    {i : ℕ} {e : Choice} (hstep : (openingProxy P.sharingLogin cfg).step c (.exec i e) = some c')
    {calls : List (Event Op.Ans)} {session : SessionHandle}
    (hcalls : Runs (openWorkerSession P.sharingLogin) calls (.ok session))
    (hjust : calls <:+ histOf c'.trace i) : LoginState.loggedIn c'.shared.token = true := by
  have hstart : System.Recorded (unopened P.sharingLogin cfg t₀ n token) ∧
      StillLoggedIn (unopened P.sharingLogin cfg t₀ n token) := by
    refine ⟨System.Recorded.start (fun i hi => if_neg (Nat.not_lt.mpr hi)) (fun i t hi => ?_) rfl,
      fun i t hi hawaits => ?_⟩
    · simp only [unopened] at hi
      split at hi
      · cases hi
        rfl
      · cases hi
    · simp only [unopened] at hi
      split at hi
      · cases hi
        cases hawaits
      · cases hi
  obtain ⟨hrec, hstill⟩ := System.run_invariant
    (I := fun c => System.Recorded c ∧ StillLoggedIn c)
    (fun d a d' hd ha h => ⟨hd.1.step h, stillLoggedIn_step hd.1 hd.2 ha h⟩) hstart hundisturbed hrun
  obtain ⟨calls', ev, rfl, hev⟩ := runs_openWorkerSession hcalls
  obtain ⟨before, hbefore⟩ := hjust
  obtain ⟨l, hist, o, k, ans, s', ht, he, rfl⟩ := System.exec_of_step hstep
  have he : execOp cfg e i c.shared o = some (ans, s') := he
  obtain rfl := hrec.hist i _ ht
  rw [histOf_snoc, if_pos rfl, ← List.append_assoc] at hbefore
  obtain ⟨hhist, hlast⟩ := List.append_inj' hbefore rfl
  obtain rfl := List.singleton_inj.mp hlast
  rcases hev with hlogin | ⟨hopen, hawaits⟩
  · cases hlogin
    exact LoginState.answer_login (execOp_sharedLogin he)
  · cases hopen
    have hlogged := hstill i _ ht (hhist ▸ hawaits before)
    exact LoginState.answer_keeps (execOp_sharedLogin he) hlogged rfl

end

/-- The token opens the given session, and otherwise succeeds. -/
def Choice.opens (session : SessionHandle) : Choice :=
  { Choice.success with
    token
      | .openRwSession => .ok session
      | o => Choice.success.token o }

/-- The token refuses a login because there is one. -/
abbrev Choice.refuses : Choice := Choice.failing (.pkcs11 .userAlreadyLoggedIn)

/-- A pool with such a token. -/
abbrev loginProxy : System Op.Ans (Shared anyPlatform.sharingLogin) Choice
    (EnvAction anyPlatform.sharingLogin) Party ThreadResult :=
  openingProxy anyPlatform.sharingLogin (.plain 1 10)

/-- Two workers, on a token that is not logged in. -/
abbrev twoWorkers : Config Op.Ans (Shared anyPlatform.sharingLogin) Party ThreadResult :=
  unopened anyPlatform.sharingLogin (.plain 1 10) 0 2 ⟨[], false⟩

/-- The first worker logs in; the login of the second one is refused, and it closes the session. -/
def secondWorkerRefused : List (Action Choice (EnvAction anyPlatform.sharingLogin) Party) :=
  [.exec 0 (.opens 0), .exec 0 .success, .exec 1 (.opens 1), .exec 1 .refuses, .exec 1 .success]

/-- The second worker is given a session on a token that is logged in. -/
theorem fresh_session_second_worker :
    ∃ c c', loginProxy.run twoWorkers secondWorkerRefused = some c ∧
      loginProxy.step c (.exec 1 (.opens 2)) = some c' ∧
      LoginState.loggedIn c'.shared.token = true := by
  have hundisturbed : loginProxy.Throughout Undisturbed twoWorkers secondWorkerRefused := by
    decide +kernel
  obtain ⟨c, hrun⟩ : ∃ c, loginProxy.run twoWorkers secondWorkerRefused = some c := ⟨_, rfl⟩
  obtain ⟨c', hstep, hhist⟩ : ∃ c', loginProxy.step c (.exec 1 (.opens 2)) = some c' ∧
      histOf c'.trace 1 = [⟨.token .openRwSession, .ok 1⟩,
        ⟨.token (.login 1), .error (.pkcs11 .userAlreadyLoggedIn)⟩,
        ⟨.token (.closeSession 1), ()⟩, ⟨.token .openRwSession, .ok 2⟩] := by
    cases hrun
    exact ⟨_, rfl, rfl⟩
  have hcalls : Runs (openWorkerSession anyPlatform.sharingLogin) (histOf c'.trace 1) (.ok 2) := by
    rw [hhist]
    exact .call (.call (.call (.call (.ret _))))
  exact ⟨c, c', hrun, hstep,
    fresh_session_logged_in hrun hundisturbed hstep hcalls (List.suffix_refl _)⟩

/-- The session of the first worker becomes invalid before the second one opens its own. -/
def loginLost : List (Action Choice (EnvAction anyPlatform.sharingLogin) Party) :=
  secondWorkerRefused ++ [.env (.changeToken (0 : SessionHandle)), .exec 1 (.opens 2)]

/-- The session a worker has opened. -/
def openedSession {P : Platform} (c : Config Op.Ans (Shared P) Party ThreadResult) (i : ℕ) :
    Option SessionHandle :=
  match c.returned i with
  | some (.worker _, .round (some w)) => some w.session
  | _ => none

/-- The second worker is given a session on a token that is not logged in. -/
theorem fresh_session_logged_out :
    (loginProxy.run twoWorkers loginLost).map
      (fun c => (openedSession c 1, LoginState.loggedIn c.shared.token)) = some (some 2, false) := by
  decide +kernel

end HsmProxy
