import HsmProxy.Cache.CacheSteps
import HsmProxy.Grpc.FailureCount
import HsmProxy.Pkcs11.Waiting

/-!
# A healthy token and the circuit

`observe` is meant to tell the breaker about failures of the token only.  `TokenOp.welcome` are the
answers a worker does not turn into such a failure, and `HealthyStep` is what keeps every failure
away from the breaker: the token gives only such answers, the job of a key lookup finds room in the
queue, results arrive before the deadline of the handler that waits for them, and no worker dies.
Then the circuit is closed in every state of every run (`closed_of_healthy`).

A code that only says that a request does not fit the key or the data (`RvError.unfit`) is in
general not among the welcome answers, and one of them can open the circuit
(`open_on_wrong_key_type`).
-/

namespace HsmProxy

open Interleaving Interleaving.Prog

/-! ## Answers that are not held against the token -/

/-- The codes that say that a request does not fit the key or the data. -/
def RvError.unfit : RvError → Bool
  | .signatureInvalid => true
  | .signatureLenRange => true
  | .encryptedDataInvalid => true
  | .encryptedDataLenRange => true
  | .keyTypeInconsistent => true
  | .dataLenRange => true
  | _ => false

/-- Success, or a code that says that the request does not fit. -/
def fitsOrSays {α : Type} : Except CryptokiError α → Bool
  | .ok _ => true
  | .error (.pkcs11 rv) => rv.unfit
  | .error (.other _) => false

/-- The answers of a token without faults. -/
def TokenOp.faultless : (o : TokenOp) → o.Ans → Bool
  | .openRwSession, answer => fitsOrSays answer
  | .login _, answer => fitsOrSays answer
  | .logout _, answer => fitsOrSays answer
  | .closeSession _, _ => true
  | .findObjects _ _ _, answer => fitsOrSays answer
  | .getAttributes _ _ _, answer => fitsOrSays answer
  | .sign _ _ _ _, answer => fitsOrSays answer
  | .verify _ _ _ _ _, answer => fitsOrSays answer
  | .encrypt _ _ _ _, answer => fitsOrSays answer
  | .decrypt _ _ _ _, answer => fitsOrSays answer

section

variable (P : Platform) (cfg : ServiceConfig)

/-- The attributes are those of a key that can be exported, as far as they have been asked for. -/
def exportable (types : List AttributeType) (attrs : List Attribute) : Bool :=
  match types with
  | [.keyType] =>
    match attrs.head? with
    | some (.keyType .ec) => true
    | some (.keyType .rsa) => true
    | _ => false
  | [.ecPoint] => (ecSpkiOf P attrs).isOk
  | [.modulus, .publicExponent] => (rsaSpkiOf P attrs).isOk
  | _ => true

/-- The answers that do not make a job fail in the token or in the worker: success, with attributes
that can be exported, and what `C_Verify` and `C_Decrypt` say of a bad signature or ciphertext. -/
def TokenOp.welcome : (o : TokenOp) → o.Ans → Bool
  | .findObjects _ _ _, answer => answer.isOk
  | .getAttributes _ _ types, answer =>
    match answer with
    | .ok attrs => exportable P types attrs
    | .error _ => false
  | .sign _ _ _ _, answer => answer.isOk
  | .verify _ _ _ _ _, answer =>
    match answer with
    | .ok _ => true
    | .error e => e = .pkcs11 .signatureInvalid ∨ e = .pkcs11 .signatureLenRange
  | .encrypt _ _ _ _, answer => answer.isOk
  | .decrypt _ _ _ _, answer =>
    match answer with
    | .ok _ => true
    | .error e => e = .pkcs11 .encryptedDataInvalid ∨ e = .pkcs11 .encryptedDataLenRange
  | _, _ => true

/-- A result that is not held against the token. -/
def Blameless (r : JobResult) : Prop := ∀ e, r = .error e → e.blamesToken = false

/-- A response is not held against the token. -/
lemma blameless_ok (response : JobResponse) : Blameless (.ok response) :=
  fun _ he => nomatch he

/-- Neither is an error that does not blame it. -/
lemma blameless_error {e : PoolError} (he : e.blamesToken = false) : Blameless (.error e) := by
  intro e' he'
  obtain rfl := Except.error.inj he'
  exact he

/-- Who relies on welcome answers answers a job with a result that is not held against the token. -/
def answerContract : Contract Op.Ans Unit where
  init := ()
  next _ _ _ := ()
  pre _
    | .pool (.respond _ r) => Blameless r
    | _ => True
  post _
    | .token q, answer => q.welcome P answer
    | _, _ => True

/-- A step that answers no job is free. -/
lemma answerContract_skip {o : Op} (ho : ∀ j r, o ≠ .pool (.respond j r)) (g : Unit) :
    (answerContract P).pre g o ∧ ∀ a, (answerContract P).next g o a = g := by
  refine ⟨?_, fun _ => rfl⟩
  cases o with
  | pool q =>
    cases q with
    | respond j r => exact absurd rfl (ho j r)
    | _ => exact True.intro
  | _ => exact True.intro

/-! ## What a worker makes of welcome answers -/

/-- A success has a value. -/
lemma exists_ok_of_isOk {ε α : Type} {r : Except ε α} (h : r.isOk = true) : ∃ a, r = .ok a := by
  cases r with
  | error e => cases h
  | ok a => exact ⟨a, rfl⟩

/-- An EC point that can be exported is exported. -/
lemma ecSpki_isOk (session : SessionHandle) (key : ObjectHandle) :
    (ecSpki P session key).run.Meets (answerContract P) (fun _ r => r.isOk = true) () := by
  refine (meets_run_bind _ _).mpr ⟨True.intro, fun answer hanswer => ?_⟩
  cases answer with
  | error e => cases hanswer
  | ok attrs => exact hanswer

/-- An RSA modulus with its exponent can be exported. -/
lemma rsaSpki_isOk (session : SessionHandle) (key : ObjectHandle) :
    (rsaSpki P session key).run.Meets (answerContract P) (fun _ r => r.isOk = true) () := by
  refine (meets_run_bind _ _).mpr ⟨True.intro, fun answer hanswer => ?_⟩
  cases answer with
  | error e => cases hanswer
  | ok attrs => exact hanswer

/-- A key whose attributes can be exported is exported. -/
lemma publicKeyToSpkiDer_isOk (session : SessionHandle) (key : ObjectHandle) :
    (publicKeyToSpkiDer P session key).run.Meets (answerContract P) (fun _ r => r.isOk = true)
      () := by
  refine (meets_run_bind _ _).mpr ⟨True.intro, fun answer hanswer => ?_⟩
  cases answer with
  | error e => cases hanswer
  | ok attrs =>
    have htype : exportable P [.keyType] attrs = true := hanswer
    simp only [exportable] at htype
    show Meets _ _ _ (ExceptT.run (match attrs.head? with
      | some (.keyType .ec) => _
      | some (.keyType .rsa) => _
      | other => _))
    split
    · refine (meets_run_bind _ _).mpr ((ecSpki_isOk P session key).mono fun _ r hr => ?_)
      obtain ⟨der, rfl⟩ := exists_ok_of_isOk hr
      rfl
    · refine (meets_run_bind _ _).mpr ((rsaSpki_isOk P session key).mono fun _ r hr => ?_)
      obtain ⟨der, rfl⟩ := exists_ok_of_isOk hr
      rfl
    · rename_i hec hrsa
      split at htype
      · rename_i h
        exact absurd h hec
      · rename_i h
        exact absurd h hrsa
      · cases htype

/-- With welcome answers, the operation of a job ends in nothing that is held against the token. -/
lemma operation_blameless (request : JobRequest) (session : SessionHandle) (key : ObjectHandle) :
    (Worker.operation P request session key).Meets (answerContract P) (fun _ r => Blameless r)
      () := by
  cases request with
  | sign label algorithm payload =>
    refine ⟨True.intro, fun answer hanswer => ?_⟩
    cases answer with
    | error e => cases hanswer
    | ok bytes => exact blameless_ok _
  | verify label algorithm payload signature =>
    refine ⟨True.intro, fun answer hanswer => ?_⟩
    cases answer with
    | error e =>
      rcases of_decide_eq_true hanswer with rfl | rfl
      · exact blameless_ok _
      · exact blameless_ok _
    | ok u => exact blameless_ok _
  | encrypt label plaintext associatedData iv =>
    simp only [Worker.operation]
    split
    · exact blameless_error rfl
    · refine ⟨True.intro, fun answer hanswer => ?_⟩
      cases answer with
      | error e => cases hanswer
      | ok bytes => exact blameless_ok _
  | decrypt label ciphertext associatedData iv =>
    simp only [Worker.operation]
    split
    · exact blameless_error rfl
    · refine ⟨True.intro, fun answer hanswer => ?_⟩
      cases answer with
      | error e =>
        rcases of_decide_eq_true hanswer with rfl | rfl
        · exact blameless_error rfl
        · exact blameless_error rfl
      | ok bytes => exact blameless_ok _
  | getPublicKey label =>
    simp only [Worker.operation, meets_map]
    refine (publicKeyToSpkiDer_isOk P session key).mono fun _ r hr => ?_
    obtain ⟨found, rfl⟩ := exists_ok_of_isOk hr
    exact blameless_ok _

/-- With welcome answers, the execution of a job ends in nothing that is held against the token. -/
lemma execute_blameless (w : Worker) (request : JobRequest) :
    (Worker.execute P w request).Meets (answerContract P) (fun _ r => Blameless r.1) () := by
  refine Worker.meets_execute (fun _ _ _ => True) (fun _ _ e => Blameless (.error e))
    (fun _ _ result => Blameless result) ?_ (fun _ _ _ hfailed => hfailed)
    (fun _ w' key _ => operation_blameless P request w'.session key)
    (fun _ _ _ _ hresult => hresult) fun _ w' result hresult => ?_
  · refine Worker.meets_resolve ⟨True.intro, fun _ _ => True.intro⟩ True.intro
      fun _ => ⟨True.intro, fun found hfound => ⟨fun e he => ?_, fun _ _ => True.intro⟩⟩
    rcases found with _ | (_ | _)
    · cases hfound
    · cases he
      exact blameless_error rfl
    · cases he
  · refine (Worker.resetSession_only P w').meets (fun o ho => answerContract_skip P ?_ _)
      fun _ => hresult
    rintro j r rfl
    cases ho

/-- With welcome answers, a round of a worker answers with nothing that is held against the token. -/
theorem iterate_answers (w : Worker) (g : Unit) :
    (Worker.iterate P w).Meets (answerContract P) (fun _ _ => True) g := by
  refine Worker.meets_iterate (fun _ _ => True)
    (fun _ _ r => Blameless r.1) ?_
    (fun _ job _ => ⟨True.intro, fun _ => execute_blameless P w job.request⟩)
    (fun _ job r hr => ⟨True.intro, fun started finished => ?_⟩)
    fun _ _ => ⟨True.intro, fun _ _ => ⟨True.intro, fun _ _ => True.intro⟩⟩
  · exact Worker.meets_recv True.intro (fun _ _ => True.intro) (fun _ => True.intro)
      fun _ => ⟨True.intro, fun _ _ => True.intro⟩
  · exact Worker.meets_account (J := fun _ => True)
      (fun _ _ _ _ _ => ⟨True.intro, fun _ => True.intro⟩)
      (fun _ _ => ⟨hr, fun _ _ => True.intro⟩) True.intro

/-- A handler answers no job. -/
lemma pooled_answers (rpc : Rpc) :
    (pooled P cfg rpc).Meets (answerContract P) (fun _ _ => True) () := by
  refine (pooled_only P cfg rpc).meets (fun o ho => answerContract_skip P ?_ _) fun _ => True.intro
  rintro j r rfl
  cases ho

/-! ## Healthy runs -/

/-- In this state the step of a thread is one a healthy proxy makes: a call into the token has a
welcome answer, the job of a key lookup finds room, and a result that is awaited is there before the
deadline. -/
def healthyOp (l : Party) (e : Choice) (s : Shared P) : Op → Bool
  | .token q => q.welcome P (e.token q)
  | .pool (.trySend _ _) => !l.looksUp || decide (s.pool.receivers ≠ 0 ∧
      (s.pool.parked ≠ [] ∨ s.pool.queue.length < cfg.pool.queueDepth))
  | .pool (.awaitResult j deadline) =>
    (s.pool.oneshots j).any (fun o => o.value.isSome) || decide (s.now < deadline)
  | _ => true

/-- The step is one a healthy proxy makes, and drops no worker. -/
def HealthyStep (c : Config Op.Ans (Shared P) Party ThreadResult)
    (a : Action Choice (EnvAction P) Party) : Bool :=
  match a with
  | .exec i e =>
    match c.threads i with
    | some ⟨l, _, .call o _⟩ => healthyOp P cfg l e c.shared o
    | _ => true
  | .cancel i =>
    match c.threads i with
    | some ⟨.worker _, _, _⟩ => false
    | _ => true
  | _ => true

/-- The token answers without faults, and no worker dies. -/
def FaultlessStep (c : Config Op.Ans (Shared P) Party ThreadResult)
    (a : Action Choice (EnvAction P) Party) : Bool :=
  match a with
  | .exec i e =>
    match c.threads i with
    | some ⟨_, _, .call (.token q) _⟩ => q.faultless (e.token q)
    | _ => true
  | .cancel i =>
    match c.threads i with
    | some ⟨.worker _, _, _⟩ => false
    | _ => true
  | _ => true

variable {P cfg} {c c' : Config Op.Ans (Shared P) Party ThreadResult}
  {a : Action Choice (EnvAction P) Party}

/-- No worker dies in a healthy step. -/
lemma noWorkerDies_of_healthy (h : HealthyStep P cfg c a = true) : NoWorkerDies c a := by
  rintro i session hist p rfl ht
  simp [HealthyStep, ht] at h

/-- Every job is answered with a result that is not held against the token. -/
lemma answers_sound : System.Sound (pooledProxy P cfg) (fun c a => HealthyStep P cfg c a)
    (fun _ => answerContract P) (fun _ _ _ => True) (fun _ tr => True ∧
      ∀ en ∈ tr, (answerContract P).pre ((answerContract P).ghost en.hist) en.event.1) := by
  have hbase : System.Sound (pooledProxy P cfg) (fun c a => HealthyStep P cfg c a)
      (fun _ => answerContract P) (fun _ _ _ => True) (fun _ _ => True) := by
    refine proxy_sound (fun rpc => pooled_answers P cfg rpc) (fun _ g w _ => iterate_answers P w g)
      (fun c i e l o k a s' _ hH ht _ he => ⟨?_, True.intro⟩) (fun _ _ _ _ _ _ _ _ _ => True.intro)
      fun _ _ _ _ => True.intro
    cases o with
    | token q =>
      unfold execOp at he
      obtain ⟨t, -, heq⟩ := Option.map_eq_some_iff.mp he
      obtain ⟨rfl, -⟩ := Prod.mk.inj heq
      have hwelcome : healthyOp P cfg l e c.shared (.token q) = true := by
        simpa [HealthyStep, ht] using hH
      exact hwelcome
    | _ => exact True.intro
  exact hbase.obeying

/-- What is known of the answers in a healthy run. -/
abbrev Answering (c : Config Op.Ans (Shared P) Party ThreadResult) : Prop :=
  System.Outline (fun _ => answerContract P) (fun _ _ _ => True) (fun _ tr => True ∧
    ∀ en ∈ tr, (answerContract P).pre ((answerContract P).ghost en.hist) en.event.1) c

/-- A job was answered with a result that is not held against the token. -/
lemma Answering.blameless (hc : Answering c) {j : ℕ} {r : JobResult}
    (h : (⟨.pool (.respond j r), ()⟩ : Event Op.Ans) ∈ c.trace.map Entry.event) : Blameless r := by
  obtain ⟨en, hen, hevent⟩ := List.mem_map.mp h
  have hpre := hc.inv.2 en hen
  rw [hevent] at hpre
  exact hpre

/-- What is known of the jobs, the channels and the answers in a healthy run. -/
structure Attended (c : Config Op.Ans (Shared P) Party ThreadResult) : Prop where
  delivering : Delivering c
  waiting : Waiting c
  answering : Answering c

/-- After the start no job is outstanding and nobody listens. -/
lemma attended_started {t₀ : ℕ} {sessions : List SessionHandle} {token : P.token.State} :
    Attended (started P t₀ sessions token) where
  delivering := delivering_started
  waiting := waiting_started
  answering := outline_started (fun _ => iterate_answers P _ _)
    ⟨True.intro, fun _ hen => absurd hen List.not_mem_nil⟩

/-- A healthy step keeps it. -/
lemma attended_step (hc : Attended c) (ha : HealthyStep P cfg c a = true)
    (h : (pooledProxy P cfg).step c a = some c') : Attended c' where
  delivering := delivering_step hc.delivering h
  waiting := waiting_step hc.waiting (noWorkerDies_of_healthy ha) h
  answering := answers_sound.step hc.answering ha h

/-- No failure has got near the breaker: no load has failed, the circuit has never been opened, no
handler has a failure to report, and none has been reported. -/
structure Calm (s : Shared P) (tr : List (Entry Op.Ans (Shared P) Party)) : Prop where
  loads : ∀ k l err, s.cache.loads k = some l → l.outcome ≠ some (.error err)
  closed : s.breaker.state = .closed
  neverOpened : s.breaker.window.openedAt = none
  unblamed : ∀ i, (failureLog (histOf tr i)).blamed = none
  unreported : ∀ en ∈ tr, en.event.1 ≠ .breaker .recordFailure

/-- Then a key lookup depends on its own accepted and answered job alone. -/
lemma Calm.ownFailures (h : Calm c.shared c.trace) {i : ℕ} {e : Choice} {l : Party} {o : Op}
    {k : o.Ans → Prog Op.Ans ThreadResult} (hc : Attended c)
    (hhealthy : HealthyStep P cfg c (.exec i e) = true)
    (ht : c.threads i = some ⟨l, histOf c.trace i, .call o k⟩) :
    OwnFailures cfg c (.exec i e) = true := by
  have hstep : healthyOp P cfg l e c.shared o = true := by
    simpa [HealthyStep, ht] using hhealthy
  suffices hown : l.looksUp = true → ownStep cfg c.shared o = true by
    cases hlooks : l.looksUp with
    | false => simp [OwnFailures, ht, hlooks]
    | true => simpa [OwnFailures, ht, hlooks] using hown hlooks
  intro hlooks
  cases o with
  | cache q =>
    cases q with
    | wait ticket =>
      simp only [ownStep]
      split
      · rename_i label owner err hload
        exact absurd rfl (h.loads _ _ err hload)
      · rfl
    | _ => rfl
  | pool q =>
    cases q with
    | trySend request t => simpa [healthyOp, ownStep, hlooks] using hstep
    | awaitResult j d =>
      obtain ⟨o, ho, -, hreceiver⟩ := hc.waiting.listens_of_await ht
      simp only [ownStep]
      split
      · rename_i owner receiver hclosed
        have hdead := hc.waiting.channels.answered j _ hclosed rfl rfl
        rw [hclosed] at ho
        obtain rfl := Option.some.inj ho
        rw [hdead] at hreceiver
        cases hreceiver
      · rfl
    | _ => rfl
  | _ => rfl

/-- No step of a healthy run puts blame on a job. -/
lemma blames_ne_some {i : ℕ} {e : Choice} {l : Party} {o : Op}
    {k : o.Ans → Prog Op.Ans ThreadResult} {ans : o.Ans} {s' : Shared P}
    (hc : Attended c) (hhealthy : HealthyStep P cfg c (.exec i e) = true)
    (ht : c.threads i = some ⟨l, histOf c.trace i, .call o k⟩)
    (he : execOp cfg e i c.shared o = some (ans, s')) (j : ℕ) :
    blames (⟨o, ans⟩ : Event Op.Ans) ≠ some j := by
  intro hblames
  have hstep : healthyOp P cfg l e c.shared o = true := by
    simpa [HealthyStep, ht] using hhealthy
  obtain ⟨d, helapsed | ⟨err, herr, hvalue⟩⟩ := blames_eq hblames
  · cases helapsed
    obtain ⟨p, hp, -⟩ := execOp_pool.mp he
    obtain ⟨o, ho, -, ⟨r, -, heq⟩ | ⟨-, -, heq⟩ | ⟨hnone, -, hlate, -⟩⟩ :=
      PoolState.exec_awaitResult hp
    · cases heq
    · cases heq
    · have hlate' : ¬c.shared.now < d := Nat.not_lt.mpr hlate
      simp [healthyOp, ho, hnone, hlate'] at hstep
  · cases hvalue
    obtain ⟨p, hp, -⟩ := execOp_pool.mp he
    have hblameless := hc.answering.blameless (hc.delivering.inv.responded_of_value hp) err rfl
    rw [herr] at hblameless
    cases hblameless

/-- The breaker stays closed in every step but a reported failure. -/
lemma exec_stays_closed {bcfg : BreakerConfig} {now : ℕ} {b : Breaker} {q : BreakerOp}
    (hq : q ≠ .recordFailure) (hclosed : b.state = .closed) (hopened : b.window.openedAt = none) :
    (b.exec bcfg now q).2.state = .closed ∧ (b.exec bcfg now q).2.window.openedAt = none := by
  cases q with
  | load => exact ⟨hclosed, hopened⟩
  | probe =>
    have hcold : Breaker.cooledDown bcfg now b.window = false := by
      simp [Breaker.cooledDown, hopened]
    simp [Breaker.exec, Breaker.probe, hcold, hclosed, hopened]
  | recordSuccess =>
    simp [Breaker.exec, Breaker.recordSuccess, hclosed, hopened]
  | recordFailure => exact absurd rfl hq

/-- One step of a thread in a healthy run. -/
lemma Calm.exec (h : Calm c.shared c.trace) {i : ℕ} {e : Choice} {l : Party} {o : Op}
    {k : o.Ans → Prog Op.Ans ThreadResult} {ans : o.Ans} {s' : Shared P}
    (hc : Attended c) (hhealthy : HealthyStep P cfg c (.exec i e) = true)
    (ht : c.threads i = some ⟨l, histOf c.trace i, .call o k⟩)
    (hpre : (failureContract l).pre (failureLog (histOf c.trace i)) o)
    (he : execOp cfg e i c.shared o = some (ans, s')) :
    Calm s' (c.trace ++ [⟨i, l, histOf c.trace i, c.shared, ⟨o, ans⟩⟩]) := by
  have hunblamed : ¬(failureLog (histOf c.trace i)).blamed.isSome := by
    rw [h.unblamed i]
    exact Bool.false_ne_true
  have hreport : o ≠ .breaker .recordFailure := by
    rintro rfl
    exact hunblamed hpre.1
  have hbreaker : s'.breaker.state = .closed ∧ s'.breaker.window.openedAt = none := by
    by_cases hb : ∃ q, o = .breaker q
    · obtain ⟨q, rfl⟩ := hb
      obtain ⟨-, rfl⟩ := execOp_breaker.mp he
      exact exec_stays_closed (fun hq => hreport (congrArg Op.breaker hq)) h.closed h.neverOpened
    · rw [(execOp_frame he).breaker fun q hq => hb ⟨q, hq⟩]
      exact ⟨h.closed, h.neverOpened⟩
  refine ⟨fun n load err hload hfailed => ?_, hbreaker.1, hbreaker.2, fun i' => ?_, fun en hen => ?_⟩
  · by_cases hcache : ∃ q, o = .cache q
    · obtain ⟨q, rfl⟩ := hcache
      obtain ⟨p, hp, rfl⟩ := execOp_cache.mp he
      rcases CacheState.exec_outcome hp hload hfailed with ⟨l₀, hl₀, hfailed₀⟩ | rfl
      · exact h.loads n l₀ err hl₀ hfailed₀
      · exact hunblamed hpre
    · rw [(execOp_frame he).cache fun q hq => hcache ⟨q, hq⟩] at hload
      exact h.loads n load err hload hfailed
  · refine Option.eq_none_iff_forall_ne_some.mpr fun j hj => ?_
    rw [histOf_snoc] at hj
    split at hj
    · rename_i hself
      obtain rfl : i = i' := hself
      rw [failureLog_snoc] at hj
      rcases note_blamed hj with hblames | hblamed
      · exact blames_ne_some hc hhealthy ht he j hblames
      · rw [h.unblamed] at hblamed
        cases hblamed
    · rw [h.unblamed] at hj
      cases hj
  · rcases List.mem_append.mp hen with hen | hen
    · exact h.unreported en hen
    · obtain rfl := List.mem_singleton.mp hen
      exact hreport

/-- Dropping a thread fails no load and leaves the breaker alone. -/
lemma Calm.release {s : Shared P} {tr : List (Entry Op.Ans (Shared P) Party)} (h : Calm s tr)
    (i : ℕ) (l : Party) : Calm (release P i l s) tr := by
  cases l with
  | worker session => exact ⟨h.loads, h.closed, h.neverOpened, h.unblamed, h.unreported⟩
  | rpc rpc =>
    refine ⟨fun k load err hload hfailed => ?_, h.closed, h.neverOpened, h.unblamed, h.unreported⟩
    obtain ⟨l₀, hl₀, rfl⟩ := Option.map_eq_some_iff.mp hload
    refine h.loads k l₀ err hl₀ ?_
    split at hfailed
    · exact hfailed
    · exact hfailed

/-- The environment fails no load and leaves the breaker alone. -/
lemma Calm.env {s : Shared P} {tr : List (Entry Op.Ans (Shared P) Party)} (h : Calm s tr)
    (v : EnvAction P) : Calm (envStep P v s) tr := by
  cases v <;> exact ⟨h.loads, h.closed, h.neverOpened, h.unblamed, h.unreported⟩

/-- The obligations of the shared-invariant method. -/
lemma calm_sound : System.Sound (pooledProxy P cfg)
    (fun c a => HealthyStep P cfg c a = true ∧ Attended c) failureContract (fun _ _ _ => True)
    Calm := by
  refine proxy_sound (fun rpc => pooled_failures P cfg rpc) (fun _ g w _ => iterate_failures P w g)
    ?_ (fun _ i l _ _ hc _ _ _ => hc.inv.release i l) fun _ v hc _ => hc.inv.env v
  rintro c i e l o k ans s' hc ⟨hhealthy, hatt⟩ ht hpre he
  have hown := hc.inv.ownFailures hatt hhealthy ht
  exact ⟨failureContract_post hatt.delivering hown ht he, hc.inv.exec hatt hhealthy ht hpre he⟩

/-- In every run of the pooled service in which the token gives welcome answers only, the job of a
key lookup finds room in the queue, results arrive before the deadline of who waits for them, and no
worker dies, the circuit is closed and no failure has been reported, whatever the requests. -/
theorem closed_of_healthy {t₀ : ℕ} {sessions : List SessionHandle} {token : P.token.State}
    {as : List (Action Choice (EnvAction P) Party)}
    {c : Config Op.Ans (Shared P) Party ThreadResult}
    (hrun : (pooledProxy P cfg).run (started P t₀ sessions token) as = some c)
    (hhealthy : (pooledProxy P cfg).Throughout (fun c a => HealthyStep P cfg c a)
      (started P t₀ sessions token) as) :
    c.shared.breaker.state = .closed ∧ ∀ en ∈ c.trace, en.event.1 ≠ .breaker .recordFailure := by
  have hthrough := hhealthy.and_kept (fun _ _ _ => attended_step) attended_started
  have hstart : System.Outline failureContract (fun _ _ _ => True) Calm
      (started P t₀ sessions token) :=
    outline_started (fun session => iterate_failures P _ _)
      ⟨(fun _ _ _ hload => nomatch hload), rfl, rfl, fun _ => rfl,
        fun en hen => absurd hen List.not_mem_nil⟩
  have hcalm := (calm_sound.run hstart hthrough hrun).inv
  exact ⟨hcalm.closed, hcalm.unreported⟩

end

/-- A signature, and a lookup of a public key. -/
def signedThenLookedUp : List (Action Choice (EnvAction anyPlatform) Party) :=
  [.exec 0 .success, .spawn (.rpc signCall)] ++ execs 1 5 .success ++ execs 0 10 .success ++
    execs 1 3 .success ++ [.again 0, .exec 0 .success, .spawn (.rpc lookupCall)] ++
    execs 2 7 .success ++ execs 0 11 .success ++ execs 2 4 .success

/-- Both succeed, and the circuit is closed. -/
theorem closed_signed_then_looked_up :
    ∃ c : Config Op.Ans (Shared anyPlatform) Party ThreadResult,
      (pooledProxy anyPlatform (.plain 1 1)).run (started _ 0 [7] ()) signedThenLookedUp = some c ∧
      c.shared.breaker.window.successes = 2 ∧ c.shared.breaker.state = .closed := by
  have hsuccesses : ((pooledProxy anyPlatform (.plain 1 1)).run (started _ 0 [7] ())
      signedThenLookedUp).map (fun c => c.shared.breaker.window.successes) = some 2 := by
    decide +kernel
  have hhealthy : (pooledProxy anyPlatform (.plain 1 1)).Throughout
      (fun c a => HealthyStep anyPlatform (.plain 1 1) c a) (started _ 0 [7] ())
      signedThenLookedUp := by
    decide +kernel
  obtain ⟨c, hrun, hc⟩ := Option.map_eq_some_iff.mp hsuccesses
  exact ⟨c, hrun, hc, (closed_of_healthy hrun hhealthy).1⟩

/-- A signature with a key of another type: `C_Sign` says that the type does not fit. -/
def wrongKeyType : List (Action Choice (EnvAction anyPlatform) Party) :=
  [.exec 0 .success, .spawn (.rpc signCall)] ++ execs 1 5 .success ++ execs 0 4 .success ++
    [.exec 0 (.failing (.pkcs11 .keyTypeInconsistent))] ++ execs 0 6 .success ++ execs 1 2 .success

/-- The token has no faults and no worker dies, and the circuit is open. -/
theorem open_on_wrong_key_type :
    (pooledProxy anyPlatform (.plain 1 1)).Throughout (fun c a => FaultlessStep anyPlatform c a)
      (started _ 0 [7] ()) wrongKeyType ∧
    ((pooledProxy anyPlatform (.plain 1 1)).run (started _ 0 [7] ()) wrongKeyType).map
      (fun c => (c.shared.now, c.shared.breaker.state)) = some (0, .open) := by
  constructor
  · decide +kernel
  · decide +kernel

end HsmProxy
