import HsmProxy.Grpc.ErrorClass
import HsmProxy.Pkcs11.Delivery
import Mathlib.Algebra.Order.BigOperators.Group.Finset

/-!
# How many failures the breaker is told about

A handler reports its own job at most once, and jobs of different handlers are different; so as
long as every failure a handler reports is one of its own job, the breaker is told about at most as
many failures as there are failed jobs.  `FailureLog` is the account of a single handler.
`OwnFailures` is the condition: a key lookup does not take over the error of another handler's
load, and its own job is neither refused nor lost.
-/

namespace HsmProxy

open Interleaving Interleaving.Prog

/-! ## Failed jobs and reported failures -/

/-- A failure is reported to the breaker. -/
def failureReports : Event Op.Ans → ℕ
  | ⟨.breaker .recordFailure, _⟩ => 1
  | _ => 0

/-- The job an event shows to have failed in the token or in the worker, or to have timed out. -/
def failedJob : Event Op.Ans → Option ℕ
  | ⟨.pool (.respond j (.error e)), _⟩ => if e.blamesToken then some j else none
  | ⟨.pool (.awaitResult j _), .elapsed⟩ => some j
  | _ => none

/-- The jobs that failed in the token or in the worker, or timed out. -/
def failedJobs {S : Type} (tr : List (Entry Op.Ans S Party)) : Finset ℕ :=
  ((tr.map Entry.event).filterMap failedJob).toFinset

/-- Failed jobs stay failed. -/
lemma failedJobs_subset_snoc {S : Type} (tr : List (Entry Op.Ans S Party))
    (en : Entry Op.Ans S Party) : failedJobs tr ⊆ failedJobs (tr ++ [en]) := by
  intro j hj
  rw [failedJobs, List.mem_toFinset] at hj ⊢
  rw [List.map_append, List.filterMap_append]
  exact List.mem_append_left _ hj

/-- An event of the trace that shows a failed job. -/
lemma mem_failedJobs {S : Type} {tr : List (Entry Op.Ans S Party)} {ev : Event Op.Ans} {j : ℕ}
    (hev : ev ∈ tr.map Entry.event) (hj : failedJob ev = some j) : j ∈ failedJobs tr := by
  rw [failedJobs, List.mem_toFinset, List.mem_filterMap]
  exact ⟨ev, hev, hj⟩

/-! ## The account of a handler -/

/-- The job a handler has sent, the own job it knows to have failed, and the number of failures it
has reported. -/
structure FailureLog where
  sent : Option (ℕ × JobRequest)
  blamed : Option ℕ
  reported : ℕ

namespace FailureLog

/-- The account of a handler that has done nothing. -/
def empty : FailureLog := ⟨none, none, 0⟩

/-- One more event. -/
def note (g : FailureLog) : Event Op.Ans → FailureLog
  | ⟨.pool (.trySend request _), .ok j⟩ => { g with sent := some (j, request) }
  | ⟨.pool (.awaitResult j _), .value (.error e)⟩ =>
    if e.blamesToken then { g with blamed := some j } else g
  | ⟨.pool (.awaitResult j _), .elapsed⟩ => { g with blamed := some j }
  | ⟨.breaker .recordFailure, _⟩ => { g with reported := g.reported + 1 }
  | _ => g

end FailureLog

/-- The account after a history. -/
def failureLog (h : List (Event Op.Ans)) : FailureLog := h.foldl FailureLog.note .empty

/-- One more event. -/
@[simp] lemma failureLog_snoc (h : List (Event Op.Ans)) (ev : Event Op.Ans) :
    failureLog (h ++ [ev]) = (failureLog h).note ev := by
  simp [failureLog, List.foldl_append]

/-- An event sends the same job for both logs. -/
lemma note_sent {f : FailureLog} {g : JobLog} (hsent : f.sent = g.sent) (ev : Event Op.Ans) :
    (f.note ev).sent = (g.note ev).sent := by
  obtain ⟨o, a⟩ := ev
  cases o with
  | breaker b => cases b <;> exact hsent
  | pool q =>
    cases q with
    | trySend request t => cases a <;> first | rfl | exact hsent
    | awaitResult j d =>
      rcases a with (e | response) | _ | _
      · cases e <;> exact hsent
      · exact hsent
      · exact hsent
      · exact hsent
    | poll => cases a <;> exact hsent
    | unpark => cases a <;> exact hsent
    | respond j r => exact hsent
    | count c n => cases c <;> exact hsent
  | _ => exact hsent

/-- Both logs know the same job. -/
lemma failureLog_sent (h : List (Event Op.Ans)) : (failureLog h).sent = (jobLog h).sent := by
  induction h using List.reverseRecOn with
  | nil => rfl
  | append_singleton h ev ih =>
    rw [failureLog_snoc, jobLog_snoc]
    exact note_sent ih ev

/-- The calls that look a key up. -/
def Party.looksUp : Party → Bool
  | .rpc method => method.readsPublicKey
  | .worker _ => false

/-- A failure is reported once, and for a failed job of one's own; so is the error of a load
published.  A key lookup relies on not being handed the error of another load, and on its job being
accepted and answered; an answer is one of the worker to the request. -/
def failureContract (party : Party) : Contract Op.Ans FailureLog where
  init := .empty
  next g o a := g.note ⟨o, a⟩
  pre g
    | .breaker .recordFailure => g.blamed.isSome ∧ g.reported = 0
    | .cache (.finish _ (.error _)) => g.blamed.isSome
    | _ => True
  post g
    | .cache (.wait _), .finished (.error _) => party.looksUp = false
    | .pool (.trySend _ _), .error _ => party.looksUp = false
    | .pool (.awaitResult _ _), .closed => party.looksUp = false
    | .pool (.awaitResult j _), .value result => ∀ request, g.sent = some (j, request) →
        ∃ session ops, Worker.EndsWith session request ops result
    | _, _ => True

section

variable (P : Platform) (cfg : ServiceConfig)

/-- The steps at which a failure is learned of, published or reported. -/
def Op.tellsFailure : Op → Bool
  | .breaker .recordFailure => true
  | .cache (.finish _ (.error _)) => true
  | .pool _ => true
  | _ => false

/-- The contract does not look at the other steps. -/
lemma failureContract_skip {party : Party} {o : Op} (ho : o.tellsFailure = false)
    (g : FailureLog) :
    (failureContract party).pre g o ∧ ∀ a, (failureContract party).next g o a = g := by
  cases o with
  | pool q => cases ho
  | breaker b =>
    cases b with
    | recordFailure => cases ho
    | _ => exact ⟨True.intro, fun _ => rfl⟩
  | cache q =>
    cases q with
    | finish k outcome =>
      cases outcome with
      | error e => cases ho
      | ok value => exact ⟨True.intro, fun _ => rfl⟩
    | _ => exact ⟨True.intro, fun _ => rfl⟩
  | _ => exact ⟨True.intro, fun _ => rfl⟩

/-- Neither admission nor counting is such a step. -/
lemma tellsFailure_eq_false {o : Op} (ho : o.admits ∨ o.records ∨ o.countsLookup) :
    o.tellsFailure = false := by
  cases o with
  | pool q => rcases ho with ho | ho | ho <;> cases ho
  | breaker b =>
    cases b with
    | recordFailure => rcases ho with ho | ho | ho <;> cases ho
    | _ => rfl
  | cache q =>
    cases q with
    | finish k outcome => rcases ho with ho | ho | ho <;> cases ho
    | _ => rfl
  | _ => rfl

/-- How a submission ends, before anything is reported: with a response to its request; or with its
job blamed; or with an error that is not reported as a failure, which in a key lookup comes from the
worker. -/
def SubmitOutcome (party : Party) (request : JobRequest) (g : FailureLog) (r : JobResult) : Prop :=
  g.reported = 0 ∧
    match r with
    | .ok response => ∃ session ops, Worker.Performed session request response ops
    | .error e => g.blamed.isSome ∨
        ((toStatus e).code ≠ .internal ∧ (toStatus e).code ≠ .deadlineExceeded ∧
          (party.looksUp → Worker.FailsWith request e))

/-- Every submission ends so. -/
lemma submit_failures {party : Party} (request : JobRequest) :
    (submit cfg request).Meets (failureContract party) (SubmitOutcome party request) .empty := by
  refine ⟨True.intro, fun _ _ => ⟨True.intro, fun _ _ => ⟨True.intro, fun sent hsent => ?_⟩⟩⟩
  cases sent with
  | error refusal =>
    have hown : party.looksUp = false := hsent
    have hnot : ∀ {p : Prop}, party.looksUp → p := fun h => by rw [hown] at h; cases h
    cases refusal with
    | full =>
      exact ⟨True.intro, fun _ _ => ⟨rfl, Or.inr ⟨Code.noConfusion, Code.noConfusion, hnot⟩⟩⟩
    | disconnected => exact ⟨rfl, Or.inr ⟨Code.noConfusion, Code.noConfusion, hnot⟩⟩
  | ok j =>
    refine ⟨True.intro, fun _ _ => ⟨True.intro, fun awaited hawaited => ?_⟩⟩
    cases awaited with
    | value result =>
      obtain ⟨session, ops, hends⟩ := hawaited request rfl
      cases result with
      | ok response => exact ⟨rfl, session, ops, hends⟩
      | error e =>
        cases e with
        | hsm operation source => exact ⟨rfl, Or.inl rfl⟩
        | internal message => exact ⟨rfl, Or.inl rfl⟩
        | timeout => cases request <;> cases hends
        | _ => exact ⟨rfl, Or.inr ⟨Code.noConfusion, Code.noConfusion, fun _ => hends⟩⟩
    | closed =>
      have hown : party.looksUp = false := hawaited
      have hnot : ∀ {p : Prop}, party.looksUp → p := fun h => by rw [hown] at h; cases h
      exact ⟨rfl, Or.inr ⟨Code.noConfusion, Code.noConfusion, hnot⟩⟩
    | elapsed => exact ⟨True.intro, fun _ _ => ⟨rfl, Or.inl rfl⟩⟩

/-- A failure may be reported once the job is blamed; nothing else is looked at. -/
lemma observe_failures {α : Type} {party : Party} {g : FailureLog} {r : Except Status α}
    (hreported : g.reported = 0)
    (hblamed : ∀ st, r = .error st → st.code = .internal ∨ st.code = .deadlineExceeded →
      g.blamed.isSome) :
    (observe r).Meets (failureContract party) (fun _ _ => True) g := by
  cases r with
  | ok a => exact ⟨True.intro, fun _ _ => True.intro⟩
  | error st =>
    have hst := hblamed st rfl
    obtain ⟨code, message⟩ := st
    cases code with
    | internal => exact ⟨⟨hst (Or.inl rfl), hreported⟩, fun _ _ => True.intro⟩
    | deadlineExceeded => exact ⟨⟨hst (Or.inr rfl), hreported⟩, fun _ _ => True.intro⟩
    | _ => exact ⟨True.intro, fun _ _ => True.intro⟩

/-- A key lookup fails only with its own job blamed. -/
lemma getOrLoad_failures {party : Party} (hparty : party.looksUp) (keyLabel : String) :
    (getOrLoad keyLabel (loadPublicKey cfg keyLabel)).Meets (failureContract party)
      (fun g r => g.reported = 0 ∧ ∀ e, r = .error e → g.blamed.isSome) .empty := by
  have hrun : ∀ k, (runLoad k (loadPublicKey cfg keyLabel)).Meets (failureContract party)
      (fun g r => ∀ wasPresent : Bool, g.reported = 0 ∧
        ∀ e, r.map (fun found => (found, wasPresent)) = .error e → g.blamed.isSome) .empty := by
    intro k
    rw [meets_runLoad]
    refine (submit_failures cfg _).mono fun g r hr => ?_
    obtain ⟨hreported, hr⟩ := hr
    have hblamed : ∀ e, loadOutcome r = .error e → g.blamed.isSome := by
      intro e he
      cases r with
      | ok response =>
        obtain ⟨session, ops, hperformed⟩ := hr
        cases response with
        | publicKey spkiDer keyType => cases he
        | _ => cases hperformed
      | error e' =>
        rcases hr with hblamed | ⟨hinternal, -, hfails⟩
        · exact hblamed
        · have hfails := hfails hparty
          cases e' with
          | keyNotFound label => cases he
          | internal message => exact absurd rfl hinternal
          | _ => cases hfails
    cases houtcome : loadOutcome r with
    | error e =>
      exact ⟨hblamed e houtcome, fun _ _ wasPresent => ⟨hreported, fun _ _ => hblamed e houtcome⟩⟩
    | ok value =>
      exact ⟨True.intro, fun _ _ wasPresent => ⟨hreported, fun e he => by cases he⟩⟩
  refine meets_getOrLoad (fun g o ho => failureContract_skip
    (tellsFailure_eq_false (Or.inr (Or.inr ho))) g) ⟨True.intro, fun entered _ => ?_⟩
  cases entered with
  | hit value => exact fun _ => ⟨rfl, fun e he => by cases he⟩
  | own k => exact hrun k
  | join k =>
    refine ⟨True.intro, fun joined hjoined => ?_⟩
    cases joined with
    | own => exact hrun k
    | finished outcome =>
      cases outcome with
      | ok value => exact fun _ => ⟨rfl, fun e he => by cases he⟩
      | error e =>
        have hother : party.looksUp = false := hjoined
        rw [hparty] at hother
        cases hother

/-- A handler keeps to the contract. -/
theorem pooled_failures (rpc : Rpc) :
    (pooled P cfg rpc).Meets (failureContract (.rpc rpc)) (fun _ _ => True) .empty := by
  refine meets_pooled P cfg
    (fun g o ho => failureContract_skip (tellsFailure_eq_false (Or.inl ho)) g)
    (fun g o ho => failureContract_skip (tellsFailure_eq_false (Or.inr (Or.inl ho))) g)
    (fun _ => True.intro) fun p hp => ?_
  cases p with
  | job drawsIv request finish =>
    rw [meets_perform_job]
    refine (drawIv_only drawsIv).meets (fun o ho => ?_) fun iv => ?_
    · subst ho
      exact failureContract_skip rfl _
    · rw [meets_submitObserved]
      refine (submit_failures cfg _).mono fun g r hr => ?_
      refine observe_failures hr.1 fun st hst hcode => ?_
      cases r with
      | ok response => cases hst
      | error e =>
        obtain rfl := Except.error.inj hst
        rcases hr.2 with hblamed | ⟨hinternal, hdeadline, -⟩
        · exact hblamed
        · rcases hcode with hcode | hcode
          · exact absurd hcode hinternal
          · exact absurd hcode hdeadline
  | key finish =>
    have hparty : (Party.rpc rpc).looksUp := plan_key P hp
    rw [meets_perform_key, meets_publicKey]
    refine (getOrLoad_failures cfg hparty _).mono fun g r hr => ?_
    refine observe_failures hr.1 fun st hst _ => ?_
    cases r with
    | ok found => cases hst
    | error e => exact hr.2 e rfl

/-- A worker reports nothing. -/
theorem iterate_failures {session : SessionHandle} (w : Worker) (g : FailureLog) :
    (Worker.iterate P w).Meets (failureContract (.worker session)) (fun _ _ => True) g := by
  refine (Worker.iterate_only P w).meets_of_invariant (J := fun _ => True) (fun g o _ ho => ?_)
    True.intro fun _ _ _ => True.intro
  cases o with
  | breaker b => cases ho
  | cache q => cases ho
  | _ => exact ⟨True.intro, fun _ => True.intro⟩

/-! ## Every run -/

variable {P cfg}

/-- In this state a key lookup does not take over the error of another handler's load, its job is
not refused, and the channel of its job is not closed without an answer. -/
def ownStep (cfg : ServiceConfig) (s : Shared P) : Op → Bool
  | .cache (.wait ticket) =>
    match s.cache.loads ticket with
    | some ⟨_, _, some (.error _)⟩ => false
    | _ => true
  | .pool (.trySend _ _) => s.pool.receivers ≠ 0 ∧
      (s.pool.parked ≠ [] ∨ s.pool.queue.length < cfg.pool.queueDepth)
  | .pool (.awaitResult j _) =>
    match s.pool.oneshots j with
    | some ⟨_, none, false, _⟩ => false
    | _ => true
  | _ => true

/-- No step of a key lookup takes over the error of another handler's load, has its job refused, or
finds the channel of its job closed without an answer. -/
def OwnFailures (cfg : ServiceConfig) (c : Config Op.Ans (Shared P) Party ThreadResult)
    (a : Action Choice (EnvAction P) Party) : Bool :=
  match a with
  | .exec i _ =>
    match c.threads i with
    | some ⟨l, _, .call o _⟩ => !l.looksUp || ownStep cfg c.shared o
    | _ => true
  | _ => true

/-- Who is blamed has failed, and is the handler's own job. -/
def Blamed (_ : Shared P) (tr : List (Entry Op.Ans (Shared P) Party)) : Prop :=
  ∀ i j, (failureLog (histOf tr i)).blamed = some j →
    j ∈ failedJobs tr ∧ ∃ job, job.id = j ∧ (i, job) ∈ sentJobs tr

/-- The job an event puts the blame on. -/
def blames : Event Op.Ans → Option ℕ
  | ⟨.pool (.awaitResult j _), .value (.error e)⟩ => if e.blamesToken then some j else none
  | ⟨.pool (.awaitResult j _), .elapsed⟩ => some j
  | _ => none

/-- A job is blamed by an event, or was blamed before. -/
lemma note_blamed {g : FailureLog} {ev : Event Op.Ans} {j : ℕ}
    (h : (g.note ev).blamed = some j) : blames ev = some j ∨ g.blamed = some j := by
  obtain ⟨o, a⟩ := ev
  cases o with
  | breaker b => cases b <;> exact Or.inr h
  | pool q =>
    cases q with
    | trySend request t => cases a <;> exact Or.inr h
    | awaitResult j' d =>
      rcases a with (e | response) | _ | _
      · cases e with
        | hsm operation source => exact Or.inl h
        | internal message => exact Or.inl h
        | _ => exact Or.inr h
      · exact Or.inr h
      · exact Or.inr h
      · exact Or.inl h
    | _ => exact Or.inr h
  | _ => exact Or.inr h

/-- An event that puts the blame on a job ends the wait for it: with an error the job was answered
with, or with the deadline. -/
lemma blames_eq {ev : Event Op.Ans} {j : ℕ} (h : blames ev = some j) :
    ∃ d, ev = ⟨.pool (.awaitResult j d), .elapsed⟩ ∨
      ∃ e, e.blamesToken ∧ ev = ⟨.pool (.awaitResult j d), .value (.error e)⟩ := by
  obtain ⟨o, a⟩ := ev
  cases o with
  | pool q =>
    cases q with
    | awaitResult j' d =>
      rcases a with (e | response) | _ | _
      · by_cases he : e.blamesToken
        · have hj : some j' = some j := by simpa [blames, he] using h
          obtain rfl := Option.some.inj hj
          exact ⟨d, Or.inr ⟨e, he, rfl⟩⟩
        · simp [blames, he] at h
      · cases h
      · cases h
      · obtain rfl := Option.some.inj h
        exact ⟨d, Or.inl rfl⟩
    | _ => cases h
  | _ => cases h

/-- After an operation, who is blamed has failed, and is the handler's own job. -/
lemma Blamed.exec {c : Config Op.Ans (Shared P) Party ThreadResult} (h : Blamed c.shared c.trace)
    (hc : Delivering c) {e : Choice} {i : ℕ} {l : Party} {o : Op}
    {k : o.Ans → Prog Op.Ans ThreadResult} {a : o.Ans} {s' : Shared P}
    (ht : c.threads i = some ⟨l, histOf c.trace i, .call o k⟩)
    (he : execOp cfg e i c.shared o = some (a, s')) :
    Blamed s' (c.trace ++ [⟨i, l, histOf c.trace i, c.shared, ⟨o, a⟩⟩]) := by
  intro i' j hj
  have hmono := failedJobs_subset_snoc c.trace ⟨i, l, histOf c.trace i, c.shared, ⟨o, a⟩⟩
  rw [sentJobs_snoc]
  have hold : (failureLog (histOf c.trace i')).blamed = some j →
      j ∈ failedJobs (c.trace ++ [⟨i, l, histOf c.trace i, c.shared, ⟨o, a⟩⟩]) ∧
      ∃ job, job.id = j ∧ (i', job) ∈ sentJobs c.trace ++
        (sentJob ⟨i, l, histOf c.trace i, c.shared, ⟨o, a⟩⟩).toList := fun hj => by
    obtain ⟨hfailed, job, hid, hsent⟩ := h i' j hj
    exact ⟨hmono hfailed, job, hid, List.mem_append_left _ hsent⟩
  rw [histOf_snoc] at hj
  split at hj
  · rename_i hi
    obtain rfl : i = i' := hi
    rw [failureLog_snoc] at hj
    rcases note_blamed hj with hblames | hj
    · obtain ⟨d, hev⟩ := blames_eq hblames
      have ho : o = .pool (.awaitResult j d) := by
        rcases hev with hev | ⟨e', -, hev⟩ <;> exact congrArg Sigma.fst hev
      subst ho
      obtain ⟨job, hid, hsent, -⟩ := hc.sent_of_await ht
      refine ⟨?_, job, hid, List.mem_append_left _ hsent⟩
      rcases hev with hev | ⟨e', hblame, hev⟩
      · have ha : a = .elapsed := by cases hev; rfl
        subst ha
        have helapsed : failedJob ⟨.pool (.awaitResult j d), .elapsed⟩ = some j := rfl
        refine mem_failedJobs ?_ helapsed
        rw [List.map_append]
        exact List.mem_append_right _ (List.mem_singleton_self _)
      · have ha : a = .value (.error e') := by cases hev; rfl
        subst ha
        obtain ⟨p, hp, -⟩ := execOp_pool.mp he
        refine hmono (mem_failedJobs (hc.inv.responded_of_value hp) ?_)
        exact if_pos hblame
    · exact hold hj
  · exact hold hj

/-- The balance of a history: at most one failure is reported, and only for a blamed job. -/
structure Reported (h : List (Event Op.Ans)) : Prop where
  total_eq : total failureReports h = (failureLog h).reported
  le_one : (failureLog h).reported ≤ 1
  blamed : (failureLog h).reported ≠ 0 → (failureLog h).blamed.isSome

/-- An event that reports no failure. -/
lemma Reported.quiet {h : List (Event Op.Ans)} {ev : Event Op.Ans} (hh : Reported h)
    (hzero : failureReports ev = 0) (hreported : ((failureLog h).note ev).reported =
      (failureLog h).reported)
    (hblamed : (failureLog h).blamed.isSome → ((failureLog h).note ev).blamed.isSome) :
    Reported (h ++ [ev]) where
  total_eq := by rw [total_snoc, failureLog_snoc, hzero, hreported]; exact hh.total_eq
  le_one := by rw [failureLog_snoc, hreported]; exact hh.le_one
  blamed hne := by
    rw [failureLog_snoc, hreported] at hne
    rw [failureLog_snoc]
    exact hblamed (hh.blamed hne)

/-- An allowed step keeps the balance. -/
lemma Reported.snoc {party : Party} {h : List (Event Op.Ans)} {o : Op} (a : o.Ans)
    (hh : Reported h) (hpre : (failureContract party).pre (failureLog h) o) :
    Reported (h ++ [⟨o, a⟩]) := by
  cases o with
  | breaker b =>
    cases b with
    | recordFailure =>
      obtain ⟨hblamed, hreported⟩ := hpre
      have htotal := hh.total_eq
      refine ⟨?_, ?_, fun _ => ?_⟩
      · rw [total_snoc, failureLog_snoc, htotal]
        rfl
      · rw [failureLog_snoc]
        show (failureLog h).reported + 1 ≤ 1
        omega
      · rw [failureLog_snoc]
        exact hblamed
    | _ => exact hh.quiet rfl rfl id
  | pool q =>
    cases q with
    | trySend request t => cases a <;> exact hh.quiet rfl rfl id
    | awaitResult j d =>
      rcases a with (e | response) | _ | _
      · cases e with
        | hsm operation source => exact hh.quiet rfl rfl fun _ => rfl
        | internal message => exact hh.quiet rfl rfl fun _ => rfl
        | _ => exact hh.quiet rfl rfl id
      · exact hh.quiet rfl rfl id
      · exact hh.quiet rfl rfl id
      · exact hh.quiet rfl rfl fun _ => rfl
    | _ => exact hh.quiet rfl rfl id
  | _ => exact hh.quiet rfl rfl id

/-- The answers a key lookup relies on are those that `OwnFailures` leaves; that a job is answered
by the worker that executed its request is a fact about deliveries. -/
lemma failureContract_post {c : Config Op.Ans (Shared P) Party ThreadResult} (hc : Delivering c)
    {e : Choice} {i : ℕ} {l : Party} {o : Op} {k : o.Ans → Prog Op.Ans ThreadResult} {a : o.Ans}
    {s' : Shared P} (hown : OwnFailures cfg c (.exec i e) = true)
    (ht : c.threads i = some ⟨l, histOf c.trace i, .call o k⟩)
    (he : execOp cfg e i c.shared o = some (a, s')) :
    (failureContract l).post (failureLog (histOf c.trace i)) o a := by
  have hown : l.looksUp → ownStep cfg c.shared o := by
    intro hlooks
    simpa [OwnFailures, ht, hlooks] using hown
  cases o with
  | cache q =>
    cases q with
    | wait ticket =>
      rcases a with (err | value) | _
      · refine (Bool.not_eq_true _).mp fun hlooks => ?_
        have hown := hown hlooks
        obtain ⟨p, hp, -⟩ := execOp_cache.mp he
        simp only [CacheState.exec, CacheState.wait] at hp
        split at hp
        · rename_i label owner outcome hload
          cases hp
          simp [ownStep, hload] at hown
        · cases hp
        · cases hp
      · exact True.intro
      · exact True.intro
    | _ => exact True.intro
  | pool q =>
    obtain ⟨p, hp, -⟩ := execOp_pool.mp he
    cases q with
    | trySend request t =>
      cases a with
      | ok j => exact True.intro
      | error refusal =>
        refine (Bool.not_eq_true _).mp fun hlooks => ?_
        obtain ⟨hreceivers, hroom⟩ := of_decide_eq_true (hown hlooks)
        obtain ⟨-, ⟨hnone, -, -⟩ | ⟨w, ws, -, -, heq, -⟩ | ⟨-, -, -, heq, -⟩ |
          ⟨-, hparked, hfull, -, -⟩⟩ := PoolState.exec_trySend hp
        · exact hreceivers hnone
        · cases heq
        · cases heq
        · rcases hroom with hroom | hroom
          · exact hroom hparked
          · omega
    | awaitResult j d =>
      cases a with
      | elapsed => exact True.intro
      | closed =>
        refine (Bool.not_eq_true _).mp fun hlooks => ?_
        have hown := hown hlooks
        obtain ⟨⟨owner, value, sender, receiver⟩, ho, -, ⟨r, -, heq⟩ | ⟨hvalue, hsender, -⟩ |
          ⟨-, -, -, heq⟩⟩ := PoolState.exec_awaitResult hp
        · cases heq
        · obtain rfl : value = none := hvalue
          obtain rfl : sender = false := hsender
          simp [ownStep, ho] at hown
        · cases heq
      | value result =>
        intro request hsent
        obtain ⟨job, rfl, hmem, hsent'⟩ := hc.sent_of_await ht
        rw [failureLog_sent, hsent'] at hsent
        obtain rfl : job.request = request := congrArg Prod.snd (Option.some.inj hsent)
        obtain ⟨session, hends⟩ := hc.inv.endsWith hmem (hc.inv.responded_of_value hp)
        exact ⟨session, _, hends⟩
    | _ => exact True.intro
  | _ => exact True.intro

/-- The obligations of the shared-invariant method. -/
lemma failure_sound : System.Sound (pooledProxy P cfg)
    (fun c a => OwnFailures cfg c a ∧ Delivering c) failureContract (fun _ _ _ => True)
    (fun s tr => Blamed s tr ∧ ∀ i, Reported (histOf tr i)) := by
  have hbase : System.Sound (pooledProxy P cfg) (fun c a => OwnFailures cfg c a ∧ Delivering c)
      failureContract (fun _ _ _ => True) Blamed :=
    proxy_sound (fun rpc => pooled_failures P cfg rpc) (fun _ g w _ => iterate_failures P w g)
      (fun c i e l o k a s' hc hH ht _ he =>
        ⟨failureContract_post hH.2 hH.1 ht he, hc.inv.exec hH.2 ht he⟩)
      (fun c i l o k hc _ _ _ => hc.inv) fun c v hc _ => hc.inv
  exact hbase.histories fun l h o a hh hpre _ => hh.snoc a hpre

/-- In every run in which key lookups fail only by their own accepted and answered job, the breaker
is told about at most as many failures as there are jobs that failed in the token or in the worker,
or timed out. -/
theorem failures_le_failed_jobs {t₀ : ℕ} {sessions : List SessionHandle} {token : P.token.State}
    {as : List (Action Choice (EnvAction P) Party)}
    {c : Config Op.Ans (Shared P) Party ThreadResult}
    (hrun : (pooledProxy P cfg).run (started P t₀ sessions token) as = some c)
    (hown : (pooledProxy P cfg).Throughout (fun c a => OwnFailures cfg c a)
      (started P t₀ sessions token) as) :
    total failureReports (c.trace.map Entry.event) ≤ (failedJobs c.trace).card := by
  have hdelivering : Delivering c := delivering_run hrun
  have hthrough := hown.and_invariant (fun _ _ _ => delivering_step) delivering_started
  have hstart : System.Outline failureContract (fun _ _ _ => True)
      (fun s tr => Blamed s tr ∧ ∀ i, Reported (histOf tr i)) (started P t₀ sessions token) := by
    refine outline_started (fun session => iterate_failures P _ _)
      ⟨(fun i j h => nomatch h), fun i => ?_⟩
    exact ⟨rfl, Nat.zero_le _, fun h => absurd rfl h⟩
  have hc := failure_sound.run hstart hthrough hrun
  obtain ⟨hblamed, hreported⟩ := hc.inv
  -- the handlers that have reported a failure, and the job each of them reported
  let reporters :=
    (Finset.range c.spawned).filter fun i => (failureLog (histOf c.trace i)).reported ≠ 0
  let blamedJob : ℕ → ℕ := fun i => (failureLog (histOf c.trace i)).blamed.getD 0
  have hjob : ∀ i ∈ reporters, (failureLog (histOf c.trace i)).blamed = some (blamedJob i) := by
    intro i hi
    obtain ⟨j, hj⟩ := Option.isSome_iff_exists.mp
      ((hreported i).blamed (Finset.mem_filter.mp hi).2)
    rw [hj]
    exact congrArg some (by simp [blamedJob, hj])
  have hinj : Set.InjOn blamedJob reporters := by
    intro i hi i' hi' heq
    obtain ⟨-, job, hid, hsent⟩ := hblamed i _ (hjob i hi)
    obtain ⟨-, job', hid', hsent'⟩ := hblamed i' _ (hjob i' hi')
    have hsame : job.id = job'.id := by rw [hid, hid', heq]
    exact congrArg Prod.fst (hdelivering.inv.jobs.eq_of_id hsent hsent' hsame)
  calc total failureReports (c.trace.map Entry.event)
      = ∑ i ∈ Finset.range c.spawned, total failureReports (histOf c.trace i) :=
        total_trace hc.recorded.tids
    _ ≤ ∑ i ∈ Finset.range c.spawned,
          if (failureLog (histOf c.trace i)).reported ≠ 0 then 1 else 0 := by
        refine Finset.sum_le_sum fun i _ => ?_
        have hle := (hreported i).le_one
        rw [(hreported i).total_eq]
        split <;> omega
    _ = reporters.card := (Finset.card_filter _ _).symm
    _ ≤ (failedJobs c.trace).card :=
        Finset.card_le_card_of_injOn blamedJob (fun i hi => (hblamed i _ (hjob i hi)).1) hinj

end

/-- A key lookup and a signature whose jobs fail report one failure each. -/
theorem failures_le_failed_jobs_failing_searches :
    ∃ c : Config Op.Ans (Shared anyPlatform) Party ThreadResult,
      (pooledProxy anyPlatform (.plain 1 10)).run (started _ 0 [7] ()) failingSearches = some c ∧
      total failureReports (c.trace.map Entry.event) = 2 ∧ 2 ≤ (failedJobs c.trace).card := by
  have hreports : ((pooledProxy anyPlatform (.plain 1 10)).run (started _ 0 [7] ())
      failingSearches).map (fun c => total failureReports (c.trace.map Entry.event)) = some 2 := by
    decide +kernel
  have hown : (pooledProxy anyPlatform (.plain 1 10)).Throughout
      (fun c a => OwnFailures (.plain 1 10) c a) (started _ 0 [7] ()) failingSearches := by
    decide +kernel
  obtain ⟨c, hrun, hc⟩ := Option.map_eq_some_iff.mp hreports
  have hle := failures_le_failed_jobs hrun hown
  rw [hc] at hle
  exact ⟨c, hrun, hc, hle⟩

/-- Two lookups of a key that is not cached share one load, and its job fails in `C_FindObjects`. -/
def sharedFailingLoad : List (Action Choice (EnvAction anyPlatform) Party) :=
  [.exec 0 .success, .spawn (.rpc lookupCall)] ++ execs 1 7 .success ++
    [.spawn (.rpc lookupCall)] ++ execs 2 3 .success ++
    execs 0 10 (.failing (.pkcs11 .deviceError)) ++ execs 1 4 .success ++ execs 2 3 .success

/-- The one failed job is reported twice. -/
theorem failures_exceed_shared_load :
    ((pooledProxy anyPlatform (.plain 1 10)).run (started _ 0 [7] ()) sharedFailingLoad).map
      (fun c => (total failureReports (c.trace.map Entry.event), (failedJobs c.trace).card)) =
      some (2, 1) := by
  decide +kernel

end HsmProxy
