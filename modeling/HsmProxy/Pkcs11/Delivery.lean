import HsmProxy.Grpc.Plan
import HsmProxy.Pkcs11.WorkerSteps
import HsmProxy.Service.Steps

/-!
# Delivery of jobs and results

A job is sent by one handler, taken by at most one worker, and its result reaches the handler that
sent it.  `JobLog` is what a single thread knows about this, `jobContract` what it promises, and
`Delivery` relates the pool to the trace: in every run the calls the trace has for a job that was
answered are a complete execution of the request its sender sent, with the result that was answered
(`Delivery.responded`), and a result that waits to be received was answered (`Delivery.answered`).
-/

namespace HsmProxy

open Interleaving Interleaving.Prog

/-! ## What a thread knows -/

/-- The job a worker is executing with the calls it has made for it, the job a handler has sent, and
the result it has received for it. -/
structure JobLog where
  job : Option Job
  calls : List (Event Op.Ans)
  sent : Option (ℕ × JobRequest)
  got : Option JobResult

namespace JobLog

/-- The log of a thread that has done nothing. -/
def empty : JobLog := ⟨none, [], none, none⟩

/-- One more event. -/
def note (g : JobLog) : Event Op.Ans → JobLog
  | ⟨.pool .poll, .job job⟩ => { g with job := some job, calls := [] }
  | ⟨.pool .unpark, some job⟩ => { g with job := some job, calls := [] }
  | ⟨.pool (.respond _ _), _⟩ => { g with job := none, calls := [] }
  | ⟨.pool (.trySend request _), .ok j⟩ => { g with sent := some (j, request) }
  | ⟨.pool (.awaitResult _ _), .value result⟩ => { g with got := some result }
  | ev => if Worker.executes ev.1 then { g with calls := g.calls ++ [ev] } else g

/-- The steps of the execution of a job are kept. -/
lemma note_executes (g : JobLog) {ev : Event Op.Ans} (hev : Worker.executes ev.1) :
    g.note ev = { g with calls := g.calls ++ [ev] } := by
  obtain ⟨o, a⟩ := ev
  cases o with
  | token t => rfl
  | pool q =>
    cases q with
    | count c n => exact if_pos hev
    | _ => cases hev
  | _ => cases hev

/-- All of them are. -/
lemma foldl_note_executes {tr : List (Event Op.Ans)} (htr : ∀ ev ∈ tr, Worker.executes ev.1)
    (g : JobLog) : tr.foldl note g = { g with calls := g.calls ++ tr } := by
  induction tr generalizing g with
  | nil => simp
  | cons ev tr ih =>
    rw [List.foldl_cons, ih (fun ev hev => htr ev (List.mem_cons_of_mem _ hev)),
      note_executes g (htr ev List.mem_cons_self)]
    simp

end JobLog

/-- The log after a history. -/
def jobLog (h : List (Event Op.Ans)) : JobLog := h.foldl JobLog.note .empty

/-- One more event. -/
@[simp] lemma jobLog_snoc (h : List (Event Op.Ans)) (ev : Event Op.Ans) :
    jobLog (h ++ [ev]) = (jobLog h).note ev := by
  simp [jobLog, List.foldl_append]

section

variable (P : Platform) (cfg : ServiceConfig)

/-- A worker answers the job it has executed with the result of the execution; a handler sends one
job, and waits for that one, once. -/
def jobContract : Contract Op.Ans JobLog where
  init := .empty
  next g o a := g.note ⟨o, a⟩
  pre g
    | .pool (.respond j r) => ∃ job w w', g.job = some job ∧ job.id = j ∧
        Runs (Worker.execute P w job.request) g.calls (r, w')
    | .pool (.trySend _ _) => g.sent = none ∧ g.got = none
    | .pool (.awaitResult j _) => ∃ request, g.sent = some (j, request)
    | _ => True
  post _ _ _ := True

/-- A round of a worker keeps to the contract. -/
theorem iterate_delivers (w : Worker) (g : JobLog) :
    (Worker.iterate P w).Meets (jobContract P) (fun _ _ => True) g := by
  refine Worker.meets_iterate
    (fun g received => ∀ job, received = some job → g.job = some job ∧ g.calls = [])
    (fun job g r => g.job = some job ∧
      Runs (Worker.execute P w job.request) g.calls r) ?_ (fun g job hg => ?_) (fun g job r hg => ?_)
    fun g _ => ⟨True.intro, fun _ _ => ⟨True.intro, fun _ _ => True.intro⟩⟩
  · refine Worker.meets_recv True.intro (fun job _ job' hjob => ?_) (fun _ job hjob => by cases hjob)
      fun _ => ⟨True.intro, fun handed _ job hjob => ?_⟩
    · obtain rfl := Option.some.inj hjob
      exact ⟨rfl, rfl⟩
    · subst hjob
      exact ⟨rfl, rfl⟩
  · obtain ⟨hjob, hcalls⟩ := hg job rfl
    refine ⟨True.intro, fun started => ?_⟩
    refine (Worker.execute_only P w job.request).meets_runs (fun g o ho => ?_) fun tr r hr htr => ?_
    · cases o with
      | pool q => cases q <;> first | exact True.intro | cases ho
      | _ => exact True.intro
    · have hlog : tr.foldl JobLog.note g = { g with calls := tr } := by
        rw [JobLog.foldl_note_executes htr, hcalls, List.nil_append]
      show (tr.foldl JobLog.note g).job = some job ∧ Runs _ (tr.foldl JobLog.note g).calls r
      rw [hlog]
      exact ⟨hjob, hr⟩
  · obtain ⟨hjob, hr⟩ := hg
    refine ⟨True.intro, fun started finished => ?_⟩
    refine Worker.meets_account
      (J := fun g => g.job = some job ∧ Runs (Worker.execute P w job.request) g.calls r)
      (fun g c n hc hg => ⟨True.intro, fun _ => ?_⟩)
      (fun g hg => ⟨⟨job, w, r.2, hg.1, rfl, hg.2⟩, fun _ _ => True.intro⟩) ⟨hjob, hr⟩
    cases c <;> first | exact hg | cases hc

/-- The contract does not look at other steps of a handler. -/
lemma jobContract_skip {o : Op} (ho : o.ofHandler)
    (hsend : ∀ request t, o ≠ .pool (.trySend request t))
    (hawait : ∀ j d, o ≠ .pool (.awaitResult j d)) (g : JobLog) :
    (jobContract P).pre g o ∧ ∀ a, (jobContract P).next g o a = g := by
  cases o with
  | pool q =>
    cases q with
    | count c n =>
      refine ⟨True.intro, fun _ => ?_⟩
      cases c <;> first | rfl | cases ho
    | trySend request t => exact absurd rfl (hsend request t)
    | awaitResult j d => exact absurd rfl (hawait j d)
    | _ => cases ho
  | token t => cases ho
  | _ => exact ⟨True.intro, fun _ => rfl⟩

/-- What a submission returns: the result it received for its job, or an error of its own. -/
def Submitted (request : JobRequest) (g : JobLog) (r : JobResult) : Prop :=
  (g.got = none ∧ ∃ e, r = .error e) ∨ (g.got = some r ∧ ∃ j, g.sent = some (j, request))

/-- A submission sends one job, and waits for it. -/
lemma submit_delivers (request : JobRequest) :
    (submit cfg request).Meets (jobContract P) (Submitted request) .empty := by
  refine ⟨True.intro, fun _ _ => ⟨True.intro, fun _ _ => ⟨⟨rfl, rfl⟩, fun sent _ => ?_⟩⟩⟩
  cases sent with
  | error refusal =>
    cases refusal with
    | full => exact ⟨True.intro, fun _ _ => Or.inl ⟨rfl, _, rfl⟩⟩
    | disconnected => exact Or.inl ⟨rfl, _, rfl⟩
  | ok j =>
    refine ⟨True.intro, fun _ _ => ⟨⟨request, rfl⟩, fun awaited _ => ?_⟩⟩
    cases awaited with
    | value result => exact Or.inr ⟨rfl, j, rfl⟩
    | closed => exact Or.inl ⟨rfl, _, rfl⟩
    | elapsed => exact ⟨True.intro, fun _ _ => Or.inl ⟨rfl, _, rfl⟩⟩

/-- A key lookup submits at most one job. -/
lemma getOrLoad_delivers (keyLabel : String) :
    (getOrLoad keyLabel (loadPublicKey cfg keyLabel)).Meets (jobContract P) (fun _ _ => True)
      .empty := by
  have hrun : ∀ k, (runLoad k (loadPublicKey cfg keyLabel)).Meets (jobContract P)
      (fun _ _ => Bool → True) .empty := by
    intro k
    rw [meets_runLoad]
    exact (submit_delivers P cfg _).mono fun g r _ => ⟨True.intro, fun _ _ _ => True.intro⟩
  refine meets_getOrLoad (fun g o ho => jobContract_skip P ?_ ?_ ?_ g)
    ⟨True.intro, fun entered _ => ?_⟩
  · cases o <;> first | rfl | exact absurd ho Bool.false_ne_true
  · rintro request t rfl
    cases ho
  · rintro j d rfl
    cases ho
  · cases entered with
    | hit value => exact fun _ => True.intro
    | own k => exact hrun k
    | join k =>
      refine ⟨True.intro, fun joined _ => ?_⟩
      cases joined with
      | finished outcome => exact fun _ => True.intro
      | own => exact hrun k

/-- The contract does not look at reports. -/
lemma observe_delivers {α : Type} {Q : JobLog → Unit → Prop} (r : Except Status α) {g : JobLog}
    (hQ : Q g ()) : (observe r).Meets (jobContract P) Q g := by
  refine (observe_reports r).meets (fun o ho => ?_) fun _ => hQ
  cases o <;> first | exact ⟨True.intro, fun _ => rfl⟩ | cases ho

/-- What a handler that succeeds replies: it has a plan, and when that plans a job, the reply is
made of the response it received for the job. -/
def JobReply (rpc : Rpc) (g : JobLog) (reply : Except Status RpcResponse) : Prop :=
  ∀ response, reply = .ok response → ∃ p, plan P rpc = .ok p ∧
    ∀ drawsIv request finish, p = .job drawsIv request finish →
      ∃ iv j answer, g.sent = some (j, request iv) ∧ g.got = some (.ok answer) ∧
        finish iv answer = .ok response

/-- A handler submits at most one job, and replies with its result. -/
theorem pooled_delivers (rpc : Rpc) :
    (pooled P cfg rpc).Meets (jobContract P) (JobReply P rpc) .empty := by
  refine meets_pooled P cfg (fun g o ho => jobContract_skip P ?_ ?_ ?_ g)
    (fun g o ho => jobContract_skip P ?_ ?_ ?_ g) (fun st response h => by cases h) fun p hp => ?_
  · simp [Op.ofHandler, ho]
  · rintro request t rfl
    cases ho
  · rintro j d rfl
    cases ho
  · simp [Op.ofHandler, ho]
  · rintro request t rfl
    cases ho
  · rintro j d rfl
    cases ho
  · cases p with
    | job drawsIv request finish =>
      rw [meets_perform_job]
      refine (drawIv_only drawsIv).meets (fun o ho => ?_) fun iv => ?_
      · subst ho
        exact ⟨True.intro, fun _ => rfl⟩
      · rw [meets_submitObserved]
        refine (submit_delivers P cfg _).mono fun g r hr => observe_delivers P _ ?_
        intro response hreply
        refine ⟨_, hp, fun drawsIv' request' finish' hplan => ?_⟩
        cases hplan
        rcases hr with ⟨hgot, e, rfl⟩ | ⟨hgot, j, hsent⟩
        · cases hreply
        · cases r with
          | error e => cases hreply
          | ok answer => exact ⟨iv, j, answer, hsent, hgot, hreply⟩
    | key finish =>
      rw [meets_perform_key, meets_publicKey]
      refine (getOrLoad_delivers P cfg _).mono fun g r _ => observe_delivers P _ ?_
      exact fun response _ => ⟨_, hp, fun drawsIv request finish' hplan => by cases hplan⟩

end

/-! ## Jobs sent and taken -/

/-- The job an event takes from the pool. -/
def takenJob : Event Op.Ans → Option Job
  | ⟨.pool .poll, .job job⟩ => some job
  | ⟨.pool .unpark, some job⟩ => some job
  | _ => none

/-- What an event does to the log: it takes a job, answers one, sends one, belongs to an execution,
or is none of these. -/
lemma JobLog.note_cases (g : JobLog) (ev : Event Op.Ans) :
    (∃ job, takenJob ev = some job ∧ Worker.executes ev.1 = false ∧
      g.note ev = { g with job := some job, calls := [] }) ∨
    (takenJob ev = none ∧ Worker.executes ev.1 = false ∧
      g.note ev = { g with job := none, calls := [] }) ∨
    (takenJob ev = none ∧ Worker.executes ev.1 = true ∧
      g.note ev = { g with calls := g.calls ++ [ev] }) ∨
    (takenJob ev = none ∧ Worker.executes ev.1 = false ∧ (g.note ev).job = g.job ∧
      (g.note ev).calls = g.calls) := by
  obtain ⟨o, a⟩ := ev
  cases o with
  | pool q =>
    cases q with
    | poll =>
      cases a with
      | job job => exact Or.inl ⟨job, rfl, rfl, rfl⟩
      | disconnected => exact Or.inr (Or.inr (Or.inr ⟨rfl, rfl, rfl, rfl⟩))
      | parked => exact Or.inr (Or.inr (Or.inr ⟨rfl, rfl, rfl, rfl⟩))
    | unpark =>
      cases a with
      | some job => exact Or.inl ⟨job, rfl, rfl, rfl⟩
      | none => exact Or.inr (Or.inr (Or.inr ⟨rfl, rfl, rfl, rfl⟩))
    | respond j r => exact Or.inr (Or.inl ⟨rfl, rfl, rfl⟩)
    | trySend request t => cases a <;> exact Or.inr (Or.inr (Or.inr ⟨rfl, rfl, rfl, rfl⟩))
    | awaitResult j d => cases a <;> exact Or.inr (Or.inr (Or.inr ⟨rfl, rfl, rfl, rfl⟩))
    | count c n =>
      cases hc : Worker.executes (.pool (.count c n)) with
      | true => exact Or.inr (Or.inr (Or.inl ⟨rfl, rfl, g.note_executes hc⟩))
      | false =>
        have hnote : g.note ⟨.pool (.count c n), a⟩ = g :=
          if_neg (by rw [hc]; exact Bool.false_ne_true)
        exact Or.inr (Or.inr (Or.inr ⟨rfl, rfl, by rw [hnote], by rw [hnote]⟩))
  | token t => exact Or.inr (Or.inr (Or.inl ⟨rfl, rfl, rfl⟩))
  | _ => exact Or.inr (Or.inr (Or.inr ⟨rfl, rfl, rfl, rfl⟩))

/-- What an event does to what a handler knows: it sends a job, receives a result, or is neither. -/
lemma JobLog.note_own (g : JobLog) (ev : Event Op.Ans) :
    (∃ request t j, ev = ⟨.pool (.trySend request t), .ok j⟩ ∧
      (g.note ev).sent = some (j, request) ∧ (g.note ev).got = g.got) ∨
    (∃ j d r, ev = ⟨.pool (.awaitResult j d), .value r⟩ ∧
      (g.note ev).sent = g.sent ∧ (g.note ev).got = some r) ∨
    ((g.note ev).sent = g.sent ∧ (g.note ev).got = g.got) := by
  obtain ⟨o, a⟩ := ev
  cases o with
  | pool q =>
    cases q with
    | trySend request t =>
      cases a with
      | ok j => exact Or.inl ⟨request, t, j, rfl, rfl, rfl⟩
      | error e => exact Or.inr (Or.inr ⟨rfl, rfl⟩)
    | awaitResult j d =>
      cases a with
      | value r => exact Or.inr (Or.inl ⟨j, d, r, rfl, rfl, rfl⟩)
      | _ => exact Or.inr (Or.inr ⟨rfl, rfl⟩)
    | poll => cases a <;> exact Or.inr (Or.inr ⟨rfl, rfl⟩)
    | unpark => cases a <;> exact Or.inr (Or.inr ⟨rfl, rfl⟩)
    | respond j r => exact Or.inr (Or.inr ⟨rfl, rfl⟩)
    | count c n => cases c <;> exact Or.inr (Or.inr ⟨rfl, rfl⟩)
  | _ => exact Or.inr (Or.inr ⟨rfl, rfl⟩)

section

variable {S : Type} {tr : List (Entry Op.Ans S Party)} {en : Entry Op.Ans S Party}

/-- The job an entry sends, with the thread that sends it. -/
def sentJob (en : Entry Op.Ans S Party) : Option (ℕ × Job) :=
  match en.event with
  | ⟨.pool (.trySend request t), .ok j⟩ => some (en.tid, ⟨j, request, t⟩)
  | _ => none

/-- The jobs the trace has sent. -/
def sentJobs (tr : List (Entry Op.Ans S Party)) : List (ℕ × Job) := tr.filterMap sentJob

/-- The jobs the trace has taken. -/
def takenJobs (tr : List (Entry Op.Ans S Party)) : List Job :=
  tr.filterMap fun en => takenJob en.event

/-- The calls the trace has for the execution of job `j`. -/
def callsOf (tr : List (Entry Op.Ans S Party)) (j : ℕ) : List (Event Op.Ans) :=
  (tr.filter fun en => Worker.executes en.event.1 &&
    decide ((jobLog en.hist).job.map Job.id = some j)).map Entry.event

/-- One more entry. -/
lemma sentJobs_snoc : sentJobs (tr ++ [en]) = sentJobs tr ++ (sentJob en).toList := by
  cases h : sentJob en <;> simp [sentJobs, h]

/-- One more entry. -/
lemma takenJobs_snoc : takenJobs (tr ++ [en]) = takenJobs tr ++ (takenJob en.event).toList := by
  cases h : takenJob en.event <;> simp [takenJobs, h]

/-- An entry that is not part of an execution adds no call. -/
lemma callsOf_snoc_other (h : Worker.executes en.event.1 = false) (j : ℕ) :
    callsOf (tr ++ [en]) j = callsOf tr j := by
  simp [callsOf, List.filter_append, h]

/-- An entry of a thread that is not executing the job adds no call. -/
lemma callsOf_snoc_ne {j : ℕ} (h : (jobLog en.hist).job.map Job.id ≠ some j) :
    callsOf (tr ++ [en]) j = callsOf tr j := by
  have hdecide : decide ((jobLog en.hist).job.map Job.id = some j) = false := decide_eq_false h
  simp only [callsOf, List.filter_append, List.filter_cons, hdecide, Bool.and_false,
    Bool.false_eq_true, if_false, List.filter_nil, List.append_nil]

/-- An entry of the thread that is executing the job adds a call. -/
lemma callsOf_snoc_self {job : Job} (h : Worker.executes en.event.1 = true)
    (hjob : (jobLog en.hist).job = some job) :
    callsOf (tr ++ [en]) job.id = callsOf tr job.id ++ [en.event] := by
  simp [callsOf, List.filter_append, h, hjob]

end

/-- The jobs that no worker has taken yet. -/
def PoolState.pending (s : PoolState) : List Job := s.queue ++ s.handed.map Prod.snd

/-- The pool and the jobs sent and taken: names are given in order, and no job is in two places. -/
structure JobsInv (s : PoolState) (sent : List (ℕ × Job)) (taken : List Job) : Prop where
  /-- The names of the jobs sent are the names given. -/
  names : sent.map (fun p => p.2.id) = List.range s.nextJob
  /-- Every job was sent by a handler. -/
  sent : ∀ job ∈ s.pending ++ taken, ∃ i, (i, job) ∈ sent
  /-- No job is pending twice, taken twice, or both. -/
  once : ((s.pending ++ taken).map Job.id).Nodup

namespace JobsInv

variable {s s' : PoolState} {sent : List (ℕ × Job)} {taken taken' : List Job}

/-- Two jobs sent under one name are one job, sent by one handler. -/
lemma eq_of_id (h : JobsInv s sent taken) {p q : ℕ × Job} (hp : p ∈ sent) (hq : q ∈ sent)
    (hid : p.2.id = q.2.id) : p = q := by
  have hnodup : (sent.map fun p => p.2.id).Nodup := h.names ▸ List.nodup_range
  exact List.inj_on_of_nodup_map hnodup hp hq hid

/-- Two jobs taken under one name are one job. -/
lemma taken_eq (h : JobsInv s sent taken) {job job' : Job} (hjob : job ∈ taken)
    (hjob' : job' ∈ taken) (hid : job.id = job'.id) : job = job' := by
  obtain ⟨i, hi⟩ := h.sent job (List.mem_append_right _ hjob)
  obtain ⟨i', hi'⟩ := h.sent job' (List.mem_append_right _ hjob')
  exact congrArg Prod.snd (h.eq_of_id hi hi' hid)

/-- A name that is given is new. -/
lemma id_lt (h : JobsInv s sent taken) {job : Job} (hjob : job ∈ s.pending ++ taken) :
    job.id < s.nextJob := by
  obtain ⟨i, hi⟩ := h.sent job hjob
  have hmem : job.id ∈ sent.map fun p => p.2.id := List.mem_map.mpr ⟨_, hi, rfl⟩
  rw [h.names] at hmem
  exact List.mem_range.mp hmem

/-- Jobs may move, and may get lost. -/
lemma shrink (h : JobsInv s sent taken) (hnext : s'.nextJob = s.nextJob)
    (hsub : (s'.pending ++ taken').Subperm (s.pending ++ taken)) : JobsInv s' sent taken' where
  names := hnext ▸ h.names
  sent job hjob := h.sent job (hsub.subset hjob)
  once := by
    obtain ⟨l, hperm, hl⟩ := hsub
    have hnodup : (l.map Job.id).Nodup := h.once.sublist (hl.map Job.id)
    exact (hperm.map Job.id).nodup_iff.mp hnodup

/-- A new job is pending. -/
lemma send (h : JobsInv s sent taken) {i : ℕ} {job : Job} (hid : job.id = s.nextJob)
    (hnext : s'.nextJob = s.nextJob + 1) (hpending : s'.pending.Perm (job :: s.pending)) :
    JobsInv s' (sent ++ [(i, job)]) taken where
  names := by
    rw [List.map_append, h.names, hnext, List.range_succ, List.map_singleton, hid]
  sent job' hjob' := by
    have hmem : job' ∈ job :: (s.pending ++ taken) := (hpending.append_right taken).mem_iff.mp hjob'
    rcases List.mem_cons.mp hmem with rfl | hmem
    · exact ⟨i, List.mem_append_right _ (List.mem_singleton_self _)⟩
    · obtain ⟨i', hi'⟩ := h.sent job' hmem
      exact ⟨i', List.mem_append_left _ hi'⟩
  once := by
    have hperm : ((s'.pending ++ taken).map Job.id).Perm
        (job.id :: (s.pending ++ taken).map Job.id) :=
      (hpending.append_right taken).map Job.id
    refine hperm.nodup_iff.mpr (List.nodup_cons.mpr ⟨fun hmem => ?_, h.once⟩)
    obtain ⟨job', hjob', heq⟩ := List.mem_map.mp hmem
    have hlt := h.id_lt hjob'
    omega

/-- A job that is pending has not been taken. -/
lemma not_taken (h : JobsInv s sent taken) {job : Job} (hjob : job ∈ s.pending) :
    ∀ job' ∈ taken, job'.id ≠ job.id := by
  intro job' hjob' heq
  have hnodup := h.once
  rw [List.map_append, List.nodup_append] at hnodup
  exact hnodup.2.2 job.id (List.mem_map_of_mem hjob) job'.id (List.mem_map_of_mem hjob') heq.symm

end JobsInv

/-! ## Logs and the trace -/

section

variable {S : Type} {tr : List (Entry Op.Ans S Party)} {en : Entry Op.Ans S Party}

/-- The logs of the threads and the trace: a job that is being executed was taken, by one worker
only, and its calls are those of the trace. -/
structure LogInv (tr : List (Entry Op.Ans S Party)) : Prop where
  /-- What is being executed was taken. -/
  taken : ∀ i job, (jobLog (histOf tr i)).job = some job → job ∈ takenJobs tr
  /-- A job is executed by one thread. -/
  apart : ∀ i i' job, (jobLog (histOf tr i)).job = some job →
    (jobLog (histOf tr i')).job = some job → i = i'
  /-- The calls for a job are those of the thread that executes it. -/
  calls : ∀ i job, (jobLog (histOf tr i)).job = some job →
    callsOf tr job.id = (jobLog (histOf tr i)).calls
  /-- An entry made for a job comes after the job was taken, and after it was sent. -/
  after : ∀ tr₁ en tr₂ job, tr = tr₁ ++ en :: tr₂ → (jobLog en.hist).job = some job →
    job ∈ takenJobs tr₁ ∧ ∃ i, (i, job) ∈ sentJobs tr₁
  /-- A handler knows the job it has sent. -/
  own : ∀ i j request, (jobLog (histOf tr i)).sent = some (j, request) →
    ∃ t, (i, ⟨j, request, t⟩) ∈ sentJobs tr

namespace LogInv

/-- Nothing has happened. -/
lemma nil : LogInv ([] : List (Entry Op.Ans S Party)) where
  taken i job h := nomatch h
  apart i i' job h := nomatch h
  calls i job h := nomatch h
  after tr₁ en tr₂ job h := absurd h (by simp)
  own i j request h := nomatch h

/-- A job nobody has taken has no calls. -/
lemma callsOf_fresh (h : LogInv tr) {job : Job} (hjob : ∀ job' ∈ takenJobs tr, job'.id ≠ job.id) :
    callsOf tr job.id = [] := by
  unfold callsOf
  rw [List.map_eq_nil_iff, List.filter_eq_nil_iff]
  intro en hen hcall
  obtain ⟨-, hid⟩ := Bool.and_eq_true_iff.mp hcall
  obtain ⟨job', hjob', hid'⟩ := Option.map_eq_some_iff.mp (of_decide_eq_true hid)
  obtain ⟨tr₁, tr₂, htr⟩ := List.append_of_mem hen
  have hmem : job' ∈ takenJobs tr₁ := (h.after tr₁ en tr₂ job' htr hjob').1
  refine hjob job' ?_ hid'
  rw [htr, takenJobs, List.filterMap_append]
  exact List.mem_append_left _ hmem

/-- The job a thread executes after one more entry: the one it takes, or the one it has been
executing. -/
lemma job_snoc {i : ℕ} {job : Job} (hjob : (jobLog (histOf (tr ++ [en]) i)).job = some job) :
    (i = en.tid ∧ takenJob en.event = some job) ∨
      (jobLog (histOf tr i)).job = some job := by
  rw [histOf_snoc] at hjob
  split at hjob
  · rename_i htid
    rw [jobLog_snoc] at hjob
    rcases (jobLog (histOf tr i)).note_cases en.event with ⟨job', htaken, -, hnote⟩ |
      ⟨-, -, hnote⟩ | ⟨-, -, hnote⟩ | ⟨-, -, hnote, -⟩
    · rw [hnote] at hjob
      exact Or.inl ⟨htid.symm, htaken.trans hjob⟩
    · rw [hnote] at hjob
      cases hjob
    · rw [hnote] at hjob
      exact Or.inr hjob
    · rw [hnote] at hjob
      exact Or.inr hjob
  · exact Or.inr hjob

/-- A job that one thread executes does not get calls from another one. -/
lemma callsOf_other (h : LogInv tr) (hids : ∀ job ∈ takenJobs tr, ∀ job' ∈ takenJobs tr,
    job.id = job'.id → job = job') (hhist : en.hist = histOf tr en.tid) {job : Job}
    (hjob : job ∈ takenJobs tr) (hother : (jobLog (histOf tr en.tid)).job ≠ some job) :
    callsOf (tr ++ [en]) job.id = callsOf tr job.id := by
  refine callsOf_snoc_ne fun heq => ?_
  obtain ⟨job', hjob', hid⟩ := Option.map_eq_some_iff.mp heq
  rw [hhist] at hjob'
  obtain rfl := hids job' (h.taken _ _ hjob') job hjob hid
  exact hother hjob'

/-- One more entry: a job that is taken is a new one. -/
theorem snoc (h : LogInv tr) (hids : ∀ job ∈ takenJobs tr, ∀ job' ∈ takenJobs tr,
      job.id = job'.id → job = job') (hhist : en.hist = histOf tr en.tid)
    (hsent : ∀ job ∈ takenJobs tr, ∃ i, (i, job) ∈ sentJobs tr)
    (hfresh : ∀ job, takenJob en.event = some job → ∀ job' ∈ takenJobs tr, job'.id ≠ job.id) :
    LogInv (tr ++ [en]) where
  taken i job hjob := by
    rw [takenJobs_snoc]
    rcases job_snoc hjob with ⟨-, htaken⟩ | hold
    · exact List.mem_append_right _ (by simp [htaken])
    · exact List.mem_append_left _ (h.taken i job hold)
  apart i i' job hjob hjob' := by
    rcases job_snoc hjob with ⟨hi, htaken⟩ | hold <;>
      rcases job_snoc hjob' with ⟨hi', htaken'⟩ | hold'
    · rw [hi, hi']
    · exact absurd rfl (hfresh job htaken job (h.taken i' job hold'))
    · exact absurd rfl (hfresh job htaken' job (h.taken i job hold))
    · exact h.apart i i' job hold hold'
  calls i job hjob := by
    by_cases hi : en.tid = i
    · subst hi
      have hlog : jobLog (histOf (tr ++ [en]) en.tid) = (jobLog (histOf tr en.tid)).note en.event := by
        rw [histOf_snoc, if_pos rfl, jobLog_snoc]
      rw [hlog] at hjob ⊢
      rcases (jobLog (histOf tr en.tid)).note_cases en.event with ⟨job', htaken, hexec, hnote⟩ |
        ⟨-, -, hnote⟩ | ⟨-, hexec, hnote⟩ | ⟨-, hexec, hkeep, hcalls⟩
      · rw [hnote] at hjob ⊢
        obtain rfl := Option.some.inj hjob
        rw [callsOf_snoc_other hexec]
        exact h.callsOf_fresh (hfresh job' htaken)
      · rw [hnote] at hjob
        cases hjob
      · rw [hnote] at hjob ⊢
        rw [callsOf_snoc_self hexec (hhist ▸ hjob), h.calls _ job hjob]
      · rw [hkeep] at hjob
        rw [hcalls, callsOf_snoc_other hexec]
        exact h.calls _ job hjob
    · have hhist' : histOf (tr ++ [en]) i = histOf tr i := by rw [histOf_snoc, if_neg hi]
      rw [hhist'] at hjob ⊢
      rw [h.callsOf_other hids hhist (h.taken i job hjob) fun hother =>
        hi (h.apart _ _ job hother hjob)]
      exact h.calls i job hjob
  after tr₁ en' tr₂ job htr hjob := by
    rcases snoc_eq_append_cons.mp htr with ⟨-, rfl, rfl⟩ | ⟨tr₃, -, htr⟩
    · have hmem := h.taken en.tid job (hhist ▸ hjob)
      exact ⟨hmem, hsent job hmem⟩
    · exact h.after tr₁ en' tr₃ job htr hjob
  own i j request hsent' := by
    rw [sentJobs_snoc]
    have hold : (jobLog (histOf tr i)).sent = some (j, request) →
        ∃ t, (i, ⟨j, request, t⟩) ∈ sentJobs tr ++ (sentJob en).toList := fun hold => by
      obtain ⟨t, ht⟩ := h.own i j request hold
      exact ⟨t, List.mem_append_left _ ht⟩
    rw [histOf_snoc] at hsent'
    split at hsent'
    · rename_i htid
      subst htid
      rw [jobLog_snoc] at hsent'
      rcases (jobLog (histOf tr en.tid)).note_own en.event with ⟨request', t, j', hev, hnote, -⟩ |
        ⟨-, -, -, -, hnote, -⟩ | ⟨hnote, -⟩
      · rw [hnote] at hsent'
        obtain ⟨rfl, rfl⟩ := Prod.mk.inj (Option.some.inj hsent')
        have hsends : sentJob en = some (en.tid, ⟨j', request', t⟩) := by
          unfold sentJob
          rw [hev]
        refine ⟨t, List.mem_append_right _ ?_⟩
        rw [hsends]
        exact List.mem_singleton_self _
      · exact hold (hnote ▸ hsent')
      · exact hold (hnote ▸ hsent')
    · exact hold hsent'

end LogInv

end

/-! ## One step of the pool -/

namespace PoolState

variable {cfg : PoolConfig} {now tid : ℕ} {s s' : PoolState} {q : PoolOp} {a : q.Ans}

/-- A job that is taken was pending. -/
lemma mem_pending_of_taken (hp : s.exec cfg now tid q = some (a, s')) {job : Job}
    (htaken : takenJob ⟨.pool q, a⟩ = some job) : job ∈ s.pending := by
  cases q with
  | poll =>
    obtain ⟨job', rest, hqueue, rfl, -⟩ | ⟨-, -, rfl, -⟩ | ⟨-, -, rfl, -⟩ := exec_poll hp
    · obtain rfl := Option.some.inj htaken
      refine List.mem_append_left _ ?_
      rw [hqueue]
      exact List.mem_cons_self
    · cases htaken
    · cases htaken
  | unpark =>
    obtain ⟨job', hlookup, rfl, -⟩ | ⟨-, -, rfl, -⟩ := exec_unpark hp
    · obtain rfl := Option.some.inj htaken
      obtain ⟨l₁, l₂, hhanded, -⟩ := List.lookup_eq_some_iff.mp hlookup
      refine List.mem_append_right _ ?_
      rw [hhanded, List.map_append, List.map_cons]
      exact List.mem_append_right _ List.mem_cons_self
    · cases htaken
  | _ => cases htaken

/-- A result that waits to be received was there before, or is the one just sent. -/
lemma oneshot_exec (hp : s.exec cfg now tid q = some (a, s')) {j : ℕ} {o' : Oneshot}
    {r : JobResult} (ho' : s'.oneshots j = some o') (hr : o'.value = some r) :
    (∃ o, s.oneshots j = some o ∧ o.value = some r) ∨ q = .respond j r := by
  cases q with
  | count c n =>
    cases hp
    exact Or.inl ⟨o', ho', hr⟩
  | poll =>
    obtain ⟨job, rest, -, -, rfl⟩ | ⟨-, -, -, rfl⟩ | ⟨-, -, -, rfl⟩ := exec_poll hp <;>
      exact Or.inl ⟨o', ho', hr⟩
  | unpark =>
    obtain ⟨job, -, -, rfl⟩ | ⟨-, -, -, rfl⟩ := exec_unpark hp <;> exact Or.inl ⟨o', ho', hr⟩
  | trySend request t =>
    have haccept : (s.accept tid).oneshots j = some o' → ∃ o, s.oneshots j = some o ∧
        o.value = some r := by
      intro ho
      by_cases hj : j = s.nextJob
      · subst hj
        simp only [accept, Function.update_self, Option.some.injEq] at ho
        subst ho
        cases hr
      · exact ⟨o', by simpa [accept, hj] using ho, hr⟩
    obtain ⟨-, ⟨-, -, rfl⟩ | ⟨w, ws, -, -, -, rfl⟩ | ⟨-, -, -, -, rfl⟩ | ⟨-, -, -, -, rfl⟩⟩ :=
      exec_trySend hp
    · exact Or.inl ⟨o', ho', hr⟩
    · exact Or.inl (haccept ho')
    · exact Or.inl (haccept ho')
    · exact Or.inl ⟨o', ho', hr⟩
  | awaitResult j' d =>
    obtain ⟨o, -, rfl, -⟩ := exec_awaitResult hp
    by_cases hj : j = j'
    · subst hj
      simp only [stopWaiting, Function.update_self, Option.some.injEq] at ho'
      subst ho'
      cases hr
    · exact Or.inl ⟨o', by simpa [stopWaiting, hj] using ho', hr⟩
  | respond j' r' =>
    cases hp
    by_cases hj : j = j'
    · subst hj
      simp only [respond, Function.update_self] at ho'
      obtain ⟨o, -, rfl⟩ := Option.map_eq_some_iff.mp ho'
      dsimp only at hr
      split at hr
      · obtain rfl := Option.some.inj hr
        exact Or.inr rfl
      · cases hr
    · exact Or.inl ⟨o', by simpa [respond, hj] using ho', hr⟩

end PoolState

/-- One step of the pool keeps the account of the jobs. -/
lemma JobsInv.exec {S : Type} {cfg : PoolConfig} {now i : ℕ} {s s' : PoolState} {q : PoolOp}
    {a : q.Ans} {tr : List (Entry Op.Ans S Party)} {party : Party} {hist : List (Event Op.Ans)}
    {before : S} (h : JobsInv s (sentJobs tr) (takenJobs tr))
    (hp : s.exec cfg now i q = some (a, s')) :
    JobsInv s' (sentJobs (tr ++ [⟨i, party, hist, before, ⟨.pool q, a⟩⟩]))
      (takenJobs (tr ++ [⟨i, party, hist, before, ⟨.pool q, a⟩⟩])) := by
  rw [sentJobs_snoc, takenJobs_snoc]
  -- a step that neither sends nor takes a job, and leaves the pending ones alone
  have hkeep : ∀ s' : PoolState, s'.nextJob = s.nextJob → s'.pending = s.pending →
      JobsInv s' (sentJobs tr ++ []) (takenJobs tr ++ []) := by
    intro s' hnext hpending
    rw [List.append_nil, List.append_nil]
    refine h.shrink hnext ?_
    rw [hpending]
  cases q with
  | count c n =>
    cases hp
    exact hkeep _ rfl rfl
  | awaitResult j d =>
    obtain ⟨o, -, rfl, -⟩ := PoolState.exec_awaitResult hp
    exact hkeep _ rfl rfl
  | respond j r =>
    cases hp
    exact hkeep _ rfl rfl
  | trySend request t =>
    obtain ⟨-, ⟨-, rfl, rfl⟩ | ⟨w, ws, -, -, rfl, rfl⟩ | ⟨-, -, -, rfl, rfl⟩ | ⟨-, -, -, rfl, rfl⟩⟩ :=
      PoolState.exec_trySend hp
    · exact hkeep _ rfl rfl
    · show JobsInv _ (sentJobs tr ++ [(i, s.nextJobOf request t)]) (takenJobs tr ++ [])
      rw [List.append_nil]
      refine h.send rfl rfl ?_
      show (s.queue ++ (s.handed ++ [(w, s.nextJobOf request t)]).map Prod.snd).Perm _
      rw [List.map_append, List.map_singleton, ← List.append_assoc]
      exact List.perm_append_singleton _ _
    · show JobsInv _ (sentJobs tr ++ [(i, s.nextJobOf request t)]) (takenJobs tr ++ [])
      rw [List.append_nil]
      refine h.send rfl rfl ?_
      show ((s.queue ++ [s.nextJobOf request t]) ++ s.handed.map Prod.snd).Perm _
      rw [List.append_assoc]
      exact List.perm_middle
    · exact hkeep _ rfl rfl
  | poll =>
    obtain ⟨job, rest, hqueue, rfl, rfl⟩ | ⟨-, -, rfl, rfl⟩ | ⟨-, -, rfl, rfl⟩ :=
      PoolState.exec_poll hp
    · show JobsInv _ (sentJobs tr ++ []) (takenJobs tr ++ [job])
      rw [List.append_nil]
      refine h.shrink rfl (List.Perm.subperm ?_)
      show ((rest ++ s.handed.map Prod.snd) ++ (takenJobs tr ++ [job])).Perm
        ((s.queue ++ s.handed.map Prod.snd) ++ takenJobs tr)
      rw [hqueue, ← List.append_assoc]
      exact List.perm_append_singleton _ _
    · exact hkeep _ rfl rfl
    · exact hkeep _ rfl rfl
  | unpark =>
    obtain ⟨job, hlookup, rfl, rfl⟩ | ⟨-, -, rfl, rfl⟩ := PoolState.exec_unpark hp
    · show JobsInv _ (sentJobs tr ++ []) (takenJobs tr ++ [job])
      rw [List.append_nil]
      obtain ⟨l₁, l₂, hhanded, -⟩ := List.lookup_eq_some_iff.mp hlookup
      have hfilter : (s.handed.filter fun p => decide (p.1 ≠ i)).Sublist (l₁ ++ l₂) := by
        rw [hhanded, List.filter_append, List.filter_cons]
        simp only [ne_eq, not_true_eq_false, decide_false, Bool.false_eq_true, if_false]
        exact List.filter_sublist.append List.filter_sublist
      have hperm : (s.queue ++ (l₁ ++ l₂).map Prod.snd ++ (takenJobs tr ++ [job])).Perm
          (s.pending ++ takenJobs tr) := by
        rw [← List.append_assoc]
        refine (List.perm_append_singleton _ _).trans ?_
        rw [PoolState.pending, hhanded]
        simp only [List.map_append, List.map_cons, List.append_assoc]
        exact (List.perm_middle.symm.trans (List.Perm.append_left _ List.perm_middle.symm))
      refine h.shrink rfl (List.Subperm.trans ?_ hperm.subperm)
      exact (((hfilter.map Prod.snd).append_left s.queue).append_right _).subperm
    · exact hkeep _ rfl rfl

/-! ## Every run -/

/-- The pool, the logs and the trace: who sent what, who executes what, and what was answered. -/
structure Delivery {P : Platform} (s : Shared P) (tr : List (Entry Op.Ans (Shared P) Party)) :
    Prop where
  jobs : JobsInv s.pool (sentJobs tr) (takenJobs tr)
  log : LogInv tr
  /-- A job that was answered was executed: the calls the trace has for it are a complete execution
  of its request, with the result that was answered, and it is not being executed any more. -/
  responded : ∀ j r, (⟨.pool (.respond j r), ()⟩ : Event Op.Ans) ∈ tr.map Entry.event →
    ∃ job ∈ takenJobs tr, job.id = j ∧ (∀ i, (jobLog (histOf tr i)).job ≠ some job) ∧
      ∃ w w', Runs (Worker.execute P w job.request) (callsOf tr j) (r, w')
  /-- A result that was received was answered, to the job the handler has sent. -/
  received : ∀ i r, (jobLog (histOf tr i)).got = some r →
    ∃ j request, (jobLog (histOf tr i)).sent = some (j, request) ∧
      (⟨.pool (.respond j r), ()⟩ : Event Op.Ans) ∈ tr.map Entry.event
  /-- A result that waits to be received was answered. -/
  answered : ∀ j o r, s.pool.oneshots j = some o → o.value = some r →
    (⟨.pool (.respond j r), ()⟩ : Event Op.Ans) ∈ tr.map Entry.event

section

variable {P : Platform} {cfg : ServiceConfig} {s s' : Shared P}
  {tr : List (Entry Op.Ans (Shared P) Party)}

/-- A result that waits to be received after a thread was dropped was there before. -/
lemma oneshot_release {i j : ℕ} {party : Party} {o' : Oneshot} {r : JobResult}
    (ho' : (release P i party s).pool.oneshots j = some o') (hr : o'.value = some r) :
    ∃ o, s.pool.oneshots j = some o ∧ o.value = some r := by
  cases party with
  | rpc rpc =>
    obtain ⟨o, ho, rfl⟩ := Option.map_eq_some_iff.mp ho'
    split at hr
    · cases hr
    · exact ⟨o, ho, hr⟩
  | worker session =>
    obtain ⟨o, ho, rfl⟩ := Option.map_eq_some_iff.mp ho'
    refine ⟨o, ho, ?_⟩
    split at hr <;> exact hr

namespace Delivery

/-- Every job taken was sent. -/
lemma sent_of_taken (h : Delivery s tr) {job : Job} (hjob : job ∈ takenJobs tr) :
    ∃ i, (i, job) ∈ sentJobs tr :=
  h.jobs.sent job (List.mem_append_right _ hjob)

/-- The names of the jobs taken tell them apart. -/
lemma ids (h : Delivery s tr) :
    ∀ job ∈ takenJobs tr, ∀ job' ∈ takenJobs tr, job.id = job'.id → job = job' :=
  fun _ hjob _ hjob' hid => h.jobs.taken_eq hjob hjob' hid

/-- The answers after one more entry: the old ones, and the one the entry gives. -/
lemma responded_snoc (h : Delivery s tr) {en : Entry Op.Ans (Shared P) Party}
    (hhist : en.hist = histOf tr en.tid)
    (hfresh : ∀ job, takenJob en.event = some job → ∀ job' ∈ takenJobs tr, job'.id ≠ job.id)
    (hpre : (jobContract P).pre (jobLog (histOf tr en.tid)) en.event.1) (j : ℕ) (r : JobResult)
    (hmem : (⟨.pool (.respond j r), ()⟩ : Event Op.Ans) ∈ (tr ++ [en]).map Entry.event) :
    ∃ job ∈ takenJobs (tr ++ [en]), job.id = j ∧
      (∀ i, (jobLog (histOf (tr ++ [en]) i)).job ≠ some job) ∧
      ∃ w w', Runs (Worker.execute P w job.request) (callsOf (tr ++ [en]) j) (r, w') := by
  rw [List.map_append, List.map_singleton] at hmem
  rw [takenJobs_snoc]
  rcases List.mem_append.mp hmem with hold | hnew
  · obtain ⟨job, hjob, rfl, hidle, w, w', hruns⟩ := h.responded j r hold
    refine ⟨job, List.mem_append_left _ hjob, rfl, fun i hi => ?_, w, w', ?_⟩
    · rcases LogInv.job_snoc hi with ⟨-, htaken⟩ | hi
      · exact hfresh job htaken job hjob rfl
      · exact hidle i hi
    · rw [h.log.callsOf_other h.ids hhist hjob (hidle en.tid)]
      exact hruns
  · have hevent : en.event = ⟨.pool (.respond j r), ()⟩ := (List.mem_singleton.mp hnew).symm
    rw [hevent] at hpre
    obtain ⟨job, w, w', hjob, rfl, hruns⟩ := hpre
    have hother : Worker.executes en.event.1 = false := by rw [hevent]; rfl
    refine ⟨job, List.mem_append_left _ (h.log.taken _ _ hjob), rfl, fun i hi => ?_, w, w', ?_⟩
    · rcases LogInv.job_snoc hi with ⟨-, htaken⟩ | hi'
      · rw [hevent] at htaken
        cases htaken
      · have hi'' : i = en.tid := h.log.apart i en.tid job hi' hjob
        subst hi''
        rw [histOf_snoc, if_pos rfl, jobLog_snoc, hevent] at hi
        cases hi
    · rw [callsOf_snoc_other hother, h.log.calls _ job hjob]
      exact hruns

/-- The value a handler receives was answered. -/
lemma responded_of_value (h : Delivery s tr) {pcfg : PoolConfig} {now i j d : ℕ} {r : JobResult}
    {p : PoolState} (hp : s.pool.exec pcfg now i (.awaitResult j d) = some (.value r, p)) :
    (⟨.pool (.respond j r), ()⟩ : Event Op.Ans) ∈ tr.map Entry.event := by
  obtain ⟨o, ho, -, ⟨r', hr, heq⟩ | ⟨-, -, heq⟩ | ⟨-, -, -, heq⟩⟩ := PoolState.exec_awaitResult hp
  · obtain rfl := Awaited.value.inj heq
    exact h.answered j o r ho hr
  · cases heq
  · cases heq

/-- What the handlers have received after one more entry. -/
lemma received_snoc (h : Delivery s tr) {en : Entry Op.Ans (Shared P) Party}
    (hpre : (jobContract P).pre (jobLog (histOf tr en.tid)) en.event.1)
    (hvalue : ∀ j d r, en.event = ⟨.pool (.awaitResult j d), .value r⟩ →
      (⟨.pool (.respond j r), ()⟩ : Event Op.Ans) ∈ tr.map Entry.event)
    (i : ℕ) (r : JobResult) (hgot : (jobLog (histOf (tr ++ [en]) i)).got = some r) :
    ∃ j request, (jobLog (histOf (tr ++ [en]) i)).sent = some (j, request) ∧
      (⟨.pool (.respond j r), ()⟩ : Event Op.Ans) ∈ (tr ++ [en]).map Entry.event := by
  have hold : ∀ i', (jobLog (histOf tr i')).got = some r → ∃ j request,
      (jobLog (histOf tr i')).sent = some (j, request) ∧
      (⟨.pool (.respond j r), ()⟩ : Event Op.Ans) ∈ (tr ++ [en]).map Entry.event := by
    intro i' hi'
    obtain ⟨j, request, hsent, hmem⟩ := h.received i' r hi'
    rw [List.map_append]
    exact ⟨j, request, hsent, List.mem_append_left _ hmem⟩
  rw [histOf_snoc] at hgot ⊢
  split at hgot
  · rename_i htid
    subst htid
    rw [if_pos rfl]
    rw [jobLog_snoc] at hgot ⊢
    rcases (jobLog (histOf tr en.tid)).note_own en.event with ⟨request, t, j, hev, -, hkeep⟩ |
      ⟨j, d, r', hev, hsent, hnew⟩ | ⟨hsent, hkeep⟩
    · rw [hev] at hpre
      rw [hkeep, hpre.2] at hgot
      cases hgot
    · rw [hnew] at hgot
      obtain rfl := Option.some.inj hgot
      have hmem := hvalue j d r' hev
      rw [hev] at hpre
      obtain ⟨request, hrequest⟩ := hpre
      rw [hsent, List.map_append]
      exact ⟨j, request, hrequest, List.mem_append_left _ hmem⟩
    · rw [hkeep] at hgot
      rw [hsent]
      exact hold en.tid hgot
  · rename_i htid
    rw [if_neg htid]
    exact hold i hgot

/-- Every allowed step keeps it. -/
theorem exec (h : Delivery s tr) {e : Choice} {i : ℕ} {party : Party} {o : Op} {a : o.Ans}
    (hpre : (jobContract P).pre (jobLog (histOf tr i)) o)
    (he : execOp cfg e i s o = some (a, s')) :
    Delivery s' (tr ++ [⟨i, party, histOf tr i, s, ⟨o, a⟩⟩]) := by
  have hsent : ∀ job ∈ takenJobs tr, ∃ i, (i, job) ∈ sentJobs tr := fun _ => h.sent_of_taken
  by_cases hpool : ∃ q, o = .pool q
  · obtain ⟨q, rfl⟩ := hpool
    obtain ⟨p, hp, rfl⟩ := execOp_pool.mp he
    have hfresh : ∀ job, takenJob ⟨.pool q, a⟩ = some job →
        ∀ job' ∈ takenJobs tr, job'.id ≠ job.id :=
      fun job htaken => h.jobs.not_taken (PoolState.mem_pending_of_taken hp htaken)
    have hvalue : ∀ j d r, (⟨.pool q, a⟩ : Event Op.Ans) = ⟨.pool (.awaitResult j d), .value r⟩ →
        (⟨.pool (.respond j r), ()⟩ : Event Op.Ans) ∈ tr.map Entry.event := by
      intro j d r hev
      cases hev
      exact h.responded_of_value hp
    refine ⟨h.jobs.exec hp, h.log.snoc h.ids rfl hsent hfresh,
      h.responded_snoc rfl hfresh hpre, h.received_snoc hpre hvalue, fun j o' r ho' hr => ?_⟩
    rw [List.map_append, List.map_singleton]
    rcases PoolState.oneshot_exec hp ho' hr with ⟨o, ho, hr⟩ | rfl
    · exact List.mem_append_left _ (h.answered j o r ho hr)
    · exact List.mem_append_right _ (List.mem_singleton_self _)
  · have hnone : takenJob (⟨o, a⟩ : Event Op.Ans) = none := by
      cases o with
      | pool q => exact absurd ⟨q, rfl⟩ hpool
      | _ => rfl
    have hsentnone : sentJob (⟨i, party, histOf tr i, s, ⟨o, a⟩⟩ : Entry Op.Ans (Shared P) Party) =
        none := by
      cases o with
      | pool q => exact absurd ⟨q, rfl⟩ hpool
      | _ => rfl
    have hfresh : ∀ job, takenJob (⟨o, a⟩ : Event Op.Ans) = some job →
        ∀ job' ∈ takenJobs tr, job'.id ≠ job.id := by
      intro job htaken
      rw [hnone] at htaken
      cases htaken
    have hframe : s'.pool = s.pool := (execOp_frame he).pool fun q hq => hpool ⟨q, hq⟩
    refine ⟨?_, h.log.snoc h.ids rfl hsent hfresh, h.responded_snoc rfl hfresh hpre,
      h.received_snoc hpre fun j d r hev => absurd ⟨_, congrArg Sigma.fst hev⟩ hpool,
      fun j o' r ho' hr => ?_⟩
    · rw [sentJobs_snoc, takenJobs_snoc, hsentnone, hnone, hframe]
      simpa using h.jobs
    · rw [hframe] at ho'
      rw [List.map_append]
      exact List.mem_append_left _ (h.answered j o' r ho' hr)

/-- A job that was answered ended with the answer. -/
theorem endsWith (h : Delivery s tr) {i : ℕ} {job : Job} {result : JobResult}
    (hsent : (i, job) ∈ sentJobs tr)
    (hresponded : (⟨.pool (.respond job.id result), ()⟩ : Event Op.Ans) ∈ tr.map Entry.event) :
    ∃ session, Worker.EndsWith session job.request
      ((callsOf tr job.id).filter fun ev => Worker.operates ev.1) result := by
  obtain ⟨job', hjob', hid, -, w, w', hruns⟩ := h.responded _ _ hresponded
  obtain ⟨i', hi'⟩ := h.sent_of_taken hjob'
  have heq : (i', job') = (i, job) := h.jobs.eq_of_id hi' hsent hid
  obtain ⟨-, rfl⟩ := Prod.mk.inj heq
  exact ⟨w.session, Worker.execute_endsWith P hruns⟩

/-- Dropping a thread may lose jobs and results. -/
lemma release (h : Delivery s tr) (i : ℕ) (party : Party) : Delivery (release P i party s) tr := by
  have hanswered : ∀ j o' r, (HsmProxy.release P i party s).pool.oneshots j = some o' →
      o'.value = some r → (⟨.pool (.respond j r), ()⟩ : Event Op.Ans) ∈ tr.map Entry.event := by
    intro j o' r ho' hr
    obtain ⟨o, ho, hr⟩ := oneshot_release ho' hr
    exact h.answered j o r ho hr
  cases party with
  | rpc rpc =>
    exact ⟨⟨h.jobs.names, h.jobs.sent, h.jobs.once⟩, h.log, h.responded, h.received, hanswered⟩
  | worker session =>
    refine ⟨h.jobs.shrink rfl (List.Sublist.subperm ?_), h.log, h.responded, h.received, hanswered⟩
    exact (List.Sublist.append_left (List.filter_sublist.map Prod.snd) s.pool.queue).append_right _

/-- The environment sends, takes and answers nothing. -/
lemma env (h : Delivery s tr) (v : EnvAction P) : Delivery (envStep P v s) tr := by
  cases v <;> exact ⟨⟨h.jobs.names, h.jobs.sent, h.jobs.once⟩, h.log, h.responded, h.received,
    h.answered⟩

end Delivery

/-- What the threads end with: a handler with a reply that goes back to its job. -/
def JobEnds (P : Platform) : Party → JobLog → ThreadResult → Prop
  | .rpc method, g, .reply reply => JobReply P method g reply
  | _, _, _ => True

/-- The obligations of the shared-invariant method. -/
lemma delivery_sound : System.Sound (pooledProxy P cfg) (fun _ _ => True) (fun _ => jobContract P)
    (JobEnds P) Delivery := by
  refine proxy_sound (fun rpc => pooled_delivers P cfg rpc) (fun _ g w _ => iterate_delivers P w g)
    (fun c i e l o k a s' hc _ _ hpre he => ?_) (fun c i l o k hc _ _ _ => hc.inv.release i l)
    fun c v hc _ => hc.inv.env v
  exact ⟨True.intro, hc.inv.exec hpre he⟩

/-- What is known about the jobs of a configuration. -/
abbrev Delivering (c : Config Op.Ans (Shared P) Party ThreadResult) : Prop :=
  System.Outline (fun _ => jobContract P) (JobEnds P) Delivery c

/-- The job a handler waits for is the one it has sent. -/
lemma Delivering.sent_of_await {c : Config Op.Ans (Shared P) Party ThreadResult}
    (hc : Delivering c) {i j d : ℕ} {l : Party} {k : Awaited → Prog Op.Ans ThreadResult}
    (ht : c.threads i = some ⟨l, histOf c.trace i, .call (.pool (.awaitResult j d)) k⟩) :
    ∃ job, job.id = j ∧ (i, job) ∈ sentJobs c.trace ∧
      (jobLog (histOf c.trace i)).sent = some (j, job.request) := by
  obtain ⟨request, hsent⟩ := (hc.threads i _ ht).1
  obtain ⟨t, hmem⟩ := hc.inv.log.own i j request hsent
  exact ⟨⟨j, request, t⟩, rfl, hmem, hsent⟩

/-- After the start no job was sent, taken or answered. -/
lemma delivering_started {t₀ : ℕ} {sessions : List SessionHandle} {token : P.token.State} :
    Delivering (started P t₀ sessions token) := by
  refine outline_started (fun session => iterate_delivers P _ _) ⟨?_, LogInv.nil, ?_, ?_, ?_⟩
  · exact ⟨rfl, fun job hjob => absurd hjob List.not_mem_nil, List.nodup_nil⟩
  · exact fun j r hmem => absurd hmem List.not_mem_nil
  · exact fun i r h => nomatch h
  · exact fun j o r ho => nomatch ho

/-- A step keeps what is known about the jobs. -/
lemma delivering_step {c c' : Config Op.Ans (Shared P) Party ThreadResult}
    {a : Action Choice (EnvAction P) Party} (hc : Delivering c)
    (h : (pooledProxy P cfg).step c a = some c') : Delivering c' :=
  delivery_sound.step hc True.intro h

/-- What is known about the jobs holds after every run. -/
lemma delivering_run {t₀ : ℕ} {sessions : List SessionHandle} {token : P.token.State}
    {as : List (Action Choice (EnvAction P) Party)}
    {c : Config Op.Ans (Shared P) Party ThreadResult}
    (hrun : (pooledProxy P cfg).run (started P t₀ sessions token) as = some c) : Delivering c :=
  delivery_sound.run delivering_started (System.throughout_true _ as) hrun

end

end HsmProxy
