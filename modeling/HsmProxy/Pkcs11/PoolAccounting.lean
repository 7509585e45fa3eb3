import HsmProxy.Grpc.Plan
import HsmProxy.Pkcs11.WorkerSteps
import HsmProxy.Service.Steps
import Mathlib.Algebra.Order.BigOperators.Group.Finset

/-!
# Accounting of the worker pool

Handlers and workers bump the counters of the pool at different points of a job's life.  Where a
thread stands in it is its `PoolPhase`, read off its history; `phaseContract` says in which phase
each counter is bumped.  `Accounted` is the balance of a single history, `QueueInv` the balance of
the queue, and `pool_accounting` puts them together for every run in which no worker dies.
-/

namespace HsmProxy

open Interleaving Interleaving.Prog

/-! ## Phases -/

/-- Where a thread stands in the life of a job: a handler between counting its submission and
recording the answer of `try_send`, a worker that is parked, holds a job, or has counted it. -/
inductive PoolPhase where
  | idle
  | submitting
  | refused
  | parked
  | holding
  | completed
  | failed
  deriving DecidableEq

namespace PoolPhase

/-- One more event. -/
def note (p : PoolPhase) : Event Op.Ans → PoolPhase
  | ⟨.pool (.count .jobsSubmitted _), _⟩ => .submitting
  | ⟨.pool (.trySend _ _), .error .full⟩ => .refused
  | ⟨.pool (.trySend _ _), _⟩ => .idle
  | ⟨.pool (.count .jobsRejectedQueueFull _), _⟩ => .idle
  | ⟨.pool .poll, .job _⟩ => .holding
  | ⟨.pool .poll, .parked⟩ => .parked
  | ⟨.pool .poll, .disconnected⟩ => .idle
  | ⟨.pool .unpark, some _⟩ => .holding
  | ⟨.pool .unpark, none⟩ => .idle
  | ⟨.pool (.count .jobsCompleted _), _⟩ => .completed
  | ⟨.pool (.count .jobsFailed _), _⟩ => .failed
  | ⟨.pool (.respond _ _), _⟩ => .idle
  | _ => p

/-- Is this the phase of a submission whose answer has not been recorded? -/
def inFlight : PoolPhase → ℕ
  | .submitting => 1
  | .refused => 1
  | _ => 0

/-- One for a given phase, zero for the others. -/
def here (p q : PoolPhase) : ℕ := if p = q then 1 else 0

/-- The phases only a worker is in. -/
def ofWorker : PoolPhase → Bool
  | .parked => true
  | .holding => true
  | .completed => true
  | .failed => true
  | _ => false

end PoolPhase

/-- The phase after a history. -/
def poolPhase (h : List (Event Op.Ans)) : PoolPhase := h.foldl PoolPhase.note .idle

/-- One more event. -/
@[simp] lemma poolPhase_snoc (h : List (Event Op.Ans)) (ev : Event Op.Ans) :
    poolPhase (h ++ [ev]) = (poolPhase h).note ev := by
  simp [poolPhase, List.foldl_append]

/-- The steps that leave the phase of a handler alone. -/
def Op.keepsHandlerPhase : Op → Bool
  | .pool (.awaitResult _ _) => true
  | .pool (.count .jobsTimedOut _) => true
  | .pool _ => false
  | o => o.ofHandler

/-- The steps that leave the phase of a worker alone. -/
def Op.keepsWorkerPhase : Op → Bool
  | .now => true
  | .pool (.count .queueWaitNanosTotal _) => true
  | .pool (.count .serviceNanosTotal _) => true
  | o => Worker.executes o

/-- The steps a party may take in a phase. -/
def PoolPhase.Allows (p : PoolPhase) : Party → Op → Prop
  | .rpc _, .pool (.count .jobsSubmitted n) => p = .idle ∧ n = 1
  | .rpc _, .pool (.trySend _ _) => p = .submitting
  | .rpc _, .pool (.count .jobsRejectedQueueFull n) => p = .refused ∧ n = 1
  | .rpc _, o => o.keepsHandlerPhase ∧ (p = .idle ∨ p = .submitting ∧ o = .now)
  | .worker _, .pool .poll => p = .idle
  | .worker _, .pool .unpark => p = .parked
  | .worker _, .pool (.count .jobsCompleted n) => p = .holding ∧ n = 1
  | .worker _, .pool (.count .jobsFailed n) => p = .completed ∧ n = 1
  | .worker _, .pool (.respond _ _) => p = .completed ∨ p = .failed
  | .worker _, o => o.keepsWorkerPhase ∧ p.inFlight = 0

/-- Every party takes the steps its phase allows. -/
def phaseContract (party : Party) : Contract Op.Ans PoolPhase where
  init := .idle
  next p o a := p.note ⟨o, a⟩
  pre p o := p.Allows party o
  post _ _ _ := True

/-! ## Handlers and workers keep to the contract -/

/-- An idle handler reports, looks keys up and publishes loads, and stays idle. -/
lemma phaseContract_idle {rpc : Rpc} {o : Op} (ho : o.keepsHandlerPhase) :
    (phaseContract (.rpc rpc)).pre .idle o ∧
      ∀ a, (phaseContract (.rpc rpc)).next .idle o a = .idle := by
  cases o with
  | pool q =>
    cases q with
    | awaitResult j deadline => exact ⟨⟨rfl, Or.inl rfl⟩, fun _ => rfl⟩
    | count c n =>
      cases c <;> first
        | exact ⟨⟨rfl, Or.inl rfl⟩, fun _ => rfl⟩
        | exact absurd ho Bool.false_ne_true
    | _ => exact absurd ho Bool.false_ne_true
  | token t => exact absurd ho Bool.false_ne_true
  | _ => exact ⟨⟨ho, Or.inl rfl⟩, fun _ => rfl⟩

/-- Steps that keep a worker's phase are allowed in every phase of a worker. -/
lemma phaseContract_works {session : SessionHandle} {p : PoolPhase} {o : Op}
    (ho : o.keepsWorkerPhase) (hp : p.inFlight = 0) : (phaseContract (.worker session)).pre p o ∧
      ∀ a, (phaseContract (.worker session)).next p o a = p := by
  cases o with
  | pool q =>
    cases q with
    | count c n =>
      cases c <;> first
        | exact ⟨⟨ho, hp⟩, fun _ => rfl⟩
        | exact absurd ho Bool.false_ne_true
    | _ => exact absurd ho Bool.false_ne_true
  | now => exact ⟨⟨ho, hp⟩, fun _ => rfl⟩
  | token t => exact ⟨⟨ho, hp⟩, fun _ => rfl⟩
  | _ => exact absurd ho Bool.false_ne_true

section

variable (P : Platform) (cfg : ServiceConfig)

/-- A submission starts and ends idle. -/
lemma submit_phase {rpc : Rpc} (request : JobRequest) :
    (submit cfg request).Meets (phaseContract (.rpc rpc)) (fun p _ => p = .idle) .idle := by
  refine ⟨⟨rfl, rfl⟩, fun _ _ => ⟨⟨rfl, Or.inr ⟨rfl, rfl⟩⟩, fun _ _ => ⟨rfl, fun sent _ => ?_⟩⟩⟩
  cases sent with
  | error refusal =>
    cases refusal with
    | full => exact ⟨⟨rfl, rfl⟩, fun _ _ => rfl⟩
    | disconnected => rfl
  | ok job =>
    refine ⟨(phaseContract_idle rfl).1, fun _ _ => ⟨(phaseContract_idle rfl).1, fun awaited _ => ?_⟩⟩
    cases awaited with
    | value result => rfl
    | closed => rfl
    | elapsed => exact ⟨(phaseContract_idle rfl).1, fun _ _ => rfl⟩

/-- A handler starts and ends idle. -/
theorem pooled_phase (rpc : Rpc) :
    (pooled P cfg rpc).Meets (phaseContract (.rpc rpc)) (fun p _ => p = .idle) .idle := by
  refine meets_pooled_of_submit P cfg rpc (fun p o hp ho => ?_) (fun p o hp ho hsubmits => ?_)
    (fun request => submit_phase cfg request) rfl
  · subst hp
    refine phaseContract_idle ?_
    rcases ho with ho | ho
    · cases o with
      | breaker b => simp [Op.keepsHandlerPhase, Op.ofHandler]
      | _ => first | rfl | exact absurd ho Bool.false_ne_true
    · cases o <;> first | rfl | exact absurd ho Bool.false_ne_true
  · subst hp
    refine phaseContract_idle ?_
    cases o with
    | pool q =>
      have hnot : (Op.pool q).submits = true := ho
      rw [hnot] at hsubmits
      cases hsubmits
    | breaker b => simp [Op.keepsHandlerPhase, Op.ofHandler]
    | now => cases hsubmits
    | _ => first | rfl | exact absurd ho Bool.false_ne_true

/-- A round of a worker starts and ends idle. -/
theorem iterate_phase {session : SessionHandle} (w : Worker) :
    (Worker.iterate P w).Meets (phaseContract (.worker session)) (fun p _ => p = .idle) .idle := by
  refine Worker.meets_iterate
    (fun p received => p = if received.isSome then .holding else .idle)
    (fun _ p _ => p = .holding) ?_ (fun p job hp => ?_) (fun p job r hp => ?_)
    fun p hp => ?_
  · refine Worker.meets_recv rfl (fun _ _ => rfl) (fun _ => rfl) fun _ => ⟨rfl, fun handed _ => ?_⟩
    cases handed <;> rfl
  · obtain rfl : p = .holding := hp
    refine ⟨(phaseContract_works rfl rfl).1, fun started => ?_⟩
    refine (Worker.execute_only P w job.request).meets (fun o ho => phaseContract_works ?_ rfl)
      fun _ => rfl
    unfold Op.keepsWorkerPhase
    split <;> first | rfl | exact ho
  · subst hp
    refine ⟨(phaseContract_works rfl rfl).1, fun started finished => ?_⟩
    refine ⟨⟨rfl, rfl⟩, fun _ _ => ⟨⟨rfl, rfl⟩, fun _ _ => ⟨⟨rfl, rfl⟩, fun _ _ => ?_⟩⟩⟩
    obtain ⟨result, w'⟩ := r
    cases result with
    | ok response => exact ⟨Or.inl rfl, fun _ _ => rfl⟩
    | error e => exact ⟨⟨rfl, rfl⟩, fun _ _ => ⟨Or.inr rfl, fun _ _ => rfl⟩⟩
  · obtain rfl : p = .idle := hp
    exact ⟨⟨rfl, rfl⟩, fun _ _ => ⟨⟨rfl, rfl⟩, fun _ _ => rfl⟩⟩

end

/-! ## The balance of a history -/

/-- A submission was accepted. -/
def accepts : Event Op.Ans → ℕ
  | ⟨.pool (.trySend _ _), .ok _⟩ => 1
  | _ => 0

/-- A submission found the queue full. -/
def sheds : Event Op.Ans → ℕ
  | ⟨.pool (.trySend _ _), .error .full⟩ => 1
  | _ => 0

/-- A submission found no worker left, and is answered `ShuttingDown`. -/
def disconnects : Event Op.Ans → ℕ
  | ⟨.pool (.trySend _ _), .error .disconnected⟩ => 1
  | _ => 0

/-- A worker took a job. -/
def takes : Event Op.Ans → ℕ
  | ⟨.pool .poll, .job _⟩ => 1
  | ⟨.pool .unpark, some _⟩ => 1
  | _ => 0

/-- What has been counted in a history balances what happened in it. -/
structure Accounted (h : List (Event Op.Ans)) : Prop where
  submitted : total (counted .jobsSubmitted) h = total (counted .jobsRejectedQueueFull) h +
    total disconnects h + total accepts h + (poolPhase h).inFlight
  shed : total sheds h = total (counted .jobsRejectedQueueFull) h + (poolPhase h).here .refused
  taken : total takes h = total (counted .jobsCompleted) h + (poolPhase h).here .holding
  failed : total (counted .jobsFailed) h + (poolPhase h).here .completed ≤
    total (counted .jobsCompleted) h

/-- What an event adds to the accounts, beside the phase it leads to. -/
structure Balances (p p' : PoolPhase) (ev : Event Op.Ans) : Prop where
  submitted : counted .jobsSubmitted ev + p.inFlight = counted .jobsRejectedQueueFull ev +
    disconnects ev + accepts ev + p'.inFlight
  shed : sheds ev + p.here .refused = counted .jobsRejectedQueueFull ev + p'.here .refused
  taken : takes ev + p.here .holding = counted .jobsCompleted ev + p'.here .holding
  failed : counted .jobsFailed ev + p'.here .completed ≤
    counted .jobsCompleted ev + p.here .completed

/-- An event that balances keeps the balance of the history. -/
lemma Accounted.snoc {h : List (Event Op.Ans)} {ev : Event Op.Ans} (hh : Accounted h)
    (hev : Balances (poolPhase h) ((poolPhase h).note ev) ev) : Accounted (h ++ [ev]) := by
  obtain ⟨hs₁, hs₂, hs₃, hs₄⟩ := hh
  obtain ⟨he₁, he₂, he₃, he₄⟩ := hev
  constructor <;> simp only [total_snoc, poolPhase_snoc] <;> omega

/-- The steps that keep a phase balance. -/
lemma balances_of_keeps {p : PoolPhase} {o : Op} (ho : o.keepsHandlerPhase ∨ o.keepsWorkerPhase)
    (a : o.Ans) : Balances p (p.note ⟨o, a⟩) ⟨o, a⟩ := by
  have hrefl : ∀ ev : Event Op.Ans, p.note ev = p → (∀ c, counted c ev = 0 ∨
      c ∉ [PoolCounter.jobsSubmitted, .jobsRejectedQueueFull, .jobsCompleted, .jobsFailed]) →
      accepts ev = 0 → sheds ev = 0 → disconnects ev = 0 → takes ev = 0 →
      Balances p (p.note ev) ev := by
    intro ev hp hc h₁ h₂ h₃ h₄
    rw [hp]
    have h₅ := (hc .jobsSubmitted).resolve_right (by simp)
    have h₆ := (hc .jobsRejectedQueueFull).resolve_right (by simp)
    have h₇ := (hc .jobsCompleted).resolve_right (by simp)
    have h₈ := (hc .jobsFailed).resolve_right (by simp)
    constructor <;> omega
  cases o with
  | pool q =>
    cases q with
    | awaitResult j deadline =>
      exact hrefl _ rfl (fun _ => Or.inl rfl) rfl rfl rfl rfl
    | count c n =>
      cases c with
      | jobsSubmitted => simp [Op.keepsHandlerPhase, Op.keepsWorkerPhase, Worker.executes] at ho
      | jobsCompleted => simp [Op.keepsHandlerPhase, Op.keepsWorkerPhase, Worker.executes] at ho
      | jobsFailed => simp [Op.keepsHandlerPhase, Op.keepsWorkerPhase, Worker.executes] at ho
      | jobsRejectedQueueFull =>
        simp [Op.keepsHandlerPhase, Op.keepsWorkerPhase, Worker.executes] at ho
      | _ => exact hrefl _ rfl (fun c => by cases c <;> simp [counted]) rfl rfl rfl rfl
    | _ => simp [Op.keepsHandlerPhase, Op.keepsWorkerPhase, Worker.executes] at ho
  | _ => exact hrefl _ rfl (fun _ => Or.inl rfl) rfl rfl rfl rfl

/-- An allowed step balances. -/
lemma PoolPhase.Allows.balances {p : PoolPhase} {party : Party} {o : Op} (ho : p.Allows party o)
    (a : o.Ans) : Balances p (p.note ⟨o, a⟩) ⟨o, a⟩ := by
  cases party with
  | rpc rpc =>
    cases o with
    | pool q =>
      cases q with
      | count c n =>
        cases c with
        | jobsSubmitted =>
          obtain ⟨rfl, rfl⟩ := ho
          exact ⟨rfl, rfl, rfl, Nat.le_refl _⟩
        | jobsRejectedQueueFull =>
          obtain ⟨rfl, rfl⟩ := ho
          exact ⟨rfl, rfl, rfl, Nat.le_refl _⟩
        | _ => exact balances_of_keeps (Or.inl ho.1) a
      | trySend request enqueuedAt =>
        obtain rfl := ho
        rcases a with (_ | _) | _ <;> exact ⟨rfl, rfl, rfl, Nat.le_refl _⟩
      | _ => exact balances_of_keeps (Or.inl ho.1) a
    | _ => exact balances_of_keeps (Or.inl ho.1) a
  | worker session =>
    cases o with
    | pool q =>
      cases q with
      | count c n =>
        cases c with
        | jobsCompleted =>
          obtain ⟨rfl, rfl⟩ := ho
          exact ⟨rfl, rfl, rfl, Nat.le_refl _⟩
        | jobsFailed =>
          obtain ⟨rfl, rfl⟩ := ho
          exact ⟨rfl, rfl, rfl, Nat.le_refl _⟩
        | _ => exact balances_of_keeps (Or.inr ho.1) a
      | poll =>
        obtain rfl := ho
        cases a <;> exact ⟨rfl, rfl, rfl, Nat.le_refl _⟩
      | unpark =>
        obtain rfl := ho
        cases a <;> exact ⟨rfl, rfl, rfl, Nat.le_refl _⟩
      | respond j r => rcases ho with rfl | rfl <;> exact ⟨rfl, rfl, rfl, Nat.zero_le _⟩
      | _ => exact balances_of_keeps (Or.inr ho.1) a
    | _ => exact balances_of_keeps (Or.inr ho.1) a

/-! ## The balance of the queue -/

/-- The workers that wait for a job: those parked, and those a job has been handed to. -/
def PoolState.waiting (s : PoolState) : List ℕ := s.parked ++ s.handed.map Prod.fst

/-- What holds of the queue after a trace, in a pool of `n` workers. -/
structure QueueInv (n depth : ℕ) (s : PoolState) {S : Type} (tr : List (Entry Op.Ans S Party)) :
    Prop where
  /-- Every accepted job is queued, handed to a worker, or taken. -/
  accepted : total accepts (tr.map Entry.event) =
    s.queue.length + s.handed.length + total takes (tr.map Entry.event)
  /-- The queue is bounded. -/
  bound : s.queue.length ≤ depth
  /-- No worker waits twice. -/
  nodup : s.waiting.Nodup
  /-- Who waits is parked. -/
  parked : ∀ w ∈ s.waiting, poolPhase (histOf tr w) = .parked
  /-- Only workers are in the phases of a worker. -/
  workers : ∀ i, (poolPhase (histOf tr i)).ofWorker → i < n

/-- A handler never enters a phase of a worker. -/
lemma PoolPhase.Allows.not_ofWorker {p : PoolPhase} {rpc : Rpc} {o : Op}
    (ho : p.Allows (.rpc rpc) o) (a : o.Ans) (hw : (p.note ⟨o, a⟩).ofWorker) : p.ofWorker := by
  cases o with
  | pool q =>
    cases q with
    | count c n =>
      cases c with
      | jobsSubmitted => exact absurd hw Bool.false_ne_true
      | jobsRejectedQueueFull => exact absurd hw Bool.false_ne_true
      | jobsTimedOut => exact hw
      | _ => exact absurd ho.1 Bool.false_ne_true
    | trySend request enqueuedAt =>
      rcases a with (_ | _) | _ <;> exact absurd hw Bool.false_ne_true
    | awaitResult j deadline => exact hw
    | _ => exact absurd ho.1 Bool.false_ne_true
  | token t => exact absurd ho.1 Bool.false_ne_true
  | _ => exact hw

/-- Who responds is not parked. -/
lemma PoolPhase.Allows.respond_ne {p : PoolPhase} {party : Party} {j : ℕ} {r : JobResult}
    (ho : p.Allows party (.pool (.respond j r))) : p ≠ .parked := by
  cases party with
  | rpc rpc => exact absurd ho.1 Bool.false_ne_true
  | worker session => rcases ho with rfl | rfl <;> decide

/-- Who sends is submitting. -/
lemma PoolPhase.Allows.trySend_eq {p : PoolPhase} {party : Party} {request : JobRequest}
    {enqueuedAt : ℕ} (ho : p.Allows party (.pool (.trySend request enqueuedAt))) :
    p = .submitting := by
  cases party with
  | rpc rpc => exact ho
  | worker session => exact absurd ho.1 Bool.false_ne_true

/-- Who asks for a job is idle. -/
lemma PoolPhase.Allows.poll_eq {p : PoolPhase} {party : Party}
    (ho : p.Allows party (.pool .poll)) : p = .idle := by
  cases party with
  | rpc rpc => exact absurd ho.1 Bool.false_ne_true
  | worker session => exact ho

/-- A step that can count leaves a parked worker's phase alone. -/
lemma PoolPhase.Allows.count {p : PoolPhase} {party : Party} {c : PoolCounter} {n : ℕ}
    (ho : p.Allows party (.pool (.count c n))) (a : Unit) :
    p.note ⟨.pool (.count c n), a⟩ = p ∨ p ≠ .parked := by
  cases party <;> cases c <;> first
    | exact Or.inl rfl
    | exact Or.inr (by rw [ho.1]; decide)
    | exact absurd ho.1 Bool.false_ne_true

section

variable {P : Platform} {cfg : ServiceConfig} {n depth : ℕ} {s s' : PoolState} {S : Type}
  {tr : List (Entry Op.Ans S Party)} {en : Entry Op.Ans S Party}

/-- One more entry: the balance of the queue, its bound, and who waits now. -/
lemma QueueInv.snoc (h : QueueInv n depth s tr)
    (hbalance : accepts en.event + (s.queue.length + s.handed.length) =
      s'.queue.length + s'.handed.length + takes en.event)
    (hbound : s'.queue.length ≤ depth) (hnodup : s'.waiting.Nodup)
    (hold : ∀ w ∈ s'.waiting, w ≠ en.tid → w ∈ s.waiting)
    (hnew : en.tid ∈ s'.waiting → (poolPhase (histOf tr en.tid)).note en.event = .parked)
    (hworker : ((poolPhase (histOf tr en.tid)).note en.event).ofWorker → en.tid < n) :
    QueueInv n depth s' (tr ++ [en]) where
  accepted := by
    have hacc := h.accepted
    simp only [List.map_append, List.map_singleton, total_snoc]
    omega
  bound := hbound
  nodup := hnodup
  parked w hw := by
    rw [histOf_snoc]
    split
    · rename_i htid
      subst htid
      rw [poolPhase_snoc]
      exact hnew hw
    · rename_i htid
      exact h.parked w (hold w hw (Ne.symm htid))
  workers i hi := by
    rw [histOf_snoc] at hi
    split at hi
    · rename_i htid
      subst htid
      rw [poolPhase_snoc] at hi
      exact hworker hi
    · exact h.workers i hi

/-- An entry that changes neither the queue nor who waits. -/
lemma QueueInv.keep (h : QueueInv n depth s tr) (hqueue : s'.queue = s.queue)
    (hparked : s'.parked = s.parked) (hhanded : s'.handed = s.handed)
    (haccepts : accepts en.event = 0) (htakes : takes en.event = 0)
    (hnote : (poolPhase (histOf tr en.tid)).note en.event = poolPhase (histOf tr en.tid) ∨
      poolPhase (histOf tr en.tid) ≠ .parked)
    (hworker : ((poolPhase (histOf tr en.tid)).note en.event).ofWorker → en.tid < n) :
    QueueInv n depth s' (tr ++ [en]) := by
  have hwaiting : s'.waiting = s.waiting := by simp only [PoolState.waiting, hparked, hhanded]
  refine h.snoc ?_ (hqueue ▸ h.bound) (hwaiting ▸ h.nodup) (fun w hw _ => hwaiting ▸ hw)
    (fun htid => ?_) hworker
  · rw [hqueue, hhanded, haccepts, htakes]
    omega
  · have hphase := h.parked _ (hwaiting ▸ htid)
    rcases hnote with hnote | hnote
    · rw [hnote, hphase]
    · exact absurd hphase hnote

/-- In a list whose keys are distinct, a key that is found occurs once. -/
lemma lookup_filter {l : List (ℕ × Job)} {i : ℕ} {job : Job} (hl : (l.map Prod.fst).Nodup)
    (h : l.lookup i = some job) :
    i ∈ l.map Prod.fst ∧ (l.filter fun p => decide (p.1 ≠ i)).length + 1 = l.length := by
  obtain ⟨l₁, l₂, rfl, hl₁⟩ := List.lookup_eq_some_iff.mp h
  have hl₂ : ∀ p ∈ l₂, p.1 ≠ i := by
    rintro p hp rfl
    simp only [List.map_append, List.map_cons, List.nodup_append, List.nodup_cons] at hl
    exact hl.2.1.1 (List.mem_map_of_mem hp)
  have hf₁ : l₁.filter (fun p => decide (p.1 ≠ i)) = l₁ := by
    refine List.filter_eq_self.mpr fun p hp => ?_
    have hne : i ≠ p.1 := by simpa using hl₁ p hp
    exact decide_eq_true (Ne.symm hne)
  have hf₂ : l₂.filter (fun p => decide (p.1 ≠ i)) = l₂ :=
    List.filter_eq_self.mpr fun p hp => by simpa using hl₂ p hp
  refine ⟨by simp, ?_⟩
  rw [List.filter_append, List.filter_cons, hf₁, hf₂]
  simp only [ne_eq, not_true_eq_false, decide_false, Bool.false_eq_true, if_false,
    List.length_append, List.length_cons]
  omega

/-- A key that is not found does not occur. -/
lemma lookup_none {l : List (ℕ × Job)} {i : ℕ} (h : l.lookup i = none) : i ∉ l.map Prod.fst := by
  intro hi
  obtain ⟨p, hp, rfl⟩ := List.mem_map.mp hi
  have := List.lookup_eq_none_iff.mp h p hp
  simp at this

/-- A thread that is not parked does not wait. -/
lemma QueueInv.not_mem (h : QueueInv n depth s tr) {i : ℕ}
    (hi : poolPhase (histOf tr i) ≠ .parked) : i ∉ s.waiting := fun hmem => hi (h.parked i hmem)

/-- `try_send` hands the job over, queues it, or refuses it. -/
lemma QueueInv.trySend {pcfg : PoolConfig} {now i : ℕ} {party : Party}
    {hist : List (Event Op.Ans)} {before : S} {request : JobRequest} {enqueuedAt : ℕ}
    {a : Except TrySendError ℕ} (h : QueueInv n pcfg.queueDepth s tr)
    (hphase : poolPhase (histOf tr i) = .submitting)
    (hp : s.exec pcfg now i (.trySend request enqueuedAt) = some (a, s'))
    (hworker : ((poolPhase (histOf tr i)).note ⟨.pool (.trySend request enqueuedAt), a⟩).ofWorker →
      i < n) : QueueInv n pcfg.queueDepth s'
        (tr ++ [⟨i, party, hist, before, ⟨.pool (.trySend request enqueuedAt), a⟩⟩]) := by
  have hne : poolPhase (histOf tr i) ≠ .parked := by rw [hphase]; decide
  have hnot := h.not_mem hne
  obtain ⟨-, ⟨-, rfl, rfl⟩ | ⟨w, ws, -, hparked, rfl, rfl⟩ | ⟨-, -, hroom, rfl, rfl⟩ |
    ⟨-, -, -, rfl, rfl⟩⟩ := PoolState.exec_trySend hp
  · exact h.keep rfl rfl rfl rfl rfl (Or.inr hne) hworker
  · have hperm : (ws ++ (s.handed ++ [(w, s.nextJobOf request enqueuedAt)]).map Prod.fst).Perm
        s.waiting := by
      rw [PoolState.waiting, hparked, List.map_append, List.map_singleton, ← List.append_assoc]
      exact List.perm_append_singleton w _
    refine h.snoc ?_ h.bound (hperm.nodup_iff.mpr h.nodup) (fun w' hw' _ => hperm.mem_iff.mp hw')
      (fun hi => absurd (hperm.mem_iff.mp hi) hnot) hworker
    simp only [accepts, takes, PoolState.accept, List.length_append, List.length_singleton]
    omega
  · refine h.snoc ?_ ?_ h.nodup (fun w' hw' _ => hw') (fun hi => absurd hi hnot) hworker
    · simp only [accepts, takes, PoolState.accept, List.length_append, List.length_singleton]
      omega
    · simp only [List.length_append, List.length_singleton]
      omega
  · exact h.keep rfl rfl rfl rfl rfl (Or.inr hne) hworker

/-- A worker that asks for a job takes one from the queue, or is parked. -/
lemma QueueInv.poll {pcfg : PoolConfig} {now i : ℕ} {party : Party}
    {hist : List (Event Op.Ans)} {before : S} {a : Polled} (h : QueueInv n pcfg.queueDepth s tr)
    (hphase : poolPhase (histOf tr i) = .idle) (hp : s.exec pcfg now i .poll = some (a, s'))
    (hworker : ((poolPhase (histOf tr i)).note ⟨.pool .poll, a⟩).ofWorker → i < n) :
    QueueInv n pcfg.queueDepth s' (tr ++ [⟨i, party, hist, before, ⟨.pool .poll, a⟩⟩]) := by
  have hne : poolPhase (histOf tr i) ≠ .parked := by rw [hphase]; decide
  have hnot := h.not_mem hne
  obtain ⟨job, rest, hqueue, rfl, rfl⟩ | ⟨-, -, rfl, rfl⟩ | ⟨-, -, rfl, rfl⟩ :=
    PoolState.exec_poll hp
  · have hbound := h.bound
    rw [hqueue, List.length_cons] at hbound
    refine h.snoc ?_ ?_ h.nodup (fun w' hw' _ => hw') (fun hi => absurd hi hnot) hworker
    · simp only [accepts, takes, hqueue, List.length_cons]
      omega
    · show rest.length ≤ _
      omega
  · have hperm : (s.parked ++ [i] ++ s.handed.map Prod.fst).Perm (i :: s.waiting) := by
      rw [PoolState.waiting, List.append_assoc]
      exact List.perm_middle
    refine h.snoc ?_ h.bound ?_ (fun w' hw' hne' => ?_) (fun _ => rfl) hworker
    · simp only [accepts, takes]
      omega
    · exact hperm.nodup_iff.mpr (List.nodup_cons.mpr ⟨hnot, h.nodup⟩)
    · exact (List.mem_cons.mp (hperm.mem_iff.mp hw')).resolve_left hne'
  · exact h.keep rfl rfl rfl rfl rfl (Or.inr hne) hworker

/-- A parked worker that wakes up has the job that was handed to it, or leaves. -/
lemma QueueInv.unpark {pcfg : PoolConfig} {now i : ℕ} {party : Party}
    {hist : List (Event Op.Ans)} {before : S} {a : Option Job}
    (h : QueueInv n pcfg.queueDepth s tr) (hp : s.exec pcfg now i .unpark = some (a, s'))
    (hworker : ((poolPhase (histOf tr i)).note ⟨.pool .unpark, a⟩).ofWorker → i < n) :
    QueueInv n pcfg.queueDepth s' (tr ++ [⟨i, party, hist, before, ⟨.pool .unpark, a⟩⟩]) := by
  obtain ⟨job, hjob, rfl, rfl⟩ | ⟨hnone, -, rfl, rfl⟩ := PoolState.exec_unpark hp
  · obtain ⟨hmem, hlength⟩ := lookup_filter (List.nodup_append.mp h.nodup).2.1 hjob
    have hsub : (s.parked ++ (s.handed.filter fun p => decide (p.1 ≠ i)).map Prod.fst).Sublist
        s.waiting := (List.filter_sublist.map Prod.fst).append_left s.parked
    have hnot : i ∉ s.parked ++ (s.handed.filter fun p => decide (p.1 ≠ i)).map Prod.fst := by
      intro hi
      rcases List.mem_append.mp hi with hi | hi
      · exact (List.nodup_append.mp h.nodup).2.2 i hi i hmem rfl
      · obtain ⟨p, hp, rfl⟩ := List.mem_map.mp hi
        simpa using (List.mem_filter.mp hp).2
    refine h.snoc ?_ h.bound (h.nodup.sublist hsub) (fun w hw _ => hsub.mem hw)
      (fun hi => absurd hi hnot) hworker
    simp only [accepts, takes]
    omega
  · have hsub : (s.parked.filter (fun w => decide (w ≠ i)) ++ s.handed.map Prod.fst).Sublist
        s.waiting := List.filter_sublist.append_right _
    have hnot : i ∉ s.parked.filter (fun w => decide (w ≠ i)) ++ s.handed.map Prod.fst := by
      intro hi
      rcases List.mem_append.mp hi with hi | hi
      · simpa using (List.mem_filter.mp hi).2
      · exact lookup_none hnone hi
    refine h.snoc ?_ h.bound (h.nodup.sublist hsub) (fun w hw _ => hsub.mem hw)
      (fun hi => absurd hi hnot) hworker
    simp only [accepts, takes]
    omega

/-- Every allowed step keeps the balance of the queue. -/
theorem QueueInv.exec {s s' : Shared P} {tr : List (Entry Op.Ans (Shared P) Party)} {i : ℕ}
    {party : Party} {hist : List (Event Op.Ans)} {o : Op} {a : o.Ans} {e : Choice}
    (h : QueueInv n cfg.pool.queueDepth s.pool tr)
    (ho : (poolPhase (histOf tr i)).Allows party o)
    (hparty : ∀ session, party = .worker session → i < n)
    (he : execOp cfg e i s o = some (a, s')) :
    QueueInv n cfg.pool.queueDepth s'.pool (tr ++ [⟨i, party, hist, s, ⟨o, a⟩⟩]) := by
  have hworker : ((poolPhase (histOf tr i)).note ⟨o, a⟩).ofWorker → i < n := by
    intro hw
    cases party with
    | rpc rpc => exact h.workers i (ho.not_ofWorker a hw)
    | worker session => exact hparty session rfl
  by_cases hpool : ∃ q, o = .pool q
  · obtain ⟨q, rfl⟩ := hpool
    obtain ⟨p, hp, rfl⟩ := execOp_pool.mp he
    cases q with
    | count c m =>
      cases hp
      exact h.keep rfl rfl rfl rfl rfl (ho.count ()) hworker
    | awaitResult j deadline =>
      obtain ⟨o', -, rfl, -⟩ := PoolState.exec_awaitResult hp
      exact h.keep rfl rfl rfl rfl rfl (Or.inl rfl) hworker
    | respond j r =>
      cases hp
      refine h.keep rfl rfl rfl rfl rfl (Or.inr ho.respond_ne) hworker
    | trySend request enqueuedAt => exact h.trySend ho.trySend_eq hp hworker
    | poll => exact h.poll ho.poll_eq hp hworker
    | unpark => exact h.unpark hp hworker
  · rw [(execOp_frame he).pool fun q hq => hpool ⟨q, hq⟩]
    cases o with
    | pool q => exact absurd ⟨q, rfl⟩ hpool
    | _ => exact h.keep rfl rfl rfl rfl rfl (Or.inl rfl) hworker

end

/-! ## Every run -/

/-- A handler is suspended only while it is idle. -/
lemma PoolPhase.Allows.idle_of_suspends {p : PoolPhase} {rpc : Rpc} {o : Op}
    (ho : p.Allows (.rpc rpc) o) (hs : o.suspends) : p = .idle := by
  have hnow : o ≠ .now := by
    rintro rfl
    cases hs
  cases o with
  | pool q =>
    cases q with
    | awaitResult j deadline => exact ho.2.resolve_right fun h => hnow h.2
    | _ => exact absurd hs Bool.false_ne_true
  | cache q => exact ho.2.resolve_right fun h => hnow h.2
  | lockSession => exact ho.2.resolve_right fun h => hnow h.2
  | _ => exact absurd hs Bool.false_ne_true

/-- A worker has no submission in flight. -/
lemma PoolPhase.Allows.inFlight_eq_zero {p : PoolPhase} {session : SessionHandle} {o : Op}
    (ho : p.Allows (.worker session) o) : p.inFlight = 0 := by
  cases o with
  | pool q =>
    cases q with
    | count c n =>
      cases c with
      | jobsCompleted => rw [ho.1]; rfl
      | jobsFailed => rw [ho.1]; rfl
      | _ => exact ho.2
    | poll => rw [show p = .idle from ho]; rfl
    | unpark => rw [show p = .parked from ho]; rfl
    | respond j r => rcases ho with rfl | rfl <;> rfl
    | _ => exact ho.2
  | _ => exact ho.2

/-- A submission that was refused is counted next. -/
lemma PoolPhase.Allows.of_refused {party : Party} {o : Op}
    (ho : PoolPhase.Allows .refused party o) : o = .pool (.count .jobsRejectedQueueFull 1) := by
  have hother : ¬(PoolPhase.refused = .idle ∨ PoolPhase.refused = .submitting ∧ o = .now) := by
    rintro (h | ⟨h, -⟩) <;> cases h
  cases party with
  | rpc rpc =>
    cases o with
    | pool q =>
      cases q with
      | count c n =>
        cases c with
        | jobsSubmitted => cases ho.1
        | jobsRejectedQueueFull => rw [ho.2]
        | _ => exact absurd ho.2 hother
      | trySend request enqueuedAt => cases ho
      | _ => exact absurd ho.2 hother
    | _ => exact absurd ho.2 hother
  | worker session => cases ho.inFlight_eq_zero

/-- A submission that was counted reads the clock and sends its job next. -/
lemma PoolPhase.Allows.of_submitting {party : Party} {o : Op}
    (ho : PoolPhase.Allows .submitting party o) :
    o = .now ∨ ∃ request enqueuedAt, o = .pool (.trySend request enqueuedAt) := by
  have hnow : PoolPhase.submitting = .idle ∨ PoolPhase.submitting = .submitting ∧ o = .now →
      o = .now := by
    rintro (h | ⟨-, h⟩)
    · cases h
    · exact h
  cases party with
  | rpc rpc =>
    cases o with
    | pool q =>
      cases q with
      | count c n =>
        cases c with
        | jobsSubmitted => cases ho.1
        | jobsRejectedQueueFull => cases ho.1
        | _ => exact Or.inl (hnow ho.2)
      | trySend request enqueuedAt => exact Or.inr ⟨request, enqueuedAt, rfl⟩
      | _ => exact Or.inl (hnow ho.2)
    | _ => exact Or.inl (hnow ho.2)
  | worker session => cases ho.inFlight_eq_zero

section

variable {P : Platform} {cfg : ServiceConfig} {t₀ : ℕ} {sessions : List SessionHandle}
  {token : P.token.State} {as : List (Action Choice (EnvAction P) Party)}
  {c : Config Op.Ans (Shared P) Party ThreadResult}

/-- The step does not drop a worker. -/
def NoWorkerDies (c : Config Op.Ans (Shared P) Party ThreadResult)
    (a : Action Choice (EnvAction P) Party) : Prop :=
  ∀ i session hist p, a = .cancel i → c.threads i ≠ some ⟨.worker session, hist, p⟩

/-- What the proof maintains about the shared state and the trace. -/
def poolInv (P : Platform) (cfg : ServiceConfig) (n : ℕ) (s : Shared P)
    (tr : List (Entry Op.Ans (Shared P) Party)) : Prop :=
  Counted s tr ∧ QueueInv n cfg.pool.queueDepth s.pool tr

/-- The obligations of the shared-invariant method. -/
lemma pool_sound (n : ℕ) : System.Sound (pooledProxy P cfg)
    (fun c a => NoWorkerDies c a ∧ WorkersFirst n c) phaseContract (fun _ p _ => p = .idle)
    (fun s tr => poolInv P cfg n s tr ∧ ∀ i, Accounted (histOf tr i)) := by
  have hbase : System.Sound (pooledProxy P cfg)
      (fun c a => NoWorkerDies c a ∧ WorkersFirst n c) phaseContract (fun _ p _ => p = .idle)
      (poolInv P cfg n) := by
    refine proxy_sound (fun rpc => pooled_phase P cfg rpc) (fun session p w hp => ?_) ?_ ?_ ?_
    · subst hp
      exact iterate_phase P w
    · intro c i e l o k a s' hc hH ht hpre he
      refine ⟨True.intro, hc.inv.1.exec he, hc.inv.2.exec hpre (fun session hl => ?_) he⟩
      subst hl
      exact hH.2.2 i session _ _ ht
    · intro c i l o k hc hH ht hsus
      cases l with
      | rpc rpc =>
        obtain ⟨h₁, h₂, h₃, h₄, h₅⟩ := hc.inv.2
        exact ⟨hc.inv.1.release, h₁, h₂, h₃, h₄, h₅⟩
      | worker session => exact absurd ht (hH.1 i session _ _ rfl)
    · intro c v hc _
      obtain ⟨h₁, h₂, h₃, h₄, h₅⟩ := hc.inv.2
      refine ⟨hc.inv.1.env, ?_⟩
      cases v <;> exact ⟨h₁, h₂, h₃, h₄, h₅⟩
  refine hbase.histories fun l h o a hh hpre _ => hh.snoc ?_
  exact PoolPhase.Allows.balances hpre a

/-- Handlers that are gone were idle. -/
def GoneIdle (c : Config Op.Ans (Shared P) Party ThreadResult) : Prop :=
  ∀ i, c.threads i = none → poolPhase (histOf c.trace i) = .idle

/-- Nobody waits at the start, and nothing has happened. -/
lemma pool_started : System.Outline phaseContract (fun _ p _ => p = .idle)
    (fun s tr => poolInv P cfg sessions.length s tr ∧ ∀ i, Accounted (histOf tr i))
    (started P t₀ sessions token) := by
  refine outline_started (fun session => iterate_phase P _) ⟨⟨Counted.start, ?_⟩, fun i => ?_⟩
  · exact ⟨rfl, Nat.zero_le _, List.nodup_nil, fun w hw => absurd hw List.not_mem_nil,
      fun i hi => absurd hi Bool.false_ne_true⟩
  · exact ⟨rfl, rfl, rfl, Nat.le_refl _⟩

/-- A step keeps the outline, and that handlers which are gone were idle. -/
lemma goneIdle_step {n : ℕ} {c' : Config Op.Ans (Shared P) Party ThreadResult}
    {a : Action Choice (EnvAction P) Party}
    (hc : System.Outline phaseContract (fun _ p _ => p = .idle)
      (fun s tr => poolInv P cfg n s tr ∧ ∀ i, Accounted (histOf tr i)) c)
    (hgone : GoneIdle c) (ha : NoWorkerDies c a) (h : (pooledProxy P cfg).step c a = some c') :
    GoneIdle c' := by
  refine System.gone_step (J := fun hist => poolPhase hist = .idle) hc.recorded hgone
    (fun i l o k hcancel ht hd => ?_) h
  cases l with
  | worker session => exact absurd ht (ha i session _ _ hcancel)
  | rpc rpc => exact (hc.threads i _ ht).1.idle_of_suspends hd

/-- The phase of a thread; a handler that is gone is in none. -/
def livePhase (c : Config Op.Ans (Shared P) Party ThreadResult) (i : ℕ) : PoolPhase :=
  match c.threads i with
  | some t => poolPhase t.hist
  | none => .idle

/-- The phase of a thread is read off the trace. -/
lemma livePhase_eq (hc : System.Recorded c) (hgone : GoneIdle c) (i : ℕ) :
    livePhase c i = poolPhase (histOf c.trace i) := by
  unfold livePhase
  cases ht : c.threads i with
  | none => exact (hgone i ht).symm
  | some t => exact congrArg poolPhase (hc.hist i t ht)

/-- The jobs a worker has been handed or has taken, and not counted yet. -/
def takenUncounted (c : Config Op.Ans (Shared P) Party ThreadResult) : ℕ :=
  c.shared.pool.handed.length + ∑ i ∈ Finset.range c.spawned, (livePhase c i).here .holding

/-- The outline of a run in which no worker dies. -/
lemma pool_outline (hrun : (pooledProxy P cfg).run (started P t₀ sessions token) as = some c)
    (hlive : (pooledProxy P cfg).Throughout NoWorkerDies (started P t₀ sessions token) as) :
    System.Outline phaseContract (fun _ p _ => p = .idle)
      (fun s tr => poolInv P cfg sessions.length s tr ∧ ∀ i, Accounted (histOf tr i)) c ∧
    GoneIdle c := by
  have hthrough := hlive.and_invariant (fun _ _ _ => workersFirst_step) workersFirst_started
  refine System.run_invariant (I := fun c => System.Outline phaseContract (fun _ p _ => p = .idle)
      (fun s tr => poolInv P cfg sessions.length s tr ∧ ∀ i, Accounted (histOf tr i)) c ∧
    GoneIdle c) (fun c a c' hc ha h => ?_) ⟨pool_started, fun _ _ => rfl⟩ hthrough hrun
  exact ⟨(pool_sound sessions.length).step hc.1 ha h, goneIdle_step hc.1 hc.2 ha.1 h⟩

/-- The jobs handed over and the jobs held are with different workers. -/
lemma handed_add_holding_le {n m depth : ℕ} {s : PoolState} {S : Type}
    {tr : List (Entry Op.Ans S Party)} (h : QueueInv n depth s tr) :
    s.handed.length + ∑ i ∈ Finset.range m, (poolPhase (histOf tr i)).here .holding ≤ n := by
  have hnodup : (s.handed.map Prod.fst).Nodup := (List.nodup_append.mp h.nodup).2.1
  have hsum : ∑ i ∈ Finset.range m, (poolPhase (histOf tr i)).here .holding =
      ((Finset.range m).filter fun i => poolPhase (histOf tr i) = .holding).card := by
    rw [Finset.card_filter]
    rfl
  have hdisjoint : Disjoint (s.handed.map Prod.fst).toFinset
      ((Finset.range m).filter fun i => poolPhase (histOf tr i) = .holding) := by
    rw [Finset.disjoint_left]
    intro i hi hhold
    have hparked := h.parked i (List.mem_append_right _ (List.mem_toFinset.mp hi))
    rw [(Finset.mem_filter.mp hhold).2] at hparked
    cases hparked
  have hsubset : (s.handed.map Prod.fst).toFinset ∪
      ((Finset.range m).filter fun i => poolPhase (histOf tr i) = .holding) ⊆ Finset.range n := by
    intro i hi
    refine Finset.mem_range.mpr (h.workers i ?_)
    rcases Finset.mem_union.mp hi with hi | hi
    · rw [h.parked i (List.mem_append_right _ (List.mem_toFinset.mp hi))]
      rfl
    · rw [(Finset.mem_filter.mp hi).2]
      rfl
  have hcard := Finset.card_le_card hsubset
  rw [Finset.card_union_of_disjoint hdisjoint, List.toFinset_card_of_nodup hnodup, List.length_map,
    Finset.card_range] at hcard
  omega

/-- What a thread in a phase other than the idle one is about to do; a thread that has returned is
idle. -/
lemma nextOp_of_livePhase (hc : System.Outline phaseContract (fun _ p _ => p = .idle)
      (fun s tr => poolInv P cfg sessions.length s tr ∧ ∀ i, Accounted (histOf tr i)) c)
    {i : ℕ} {p : PoolPhase} (hp : livePhase c i = p) (hidle : p ≠ .idle) :
    ∃ o party, c.nextOp i = some o ∧ p.Allows party o := by
  unfold livePhase at hp
  cases ht : c.threads i with
  | none =>
    rw [ht] at hp
    exact absurd hp.symm hidle
  | some t =>
    rw [ht] at hp
    obtain ⟨l, hist, prog⟩ := t
    have hmeets := hc.threads i _ ht
    have hghost : (phaseContract l).ghost hist = p := hp
    cases prog with
    | ret r =>
      have hdone : (phaseContract l).ghost hist = .idle := hmeets
      exact absurd (hghost.symm.trans hdone) hidle
    | call o k =>
      have hpre : ((phaseContract l).ghost hist).Allows l o := hmeets.1
      rw [hghost] at hpre
      refine ⟨o, l, ?_, hpre⟩
      rw [Config.nextOp, ht]

/-- A submission that was refused is about to be counted. -/
lemma nextOp_of_refused (hc : System.Outline phaseContract (fun _ p _ => p = .idle)
      (fun s tr => poolInv P cfg sessions.length s tr ∧ ∀ i, Accounted (histOf tr i)) c)
    {i : ℕ} (hi : livePhase c i = .refused) :
    c.nextOp i = some (.pool (.count .jobsRejectedQueueFull 1)) := by
  obtain ⟨o, party, ho, hallows⟩ := nextOp_of_livePhase hc hi PoolPhase.noConfusion
  rw [ho, hallows.of_refused]

/-- A submission that was counted is about to be sent. -/
lemma nextOp_of_submitting (hc : System.Outline phaseContract (fun _ p _ => p = .idle)
      (fun s tr => poolInv P cfg sessions.length s tr ∧ ∀ i, Accounted (histOf tr i)) c)
    {i : ℕ} (hi : livePhase c i = .submitting) : c.nextOp i = some .now ∨
      ∃ request enqueuedAt, c.nextOp i = some (.pool (.trySend request enqueuedAt)) := by
  obtain ⟨o, party, ho, hallows⟩ := nextOp_of_livePhase hc hi PoolPhase.noConfusion
  rcases hallows.of_submitting with rfl | ⟨request, enqueuedAt, rfl⟩
  · exact Or.inl ho
  · exact Or.inr ⟨request, enqueuedAt, ho⟩

/-- A thread that has returned has no submission in flight. -/
lemma livePhase_of_returned (hc : System.Outline phaseContract (fun _ p _ => p = .idle)
      (fun s tr => poolInv P cfg sessions.length s tr ∧ ∀ i, Accounted (histOf tr i)) c)
    {i : ℕ} {r : Party × ThreadResult} (hi : c.returned i = some r) : livePhase c i = .idle := by
  obtain ⟨hist, ht⟩ := System.exists_returned hi
  rw [livePhase, ht]
  exact hc.threads i _ ht

/-- As long as the queue is open, sending a job to it never waits. -/
lemma step_trySend {i : ℕ} (e : Choice) {request : JobRequest} {enqueuedAt : ℕ}
    (hi : c.nextOp i = some (.pool (.trySend request enqueuedAt)))
    (halive : c.shared.pool.senderAlive) : ((pooledProxy P cfg).step c (.exec i e)).isSome := by
  obtain ⟨l, hist, k, ht⟩ := System.exists_thread hi
  obtain ⟨answer, p, hexec⟩ : ∃ answer p, c.shared.pool.exec cfg.pool c.shared.now i
      (.trySend request enqueuedAt) = some (answer, p) := ⟨_, _, if_pos halive⟩
  have he : execOp cfg e i c.shared (.pool (.trySend request enqueuedAt)) =
      some (answer, { c.shared with pool := p }) := execOp_pool.mpr ⟨p, hexec, rfl⟩
  have hstep : (pooledProxy P cfg).step c (.exec i e) = some _ := System.step_exec ht he
  rw [hstep]
  rfl

/-- In every configuration reached without the death of a worker the counters balance, and the
accepted jobs not yet completed fit the queue and the workers; and a submission never waits for room
in the queue.  Of the submissions the balance has in flight, one that was refused is counted in the
next step of its thread, one that was not yet sent is sent next, and no thread that has returned has
one. -/
theorem pool_accounting
    (hrun : (pooledProxy P cfg).run (started P t₀ sessions token) as = some c)
    (hlive : (pooledProxy P cfg).Throughout NoWorkerDies (started P t₀ sessions token) as) :
    c.shared.pool.counters .jobsSubmitted =
      c.shared.pool.counters .jobsRejectedQueueFull +
      total disconnects (c.trace.map Entry.event) + c.shared.pool.queue.length +
      takenUncounted c + c.shared.pool.counters .jobsCompleted +
      ∑ i ∈ Finset.range c.spawned, (livePhase c i).inFlight ∧
    c.shared.pool.counters .jobsFailed ≤ c.shared.pool.counters .jobsCompleted ∧
    total sheds (c.trace.map Entry.event) = c.shared.pool.counters .jobsRejectedQueueFull +
      ∑ i ∈ Finset.range c.spawned, (livePhase c i).here .refused ∧
    c.shared.pool.queue.length + takenUncounted c ≤ cfg.pool.queueDepth + sessions.length ∧
    (∀ i, livePhase c i = .refused →
      c.nextOp i = some (.pool (.count .jobsRejectedQueueFull 1))) ∧
    (∀ i, livePhase c i = .submitting → c.nextOp i = some .now ∨
      ∃ request enqueuedAt, c.nextOp i = some (.pool (.trySend request enqueuedAt))) ∧
    (∀ i r, c.returned i = some r → livePhase c i = .idle) ∧
    ∀ i e request enqueuedAt, c.nextOp i = some (.pool (.trySend request enqueuedAt)) →
      c.shared.pool.senderAlive → ((pooledProxy P cfg).step c (.exec i e)).isSome := by
  obtain ⟨hc, hgone⟩ := pool_outline hrun hlive
  obtain ⟨⟨hcounted, hqueue⟩, hacc⟩ := hc.inv
  have hphase := livePhase_eq hc.recorded hgone
  have hsum : ∀ f : Event Op.Ans → ℕ, total f (c.trace.map Entry.event) =
      ∑ i ∈ Finset.range c.spawned, total f (histOf c.trace i) :=
    fun f => total_trace hc.recorded.tids
  have hsubmitted := Finset.sum_congr (rfl : Finset.range c.spawned = _)
    fun i _ => (hacc i).submitted
  have hshed := Finset.sum_congr (rfl : Finset.range c.spawned = _) fun i _ => (hacc i).shed
  have htaken := Finset.sum_congr (rfl : Finset.range c.spawned = _) fun i _ => (hacc i).taken
  have hfailed := Finset.sum_le_sum fun i (_ : i ∈ Finset.range c.spawned) => (hacc i).failed
  simp only [Finset.sum_add_distrib, ← hsum] at hsubmitted hshed htaken hfailed
  have haccepted := hqueue.accepted
  have hbound := hqueue.bound
  have hheld := handed_add_holding_le hqueue (m := c.spawned)
  refine ⟨?_, ?_, ?_, ?_, fun i hi => nextOp_of_refused hc hi, fun i hi => nextOp_of_submitting hc hi,
    fun i r hi => livePhase_of_returned hc hi, fun i e request t hi halive => step_trySend e hi halive⟩
  · simp only [takenUncounted, hphase, hcounted _]
    omega
  · simp only [hcounted _]
    omega
  · simp only [hphase, hcounted _]
    exact hshed
  · simp only [takenUncounted, hphase]
    omega

end

/-- One signature is queued, a second one finds the queue full, the first one times out, and the
worker takes its job all the same. -/
def shedAndTimeout : List (Action Choice (EnvAction anyPlatform) Party) :=
  [.spawn (.rpc signCall), .spawn (.rpc signCall)] ++ execs 1 5 .success ++ execs 2 8 .success ++
    [.env (.tick 6)] ++ execs 1 4 .success ++ [.exec 0 .success]

/-- Nobody is dropped in it. -/
lemma shedAndTimeout_live : (pooledProxy anyPlatform (.plain 1 10)).Throughout NoWorkerDies
    (started _ 0 [7] ()) shedAndTimeout := by
  have hnodrop : ∀ a ∈ shedAndTimeout, a.drops = false := by decide +kernel
  refine System.throughout_of_forall (fun a ha c i session hist p hcancel => ?_) _
  have hdrops := hnodrop a ha
  rw [hcancel] at hdrops
  cases hdrops

/-- There the two submissions are the one shed and the one taken. -/
theorem pool_accounting_shed_and_timeout :
    ∃ c : Config Op.Ans (Shared anyPlatform) Party ThreadResult,
      (pooledProxy anyPlatform (.plain 1 10)).run (started _ 0 [7] ()) shedAndTimeout = some c ∧
      c.shared.pool.counters .jobsTimedOut = 1 ∧
      c.shared.pool.queue.length + takenUncounted c ≤ 1 + 1 := by
  have htimeout : ((pooledProxy anyPlatform (.plain 1 10)).run (started _ 0 [7] ())
      shedAndTimeout).map (fun c => c.shared.pool.counters .jobsTimedOut) = some 1 := by
    decide +kernel
  obtain ⟨c, hrun, hc⟩ := Option.map_eq_some_iff.mp htimeout
  exact ⟨c, hrun, hc, (pool_accounting hrun shedAndTimeout_live).2.2.2.1⟩

end HsmProxy
