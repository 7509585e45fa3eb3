import HsmProxy.Pkcs11.Pool

/-!
# What one step of the pool does

One inversion lemma for each operation of the pool that can end in more than one way.
-/

namespace HsmProxy

namespace PoolState

variable {cfg : PoolConfig} {now tid : ℕ} {s s' : PoolState}

/-- The job a submission sends. -/
def nextJobOf (s : PoolState) (request : JobRequest) (enqueuedAt : ℕ) : Job :=
  ⟨s.nextJob, request, enqueuedAt⟩

/-- The pool after it has taken a job on: the job has a name and a oneshot channel. -/
def accept (tid : ℕ) (s : PoolState) : PoolState :=
  { s with
    nextJob := s.nextJob + 1
    oneshots := Function.update s.oneshots s.nextJob (some ⟨tid, none, true, true⟩) }

/-- `try_send`: refused for want of receivers, handed to a parked worker, queued, or refused for
want of room. -/
theorem exec_trySend {request : JobRequest} {enqueuedAt : ℕ} {a : Except TrySendError ℕ}
    (h : s.exec cfg now tid (.trySend request enqueuedAt) = some (a, s')) :
    s.senderAlive ∧
      ((s.receivers = 0 ∧ a = .error .disconnected ∧ s' = s) ∨
      (∃ w ws, s.receivers ≠ 0 ∧ s.parked = w :: ws ∧ a = .ok s.nextJob ∧
        s' = { s.accept tid with
          parked := ws, handed := s.handed ++ [(w, s.nextJobOf request enqueuedAt)] }) ∨
      (s.receivers ≠ 0 ∧ s.parked = [] ∧ s.queue.length < cfg.queueDepth ∧ a = .ok s.nextJob ∧
        s' = { s.accept tid with queue := s.queue ++ [s.nextJobOf request enqueuedAt] }) ∨
      (s.receivers ≠ 0 ∧ s.parked = [] ∧ cfg.queueDepth ≤ s.queue.length ∧ a = .error .full ∧
        s' = s)) := by
  simp only [exec] at h
  split at h
  · rename_i halive
    refine ⟨halive, ?_⟩
    have h := Option.some.inj h
    simp only [trySend] at h
    split at h
    · rename_i hrx
      cases h
      exact Or.inl ⟨hrx, rfl, rfl⟩
    · rename_i hrx
      split at h
      · rename_i w ws hparked
        cases h
        exact Or.inr (Or.inl ⟨w, ws, hrx, hparked, rfl, rfl⟩)
      · rename_i hparked
        split at h
        · rename_i hroom
          cases h
          exact Or.inr (Or.inr (Or.inl ⟨hrx, hparked, hroom, rfl, rfl⟩))
        · rename_i hfull
          cases h
          exact Or.inr (Or.inr (Or.inr ⟨hrx, hparked, Nat.le_of_not_lt hfull, rfl, rfl⟩))
  · cases h

/-- A oneshot channel whose receiver has stopped waiting. -/
def stopWaiting (s : PoolState) (j : ℕ) (o : Oneshot) : PoolState :=
  { s with oneshots :=
      Function.update s.oneshots j (some { o with value := none, receiverAlive := false }) }

/-- Awaiting a result ends with the value sent, with a closed channel, or with the deadline. -/
theorem exec_awaitResult {j deadline : ℕ} {a : Awaited}
    (h : s.exec cfg now tid (.awaitResult j deadline) = some (a, s')) :
    ∃ o, s.oneshots j = some o ∧ s' = s.stopWaiting j o ∧
      ((∃ r, o.value = some r ∧ a = .value r) ∨
      (o.value = none ∧ o.senderAlive = false ∧ a = .closed) ∨
      (o.value = none ∧ o.senderAlive = true ∧ deadline ≤ now ∧ a = .elapsed)) := by
  simp only [exec, awaitResult] at h
  split at h
  · rename_i owner r tx rx ho
    cases h
    exact ⟨_, ho, rfl, Or.inl ⟨r, rfl, rfl⟩⟩
  · rename_i owner rx ho
    cases h
    exact ⟨_, ho, rfl, Or.inr (Or.inl ⟨rfl, rfl, rfl⟩)⟩
  · rename_i owner rx ho
    split at h
    · rename_i hdeadline
      cases h
      exact ⟨_, ho, rfl, Or.inr (Or.inr ⟨rfl, rfl, hdeadline, rfl⟩)⟩
    · cases h
  · cases h

/-- Asking for a job: there is one, the queue is closed, or the worker is parked. -/
theorem exec_poll {a : Polled} (h : s.exec cfg now tid .poll = some (a, s')) :
    (∃ job rest, s.queue = job :: rest ∧ a = .job job ∧
      s' = { s with queue := rest, held := s.held ++ [(tid, job.id)] }) ∨
    (s.queue = [] ∧ s.senderAlive = true ∧ a = .parked ∧
      s' = { s with parked := s.parked ++ [tid] }) ∨
    (s.queue = [] ∧ s.senderAlive = false ∧ a = .disconnected ∧ s' = s) := by
  have h := Option.some.inj h
  simp only [poll] at h
  split at h
  · rename_i job rest hqueue
    cases h
    exact Or.inl ⟨job, rest, hqueue, rfl, rfl⟩
  · rename_i hqueue
    split at h
    · rename_i halive
      cases h
      exact Or.inr (Or.inl ⟨hqueue, halive, rfl, rfl⟩)
    · rename_i halive
      cases h
      exact Or.inr (Or.inr ⟨hqueue, (Bool.not_eq_true _).mp halive, rfl, rfl⟩)

/-- Waking up: with the job that was handed over, or because the queue is closed. -/
theorem exec_unpark {a : Option Job} (h : s.exec cfg now tid .unpark = some (a, s')) :
    (∃ job, s.handed.lookup tid = some job ∧ a = some job ∧
      s' = { s with
        handed := s.handed.filter fun p => decide (p.1 ≠ tid)
        held := s.held ++ [(tid, job.id)] }) ∨
    (s.handed.lookup tid = none ∧ s.senderAlive = false ∧ a = none ∧
      s' = { s with parked := s.parked.filter fun w => decide (w ≠ tid) }) := by
  simp only [exec, unpark] at h
  split at h
  · rename_i job hjob
    cases h
    exact Or.inl ⟨job, hjob, rfl, rfl⟩
  · rename_i hnone
    split at h
    · cases h
    · rename_i halive
      cases h
      exact Or.inr ⟨hnone, (Bool.not_eq_true _).mp halive, rfl, rfl⟩

end PoolState

end HsmProxy
