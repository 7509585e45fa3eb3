import HsmProxy.Pkcs11.Delivery
import HsmProxy.Pkcs11.PoolAccounting

/-!
# Workers that leave

`Pool::shutdown` drops the sender and joins the workers.  A worker leaves the loop of `Worker::run`
when it finds the queue closed and empty, so the jobs that were accepted before are served first.
Where a worker stands is its `Station`, read off its history, and `LeavingInv` relates the stations
to the pool.

`answered_of_left`: in a run without the death of a worker, when all workers have left, no accepted
job is left, and every one was executed and answered.  `exists_step_of_closed`: once the sender is
gone, a worker that has not left is not blocked by the pool.
-/

namespace HsmProxy

open Interleaving Interleaving.Prog

/-! ## Where a worker stands -/

/-- A worker is about to ask for a job, is parked on the queue, serves a job, or is leaving. -/
inductive Station where
  | waiting
  | parked
  | serving (job : Job)
  | leaving
  deriving DecidableEq, Repr

namespace Station

/-- One more event. -/
def note (g : Station) : Event Op.Ans → Station
  | ⟨.pool .poll, .job job⟩ => .serving job
  | ⟨.pool .poll, .parked⟩ => .parked
  | ⟨.pool .poll, .disconnected⟩ => .leaving
  | ⟨.pool .unpark, some job⟩ => .serving job
  | ⟨.pool .unpark, none⟩ => .leaving
  | ⟨.pool (.respond _ _), _⟩ => .waiting
  | _ => g

/-- The steps a worker may take. -/
def Allows (g : Station) : Op → Prop
  | .pool .poll => g = .waiting
  | .pool .unpark => g = .parked
  | .pool (.respond j _) => ∃ job, g = .serving job ∧ job.id = j
  | .token (.logout _) => g = .leaving
  | o => Worker.ofWorker o

end Station

/-- Where a history leads. -/
def station (h : List (Event Op.Ans)) : Station := h.foldl Station.note .waiting

/-- One more event. -/
@[simp] lemma station_snoc (h : List (Event Op.Ans)) (ev : Event Op.Ans) :
    station (h ++ [ev]) = (station h).note ev := by
  simp [station, List.foldl_append]

/-- A worker takes the steps of its station; a handler none that moves a worker. -/
def leaveContract (party : Party) : Contract Op.Ans Station where
  init := .waiting
  next g o a := g.note ⟨o, a⟩
  pre g o := match party with
    | .rpc _ => o.ofHandler
    | .worker _ => g.Allows o
  post _ _ _ := True

/-- The station a worker is in when it has returned from a round. -/
def leaveDone : Party → Station → ThreadResult → Prop
  | .worker _, g, .round (some _) => g = .waiting
  | .worker _, g, .round none => g = .leaving
  | .worker _, _, .reply _ => False
  | .rpc _, _, _ => True

/-- The steps of a worker that neither log out nor move it. -/
def Op.stays : Op → Bool
  | .token (.logout _) => false
  | .pool .poll => false
  | .pool .unpark => false
  | .pool (.respond _ _) => false
  | o => Worker.ofWorker o

section

variable (P : Platform) (cfg : ServiceConfig) {session : SessionHandle}

/-- Steps that leave a worker where it is are allowed in every station. -/
lemma leaveContract_stays {o : Op} (ho : o.stays = true) (g : Station) :
    (leaveContract (.worker session)).pre g o ∧
      ∀ a, (leaveContract (.worker session)).next g o a = g := by
  cases o with
  | token q => cases q <;> first | exact ⟨rfl, fun _ => rfl⟩ | cases ho
  | pool q => cases q <;> first | exact ⟨rfl, fun _ => rfl⟩ | cases ho
  | now => exact ⟨rfl, fun _ => rfl⟩
  | _ => cases ho

/-- The execution of a job is made of such steps. -/
lemma execute_stays (w : Worker) (request : JobRequest) :
    Only (fun o => o.stays) (Worker.execute P w request) := by
  refine Worker.execute_only_of P w request rfl rfl rfl (fun o ho => ?_) fun o ho => ?_
  · cases o with
    | token q => cases q <;> first | rfl | cases ho
    | _ => cases ho
  · cases o with
    | token q => cases q <;> first | rfl | cases ho
    | pool q => cases q <;> first | rfl | cases ho
    | _ => cases ho

/-- A round of a worker keeps to the contract: it waits again, or has left. -/
theorem iterate_leaves (w : Worker) :
    (Worker.iterate P w).Meets (leaveContract (.worker session))
      (fun g w' => leaveDone (.worker session) g (.round w')) .waiting := by
  refine Worker.meets_iterate (fun g received => g = received.elim .leaving .serving)
    (fun job g _ => g = .serving job) ?_ (fun g job hg => ?_) (fun g job r hg => ?_)
    fun g hg => ?_
  · refine Worker.meets_recv rfl (fun _ _ => rfl) (fun _ => rfl) fun _ => ⟨rfl, fun handed _ => ?_⟩
    cases handed <;> rfl
  · obtain rfl : g = .serving job := hg
    refine ⟨rfl, fun started => ?_⟩
    exact (execute_stays P w job.request).meets (fun o ho => leaveContract_stays ho _) fun _ => rfl
  · subst hg
    refine ⟨rfl, fun started finished => ?_⟩
    refine Worker.meets_account (J := fun g => g = .serving job) (fun g c n _ hg => ?_)
      (fun g hg => ⟨⟨job, hg, rfl⟩, fun _ _ => rfl⟩) rfl
    subst hg
    exact leaveContract_stays rfl _
  · obtain rfl : g = .leaving := hg
    exact ⟨rfl, fun _ _ => ⟨rfl, fun _ _ => rfl⟩⟩

/-- A handler moves no worker. -/
lemma pooled_leaves (rpc : Rpc) :
    (pooled P cfg rpc).Meets (leaveContract (.rpc rpc)) (fun _ _ => True) .waiting :=
  (pooled_only P cfg rpc).meets_of_invariant (J := fun _ => True)
    (fun _ _ _ ho => ⟨ho, fun _ => True.intro⟩) True.intro fun _ _ _ => True.intro

end

/-- The steps of a handler move no worker, and take no job. -/
lemma Station.note_of_ofHandler {g : Station} {o : Op} (ho : o.ofHandler) (a : o.Ans) :
    g.note ⟨o, a⟩ = g ∧ takenJob ⟨o, a⟩ = none := by
  cases o with
  | pool q => cases q <;> first | exact ⟨rfl, rfl⟩ | exact absurd ho Bool.false_ne_true
  | _ => exact ⟨rfl, rfl⟩

/-! ## Jobs that were taken -/

/-- Every job that was taken in a history was answered in it, or is being served. -/
def TakenAnswered (h : List (Event Op.Ans)) : Prop :=
  ∀ ev ∈ h, ∀ job, takenJob ev = some job → station h = .serving job ∨
    ∃ r, (⟨.pool (.respond job.id r), ()⟩ : Event Op.Ans) ∈ h

/-- An event that takes no job and leaves the worker where it is. -/
lemma TakenAnswered.stay {h : List (Event Op.Ans)} {ev : Event Op.Ans} (hh : TakenAnswered h)
    (hnote : (station h).note ev = station h) (htaken : takenJob ev = none) :
    TakenAnswered (h ++ [ev]) := by
  intro ev' hev' job hjob
  rw [station_snoc, hnote]
  rcases List.mem_append.mp hev' with hev' | hev'
  · exact (hh ev' hev' job hjob).imp_right fun ⟨r, hr⟩ => ⟨r, List.mem_append_left _ hr⟩
  · rw [List.mem_singleton.mp hev', htaken] at hjob
    cases hjob

/-- An event after which nothing that was taken before is being served. -/
lemma TakenAnswered.move {h : List (Event Op.Ans)} {ev : Event Op.Ans} (hh : TakenAnswered h)
    (hbefore : ∀ job, station h = .serving job →
      ∃ r, ev = ⟨.pool (.respond job.id r), ()⟩)
    (hafter : ∀ job, takenJob ev = some job → (station h).note ev = .serving job) :
    TakenAnswered (h ++ [ev]) := by
  intro ev' hev' job hjob
  rw [station_snoc]
  rcases List.mem_append.mp hev' with hev' | hev'
  · refine Or.inr ?_
    rcases hh ev' hev' job hjob with hserving | ⟨r, hr⟩
    · obtain ⟨r, rfl⟩ := hbefore job hserving
      exact ⟨r, List.mem_append_right _ (List.mem_singleton_self _)⟩
    · exact ⟨r, List.mem_append_left _ hr⟩
  · obtain rfl := List.mem_singleton.mp hev'
    exact Or.inl (hafter job hjob)

/-- A step a worker may take keeps it so. -/
lemma TakenAnswered.snoc {h : List (Event Op.Ans)} (hh : TakenAnswered h) {o : Op} (a : o.Ans)
    (ho : (station h).Allows o) : TakenAnswered (h ++ [⟨o, a⟩]) := by
  have hidle : ∀ {g : Station}, station h = g → (∀ job, g ≠ .serving job) → ∀ job,
      station h = .serving job → ∃ r, (⟨o, a⟩ : Event Op.Ans) = ⟨.pool (.respond job.id r), ()⟩ :=
    fun hg hne job hjob => absurd (hg.symm.trans hjob) (hne job)
  cases o with
  | pool q =>
    cases q with
    | poll =>
      refine hh.move (hidle ho fun _ => Station.noConfusion) fun job hjob => ?_
      cases a with
      | job job' =>
        obtain rfl := Option.some.inj hjob
        rfl
      | _ => cases hjob
    | unpark =>
      refine hh.move (hidle ho fun _ => Station.noConfusion) fun job hjob => ?_
      cases a with
      | some job' =>
        obtain rfl := Option.some.inj hjob
        rfl
      | none => cases hjob
    | respond j r =>
      obtain ⟨job', hserving, rfl⟩ := ho
      refine hh.move (fun job hjob => ?_) fun job hjob => by cases hjob
      obtain rfl := Station.serving.inj (hserving.symm.trans hjob)
      exact ⟨r, rfl⟩
    | _ => exact hh.stay rfl rfl
  | _ => exact hh.stay rfl rfl

/-! ## The pool -/

/-- What holds of the pool and the stations of its `n` workers, as long as none of them dies. -/
structure LeavingInv (n : ℕ) (s : PoolState) {S : Type} (tr : List (Entry Op.Ans S Party)) :
    Prop where
  /-- Only workers leave the station of a thread that has done nothing. -/
  workers : ∀ i, station (histOf tr i) ≠ .waiting → i < n
  /-- A parked worker is known to the queue. -/
  parked : ∀ i, station (histOf tr i) = .parked → i ∈ s.waiting
  /-- Nobody is parked on a queue that has a job. -/
  empty : s.parked ≠ [] → s.queue = []
  /-- A worker leaves when the queue is closed and empty. -/
  closed : ∀ i, station (histOf tr i) = .leaving → s.senderAlive = false ∧ s.queue = []
  /-- Who holds a job serves it. -/
  held : ∀ p ∈ s.held, ∃ job, station (histOf tr p.1) = .serving job

section

variable {P : Platform} {cfg : ServiceConfig} {n : ℕ} {s s' : PoolState} {S : Type}
  {tr : List (Entry Op.Ans S Party)} {en : Entry Op.Ans S Party}

/-- One more entry: what it does to the station of its thread, and to the pool. -/
lemma LeavingInv.snoc (h : LeavingInv n s tr) {g : Station}
    (hg : (station (histOf tr en.tid)).note en.event = g) (hworker : g ≠ .waiting → en.tid < n)
    (hparked : g = .parked → en.tid ∈ s'.waiting)
    (hwaiting : ∀ j, j ≠ en.tid → j ∈ s.waiting → j ∈ s'.waiting)
    (hempty : s'.parked ≠ [] → s'.queue = [])
    (hleaving : g = .leaving → s'.senderAlive = false ∧ s'.queue = [])
    (hclosed : s.senderAlive = false → s.queue = [] → s'.senderAlive = false ∧ s'.queue = [])
    (hheld : ∀ p ∈ s'.held, (p.1 = en.tid → ∃ job, g = .serving job) ∧ (p.1 ≠ en.tid → p ∈ s.held)) :
    LeavingInv n s' (tr ++ [en]) := by
  have hself : station (histOf (tr ++ [en]) en.tid) = g := by
    rw [histOf_snoc, if_pos rfl, station_snoc, hg]
  have hother : ∀ j, j ≠ en.tid → histOf (tr ++ [en]) j = histOf tr j := fun j hj => by
    rw [histOf_snoc, if_neg (Ne.symm hj)]
  refine ⟨fun j => ?_, fun j => ?_, hempty, fun j => ?_, fun p hp => ?_⟩
  · by_cases hj : j = en.tid
    · subst hj
      rw [hself]
      exact hworker
    · rw [hother j hj]
      exact h.workers j
  · by_cases hj : j = en.tid
    · subst hj
      rw [hself]
      exact hparked
    · rw [hother j hj]
      exact fun hp => hwaiting j hj (h.parked j hp)
  · by_cases hj : j = en.tid
    · subst hj
      rw [hself]
      exact hleaving
    · rw [hother j hj]
      exact fun hl => hclosed (h.closed j hl).1 (h.closed j hl).2
  · by_cases hj : p.1 = en.tid
    · rw [hj, hself]
      exact (hheld p hp).1 hj
    · rw [hother _ hj]
      exact h.held p ((hheld p hp).2 hj)

/-- An entry that moves nobody, and changes nothing the invariant looks at. -/
lemma LeavingInv.keep (h : LeavingInv n s tr)
    (hnote : (station (histOf tr en.tid)).note en.event = station (histOf tr en.tid))
    (hqueue : s'.queue = s.queue) (hwaiting : ∀ j, j ∈ s.waiting → j ∈ s'.waiting)
    (hparked : s'.parked ≠ [] → s.parked ≠ []) (halive : s'.senderAlive = s.senderAlive)
    (hheld : s'.held = s.held) : LeavingInv n s' (tr ++ [en]) := by
  refine h.snoc hnote (h.workers en.tid) (fun hp => hwaiting _ (h.parked en.tid hp))
    (fun j _ => hwaiting j) (fun hp => ?_) (fun hl => ?_) (fun hc hq => ?_) fun p hp => ⟨?_, ?_⟩
  · rw [hqueue]
    exact h.empty (hparked hp)
  · rw [hqueue, halive]
    exact h.closed en.tid hl
  · rw [hqueue, halive]
    exact ⟨hc, hq⟩
  · intro htid
    rw [← htid]
    exact h.held p (hheld ▸ hp)
  · exact fun _ => hheld ▸ hp

/-- A worker that serves no job holds none. -/
lemma LeavingInv.not_holding (h : LeavingInv n s tr) {i : ℕ} {g : Station}
    (hi : station (histOf tr i) = g) (hg : ∀ job, g ≠ .serving job) : ∀ p ∈ s.held, p.1 ≠ i := by
  rintro p hp rfl
  obtain ⟨job, hjob⟩ := h.held p hp
  exact hg job (hi.symm.trans hjob)

/-- `try_send` hands the job to a parked worker, queues it when none is parked, or refuses it. -/
lemma LeavingInv.trySend {pcfg : PoolConfig} {now i : ℕ} {party : Party} {hist : List (Event Op.Ans)}
    {before : S} {request : JobRequest} {enqueuedAt : ℕ} {a : Except TrySendError ℕ}
    (h : LeavingInv n s tr) (hp : s.exec pcfg now i (.trySend request enqueuedAt) = some (a, s')) :
    LeavingInv n s' (tr ++ [⟨i, party, hist, before, ⟨.pool (.trySend request enqueuedAt), a⟩⟩]) := by
  obtain ⟨halive, ⟨-, rfl, rfl⟩ | ⟨w, ws, -, hparked, rfl, rfl⟩ | ⟨-, hparked, -, rfl, rfl⟩ |
    ⟨-, -, -, rfl, rfl⟩⟩ := PoolState.exec_trySend hp
  · exact h.keep rfl rfl (fun _ hj => hj) id rfl rfl
  · refine h.keep rfl rfl (fun j hj => ?_) (fun _ => ?_) rfl rfl
    · rw [PoolState.waiting, hparked] at hj
      simp only [PoolState.waiting, List.map_append, List.map_singleton]
      rcases List.mem_append.mp hj with hj | hj
      · rcases List.mem_cons.mp hj with rfl | hj
        · exact List.mem_append_right _ (List.mem_append_right _ (List.mem_singleton_self _))
        · exact List.mem_append_left _ hj
      · exact List.mem_append_right _ (List.mem_append_left _ hj)
    · rw [hparked]
      exact List.cons_ne_nil w ws
  · -- the queue is open, so nobody has left it
    have hopen : ∀ {p : Prop}, s.senderAlive = false → p := fun hc => by
      rw [halive] at hc
      cases hc
    refine h.snoc rfl (h.workers i) (h.parked i) (fun _ _ hj => hj) (fun hne => absurd hparked hne)
      (fun hl => hopen (h.closed i hl).1) (fun hc _ => hopen hc) fun p hp => ⟨?_, fun _ => hp⟩
    rintro rfl
    exact h.held p hp
  · exact h.keep rfl rfl (fun _ hj => hj) id rfl rfl

/-- A worker that asks for a job is served, is parked on the empty queue, or leaves it closed and
empty. -/
lemma LeavingInv.poll {pcfg : PoolConfig} {now i : ℕ} {party : Party} {hist : List (Event Op.Ans)}
    {before : S} {a : Polled} (h : LeavingInv n s tr) (hi : i < n)
    (hstation : station (histOf tr i) = .waiting) (hp : s.exec pcfg now i .poll = some (a, s')) :
    LeavingInv n s' (tr ++ [⟨i, party, hist, before, ⟨.pool .poll, a⟩⟩]) := by
  have hnot := h.not_holding hstation fun _ => Station.noConfusion
  obtain ⟨job, rest, hqueue, rfl, rfl⟩ | ⟨hqueue, halive, rfl, rfl⟩ | ⟨hqueue, hclosed, rfl, rfl⟩ :=
    PoolState.exec_poll hp
  · have hbusy : ∀ {p : Prop}, s.queue = [] → p := fun hq => by
      rw [hqueue] at hq
      cases hq
    refine h.snoc rfl (fun _ => hi) (fun hg => by cases hg) (fun _ _ hj => hj)
      (fun hne => hbusy (h.empty hne)) (fun hg => by cases hg) (fun _ hq => hbusy hq)
      fun p hp => ⟨fun _ => ⟨job, rfl⟩, fun hne => ?_⟩
    rcases List.mem_append.mp hp with hp | hp
    · exact hp
    · rw [List.mem_singleton.mp hp] at hne
      exact absurd rfl hne
  · refine h.snoc rfl (fun _ => hi) (fun _ => ?_) (fun j _ hj => ?_) (fun _ => hqueue)
      (fun hg => by cases hg) (fun hc _ => ?_) fun p hp => ⟨fun htid => absurd htid (hnot p hp),
        fun _ => hp⟩
    · exact List.mem_append_left _ (List.mem_append_right _ (List.mem_singleton_self _))
    · rcases List.mem_append.mp hj with hj | hj
      · exact List.mem_append_left _ (List.mem_append_left _ hj)
      · exact List.mem_append_right _ hj
    · rw [halive] at hc
      cases hc
  · exact h.snoc rfl (fun _ => hi) (fun hg => by cases hg) (fun _ _ hj => hj) h.empty
      (fun _ => ⟨hclosed, hqueue⟩) (fun hc hq => ⟨hc, hq⟩)
      fun p hp => ⟨fun htid => absurd htid (hnot p hp), fun _ => hp⟩

/-- A parked worker wakes up with a job, or leaves. -/
lemma LeavingInv.unpark {pcfg : PoolConfig} {now i : ℕ} {party : Party} {hist : List (Event Op.Ans)}
    {before : S} {a : Option Job} (h : LeavingInv n s tr)
    (hstation : station (histOf tr i) = .parked) (hp : s.exec pcfg now i .unpark = some (a, s')) :
    LeavingInv n s' (tr ++ [⟨i, party, hist, before, ⟨.pool .unpark, a⟩⟩]) := by
  have hi : i < n := h.workers i (by rw [hstation]; exact Station.noConfusion)
  have hnot := h.not_holding hstation fun _ => Station.noConfusion
  obtain ⟨job, -, rfl, rfl⟩ | ⟨hnone, hclosed, rfl, rfl⟩ := PoolState.exec_unpark hp
  · refine h.snoc rfl (fun _ => hi) (fun hg => by cases hg) (fun j hj hmem => ?_) h.empty
      (fun hg => by cases hg) (fun hc hq => ⟨hc, hq⟩) fun p hp => ⟨fun _ => ⟨job, rfl⟩, fun hne => ?_⟩
    · rcases List.mem_append.mp hmem with hmem | hmem
      · exact List.mem_append_left _ hmem
      · obtain ⟨p, hp, rfl⟩ := List.mem_map.mp hmem
        exact List.mem_append_right _
          (List.mem_map_of_mem (List.mem_filter.mpr ⟨hp, decide_eq_true hj⟩))
    · rcases List.mem_append.mp hp with hp | hp
      · exact hp
      · rw [List.mem_singleton.mp hp] at hne
        exact absurd rfl hne
  · -- the worker was not handed a job, so it is parked, and the queue is empty
    have hempty : s.queue = [] := by
      refine h.empty fun hnil => ?_
      rcases List.mem_append.mp (h.parked i hstation) with hmem | hmem
      · rw [hnil] at hmem
        cases hmem
      · exact lookup_none hnone hmem
    refine h.snoc rfl (fun _ => hi) (fun hg => by cases hg) (fun j hj hmem => ?_) (fun _ => hempty)
      (fun _ => ⟨hclosed, hempty⟩) (fun hc hq => ⟨hc, hq⟩)
      fun p hp => ⟨fun htid => absurd htid (hnot p hp), fun _ => hp⟩
    rcases List.mem_append.mp hmem with hmem | hmem
    · exact List.mem_append_left _ (List.mem_filter.mpr ⟨hmem, decide_eq_true hj⟩)
    · exact List.mem_append_right _ hmem

/-- A worker answers the job it serves. -/
lemma LeavingInv.respond {i j : ℕ} {r : JobResult} {party : Party} {hist : List (Event Op.Ans)}
    {before : S} (h : LeavingInv n s tr) :
    LeavingInv n (s.respond i j r)
      (tr ++ [⟨i, party, hist, before, ⟨.pool (.respond j r), ()⟩⟩]) := by
  refine h.snoc rfl (fun hg => absurd rfl hg) (fun hg => by cases hg) (fun _ _ hj => hj) h.empty
    (fun hg => by cases hg) (fun hc hq => ⟨hc, hq⟩) fun p hp => ?_
  obtain ⟨hp, hne⟩ := List.mem_filter.mp hp
  exact ⟨fun htid => absurd htid (of_decide_eq_true hne), fun _ => hp⟩

/-- Every allowed step keeps it so. -/
theorem LeavingInv.exec {s s' : Shared P} {tr : List (Entry Op.Ans (Shared P) Party)} {i : ℕ}
    {party : Party} {hist : List (Event Op.Ans)} {o : Op} {a : o.Ans} {e : Choice}
    (h : LeavingInv n s.pool tr) (ho : (leaveContract party).pre (station (histOf tr i)) o)
    (hparty : ∀ session, party = .worker session → i < n)
    (he : execOp cfg e i s o = some (a, s')) :
    LeavingInv n s'.pool (tr ++ [⟨i, party, hist, s, ⟨o, a⟩⟩]) := by
  by_cases hpool : ∃ q, o = .pool q
  · obtain ⟨q, rfl⟩ := hpool
    obtain ⟨p, hp, rfl⟩ := execOp_pool.mp he
    cases q with
    | count c m =>
      cases hp
      exact h.keep rfl rfl (fun _ hj => hj) id rfl rfl
    | awaitResult j deadline =>
      obtain ⟨o', -, rfl, -⟩ := PoolState.exec_awaitResult hp
      exact h.keep rfl rfl (fun _ hj => hj) id rfl rfl
    | respond j r =>
      cases hp
      exact h.respond
    | trySend request enqueuedAt => exact h.trySend hp
    | poll =>
      cases party with
      | rpc rpc => exact absurd ho Bool.false_ne_true
      | worker session => exact h.poll (hparty session rfl) ho hp
    | unpark =>
      cases party with
      | rpc rpc => exact absurd ho Bool.false_ne_true
      | worker session => exact h.unpark ho hp
  · rw [(execOp_frame he).pool fun q hq => hpool ⟨q, hq⟩]
    cases o with
    | pool q => exact absurd ⟨q, rfl⟩ hpool
    | _ => exact h.keep rfl rfl (fun _ hj => hj) id rfl rfl

end

/-! ## Every run -/

/-- No accepted job is left: none is queued, handed to a worker, or held by one. -/
structure PoolState.Finished (s : PoolState) : Prop where
  queue : s.queue = []
  handed : s.handed = []
  held : s.held = []

section

variable {P : Platform} {cfg : ServiceConfig} {t₀ : ℕ} {sessions : List SessionHandle}
  {token : P.token.State} {as : List (Action Choice (EnvAction P) Party)}
  {c : Config Op.Ans (Shared P) Party ThreadResult}

/-- Has the worker left? -/
def hasLeft (c : Config Op.Ans (Shared P) Party ThreadResult) (i : ℕ) : Bool :=
  match c.returned i with
  | some (.worker _, .round none) => true
  | _ => false

/-- A worker that has left has returned from its last round. -/
lemma returned_of_hasLeft {i : ℕ} (hi : hasLeft c i = true) :
    ∃ session, c.returned i = some (.worker session, .round none) := by
  unfold hasLeft at hi
  split at hi
  · rename_i session hreturned
    exact ⟨session, hreturned⟩
  · cases hi

/-- What every thread keeps to, whether workers die or not. -/
abbrev LeaveOutline (c : Config Op.Ans (Shared P) Party ThreadResult) : Prop :=
  System.Outline leaveContract leaveDone (fun _ _ => True) c

/-- Every step keeps the outline. -/
lemma leave_sound : System.Sound (pooledProxy P cfg) (fun _ _ => True) leaveContract leaveDone
    (fun _ _ => True) := by
  refine proxy_sound (fun rpc => pooled_leaves P cfg rpc) (fun session g w hg => ?_)
    (fun _ _ _ _ _ _ _ _ _ _ _ _ _ => ⟨True.intro, True.intro⟩) (fun _ _ _ _ _ _ _ _ _ => True.intro)
    fun _ _ _ _ => True.intro
  obtain rfl : g = .waiting := hg
  exact iterate_leaves P w

/-- When the pool has started, every worker waits. -/
lemma leave_started : LeaveOutline (started P t₀ sessions token) :=
  outline_started (fun _ => iterate_leaves P _) True.intro

/-- The stations and the pool after a run in which no worker dies. -/
lemma leaving_run (hrun : (pooledProxy P cfg).run (started P t₀ sessions token) as = some c)
    (hlive : (pooledProxy P cfg).Throughout NoWorkerDies (started P t₀ sessions token) as) :
    System.Outline leaveContract leaveDone (fun s tr => LeavingInv sessions.length s.pool tr ∧
      ∀ i, TakenAnswered (histOf tr i)) c := by
  have hsound : System.Sound (pooledProxy P cfg)
      (fun c a => NoWorkerDies c a ∧ WorkersFirst sessions.length c) leaveContract leaveDone
      (fun s tr => LeavingInv sessions.length s.pool tr) := by
    refine proxy_sound (fun rpc => pooled_leaves P cfg rpc) (fun session g w hg => ?_) ?_ ?_ ?_
    · obtain rfl : g = .waiting := hg
      exact iterate_leaves P w
    · intro c i e l o k a s' hc hH ht hpre he
      refine ⟨True.intro, LeavingInv.exec hc.inv hpre (fun session hl => ?_) he⟩
      subst hl
      exact hH.2.2 i session _ _ ht
    · intro c i l o k hc hH ht _
      cases l with
      | rpc rpc => exact ⟨hc.inv.workers, hc.inv.parked, hc.inv.empty, hc.inv.closed, hc.inv.held⟩
      | worker session => exact absurd ht (hH.1 i session _ _ rfl)
    · intro c v hc _
      cases v with
      | shutdown =>
        exact ⟨hc.inv.workers, hc.inv.parked, hc.inv.empty,
          fun i hi => ⟨rfl, (hc.inv.closed i hi).2⟩, hc.inv.held⟩
      | _ => exact hc.inv
  have hanswered := hsound.histories (J := TakenAnswered) fun l h o a hh hpre _ => by
    cases l with
    | rpc rpc =>
      obtain ⟨hnote, htaken⟩ := Station.note_of_ofHandler (g := station h) hpre a
      exact hh.stay hnote htaken
    | worker session => exact hh.snoc a hpre
  refine hanswered.run (outline_started (fun session => iterate_leaves P _) ⟨?_, fun i => ?_⟩)
    (hlive.and_invariant (fun _ _ _ => workersFirst_step) workersFirst_started) hrun
  · exact ⟨fun i hi => absurd rfl hi, (fun i hi => by cases hi), fun hne => absurd rfl hne,
      (fun i hi => by cases hi), fun p hp => absurd hp List.not_mem_nil⟩
  · exact fun ev hev => absurd hev List.not_mem_nil

/-- The jobs sent are the submissions accepted. -/
lemma length_sentJobs {S : Type} (tr : List (Entry Op.Ans S Party)) :
    (sentJobs tr).length = total accepts (tr.map Entry.event) := by
  refine length_filterMap_eq_total (fun en => ?_) tr
  obtain ⟨tid, label, hist, before, o, a⟩ := en
  cases o with
  | pool q =>
    cases q with
    | trySend request t => cases a <;> rfl
    | _ => rfl
  | _ => rfl

/-- The jobs taken are the takes counted. -/
lemma length_takenJobs {S : Type} (tr : List (Entry Op.Ans S Party)) :
    (takenJobs tr).length = total takes (tr.map Entry.event) := by
  refine length_filterMap_eq_total (fun en => ?_) tr
  obtain ⟨tid, label, hist, before, o, a⟩ := en
  cases o with
  | pool q =>
    cases q with
    | poll => cases a <;> rfl
    | unpark => cases a <;> rfl
    | _ => rfl
  | _ => rfl

/-- When as many jobs were taken as were sent, every job sent was taken. -/
lemma JobsInv.mem_taken {s : PoolState} {sent : List (ℕ × Job)} {taken : List Job}
    (h : JobsInv s sent taken) (hlength : taken.length = sent.length) {p : ℕ × Job} (hp : p ∈ sent) :
    p.2 ∈ taken := by
  have hnodup : (taken.map Job.id).Nodup :=
    h.once.sublist ((List.sublist_append_right s.pending taken).map Job.id)
  have hsubset : taken.map Job.id ⊆ List.range s.nextJob := by
    intro id hid
    obtain ⟨job, hjob, rfl⟩ := List.mem_map.mp hid
    exact List.mem_range.mpr (h.id_lt (List.mem_append_right _ hjob))
  have hcount : sent.length = s.nextJob := by
    rw [← List.length_map (f := fun p : ℕ × Job => p.2.id), h.names, List.length_range]
  have hperm : (taken.map Job.id).Perm (List.range s.nextJob) := by
    refine (hnodup.subperm hsubset).perm_of_length_le ?_
    rw [List.length_range, List.length_map, hlength, hcount]
  have hid : p.2.id ∈ taken.map Job.id := by
    rw [hperm.mem_iff, ← h.names]
    exact List.mem_map.mpr ⟨p, hp, rfl⟩
  obtain ⟨job, hjob, heq⟩ := List.mem_map.mp hid
  obtain ⟨i, hi⟩ := h.sent job (List.mem_append_right _ hjob)
  have hsame : (i, job) = p := h.eq_of_id hi hp heq
  rw [← hsame]
  exact hjob

/-- Let no worker die, and all of them have left.  Then no accepted job is queued, handed to a worker
or held by one, and every accepted job was answered, with the result of a complete execution of its
request: the one made of the calls the trace has for the job. -/
theorem answered_of_left (hrun : (pooledProxy P cfg).run (started P t₀ sessions token) as = some c)
    (hlive : (pooledProxy P cfg).Throughout NoWorkerDies (started P t₀ sessions token) as)
    (hworkers : sessions ≠ [])
    (hleft : ∀ i < sessions.length, hasLeft c i = true) :
    c.shared.pool.Finished ∧ ∀ p ∈ sentJobs c.trace, ∃ r w w',
      (⟨.pool (.respond p.2.id r), ()⟩ : Event Op.Ans) ∈ c.trace.map Entry.event ∧
      Runs (Worker.execute P w p.2.request) (callsOf c.trace p.2.id) (r, w') := by
  obtain ⟨hpool, -⟩ := pool_outline hrun hlive
  have hleaving := leaving_run hrun hlive
  obtain ⟨hinv, hanswered⟩ := hleaving.inv
  have hqueueInv := hpool.inv.1.2
  have hstation : ∀ i < sessions.length, station (histOf c.trace i) = .leaving ∧
      poolPhase (histOf c.trace i) = .idle := by
    intro i hi
    obtain ⟨session, hreturned⟩ := returned_of_hasLeft (hleft i hi)
    obtain ⟨hist, ht⟩ := System.exists_returned hreturned
    obtain rfl : hist = histOf c.trace i := hleaving.recorded.hist i _ ht
    exact ⟨hleaving.threads i _ ht, hpool.threads i _ ht⟩
  have hnotServing : ∀ i job, station (histOf c.trace i) ≠ .serving job := by
    intro i job hserving
    have hi : i < sessions.length := hinv.workers i (by rw [hserving]; exact Station.noConfusion)
    cases hserving.symm.trans (hstation i hi).1
  have hfinished : c.shared.pool.Finished := by
    refine ⟨(hinv.closed 0 (hstation 0 (List.length_pos_of_ne_nil hworkers)).1).2, ?_, ?_⟩
    · refine List.eq_nil_iff_forall_not_mem.mpr fun p hp => ?_
      have hparked := hqueueInv.parked p.1 (List.mem_append_right _ (List.mem_map_of_mem hp))
      have hi : p.1 < sessions.length := hqueueInv.workers p.1 (by rw [hparked]; rfl)
      cases hparked.symm.trans (hstation p.1 hi).2
    · refine List.eq_nil_iff_forall_not_mem.mpr fun p hp => ?_
      obtain ⟨job, hserving⟩ := hinv.held p hp
      exact hnotServing p.1 job hserving
  refine ⟨hfinished, fun p hp => ?_⟩
  have hdelivery : Delivery c.shared c.trace := (delivering_run hrun).inv
  have hlength : (takenJobs c.trace).length = (sentJobs c.trace).length := by
    rw [length_takenJobs, length_sentJobs, hqueueInv.accepted, hfinished.queue, hfinished.handed]
    simp
  have htaken : p.2 ∈ takenJobs c.trace := hdelivery.jobs.mem_taken hlength hp
  obtain ⟨en, hen, hjob⟩ := List.mem_filterMap.mp htaken
  have hmem : en.event ∈ histOf c.trace en.tid := mem_histOf.mpr ⟨en, hen, rfl, rfl⟩
  rcases hanswered en.tid en.event hmem p.2 hjob with hserving | ⟨r, hr⟩
  · exact absurd hserving (hnotServing en.tid p.2)
  · obtain ⟨en', hen', -, hevent⟩ := mem_histOf.mp hr
    have hresponded : (⟨.pool (.respond p.2.id r), ()⟩ : Event Op.Ans) ∈ c.trace.map Entry.event :=
      List.mem_map.mpr ⟨en', hen', hevent⟩
    obtain ⟨job, hjob', hid, -, w, w', hruns⟩ := hdelivery.responded p.2.id r hresponded
    obtain rfl := hdelivery.ids job hjob' p.2 htaken hid
    exact ⟨r, w, w', hresponded, hruns⟩

/-- Once the sender is gone, a worker that has not left can take its next step, if the token has an
answer to every call. -/
lemma exists_step_of_closed (hc : LeaveOutline c) (hclosed : c.shared.pool.senderAlive = false)
    (hanswers : ∀ q, ∃ e : Choice, (P.token.answer c.shared.token q (e.token q)).isSome = true)
    {i : ℕ} {session : SessionHandle} {hist : List (Event Op.Ans)} {p : Prog Op.Ans ThreadResult}
    (hi : c.threads i = some ⟨.worker session, hist, p⟩) (hstays : p ≠ .ret (.round none)) :
    ((pooledProxy P cfg).step c (.again i)).isSome ∨
      ∃ e, ((pooledProxy P cfg).step c (.exec i e)).isSome := by
  have hmeets := hc.threads i _ hi
  cases p with
  | ret r =>
    left
    rcases r with reply | (_ | w)
    · cases hmeets
    · exact absurd rfl hstays
    · simp only [System.step, hi, pooledProxy, proxy, Option.map_some, Option.isSome_some]
  | call o k =>
    right
    obtain ⟨e, a, s', he⟩ : ∃ e a s', execOp cfg e i c.shared o = some (a, s') := by
      have hallows : Station.Allows _ o := hmeets.1
      cases o with
      | token q =>
        obtain ⟨e, he⟩ := hanswers q
        obtain ⟨t, ht⟩ := Option.isSome_iff_exists.mp he
        exact ⟨e, e.token q, { c.shared with token := t }, by rw [execOp, ht]; rfl⟩
      | pool q =>
        have hpool : ∃ a p, c.shared.pool.exec cfg.pool c.shared.now i q = some (a, p) := by
          cases q with
          | unpark =>
            simp only [PoolState.exec, PoolState.unpark]
            split
            · exact ⟨_, _, rfl⟩
            · rw [hclosed, if_neg Bool.false_ne_true]
              exact ⟨_, _, rfl⟩
          | trySend request t => cases hallows
          | awaitResult j d => cases hallows
          | _ => exact ⟨_, _, rfl⟩
        obtain ⟨a, p, hp⟩ := hpool
        exact ⟨.success, a, { c.shared with pool := p }, execOp_pool.mpr ⟨p, hp, rfl⟩⟩
      | now => exact ⟨.success, _, _, rfl⟩
      | _ => cases hallows
    refine ⟨e, ?_⟩
    rw [System.step_exec hi he]
    rfl

end

end HsmProxy
