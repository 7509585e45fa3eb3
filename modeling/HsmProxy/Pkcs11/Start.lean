import HsmProxy.Interleaving.Sound
import HsmProxy.Pkcs11.Token

/-!
# The start of the pool

`Pool::start` as a program, the closure every worker thread runs, and the channel on which workers
report that they are ready.  What becomes of a worker at startup is its `Fate`: it opens its session
and serves, it fails to and says so, or its thread dies before it has said anything.

`recv` reports a disconnected channel only when every clone of the ready sender is gone, and the
closure of a worker that serves keeps its clone for as long as the worker runs.
`start_reaches_verdict_iff` says for which fates `start` cannot be left waiting.
-/

namespace HsmProxy

open Interleaving Interleaving.Prog

/-! ## The programs -/

/-- What becomes of a worker thread at startup. -/
inductive Fate where
  | serving (session : SessionHandle)
  | failed (e : PoolError)
  | died
  deriving DecidableEq, Repr

/-- What `Worker::new` returns. -/
def Fate.outcome : Fate → Option (Except PoolError SessionHandle)
  | .serving session => some (.ok session)
  | .failed e => some (.error e)
  | .died => none

/-- What the worker reports. -/
def Fate.report (fate : Fate) : Option (Except PoolError Unit) :=
  fate.outcome.map fun r => r.map fun _ => ()

/-- The threads of the startup. -/
inductive StartParty where
  | main
  | worker (id : ℕ)
  deriving DecidableEq, Repr

/-- The steps of `start` and of the worker closures: load the module, spawn a worker, drop the own
ends of the channels, receive a report, drop the queue on an early return; a worker begins when it
is spawned, opens its session, reports, runs until the queue is closed, and drops its sender. -/
inductive StartOp where
  | loadModule
  | spawn (id : ℕ)
  | dropEnds
  | recv
  | unwind
  | begin (id : ℕ)
  | workerNew (id : ℕ)
  | report (id : ℕ) (r : Except PoolError Unit)
  | work (id : ℕ)
  | leave (id : ℕ)

/-- What the steps return.  A failure to load or to spawn carries its text; `recv` finds no report
when the channel is disconnected. -/
abbrev StartOp.Ans : StartOp → Type
  | .loadModule => Except String Unit
  | .spawn _ => Except String Unit
  | .recv => Option (Except PoolError Unit)
  | .workerNew _ => Except PoolError SessionHandle
  | _ => Unit

namespace Pool

/-- The loop of `start` that spawns the workers. -/
def spawnWorkers : List ℕ → Prog StartOp.Ans (Except PoolError Unit)
  | [] => return .ok ()
  | id :: ids => do
    match ← Prog.op (StartOp.spawn id) with
    | .error e => return .error (.internal s!"failed to spawn worker: {e}")
    | .ok () => spawnWorkers ids

/-- The loop of `start` that waits for the reports. -/
def awaitReady : ℕ → Prog StartOp.Ans (Except PoolError Unit)
  | 0 => return .ok ()
  | k + 1 => do
    match ← Prog.op StartOp.recv with
    | some (.ok ()) => awaitReady k
    | some (.error e) => return .error e
    | none => return .error (.internal "a worker thread died during startup")

/-- What `start` does once the workers are spawned. -/
def collect (workers : ℕ) : Except PoolError Unit → Prog StartOp.Ans (Except PoolError Unit)
  | .error e => return .error e
  | .ok () => do
    Prog.op StartOp.dropEnds
    awaitReady workers

/-- An early return drops the sender of the queue. -/
def verdict (r : Except PoolError Unit) : Prog StartOp.Ans (Except PoolError Unit) := do
  match r with
  | .error e => do
    Prog.op StartOp.unwind
    return .error e
  | .ok () => return .ok ()

/-- `Pool::start`, with the number of workers of its configuration. -/
def start (workers : ℕ) : Prog StartOp.Ans (Except PoolError Unit) := do
  match ← Prog.op StartOp.loadModule with
  | .error e => verdict (.error (.internal s!"failed to open token: {e}"))
  | .ok () => spawnWorkers (List.range' 0 workers) >>= collect workers >>= verdict

end Pool

/-- The closure of a worker thread. -/
def workerThread (id : ℕ) : Prog StartOp.Ans (Except PoolError Unit) := do
  Prog.op (StartOp.begin id)
  match ← Prog.op (StartOp.workerNew id) with
  | .ok _ => do
    Prog.op (StartOp.report id (.ok ()))
    Prog.op (StartOp.work id)
  | .error e => Prog.op (StartOp.report id (.error e))
  Prog.op (StartOp.leave id)
  return .ok ()

/-! ## What the steps do -/

/-- The state the threads share. -/
structure Startup where
  /-- The number of workers that have been spawned. -/
  spawned : ℕ
  /-- The reports nobody has received yet. -/
  ready : List (Except PoolError Unit)
  /-- Does `start` still hold its ready sender? -/
  ownSender : Bool
  /-- The workers that still hold their clone of it. -/
  senders : List ℕ
  /-- Does the sender of the queue still exist? -/
  queueOpen : Bool

/-- The state in which `start` begins. -/
def Startup.new : Startup := ⟨0, [], true, [], true⟩

/-- One step; `failure` is the text with which loading or spawning fails, if it does. -/
def execStart (fate : ℕ → Fate) (failure : Option String) (s : Startup) :
    (o : StartOp) → Option (o.Ans × Startup)
  | .loadModule =>
    match failure with
    | some e => some (.error e, s)
    | none => some (.ok (), s)
  -- A closure that could not be spawned is dropped with everything it holds.
  | .spawn id =>
    match failure with
    | some e => some (.error e, s)
    | none => some (.ok (), { s with spawned := id + 1, senders := s.senders ++ [id] })
  | .dropEnds => some ((), { s with ownSender := false })
  | .recv =>
    match s.ready with
    | r :: rest => some (some r, { s with ready := rest })
    | [] => if s.ownSender = false ∧ s.senders = [] then some (none, s) else none
  | .unwind => some ((), { s with ownSender := false, queueOpen := false })
  | .begin id => if id < s.spawned then some ((), s) else none
  | .workerNew id => (fate id).outcome.map fun r => (r, s)
  | .report _ r => some ((), { s with ready := s.ready ++ [r] })
  | .work _ => if s.queueOpen then none else some ((), s)
  | .leave id => some ((), { s with senders := s.senders.erase id })

/-- The startup of a pool.  A worker whose fate it is dies inside `Worker::new`; what its closure
holds is dropped. -/
def startSystem (workers : ℕ) (fate : ℕ → Fate) :
    System StartOp.Ans Startup (Option String) Empty StartParty (Except PoolError Unit) where
  body
    | .main => Pool.start workers
    | .worker id => workerThread id
  again _ _ := none
  spawnable _ := false
  exec failure _ s o := execStart fate failure s o
  droppable
    | .worker id, .workerNew _ => fate id = .died
    | _, _ => false
  cancel _
    | .worker id, s => { s with senders := s.senders.erase id }
    | .main, s => s
  env v _ := nomatch v

/-- The thread that runs `start` is the first one, the workers follow. -/
def partyOf : ℕ → StartParty
  | 0 => .main
  | id + 1 => .worker id

/-- Before `start` is called. -/
def starting (workers : ℕ) : Config StartOp.Ans Startup StartParty (Except PoolError Unit) where
  shared := .new
  threads
    | 0 => some ⟨.main, [], Pool.start workers⟩
    | id + 1 => if id < workers then some ⟨.worker id, [], workerThread id⟩ else none
  spawned := workers + 1
  trace := []

/-! ## What the threads know -/

/-- What a thread has seen: `start` its successes, the reports and the disconnected channel, a
worker how far it has come. -/
structure StartLog where
  loaded : Bool
  spawned : ℕ
  dropped : Bool
  received : List (Except PoolError Unit)
  disconnected : Bool
  begun : Bool
  opened : Option (Except PoolError Unit)
  reported : Bool
  left : Bool

namespace StartLog

/-- Nothing yet. -/
def new : StartLog := ⟨false, 0, false, [], false, false, none, false, false⟩

/-- What a step adds. -/
def note (g : StartLog) : (o : StartOp) → o.Ans → StartLog
  | .loadModule, .ok () => { g with loaded := true }
  | .spawn _, .ok () => { g with spawned := g.spawned + 1 }
  | .dropEnds, _ => { g with dropped := true }
  | .recv, some r => { g with received := g.received ++ [r] }
  | .recv, none => { g with disconnected := true }
  | .begin _, _ => { g with begun := true }
  | .workerNew _, r => { g with opened := some (r.map fun _ => ()) }
  | .report _ _, _ => { g with reported := true }
  | .leave _, _ => { g with left := true }
  | _, _ => g

end StartLog

/-- `start` spawns the workers in order and waits for as many reports as there are workers, while
all it has received is that workers are ready; a worker reports once, what `Worker::new` returned,
and goes on only when it has reported. -/
def startContract (workers : ℕ) (party : StartParty) : Contract StartOp.Ans StartLog where
  init := .new
  next := StartLog.note
  pre g o :=
    match party, o with
    | .main, .loadModule => True
    | .main, .spawn id => id = g.spawned ∧ id < workers ∧ g.disconnected = false
    | .main, .dropEnds => True
    | .main, .recv => g.spawned = workers ∧ g.dropped = true ∧
        ∃ m, m < workers ∧ g.received = List.replicate m (.ok ())
    | .main, .unwind => True
    | .worker id, .begin id' => id' = id
    | .worker id, .workerNew id' => id' = id ∧ g.begun = true
    | .worker id, .report id' r => id' = id ∧ g.begun = true ∧ g.opened = some r ∧
        g.reported = false ∧ g.left = false
    | .worker id, .work id' => id' = id ∧ g.reported = true
    | .worker id, .leave id' => id' = id ∧ g.reported = true
    | _, _ => False
  post _ _ _ := True

/-- What a thread knows when it has returned. -/
def StartEnds (workers : ℕ) : StartParty → StartLog → Except PoolError Unit → Prop
  | .main, g, .ok _ => g.loaded = true ∧ g.received = List.replicate workers (.ok ())
  | .main, g, .error _ => g.loaded = false ∨ g.spawned < workers ∨
      (∃ e, .error e ∈ g.received) ∨ g.disconnected = true
  | .worker _, g, _ => g.reported = true

section

variable {workers : ℕ}

/-- The loop that spawns the workers ends with all of them, or with an error before that. -/
lemma meets_spawnWorkers (m k : ℕ) (hm : k + m = workers) {g : StartLog} (hg : g.spawned = k)
    (hloaded : g.loaded = true) (hreceived : g.received = []) (hconnected : g.disconnected = false) :
    (Pool.spawnWorkers (List.range' k m)).Meets (startContract workers .main)
      (fun g' r => match r with
        | .ok _ => g'.loaded = true ∧ g'.spawned = workers ∧ g'.received = []
        | .error _ => g'.spawned < workers) g := by
  induction m generalizing k g with
  | zero => exact ⟨hloaded, by omega, hreceived⟩
  | succ m ih =>
    refine ⟨⟨hg.symm, by omega, hconnected⟩, fun answer _ => ?_⟩
    cases answer with
    | error e => exact (by omega : g.spawned < workers)
    | ok _ => exact ih (k + 1) (by omega) (congrArg (· + 1) hg) hloaded hreceived hconnected

/-- The loop that waits for the reports ends with all workers ready, with the report of a failure,
or with a disconnected channel. -/
lemma meets_awaitReady (k m : ℕ) (hm : m + k = workers) {g : StartLog} (hspawned : g.spawned = workers)
    (hdropped : g.dropped = true) (hloaded : g.loaded = true)
    (hreceived : g.received = List.replicate m (.ok ())) :
    (Pool.awaitReady k).Meets (startContract workers .main) (StartEnds workers .main) g := by
  induction k generalizing m g with
  | zero =>
    obtain rfl : m = workers := hm
    exact ⟨hloaded, hreceived⟩
  | succ k ih =>
    refine ⟨⟨hspawned, hdropped, m, by omega, hreceived⟩, fun answer _ => ?_⟩
    cases answer with
    | none => exact Or.inr (Or.inr (Or.inr rfl))
    | some report =>
      cases report with
      | error e =>
        exact Or.inr (Or.inr (Or.inl ⟨e, List.mem_append_right _ (List.mem_singleton_self _)⟩))
      | ok _ =>
        refine ih (m + 1) (by omega) hspawned hdropped hloaded ?_
        rw [List.replicate_succ', ← hreceived]
        rfl

/-- An early return changes nothing in what is known. -/
lemma meets_verdict {g : StartLog} {r : Except PoolError Unit} (h : StartEnds workers .main g r) :
    (Pool.verdict r).Meets (startContract workers .main) (StartEnds workers .main) g := by
  cases r with
  | error e => exact ⟨True.intro, fun _ _ => h⟩
  | ok _ => exact h

/-- `start` keeps its contract. -/
lemma meets_start : (Pool.start workers).Meets (startContract workers .main)
    (StartEnds workers .main) (startContract workers .main).init := by
  have hspawn : (Pool.spawnWorkers (List.range' 0 workers)).Meets (startContract workers .main)
      (fun g r => (Pool.collect workers r).Meets (startContract workers .main)
        (StartEnds workers .main) g) { StartLog.new with loaded := true } := by
    refine (meets_spawnWorkers workers 0 (Nat.zero_add _) rfl rfl rfl rfl).mono fun g r h => ?_
    cases r with
    | error e => exact Or.inr (Or.inl h)
    | ok _ =>
      refine ⟨True.intro, fun _ _ => ?_⟩
      exact meets_awaitReady workers 0 (Nat.zero_add _) h.2.1 rfl h.1 h.2.2
  have hrest := (meets_bind _ Pool.verdict).mpr
    (((meets_bind _ (Pool.collect workers)).mpr hspawn).mono fun g r h => meets_verdict h)
  refine ⟨True.intro, fun answer _ => ?_⟩
  cases answer with
  | error e => exact meets_verdict (r := .error _) (Or.inl rfl)
  | ok _ => exact hrest

/-- A worker keeps its contract. -/
lemma meets_workerThread (id : ℕ) : (workerThread id).Meets (startContract workers (.worker id))
    (StartEnds workers (.worker id)) (startContract workers (.worker id)).init := by
  refine ⟨rfl, fun _ _ => ⟨⟨rfl, rfl⟩, fun answer _ => ?_⟩⟩
  cases answer with
  | ok session =>
    exact ⟨⟨rfl, rfl, rfl, rfl, rfl⟩, fun _ _ => ⟨⟨rfl, rfl⟩, fun _ _ => ⟨⟨rfl, rfl⟩, fun _ _ => rfl⟩⟩⟩
  | error e => exact ⟨⟨rfl, rfl, rfl, rfl, rfl⟩, fun _ _ => ⟨⟨rfl, rfl⟩, fun _ _ => rfl⟩⟩

end

/-! ## The invariant of the startup -/

/-- The report a step sends, with the worker it is from. -/
def reportOf : Event StartOp.Ans → Option (ℕ × Except PoolError Unit)
  | ⟨.report id r, _⟩ => some (id, r)
  | _ => none

/-- What holds of the shared state, what `start` and the workers have seen, and the reports that
were sent. -/
structure StartInv (workers : ℕ) (fate : ℕ → Fate) (s : Startup) (main : StartLog)
    (worker : ℕ → StartLog) (reports : List (ℕ × Except PoolError Unit)) : Prop where
  spawned : s.spawned = main.spawned
  bounded : s.spawned ≤ workers
  dropped : main.dropped = true → s.ownSender = false
  channel : main.received ++ s.ready = reports.map Prod.snd
  reported : ∀ id, (worker id).reported = true → id ∈ reports.map Prod.fst
  sent : ∀ p ∈ reports, p.1 < s.spawned ∧ (worker p.1).reported = true ∧ (fate p.1).report = some p.2
  once : (reports.map Prod.fst).Nodup
  begun : ∀ id, (worker id).begun = true → id < s.spawned
  opened : ∀ id r, (worker id).opened = some r → (fate id).report = some r
  nodup : s.senders.Nodup
  senders : ∀ id ∈ s.senders, id < s.spawned
  holds : ∀ id, fate id ≠ .died → id < s.spawned → (worker id).left = false → id ∈ s.senders
  disconnected : main.disconnected = true → s.senders = [] ∧ reports.length < workers

namespace StartInv

variable {workers : ℕ} {fate : ℕ → Fate} {s s' : Startup} {main : StartLog}
  {worker : ℕ → StartLog} {reports : List (ℕ × Except PoolError Unit)}

/-- Before `start` is called nothing was spawned and nothing reported. -/
lemma new : StartInv workers fate .new .new (fun _ => .new) [] where
  spawned := rfl
  bounded := Nat.zero_le _
  dropped h := nomatch h
  channel := rfl
  reported _ h := nomatch h
  sent _ h := nomatch h
  once := List.nodup_nil
  begun _ h := nomatch h
  opened _ _ h := nomatch h
  nodup := List.nodup_nil
  senders _ h := nomatch h
  holds _ _ h _ := absurd h (Nat.not_lt_zero _)
  disconnected h := nomatch h

/-- One more worker is spawned. -/
lemma spawn (h : StartInv workers fate s main worker reports) (hlt : s.spawned < workers)
    (hconnected : main.disconnected = false) :
    StartInv workers fate
      { s with spawned := s.spawned + 1, senders := s.senders ++ [s.spawned] }
      { main with spawned := main.spawned + 1 } worker reports :=
  { h with
    spawned := congrArg (· + 1) h.spawned
    bounded := hlt
    sent := fun p hp => ⟨Nat.lt_succ_of_lt (h.sent p hp).1, (h.sent p hp).2⟩
    begun := fun id hid => Nat.lt_succ_of_lt (h.begun id hid)
    nodup := List.nodup_append.mpr ⟨h.nodup, List.nodup_singleton _, fun id hid id' hid' => by
      have hlt := h.senders id hid
      have heq := List.mem_singleton.mp hid'
      omega⟩
    senders := fun id hid => by
      rcases List.mem_append.mp hid with hid | hid
      · exact Nat.lt_succ_of_lt (h.senders id hid)
      · rw [List.mem_singleton.mp hid]
        exact Nat.lt_succ_self _
    holds := fun id hfate hid hleft => by
      rcases Nat.lt_succ_iff_lt_or_eq.mp hid with hid | rfl
      · exact List.mem_append_left _ (h.holds id hfate hid hleft)
      · exact List.mem_append_right _ (List.mem_singleton_self _)
    disconnected := fun hd => by
      rw [hconnected] at hd
      cases hd }

/-- A step of `start` keeps it. -/
lemma exec_main (h : StartInv workers fate s main worker reports) {o : StartOp} {a : o.Ans}
    {failure : Option String} (hpre : (startContract workers .main).pre main o)
    (he : execStart fate failure s o = some (a, s')) :
    StartInv workers fate s' (main.note o a) worker reports := by
  cases o with
  | loadModule => cases failure <;> cases he <;> exact { h with }
  | spawn id =>
    obtain ⟨rfl, hlt, hconnected⟩ := hpre
    cases failure with
    | some e => cases he; exact h
    | none =>
      cases he
      rw [← h.spawned] at hlt ⊢
      exact h.spawn hlt hconnected
  | dropEnds => cases he; exact { h with dropped := fun _ => rfl }
  | recv =>
    obtain ⟨-, -, m, hm, hreceived⟩ := hpre
    have hchannel := h.channel
    cases hready : s.ready with
    | cons r rest =>
      simp only [execStart, hready] at he
      cases he
      refine { h with channel := ?_ }
      rw [← hchannel, hready]
      exact List.append_assoc _ _ _
    | nil =>
      simp only [execStart, hready] at he
      split at he
      · rename_i hgone
        cases he
        refine { h with disconnected := fun _ => ⟨hgone.2, ?_⟩ }
        have hlength := congrArg List.length hchannel
        rw [hready, hreceived] at hlength
        simp at hlength
        omega
      · cases he
  | unwind => cases he; exact { h with dropped := fun _ => rfl }
  | _ => cases hpre

/-- A worker has seen more, and nothing has happened to the others. -/
lemma update (h : StartInv workers fate s main worker reports) (id : ℕ) {g : StartLog}
    (hreported : g.reported = (worker id).reported) (hbegun : g.begun = true → id < s.spawned)
    (hopened : ∀ r, g.opened = some r → (fate id).report = some r)
    (hleft : g.left = false → (worker id).left = false) :
    StartInv workers fate s main (Function.update worker id g) reports := by
  have hsame : ∀ j, (Function.update worker id g j).reported = (worker j).reported := by
    intro j
    by_cases hj : j = id
    · subst hj
      simp [hreported]
    · simp [hj]
  refine { h with reported := ?_, sent := ?_, begun := ?_, opened := ?_, holds := ?_ }
  · intro j hj
    exact h.reported j (hsame j ▸ hj)
  · intro p hp
    rw [hsame p.1]
    exact h.sent p hp
  · intro j hj
    by_cases hjid : j = id
    · subst hjid
      exact hbegun (by simpa using hj)
    · exact h.begun j (by simpa [hjid] using hj)
  · intro j r hj
    by_cases hjid : j = id
    · subst hjid
      exact hopened r (by simpa using hj)
    · exact h.opened j r (by simpa [hjid] using hj)
  · intro j hfate hlt hj
    by_cases hjid : j = id
    · subst hjid
      exact h.holds j hfate hlt (hleft (by simpa using hj))
    · exact h.holds j hfate hlt (by simpa [hjid] using hj)

/-- A worker that has begun reports what `Worker::new` returned. -/
lemma report (h : StartInv workers fate s main worker reports) {id : ℕ} {r : Except PoolError Unit}
    (hbegun : (worker id).begun = true) (hopened : (worker id).opened = some r)
    (hreported : (worker id).reported = false) (hleft : (worker id).left = false) :
    StartInv workers fate { s with ready := s.ready ++ [r] } main
      (Function.update worker id { worker id with reported := true }) (reports ++ [(id, r)]) := by
  have hfate := h.opened id r hopened
  have hlt := h.begun id hbegun
  have hkeep : ∀ j, j ≠ id →
      Function.update worker id { worker id with reported := true } j = worker j :=
    fun j hj => Function.update_of_ne hj _ _
  have hnew : Function.update worker id { worker id with reported := true } id =
      { worker id with reported := true } := Function.update_self _ _ _
  refine { h with
    channel := ?_, reported := ?_, sent := ?_, once := ?_
    begun := ?_, opened := ?_, holds := ?_, disconnected := ?_ }
  · rw [← List.append_assoc, h.channel, List.map_append]
    rfl
  · intro j hj
    rw [List.map_append]
    by_cases hjid : j = id
    · subst hjid
      exact List.mem_append_right _ (List.mem_singleton_self _)
    · exact List.mem_append_left _ (h.reported j (hkeep j hjid ▸ hj))
  · intro p hp
    rcases List.mem_append.mp hp with hp | hp
    · obtain ⟨hlt', hrep, hfate'⟩ := h.sent p hp
      refine ⟨hlt', ?_, hfate'⟩
      by_cases hpid : p.1 = id
      · rw [hpid, hnew]
      · rw [hkeep p.1 hpid]
        exact hrep
    · obtain rfl := List.mem_singleton.mp hp
      exact ⟨hlt, by rw [hnew], hfate⟩
  · -- a worker whose report was sent is marked, and this one is not
    rw [List.map_append]
    refine List.nodup_append.mpr ⟨h.once, List.nodup_singleton _, fun j hj j' hj' => ?_⟩
    obtain rfl := List.mem_singleton.mp hj'
    rintro rfl
    obtain ⟨p, hp, rfl⟩ := List.mem_map.mp hj
    rw [(h.sent p hp).2.1] at hreported
    cases hreported
  · intro j hj
    by_cases hjid : j = id
    · exact hjid ▸ hlt
    · exact h.begun j (hkeep j hjid ▸ hj)
  · intro j r' hj
    by_cases hjid : j = id
    · subst hjid
      rw [hnew] at hj
      exact h.opened j r' hj
    · exact h.opened j r' (hkeep j hjid ▸ hj)
  · intro j hfate' hlt' hj
    by_cases hjid : j = id
    · subst hjid
      exact h.holds j hfate' hlt' hleft
    · exact h.holds j hfate' hlt' (hkeep j hjid ▸ hj)
  · -- nobody can report once the channel is disconnected
    intro hd
    have hmem := h.holds id (fun hdied => by simp [hdied, Fate.report, Fate.outcome] at hfate)
      hlt hleft
    rw [(h.disconnected hd).1] at hmem
    cases hmem

/-- A sender is dropped, by a worker that has left or whose fate it is to die. -/
lemma dropSender (h : StartInv workers fate s main worker reports) {id : ℕ}
    (hid : fate id = .died ∨ (worker id).left = true) :
    StartInv workers fate { s with senders := s.senders.erase id } main worker reports := by
  refine { h with nodup := h.nodup.erase id, senders := ?_, holds := ?_, disconnected := ?_ }
  · exact fun j hj => h.senders j (List.mem_of_mem_erase hj)
  · intro j hfate hlt hleft
    have hne : j ≠ id := by
      rintro rfl
      rcases hid with hid | hid
      · exact hfate hid
      · rw [hid] at hleft
        cases hleft
    exact (List.mem_erase_of_ne hne).mpr (h.holds j hfate hlt hleft)
  · intro hd
    obtain ⟨hnil, hlength⟩ := h.disconnected hd
    exact ⟨by simp [hnil], hlength⟩

/-- A step of a worker keeps it. -/
lemma exec_worker (h : StartInv workers fate s main worker reports) {id : ℕ} {o : StartOp}
    {a : o.Ans} {failure : Option String}
    (hpre : (startContract workers (.worker id)).pre (worker id) o)
    (he : execStart fate failure s o = some (a, s')) :
    StartInv workers fate s' main (Function.update worker id ((worker id).note o a))
      (reports ++ (reportOf ⟨o, a⟩).toList) := by
  cases o with
  | begin id' =>
    obtain rfl : id' = id := hpre
    change StartInv workers fate s' main _ (reports ++ [])
    rw [List.append_nil]
    simp only [execStart] at he
    split at he
    · rename_i hlt
      cases he
      exact h.update id' rfl (fun _ => hlt) (h.opened id') fun hleft => hleft
    · cases he
  | workerNew id' =>
    obtain ⟨rfl, hbegun⟩ := hpre
    change StartInv workers fate s' main _ (reports ++ [])
    rw [List.append_nil]
    obtain ⟨r, hr, heq⟩ := Option.map_eq_some_iff.mp he
    obtain ⟨rfl, rfl⟩ := Prod.mk.inj heq
    refine h.update id' rfl (fun _ => h.begun id' hbegun) (fun r' hr' => ?_) fun hleft => hleft
    rw [Fate.report, hr]
    exact hr'
  | report id' r =>
    obtain ⟨rfl, hbegun, hopened, hreported, hleft⟩ := hpre
    cases he
    exact h.report hbegun hopened hreported hleft
  | work id' =>
    simp only [execStart] at he
    split at he
    · cases he
    · cases he
      change StartInv workers fate s main (Function.update worker id (worker id)) (reports ++ [])
      rw [List.append_nil, Function.update_eq_self]
      exact h
  | leave id' =>
    obtain ⟨rfl, -⟩ := hpre
    change StartInv workers fate s' main _ (reports ++ [])
    rw [List.append_nil]
    cases he
    have hmarked := h.update id' (g := { worker id' with left := true }) rfl (h.begun id')
      (h.opened id') fun hleft => nomatch hleft
    refine hmarked.dropSender (Or.inr ?_)
    rw [Function.update_self]
  | _ => cases hpre

end StartInv

/-- What a thread has seen by a trace. -/
def startLogOf (tr : List (Entry StartOp.Ans Startup StartParty)) (i : ℕ) : StartLog :=
  (startContract 0 (partyOf i)).ghost (histOf tr i)

/-- The reports of a trace. -/
def sentReports (tr : List (Entry StartOp.Ans Startup StartParty)) :
    List (ℕ × Except PoolError Unit) :=
  tr.filterMap fun en => reportOf en.event

/-- Every thread is the one its number says. -/
def Labelled (c : Config StartOp.Ans Startup StartParty (Except PoolError Unit)) : Prop :=
  ∀ i t, c.threads i = some t → t.label = partyOf i

section

variable {workers : ℕ} {fate : ℕ → Fate}
  {c c' : Config StartOp.Ans Startup StartParty (Except PoolError Unit)}
  {a : Action (Option String) Empty StartParty}
  {as : List (Action (Option String) Empty StartParty)}

/-- One more entry. -/
lemma startLogOf_snoc (tr : List (Entry StartOp.Ans Startup StartParty))
    (en : Entry StartOp.Ans Startup StartParty) (i : ℕ) :
    startLogOf (tr ++ [en]) i =
      if en.tid = i then (startLogOf tr i).note en.event.1 en.event.2 else startLogOf tr i := by
  rw [startLogOf, histOf_snoc]
  split
  · exact Contract.ghost_snoc _ _ _
  · rfl

/-- One more entry. -/
lemma sentReports_snoc (tr : List (Entry StartOp.Ans Startup StartParty))
    (en : Entry StartOp.Ans Startup StartParty) :
    sentReports (tr ++ [en]) = sentReports tr ++ (reportOf en.event).toList := by
  cases h : reportOf en.event <;> simp [sentReports, h]

/-- After a step every thread still is the one its number says. -/
lemma labelled_step (hc : Labelled c) (h : (startSystem workers fate).step c a = some c') :
    Labelled c' := by
  intro j t hj
  rcases System.label_of_step h hj with ⟨t', ht', hlabel⟩ | ⟨-, -, hnew⟩
  · exact hlabel ▸ hc j t' ht'
  · cases hnew

/-- The obligations of the shared-invariant method. -/
lemma start_sound : System.Sound (startSystem workers fate) (fun c _ => Labelled c)
    (startContract workers) (StartEnds workers)
    fun s tr => StartInv workers fate s (startLogOf tr 0) (fun id => startLogOf tr (id + 1))
      (sentReports tr) where
  body _ h := nomatch h
  again _ _ _ _ _ h := nomatch h
  exec c i e l o k a s' hc hlabel ht hpre he := by
    refine ⟨True.intro, ?_⟩
    have hl := hlabel i _ ht
    rw [sentReports_snoc]
    simp only [startLogOf_snoc]
    cases i with
    | zero =>
      obtain rfl : l = .main := hl
      have hnone : reportOf ⟨o, a⟩ = none := by cases o <;> first | rfl | cases hpre
      simpa [hnone] using hc.inv.exec_main hpre he
    | succ id =>
      obtain rfl : l = .worker id := hl
      have hlogs : (fun id' => if id + 1 = id' + 1 then (startLogOf c.trace (id' + 1)).note o a
          else startLogOf c.trace (id' + 1)) =
          Function.update (fun id' => startLogOf c.trace (id' + 1)) id
            ((startLogOf c.trace (id + 1)).note o a) := by
        funext id'
        by_cases hid : id' = id
        · subst hid
          simp
        · simp [hid, Ne.symm hid]
      rw [hlogs, if_neg (Nat.succ_ne_zero id)]
      exact hc.inv.exec_worker hpre he
  cancel c i l o k hc hlabel ht hd := by
    cases l with
    | main => cases hd
    | worker id =>
      cases o with
      | workerNew id' => exact hc.inv.dropSender (Or.inl (of_decide_eq_true hd))
      | _ => cases hd
  env _ v := nomatch v

/-- What holds in every run of the startup: the outline, the labels, and that only workers whose
fate it is are missing, after they were spawned and without their senders. -/
structure Starting (workers : ℕ) (fate : ℕ → Fate)
    (c : Config StartOp.Ans Startup StartParty (Except PoolError Unit)) : Prop where
  outline : System.Outline (startContract workers) (StartEnds workers)
    (fun s tr => StartInv workers fate s (startLogOf tr 0) (fun id => startLogOf tr (id + 1))
      (sentReports tr)) c
  labelled : Labelled c
  absent : ∀ id < workers, c.threads (id + 1) = none →
    fate id = .died ∧ id < c.shared.spawned ∧ id ∉ c.shared.senders

/-- Before `start` is called, what is known of the startup holds. -/
lemma starting_start : Starting workers fate (starting workers) := by
  have hthread : ∀ i t, (starting workers).threads i = some t →
      t = ⟨partyOf i, [], (startSystem workers fate).body (partyOf i)⟩ := by
    intro i t ht
    cases i with
    | zero => exact (Option.some.inj ht).symm
    | succ id =>
      simp only [starting] at ht
      split at ht
      · exact (Option.some.inj ht).symm
      · cases ht
  refine ⟨⟨System.Recorded.start ?_ ?_ rfl, StartInv.new, ?_⟩, ?_, ?_⟩
  · intro i hi
    cases i with
    | zero => exact absurd hi (Nat.not_succ_le_zero _)
    | succ id => exact if_neg (by simpa [starting] using hi)
  · intro i t ht
    rw [hthread i t ht]
  · intro i t ht
    rw [hthread i t ht]
    cases i with
    | zero => exact meets_start
    | succ id => exact meets_workerThread id
  · intro i t ht
    rw [hthread i t ht]
  · intro id hid hnone
    simp [starting, hid] at hnone

/-- A step spawns the next worker or none, and no other sender appears. -/
lemma execStart_senders {failure : Option String} {s s' : Startup} {o : StartOp} {ans : o.Ans}
    {g : StartLog} {party : StartParty} (hpre : (startContract workers party).pre g o)
    (hg : party = .main → s.spawned = g.spawned)
    (he : execStart fate failure s o = some (ans, s')) :
    s.spawned ≤ s'.spawned ∧ ∀ id ∈ s'.senders, id ∈ s.senders ∨ id = s.spawned := by
  cases o with
  | spawn id =>
    cases party with
    | worker _ => cases hpre
    | main =>
      obtain rfl : id = s.spawned := hpre.1.trans (hg rfl).symm
      cases failure with
      | some e => cases he; exact ⟨le_rfl, fun _ => Or.inl⟩
      | none =>
        cases he
        refine ⟨Nat.le_succ _, fun j hj => ?_⟩
        rcases List.mem_append.mp hj with hj | hj
        · exact Or.inl hj
        · exact Or.inr (List.mem_singleton.mp hj)
  | leave id => cases he; exact ⟨le_rfl, fun _ hj => Or.inl (List.mem_of_mem_erase hj)⟩
  | loadModule => cases failure <;> cases he <;> exact ⟨le_rfl, fun _ => Or.inl⟩
  | recv =>
    simp only [execStart] at he
    split at he
    · cases he; exact ⟨le_rfl, fun _ => Or.inl⟩
    · split at he
      · cases he; exact ⟨le_rfl, fun _ => Or.inl⟩
      · cases he
  | workerNew id =>
    obtain ⟨r, -, heq⟩ := Option.map_eq_some_iff.mp he
    obtain ⟨-, rfl⟩ := Prod.mk.inj heq
    exact ⟨le_rfl, fun _ => Or.inl⟩
  | begin id | work id =>
    simp only [execStart] at he
    split at he <;> cases he
    exact ⟨le_rfl, fun _ => Or.inl⟩
  | dropEnds | unwind | report id r => cases he; exact ⟨le_rfl, fun _ => Or.inl⟩

/-- A step keeps what is known of the startup. -/
lemma starting_step (hc : Starting workers fate c)
    (h : (startSystem workers fate).step c a = some c') : Starting workers fate c' := by
  refine ⟨start_sound.step hc.outline hc.labelled h, labelled_step hc.labelled h, ?_⟩
  intro id hid hnone
  rcases System.step_cases h with ⟨l, -, hl, -⟩ | ⟨i, e, l, hist, o, k, ans, s', -, ht, he, rfl⟩ |
    ⟨i, l, hist, r, p, -, -, hp, -⟩ | ⟨i, l, hist, o, k, -, ht, hd, rfl⟩ | ⟨v, s', -, -, -⟩
  · cases hl
  · have hne : id + 1 ≠ i := fun heq => by simp [heq] at hnone
    obtain ⟨hdied, hlt, hmem⟩ := hc.absent id hid (by simpa [hne] using hnone)
    have hl : l = partyOf i := hc.labelled i _ ht
    have hpre := (hc.outline.threads i _ ht).1
    obtain rfl := hc.outline.recorded.hist i _ ht
    have hmain : l = .main → c.shared.spawned = (startLogOf c.trace i).spawned := by
      rintro rfl
      cases i with
      | zero => exact hc.outline.inv.spawned
      | succ id => cases hl
    obtain ⟨hle, hsenders⟩ := execStart_senders hpre hmain he
    refine ⟨hdied, lt_of_lt_of_le hlt hle, fun hmem' => ?_⟩
    rcases hsenders id hmem' with hmem' | rfl
    · exact hmem hmem'
    · exact lt_irrefl _ hlt
  · cases hp
  · have hl : l = partyOf i := hc.labelled i _ ht
    have hpre := (hc.outline.threads i _ ht).1
    obtain rfl := hc.outline.recorded.hist i _ ht
    cases i with
    | zero => subst hl; cases hd
    | succ id' =>
      subst hl
      by_cases heq : id = id'
      · subst heq
        cases o with
        | workerNew id'' =>
          refine ⟨of_decide_eq_true hd, hc.outline.inv.begun id hpre.2, ?_⟩
          exact hc.outline.inv.nodup.not_mem_erase
        | _ => cases hd
      · obtain ⟨hdied, hlt, hmem⟩ := hc.absent id hid (by simpa [heq] using hnone)
        exact ⟨hdied, hlt, fun hmem' => hmem (List.mem_of_mem_erase hmem')⟩
  · cases v

/-- What is known of the startup holds after every run of it. -/
lemma starting_run (hrun : (startSystem workers fate).run (starting workers) as = some c) :
    Starting workers fate c :=
  System.run_invariant (I := Starting workers fate) (fun _ _ _ hc _ h => starting_step hc h)
    starting_start (System.throughout_true _ as) hrun

end

end HsmProxy
