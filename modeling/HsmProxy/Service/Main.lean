import HsmProxy.Grpc.Plan
import HsmProxy.Pkcs11.WorkerSteps
import HsmProxy.Service.Steps

/-!
# The process around the proxy

`main` in pool mode, with the gauge sampler of `telemetry/metrics.rs` that it spawns.  Both are
programs over `MainOp`; they share the strong references to the `Arc<Pool>` with the service and
with every key lookup that is inside `public_key`.  The proxy itself moves as the environment of
these two: its handlers, its workers, and the signal that stops the server.

The last steps of `main` are `Arc::try_unwrap(pool)` and, if that succeeds, `Pool::shutdown`.  When
`main` has returned, `#[tokio::main]` drops the runtime: tasks are dropped where they are suspended,
and with the sampler the last reference to the pool, so that the queue closes and the workers leave,
as far as the process lives on.  `pool_never_drained` says what becomes of the drain before that.
-/

namespace HsmProxy

open Interleaving Interleaving.Prog

/-- Who holds a strong reference to the pool. -/
inductive Owner where
  | main
  | sampler
  | service
  | loader (tid : ℕ)
  deriving DecidableEq, Repr

/-- The tasks beside handlers and workers. -/
inductive Task where
  | main
  | sampler
  deriving DecidableEq, Repr

/-- The steps of these tasks: clone the `Arc<Pool>` into an owner, wait for the server to stop,
`Arc::try_unwrap`, the two halves of `Pool::shutdown`, the end of the runtime, and one round of the
sampler. -/
inductive MainOp where
  | clone (owner : Owner)
  | serve
  | tryUnwrap
  | closeQueue
  | join
  | dropRuntime
  | sample
  deriving DecidableEq, Repr

/-- What the steps return: `try_unwrap` whether it succeeded. -/
abbrev MainOp.Ans : MainOp → Type
  | .tryUnwrap => Bool
  | _ => Unit

/-- The process: the proxy, the owners of its pool, whether the stop signal has arrived, and whether
the runtime is up. -/
structure Process (P : Platform) where
  proxy : Config Op.Ans (Shared P) Party ThreadResult
  owners : List Owner
  stopping : Bool
  runtime : Bool

/-- `Pool::shutdown`: drop the sender and join the workers. -/
def shutdownPool : Prog MainOp.Ans Unit := do
  Prog.op MainOp.closeQueue
  Prog.op MainOp.join

/-- `main` in pool mode, from the pool on: spawn the sampler, build the service, serve, and drain
the pool if nobody else holds it.  Returns whether it was drained. -/
def mainPool : Prog MainOp.Ans Bool := do
  Prog.op (MainOp.clone .sampler)
  Prog.op (MainOp.clone .service)
  Prog.op MainOp.serve
  if ← Prog.op MainOp.tryUnwrap then
    shutdownPool
    return true
  else
    return false

/-- What `#[tokio::main]` makes of it: the runtime is dropped when `main` has returned. -/
def tokioMain : Prog MainOp.Ans Bool := do
  let drained ← mainPool
  Prog.op MainOp.dropRuntime
  return drained

/-- One round of the loop of `spawn_gauge_sampler`; what it exports is left out. -/
def sampleRound : Prog MainOp.Ans Bool := do
  Prog.op MainOp.sample
  return false

section

variable {P : Platform} (cfg : ServiceConfig)

/-- Has every handler replied or been dropped? -/
def handlersDone (c : Config Op.Ans (Shared P) Party ThreadResult) : Bool :=
  (List.range c.spawned).all fun i =>
    match c.threads i with
    | some ⟨.rpc _, _, .call _ _⟩ => false
    | _ => true

/-- Has every worker left or died? -/
def workersGone (c : Config Op.Ans (Shared P) Party ThreadResult) : Bool :=
  (List.range c.spawned).all fun i =>
    match c.threads i with
    | some ⟨.worker _, _, .ret (.round none)⟩ => true
    | some ⟨.worker _, _, _⟩ => false
    | _ => true

/-- One step of `main` or of the sampler. -/
def execMain (s : Process P) : (o : MainOp) → Option (o.Ans × Process P)
  | .clone owner => some ((), { s with owners := s.owners ++ [owner] })
  -- `serve_with_shutdown` returns after the signal, when the open requests are through; the server
  -- and with it the service are dropped.
  | .serve =>
    if s.stopping && handlersDone s.proxy then
      some ((), { s with owners := s.owners.erase .service })
    else none
  | .tryUnwrap =>
    if s.owners = [.main] then some (true, { s with owners := [] })
    else some (false, { s with owners := s.owners.erase .main })
  | .closeQueue => some ((), { s with
      proxy := { s.proxy with shared := envStep P .shutdown s.proxy.shared } })
  | .join => if workersGone s.proxy then some ((), s) else none
  -- Nobody is left to own the pool, so it is dropped, and the sender of its queue with it.
  | .dropRuntime => some ((), { s with
      runtime := false
      owners := []
      proxy := { s.proxy with shared := envStep P .shutdown s.proxy.shared } })
  | .sample => if Owner.sampler ∈ s.owners then some ((), s) else none

/-- What a step of a handler does to the owners: `public_key` clones the pool before it asks the
cache, and the clone is gone when the outcome is reported. -/
def ownersAfterOp (i : ℕ) (o : Op) (owners : List Owner) : List Owner :=
  match o with
  | .cache (.containsKey _) => owners ++ [.loader i]
  | .breaker .recordSuccess => owners.erase (.loader i)
  | .breaker .recordFailure => owners.erase (.loader i)
  | _ => owners

/-- What an action of the proxy does to the owners. -/
def ownersAfter (c : Config Op.Ans (Shared P) Party ThreadResult)
    (a : Action Choice (EnvAction P) Party) (owners : List Owner) : List Owner :=
  match a with
  | .exec i _ =>
    match c.nextOp i with
    | some o => ownersAfterOp i o owners
    | none => owners
  | .cancel i => owners.erase (.loader i)
  | _ => owners

/-- The actions of the proxy that can occur around `main`: requests arrive while the service exists,
and only `main` shuts the pool down. -/
def occurs (s : Process P) : Action Choice (EnvAction P) Party → Bool
  | .spawn _ => s.owners.contains .service
  | .env .shutdown => false
  | _ => true

/-- What happens around `main` and the sampler. -/
inductive ProcessAction (P : Platform) where
  | signal
  | proxy (a : Action Choice (EnvAction P) Party)

/-- The environment of `main` and the sampler acts. -/
def processStep (s : Process P) : ProcessAction P → Option (Process P)
  | .signal => some { s with stopping := true }
  | .proxy a =>
    if occurs s a then
      ((pooledProxy P cfg).step s.proxy a).map fun c =>
        { s with proxy := c, owners := ownersAfter s.proxy a s.owners }
    else none

/-- The process in pool mode.  The sampler loops until the runtime is dropped. -/
def mainSystem (P : Platform) (cfg : ServiceConfig) :
    System MainOp.Ans (Process P) Unit (ProcessAction P) Task Bool where
  body
    | .main => tokioMain
    | .sampler => sampleRound
  again
    | .main, _ => none
    | .sampler, _ => some sampleRound
  spawnable _ := false
  exec _ _ s o := execMain s o
  droppable _ _ := false
  cancel _ _ s := s
  env v s := processStep cfg s v

/-- The process after `Pool::start`: `main` owns the pool. -/
def mainStarted (P : Platform) (t₀ : ℕ) (sessions : List SessionHandle) (token : P.token.State) :
    Config MainOp.Ans (Process P) Task Bool where
  shared := ⟨started P t₀ sessions token, [.main], false, true⟩
  threads
    | 0 => some ⟨.main, [], tokioMain⟩
    | 1 => some ⟨.sampler, [], sampleRound⟩
    | _ => none
  spawned := 2
  trace := []

/-! ## Workers of a pool that is not shut down -/

/-- A worker that asks for a job is not told that the queue is closed. -/
def stayContract : Contract Op.Ans Unit where
  init := ()
  next _ _ _ := ()
  pre _ _ := True
  post _
    | .pool .poll, a => a ≠ .disconnected
    | .pool .unpark, a => a ≠ none
    | _, _ => True

/-- A worker goes on after every round. -/
def GoesOn : ThreadResult → Prop
  | .round none => False
  | _ => True

/-- Such a worker goes on. -/
lemma iterate_stays (P : Platform) (w : Worker) :
    (Worker.iterate P w).Meets stayContract (fun _ w' => GoesOn (.round w')) () := by
  refine Worker.meets_iterate (fun _ received => received ≠ none)
    (fun _ _ _ => True) ?_ (fun _ job _ => ⟨True.intro, fun _ => ?_⟩)
    (fun _ job r _ => ⟨True.intro, fun started finished => ?_⟩) fun _ hnone => absurd rfl hnone
  · exact Worker.meets_recv True.intro (fun job _ => Option.some_ne_none job)
      (fun hpolled => absurd rfl hpolled) fun _ => ⟨True.intro, fun _ hhanded => hhanded⟩
  · exact (Worker.execute_only P w job.request).meets (fun o _ => ⟨True.intro, fun _ => rfl⟩)
      fun _ => True.intro
  · exact (Worker.account_only job started finished r.1).meets
      (fun o _ => ⟨True.intro, fun _ => rfl⟩) fun _ => True.intro

/-- The queue is open, and no worker has been told otherwise. -/
abbrev Staying (c : Config Op.Ans (Shared P) Party ThreadResult) : Prop :=
  System.Outline (fun _ => stayContract) (fun _ _ r => GoesOn r)
    (fun s _ => s.pool.senderAlive = true) c

/-- Steps other than the shutdown leave the queue open. -/
lemma stay_sound : System.Sound (pooledProxy P cfg) (fun _ a => a ≠ .env .shutdown)
    (fun _ => stayContract) (fun _ _ r => GoesOn r) (fun s _ => s.pool.senderAlive = true) := by
  refine proxy_sound (fun rpc => ?_) (fun _ _ w _ => iterate_stays P w)
    (fun c i e l o k a s' hc _ _ _ he => ?_) (fun c i l o k hc _ _ _ => ?_) fun c v hc hv => ?_
  · exact (pooled_only P cfg rpc).meets (fun o _ => ⟨True.intro, fun _ => rfl⟩) fun _ => True.intro
  · have halive : c.shared.pool.senderAlive = true := hc.inv
    by_cases hpool : ∃ q, o = .pool q
    · obtain ⟨q, rfl⟩ := hpool
      obtain ⟨p, hp, rfl⟩ := execOp_pool.mp he
      cases q with
      | count c n => cases hp; exact ⟨True.intro, halive⟩
      | respond j r => cases hp; exact ⟨True.intro, halive⟩
      | awaitResult j d =>
        obtain ⟨o, -, rfl, -⟩ := PoolState.exec_awaitResult hp
        exact ⟨True.intro, halive⟩
      | trySend request t =>
        obtain ⟨-, ⟨-, -, rfl⟩ | ⟨w, ws, -, -, -, rfl⟩ | ⟨-, -, -, -, rfl⟩ | ⟨-, -, -, -, rfl⟩⟩ :=
          PoolState.exec_trySend hp <;> exact ⟨True.intro, halive⟩
      | poll =>
        obtain ⟨job, rest, -, rfl, rfl⟩ | ⟨-, -, rfl, rfl⟩ | ⟨-, hclosed, -, -⟩ :=
          PoolState.exec_poll hp
        · exact ⟨Polled.noConfusion, halive⟩
        · exact ⟨Polled.noConfusion, halive⟩
        · rw [halive] at hclosed
          cases hclosed
      | unpark =>
        obtain ⟨job, -, rfl, rfl⟩ | ⟨-, hclosed, -, -⟩ := PoolState.exec_unpark hp
        · exact ⟨Option.some_ne_none job, halive⟩
        · rw [halive] at hclosed
          cases hclosed
    · refine ⟨?_, (execOp_frame he).pool (fun q hq => hpool ⟨q, hq⟩) ▸ halive⟩
      cases o with
      | pool q => exact absurd ⟨q, rfl⟩ hpool
      | _ => exact True.intro
  · cases l <;> exact hc.inv
  · cases v with
    | shutdown => exact absurd rfl hv
    | _ => exact hc.inv

/-- After the start the queue is open. -/
lemma staying_started {t₀ : ℕ} {sessions : List SessionHandle} {token : P.token.State} :
    Staying (started P t₀ sessions token) :=
  outline_started (fun _ => iterate_stays P _) rfl

/-! ## The owners of the pool -/

/-- What a handler does leaves the sampler's reference alone. -/
lemma sampler_mem_ownersAfter {c : Config Op.Ans (Shared P) Party ThreadResult}
    {a : Action Choice (EnvAction P) Party} {owners : List Owner} (h : Owner.sampler ∈ owners) :
    Owner.sampler ∈ ownersAfter c a owners := by
  have herase : ∀ i, Owner.sampler ∈ owners.erase (.loader i) :=
    fun i => (List.mem_erase_of_ne Owner.noConfusion).mpr h
  unfold ownersAfter
  split
  · split
    · unfold ownersAfterOp
      split
      · exact List.mem_append_left _ h
      · exact herase _
      · exact herase _
      · exact h
    · exact h
  · exact herase _
  · exact h

/-- How far `main` is: before it has spawned the sampler, after that, and without a runtime. -/
inductive MainPhase where
  | starting
  | sampled
  | over
  deriving DecidableEq, Repr

/-- One more step of `main`. -/
def MainPhase.next (g : MainPhase) : MainOp → MainPhase
  | .clone .sampler => .sampled
  | .dropRuntime => .over
  | _ => g

/-- The pool was not unwrapped. -/
def notUnwrapped : (o : MainOp) → o.Ans → Prop
  | .tryUnwrap, unwrapped => unwrapped = false
  | _, _ => True

/-- `main` serves, unwraps the pool and gives up the runtime after it has spawned the sampler, and
relies on not getting the pool; the sampler samples. -/
def mainContract (task : Task) : Contract MainOp.Ans MainPhase where
  init := .starting
  next g o _ := g.next o
  pre g o :=
    match task, o with
    | .main, .clone _ => g ≠ .over
    | .main, .serve => g = .sampled
    | .main, .tryUnwrap => g = .sampled
    | .main, .dropRuntime => g = .sampled
    | .main, _ => False
    | .sampler, o => o = .sample
  post _ o a := notUnwrapped o a

/-- `main` keeps to it, and does not drain the pool. -/
lemma tokioMain_meets :
    tokioMain.Meets (mainContract .main) (fun _ drained => drained = false) .starting := by
  refine ⟨MainPhase.noConfusion, fun _ _ => ⟨MainPhase.noConfusion, fun _ _ => ?_⟩⟩
  refine ⟨rfl, fun _ _ => ⟨rfl, fun unwrapped hunwrapped => ?_⟩⟩
  obtain rfl : unwrapped = false := hunwrapped
  exact ⟨rfl, fun _ _ => rfl⟩

/-- The sampler keeps to it. -/
lemma sampleRound_meets (g : MainPhase) :
    sampleRound.Meets (mainContract .sampler) (fun _ _ => True) g :=
  ⟨rfl, fun _ _ => True.intro⟩

/-- What `main` and the sampler end with. -/
def MainEnds : Task → MainPhase → Bool → Prop
  | .main, _, drained => drained = false
  | .sampler, _, _ => True

/-- How far `main` is, read off the trace. -/
def mainPhase (tr : List (Entry MainOp.Ans (Process P) Task)) : MainPhase :=
  (mainContract .main).ghost (histOf tr 0)

/-- A step of `main` moves it on. -/
lemma mainPhase_snoc (tr : List (Entry MainOp.Ans (Process P) Task)) (l : Task)
    (hist : List (Event MainOp.Ans)) (s : Process P) (ev : Event MainOp.Ans) :
    mainPhase (tr ++ [⟨0, l, hist, s, ev⟩]) = (mainPhase tr).next ev.1 := by
  rw [mainPhase, histOf_snoc, if_pos rfl, Contract.ghost_snoc]
  rfl

/-- As long as the runtime is up, the sampler owns the pool once it is spawned; in particular when the
server has stopped.  The pool is not unwrapped, and it is open until the runtime is dropped. -/
structure SamplerOwns (s : Process P) (tr : List (Entry MainOp.Ans (Process P) Task)) : Prop where
  up : mainPhase tr ≠ .over → s.runtime = true
  sampled : mainPhase tr = .sampled → Owner.sampler ∈ s.owners
  served : ∀ en ∈ tr, en.event.1 = .serve → s.runtime = true → Owner.sampler ∈ s.owners
  kept : ∀ en ∈ tr, notUnwrapped en.event.1 en.event.2
  quiet : ∀ en ∈ tr, en.event.1 ≠ .closeQueue ∧ en.event.1 ≠ .join
  staying : s.runtime = true → Staying s.proxy
  torn : ∀ en ∈ tr, en.event.1 = .dropRuntime → Staying en.before.proxy

/-- A pool that the sampler owns is not unwrapped. -/
lemma execMain_tryUnwrap {s s' : Process P} {unwrapped : Bool} (h : Owner.sampler ∈ s.owners)
    (he : execMain s .tryUnwrap = some (unwrapped, s')) : unwrapped = false := by
  simp only [execMain] at he
  split at he
  · rename_i howners
    rw [howners] at h
    exact absurd h (by decide)
  · cases he
    rfl

/-- The steps that neither close the queue nor drop the runtime leave the runtime and the proxy
alone. -/
lemma execMain_frame {s s' : Process P} {o : MainOp} {a : o.Ans} (hclose : o ≠ .closeQueue)
    (hdrop : o ≠ .dropRuntime) (he : execMain s o = some (a, s')) :
    s'.runtime = s.runtime ∧ s'.proxy = s.proxy := by
  cases o with
  | clone owner =>
    cases he
    exact ⟨rfl, rfl⟩
  | closeQueue => exact absurd rfl hclose
  | dropRuntime => exact absurd rfl hdrop
  | _ =>
    simp only [execMain] at he
    split at he <;> cases he <;> exact ⟨rfl, rfl⟩

/-- The sampler's reference stays until the pool is unwrapped or the runtime dropped. -/
lemma sampler_mem_of_mem {s s' : Process P} {o : MainOp} {a : o.Ans}
    (h : Owner.sampler ∈ s.owners) (he : execMain s o = some (a, s'))
    (hkept : notUnwrapped o a) (hdrop : o ≠ .dropRuntime) : Owner.sampler ∈ s'.owners := by
  have herase : ∀ owner, owner ≠ Owner.sampler → Owner.sampler ∈ s.owners.erase owner :=
    fun owner hne => (List.mem_erase_of_ne (Ne.symm hne)).mpr h
  cases o with
  | clone owner =>
    cases he
    exact List.mem_append_left _ h
  | serve =>
    simp only [execMain] at he
    split at he
    · cases he
      exact herase .service Owner.noConfusion
    · cases he
  | tryUnwrap =>
    simp only [execMain] at he
    split at he
    · cases he
      cases hkept
    · cases he
      exact herase .main Owner.noConfusion
  | closeQueue =>
    cases he
    exact h
  | dropRuntime => exact absurd rfl hdrop
  | join =>
    simp only [execMain] at he
    split at he
    · cases he
      exact h
    · cases he
  | sample =>
    rw [execMain, if_pos h] at he
    cases he
    exact h

namespace SamplerOwns

variable {s s' : Process P} {tr : List (Entry MainOp.Ans (Process P) Task)}
  {hist : List (Event MainOp.Ans)}

/-- The runtime is dropped, and with it the sampler: until then the pool was kept. -/
lemma dropRuntime (h : SamplerOwns s tr) {a : Unit} (hphase : mainPhase tr = .sampled)
    (he : execMain s .dropRuntime = some (a, s')) :
    SamplerOwns s' (tr ++ [⟨0, .main, hist, s, ⟨.dropRuntime, a⟩⟩]) := by
  have hup : s.runtime = true := h.up (by rw [hphase]; exact MainPhase.noConfusion)
  cases he
  refine ⟨fun hover => ?_, fun hsampled => ?_, fun _ _ _ hrun => ?_, forall_mem_snoc h.kept True.intro,
    forall_mem_snoc h.quiet ⟨MainOp.noConfusion, MainOp.noConfusion⟩, fun hrun => ?_, forall_mem_snoc h.torn fun _ => h.staying hup⟩
  · rw [mainPhase_snoc] at hover
    exact absurd rfl hover
  · rw [mainPhase_snoc] at hsampled
    cases hsampled
  · cases hrun
  · cases hrun

/-- Another step of `main` leaves the runtime and the proxy alone, and the pool to the sampler. -/
lemma ofMain (h : SamplerOwns s tr) {o : MainOp} {a : o.Ans}
    (hpre : (mainContract .main).pre (mainPhase tr) o) (he : execMain s o = some (a, s'))
    (hnot : notUnwrapped o a) (hquiet : o ≠ .closeQueue ∧ o ≠ .join) (hdrop : o ≠ .dropRuntime) :
    SamplerOwns s' (tr ++ [⟨0, .main, hist, s, ⟨o, a⟩⟩]) := by
  obtain ⟨hruntime, hproxy⟩ := execMain_frame hquiet.1 hdrop he
  have hmem : Owner.sampler ∈ s.owners → Owner.sampler ∈ s'.owners :=
    fun hs => sampler_mem_of_mem hs he hnot hdrop
  refine ⟨fun hover => ?_, fun hsampled => ?_, ?_, forall_mem_snoc h.kept hnot,
    forall_mem_snoc h.quiet hquiet, ?_, forall_mem_snoc h.torn fun hev => absurd hev hdrop⟩
  · rw [hruntime]
    refine h.up fun hphase => hover ?_
    -- `main` takes no step without a runtime
    cases o with
    | clone owner => exact absurd hphase hpre
    | serve => cases hphase.symm.trans hpre
    | tryUnwrap => cases hphase.symm.trans hpre
    | dropRuntime => exact absurd rfl hdrop
    | _ => cases hpre
  · rw [mainPhase_snoc] at hsampled
    cases o with
    | clone owner =>
      cases owner with
      | sampler =>
        cases he
        exact List.mem_append_right _ (List.mem_singleton_self _)
      | _ => exact hmem (h.sampled hsampled)
    | dropRuntime => exact absurd rfl hdrop
    | _ => exact hmem (h.sampled hsampled)
  · rw [hruntime]
    refine forall_mem_snoc (fun en hen hev hrun => hmem (h.served en hen hev hrun)) ?_
    rintro hev -
    obtain rfl : o = .serve := hev
    exact hmem (h.sampled hpre)
  · rw [hruntime, hproxy]
    exact h.staying

/-- A step of `main`. -/
lemma main (h : SamplerOwns s tr) {o : MainOp} {a : o.Ans}
    (hpre : (mainContract .main).pre (mainPhase tr) o) (he : execMain s o = some (a, s')) :
    notUnwrapped o a ∧ SamplerOwns s' (tr ++ [⟨0, .main, hist, s, ⟨o, a⟩⟩]) := by
  have hnot : notUnwrapped o a := by
    cases o with
    | tryUnwrap => exact execMain_tryUnwrap (h.sampled hpre) he
    | _ => exact True.intro
  have hquiet : o ≠ .closeQueue ∧ o ≠ .join := by
    constructor <;> rintro rfl <;> cases hpre
  refine ⟨hnot, ?_⟩
  by_cases hdrop : o = .dropRuntime
  · subst hdrop
    exact h.dropRuntime hpre he
  · exact h.ofMain hpre he hnot hquiet hdrop

/-- A step of the sampler. -/
lemma sampler (h : SamplerOwns s tr) {i : ℕ} {a : Unit}
    (he : execMain s .sample = some (a, s')) :
    SamplerOwns s' (tr ++ [⟨i, .sampler, hist, s, ⟨.sample, a⟩⟩]) := by
  have hsame : s' = s := by
    simp only [execMain] at he
    split at he
    · cases he
      rfl
    · cases he
  have hphase : mainPhase (tr ++ [⟨i, .sampler, hist, s, ⟨.sample, a⟩⟩]) = mainPhase tr := by
    by_cases hi : i = 0
    · rw [hi, mainPhase_snoc]
      rfl
    · rw [mainPhase, histOf_snoc, if_neg hi]
      rfl
  rw [hsame]
  refine ⟨?_, ?_, ?_, forall_mem_snoc h.kept True.intro, ?_, h.staying, ?_⟩
  · rw [hphase]
    exact h.up
  · rw [hphase]
    exact h.sampled
  · exact forall_mem_snoc h.served fun hev => by cases hev
  · exact forall_mem_snoc h.quiet ⟨MainOp.noConfusion, MainOp.noConfusion⟩
  · exact forall_mem_snoc h.torn fun hev => by cases hev

/-- A step of what is around them. -/
lemma process (h : SamplerOwns s tr) {v : ProcessAction P} (hv : processStep cfg s v = some s') :
    SamplerOwns s' tr := by
  cases v with
  | signal =>
    cases hv
    exact ⟨h.up, h.sampled, h.served, h.kept, h.quiet, h.staying, h.torn⟩
  | proxy a =>
    simp only [processStep] at hv
    split at hv
    · rename_i hoccurs
      obtain ⟨d, hd, rfl⟩ := Option.map_eq_some_iff.mp hv
      have ha : a ≠ .env .shutdown := by
        rintro rfl
        cases hoccurs
      exact ⟨h.up, fun hsampled => sampler_mem_ownersAfter (h.sampled hsampled),
        fun en hen hev hrun => sampler_mem_ownersAfter (h.served en hen hev hrun), h.kept, h.quiet,
        fun hrun => (stay_sound cfg).step (h.staying hrun) ha hd, h.torn⟩
    · cases hv

end SamplerOwns

/-- `main` is the first thread. -/
def mainFirst (i : ℕ) (label : Task) : Prop := label = .main → i = 0

/-- The obligations of the shared-invariant method. -/
lemma main_sound : System.Sound (mainSystem P cfg) (fun c _ => System.Placed mainFirst c) mainContract
    MainEnds SamplerOwns where
  body l hl := by cases hl
  again l g r p _ hp := by
    cases l with
    | main => cases hp
    | sampler =>
      obtain rfl := Option.some.inj hp
      exact sampleRound_meets g
  exec c i e l o k a s' hc hfirst ht hpre he := by
    cases l with
    | main =>
      obtain rfl : i = 0 := hfirst i _ ht rfl
      exact hc.inv.main hpre he
    | sampler =>
      obtain rfl : o = .sample := hpre
      exact ⟨True.intro, hc.inv.sampler he⟩
  cancel c i l o k _ _ _ hd := by cases hd
  env c v s' hc _ hv := hc.inv.process cfg hv

section

variable {t₀ : ℕ} {sessions : List SessionHandle} {token : P.token.State}

/-- The two tasks of a process that has started. -/
lemma thread_of_mainStarted {i : ℕ} {t : Thread MainOp.Ans Task Bool}
    (hi : (mainStarted P t₀ sessions token).threads i = some t) :
    (i = 0 ∧ t = ⟨.main, [], tokioMain⟩) ∨ (i = 1 ∧ t = ⟨.sampler, [], sampleRound⟩) := by
  match i, hi with
  | 0, hi =>
    cases hi
    exact Or.inl ⟨rfl, rfl⟩
  | 1, hi =>
    cases hi
    exact Or.inr ⟨rfl, rfl⟩

/-- The outline of the process after `Pool::start`. -/
lemma main_started :
    System.Outline mainContract MainEnds SamplerOwns (mainStarted P t₀ sessions token) := by
  refine ⟨System.Recorded.start (fun i hi => ?_) (fun i t hi => ?_) rfl, ⟨fun _ => rfl, ?_, ?_, ?_,
    ?_, fun _ => staying_started, ?_⟩, fun i t hi => ?_⟩
  · match i, hi with
    | i + 2, _ => rfl
  · rcases thread_of_mainStarted hi with ⟨-, rfl⟩ | ⟨-, rfl⟩ <;> rfl
  · intro hsampled
    cases hsampled
  · exact fun en hen => absurd hen List.not_mem_nil
  · exact fun en hen => absurd hen List.not_mem_nil
  · exact fun en hen => absurd hen List.not_mem_nil
  · exact fun en hen => absurd hen List.not_mem_nil
  · rcases thread_of_mainStarted hi with ⟨-, rfl⟩ | ⟨-, rfl⟩
    · exact tokioMain_meets
    · exact sampleRound_meets .starting

/-- `main` stays the first thread. -/
lemma mainFirst_throughout (as : List (Action Unit (ProcessAction P) Task)) :
    (mainSystem P cfg).Throughout (fun c _ => System.Placed mainFirst c)
      (mainStarted P t₀ sessions token) as := by
  refine System.throughout_invariant (fun c a c' hc h => ?_) fun i t hi hlabel => ?_
  · exact hc.step (fun _ => rfl) h
  · rcases thread_of_mainStarted hi with ⟨rfl, -⟩ | ⟨-, rfl⟩
    · rfl
    · cases hlabel

end

/-- No worker of an open queue has left. -/
lemma Staying.not_left {c : Config Op.Ans (Shared P) Party ThreadResult} (hc : Staying c) (i : ℕ)
    (session : SessionHandle) : c.returned i ≠ some (.worker session, .round none) := by
  intro hi
  obtain ⟨hist, ht⟩ := System.exists_returned hi
  exact hc.threads i _ ht

/-- In no run does `main` get the pool back.  When the server has stopped, the sampler still owns it,
until the runtime is dropped; `Arc::try_unwrap` fails whenever it is called, and `Pool::shutdown`
neither closes the queue nor joins a worker.  The queue is open and no worker has left as long as the
runtime is up, in particular when `main` has returned and the runtime is about to be dropped; and what
`main` returns is that it has not drained the pool. -/
theorem pool_never_drained {t₀ : ℕ} {sessions : List SessionHandle} {token : P.token.State}
    {as : List (Action Unit (ProcessAction P) Task)} {c : Config MainOp.Ans (Process P) Task Bool}
    (hrun : (mainSystem P cfg).run (mainStarted P t₀ sessions token) as = some c) :
    (∀ en ∈ c.trace, en.event.1 = .serve → c.shared.runtime = true →
      Owner.sampler ∈ c.shared.owners) ∧
    (∀ en ∈ c.trace, ∀ unwrapped, en.event = ⟨.tryUnwrap, unwrapped⟩ → unwrapped = false) ∧
    (∀ en ∈ c.trace, en.event.1 ≠ .closeQueue ∧ en.event.1 ≠ .join) ∧
    (c.shared.runtime = true → c.shared.proxy.shared.pool.senderAlive = true ∧
      ∀ i session, c.shared.proxy.returned i ≠ some (.worker session, .round none)) ∧
    (∀ en ∈ c.trace, en.event.1 = .dropRuntime →
      en.before.proxy.shared.pool.senderAlive = true ∧
      ∀ i session, en.before.proxy.returned i ≠ some (.worker session, .round none)) ∧
    ∀ i drained, c.returned i = some (.main, drained) → drained = false := by
  have hc := (main_sound cfg).run main_started (mainFirst_throughout cfg as) hrun
  have hinv := hc.inv
  refine ⟨hinv.served, fun en hen unwrapped hev => ?_, hinv.quiet, fun hup => ?_,
    fun en hen hev => ?_, fun i drained hi => ?_⟩
  · have hnot := hinv.kept en hen
    rw [hev] at hnot
    exact hnot
  · exact ⟨(hinv.staying hup).inv, (hinv.staying hup).not_left⟩
  · exact ⟨(hinv.torn en hen hev).inv, (hinv.torn en hen hev).not_left⟩
  · obtain ⟨hist, ht⟩ := System.exists_returned hi
    exact hc.threads i _ ht

end

/-- The server starts and is stopped without a request. -/
def idleRun : List (Action Unit (ProcessAction anyPlatform) Task) :=
  [.exec 0 (), .exec 0 (), .exec 1 (), .env .signal, .exec 0 (), .exec 0 ()]

/-- Even then `main` leaves the pool to the sampler, with the queue open. -/
theorem pool_never_drained_idle :
    ∃ c : Config MainOp.Ans (Process anyPlatform) Task Bool,
      (mainSystem anyPlatform (.plain 1 10)).run (mainStarted _ 0 [7] ()) idleRun = some c ∧
      (c.shared.runtime = true ∧ c.shared.owners = [.sampler]) ∧
      c.shared.proxy.shared.pool.senderAlive = true := by
  have hend : ((mainSystem anyPlatform (.plain 1 10)).run (mainStarted _ 0 [7] ()) idleRun).map
      (fun c => (c.shared.runtime, c.shared.owners)) = some (true, [.sampler]) := by
    decide +kernel
  obtain ⟨c, hrun, hc⟩ := Option.map_eq_some_iff.mp hend
  obtain ⟨hup, howners⟩ := Prod.mk.inj hc
  exact ⟨c, hrun, ⟨hup, howners⟩, ((pool_never_drained _ hrun).2.2.2.1 hup).1⟩

/-- A signature is queued, its caller gives up, the server is stopped, and `main` returns. -/
def abandonedRun : List (Action Unit (ProcessAction anyPlatform) Task) :=
  [.exec 0 (), .exec 0 (), .env (.proxy (.spawn (.rpc signCall)))] ++
    List.replicate 5 (.env (.proxy (.exec 1 .success))) ++
    [.env (.proxy (.cancel 1)), .env .signal, .exec 0 (), .exec 0 (), .exec 0 ()]

/-- `main` has returned, and the runtime is gone, while the accepted job is still in the queue and the
worker has not left. -/
theorem queued_job_not_drained :
    ((mainSystem anyPlatform (.plain 1 10)).run (mainStarted _ 0 [7] ()) abandonedRun).map
      (fun c => ((c.returned 0, c.shared.runtime), (c.shared.proxy.shared.pool.queue.length,
        c.shared.proxy.shared.pool.counters .jobsCompleted, workersGone c.shared.proxy))) =
      some ((some (.main, false), false), (1, 0, false)) := by
  decide +kernel

end HsmProxy
