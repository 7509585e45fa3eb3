import HsmProxy.Grpc.Plan
import HsmProxy.Pkcs11.WorkerSteps
import HsmProxy.Service.Steps

/-!
# The handle map of a worker

What a worker has found on its session can be read off its history: `HandleLog` keeps the job it is
executing, the successful searches since the last reset, and how many jobs it took and handles it
resolved.  The contract `handleContract` says which calls a worker may make after such a history,
every round meets it (`iterate_meets`), and the worker's map agrees with the log between rounds
(`Agrees`).
-/

namespace HsmProxy

open Interleaving Interleaving.Prog

/-- A search that found an object. -/
structure Search where
  session : SessionHandle
  objectClass : ObjectClass
  label : String
  handle : ObjectHandle
  deriving DecidableEq

/-- What a search was for. -/
def Search.key (f : Search) : ObjectClass × String := (f.objectClass, f.label)

/-- The steps a worker takes only when the lookup of its job has been counted: the search a miss leads
to, the calls on an object, the response, and asking for the next job. -/
def Op.needsResolved : Op → Bool
  | .pool .poll => true
  | .pool .unpark => true
  | .pool (.respond _ _) => true
  | .token (.findObjects _ _ _) => true
  | o => o.usesHandle.isSome

/-- What a worker's history says about handles. -/
structure HandleLog where
  /-- The job taken last. -/
  job : Option JobRequest
  /-- The jobs taken whose handle has not been resolved yet. -/
  unresolved : ℕ
  /-- The successful searches since the last reset of the session. -/
  found : List Search
  /-- The number of jobs taken. -/
  jobs : ℕ
  /-- The number of handle resolutions, from the map or by a search. -/
  resolved : ℕ

namespace HandleLog

/-- Nothing has happened. -/
def start : HandleLog := ⟨none, 0, [], 0, 0⟩

/-- A job is taken. -/
def take (g : HandleLog) (request : JobRequest) : HandleLog :=
  { g with job := some request, unresolved := g.unresolved + 1, jobs := g.jobs + 1 }

/-- A handle resolution is counted. -/
def resolve (g : HandleLog) (n : ℕ) : HandleLog :=
  { g with unresolved := g.unresolved - n, resolved := g.resolved + n }

/-- One more event. -/
def note (g : HandleLog) : Event Op.Ans → HandleLog
  | ⟨.pool .poll, .job job⟩ => g.take job.request
  | ⟨.pool .unpark, some job⟩ => g.take job.request
  | ⟨.pool (.count .handleCacheHits n), _⟩ => g.resolve n
  | ⟨.pool (.count .handleCacheMisses n), _⟩ => g.resolve n
  | ⟨.pool (.count .sessionResets _), _⟩ => { g with found := [] }
  | ⟨.token (.findObjects session objectClass label), .ok (handle :: _)⟩ =>
    { g with found := g.found ++ [⟨session, objectClass, label, handle⟩] }
  | _ => g

/-- The handle may be used: it was found on this session for the label and the class of the job. -/
def Usable (g : HandleLog) (session : SessionHandle) (handle : ObjectHandle) : Prop :=
  ∃ job, g.job = some job ∧ ⟨session, job.kind.objectClass, job.keyLabel, handle⟩ ∈ g.found

/-- The steps a worker may take. -/
def Allows (g : HandleLog) (o : Op) : Prop :=
  (∀ session handle, o.usesHandle = some (session, handle) → g.Usable session handle) ∧
    (o.needsResolved → g.unresolved = 0) ∧
    match o with
    | .pool (.count .handleCacheHits n) => g.unresolved = 1 ∧ n = 1
    | .pool (.count .handleCacheMisses n) => g.unresolved = 1 ∧ n = 1
    | .token (.findObjects _ objectClass label) => ∀ f ∈ g.found, f.key ≠ (objectClass, label)
    | _ => True

end HandleLog

/-- What the history of a thread says about handles. -/
def handleLog (h : List (Event Op.Ans)) : HandleLog := h.foldl HandleLog.note HandleLog.start

/-- One more event. -/
lemma handleLog_snoc (h : List (Event Op.Ans)) (ev : Event Op.Ans) :
    handleLog (h ++ [ev]) = (handleLog h).note ev := by
  simp [handleLog, List.foldl_append]

/-- A worker takes the steps its log allows, a handler takes none that changes the log. -/
def handleContract (party : Party) : Contract Op.Ans HandleLog where
  init := HandleLog.start
  next g o a := g.note ⟨o, a⟩
  pre g o := match party with
    | .rpc _ => o.ofHandler
    | .worker _ => g.Allows o
  post _ _ _ := True

/-- The worker's map holds exactly what the log has found, all on the present session, and nothing
under any other label. -/
structure Agrees (w : Worker) (g : HandleLog) : Prop where
  cached : ∀ kind label handle, w.cached kind label = some handle →
    ⟨w.session, kind.objectClass, label, handle⟩ ∈ g.found
  found : ∀ f ∈ g.found, ∃ kind, f.objectClass = kind.objectClass ∧
    w.cached kind f.label = some f.handle
  labels : ∀ label ∈ w.handles, ∃ kind handle, w.cached kind label = some handle

/-- A new worker has nothing cached. -/
lemma cached_empty (session : SessionHandle) (kind : KeyKind) (label : String) :
    Worker.cached ⟨session, ∅⟩ kind label = none := by
  simp [Worker.cached]

/-- An empty map agrees with a log that has found nothing since the last reset. -/
lemma Agrees.empty {g : HandleLog} (session : SessionHandle) (hg : g.found = []) :
    Agrees ⟨session, ∅⟩ g where
  cached kind label handle h := by
    rw [cached_empty] at h
    cases h
  found f hf := by
    rw [hg] at hf
    cases hf
  labels label hlabel := absurd hlabel (AList.notMem_empty label)

/-- What is cached after a handle was stored. -/
lemma cached_store (w : Worker) (kind kind' : KeyKind) (label label' : String)
    (handle : ObjectHandle) :
    (w.store kind label handle).cached kind' label' =
      if kind' = kind ∧ label' = label then some handle else w.cached kind' label' := by
  by_cases hlabel : label' = label
  · subst hlabel
    cases hold : w.handles.lookup label' <;> cases kind <;> cases kind' <;>
      simp [Worker.cached, Worker.store, KeyHandles.set, KeyHandles.get, KeyHandles.default, hold]
  · simp [Worker.cached, Worker.store, AList.lookup_insert_ne hlabel, hlabel]

/-- A search that finds an object, and its storing, keep the agreement. -/
lemma Agrees.store {w : Worker} {g : HandleLog} (h : Agrees w g) (kind : KeyKind) (label : String)
    (handle : ObjectHandle) (hnew : w.cached kind label = none) :
    Agrees (w.store kind label handle)
      { g with found := g.found ++ [⟨w.session, kind.objectClass, label, handle⟩] } where
  cached kind' label' handle' hc := by
    rw [cached_store] at hc
    split at hc
    · rename_i heq
      obtain ⟨rfl, rfl⟩ := heq
      obtain rfl := Option.some.inj hc
      exact List.mem_append_right _ (List.mem_singleton_self _)
    · exact List.mem_append_left _ (h.cached kind' label' handle' hc)
  found f hf := by
    rcases List.mem_append.mp hf with hf | hf
    · obtain ⟨kind', hclass, hc⟩ := h.found f hf
      refine ⟨kind', hclass, ?_⟩
      rw [cached_store, if_neg, hc]
      rintro ⟨rfl, hlabel⟩
      rw [hlabel, hnew] at hc
      cases hc
    · obtain rfl := List.mem_singleton.mp hf
      exact ⟨kind, rfl, by simp [cached_store]⟩
  labels label' hlabel' := by
    by_cases hlabel : label' = label
    · exact ⟨kind, handle, by simp [cached_store, hlabel]⟩
    · have hold : label' ∈ w.handles :=
        (AList.mem_insert (s := w.handles)).mp hlabel' |>.resolve_left hlabel
      obtain ⟨kind', handle', hc⟩ := h.labels label' hold
      refine ⟨kind', handle', ?_⟩
      rw [cached_store, if_neg fun heq => hlabel heq.2, hc]

/-- What the log has not found is not cached, so a search for it is new. -/
lemma Agrees.not_found {w : Worker} {g : HandleLog} (h : Agrees w g) {kind : KeyKind}
    {label : String} (hnew : w.cached kind label = none) :
    ∀ f ∈ g.found, f.key ≠ (kind.objectClass, label) := by
  intro f hf hkey
  obtain ⟨kind', hclass, hc⟩ := h.found f hf
  obtain ⟨hclass', hlabel⟩ := Prod.mk.inj hkey
  have hkind : kind' = kind := by
    rw [hclass] at hclass'
    cases kind' <;> cases kind <;> first | rfl | cases hclass'
  rw [hkind, hlabel, hnew] at hc
  cases hc

/-! ## A round meets the contract -/

/-- The steps of a worker that say nothing about handles. -/
def Op.leavesHandles (o : Op) : Bool :=
  o.opensSession || Worker.accounts o ||
    match o with
    | .now => true
    | .token (.logout _) => true
    | _ => false

/-- Such steps are allowed, but for the response before the lookup, and change nothing. -/
lemma handleContract_leaves {session : SessionHandle} {g : HandleLog} {o : Op}
    (ho : o.leavesHandles) (hun : o.needsResolved → g.unresolved = 0) :
    (handleContract (.worker session)).pre g o ∧
      ∀ a, (handleContract (.worker session)).next g o a = g := by
  cases o with
  | now => exact ⟨⟨(fun _ _ h => by cases h), hun, True.intro⟩, fun _ => rfl⟩
  | token t =>
    cases t <;> first
      | exact absurd ho Bool.false_ne_true
      | exact ⟨⟨(fun _ _ h => by cases h), hun, True.intro⟩, fun _ => rfl⟩
  | pool q =>
    cases q with
    | count c n =>
      cases c <;> first
        | exact absurd ho Bool.false_ne_true
        | exact ⟨⟨(fun _ _ h => by cases h), hun, True.intro⟩, fun _ => rfl⟩
    | respond j r => exact ⟨⟨(fun _ _ h => by cases h), hun, True.intro⟩, fun _ => rfl⟩
    | _ => cases ho
  | _ => cases ho

/-- Calls on a usable handle are allowed, and change nothing. -/
lemma handleContract_uses {session : SessionHandle} {g : HandleLog} {o : Op}
    {s : SessionHandle} {handle : ObjectHandle} (ho : o.usesHandle = some (s, handle))
    (hg : g.Usable s handle) (hun : g.unresolved = 0) : (handleContract (.worker session)).pre g o ∧
      ∀ a, (handleContract (.worker session)).next g o a = g := by
  have huse : ∀ s' handle', o.usesHandle = some (s', handle') → g.Usable s' handle' := by
    intro s' handle' h
    rw [ho] at h
    obtain ⟨rfl, rfl⟩ := Prod.mk.inj (Option.some.inj h)
    exact hg
  cases o with
  | token t =>
    cases t <;> first
      | exact ⟨⟨huse, fun _ => hun, True.intro⟩, fun _ => rfl⟩
      | cases ho
  | _ => cases ho

section

variable (P : Platform) {session : SessionHandle} {g : HandleLog}

/-- Between rounds the worker's map agrees with its log, and every job taken has been resolved. -/
def Settled (g : HandleLog) (w : Worker) : Prop := Agrees w g ∧ g.unresolved = 0

/-- Resolving the handle of the job just taken. -/
lemma resolve_meets {w : Worker} {request : JobRequest} (hw : Agrees w g) (hun : g.unresolved = 1)
    (hjob : g.job = some request) :
    (w.resolve request.kind request.keyLabel).Meets (handleContract (.worker session))
      (Worker.Resolved (fun g' w' key => Settled g' w' ∧ g'.Usable w'.session key)
        fun g' w' _ => Settled g' w') g := by
  have hun' : g.unresolved - 1 = 0 := by omega
  unfold Worker.resolve
  cases hc : w.cached request.kind request.keyLabel with
  | some handle =>
    refine ⟨⟨(fun _ _ h => by cases h), (fun h => by cases h), hun, rfl⟩, fun _ _ => ⟨⟨?_, hun'⟩, ?_⟩⟩
    · exact ⟨hw.cached, hw.found, hw.labels⟩
    · exact ⟨request, hjob, hw.cached _ _ _ hc⟩
  | none =>
    refine ⟨⟨(fun _ _ h => by cases h), (fun h => by cases h), hun, rfl⟩, fun _ _ => ?_⟩
    refine ⟨⟨(fun _ _ h => by cases h), fun _ => hun', hw.not_found hc⟩, fun found _ => ?_⟩
    rcases found with e | (_ | ⟨handle, rest⟩)
    · exact ⟨⟨hw.cached, hw.found, hw.labels⟩, hun'⟩
    · exact ⟨⟨hw.cached, hw.found, hw.labels⟩, hun'⟩
    · have hstored := hw.store request.kind request.keyLabel handle hc
      refine ⟨⟨⟨hstored.cached, hstored.found, hstored.labels⟩, hun'⟩, ?_⟩
      exact ⟨request, hjob, List.mem_append_right _ (List.mem_singleton_self _)⟩

/-- A reset leaves an empty map, whether a session could be opened or not. -/
lemma resetSession_meets {w : Worker} (hun : g.unresolved = 0) :
    (Worker.resetSession P w).Meets (handleContract (.worker session)) Settled g := by
  refine ⟨⟨(fun _ _ h => by cases h), fun _ => hun, True.intro⟩, fun _ _ => ?_⟩
  show Meets _ _ _ (openWorkerSession P >>= _)
  rw [meets_bind]
  refine (Worker.openWorkerSession_only P).meets
    (fun o ho => handleContract_leaves ?_ fun _ => hun) fun r => ?_
  · simp [Op.leavesHandles, ho]
  · rcases r with e | session'
    · exact ⟨Agrees.empty _ rfl, hun⟩
    · refine ⟨(handleContract_leaves rfl fun h => by cases h).1, fun _ _ => ?_⟩
      exact ⟨Agrees.empty _ rfl, hun⟩

/-- Executing the job just taken. -/
lemma execute_meets {w : Worker} {request : JobRequest} (hw : Agrees w g) (hun : g.unresolved = 1)
    (hjob : g.job = some request) :
    (Worker.execute P w request).Meets (handleContract (.worker session))
      (fun g' r => Settled g' r.2) g := by
  refine Worker.meets_execute _ _ (fun g' w' _ => Settled g' w') (resolve_meets hw hun hjob)
    (fun _ _ _ hset => hset) (fun g' w' key hready => ?_) (fun _ _ _ _ hset => hset)
    fun g' w' _ hset => resetSession_meets P hset.2
  obtain ⟨hset, huse⟩ := hready
  exact (Worker.operation_only P request w'.session key).meets
    (fun o ho => handleContract_uses ho huse hset.2) fun _ => hset

/-- A round keeps the agreement. -/
theorem iterate_meets {w : Worker} (hw : Settled g w) :
    (Worker.iterate P w).Meets (handleContract (.worker session))
      (fun g' r => ∀ w', r = some w' → Settled g' w') g := by
  obtain ⟨hagree, hun⟩ := hw
  refine Worker.meets_iterate
    (fun g' received => g' = received.elim g fun job => g.take job.request)
    (fun _ g' r => Settled g' r.2) ?_ (fun g' job hg' => ?_) (fun g' job r hset => ?_)
    fun g' hg' => ?_
  · refine Worker.meets_recv ⟨(fun _ _ h => by cases h), fun _ => hun, True.intro⟩ (fun _ _ => rfl)
      (fun _ => rfl) fun _ => ?_
    refine ⟨⟨(fun _ _ h => by cases h), fun _ => hun, True.intro⟩, fun handed _ => ?_⟩
    cases handed <;> rfl
  · obtain rfl : g' = g.take job.request := hg'
    have htaken : (g.take job.request).unresolved = 1 := by simp [HandleLog.take, hun]
    refine ⟨(handleContract_leaves rfl fun h => by cases h).1, fun started => ?_⟩
    exact execute_meets P ⟨hagree.cached, hagree.found, hagree.labels⟩ htaken rfl
  · refine ⟨(handleContract_leaves rfl fun h => by cases h).1, fun started finished => ?_⟩
    refine (Worker.account_only job started finished r.1).meets
      (fun o ho => handleContract_leaves ?_ fun _ => hset.2) fun _ w' hw' => ?_
    · simp [Op.leavesHandles, ho]
    · obtain rfl := Option.some.inj hw'
      exact hset
  · obtain rfl : g' = g := hg'
    refine ⟨(handleContract_leaves rfl fun h => by cases h).1, fun _ _ => ?_⟩
    refine ⟨(handleContract_leaves rfl fun h => by cases h).1, fun _ _ w' hw' => ?_⟩
    cases hw'

end

/-! ## Every run -/

/-- Steps of a handler say nothing about handles. -/
lemma note_of_ofHandler {g : HandleLog} {o : Op} (ho : o.ofHandler) (a : o.Ans) :
    g.note ⟨o, a⟩ = g := by
  cases o with
  | pool q =>
    cases q with
    | count c n => cases c <;> first | exact absurd ho Bool.false_ne_true | rfl
    | poll => exact absurd ho Bool.false_ne_true
    | unpark => exact absurd ho Bool.false_ne_true
    | _ => rfl
  | token t => exact absurd ho Bool.false_ne_true
  | _ => rfl

/-- Handlers make no call on an object. -/
lemma usesHandle_of_ofHandler {o : Op} (ho : o.ofHandler) : o.usesHandle = none := by
  cases o with
  | token t => exact absurd ho Bool.false_ne_true
  | _ => rfl

/-- Nothing is found twice between two resets, and every job taken is resolved once, but for the last
one, which may have yet to be. -/
structure HandleLog.Sound (g : HandleLog) : Prop where
  nodup : (g.found.map Search.key).Nodup
  jobs : g.jobs = g.resolved + g.unresolved
  last : g.unresolved ≤ 1

/-- An allowed step keeps the log sound. -/
lemma HandleLog.Sound.note {g : HandleLog} (hg : g.Sound) {o : Op} (ho : g.Allows o) (a : o.Ans) :
    (g.note ⟨o, a⟩).Sound := by
  have hjobs := hg.jobs
  have htake : ∀ request, g.unresolved = 0 → (g.take request).Sound := fun request hun =>
    ⟨hg.nodup, by simp only [HandleLog.take]; omega, by simp only [HandleLog.take]; omega⟩
  have hresolve : g.unresolved = 1 → (g.resolve 1).Sound := fun hun =>
    ⟨hg.nodup, by simp only [HandleLog.resolve]; omega, by simp only [HandleLog.resolve]; omega⟩
  cases o with
  | pool q =>
    cases q with
    | poll => cases a <;> first | exact htake _ (ho.2.1 rfl) | exact hg
    | unpark => cases a <;> first | exact htake _ (ho.2.1 rfl) | exact hg
    | count c n =>
      cases c with
      | handleCacheHits =>
        obtain ⟨hun, rfl⟩ := ho.2.2
        exact hresolve hun
      | handleCacheMisses =>
        obtain ⟨hun, rfl⟩ := ho.2.2
        exact hresolve hun
      | sessionResets => exact ⟨List.nodup_nil, hg.jobs, hg.last⟩
      | _ => exact hg
    | _ => exact hg
  | token t =>
    cases t with
    | findObjects session objectClass label =>
      rcases a with e | handles
      · exact hg
      · cases handles with
        | nil => exact hg
        | cons handle rest =>
          refine ⟨?_, hg.jobs, hg.last⟩
          show ((g.found ++ [_]).map Search.key).Nodup
          rw [List.map_append, List.map_singleton, List.nodup_append_comm, List.singleton_append,
            List.nodup_cons]
          refine ⟨fun hmem => ?_, hg.nodup⟩
          obtain ⟨f, hf, hkey⟩ := List.mem_map.mp hmem
          exact ho.2.2 f hf hkey
    | _ => exact hg
  | _ => exact hg

/-- An event resolves what it counts. -/
lemma resolved_note (g : HandleLog) (ev : Event Op.Ans) : (g.note ev).resolved =
    g.resolved + (counted .handleCacheHits ev + counted .handleCacheMisses ev) := by
  obtain ⟨o, a⟩ := ev
  cases o with
  | pool q =>
    cases q with
    | poll => cases a <;> rfl
    | unpark => cases a <;> rfl
    | count c n => cases c <;> simp [HandleLog.note, HandleLog.resolve, counted]
    | _ => rfl
  | token t =>
    cases t with
    | findObjects session objectClass label =>
      rcases a with e | handles
      · rfl
      · cases handles <;> rfl
    | _ => rfl
  | _ => rfl

/-- The resolutions of a log are those that were counted. -/
lemma resolved_handleLog (h : List (Event Op.Ans)) : (handleLog h).resolved =
    total (counted .handleCacheHits) h + total (counted .handleCacheMisses) h := by
  induction h using List.reverseRecOn with
  | nil => rfl
  | append_singleton h ev ih =>
    rw [handleLog_snoc, total_snoc, total_snoc, resolved_note, ih]
    omega

section

variable {P : Platform} {cfg : ServiceConfig} {t₀ : ℕ} {sessions : List SessionHandle}
  {token : P.token.State} {as : List (Action Choice (EnvAction P) Party)}
  {c : Config Op.Ans (Shared P) Party ThreadResult}
  {serve : Rpc → Program (Except Status RpcResponse)}

/-- What a thread's program leaves behind. -/
def handleDone (party : Party) (g : HandleLog) (r : ThreadResult) : Prop :=
  match party, r with
  | .worker _, .round (some w) => Settled g w
  | _, _ => True

/-- What is known of handles in a configuration: the counters are accounted for, every step was
allowed, every log is sound. -/
abbrev HandleOutline (c : Config Op.Ans (Shared P) Party ThreadResult) : Prop :=
  System.Outline handleContract handleDone
    (fun s tr => (Counted s tr ∧
      ∀ en ∈ tr, (handleContract en.label).pre ((handleContract en.label).ghost en.hist)
        en.event.1) ∧
      ∀ i, (handleLog (histOf tr i)).Sound) c

/-- A round ends as the outline says. -/
lemma iterate_handles {session : SessionHandle} {g : HandleLog} {w : Worker} (hw : Settled g w) :
    (Worker.iterate P w).Meets (handleContract (.worker session))
      (fun g w => handleDone (.worker session) g (.round w)) g := by
  refine (iterate_meets P hw).mono fun g' r hr => ?_
  cases r with
  | none => exact True.intro
  | some w' => exact hr w' rfl

/-- The obligations of the shared-invariant method. -/
lemma handle_sound (hserve : ∀ rpc, Only (fun o => o.ofHandler) (serve rpc)) :
    System.Sound (proxy P cfg serve) (fun _ _ => True) handleContract handleDone
      (fun s tr => (Counted s tr ∧
        ∀ en ∈ tr, (handleContract en.label).pre ((handleContract en.label).ghost en.hist)
          en.event.1) ∧
        ∀ i, (handleLog (histOf tr i)).Sound) := by
  have hsound : System.Sound (proxy P cfg serve) (fun _ _ => True) handleContract handleDone
      Counted := by
    refine proxy_sound (fun rpc => ?_) (fun _ _ _ hw => iterate_handles hw) ?_ ?_ ?_
    · exact (hserve rpc).meets_of_invariant (J := fun _ => True)
        (fun g o _ ho => ⟨ho, fun _ => True.intro⟩) True.intro fun _ _ _ => True.intro
    · intro c i e l o k a s' hc _ _ _ he
      exact ⟨True.intro, hc.inv.exec he⟩
    · intro c i l o k hc _ _ _
      exact hc.inv.release
    · intro c v hc _
      exact hc.inv.env
  refine hsound.obeying.histories (J := fun h => (handleLog h).Sound) fun l h o a hg hpre _ => ?_
  rw [handleLog_snoc]
  cases l with
  | rpc rpc =>
    rw [note_of_ofHandler hpre]
    exact hg
  | worker session => exact hg.note hpre a

/-- When the pool has started, every map is empty and nothing has been taken or found. -/
lemma handle_started : HandleOutline (started P t₀ sessions token) := by
  refine outline_started (fun session => iterate_handles ⟨Agrees.empty session rfl, rfl⟩) ?_
  exact ⟨⟨Counted.start, fun en hen => absurd hen List.not_mem_nil⟩,
    fun _ => ⟨List.nodup_nil, rfl, Nat.zero_le 1⟩⟩

/-- The maps of the workers agree with their logs after every run. -/
lemma handle_outline (hserve : ∀ rpc, Only (fun o => o.ofHandler) (serve rpc))
    (hrun : (proxy P cfg serve).run (started P t₀ sessions token) as = some c) :
    HandleOutline c :=
  (handle_sound hserve).run handle_started (System.throughout_true _ _) hrun

/-- A handle used in a call was found for the job being executed. -/
lemma usable_of_uses (hserve : ∀ rpc, Only (fun o => o.ofHandler) (serve rpc))
    (hrun : (proxy P cfg serve).run (started P t₀ sessions token) as = some c)
    {en : Entry Op.Ans (Shared P) Party} (hen : en ∈ c.trace) {session : SessionHandle}
    {handle : ObjectHandle} (huse : en.event.1.usesHandle = some (session, handle)) :
    (handleLog en.hist).Usable session handle := by
  have hpre := (handle_outline hserve hrun).inv.1.2 en hen
  obtain ⟨tid, label, hist, before, event⟩ := en
  cases label with
  | rpc rpc =>
    have hnone := usesHandle_of_ofHandler hpre
    rw [hnone] at huse
    cases huse
  | worker s => exact hpre.1 session handle huse

/-- Handlers take none of the steps that wait for a lookup. -/
lemma needsResolved_of_ofHandler {o : Op} (ho : o.ofHandler) : o.needsResolved = false := by
  cases o with
  | pool q => cases q <;> first | rfl | exact absurd ho Bool.false_ne_true
  | token t => exact absurd ho Bool.false_ne_true
  | _ => rfl

/-- Let any handlers submit any jobs.  In every configuration reached: what a worker has cached
between two rounds was found on its present session, since the last reset, for exactly that label
and class, and its map has no label under which nothing was found; so was every handle used in a
call found, for the label and class of the job being executed; nothing was found twice since the last
reset; and the handles resolved, from the map or by a search, are as many as the jobs taken, but for
those whose worker has not come to it.  That is one job at most for each worker, and none between two
rounds, when a job is answered, or when a handle is searched or used. -/
theorem handle_cache_invariant (hserve : ∀ rpc, Only (fun o => o.ofHandler) (serve rpc))
    (hrun : (proxy P cfg serve).run (started P t₀ sessions token) as = some c) :
    (∀ i session w, c.returned i = some (.worker session, .round (some w)) →
      (∀ kind label handle, w.cached kind label = some handle →
        ⟨w.session, kind.objectClass, label, handle⟩ ∈ (handleLog (histOf c.trace i)).found) ∧
      (∀ label ∈ w.handles, ∃ kind handle, w.cached kind label = some handle ∧
        ⟨w.session, kind.objectClass, label, handle⟩ ∈ (handleLog (histOf c.trace i)).found) ∧
      (handleLog (histOf c.trace i)).unresolved = 0) ∧
    (∀ en ∈ c.trace, ∀ session handle, en.event.1.usesHandle = some (session, handle) →
      (handleLog en.hist).Usable session handle) ∧
    (∀ i, ((handleLog (histOf c.trace i)).found.map Search.key).Nodup) ∧
    ∑ i ∈ Finset.range c.spawned, (handleLog (histOf c.trace i)).jobs =
      c.shared.pool.counters .handleCacheHits + c.shared.pool.counters .handleCacheMisses +
        ∑ i ∈ Finset.range c.spawned, (handleLog (histOf c.trace i)).unresolved ∧
    (∀ i, (handleLog (histOf c.trace i)).unresolved ≤ 1) ∧
    ∀ en ∈ c.trace, en.event.1.needsResolved → (handleLog en.hist).unresolved = 0 := by
  have hc := handle_outline hserve hrun
  obtain ⟨⟨hcounted, hallowed⟩, hsound⟩ := hc.inv
  have hsettled : ∀ i session w, c.returned i = some (.worker session, .round (some w)) →
      Settled (handleLog (histOf c.trace i)) w := by
    intro i session w hi
    obtain ⟨hist, ht⟩ := System.exists_returned hi
    obtain rfl : hist = histOf c.trace i := hc.recorded.hist i _ ht
    exact hc.threads i _ ht
  refine ⟨fun i session w hi => ?_,
    fun en hen session handle huse => usable_of_uses hserve hrun hen huse,
    fun i => (hsound i).nodup, ?_, fun i => (hsound i).last, fun en hen hneeds => ?_⟩
  · obtain ⟨hagrees, hun⟩ := hsettled i session w hi
    refine ⟨hagrees.cached, fun label hlabel => ?_, hun⟩
    obtain ⟨kind, handle, hcached⟩ := hagrees.labels label hlabel
    exact ⟨kind, handle, hcached, hagrees.cached kind label handle hcached⟩
  · have hjobs : ∀ i ∈ Finset.range c.spawned, (handleLog (histOf c.trace i)).jobs =
        (total (counted .handleCacheHits) (histOf c.trace i) +
          total (counted .handleCacheMisses) (histOf c.trace i)) +
        (handleLog (histOf c.trace i)).unresolved := by
      intro i _
      rw [← resolved_handleLog]
      exact (hsound i).jobs
    rw [Finset.sum_congr rfl hjobs, Finset.sum_add_distrib, Finset.sum_add_distrib,
      ← total_trace hc.recorded.tids, ← total_trace hc.recorded.tids, ← hcounted, ← hcounted]
  · have hpre := hallowed en hen
    obtain ⟨tid, label, hist, before, event⟩ := en
    cases label with
    | rpc rpc =>
      have hfalse := needsResolved_of_ofHandler hpre
      rw [hfalse] at hneeds
      cases hneeds
    | worker session => exact hpre.2.1 hneeds

end

/-- One worker signs twice with the same key. -/
def twoSignatures : List (Action Choice (EnvAction anyPlatform) Party) :=
  [.exec 0 .success, .spawn (.rpc signCall)] ++ execs 1 5 .success ++ execs 0 10 .success ++
    [.again 0, .exec 0 .success, .spawn (.rpc signCall)] ++ execs 2 5 .success ++
    execs 0 9 .success

/-- The second signature finds the handle in the map. -/
theorem handle_cache_two_signatures :
    ∃ c : Config Op.Ans (Shared anyPlatform) Party ThreadResult,
      (pooledProxy anyPlatform (.plain 1 10)).run (started _ 0 [7] ()) twoSignatures = some c ∧
      c.shared.pool.counters .handleCacheHits = 1 ∧
      ∑ i ∈ Finset.range c.spawned, (handleLog (histOf c.trace i)).jobs =
        c.shared.pool.counters .handleCacheHits + c.shared.pool.counters .handleCacheMisses +
          ∑ i ∈ Finset.range c.spawned, (handleLog (histOf c.trace i)).unresolved := by
  have hhits : ((pooledProxy anyPlatform (.plain 1 10)).run (started _ 0 [7] ())
      twoSignatures).map (fun c => c.shared.pool.counters .handleCacheHits) = some 1 := by
    decide +kernel
  obtain ⟨c, hrun, hc⟩ := Option.map_eq_some_iff.mp hhits
  exact ⟨c, hrun, hc, (handle_cache_invariant (pooled_only anyPlatform _) hrun).2.2.2.1⟩

end HsmProxy
