import HsmProxy.Pkcs11.ObjectStore
import HsmProxy.Service.CrossTalk

/-!
# A public key read by a worker

What a worker that executes a `GetPublicKey` job has learned from a token with an `ObjectStore`, as
long as nothing is rotated in the meantime: `LoadAgrees` says that the handle it works with is that
of the object under the label, and that the attributes it has read are those of this object.  A
handle from a search is always so; a handle from the worker's map is so when it is not stale
(`freshHandle`).  The job is then answered with the key under the label (`Loads.answer`), and on a
session that works it is not answered otherwise (`Loads.answer_working`).
-/

namespace HsmProxy

open Interleaving Interleaving.Prog

/-! ## Searches and reads -/

/-- The steps after which a worker knows what to read: it has found a handle in its map, or has
searched for one. -/
def Op.aims : Op → Bool
  | .pool (.count .handleCacheHits _) => true
  | .token (.findObjects _ _ _) => true
  | _ => false

/-- Among the calls for a job there is such a step. -/
def aimed (calls : List (Event Op.Ans)) : Bool := calls.any fun ev => ev.1.aims

/-- One more call. -/
lemma aimed_snoc (calls : List (Event Op.Ans)) (ev : Event Op.Ans) :
    aimed (calls ++ [ev]) = (aimed calls || ev.1.aims) := by
  simp [aimed]

/-- The calls that search for objects or read them. -/
def Op.inspects : Op → Bool
  | .token (.findObjects _ _ _) => true
  | .token (.getAttributes _ _ _) => true
  | _ => false

/-- A worker searches for the key of the job it executes, and reads an object after it has found or
searched one for this job. -/
def aimContract : Contract Op.Ans JobLog where
  init := .empty
  next g o a := g.note ⟨o, a⟩
  pre g
    | .token (.findObjects _ objectClass label) => ∃ job, g.job = some job ∧
        objectClass = job.request.kind.objectClass ∧ label = job.request.keyLabel
    | .token (.getAttributes _ _ _) => aimed g.calls = true
    | _ => True
  post _ _ _ := True

/-- Other steps are free. -/
lemma aimContract_free {o : Op} (ho : o.inspects = false) (g : JobLog) : aimContract.pre g o := by
  cases o with
  | token q => cases q <;> first | exact True.intro | cases ho
  | _ => exact True.intro

section

variable (P : Platform) (cfg : ServiceConfig)

/-- The execution of a job keeps to the contract. -/
lemma execute_aims (w : Worker) {g : JobLog} {job : Job} (hjob : g.job = some job) :
    (Worker.execute P w job.request).Meets aimContract (fun _ _ => True) g := by
  have haimed : ∀ (calls : List (Event Op.Ans)) (o : Op) (a : o.Ans), o.aims = true →
      aimed (calls ++ [⟨o, a⟩]) = true := by
    intro calls o a ho
    rw [aimed_snoc, ho, Bool.or_true]
  refine Worker.meets_execute (fun g _ _ => aimed g.calls = true)
    (fun _ _ _ => True) (fun _ _ _ => True) ?_ (fun _ _ _ _ => True.intro)
    (fun g w₁ key hg => ?_) (fun _ _ _ _ _ => True.intro) fun _ w₁ _ _ => ?_
  · refine Worker.meets_resolve ⟨True.intro, fun _ _ => haimed _ _ _ rfl⟩ True.intro
      fun _ => ⟨⟨job, hjob, rfl, rfl⟩, fun found _ => ⟨fun _ _ => True.intro, fun _ _ => ?_⟩⟩
    exact haimed _ _ _ rfl
  · refine (Worker.operation_only P job.request w₁.session key).meets_of_invariant
      (J := fun g => aimed g.calls = true) (fun g o hg ho => ?_) hg fun _ _ _ => True.intro
    cases o with
    | token q =>
      refine ⟨?_, fun a => ?_⟩
      · cases q <;> first | exact True.intro | exact hg | cases ho
      · show aimed (g.calls ++ [_]) = true
        rw [aimed_snoc, hg]
        rfl
    | _ => cases ho
  · refine (Worker.resetSession_only P w₁).meets_of_invariant (J := fun _ => True)
      (fun g o _ ho => ⟨aimContract_free ?_ g, fun _ => True.intro⟩) True.intro
      fun _ _ _ => True.intro
    cases o with
    | token q => cases q <;> first | rfl | cases ho
    | _ => rfl

/-- A round of a worker keeps to the contract. -/
theorem iterate_aims (w : Worker) (g : JobLog) :
    (Worker.iterate P w).Meets aimContract (fun _ _ => True) g := by
  refine Worker.meets_iterate
    (fun g received => ∀ job, received = some job → g.job = some job)
    (fun _ _ _ => True) ?_ (fun g job hg => ⟨True.intro, fun _ => ?_⟩)
    (fun g job r _ => ⟨True.intro, fun started finished => ?_⟩)
    fun g _ => ⟨True.intro, fun _ _ => ⟨True.intro, fun _ _ => True.intro⟩⟩
  · refine Worker.meets_recv True.intro (fun job _ job' hjob => hjob) (fun _ job hjob => by cases hjob)
      fun _ => ⟨True.intro, fun handed _ job hjob => ?_⟩
    subst hjob
    rfl
  · exact execute_aims P w (hg job rfl)
  · exact Worker.meets_account (J := fun _ => True)
      (fun g c n _ _ => ⟨True.intro, fun _ => True.intro⟩)
      (fun g _ => ⟨True.intro, fun _ _ => True.intro⟩) True.intro

/-- A handler makes no calls into the token. -/
lemma pooled_aims (rpc : Rpc) :
    (pooled P cfg rpc).Meets aimContract (fun _ _ => True) .empty := by
  refine (pooled_only P cfg rpc).meets_of_invariant (J := fun _ => True)
    (fun g o _ ho => ⟨aimContract_free ?_ g, fun _ => True.intro⟩) True.intro
    fun _ _ _ => True.intro
  cases o with
  | token q => cases ho
  | _ => rfl

/-- Searches are for the key of the job. -/
lemma execute_searches (w : Worker) (request : JobRequest) :
    Only (fun o => ∀ session objectClass label, o = .token (.findObjects session objectClass label) →
      objectClass = request.kind.objectClass ∧ label = request.keyLabel)
      (Worker.execute P w request) := by
  have hnot : ∀ {o : Op}, o.usesHandle.isSome = true ∨ Worker.resets o = true →
      ∀ session objectClass label, o ≠ .token (.findObjects session objectClass label) := by
    rintro o ho session objectClass label rfl
    rcases ho with ho | ho <;> cases ho
  refine Worker.execute_only_of P w request (fun _ _ _ h => by cases h) (fun _ _ _ h => by cases h)
    (fun _ _ _ h => ?_) (fun o ho session objectClass label h => ?_)
    fun o ho session objectClass label h => ?_
  · cases h
    exact ⟨rfl, rfl⟩
  · exact absurd h (hnot (Or.inl ho) session objectClass label)
  · exact absurd h (hnot (Or.inr ho) session objectClass label)

end

/-! ## The store and what a worker has learned from it -/

/-- What the calls for a job for the key under a label, and the searches of the worker since its
last reset, say of the store. -/
structure LoadAgrees (s : ObjectStore) (label : String) (calls : List (Event Op.Ans))
    (found : List Search) : Prop where
  /-- The handle the worker works with is that of the object under the label. -/
  handles : aimed calls = true → ∀ f ∈ found, f.key = (.publicKey, label) →
    s.bound label = some f.handle
  /-- A search has found what is under the label. -/
  searched : ∀ session found,
    (⟨.token (.findObjects session .publicKey label), .ok found⟩ : Event Op.Ans) ∈ calls →
      found = (s.bound label).toList
  /-- What was read is the object under the label. -/
  read : ∀ session handle types answer,
    (⟨.token (.getAttributes session handle types), answer⟩ : Event Op.Ans) ∈ calls →
      s.bound label = some handle ∧ ∀ attrs, answer = .ok attrs →
        ∃ object, s.objects handle = some object ∧ attrs = object.attributes types

/-- The history of a thread that is executing a job for a public key agrees with the store. -/
def Loads (s : ObjectStore) (h : List (Event Op.Ans)) : Prop :=
  ∀ job label, (jobLog h).job = some job → job.request = .getPublicKey label →
    LoadAgrees s label (jobLog h).calls (handleLog h).found

/-- The handle in the map of a worker for the key of its job is that of the object under the
label. -/
def freshHandle (s : ObjectStore) (h : List (Event Op.Ans)) : Bool :=
  match (jobLog h).job with
  | some ⟨_, .getPublicKey label, _⟩ => (handleLog h).found.all fun f =>
      decide (f.key = (.publicKey, label) → s.bound label = some f.handle)
  | _ => true

/-- Nothing has been called yet. -/
lemma LoadAgrees.nil (s : ObjectStore) (label : String) (found : List Search) :
    LoadAgrees s label [] found where
  handles h := nomatch h
  searched _ _ h := absurd h List.not_mem_nil
  read _ _ _ _ h := absurd h List.not_mem_nil

/-- One more call: what has to be known of it. -/
lemma LoadAgrees.snoc {s : ObjectStore} {label : String} {calls : List (Event Op.Ans)}
    {found found' : List Search} (h : LoadAgrees s label calls found) {ev : Event Op.Ans}
    (hhandles : (aimed calls || ev.1.aims) = true → ∀ f ∈ found', f.key = (.publicKey, label) →
      s.bound label = some f.handle)
    (hsearched : ∀ session found,
      ev = ⟨.token (.findObjects session .publicKey label), .ok found⟩ →
        found = (s.bound label).toList)
    (hread : ∀ session handle types answer,
      ev = ⟨.token (.getAttributes session handle types), answer⟩ →
        s.bound label = some handle ∧ ∀ attrs, answer = .ok attrs →
          ∃ object, s.objects handle = some object ∧ attrs = object.attributes types) :
    LoadAgrees s label (calls ++ [ev]) found' := by
  refine ⟨fun haimed => hhandles (aimed_snoc calls ev ▸ haimed), fun session found' hmem => ?_,
    fun session handle types answer hmem => ?_⟩
  · rcases List.mem_append.mp hmem with hmem | hmem
    · exact h.searched session found' hmem
    · exact hsearched session found' (List.mem_singleton.mp hmem).symm
  · rcases List.mem_append.mp hmem with hmem | hmem
    · exact h.read session handle types answer hmem
    · exact hread session handle types answer (List.mem_singleton.mp hmem).symm

section

variable {s s' : ObjectStore} {label : String} {calls : List (Event Op.Ans)} {found : List Search}

/-- A call that neither searches nor reads. -/
lemma LoadAgrees.other (h : LoadAgrees s label calls found) {o : Op} (a : o.Ans)
    (hinspects : o.inspects = false)
    (hhandles : o.aims = true → ∀ f ∈ found, f.key = (.publicKey, label) →
      s.bound label = some f.handle) :
    LoadAgrees s label (calls ++ [⟨o, a⟩]) found := by
  refine h.snoc (fun haimed => ?_) (fun session found hev => ?_)
    fun session handle types answer hev => ?_
  · rcases (Bool.or_eq_true _ _).mp haimed with haimed | haims
    · exact h.handles haimed
    · exact hhandles haims
  · cases hev
    cases hinspects
  · cases hev
    cases hinspects

/-- An object is searched for; nothing has been found for its label before. -/
lemma LoadAgrees.search (h : LoadAgrees s label calls found) {session : SessionHandle}
    {answer : Except CryptokiError (List ObjectHandle)}
    (hnew : ∀ f ∈ found, f.key ≠ (.publicKey, label))
    (hanswer : s.answer (.findObjects session .publicKey label) answer = some s') :
    LoadAgrees s label (calls ++ [⟨.token (.findObjects session .publicKey label), answer⟩])
      (match answer with
        | .ok (handle :: _) => found ++ [⟨session, .publicKey, label, handle⟩]
        | _ => found) := by
  refine h.snoc (fun _ f hf hkey => ?_) (fun session' found' hev => ?_)
    fun _ _ _ _ hev => nomatch hev
  · rcases answer with e | (_ | ⟨handle, rest⟩)
    · exact absurd hkey (hnew f hf)
    · exact absurd hkey (hnew f hf)
    · rcases List.mem_append.mp hf with hf | hf
      · exact absurd hkey (hnew f hf)
      · obtain rfl := List.mem_singleton.mp hf
        have hfound := ObjectStore.answer_findObjects hanswer
        cases hbound : s.bound label with
        | none =>
          rw [hbound] at hfound
          cases hfound
        | some handle' =>
          rw [hbound] at hfound
          obtain ⟨rfl, -⟩ := List.cons.inj hfound
          rfl
  · cases hev
    exact ObjectStore.answer_findObjects hanswer

/-- The object under the label is read. -/
lemma LoadAgrees.reads (h : LoadAgrees s label calls found) {session : SessionHandle}
    {handle : ObjectHandle} {types : List AttributeType}
    {answer : Except CryptokiError (List Attribute)} (haimed : aimed calls = true)
    (hmem : ⟨session, .publicKey, label, handle⟩ ∈ found)
    (hanswer : s.answer (.getAttributes session handle types) answer = some s') :
    LoadAgrees s label (calls ++ [⟨.token (.getAttributes session handle types), answer⟩]) found := by
  have hbound : s.bound label = some handle := h.handles haimed _ hmem rfl
  refine h.snoc (fun _ => h.handles haimed) (fun _ _ hev => nomatch hev)
    fun session' handle' types' answer' hev => ?_
  cases hev
  refine ⟨hbound, ?_⟩
  rintro attrs rfl
  exact ObjectStore.answer_getAttributes hanswer

end

/-- One step of a thread.  A worker takes its steps as its log of handles allows, and finds no stale
handle in its map; the store answers as it may. -/
theorem Loads.snoc {s : ObjectStore} {h : List (Event Op.Ans)} (hl : Loads s h) {o : Op} {a : o.Ans}
    (hallows : Worker.executes o = true → (handleLog h).Allows o)
    (haim : aimContract.pre (jobLog h) o)
    (hfresh : ∀ n, o = .pool (.count .handleCacheHits n) → freshHandle s h = true)
    (hanswer : ∀ (q : TokenOp) (ans : q.Ans), (⟨o, a⟩ : Event Op.Ans) = ⟨.token q, ans⟩ →
      ∃ s', s.answer q ans = some s') :
    Loads s (h ++ [⟨o, a⟩]) := by
  intro job label hjob hrequest
  rw [jobLog_snoc] at hjob ⊢
  rw [handleLog_snoc]
  rcases (jobLog h).note_cases ⟨o, a⟩ with ⟨job', -, -, hnote⟩ | ⟨-, -, hnote⟩ |
    ⟨-, hexecutes, hnote⟩ | ⟨-, hexecutes, hnotejob, hnotecalls⟩
  · rw [hnote]
    exact LoadAgrees.nil s label _
  · rw [hnote] at hjob
    cases hjob
  · rw [hnote] at hjob ⊢
    have hjob : (jobLog h).job = some job := hjob
    have hold := hl job label hjob hrequest
    have hallows := hallows hexecutes
    cases o with
    | token q =>
      obtain ⟨s', hs'⟩ := hanswer q a rfl
      cases q with
      | findObjects session objectClass label' =>
        obtain ⟨job', hjob', rfl, rfl⟩ := haim
        rw [hjob] at hjob'
        obtain rfl := Option.some.inj hjob'
        have hnew := hallows.2.2
        rw [hrequest] at hnew hs' ⊢
        have hsearch := hold.search hnew hs'
        rcases a with e | (_ | ⟨handle, rest⟩) <;> exact hsearch
      | getAttributes session handle types =>
        obtain ⟨request, hrequest', hmem⟩ := hallows.1 session handle rfl
        rw [handleLog_job hjob] at hrequest'
        obtain rfl := Option.some.inj hrequest'
        rw [hrequest] at hmem
        exact hold.reads haim hmem hs'
      | _ => exact hold.other a rfl fun haims => nomatch haims
    | pool q =>
      cases q with
      | count counter n =>
        cases counter with
        | handleCacheHits =>
          refine hold.other a rfl fun _ f hf hkey => ?_
          have hfresh := hfresh n rfl
          obtain ⟨id, request, t⟩ := job
          obtain rfl : request = .getPublicKey label := hrequest
          unfold freshHandle at hfresh
          rw [hjob] at hfresh
          exact of_decide_eq_true (List.all_eq_true.mp hfresh f hf) hkey
        | handleCacheMisses => exact hold.other a rfl fun haims => nomatch haims
        | sessionResets =>
          have hother := hold.other a rfl (o := .pool (.count .sessionResets n))
            fun haims => nomatch haims
          exact ⟨fun _ f hf => absurd hf List.not_mem_nil, hother.searched, hother.read⟩
        | _ => cases hexecutes
      | _ => cases hexecutes
    | _ => cases hexecutes
  · rw [hnotecalls]
    have hfound : ((handleLog h).note ⟨o, a⟩).found = (handleLog h).found := by
      cases o with
      | token q => cases hexecutes
      | pool q =>
        cases q with
        | count counter n => cases counter <;> first | rfl | cases hexecutes
        | poll => cases a <;> rfl
        | unpark => cases a <;> rfl
        | _ => rfl
      | _ => rfl
    rw [hfound]
    exact hl job label (hnotejob ▸ hjob) hrequest

/-! ## The answer to a job for a public key -/

/-- A call on a session that works: it does not fail, unless it reads an object that does not
exist. -/
def worksOn (s : ObjectStore) : Event Op.Ans → Bool
  | ⟨.token (.findObjects _ _ _), .error _⟩ => false
  | ⟨.token (.getAttributes _ handle _), .error _⟩ => (s.objects handle).isNone
  | _ => true

section

variable {P : Platform} {s : ObjectStore} {h : List (Event Op.Ans)} {job : Job} {label : String}
  {w w' : Worker} {r : JobResult} {key : CachedPublicKey}

/-- What was read is the object under the label. -/
lemma LoadAgrees.attributes {calls : List (Event Op.Ans)} {found : List Search} {object : KeyObject}
    (hagrees : LoadAgrees s label calls found) (hobject : s.boundObject label = some object)
    (session : SessionHandle) (handle : ObjectHandle) (types : List AttributeType)
    (attrs : List Attribute)
    (hmem : (⟨.token (.getAttributes session handle types), .ok attrs⟩ : Event Op.Ans) ∈ calls) :
    attrs = object.attributes types := by
  obtain ⟨hbound, hread⟩ := hagrees.read session handle types _ hmem
  obtain ⟨object', hobject', hattrs⟩ := hread attrs rfl
  have hsame : s.boundObject label = some object' := by
    simp [ObjectStore.boundObject, hbound, hobject']
  rw [hobject] at hsame
  obtain rfl := Option.some.inj hsame
  exact hattrs

/-- A key that is answered is the key under the label. -/
theorem Loads.answer (hl : Loads s h) (hjob : (jobLog h).job = some job)
    (hrequest : job.request = .getPublicKey label)
    (hruns : Runs (Worker.execute P w job.request) (jobLog h).calls
      (.ok (.publicKey key.spkiDer key.keyType), w')) : s.keyAt P label = some key := by
  have hagrees := hl job label hjob hrequest
  rw [hrequest] at hruns
  cases hobject : s.boundObject label with
  | some object =>
    rcases execute_export hruns (hagrees.attributes hobject) with ⟨-, e, he⟩ | hkey
    · cases he
    · cases hspki : object.spki P with
      | error e =>
        rw [hspki] at hkey
        cases hkey
      | ok found =>
        obtain ⟨spkiDer, keyType⟩ := key
        obtain ⟨spkiDer', keyType'⟩ := found
        rw [hspki] at hkey
        cases hkey
        simp [ObjectStore.keyAt, hobject, hspki]
  | none =>
    -- nothing can have been read, so the key would be that of any object
    have hread : ∀ session handle types attrs,
        (⟨.token (.getAttributes session handle types), .ok attrs⟩ : Event Op.Ans) ∈
          (jobLog h).calls → attrs = (⟨fun _ => []⟩ : KeyObject).attributes types := by
      intro session handle types attrs hmem
      obtain ⟨hbound, hread⟩ := hagrees.read session handle types _ hmem
      obtain ⟨object, hobject', -⟩ := hread attrs rfl
      simp [ObjectStore.boundObject, hbound, hobject'] at hobject
    rcases execute_export hruns hread with ⟨-, e, he⟩ | hkey
    · cases he
    · cases hkey

/-- On a session that works, a job for a label with a key is answered with that key. -/
theorem Loads.answer_working (hl : Loads s h) (hjob : (jobLog h).job = some job)
    (hrequest : job.request = .getPublicKey label) (hkey : s.keyAt P label = some key)
    (hworks : ∀ ev ∈ (jobLog h).calls, worksOn s ev = true)
    (hruns : Runs (Worker.execute P w job.request) (jobLog h).calls (r, w')) :
    r = .ok (.publicKey key.spkiDer key.keyType) := by
  have hagrees := hl job label hjob hrequest
  rw [hrequest] at hruns
  obtain ⟨object, hobject, hspki⟩ : ∃ object, s.boundObject label = some object ∧
      object.spki P = .ok (key.spkiDer, key.keyType) := by
    unfold ObjectStore.keyAt at hkey
    split at hkey
    · rename_i spkiDer keyType hmap
      obtain rfl := Option.some.inj hkey
      exact Option.map_eq_some_iff.mp hmap
    · cases hkey
  rcases execute_export hruns (hagrees.attributes hobject) with ⟨⟨⟨o, a⟩, hev, htrouble⟩, -⟩ | hr
  · have hwork := hworks _ hev
    cases o with
    | token q =>
      cases q with
      | findObjects session objectClass label' =>
        obtain ⟨rfl, hlabel⟩ := (execute_searches P w _).runs hruns _ hev session _ _ rfl
        obtain rfl : label' = label := hlabel
        rcases a with e | (_ | ⟨handle, rest⟩)
        · cases hwork
        · have hnone := hagrees.searched session [] hev
          cases hbound : s.bound label' with
          | none => simp [ObjectStore.boundObject, hbound] at hobject
          | some handle =>
            rw [hbound] at hnone
            cases hnone
        · cases htrouble
      | getAttributes session handle types =>
        rcases a with e | attrs
        · obtain ⟨hbound, -⟩ := hagrees.read session handle types _ hev
          have hsome := s.isSome_of_bound label handle hbound
          have hnone : (s.objects handle).isNone = true := hwork
          rw [Option.isNone_iff_eq_none.mp hnone] at hsome
          cases hsome
        · cases htrouble
      | _ => cases htrouble
    | _ => cases htrouble
  · rw [hr, hspki]
    rfl

end

end HsmProxy
