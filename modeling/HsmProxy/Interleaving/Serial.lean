import HsmProxy.Interleaving.Sound

/-!
# Threads that use a resource under a lock

A `Guard` singles out one part of the shared state, the resource, and one lock: some operations
take the lock, some release it, some touch the resource, and all others leave both alone.  A
program is disciplined when it takes the lock before it touches the resource, issues nothing else
until it releases the lock, and then returns.

`Serial` is what the resource goes through when whole threads use it one after another.
`Guard.serial` says that this is all that interleaving can do: after every run of disciplined
programs the resource has been used by the threads that have returned, one after another and in
the order in which they returned, and by the thread that holds the lock.
-/

namespace Interleaving

variable {Op : Type} {Ans : Op → Type} {S E V L R T : Type}

/-- What an operation is for the lock and the resource. -/
inductive Role where
  | lock
  | unlock
  | touch
  | other
  deriving DecidableEq, Repr

/-- Where a thread is: it has not taken the lock, holds it, or has released it. -/
inductive Phase where
  | before
  | holding
  | after
  deriving DecidableEq, Repr

namespace Phase

/-- The phase after an operation. -/
def next : Phase → Role → Phase
  | _, .lock => .holding
  | _, .unlock => .after
  | p, .touch => p
  | p, .other => p

/-- The operations a disciplined program may issue. -/
def Allows : Phase → Role → Prop
  | .before, .lock => True
  | .before, .other => True
  | .holding, .touch => True
  | .holding, .unlock => True
  | _, _ => False

end Phase

/-- The discipline, as a contract: a program returns without the lock. -/
def discipline (role : Op → Role) : Contract Ans Phase where
  init := .before
  next p o _ := p.next (role o)
  pre p o := p.Allows (role o)
  post _ _ _ := True

/-- A lock and the resource it guards.  Threads that appear do not go on after they have returned,
and are not dropped while they hold the lock. -/
structure Guard (sys : System Ans S E V L R) (T : Type) where
  role : Op → Role
  resource : S → T
  holder : S → Option ℕ
  /-- What an operation that touches the resource, with its answer, does to it. -/
  effect : T → Event Ans → T → Prop
  /-- The changes of the resource that no thread makes. -/
  outside : T → T → Prop
  exec_lock : ∀ {e i s o a s'}, role o = .lock → sys.exec e i s o = some (a, s') →
    holder s = none ∧ holder s' = some i ∧ resource s' = resource s
  exec_unlock : ∀ {e i s o a s'}, role o = .unlock → sys.exec e i s o = some (a, s') →
    holder s' = none ∧ resource s' = resource s
  exec_touch : ∀ {e i s o a s'}, role o = .touch → sys.exec e i s o = some (a, s') →
    holder s' = holder s ∧ effect (resource s) ⟨o, a⟩ (resource s')
  exec_other : ∀ {e i s o a s'}, role o = .other → sys.exec e i s o = some (a, s') →
    holder s' = holder s ∧ resource s' = resource s
  cancel : ∀ {i l s}, holder s ≠ some i →
    holder (sys.cancel i l s) = holder s ∧ resource (sys.cancel i l s) = resource s
  env : ∀ {v s s'}, sys.env v s = some s' →
    holder s' = holder s ∧ outside (resource s) (resource s')
  once : ∀ {l}, sys.spawnable l → ∀ r, sys.again l r = none
  undropped : ∀ {l o}, sys.spawnable l → sys.droppable l o → role o ≠ .touch ∧ role o ≠ .unlock

namespace Guard

variable {sys : System Ans S E V L R} (G : Guard sys T)

/-- What a history, together with changes from outside, does to the resource. -/
inductive Performed : T → List (Event Ans) → T → Prop
  | nil (t : T) : Performed t [] t
  | touch {t t' t'' : T} {h : List (Event Ans)} {ev : Event Ans} (hh : Performed t h t')
      (hrole : G.role ev.1 = .touch) (heffect : G.effect t' ev t'') : Performed t (h ++ [ev]) t''
  | skip {t t' : T} {h : List (Event Ans)} {ev : Event Ans} (hh : Performed t h t')
      (hrole : G.role ev.1 ≠ .touch) : Performed t (h ++ [ev]) t'
  | outside {t t' t'' : T} {h : List (Event Ans)} (hh : Performed t h t')
      (hout : G.outside t' t'') : Performed t h t''

/-- Whole threads use the resource one after another: what each of them returned, in order. -/
inductive Serial : T → List (ℕ × L × R) → T → Prop
  | nil (t : T) : Serial t [] t
  | outside {t t' t'' : T} {done : List (ℕ × L × R)} (hdone : Serial t done t')
      (hout : G.outside t' t'') : Serial t done t''
  | thread {t t' t'' : T} {done : List (ℕ × L × R)} {i : ℕ} {l : L} {h : List (Event Ans)} {r : R}
      (hdone : Serial t done t') (hruns : Prog.Runs (sys.body l) h r)
      (hperformed : Performed G t' h t'') : Serial t (done ++ [(i, l, r)]) t''

/-- The phase of a thread after a history. -/
def phase (h : List (Event Ans)) : Phase := (discipline G.role : Contract Ans Phase).ghost h

/-- One more event. -/
lemma phase_snoc (h : List (Event Ans)) (ev : Event Ans) :
    G.phase (h ++ [ev]) = (G.phase h).next (G.role ev.1) :=
  Contract.ghost_snoc _ h ev

/-- A history that does not touch the resource leaves it alone. -/
lemma performed_of_untouched {h : List (Event Ans)} (hh : ∀ ev ∈ h, G.role ev.1 ≠ .touch) (t : T) :
    G.Performed t h t := by
  induction h using List.reverseRecOn with
  | nil => exact Performed.nil t
  | append_singleton h ev ih =>
    have hbefore : G.Performed t h t := ih fun ev' hev' => hh ev' (List.mem_append_left _ hev')
    exact hbefore.skip (hh ev (List.mem_append_right _ (List.mem_singleton_self ev)))

end Guard

/-! ## What has been returned -/

namespace System

variable (sys : System Ans S E V L R)

/-- The thread an action may make return: the one that appears, or the one that executes. -/
def mover (c : Config Ans S L R) : Action E V L → Option ℕ
  | .spawn _ => some c.spawned
  | .exec i _ => some i
  | _ => none

/-- The thread that an action has made return, with what it returned. -/
def newReturn (c c' : Config Ans S L R) (a : Action E V L) : Option (ℕ × L × R) :=
  (mover c a).bind fun i => (c'.returned i).map fun x => (i, x)

/-- Dropping a thread makes none return. -/
@[simp] lemma newReturn_cancel (c c' : Config Ans S L R) (i : ℕ) :
    newReturn c c' (.cancel i : Action E V L) = none := rfl

/-- The environment makes no thread return. -/
@[simp] lemma newReturn_env (c c' : Config Ans S L R) (v : V) :
    newReturn c c' (.env v : Action E V L) = none := rfl

/-- What has been returned along a run, in the order in which it was. -/
def returnsAlong (c : Config Ans S L R) : List (Action E V L) → List (ℕ × L × R)
  | [] => []
  | a :: as => ((sys.step c a).map fun c' =>
      (newReturn c c' a).toList ++ returnsAlong c' as).getD []

variable {sys}

/-- One more action at the front. -/
lemma returnsAlong_cons {c c' : Config Ans S L R} {a : Action E V L} {as : List (Action E V L)}
    (h : sys.step c a = some c') :
    sys.returnsAlong c (a :: as) = (newReturn c c' a).toList ++ sys.returnsAlong c' as := by
  simp only [returnsAlong, h, Option.map_some, Option.getD_some]

/-- A list holds what every thread has returned, once. -/
structure Returns (c : Config Ans S L R) (done : List (ℕ × L × R)) : Prop where
  mem : ∀ i x, (i, x) ∈ done ↔ c.returned i = some x
  nodup : (done.map Prod.fst).Nodup

namespace Returns

variable {c c' : Config Ans S L R} {done : List (ℕ × L × R)}

/-- What the threads have returned does not depend on anything but the threads. -/
lemma congr (h : Returns c done) (hthreads : ∀ j, c'.returned j = c.returned j) :
    Returns c' done :=
  ⟨fun i x => (hthreads i).symm ▸ h.mem i x, h.nodup⟩

/-- One thread, which had not returned, may have returned. -/
lemma move (h : Returns c done) {i : ℕ} (hi : c.returned i = none)
    (hothers : ∀ j, j ≠ i → c'.returned j = c.returned j) :
    Returns c' (done ++ ((c'.returned i).map fun x => (i, x)).toList) := by
  have hfresh : ∀ x, (i, x) ∉ done := fun x hx => by
    rw [h.mem, hi] at hx
    cases hx
  constructor
  · intro j x
    rw [List.mem_append]
    by_cases hij : j = i
    · subst hij
      simp [hfresh x]
    · rw [hothers j hij, ← h.mem j x]
      simp [Ne.symm hij]
  · rw [List.map_append, List.nodup_append]
    refine ⟨h.nodup, ?_, ?_⟩
    · cases c'.returned i <;> simp
    · intro j hj j' hj' heq
      obtain ⟨⟨j, x⟩, hx, rfl⟩ := List.mem_map.mp hj
      obtain ⟨y, hy, rfl⟩ := List.mem_map.mp hj'
      obtain ⟨z, -, rfl⟩ := Option.map_eq_some_iff.mp (Option.mem_toList.mp hy)
      obtain rfl : j = i := heq
      exact hfresh x hx

/-- One step of a system whose threads do not go on. -/
lemma step {a : Action E V L} (h : Returns c done) (hc : Recorded c)
    (honce : ∀ i t r, c.threads i = some t → sys.again t.label r = none)
    (hstep : sys.step c a = some c') : Returns c' (done ++ (newReturn c c' a).toList) := by
  rcases step_cases hstep with ⟨l, rfl, -, rfl⟩ | ⟨i, e, l, hist, o, k, ans, s', rfl, ht, -, rfl⟩ |
    ⟨i, l, hist, r, p, rfl, ht, hp, rfl⟩ | ⟨i, l, hist, o, k, rfl, ht, -, rfl⟩ | ⟨v, s', rfl, -, rfl⟩
  · refine h.move ?_ fun j hj => ?_
    · simp [Config.returned, hc.fresh c.spawned (Nat.le_refl _)]
    · simp [Config.returned, hj]
  · refine h.move ?_ fun j hj => ?_
    · simp [Config.returned, ht]
    · simp [Config.returned, hj]
  · rw [honce i _ r ht] at hp
    cases hp
  · rw [newReturn_cancel, Option.toList_none, List.append_nil]
    refine h.congr fun j => ?_
    by_cases hj : j = i
    · subst hj
      simp [Config.returned, ht]
    · simp [Config.returned, hj]
  · rw [newReturn_env, Option.toList_none, List.append_nil]
    exact h.congr fun j => rfl

end Returns

end System

/-! ## Every run -/

namespace Guard

variable {sys : System Ans S E V L R} (G : Guard sys T)

/-- The lock and the histories: its holder is the thread in the holding phase, and a thread before
it has not touched the resource. -/
structure LockInv (s : S) (tr : List (Entry Ans S L)) : Prop where
  holder : ∀ i, G.holder s = some i ↔ G.phase (histOf tr i) = .holding
  untouched : ∀ i, G.phase (histOf tr i) = .before → ∀ ev ∈ histOf tr i, G.role ev.1 ≠ .touch

variable {G}

/-- Every thread is of a kind that may appear. -/
def Appeared (sys : System Ans S E V L R) (c : Config Ans S L R) : Prop :=
  ∀ i t, c.threads i = some t → sys.spawnable t.label

/-- After a step every thread still is of a kind that may appear. -/
lemma appeared_step {c c' : Config Ans S L R} {a : Action E V L} (hc : Appeared sys c)
    (h : sys.step c a = some c') : Appeared sys c' := by
  intro j t hj
  rcases System.label_of_step h hj with ⟨t', ht', hlabel⟩ | ⟨-, -, hnew⟩
  · exact hlabel ▸ hc j t' ht'
  · exact hnew

/-- What a disciplined thread ends with: it does not hold the lock, and does not go on. -/
def Ends (sys : System Ans S E V L R) (l : L) (p : Phase) (_ : R) : Prop :=
  p ≠ .holding ∧ sys.spawnable l

/-- What is known about a configuration: the bookkeeping, the lock, and the discipline. -/
abbrev Disciplined (G : Guard sys T) (c : Config Ans S L R) : Prop :=
  System.Outline (fun _ => discipline G.role) (Ends sys) G.LockInv c

/-- One operation of a disciplined thread keeps the invariant of the lock. -/
lemma LockInv.exec {s s' : S} {tr : List (Entry Ans S L)} (hs : G.LockInv s tr) {e : E} {i : ℕ}
    {l : L} {o : Op} {a : Ans o} (hpre : (G.phase (histOf tr i)).Allows (G.role o))
    (he : sys.exec e i s o = some (a, s')) :
    G.LockInv s' (tr ++ [⟨i, l, histOf tr i, s, ⟨o, a⟩⟩]) := by
  have hother : ∀ j, j ≠ i → histOf (tr ++ [⟨i, l, histOf tr i, s, ⟨o, a⟩⟩]) j = histOf tr j :=
    fun j hj => by rw [histOf_snoc, if_neg (Ne.symm hj)]
  have hown : histOf (tr ++ [⟨i, l, histOf tr i, s, ⟨o, a⟩⟩]) i = histOf tr i ++ [⟨o, a⟩] := by
    rw [histOf_snoc, if_pos rfl]
  have hphase : G.phase (histOf (tr ++ [⟨i, l, histOf tr i, s, ⟨o, a⟩⟩]) i) =
      (G.phase (histOf tr i)).next (G.role o) := by
    rw [hown, G.phase_snoc]
  constructor
  · intro j
    by_cases hj : j = i
    · subst hj
      rw [hphase]
      cases hrole : G.role o with
      | lock => simp [(G.exec_lock hrole he).2.1, Phase.next]
      | unlock => simp [(G.exec_unlock hrole he).1, Phase.next]
      | touch => simpa [(G.exec_touch hrole he).1, Phase.next] using hs.holder j
      | other => simpa [(G.exec_other hrole he).1, Phase.next] using hs.holder j
    · rw [hother j hj, ← hs.holder j]
      cases hrole : G.role o with
      | lock => simp [G.exec_lock hrole he, Ne.symm hj]
      | unlock =>
        have hheld : G.phase (histOf tr i) = .holding := by
          rw [hrole] at hpre
          cases hp : G.phase (histOf tr i) with
          | holding => rfl
          | before => rw [hp] at hpre; exact hpre.elim
          | after => rw [hp] at hpre; exact hpre.elim
        simp [(G.exec_unlock hrole he).1, (hs.holder i).mpr hheld, Ne.symm hj]
      | touch => rw [(G.exec_touch hrole he).1]
      | other => rw [(G.exec_other hrole he).1]
  · intro j
    by_cases hj : j = i
    · subst hj
      rw [hphase, hown]
      intro hp ev hev
      cases hrole : G.role o with
      | lock => rw [hrole] at hp; cases hp
      | unlock => rw [hrole] at hp; cases hp
      | touch =>
        rw [hrole] at hp hpre
        rw [show G.phase (histOf tr j) = .before from hp] at hpre
        exact hpre.elim
      | other =>
        rw [hrole] at hp
        rcases List.mem_append.mp hev with hev | hev
        · exact hs.untouched j hp ev hev
        · obtain rfl := List.mem_singleton.mp hev
          simp [hrole]
    · rw [hother j hj]
      exact hs.untouched j

/-- A thread that may be dropped has not taken the lock. -/
lemma phase_of_droppable {c : Config Ans S L R} (hc : G.Disciplined c) (happeared : Appeared sys c)
    {i : ℕ} {l : L} {hist : List (Event Ans)} {o : Op} {k : Ans o → Prog Ans R}
    (ht : c.threads i = some ⟨l, hist, .call o k⟩) (hd : sys.droppable l o) :
    G.phase (histOf c.trace i) = .before := by
  obtain rfl := hc.recorded.hist i _ ht
  have hallows : (G.phase (histOf c.trace i)).Allows (G.role o) := (hc.threads i _ ht).1
  obtain ⟨htouch, hunlock⟩ := G.undropped (happeared i _ ht) hd
  cases hp : G.phase (histOf c.trace i) with
  | before => rfl
  | holding =>
    rw [hp] at hallows
    cases hrole : G.role o with
    | touch => exact absurd hrole htouch
    | unlock => exact absurd hrole hunlock
    | lock => rw [hrole] at hallows; exact hallows.elim
    | other => rw [hrole] at hallows; exact hallows.elim
  | after =>
    rw [hp] at hallows
    exact hallows.elim

/-- Disciplined programs meet the obligations of the shared-invariant method. -/
lemma lock_sound
    (hbody : ∀ l, sys.spawnable l →
      (sys.body l).Meets (discipline G.role) (fun p _ => p ≠ .holding) .before) :
    System.Sound sys (fun c _ => Appeared sys c) (fun _ => discipline G.role) (Ends sys)
      G.LockInv where
  body l hl := (hbody l hl).mono fun p r hp => ⟨hp, hl⟩
  again l p r q hends hq := by
    rw [G.once hends.2 r] at hq
    cases hq
  exec c i e l o k a s' hc _ ht hpre he := ⟨True.intro, hc.inv.exec hpre he⟩
  cancel c i l o k hc happeared ht hd := by
    have hphase := phase_of_droppable hc happeared ht hd
    have hnot : G.holder c.shared ≠ some i := fun h => by
      rw [(hc.inv.holder i).mp h] at hphase
      cases hphase
    obtain ⟨hholder, -⟩ := G.cancel hnot
    exact ⟨fun j => hholder.symm ▸ hc.inv.holder j, hc.inv.untouched⟩
  env c v s' hc _ hv := by
    obtain ⟨hholder, -⟩ := G.env hv
    exact ⟨fun j => hholder.symm ▸ hc.inv.holder j, hc.inv.untouched⟩

variable (G) in
/-- The resource has been used by the threads in the list, one after another, and by the holder of
the lock. -/
def Used (t₀ : T) (done : List (ℕ × L × R)) (c : Config Ans S L R) : Prop :=
  ∃ t, G.Serial t₀ done t ∧ (G.holder c.shared = none → G.resource c.shared = t) ∧
    ∀ i, G.holder c.shared = some i → G.Performed t (histOf c.trace i) (G.resource c.shared)

variable (G) in
/-- What a run maintains, with what has been returned along it. -/
structure Serving (t₀ : T) (done : List (ℕ × L × R)) (c : Config Ans S L R) : Prop where
  disciplined : G.Disciplined c
  appeared : Appeared sys c
  completes : System.Completes sys c
  returns : System.Returns c done
  used : G.Used t₀ done c

/-- What a thread that has returned has performed. -/
lemma runs_of_ret {c : Config Ans S L R} (hcompletes : System.Completes sys c) {i : ℕ} {l : L}
    {hist : List (Event Ans)} {r : R} (ht : c.threads i = some ⟨l, hist, .ret r⟩)
    (honce : ∀ r, sys.again l r = none) : Prog.Runs (sys.body l) hist r := by
  have hruns := hcompletes i _ ht honce [] r (Prog.Runs.ret r)
  rwa [List.append_nil] at hruns

/-- One operation of a disciplined thread, and what has been returned by it. -/
lemma Used.exec {t₀ : T} {done : List (ℕ × L × R)} {c : Config Ans S L R}
    (hused : G.Used t₀ done c) (hc : G.Disciplined c) {e : E} {i : ℕ} {l : L} {o : Op}
    {k : Ans o → Prog Ans R} {a : Ans o} {s' : S}
    (ht : c.threads i = some ⟨l, histOf c.trace i, .call o k⟩)
    (he : sys.exec e i c.shared o = some (a, s'))
    (hnext : (k a).Meets (discipline G.role) (Ends sys l)
      (G.phase (histOf c.trace i ++ [⟨o, a⟩])))
    (hruns : ∀ r, k a = .ret r → Prog.Runs (sys.body l) (histOf c.trace i ++ [⟨o, a⟩]) r)
    {c' : Config Ans S L R} (hshared : c'.shared = s')
    (hown : histOf c'.trace i = histOf c.trace i ++ [⟨o, a⟩])
    (hothers : ∀ j, j ≠ i → histOf c'.trace j = histOf c.trace j)
    (hthread : c'.threads i = some ⟨l, histOf c'.trace i, k a⟩) :
    G.Used t₀ (done ++ ((c'.returned i).map fun x => (i, x)).toList) c' := by
  obtain ⟨t, hserial, hfree, hheld⟩ := hused
  have hallows : (G.phase (histOf c.trace i)).Allows (G.role o) := (hc.threads i _ ht).1
  rw [G.phase_snoc] at hnext
  -- a thread that goes on has returned nothing
  have hcall : ∀ o' k', k a = .call o' k' → c'.returned i = none := fun o' k' hk => by
    simp [Config.returned, hthread, hk]
  have hret : ∀ r, k a = .ret r → c'.returned i = some (l, r) := fun r hk => by
    simp [Config.returned, hthread, hk]
  cases hp : G.phase (histOf c.trace i) with
  | before =>
    have hnot : ∀ j, G.holder c.shared = some j → j ≠ i := by
      rintro j hj rfl
      rw [(hc.inv.holder j).mp hj] at hp
      cases hp
    have huntouched := G.performed_of_untouched (hc.inv.untouched i hp)
    cases hrole : G.role o with
    | lock =>
      -- the lock was free, so everything before this thread is over
      obtain ⟨hnone, hsome, hres⟩ := G.exec_lock hrole he
      have hgoes : ∃ o' k', k a = .call o' k' := by
        cases hk : k a with
        | call o' k' => exact ⟨o', k', rfl⟩
        | ret r =>
          rw [hk, hrole] at hnext
          exact absurd rfl hnext.1
      obtain ⟨o', k', hk⟩ := hgoes
      rw [hcall o' k' hk]
      refine ⟨t, by simpa using hserial, fun h => ?_, fun j hj => ?_⟩
      · rw [hshared, hsome] at h
        cases h
      · rw [hshared, hsome] at hj
        obtain rfl := Option.some.inj hj
        rw [hown, hshared, hres, hfree hnone]
        exact (huntouched t).skip (by simp [hrole])
    | other =>
      obtain ⟨hholder, hres⟩ := G.exec_other hrole he
      have hkeep : ∀ j, G.holder c'.shared = some j →
          G.Performed t (histOf c'.trace j) (G.resource c'.shared) := by
        intro j hj
        rw [hshared, hholder] at hj
        rw [hothers j (hnot j hj), hshared, hres]
        exact hheld j hj
      have hkeep' : G.holder c'.shared = none → G.resource c'.shared = t := by
        rw [hshared, hholder, hres]
        exact hfree
      cases hk : k a with
      | call o' k' =>
        rw [hcall o' k' hk]
        exact ⟨t, by simpa using hserial, hkeep', hkeep⟩
      | ret r =>
        rw [hret r hk]
        exact ⟨t, hserial.thread (hruns r hk) ((huntouched t).skip (by simp [hrole])), hkeep', hkeep⟩
    | touch =>
      rw [hp, hrole] at hallows
      exact hallows.elim
    | unlock =>
      rw [hp, hrole] at hallows
      exact hallows.elim
  | holding =>
    have hholds : G.holder c.shared = some i := (hc.inv.holder i).mpr hp
    have hmine := hheld i hholds
    cases hrole : G.role o with
    | touch =>
      obtain ⟨hholder, heffect⟩ := G.exec_touch hrole he
      have hgoes : ∃ o' k', k a = .call o' k' := by
        cases hk : k a with
        | call o' k' => exact ⟨o', k', rfl⟩
        | ret r =>
          rw [hk, hrole, hp] at hnext
          exact absurd rfl hnext.1
      obtain ⟨o', k', hk⟩ := hgoes
      rw [hcall o' k' hk]
      refine ⟨t, by simpa using hserial, fun h => ?_, fun j hj => ?_⟩
      · rw [hshared, hholder, hholds] at h
        cases h
      · rw [hshared, hholder, hholds] at hj
        obtain rfl := Option.some.inj hj
        rw [hown, hshared]
        exact hmine.touch hrole heffect
    | unlock =>
      -- a disciplined thread that has released the lock has returned
      obtain ⟨hnone, hres⟩ := G.exec_unlock hrole he
      have hends : ∃ r, k a = .ret r := by
        cases hk : k a with
        | ret r => exact ⟨r, rfl⟩
        | call o' k' =>
          rw [hk, hrole] at hnext
          exact hnext.1.elim
      obtain ⟨r, hk⟩ := hends
      rw [hret r hk]
      refine ⟨G.resource c.shared, hserial.thread (hruns r hk) (hmine.skip (by simp [hrole])),
        fun _ => by rw [hshared, hres], fun j hj => ?_⟩
      rw [hshared, hnone] at hj
      cases hj
    | lock =>
      rw [hp, hrole] at hallows
      exact hallows.elim
    | other =>
      rw [hp, hrole] at hallows
      exact hallows.elim
  | after =>
    rw [hp] at hallows
    exact hallows.elim

/-- A thread appears, and may have returned already. -/
lemma Used.spawn {t₀ : T} {done : List (ℕ × L × R)} {c c' : Config Ans S L R}
    (hused : G.Used t₀ done c) {i : ℕ} {l : L} (hshared : c'.shared = c.shared)
    (htrace : c'.trace = c.trace) (hthread : c'.threads i = some ⟨l, [], sys.body l⟩) :
    G.Used t₀ (done ++ ((c'.returned i).map fun x => (i, x)).toList) c' := by
  obtain ⟨t, hserial, hfree, hheld⟩ := hused
  rw [← hshared] at hfree hheld
  rw [← htrace] at hheld
  cases hbody : sys.body l with
  | call o k =>
    have hnone : c'.returned i = none := by simp [Config.returned, hthread, hbody]
    rw [hnone]
    exact ⟨t, by simpa using hserial, hfree, hheld⟩
  | ret r =>
    have hsome : c'.returned i = some (l, r) := by simp [Config.returned, hthread, hbody]
    have hruns : Prog.Runs (sys.body l) [] r := by
      rw [hbody]
      exact Prog.Runs.ret r
    rw [hsome]
    exact ⟨t, hserial.thread hruns (.nil t), hfree, hheld⟩

/-- Nothing but the shared state changes, and in it neither the lock nor the resource. -/
lemma Used.congr {t₀ : T} {done : List (ℕ × L × R)} {c c' : Config Ans S L R}
    (hused : G.Used t₀ done c) (htrace : c'.trace = c.trace)
    (hholder : G.holder c'.shared = G.holder c.shared)
    (hres : G.resource c'.shared = G.resource c.shared) : G.Used t₀ done c' := by
  obtain ⟨t, hserial, hfree, hheld⟩ := hused
  refine ⟨t, hserial, ?_, ?_⟩
  · rw [hholder, hres]
    exact hfree
  · rw [hholder, hres, htrace]
    exact hheld

/-- The resource changes from outside: between two threads, or under the holder of the lock. -/
lemma Used.outside {t₀ : T} {done : List (ℕ × L × R)} {c c' : Config Ans S L R}
    (hused : G.Used t₀ done c) (htrace : c'.trace = c.trace)
    (hholder : G.holder c'.shared = G.holder c.shared)
    (hout : G.outside (G.resource c.shared) (G.resource c'.shared)) : G.Used t₀ done c' := by
  obtain ⟨t, hserial, hfree, hheld⟩ := hused
  rw [← hholder] at hfree hheld
  cases hlock : G.holder c'.shared with
  | none =>
    rw [hfree hlock] at hout
    refine ⟨G.resource c'.shared, hserial.outside hout, fun _ => rfl, fun j hj => ?_⟩
    rw [hlock] at hj
    cases hj
  | some i =>
    refine ⟨t, hserial, fun hnone => ?_, fun j hj => ?_⟩
    · rw [hlock] at hnone
      cases hnone
    · rw [htrace]
      exact (hheld j hj).outside hout

/-- One step of a run. -/
lemma Serving.step {t₀ : T} {done : List (ℕ × L × R)} {c c' : Config Ans S L R} {a : Action E V L}
    (hbody : ∀ l, sys.spawnable l →
      (sys.body l).Meets (discipline G.role) (fun p _ => p ≠ .holding) .before)
    (hc : G.Serving t₀ done c) (h : sys.step c a = some c') :
    G.Serving t₀ (done ++ (System.newReturn c c' a).toList) c' := by
  have hdisciplined : G.Disciplined c' := (lock_sound hbody).step hc.disciplined hc.appeared h
  have happeared : Appeared sys c' := appeared_step hc.appeared h
  have hcompletes : System.Completes sys c' := hc.completes.step h
  have hreturns := hc.returns.step hc.disciplined.recorded
    (fun i t r ht => G.once (hc.appeared i t ht) r) h
  refine ⟨hdisciplined, happeared, hcompletes, hreturns, ?_⟩
  rcases System.step_cases h with ⟨l, rfl, -, rfl⟩ | ⟨i, e, l, hist, o, k, ans, s', rfl, ht, he, rfl⟩ |
    ⟨i, l, hist, r, p, rfl, ht, hp, rfl⟩ | ⟨i, l, hist, o, k, rfl, ht, hd, rfl⟩ |
    ⟨v, s', rfl, hv, rfl⟩
  · exact hc.used.spawn (l := l) rfl rfl (by simp)
  · obtain rfl := hc.disciplined.recorded.hist i _ ht
    have hmeets := hdisciplined.threads i ⟨l, histOf c.trace i ++ [⟨o, ans⟩], k ans⟩ (by simp)
    refine hc.used.exec hc.disciplined ht he hmeets (fun r hk => ?_) rfl ?_ (fun j hj => ?_) ?_
    · exact runs_of_ret hcompletes (i := i) (by simp [hk]) (G.once (hc.appeared i _ ht))
    · simp [histOf_snoc]
    · simp [histOf_snoc, Ne.symm hj]
    · simp [histOf_snoc]
  · rw [G.once (hc.appeared i _ ht) r] at hp
    cases hp
  · have hphase := phase_of_droppable hc.disciplined hc.appeared ht hd
    have hnot : G.holder c.shared ≠ some i := fun hi => by
      rw [(hc.disciplined.inv.holder i).mp hi] at hphase
      cases hphase
    obtain ⟨hholder, hres⟩ := G.cancel (l := l) hnot
    rw [System.newReturn_cancel, Option.toList_none, List.append_nil]
    exact hc.used.congr rfl hholder hres
  · obtain ⟨hholder, hout⟩ := G.env hv
    rw [System.newReturn_env, Option.toList_none, List.append_nil]
    exact hc.used.outside rfl hholder hout

/-- Nothing has happened yet, and the lock is free. -/
lemma serving_initial {s : S} (hfree : G.holder s = none) :
    G.Serving (G.resource s) [] (.initial s) := by
  have hnone : ∀ i, (Config.initial s : Config Ans S L R).threads i = none := fun _ => rfl
  have hthreads : ∀ i t, (Config.initial s : Config Ans S L R).threads i ≠ some t := by
    intro i t ht
    rw [hnone i] at ht
    cases ht
  have hlock : G.LockInv s ([] : List (Entry Ans S L)) := by
    refine ⟨fun i => ?_, fun i _ ev hev => absurd hev List.not_mem_nil⟩
    have hphase : G.phase [] = .before := rfl
    simp [hfree, hphase]
  refine ⟨⟨?_, hlock, fun i t ht => absurd ht (hthreads i t)⟩, fun i t ht => absurd ht (hthreads i t),
    fun i t ht => absurd ht (hthreads i t), ⟨fun i x => ?_, List.nodup_nil⟩,
    ⟨G.resource s, .nil _, fun _ => rfl, fun i hi => ?_⟩⟩
  · exact System.Recorded.start (fun i _ => hnone i) (fun i t ht => absurd ht (hthreads i t)) rfl
  · simp [Config.returned, hnone]
  · rw [show G.holder s = some i from hi] at hfree
    cases hfree

/-- After every run of disciplined programs, from a configuration without threads in which the lock
is free: the resource was used by the threads that have returned, one after another and in the
order in which they returned, and by the holder of the lock. -/
theorem serial
    (hbody : ∀ l, sys.spawnable l →
      (sys.body l).Meets (discipline G.role) (fun p _ => p ≠ .holding) .before)
    {s : S} (hfree : G.holder s = none) {as : List (Action E V L)} {c : Config Ans S L R}
    (hrun : sys.run (.initial s) as = some c) :
    G.Serving (G.resource s) (sys.returnsAlong (.initial s) as) c := by
  have hfrom : ∀ (as : List (Action E V L)) (done : List (ℕ × L × R)) (d : Config Ans S L R),
      G.Serving (G.resource s) done d → sys.run d as = some c →
      G.Serving (G.resource s) (done ++ sys.returnsAlong d as) c := by
    intro as
    induction as with
    | nil =>
      intro done d hd hrun
      obtain rfl := Option.some.inj hrun
      simpa [System.returnsAlong] using hd
    | cons a as ih =>
      intro done d hd hrun
      obtain ⟨d', hd', hrun⟩ := Option.bind_eq_some_iff.mp hrun
      rw [System.returnsAlong_cons hd', ← List.append_assoc]
      exact ih _ d' (hd.step hbody hd') hrun
  simpa using hfrom as [] _ (serving_initial hfree) hrun

end Guard

end Interleaving
