import HsmProxy.Interleaving.Program

/-!
# Interleaved runs of programs on a shared state

A `System` says what the operations do to a shared state, which program each kind of thread runs,
whether a thread goes on when its program returns, which kinds of threads may appear, what is
released when a thread is dropped in the middle, and how the environment may change the state on
its own.

A configuration holds the shared state, the threads that exist, each with its remaining program
and its history, and the trace of everything that was executed.  `System.step` performs one
action: a new thread appears, a thread executes its next operation, a thread goes on, a thread is
dropped, the environment acts.  Interleavings are lists of actions and `System.run` executes one.

`System.run_invariant` is the induction over a run.  `System.Sound` collects the obligations of
the shared-invariant method: every program meets its contract, and as long as programs issue only
operations their contract allows, the invariant of the shared state and the trace is kept and the
answers are those the contracts rely on.  `System.Sound.run` concludes that the invariant holds
after every interleaving.
-/

namespace Interleaving

variable {Op : Type} {Ans : Op → Type} {S E V L R : Type}

/-- The meaning of the operations and the programs of the threads.  `E` is what the environment
decides about a single operation, `V` are its own actions, `L` are the kinds of threads, `R` is
what programs return. -/
structure System {Op : Type} (Ans : Op → Type) (S E V L R : Type) where
  /-- The program a thread of a kind starts with. -/
  body : L → Prog Ans R
  /-- The program a thread continues with after its program has returned. -/
  again : L → R → Option (Prog Ans R)
  /-- The kinds of threads that may appear at any time. -/
  spawnable : L → Bool
  /-- One operation, issued by a thread on the shared state; `none` when it cannot proceed. -/
  exec : E → ℕ → S → (o : Op) → Option (Ans o × S)
  /-- The operations a thread of a kind may be dropped in front of. -/
  droppable : L → Op → Bool
  /-- What is released when a thread is dropped in the middle of its program. -/
  cancel : ℕ → L → S → S
  /-- A change of the state that no thread makes. -/
  env : V → S → Option S

/-- A thread: its kind, its history, and what remains of the program it is running. -/
structure Thread {Op : Type} (Ans : Op → Type) (L R : Type) where
  label : L
  hist : List (Event Ans)
  prog : Prog Ans R

/-- One executed operation: who issued it, after which history, in which state, and the answer. -/
structure Entry {Op : Type} (Ans : Op → Type) (S L : Type) where
  tid : ℕ
  label : L
  hist : List (Event Ans)
  before : S
  event : Event Ans

/-- A configuration of the system. -/
structure Config {Op : Type} (Ans : Op → Type) (S L R : Type) where
  shared : S
  threads : ℕ → Option (Thread Ans L R)
  /-- The number of threads that ever existed; it is the name of the next one. -/
  spawned : ℕ
  trace : List (Entry Ans S L)

/-- The configuration in which no thread has appeared yet. -/
def Config.initial (s : S) : Config Ans S L R := ⟨s, fun _ => none, 0, []⟩

/-- The operation a thread is about to execute. -/
def Config.nextOp (c : Config Ans S L R) (i : ℕ) : Option Op :=
  match c.threads i with
  | some ⟨_, _, .call o _⟩ => some o
  | _ => none

/-- What the program of a thread has returned. -/
def Config.returned (c : Config Ans S L R) (i : ℕ) : Option (L × R) :=
  match c.threads i with
  | some ⟨l, _, .ret r⟩ => some (l, r)
  | _ => none

/-- The actions an interleaving is made of. -/
inductive Action (E V L : Type) where
  | spawn (l : L)
  | exec (i : ℕ) (e : E)
  | again (i : ℕ)
  | cancel (i : ℕ)
  | env (v : V)

/-- Does an action drop a thread? -/
def Action.drops : Action E V L → Bool
  | .cancel _ => true
  | _ => false

/-- The operation an action executes, if it executes one. -/
def Config.opOf (c : Config Ans S L R) : Action E V L → Option Op
  | .exec i _ => c.nextOp i
  | _ => none

namespace System

variable (sys : System Ans S E V L R)

/-- The configuration in which thread `i` is replaced by `t`. -/
def setThread (c : Config Ans S L R) (i : ℕ) (t : Option (Thread Ans L R)) : Config Ans S L R :=
  { c with threads := Function.update c.threads i t }

/-- One action; `none` when it is not possible in this configuration. -/
def step (c : Config Ans S L R) : Action E V L → Option (Config Ans S L R)
  | .spawn l =>
    if sys.spawnable l then
      some { setThread c c.spawned (some ⟨l, [], sys.body l⟩) with spawned := c.spawned + 1 }
    else none
  | .exec i e =>
    match c.threads i with
    | some ⟨l, h, .call o k⟩ =>
      (sys.exec e i c.shared o).map fun r =>
        { setThread c i (some ⟨l, h ++ [⟨o, r.1⟩], k r.1⟩) with
          shared := r.2
          trace := c.trace ++ [⟨i, l, h, c.shared, ⟨o, r.1⟩⟩] }
    | _ => none
  | .again i =>
    match c.threads i with
    | some ⟨l, h, .ret r⟩ => (sys.again l r).map fun p => setThread c i (some ⟨l, h, p⟩)
    | _ => none
  | .cancel i =>
    match c.threads i with
    | some ⟨l, _, .call o _⟩ =>
      if sys.droppable l o then
        some { setThread c i none with shared := sys.cancel i l c.shared }
      else none
    | _ => none
  | .env v => (sys.env v c.shared).map fun s => { c with shared := s }

/-- Execute a list of actions; `none` when one of them is not possible. -/
def run (c : Config Ans S L R) : List (Action E V L) → Option (Config Ans S L R)
  | [] => some c
  | a :: as => (sys.step c a).bind fun c' => run c' as

/-- Every action of the list meets a condition on the configuration it is performed in. -/
def Throughout (P : Config Ans S L R → Action E V L → Prop) (c : Config Ans S L R) :
    List (Action E V L) → Prop
  | [] => True
  | a :: as => P c a ∧ ∀ c', sys.step c a = some c' → Throughout P c' as

/-- Whether a run meets a decidable condition can be evaluated. -/
instance decidableThroughout (P : Config Ans S L R → Action E V L → Prop)
    [∀ c a, Decidable (P c a)] :
    (c : Config Ans S L R) → (as : List (Action E V L)) → Decidable (sys.Throughout P c as)
  | _, [] => isTrue True.intro
  | c, a :: as =>
    match h : sys.step c a with
    | none => decidable_of_iff (P c a)
        ⟨fun hP => ⟨hP, fun c' hc' => by rw [h] at hc'; cases hc'⟩, fun hP => hP.1⟩
    | some c' =>
      have := decidableThroughout P c' as
      decidable_of_iff (P c a ∧ sys.Throughout P c' as)
        ⟨fun hP => ⟨hP.1, fun d hd => by rw [h] at hd; cases hd; exact hP.2⟩,
          fun hP => ⟨hP.1, hP.2 c' h⟩⟩

variable {sys}

/-- What a step can do, one case for every action. -/
theorem step_cases {c c' : Config Ans S L R} {a : Action E V L} (h : sys.step c a = some c') :
    (∃ l, a = .spawn l ∧ sys.spawnable l ∧
      c' = { setThread c c.spawned (some ⟨l, [], sys.body l⟩) with spawned := c.spawned + 1 }) ∨
    (∃ i e l hist o k ans s', a = .exec i e ∧ c.threads i = some ⟨l, hist, .call o k⟩ ∧
      sys.exec e i c.shared o = some (ans, s') ∧
      c' = { setThread c i (some ⟨l, hist ++ [⟨o, ans⟩], k ans⟩) with
        shared := s', trace := c.trace ++ [⟨i, l, hist, c.shared, ⟨o, ans⟩⟩] }) ∨
    (∃ i l hist r p, a = .again i ∧ c.threads i = some ⟨l, hist, .ret r⟩ ∧
      sys.again l r = some p ∧ c' = setThread c i (some ⟨l, hist, p⟩)) ∨
    (∃ i l hist o k, a = .cancel i ∧ c.threads i = some ⟨l, hist, .call o k⟩ ∧
      sys.droppable l o ∧
      c' = { setThread c i none with shared := sys.cancel i l c.shared }) ∨
    (∃ v s', a = .env v ∧ sys.env v c.shared = some s' ∧ c' = { c with shared := s' }) := by
  cases a with
  | spawn l =>
    simp only [step] at h
    split at h
    · rename_i hl
      exact Or.inl ⟨l, rfl, hl, (Option.some.inj h).symm⟩
    · cases h
  | exec i e =>
    simp only [step] at h
    split at h
    · rename_i l hist o k ht
      obtain ⟨⟨ans, s'⟩, he, rfl⟩ := Option.map_eq_some_iff.mp h
      exact Or.inr (Or.inl ⟨i, e, l, hist, o, k, ans, s', rfl, ht, he, rfl⟩)
    · cases h
  | again i =>
    simp only [step] at h
    split at h
    · rename_i l hist r ht
      obtain ⟨p, hp, rfl⟩ := Option.map_eq_some_iff.mp h
      exact Or.inr (Or.inr (Or.inl ⟨i, l, hist, r, p, rfl, ht, hp, rfl⟩))
    · cases h
  | cancel i =>
    simp only [step] at h
    split at h
    · rename_i l hist o k ht
      split at h
      · rename_i hd
        exact Or.inr (Or.inr (Or.inr (Or.inl
          ⟨i, l, hist, o, k, rfl, ht, hd, (Option.some.inj h).symm⟩)))
      · cases h
    · cases h
  | env v =>
    obtain ⟨s', hs, rfl⟩ := Option.map_eq_some_iff.mp h
    exact Or.inr (Or.inr (Or.inr (Or.inr ⟨v, s', rfl, hs, rfl⟩)))

/-- Induction over a run whose steps all meet a condition. -/
theorem run_invariant {P : Config Ans S L R → Action E V L → Prop} {I : Config Ans S L R → Prop}
    (hstep : ∀ c a c', I c → P c a → sys.step c a = some c' → I c') {c c' : Config Ans S L R}
    {as : List (Action E V L)} (hI : I c) (hP : sys.Throughout P c as)
    (h : sys.run c as = some c') : I c' := by
  induction as generalizing c with
  | nil =>
    obtain rfl := Option.some.inj h
    exact hI
  | cons a as ih =>
    obtain ⟨d, hd, hrun⟩ := Option.bind_eq_some_iff.mp h
    exact ih (hstep c a d hI hP.1 hd) (hP.2 d hd) hrun

/-- A thread that exists after a step was there before, under the same label, or is the one that the
step has spawned. -/
lemma label_of_step {c c' : Config Ans S L R} {a : Action E V L} (h : sys.step c a = some c') {j : ℕ}
    {t : Thread Ans L R} (hj : c'.threads j = some t) :
    (∃ t', c.threads j = some t' ∧ t'.label = t.label) ∨
      a = .spawn t.label ∧ j = c.spawned ∧ sys.spawnable t.label = true := by
  rcases step_cases h with ⟨l, rfl, hl, rfl⟩ | ⟨i, e, l, hist, o, k, ans, s', -, ht, -, rfl⟩ |
    ⟨i, l, hist, r, p, -, ht, -, rfl⟩ | ⟨i, l, hist, o, k, -, ht, -, rfl⟩ | ⟨v, s', -, -, rfl⟩
  · by_cases hij : j = c.spawned
    · obtain rfl : t = ⟨l, [], sys.body l⟩ := by simpa [setThread, hij] using hj.symm
      exact Or.inr ⟨rfl, hij, hl⟩
    · exact Or.inl ⟨t, by simpa [setThread, hij] using hj, rfl⟩
  · by_cases hij : j = i
    · obtain rfl : t = ⟨l, hist ++ [⟨o, ans⟩], k ans⟩ := by simpa [setThread, hij] using hj.symm
      subst hij
      exact Or.inl ⟨_, ht, rfl⟩
    · exact Or.inl ⟨t, by simpa [setThread, hij] using hj, rfl⟩
  · by_cases hij : j = i
    · obtain rfl : t = ⟨l, hist, p⟩ := by simpa [setThread, hij] using hj.symm
      subst hij
      exact Or.inl ⟨_, ht, rfl⟩
    · exact Or.inl ⟨t, by simpa [setThread, hij] using hj, rfl⟩
  · by_cases hij : j = i
    · simp [setThread, hij] at hj
    · exact Or.inl ⟨t, by simpa [setThread, hij] using hj, rfl⟩
  · exact Or.inl ⟨t, hj, rfl⟩

/-- The number of threads that ever existed does not fall. -/
lemma spawned_le_of_step {c c' : Config Ans S L R} {a : Action E V L}
    (h : sys.step c a = some c') : c.spawned ≤ c'.spawned := by
  rcases step_cases h with ⟨l, -, -, rfl⟩ | ⟨i, e, l, hist, o, k, ans, s', -, -, -, rfl⟩ |
    ⟨i, l, hist, r, p, -, -, -, rfl⟩ | ⟨i, l, hist, o, k, -, -, -, rfl⟩ | ⟨v, s', -, -, rfl⟩
  · exact Nat.le_succ _
  all_goals exact Nat.le_refl _

/-- The threads that no action spawns are among the first `n`. -/
structure Original (sys : System Ans S E V L R) (n : ℕ) (c : Config Ans S L R) : Prop where
  spawned : n ≤ c.spawned
  old : ∀ i t, c.threads i = some t → sys.spawnable t.label = false → i < n

/-- After a step they still are. -/
lemma Original.step {n : ℕ} {c c' : Config Ans S L R} {a : Action E V L} (hc : Original sys n c)
    (h : sys.step c a = some c') : Original sys n c' := by
  refine ⟨Nat.le_trans hc.spawned (spawned_le_of_step h), fun j t hj hold => ?_⟩
  rcases label_of_step h hj with ⟨t', ht', hlabel⟩ | ⟨-, -, hnew⟩
  · exact hc.old j t' ht' (hlabel ▸ hold)
  · exact absurd hnew (Bool.eq_false_iff.mp hold)

/-- The names and the labels of the threads fit together. -/
def Placed (K : ℕ → L → Prop) (c : Config Ans S L R) : Prop :=
  ∀ i t, c.threads i = some t → K i t.label

/-- Where no thread is spawned, the names and the labels of the threads stay as they are. -/
lemma Placed.step {K : ℕ → L → Prop} (hspawn : ∀ l, sys.spawnable l = false)
    {c c' : Config Ans S L R} {a : Action E V L} (hc : Placed K c) (h : sys.step c a = some c') :
    Placed K c' := by
  intro j t hj
  rcases label_of_step h hj with ⟨t', ht', hlabel⟩ | ⟨-, -, hnew⟩
  · exact hlabel ▸ hc j t' ht'
  · exact absurd hnew (Bool.eq_false_iff.mp (hspawn t.label))

/-- Where no thread is spawned, a thread that has ended stays as it is. -/
lemma ended_step (hspawn : ∀ l, sys.spawnable l = false) {c c' : Config Ans S L R}
    {a : Action E V L} {i : ℕ} {l : L} {hist : List (Event Ans)} {r : R}
    (hlast : sys.again l r = none) (hi : c.threads i = some ⟨l, hist, .ret r⟩)
    (h : sys.step c a = some c') : c'.threads i = some ⟨l, hist, .ret r⟩ := by
  rcases step_cases h with ⟨l', -, hl, -⟩ | ⟨j, e, l', hist', o, k, ans, s', -, ht, -, rfl⟩ |
    ⟨j, l', hist', r', p, -, ht, hp, rfl⟩ | ⟨j, l', hist', o, k, -, ht, -, rfl⟩ | ⟨v, s', -, -, rfl⟩
  · exact absurd hl (Bool.eq_false_iff.mp (hspawn l'))
  · have hij : i ≠ j := by
      rintro rfl
      rw [hi] at ht
      cases ht
    simpa [setThread, hij] using hi
  · have hij : i ≠ j := by
      rintro rfl
      rw [hi] at ht
      cases ht
      rw [hlast] at hp
      cases hp
    simpa [setThread, hij] using hi
  · have hij : i ≠ j := by
      rintro rfl
      rw [hi] at ht
      cases ht
    simpa [setThread, hij] using hi
  · exact hi

/-- A condition that does not depend on the configuration. -/
lemma throughout_of_forall {P : Config Ans S L R → Action E V L → Prop}
    {as : List (Action E V L)} (h : ∀ a ∈ as, ∀ c, P c a) (c : Config Ans S L R) :
    sys.Throughout P c as := by
  induction as generalizing c with
  | nil => exact True.intro
  | cons a as ih =>
    exact ⟨h a List.mem_cons_self c, fun c' _ => ih (fun b hb => h b (List.mem_cons_of_mem a hb)) c'⟩

/-- Every run meets no condition. -/
lemma throughout_true (c : Config Ans S L R) (as : List (Action E V L)) :
    sys.Throughout (fun _ _ => True) c as :=
  throughout_of_forall (fun _ _ _ => True.intro) c

/-- An invariant of all steps holds along every run. -/
lemma throughout_invariant {I : Config Ans S L R → Prop}
    (hstep : ∀ c a c', I c → sys.step c a = some c' → I c') {c : Config Ans S L R}
    {as : List (Action E V L)} (hI : I c) : sys.Throughout (fun c _ => I c) c as := by
  induction as generalizing c with
  | nil => exact True.intro
  | cons a as ih => exact ⟨hI, fun c' hc' => ih (hstep c a c' hI hc')⟩

/-- A condition that follows from another one. -/
lemma Throughout.mono {P Q : Config Ans S L R → Action E V L → Prop} {c : Config Ans S L R}
    {as : List (Action E V L)} (hP : sys.Throughout P c as) (hPQ : ∀ c a, P c a → Q c a) :
    sys.Throughout Q c as := by
  induction as generalizing c with
  | nil => exact True.intro
  | cons a as ih => exact ⟨hPQ c a hP.1, fun c' hc' => ih (hP.2 c' hc')⟩

/-- Two conditions on the steps are one. -/
lemma Throughout.and {P Q : Config Ans S L R → Action E V L → Prop} {c : Config Ans S L R}
    {as : List (Action E V L)} (hP : sys.Throughout P c as) (hQ : sys.Throughout Q c as) :
    sys.Throughout (fun c a => P c a ∧ Q c a) c as := by
  induction as generalizing c with
  | nil => exact True.intro
  | cons a as ih => exact ⟨⟨hP.1, hQ.1⟩, fun c' hc' => ih (hP.2 c' hc') (hQ.2 c' hc')⟩

/-- What steps that meet the condition keep may be added to the condition. -/
lemma Throughout.and_kept {P : Config Ans S L R → Action E V L → Prop}
    {I : Config Ans S L R → Prop}
    (hstep : ∀ c a c', I c → P c a → sys.step c a = some c' → I c')
    {c : Config Ans S L R} {as : List (Action E V L)} (hP : sys.Throughout P c as) (hI : I c) :
    sys.Throughout (fun c a => P c a ∧ I c) c as := by
  induction as generalizing c with
  | nil => exact True.intro
  | cons a as ih => exact ⟨⟨hP.1, hI⟩, fun c' hc' => ih (hP.2 c' hc') (hstep c a c' hI hP.1 hc')⟩

/-- An invariant of all steps may be added to the condition on the steps. -/
lemma Throughout.and_invariant {P : Config Ans S L R → Action E V L → Prop}
    {I : Config Ans S L R → Prop} (hstep : ∀ c a c', I c → sys.step c a = some c' → I c')
    {c : Config Ans S L R} {as : List (Action E V L)} (hP : sys.Throughout P c as) (hI : I c) :
    sys.Throughout (fun c a => P c a ∧ I c) c as :=
  hP.and_kept (fun c a c' hI _ h => hstep c a c' hI h) hI

/-- Running a concatenation is running its parts. -/
lemma run_append (c : Config Ans S L R) (as bs : List (Action E V L)) :
    sys.run c (as ++ bs) = (sys.run c as).bind fun c' => sys.run c' bs := by
  induction as generalizing c with
  | nil => rfl
  | cons a as ih =>
    simp only [List.cons_append, run, Option.bind_assoc]
    exact congrArg _ (funext fun c' => ih c')

/-- A condition along a concatenation is the condition along its parts. -/
lemma throughout_append {P : Config Ans S L R → Action E V L → Prop} {c : Config Ans S L R}
    {as bs : List (Action E V L)} : sys.Throughout P c (as ++ bs) ↔
      sys.Throughout P c as ∧ ∀ c', sys.run c as = some c' → sys.Throughout P c' bs := by
  induction as generalizing c with
  | nil => exact ⟨fun h => ⟨True.intro, fun c' hc' => Option.some.inj hc' ▸ h⟩, fun h => h.2 c rfl⟩
  | cons a as ih =>
    constructor
    · rintro ⟨ha, hrest⟩
      refine ⟨⟨ha, fun c₁ h₁ => (ih.mp (hrest c₁ h₁)).1⟩, fun c' hc' => ?_⟩
      obtain ⟨c₁, h₁, hc'⟩ := Option.bind_eq_some_iff.mp hc'
      exact (ih.mp (hrest c₁ h₁)).2 c' hc'
    · rintro ⟨⟨ha, has⟩, hbs⟩
      exact ⟨ha, fun c₁ h₁ => ih.mpr ⟨has c₁ h₁, fun c' hc' =>
        hbs c' (Option.bind_eq_some_iff.mpr ⟨c₁, h₁, hc'⟩)⟩⟩

/-- Two conditions that agree wherever an invariant holds, and of which the first keeps the
invariant, hold along the same runs. -/
theorem throughout_congr {P Q : Config Ans S L R → Action E V L → Prop}
    {I : Config Ans S L R → Prop} (hiff : ∀ c a, I c → (P c a ↔ Q c a))
    (hstep : ∀ c a c', I c → P c a → sys.step c a = some c' → I c') {c : Config Ans S L R}
    {as : List (Action E V L)} (hI : I c) : sys.Throughout P c as ↔ sys.Throughout Q c as := by
  induction as generalizing c with
  | nil => exact Iff.rfl
  | cons a as ih =>
    refine and_congr_right_iff.mpr ?_ |>.trans (and_congr_left_iff.mpr fun _ => hiff c a hI)
    intro hP
    exact forall₂_congr fun c' hc' => ih (hstep c a c' hI hP hc')

/-- The operation of an enabled execution step. -/
lemma nextOp_eq {c : Config Ans S L R} {i : ℕ} {l : L} {h : List (Event Ans)} {o : Op}
    {k : Ans o → Prog Ans R} (ht : c.threads i = some ⟨l, h, .call o k⟩) : c.nextOp i = some o := by
  simp [Config.nextOp, ht]

/-- The thread behind the next operation. -/
lemma exists_thread {c : Config Ans S L R} {i : ℕ} {o : Op} (h : c.nextOp i = some o) :
    ∃ l hist k, c.threads i = some ⟨l, hist, .call o k⟩ := by
  unfold Config.nextOp at h
  split at h
  · rename_i l hist o' k ht
    obtain rfl := Option.some.inj h
    exact ⟨l, hist, k, ht⟩
  · cases h

/-- The thread that has returned. -/
lemma exists_returned {c : Config Ans S L R} {i : ℕ} {l : L} {r : R}
    (h : c.returned i = some (l, r)) : ∃ hist, c.threads i = some ⟨l, hist, .ret r⟩ := by
  unfold Config.returned at h
  split at h
  · rename_i l' hist r' ht
    obtain ⟨rfl, rfl⟩ := Prod.mk.inj (Option.some.inj h)
    exact ⟨hist, ht⟩
  · cases h

/-- A thread executes its next operation. -/
lemma step_exec {c : Config Ans S L R} {i : ℕ} {e : E} {l : L} {h : List (Event Ans)} {o : Op}
    {k : Ans o → Prog Ans R} {a : Ans o} {s' : S} (ht : c.threads i = some ⟨l, h, .call o k⟩)
    (he : sys.exec e i c.shared o = some (a, s')) :
    sys.step c (.exec i e) = some { setThread c i (some ⟨l, h ++ [⟨o, a⟩], k a⟩) with
      shared := s', trace := c.trace ++ [⟨i, l, h, c.shared, ⟨o, a⟩⟩] } := by
  simp only [step, ht, he, Option.map_some]

/-- What it takes for a thread to execute an operation, and what becomes of the configuration. -/
lemma exec_of_step {c c' : Config Ans S L R} {i : ℕ} {e : E} (h : sys.step c (.exec i e) = some c') :
    ∃ l hist o k a s', c.threads i = some ⟨l, hist, .call o k⟩ ∧
      sys.exec e i c.shared o = some (a, s') ∧
      c' = { setThread c i (some ⟨l, hist ++ [⟨o, a⟩], k a⟩) with
        shared := s', trace := c.trace ++ [⟨i, l, hist, c.shared, ⟨o, a⟩⟩] } := by
  rcases step_cases h with ⟨l, ha, -⟩ | ⟨j, e', l, hist, o, k, a, s', ha, ht, he, rfl⟩ |
    ⟨j, l, hist, r, p, ha, -⟩ | ⟨j, l, hist, o, k, ha, -⟩ | ⟨v, s', ha, -⟩
  · cases ha
  · cases ha
    exact ⟨l, hist, o, k, a, s', ht, he, rfl⟩
  · cases ha
  · cases ha
  · cases ha

/-- A step leaves the trace alone, or extends it by the operation of a thread. -/
lemma trace_step {c c' : Config Ans S L R} {a : Action E V L} (h : sys.step c a = some c') :
    c'.trace = c.trace ∨ ∃ i l hist o k ans, c.threads i = some ⟨l, hist, .call o k⟩ ∧
      c'.trace = c.trace ++ [⟨i, l, hist, c.shared, ⟨o, ans⟩⟩] := by
  rcases step_cases h with ⟨l, -, -, rfl⟩ | ⟨i, e, l, hist, o, k, ans, s', -, ht, -, rfl⟩ |
    ⟨i, l, hist, r, p, -, -, -, rfl⟩ | ⟨i, l, hist, o, k, -, -, -, rfl⟩ | ⟨v, s', -, -, rfl⟩
  · exact Or.inl rfl
  · exact Or.inr ⟨i, l, hist, o, k, ans, ht, rfl⟩
  · exact Or.inl rfl
  · exact Or.inl rfl
  · exact Or.inl rfl

/-- A thread is dropped. -/
lemma step_cancel {c : Config Ans S L R} {i : ℕ} {l : L} {h : List (Event Ans)} {o : Op}
    {k : Ans o → Prog Ans R} (ht : c.threads i = some ⟨l, h, .call o k⟩)
    (hd : sys.droppable l o = true) :
    sys.step c (.cancel i) =
      some { setThread c i none with shared := sys.cancel i l c.shared } := by
  simp only [step, ht, hd, if_true]

variable (sys) in
/-- Some run leads from one configuration to another. -/
def Reaches (c c' : Config Ans S L R) : Prop := ∃ as, sys.run c as = some c'

/-- The empty run. -/
lemma Reaches.refl (c : Config Ans S L R) : sys.Reaches c c := ⟨[], rfl⟩

/-- Runs can be continued. -/
lemma Reaches.trans {c₁ c₂ c₃ : Config Ans S L R} (h : sys.Reaches c₁ c₂) (h' : sys.Reaches c₂ c₃) :
    sys.Reaches c₁ c₃ := by
  obtain ⟨as, has⟩ := h
  obtain ⟨bs, hbs⟩ := h'
  exact ⟨as ++ bs, by rw [run_append, has, Option.bind_some, hbs]⟩

/-- The thread found at `j` after thread `i` was replaced. -/
@[simp] lemma setThread_threads (c : Config Ans S L R) (i j : ℕ) (t : Option (Thread Ans L R)) :
    (setThread c i t).threads j = if j = i then t else c.threads j := by
  simp [setThread, Function.update_apply]

/-- A step is a run. -/
lemma Reaches.of_step {c c' : Config Ans S L R} {a : Action E V L} (h : sys.step c a = some c') :
    sys.Reaches c c' :=
  ⟨[a], by rw [run, h]; rfl⟩

/-- A thread can execute its next operation, and nothing else changes. -/
lemma exists_exec {c : Config Ans S L R} {i : ℕ} {e : E} {l : L} {h : List (Event Ans)} {o : Op}
    {k : Ans o → Prog Ans R} {a : Ans o} {s' : S} (ht : c.threads i = some ⟨l, h, .call o k⟩)
    (he : sys.exec e i c.shared o = some (a, s')) :
    ∃ c', sys.Reaches c c' ∧ c'.threads i = some ⟨l, h ++ [⟨o, a⟩], k a⟩ ∧
      (∀ j, j ≠ i → c'.threads j = c.threads j) ∧ c'.shared = s' := by
  refine ⟨_, .of_step (step_exec ht he), ?_, fun j hj => ?_, rfl⟩
  · simp
  · simp [hj]

/-- A thread can be dropped, and nothing else changes. -/
lemma exists_cancel {c : Config Ans S L R} {i : ℕ} {l : L} {h : List (Event Ans)} {o : Op}
    {k : Ans o → Prog Ans R} (ht : c.threads i = some ⟨l, h, .call o k⟩)
    (hd : sys.droppable l o = true) :
    ∃ c', sys.Reaches c c' ∧ c'.threads i = none ∧
      (∀ j, j ≠ i → c'.threads j = c.threads j) ∧ c'.shared = sys.cancel i l c.shared := by
  refine ⟨_, .of_step (step_cancel ht hd), ?_, fun j hj => ?_, rfl⟩
  · simp
  · simp [hj]

end System

end Interleaving
