import HsmProxy.Interleaving.System
import Mathlib.Algebra.BigOperators.Group.Finset.Basic
import Mathlib.Algebra.BigOperators.Ring.Finset

/-!
# The shared-invariant method

A thread's history can be read off the trace (`histOf`), so a fact that relates the shared state to
what the threads have done is an invariant of the shared state and the trace.  `System.Recorded`
is the bookkeeping that holds in every run.  `System.Sound` lists the proof obligations of the
method, each about a single program or a single step, and `System.Sound.run` is the rule: after
every run whose steps meet a side condition, the invariant holds and every thread keeps to its
contract (`System.Outline`).
-/

namespace Interleaving

variable {Op : Type} {Ans : Op → Type} {S E V L R G : Type}

/-! ## Histories inside a trace -/

/-- The history of thread `i` as the trace has it. -/
def histOf (tr : List (Entry Ans S L)) (i : ℕ) : List (Event Ans) :=
  (tr.filter fun en => decide (en.tid = i)).map Entry.event

@[simp] lemma histOf_nil (i : ℕ) : histOf ([] : List (Entry Ans S L)) i = [] := rfl

/-- An entry extends the history of its own thread. -/
lemma histOf_snoc (tr : List (Entry Ans S L)) (en : Entry Ans S L) (i : ℕ) :
    histOf (tr ++ [en]) i = if en.tid = i then histOf tr i ++ [en.event] else histOf tr i := by
  by_cases h : en.tid = i <;> simp [histOf, List.filter_append, h]

/-- An event is in a thread's history exactly when an entry of that thread carries it. -/
lemma mem_histOf {tr : List (Entry Ans S L)} {i : ℕ} {ev : Event Ans} :
    ev ∈ histOf tr i ↔ ∃ en ∈ tr, en.tid = i ∧ en.event = ev := by
  simp [histOf, and_assoc]

/-- The sum of a quantity over the events of a history. -/
def total (f : Event Ans → ℕ) (h : List (Event Ans)) : ℕ := (h.map f).sum

@[simp] lemma total_nil (f : Event Ans → ℕ) : total f [] = 0 := rfl

@[simp] lemma total_snoc (f : Event Ans → ℕ) (h : List (Event Ans)) (ev : Event Ans) :
    total f (h ++ [ev]) = total f h + f ev := by
  simp [total]

/-- What the entries of a trace yield, counted by their events. -/
lemma length_filterMap_eq_total {α : Type} {f : Entry Ans S L → Option α} {g : Event Ans → ℕ}
    (h : ∀ en, (f en).toList.length = g en.event) (tr : List (Entry Ans S L)) :
    (tr.filterMap f).length = total g (tr.map Entry.event) := by
  induction tr using List.reverseRecOn with
  | nil => rfl
  | append_singleton tr en ih =>
    rw [List.filterMap_append, List.length_append, ih, List.map_append, List.map_singleton,
      total_snoc, ← h en]
    cases hen : f en <;> simp [hen]

/-- A sum vanishes when every event contributes nothing. -/
lemma total_eq_zero_iff {f : Event Ans → ℕ} {h : List (Event Ans)} :
    total f h = 0 ↔ ∀ ev ∈ h, f ev = 0 := by
  induction h with
  | nil => simp
  | cons ev h ih => simp_all [total]

/-- A sum over the trace is the sum over the threads of the sums over their histories. -/
theorem total_trace {f : Event Ans → ℕ} {tr : List (Entry Ans S L)} {n : ℕ}
    (htids : ∀ en ∈ tr, en.tid < n) :
    total f (tr.map Entry.event) = ∑ i ∈ Finset.range n, total f (histOf tr i) := by
  induction tr using List.reverseRecOn with
  | nil => simp
  | append_singleton tr en ih =>
    have hen : en.tid < n := htids en (by simp)
    rw [List.map_append, List.map_singleton, total_snoc,
      ih fun en' hen' => htids en' (List.mem_append_left _ hen')]
    have hstep : ∀ i ∈ Finset.range n, total f (histOf (tr ++ [en]) i) =
        total f (histOf tr i) + if en.tid = i then f en.event else 0 := by
      intro i _
      rw [histOf_snoc]
      split <;> simp
    rw [Finset.sum_congr rfl hstep, Finset.sum_add_distrib, Finset.sum_ite_eq]
    simp [hen]

/-- What holds of a list and of one more element. -/
lemma forall_mem_snoc {α : Type} {p : α → Prop} {l : List α} {x : α} (hl : ∀ y ∈ l, p y) (hx : p x) :
    ∀ y ∈ l ++ [x], p y :=
  List.forall_mem_append.mpr ⟨hl, List.forall_mem_singleton.mpr hx⟩

/-- Splitting a list that was extended by one element. -/
lemma snoc_eq_append_cons {α : Type} {l l₁ l₂ : List α} {a b : α} :
    l ++ [a] = l₁ ++ b :: l₂ ↔
      (l₂ = [] ∧ l = l₁ ∧ a = b) ∨ ∃ l₃, l₂ = l₃ ++ [a] ∧ l = l₁ ++ b :: l₃ := by
  constructor
  · intro h
    rcases List.eq_nil_or_concat l₂ with rfl | ⟨l₃, x, rfl⟩
    · obtain ⟨hl, ha⟩ := List.append_inj' h rfl
      exact Or.inl ⟨rfl, hl, by simpa using ha⟩
    · have h' : l ++ [a] = (l₁ ++ b :: l₃) ++ [x] := by simpa using h
      obtain ⟨hl, ha⟩ := List.append_inj' h' rfl
      exact Or.inr ⟨l₃, by simpa using ha.symm, hl⟩
  · rintro (⟨rfl, rfl, rfl⟩ | ⟨l₃, rfl, rfl⟩)
    · rfl
    · simp

namespace System

variable {sys : System Ans S E V L R}

/-! ## Bookkeeping -/

/-- Threads, histories and labels agree with the trace. -/
structure Recorded (c : Config Ans S L R) : Prop where
  /-- Names of threads are not reused. -/
  fresh : ∀ i, c.spawned ≤ i → c.threads i = none
  /-- Only threads that appeared have executed anything. -/
  tids : ∀ en ∈ c.trace, en.tid < c.spawned
  /-- A thread's history is its part of the trace. -/
  hist : ∀ i t, c.threads i = some t → t.hist = histOf c.trace i
  /-- A thread's entries carry its label. -/
  label : ∀ i t, c.threads i = some t → ∀ en ∈ c.trace, en.tid = i → en.label = t.label
  /-- Entries of one thread carry one label. -/
  labels : ∀ en ∈ c.trace, ∀ en' ∈ c.trace, en.tid = en'.tid → en.label = en'.label
  /-- An entry carries the history its thread had before it. -/
  entries : ∀ tr₁ en tr₂, c.trace = tr₁ ++ en :: tr₂ → en.hist = histOf tr₁ en.tid

/-- A configuration in which nothing has been executed yet is recorded. -/
lemma Recorded.start {c : Config Ans S L R} (hfresh : ∀ i, c.spawned ≤ i → c.threads i = none)
    (hhist : ∀ i t, c.threads i = some t → t.hist = []) (htrace : c.trace = []) : Recorded c where
  fresh := hfresh
  tids := by simp [htrace]
  hist := by simpa [htrace] using hhist
  label := by simp [htrace]
  labels := by simp [htrace]
  entries := by simp [htrace]

/-- A thread that has not appeared yet has no history. -/
lemma Recorded.histOf_fresh {c : Config Ans S L R} (hc : Recorded c) {i : ℕ}
    (hi : c.spawned ≤ i) : histOf c.trace i = [] := by
  rw [List.eq_nil_iff_forall_not_mem]
  intro ev hev
  obtain ⟨en, hen, htid, -⟩ := mem_histOf.mp hev
  have hlt := hc.tids en hen
  omega

/-- The trace grows by an entry of a thread that exists. -/
lemma Recorded.exec {c : Config Ans S L R} (hc : Recorded c) {i : ℕ} {l : L}
    {h : List (Event Ans)} {o : Op} {k : Ans o → Prog Ans R}
    (ht : c.threads i = some ⟨l, h, .call o k⟩) (a : Ans o) (s' : S) :
    Recorded { setThread c i (some ⟨l, h ++ [⟨o, a⟩], k a⟩) with
      shared := s', trace := c.trace ++ [⟨i, l, h, c.shared, ⟨o, a⟩⟩] } where
  fresh j hj := by
    have hij : j ≠ i := by
      rintro rfl
      rw [hc.fresh j hj] at ht
      cases ht
    simpa [hij] using hc.fresh j hj
  tids en hen := by
    rcases List.mem_append.mp hen with hen | hen
    · exact hc.tids en hen
    · obtain rfl := List.mem_singleton.mp hen
      by_contra hlt
      rw [hc.fresh i (Nat.le_of_not_lt hlt)] at ht
      cases ht
  hist j t hj := by
    by_cases hij : j = i
    · subst hij
      have ht' : t = ⟨l, h ++ [⟨o, a⟩], k a⟩ := by simpa using hj.symm
      subst ht'
      simp [histOf_snoc, ← hc.hist _ _ ht]
    · have hj' : c.threads j = some t := by simpa [hij] using hj
      simp [histOf_snoc, Ne.symm hij, hc.hist j t hj']
  label j t hj en hen htid := by
    by_cases hij : j = i
    · subst hij
      have ht' : t = ⟨l, h ++ [⟨o, a⟩], k a⟩ := by simpa using hj.symm
      subst ht'
      rcases List.mem_append.mp hen with hen | hen
      · exact hc.label _ _ ht en hen htid
      · obtain rfl := List.mem_singleton.mp hen
        rfl
    · have hj' : c.threads j = some t := by simpa [hij] using hj
      rcases List.mem_append.mp hen with hen | hen
      · exact hc.label j t hj' en hen htid
      · obtain rfl := List.mem_singleton.mp hen
        exact absurd htid.symm hij
  labels en hen en' hen' htid := by
    rcases List.mem_append.mp hen with hen | hen <;> rcases List.mem_append.mp hen' with hen' | hen'
    · exact hc.labels en hen en' hen' htid
    · obtain rfl := List.mem_singleton.mp hen'
      exact hc.label _ _ ht en hen htid
    · obtain rfl := List.mem_singleton.mp hen
      exact (hc.label _ _ ht en' hen' htid.symm).symm
    · obtain rfl := List.mem_singleton.mp hen
      obtain rfl := List.mem_singleton.mp hen'
      rfl
  entries tr₁ en tr₂ htr := by
    rcases snoc_eq_append_cons.mp htr with ⟨-, rfl, rfl⟩ | ⟨tr₃, -, htr⟩
    · exact hc.hist _ _ ht
    · exact hc.entries tr₁ en tr₃ htr

/-- The bookkeeping is kept by every step. -/
lemma Recorded.step {c c' : Config Ans S L R} {a : Action E V L} (hc : Recorded c)
    (h : sys.step c a = some c') : Recorded c' := by
  rcases step_cases h with ⟨l, -, -, rfl⟩ | ⟨i, e, l, hist, o, k, ans, s', -, ht, -, rfl⟩ |
    ⟨i, l, hist, r, p, -, ht, -, rfl⟩ | ⟨i, l, hist, o, k, -, ht, -, rfl⟩ | ⟨v, s', -, -, rfl⟩
  · refine ⟨fun j hj => ?_, fun en hen => Nat.lt_succ_of_lt (hc.tids en hen), fun j t hj => ?_,
      fun j t hj en hen htid => ?_, hc.labels, hc.entries⟩
    · have hj' : c.spawned + 1 ≤ j := hj
      have hne : j ≠ c.spawned := by omega
      simpa [hne] using hc.fresh j (by omega)
    · by_cases hij : j = c.spawned
      · subst hij
        have ht' : t = ⟨l, [], sys.body l⟩ := by simpa using hj.symm
        subst ht'
        exact (hc.histOf_fresh (Nat.le_refl _)).symm
      · exact hc.hist j t (by simpa [hij] using hj)
    · have hlt := hc.tids en hen
      have hij : j ≠ c.spawned := by omega
      exact hc.label j t (by simpa [hij] using hj) en hen htid
  · exact hc.exec ht ans s'
  · refine ⟨fun j hj => ?_, hc.tids, fun j t hj => ?_, fun j t hj => ?_, hc.labels, hc.entries⟩
    · have hij : j ≠ i := by
        rintro rfl
        rw [hc.fresh j hj] at ht
        cases ht
      simpa [hij] using hc.fresh j hj
    · by_cases hij : j = i
      · subst hij
        have ht' : t = ⟨l, hist, p⟩ := by simpa using hj.symm
        subst ht'
        exact hc.hist j ⟨l, hist, .ret r⟩ ht
      · exact hc.hist j t (by simpa [hij] using hj)
    · by_cases hij : j = i
      · subst hij
        have ht' : t = ⟨l, hist, p⟩ := by simpa using hj.symm
        subst ht'
        exact hc.label j ⟨l, hist, .ret r⟩ ht
      · exact hc.label j t (by simpa [hij] using hj)
  · refine ⟨fun j hj => ?_, hc.tids, fun j t' hj => ?_, fun j t' hj => ?_, hc.labels, hc.entries⟩
    · by_cases hij : j = i
      · simp [hij]
      · simpa [hij] using hc.fresh j hj
    · by_cases hij : j = i
      · simp [hij] at hj
      · exact hc.hist j t' (by simpa [hij] using hj)
    · by_cases hij : j = i
      · simp [hij] at hj
      · exact hc.label j t' (by simpa [hij] using hj)
  · exact ⟨hc.fresh, hc.tids, hc.hist, hc.label, hc.labels, hc.entries⟩

/-! ## Complete histories -/

/-- No thread has started to run. -/
def Unstarted (sys : System Ans S E V L R) (c : Config Ans S L R) : Prop :=
  ∀ i t, c.threads i = some t → t.hist = [] ∧ t.prog = sys.body t.label

/-- Every completion of what remains of a thread's program, after what it has done, is a complete
history of the program it started with. -/
def Completes (sys : System Ans S E V L R) (c : Config Ans S L R) : Prop :=
  ∀ i t, c.threads i = some t → (∀ r, sys.again t.label r = none) →
    ∀ tr r, Prog.Runs t.prog tr r → Prog.Runs (sys.body t.label) (t.hist ++ tr) r

/-- One step keeps it: the event of an operation moves from the completion to the history. -/
lemma Completes.step {c c' : Config Ans S L R} {a : Action E V L} (hc : Completes sys c)
    (h : sys.step c a = some c') : Completes sys c' := by
  intro j t hj hagain tr r hr
  rcases step_cases h with ⟨l, -, -, rfl⟩ | ⟨i, e, l, hist, o, k, ans, s', -, ht, -, rfl⟩ |
    ⟨i, l, hist, r', p, -, ht, hp, rfl⟩ | ⟨i, l, hist, o, k, -, ht, -, rfl⟩ | ⟨v, s', -, -, rfl⟩
  · by_cases hij : j = c.spawned
    · have ht' : t = ⟨l, [], sys.body l⟩ := by simpa [hij] using hj.symm
      subst ht'
      exact hr
    · exact hc j t (by simpa [hij] using hj) hagain tr r hr
  · by_cases hij : j = i
    · have ht' : t = ⟨l, hist ++ [⟨o, ans⟩], k ans⟩ := by simpa [hij] using hj.symm
      subst ht'
      simpa using hc i _ ht hagain _ r (Prog.Runs.call hr)
    · exact hc j t (by simpa [hij] using hj) hagain tr r hr
  · by_cases hij : j = i
    · have ht' : t = ⟨l, hist, p⟩ := by simpa [hij] using hj.symm
      subst ht'
      rw [hagain r'] at hp
      cases hp
    · exact hc j t (by simpa [hij] using hj) hagain tr r hr
  · by_cases hij : j = i
    · simp [hij] at hj
    · exact hc j t (by simpa [hij] using hj) hagain tr r hr
  · exact hc j t hj hagain tr r hr

/-- A thread that does not go on, and has returned, has performed a complete history of its
program. -/
theorem runs_of_returned {c c' : Config Ans S L R} {as : List (Action E V L)} (hc : Recorded c)
    (hstart : Unstarted sys c) (hrun : sys.run c as = some c') {i : ℕ} {l : L} {r : R}
    (hi : c'.returned i = some (l, r)) (hl : ∀ r, sys.again l r = none) :
    Prog.Runs (sys.body l) (histOf c'.trace i) r := by
  have hboth : Recorded c' ∧ Completes sys c' := by
    refine run_invariant (I := fun d => Recorded d ∧ Completes sys d)
      (fun d a d' hd _ hstep => ⟨hd.1.step hstep, hd.2.step hstep⟩) ⟨hc, ?_⟩
      (throughout_true c as) hrun
    intro j t hj _ tr r hr
    obtain ⟨hhist, hprog⟩ := hstart j t hj
    rw [hhist, ← hprog]
    exact hr
  obtain ⟨hist, ht⟩ := exists_returned hi
  have hhist := hboth.1.hist i _ ht
  have hr := hboth.2 i _ ht hl [] r (Prog.Runs.ret r)
  rw [List.append_nil] at hr
  rw [← hhist]
  exact hr

/-- A condition holds of the history of every thread that is gone, or has not appeared yet. -/
def Gone (J : List (Event Ans) → Prop) (c : Config Ans S L R) : Prop :=
  ∀ i, c.threads i = none → J (histOf c.trace i)

/-- It stays so when it holds of every thread that is dropped. -/
theorem gone_step {J : List (Event Ans) → Prop} {c c' : Config Ans S L R} {a : Action E V L}
    (hc : Recorded c) (hgone : Gone J c)
    (hcancel : ∀ i l o k, a = .cancel i → c.threads i = some ⟨l, histOf c.trace i, .call o k⟩ →
      sys.droppable l o → J (histOf c.trace i))
    (h : sys.step c a = some c') : Gone J c' := by
  intro j hj
  rcases step_cases h with ⟨l, -, -, rfl⟩ | ⟨i, e, l, hist, o, k, ans, s', -, ht, -, rfl⟩ |
    ⟨i, l, hist, r, p, -, ht, -, rfl⟩ | ⟨i, l, hist, o, k, ha, ht, hd, rfl⟩ | ⟨v, s', -, -, rfl⟩
  · by_cases hij : j = c.spawned
    · simp [hij] at hj
    · exact hgone j (by simpa [hij] using hj)
  · by_cases hij : j = i
    · simp [hij] at hj
    · have hj' : c.threads j = none := by simpa [hij] using hj
      rw [histOf_snoc, if_neg (Ne.symm hij)]
      exact hgone j hj'
  · by_cases hij : j = i
    · simp [hij] at hj
    · exact hgone j (by simpa [hij] using hj)
  · by_cases hij : j = i
    · subst hij
      obtain rfl := hc.hist j _ ht
      exact hcancel j l o k ha ht hd
    · exact hgone j (by simpa [hij] using hj)
  · exact hgone j hj

/-- A condition on the shared state and the history of every thread that is there: what has to be
shown for one step. -/
theorem threads_step {K : S → ℕ → List (Event Ans) → Prop} {c c' : Config Ans S L R}
    {a : Action E V L} (hc : ∀ j t, c.threads j = some t → K c.shared j t.hist)
    (hnew : K c.shared c.spawned [])
    (hown : ∀ i e l h o k ans s', a = .exec i e → c.threads i = some ⟨l, h, .call o k⟩ →
      sys.exec e i c.shared o = some (ans, s') → K s' i (h ++ [⟨o, ans⟩]))
    (hother : ∀ i e l h o k ans s', a = .exec i e → c.threads i = some ⟨l, h, .call o k⟩ →
      sys.exec e i c.shared o = some (ans, s') →
      ∀ j t, j ≠ i → c.threads j = some t → K s' j t.hist)
    (hcancel : ∀ i l, a = .cancel i →
      ∀ j t, j ≠ i → c.threads j = some t → K (sys.cancel i l c.shared) j t.hist)
    (henv : ∀ v s', a = .env v → sys.env v c.shared = some s' →
      ∀ j t, c.threads j = some t → K s' j t.hist)
    (h : sys.step c a = some c') : ∀ j t, c'.threads j = some t → K c'.shared j t.hist := by
  intro j t hj
  rcases step_cases h with ⟨l, -, -, rfl⟩ | ⟨i, e, l, hist, o, k, ans, s', ha, ht, he, rfl⟩ |
    ⟨i, l, hist, r, p, -, ht, -, rfl⟩ | ⟨i, l, hist, o, k, ha, ht, -, rfl⟩ | ⟨v, s', ha, hv, rfl⟩
  · by_cases hij : j = c.spawned
    · obtain rfl : t = ⟨l, [], sys.body l⟩ := by simpa [hij] using hj.symm
      rw [hij]
      exact hnew
    · exact hc j t (by simpa [hij] using hj)
  · by_cases hij : j = i
    · obtain rfl : t = ⟨l, hist ++ [⟨o, ans⟩], k ans⟩ := by simpa [hij] using hj.symm
      rw [hij]
      exact hown i e l hist o k ans s' ha ht he
    · exact hother i e l hist o k ans s' ha ht he j t hij (by simpa [hij] using hj)
  · by_cases hij : j = i
    · obtain rfl : t = ⟨l, hist, p⟩ := by simpa [hij] using hj.symm
      rw [hij]
      exact hc i ⟨l, hist, .ret r⟩ ht
    · exact hc j t (by simpa [hij] using hj)
  · by_cases hij : j = i
    · simp [hij] at hj
    · exact hcancel i l ha j t hij (by simpa [hij] using hj)
  · exact henv v s' ha hv j t hj

/-! ## The rule -/

/-- What the method maintains: the bookkeeping, the invariant, and every thread's contract. -/
structure Outline (C : L → Contract Ans G) (Q : L → G → R → Prop)
    (I : S → List (Entry Ans S L) → Prop) (c : Config Ans S L R) : Prop where
  recorded : Recorded c
  inv : I c.shared c.trace
  threads : ∀ i t, c.threads i = some t →
    t.prog.Meets (C t.label) (Q t.label) ((C t.label).ghost t.hist)

/-- The obligations of the method, for runs whose steps meet the condition `P`. -/
structure Sound (sys : System Ans S E V L R) (P : Config Ans S L R → Action E V L → Prop)
    (C : L → Contract Ans G) (Q : L → G → R → Prop)
    (I : S → List (Entry Ans S L) → Prop) : Prop where
  /-- Programs of new threads meet their contract. -/
  body : ∀ l, sys.spawnable l → (sys.body l).Meets (C l) (Q l) (C l).init
  /-- The programs that threads go on with meet it, too. -/
  again : ∀ l g r p, Q l g r → sys.again l r = some p → p.Meets (C l) (Q l) g
  /-- An operation that the contract allows keeps the invariant, and its answer is one the
  contract relies on. -/
  exec : ∀ c i e l o k a s', Outline C Q I c → P c (.exec i e) →
    c.threads i = some ⟨l, histOf c.trace i, .call o k⟩ →
    (C l).pre ((C l).ghost (histOf c.trace i)) o → sys.exec e i c.shared o = some (a, s') →
    (C l).post ((C l).ghost (histOf c.trace i)) o a ∧
      I s' (c.trace ++ [⟨i, l, histOf c.trace i, c.shared, ⟨o, a⟩⟩])
  /-- Dropping a thread keeps the invariant. -/
  cancel : ∀ c i l o k, Outline C Q I c → P c (.cancel i) →
    c.threads i = some ⟨l, histOf c.trace i, .call o k⟩ → sys.droppable l o →
    I (sys.cancel i l c.shared) c.trace
  /-- What the environment does keeps the invariant. -/
  env : ∀ c v s', Outline C Q I c → P c (.env v) → sys.env v c.shared = some s' → I s' c.trace

variable {P : Config Ans S L R → Action E V L → Prop} {C : L → Contract Ans G}
  {Q : L → G → R → Prop} {I : S → List (Entry Ans S L) → Prop}

/-- One step keeps the outline. -/
theorem Sound.step (hs : Sound sys P C Q I) {c c' : Config Ans S L R} {a : Action E V L}
    (hc : Outline C Q I c) (hP : P c a) (h : sys.step c a = some c') : Outline C Q I c' := by
  refine ⟨hc.recorded.step h, ?_, ?_⟩
  · rcases step_cases h with ⟨l, rfl, -, rfl⟩ | ⟨i, e, l, hist, o, k, ans, s', rfl, ht, he, rfl⟩ |
      ⟨i, l, hist, r, p, rfl, ht, -, rfl⟩ | ⟨i, l, hist, o, k, rfl, ht, hd, rfl⟩ |
      ⟨v, s', rfl, hv, rfl⟩
    · exact hc.inv
    · obtain rfl := hc.recorded.hist i _ ht
      exact (hs.exec c i e l o k ans s' hc hP ht (hc.threads i _ ht).1 he).2
    · exact hc.inv
    · obtain rfl := hc.recorded.hist i _ ht
      exact hs.cancel c i l o k hc hP ht hd
    · exact hs.env c v s' hc hP hv
  · intro j t hj
    rcases step_cases h with ⟨l, rfl, hl, rfl⟩ | ⟨i, e, l, hist, o, k, ans, s', rfl, ht, he, rfl⟩ |
      ⟨i, l, hist, r, p, rfl, ht, hp, rfl⟩ | ⟨i, l, hist, o, k, rfl, ht, hd, rfl⟩ |
      ⟨v, s', rfl, hv, rfl⟩
    · by_cases hij : j = c.spawned
      · have ht' : t = ⟨l, [], sys.body l⟩ := by simpa [hij] using hj.symm
        subst ht'
        exact hs.body l hl
      · exact hc.threads j t (by simpa [hij] using hj)
    · by_cases hij : j = i
      · have ht' : t = ⟨l, hist ++ [⟨o, ans⟩], k ans⟩ := by simpa [hij] using hj.symm
        subst ht'
        obtain rfl := hc.recorded.hist i _ ht
        have hmeets := hc.threads i _ ht
        simpa using hmeets.2 ans (hs.exec c i e l o k ans s' hc hP ht hmeets.1 he).1
      · exact hc.threads j t (by simpa [hij] using hj)
    · by_cases hij : j = i
      · have ht' : t = ⟨l, hist, p⟩ := by simpa [hij] using hj.symm
        subst ht'
        exact hs.again l _ r p (hc.threads i _ ht) hp
      · exact hc.threads j t (by simpa [hij] using hj)
    · by_cases hij : j = i
      · simp [hij] at hj
      · exact hc.threads j t (by simpa [hij] using hj)
    · exact hc.threads j t hj

/-- The rule: the outline holds after every run whose steps meet the condition. -/
theorem Sound.run (hs : Sound sys P C Q I) {c c' : Config Ans S L R} {as : List (Action E V L)}
    (hc : Outline C Q I c) (hP : sys.Throughout P c as) (h : sys.run c as = some c') :
    Outline C Q I c' :=
  run_invariant (fun _ _ _ hI hp hst => hs.step hI hp hst) hc hP h

/-- The invariant may in addition say that every executed operation was allowed by the contract of
its thread. -/
theorem Sound.obeying (hs : Sound sys P C Q I) :
    Sound sys P C Q fun s tr => I s tr ∧
      ∀ en ∈ tr, (C en.label).pre ((C en.label).ghost en.hist) en.event.1 := by
  have hweak : ∀ c, Outline C Q (fun s tr => I s tr ∧
      ∀ en ∈ tr, (C en.label).pre ((C en.label).ghost en.hist) en.event.1) c → Outline C Q I c :=
    fun c hc => ⟨hc.recorded, hc.inv.1, hc.threads⟩
  refine ⟨hs.body, hs.again, ?_, ?_, ?_⟩
  · intro c i e l o k a s' hc hP ht hpre he
    obtain ⟨hpost, hI⟩ := hs.exec c i e l o k a s' (hweak c hc) hP ht hpre he
    refine ⟨hpost, hI, fun en hen => ?_⟩
    rcases List.mem_append.mp hen with hen | hen
    · exact hc.inv.2 en hen
    · obtain rfl := List.mem_singleton.mp hen
      exact hpre
  · intro c i l o k hc hP ht hd
    exact ⟨hs.cancel c i l o k (hweak c hc) hP ht hd, hc.inv.2⟩
  · intro c v s' hc hP hv
    exact ⟨hs.env c v s' (hweak c hc) hP hv, hc.inv.2⟩

/-- The invariant may in addition say that a condition on histories, kept by every allowed
operation, holds of the history of every thread that ever was. -/
theorem Sound.histories {J : List (Event Ans) → Prop} (hs : Sound sys P C Q I)
    (hJ : ∀ l h o a, J h → (C l).pre ((C l).ghost h) o → (C l).post ((C l).ghost h) o a →
      J (h ++ [⟨o, a⟩])) :
    Sound sys P C Q fun s tr => I s tr ∧ ∀ i, J (histOf tr i) := by
  have hweak : ∀ c, Outline C Q (fun s tr => I s tr ∧ ∀ i, J (histOf tr i)) c →
      Outline C Q I c := fun c hc => ⟨hc.recorded, hc.inv.1, hc.threads⟩
  refine ⟨hs.body, hs.again, ?_, ?_, ?_⟩
  · intro c i e l o k a s' hc hP ht hpre he
    obtain ⟨hpost, hI⟩ := hs.exec c i e l o k a s' (hweak c hc) hP ht hpre he
    refine ⟨hpost, hI, fun j => ?_⟩
    rw [histOf_snoc]
    split
    · rename_i hij
      obtain rfl : i = j := hij
      exact hJ l _ o a (hc.inv.2 i) hpre hpost
    · exact hc.inv.2 j
  · intro c i l o k hc hP ht hd
    exact ⟨hs.cancel c i l o k (hweak c hc) hP ht hd, hc.inv.2⟩
  · intro c v s' hc hP hv
    exact ⟨hs.env c v s' (hweak c hc) hP hv, hc.inv.2⟩

/-- An invariant of the shared state and the trace that no contract is needed for. -/
theorem run_trace_invariant {c c' : Config Ans S L R} {as : List (Action E V L)}
    (hexec : ∀ (c : Config Ans S L R) i e l o k a s', Recorded c → I c.shared c.trace →
      c.threads i = some ⟨l, histOf c.trace i, .call o k⟩ →
      sys.exec e i c.shared o = some (a, s') →
      I s' (c.trace ++ [⟨i, l, histOf c.trace i, c.shared, ⟨o, a⟩⟩]))
    (hcancel : ∀ (c : Config Ans S L R) i l, Recorded c → I c.shared c.trace →
      I (sys.cancel i l c.shared) c.trace)
    (henv : ∀ (c : Config Ans S L R) v s', Recorded c → I c.shared c.trace →
      sys.env v c.shared = some s' → I s' c.trace)
    (hc : Recorded c) (hI : I c.shared c.trace) (h : sys.run c as = some c') :
    Recorded c' ∧ I c'.shared c'.trace := by
  refine run_invariant (I := fun d => Recorded d ∧ I d.shared d.trace) (fun d a d' hd _ hstep => ?_)
    ⟨hc, hI⟩ (throughout_true c as) h
  refine ⟨hd.1.step hstep, ?_⟩
  rcases step_cases hstep with ⟨l, -, -, rfl⟩ | ⟨i, e, l, hist, o, k, ans, s', -, ht, he, rfl⟩ |
    ⟨i, l, hist, r, p, -, -, -, rfl⟩ | ⟨i, l, hist, o, k, -, -, -, rfl⟩ | ⟨v, s', -, hv, rfl⟩
  · exact hd.2
  · obtain rfl := hd.1.hist i _ ht
    exact hexec d i e l o k ans s' hd.1 hd.2 ht he
  · exact hd.2
  · exact hcancel d i l hd.1 hd.2
  · exact henv d v s' hd.1 hd.2 hv

/-- Every entry of the trace of a run is an operation that was carried out. -/
theorem run_executed {c c' : Config Ans S L R} {as : List (Action E V L)} (hc : Recorded c)
    (htrace : c.trace = []) (h : sys.run c as = some c') :
    ∀ en ∈ c'.trace, ∃ e s', sys.exec e en.tid en.before en.event.1 = some (en.event.2, s') := by
  refine (run_trace_invariant (I := fun _ tr => ∀ en ∈ tr, ∃ e s',
    sys.exec e en.tid en.before en.event.1 = some (en.event.2, s'))
    (fun d i e l o k a s' _ hI _ he en hen => ?_) (fun d i l _ hI => hI)
    (fun d v s' _ hI _ => hI) hc ?_ h).2
  · rcases List.mem_append.mp hen with hen | hen
    · exact hI en hen
    · obtain rfl := List.mem_singleton.mp hen
      exact ⟨e, s', he⟩
  · rw [htrace]
    exact fun en hen => absurd hen List.not_mem_nil

end System

end Interleaving
