import HsmProxy.Interleaving.System

/-!
# Threads that can always be brought to their end

A configuration is continued by some actions only (`System.ReachesBy`), while the threads that are
not at work stay as they are (`System.Keeps`).  The rule `System.exists_returned_by` reduces the
question whether a thread can return to one operation: when every thread at work can be brought past
its next operation, it can be brought to its end, by induction on its program, whatever answers its
operations get.  `System.exists_all_returned_by` does so with all threads at once.
-/

namespace Interleaving

namespace System

variable {Op : Type} {Ans : Op → Type} {S E V L R : Type} {sys : System Ans S E V L R}
  {K : Action E V L → Prop} {c c₁ c₂ c₃ : Config Ans S L R}

variable (sys K) in
/-- A run of actions in `K` leads from one configuration to another. -/
def ReachesBy (c c' : Config Ans S L R) : Prop := ∃ as, (∀ a ∈ as, K a) ∧ sys.run c as = some c'

/-- The empty run. -/
lemma ReachesBy.refl (c : Config Ans S L R) : sys.ReachesBy K c c :=
  ⟨[], fun _ ha => absurd ha List.not_mem_nil, rfl⟩

/-- Runs can be continued. -/
lemma ReachesBy.trans (h : sys.ReachesBy K c₁ c₂) (h' : sys.ReachesBy K c₂ c₃) :
    sys.ReachesBy K c₁ c₃ := by
  obtain ⟨as, has, hrun⟩ := h
  obtain ⟨bs, hbs, hrun'⟩ := h'
  refine ⟨as ++ bs, fun a ha => ?_, by rw [run_append, hrun, Option.bind_some, hrun']⟩
  exact (List.mem_append.mp ha).elim (has a) (hbs a)

/-- A step is a run. -/
lemma ReachesBy.of_step {a : Action E V L} (ha : K a) (h : sys.step c₁ a = some c₂) :
    sys.ReachesBy K c₁ c₂ := by
  refine ⟨[a], fun b hb => ?_, by rw [run, h]; rfl⟩
  rw [List.mem_singleton.mp hb]
  exact ha

variable {work : L → Bool}

variable (work) in
/-- A thread is at work: it is of a kind that works, and has an operation to execute. -/
def Busy (c : Config Ans S L R) (i : ℕ) : Prop :=
  ∃ l h o k, c.threads i = some ⟨l, h, .call o k⟩ ∧ work l = true

variable (work) in
/-- No thread appears or goes, and those that are not at work stay as they are. -/
structure Keeps (c c' : Config Ans S L R) : Prop where
  labels : ∀ j, (c'.threads j).map Thread.label = (c.threads j).map Thread.label
  idle : ∀ j, ¬ Busy work c j → c'.threads j = c.threads j

/-- Nothing happens. -/
lemma Keeps.refl (c : Config Ans S L R) : Keeps work c c := ⟨fun _ => rfl, fun _ _ => rfl⟩

/-- One thing after another. -/
lemma Keeps.trans (h : Keeps work c₁ c₂) (h' : Keeps work c₂ c₃) : Keeps work c₁ c₃ := by
  refine ⟨fun j => (h'.labels j).trans (h.labels j), fun j hj => ?_⟩
  have hsame := h.idle j hj
  have hidle : ¬ Busy work c₂ j := by
    unfold Busy at hj ⊢
    rwa [hsame]
  exact (h'.idle j hidle).trans hsame

/-- A thread at work executes an operation. -/
lemma Keeps.of_update {i : ℕ} {l : L} {h h' : List (Event Ans)} {o : Op} {k : Ans o → Prog Ans R}
    {p : Prog Ans R} (hi : c₁.threads i = some ⟨l, h, .call o k⟩) (hl : work l = true)
    (hi' : c₂.threads i = some ⟨l, h', p⟩) (hother : ∀ j, j ≠ i → c₂.threads j = c₁.threads j) :
    Keeps work c₁ c₂ := by
  refine ⟨fun j => ?_, fun j hj => ?_⟩
  · by_cases hji : j = i
    · subst hji
      rw [hi, hi']
      rfl
    · rw [hother j hji]
  · by_cases hji : j = i
    · subst hji
      exact absurd ⟨l, h, o, k, hi, hl⟩ hj
    · exact hother j hji

section

variable {Live : Config Ans S L R → Prop}

/-- The rule for one thread: when a thread at work can always be brought past its next operation, it
can be brought to its end. -/
theorem exists_returned_by
    (hadvance : ∀ c i l h o k, Live c → work l = true → c.threads i = some ⟨l, h, .call o k⟩ →
      ∃ c' h' a, sys.ReachesBy K c c' ∧ Live c' ∧ Keeps work c c' ∧
        c'.threads i = some ⟨l, h', k a⟩)
    {i : ℕ} {l : L} {h : List (Event Ans)} {p : Prog Ans R} (hc : Live c) (hl : work l = true)
    (hi : c.threads i = some ⟨l, h, p⟩) :
    ∃ c' h' r, sys.ReachesBy K c c' ∧ Live c' ∧ Keeps work c c' ∧
      c'.threads i = some ⟨l, h', .ret r⟩ := by
  induction p generalizing c h with
  | ret r => exact ⟨c, h, r, .refl c, hc, .refl c, hi⟩
  | call o k ih =>
    obtain ⟨c₁, h₁, a, hreach, hc₁, hkeeps, hi₁⟩ := hadvance c i l h o k hc hl hi
    obtain ⟨c', h', r, hreach', hc', hkeeps', hi'⟩ := ih a hc₁ hi₁
    exact ⟨c', h', r, hreach.trans hreach', hc', hkeeps.trans hkeeps', hi'⟩

/-- The rule for all threads: they can be brought to their ends together. -/
theorem exists_all_returned_by
    (hadvance : ∀ c i l h o k, Live c → work l = true → c.threads i = some ⟨l, h, .call o k⟩ →
      ∃ c' h' a, sys.ReachesBy K c c' ∧ Live c' ∧ Keeps work c c' ∧
        c'.threads i = some ⟨l, h', k a⟩)
    {n : ℕ} (hc : Live c) (hn : ∀ i, n ≤ i → c.threads i = none) :
    ∃ c', sys.ReachesBy K c c' ∧ Live c' ∧ Keeps work c c' ∧ ∀ i, ¬ Busy work c' i := by
  have hprefix : ∀ m, ∃ c', sys.ReachesBy K c c' ∧ Live c' ∧ Keeps work c c' ∧
      ∀ i, i < m → ¬ Busy work c' i := by
    intro m
    induction m with
    | zero => exact ⟨c, .refl c, hc, .refl c, fun i hi => absurd hi (Nat.not_lt_zero i)⟩
    | succ m ih =>
      obtain ⟨c₁, hreach, hc₁, hkeeps, hdone⟩ := ih
      by_cases hbusy : Busy work c₁ m
      · obtain ⟨l, h, o, k, hm, hl⟩ := hbusy
        obtain ⟨c', h', r, hreach', hc', hkeeps', hm'⟩ := exists_returned_by hadvance hc₁ hl hm
        refine ⟨c', hreach.trans hreach', hc', hkeeps.trans hkeeps', fun i hi => ?_⟩
        rcases Nat.lt_succ_iff_lt_or_eq.mp hi with hlt | rfl
        · have hidle := hdone i hlt
          unfold Busy at hidle ⊢
          rwa [hkeeps'.idle i (hdone i hlt)]
        · rintro ⟨l', h'', o', k', hbusy, -⟩
          rw [hm'] at hbusy
          cases hbusy
      · refine ⟨c₁, hreach, hc₁, hkeeps, fun i hi => ?_⟩
        rcases Nat.lt_succ_iff_lt_or_eq.mp hi with hlt | rfl
        · exact hdone i hlt
        · exact hbusy
  obtain ⟨c', hreach, hc', hkeeps, hdone⟩ := hprefix n
  refine ⟨c', hreach, hc', hkeeps, fun i => ?_⟩
  rcases Nat.lt_or_ge i n with hlt | hge
  · exact hdone i hlt
  · have hnone := hn i hge
    rintro ⟨l, h, o, k, hi, -⟩
    have hidle : ¬ Busy work c i := by
      rintro ⟨l', h', o', k', hi', -⟩
      rw [hnone] at hi'
      cases hi'
    rw [hkeeps.idle i hidle, hnone] at hi
    cases hi

end

end System

end Interleaving
