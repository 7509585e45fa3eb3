import HsmProxy.Interleaving.Sound

/-!
# Logs of the threads

A log is what a fold over the history of a thread keeps of it.  The logs of all threads by a trace
are a function of the name of the thread, which changes at one place with every entry (`logs_snoc`).
So an invariant that relates the shared state to the logs is kept by a step if it is kept by a new
value at one place.  The lemmas about `Function.update` here are for invariants that speak of a field
of the logs, of the set of the threads whose log has a property, or of a sum over the threads.
-/

namespace Interleaving

variable {Op : Type} {Ans : Op → Type} {S L G : Type}

/-! ## Logs by a trace -/

section

variable (note : G → Event Ans → G) (init : G)

/-- What every thread has done by a trace. -/
def logs (tr : List (Entry Ans S L)) (i : ℕ) : G := (histOf tr i).foldl note init

/-- An entry is noted in the log of its thread. -/
lemma logs_snoc (tr : List (Entry Ans S L)) (en : Entry Ans S L) :
    logs note init (tr ++ [en]) =
      Function.update (logs note init tr) en.tid (note (logs note init tr en.tid) en.event) := by
  funext i
  unfold logs
  rw [histOf_snoc]
  by_cases hi : en.tid = i
  · rw [if_pos hi, List.foldl_append, hi, Function.update_self]
    rfl
  · rw [if_neg hi, Function.update_of_ne (Ne.symm hi)]

end

variable {note : G → Event Ans → G} {init : G}

/-- A field that counts events. -/
lemma foldl_eq_countP {f : G → ℕ} {p : Event Ans → Bool} (hinit : f init = 0)
    (hstep : ∀ g ev, f (note g ev) = f g + if p ev then 1 else 0) (h : List (Event Ans)) :
    f (h.foldl note init) = h.countP p := by
  induction h using List.reverseRecOn with
  | nil => exact hinit
  | append_singleton h ev ih =>
    rw [List.foldl_append, List.foldl_cons, List.foldl_nil, hstep, ih, List.countP_append,
      List.countP_singleton]

/-- A field that is set by events. -/
lemma foldl_eq_any {f : G → Bool} {p : Event Ans → Bool} (hinit : f init = false)
    (hstep : ∀ g ev, f (note g ev) = (f g || p ev)) (h : List (Event Ans)) :
    f (h.foldl note init) = h.any p := by
  induction h using List.reverseRecOn with
  | nil => exact hinit
  | append_singleton h ev ih =>
    rw [List.foldl_append, List.foldl_cons, List.foldl_nil, hstep, ih, List.any_append,
      List.any_cons, List.any_nil, Bool.or_false]

/-! ## A new value for one thread -/

section

variable {α : Type} {g : ℕ → α} {i : ℕ} {x : α} {I : Finset ℕ}

/-- Nothing changes where the new value agrees with the old one. -/
lemma apply_update_of_eq {β : Type} {f : α → β} (h : f x = f (g i)) (j : ℕ) :
    f (Function.update g i x j) = f (g j) := by
  by_cases hj : j = i
  · rw [hj, Function.update_self, h]
  · rw [Function.update_of_ne hj]

/-- What holds of every thread concerns one thread at a time. -/
lemma forall_update {p : ℕ → α → Prop} (h : ∀ j, p j (g j)) (hx : p i x) (j : ℕ) :
    p j (Function.update g i x j) :=
  (Function.forall_update_iff g p).mpr ⟨hx, fun j _ => h j⟩ j

variable {p : α → Bool}

/-- The threads with a property, where that did not change. -/
lemma filter_update_of_eq (h : p x = p (g i)) :
    (I.filter fun j => p (Function.update g i x j)) = I.filter fun j => p (g j) :=
  Finset.filter_congr fun j _ => by rw [apply_update_of_eq h]

/-- One more thread has the property. -/
lemma filter_update_insert (hi : i ∈ I) (hx : p x = true) :
    (I.filter fun j => p (Function.update g i x j)) = insert i (I.filter fun j => p (g j)) := by
  ext j
  rw [Finset.mem_insert, Finset.mem_filter, Finset.mem_filter]
  by_cases hj : j = i
  · rw [hj, Function.update_self]
    exact iff_of_true ⟨hi, hx⟩ (Or.inl rfl)
  · rw [Function.update_of_ne hj]
    exact (or_iff_right hj).symm

/-- One thread has the property no longer. -/
lemma filter_update_erase (hx : p x = false) :
    (I.filter fun j => p (Function.update g i x j)) = (I.filter fun j => p (g j)).erase i := by
  ext j
  rw [Finset.mem_erase, Finset.mem_filter, Finset.mem_filter]
  by_cases hj : j = i
  · rw [hj, Function.update_self, hx]
    exact iff_of_false (fun h => by cases h.2) (fun h => h.1 rfl)
  · rw [Function.update_of_ne hj]
    exact (and_iff_right hj).symm

/-- A sum over the threads grows with the summand of one of them. -/
lemma sum_update_add {f : α → ℕ} {n : ℕ} (hi : i ∈ I) (h : f x = f (g i) + n) :
    ∑ j ∈ I, f (Function.update g i x j) = ∑ j ∈ I, f (g j) + n := by
  have hsum : ∀ j ∈ I, f (Function.update g i x j) = f (g j) + if j = i then n else 0 := by
    intro j _
    by_cases hj : j = i
    · rw [hj, Function.update_self, if_pos rfl, h]
    · rw [Function.update_of_ne hj, if_neg hj, Nat.add_zero]
  rw [Finset.sum_congr rfl hsum, Finset.sum_add_distrib, Finset.sum_ite_eq', if_pos hi]

end

/-! ## A leader and its crew -/

/-- The threads below a number are of one kind, and the thread of that number is another. -/
lemma eq_of_crew {α : Type} {n i : ℕ} {member leader x : α}
    (h : (if i < n then some member else if i = n then some leader else none) = some x) :
    (i < n ∧ x = member) ∨ (i = n ∧ x = leader) := by
  split at h
  · rename_i hi
    exact Or.inl ⟨hi, (Option.some.inj h).symm⟩
  · split at h
    · rename_i hi
      exact Or.inr ⟨hi, (Option.some.inj h).symm⟩
    · cases h

/-- There is nobody behind them. -/
lemma crew_eq_none {α : Type} {n i : ℕ} {member leader : α} (hi : n + 1 ≤ i) :
    (if i < n then some member else if i = n then some leader else none) = none := by
  rw [if_neg (by omega), if_neg (by omega)]

end Interleaving
