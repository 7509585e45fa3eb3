import Mathlib.Algebra.GroupWithZero.Nat
import Mathlib.Data.List.MinMax
import Mathlib.Data.List.Nodup
import Mathlib.Data.List.Perm.Basic

/-!
# Keeping the best element of a list, for each key

Going through a list, an element is kept until a better one comes: `select r l`, where `r x y` says
that `x` is better than `y`.  When `r` is a strict order, what is kept is unbeaten
(`select_unbeaten`), and every unbeaten element is kept for some order of the list
(`exists_perm_select`).  So a property holds of what is kept, whatever the order, exactly if it
holds of all unbeaten elements: `forall_perm_select_iff`.

`OrderedDict` is a dictionary that remembers the order in which its keys came, and `tally` counts in
such a dictionary.  `selectBy key r l` keeps the best element for each key in one; `get?_selectBy`
reduces it to `select` on the elements with that key.

`argmax_eq_some_iff` says which of several greatest elements `List.argmax` returns,
`find?_eq_some_of_nodup` what a search by a key finds, and `mapM_eq_ok_iff` when a computation that
may fail succeeds on a whole list.
-/

namespace Selection

variable {α κ ν : Type}

/-! ## One key -/

section

variable (r : α → α → Prop) [DecidableRel r]

/-- What is kept of a list. -/
def select (l : List α) : Option α := l.foldl (List.argAux r) none

/-- An element of the list that no other beats. -/
def Unbeaten (l : List α) (x : α) : Prop := x ∈ l ∧ ∀ y ∈ l, ¬ r y x

variable {r} {l : List α} {x : α}

/-- An element that nothing beats stays. -/
lemma foldl_argAux_of_unbeaten (h : ∀ y ∈ l, ¬ r y x) :
    l.foldl (List.argAux r) (some x) = some x := by
  induction l with
  | nil => rfl
  | cons y l ih =>
    have hy : List.argAux r (some x) y = some x := if_neg (h y List.mem_cons_self)
    rw [List.foldl_cons, hy]
    exact ih fun z hz => h z (List.mem_cons_of_mem y hz)

/-- What is kept was there. -/
lemma mem_of_foldl_argAux {o : Option α} (h : l.foldl (List.argAux r) o = some x) :
    o = some x ∨ x ∈ l := by
  induction l generalizing o with
  | nil => exact Or.inl h
  | cons y l ih =>
    rcases ih h with hkept | hmem
    · cases o with
      | none =>
        obtain rfl : y = x := Option.some.inj hkept
        exact Or.inr List.mem_cons_self
      | some z =>
        by_cases hyz : r y z
        · have hy : List.argAux r (some z) y = some y := if_pos hyz
          rw [hy] at hkept
          obtain rfl := Option.some.inj hkept
          exact Or.inr List.mem_cons_self
        · have hz : List.argAux r (some z) y = some z := if_neg hyz
          rw [hz] at hkept
          exact Or.inl hkept
    · exact Or.inr (List.mem_cons_of_mem y hmem)

/-- What is kept is unbeaten. -/
theorem select_unbeaten [hirrefl : Std.Irrefl r] [htrans : IsTrans α r]
    (h : select r l = some x) : Unbeaten r l x := by
  refine ⟨?_, fun y hy => List.not_of_mem_foldl_argAux r hirrefl htrans hy h⟩
  rcases mem_of_foldl_argAux h with hnone | hmem
  · cases hnone
  · exact hmem

/-- An unbeaten element is kept when it comes first. -/
theorem exists_perm_select (hx : Unbeaten r l x) : ∃ l', l'.Perm l ∧ select r l' = some x := by
  obtain ⟨hmem, hbest⟩ := hx
  obtain ⟨l₁, l₂, rfl⟩ := List.append_of_mem hmem
  refine ⟨x :: (l₁ ++ l₂), List.perm_middle.symm, ?_⟩
  refine foldl_argAux_of_unbeaten fun y hy => hbest y ?_
  rcases List.mem_append.mp hy with hy | hy
  · exact List.mem_append_left _ hy
  · exact List.mem_append_right _ (List.mem_cons_of_mem x hy)

/-- Something is kept of a list that is not empty. -/
lemma exists_select (hl : l ≠ []) : ∃ x, select r l = some x := by
  cases hselect : select r l with
  | some x => exact ⟨x, rfl⟩
  | none => exact absurd (List.foldl_argAux_eq_none r |>.mp hselect).1 hl

/-- Whatever the order, a property holds of what is kept exactly if it holds of every unbeaten
element. -/
theorem forall_perm_select_iff [Std.Irrefl r] [IsTrans α r] {Q : α → Prop} :
    (∀ l', l'.Perm l → ∀ x, select r l' = some x → Q x) ↔ ∀ x, Unbeaten r l x → Q x := by
  constructor
  · intro h x hx
    obtain ⟨l', hperm, hselect⟩ := exists_perm_select hx
    exact h l' hperm x hselect
  · intro h l' hperm x hselect
    obtain ⟨hmem, hbest⟩ := select_unbeaten hselect
    exact h x ⟨hperm.mem_iff.mp hmem, fun y hy => hbest y (hperm.mem_iff.mpr hy)⟩

end

/-! ## Dictionaries in the order of insertion -/

namespace OrderedDict

variable [DecidableEq κ]

/-- The value of a key. -/
def get? (k : κ) : List (κ × ν) → Option ν
  | [] => none
  | (k', v) :: d => if k' = k then some v else get? k d

/-- A new value for a key: in the place of the old one, or at the end. -/
def set (k : κ) (v : ν) : List (κ × ν) → List (κ × ν)
  | [] => [(k, v)]
  | (k', v') :: d => if k' = k then (k, v) :: d else (k', v') :: set k v d

/-- The values after one was set. -/
lemma get?_set (k k' : κ) (v : ν) (d : List (κ × ν)) :
    get? k' (set k v d) = if k = k' then some v else get? k' d := by
  induction d with
  | nil => rfl
  | cons e d ih =>
    obtain ⟨k₀, v₀⟩ := e
    by_cases hk : k₀ = k
    · subst hk
      by_cases hk' : k₀ = k' <;> simp [set, get?, hk']
    · by_cases hk' : k₀ = k'
      · subst hk'
        simp [set, get?, hk, Ne.symm hk]
      · simp [set, get?, hk, hk', ih]

/-- What a dictionary holds after a value was set. -/
lemma mem_set {k : κ} {v : ν} {d : List (κ × ν)} {e : κ × ν} (h : e ∈ set k v d) :
    e = (k, v) ∨ e ∈ d := by
  induction d with
  | nil => exact Or.inl (List.mem_singleton.mp h)
  | cons e' d ih =>
    obtain ⟨k', v'⟩ := e'
    unfold set at h
    split at h
    · rcases List.mem_cons.mp h with rfl | hmem
      · exact Or.inl rfl
      · exact Or.inr (List.mem_cons_of_mem _ hmem)
    · rcases List.mem_cons.mp h with rfl | hmem
      · exact Or.inr List.mem_cons_self
      · rcases ih hmem with hnew | hold
        · exact Or.inl hnew
        · exact Or.inr (List.mem_cons_of_mem _ hold)

/-- The keys after one was set. -/
lemma mem_keys_set {k k' : κ} {v : ν} {d : List (κ × ν)} :
    k' ∈ (set k v d).map Prod.fst ↔ k' = k ∨ k' ∈ d.map Prod.fst := by
  induction d with
  | nil => simp [set]
  | cons e d ih =>
    obtain ⟨k₀, v₀⟩ := e
    unfold set
    by_cases hk : k₀ = k
    · simp [hk]
    · rw [if_neg hk, List.map_cons, List.map_cons, List.mem_cons, List.mem_cons, ih]
      exact or_left_comm

/-- No key is there twice. -/
lemma nodup_keys_set {k : κ} {v : ν} {d : List (κ × ν)} (hd : (d.map Prod.fst).Nodup) :
    ((set k v d).map Prod.fst).Nodup := by
  induction d with
  | nil => simp [set]
  | cons e d ih =>
    obtain ⟨k₀, v₀⟩ := e
    obtain ⟨hnotin, hd⟩ := List.nodup_cons.mp hd
    unfold set
    by_cases hk : k₀ = k
    · rw [if_pos hk, ← hk]
      exact List.nodup_cons.mpr ⟨hnotin, hd⟩
    · rw [if_neg hk]
      refine List.nodup_cons.mpr ⟨fun hmem => ?_, ih hd⟩
      rcases mem_keys_set.mp hmem with heq | hmem
      · exact hk heq
      · exact hnotin hmem

/-- Then the entries are the values of the keys. -/
lemma mem_iff_get? {k : κ} {v : ν} {d : List (κ × ν)} (hd : (d.map Prod.fst).Nodup) :
    (k, v) ∈ d ↔ get? k d = some v := by
  induction d with
  | nil => simp [get?]
  | cons e d ih =>
    obtain ⟨k₀, v₀⟩ := e
    obtain ⟨hnotin, hd⟩ := List.nodup_cons.mp hd
    unfold get?
    by_cases hk : k₀ = k
    · subst hk
      have hrest : (k₀, v) ∉ d := fun hmem => hnotin (List.mem_map.mpr ⟨_, hmem, rfl⟩)
      simp [hrest, eq_comm]
    · rw [if_neg hk, ← ih hd, List.mem_cons, or_iff_right]
      intro heq
      exact hk (Prod.mk.inj heq).1.symm

/-- How often each element occurs, in the order of the first occurrences. -/
def tally (l : List κ) : List (κ × ℕ) :=
  l.foldl (fun d k => set k ((get? k d).getD 0 + 1) d) []

/-- One more element. -/
lemma tally_snoc (l : List κ) (k : κ) :
    tally (l ++ [k]) = set k ((get? k (tally l)).getD 0 + 1) (tally l) :=
  List.foldl_append

/-- The tally of a key is the number of its occurrences. -/
lemma get?_tally (l : List κ) (k : κ) : (get? k (tally l)).getD 0 = l.count k := by
  induction l using List.reverseRecOn with
  | nil => rfl
  | append_singleton l k' ih =>
    rw [tally_snoc, get?_set, List.count_append]
    by_cases hk : k' = k
    · subst hk
      simp [ih]
    · simp [hk, ih]

/-- Setting a value replaces the old one in the sum. -/
lemma sum_set (k : κ) (n : ℕ) (d : List (κ × ℕ)) :
    ((set k n d).map Prod.snd).sum + (get? k d).getD 0 = (d.map Prod.snd).sum + n := by
  induction d with
  | nil => simp [set, get?]
  | cons e d ih =>
    obtain ⟨k', v⟩ := e
    by_cases hk : k' = k
    · subst hk
      simp only [set, get?, if_true, List.map_cons, List.sum_cons, Option.getD_some]
      omega
    · simp only [set, get?, if_neg hk, List.map_cons, List.sum_cons]
      omega

/-- All elements are counted. -/
lemma sum_tally (l : List κ) : ((tally l).map Prod.snd).sum = l.length := by
  induction l using List.reverseRecOn with
  | nil => rfl
  | append_singleton l k ih =>
    have hset := sum_set k ((get? k (tally l)).getD 0 + 1) (tally l)
    rw [tally_snoc, List.length_append, List.length_singleton]
    omega

end OrderedDict

/-! ## Every key -/

section

variable [DecidableEq κ] (key : α → κ) (r : α → α → Prop) [DecidableRel r]

/-- One more element: it is kept for its key when there is none, or when it is better. -/
def selectStep (best : List (κ × α)) (x : α) : List (κ × α) :=
  match OrderedDict.get? (key x) best with
  | none => OrderedDict.set (key x) x best
  | some cur => if r x cur then OrderedDict.set (key x) x best else best

/-- The best element for each key. -/
def selectBy (l : List α) : List (κ × α) := l.foldl (selectStep key r) []

variable {key r}

/-- One step, seen from one key. -/
lemma get?_selectStep (best : List (κ × α)) (x : α) (k : κ) :
    OrderedDict.get? k (selectStep key r best x) =
      if key x = k then List.argAux r (OrderedDict.get? k best) x
      else OrderedDict.get? k best := by
  unfold selectStep
  by_cases hk : key x = k
  · subst hk
    cases hcur : OrderedDict.get? (key x) best with
    | none => simp [OrderedDict.get?_set, List.argAux]
    | some cur =>
      by_cases hx : r x cur
      · simp [hx, OrderedDict.get?_set, List.argAux]
      · simp [hx, hcur, List.argAux]
  · cases OrderedDict.get? (key x) best with
    | none => simp [hk, OrderedDict.get?_set]
    | some cur =>
      by_cases hx : r x cur
      · simp [hk, hx, OrderedDict.get?_set]
      · simp [hk, hx]

/-- For one key, the dictionary holds what is kept of the elements with that key. -/
theorem get?_selectBy (l : List α) (k : κ) :
    OrderedDict.get? k (selectBy key r l) = select r (l.filter fun x => key x = k) := by
  have hfold : ∀ best, OrderedDict.get? k (l.foldl (selectStep key r) best) =
      (l.filter fun x => key x = k).foldl (List.argAux r) (OrderedDict.get? k best) := by
    induction l with
    | nil => exact fun _ => rfl
    | cons x l ih =>
      intro best
      rw [List.foldl_cons, ih, get?_selectStep]
      by_cases hk : key x = k
      · rw [if_pos hk, List.filter_cons_of_pos (by simpa using hk), List.foldl_cons]
      · rw [if_neg hk, List.filter_cons_of_neg (by simpa using hk)]
  exact hfold []

/-- Whatever is in the dictionary was in the list, and stands under its key. -/
theorem mem_selectBy {l : List α} {k : κ} {x : α} (h : (k, x) ∈ selectBy key r l) :
    x ∈ l ∧ key x = k := by
  have hfold : ∀ best : List (κ × α), (k, x) ∈ l.foldl (selectStep key r) best →
      (x ∈ l ∧ key x = k) ∨ (k, x) ∈ best := by
    clear h
    induction l with
    | nil => exact fun _ hmem => Or.inr hmem
    | cons y l ih =>
      intro best hmem
      have hset : (k, x) ∈ OrderedDict.set (key y) y best →
          (x ∈ y :: l ∧ key x = k) ∨ (k, x) ∈ best := by
        intro hset
        rcases OrderedDict.mem_set hset with hnew | hold
        · obtain ⟨rfl, rfl⟩ := Prod.mk.inj hnew
          exact Or.inl ⟨List.mem_cons_self, rfl⟩
        · exact Or.inr hold
      rcases ih _ hmem with ⟨hx, hk⟩ | hstep
      · exact Or.inl ⟨List.mem_cons_of_mem y hx, hk⟩
      · unfold selectStep at hstep
        split at hstep
        · exact hset hstep
        · split at hstep
          · exact hset hstep
          · exact Or.inr hstep
  rcases hfold [] h with hx | hnil
  · exact hx
  · cases hnil

/-- A rearrangement of the elements that are picked out is what a rearrangement of all of them
has. -/
lemma exists_perm_filter {p : α → Bool} {l l' : List α} (h : l'.Perm (l.filter p)) :
    ∃ l'' : List α, l''.Perm l ∧ l''.filter p = l' := by
  refine ⟨l' ++ l.filter fun x => !p x, ?_, ?_⟩
  · exact (h.append_right _).trans (List.filter_append_perm p l)
  · have hall : ∀ x ∈ l', p x = true := fun x hx => (List.mem_filter.mp (h.mem_iff.mp hx)).2
    rw [List.filter_append, List.filter_eq_self.mpr hall, List.filter_filter]
    simp

/-- Whatever the order of the list, a property holds of what is kept for a key exactly if it holds
of every unbeaten element with that key. -/
theorem forall_perm_selectBy_iff [Std.Irrefl r] [IsTrans α r] {l : List α} {k : κ}
    {Q : α → Prop} :
    (∀ l', l'.Perm l → ∀ x, OrderedDict.get? k (selectBy key r l') = some x → Q x) ↔
      ∀ x, Unbeaten r (l.filter fun x => key x = k) x → Q x := by
  rw [← forall_perm_select_iff]
  constructor
  · intro h l' hperm x hselect
    obtain ⟨l'', hperm'', hfilter⟩ := exists_perm_filter hperm
    refine h l'' hperm'' x ?_
    rw [get?_selectBy, hfilter]
    exact hselect
  · intro h l' hperm x hget
    rw [get?_selectBy] at hget
    exact h _ (hperm.filter _) x hget

end

/-! ## The first of the greatest elements -/

/-- `List.argmax` is the first element whose value none exceeds. -/
theorem argmax_eq_some_iff {β : Type} [LinearOrder β] {f : α → β} {l : List α} {x : α} :
    l.argmax f = some x ↔
      ∃ l₁ l₂, l = l₁ ++ x :: l₂ ∧ (∀ y ∈ l₁, f y < f x) ∧ ∀ y ∈ l₂, f y ≤ f x := by
  induction l generalizing x with
  | nil =>
    constructor
    · intro h
      cases h
    · rintro ⟨l₁, l₂, h, -⟩
      exact absurd h.symm (List.append_ne_nil_of_right_ne_nil l₁ (List.cons_ne_nil x l₂))
  | cons a l ih =>
    rw [List.argmax_cons]
    cases hc : l.argmax f with
    | none =>
      obtain rfl : l = [] := List.argmax_eq_none.mp hc
      constructor
      · intro h
        obtain rfl : a = x := Option.some.inj h
        exact ⟨[], [], rfl, by simp, by simp⟩
      · rintro ⟨l₁, l₂, h, -⟩
        obtain ⟨-, h⟩ | ⟨l', -, h⟩ := List.cons_eq_append_iff.mp h
        · exact congrArg some (List.cons.inj h).1.symm
        · exact absurd h.symm (List.append_ne_nil_of_right_ne_nil l' (List.cons_ne_nil x l₂))
    | some c =>
      obtain ⟨m₁, m₂, hl, hlt, hle⟩ := ih.mp hc
      -- the two candidates are the head and the first of the greatest elements behind it
      by_cases hac : f a < f c
      · have hsome : (if f a < f c then some c else some a) = some c := if_pos hac
        simp only [hsome]
        constructor
        · intro h
          obtain rfl : c = x := Option.some.inj h
          refine ⟨a :: m₁, m₂, congrArg (a :: ·) hl, ?_, hle⟩
          exact List.forall_mem_cons.mpr ⟨hac, hlt⟩
        · rintro ⟨l₁, l₂, hsplit, hlt', hle'⟩
          obtain ⟨-, h⟩ | ⟨l', rfl, h⟩ := List.cons_eq_append_iff.mp hsplit
          · obtain ⟨rfl, rfl⟩ := List.cons.inj h
            exact absurd hac (not_lt.mpr (hle' c (List.argmax_mem hc)))
          · have hx := ih.mpr ⟨l', l₂, h, (List.forall_mem_cons.mp hlt').2, hle'⟩
            exact hc.symm.trans hx
      · have hsome : (if f a < f c then some c else some a) = some a := if_neg hac
        simp only [hsome]
        constructor
        · intro h
          obtain rfl : a = x := Option.some.inj h
          refine ⟨[], l, rfl, by simp, fun y hy => ?_⟩
          exact (List.le_of_mem_argmax hy hc).trans (not_lt.mp hac)
        · rintro ⟨l₁, l₂, hsplit, hlt', hle'⟩
          obtain ⟨-, h⟩ | ⟨l', rfl, h⟩ := List.cons_eq_append_iff.mp hsplit
          · exact congrArg some (List.cons.inj h).1.symm
          · have hx := ih.mpr ⟨l', l₂, h, (List.forall_mem_cons.mp hlt').2, hle'⟩
            obtain rfl : c = x := Option.some.inj (hc.symm.trans hx)
            exact absurd (hlt' a List.mem_cons_self) hac

/-! ## Searching by a key -/

/-- Where keys are different, an element is found by its key. -/
theorem find?_eq_some_of_nodup [DecidableEq κ] {key : α → κ} {l : List α} {x : α}
    (hl : (l.map key).Nodup) (hx : x ∈ l) :
    (l.find? fun y => decide (key y = key x)) = some x := by
  obtain ⟨y, hy⟩ : ∃ y, (l.find? fun y => decide (key y = key x)) = some y :=
    Option.isSome_iff_exists.mp (List.find?_isSome.mpr ⟨x, hx, decide_eq_true rfl⟩)
  have hkey : key y = key x := by simpa using List.find?_some hy
  rw [hy, List.inj_on_of_nodup_map hl (List.mem_of_find?_eq_some hy) hx hkey]

/-! ## Lists of computations that may fail -/

/-- A computation succeeds on a whole list exactly if it does on each element. -/
theorem mapM_eq_ok_iff {ε β : Type} {f : α → Except ε β} {l : List α} {l' : List β} :
    l.mapM f = .ok l' ↔ List.Forall₂ (fun x y => f x = .ok y) l l' := by
  induction l generalizing l' with
  | nil =>
    constructor
    · intro h
      obtain rfl : [] = l' := Except.ok.inj h
      exact List.Forall₂.nil
    · rintro ⟨⟩
      rfl
  | cons x l ih =>
    rw [List.mapM_cons]
    constructor
    · intro h
      cases hx : f x with
      | error e =>
        rw [hx] at h
        cases h
      | ok y =>
        cases hl : l.mapM f with
        | error e =>
          rw [hx, hl] at h
          cases h
        | ok ys =>
          rw [hx, hl] at h
          obtain rfl : y :: ys = l' := Except.ok.inj h
          exact List.Forall₂.cons hx (ih.mp hl)
    · rintro (_ | ⟨hx, hl⟩)
      rw [hx, ih.mpr hl]
      rfl

section

variable {ε β γ : Type} {f : α → Except ε β} {l : List α} {l' : List β}

/-- The results, in their order. -/
lemma map_eq_of_mapM_ok (h : l.mapM f = .ok l') : l.map f = l'.map .ok := by
  have hpair := mapM_eq_ok_iff.mp h
  rw [← List.forall₂_eq_eq_eq, List.forall₂_map_left_iff, List.forall₂_map_right_iff]
  exact hpair

/-- What the results are. -/
lemma mem_iff_of_mapM_ok (h : l.mapM f = .ok l') (y : β) : y ∈ l' ↔ ∃ x ∈ l, f x = .ok y := by
  have hok : y ∈ l' ↔ (.ok y : Except ε β) ∈ l'.map .ok := by simp
  rw [hok, ← map_eq_of_mapM_ok h, List.mem_map]

/-- Each element has a result. -/
lemma exists_ok_of_mapM_ok (h : l.mapM f = .ok l') {x : α} (hx : x ∈ l) : ∃ y, f x = .ok y := by
  have hmem : f x ∈ l'.map Except.ok := map_eq_of_mapM_ok h ▸ List.mem_map_of_mem hx
  obtain ⟨y, -, hy⟩ := List.mem_map.mp hmem
  exact ⟨y, hy.symm⟩

/-- A step that succeeds was applied to a value. -/
lemma exists_ok_of_bind_ok {g : β → Except ε γ} {x : Except ε β} {z : γ} (h : x >>= g = .ok z) :
    ∃ y, x = .ok y ∧ g y = .ok z := by
  cases x with
  | error e => cases h
  | ok y => exact ⟨y, rfl, h⟩

/-- What every step of a fold keeps, the whole fold keeps; `P` is about the elements so far and the
value they gave. -/
lemma foldlM_ok_induction {f : β → α → Except ε β} {P : List α → β → Prop}
    (hstep : ∀ l x y z, P l y → f y x = .ok z → P (l ++ [x]) z) {l₀ : List α} {y z : β}
    (h₀ : P l₀ y) (h : l.foldlM f y = .ok z) : P (l₀ ++ l) z := by
  induction l generalizing l₀ y with
  | nil =>
    obtain rfl : y = z := Except.ok.inj h
    rwa [List.append_nil]
  | cons x l ih =>
    obtain ⟨y', hy', hl⟩ := exists_ok_of_bind_ok ((List.foldlM_cons).symm.trans h)
    rw [List.append_cons]
    exact ih (hstep l₀ x y y' h₀ hy') hl

end

end Selection
