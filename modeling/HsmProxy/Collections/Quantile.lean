import Mathlib.Data.List.Sort

/-!
# Percentiles of a sample

The `p`-th percentile of `n` measurements is read off the sorted sample, at position `n * p / 100`
or at the last one.  For `p` below 100, a property that small values have holds of it exactly if it
holds of more than `p` per cent of the sample (`percentile_iff_lt_countP`), and it grows with `p`.
It is the only value that more than `p` per cent do not exceed while at most `p` per cent are below
it (`percentile_eq_some_iff`).
-/

namespace Quantile

variable {α : Type*}

/-- In a list on which a predicate holds up to some point, it holds at a position exactly if it holds
of more elements than there are before it. -/
lemma getElem_iff_lt_countP {P : α → Bool} {l : List α}
    (hl : l.Pairwise fun x y => P y = true → P x = true) {k : ℕ} (hk : k < l.length) :
    P l[k] = true ↔ k < l.countP P := by
  induction l generalizing k with
  | nil => exact absurd hk (Nat.not_lt_zero k)
  | cons x l ih =>
    obtain ⟨hx, hl⟩ := List.pairwise_cons.mp hl
    by_cases hP : P x = true
    · rw [List.countP_cons_of_pos hP]
      cases k with
      | zero => simp [hP]
      | succ k =>
        rw [List.getElem_cons_succ, ih hl (Nat.lt_of_succ_lt_succ hk), Nat.succ_lt_succ_iff]
    · have hnone : ∀ y ∈ x :: l, ¬ P y = true := by
        intro y hy hPy
        rcases List.mem_cons.mp hy with rfl | hy
        · exact hP hPy
        · exact hP (hx y hy hPy)
      rw [List.countP_eq_zero.mpr hnone]
      exact iff_of_false (hnone _ (List.getElem_mem hk)) (Nat.not_lt_zero k)

/-- The position of the `p`-th percentile among `n` sorted values. -/
def position (p n : ℕ) : ℕ := min (n * p / 100) (n - 1)

lemma position_lt {p n : ℕ} (hn : 0 < n) : position p n < n := by
  unfold position
  omega

/-- The position grows with `p`. -/
lemma position_mono {p q : ℕ} (h : p ≤ q) (n : ℕ) : position p n ≤ position q n := by
  have hle : n * p ≤ n * q := Nat.mul_le_mul_left n h
  unfold position
  omega

/-- Below the hundredth percentile it is not cut off. -/
lemma position_lt_iff {p n k : ℕ} (hp : p < 100) (hn : 0 < n) :
    position p n < k ↔ n * p < 100 * k := by
  have hle : n * p ≤ n * 99 := Nat.mul_le_mul_left n (Nat.le_of_lt_succ hp)
  unfold position
  omega

variable [LinearOrder α]

/-- The `p`-th percentile of a sample; none of an empty one. -/
def percentile (p : ℕ) (sample : List α) : Option α :=
  (sample.insertionSort (· ≤ ·))[position p sample.length]?

variable {p q : ℕ} {sample : List α} {v w : α}

/-- Only an empty sample has none. -/
lemma percentile_eq_none_iff : percentile p sample = none ↔ sample = [] := by
  rw [percentile, List.getElem?_eq_none_iff, List.length_insertionSort, ← List.length_eq_zero_iff]
  constructor
  · intro h
    by_contra hne
    exact absurd (position_lt (Nat.pos_of_ne_zero hne)) (not_lt.mpr h)
  · intro h
    rw [h]
    exact Nat.zero_le _

/-- A percentile of a sample is one of its values. -/
lemma mem_of_percentile (h : percentile p sample = some v) : v ∈ sample :=
  (List.mem_insertionSort (· ≤ ·)).mp (List.mem_of_getElem? h)

/-- The percentile grows with `p`. -/
lemma percentile_mono (hpq : p ≤ q) (hv : percentile p sample = some v)
    (hw : percentile q sample = some w) : v ≤ w := by
  obtain ⟨hk, rfl⟩ := List.getElem?_eq_some_iff.mp hv
  obtain ⟨hk', rfl⟩ := List.getElem?_eq_some_iff.mp hw
  exact List.sortedLE_insertionSort.getElem_le_getElem_of_le (position_mono hpq sample.length)

/-- The hundredth percentile is the last of the sorted values. -/
lemma percentile_hundred : percentile 100 sample = (sample.insertionSort (· ≤ ·)).getLast? := by
  have hposition : position 100 sample.length = sample.length - 1 := by
    unfold position
    omega
  rw [percentile, hposition, List.getLast?_eq_getElem?, List.length_insertionSort]

/-- How many values a percentile is compared with. -/
lemma percentile_iff_lt_countP {P : α → Bool} (hP : ∀ x y, x ≤ y → P y = true → P x = true)
    (hp : p < 100) (hv : percentile p sample = some v) :
    P v = true ↔ sample.length * p < 100 * sample.countP P := by
  obtain ⟨hk, rfl⟩ := List.getElem?_eq_some_iff.mp hv
  have hsorted : (sample.insertionSort (· ≤ ·)).Pairwise fun x y => P y = true → P x = true :=
    (List.pairwise_insertionSort (· ≤ ·) sample).imp fun hxy => hP _ _ hxy
  have hn : 0 < sample.length := by
    rw [List.length_insertionSort] at hk
    exact Nat.zero_lt_of_lt hk
  rw [getElem_iff_lt_countP hsorted hk, (List.perm_insertionSort _ sample).countP_eq,
    position_lt_iff hp hn]

/-- More than `p` per cent of the sample do not exceed it. -/
theorem lt_countP_le_percentile (hp : p < 100) (hv : percentile p sample = some v) :
    sample.length * p < 100 * sample.countP fun x => x ≤ v := by
  refine (percentile_iff_lt_countP (P := fun x => x ≤ v) (fun x y hxy hy => ?_) hp hv).mp ?_
  · exact decide_eq_true (hxy.trans (of_decide_eq_true hy))
  · exact decide_eq_true le_rfl

/-- At most `p` per cent of the sample are below it. -/
lemma countP_lt_percentile_le (hp : p < 100) (hv : percentile p sample = some v) :
    100 * (sample.countP fun x => x < v) ≤ sample.length * p := by
  have hnot : ¬ decide (v < v) = true := fun h => lt_irrefl v (of_decide_eq_true h)
  rw [percentile_iff_lt_countP (P := fun x => x < v) (fun x y hxy hy => ?_) hp hv] at hnot
  · exact not_lt.mp hnot
  · exact decide_eq_true (hxy.trans_lt (of_decide_eq_true hy))

/-- A value of the sample that more than `p` per cent do not exceed, and at most `p` per cent are
below. -/
structure IsPercentile (p : ℕ) (sample : List α) (v : α) : Prop where
  mem : v ∈ sample
  lt_countP : sample.length * p < 100 * sample.countP fun x => x ≤ v
  countP_le : 100 * (sample.countP fun x => x < v) ≤ sample.length * p

/-- There is only one. -/
lemma IsPercentile.le (hv : IsPercentile p sample v) (hw : IsPercentile p sample w) : w ≤ v := by
  by_contra hlt
  have hle : sample.countP (fun x => x ≤ v) ≤ sample.countP fun x => x < w :=
    List.countP_mono_left fun x _ hx =>
      decide_eq_true ((of_decide_eq_true hx).trans_lt (not_le.mp hlt))
  have h₁ := hv.lt_countP
  have h₂ := hw.countP_le
  omega

/-- The percentile is that value. -/
theorem percentile_eq_some_iff (hp : p < 100) :
    percentile p sample = some v ↔ IsPercentile p sample v := by
  have hspec : ∀ {v}, percentile p sample = some v → IsPercentile p sample v := fun hv =>
    ⟨mem_of_percentile hv, lt_countP_le_percentile hp hv, countP_lt_percentile_le hp hv⟩
  refine ⟨hspec, fun hv => ?_⟩
  cases hw : percentile p sample with
  | none =>
    have hmem := hv.mem
    rw [percentile_eq_none_iff.mp hw] at hmem
    cases hmem
  | some w => exact congrArg some (le_antisymm (hv.le (hspec hw)) ((hspec hw).le hv))

end Quantile
