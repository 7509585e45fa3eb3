import Mathlib.Algebra.Order.Field.Basic
import Mathlib.Tactic.Linarith
import Mathlib.Tactic.Ring

/-!
# Token buckets

A meter answers each of a sequence of checks with yes or no and changes its state; `replay` is the
list of its answers.  A token bucket is a meter that holds up to `size` tokens, gains `rate` tokens
in a unit of time, and says yes when there is a token to take.

`allowed_within_le` is the bound that token buckets are used for: in an interval of length `len` at
most `size + rate * len` checks are answered with yes.  `replay_sim` carries it over to every meter
that simulates a token bucket.
-/

namespace Metering

/-! ## Meters -/

section

variable {B B' T T' : Type}

/-- The state of a meter after checks at the given times. -/
def after (check : B → T → Bool × B) (b : B) (ts : List T) : B :=
  ts.foldl (fun b t => (check b t).2) b

/-- The answers of a meter, each with its time. -/
def replay (check : B → T → Bool × B) (b : B) : List T → List (T × Bool)
  | [] => []
  | t :: ts => (t, (check b t).1) :: replay check (check b t).2 ts

/-- One more check. -/
lemma after_snoc (check : B → T → Bool × B) (b : B) (ts : List T) (t : T) :
    after check b (ts ++ [t]) = (check (after check b ts) t).2 := by
  simp [after, List.foldl_append]

/-- One more check. -/
lemma replay_snoc (check : B → T → Bool × B) (b : B) (ts : List T) (t : T) :
    replay check b (ts ++ [t]) = replay check b ts ++ [(t, (check (after check b ts) t).1)] := by
  induction ts generalizing b with
  | nil => rfl
  | cons t' ts ih => exact congrArg (_ :: ·) (ih _)

/-- A meter that simulates another one gives the same answers. -/
lemma replay_sim {check : B → T → Bool × B} {check' : B' → T' → Bool × B'} {R : B → B' → Prop}
    {time : T → T'}
    (hstep : ∀ b b' t, R b b' → (check b t).1 = (check' b' (time t)).1 ∧
      R (check b t).2 (check' b' (time t)).2) {b : B} {b' : B'} (hR : R b b') (ts : List T) :
    (replay check b ts).map (fun a => (time a.1, a.2)) = replay check' b' (ts.map time) := by
  induction ts generalizing b b' with
  | nil => rfl
  | cons t ts ih =>
    obtain ⟨hanswer, hnext⟩ := hstep b b' t hR
    simp only [replay, List.map_cons, List.cons.injEq, Prod.mk.injEq, true_and]
    exact ⟨hanswer, ih hnext⟩

/-- The number of checks answered with yes at the times chosen by `s`. -/
def allowedAt (s : T → Bool) (answers : List (T × Bool)) : ℕ :=
  answers.countP fun a => a.2 && s a.1

/-- Times may be given in another unit. -/
lemma allowedAt_map (s : T' → Bool) (time : T → T') (answers : List (T × Bool)) :
    allowedAt s (answers.map fun a => (time a.1, a.2)) = allowedAt (fun t => s (time t)) answers :=
  List.countP_map

/-- The first check is counted when it is answered with yes at a chosen time. -/
lemma allowedAt_cons (s : T → Bool) (check : B → T → Bool × B) (b : B) (t : T) (ts : List T) :
    allowedAt s (replay check b (t :: ts)) =
      allowedAt s (replay check (check b t).2 ts) + ((check b t).1 && s t).toNat := by
  simp only [allowedAt, replay, List.countP_cons]
  cases (check b t).1 && s t <;> rfl

/-- Checks at other times are not counted. -/
lemma allowedAt_eq_zero {s : T → Bool} (check : B → T → Bool × B) (b : B) {ts : List T}
    (hts : ∀ t ∈ ts, s t = false) : allowedAt s (replay check b ts) = 0 := by
  induction ts generalizing b with
  | nil => rfl
  | cons t ts ih =>
    rw [allowedAt_cons, ih _ fun t' ht' => hts t' (List.mem_cons_of_mem _ ht'),
      hts t List.mem_cons_self, Bool.and_false]
    rfl

/-- More times are chosen, more checks are counted. -/
lemma allowedAt_mono {s s' : T → Bool} (hs : ∀ t, s t = true → s' t = true)
    (answers : List (T × Bool)) : allowedAt s answers ≤ allowedAt s' answers := by
  refine List.countP_mono_left fun a _ ha => ?_
  obtain ⟨hyes, hat⟩ := Bool.and_eq_true_iff.mp ha
  exact Bool.and_eq_true_iff.mpr ⟨hyes, hs _ hat⟩

end

/-! ## Token buckets -/

/-- The size of a bucket and the rate at which it is filled. -/
structure Limit (K : Type) [Zero K] [LE K] where
  size : K
  rate : K
  size_nonneg : 0 ≤ size
  rate_nonneg : 0 ≤ rate

/-- The tokens in a bucket, and when they were counted. -/
structure Bucket (K : Type) where
  level : K
  last : K
  deriving DecidableEq

section

variable {K : Type} [Field K] [LinearOrder K]

/-- The tokens in the bucket at time `now`. -/
def Limit.refill (p : Limit K) (b : Bucket K) (now : K) : K :=
  min p.size (b.level + p.rate * (now - b.last))

/-- Take a token, if there is one. -/
def Limit.take (p : Limit K) (b : Bucket K) (now : K) : Bool × Bucket K :=
  if 1 ≤ p.refill b now then (true, ⟨p.refill b now - 1, now⟩)
  else (false, ⟨p.refill b now, now⟩)

/-- A full bucket. -/
def Limit.full (p : Limit K) (start : K) : Bucket K := ⟨p.size, start⟩

/-- A token that is taken is gone. -/
lemma take_level (p : Limit K) (b : Bucket K) (t : K) :
    ((p.take b t).1.toNat : K) + (p.take b t).2.level = p.refill b t := by
  unfold Limit.take
  split
  · simp
  · simp

/-- The tokens are counted at the time of the check. -/
lemma take_last (p : Limit K) (b : Bucket K) (t : K) : (p.take b t).2.last = t := by
  unfold Limit.take
  split <;> rfl

variable [IsStrictOrderedRing K] {p : Limit K} {b : Bucket K} {t : K}

/-- There is no debt. -/
lemma take_level_nonneg (hlevel : 0 ≤ b.level) (hlast : b.last ≤ t) : 0 ≤ (p.take b t).2.level := by
  have hgain : 0 ≤ p.rate * (t - b.last) := mul_nonneg p.rate_nonneg (sub_nonneg.mpr hlast)
  have hrefill : 0 ≤ p.refill b t := le_min p.size_nonneg (add_nonneg hlevel hgain)
  unfold Limit.take
  split
  · rename_i htoken
    exact sub_nonneg.mpr htoken
  · exact hrefill

/-- Until `hi`, no more checks are answered with yes than there are tokens and tokens come in. -/
lemma allowed_until_le (hi : K) {ts : List K} (hlevel : 0 ≤ b.level)
    (hsorted : (b.last :: ts).Pairwise (· ≤ ·)) (hhi : b.last ≤ hi) :
    (allowedAt (fun t => decide (t ≤ hi)) (replay p.take b ts) : K) ≤
      b.level + p.rate * (hi - b.last) := by
  have hroom : ∀ {b : Bucket K}, 0 ≤ b.level → b.last ≤ hi →
      0 ≤ b.level + p.rate * (hi - b.last) := fun hlevel hhi =>
    add_nonneg hlevel (mul_nonneg p.rate_nonneg (sub_nonneg.mpr hhi))
  induction ts generalizing b with
  | nil => simpa [allowedAt, replay] using hroom hlevel hhi
  | cons t ts ih =>
    obtain ⟨hlast, hsorted⟩ := List.pairwise_cons.mp hsorted
    have hbt : b.last ≤ t := hlast t List.mem_cons_self
    by_cases hthi : t ≤ hi
    · have hrest := ih (take_level_nonneg (p := p) hlevel hbt)
        (by rwa [take_last]) (by rwa [take_last])
      have htake := take_level p b t
      have hrefill : p.refill b t ≤ b.level + p.rate * (t - b.last) := min_le_right _ _
      have hsplit : p.rate * (hi - b.last) = p.rate * (t - b.last) + p.rate * (hi - t) := by ring
      rw [take_last] at hrest
      rw [allowedAt_cons, Nat.cast_add, decide_eq_true hthi, Bool.and_true]
      linarith
    · -- the times are in order, so none of the later checks is before `hi` either
      have hlate : ∀ t' ∈ t :: ts, decide (t' ≤ hi) = false := by
        intro t' ht'
        refine decide_eq_false fun hle => hthi ?_
        rcases List.mem_cons.mp ht' with rfl | ht'
        · exact hle
        · exact ((List.pairwise_cons.mp hsorted).1 t' ht').trans hle
      rw [allowedAt_eq_zero p.take b hlate, Nat.cast_zero]
      exact hroom hlevel hhi

/-- In an interval of length `len` at most `size + rate * len` checks are answered with yes. -/
theorem allowed_within_le (lo : K) {len : K} (hlen : 0 ≤ len) {ts : List K} (hlevel : 0 ≤ b.level)
    (hsorted : (b.last :: ts).Pairwise (· ≤ ·)) :
    (allowedAt (fun t => decide (lo ≤ t ∧ t ≤ lo + len)) (replay p.take b ts) : K) ≤
      p.size + p.rate * len := by
  induction ts generalizing b with
  | nil =>
    have hgain : 0 ≤ p.rate * len := mul_nonneg p.rate_nonneg hlen
    simpa [allowedAt, replay] using add_nonneg p.size_nonneg hgain
  | cons t ts ih =>
    obtain ⟨hlast, hsorted⟩ := List.pairwise_cons.mp hsorted
    have hbt : b.last ≤ t := hlast t List.mem_cons_self
    have hlevel' := take_level_nonneg (p := p) hlevel hbt
    have hsorted' : ((p.take b t).2.last :: ts).Pairwise (· ≤ ·) := by rwa [take_last]
    rw [allowedAt_cons]
    by_cases hin : lo ≤ t ∧ t ≤ lo + len
    · -- the first check in the interval: from here on count everything up to its end
      have hmono : allowedAt (fun t => decide (lo ≤ t ∧ t ≤ lo + len))
          (replay p.take (p.take b t).2 ts) ≤
          allowedAt (fun t => decide (t ≤ lo + len)) (replay p.take (p.take b t).2 ts) :=
        allowedAt_mono (fun t ht => decide_eq_true (of_decide_eq_true ht).2) _
      have hrest := allowed_until_le (p := p) (lo + len) hlevel' hsorted'
        (by rw [take_last]; exact hin.2)
      have htake := take_level p b t
      have hrefill : p.refill b t ≤ p.size := min_le_left _ _
      have hgain : p.rate * (lo + len - t) ≤ p.rate * len :=
        mul_le_mul_of_nonneg_left (by linarith [hin.1]) p.rate_nonneg
      have hmono : (allowedAt (fun t => decide (lo ≤ t ∧ t ≤ lo + len))
          (replay p.take (p.take b t).2 ts) : K) ≤
          allowedAt (fun t => decide (t ≤ lo + len)) (replay p.take (p.take b t).2 ts) := by
        exact_mod_cast hmono
      rw [take_last] at hrest
      rw [decide_eq_true hin, Bool.and_true, Nat.cast_add]
      linarith
    · rw [decide_eq_false hin, Bool.and_false]
      exact ih hlevel' hsorted'

end

end Metering
