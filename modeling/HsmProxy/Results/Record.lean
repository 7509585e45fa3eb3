import HsmProxy.Collections.Selection
import Mathlib.Data.Rat.Cast.Order
import Mathlib.Tactic.Linarith

/-!
# Records of the benchmarks, and which one is kept

`render-results.py` reduces every result file to a `Record` and keeps one record for each workload.
`beats` compares two records by their trust, then refuses a challenger with too many errors, then
compares the throughput.  It never looks at the errors of the incumbent.  As a relation it is a
strict order (`Record.beats_iff`), so that what is kept is an unbeaten record, and every unbeaten
record is kept for some order of the list.

`selection_sound_iff` says for which lists of records the selection does not depend on the order and
never prefers a run with errors.  Figures are exact rationals.
-/

namespace HsmProxy

open Selection

/-! ## Records -/

/-- One measured figure, with everything needed to compare it to another. -/
structure Record where
  workload : String
  qps : ℚ
  p99Ms : Option ℚ
  host : String
  trust : String
  setup : String
  errors : ℤ
  served : ℤ
  source : String
  deriving DecidableEq

/-- A run is treated as clean below this shed fraction. -/
def maxErrorRate : ℚ := 1 / 1000

/-- Trust ordering; other names have rank 0. -/
def ranking : List (String × ℕ) :=
  [("two-host-reference", 4), ("reference", 3), ("local", 1)]

namespace Record

/-- `RANKING.get(self.trust, 0)`. -/
def rank (r : Record) : ℕ := (OrderedDict.get? r.trust ranking).getD 0

/-- `error_rate`. -/
def errorRate (r : Record) : ℚ :=
  let total := r.errors + r.served
  if total = 0 then 0 else r.errors / total

/-- The run counts as clean. -/
def clean (r : Record) : Prop := r.errorRate ≤ maxErrorRate

instance (r : Record) : Decidable r.clean := inferInstanceAs (Decidable (_ ≤ _))

/-- `beats`. -/
def beats (r other : Record) : Bool :=
  -- Trust dominates throughput.
  if r.rank ≠ other.rank then decide (other.rank < r.rank)
  -- An error-laden run is not a record.
  else if maxErrorRate < r.errorRate then false
  else decide (other.qps < r.qps)

/-- A record beats another one by its trust; with equal trust, by its throughput if it is clean. -/
lemma beats_iff (r other : Record) : r.beats other ↔
    other.rank < r.rank ∨ (r.rank = other.rank ∧ r.clean ∧ other.qps < r.qps) := by
  unfold beats clean
  by_cases hrank : r.rank = other.rank
  · rw [if_neg (not_not.mpr hrank)]
    by_cases hclean : maxErrorRate < r.errorRate
    · simp [hclean, hrank, not_le.mpr hclean]
    · simp [hclean, hrank, not_lt.mp hclean]
  · simp [hrank]

instance : Std.Irrefl fun r other : Record => r.beats other where
  irrefl r h := by
    rcases (beats_iff r r).mp h with hrank | ⟨-, -, hqps⟩
    · exact absurd hrank (Nat.lt_irrefl _)
    · exact absurd hqps (lt_irrefl _)

instance : IsTrans Record fun r other => r.beats other where
  trans x y z hxy hyz := by
    rw [beats_iff] at *
    rcases hxy with hxy | ⟨hxy, hx, hqps⟩
    · rcases hyz with hyz | ⟨hyz, -, -⟩
      · exact Or.inl (hyz.trans hxy)
      · exact Or.inl (hyz ▸ hxy)
    · rcases hyz with hyz | ⟨hyz, -, hqps'⟩
      · exact Or.inl (hxy ▸ hyz)
      · exact Or.inr ⟨hxy.trans hyz, hx, hqps'.trans hqps⟩

/-- What the table ranks a record by. -/
def figure (r : Record) : String × ℚ := (r.trust, r.qps)

end Record

/-- `best_by_workload`. -/
def bestByWorkload (records : List Record) : List (String × Record) :=
  records.foldl (fun best r =>
    match OrderedDict.get? r.workload best with
    | none => OrderedDict.set r.workload r best
    | some cur => if r.beats cur then OrderedDict.set r.workload r best else best) []

/-- The records of one workload. -/
def ofWorkload (workload : String) (records : List Record) : List Record :=
  records.filter fun r => r.workload = workload

/-- The record that is kept for a workload. -/
def kept (workload : String) (records : List Record) : Option Record :=
  OrderedDict.get? workload (bestByWorkload records)

/-- The best record of each workload is a selection by the workload. -/
lemma bestByWorkload_eq (records : List Record) :
    bestByWorkload records = selectBy Record.workload (fun r cur => r.beats cur) records := by
  have hstep : (fun (best : List (String × Record)) r =>
      match OrderedDict.get? r.workload best with
      | none => OrderedDict.set r.workload r best
      | some cur => if r.beats cur then OrderedDict.set r.workload r best else best) =
      selectStep Record.workload fun r cur => r.beats cur := by
    funext best r
    unfold selectStep
    cases OrderedDict.get? r.workload best with
    | none => rfl
    | some cur => rfl
  unfold bestByWorkload selectBy
  rw [hstep]

/-- What is kept is one of the records, under its workload. -/
lemma mem_of_mem_bestByWorkload {records : List Record} {workload : String} {r : Record}
    (h : (workload, r) ∈ bestByWorkload records) : r ∈ records ∧ r.workload = workload := by
  rw [bestByWorkload_eq] at h
  exact mem_selectBy h

/-! ## The unbeaten records of a workload -/

/-- No record has more trust. -/
def TopTrust (l : List Record) (r : Record) : Prop := ∀ x ∈ l, x.rank ≤ r.rank

/-- The record is unbeaten. -/
abbrev UnbeatenRecord (l : List Record) (r : Record) : Prop :=
  Unbeaten (fun r other : Record => r.beats other) l r

/-- A record is unbeaten if it has the most trust, and no clean record with that trust has more
throughput. -/
lemma unbeatenRecord_iff (l : List Record) (r : Record) : UnbeatenRecord l r ↔
    r ∈ l ∧ TopTrust l r ∧ ∀ x ∈ l, TopTrust l x → x.clean → x.qps ≤ r.qps := by
  constructor
  · rintro ⟨hmem, hbest⟩
    have htop : TopTrust l r := by
      intro x hx
      by_contra hlt
      exact hbest x hx ((Record.beats_iff x r).mpr (Or.inl (not_le.mp hlt)))
    refine ⟨hmem, htop, fun x hx hxtop hclean => ?_⟩
    by_contra hlt
    have hrank : x.rank = r.rank := le_antisymm (htop x hx) (hxtop r hmem)
    exact hbest x hx ((Record.beats_iff x r).mpr (Or.inr ⟨hrank, hclean, not_le.mp hlt⟩))
  · rintro ⟨hmem, htop, hqps⟩
    refine ⟨hmem, fun x hx hbeats => ?_⟩
    rcases (Record.beats_iff x r).mp hbeats with hrank | ⟨hrank, hclean, hlt⟩
    · exact absurd hrank (not_lt.mpr (htop x hx))
    · have hxtop : TopTrust l x := fun y hy => hrank ▸ htop y hy
      exact absurd hlt (not_lt.mpr (hqps x hx hxtop hclean))

/-- What is asked of the record that is kept: its trust is the highest among the clean records of
the workload, and it has too many errors only if all of them have. -/
structure KeptWell (l : List Record) (r : Record) : Prop where
  rank_le : ∀ x ∈ l, x.clean → x.rank ≤ r.rank
  rank_attained : (∃ x ∈ l, x.clean) → ∃ x ∈ l, x.clean ∧ x.rank = r.rank
  clean : r.clean ∨ ∀ x ∈ l, ¬ x.clean

/-- When the comparison decides well among the records of a workload.  Among those with the most
trust there is a clean one whose throughput none of them exceeds, and those that reach it are clean
and of the same trust; or no record of the workload is clean, and those with the most trust have the
same trust and throughput. -/
def Decided (l : List Record) : Prop :=
  (∃ c ∈ l, c.clean ∧ TopTrust l c ∧ ∀ x ∈ l, TopTrust l x →
    x.qps ≤ c.qps ∧ (x.qps = c.qps → x.clean ∧ x.trust = c.trust)) ∨
  ((∀ x ∈ l, ¬ x.clean) ∧ ∀ x ∈ l, ∀ y ∈ l, TopTrust l x → TopTrust l y → x.figure = y.figure)

/-- All unbeaten records are as they should be, and alike. -/
def UnbeatenWell (l : List Record) : Prop :=
  (∀ r, UnbeatenRecord l r → KeptWell l r) ∧
    ∀ r r', UnbeatenRecord l r → UnbeatenRecord l r' → r.figure = r'.figure

/-- With a clean record that is decisive, every unbeaten record is clean and has its figure. -/
lemma unbeatenWell_of_clean {l : List Record} {c : Record} (hc : c ∈ l) (hclean : c.clean)
    (htop : TopTrust l c) (hbest : ∀ x ∈ l, TopTrust l x →
      x.qps ≤ c.qps ∧ (x.qps = c.qps → x.clean ∧ x.trust = c.trust)) : UnbeatenWell l := by
  have hlike : ∀ r, UnbeatenRecord l r → r.clean ∧ r.figure = c.figure := by
    intro r hr
    obtain ⟨hmem, hrtop, hqps⟩ := (unbeatenRecord_iff l r).mp hr
    obtain ⟨hle, heq⟩ := hbest r hmem hrtop
    have hqps : r.qps = c.qps := le_antisymm hle (hqps c hc htop hclean)
    obtain ⟨hrclean, htrust⟩ := heq hqps
    exact ⟨hrclean, Prod.ext htrust hqps⟩
  refine ⟨fun r hr => ?_, fun r r' hr hr' => (hlike r hr).2.trans (hlike r' hr').2.symm⟩
  obtain ⟨hmem, hrtop, -⟩ := (unbeatenRecord_iff l r).mp hr
  have hrclean := (hlike r hr).1
  exact ⟨fun x hx _ => hrtop x hx, fun _ => ⟨r, hmem, hrclean, rfl⟩, Or.inl hrclean⟩

/-- Without clean records, every record with the most trust is unbeaten, and nothing is asked of it
but that they are alike. -/
lemma unbeatenWell_iff_of_dirty {l : List Record} (hdirty : ∀ x ∈ l, ¬ x.clean) :
    UnbeatenWell l ↔
      ∀ x ∈ l, ∀ y ∈ l, TopTrust l x → TopTrust l y → x.figure = y.figure := by
  have hunbeaten : ∀ x, UnbeatenRecord l x ↔ x ∈ l ∧ TopTrust l x := by
    intro x
    rw [unbeatenRecord_iff]
    refine and_congr_right fun _ => and_iff_left fun y hy _ hclean => ?_
    exact absurd hclean (hdirty y hy)
  constructor
  · rintro ⟨-, hsame⟩ x hx y hy hxtop hytop
    exact hsame x y ((hunbeaten x).mpr ⟨hx, hxtop⟩) ((hunbeaten y).mpr ⟨hy, hytop⟩)
  · intro hsame
    refine ⟨fun r _ => ⟨fun x hx hclean => absurd hclean (hdirty x hx), ?_, Or.inr hdirty⟩,
      fun r r' hr hr' => ?_⟩
    · rintro ⟨x, hx, hclean⟩
      exact absurd hclean (hdirty x hx)
    · obtain ⟨hmem, htop⟩ := (hunbeaten r).mp hr
      obtain ⟨hmem', htop'⟩ := (hunbeaten r').mp hr'
      exact hsame r hmem r' hmem' htop htop'

/-- If there is a clean record, what is kept in the given order is decisive. -/
lemma exists_decisive_of_unbeatenWell {l : List Record} {x : Record} (hx : x ∈ l)
    (hxclean : x.clean) (h : UnbeatenWell l) : ∃ c ∈ l, c.clean ∧ TopTrust l c ∧
      ∀ y ∈ l, TopTrust l y → y.qps ≤ c.qps ∧ (y.qps = c.qps → y.clean ∧ y.trust = c.trust) := by
  obtain ⟨hwell, hsame⟩ := h
  obtain ⟨c, hselect⟩ := exists_select (r := fun r other : Record => r.beats other)
    (List.ne_nil_of_mem hx)
  have hc : UnbeatenRecord l c := select_unbeaten hselect
  obtain ⟨hmem, htop, hqps⟩ := (unbeatenRecord_iff l c).mp hc
  have hclean : ∀ r, UnbeatenRecord l r → r.clean := by
    intro r hr
    rcases (hwell r hr).clean with hr | hdirty
    · exact hr
    · exact absurd hxclean (hdirty x hx)
  -- a record with the most trust that reaches the throughput of `c` is unbeaten itself
  have hreach : ∀ y ∈ l, TopTrust l y → c.qps ≤ y.qps → UnbeatenRecord l y := by
    intro y hy hytop hle
    exact (unbeatenRecord_iff l y).mpr
      ⟨hy, hytop, fun z hz hztop hzclean => (hqps z hz hztop hzclean).trans hle⟩
  refine ⟨c, hmem, hclean c hc, htop, fun y hy hytop => ⟨?_, fun heq => ?_⟩⟩
  · by_contra hlt
    have hy' := hreach y hy hytop (not_le.mp hlt).le
    exact hlt (hqps y hy hytop (hclean y hy'))
  · have hy' := hreach y hy hytop heq.ge
    exact ⟨hclean y hy', congrArg Prod.fst (hsame y c hy' hc)⟩

/-- The comparison decides well exactly if all unbeaten records are as they should be. -/
theorem decided_iff (l : List Record) : Decided l ↔ UnbeatenWell l := by
  constructor
  · rintro (⟨c, hc, hclean, htop, hbest⟩ | ⟨hdirty, hsame⟩)
    · exact unbeatenWell_of_clean hc hclean htop hbest
    · exact (unbeatenWell_iff_of_dirty hdirty).mpr hsame
  · intro h
    by_cases hexists : ∃ x ∈ l, x.clean
    · obtain ⟨x, hx, hxclean⟩ := hexists
      exact Or.inl (exists_decisive_of_unbeatenWell hx hxclean h)
    · have hdirty : ∀ x ∈ l, ¬ x.clean := fun x hx hclean => hexists ⟨x, hx, hclean⟩
      exact Or.inr ⟨hdirty, (unbeatenWell_iff_of_dirty hdirty).mp h⟩

/-! ## Every order of the records -/

/-- For one workload, the selection is among its records. -/
lemma kept_eq (workload : String) (records : List Record) :
    kept workload records =
      OrderedDict.get? workload (selectBy Record.workload (fun r cur => r.beats cur) records) := by
  unfold kept
  rw [bestByWorkload_eq]

/-- A workload has a kept record exactly if it has a record. -/
lemma kept_eq_none_iff (workload : String) (records : List Record) :
    kept workload records = none ↔ ofWorkload workload records = [] := by
  rw [kept_eq, get?_selectBy]
  constructor
  · intro h
    by_contra hne
    obtain ⟨r, hr⟩ := exists_select (r := fun r other : Record => r.beats other) hne
    have hr : select (fun r other : Record => r.beats other)
        (records.filter fun r => r.workload = workload) = some r := hr
    rw [hr] at h
    cases h
  · intro h
    have h : (records.filter fun r => r.workload = workload) = [] := h
    rw [h]
    rfl

/-- What is kept, whatever the order, is unbeaten. -/
lemma unbeatenRecord_of_kept {workload : String} {records records' : List Record} {r : Record}
    (hperm : records'.Perm records) (h : kept workload records' = some r) :
    UnbeatenRecord (ofWorkload workload records) r := by
  rw [kept_eq] at h
  exact forall_perm_selectBy_iff.mpr (fun r hr => hr) records' hperm r h

/-- Whether there is a kept record does not depend on the order. -/
lemma kept_eq_none_of_perm {workload : String} {records records' : List Record}
    (hperm : records'.Perm records) :
    kept workload records' = none ↔ kept workload records = none := by
  have hfilter : (ofWorkload workload records').Perm (ofWorkload workload records) :=
    hperm.filter _
  rw [kept_eq_none_iff, kept_eq_none_iff]
  constructor
  · intro h
    exact (h ▸ hfilter).symm.eq_nil
  · intro h
    exact (h ▸ hfilter).eq_nil

/-- What is asked of a record does not depend on the order. -/
lemma keptWell_of_perm {l l' : List Record} {r : Record} (hperm : l'.Perm l)
    (h : KeptWell l' r) : KeptWell l r := by
  obtain ⟨hle, hattained, hclean⟩ := h
  simp only [hperm.mem_iff] at hle hattained hclean
  exact ⟨hle, hattained, hclean⟩

/-- For every list of records: whatever the order of the list, the record that is kept for each
workload has the same trust and throughput, its trust is the highest among the clean records of the
workload, and it is not clean only if none of them is — exactly if the comparison decides well among
the records of each workload. -/
theorem selection_sound_iff (records : List Record) :
    (∀ workload records', records'.Perm records →
      (kept workload records').map Record.figure = (kept workload records).map Record.figure ∧
      ∀ r, kept workload records' = some r → KeptWell (ofWorkload workload records') r) ↔
    ∀ workload, Decided (ofWorkload workload records) := by
  constructor
  · intro h workload
    rw [decided_iff]
    have hfigure : ∀ r, UnbeatenRecord (ofWorkload workload records) r →
        some r.figure = (kept workload records).map Record.figure ∧
          KeptWell (ofWorkload workload records) r := by
      refine forall_perm_selectBy_iff.mp fun records' hp r hr => ?_
      rw [← kept_eq] at hr
      obtain ⟨hsame, hwell⟩ := h workload records' hp
      rw [hr] at hsame
      exact ⟨hsame, keptWell_of_perm (hp.filter _) (hwell r hr)⟩
    refine ⟨fun r hr => (hfigure r hr).2, fun r r' hr hr' => ?_⟩
    exact Option.some.inj ((hfigure r hr).1.trans (hfigure r' hr').1.symm)
  · intro h workload records' hp
    obtain ⟨hwell, hsame⟩ := (decided_iff _).mp (h workload)
    refine ⟨?_, fun r hr => ?_⟩
    · cases hr : kept workload records with
      | none => rw [(kept_eq_none_of_perm hp).mpr hr]
      | some r =>
        cases hr' : kept workload records' with
        | none =>
          rw [(kept_eq_none_of_perm hp).mp hr'] at hr
          cases hr
        | some r' =>
          have hunbeaten := unbeatenRecord_of_kept (List.Perm.refl records) hr
          exact congrArg some (hsame r' r (unbeatenRecord_of_kept hp hr') hunbeaten)
    · exact keptWell_of_perm (hp.filter _).symm (hwell r (unbeatenRecord_of_kept hp hr))

/-- A run of one workload. -/
def poolRun (trust : String) (qps : ℚ) (errors served : ℤ) : Record where
  workload := "Sign ec-signing (pool)"
  qps := qps
  p99Ms := some (3 / 2)
  host := "c7i.xlarge"
  trust := trust
  setup := "single-host, 4 workers"
  errors := errors
  served := served
  source := "results/sweep.json"

/-- A reference run that fails half of its requests displaces a clean local one.  With equal trust,
a faster run with errors stays if it comes first and is refused if it comes second. -/
theorem error_laden_run_kept :
    ((poolRun "local" 100 0 100).clean ∧ ¬ (poolRun "reference" 50 50 50).clean ∧
      kept "Sign ec-signing (pool)" [poolRun "local" 100 0 100, poolRun "reference" 50 50 50] =
        some (poolRun "reference" 50 50 50)) ∧
    (¬ (poolRun "reference" 200 200 200).clean ∧
      kept "Sign ec-signing (pool)"
        [poolRun "reference" 200 200 200, poolRun "reference" 100 0 100] =
          some (poolRun "reference" 200 200 200) ∧
      kept "Sign ec-signing (pool)"
        [poolRun "reference" 100 0 100, poolRun "reference" 200 200 200] =
          some (poolRun "reference" 100 0 100)) := by
  decide +kernel

end HsmProxy
