import HsmProxy.Results.Report
import Mathlib.Algebra.BigOperators.Group.List.Basic

/-!
# What a concurrency sweep publishes

`bench-sweep.sh` measures a list of concurrency levels.  Each level is repeated, its row holds the
medians of the repetitions and the sum of their errors, and it is within the budget if the median
tail is below the budget and there were no errors.  The file gives the highest throughput of those
rows, starting from 0.

For the files it writes, the condition of `published_row_is_one_run` is that one level within the
budget has both the highest throughput and the worst tail (`sweepFile_figuresAgree_iff`).  Where it
fails, the published record still errs on the safe side: the row with the published throughput has
no errors and a tail that is at most the published one, and that is below the budget
(`sweepFile_record`).
-/

namespace HsmProxy

open Selection

/-! ## The sweep -/

/-- One repetition at one level. -/
structure Rep where
  qps : ℚ
  p99Ms : ℚ
  errors : ℕ

/-- `median`: the lower one of the two in the middle. -/
def median (samples : List ℚ) : ℚ :=
  (samples.insertionSort (· ≤ ·)).getD ((samples.length + 1) / 2 - 1) 0

/-- The repetitions at one level of concurrency. -/
structure Level where
  reps : List Rep

namespace Level

/-- `QPS`. -/
def qps (c : Level) : ℚ := median (c.reps.map Rep.qps)

/-- `P99`. -/
def p99Ms (c : Level) : ℚ := median (c.reps.map Rep.p99Ms)

/-- `ERR_TOTAL`. -/
def errors (c : Level) : ℕ := (c.reps.map Rep.errors).sum

/-- `WITHIN`. -/
def within (budget : ℚ) (c : Level) : Prop := c.p99Ms < budget ∧ c.errors = 0

instance (budget : ℚ) (c : Level) : Decidable (c.within budget) :=
  inferInstanceAs (Decidable (_ ∧ _))

/-- The row that is written for a level. -/
def row (budget : ℚ) (c : Level) : Row where
  qps := some c.qps
  p99Ms := some (some c.p99Ms)
  errors := some c.errors
  withinBudget := some (decide (c.within budget))

end Level

/-- The state of the loop over the levels: `BEST_QPS` and `ROWS`. -/
structure SweepState where
  bestQps : ℚ
  rows : List Row

/-- One level. -/
def sweepStep (budget : ℚ) (st : SweepState) (c : Level) : SweepState where
  bestQps := if c.within budget ∧ st.bestQps < c.qps then c.qps else st.bestQps
  rows := st.rows ++ [c.row budget]

/-- The loop. -/
def sweep (budget : ℚ) (levels : List Level) : SweepState :=
  levels.foldl (sweepStep budget) ⟨0, []⟩

/-- What a sweep is run with. -/
structure SweepSettings where
  path : String
  host : HostInfo
  mode : String
  tls : String
  workers : ℤ
  call : String
  keyLabel : String
  budget : ℚ

/-- The file that a sweep writes. -/
def sweepFile (cfg : SweepSettings) (levels : List Level) : ResultFile where
  path := cfg.path
  host := cfg.host
  run :=
    { mode := some cfg.mode, tls := some cfg.tls, workers := some cfg.workers,
      call := some cfg.call, keyLabel := some cfg.keyLabel, budgetP99Ms := some cfg.budget }
  rows := (sweep cfg.budget levels).rows
  maxQpsWithinBudget := some (sweep cfg.budget levels).bestQps

/-! ## The invariant of the loop -/

/-- After some levels there is one row for each, and the best throughput is 0 or that of a level
within the budget, and none of these has more. -/
structure SweepInvariant (budget : ℚ) (levels : List Level) (st : SweepState) : Prop where
  rows : st.rows = levels.map (Level.row budget)
  attained : st.bestQps = 0 ∨ ∃ c ∈ levels, c.within budget ∧ c.qps = st.bestQps
  bound : ∀ c ∈ levels, c.within budget → c.qps ≤ st.bestQps
  nonneg : 0 ≤ st.bestQps

/-- One more level keeps it. -/
lemma SweepInvariant.step {budget : ℚ} {levels : List Level} {st : SweepState}
    (h : SweepInvariant budget levels st) (c : Level) :
    SweepInvariant budget (levels ++ [c]) (sweepStep budget st c) := by
  have hrows : (sweepStep budget st c).rows = (levels ++ [c]).map (Level.row budget) := by
    rw [List.map_append, ← h.rows]
    rfl
  by_cases hbest : c.within budget ∧ st.bestQps < c.qps
  · have hqps : (sweepStep budget st c).bestQps = c.qps := if_pos hbest
    refine ⟨hrows, Or.inr ⟨c, by simp, hbest.1, hqps.symm⟩, fun x hx hwithin => ?_, ?_⟩
    · rw [hqps]
      rcases List.mem_append.mp hx with hx | hx
      · exact (h.bound x hx hwithin).trans hbest.2.le
      · exact (congrArg Level.qps (List.mem_singleton.mp hx)).le
    · rw [hqps]
      exact h.nonneg.trans hbest.2.le
  · have hqps : (sweepStep budget st c).bestQps = st.bestQps := if_neg hbest
    refine ⟨hrows, ?_, fun x hx hwithin => ?_, hqps ▸ h.nonneg⟩
    · rw [hqps]
      rcases h.attained with hzero | ⟨x, hx, hattained⟩
      · exact Or.inl hzero
      · exact Or.inr ⟨x, List.mem_append_left _ hx, hattained⟩
    · rw [hqps]
      rcases List.mem_append.mp hx with hx | hx
      · exact h.bound x hx hwithin
      · obtain rfl := List.mem_singleton.mp hx
        exact not_lt.mp fun hlt => hbest ⟨hwithin, hlt⟩

/-- The whole loop. -/
theorem sweep_invariant (budget : ℚ) (levels : List Level) :
    SweepInvariant budget levels (sweep budget levels) := by
  induction levels using List.reverseRecOn with
  | nil => exact ⟨rfl, Or.inl rfl, by simp, le_rfl⟩
  | append_singleton levels c ih =>
    have hsweep : sweep budget (levels ++ [c]) = sweepStep budget (sweep budget levels) c :=
      List.foldl_append
    rw [hsweep]
    exact ih.step c

/-! ## What is published -/

section

variable {cfg : SweepSettings} {levels : List Level}

/-- The rows that are marked as within the budget are those of the levels within the budget. -/
lemma mem_within_sweepFile (row : Row) : row ∈ (sweepFile cfg levels).within ↔
    ∃ c ∈ levels, c.within cfg.budget ∧ c.row cfg.budget = row := by
  have hrows : (sweepFile cfg levels).rows = levels.map (Level.row cfg.budget) :=
    (sweep_invariant cfg.budget levels).rows
  unfold ResultFile.within
  rw [hrows, List.mem_filter, List.mem_map]
  constructor
  · rintro ⟨⟨c, hc, rfl⟩, hflag⟩
    exact ⟨c, hc, by simpa [Row.flagged, Level.row] using hflag, rfl⟩
  · rintro ⟨c, hc, hwithin, rfl⟩
    exact ⟨⟨c, hc, rfl⟩, by simpa [Row.flagged, Level.row] using hwithin⟩

/-- The rows of a sweep that are within the budget have no errors. -/
lemma withinErrors_sweepFile : (sweepFile cfg levels).withinErrors = 0 := by
  unfold ResultFile.withinErrors
  refine List.sum_eq_zero fun n hn => ?_
  obtain ⟨row, hrow, rfl⟩ := List.mem_map.mp hn
  obtain ⟨c, -, hwithin, rfl⟩ := (mem_within_sweepFile row).mp hrow
  exact congrArg Int.ofNat hwithin.2

/-- The worst tail is that of a level within the budget. -/
lemma isWorstTail_sweepFile_iff (p99 : ℚ) : (sweepFile cfg levels).IsWorstTail p99 ↔
    (∃ c ∈ levels, c.within cfg.budget ∧ c.p99Ms = p99) ∧
      ∀ c ∈ levels, c.within cfg.budget → c.p99Ms ≤ p99 := by
  unfold ResultFile.IsWorstTail
  simp only [mem_within_sweepFile]
  constructor
  · rintro ⟨⟨row, ⟨c, hc, hwithin, rfl⟩, htail⟩, hworst⟩
    refine ⟨⟨c, hc, hwithin, Option.some.inj htail⟩, fun x hx hxwithin => ?_⟩
    exact hworst _ ⟨x, hx, hxwithin, rfl⟩ x.p99Ms rfl
  · rintro ⟨⟨c, hc, hwithin, rfl⟩, hworst⟩
    refine ⟨⟨_, ⟨c, hc, hwithin, rfl⟩, rfl⟩, ?_⟩
    rintro row ⟨x, hx, hxwithin, rfl⟩ tail htail
    obtain rfl : x.p99Ms = tail := Option.some.inj htail
    exact hworst x hx hxwithin

/-- The figures of a sweep agree exactly if, once a level within the budget served anything, one
level within the budget has both the highest throughput and the worst tail of them. -/
theorem sweepFile_figuresAgree_iff : (sweepFile cfg levels).FiguresAgree ↔
    ((∃ c ∈ levels, c.within cfg.budget ∧ 0 < c.qps) →
      ∃ c ∈ levels, c.within cfg.budget ∧
        ∀ x ∈ levels, x.within cfg.budget → x.qps ≤ c.qps ∧ x.p99Ms ≤ c.p99Ms) := by
  have hinv := sweep_invariant cfg.budget levels
  have hrows : (sweepFile cfg levels).rows = levels.map (Level.row cfg.budget) := hinv.rows
  have htarget : ¬ (sweepFile cfg levels).run.target.isSome := Bool.false_ne_true
  unfold ResultFile.FiguresAgree
  rw [if_neg htarget, withinErrors_sweepFile, hrows]
  constructor
  · rintro hagree ⟨c, hc, hwithin, hpos⟩
    have hbest : (sweep cfg.budget levels).bestQps ≠ 0 :=
      (hpos.trans_le (hinv.bound c hc hwithin)).ne'
    obtain ⟨row, hrow, hqps, ⟨tail, budget, htail, hbudget, hlt⟩, hworst, herrors⟩ :=
      hagree _ rfl hbest
    obtain ⟨x, hx, rfl⟩ := List.mem_map.mp hrow
    obtain rfl : x.p99Ms = tail := Option.some.inj htail
    obtain rfl : cfg.budget = budget := Option.some.inj hbudget
    have hxqps : x.qps = (sweep cfg.budget levels).bestQps := Option.some.inj hqps
    have hxwithin : x.within cfg.budget := ⟨hlt, Int.ofNat_eq_zero.mp herrors⟩
    refine ⟨x, hx, hxwithin, fun y hy hywithin => ⟨?_, ?_⟩⟩
    · exact hxqps ▸ hinv.bound y hy hywithin
    · exact ((isWorstTail_sweepFile_iff _).mp (hworst _ rfl)).2 y hy hywithin
  · intro hlevel qps hmax hqps
    obtain rfl : (sweep cfg.budget levels).bestQps = qps := Option.some.inj hmax
    obtain ⟨c, hc, hwithin, hcqps⟩ := hinv.attained.resolve_left hqps
    have hpos : 0 < c.qps := hcqps ▸ lt_of_le_of_ne hinv.nonneg (Ne.symm hqps)
    obtain ⟨x, hx, hxwithin, hxbest⟩ := hlevel ⟨c, hc, hwithin, hpos⟩
    have hxqps : x.qps = (sweep cfg.budget levels).bestQps :=
      le_antisymm (hinv.bound x hx hxwithin) (hcqps ▸ (hxbest c hc hwithin).1)
    refine ⟨_, List.mem_map_of_mem hx, congrArg some hxqps, ?_, ?_, ?_⟩
    · exact ⟨x.p99Ms, cfg.budget, rfl, rfl, hxwithin.1⟩
    · intro p99 hp99
      obtain rfl : x.p99Ms = p99 := Option.some.inj hp99
      exact (isWorstTail_sweepFile_iff _).mpr
        ⟨⟨x, hx, hxwithin, rfl⟩, fun y hy hywithin => (hxbest y hy hywithin).2⟩
    · exact congrArg Int.ofNat hxwithin.2

/-- If a level is within the budget, one of those has the worst tail. -/
lemma exists_isWorstTail_sweepFile {c : Level} (hc : c ∈ levels) (hwithin : c.within cfg.budget) :
    ∃ w ∈ levels, w.within cfg.budget ∧ (sweepFile cfg levels).IsWorstTail w.p99Ms := by
  have hmem : ∀ x, x ∈ levels.filter (fun x => x.within cfg.budget) ↔
      x ∈ levels ∧ x.within cfg.budget := by simp
  cases hworst : (levels.filter fun x => x.within cfg.budget).argmax Level.p99Ms with
  | none =>
    have hnil := List.argmax_eq_none.mp hworst
    have hc' := (hmem c).mpr ⟨hc, hwithin⟩
    rw [hnil] at hc'
    cases hc'
  | some w =>
    obtain ⟨hw, hwwithin⟩ := (hmem w).mp (List.argmax_mem hworst)
    refine ⟨w, hw, hwwithin, (isWorstTail_sweepFile_iff _).mpr ⟨⟨w, hw, hwwithin, rfl⟩, ?_⟩⟩
    intro x hx hxwithin
    exact List.le_of_mem_argmax ((hmem x).mpr ⟨hx, hxwithin⟩) hworst

/-- The record of a sweep errs on the safe side: it has no errors and a tail below the budget, and
some level measured its throughput with no errors and a tail that is no worse. -/
theorem sweepFile_record {r : Record} (h : (sweepFile cfg levels).toRecord = .ok (some r)) :
    r.errors = 0 ∧ ∃ tail, r.p99Ms = some tail ∧ tail < cfg.budget ∧
      ∃ c ∈ levels, c.errors = 0 ∧ c.qps = r.qps ∧ c.p99Ms ≤ tail := by
  have hinv := sweep_invariant cfg.budget levels
  rcases ResultFile.toRecord_cases h with ⟨htarget, -⟩ | ⟨-, -, hout⟩ |
    ⟨-, qps, p99, hmax, hqps, hp99, hout⟩
  · exact absurd htarget Bool.false_ne_true
  · cases hout
  · obtain rfl : (sweep cfg.budget levels).bestQps = qps := Option.some.inj hmax
    obtain rfl := Option.some.inj hout
    obtain ⟨c, hc, hwithin, hcqps⟩ := hinv.attained.resolve_left hqps
    obtain ⟨w, hw, hwwithin, hworst⟩ := exists_isWorstTail_sweepFile hc hwithin
    have hsome : p99 = some w.p99Ms :=
      (ResultFile.worstTail_eq_some_iff hp99 w.p99Ms).mpr hworst
    have hle := ((isWorstTail_sweepFile_iff _).mp hworst).2 c hc hwithin
    exact ⟨withinErrors_sweepFile, w.p99Ms, hsome, hwwithin.1, c, hc, hwithin.2, hcqps, hle⟩

end

/-- A level that was measured once, without errors. -/
def Level.once (qps p99Ms : ℚ) : Level := ⟨[⟨qps, p99Ms, 0⟩]⟩

/-- A sweep of eight workers with a budget of 2 ms. -/
def eightWorkers : SweepSettings :=
  ⟨"a.json", {}, "pool", "off", 8, "hsm.v1.HsmService/Sign", "demo-ec-p256", 2⟩

/-- A slow level with a bad tail, and a fast one with a good tail: the record has the throughput of
the fast one and the tail of the slow one. -/
theorem sweepFile_record_two_levels :
    ∃ r, (sweepFile eightWorkers [.once 100 (19 / 10), .once 500 (3 / 2)]).toRecord =
        .ok (some r) ∧ r.qps = 500 ∧ r.errors = 0 ∧ ∃ tail, r.p99Ms = some tail ∧ tail < 2 ∧
      ∃ c ∈ [Level.once 100 (19 / 10), .once 500 (3 / 2)],
        c.errors = 0 ∧ c.qps = r.qps ∧ c.p99Ms ≤ tail := by
  have hrecord : (sweepFile eightWorkers [.once 100 (19 / 10), .once 500 (3 / 2)]).toRecord =
      .ok (some ((sweepFile eightWorkers [.once 100 (19 / 10), .once 500 (3 / 2)]).concurrencyRecord
        500 (some (19 / 10)))) := by
    decide +kernel
  exact ⟨_, hrecord, rfl, sweepFile_record hrecord⟩

end HsmProxy
