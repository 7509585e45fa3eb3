import HsmProxy.Collections.Quantile
import HsmProxy.Results.Report
import HsmProxy.Service.Causes

/-!
# What an overload sweep publishes

`bench-overload.sh` offers a list of fixed rates.  For each rate it reads the report of the load
generator, separates the accepted requests from the others, and writes a row; the rows make up the
file from which `render-results.py` takes a record.

* `overload_rows`: which reports have a row in the file, and what the rows say of them.
* `overload_record`: what the record of the file says, down to the single requests.
* `rejection_reason`: the script tells a full queue from an exceeded rate by the text of the
  rejection; for the texts of the proxy this is right in every run.

The rates and percentages are computed with binary64 numbers.  Near the limit of one per cent, by
which the capacity is found, this matters: 19 of 2000 requests are 0.95 per cent, which is written as
0.9 because the binary64 number is a little smaller.
-/

namespace HsmProxy

open Selection Quantile Binary64 Interleaving

/-! ## The report of a rate -/

/-- One answered request; the latency is in nanoseconds. -/
structure Detail where
  latency : ℕ
  status : String
  error : Option String := none
  deriving DecidableEq

/-- What the load generator reports of one rate. -/
structure GhzReport where
  rps : ℚ
  details : List Detail

/-- `pct`, in milliseconds.  The position is that of exact numbers for less than `2 ^ 46` latencies,
and a latency below `10 ^ 15` nanoseconds is written as the decimal fraction that it is. -/
def pct (vals : List ℕ) (p : ℕ) : Option ℚ := (percentile p vals).map fun v => (v : ℚ) / 10 ^ 6

/-- One text contains another. -/
def mentions (text part : String) : Bool := decide (part.toList <:+: text.toList)

/-- `reason`: why a request was rejected. -/
def Detail.reason (x : Detail) : String :=
  let err := x.error.getD ""
  if mentions err "queue is full" then "queue_full"
  else if mentions err "rate limit" then "rate_limited"
  else x.status

namespace GhzReport

/-- The latencies of the accepted requests. -/
def ok (d : GhzReport) : List ℕ := (d.details.filter fun x => x.status = "OK").map Detail.latency

/-- The requests that were not accepted. -/
def refused (d : GhzReport) : List Detail := d.details.filter fun x => ¬ x.status = "OK"

/-- Their latencies. -/
def shed (d : GhzReport) : List ℕ := d.refused.map Detail.latency

/-- Every request is accepted or shed. -/
lemma length_ok_add_shed (d : GhzReport) : d.ok.length + d.shed.length = d.details.length := by
  rw [ok, shed, refused, List.length_map, List.length_map, ← List.countP_eq_length_filter,
    ← List.countP_eq_length_filter]
  simpa using (List.length_eq_countP_add_countP (fun x : Detail => x.status = "OK")).symm

end GhzReport

/-- A row of an overload sweep. -/
structure OverloadRow where
  offeredRps : ℕ
  achievedRps : ℤ
  accepted : ℕ
  acceptedRps : ℤ
  shed : ℕ
  shedPct : ℚ
  rejections : List (String × ℕ)
  acceptedP50Ms : Option ℚ
  acceptedP99Ms : Option ℚ
  shedP99Ms : Option ℚ
  acceptedWithinBudget : Bool

/-- The row of a rate; none without responses. -/
def GhzReport.row (budget : ℚ) (rps : ℕ) (d : GhzReport) : Option OverloadRow :=
  let total := d.ok.length + d.shed.length
  if total = 0 then none
  else
    let achieved := toBinary64 d.rps
    let shedPct := toBinary64 (100 * d.shed.length / total)
    let p99 := pct d.ok 99
    let acceptedRps := toBinary64 (toBinary64 (achieved * d.ok.length) / total)
    some
      { offeredRps := rps
        achievedRps := roundHalfEven achieved
        accepted := d.ok.length
        acceptedRps := roundHalfEven acceptedRps
        shed := d.shed.length
        -- the one decimal place that is written
        shedPct := roundHalfEven (10 * shedPct) / 10
        rejections := OrderedDict.tally (d.refused.map Detail.reason)
        acceptedP50Ms := pct d.ok 50
        acceptedP99Ms := p99
        shedP99Ms := pct d.shed 99
        acceptedWithinBudget := match p99 with
          | some tail => decide (tail < budget)
          | none => false }

/-! ## The sweep -/

/-- What a sweep is run with. -/
structure OverloadSettings where
  path : String
  clientHost : HostInfo
  keyLabel : String
  budget : ℚ
  tls : Bool
  identity : String

/-- The report of a rate, if it can be read, gives a row, in the place of an earlier one of that
rate. -/
def overloadStep (budget : ℚ) (rows : List (ℕ × OverloadRow)) (run : ℕ × Option GhzReport) :
    List (ℕ × OverloadRow) :=
  match run.2.bind (GhzReport.row budget run.1) with
  | some row => OrderedDict.set run.1 row rows
  | none => rows

/-- The rows in the order of their rates. -/
def overloadRows (budget : ℚ) (runs : List (ℕ × Option GhzReport)) : List OverloadRow :=
  ((runs.foldl (overloadStep budget) []).insertionSort fun a b => a.1 ≤ b.1).map Prod.snd

/-- `capacity`. -/
def capacity (rows : List OverloadRow) : ℕ :=
  ((rows.filter fun r => r.shedPct < 1).map OverloadRow.offeredRps).max?.getD 0

/-- What the report reads of a row. -/
def OverloadRow.toRow (r : OverloadRow) : Row where
  offeredRps := some r.offeredRps
  accepted := some r.accepted
  shed := some r.shed
  acceptedP99Ms := r.acceptedP99Ms

/-- The file that a sweep writes. -/
def overloadFile (cfg : OverloadSettings) (runs : List (ℕ × Option GhzReport)) : ResultFile where
  path := cfg.path
  clientHost := cfg.clientHost
  run :=
    { target := some "<remote host, address elided>"
      keyLabel := some cfg.keyLabel
      budgetP99Ms := some cfg.budget
      mode := some "open-loop (fixed offered rate)"
      tls := some (if cfg.tls then "mTLS, " ++ cfg.identity ++ " client identity" else "off") }
  rows := (overloadRows cfg.budget runs).map OverloadRow.toRow

/-! ## What a row says -/

/-- The percentage that was shed, before it is rounded. -/
def OverloadRow.share (r : OverloadRow) : ℚ := 100 * r.shed / ((r.accepted + r.shed : ℕ) : ℚ)

/-- A latency is below the budget, which is in milliseconds. -/
def underBudget (budget : ℚ) (v : ℕ) : Bool := decide ((v : ℚ) / 10 ^ 6 < budget)

/-- A percentile of some latencies as a row shows it, in milliseconds; none without latencies. -/
def ShowsPercentile (p : ℕ) (latencies : List ℕ) : Option ℚ → Prop
  | some ms => ∃ v, IsPercentile p latencies v ∧ ms = (v : ℚ) / 10 ^ 6
  | none => latencies = []

/-- What a row says of the report it was made from. -/
structure RowOf (budget : ℚ) (report : GhzReport) (row : OverloadRow) : Prop where
  accepted : row.accepted = report.ok.length
  shed : row.shed = report.shed.length
  total : row.accepted + row.shed = report.details.length ∧ report.details ≠ []
  /-- The throughput is the integer nearest to that of the generator, but for the rounding of
  binary64. -/
  achievedRps : |(row.achievedRps : ℚ) - report.rps| ≤ 1 / 2 + |report.rps| / 2 ^ 53
  /-- The accepted throughput is the integer nearest to the accepted share of it, but for three such
  roundings. -/
  acceptedRps : |(row.acceptedRps : ℚ) - report.rps * row.accepted / report.details.length| ≤
    1 / 2 + |report.rps| / 2 ^ 51
  shedPct : row.shedPct = roundHalfEven (10 * toBinary64 row.share) / 10
  /-- A share is written as less than one per cent if it is at most 0.95 per cent. -/
  low : report.details.length < 2 ^ 32 →
    (row.shedPct < 1 ↔ 10000 * row.shed ≤ 95 * (row.accepted + row.shed))
  /-- Every rejection has one reason. -/
  rejections : (row.rejections.map Prod.snd).sum = row.shed ∧ ∀ reason,
    (OrderedDict.get? reason row.rejections).getD 0 = (report.refused.map Detail.reason).count reason
  p50 : ShowsPercentile 50 report.ok row.acceptedP50Ms
  tail : ShowsPercentile 99 report.ok row.acceptedP99Ms
  shedTail : ShowsPercentile 99 report.shed row.shedP99Ms
  /-- The row is marked as within the budget if more than 99 per cent of the accepted requests
  are. -/
  within : row.acceptedWithinBudget = true ↔
    99 * row.accepted < 100 * report.ok.countP (underBudget budget)

section

variable {budget : ℚ} {runs : List (ℕ × Option GhzReport)} {report : GhzReport} {row : OverloadRow}
  {rate : ℕ}

/-- `pct` finds the percentile. -/
lemma showsPercentile_pct {p : ℕ} (hp : p < 100) (latencies : List ℕ) :
    ShowsPercentile p latencies (pct latencies p) := by
  unfold pct
  cases hv : percentile p latencies with
  | none => exact percentile_eq_none_iff.mp hv
  | some v => exact ⟨v, (percentile_eq_some_iff hp).mp hv, rfl⟩

/-- The tail is within the budget if more than 99 per cent of the sample are. -/
lemma pct_within_iff (vals : List ℕ) :
    (match pct vals 99 with
      | some tail => decide (tail < budget)
      | none => false) = true ↔
      99 * vals.length < 100 * vals.countP (underBudget budget) := by
  cases htail : percentile 99 vals with
  | none =>
    obtain rfl := percentile_eq_none_iff.mp htail
    exact iff_of_false Bool.false_ne_true (Nat.lt_irrefl _)
  | some tail =>
    have hpct : pct vals 99 = some ((tail : ℚ) / 10 ^ 6) := by
      rw [pct, htail]
      rfl
    have hmono : ∀ x y : ℕ, x ≤ y → underBudget budget y = true → underBudget budget x = true := by
      intro x y hxy hy
      have hle : (x : ℚ) / 10 ^ 6 ≤ (y : ℚ) / 10 ^ 6 := by
        gcongr
      exact decide_eq_true (hle.trans_lt (of_decide_eq_true hy))
    rw [hpct, mul_comm 99, ← percentile_iff_lt_countP hmono (by decide) htail]
    rfl

/-- The nearest integer to a binary64 number is near the number it was rounded from. -/
lemma abs_round_toBinary64_sub_le (x : ℚ) :
    |(roundHalfEven (toBinary64 x) : ℚ) - x| ≤ 1 / 2 + |x| / 2 ^ 53 :=
  (abs_sub_le _ (toBinary64 x) _).trans
    (add_le_add (abs_roundHalfEven_sub_le _) (abs_toBinary64_sub_le x))

/-- A share of a number, computed with binary64 numbers. -/
lemma abs_share_sub_le (x : ℚ) {n total : ℕ} (hn : n ≤ total) (htotal : 0 < total) :
    |toBinary64 (toBinary64 (toBinary64 x * n) / total) - x * n / total| ≤ |x| / 2 ^ 51 := by
  set a := toBinary64 x with ha
  set b := toBinary64 (a * n) with hb
  have hpos : (0 : ℚ) < total := Nat.cast_pos.mpr htotal
  have hshare : (n : ℚ) / total ≤ 1 := (div_le_one hpos).mpr (Nat.cast_le.mpr hn)
  have hshare₀ : (0 : ℚ) ≤ n / total := div_nonneg (Nat.cast_nonneg n) hpos.le
  -- the three roundings
  have h₁ : |a - x| ≤ |x| / 2 ^ 53 := abs_toBinary64_sub_le x
  have h₂ : |b / total - a * (n / total)| ≤ |a| / 2 ^ 53 := by
    have hle : |b - a * n| ≤ |a * n| / 2 ^ 53 := abs_toBinary64_sub_le (a * n)
    rw [← mul_div_assoc, ← sub_div, abs_div, abs_of_pos hpos, div_le_iff₀ hpos]
    have hmul : |a * n| ≤ |a| * total := by
      rw [abs_mul, Nat.abs_cast]
      exact mul_le_mul_of_nonneg_left (Nat.cast_le.mpr hn) (abs_nonneg a)
    linarith
  have h₃ : |toBinary64 (b / total) - b / total| ≤ |b / total| / 2 ^ 53 := abs_toBinary64_sub_le _
  -- the sizes of the numbers that are rounded
  have hsize : |a| ≤ |x| + |x| / 2 ^ 53 := by
    have := abs_sub_abs_le_abs_sub a x
    linarith
  have hsize' : |b / total| ≤ |a| + |a| / 2 ^ 53 := by
    have := abs_sub_abs_le_abs_sub (b / total) (a * (n / total))
    have hmul : |a * (n / total)| ≤ |a| := by
      rw [abs_mul, abs_of_nonneg hshare₀]
      exact mul_le_of_le_one_right (abs_nonneg a) hshare
    linarith
  have h₁' : |a * (n / total) - x * n / total| ≤ |x| / 2 ^ 53 := by
    rw [mul_div_assoc, ← sub_mul, abs_mul, abs_of_nonneg hshare₀]
    exact (mul_le_of_le_one_right (abs_nonneg _) hshare).trans h₁
  have hsum := abs_sub_le (toBinary64 (b / total)) (b / total) (x * n / total)
  have hsum' := abs_sub_le (b / total) (a * (n / total)) (x * n / total)
  linarith [abs_nonneg x]

/-- A share of the requests is written as less than one per cent if it is at most 0.95 per cent. -/
lemma round_share_lt_iff {shed total : ℕ} (hpos : 0 < total) (hle : shed ≤ total)
    (htotal : total < 2 ^ 32) :
    (roundHalfEven (10 * toBinary64 (100 * shed / (total : ℚ))) : ℚ) / 10 < 1 ↔
      10000 * shed ≤ 95 * total := by
  set share : ℚ := 100 * shed / (total : ℚ) with hshare
  have hpos' : (0 : ℚ) < total := Nat.cast_pos.mpr hpos
  have hmul : share * total = 100 * shed := div_mul_cancel₀ _ hpos'.ne'
  have hshare₀ : 0 ≤ share := by positivity
  constructor
  · intro hlt
    have hround : roundHalfEven (10 * toBinary64 share) < (10 : ℤ) := by
      have : (roundHalfEven (10 * toBinary64 share) : ℚ) < 10 := by linarith
      exact_mod_cast this
    have hnine : (roundHalfEven (10 * toBinary64 share) : ℚ) ≤ 9 := by
      exact_mod_cast Int.le_sub_one_of_lt hround
    have hnear := (abs_le.mp (abs_roundHalfEven_sub_le (10 * toBinary64 share))).1
    have herror := (abs_le.mp (abs_toBinary64_sub_le share)).1
    rw [abs_of_nonneg hshare₀] at herror
    -- a share above 0.95 per cent is above it by more than the rounding error
    have hclose : share * (1 - 1 / 2 ^ 53) ≤ 95 / 100 := by linarith
    have hscaled := mul_le_mul_of_nonneg_right hclose hpos'.le
    have hshed : (shed : ℚ) < 2 ^ 32 := by exact_mod_cast hle.trans_lt htotal
    have hbound : (10000 * shed : ℚ) < 95 * total + 1 := by nlinarith
    exact Nat.lt_succ_iff.mp (by exact_mod_cast hbound)
  · intro hshed
    have hcast : (10000 * shed : ℚ) ≤ 95 * total := by exact_mod_cast hshed
    have hle : share ≤ 95 / 100 := by
      rw [hshare, div_le_iff₀ hpos']
      linarith
    have hlow : toBinary64 share < 95 / 100 :=
      (toBinary64_mono hshare₀ hle).trans_lt toBinary64_lt_ninetyFive
    have hround : roundHalfEven (10 * toBinary64 share) ≤ 9 :=
      roundHalfEven_le (by norm_num; linarith)
    have hround : (roundHalfEven (10 * toBinary64 share) : ℚ) ≤ 9 := by exact_mod_cast hround
    linarith

/-- 0.95 per cent. -/
example : (roundHalfEven (10 * toBinary64 (100 * 19 / 2000)) : ℚ) / 10 = 9 / 10 := by
  decide +kernel

/-- A report has a row if it has responses. -/
lemma row_eq_none_iff : report.row budget rate = none ↔ report.details = [] := by
  rw [← List.length_eq_zero_iff, ← report.length_ok_add_shed]
  unfold GhzReport.row
  dsimp only
  split
  · rename_i hzero
    exact iff_of_true rfl hzero
  · rename_i hne
    exact iff_of_false (Option.some_ne_none _) hne

/-- The row of a rate is of that rate, and says so of its report. -/
lemma rowOf_row (h : report.row budget rate = some row) :
    row.offeredRps = rate ∧ RowOf budget report row := by
  have hne : report.details ≠ [] := by
    intro hnil
    rw [row_eq_none_iff.mpr hnil] at h
    cases h
  have hpos : 0 < report.details.length := List.length_pos_iff.mpr hne
  have hsum := report.length_ok_add_shed
  unfold GhzReport.row at h
  dsimp only at h
  rw [if_neg (by omega)] at h
  obtain rfl := Option.some.inj h
  refine ⟨rfl, rfl, rfl, ⟨hsum, hne⟩, abs_round_toBinary64_sub_le _, ?_, rfl, fun hsize => ?_,
    ⟨?_, fun reason => ?_⟩, showsPercentile_pct (by decide) _, showsPercentile_pct (by decide) _,
    showsPercentile_pct (by decide) _, pct_within_iff report.ok⟩
  · rw [hsum]
    exact (abs_sub_le _ _ _).trans
      (add_le_add (abs_roundHalfEven_sub_le _) (abs_share_sub_le _ (by omega) hpos))
  · rw [hsum]
    exact round_share_lt_iff hpos (by omega) hsize
  · rw [OrderedDict.sum_tally, List.length_map, GhzReport.shed, List.length_map]
  · exact OrderedDict.get?_tally _ _

/-! ## Which reports have a row -/

/-- The reports of a rate that could be read and have responses, in the order of the sweep. -/
def reportsOf (rate : ℕ) (runs : List (ℕ × Option GhzReport)) : List GhzReport :=
  runs.filterMap fun run =>
    if run.1 = rate then run.2.filter fun report => report.details ≠ [] else none

/-- The reports of a rate are among the runs of this rate, and have responses. -/
lemma of_mem_reportsOf (h : report ∈ reportsOf rate runs) :
    (rate, some report) ∈ runs ∧ report.details ≠ [] := by
  obtain ⟨⟨rate', read⟩, hrun, hread⟩ := List.mem_filterMap.mp h
  by_cases hrate : rate' = rate
  · subst hrate
    rw [if_pos rfl] at hread
    obtain ⟨rfl, hne⟩ := Option.filter_eq_some_iff.mp hread
    exact ⟨hrun, of_decide_eq_true hne⟩
  · rw [if_neg hrate] at hread
    cases hread

/-- The next report is one of them if it is of the rate and has responses. -/
lemma reportsOf_snoc (rate rate' : ℕ) (read : Option GhzReport) :
    reportsOf rate (runs ++ [(rate', read)]) = reportsOf rate runs ++
      (if rate' = rate then read.filter fun report => report.details ≠ [] else none).toList := by
  unfold reportsOf
  rw [List.filterMap_append, List.filterMap_cons, List.filterMap_nil]
  cases (if rate' = rate then read.filter fun report => report.details ≠ [] else none) <;> rfl

/-- The row that is kept of a rate is that of the last of them. -/
lemma get?_overloadStep (rate : ℕ) : OrderedDict.get? rate (runs.foldl (overloadStep budget) []) =
    (reportsOf rate runs).getLast?.bind (GhzReport.row budget rate) := by
  induction runs using List.reverseRecOn with
  | nil => rfl
  | append_singleton runs run ih =>
    obtain ⟨rate', read⟩ := run
    rw [List.foldl_append, List.foldl_cons, List.foldl_nil, reportsOf_snoc, overloadStep]
    cases read with
    | none => simpa using ih
    | some report =>
      by_cases hnil : report.details = []
      · have hrow : report.row budget rate' = none := row_eq_none_iff.mpr hnil
        have hread : (some report).filter (fun report => report.details ≠ []) = none :=
          Option.filter_some_neg (by simpa using hnil)
        rw [Option.bind_some, hrow, hread, ite_self, Option.toList_none, List.append_nil]
        exact ih
      · obtain ⟨row, hrow⟩ := Option.ne_none_iff_exists'.mp (mt row_eq_none_iff.mp hnil)
        have hread : (some report).filter (fun report => report.details ≠ []) = some report :=
          Option.filter_some_pos (by simpa using hnil)
        rw [Option.bind_some, hrow, hread, OrderedDict.get?_set, ih]
        by_cases hrate : rate' = rate
        · subst hrate
          rw [if_pos rfl, if_pos rfl, Option.toList_some, List.getLast?_append, List.getLast?_singleton]
          exact hrow.symm
        · rw [if_neg hrate, if_neg hrate, Option.toList_none, List.append_nil]

/-- The rates that are kept differ. -/
lemma nodup_overloadStep : ((runs.foldl (overloadStep budget) []).map Prod.fst).Nodup := by
  induction runs using List.reverseRecOn with
  | nil => exact List.nodup_nil
  | append_singleton runs run ih =>
    rw [List.foldl_append, List.foldl_cons, List.foldl_nil, overloadStep]
    split
    · exact OrderedDict.nodup_keys_set ih
    · exact ih

/-- What is kept, from the last report of the rate. -/
lemma mem_overloadStep_iff : (rate, row) ∈ runs.foldl (overloadStep budget) [] ↔
    ∃ report ∈ (reportsOf rate runs).getLast?, report.row budget rate = some row := by
  rw [OrderedDict.mem_iff_get? nodup_overloadStep, get?_overloadStep, Option.bind_eq_some_iff]
  rfl

/-- The rows of the file. -/
lemma mem_overloadRows_iff : row ∈ overloadRows budget runs ↔
    ∃ rate, ∃ report ∈ (reportsOf rate runs).getLast?, report.row budget rate = some row := by
  unfold overloadRows
  rw [List.mem_map]
  constructor
  · rintro ⟨⟨rate, row'⟩, he, rfl⟩
    exact ⟨rate, mem_overloadStep_iff.mp ((List.mem_insertionSort _).mp he)⟩
  · rintro ⟨rate, hlast⟩
    exact ⟨(rate, row), (List.mem_insertionSort _).mpr (mem_overloadStep_iff.mpr hlast), rfl⟩

/-- Every row of the file is that of the last report of its rate. -/
lemma exists_report_of_row (h : row ∈ overloadRows budget runs) :
    ∃ report ∈ (reportsOf row.offeredRps runs).getLast?, RowOf budget report row := by
  obtain ⟨rate, report, hlast, hrow⟩ := mem_overloadRows_iff.mp h
  obtain ⟨rfl, hof⟩ := rowOf_row hrow
  exact ⟨report, hlast, hof⟩

/-- A rate has a row if one of its reports has responses. -/
lemma exists_row_iff :
    (∃ row ∈ overloadRows budget runs, row.offeredRps = rate) ↔ reportsOf rate runs ≠ [] := by
  constructor
  · rintro ⟨row, hrow, rfl⟩ hnil
    obtain ⟨report, hlast, -⟩ := exists_report_of_row hrow
    rw [hnil] at hlast
    cases hlast
  · intro hne
    have hlast : (reportsOf rate runs).getLast? = some ((reportsOf rate runs).getLast hne) :=
      List.getLast?_eq_some_getLast hne
    have hnil := (of_mem_reportsOf (List.getLast_mem hne)).2
    have hsome : ((reportsOf rate runs).getLast hne).row budget rate ≠ none :=
      mt row_eq_none_iff.mp hnil
    obtain ⟨row, hrow⟩ := Option.ne_none_iff_exists'.mp hsome
    exact ⟨row, mem_overloadRows_iff.mpr ⟨rate, _, hlast, hrow⟩, (rowOf_row hrow).1⟩

/-- The rows are in the order of their rates. -/
lemma pairwise_overloadRows :
    ((overloadRows budget runs).map OverloadRow.offeredRps).Pairwise (· < ·) := by
  have hrates : (overloadRows budget runs).map OverloadRow.offeredRps =
      ((runs.foldl (overloadStep budget) []).map Prod.fst).insertionSort (· ≤ ·) := by
    rw [← List.map_insertionSort (fun a b : ℕ × OverloadRow => a.1 ≤ b.1) (· ≤ ·) Prod.fst _
      fun _ _ _ _ => Iff.rfl, overloadRows, List.map_map]
    refine List.map_congr_left fun e he => ?_
    obtain ⟨report, -, hrow⟩ := mem_overloadStep_iff.mp ((List.mem_insertionSort _).mp he)
    exact (rowOf_row hrow).1
  rw [hrates]
  refine (List.sortedLE_insertionSort.sortedLT_of_nodup ?_).pairwise
  exact (List.perm_insertionSort _ _).nodup_iff.mpr nodup_overloadStep

/-! ## Capacity -/

/-- A row has requests. -/
lemma RowOf.total_pos (h : RowOf budget report row) :
    (0 : ℚ) < ((row.accepted + row.shed : ℕ) : ℚ) := by
  rw [h.total.1, Nat.cast_pos]
  exact List.length_pos_iff.mpr h.total.2

/-- A row below one per cent shed less than one request in a hundred. -/
lemma RowOf.shed_of_low (h : RowOf budget report row) (hlow : row.shedPct < 1) :
    100 * row.shed < row.accepted + row.shed := by
  by_contra hge
  have hcast : ((row.accepted + row.shed : ℕ) : ℚ) ≤ 100 * row.shed := by
    exact_mod_cast not_lt.mp hge
  have hshare : 1 ≤ row.share := (le_div_iff₀ h.total_pos).mpr (by rwa [one_mul])
  have hshare : 1 ≤ toBinary64 row.share := by
    calc (1 : ℚ) = toBinary64 1 := toBinary64_one.symm
      _ ≤ toBinary64 row.share := toBinary64_mono zero_le_one hshare
  have hround : (10 : ℤ) ≤ roundHalfEven (10 * toBinary64 row.share) :=
    le_roundHalfEven (by norm_num [hshare])
  have hround : (10 : ℚ) ≤ roundHalfEven (10 * toBinary64 row.share) := by exact_mod_cast hround
  rw [h.shedPct] at hlow
  linarith

/-- The capacity of a list of rows. -/
lemma capacity_cases (rows : List OverloadRow) :
    (capacity rows = 0 ∨ ∃ row ∈ rows, row.offeredRps = capacity rows ∧ row.shedPct < 1) ∧
      ∀ row ∈ rows, row.shedPct < 1 → row.offeredRps ≤ capacity rows := by
  have hmem : ∀ rate, rate ∈ (rows.filter fun r => r.shedPct < 1).map OverloadRow.offeredRps ↔
      ∃ row ∈ rows, row.offeredRps = rate ∧ row.shedPct < 1 := by
    intro rate
    simp only [List.mem_map, List.mem_filter, decide_eq_true_eq]
    constructor
    · rintro ⟨row, ⟨hrow, hlow⟩, hrate⟩
      exact ⟨row, hrow, hrate, hlow⟩
    · rintro ⟨row, hrow, hrate, hlow⟩
      exact ⟨row, ⟨hrow, hlow⟩, hrate⟩
  unfold capacity
  cases hmax : ((rows.filter fun r => r.shedPct < 1).map OverloadRow.offeredRps).max? with
  | none =>
    rw [List.max?_eq_none_iff] at hmax
    refine ⟨Or.inl rfl, fun row hrow hlow => ?_⟩
    have hin := (hmem row.offeredRps).mpr ⟨row, hrow, rfl, hlow⟩
    rw [hmax] at hin
    cases hin
  | some rate =>
    obtain ⟨hin, hbound⟩ := List.max?_eq_some_iff.mp hmax
    exact ⟨Or.inr ((hmem rate).mp hin), fun row hrow hlow =>
      hbound _ ((hmem _).mpr ⟨row, hrow, rfl, hlow⟩)⟩

/-- The rows of an overload sweep, for all reports of the load generator: they are in the order of
their rates, a rate has a row exactly if one of its reports has responses, and the row says of the
last of these what `RowOf` has.  The capacity is the highest rate of a row with less than one per
cent, at which less than one request in a hundred was shed, or 0 without such a row. -/
theorem overload_rows (budget : ℚ) (runs : List (ℕ × Option GhzReport)) :
    ((overloadRows budget runs).map OverloadRow.offeredRps).Pairwise (· < ·) ∧
    (∀ rate, (∃ row ∈ overloadRows budget runs, row.offeredRps = rate) ↔ reportsOf rate runs ≠ []) ∧
    (∀ row ∈ overloadRows budget runs,
      ∃ report ∈ (reportsOf row.offeredRps runs).getLast?, RowOf budget report row) ∧
    (capacity (overloadRows budget runs) = 0 ∨ ∃ row ∈ overloadRows budget runs,
      row.offeredRps = capacity (overloadRows budget runs) ∧ row.shedPct < 1 ∧
        100 * row.shed < row.accepted + row.shed) ∧
    ∀ row ∈ overloadRows budget runs, row.shedPct < 1 →
      row.offeredRps ≤ capacity (overloadRows budget runs) := by
  obtain ⟨hcapacity, hbound⟩ := capacity_cases (overloadRows budget runs)
  refine ⟨pairwise_overloadRows, fun rate => exists_row_iff, fun row hrow => exists_report_of_row hrow,
    ?_, hbound⟩
  rcases hcapacity with hzero | ⟨row, hrow, hrate, hlow⟩
  · exact Or.inl hzero
  · obtain ⟨report, -, hof⟩ := exists_report_of_row hrow
    exact Or.inr ⟨row, hrow, hrate, hlow, hof.shed_of_low hlow⟩

/-! ## The record -/

/-- The report counts a row whose share of shed requests is at most one in a thousand. -/
lemma RowOf.lowShed_iff (h : RowOf budget report row) :
    row.toRow.lowShed = true ↔ 1000 * row.shed ≤ row.accepted + row.shed := by
  have hpos := h.total_pos
  have hlow : row.toRow.lowShed = decide (((row.shed : ℤ) + (row.accepted : ℤ) ≠ 0) ∧
      ((row.shed : ℤ) : ℚ) / (((row.shed : ℤ) + (row.accepted : ℤ) : ℤ) : ℚ) ≤ maxErrorRate) := rfl
  have hsum : (((row.shed : ℤ) + (row.accepted : ℤ) : ℤ) : ℚ) =
      ((row.accepted + row.shed : ℕ) : ℚ) := by
    rw [add_comm]
    push_cast
    rfl
  have hne : (row.shed : ℤ) + (row.accepted : ℤ) ≠ 0 := by
    have hpos' : 0 < row.accepted + row.shed := by exact_mod_cast hpos
    omega
  rw [hlow, decide_eq_true_iff, and_iff_right hne, hsum, Int.cast_natCast, div_le_iff₀ hpos,
    maxErrorRate]
  constructor
  · intro hle
    have hle : (1000 * row.shed : ℚ) ≤ ((row.accepted + row.shed : ℕ) : ℚ) := by linarith
    exact_mod_cast hle
  · intro hle
    have hle : (1000 * row.shed : ℚ) ≤ ((row.accepted + row.shed : ℕ) : ℚ) := by exact_mod_cast hle
    linarith

/-- With accepted requests, the tail is the latency of one of them. -/
lemma RowOf.exists_tail (h : RowOf budget report row) (hne : row.accepted ≠ 0) :
    ∃ tail ∈ report.ok, row.acceptedP99Ms = some ((tail : ℚ) / 10 ^ 6) ∧
      99 * report.ok.length < 100 * report.ok.countP fun v => v ≤ tail := by
  have htail := h.tail
  cases hp99 : row.acceptedP99Ms with
  | none =>
    rw [hp99] at htail
    have hnil : report.ok = [] := htail
    exact absurd (h.accepted.trans (List.length_eq_zero_iff.mpr hnil)) hne
  | some ms =>
    rw [hp99] at htail
    obtain ⟨v, hv, rfl⟩ := htail
    exact ⟨v, hv.mem, rfl, mul_comm 99 report.ok.length ▸ hv.lt_countP⟩

variable {cfg : OverloadSettings} {r : Record}

/-- The record of an overload sweep, down to the single requests: it names an offered rate and gives
the numbers of accepted and shed requests of the report of that rate, at most one in a thousand was
shed, its tail is the latency of an accepted request that more than 99 per cent of them do not
exceed, and no higher rate of the file shed so little. -/
theorem overload_record (h : (overloadFile cfg runs).toRecord = .ok (some r)) :
    ∃ rate report, (rate, some report) ∈ runs ∧ r.qps = rate ∧ r.served = report.ok.length ∧
      r.errors = report.shed.length ∧ 1000 * report.shed.length ≤ report.details.length ∧
      (∃ tail ∈ report.ok, r.p99Ms = some ((tail : ℚ) / 10 ^ 6) ∧
        99 * report.ok.length < 100 * report.ok.countP fun v => v ≤ tail) ∧
      ∀ row ∈ overloadRows cfg.budget runs, 1000 * row.shed ≤ row.accepted + row.shed →
        row.offeredRps ≤ rate := by
  rcases ResultFile.toRecord_cases h with ⟨-, found, hbest, hout⟩ | ⟨htarget, -⟩ | ⟨htarget, -⟩
  · obtain ⟨⟨offered, best⟩, rfl, rfl⟩ := Option.map_eq_some_iff.mp hout.symm
    obtain ⟨before, after, hrows, hoffered, hlt, hle⟩ :=
      (ResultFile.bestRow_eq_some_iff hbest offered best).mp rfl
    have hmem : best ∈ (overloadFile cfg runs).lowShedRows := by
      rw [hrows]
      exact List.mem_append_right _ List.mem_cons_self
    obtain ⟨hmem, hlow⟩ := List.mem_filter.mp hmem
    obtain ⟨row, hrow, rfl⟩ := List.mem_map.mp hmem
    obtain rfl : (row.offeredRps : ℚ) = offered := Option.some.inj hoffered
    obtain ⟨report, hreport, hof⟩ := exists_report_of_row hrow
    have hshed : 1000 * row.shed ≤ row.accepted + row.shed := hof.lowShed_iff.mp hlow
    obtain ⟨htotal, -⟩ := hof.total
    have hpos : 0 < report.details.length := List.length_pos_iff.mpr hof.total.2
    have hrun := (of_mem_reportsOf (List.mem_of_getLast? hreport)).1
    refine ⟨row.offeredRps, report, hrun, rfl, congrArg Int.ofNat hof.accepted,
      congrArg Int.ofNat hof.shed, ?_, ?_, fun row' hrow' hshed' => ?_⟩
    · rw [← hof.shed, ← htotal]
      exact hshed
    · exact hof.exists_tail (by omega)
    · -- the row is one of those that are compared
      obtain ⟨report', -, hof'⟩ := exists_report_of_row hrow'
      have hmem' : row'.toRow ∈ (overloadFile cfg runs).lowShedRows :=
        List.mem_filter.mpr ⟨List.mem_map_of_mem hrow', hof'.lowShed_iff.mpr hshed'⟩
      rw [hrows] at hmem'
      rcases List.mem_append.mp hmem' with hmem' | hmem'
      · exact_mod_cast (hlt _ hmem' _ rfl).le
      · rcases List.mem_cons.mp hmem' with heq | hmem'
        · have hrate : (row'.offeredRps : ℚ) = row.offeredRps :=
            Option.some.inj (congrArg Row.offeredRps heq)
          exact_mod_cast hrate.le
        · exact_mod_cast hle _ hmem' _ rfl
  · exact absurd rfl htarget
  · exact absurd rfl htarget

end

/-- A report of three accepted requests, from a generator that achieved 40 per second. -/
def slowGenerator : GhzReport where
  rps := 40
  details := [⟨1000000, "OK", none⟩, ⟨3000000, "OK", none⟩, ⟨2000000, "OK", none⟩]

/-- A sweep without TLS. -/
def plainSweep : OverloadSettings := ⟨"a.json", {}, "demo-ec-p256", 2, false, "payments"⟩

/-- The record has the offered rate, whatever the generator achieved, and the tail of its report. -/
theorem overload_record_slow_generator :
    ∃ r, (overloadFile plainSweep [(50, some slowGenerator)]).toRecord = .ok (some r) ∧
      r.qps = 50 ∧ slowGenerator.rps < r.qps ∧
      ∃ tail ∈ slowGenerator.ok, r.p99Ms = some ((tail : ℚ) / 10 ^ 6) ∧
        99 * slowGenerator.ok.length < 100 * slowGenerator.ok.countP fun v => v ≤ tail := by
  have hrecord : (overloadFile plainSweep [(50, some slowGenerator)]).toRecord =
      .ok (some ((overloadFile plainSweep [(50, some slowGenerator)]).overloadRecord 50
        { offeredRps := some 50, accepted := some 3, shed := some 0, acceptedP99Ms := some 3 })) := by
    decide +kernel
  obtain ⟨rate, report, hreport, hqps, -, -, -, htail, -⟩ := overload_record hrecord
  obtain ⟨rfl, hsame⟩ := Prod.mk.inj (List.mem_singleton.mp hreport)
  obtain rfl := Option.some.inj hsame
  exact ⟨_, hrecord, hqps, by decide +kernel, htail⟩

/-! ## Why a request was rejected -/

/-- A text without some character occurs to the left or to the right of that character. -/
lemma infix_append_cons_iff {α : Type} {part left right : List α} {x : α} (hx : x ∉ part) :
    part <:+: left ++ x :: right ↔ part <:+: left ∨ part <:+: right := by
  constructor
  · rintro ⟨s, t, h⟩
    rcases List.append_eq_append_iff.mp h with ⟨rest, rfl, -⟩ | ⟨rest, hleft, hright⟩
    · exact Or.inl ⟨s, rest, rfl⟩
    · cases rest with
      | nil => exact Or.inl ⟨s, [], by simpa using hleft⟩
      | cons y rest =>
        obtain ⟨rfl, rfl⟩ := List.cons.inj hright
        rcases List.append_eq_append_iff.mp hleft with ⟨z, rfl, rfl⟩ | ⟨z, rfl, hz⟩
        · exact absurd (List.mem_append_right z List.mem_cons_self) hx
        · cases z with
          | nil =>
            obtain rfl : x :: rest = part := hz
            exact absurd List.mem_cons_self hx
          | cons y z =>
            obtain ⟨-, rfl⟩ := List.cons.inj hz
            exact Or.inr ⟨z, t, rfl⟩
  · rintro (h | h)
    · exact h.trans (List.infix_append' [] left (x :: right))
    · exact h.trans ⟨left ++ [x], [], by simp⟩

/-- The report gives the message of a status, after a text that does not speak of a full queue. -/
def Detail.Carries (x : Detail) (status : Status) : Prop :=
  ∃ before : String, x.error = some (before ++ status.message) ∧ ¬ mentions before "queue is full"

variable {x : Detail}

/-- The text of a full queue. -/
lemma reason_overloaded (hx : x.Carries (toStatus .overloaded)) : x.reason = "queue_full" := by
  obtain ⟨before, herror, -⟩ := hx
  have hmessage : "queue is full".toList <:+: (toStatus .overloaded).message.toList := by
    decide +kernel
  have hfull : mentions (before ++ (toStatus .overloaded).message) "queue is full" = true := by
    refine decide_eq_true ?_
    rw [String.toList_append]
    exact hmessage.trans (List.suffix_append _ _).isInfix
  unfold Detail.reason
  rw [herror]
  exact if_pos hfull

/-- The text of an exceeded rate. -/
lemma reason_rateLimit (hx : x.Carries (.resourceExhausted rateLimitText)) :
    x.reason = "rate_limited" := by
  obtain ⟨before, herror, hbefore⟩ := hx
  have hfull : ¬ mentions (before ++ rateLimitText) "queue is full" := by
    intro hfull
    have hfull := of_decide_eq_true hfull
    -- the message starts with a letter that the phrase does not have
    have hhead : rateLimitText.toList = 'r' :: rateLimitText.toList.tail := by decide +kernel
    rw [String.toList_append, hhead, infix_append_cons_iff (by decide +kernel)] at hfull
    rcases hfull with hfull | hfull
    · exact hbefore (decide_eq_true hfull)
    · exact absurd hfull (by decide +kernel)
  have hmessage : "rate limit".toList <:+: rateLimitText.toList := by decide +kernel
  have hrate : mentions (before ++ rateLimitText) "rate limit" = true := by
    refine decide_eq_true ?_
    rw [String.toList_append]
    exact hmessage.trans (List.suffix_append _ _).isInfix
  unfold Detail.reason
  rw [herror]
  exact (if_neg hfull).trans (if_pos hrate)

section

variable {P : Platform} {cfg : ServiceConfig} {t₀ : ℕ} {sessions : List SessionHandle}
  {token : P.token.State} {as : List (Action Choice (EnvAction P) Party)}
  {c : Config Op.Ans (Shared P) Party ThreadResult}

/-- A full queue and an exceeded rate are told apart, in every run of pool mode and for every report
that carries the message: of a call that is refused with `RESOURCE_EXHAUSTED`, the script says
`queue_full` exactly if its submission was refused for that reason, and `rate_limited` exactly if the
rate limiter has refused it. -/
theorem rejection_reason (hrun : (pooledProxy P cfg).run (started P t₀ sessions token) as = some c)
    {i : ℕ} {rpc : Rpc} {status : Status} (hi : replied c i = some (rpc, .error status))
    (hcode : status.code = .resourceExhausted) {x : Detail} (hx : x.Carries status) :
    (x.reason = "queue_full" ↔ ∃ ev ∈ histOf c.trace i, submitError ev = some .overloaded) ∧
    (x.reason = "rate_limited" ↔ ∃ ev ∈ histOf c.trace i, limiterRefuses ev = true) := by
  have hends : CauseReply P cfg rpc (causeLog (histOf c.trace i)) (.error status) :=
    ends_of_replied (cause_outline hrun) hi
  have hexplains := hends status rfl
  rw [causeLog_eq] at hexplains
  obtain ⟨code, message⟩ := status
  obtain rfl : code = .resourceExhausted := hcode
  rcases hexplains with ⟨hlimited, hnone, htext⟩ | ⟨hlimited, hoverloaded, hstatus⟩
  · obtain rfl : message = rateLimitText := htext
    have hreason := reason_rateLimit hx
    refine ⟨iff_of_false ?_ ?_, iff_of_true hreason (List.any_eq_true.mp hlimited)⟩
    · intro hfull
      exact absurd (hreason.symm.trans hfull) (by decide)
    · rintro ⟨ev, hev, herror⟩
      exact absurd hnone (List.ne_nil_of_mem (List.mem_filterMap.mpr ⟨ev, hev, herror⟩))
  · rw [hstatus] at hx
    have hreason := reason_overloaded hx
    refine ⟨iff_of_true hreason (List.mem_filterMap.mp hoverloaded), iff_of_false ?_ ?_⟩
    · intro hrate
      exact absurd (hreason.symm.trans hrate) (by decide)
    · rintro ⟨ev, hev, hrefuses⟩
      have hany : (histOf c.trace i).any limiterRefuses = true :=
        List.any_eq_true.mpr ⟨ev, hev, hrefuses⟩
      exact Bool.false_ne_true (hlimited.symm.trans hany)

end

/-- A `sign` call that meets a queue without room. -/
def signFullQueue : List (Action Choice (EnvAction anyPlatform) Party) :=
  [.spawn (.rpc signCall)] ++ execs 1 8 .success

/-- It is counted as such, whatever is said before the message. -/
theorem rejection_reason_full_queue :
    ∃ (c : Config Op.Ans (Shared anyPlatform) Party ThreadResult) (status : Status),
      (pooledProxy anyPlatform (.plain 0 10)).run (started _ 0 [7] ()) signFullQueue = some c ∧
      replied c 1 = some (signCall, .error status) ∧
      (⟨0, "ResourceExhausted", some ("desc = " ++ status.message)⟩ : Detail).reason =
        "queue_full" := by
  have hend : ((pooledProxy anyPlatform (.plain 0 10)).run (started _ 0 [7] ()) signFullQueue).map
      (fun c => (replied c 1, (histOf c.trace 1).filterMap submitError)) =
      some (some (signCall, .error (toStatus .overloaded)), [.overloaded]) := by
    decide +kernel
  obtain ⟨c, hrun, hc⟩ := Option.map_eq_some_iff.mp hend
  obtain ⟨hreplied, herrors⟩ := Prod.mk.inj hc
  have hcarries : (⟨0, "ResourceExhausted", some ("desc = " ++ (toStatus .overloaded).message)⟩ :
      Detail).Carries (toStatus .overloaded) := ⟨"desc = ", rfl, by decide +kernel⟩
  refine ⟨c, _, hrun, hreplied, (rejection_reason hrun hreplied rfl hcarries).1.mpr ?_⟩
  exact List.mem_filterMap.mp (herrors ▸ List.mem_singleton_self _)

end HsmProxy
