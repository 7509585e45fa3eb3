import HsmProxy.Numeric.Binary64
import HsmProxy.Results.Record
import Mathlib.Data.List.ReduceOption
import Mathlib.Data.List.Sort

/-!
# From result files to the published table

`to_records` reads result files of two shapes.  A two-host overload sweep names its target: of the
rows that shed almost nothing, the first with the highest offered rate becomes the record.  A
single-host concurrency sweep carries the best throughput within the budget; the record takes that,
the worst tail and the sum of the errors of the rows that are marked as within the budget.

So the record of an overload sweep is one row, but nothing compares its tail with the budget; and
the three figures of a concurrency sweep come from different rows.  `published_row_is_one_run` says
for which files each record is one measured row that met the budget.

A field that is missing is `none`, and so is an accepted tail that is `null`.  Reading a missing field
that is required is a `KeyError`, and comparing a tail that is `null` is a `TypeError`; both end the
whole rendering.  Numbers are as the files write them.  The table shows the binary64 numbers nearest
to them.
-/

namespace HsmProxy

open Selection Binary64

/-! ## Result files -/

/-- A row of a result file. -/
structure Row where
  offeredRps : Option ℚ := none
  accepted : Option ℤ := none
  shed : Option ℤ := none
  acceptedP99Ms : Option ℚ := none
  qps : Option ℚ := none
  -- `some none` is `null`
  p99Ms : Option (Option ℚ) := none
  errors : Option ℤ := none
  withinBudget : Option Bool := none
  deriving DecidableEq

/-- The part of a result file that describes the run. -/
structure Run where
  target : Option String := none
  tls : Option String := none
  keyLabel : Option String := none
  mode : Option String := none
  call : Option String := none
  workers : Option ℤ := none
  budgetP99Ms : Option ℚ := none

/-- What a result file says of a host. -/
structure HostInfo where
  instanceType : Option String := none
  hostKind : Option String := none

/-- A result file. -/
structure ResultFile where
  path : String
  run : Run := {}
  clientHost : HostInfo := {}
  host : HostInfo := {}
  rows : List Row := []
  maxQpsWithinBudget : Option ℚ := none

/-- The result files under one directory; no two have the same path. -/
structure ResultSet where
  files : List ResultFile
  nodup : (files.map ResultFile.path).Nodup

/-- What ends the rendering: a required key is missing, or `null` is compared with something. -/
inductive RenderError
  | keyError (key : String)
  | typeError
  deriving DecidableEq

/-- Reads a required field. -/
def required {α : Type} (key : String) : Option α → Except RenderError α
  | some value => .ok value
  | none => .error (.keyError key)

/-! ## One record for each file -/

namespace Row

/-- The row has answers, and shed almost none of its requests. -/
def lowShed (r : Row) : Bool :=
  let total := r.shed.getD 0 + r.accepted.getD 0
  decide (total ≠ 0 ∧ (r.shed.getD 0 : ℚ) / total ≤ maxErrorRate)

/-- The row is marked as within the budget. -/
def flagged (r : Row) : Bool := r.withinBudget = some true

/-- The tail of a row of a concurrency sweep, if there is a number. -/
def tail (r : Row) : Option ℚ := r.p99Ms.join

end Row

namespace ResultFile

/-- The rows of an overload sweep that shed almost nothing. -/
def lowShedRows (d : ResultFile) : List Row := d.rows.filter Row.lowShed

/-- The rows of a concurrency sweep that are marked as within the budget. -/
def within (d : ResultFile) : List Row := d.rows.filter Row.flagged

/-- The errors of all rows that are marked as within the budget. -/
def withinErrors (d : ResultFile) : ℤ := (d.within.map fun r => r.errors.getD 0).sum

/-- The run was not in plaintext; files without the field were. -/
def secured (d : ResultFile) : Bool := d.run.tls.getD "off" ≠ "off"

/-- The row of the highest offered rate, with that rate. -/
def bestRow (d : ResultFile) : Except RenderError (Option (ℚ × Row)) := do
  let keyed ← d.lowShedRows.mapM fun r => (required "offered_rps" r.offeredRps).map fun q => (q, r)
  return keyed.argmax Prod.fst

/-- The worse of two tails; `null` cannot be compared. -/
def worse : Option ℚ → Option ℚ → Except RenderError (Option ℚ)
  | some worst, some tail => .ok (some (max worst tail))
  | _, _ => .error .typeError

/-- The next row is read, and its tail compared with the worst so far. -/
def worstStep (worst : Option ℚ) (r : Row) : Except RenderError (Option ℚ) := do
  let tail ← required "p99_ms" r.p99Ms
  worse worst tail

/-- The worst tail of the rows that are marked as within the budget.  The first one is taken as it
is, so that a single `null` is not an error. -/
def worstTail (d : ResultFile) : Except RenderError (Option ℚ) :=
  match d.within with
  | [] => .ok none
  | r :: rows => do
    let first ← required "p99_ms" r.p99Ms
    rows.foldlM worstStep first

/-- The record of a two-host overload sweep. -/
def overloadRecord (d : ResultFile) (offered : ℚ) (best : Row) : Record :=
  let host := d.clientHost.instanceType.getD "unknown"
  { workload := "Sign " ++ d.run.keyLabel.getD "?" ++ " (pool" ++
      (if d.secured then ", mTLS" else "") ++ ")"
    qps := offered
    p99Ms := best.acceptedP99Ms
    host := host
    trust := if ['c', '7'].isPrefixOf host.toList then "two-host-reference" else "local"
    setup := "two-host, open loop, " ++ (if d.secured then "mTLS + authz" else "plaintext")
    errors := best.shed.getD 0
    served := best.accepted.getD 0
    source := d.path }

/-- The last component of the call, or `Sign`. -/
def callName (d : ResultFile) : String :=
  let last := (((d.run.call.getD "").toList.splitOn '/').getLast?).getD []
  if last = [] then "Sign" else String.ofList last

/-- The record of a single-host concurrency sweep. -/
def concurrencyRecord (d : ResultFile) (qps : ℚ) (p99 : Option ℚ) : Record where
  workload := d.callName ++ " " ++ d.run.keyLabel.getD "?" ++ " (" ++ d.run.mode.getD "?" ++ ")"
  qps := qps
  p99Ms := p99
  host := d.host.instanceType.getD "local"
  trust := d.host.hostKind.getD "local"
  setup := "single-host, " ++ (d.run.workers.map toString).getD "?" ++ " workers"
  errors := d.withinErrors
  -- `int(..)` drops the fraction
  served := qps.num.tdiv qps.den
  source := d.path

/-- The record of a file, if it gives one. -/
def toRecord (d : ResultFile) : Except RenderError (Option Record) :=
  if d.run.target.isSome then
    d.bestRow.map fun best => best.map fun (offered, row) => d.overloadRecord offered row
  else
    match d.maxQpsWithinBudget with
    | none => .ok none
    | some qps =>
      if qps = 0 then .ok none
      else d.worstTail.map fun p99 => some (d.concurrencyRecord qps p99)

end ResultFile

/-- `to_records`. -/
def toRecords (results : List ResultFile) : Except RenderError (List Record) :=
  (results.mapM ResultFile.toRecord).map List.reduceOption

/-! ## The table -/

/-- Digits in groups of three, the last digit first. -/
def groupDigits : List Char → List Char
  | a :: b :: c :: d :: l => a :: b :: c :: ',' :: groupDigits (d :: l)
  | l => l

/-- A number with a fixed number of decimal places, as `:.2f` or, with groups, `:,.0f`. -/
def formatFixed (grouped : Bool) (places : ℕ) (q : ℚ) : String :=
  let scaled := (roundHalfEven (|q| * 10 ^ places)).toNat
  let whole := Nat.toDigits 10 (scaled / 10 ^ places)
  let whole := if grouped then (groupDigits whole.reverse).reverse else whole
  let fraction := Nat.toDigits 10 (scaled % 10 ^ places)
  let fraction := List.replicate (places - fraction.length) '0' ++ fraction
  (if q < 0 then "-" else "") ++ String.ofList whole ++
    (if places = 0 then "" else "." ++ String.ofList fraction)

/-- The tail as the table shows it. -/
def showP99 : Option ℚ → String
  | some p99 => formatFixed false 2 (toBinary64 p99) ++ " ms"
  | none => "—"

/-- The errors as the table shows them. -/
def showErrors (r : Record) : String :=
  if r.errors = 0 then "0"
  else formatFixed true 0 r.errors ++ " (" ++
    formatFixed false 3 (toBinary64 (100 * toBinary64 r.errorRate)) ++ "%)"

/-- A line of the table. -/
def tableLine (workload : String) (r : Record) : String :=
  "| " ++ workload ++ " | " ++ formatFixed true 0 (toBinary64 r.qps) ++ " | " ++
    showP99 r.p99Ms ++ " | " ++ showErrors r ++ " | `" ++ r.host ++ "` | " ++ r.setup ++ " |"

/-- The two lines above the rows. -/
def tableHeader : List String :=
  ["| Workload | QPS within budget | p99 | Errors | Host | Setup |", "|---|---|---|---|---|---|"]

/-- What is kept, the highest throughput first. -/
def sortedBest (records : List Record) : List (String × Record) :=
  (bestByWorkload records).insertionSort fun x y => -x.2.qps ≤ -y.2.qps

/-- The lines of the table below its header. -/
def tableRows (records : List Record) : List String :=
  (sortedBest records).map fun (workload, r) => tableLine workload r

/-- `render_table`. -/
def renderTable (records : List Record) : String :=
  "\n".intercalate (tableHeader ++ tableRows records)

/-- Every line of the table shows a record. -/
lemma exists_record_of_tableRow {records : List Record} {line : String}
    (h : line ∈ tableRows records) : ∃ r ∈ records, line = tableLine r.workload r := by
  obtain ⟨⟨workload, r⟩, hmem, rfl⟩ := List.mem_map.mp h
  have hbest : (workload, r) ∈ bestByWorkload records := (List.mem_insertionSort _).mp hmem
  obtain ⟨hr, rfl⟩ := mem_of_mem_bestByWorkload hbest
  exact ⟨r, hr, rfl⟩

/-! ## Which row a record comes from -/

/-- What a required field holds. -/
lemma required_eq_ok_iff {α : Type} {key : String} {field : Option α} {value : α} :
    required key field = .ok value ↔ field = some value := by
  cases field with
  | none => simp [required]
  | some v => simp [required]

namespace ResultFile

variable {d : ResultFile}

/-- The rows paired with their rates are the rows. -/
lemma keyed_spec {rows : List Row} {keyed : List (ℚ × Row)}
    (h : (rows.mapM fun r => (required "offered_rps" r.offeredRps).map fun q => (q, r)) =
      .ok keyed) :
    keyed.map Prod.snd = rows ∧ ∀ e ∈ keyed, e.2.offeredRps = some e.1 := by
  have hpair := mapM_eq_ok_iff.mp h
  clear h
  induction hpair with
  | nil => exact ⟨rfl, by simp⟩
  | @cons r e rows keyed he _ ih =>
    have he : r.offeredRps = some e.1 ∧ r = e.2 := by
      cases hr : r.offeredRps with
      | none =>
        rw [hr] at he
        cases he
      | some q =>
        rw [hr] at he
        obtain rfl : (q, r) = e := Except.ok.inj he
        exact ⟨rfl, rfl⟩
    obtain ⟨hkey, rfl⟩ := he
    exact ⟨congrArg (e.2 :: ·) ih.1, List.forall_mem_cons.mpr ⟨hkey, ih.2⟩⟩

/-- The first row with the highest offered rate among those that shed almost nothing. -/
def IsBestRow (d : ResultFile) (offered : ℚ) (best : Row) : Prop :=
  ∃ before after, d.lowShedRows = before ++ best :: after ∧ best.offeredRps = some offered ∧
    (∀ row ∈ before, ∀ rate ∈ row.offeredRps, rate < offered) ∧
    ∀ row ∈ after, ∀ rate ∈ row.offeredRps, rate ≤ offered

/-- `bestRow` finds it. -/
lemma bestRow_eq_some_iff {found : Option (ℚ × Row)} (h : d.bestRow = .ok found) (offered : ℚ)
    (best : Row) : found = some (offered, best) ↔ d.IsBestRow offered best := by
  unfold bestRow at h
  cases hkeyed : d.lowShedRows.mapM fun r =>
      (required "offered_rps" r.offeredRps).map fun q => (q, r) with
  | error e =>
    rw [hkeyed] at h
    cases h
  | ok keyed =>
    rw [hkeyed] at h
    obtain rfl : keyed.argmax Prod.fst = found := Except.ok.inj h
    obtain ⟨hrows, hrate⟩ := keyed_spec hkeyed
    rw [argmax_eq_some_iff]
    constructor
    · rintro ⟨l₁, l₂, rfl, hlt, hle⟩
      refine ⟨l₁.map Prod.snd, l₂.map Prod.snd, ?_, ?_, ?_, ?_⟩
      · rw [← hrows, List.map_append, List.map_cons]
      · exact hrate (offered, best) (by simp)
      · intro row hrow rate hr
        obtain ⟨e, he, rfl⟩ := List.mem_map.mp hrow
        have hkey := hrate e (List.mem_append_left _ he)
        obtain rfl : e.1 = rate := Option.some.inj (hkey.symm.trans hr)
        exact hlt e he
      · intro row hrow rate hr
        obtain ⟨e, he, rfl⟩ := List.mem_map.mp hrow
        have hkey := hrate e (List.mem_append_right _ (List.mem_cons_of_mem _ he))
        obtain rfl : e.1 = rate := Option.some.inj (hkey.symm.trans hr)
        exact hle e he
    · rintro ⟨before, after, hsplit, hbest, hlt, hle⟩
      rw [← hrows] at hsplit
      obtain ⟨l₁, l', rfl, rfl, hl'⟩ := List.map_eq_append_iff.mp hsplit
      obtain ⟨e, l₂, rfl, rfl, rfl⟩ := List.map_eq_cons_iff.mp hl'
      have hkey := hrate e (by simp)
      obtain rfl : e.1 = offered := Option.some.inj (hkey.symm.trans hbest)
      refine ⟨l₁, l₂, rfl, fun y hy => ?_, fun y hy => ?_⟩
      · exact hlt y.2 (List.mem_map_of_mem hy) y.1 (hrate y (List.mem_append_left _ hy))
      · exact hle y.2 (List.mem_map_of_mem hy) y.1
          (hrate y (List.mem_append_right _ (List.mem_cons_of_mem _ hy)))

/-- The tails of some rows. -/
def tails (rows : List Row) : Set ℚ := {tail | ∃ row ∈ rows, row.tail = some tail}

/-- What is found is the greatest tail of some rows, or none if they have no tail. -/
def WorstOf (rows : List Row) : Option ℚ → Prop
  | some worst => IsGreatest (tails rows) worst
  | none => tails rows = ∅

/-- What is the worst of the tails is their greatest value, and nothing else is. -/
lemma WorstOf.eq_some_iff {rows : List Row} {found : Option ℚ} (h : WorstOf rows found) (p99 : ℚ) :
    found = some p99 ↔ IsGreatest (tails rows) p99 := by
  cases found with
  | none =>
    have hnone : tails rows = ∅ := h
    simp [hnone, IsGreatest]
  | some worst =>
    have hworst : IsGreatest (tails rows) worst := h
    constructor
    · intro heq
      exact Option.some.inj heq ▸ hworst
    · intro hp99
      exact congrArg some (hworst.unique hp99)

/-- A row adds its tail. -/
lemma tails_snoc (rows : List Row) (r : Row) :
    tails (rows ++ [r]) = {tail | r.tail = some tail} ∪ tails rows := by
  ext tail
  simp [tails, or_comm]

/-- The worst of the rows so far is compared with the next one. -/
lemma WorstOf.worstStep {rows : List Row} {r : Row} {worst found : Option ℚ}
    (hworst : WorstOf rows worst) (h : ResultFile.worstStep worst r = .ok found) :
    WorstOf (rows ++ [r]) found := by
  obtain ⟨tail, hread, hworse⟩ := exists_ok_of_bind_ok h
  rw [required_eq_ok_iff] at hread
  cases worst with
  | none => cases hworse
  | some w =>
    cases tail with
    | none => cases hworse
    | some tail =>
      obtain rfl : some (max w tail) = found := Except.ok.inj hworse
      have htail : r.tail = some tail := by rw [Row.tail, hread]; rfl
      have hset : {t | r.tail = some t} = {tail} := by
        ext t
        rw [htail]
        exact ⟨fun h => (Option.some.inj h).symm, fun h => congrArg some h.symm⟩
      show IsGreatest _ (max w tail)
      rw [tails_snoc, hset, max_comm]
      exact isGreatest_singleton.union hworst

/-- The first row is read and taken as it is. -/
lemma worstOf_singleton (r : Row) : WorstOf [r] r.tail := by
  have htails : tails [r] = {tail | r.tail = some tail} := by
    ext tail
    simp [tails]
  cases htail : r.tail with
  | none =>
    show tails [r] = ∅
    simp [htails, htail]
  | some tail =>
    show IsGreatest (tails [r]) tail
    rw [htails, htail]
    exact ⟨rfl, fun t ht => (Option.some.inj ht).ge⟩

/-- What `worstTail` finds. -/
lemma worstOf_worstTail {found : Option ℚ} (h : d.worstTail = .ok found) :
    WorstOf d.within found := by
  unfold worstTail at h
  cases hrows : d.within with
  | nil =>
    rw [hrows] at h
    obtain rfl := Except.ok.inj h
    show tails [] = ∅
    simp [tails]
  | cons r rows =>
    rw [hrows] at h
    obtain ⟨first, hread, hfold⟩ := exists_ok_of_bind_ok h
    have hfirst : r.tail = first := by
      rw [Row.tail, required_eq_ok_iff.mp hread]
      rfl
    exact foldlM_ok_induction (fun _ _ _ _ hworst hstep => hworst.worstStep hstep)
      (hfirst ▸ worstOf_singleton r) hfold

/-- The tail is the worst of the rows that are marked as within the budget. -/
def IsWorstTail (d : ResultFile) (p99 : ℚ) : Prop :=
  (∃ row ∈ d.within, row.tail = some p99) ∧ ∀ row ∈ d.within, ∀ tail ∈ row.tail, tail ≤ p99

/-- `worstTail` finds it. -/
lemma worstTail_eq_some_iff {found : Option ℚ} (h : d.worstTail = .ok found) (p99 : ℚ) :
    found = some p99 ↔ d.IsWorstTail p99 := by
  rw [(worstOf_worstTail h).eq_some_iff]
  constructor
  · rintro ⟨hmem, hbound⟩
    exact ⟨hmem, fun row hrow tail htail => hbound ⟨row, hrow, htail⟩⟩
  · rintro ⟨hmem, hbound⟩
    refine ⟨hmem, ?_⟩
    rintro tail ⟨row, hrow, htail⟩
    exact hbound row hrow tail htail

/-- A tail below the budget of the file. -/
def MeetsBudget (d : ResultFile) (p99 : Option ℚ) : Prop :=
  ∃ tail budget, p99 = some tail ∧ d.run.budgetP99Ms = some budget ∧ tail < budget

/-- What a row measured: its throughput, its tail and its errors. -/
def figures (d : ResultFile) (row : Row) : Option ℚ × Option ℚ × ℤ :=
  if d.run.target.isSome then (row.offeredRps, row.acceptedP99Ms, row.shed.getD 0)
  else (row.qps, row.tail, row.errors.getD 0)

/-- A record is one run of a file: one row measured its throughput, its tail and its errors, and the
tail is below the budget. -/
structure OneRun (d : ResultFile) (r : Record) : Prop where
  measured : ∃ row ∈ d.rows, d.figures row = (some r.qps, r.p99Ms, r.errors)
  meetsBudget : d.MeetsBudget r.p99Ms

/-- When the record of a file is one run.  In an overload sweep, the first row with the highest
offered rate among those that shed almost nothing is within the budget.  In a concurrency sweep that
met the budget at all, one row has the throughput that the file gives, a tail below the budget that
is the worst of the rows marked as within the budget, and as many errors as these have together. -/
def FiguresAgree (d : ResultFile) : Prop :=
  if d.run.target.isSome then
    ∀ offered best, d.IsBestRow offered best → d.MeetsBudget best.acceptedP99Ms
  else
    ∀ qps, d.maxQpsWithinBudget = some qps → qps ≠ 0 →
      ∃ row ∈ d.rows, row.qps = some qps ∧ d.MeetsBudget row.tail ∧
        (∀ p99 ∈ row.tail, d.IsWorstTail p99) ∧ row.errors.getD 0 = d.withinErrors

/-- What a file gives: the record of its best row, none if its sweep never met the budget, or the
record of its figures. -/
lemma toRecord_cases {out : Option Record} (h : d.toRecord = .ok out) :
    (d.run.target.isSome ∧ ∃ found, d.bestRow = .ok found ∧
      out = found.map fun (offered, row) => d.overloadRecord offered row) ∨
    (¬ d.run.target.isSome ∧ (∀ qps, d.maxQpsWithinBudget = some qps → qps = 0) ∧ out = none) ∨
    (¬ d.run.target.isSome ∧ ∃ qps p99, d.maxQpsWithinBudget = some qps ∧ qps ≠ 0 ∧
      d.worstTail = .ok p99 ∧ out = some (d.concurrencyRecord qps p99)) := by
  unfold toRecord at h
  by_cases htarget : d.run.target.isSome
  · rw [if_pos htarget] at h
    cases hbest : d.bestRow with
    | error e =>
      rw [hbest] at h
      cases h
    | ok found =>
      rw [hbest] at h
      exact Or.inl ⟨htarget, found, rfl, (Except.ok.inj h).symm⟩
  · rw [if_neg htarget] at h
    refine Or.inr ?_
    cases hmax : d.maxQpsWithinBudget with
    | none =>
      rw [hmax] at h
      exact Or.inl ⟨htarget, by simp, (Except.ok.inj h).symm⟩
    | some qps =>
      rw [hmax] at h
      by_cases hqps : qps = 0
      · simp only [if_pos hqps] at h
        refine Or.inl ⟨htarget, fun qps' h' => ?_, (Except.ok.inj h).symm⟩
        exact (Option.some.inj h').symm.trans hqps
      · simp only [if_neg hqps] at h
        cases htail : d.worstTail with
        | error e =>
          rw [htail] at h
          cases h
        | ok p99 =>
          rw [htail] at h
          exact Or.inr ⟨htarget, qps, p99, rfl, hqps, rfl, (Except.ok.inj h).symm⟩

/-- A record names its file. -/
lemma source_of_toRecord {r : Record} (h : d.toRecord = .ok (some r)) : r.source = d.path := by
  rcases toRecord_cases h with ⟨-, found, -, hout⟩ | ⟨-, -, hout⟩ | ⟨-, qps, p99, -, -, -, hout⟩
  · obtain ⟨e, -, rfl⟩ := Option.map_eq_some_iff.mp hout.symm
    rfl
  · cases hout
  · obtain rfl := Option.some.inj hout
    rfl

/-- The record of the best row is one run if the row is within the budget. -/
lemma oneRun_overloadRecord_iff (htarget : d.run.target.isSome) {offered : ℚ} {best : Row}
    (hbest : d.IsBestRow offered best) :
    d.OneRun (d.overloadRecord offered best) ↔ d.MeetsBudget best.acceptedP99Ms := by
  constructor
  · intro h
    exact h.meetsBudget
  · intro h
    obtain ⟨before, after, hrows, hoffered, -, -⟩ := hbest
    have hmem : best ∈ d.lowShedRows := by simp [hrows]
    refine ⟨⟨best, List.mem_of_mem_filter hmem, ?_⟩, h⟩
    unfold figures
    rw [if_pos htarget, hoffered]
    rfl

/-- The record of a concurrency sweep is one run if some row has all its figures. -/
lemma oneRun_concurrencyRecord_iff (htarget : ¬ d.run.target.isSome) (qps : ℚ) {p99 : Option ℚ}
    (hp99 : d.worstTail = .ok p99) :
    d.OneRun (d.concurrencyRecord qps p99) ↔
      ∃ row ∈ d.rows, row.qps = some qps ∧ d.MeetsBudget row.tail ∧
        (∀ p99 ∈ row.tail, d.IsWorstTail p99) ∧ row.errors.getD 0 = d.withinErrors := by
  have hfigures : ∀ row, d.figures row = (row.qps, row.tail, row.errors.getD 0) :=
    fun row => if_neg htarget
  constructor
  · rintro ⟨⟨row, hrow, hmeasured⟩, hbudget⟩
    rw [hfigures, Prod.mk.injEq, Prod.mk.injEq] at hmeasured
    obtain ⟨hqps, htail, herrors⟩ := hmeasured
    have htail : row.tail = p99 := htail
    refine ⟨row, hrow, hqps, htail ▸ hbudget, fun tail ht => ?_, herrors⟩
    exact (worstTail_eq_some_iff hp99 tail).mp (htail ▸ ht)
  · rintro ⟨row, hrow, hqps, hbudget, hworst, herrors⟩
    obtain ⟨tail, budget, htail, hrun, hlt⟩ := hbudget
    have hsame : p99 = some tail := (worstTail_eq_some_iff hp99 tail).mpr (hworst tail htail)
    subst hsame
    refine ⟨⟨row, hrow, ?_⟩, tail, budget, rfl, hrun, hlt⟩
    rw [hfigures, hqps, htail, herrors]
    rfl

/-- What a file gives is one run exactly if its figures agree. -/
theorem forall_oneRun_iff {out : Option Record} (h : d.toRecord = .ok out) :
    (∀ r ∈ out, d.OneRun r) ↔ d.FiguresAgree := by
  unfold FiguresAgree
  rcases toRecord_cases h with ⟨htarget, found, hfound, rfl⟩ | ⟨htarget, hzero, rfl⟩ |
    ⟨htarget, qps, p99, hmax, hqps, hp99, rfl⟩
  · rw [if_pos htarget]
    constructor
    · intro hall offered best hbest
      have hsome := (bestRow_eq_some_iff hfound offered best).mpr hbest
      exact (oneRun_overloadRecord_iff htarget hbest).mp (hall _ (by rw [hsome]; rfl))
    · intro hall r hr
      obtain ⟨⟨offered, best⟩, hsome, rfl⟩ := Option.map_eq_some_iff.mp hr
      have hbest := (bestRow_eq_some_iff hfound offered best).mp hsome
      exact (oneRun_overloadRecord_iff htarget hbest).mpr (hall offered best hbest)
  · rw [if_neg htarget]
    constructor
    · intro _ qps hmax hqps
      exact absurd (hzero qps hmax) hqps
    · intro _ r hr
      cases hr
  · rw [if_neg htarget]
    have hrun := oneRun_concurrencyRecord_iff htarget qps hp99
    constructor
    · intro hall qps' hmax' _
      obtain rfl : qps = qps' := Option.some.inj (hmax.symm.trans hmax')
      exact hrun.mp (hall _ rfl)
    · intro hall r hr
      obtain rfl := Option.some.inj hr
      exact hrun.mpr (hall qps hmax hqps)

end ResultFile

/-! ## All files -/

/-- The records are those that the files give. -/
lemma mem_toRecords_iff {results : List ResultFile} {records : List Record}
    (h : toRecords results = .ok records) (r : Record) :
    r ∈ records ↔ ∃ d ∈ results, d.toRecord = .ok (some r) := by
  unfold toRecords at h
  cases hmap : results.mapM ResultFile.toRecord with
  | error e =>
    rw [hmap] at h
    cases h
  | ok outs =>
    rw [hmap] at h
    obtain rfl : outs.reduceOption = records := Except.ok.inj h
    rw [List.reduceOption_mem_iff, mem_iff_of_mapM_ok hmap]

/-- When there are records, no file is refused. -/
lemma exists_toRecord_of_toRecords {results : List ResultFile} {records : List Record}
    (h : toRecords results = .ok records) {d : ResultFile} (hd : d ∈ results) :
    ∃ out, d.toRecord = .ok out := by
  unfold toRecords at h
  cases hmap : results.mapM ResultFile.toRecord with
  | error e =>
    rw [hmap] at h
    cases h
  | ok outs => exact exists_ok_of_mapM_ok hmap hd

/-- For every set of result files: each record is one measured row of its file, with the throughput,
the tail and the errors of that row and the tail below the budget of the file, exactly if the
figures of every file agree.  And each line of the table shows one of the records. -/
theorem published_row_is_one_run (results : ResultSet) (records : List Record)
    (h : toRecords results.files = .ok records) :
    ((∀ r ∈ records, ∃ d ∈ results.files, d.path = r.source ∧ d.OneRun r) ↔
      ∀ d ∈ results.files, d.FiguresAgree) ∧
    ∀ line ∈ tableRows records, ∃ r ∈ records, line = tableLine r.workload r := by
  refine ⟨?_, fun line hline => exists_record_of_tableRow hline⟩
  constructor
  · intro hall d hd
    obtain ⟨out, hout⟩ := exists_toRecord_of_toRecords h hd
    refine (ResultFile.forall_oneRun_iff hout).mp fun r hr => ?_
    obtain rfl : out = some r := hr
    obtain ⟨d', hd', hpath, hrun⟩ := hall r ((mem_toRecords_iff h r).mpr ⟨d, hd, hout⟩)
    -- the source of the record leads back to the file
    have hsame : d' = d :=
      List.inj_on_of_nodup_map results.nodup hd' hd
        (hpath.trans (ResultFile.source_of_toRecord hout))
    exact hsame ▸ hrun
  · intro hall r hr
    obtain ⟨d, hd, hout⟩ := (mem_toRecords_iff h r).mp hr
    refine ⟨d, hd, (ResultFile.source_of_toRecord hout).symm, ?_⟩
    exact (ResultFile.forall_oneRun_iff hout).mpr (hall d hd) r rfl

/-- A row that shed 22 of 119978 requests. -/
def overloadRow (p99 : ℚ) : Row where
  offeredRps := some 20000
  accepted := some 119956
  shed := some 22
  acceptedP99Ms := some p99

/-- An overload sweep with that row, a slower one that missed the budget and a faster one that shed
too much. -/
def overloadSweep (p99 : ℚ) : ResultFile where
  path := "results/reference/overload.json"
  run :=
    { target := some "<remote host, address elided>", keyLabel := some "demo-ec-p256",
      budgetP99Ms := some 2 }
  clientHost := { instanceType := some "c7g.2xlarge" }
  rows :=
    [{ offeredRps := some 10000, accepted := some 60000, shed := some 0,
       acceptedP99Ms := some (13 / 5) },
     overloadRow p99,
     { offeredRps := some 24000, accepted := some 119000, shed := some 25000,
       acceptedP99Ms := some (17 / 10) }]

/-- The published figure of an overload sweep of three rates is one run. -/
theorem published_row_is_one_run_overload :
    ∃ d ∈ [overloadSweep (23 / 20)],
      d.path = "results/reference/overload.json" ∧
      d.OneRun ((overloadSweep (23 / 20)).overloadRecord 20000 (overloadRow (23 / 20))) := by
  have hrecords : toRecords [overloadSweep (23 / 20)] =
      .ok [(overloadSweep (23 / 20)).overloadRecord 20000 (overloadRow (23 / 20))] := by
    decide +kernel
  have hfound : (overloadSweep (23 / 20)).bestRow = .ok (some (20000, overloadRow (23 / 20))) := by
    decide +kernel
  have hagree : ∀ d ∈ [overloadSweep (23 / 20)], d.FiguresAgree := by
    intro d hd
    obtain rfl := List.mem_singleton.mp hd
    intro offered best hbest
    have hsame := (ResultFile.bestRow_eq_some_iff hfound offered best).mpr hbest
    obtain ⟨rfl, rfl⟩ := Prod.mk.inj (Option.some.inj hsame)
    exact ⟨23 / 20, 2, rfl, rfl, by norm_num⟩
  exact (published_row_is_one_run ⟨[overloadSweep (23 / 20)], by decide⟩ _ hrecords).1.mpr hagree
    _ List.mem_cons_self

/-- A concurrency sweep whose slower row has the worse tail. -/
def concurrencySweep : ResultFile where
  path := "results/reference/sweep.json"
  run :=
    { mode := some "pool", workers := some 8, call := some "hsm.v1.HsmService/Sign",
      keyLabel := some "demo-ec-p256", budgetP99Ms := some 2 }
  host := { instanceType := some "c7i.2xlarge", hostKind := some "reference" }
  rows :=
    [{ qps := some 100, p99Ms := some (some (19 / 10)), errors := some 0, withinBudget := some true },
     { qps := some 500, p99Ms := some (some (3 / 2)), errors := some 0, withinBudget := some true }]
  maxQpsWithinBudget := some 500

/-- The record of a concurrency sweep pairs the throughput of one row with the tail of another.  The
record of an overload sweep has a tail above the budget. -/
theorem figures_of_different_rows :
    (∃ r, toRecords [concurrencySweep] = .ok [r] ∧ r.qps = 500 ∧ r.p99Ms = some (19 / 10) ∧
      tableRows [r] = ["| Sign demo-ec-p256 (pool) | 500 | 1.90 ms | 0 | `c7i.2xlarge` | " ++
        "single-host, 8 workers |"] ∧
      ∀ row ∈ concurrencySweep.rows, concurrencySweep.figures row ≠ (some r.qps, r.p99Ms, r.errors))
      ∧
    ∃ r, toRecords [overloadSweep (5 / 2)] = .ok [r] ∧ r.p99Ms = some (5 / 2) ∧
      (overloadSweep (5 / 2)).run.budgetP99Ms = some 2 := by
  refine ⟨⟨concurrencySweep.concurrencyRecord 500 (some (19 / 10)), ?_⟩,
    ⟨(overloadSweep (5 / 2)).overloadRecord 20000 (overloadRow (5 / 2)), ?_⟩⟩
  · decide +kernel
  · decide +kernel

end HsmProxy
