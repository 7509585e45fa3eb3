import HsmProxy.Baseline.Conduct
import HsmProxy.Interleaving.Logs
import Mathlib.Algebra.BigOperators.Group.Finset.Basic
import Mathlib.Data.Finset.Card

/-!
# What the baseline reports

When `measure` has waited for its goroutines, all of them have ended, and what they have published is
complete.  So the reported number of operations is that of the signatures that were made, except
those of goroutines in which a call has failed, which are left out as a whole: `measured_counts`.
-/

namespace HsmProxy.Baseline

open Interleaving Interleaving.Prog Quantile

/-! ## What counts -/

/-- A call of the module that has failed in the middle of a signature. -/
def callFailed : Event BenchOp.Ans → Bool
  | ⟨.signInit _ _ _, .error _⟩ => true
  | ⟨.sign _ _, .error _⟩ => true
  | _ => false

/-- A signature. -/
def signatureMade : Event BenchOp.Ans → Bool
  | ⟨.sign _ _, .ok _⟩ => true
  | _ => false

/-- The signatures of a goroutine that count: all of them, or none if a call has failed. -/
def counted (h : List (Event BenchOp.Ans)) : ℕ :=
  if h.any callFailed then 0 else h.countP signatureMade

/-- A failure is noted. -/
lemma failed_note (g : BenchLog) (ev : Event BenchOp.Ans) :
    (g.note ev).failed = (g.failed || callFailed ev) := by
  obtain ⟨o, a⟩ := ev
  cases o with
  | openSession => cases a <;> exact (Bool.or_false _).symm
  | signInit session mechanism key =>
    cases a with
    | error e => exact (Bool.or_true _).symm
    | ok u => exact (Bool.or_false _).symm
  | sign session data =>
    cases a with
    | error e => exact (Bool.or_true _).symm
    | ok signature => exact (Bool.or_false _).symm
  | _ => exact (Bool.or_false _).symm

/-- A signature is noted. -/
lemma signed_note (g : BenchLog) (ev : Event BenchOp.Ans) :
    (g.note ev).signed = g.signed + if signatureMade ev then 1 else 0 := by
  obtain ⟨o, a⟩ := ev
  cases o with
  | openSession => cases a <;> rfl
  | signInit session mechanism key => cases a <;> rfl
  | sign session data => cases a <;> rfl
  | _ => rfl

/-- The log keeps track of what counts. -/
lemma due_foldl_note (h : List (Event BenchOp.Ans)) :
    (h.foldl BenchLog.note .empty).due = counted h := by
  rw [BenchLog.due, counted, foldl_eq_any (f := BenchLog.failed) rfl failed_note,
    foldl_eq_countP (f := BenchLog.signed) rfl signed_note]

/-! ## The invariant -/

/-- The goroutines that have not ended. -/
def unfinished (count : ℕ) (g : ℕ → BenchLog) : Finset ℕ :=
  (Finset.range count).filter fun i => !(g i).finished

/-- The counters of `measure` and what its threads have done.  Goroutine `i` is thread `i`, and main is
thread `count`. -/
structure Counted (count : ℕ) (s : BenchState) (g : ℕ → BenchLog) : Prop where
  opened : s.sessions = (g count).opened
  launched : s.launched = (g count).launched
  pending : s.launched.isSome → s.pending = (unfinished count g).card
  /-- A goroutine is there once it is started. -/
  begun : ∀ i < count, (g i).worker.isSome → s.launched.isSome
  /-- A goroutine that has ended has published what it had to. -/
  ended : ∀ i < count, (g i).finished → (g i).worker.isSome ∧ (g i).published = (g i).due
  opsTotal : s.opsTotal = ∑ i ∈ Finset.range count, (g i).published
  samples : s.latency.length = s.opsTotal
  waited : ∀ r, (g count).waited = some r →
    r = (s.latency, s.opsTotal) ∧ ∀ i < count, (g i).finished

section

variable {count : ℕ} {s s' : BenchState} {g : ℕ → BenchLog} {i : ℕ} {x : BenchLog}

/-- The parts of the state that are counted. -/
structure SameCounts (s s' : BenchState) : Prop where
  launched : s'.launched = s.launched
  pending : s'.pending = s.pending
  latency : s'.latency = s.latency
  opsTotal : s'.opsTotal = s.opsTotal

namespace Counted

/-- Who has not ended, where that did not change. -/
lemma pending_update (h : Counted count s g) (hx : x.finished = (g i).finished)
    (hsome : s.launched.isSome) : s.pending = (unfinished count (Function.update g i x)).card := by
  rw [h.pending hsome, unfinished, unfinished,
    filter_update_of_eq (p := fun y : BenchLog => !y.finished) (congrArg Bool.not hx)]

/-- What was published, where that did not change. -/
lemma opsTotal_update (h : Counted count s g) (hx : x.published = (g i).published) :
    s.opsTotal = ∑ j ∈ Finset.range count, (Function.update g i x j).published := by
  simp only [h.opsTotal, apply_update_of_eq (f := BenchLog.published) hx]

/-- Who has begun, where that did not change. -/
lemma begun_update (h : Counted count s g) (hx : x.worker = (g i).worker) (j : ℕ) (hj : j < count)
    (hsome : (Function.update g i x j).worker.isSome) : s.launched.isSome :=
  h.begun j hj (apply_update_of_eq (f := BenchLog.worker) hx j ▸ hsome)

/-- What is said of the goroutines that have ended concerns one thread at a time. -/
lemma ended_update (h : Counted count s g)
    (hx : i < count → x.finished = true → x.worker.isSome ∧ x.published = x.due) (j : ℕ)
    (hj : j < count) (hend : (Function.update g i x j).finished = true) :
    (Function.update g i x j).worker.isSome ∧
      (Function.update g i x j).published = (Function.update g i x j).due :=
  forall_update (p := fun j (y : BenchLog) => j < count → y.finished = true →
    y.worker.isSome ∧ y.published = y.due) h.ended hx j hj hend

/-- What main was told when it had waited stays true. -/
lemma waited_update (h : Counted count s g) (hwaited : x.waited = (g i).waited)
    (hfinished : x.finished = (g i).finished) (r : List ℕ × ℕ)
    (hr : (Function.update g i x count).waited = some r) :
    r = (s.latency, s.opsTotal) ∧ ∀ j < count, (Function.update g i x j).finished = true := by
  rw [apply_update_of_eq (f := BenchLog.waited) hwaited] at hr
  obtain ⟨htold, hall⟩ := h.waited r hr
  refine ⟨htold, fun j hj => ?_⟩
  rw [apply_update_of_eq (f := BenchLog.finished) hfinished]
  exact hall j hj

/-- While a goroutine has not ended, main has not waited. -/
lemma not_waited (h : Counted count s g) (hi : i < count) (hfinished : (g i).finished = false)
    (r : List ℕ × ℕ) : (g count).waited ≠ some r := by
  intro hr
  have hend := (h.waited r hr).2 i hi
  rw [hfinished] at hend
  cases hend

/-- A step that neither changes the counters nor what is counted. -/
lemma frame (h : Counted count s g) (hs : SameCounts s s')
    (hopened : s'.sessions = (Function.update g i x count).opened)
    (hlaunched : x.launched = (g i).launched) (hwaited : x.waited = (g i).waited)
    (hworker : x.worker = (g i).worker) (hfinished : x.finished = (g i).finished)
    (hpublished : x.published = (g i).published)
    (hdue : i < count → x.finished = true → x.due = (g i).due) :
    Counted count s' (Function.update g i x) := by
  refine ⟨hopened, ?_, fun hsome => ?_, fun j hj hsome => ?_, h.ended_update fun hi hend => ?_, ?_,
    ?_, fun r hr => ?_⟩
  · rw [apply_update_of_eq (f := BenchLog.launched) hlaunched, hs.launched, h.launched]
  · rw [hs.launched] at hsome
    rw [hs.pending]
    exact h.pending_update hfinished hsome
  · rw [hs.launched]
    exact h.begun_update hworker j hj hsome
  · obtain ⟨hsome, hdone⟩ := h.ended i hi (hfinished.symm.trans hend)
    rw [hworker, hpublished, hdue hi hend]
    exact ⟨hsome, hdone⟩
  · rw [hs.opsTotal]
    exact h.opsTotal_update hpublished
  · rw [hs.latency, hs.opsTotal, h.samples]
  · rw [hs.latency, hs.opsTotal]
    exact h.waited_update hwaited hfinished r hr

/-- No goroutine has ended before it is started. -/
lemma not_finished (h : Counted count s g) (hlaunched : s.launched = none) (hi : i < count) :
    (g i).finished = false := by
  by_contra hend
  have hsome := h.begun i hi (h.ended i hi (Bool.eq_true_of_not_eq_false hend)).1
  rw [hlaunched] at hsome
  cases hsome

/-- The goroutines are started. -/
lemma launch (h : Counted count s g) {workers : List Worker} (hlaunched : (g count).launched = none)
    (hlength : workers.length = count) :
    Counted count { s with launched := some workers, pending := workers.length }
      (Function.update g count { g count with launched := some workers }) := by
  refine ⟨?_, ?_, fun _ => ?_, fun _ _ _ => rfl,
    h.ended_update fun hlt => absurd hlt (Nat.lt_irrefl count), h.opsTotal_update rfl, h.samples,
    h.waited_update rfl rfl⟩
  · rw [Function.update_self]
    exact h.opened
  · rw [Function.update_self]
  · have hall : unfinished count
        (Function.update g count { g count with launched := some workers }) = Finset.range count := by
      refine Finset.filter_true_of_mem fun j hj => ?_
      have hj : j < count := Finset.mem_range.mp hj
      rw [Function.update_of_ne (Nat.ne_of_lt hj), h.not_finished (h.launched.trans hlaunched) hj]
      rfl
    rw [hall, Finset.card_range]
    exact hlength

/-- Main has waited: all goroutines have ended. -/
lemma wait (h : Counted count s g) (hsome : s.launched.isSome) (hpending : s.pending = 0) :
    Counted count s
      (Function.update g count { g count with waited := some (s.latency, s.opsTotal) }) := by
  have hnone : unfinished count g = ∅ :=
    Finset.card_eq_zero.mp ((h.pending hsome).symm.trans hpending)
  have hall : ∀ j < count, (g j).finished = true := by
    intro j hj
    by_contra hend
    have hmem : j ∈ unfinished count g :=
      Finset.mem_filter.mpr ⟨Finset.mem_range.mpr hj, by simpa using hend⟩
    rw [hnone] at hmem
    exact absurd hmem (Finset.notMem_empty j)
  refine ⟨?_, ?_, h.pending_update rfl, fun _ _ _ => hsome,
    h.ended_update fun hlt => absurd hlt (Nat.lt_irrefl count), h.opsTotal_update rfl, h.samples,
    fun r hr => ?_⟩
  · rw [Function.update_self]
    exact h.opened
  · rw [Function.update_self]
    exact h.launched
  · rw [Function.update_self] at hr
    refine ⟨(Option.some.inj hr).symm, fun j hj => ?_⟩
    rw [Function.update_of_ne (Nat.ne_of_lt hj)]
    exact hall j hj

/-- A goroutine begins. -/
lemma start (h : Counted count s g) (hi : i < count) (hsome : s.launched.isSome)
    (hempty : g i = .empty) (w : Worker) :
    Counted count s (Function.update g i { g i with worker := some w }) := by
  have hmain : Function.update g i { g i with worker := some w } count = g count :=
    Function.update_of_ne (Nat.ne_of_gt hi) _ _
  refine ⟨?_, ?_, h.pending_update rfl, fun _ _ _ => hsome, h.ended_update fun _ hend => ?_,
    h.opsTotal_update rfl, h.samples, h.waited_update rfl rfl⟩
  · rw [hmain, h.opened]
  · rw [hmain, h.launched]
  · have hend : (g i).finished = true := hend
    rw [hempty] at hend
    cases hend

/-- A goroutine publishes what it has measured. -/
lemma publish (h : Counted count s g) (hi : i < count) (hfinished : (g i).finished = false)
    {latency : List ℕ} {ops : ℕ} (hlength : latency.length = ops) :
    Counted count { s with latency := s.latency ++ latency, opsTotal := s.opsTotal + ops }
      (Function.update g i { g i with published := (g i).published + ops }) := by
  have hmain : Function.update g i { g i with published := (g i).published + ops } count = g count :=
    Function.update_of_ne (Nat.ne_of_gt hi) _ _
  refine ⟨?_, ?_, h.pending_update rfl, h.begun_update rfl, h.ended_update fun _ hend => ?_, ?_, ?_,
    fun r hr => ?_⟩
  · rw [hmain]
    exact h.opened
  · rw [hmain]
    exact h.launched
  · have hend : (g i).finished = true := hend
    rw [hfinished] at hend
    cases hend
  · show s.opsTotal + ops = _
    rw [sum_update_add (f := BenchLog.published) (Finset.mem_range.mpr hi) rfl, h.opsTotal]
  · rw [List.length_append, h.samples, hlength]
  · rw [hmain] at hr
    exact absurd hr (h.not_waited hi hfinished r)

/-- A goroutine ends. -/
lemma done (h : Counted count s g) (hi : i < count) (hfinished : (g i).finished = false)
    (hworker : (g i).worker.isSome) (hdue : (g i).published = (g i).due) :
    Counted count { s with pending := s.pending - 1 }
      (Function.update g i { g i with finished := true }) := by
  have hmain : Function.update g i { g i with finished := true } count = g count :=
    Function.update_of_ne (Nat.ne_of_gt hi) _ _
  refine ⟨?_, ?_, fun hsome => ?_, h.begun_update rfl, h.ended_update fun _ _ => ⟨hworker, hdue⟩,
    h.opsTotal_update rfl, h.samples, fun r hr => ?_⟩
  · rw [hmain]
    exact h.opened
  · rw [hmain]
    exact h.launched
  · have hmem : i ∈ unfinished count g :=
      Finset.mem_filter.mpr ⟨Finset.mem_range.mpr hi, by rw [hfinished]; rfl⟩
    rw [unfinished, filter_update_erase (p := fun y : BenchLog => !y.finished) rfl]
    exact (congrArg (· - 1) (h.pending hsome)).trans (Finset.card_erase_of_mem hmem).symm
  · rw [hmain] at hr
    exact absurd hr (h.not_waited hi hfinished r)

/-- A step of main that is not counted. -/
lemma frame_main (h : Counted count s g) (hs : SameCounts s s') (hopened : s'.sessions = x.opened)
    (hlaunched : x.launched = (g count).launched) (hwaited : x.waited = (g count).waited)
    (hworker : x.worker = (g count).worker) (hfinished : x.finished = (g count).finished)
    (hpublished : x.published = (g count).published) :
    Counted count s' (Function.update g count x) := by
  refine h.frame hs ?_ hlaunched hwaited hworker hfinished hpublished
    fun hlt => absurd hlt (Nat.lt_irrefl count)
  rw [Function.update_self]
  exact hopened

/-- A step of a goroutine that is not counted. -/
lemma frame_goroutine (h : Counted count s g) (hi : i < count) (hs : SameCounts s s')
    (hsessions : s'.sessions = s.sessions) (hlaunched : x.launched = (g i).launched)
    (hwaited : x.waited = (g i).waited) (hworker : x.worker = (g i).worker)
    (hfinished : x.finished = (g i).finished) (hpublished : x.published = (g i).published)
    (hdue : x.finished = true → x.due = (g i).due) :
    Counted count s' (Function.update g i x) := by
  refine h.frame hs ?_ hlaunched hwaited hworker hfinished hpublished fun _ => hdue
  rw [Function.update_of_ne (Nat.ne_of_gt hi), hsessions, h.opened]

/-- What main does. -/
lemma exec_main (h : Counted count s g) {shared : Bool} {answer : (o : BenchOp) → o.Ans} {tid : ℕ}
    {o : BenchOp} {a : o.Ans} (hpre : (benchContract shared count .main).pre (g count) o)
    (he : execBench answer tid s o = some (a, s')) :
    Counted count s' (Function.update g count ((g count).note ⟨o, a⟩)) := by
  cases o with
  | openSession =>
    simp only [execBench] at he
    split at he
    · split at he
      · cases he
      · obtain ⟨rfl, rfl⟩ := Prod.mk.inj (Option.some.inj he)
        exact h.frame_main ⟨rfl, rfl, rfl, rfl⟩ (congrArg (_ :: ·) h.opened) rfl rfl rfl rfl rfl
    · obtain ⟨rfl, rfl⟩ := Prod.mk.inj (Option.some.inj he)
      exact h.frame_main ⟨rfl, rfl, rfl, rfl⟩ h.opened rfl rfl rfl rfl rfl
  | signInit session mechanism key =>
    simp only [execBench] at he
    split at he
    · obtain ⟨rfl, rfl⟩ := Prod.mk.inj (Option.some.inj he)
      exact h.frame_main ⟨rfl, rfl, rfl, rfl⟩ h.opened rfl rfl rfl rfl rfl
    · obtain ⟨rfl, rfl⟩ := Prod.mk.inj (Option.some.inj he)
      exact h.frame_main ⟨rfl, rfl, rfl, rfl⟩ h.opened rfl rfl rfl rfl rfl
  | sign session data =>
    obtain ⟨-, rfl⟩ := Prod.mk.inj (Option.some.inj he)
    cases a with
    | error e => exact h.frame_main ⟨rfl, rfl, rfl, rfl⟩ h.opened rfl rfl rfl rfl rfl
    | ok signature => exact h.frame_main ⟨rfl, rfl, rfl, rfl⟩ h.opened rfl rfl rfl rfl rfl
  | closeSession session =>
    obtain ⟨-, rfl⟩ := Prod.mk.inj (Option.some.inj he)
    exact h.frame_main ⟨rfl, rfl, rfl, rfl⟩ (congrArg (List.filter _) h.opened) rfl rfl rfl rfl rfl
  | launch workers =>
    obtain ⟨-, rfl⟩ := Prod.mk.inj (Option.some.inj he)
    exact h.launch hpre.2.1 hpre.2.2.1
  | wait =>
    simp only [execBench] at he
    split at he
    · rename_i hready
      obtain ⟨rfl, rfl⟩ := Prod.mk.inj (Option.some.inj he)
      exact h.wait hready.1 hready.2
    · cases he
  | lockShared => exact absurd hpre id
  | unlockShared => exact absurd hpre id
  | start => exact absurd hpre id
  | publish latency ops => exact absurd hpre id
  | done => exact absurd hpre id
  | _ =>
    obtain ⟨-, rfl⟩ := Prod.mk.inj (Option.some.inj he)
    exact h.frame_main ⟨rfl, rfl, rfl, rfl⟩ h.opened rfl rfl rfl rfl rfl

/-- What a goroutine does. -/
lemma exec_goroutine (h : Counted count s g) {shared : Bool} {answer : (o : BenchOp) → o.Ans}
    (hi : i < count) {o : BenchOp} {a : o.Ans}
    (hpre : (benchContract shared count .goroutine).pre (g i) o)
    (he : execBench answer i s o = some (a, s')) :
    Counted count s' (Function.update g i ((g i).note ⟨o, a⟩)) := by
  have hgoes : (g i).finished = false → (g i).finished = true → ∀ n : ℕ, n = (g i).due := by
    intro hfalse htrue
    rw [hfalse] at htrue
    cases htrue
  cases o with
  | signInit session mechanism key =>
    simp only [execBench] at he
    split at he
    · obtain ⟨rfl, rfl⟩ := Prod.mk.inj (Option.some.inj he)
      exact h.frame_goroutine hi ⟨rfl, rfl, rfl, rfl⟩ rfl rfl rfl rfl rfl rfl fun _ => rfl
    · obtain ⟨rfl, rfl⟩ := Prod.mk.inj (Option.some.inj he)
      exact h.frame_goroutine hi ⟨rfl, rfl, rfl, rfl⟩ rfl rfl rfl rfl rfl rfl
        fun hend => hgoes hpre.2.1 hend _
  | sign session data =>
    obtain ⟨-, rfl⟩ := Prod.mk.inj (Option.some.inj he)
    cases a with
    | error e =>
      exact h.frame_goroutine hi ⟨rfl, rfl, rfl, rfl⟩ rfl rfl rfl rfl rfl rfl
        fun hend => hgoes hpre.2 hend _
    | ok signature =>
      exact h.frame_goroutine hi ⟨rfl, rfl, rfl, rfl⟩ rfl rfl rfl rfl rfl rfl
        fun hend => hgoes hpre.2 hend _
  | lockShared =>
    simp only [execBench] at he
    split at he
    · obtain ⟨-, rfl⟩ := Prod.mk.inj (Option.some.inj he)
      exact h.frame_goroutine hi ⟨rfl, rfl, rfl, rfl⟩ rfl rfl rfl rfl rfl rfl fun _ => rfl
    · cases he
  | start =>
    obtain ⟨w, hw, heq⟩ := Option.map_eq_some_iff.mp he
    obtain ⟨rfl, rfl⟩ := Prod.mk.inj heq
    obtain ⟨workers, hworkers, -⟩ := Option.bind_eq_some_iff.mp hw
    exact h.start hi (Option.isSome_iff_exists.mpr ⟨workers, hworkers⟩) hpre w
  | publish latency ops =>
    obtain ⟨-, rfl⟩ := Prod.mk.inj (Option.some.inj he)
    exact h.publish hi hpre.1 hpre.2
  | done =>
    obtain ⟨-, rfl⟩ := Prod.mk.inj (Option.some.inj he)
    exact h.done hi hpre.2.1 hpre.2.2.1 hpre.2.2.2
  | openSession => exact absurd hpre id
  | closeSession session => exact absurd hpre id
  | launch workers => exact absurd hpre id
  | wait => exact absurd hpre id
  | _ =>
    obtain ⟨-, rfl⟩ := Prod.mk.inj (Option.some.inj he)
    exact h.frame_goroutine hi ⟨rfl, rfl, rfl, rfl⟩ rfl rfl rfl rfl rfl rfl fun _ => rfl

end Counted

end

/-! ## Every run -/

/-- The goroutines are the threads below `count`, and main is thread `count`. -/
def placeOf (count i : ℕ) : Task → Prop
  | .main => i = count
  | .goroutine => i < count

section

variable {cfg : Settings} {shared : Bool} {count : ℕ} {work : Mechanism × Bytes} {t₀ : ℕ}
  {as : List (Action ((o : BenchOp) → o.Ans) ℕ Task)}
  {c c' : Config BenchOp.Ans BenchState Task Round}

/-- The threads at the start. -/
lemma measureStarted_thread {i : ℕ} {t : Thread BenchOp.Ans Task Round}
    (ht : (measureStarted cfg shared count t₀).threads i = some t) :
    (i < count ∧ t = ⟨.goroutine, [], goroutine cfg⟩) ∨
      (i = count ∧ t = ⟨.main, [], setUp cfg shared count⟩) :=
  eq_of_crew ht

/-- The programs keep to the contract. -/
lemma bench_again {l : Task} {g : BenchLog} {r : Round} {p : Bench Round}
    (hr : BenchEnds cfg shared count l g r)
    (hp : (measuring cfg shared count work).again l r = some p) :
    p.Meets (benchContract shared count l) (BenchEnds cfg shared count l) g := by
  cases l with
  | main =>
    cases r with
    | warming opened sessions deadline =>
      obtain rfl := Option.some.inj hp
      exact warmUp_meets hr
    | _ => cases hp
  | goroutine =>
    cases r with
    | signing w stop latency ops =>
      obtain rfl := Option.some.inj hp
      exact signRound_meets hr
    | _ => cases hp

/-- The module opens no session twice. -/
lemma bench_post {l : Task} {s s' : BenchState} {g : ℕ → BenchLog} {i : ℕ} {o : BenchOp} {a : o.Ans}
    {answer : (o : BenchOp) → o.Ans} (h : Counted count s g) (hplace : placeOf count i l)
    (hpre : (benchContract shared count l).pre (g i) o)
    (he : execBench answer i s o = some (a, s')) :
    (benchContract shared count l).post (g i) o a := by
  cases o with
  | openSession =>
    cases l with
    | goroutine => exact absurd hpre id
    | main =>
      obtain rfl : i = count := hplace
      simp only [execBench] at he
      split at he
      · split at he
        · cases he
        · rename_i hnew
          obtain ⟨rfl, -⟩ := Prod.mk.inj (Option.some.inj he)
          rw [h.opened] at hnew
          exact hnew
      · obtain ⟨rfl, -⟩ := Prod.mk.inj (Option.some.inj he)
        exact True.intro
  | _ => exact True.intro

/-- The obligations of the shared-invariant method. -/
lemma counted_sound : System.Sound (measuring cfg shared count work)
    (fun c _ => System.Placed (placeOf count) c) (benchContract shared count)
    (BenchEnds cfg shared count) fun s tr => Counted count s (logs BenchLog.note .empty tr) where
  body _ h := by cases h
  again _ _ _ _ hr hp := bench_again hr hp
  exec c i answer l o k a s' hc hplaced ht hpre he := by
    have hplace : placeOf count i l := hplaced i _ ht
    refine ⟨bench_post hc.inv hplace hpre he, ?_⟩
    rw [logs_snoc]
    cases l with
    | main =>
      obtain rfl : i = count := hplace
      exact hc.inv.exec_main hpre he
    | goroutine => exact hc.inv.exec_goroutine hplace hpre he
  cancel _ _ _ _ _ _ _ _ hd := by cases hd
  env c d s' hc _ hd := by
    obtain rfl := Option.some.inj hd
    obtain ⟨h₁, h₂, h₃, h₄, h₅, h₆, h₇, h₈⟩ := hc.inv
    exact ⟨h₁, h₂, h₃, h₄, h₅, h₆, h₇, h₈⟩

/-- Nothing has been done at the start. -/
lemma recorded_measureStarted : System.Recorded (measureStarted cfg shared count t₀) := by
  refine System.Recorded.start (fun i hi => ?_) (fun i t ht => ?_) rfl
  · exact crew_eq_none hi
  · rcases measureStarted_thread ht with ⟨-, rfl⟩ | ⟨-, rfl⟩ <;> rfl

/-- The threads are in their places. -/
lemma placed_measureStarted :
    System.Placed (placeOf count) (measureStarted cfg shared count t₀) := by
  intro i t ht
  rcases measureStarted_thread ht with ⟨hi, rfl⟩ | ⟨hi, rfl⟩ <;> exact hi

/-- The contracts are kept at the start. -/
lemma measureStarted_meets {i : ℕ} {t : Thread BenchOp.Ans Task Round}
    (ht : (measureStarted cfg shared count t₀).threads i = some t) :
    t.prog.Meets (benchContract shared count t.label) (BenchEnds cfg shared count t.label)
      ((benchContract shared count t.label).ghost t.hist) := by
  rcases measureStarted_thread ht with ⟨-, rfl⟩ | ⟨-, rfl⟩
  · exact goroutine_meets
  · exact setUp_meets

/-- The counters are right at the start. -/
lemma counted_initial : Counted count (.initial t₀) fun _ => .empty where
  opened := rfl
  launched := rfl
  pending h := by cases h
  begun _ _ h := by cases h
  ended _ _ h := by cases h
  opsTotal := (Finset.sum_eq_zero fun _ _ => rfl).symm
  samples := rfl
  waited _ h := by cases h

/-- After every run the counters are right and the threads keep to their contracts. -/
lemma counted_run
    (hrun : (measuring cfg shared count work).run (measureStarted cfg shared count t₀) as = some c) :
    System.Outline (benchContract shared count) (BenchEnds cfg shared count)
      (fun s tr => Counted count s (logs BenchLog.note .empty tr)) c :=
  counted_sound.run
    ⟨recorded_measureStarted, counted_initial, fun _ _ ht => measureStarted_meets ht⟩
    (System.throughout_invariant (fun _ _ _ hc h => hc.step (fun _ => rfl) h)
      placed_measureStarted) hrun

/-- Percentiles in microseconds grow as well. -/
lemma pctMicros_mono {latency : List ℕ} (hne : latency ≠ []) {p q : ℕ} (hpq : p ≤ q) :
    pctMicros latency p ≤ pctMicros latency q := by
  cases hp : percentile p latency with
  | none => exact absurd (percentile_eq_none_iff.mp hp) hne
  | some v =>
    cases hq : percentile q latency with
    | none => exact absurd (percentile_eq_none_iff.mp hq) hne
    | some w =>
      rw [pctMicros, pctMicros, hp, hq]
      exact Nat.div_le_div_right (percentile_mono hpq hp hq)

/-- What a report that is one says. -/
lemma report_measured {elapsed : ℕ} {latency : List ℕ} {opsTotal : ℕ} {r : Result}
    (h : report cfg count elapsed latency opsTotal = .measured r) :
    latency ≠ [] ∧ r.operations = opsTotal ∧ r.p50Micros ≤ r.p99Micros ∧
      r.p99Micros ≤ r.maxMicros := by
  unfold report at h
  split at h
  · cases h
  · rename_i hne
    obtain rfl := Round.measured.inj h
    refine ⟨hne, rfl, pctMicros_mono hne (by decide), ?_⟩
    dsimp only
    rw [← percentile_hundred]
    exact pctMicros_mono hne (by decide)

/-- What `measure` reports, in every run: the operations are the signatures that were made, without
those of the goroutines in which a call has failed; there is at least one; and the percentiles are in
order. -/
theorem measured_counts
    (hrun : (measuring cfg shared count work).run (measureStarted cfg shared count t₀) as = some c)
    {r : Result} (hr : c.returned count = some (.main, .measured r)) :
    r.operations = ∑ i ∈ Finset.range count, counted (histOf c.trace i) ∧ 0 < r.operations ∧
      r.p50Micros ≤ r.p99Micros ∧ r.p99Micros ≤ r.maxMicros := by
  have hc := counted_run hrun
  obtain ⟨hist, ht⟩ := System.exists_returned hr
  obtain rfl := hc.recorded.hist count _ ht
  obtain ⟨latency, opsTotal, elapsed, hwaited, hreport⟩ := hc.threads count _ ht
  obtain ⟨hne, hops, hmiddle, htail⟩ := report_measured hreport
  obtain ⟨heq, hall⟩ := hc.inv.waited (latency, opsTotal) hwaited
  obtain ⟨rfl, rfl⟩ := Prod.mk.inj heq
  refine ⟨?_, ?_, hmiddle, htail⟩
  · rw [hops, hc.inv.opsTotal]
    refine Finset.sum_congr rfl fun i hi => ?_
    have hi : i < count := Finset.mem_range.mp hi
    rw [(hc.inv.ended i hi (hall i hi)).2]
    exact due_foldl_note _
  · rw [hops, ← hc.inv.samples]
    exact List.length_pos_of_ne_nil hne

end

/-- The answers of a module on which every call succeeds, the `n`-th session being `n`. -/
def willing (n : ℕ) : (o : BenchOp) → o.Ans
  | .openSession => .ok n
  | .login _ => .ok ()
  | .findObjectsInit _ _ => .ok ()
  | .findObjects _ => .ok [5]
  | .findObjectsFinal _ => .ok ()
  | .signInit _ _ _ => .ok ()
  | .sign _ _ => .ok []
  | .closeSession _ => ()
  | .now => 0
  | .lockShared => ()
  | .unlockShared => ()
  | .launch _ => ()
  | .start => ⟨0, 0⟩
  | .publish _ _ => ()
  | .done => ()
  | .wait => ([], 0)

/-- The same module, but it refuses to sign. -/
def refusing : (o : BenchOp) → o.Ans
  | .sign _ _ => .error .deviceError
  | o => willing 0 o

/-- Steps of one thread. -/
def steps (i n : ℕ) (answer : (o : BenchOp) → o.Ans) :
    List (Action ((o : BenchOp) → o.Ans) ℕ Task) := List.replicate n (.exec i answer)

/-- Two goroutines share a session.  Both sign once; the second signature of the second one fails. -/
def oneFails : List (Action ((o : BenchOp) → o.Ans) ℕ Task) :=
  -- the set-up, the warm-up, and the start of the goroutines
  steps 2 6 (willing 7) ++ [.again 2] ++ steps 2 3 (willing 0) ++
    steps 0 2 (willing 0) ++ steps 1 2 (willing 0) ++
    -- both sign, one after the other
    [.again 0] ++ steps 0 6 (willing 0) ++ [.again 1] ++ steps 1 6 (willing 0) ++
    [.env 4000] ++ steps 0 1 (willing 0) ++ steps 1 1 (willing 0) ++
    -- the second one fails
    [.again 1] ++ steps 1 4 (willing 0) ++ steps 1 1 refusing ++ steps 1 2 (willing 0) ++
    -- for the first the time is over
    [.env 10000, .again 0] ++ steps 0 3 (willing 0) ++ steps 2 3 (willing 0)

/-- Settings with which there is no warm-up. -/
def tenMicros : Settings := ⟨"demo-ec-p256", "ecdsa", "naive-concurrent", 2, 10000, 0⟩

/-- Two signatures were made; the one of the goroutine that has failed is not reported. -/
theorem measured_counts_one_fails :
    measureParameters (fun _ => []) tenMicros = .ok (2, true, .ecdsa, []) ∧
    ∃ c r, (measuring tenMicros true 2 (.ecdsa, [])).run (measureStarted tenMicros true 2 0)
        oneFails = some c ∧ c.returned 2 = some (.main, .measured r) ∧ r.operations = 1 ∧
      r.operations = ∑ i ∈ Finset.range 2, counted (histOf c.trace i) := by
  have hfinal : ((measuring tenMicros true 2 (.ecdsa, [])).run (measureStarted tenMicros true 2 0)
      oneFails).map (fun c => c.returned 2) = some (some (.main, .measured
        ⟨"naive-concurrent", "ecdsa", "demo-ec-p256", 2, 1, 14000, 4, 4, 4⟩)) := by
    decide +kernel
  obtain ⟨c, hrun, hr⟩ := Option.map_eq_some_iff.mp hfinal
  exact ⟨rfl, c, _, hrun, hr, rfl, (measured_counts hrun hr).1⟩

end HsmProxy.Baseline
