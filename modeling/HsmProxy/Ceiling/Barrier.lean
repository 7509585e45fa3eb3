import HsmProxy.Ceiling.RunPoint
import HsmProxy.Interleaving.Logs
import Mathlib.Algebra.BigOperators.Group.Finset.Basic
import Mathlib.Algebra.GroupWithZero.Nat
import Mathlib.Data.Finset.Card

/-!
# What passes the barrier of `run_point`

When `run_point` returns a number of signatures, it is the number of those that were made, none has
failed, and all were made behind the barrier: `point_counts`.  The barrier waits for every thread, also
for one that has failed before it.  So once a probe has found no session or no key, `run_point` never
returns, and does not report the error either: `point_hangs`.
-/

namespace HsmProxy.Ceiling

open Interleaving Interleaving.Prog

/-! ## What a thread has done -/

/-- What a thread has done: whether it has arrived at the barrier and has passed it, the signatures it
has made, whether one has failed, how it has ended, and what main was told by the threads it has
joined. -/
structure CeilingLog where
  arrived : Bool
  passed : Bool
  signed : ℕ
  failed : Bool
  exited : Option (Except AnyhowError ℕ)
  joined : List ℕ

namespace CeilingLog

/-- The log of a thread that has done nothing. -/
def empty : CeilingLog := ⟨false, false, 0, false, none, []⟩

/-- The log of a probe that has made `count` signatures and goes on. -/
def signing (count : ℕ) : CeilingLog := ⟨true, true, count, false, none, []⟩

/-- The log of main behind the barrier. -/
def joining (joined : List ℕ) : CeilingLog := ⟨true, true, 0, false, none, joined⟩

/-- One more event. -/
def note (g : CeilingLog) : Event CeilingOp.Ans → CeilingLog
  | ⟨.token (.sign _ _ _ _), .ok _⟩ => { g with signed := g.signed + 1 }
  | ⟨.token (.sign _ _ _ _), .error _⟩ => { g with failed := true }
  | ⟨.arrive, _⟩ => { g with arrived := true }
  | ⟨.pass, _⟩ => { g with passed := true }
  | ⟨.exit r, _⟩ => { g with exited := some r }
  | ⟨.join _, .ok n⟩ => { g with joined := g.joined ++ [n] }
  | _ => g

end CeilingLog

/-- A call of `C_Sign`. -/
def CeilingOp.signs : CeilingOp → Bool
  | .token (.sign _ _ _ _) => true
  | _ => false

/-- An arrival at the barrier. -/
def CeilingOp.arrives : CeilingOp → Bool
  | .arrive => true
  | _ => false

/-- A probe signs behind the barrier and returns what it has counted; main joins the threads in their
order. -/
def ceilingContract (role : Role) : Contract CeilingOp.Ans CeilingLog where
  init := .empty
  next g o a := g.note ⟨o, a⟩
  pre g o :=
    match role, o with
    | .main, .token _ => False
    | .main, .exit _ => False
    | .main, .join i => i = g.joined.length
    | .probe, .token (.sign _ _ _ _) => g.passed = true ∧ g.exited = none
    | .probe, .exit r => g.exited = none ∧ ∀ n, r = .ok n → n = g.signed ∧ g.failed = false
    | .probe, .join _ => False
    | _, .arrive => g = .empty
    | _, _ => True
  post _ _ _ := True

/-- What the parts of the programs end with. -/
def CeilingEnds (threads : ℕ) : Role → CeilingLog → Turn → Prop
  | .main, g, .measured total _ =>
    g.passed = true ∧ g.joined.length = threads ∧ g.joined.sum = total
  | .main, g, .failed _ => g.passed = true
  | .main, _, _ => False
  | .probe, g, .signing _ _ count => g = .signing count
  | .probe, _, _ => True

/-! ## The programs -/

/-- The calls that open and close sessions and look keys up. -/
def CeilingOp.prepares : CeilingOp → Bool
  | .token .openRwSession => true
  | .token (.login _) => true
  | .token (.closeSession _) => true
  | .token (.findObjects _ _ _) => true
  | _ => false

/-- The steps that prepare a probe leave no mark in its log. -/
lemma ceilingContract_prepares {g : CeilingLog} {o : CeilingOp} (ho : o.prepares) :
    (ceilingContract .probe).pre g o ∧ ∀ a, (ceilingContract .probe).next g o a = g := by
  cases o with
  | token o =>
    cases o with
    | openRwSession => exact ⟨True.intro, fun _ => rfl⟩
    | login session => exact ⟨True.intro, fun _ => rfl⟩
    | closeSession session => exact ⟨True.intro, fun _ => rfl⟩
    | findObjects session objectClass label => exact ⟨True.intro, fun _ => rfl⟩
    | _ => cases ho
  | _ => cases ho

/-- `login_session` makes only such calls. -/
lemma loginSession_only : loginSession.Only fun o => o.prepares :=
  loginSessionBy_only ⟨rfl, fun _ => only_ret _⟩ (fun _ => ⟨rfl, fun _ => only_ret _⟩)
    fun _ => ⟨rfl, fun _ => only_ret _⟩

section

variable {p : Point}

/-- Opening a session makes only steps that prepare a probe. -/
lemma openSession_only : (openSession p).Only fun o => o.prepares := by
  refine loginSession_only.bind fun r => ?_
  cases r with
  | ok session => exact True.intro
  | error e =>
    refine ⟨rfl, fun r => ?_⟩
    cases r with
    | ok session => exact True.intro
    | error e => exact True.intro

/-- And what finds the key. -/
lemma findKey_only (session : SessionHandle) : (findKey p session).Only fun o => o.prepares := by
  have hfind : (findObject p session).Only fun o => o.prepares :=
    findObjectBy_only ⟨rfl, fun _ => only_ret _⟩
  refine hfind.bind fun r => ?_
  cases r with
  | error e => exact only_ret _
  | ok found => cases found <;> exact only_ret _

/-- A probe up to its loop. -/
lemma probe_meets :
    (probe p).Meets (ceilingContract .probe) (CeilingEnds p.threads .probe) .empty := by
  unfold probe
  rw [meets_bind]
  refine openSession_only.meets (fun o ho => ceilingContract_prepares ho) fun r => ?_
  cases r with
  | error e => exact ⟨⟨rfl, fun n h => by cases h⟩, fun _ _ => True.intro⟩
  | ok session =>
    refine (meets_bind _ _).mpr ((findKey_only session).meets
      (fun o ho => ceilingContract_prepares ho) fun r => ?_)
    cases r with
    | error e =>
      exact ⟨True.intro, fun _ _ => ⟨⟨rfl, fun n h => by cases h⟩, fun _ _ => True.intro⟩⟩
    | ok key => exact ⟨rfl, fun _ _ => ⟨True.intro, fun _ _ => rfl⟩⟩

/-- One turn of its loop. -/
lemma signTurn_meets {g : CeilingLog} {session : SessionHandle} {key : ObjectHandle} {count : ℕ}
    (hg : CeilingEnds p.threads .probe g (.signing session key count)) :
    (signTurn p session key count).Meets (ceilingContract .probe)
      (CeilingEnds p.threads .probe) g := by
  obtain rfl : g = .signing count := hg
  refine ⟨True.intro, fun stop _ => ?_⟩
  cases stop with
  | true =>
    refine ⟨True.intro, fun _ _ => ⟨⟨rfl, fun n h => ?_⟩, fun _ _ => True.intro⟩⟩
    obtain rfl := Except.ok.inj h
    exact ⟨rfl, rfl⟩
  | false =>
    refine ⟨⟨rfl, rfl⟩, fun r _ => ?_⟩
    cases r with
    | error e =>
      exact ⟨True.intro, fun _ _ => ⟨⟨rfl, fun n h => by cases h⟩, fun _ _ => True.intro⟩⟩
    | ok signature => exact rfl

/-- The threads are joined in their order, and what they return is added up. -/
lemma joinAll_meets {Q : CeilingLog → Except AnyhowError ℕ → Prop} (n : ℕ) (joined : List ℕ)
    (hok : ∀ joined', joined'.length = joined.length + n → Q (.joining joined') (.ok joined'.sum))
    (herror : ∀ joined' e, Q (.joining joined') (.error e)) :
    (joinAll (List.range' joined.length n) joined.sum).Meets (ceilingContract .main) Q
      (.joining joined) := by
  induction n generalizing joined with
  | zero => exact hok joined rfl
  | succ n ih =>
    refine ⟨rfl, fun r _ => ?_⟩
    cases r with
    | error e => exact herror joined e
    | ok m =>
      have hrest := ih (joined ++ [m]) fun joined' hlength => hok joined' (by
        rw [hlength, List.length_append, List.length_singleton]
        omega)
      rw [List.length_append, List.length_singleton, List.sum_append, List.sum_singleton] at hrest
      exact hrest

/-- Main. -/
lemma runPoint_meets :
    (runPoint p).Meets (ceilingContract .main) (CeilingEnds p.threads .main) .empty := by
  refine ⟨rfl, fun _ _ => ⟨True.intro, fun _ _ => ⟨True.intro, fun started _ => ⟨True.intro,
    fun _ _ => ⟨True.intro, fun _ _ => ⟨True.intro, fun stopped _ => ?_⟩⟩⟩⟩⟩⟩
  refine (meets_bind (C := ceilingContract .main) (g := .joining [])
    (joinAll (List.range p.threads) 0) _).mpr ?_
  rw [List.range_eq_range']
  refine joinAll_meets p.threads [] (fun joined' hlength => ?_) fun joined' e => ?_
  · exact ⟨rfl, hlength.trans (Nat.zero_add _), rfl⟩
  · exact rfl

end

/-! ## The invariant -/

/-- The threads that have arrived at the barrier. -/
def gathered (threads : ℕ) (g : ℕ → CeilingLog) : Finset ℕ :=
  (Finset.range (threads + 1)).filter fun i => (g i).arrived

/-- The barrier, how the threads have ended, and what main was told. -/
structure Gathering (threads : ℕ) (s : CeilingState) (g : ℕ → CeilingLog) : Prop where
  arrived : s.arrived = (gathered threads g).card
  passed : ∀ i, (g i).passed = true → threads + 1 ≤ s.arrived
  results : ∀ i r, s.results i = some r → (g i).exited = some r
  /-- A probe that has ended well returns the number of its signatures. -/
  exact : ∀ i n, (g i).exited = some (.ok n) → n = (g i).signed ∧ (g i).failed = false
  joined : ∀ i n, (g threads).joined[i]? = some n → s.results i = some (.ok n)

namespace Gathering

section

variable {threads : ℕ} {s s' : CeilingState} {g : ℕ → CeilingLog} {i : ℕ} {x : CeilingLog}

/-- Who has arrived, where that did not change. -/
lemma arrived_update (h : Gathering threads s g) (hx : x.arrived = (g i).arrived) :
    s.arrived = (gathered threads (Function.update g i x)).card := by
  rw [h.arrived, gathered, gathered, filter_update_of_eq (p := CeilingLog.arrived) hx]

/-- Who has passed, where that did not change. -/
lemma passed_update (h : Gathering threads s g) (hx : x.passed = (g i).passed) (j : ℕ)
    (hj : (Function.update g i x j).passed = true) : threads + 1 ≤ s.arrived :=
  h.passed j (apply_update_of_eq (f := CeilingLog.passed) hx j ▸ hj)

/-- How the threads have ended, where that did not change. -/
lemma results_update (h : Gathering threads s g) (hx : x.exited = (g i).exited) (j : ℕ)
    (r : Except AnyhowError ℕ) (hj : s.results j = some r) :
    (Function.update g i x j).exited = some r :=
  (apply_update_of_eq (f := CeilingLog.exited) hx j).trans (h.results j r hj)

/-- What is said of the probes that have ended concerns one thread at a time. -/
lemma exact_update (h : Gathering threads s g)
    (hx : ∀ n, x.exited = some (.ok n) → n = x.signed ∧ x.failed = false) :
    ∀ j n, (Function.update g i x j).exited = some (.ok n) →
      n = (Function.update g i x j).signed ∧ (Function.update g i x j).failed = false :=
  forall_update (p := fun _ (y : CeilingLog) => ∀ n, y.exited = some (.ok n) →
    n = y.signed ∧ y.failed = false) h.exact hx

/-- What main was told, where that did not change. -/
lemma joined_update (h : Gathering threads s g) (hx : x.joined = (g i).joined) (j n : ℕ)
    (hj : (Function.update g i x threads).joined[j]? = some n) : s.results j = some (.ok n) :=
  h.joined j n (apply_update_of_eq (f := CeilingLog.joined) hx threads ▸ hj)

/-- A step that changes neither the barrier nor how threads have ended. -/
lemma frame (h : Gathering threads s g) (harrived : s'.arrived = s.arrived)
    (hresults : s'.results = s.results) (hx : x.arrived = (g i).arrived)
    (hpassed : x.passed = (g i).passed) (hexited : x.exited = (g i).exited)
    (hexact : ∀ n, x.exited = some (.ok n) → n = x.signed ∧ x.failed = false)
    (hjoined : x.joined = (g i).joined) : Gathering threads s' (Function.update g i x) := by
  refine ⟨?_, fun j hj => ?_, fun j r hj => ?_, h.exact_update hexact, fun j n hj => ?_⟩
  · rw [harrived]
    exact h.arrived_update hx
  · rw [harrived]
    exact h.passed_update hpassed j hj
  · rw [hresults] at hj
    exact h.results_update hexited j r hj
  · rw [hresults]
    exact h.joined_update hjoined j n hj

/-- A thread arrives. -/
lemma arrive (h : Gathering threads s g) (hi : i ≤ threads) (hempty : g i = .empty) :
    Gathering threads { s with arrived := s.arrived + 1 }
      (Function.update g i { g i with arrived := true }) := by
  refine ⟨?_, fun j hj => ?_, h.results_update rfl, h.exact_update (h.exact i), h.joined_update rfl⟩
  · have hnew : i ∉ gathered threads g := by
      intro hmem
      have harrived : (g i).arrived = true := (Finset.mem_filter.mp hmem).2
      rw [hempty] at harrived
      cases harrived
    rw [gathered, filter_update_insert (p := CeilingLog.arrived)
      (Finset.mem_range.mpr (Nat.lt_succ_of_le hi)) rfl]
    exact (congrArg (· + 1) h.arrived).trans (Finset.card_insert_of_notMem hnew).symm
  · exact Nat.le_succ_of_le (h.passed_update (x := { g i with arrived := true }) rfl j hj)

/-- A thread passes the barrier. -/
lemma pass (h : Gathering threads s g) (hall : threads + 1 ≤ s.arrived) :
    Gathering threads s (Function.update g i { g i with passed := true }) :=
  ⟨h.arrived_update rfl, fun _ _ => hall, h.results_update rfl, h.exact_update (h.exact i),
    h.joined_update rfl⟩

/-- A probe ends. -/
lemma exit (h : Gathering threads s g) (hexited : (g i).exited = none) {r : Except AnyhowError ℕ}
    (hr : ∀ n, r = .ok n → n = (g i).signed ∧ (g i).failed = false) :
    Gathering threads { s with results := Function.update s.results i (some r) }
      (Function.update g i { g i with exited := some r }) := by
  refine ⟨h.arrived_update rfl, h.passed_update rfl, fun j r' hj => ?_,
    h.exact_update fun n hn => hr n (Option.some.inj hn), fun j n hj => ?_⟩
  · have hj : Function.update s.results i (some r) j = some r' := hj
    by_cases hij : j = i
    · rw [hij, Function.update_self] at hj ⊢
      exact hj
    · rw [Function.update_of_ne hij] at hj ⊢
      exact h.results j r' hj
  · show Function.update s.results i (some r) j = some (.ok n)
    have hold : s.results j = some (.ok n) :=
      h.joined_update (x := { g i with exited := some r }) rfl j n hj
    have hij : j ≠ i := by
      rintro rfl
      have hsome := h.results j _ hold
      rw [hexited] at hsome
      cases hsome
    rw [Function.update_of_ne hij]
    exact hold

/-- Main joins the next thread. -/
lemma join (h : Gathering threads s g) {n : ℕ}
    (hresult : s.results (g threads).joined.length = some (.ok n)) :
    Gathering threads s
      (Function.update g threads { g threads with joined := (g threads).joined ++ [n] }) := by
  refine ⟨h.arrived_update rfl, h.passed_update rfl, h.results_update rfl,
    h.exact_update (h.exact threads), fun j m hj => ?_⟩
  rw [Function.update_self] at hj
  have hj : ((g threads).joined ++ [n])[j]? = some m := hj
  rcases Nat.lt_trichotomy j (g threads).joined.length with hlt | heq | hgt
  · rw [List.getElem?_append_left hlt] at hj
    exact h.joined j m hj
  · rw [heq, List.getElem?_concat_length] at hj
    obtain rfl := Option.some.inj hj
    rw [heq]
    exact hresult
  · rw [List.getElem?_eq_none (by
      rw [List.length_append, List.length_singleton]
      omega)] at hj
    cases hj

/-- What main does. -/
lemma exec_main (h : Gathering threads s g) {answer : (o : TokenOp) → o.Ans} {o : CeilingOp}
    {a : o.Ans} (hpre : (ceilingContract .main).pre (g threads) o)
    (he : execCeiling threads answer threads s o = some (a, s')) :
    Gathering threads s' (Function.update g threads ((g threads).note ⟨o, a⟩)) := by
  cases o with
  | token o => exact absurd hpre id
  | exit r => exact absurd hpre id
  | arrive =>
    obtain ⟨-, rfl⟩ := Prod.mk.inj (Option.some.inj he)
    exact h.arrive (Nat.le_refl threads) hpre
  | pass =>
    simp only [execCeiling] at he
    split at he
    · rename_i hall
      obtain ⟨-, rfl⟩ := Prod.mk.inj (Option.some.inj he)
      exact h.pass hall
    · cases he
  | sleep wake =>
    simp only [execCeiling] at he
    split at he
    · obtain ⟨-, rfl⟩ := Prod.mk.inj (Option.some.inj he)
      exact h.frame rfl rfl rfl rfl rfl (h.exact threads) rfl
    · cases he
  | join i =>
    obtain ⟨r, hr, heq⟩ := Option.map_eq_some_iff.mp he
    obtain ⟨rfl, rfl⟩ := Prod.mk.inj heq
    obtain rfl : i = (g threads).joined.length := hpre
    cases r with
    | error e => exact h.frame rfl rfl rfl rfl rfl (h.exact threads) rfl
    | ok n => exact h.join hr
  | _ =>
    obtain ⟨-, rfl⟩ := Prod.mk.inj (Option.some.inj he)
    exact h.frame rfl rfl rfl rfl rfl (h.exact threads) rfl

/-- What a probe does. -/
lemma exec_probe (h : Gathering threads s g) (hi : i < threads) {answer : (o : TokenOp) → o.Ans}
    {o : CeilingOp} {a : o.Ans} (hpre : (ceilingContract .probe).pre (g i) o)
    (he : execCeiling threads answer i s o = some (a, s')) :
    Gathering threads s' (Function.update g i ((g i).note ⟨o, a⟩)) := by
  cases o with
  | token o =>
    obtain ⟨-, rfl⟩ := Prod.mk.inj (Option.some.inj he)
    cases o with
    | sign session mechanism key data =>
      have hrunning : ∀ n, (g i).exited ≠ some (.ok n) := by
        intro n hn
        rw [hpre.2] at hn
        cases hn
      cases a with
      | error e => exact h.frame rfl rfl rfl rfl rfl (fun n hn => absurd hn (hrunning n)) rfl
      | ok signature => exact h.frame rfl rfl rfl rfl rfl (fun n hn => absurd hn (hrunning n)) rfl
    | _ => exact h.frame rfl rfl rfl rfl rfl (h.exact i) rfl
  | exit r =>
    obtain ⟨-, rfl⟩ := Prod.mk.inj (Option.some.inj he)
    exact h.exit hpre.1 hpre.2
  | arrive =>
    obtain ⟨-, rfl⟩ := Prod.mk.inj (Option.some.inj he)
    exact h.arrive (Nat.le_of_lt hi) hpre
  | pass =>
    simp only [execCeiling] at he
    split at he
    · rename_i hall
      obtain ⟨-, rfl⟩ := Prod.mk.inj (Option.some.inj he)
      exact h.pass hall
    · cases he
  | sleep wake =>
    simp only [execCeiling] at he
    split at he
    · obtain ⟨-, rfl⟩ := Prod.mk.inj (Option.some.inj he)
      exact h.frame rfl rfl rfl rfl rfl (h.exact i) rfl
    · cases he
  | join j => exact absurd hpre id
  | _ =>
    obtain ⟨-, rfl⟩ := Prod.mk.inj (Option.some.inj he)
    exact h.frame rfl rfl rfl rfl rfl (h.exact i) rfl

end

end Gathering

/-! ## Every run -/

/-- The probes are the threads below `threads`, and main is thread `threads`. -/
def placeOf (threads i : ℕ) : Role → Prop
  | .main => i = threads
  | .probe => i < threads

/-- The barrier by a trace, and that every signature of it was made behind the barrier. -/
structure BarrierInv (threads : ℕ) (s : CeilingState)
    (tr : List (Entry CeilingOp.Ans CeilingState Role)) : Prop where
  gathering : Gathering threads s (logs CeilingLog.note .empty tr)
  behind : ∀ en ∈ tr, en.event.1.signs = true → threads + 1 ≤ en.before.arrived

section

variable {p : Point} {t₀ : ℕ} {as : List (Action ((o : TokenOp) → o.Ans) ℕ Role)}
  {c c' : Config CeilingOp.Ans CeilingState Role Turn}

/-- The threads at the start. -/
lemma pointStarted_thread {i : ℕ} {t : Thread CeilingOp.Ans Role Turn}
    (ht : (pointStarted p t₀).threads i = some t) :
    (i < p.threads ∧ t = ⟨.probe, [], probe p⟩) ∨ (i = p.threads ∧ t = ⟨.main, [], runPoint p⟩) :=
  eq_of_crew ht

/-- A signature is made behind the barrier. -/
lemma behind_of_pre {l : Role} {s : CeilingState} {g : ℕ → CeilingLog} {i : ℕ} {o : CeilingOp}
    (h : Gathering p.threads s g) (hpre : (ceilingContract l).pre (g i) o) (ho : o.signs = true) :
    p.threads + 1 ≤ s.arrived := by
  cases o with
  | token o =>
    cases l with
    | main => exact absurd hpre id
    | probe =>
      cases o with
      | sign session mechanism key data => exact h.passed i hpre.1
      | _ => cases ho
  | _ => cases ho

/-- The obligations of the shared-invariant method. -/
lemma gathering_sound : System.Sound (ceiling p) (fun c _ => System.Placed (placeOf p.threads) c)
    ceilingContract (CeilingEnds p.threads) (BarrierInv p.threads) where
  body _ h := by cases h
  again l g r q hr hq := by
    cases l with
    | main => cases r <;> cases hq
    | probe =>
      cases r with
      | signing session key count =>
        obtain rfl := Option.some.inj hq
        exact signTurn_meets hr
      | _ => cases hq
  exec c i answer l o k a s' hc hplaced ht hpre he := by
    have hplace : placeOf p.threads i l := hplaced i _ ht
    refine ⟨True.intro, ?_, fun en hen hsigns => ?_⟩
    · rw [logs_snoc]
      cases l with
      | main =>
        obtain rfl : i = p.threads := hplace
        exact hc.inv.gathering.exec_main hpre he
      | probe => exact hc.inv.gathering.exec_probe hplace hpre he
    · exact forall_mem_snoc hc.inv.behind (behind_of_pre hc.inv.gathering hpre) en hen hsigns
  cancel _ _ _ _ _ _ _ _ hd := by cases hd
  env c d s' hc _ hd := by
    obtain rfl := Option.some.inj hd
    obtain ⟨⟨h₁, h₂, h₃, h₄, h₅⟩, hsigns⟩ := hc.inv
    exact ⟨⟨h₁, h₂, h₃, h₄, h₅⟩, hsigns⟩

/-- Nothing has been done at the start. -/
lemma outline_pointStarted : System.Outline ceilingContract (CeilingEnds p.threads)
    (BarrierInv p.threads) (pointStarted p t₀) := by
  refine ⟨System.Recorded.start (fun i hi => ?_) (fun i t ht => ?_) rfl, ⟨⟨?_, ?_, ?_, ?_, ?_⟩, ?_⟩,
    fun i t ht => ?_⟩
  · exact crew_eq_none hi
  · rcases pointStarted_thread ht with ⟨-, rfl⟩ | ⟨-, rfl⟩ <;> rfl
  · have hnone : gathered p.threads (fun _ => .empty) = ∅ :=
      Finset.filter_false_of_mem fun j _ h => by cases h
    exact (congrArg Finset.card hnone).symm
  · exact fun i h => by cases h
  · exact fun i r h => by cases h
  · exact fun i n h => by cases h
  · exact fun i n h => by cases h
  · exact fun en hen => absurd hen List.not_mem_nil
  · rcases pointStarted_thread ht with ⟨-, rfl⟩ | ⟨-, rfl⟩
    · exact probe_meets
    · exact runPoint_meets

/-- The threads are in their places. -/
lemma placed_pointStarted : System.Placed (placeOf p.threads) (pointStarted p t₀) := by
  intro i t ht
  rcases pointStarted_thread ht with ⟨hi, rfl⟩ | ⟨hi, rfl⟩ <;> exact hi

/-- After every run the barrier has counted right and the threads keep to their contracts. -/
lemma gathering_run (hrun : (ceiling p).run (pointStarted p t₀) as = some c) :
    System.Outline ceilingContract (CeilingEnds p.threads) (BarrierInv p.threads) c :=
  gathering_sound.run outline_pointStarted
    (System.throughout_invariant (fun _ _ _ hc h => hc.step (fun _ => rfl) h)
      placed_pointStarted) hrun

/-- When main has returned, every thread has arrived at the barrier. -/
lemma all_arrived (hrun : (ceiling p).run (pointStarted p t₀) as = some c) {l : Role} {r : Turn}
    (hr : c.returned p.threads = some (l, r)) : p.threads + 1 ≤ c.shared.arrived := by
  have hc := gathering_run hrun
  have hplaced : System.Placed (placeOf p.threads) c :=
    System.run_invariant (P := fun _ _ => True) (fun _ _ _ hd _ h => hd.step (fun _ => rfl) h)
      placed_pointStarted (System.throughout_true _ as) hrun
  obtain ⟨hist, ht⟩ := System.exists_returned hr
  obtain rfl := hc.recorded.hist p.threads _ ht
  have hends := hc.threads p.threads _ ht
  refine hc.inv.gathering.passed p.threads ?_
  cases l with
  | probe => exact absurd (hplaced p.threads _ ht) (Nat.lt_irrefl p.threads)
  | main =>
    cases r with
    | measured total elapsed => exact hends.1
    | failed e => exact hends
    | signing session key count => exact absurd hends id
    | ended => exact absurd hends id

/-- A signature. -/
def signatureMade : Event CeilingOp.Ans → Bool
  | ⟨.token (.sign _ _ _ _), .ok _⟩ => true
  | _ => false

/-- A call of `C_Sign` that has failed. -/
def signatureFailed : Event CeilingOp.Ans → Bool
  | ⟨.token (.sign _ _ _ _), .error _⟩ => true
  | _ => false

/-- A signature is noted. -/
lemma signed_note (g : CeilingLog) (ev : Event CeilingOp.Ans) :
    (g.note ev).signed = g.signed + if signatureMade ev then 1 else 0 := by
  obtain ⟨o, a⟩ := ev
  cases o with
  | token o =>
    cases o with
    | sign session mechanism key data => cases a <;> rfl
    | _ => rfl
  | join i => cases a <;> rfl
  | _ => rfl

/-- A failure is noted. -/
lemma failed_note (g : CeilingLog) (ev : Event CeilingOp.Ans) :
    (g.note ev).failed = (g.failed || signatureFailed ev) := by
  obtain ⟨o, a⟩ := ev
  cases o with
  | token o =>
    cases o with
    | sign session mechanism key data =>
      cases a with
      | error e => exact (Bool.or_true _).symm
      | ok signature => exact (Bool.or_false _).symm
    | _ => exact (Bool.or_false _).symm
  | join i => cases a <;> exact (Bool.or_false _).symm
  | _ => exact (Bool.or_false _).symm

/-- An arrival is noted. -/
lemma arrived_note (g : CeilingLog) (ev : Event CeilingOp.Ans) :
    (g.note ev).arrived = (g.arrived || ev.1.arrives) := by
  obtain ⟨o, a⟩ := ev
  cases o with
  | arrive => exact (Bool.or_true _).symm
  | token o =>
    cases o with
    | sign session mechanism key data => cases a <;> exact (Bool.or_false _).symm
    | _ => exact (Bool.or_false _).symm
  | join i => cases a <;> exact (Bool.or_false _).symm
  | _ => exact (Bool.or_false _).symm

/-- A thread without an arrival has not arrived. -/
lemma not_arrived {h : List (Event CeilingOp.Ans)} (hnever : ∀ ev ∈ h, ev.1.arrives = false) :
    (h.foldl CeilingLog.note .empty).arrived = false := by
  rw [foldl_eq_any (f := CeilingLog.arrived) rfl arrived_note, List.any_eq_false]
  exact fun ev hev => Bool.eq_false_iff.mp (hnever ev hev)

/-- What `run_point` returns, in every run: the total is the number of signatures the probes have
made, none has failed, and all were made when every thread was at the barrier. -/
theorem point_counts (hrun : (ceiling p).run (pointStarted p t₀) as = some c) {total elapsed : ℕ}
    (hr : c.returned p.threads = some (.main, .measured total elapsed)) :
    total = ∑ i ∈ Finset.range p.threads, (histOf c.trace i).countP signatureMade ∧
      (∀ i < p.threads, (histOf c.trace i).any signatureFailed = false) ∧
      ∀ en ∈ c.trace, en.event.1.signs = true → p.threads + 1 ≤ en.before.arrived := by
  have hc := gathering_run hrun
  obtain ⟨hist, ht⟩ := System.exists_returned hr
  obtain rfl := hc.recorded.hist p.threads _ ht
  obtain ⟨-, hlength, htotal⟩ := hc.threads p.threads _ ht
  set g := logs CeilingLog.note .empty c.trace with hg
  have hlength : (g p.threads).joined.length = p.threads := hlength
  have htotal : (g p.threads).joined.sum = total := htotal
  have hjoined : ∀ i < p.threads, ∃ n, (g p.threads).joined[i]? = some n ∧ n = (g i).signed ∧
      (g i).failed = false := by
    intro i hi
    have hget := List.getElem?_eq_getElem (hlength.symm ▸ hi)
    exact ⟨_, hget, hc.inv.gathering.exact i _
      (hc.inv.gathering.results i _ (hc.inv.gathering.joined i _ hget))⟩
  refine ⟨?_, fun i hi => ?_, hc.inv.behind⟩
  · have hlist : (g p.threads).joined =
        (List.range p.threads).map fun i => (histOf c.trace i).countP signatureMade := by
      refine List.ext_getElem? fun i => ?_
      by_cases hi : i < p.threads
      · obtain ⟨n, hget, hn, -⟩ := hjoined i hi
        rw [hget, hn, List.getElem?_map, List.getElem?_range hi]
        exact congrArg some (foldl_eq_countP (f := CeilingLog.signed) rfl signed_note _)
      · rw [List.getElem?_eq_none (by omega), List.getElem?_eq_none (by
          rw [List.length_map, List.length_range]
          omega)]
    rw [← htotal, hlist]
    rfl
  · obtain ⟨n, -, -, hfailed⟩ := hjoined i hi
    exact (foldl_eq_any (f := CeilingLog.failed) rfl failed_note _).symm.trans hfailed

/-- A probe that ends before the barrier stops `run_point` for good: once it has ended without having
arrived, main returns in no continuation of the run, whatever the others and the token do. -/
theorem point_hangs (hrun : (ceiling p).run (pointStarted p t₀) as = some c) {i : ℕ}
    (hi : i < p.threads) (hended : c.returned i = some (.probe, .ended))
    (hnever : ∀ ev ∈ histOf c.trace i, ev.1.arrives = false)
    {bs : List (Action ((o : TokenOp) → o.Ans) ℕ Role)} (hrest : (ceiling p).run c bs = some c') :
    c'.returned p.threads = none := by
  obtain ⟨hist, ht⟩ := System.exists_returned hended
  have hhist : hist = histOf c.trace i := (gathering_run hrun).recorded.hist i _ ht
  have hlater : c'.threads i = some ⟨.probe, hist, .ret .ended⟩ :=
    System.run_invariant (P := fun _ _ => True)
      (I := fun d => d.threads i = some ⟨.probe, hist, .ret .ended⟩)
      (fun _ _ _ hd _ hstep => System.ended_step (fun _ => rfl) rfl hd hstep) ht
      (System.throughout_true c bs) hrest
  have hrun' : (ceiling p).run (pointStarted p t₀) (as ++ bs) = some c' := by
    rw [System.run_append, hrun]
    exact hrest
  have hc' := gathering_run hrun'
  have hmissing : i ∉ gathered p.threads (logs CeilingLog.note .empty c'.trace) := by
    intro hmem
    have harrived : (logs CeilingLog.note .empty c'.trace i).arrived = true :=
      (Finset.mem_filter.mp hmem).2
    rw [logs, ← hc'.recorded.hist i _ hlater, hhist, not_arrived hnever] at harrived
    cases harrived
  have hfew : c'.shared.arrived < p.threads + 1 := by
    rw [hc'.inv.gathering.arrived, ← Finset.card_range (p.threads + 1)]
    refine Finset.card_lt_card ⟨Finset.filter_subset _ _, fun hsub => hmissing (hsub ?_)⟩
    exact Finset.mem_range.mpr (Nat.lt_succ_of_lt hi)
  cases hr : c'.returned p.threads with
  | none => rfl
  | some lr => exact absurd (all_arrived hrun' hr) (Nat.not_le_of_lt hfew)

end

/-- The answers of a token that has the key and signs. -/
def signingToken : (o : TokenOp) → o.Ans
  | .openRwSession => .ok 7
  | .login _ => .ok ()
  | .logout _ => .ok ()
  | .closeSession _ => ()
  | .findObjects _ _ _ => .ok [5]
  | .getAttributes _ _ _ => .ok []
  | .sign _ _ _ _ => .ok []
  | .verify _ _ _ _ _ => .ok ()
  | .encrypt _ _ _ _ => .ok []
  | .decrypt _ _ _ _ => .ok []

/-- The answers of a token without the key. -/
def emptyToken : (o : TokenOp) → o.Ans
  | .findObjects _ _ _ => .ok []
  | o => signingToken o

/-- One probe and no time to wait. -/
def onePoint : Point := ⟨"demo-ec-p256", 1, 0, [], fun _ => ""⟩

/-- Steps of one thread. -/
def steps (i n : ℕ) (answer : (o : TokenOp) → o.Ans) :
    List (Action ((o : TokenOp) → o.Ans) ℕ Role) := List.replicate n (.exec i answer)

/-- The probe signs twice, is told to stop, and is joined. -/
def twoSigned : List (Action ((o : TokenOp) → o.Ans) ℕ Role) :=
  steps 0 4 signingToken ++ steps 1 4 signingToken ++ steps 0 1 signingToken ++
    [.again 0] ++ steps 0 2 signingToken ++ [.again 0] ++ steps 0 2 signingToken ++
    steps 1 2 signingToken ++ [.again 0] ++ steps 0 3 signingToken ++ steps 1 1 signingToken

/-- Two signatures are counted. -/
theorem point_counts_two :
    ∃ c, (ceiling onePoint).run (pointStarted onePoint 0) twoSigned = some c ∧
      c.returned 1 = some (.main, .measured 2 0) ∧
      2 = ∑ i ∈ Finset.range 1, (histOf c.trace i).countP signatureMade := by
  have hfinal : ((ceiling onePoint).run (pointStarted onePoint 0) twoSigned).map
      (fun c => c.returned 1) = some (some (.main, .measured 2 0)) := by
    decide +kernel
  obtain ⟨c, hrun, hr⟩ := Option.map_eq_some_iff.mp hfinal
  exact ⟨c, hrun, hr, (point_counts hrun hr).1⟩

/-- The probe finds no key and ends; main is at the barrier. -/
def keyMissing : List (Action ((o : TokenOp) → o.Ans) ℕ Role) :=
  steps 1 1 signingToken ++ steps 0 5 emptyToken

/-- Main does not return any more. -/
theorem point_hangs_without_key :
    ∃ c, (ceiling onePoint).run (pointStarted onePoint 0) keyMissing = some c ∧
      ∀ bs c', (ceiling onePoint).run c bs = some c' → c'.returned 1 = none := by
  have hfinal : ((ceiling onePoint).run (pointStarted onePoint 0) keyMissing).map
      (fun c => (c.returned 0, (histOf c.trace 0).any fun ev => ev.1.arrives)) =
        some (some (.probe, .ended), false) := by
    decide +kernel
  obtain ⟨c, hrun, hr⟩ := Option.map_eq_some_iff.mp hfinal
  obtain ⟨hended, hnone⟩ := Prod.mk.inj hr
  refine ⟨c, hrun, fun bs c' hrest => point_hangs hrun Nat.one_pos hended (fun ev hev => ?_) hrest⟩
  exact Bool.eq_false_of_not_eq_true (List.any_eq_false.mp hnone ev hev)

end HsmProxy.Ceiling
