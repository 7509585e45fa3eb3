import HsmProxy.Baseline.Counts

/-!
# Signatures on one session do not mix

A signature is two calls, `C_SignInit` and `C_Sign`, and between them the session has an active
operation.  In every run of the baseline, with a shared session or with one for each goroutine, an
operation is started only on a session that has none, and ended only by who has started it, and no
session is closed under an operation: `signs_apart`.  So nobody signs with what somebody else has set
up, and the baseline measures what it means to measure.
-/

namespace HsmProxy.Baseline

open Interleaving Interleaving.Prog

/-- A session is ready for a call: it has no active operation, or has that of the caller. -/
def Ready (s : BenchState) (i : ℕ) : BenchOp → Prop
  | .signInit session _ _ => s.active session = none
  | .sign session _ => s.active session = some i
  | .closeSession session => s.active session = none
  | _ => True

/-! ## The invariant -/

/-- The mutex, the active operations and what the threads have done. -/
structure Turns (shared : Bool) (count : ℕ) (s : BenchState) (g : ℕ → BenchLog) : Prop where
  lock : ∀ i, (g i).locked = true ↔ s.lock = some i
  active : ∀ i session, (g i).mid = some session ↔ s.active session = some i
  worker : ∀ i w, (g i).worker = some w → ∃ workers, s.launched = some workers ∧ workers[i]? = some w
  /-- Once the goroutines are started, main does not sign. -/
  apart : ∀ workers, s.launched = some workers →
    Apart shared workers ∧ workers.length = count ∧ (g count).mid = none
  /-- A goroutine signs on the session it has captured, behind the mutex if that is shared. -/
  own : ∀ i, i ≠ count → ∀ session, (g i).mid = some session →
    (g i).worker.map Worker.session = some session ∧ (shared = true → (g i).locked = true) ∧
      (g i).finished = false

namespace Turns

section

variable {shared : Bool} {count : ℕ} {s s' : BenchState} {g : ℕ → BenchLog} {i : ℕ} {x : BenchLog}

/-- Two goroutines that may sign on one session are one. -/
lemma same (h : Turns shared count s g) {i j : ℕ} {session : SessionHandle}
    (hi : (g i).worker.map Worker.session = some session)
    (hj : (g j).worker.map Worker.session = some session)
    (hilocked : shared = true → (g i).locked = true)
    (hjlocked : shared = true → (g j).locked = true) : i = j := by
  cases shared with
  | true =>
    have hlock := (h.lock i).mp (hilocked rfl)
    rw [(h.lock j).mp (hjlocked rfl)] at hlock
    exact (Option.some.inj hlock).symm
  | false =>
    obtain ⟨w, hw, hsession⟩ := Option.map_eq_some_iff.mp hi
    obtain ⟨w', hw', hsession'⟩ := Option.map_eq_some_iff.mp hj
    obtain ⟨workers, hlaunched, hat⟩ := h.worker i w hw
    obtain ⟨workers', hlaunched', hat'⟩ := h.worker j w' hw'
    rw [hlaunched] at hlaunched'
    obtain rfl := Option.some.inj hlaunched'
    have hnodup := (h.apart workers hlaunched).1 rfl
    have hlt : i < (workers.map Worker.session).length := by
      rw [List.length_map]
      exact (List.getElem?_eq_some_iff.mp hat).1
    refine (List.getElem?_inj hlt hnodup).mp ?_
    rw [List.getElem?_map, List.getElem?_map, hat, hat', Option.map_some, Option.map_some, hsession,
      hsession']

/-- The goroutines are started before one of them is in the middle of a signature. -/
lemma launched_of_mid (h : Turns shared count s g) {j : ℕ} (hj : j ≠ count) {session : SessionHandle}
    (hmid : (g j).mid = some session) :
    ∃ workers, s.launched = some workers ∧ j < workers.length := by
  obtain ⟨w, hw, -⟩ := Option.map_eq_some_iff.mp (h.own j hj session hmid).1
  obtain ⟨workers, hlaunched, hat⟩ := h.worker j w hw
  exact ⟨workers, hlaunched, (List.getElem?_eq_some_iff.mp hat).1⟩

/-- Nobody is in the middle of a signature on a session that no thread has active. -/
lemma active_none (h : Turns shared count s g) {session : SessionHandle}
    (hnone : ∀ j, (g j).mid ≠ some session) : s.active session = none := by
  cases hactive : s.active session with
  | none => rfl
  | some j => exact absurd ((h.active j session).mpr hactive) (hnone j)

/-- Main calls on a session only when it is ready for the call. -/
lemma ready_main (h : Turns shared count s g) (hc : Counted count s g) {o : BenchOp}
    (hpre : (benchContract shared count .main).pre (g count) o) : Ready s count o := by
  cases o with
  | signInit session mechanism key =>
    refine h.active_none fun j hmid => ?_
    by_cases hj : j = count
    · rw [hj, hpre.1] at hmid
      cases hmid
    · obtain ⟨workers, hlaunched, -⟩ := h.launched_of_mid hj hmid
      rw [hc.launched, hpre.2] at hlaunched
      cases hlaunched
  | sign session data => exact (h.active count session).mp hpre
  | closeSession session =>
    refine h.active_none fun j hmid => ?_
    by_cases hj : j = count
    · rw [hj, hpre.1] at hmid
      cases hmid
    · -- main has waited, so that the goroutine has ended
      obtain ⟨workers, hlaunched, hlt⟩ := h.launched_of_mid hj hmid
      obtain ⟨r, hr⟩ := Option.isSome_iff_exists.mp
        (hpre.2 (Option.isSome_iff_exists.mpr ⟨workers, hc.launched.symm.trans hlaunched⟩))
      have hended := (hc.waited r hr).2 j ((h.apart workers hlaunched).2.1 ▸ hlt)
      rw [(h.own j hj session hmid).2.2] at hended
      cases hended
  | _ => exact True.intro

/-- A goroutine calls on a session only when it is ready for the call. -/
lemma ready_goroutine (h : Turns shared count s g) {o : BenchOp}
    (hpre : (benchContract shared count .goroutine).pre (g i) o) : Ready s i o := by
  cases o with
  | signInit session mechanism key =>
    obtain ⟨hmid, -, hworker, hlocked⟩ := hpre
    refine h.active_none fun j hj => ?_
    by_cases hmain : j = count
    · obtain ⟨w, hw, -⟩ := Option.map_eq_some_iff.mp hworker
      obtain ⟨workers, hlaunched, -⟩ := h.worker i w hw
      rw [hmain, (h.apart workers hlaunched).2.2] at hj
      cases hj
    · obtain ⟨hother, hotherLocked, -⟩ := h.own j hmain session hj
      rw [← h.same hworker hother hlocked hotherLocked, hmid] at hj
      cases hj
  | sign session data => exact (h.active i session).mp hpre.1
  | closeSession session => exact absurd hpre id
  | _ => exact True.intro

/-! ## The steps -/

/-- Who has the mutex, where that did not change. -/
lemma lock_update (h : Turns shared count s g) (hx : x.locked = (g i).locked) (j : ℕ) :
    (Function.update g i x j).locked = true ↔ s.lock = some j := by
  rw [apply_update_of_eq (f := BenchLog.locked) hx]
  exact h.lock j

/-- Who has an operation active, where that did not change. -/
lemma active_update (h : Turns shared count s g) (hx : x.mid = (g i).mid) (j : ℕ)
    (session : SessionHandle) :
    (Function.update g i x j).mid = some session ↔ s.active session = some j := by
  rw [apply_update_of_eq (f := BenchLog.mid) hx]
  exact h.active j session

/-- What the goroutines have captured, where that did not change. -/
lemma worker_update (h : Turns shared count s g) (hx : x.worker = (g i).worker) (j : ℕ) (w : Worker)
    (hw : (Function.update g i x j).worker = some w) :
    ∃ workers, s.launched = some workers ∧ workers[j]? = some w := by
  rw [apply_update_of_eq (f := BenchLog.worker) hx] at hw
  exact h.worker j w hw

/-- That main does not sign concerns main. -/
lemma apart_update (h : Turns shared count s g)
    (hx : i = count → s.launched.isSome → (g count).mid = none → x.mid = none)
    (workers : List Worker) (hsome : s.launched = some workers) :
    Apart shared workers ∧ workers.length = count ∧ (Function.update g i x count).mid = none := by
  obtain ⟨hapart, hlength, hmid⟩ := h.apart workers hsome
  refine ⟨hapart, hlength, ?_⟩
  by_cases hi : count = i
  · rw [hi, Function.update_self]
    exact hx hi.symm (Option.isSome_iff_exists.mpr ⟨workers, hsome⟩) hmid
  · rw [Function.update_of_ne hi]
    exact hmid

/-- Where a goroutine signs concerns one thread at a time. -/
lemma own_update (h : Turns shared count s g)
    (hx : i ≠ count → ∀ session, x.mid = some session →
      x.worker.map Worker.session = some session ∧ (shared = true → x.locked = true) ∧
        x.finished = false) (j : ℕ) (hj : j ≠ count) (session : SessionHandle)
    (hmid : (Function.update g i x j).mid = some session) :
    (Function.update g i x j).worker.map Worker.session = some session ∧
      (shared = true → (Function.update g i x j).locked = true) ∧
      (Function.update g i x j).finished = false := by
  by_cases hij : j = i
  · subst hij
    rw [Function.update_self] at hmid ⊢
    exact hx hj session hmid
  · rw [Function.update_of_ne hij] at hmid ⊢
    exact h.own j hj session hmid

/-- A thread that is not in the middle of a signature signs nowhere. -/
lemma own_of_mid_none (hmid : x.mid = none) : i ≠ count → ∀ session, x.mid = some session →
    x.worker.map Worker.session = some session ∧ (shared = true → x.locked = true) ∧
      x.finished = false := by
  intro _ session hsome
  rw [hmid] at hsome
  cases hsome

/-- A step that neither changes the mutex and the operations nor what is said of them. -/
lemma frame (h : Turns shared count s g) (hlock : s'.lock = s.lock) (hactive : s'.active = s.active)
    (hlaunched : s'.launched = s.launched) (hlocked : x.locked = (g i).locked)
    (hmid : x.mid = (g i).mid) (hworker : x.worker = (g i).worker)
    (hfinished : x.finished = (g i).finished ∨ x.mid = none) :
    Turns shared count s' (Function.update g i x) := by
  refine ⟨fun j => ?_, fun j session => ?_, fun j w hw => ?_, fun workers hsome => ?_,
    h.own_update fun hi session hsome => ?_⟩
  · rw [hlock]
    exact h.lock_update hlocked j
  · rw [hactive]
    exact h.active_update hmid j session
  · rw [hlaunched]
    exact h.worker_update hworker j w hw
  · rw [hlaunched] at hsome
    refine h.apart_update (fun hi _ hnone => ?_) workers hsome
    rw [hmid, hi]
    exact hnone
  · obtain ⟨hown, hguard, hgoes⟩ := h.own i hi session (hmid.symm.trans hsome)
    rw [hworker, hlocked]
    refine ⟨hown, hguard, ?_⟩
    rcases hfinished with hsame | hnone
    · exact hsame.trans hgoes
    · rw [hnone] at hsome
      cases hsome

/-- A signature is begun. -/
lemma activate (h : Turns shared count s g) {session : SessionHandle}
    (hfree : s.active session = none) (hmid : (g i).mid = none)
    (hmain : i = count → s.launched = none)
    (hown : i ≠ count → (g i).worker.map Worker.session = some session ∧
      (shared = true → (g i).locked = true) ∧ (g i).finished = false) :
    Turns shared count { s with active := Function.update s.active session (some i) }
      (Function.update g i { g i with mid := some session }) := by
  refine ⟨h.lock_update rfl, fun j k => ?_, h.worker_update rfl, h.apart_update fun hi hsome _ => ?_,
    h.own_update fun hi k hk => ?_⟩
  · show _ ↔ Function.update s.active session (some i) k = some j
    by_cases hij : j = i
    · rw [hij, Function.update_self]
      by_cases hk : k = session
      · rw [hk, Function.update_self]
        exact iff_of_true rfl rfl
      · rw [Function.update_of_ne hk, ← h.active i k, hmid]
        exact iff_of_false (fun heq => hk (Option.some.inj heq).symm) (fun heq => by cases heq)
    · rw [Function.update_of_ne hij, h.active j k]
      by_cases hk : k = session
      · rw [hk, Function.update_self, hfree]
        exact iff_of_false (fun heq => by cases heq) fun heq => hij (Option.some.inj heq).symm
      · rw [Function.update_of_ne hk]
  · rw [hmain hi] at hsome
    cases hsome
  · obtain rfl := Option.some.inj hk
    exact hown hi

/-- A signature is ended. -/
lemma deactivate (h : Turns shared count s g) {session : SessionHandle}
    (hmid : (g i).mid = some session) (hnone : x.mid = none) (hlocked : x.locked = (g i).locked)
    (hworker : x.worker = (g i).worker) :
    Turns shared count { s with active := Function.update s.active session none }
      (Function.update g i x) := by
  have hactive : s.active session = some i := (h.active i session).mp hmid
  refine ⟨h.lock_update hlocked, fun j k => ?_, h.worker_update hworker,
    h.apart_update fun _ _ _ => hnone, h.own_update (own_of_mid_none hnone)⟩
  show _ ↔ Function.update s.active session none k = some j
  by_cases hij : j = i
  · rw [hij, Function.update_self, hnone]
    refine iff_of_false (fun heq => by cases heq) fun heq => ?_
    by_cases hk : k = session
    · rw [hk, Function.update_self] at heq
      cases heq
    · rw [Function.update_of_ne hk, ← h.active i k, hmid] at heq
      exact hk (Option.some.inj heq).symm
  · rw [Function.update_of_ne hij, h.active j k]
    by_cases hk : k = session
    · rw [hk, Function.update_self, hactive]
      exact iff_of_false (fun heq => hij (Option.some.inj heq).symm) (fun heq => by cases heq)
    · rw [Function.update_of_ne hk]

/-- The mutex is taken. -/
lemma takeLock (h : Turns shared count s g) (hfree : s.lock = none) :
    Turns shared count { s with lock := some i }
      (Function.update g i { g i with locked := true }) := by
  refine ⟨fun j => ?_, h.active_update rfl, h.worker_update rfl,
    h.apart_update fun hi _ hnone => ?_, h.own_update fun hi session hsome => ?_⟩
  · by_cases hij : j = i
    · rw [hij, Function.update_self]
      exact iff_of_true rfl rfl
    · rw [Function.update_of_ne hij, h.lock j, hfree]
      exact iff_of_false (fun heq => by cases heq) fun heq => hij (Option.some.inj heq).symm
  · rw [hi]
    exact hnone
  · obtain ⟨hown, -, hgoes⟩ := h.own i hi session hsome
    exact ⟨hown, fun _ => rfl, hgoes⟩

/-- The mutex is released. -/
lemma releaseLock (h : Turns shared count s g) (hmid : (g i).mid = none)
    (hlocked : (g i).locked = true) :
    Turns shared count { s with lock := none }
      (Function.update g i { g i with locked := false }) := by
  have hheld : s.lock = some i := (h.lock i).mp hlocked
  refine ⟨fun j => ?_, h.active_update rfl, h.worker_update rfl, h.apart_update fun _ _ _ => hmid,
    h.own_update (own_of_mid_none hmid)⟩
  refine iff_of_false (fun htrue => ?_) (fun heq => by cases heq)
  by_cases hij : j = i
  · rw [hij, Function.update_self] at htrue
    cases htrue
  · rw [Function.update_of_ne hij, h.lock j, hheld] at htrue
    exact hij (Option.some.inj htrue).symm

/-- The goroutines are started. -/
lemma launch (h : Turns shared count s g) (hnone : s.launched = none) {workers : List Worker} {n : ℕ}
    (hmid : (g count).mid = none) (hlength : workers.length = count)
    (hapart : Apart shared workers) :
    Turns shared count { s with launched := some workers, pending := n }
      (Function.update g count { g count with launched := some workers }) := by
  refine ⟨h.lock_update rfl, h.active_update rfl, fun j w hw => ?_, fun workers' hsome => ?_,
    h.own_update (own_of_mid_none hmid)⟩
  · obtain ⟨workers', hlaunched, -⟩ :=
      h.worker_update (x := { g count with launched := some workers }) rfl j w hw
    rw [hnone] at hlaunched
    cases hlaunched
  · obtain rfl := Option.some.inj hsome
    rw [Function.update_self]
    exact ⟨hapart, hlength, hmid⟩

/-- A goroutine begins. -/
lemma start (h : Turns shared count s g) {w : Worker} {workers : List Worker}
    (hlaunched : s.launched = some workers) (hat : workers[i]? = some w) (hmid : (g i).mid = none) :
    Turns shared count s (Function.update g i { g i with worker := some w }) := by
  refine ⟨h.lock_update rfl, h.active_update rfl, fun j w' hw => ?_,
    h.apart_update fun _ _ _ => hmid, h.own_update (own_of_mid_none hmid)⟩
  by_cases hij : j = i
  · rw [hij, Function.update_self] at hw
    obtain rfl := Option.some.inj hw
    exact ⟨workers, hlaunched, hij ▸ hat⟩
  · rw [Function.update_of_ne hij] at hw
    exact h.worker j w' hw

/-- What main does. -/
lemma exec_main (h : Turns shared count s g) (hc : Counted count s g)
    {answer : (o : BenchOp) → o.Ans} {o : BenchOp} {a : o.Ans}
    (hpre : (benchContract shared count .main).pre (g count) o)
    (he : execBench answer count s o = some (a, s')) :
    Turns shared count s' (Function.update g count ((g count).note ⟨o, a⟩)) := by
  have hready := h.ready_main hc hpre
  cases o with
  | openSession =>
    simp only [execBench] at he
    split at he
    · split at he
      · cases he
      · obtain ⟨rfl, rfl⟩ := Prod.mk.inj (Option.some.inj he)
        exact h.frame rfl rfl rfl rfl rfl rfl (Or.inl rfl)
    · obtain ⟨rfl, rfl⟩ := Prod.mk.inj (Option.some.inj he)
      exact h.frame rfl rfl rfl rfl rfl rfl (Or.inl rfl)
  | signInit session mechanism key =>
    simp only [execBench] at he
    split at he
    · obtain ⟨rfl, rfl⟩ := Prod.mk.inj (Option.some.inj he)
      exact h.activate hready hpre.1 (fun _ => hc.launched.trans hpre.2) fun hne => absurd rfl hne
    · obtain ⟨rfl, rfl⟩ := Prod.mk.inj (Option.some.inj he)
      exact h.frame rfl rfl rfl rfl rfl rfl (Or.inl rfl)
  | sign session data =>
    obtain ⟨-, rfl⟩ := Prod.mk.inj (Option.some.inj he)
    cases a with
    | error e => exact h.deactivate hpre rfl rfl rfl
    | ok signature => exact h.deactivate hpre rfl rfl rfl
  | closeSession session =>
    obtain ⟨-, rfl⟩ := Prod.mk.inj (Option.some.inj he)
    refine h.frame rfl ?_ rfl rfl rfl rfl (Or.inl rfl)
    exact Function.update_eq_self_iff.mpr hready.symm
  | launch workers =>
    obtain ⟨-, rfl⟩ := Prod.mk.inj (Option.some.inj he)
    exact h.launch (hc.launched.trans hpre.2.1) hpre.1 hpre.2.2.1 hpre.2.2.2
  | wait =>
    simp only [execBench] at he
    split at he
    · obtain ⟨rfl, rfl⟩ := Prod.mk.inj (Option.some.inj he)
      exact h.frame rfl rfl rfl rfl rfl rfl (Or.inl rfl)
    · cases he
  | lockShared => exact absurd hpre id
  | unlockShared => exact absurd hpre id
  | start => exact absurd hpre id
  | publish latency ops => exact absurd hpre id
  | done => exact absurd hpre id
  | _ =>
    obtain ⟨-, rfl⟩ := Prod.mk.inj (Option.some.inj he)
    exact h.frame rfl rfl rfl rfl rfl rfl (Or.inl rfl)

/-- What a goroutine does. -/
lemma exec_goroutine (h : Turns shared count s g) (hi : i < count) {answer : (o : BenchOp) → o.Ans}
    {o : BenchOp} {a : o.Ans} (hpre : (benchContract shared count .goroutine).pre (g i) o)
    (he : execBench answer i s o = some (a, s')) :
    Turns shared count s' (Function.update g i ((g i).note ⟨o, a⟩)) := by
  have hready := h.ready_goroutine hpre
  cases o with
  | signInit session mechanism key =>
    simp only [execBench] at he
    split at he
    · obtain ⟨rfl, rfl⟩ := Prod.mk.inj (Option.some.inj he)
      obtain ⟨hmid, hgoes, hworker, hlocked⟩ := hpre
      exact h.activate hready hmid (fun heq => absurd heq (Nat.ne_of_lt hi))
        fun _ => ⟨hworker, hlocked, hgoes⟩
    · obtain ⟨rfl, rfl⟩ := Prod.mk.inj (Option.some.inj he)
      exact h.frame rfl rfl rfl rfl rfl rfl (Or.inl rfl)
  | sign session data =>
    obtain ⟨-, rfl⟩ := Prod.mk.inj (Option.some.inj he)
    cases a with
    | error e => exact h.deactivate hpre.1 rfl rfl rfl
    | ok signature => exact h.deactivate hpre.1 rfl rfl rfl
  | lockShared =>
    simp only [execBench] at he
    split at he
    · rename_i hfree
      obtain ⟨-, rfl⟩ := Prod.mk.inj (Option.some.inj he)
      exact h.takeLock hfree
    · cases he
  | unlockShared =>
    obtain ⟨-, rfl⟩ := Prod.mk.inj (Option.some.inj he)
    exact h.releaseLock hpre.1 hpre.2
  | start =>
    obtain ⟨w, hw, heq⟩ := Option.map_eq_some_iff.mp he
    obtain ⟨rfl, rfl⟩ := Prod.mk.inj heq
    obtain ⟨workers, hlaunched, hat⟩ := Option.bind_eq_some_iff.mp hw
    exact h.start hlaunched hat (congrArg BenchLog.mid hpre)
  | done =>
    obtain ⟨-, rfl⟩ := Prod.mk.inj (Option.some.inj he)
    exact h.frame rfl rfl rfl rfl rfl rfl (Or.inr hpre.1)
  | openSession => exact absurd hpre id
  | closeSession session => exact absurd hpre id
  | launch workers => exact absurd hpre id
  | wait => exact absurd hpre id
  | _ =>
    obtain ⟨-, rfl⟩ := Prod.mk.inj (Option.some.inj he)
    exact h.frame rfl rfl rfl rfl rfl rfl (Or.inl rfl)

end

end Turns

/-! ## Every run -/

/-- The counters and the turns by a trace, and that every step of it was taken in its turn. -/
structure TurnsInv (shared : Bool) (count : ℕ) (s : BenchState)
    (tr : List (Entry BenchOp.Ans BenchState Task)) : Prop where
  counted : Counted count s (logs BenchLog.note .empty tr)
  turns : Turns shared count s (logs BenchLog.note .empty tr)
  ready : ∀ en ∈ tr, Ready en.before en.tid en.event.1

section

variable {cfg : Settings} {shared : Bool} {count : ℕ} {work : Mechanism × Bytes} {t₀ : ℕ}
  {as : List (Action ((o : BenchOp) → o.Ans) ℕ Task)}
  {c : Config BenchOp.Ans BenchState Task Round}

/-- The obligations of the shared-invariant method. -/
lemma turns_sound : System.Sound (measuring cfg shared count work)
    (fun c _ => System.Placed (placeOf count) c) (benchContract shared count)
    (BenchEnds cfg shared count) (TurnsInv shared count) where
  body _ h := by cases h
  again _ _ _ _ hr hp := bench_again hr hp
  exec c i answer l o k a s' hc hplaced ht hpre he := by
    obtain ⟨hcounted, hturns, hready⟩ := hc.inv
    have hplace : placeOf count i l := hplaced i _ ht
    obtain ⟨hpost, hcounted'⟩ := counted_sound.exec c i answer l o k a s'
      ⟨hc.recorded, hcounted, hc.threads⟩ hplaced ht hpre he
    have hboth : Turns shared count s' (logs BenchLog.note .empty
        (c.trace ++ [⟨i, l, histOf c.trace i, c.shared, ⟨o, a⟩⟩])) ∧ Ready c.shared i o := by
      rw [logs_snoc]
      cases l with
      | main =>
        obtain rfl : i = count := hplace
        exact ⟨hturns.exec_main hcounted hpre he, hturns.ready_main hcounted hpre⟩
      | goroutine =>
        exact ⟨hturns.exec_goroutine hplace hpre he, hturns.ready_goroutine hpre⟩
    exact ⟨hpost, hcounted', hboth.1, forall_mem_snoc hready hboth.2⟩
  cancel _ _ _ _ _ _ _ _ hd := by cases hd
  env c d s' hc hplaced hd := by
    obtain ⟨hcounted, hturns, hready⟩ := hc.inv
    have hcounted' := counted_sound.env c d s' ⟨hc.recorded, hcounted, hc.threads⟩ hplaced hd
    obtain rfl := Option.some.inj hd
    obtain ⟨h₁, h₂, h₃, h₄, h₅⟩ := hturns
    exact ⟨hcounted', ⟨h₁, h₂, h₃, h₄, h₅⟩, hready⟩

/-- At the start nobody has the mutex or an operation. -/
lemma turns_initial : Turns shared count (.initial t₀) fun _ => .empty where
  lock _ := iff_of_false (fun h => by cases h) (fun h => by cases h)
  active _ _ := iff_of_false (fun h => by cases h) (fun h => by cases h)
  worker _ _ h := by cases h
  apart _ h := by cases h
  own _ _ _ h := by cases h

/-- Signatures on one session do not mix, in every run of the baseline, with a shared session and with
one for each goroutine: an operation is started on a session that has none, ended by who has started
it, and no session is closed under an operation. -/
theorem signs_apart
    (hrun : (measuring cfg shared count work).run (measureStarted cfg shared count t₀) as = some c) :
    ∀ en ∈ c.trace, Ready en.before en.tid en.event.1 := by
  have hstart : System.Outline (benchContract shared count) (BenchEnds cfg shared count)
      (TurnsInv shared count) (measureStarted cfg shared count t₀) :=
    ⟨recorded_measureStarted,
      ⟨counted_initial, turns_initial, fun en hen => absurd hen List.not_mem_nil⟩,
      fun _ _ ht => measureStarted_meets ht⟩
  exact (turns_sound.run hstart (System.throughout_invariant
    (fun _ _ _ hc h => hc.step (fun _ => rfl) h) placed_measureStarted) hrun).inv.ready

end

/-- Two goroutines with a session each are both in the middle of a signature, one of them ends it, and
then the other. -/
def bothSigning : List (Action ((o : BenchOp) → o.Ans) ℕ Task) :=
  steps 2 5 (willing 7) ++ steps 2 6 (willing 8) ++ [.again 2] ++ steps 2 3 (willing 0) ++
    steps 0 2 (willing 0) ++ steps 1 2 (willing 0) ++
    [.again 0] ++ steps 0 3 (willing 0) ++ [.again 1] ++ steps 1 4 (willing 0) ++
    steps 0 1 (willing 0)

/-- Settings with a session for each goroutine. -/
def pooledMicros : Settings := { tenMicros with mode := "pooled" }

/-- Both operations have been active at the same time, on different sessions. -/
theorem signs_apart_both :
    measureParameters (fun _ => []) pooledMicros = .ok (2, false, .ecdsa, []) ∧
    ∃ c, (measuring pooledMicros false 2 (.ecdsa, [])).run (measureStarted pooledMicros false 2 0)
        bothSigning = some c ∧
      (c.trace.map fun en => (en.tid, en.before.active 7, en.before.active 8)).drop 23 =
        [(1, some 0, none), (1, some 0, some 1), (0, some 0, none)] ∧
      ∀ en ∈ c.trace, Ready en.before en.tid en.event.1 := by
  have hfinal : ((measuring pooledMicros false 2 (.ecdsa, [])).run
      (measureStarted pooledMicros false 2 0) bothSigning).map (fun c =>
        (c.trace.map fun en => (en.tid, en.before.active 7, en.before.active 8)).drop 23) =
      some [(1, some 0, none), (1, some 0, some 1), (0, some 0, none)] := by
    decide +kernel
  obtain ⟨c, hrun, htrace⟩ := Option.map_eq_some_iff.mp hfinal
  exact ⟨rfl, c, hrun, htrace, signs_apart hrun⟩

end HsmProxy.Baseline
