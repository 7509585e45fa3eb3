import HsmProxy.Baseline.Measure

/-!
# How the threads of the baseline behave

What a thread of `measure` has done so far is its `BenchLog`, and `benchContract` says what it may do
next: main signs only before it starts the goroutines, and closes the sessions only after it has
waited for them; a goroutine signs on the session it has captured, behind the mutex if that is
shared, and publishes what it has signed unless a call has failed.  The programs keep to it:
`setUp_meets`, `warmUp_meets`, `goroutine_meets` and `signRound_meets`.
-/

namespace HsmProxy.Baseline

open Interleaving Interleaving.Prog

/-! ## What a thread has done -/

/-- What a thread has done: the sessions it has open, the goroutines it has started, what it was told
when it had waited for them; and of a goroutine, what it has captured, the session on which it has an
operation active, whether it has the mutex, how many signatures it has made, whether a call has
failed, how many signatures it has published, and whether it has ended. -/
structure BenchLog where
  opened : List SessionHandle
  launched : Option (List Worker)
  waited : Option (List ℕ × ℕ)
  worker : Option Worker
  mid : Option SessionHandle
  locked : Bool
  signed : ℕ
  failed : Bool
  published : ℕ
  finished : Bool

namespace BenchLog

/-- The log of a thread that has done nothing. -/
def empty : BenchLog := ⟨[], none, none, none, none, false, 0, false, 0, false⟩

/-- The log of a goroutine that has made `ops` signatures and goes on. -/
def signing (w : Worker) (ops : ℕ) : BenchLog := { empty with worker := some w, signed := ops }

/-- One more event. -/
def note (g : BenchLog) : Event BenchOp.Ans → BenchLog
  | ⟨.openSession, .ok session⟩ => { g with opened := session :: g.opened }
  | ⟨.closeSession session, _⟩ =>
    { g with opened := g.opened.filter fun h => decide (h ≠ session) }
  | ⟨.signInit session _ _, .ok ()⟩ => { g with mid := some session }
  | ⟨.signInit _ _ _, .error _⟩ => { g with failed := true }
  | ⟨.sign _ _, .ok _⟩ => { g with mid := none, signed := g.signed + 1 }
  | ⟨.sign _ _, .error _⟩ => { g with mid := none, failed := true }
  | ⟨.lockShared, _⟩ => { g with locked := true }
  | ⟨.unlockShared, _⟩ => { g with locked := false }
  | ⟨.launch workers, _⟩ => { g with launched := some workers }
  | ⟨.start, w⟩ => { g with worker := some w }
  | ⟨.publish _ ops, _⟩ => { g with published := g.published + ops }
  | ⟨.done, _⟩ => { g with finished := true }
  | ⟨.wait, r⟩ => { g with waited := some r }
  | _ => g

/-- What a goroutine has to have published when it ends: nothing if a call has failed. -/
def due (g : BenchLog) : ℕ := if g.failed then 0 else g.signed

end BenchLog

/-- Goroutines that do not share a session have different ones. -/
def Apart (shared : Bool) (workers : List Worker) : Prop :=
  shared = false → (workers.map Worker.session).Nodup

/-- What a thread may do, and that the module opens no session twice. -/
def benchContract (shared : Bool) (count : ℕ) (task : Task) : Contract BenchOp.Ans BenchLog where
  init := .empty
  next g o a := g.note ⟨o, a⟩
  pre g o :=
    match task, o with
    | .main, .signInit _ _ _ => g.mid = none ∧ g.launched = none
    | .main, .sign session _ => g.mid = some session
    | .main, .launch workers =>
      g.mid = none ∧ g.launched = none ∧ workers.length = count ∧ Apart shared workers
    | .main, .closeSession _ => g.mid = none ∧ (g.launched.isSome → g.waited.isSome)
    | .main, .lockShared => False
    | .main, .unlockShared => False
    | .main, .start => False
    | .main, .publish _ _ => False
    | .main, .done => False
    | .goroutine, .signInit session _ _ => g.mid = none ∧ g.finished = false ∧
        g.worker.map Worker.session = some session ∧ (shared = true → g.locked = true)
    | .goroutine, .sign session _ => g.mid = some session ∧ g.finished = false
    | .goroutine, .unlockShared => g.mid = none ∧ g.locked = true
    | .goroutine, .publish latency ops => g.finished = false ∧ latency.length = ops
    | .goroutine, .done =>
      g.mid = none ∧ g.finished = false ∧ g.worker.isSome ∧ g.published = g.due
    | .goroutine, .openSession => False
    | .goroutine, .closeSession _ => False
    | .goroutine, .launch _ => False
    | .goroutine, .start => g = .empty
    | .goroutine, .wait => False
    | _, _ => True
  post g o a :=
    match o, a with
    | .openSession, .ok session => session ∉ g.opened
    | _, _ => True

/-! ## The programs of main -/

/-- The calls that look a key up in a session. -/
def BenchOp.looks : BenchOp → Bool
  | .login _ => true
  | .findObjectsInit _ _ => true
  | .findObjects _ => true
  | .findObjectsFinal _ => true
  | _ => false

/-- `findKey` makes only such calls. -/
lemma findKey_only (session : SessionHandle) (label : String) :
    (findKey session label).run.Only fun o => o.looks := by
  refine ⟨rfl, fun r => ?_⟩
  cases r with
  | error e => exact True.intro
  | ok u =>
    refine ⟨rfl, fun r => ?_⟩
    cases r with
    | error e => exact True.intro
    | ok objs =>
      refine ⟨rfl, fun r => ?_⟩
      cases r with
      | error e => exact True.intro
      | ok u => cases objs <;> exact True.intro

/-- What is done with a session that was opened looks at the token only. -/
lemma prepareSession_only (session : SessionHandle) (label : String) :
    (prepareSession session label).run.Only fun o => o.looks := by
  refine ⟨rfl, fun r => ?_⟩
  cases r with
  | ok u => exact findKey_only session label
  | error e =>
    cases e with
    | userAlreadyLoggedIn => exact findKey_only session label
    | _ => exact True.intro

section

variable {shared : Bool} {count : ℕ} {g : BenchLog}

/-- Main may make them at any time, and they leave no mark. -/
lemma benchContract_looks {o : BenchOp} (ho : o.looks) :
    (benchContract shared count .main).pre g o ∧
      ∀ a, (benchContract shared count .main).next g o a = g := by
  cases o with
  | login session => exact ⟨True.intro, fun _ => rfl⟩
  | findObjectsInit session label => exact ⟨True.intro, fun _ => rfl⟩
  | findObjects session => exact ⟨True.intro, fun _ => rfl⟩
  | findObjectsFinal session => exact ⟨True.intro, fun _ => rfl⟩
  | _ => cases ho

/-- Main is not in the middle of a signature, and has not started the goroutines. -/
structure Early (g : BenchLog) : Prop where
  mid : g.mid = none
  launched : g.launched = none

/-- Before the goroutines are started main has nothing to wait for. -/
lemma Early.not_launched (hg : Early g) (h : g.launched.isSome) : g.waited.isSome := by
  rw [hg.launched] at h
  cases h

/-- The sessions that are opened are different, and as many as were asked for. -/
lemma openSessions_meets {label : String} {n : ℕ} {opened : List SessionHandle}
    {sessions : List Worker} (hg : Early g) (hopened : g.opened = opened)
    (hsessions : ∀ w ∈ sessions, w.session ∈ opened)
    (hnodup : (sessions.map Worker.session).Nodup) :
    (openSessions label n opened sessions).Meets (benchContract shared count .main)
      (fun g' r => Early g' ∧ ∀ workers, r.2 = .ok workers →
        (workers.map Worker.session).Nodup ∧ workers.length = sessions.length + n) g := by
  induction n generalizing g opened sessions with
  | zero =>
    refine ⟨hg, fun workers h => ?_⟩
    obtain rfl := Except.ok.inj h
    exact ⟨hnodup, rfl⟩
  | succ n ih =>
    refine ⟨True.intro, fun r hr => ?_⟩
    cases r with
    | error e => exact ⟨hg, fun workers h => by cases h⟩
    | ok session =>
      have hnew : session ∉ opened := hopened ▸ hr
      have hg' : Early (g.note ⟨.openSession, .ok session⟩) := ⟨hg.mid, hg.launched⟩
      refine (meets_bind (C := benchContract shared count .main)
        (g := g.note ⟨.openSession, .ok session⟩) (prepareSession session label).run _).mpr
        ((prepareSession_only session label).meets (fun o ho => benchContract_looks ho) fun r => ?_)
      cases r with
      | error e => exact ⟨hg', fun workers h => by cases h⟩
      | ok key =>
        refine (ih hg' (congrArg (session :: ·) hopened) (fun w hw => ?_) ?_).mono
          fun g' r hr => ⟨hr.1, fun workers h => ?_⟩
        · rcases List.mem_append.mp hw with hw | hw
          · exact List.mem_cons_of_mem _ (hsessions w hw)
          · obtain rfl := List.mem_singleton.mp hw
            exact List.mem_cons_self
        · rw [List.map_append, List.nodup_append]
          refine ⟨hnodup, List.nodup_singleton _, fun a ha b hb hab => hnew ?_⟩
          obtain ⟨w, hw, rfl⟩ := List.mem_map.mp ha
          obtain rfl := List.mem_singleton.mp hb
          exact hab ▸ hsessions w hw
        · obtain ⟨hdistinct, hlength⟩ := hr.2 workers h
          refine ⟨hdistinct, hlength.trans ?_⟩
          rw [List.length_append, List.length_singleton]
          omega

/-- Closing the sessions. -/
lemma closeAll_meets {opened : List SessionHandle} {Q : BenchLog → Unit → Prop}
    (hmid : g.mid = none) (hwaited : g.launched.isSome → g.waited.isSome)
    (hQ : ∀ left, Q { g with opened := left } ()) :
    (closeAll opened).Meets (benchContract shared count .main) Q g := by
  induction opened generalizing g with
  | nil => exact hQ g.opened
  | cons session opened ih =>
    exact ⟨⟨hmid, hwaited⟩, fun _ _ => ih hmid hwaited hQ⟩

/-- A signature by main. -/
lemma signOnce_main {work : Mechanism × Bytes} {w : Worker}
    {Q : BenchLog → Except RvError Unit → Prop} (hg : Early g)
    (hQ : ∀ g' r, Early g' → Q g' r) :
    (signOnce work w).Meets (benchContract shared count .main) Q g := by
  refine ⟨⟨hg.mid, hg.launched⟩, fun r _ => ?_⟩
  cases r with
  | error e => exact hQ _ _ ⟨hg.mid, hg.launched⟩
  | ok u =>
    refine ⟨rfl, fun r _ => ?_⟩
    cases r with
    | error e => exact hQ _ _ ⟨rfl, hg.launched⟩
    | ok bytes => exact hQ _ _ ⟨rfl, hg.launched⟩

/-- What the parts of the programs end with. -/
def BenchEnds (cfg : Settings) (shared : Bool) (count : ℕ) : Task → BenchLog → Round → Prop
  | .main, g, .warming _ sessions _ =>
    Early g ∧ (sessions.map Worker.session).Nodup ∧ sessions.length = sessionCount shared count
  | .main, g, .measured r => ∃ latency opsTotal elapsed, g.waited = some (latency, opsTotal) ∧
      report cfg count elapsed latency opsTotal = .measured r
  | .goroutine, g, .signing w _ latency ops => g = .signing w ops ∧ latency.length = ops
  | _, _, _ => True

variable {cfg : Settings} {work : Mechanism × Bytes}

/-- The set-up. -/
lemma setUp_meets : (setUp cfg shared count).Meets (benchContract shared count .main)
    (BenchEnds cfg shared count .main) .empty := by
  unfold setUp
  rw [meets_bind]
  refine (openSessions_meets (g := .empty) ⟨rfl, rfl⟩ rfl
    (fun w hw => absurd hw List.not_mem_nil) List.nodup_nil).mono fun g r hr => ?_
  obtain ⟨opened, sessions⟩ := r
  obtain ⟨hg, hsessions⟩ := hr
  cases sessions with
  | error e =>
    exact (meets_bind _ _).mpr (closeAll_meets hg.mid hg.not_launched fun left => True.intro)
  | ok sessions =>
    obtain ⟨hnodup, hlength⟩ := hsessions sessions rfl
    refine ⟨True.intro, fun t _ => ⟨hg, hnodup, ?_⟩⟩
    rw [hlength, List.length_nil, Nat.zero_add]

/-- What the goroutines capture is apart. -/
lemma apart_captured {sessions : List Worker} (h : (sessions.map Worker.session).Nodup) :
    Apart shared (captured shared count sessions) := by
  rintro rfl
  exact h

/-- Every goroutine captures a session. -/
lemma length_captured {sessions : List Worker} (h : sessions.length = sessionCount shared count) :
    (captured shared count sessions).length = count := by
  cases shared with
  | false => exact h
  | true =>
    cases sessions with
    | nil => cases h
    | cons w sessions => exact List.length_replicate

/-- A report is not a turn of the warm-up. -/
lemma report_ne_warming (elapsed : ℕ) (latency : List ℕ) (opsTotal : ℕ)
    {opened : List SessionHandle} {sessions : List Worker} {deadline : ℕ} :
    report cfg count elapsed latency opsTotal ≠ .warming opened sessions deadline := by
  unfold report
  split <;> exact fun h => by cases h

/-- The warm-up and the measurement. -/
lemma warmUp_meets {opened : List SessionHandle} {sessions : List Worker} {deadline : ℕ}
    (hg : BenchEnds cfg shared count .main g (.warming opened sessions deadline)) :
    (warmUp cfg shared count work opened sessions deadline).Meets (benchContract shared count .main)
      (BenchEnds cfg shared count .main) g := by
  obtain ⟨hearly, hnodup, hlength⟩ := hg
  refine ⟨True.intro, fun t _ => ?_⟩
  change Prog.Meets _ _ g (if t < deadline then _ else launchAndWait cfg shared count opened sessions)
  split
  · cases sessions with
    | nil =>
      exact (meets_bind _ _).mpr
        (closeAll_meets hearly.mid hearly.not_launched fun left => True.intro)
    | cons w sessions =>
      refine (meets_bind _ _).mpr (signOnce_main hearly fun g' r hg' => ?_)
      cases r with
      | error e =>
        exact (meets_bind _ _).mpr
          (closeAll_meets hg'.mid hg'.not_launched fun left => True.intro)
      | ok u => exact ⟨hg', hnodup, hlength⟩
  · refine ⟨True.intro, fun t₀ _ => ⟨⟨hearly.mid, hearly.launched, length_captured hlength,
      apart_captured hnodup⟩, fun _ _ => ⟨True.intro, fun r _ => ⟨True.intro, fun t _ => ?_⟩⟩⟩⟩
    refine (meets_bind (closeAll opened) _).mpr (closeAll_meets (g := { g with
      launched := some (captured shared count sessions), waited := some r }) hearly.mid
      (fun _ => rfl) fun left => ?_)
    cases hround : report cfg count (t - t₀) r.1 r.2 with
    | measured m => exact ⟨r.1, r.2, t - t₀, rfl, hround⟩
    | warming o w d => exact absurd hround (report_ne_warming _ _ _)
    | _ => exact True.intro

/-! ## The programs of the goroutines -/

/-- The start of a goroutine. -/
lemma goroutine_meets : (goroutine cfg).Meets (benchContract shared count .goroutine)
    (BenchEnds cfg shared count .goroutine) .empty :=
  ⟨rfl, fun _ _ => ⟨True.intro, fun _ _ => ⟨rfl, rfl⟩⟩⟩

/-- A signature of a goroutine; one that fails leaves nothing to publish. -/
lemma signOnce_goroutine {w : Worker} {ops : ℕ} {locked : Bool}
    {Q : BenchLog → Except RvError Unit → Prop} (hlocked : shared = true → locked = true)
    (hok : Q { BenchLog.signing w (ops + 1) with locked := locked } (.ok ()))
    (herror : ∀ e, Q { BenchLog.signing w ops with locked := locked, failed := true } (.error e)) :
    (signOnce work w).Meets (benchContract shared count .goroutine) Q
      { BenchLog.signing w ops with locked := locked } := by
  refine ⟨⟨rfl, rfl, rfl, hlocked⟩, fun r _ => ?_⟩
  cases r with
  | error e => exact herror e
  | ok u =>
    refine ⟨⟨rfl, rfl⟩, fun r _ => ?_⟩
    cases r with
    | error e => exact herror e
    | ok bytes => exact hok

/-- The same, behind the mutex where the session is shared. -/
lemma guardedSign_meets {w : Worker} {ops : ℕ} {Q : BenchLog → Except RvError Unit → Prop}
    (hok : Q (.signing w (ops + 1)) (.ok ()))
    (herror : ∀ e, Q { BenchLog.signing w ops with failed := true } (.error e)) :
    (guardedSign shared work w).Meets (benchContract shared count .goroutine) Q
      (.signing w ops) := by
  cases shared with
  | false => exact signOnce_goroutine (fun h => by cases h) hok herror
  | true =>
    refine ⟨True.intro, fun _ _ => ?_⟩
    refine (meets_bind (C := benchContract true count .goroutine)
      (g := { BenchLog.signing w ops with locked := true }) (signOnce work w) _).mpr ?_
    refine signOnce_goroutine (fun _ => rfl) ?_ fun e => ?_
    · exact ⟨⟨rfl, rfl⟩, fun _ _ => hok⟩
    · exact ⟨⟨rfl, rfl⟩, fun _ _ => herror e⟩

/-- One turn of the loop. -/
lemma signRound_meets {w : Worker} {stop : ℕ} {latency : List ℕ} {ops : ℕ}
    (hg : BenchEnds cfg shared count .goroutine g (.signing w stop latency ops)) :
    (signRound shared work w stop latency ops).Meets (benchContract shared count .goroutine)
      (BenchEnds cfg shared count .goroutine) g := by
  obtain ⟨rfl, hlength⟩ := hg
  refine ⟨True.intro, fun t _ => ?_⟩
  change Prog.Meets _ _ (BenchLog.signing w ops) (if t < stop then _ else _)
  split
  · refine ⟨True.intro, fun t₀ _ => ?_⟩
    refine (meets_bind (C := benchContract shared count .goroutine) (g := .signing w ops)
      (guardedSign shared work w) _).mpr (guardedSign_meets ?_ fun e => ?_)
    · refine ⟨True.intro, fun t₁ _ => ⟨rfl, ?_⟩⟩
      rw [List.length_append, hlength, List.length_singleton]
    · exact ⟨⟨rfl, rfl, rfl, rfl⟩, fun _ _ => True.intro⟩
  · refine ⟨⟨rfl, hlength⟩, fun _ _ => ⟨⟨rfl, rfl, rfl, ?_⟩, fun _ _ => True.intro⟩⟩
    exact Nat.zero_add ops

end

end HsmProxy.Baseline
