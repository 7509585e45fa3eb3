import HsmProxy.Cache.CacheSteps
import HsmProxy.Grpc.Plan
import HsmProxy.Pkcs11.WorkerSteps
import HsmProxy.Service.Steps
import Mathlib.Algebra.Order.BigOperators.Group.Finset

/-!
# Is `served_from_cache` true?

`get_or_load` asks `contains_key` whether the entry is there, and takes the answer for the one that
`try_get_with` gives a step later.  As long as nothing happens to the entry in between, a call that
was told so does not run its load, nothing is sent to the token for it, and the successful loads are
among the counted misses (`served_from_cache_truthful`).  An entry that expires between the two
steps is loaded again and reported as served from the cache.
-/

namespace HsmProxy

open Interleaving Interleaving.Prog

/-! ## What a call of `get_or_load` has done -/

/-- What `contains_key` answered, and whether the call was made to run its load or sent a job, the
load succeeded, and a miss was counted. -/
structure ProbeLog where
  present : Bool
  ran : Bool
  loaded : Bool
  counted : Bool
  deriving DecidableEq

namespace ProbeLog

/-- Nothing yet. -/
def empty : ProbeLog := ⟨false, false, false, false⟩

/-- One more event. -/
def note (g : ProbeLog) : Event Op.Ans → ProbeLog
  | ⟨.cache (.containsKey _), answer⟩ => { g with present := answer }
  | ⟨.cache (.enter _), .own _⟩ => { g with ran := true }
  | ⟨.cache (.wait _), .own⟩ => { g with ran := true }
  | ⟨.pool (.trySend _ _), _⟩ => { g with ran := true }
  | ⟨.cache (.finish _ (.ok _)), _⟩ => { g with loaded := true }
  | ⟨.cache .countMiss, _⟩ => { g with counted := true }
  | _ => g

/-- A successful load has been counted. -/
def Settled (g : ProbeLog) : Prop := g.loaded = true → g.counted = true

end ProbeLog

/-- What a history says about the call. -/
def probeLog (h : List (Event Op.Ans)) : ProbeLog := h.foldl ProbeLog.note .empty

/-- The steps the log looks at. -/
def Op.marksProbe : Op → Bool
  | .cache (.containsKey _) => true
  | .cache (.enter _) => true
  | .cache (.wait _) => true
  | .cache (.finish _ (.ok _)) => true
  | .cache .countMiss => true
  | .pool (.trySend _ _) => true
  | _ => false

/-- No other step changes it. -/
lemma ProbeLog.note_of_not_marksProbe (g : ProbeLog) {o : Op} (ho : o.marksProbe = false)
    (a : o.Ans) :
    g.note ⟨o, a⟩ = g := by
  cases o with
  | cache q =>
    cases q with
    | finish k r => cases r <;> first | rfl | cases ho
    | _ => first | rfl | cases ho
  | pool q => cases q <;> first | rfl | cases ho
  | _ => rfl

/-- A handler counts a successful load with its next step, sends no job when the entry was there,
and loads at most once.  It relies on not being made to run a load of an entry it has seen. -/
def probeContract (party : Party) : Contract Op.Ans ProbeLog where
  init := .empty
  next g o a := g.note ⟨o, a⟩
  pre g o :=
    (o = .cache .countMiss ∨ g.Settled) ∧
      match party, o with
      | .worker _, o => o.marksProbe = false
      | .rpc _, .cache (.containsKey _) => g.ran = false
      | .rpc _, .cache (.finish _ (.ok _)) => g.loaded = false
      | .rpc _, .pool (.trySend _ _) => g.present = false
      | .rpc _, _ => True
  post g o a :=
    match o, a with
    | .cache (.enter _), .own _ => g.present = false
    | .cache (.wait _), .own => g.present = false
    | _, _ => True

/-- The flag of a reply. -/
def saysCached : Except Status RpcResponse → Bool
  | .ok (.verify response) => response.servedFromCache
  | .ok (.getPublicKey response) => response.servedFromCache
  | _ => false

/-- What a handler knows when it replies. -/
def ProbeReply (g : ProbeLog) (reply : Except Status RpcResponse) : Prop :=
  g.Settled ∧ (saysCached reply = true → g.present = true)

section

variable (P : Platform) (cfg : ServiceConfig) (rpc : Rpc) {g : ProbeLog}

/-- A step the log does not look at is allowed when everything is settled. -/
lemma probeContract_skip {o : Op} (hg : g.Settled) (ho : o.marksProbe = false) :
    (probeContract (.rpc rpc)).pre g o ∧ ∀ a, (probeContract (.rpc rpc)).next g o a = g := by
  refine ⟨⟨Or.inr hg, ?_⟩, fun a => g.note_of_not_marksProbe ho a⟩
  cases o with
  | cache q =>
    cases q with
    | finish k r => cases r <;> first | exact True.intro | cases ho
    | _ => first | exact True.intro | cases ho
  | pool q => cases q <;> first | exact True.intro | cases ho
  | _ => exact True.intro

/-- A submission sends one job. -/
lemma submit_probe (request : JobRequest) (hg : g.Settled) (hpresent : g.present = false) :
    (submit cfg request).Meets (probeContract (.rpc rpc))
      (fun g' _ => ∃ ran, g' = { g with ran := ran }) g := by
  refine (submit_only cfg request).meets_of_invariant
    (J := fun g' => ∃ ran, g' = { g with ran := ran }) (fun g' o hg' ho => ?_) ⟨g.ran, rfl⟩
    fun _ _ h => h
  obtain ⟨ran, rfl⟩ := hg'
  have hkept : ∀ {o : Op}, o.marksProbe = false →
      (probeContract (.rpc rpc)).pre { g with ran := ran } o ∧ ∀ a, ∃ ran',
        (probeContract (.rpc rpc)).next { g with ran := ran } o a = { g with ran := ran' } := by
    intro o ho
    obtain ⟨hpre, hnext⟩ := probeContract_skip rpc (g := { g with ran := ran }) hg ho
    exact ⟨hpre, fun a => ⟨ran, hnext a⟩⟩
  cases o with
  | pool q =>
    cases q with
    | trySend r t => exact ⟨⟨Or.inr hg, hpresent⟩, fun _ => ⟨true, rfl⟩⟩
    | count c n => exact hkept rfl
    | awaitResult j d => exact hkept rfl
    | _ => cases ho
  | now => exact hkept rfl
  | _ => cases ho

/-- What is known after `try_get_with`: a call that has loaded was not told that the entry is
there. -/
def Fetched (present : Bool) (g : ProbeLog) : Except PoolError Lookup → Prop
  | .ok _ => g.present = present ∧ g.counted = false ∧ (g.loaded = true → present = false)
  | .error _ => g.loaded = false

/-- A load that succeeds is published. -/
lemma runLoad_probe {keyLabel : String} {k : ℕ} (hpresent : g.present = false)
    (hloaded : g.loaded = false) (hcounted : g.counted = false) :
    (runLoad k (loadPublicKey cfg keyLabel)).Meets (probeContract (.rpc rpc)) (Fetched false) g := by
  have hsettled : g.Settled := fun h => absurd (hloaded.symm.trans h) Bool.false_ne_true
  rw [meets_runLoad]
  refine (submit_probe cfg rpc _ hsettled hpresent).mono fun g' r hr => ?_
  obtain ⟨ran, rfl⟩ := hr
  cases houtcome : loadOutcome r with
  | ok found => exact ⟨⟨Or.inr hsettled, hloaded⟩, fun _ _ => ⟨hpresent, hcounted, fun _ => rfl⟩⟩
  | error e => exact ⟨⟨Or.inr hsettled, True.intro⟩, fun _ _ => hloaded⟩

/-- `try_get_with` keeps to the contract. -/
lemma tryGetWith_probe {keyLabel : String} (hloaded : g.loaded = false)
    (hcounted : g.counted = false) :
    (tryGetWith keyLabel (loadPublicKey cfg keyLabel)).Meets (probeContract (.rpc rpc))
      (Fetched g.present) g := by
  have hsettled : g.Settled := fun h => absurd (hloaded.symm.trans h) Bool.false_ne_true
  have hfetched : ∀ r, Fetched g.present g r := by
    intro r
    cases r with
    | ok found => exact ⟨rfl, hcounted, fun h => absurd (hloaded.symm.trans h) Bool.false_ne_true⟩
    | error e => exact hloaded
  refine ⟨⟨Or.inr hsettled, True.intro⟩, fun entered hentered => ?_⟩
  cases entered with
  | hit value => exact hfetched _
  | own k =>
    have hpresent : g.present = false := hentered
    rw [hpresent]
    exact runLoad_probe cfg rpc hpresent hloaded hcounted
  | join k =>
    refine ⟨⟨Or.inr hsettled, True.intro⟩, fun joined hjoined => ?_⟩
    cases joined with
    | finished outcome => exact hfetched _
    | own =>
      have hpresent : g.present = false := hjoined
      rw [hpresent]
      exact runLoad_probe cfg rpc hpresent hloaded hcounted

/-- `get_or_load` counts its load, and returns what `contains_key` answered. -/
lemma getOrLoad_probe {keyLabel : String} :
    (getOrLoad keyLabel (loadPublicKey cfg keyLabel)).Meets (probeContract (.rpc rpc))
      (fun g r => g.Settled ∧ ∀ found wasPresent, r = .ok (found, wasPresent) →
        g.present = wasPresent) .empty := by
  refine ⟨⟨Or.inr nofun, rfl⟩, fun wasPresent _ => ?_⟩
  change Meets _ _ _ (tryGetWith keyLabel _ >>= _)
  rw [meets_bind]
  refine (tryGetWith_probe cfg rpc rfl rfl).mono fun g' r hr => ?_
  cases r with
  | error e =>
    have hloaded : g'.loaded = false := hr
    exact ⟨fun h => absurd (hloaded.symm.trans h) Bool.false_ne_true, nofun⟩
  | ok found =>
    obtain ⟨hpresent, hcounted, hloaded⟩ := hr
    have hreturned : ∀ found' wasPresent',
        (Except.ok (found, wasPresent) : Except PoolError _) = .ok (found', wasPresent') →
        g'.present = wasPresent' := by
      intro found' wasPresent' h
      rw [hpresent]
      exact congrArg Prod.snd (Except.ok.inj h)
    cases wasPresent with
    | true =>
      have hsettled : g'.Settled := fun h => nomatch hloaded h
      exact ⟨(probeContract_skip rpc hsettled rfl).1, fun _ _ => ⟨hsettled, hreturned⟩⟩
    | false => exact ⟨⟨Or.inl rfl, True.intro⟩, fun _ _ => ⟨fun _ => rfl, hreturned⟩⟩

/-- Reporting to the breaker is not looked at. -/
lemma observe_probe {α : Type} {Q : ProbeLog → Unit → Prop} (r : Except Status α) (hg : g.Settled)
    (hQ : Q g ()) : (observe r).Meets (probeContract (.rpc rpc)) Q g := by
  refine (observe_reports r).meets (fun o ho => probeContract_skip rpc hg ?_) fun _ => hQ
  cases o with
  | breaker q => rfl
  | _ => cases ho

/-- A plan answers with the flag it was given, or with none. -/
lemma saysCached_of_plan {finish : Lookup × Bool → Except Status RpcResponse}
    (hplan : plan P rpc = .ok (.key finish)) {found : Lookup} {wasPresent : Bool}
    (h : saysCached (finish (found, wasPresent)) = true) : wasPresent = true := by
  have hkey := plan_key P hplan
  cases rpc with
  | verify request =>
    obtain ⟨input, -, heq⟩ := except_bind_ok hplan
    obtain rfl := Plan.key.inj (Except.ok.inj heq)
    cases found with
    | notFound => cases h
    | found key =>
      simp only [finishVerify] at h
      split at h
      · exact h
      · cases h
  | getPublicKey request =>
    obtain rfl := Plan.key.inj (Except.ok.inj hplan)
    cases found with
    | notFound => cases h
    | found key => exact h
  | _ => cases hkey

/-- A plan that submits a job answers with no such flag. -/
lemma not_saysCached_of_plan {drawsIv : Bool} {request : Bytes → JobRequest}
    {finish : Bytes → JobResponse → Except Status RpcResponse}
    (hplan : plan P rpc = .ok (.job drawsIv request finish)) (iv : Bytes)
    (r : Except Status JobResponse) : saysCached (r >>= finish iv) = false := by
  have hjob := plan_job P hplan
  cases r with
  | error st => rfl
  | ok response =>
    cases rpc with
    | sign request =>
      obtain ⟨input, -, heq⟩ := except_bind_ok hplan
      obtain ⟨prepared, -, heq⟩ := except_bind_ok heq
      obtain ⟨-, -, rfl⟩ := Plan.job.inj (Except.ok.inj heq)
      cases response <;> rfl
    | encrypt request =>
      obtain ⟨_, -, heq⟩ := except_bind_ok hplan
      obtain ⟨-, -, rfl⟩ := Plan.job.inj (Except.ok.inj heq)
      cases response <;> rfl
    | decrypt request =>
      obtain ⟨_, -, heq⟩ := except_bind_ok hplan
      obtain ⟨_, -, heq⟩ := except_bind_ok heq
      obtain ⟨-, -, rfl⟩ := Plan.job.inj (Except.ok.inj heq)
      cases response <;> rfl
    | _ => cases hjob

/-- Every handler keeps to the contract. -/
theorem pooled_probe : (pooled P cfg rpc).Meets (probeContract (.rpc rpc)) ProbeReply .empty := by
  have hempty : ProbeLog.empty.Settled := nofun
  refine meets_pooled_of_quiet P cfg (fun o ho => ?_) (fun g r o hr ho => ?_) (fun st => ?_)
    fun p hplan => ?_
  · refine probeContract_skip rpc hempty ?_
    cases o with
    | pool q => cases ho
    | cache q => cases ho
    | _ => rfl
  · refine probeContract_skip rpc hr.1 ?_
    cases o with
    | record m => rfl
    | _ => cases ho
  · exact ⟨hempty, nofun⟩
  · cases p with
    | job drawsIv request finish =>
      rw [meets_perform_job]
      refine (drawIv_only drawsIv).meets (fun o ho => probeContract_skip rpc hempty (ho ▸ rfl))
        fun iv => ?_
      rw [meets_submitObserved]
      refine (submit_probe cfg rpc _ hempty rfl).mono fun g r hr => ?_
      obtain ⟨ran, rfl⟩ := hr
      refine observe_probe rpc _ nofun ⟨nofun, fun hflag => ?_⟩
      rw [not_saysCached_of_plan P rpc hplan] at hflag
      cases hflag
    | key finish =>
      rw [meets_perform_key, meets_publicKey]
      refine (getOrLoad_probe cfg rpc).mono fun g r hr => ?_
      refine observe_probe rpc _ hr.1 ⟨hr.1, fun hflag => ?_⟩
      cases r with
      | error e => cases hflag
      | ok found =>
        obtain ⟨found, wasPresent⟩ := found
        rw [hr.2 found wasPresent rfl]
        exact saysCached_of_plan P rpc hplan hflag

/-- Every worker keeps to the contract. -/
theorem iterate_probe {session : SessionHandle} (w : Worker) (hg : g.Settled) :
    (Worker.iterate P w).Meets (probeContract (.worker session)) (fun g _ => g.Settled) g := by
  refine (Worker.iterate_only P w).meets_of_invariant (J := ProbeLog.Settled) (fun g o hg ho => ?_)
    hg fun _ _ h => h
  have hmarks : o.marksProbe = false := by
    cases o with
    | cache q => cases ho
    | pool q => cases q <;> first | rfl | cases ho
    | _ => rfl
  refine ⟨⟨Or.inr hg, hmarks⟩, fun a => ?_⟩
  change (g.note ⟨o, a⟩).Settled
  rw [g.note_of_not_marksProbe hmarks a]
  exact hg

end

/-! ## Between the two steps -/

namespace CacheState

/-- `try_get_with` would find the entry, or a load of it that somebody runs. -/
def serves (s : CacheState) (now : ℕ) (label : String) : Bool :=
  (s.live now label).isSome ||
    match s.inflight.lookup label with
    | some k =>
      match s.loads k with
      | some load => load.owner.isSome
      | none => false
    | none => false

/-- The load has ended, or somebody runs it. -/
def attended (s : CacheState) (k : ℕ) : Bool :=
  match s.loads k with
  | some load => load.owner.isSome || load.outcome.isSome
  | none => false

variable {cfg : CacheConfig} {now tid : ℕ} {s s' : CacheState}

/-- A caller is made to run a load when the entry is not served. -/
lemma not_serves_of_own {label : String} {k : ℕ}
    (h : s.exec cfg now tid (.enter label) = some (.own k, s')) : s.serves now label = false := by
  have h := congrArg Prod.fst (Option.some.inj h)
  simp only [enter] at h
  cases hlive : s.live now label with
  | some value =>
    simp only [hlive] at h
    cases h
  | none =>
    simp only [hlive] at h
    unfold serves
    rw [hlive, Option.isSome_none, Bool.false_or]
    cases hinflight : s.inflight.lookup label with
    | none => rfl
    | some k' =>
      simp only [hinflight] at h
      cases hload : s.loads k' with
      | none => simp only [hload]
      | some load =>
        obtain ⟨label', owner, outcome⟩ := load
        cases owner with
        | none => simp only [hload, Option.isSome_none]
        | some i =>
          simp only [hload] at h
          cases h

/-- A caller that waits is made to run the load when nobody attends to it. -/
lemma not_attended_of_own {k : ℕ} (h : s.exec cfg now tid (.wait k) = some (.own, s')) :
    s.attended k = false := by
  obtain ⟨l, outcome, -, -, hfinished, -⟩ | ⟨label, hload, -, -⟩ := exec_wait h
  · cases hfinished
  · simp [attended, hload]

end CacheState

section

variable {P : Platform} {cfg : ServiceConfig} {t₀ : ℕ} {sessions : List SessionHandle}
  {token : P.token.State} {as : List (Action Choice (EnvAction P) Party)}
  {c c' : Config Op.Ans (Shared P) Party ThreadResult} {a : Action Choice (EnvAction P) Party}

/-- When a call that was told that the entry is there asks for it, the entry is still there, or
somebody loads it; and when such a call waits for a load, whoever runs the load has not been
dropped. -/
def stillServed (c : Config Op.Ans (Shared P) Party ThreadResult) :
    Action Choice (EnvAction P) Party → Bool
  | .exec i _ =>
    match c.threads i with
    | some ⟨_, h, .call (.cache (.enter label)) _⟩ =>
      !(probeLog h).present || c.shared.cache.serves c.shared.now label
    | some ⟨_, h, .call (.cache (.wait k)) _⟩ => !(probeLog h).present || c.shared.cache.attended k
    | _ => true
  | _ => true

/-- The condition gives what the contract relies on. -/
lemma post_of_stillServed {i : ℕ} {e : Choice} {l : Party} {h : List (Event Op.Ans)} {o : Op}
    {k : o.Ans → Prog Op.Ans ThreadResult} {ans : o.Ans} {s' : Shared P}
    (hserved : stillServed c (.exec i e) = true) (ht : c.threads i = some ⟨l, h, .call o k⟩)
    (he : execOp cfg e i c.shared o = some (ans, s')) :
    (probeContract l).post (probeLog h) o ans := by
  cases o with
  | cache q =>
    obtain ⟨p, hp, -⟩ := execOp_cache.mp he
    cases q with
    | enter label =>
      cases ans with
      | own k' =>
        simp only [stillServed, ht, CacheState.not_serves_of_own hp, Bool.or_false] at hserved
        exact (Bool.not_eq_true' _).mp hserved
      | _ => exact True.intro
    | wait k' =>
      cases ans with
      | own =>
        simp only [stillServed, ht, CacheState.not_attended_of_own hp, Bool.or_false] at hserved
        exact (Bool.not_eq_true' _).mp hserved
      | _ => exact True.intro
    | _ => exact True.intro
  | _ => exact True.intro

/-! ## The counts of a run -/

/-- A call runs its load: it is made to, or sends a job. -/
def runsLoad : Event Op.Ans → Bool
  | ⟨.cache (.enter _), .own _⟩ => true
  | ⟨.cache (.wait _), .own⟩ => true
  | ⟨.pool (.trySend _ _), _⟩ => true
  | _ => false

/-- A load succeeded. -/
def loadSucceeds : Event Op.Ans → ℕ
  | ⟨.cache (.finish _ (.ok _)), _⟩ => 1
  | _ => 0

/-- A miss was counted. -/
def countsMiss : Event Op.Ans → ℕ
  | ⟨.cache .countMiss, _⟩ => 1
  | _ => 0

/-- The log of a history agrees with its events. -/
structure ProbeAccounted (h : List (Event Op.Ans)) : Prop where
  loaded : total loadSucceeds h = (probeLog h).loaded.toNat
  counted : (probeLog h).counted.toNat ≤ total countsMiss h
  quiet : (probeLog h).ran = false → ∀ ev ∈ h, runsLoad ev = false
  absent : (probeLog h).ran = true → (probeLog h).present = false

/-- One more event. -/
@[simp] lemma probeLog_snoc (h : List (Event Op.Ans)) (ev : Event Op.Ans) :
    probeLog (h ++ [ev]) = (probeLog h).note ev := by
  simp [probeLog, List.foldl_append]

/-- What an allowed step adds. -/
lemma ProbeAccounted.snoc {h : List (Event Op.Ans)} {party : Party} {o : Op} {ans : o.Ans}
    (hh : ProbeAccounted h) (hpre : (probeContract party).pre (probeLog h) o)
    (hpost : (probeContract party).post (probeLog h) o ans) : ProbeAccounted (h ++ [⟨o, ans⟩]) := by
  have hnew : ∀ {g : ProbeLog}, probeLog (h ++ [⟨o, ans⟩]) = g →
      total loadSucceeds h + loadSucceeds ⟨o, ans⟩ = g.loaded.toNat →
      g.counted.toNat ≤ total countsMiss h + countsMiss ⟨o, ans⟩ →
      (g.ran = false → (probeLog h).ran = false ∧ runsLoad ⟨o, ans⟩ = false) →
      (g.ran = true → g.present = false) → ProbeAccounted (h ++ [⟨o, ans⟩]) := by
    rintro g rfl hloaded hcounted hquiet habsent
    refine ⟨by rwa [total_snoc], by rwa [total_snoc], fun hran ev hev => ?_, habsent⟩
    obtain ⟨hran, hlast⟩ := hquiet hran
    rcases List.mem_append.mp hev with hev | hev
    · exact hh.quiet hran ev hev
    · obtain rfl := List.mem_singleton.mp hev
      exact hlast
  have hskip : o.marksProbe = false → ProbeAccounted (h ++ [⟨o, ans⟩]) := by
    intro ho
    have hevent : loadSucceeds ⟨o, ans⟩ = 0 ∧ countsMiss ⟨o, ans⟩ = 0 ∧
        runsLoad ⟨o, ans⟩ = false := by
      cases o with
      | cache q =>
        cases q with
        | finish k r => cases r <;> first | exact ⟨rfl, rfl, rfl⟩ | cases ho
        | _ => first | exact ⟨rfl, rfl, rfl⟩ | cases ho
      | pool q => cases q <;> first | exact ⟨rfl, rfl, rfl⟩ | cases ho
      | _ => exact ⟨rfl, rfl, rfl⟩
    refine hnew ((probeLog_snoc _ _).trans ((probeLog h).note_of_not_marksProbe ho ans)) ?_ ?_
      (fun hran => ⟨hran, hevent.2.2⟩) hh.absent
    · rw [hevent.1]
      exact hh.loaded
    · rw [hevent.2.1]
      exact hh.counted
  obtain ⟨-, hpre⟩ := hpre
  cases party with
  | worker session => exact hskip hpre
  | rpc rpc =>
    have hstep := probeLog_snoc h ⟨o, ans⟩
    cases o with
    | cache q =>
      cases q with
      | containsKey label =>
        have hran : (probeLog h).ran = false := hpre
        refine hnew hstep hh.loaded hh.counted (fun _ => ⟨hran, rfl⟩) fun hran' => ?_
        exact absurd (hran.symm.trans hran') Bool.false_ne_true
      | enter label =>
        cases ans with
        | own k => exact hnew hstep hh.loaded hh.counted nofun fun _ => hpost
        | _ => exact hnew hstep hh.loaded hh.counted (fun hran => ⟨hran, rfl⟩) hh.absent
      | wait k =>
        cases ans with
        | own => exact hnew hstep hh.loaded hh.counted nofun fun _ => hpost
        | finished outcome =>
          exact hnew hstep hh.loaded hh.counted (fun hran => ⟨hran, rfl⟩) hh.absent
      | finish k r =>
        cases r with
        | error e => exact hskip rfl
        | ok found =>
          have hloaded : (probeLog h).loaded = false := hpre
          refine hnew hstep ?_ hh.counted (fun hran => ⟨hran, rfl⟩) hh.absent
          rw [hh.loaded, hloaded]
          rfl
      | countHit negative => exact hskip rfl
      | countMiss =>
        refine hnew hstep hh.loaded ?_ (fun hran => ⟨hran, rfl⟩) hh.absent
        exact Nat.le_add_left _ _
    | pool q =>
      cases q with
      | trySend request t => exact hnew hstep hh.loaded hh.counted nofun fun _ => hpre
      | _ => exact hskip rfl
    | _ => exact hskip rfl

/-- The counter of misses is the number of misses the trace has counted. -/
def MissesCounted (s : Shared P) (tr : List (Entry Op.Ans (Shared P) Party)) : Prop :=
  s.cache.metrics.misses = total countsMiss (tr.map Entry.event)

/-- What handlers and workers end with. -/
def ProbeEnds : Party → ProbeLog → ThreadResult → Prop
  | .rpc _, g, .reply reply => ProbeReply g reply
  | _, g, _ => g.Settled

/-- A step of the cache counts a miss or leaves the counter alone. -/
lemma CacheState.exec_misses {ccfg : CacheConfig} {now tid : ℕ} {s s' : CacheState} {q : CacheOp}
    {ans : q.Ans} (h : s.exec ccfg now tid q = some (ans, s')) :
    s'.metrics.misses = s.metrics.misses + countsMiss ⟨.cache q, ans⟩ := by
  cases q with
  | containsKey label => cases h; rfl
  | enter label =>
    obtain ⟨e, -, -, -, rfl⟩ | ⟨k, l, -, -, -, rfl⟩ | ⟨k, -, -, rfl⟩ | ⟨-, -, rfl⟩ :=
      exec_enter h <;> rfl
  | wait k => obtain ⟨l, outcome, -, -, -, rfl⟩ | ⟨label, -, -, rfl⟩ := exec_wait h <;> rfl
  | finish k outcome =>
    cases h
    simp only [finish]
    cases s.loads k with
    | none => rfl
    | some l => cases outcome <;> rfl
  | countHit negative => cases h; rfl
  | countMiss => cases h; rfl

/-- The obligations of the shared-invariant method. -/
lemma probe_sound : System.Sound (pooledProxy P cfg) (fun c a => stillServed c a = true)
    probeContract ProbeEnds
    (fun s tr => MissesCounted s tr ∧ ∀ i, ProbeAccounted (histOf tr i)) := by
  have hbase : System.Sound (pooledProxy P cfg) (fun c a => stillServed c a = true) probeContract
      ProbeEnds (MissesCounted (P := P)) := by
    refine proxy_sound (fun rpc => pooled_probe P cfg rpc) (fun _ g w hg => iterate_probe P w hg)
      (fun c i e l o k ans s' hc hserved ht _ he => ⟨post_of_stillServed hserved ht he, ?_⟩)
      (fun c i l o k hc _ _ _ => ?_) fun c v hc _ => ?_
    · have hmisses : s'.cache.metrics.misses =
          c.shared.cache.metrics.misses + countsMiss ⟨o, ans⟩ := by
        by_cases hcache : ∃ q, o = .cache q
        · obtain ⟨q, rfl⟩ := hcache
          obtain ⟨p, hp, rfl⟩ := execOp_cache.mp he
          exact CacheState.exec_misses hp
        · rw [(execOp_frame he).cache fun q hq => hcache ⟨q, hq⟩]
          cases o with
          | cache q => exact absurd ⟨q, rfl⟩ hcache
          | _ => rfl
      rw [MissesCounted, hmisses, List.map_append, List.map_singleton, total_snoc]
      exact congrArg (· + countsMiss ⟨o, ans⟩) hc.inv
    · cases l <;> exact hc.inv
    · cases v <;> exact hc.inv
  exact hbase.histories fun l h o ans hh hpre hpost => hh.snoc hpre hpost

/-- What holds in every run in which the condition is met. -/
structure Probing (c : Config Op.Ans (Shared P) Party ThreadResult) : Prop where
  outline : System.Outline probeContract ProbeEnds
    (fun s tr => MissesCounted s tr ∧ ∀ i, ProbeAccounted (histOf tr i)) c
  gone : System.Gone (fun h => (probeLog h).Settled) c

/-- After the start no probe was made. -/
lemma probing_started : Probing (started P t₀ sessions token) := by
  refine ⟨outline_started (fun session => iterate_probe P _ nofun) ⟨rfl, fun i => ?_⟩,
    fun i _ => nofun⟩
  exact ⟨rfl, Nat.le_refl _, fun _ ev hev => absurd hev List.not_mem_nil, nofun⟩

/-- A handler is suspended only where its load is counted, and workers load nothing. -/
lemma probing_step (hc : Probing c) (ha : stillServed c a = true)
    (h : (pooledProxy P cfg).step c a = some c') : Probing c' := by
  refine ⟨probe_sound.step hc.outline ha h, ?_⟩
  refine System.gone_step hc.outline.recorded hc.gone (fun i l o k _ ht hd => ?_) h
  have hpre := (hc.outline.threads i _ ht).1
  rcases hpre.1 with rfl | hsettled
  · cases l with
    | worker session => exact absurd hpre.2 (Ne.symm Bool.false_ne_true)
    | rpc rpc => cases hd
  · exact hsettled

/-- What is known of the probes holds after every run in which the entries are still served. -/
lemma probing_run (hrun : (pooledProxy P cfg).run (started P t₀ sessions token) as = some c)
    (hserved : (pooledProxy P cfg).Throughout (fun c a => stillServed c a = true)
      (started P t₀ sessions token) as) : Probing c :=
  System.run_invariant (fun _ _ _ hc ha h => probing_step hc ha h) probing_started hserved hrun

/-- A successful load that is not counted is about to be. -/
lemma Probing.counts_next (hc : Probing c) {i : ℕ}
    (hi : ¬ (probeLog (histOf c.trace i)).Settled) : c.nextOp i = some (.cache .countMiss) := by
  cases ht : c.threads i with
  | none => exact absurd (hc.gone i ht) hi
  | some t =>
    obtain ⟨label, hist, prog⟩ := t
    obtain rfl := hc.outline.recorded.hist i _ ht
    have hmeets := hc.outline.threads i _ ht
    cases prog with
    | ret r =>
      refine absurd ?_ hi
      rcases label with rpc | session
      · cases r with
        | reply reply => exact hmeets.1
        | round w => exact hmeets
      · exact hmeets
    | call o k =>
      rcases hmeets.1.1 with rfl | hsettled
      · exact System.nextOp_eq ht
      · exact absurd hsettled hi

/-- The calls that have published a successful load and are about to count it. -/
def countingMiss (c : Config Op.Ans (Shared P) Party ThreadResult) : ℕ :=
  ((Finset.range c.spawned).filter fun i => c.nextOp i = some (.cache .countMiss)).card

/-- In every run in which an entry that a call has seen stays until the call has asked for it: a
call that was told that the entry is there does not run its load and sends no job, so none is sent
for a reply that says it was served from the cache; and the successful loads are counted as misses,
up to those of calls that are about to count them. -/
theorem served_from_cache_truthful
    (hrun : (pooledProxy P cfg).run (started P t₀ sessions token) as = some c)
    (hserved : (pooledProxy P cfg).Throughout (fun c a => stillServed c a = true)
      (started P t₀ sessions token) as) :
    (∀ i, (probeLog (histOf c.trace i)).present = true →
      ∀ ev ∈ histOf c.trace i, runsLoad ev = false) ∧
    (∀ i rpc reply, replied c i = some (rpc, reply) → saysCached reply = true →
      ∀ ev ∈ histOf c.trace i, runsLoad ev = false) ∧
    total loadSucceeds (c.trace.map Entry.event) ≤ c.shared.cache.metrics.misses + countingMiss c := by
  have hc := probing_run hrun hserved
  have hquiet : ∀ i, (probeLog (histOf c.trace i)).present = true →
      ∀ ev ∈ histOf c.trace i, runsLoad ev = false := by
    intro i hpresent
    have hacc := hc.outline.inv.2 i
    refine hacc.quiet (Bool.eq_false_iff.mpr fun hran => ?_)
    exact absurd (hacc.absent hran) (by rw [hpresent]; exact Bool.noConfusion)
  refine ⟨hquiet, fun i rpc reply hi hflag => ?_, ?_⟩
  · exact hquiet i ((ends_of_replied hc.outline hi).2 hflag)
  · rw [hc.outline.inv.1, total_trace hc.outline.recorded.tids, total_trace hc.outline.recorded.tids,
      countingMiss, Finset.card_filter, ← Finset.sum_add_distrib]
    refine Finset.sum_le_sum fun i _ => ?_
    have hacc := hc.outline.inv.2 i
    rw [hacc.loaded]
    by_cases hsettled : (probeLog (histOf c.trace i)).Settled
    · have hle : (probeLog (histOf c.trace i)).loaded.toNat ≤
          (probeLog (histOf c.trace i)).counted.toNat := by
        cases hloaded : (probeLog (histOf c.trace i)).loaded with
        | false => exact Nat.zero_le _
        | true => rw [hsettled hloaded]
      exact (hle.trans hacc.counted).trans (Nat.le_add_right _ _)
    · rw [if_pos (hc.counts_next hsettled)]
      exact (Bool.toNat_le _).trans (Nat.le_add_left _ _)

end

/-- A lookup loads the key; then another lookup is told that the entry is there. -/
def lookupThenProbe : List (Action Choice (EnvAction anyPlatform) Party) :=
  [.exec 0 .success, .spawn (.rpc lookupCall)] ++ execs 1 7 .success ++ execs 0 11 .success ++
    execs 1 6 .success ++ [.spawn (.rpc lookupCall)] ++ execs 2 2 .success

/-- When the entry is still there, the second lookup is served from the cache. -/
theorem served_from_cache_second_lookup :
    ∃ c : Config Op.Ans (Shared anyPlatform) Party ThreadResult,
      (pooledProxy anyPlatform (.plain 1 10)).run (started _ 0 [7] ())
        (lookupThenProbe ++ execs 2 5 .success) = some c ∧
      (replied c 2).map (fun r => saysCached r.2) = some true ∧
      ∀ ev ∈ histOf c.trace 2, runsLoad ev = false := by
  have hflag : ((pooledProxy anyPlatform (.plain 1 10)).run (started _ 0 [7] ())
      (lookupThenProbe ++ execs 2 5 .success)).map
      (fun c => (replied c 2).map fun r => saysCached r.2) = some (some true) := by
    decide +kernel
  have hserved : (pooledProxy anyPlatform (.plain 1 10)).Throughout
      (fun c a => stillServed c a = true) (started _ 0 [7] ())
      (lookupThenProbe ++ execs 2 5 .success) := by
    decide +kernel
  obtain ⟨c, hrun, hc⟩ := Option.map_eq_some_iff.mp hflag
  obtain ⟨⟨rpc, reply⟩, hreplied, hcached⟩ := Option.map_eq_some_iff.mp hc
  exact ⟨c, hrun, hc,
    (served_from_cache_truthful hrun hserved).2.1 2 rpc reply hreplied hcached⟩

/-- Entries live for ten units of time here: this one expires before the second lookup asks for
it. -/
def entryExpires : List (Action Choice (EnvAction anyPlatform) Party) :=
  lookupThenProbe ++ [.env (.tick 10), .again 0, .exec 0 .success] ++ execs 2 5 .success ++
    execs 0 10 .success ++ execs 2 6 .success

/-- The second lookup runs its load, which sends a job to the token, and replies that it was served
from the cache; two loads have succeeded, and one miss is counted. -/
theorem served_from_cache_after_expiry :
    ((pooledProxy anyPlatform (.plain 1 10)).run (started _ 0 [7] ()) entryExpires).map
      (fun c => ((replied c 2).map (fun r => saysCached r.2),
        (histOf c.trace 2).filterMap fun ev => ev.1.sends)) =
      some (some true, [.getPublicKey "k"]) ∧
    ((pooledProxy anyPlatform (.plain 1 10)).run (started _ 0 [7] ()) entryExpires).map
      (fun c => (total loadSucceeds (c.trace.map Entry.event), c.shared.cache.metrics.misses,
        countingMiss c)) = some (2, 1, 0) := by
  refine ⟨by decide +kernel, by decide +kernel⟩

end HsmProxy
