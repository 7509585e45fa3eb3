import HsmProxy.Cache.CacheSteps
import HsmProxy.Service.Steps

/-!
# The gauge sampler

Next to the server runs one task that reads levels and totals from the pool, the cache and the
breaker, and exports them.  The reads of a round are separate, and the proxy goes on between them.
The system here has the sampler as its only thread; what the proxy does is what the environment does.

The totals are exported as differences to the round before.  `exports_truthful`: whatever the proxy
does, an exported total is never ahead of its source, and at the end of a round everything exported
was so at some moment of that round; the number of cache entries is what `entry_count` has answered
in it.
-/

namespace HsmProxy

open Interleaving Interleaving.Prog

/-- The gauges the sampler sets. -/
inductive Gauge where
  | queueDepth
  | cacheEntries
  | breakerState
  deriving DecidableEq, Repr

/-- The totals the sampler exports. -/
inductive Sampled where
  | cacheHits
  | cacheMisses
  | shed
  | sessionResets
  | breakerTrips
  deriving DecidableEq, Repr

/-- The atomic steps of the sampler. -/
inductive SamplerOp where
  | tick
  | queueLen
  | entryCount
  | breakerState
  | load (total : Sampled)
  | setGauge (gauge : Gauge) (value : ℕ)
  | increment (total : Sampled) (amount : ℕ)
  | absolute (total : Sampled) (value : ℕ)
  deriving DecidableEq, Repr

/-- What the steps return. -/
abbrev SamplerOp.Ans : SamplerOp → Type
  | .tick => Unit
  | .queueLen => ℕ
  | .entryCount => ℕ
  | .breakerState => BreakerState
  | .load _ => ℕ
  | .setGauge _ _ => Unit
  | .increment _ _ => Unit
  | .absolute _ _ => Unit

/-- The totals of the round before. -/
structure LastTotals where
  hits : ℕ
  misses : ℕ
  shed : ℕ
  resets : ℕ
  deriving DecidableEq, Repr

/-- What the sampler starts with. -/
def LastTotals.zero : LastTotals := ⟨0, 0, 0, 0⟩

/-- The exported number of a state of the breaker. -/
def BreakerState.code : BreakerState → ℕ
  | .closed => 0
  | .open => 1
  | .halfOpen => 2

/-- One step of the sampler. -/
def samplerCall (o : SamplerOp) : Prog SamplerOp.Ans o.Ans := op o

/-- One round of the loop of `spawn_gauge_sampler`. -/
def gaugeSamplerRound (last : LastTotals) : Prog SamplerOp.Ans LastTotals := do
  samplerCall .tick
  let depth ← samplerCall .queueLen
  samplerCall (.setGauge .queueDepth depth)
  let entries ← samplerCall .entryCount
  samplerCall (.setGauge .cacheEntries entries)
  let state ← samplerCall .breakerState
  samplerCall (.setGauge .breakerState (BreakerState.code state))
  let hits ← samplerCall (.load .cacheHits)
  let misses ← samplerCall (.load .cacheMisses)
  samplerCall (.increment .cacheHits (hits - last.hits))
  samplerCall (.increment .cacheMisses (misses - last.misses))
  let shed ← samplerCall (.load .shed)
  let resets ← samplerCall (.load .sessionResets)
  samplerCall (.increment .shed (shed - last.shed))
  samplerCall (.increment .sessionResets (resets - last.resets))
  let trips ← samplerCall (.load .breakerTrips)
  samplerCall (.absolute .breakerTrips trips)
  return ⟨hits, misses, shed, resets⟩

/-- What the recorder holds; `none` for a gauge that was not set yet. -/
structure Exporter where
  gauges : Gauge → Option ℕ
  totals : Sampled → ℕ

/-- The recorder when it is installed. -/
def Exporter.new : Exporter := ⟨fun _ => none, fun _ => 0⟩

variable {P : Platform}

/-- The total in the proxy. -/
def Sampled.value : Sampled → Shared P → ℕ
  | .cacheHits, s => s.cache.metrics.hits
  | .cacheMisses, s => s.cache.metrics.misses
  | .shed, s => s.pool.counters .jobsRejectedQueueFull
  | .sessionResets, s => s.pool.counters .sessionResets
  | .breakerTrips, s => s.breaker.trips

variable (P) in
/-- The proxy, the recorder, and when the ticker fires next. -/
structure Observed where
  proxy : Config Op.Ans (Shared P) Party ThreadResult
  exporter : Exporter
  due : ℕ

/-- One step of the sampler.  The number of cache entries is an estimate of the cache's own. -/
def execSampler (interval estimate : ℕ) (s : Observed P) :
    (o : SamplerOp) → Option (o.Ans × Observed P)
  | .tick =>
    if s.due ≤ s.proxy.shared.now then some ((), { s with due := s.due + interval }) else none
  | .queueLen => some (s.proxy.shared.pool.queue.length, s)
  | .entryCount => some (estimate, s)
  | .breakerState => some (s.proxy.shared.breaker.state, s)
  | .load total => some (total.value s.proxy.shared, s)
  | .setGauge gauge value => some ((), { s with exporter := { s.exporter with
      gauges := Function.update s.exporter.gauges gauge (some value) } })
  | .increment total amount => some ((), { s with exporter := { s.exporter with
      totals := Function.update s.exporter.totals total (s.exporter.totals total + amount) } })
  | .absolute total value => some ((), { s with exporter := { s.exporter with
      totals := Function.update s.exporter.totals total (max (s.exporter.totals total) value) } })

variable (P) in
/-- The sampler beside a proxy in pool mode. -/
def sampling (cfg : ServiceConfig) (interval : ℕ) :
    System SamplerOp.Ans (Observed P) ℕ (Action Choice (EnvAction P) Party) Unit LastTotals where
  body _ := gaugeSamplerRound .zero
  again _ last := some (gaugeSamplerRound last)
  spawnable _ := false
  exec estimate _ s o := execSampler interval estimate s o
  droppable _ _ := false
  cancel _ _ s := s
  env a s := ((pooledProxy P cfg).step s.proxy a).map fun c => { s with proxy := c }

variable (P) in
/-- The sampler is spawned beside a pool that was started. -/
def samplerSpawned (t₀ : ℕ) (sessions : List SessionHandle) (token : P.token.State) :
    Config SamplerOp.Ans (Observed P) Unit LastTotals where
  shared := ⟨started P t₀ sessions token, .new, t₀⟩
  threads i := if i = 0 then some ⟨(), [], gaugeSamplerRound .zero⟩ else none
  spawned := 1
  trace := []

/-! ## Totals only grow -/

/-- A step of the breaker does not lower its trips. -/
lemma Breaker.trips_le_exec (cfg : BreakerConfig) (now : ℕ) (b : Breaker) (o : BreakerOp) :
    b.trips ≤ (b.exec cfg now o).2.trips := by
  cases o with
  | load => exact Nat.le_refl _
  | probe =>
    simp only [Breaker.exec, Breaker.probe]
    split <;> exact Nat.le_refl _
  | recordSuccess =>
    simp only [Breaker.exec, Breaker.recordSuccess]
    split
    · split <;> exact Nat.le_refl _
    · exact Nat.le_refl _
  | recordFailure =>
    simp only [Breaker.exec, Breaker.recordFailure]
    split
    · exact Nat.le_refl _
    · split
      · exact Nat.le_succ _
      · exact Nat.le_refl _

/-- A step of the cache does not lower its counts. -/
lemma CacheState.metrics_le_exec {cfg : CacheConfig} {now tid : ℕ} {s s' : CacheState} {q : CacheOp}
    {a : q.Ans} (h : s.exec cfg now tid q = some (a, s')) :
    s.metrics.hits ≤ s'.metrics.hits ∧ s.metrics.misses ≤ s'.metrics.misses := by
  cases q with
  | containsKey label =>
    cases h
    exact ⟨Nat.le_refl _, Nat.le_refl _⟩
  | enter label =>
    obtain ⟨e, -, -, -, rfl⟩ | ⟨k, l, -, -, -, rfl⟩ | ⟨k, -, -, rfl⟩ | ⟨-, -, rfl⟩ :=
      CacheState.exec_enter h <;> exact ⟨Nat.le_refl _, Nat.le_refl _⟩
  | wait k =>
    obtain ⟨l, r, -, -, -, rfl⟩ | ⟨label, -, -, rfl⟩ := CacheState.exec_wait h <;>
      exact ⟨Nat.le_refl _, Nat.le_refl _⟩
  | finish k outcome =>
    cases h
    simp only [CacheState.finish]
    split
    · cases outcome <;> exact ⟨Nat.le_refl _, Nat.le_refl _⟩
    · exact ⟨Nat.le_refl _, Nat.le_refl _⟩
  | countHit negative =>
    cases h
    exact ⟨Nat.le_succ _, Nat.le_refl _⟩
  | countMiss =>
    cases h
    exact ⟨Nat.le_refl _, Nat.le_succ _⟩

/-- A step of a thread does not lower a total. -/
lemma Sampled.value_le_execOp {cfg : ServiceConfig} {e : Choice} {tid : ℕ} {s s' : Shared P} {o : Op}
    {a : o.Ans} (h : execOp cfg e tid s o = some (a, s')) (total : Sampled) :
    total.value s ≤ total.value s' := by
  have hpool : ∀ c, s.pool.counters c ≤ s'.pool.counters c := fun c =>
    (Nat.le_add_right _ _).trans (execOp_counters h c).ge
  have hcache : s.cache.metrics.hits ≤ s'.cache.metrics.hits ∧
      s.cache.metrics.misses ≤ s'.cache.metrics.misses := by
    by_cases ho : ∃ q, o = .cache q
    · obtain ⟨q, rfl⟩ := ho
      obtain ⟨p, hp, rfl⟩ := execOp_cache.mp h
      exact CacheState.metrics_le_exec hp
    · rw [(execOp_frame h).cache fun q hq => ho ⟨q, hq⟩]
      exact ⟨Nat.le_refl _, Nat.le_refl _⟩
  have hbreaker : s.breaker.trips ≤ s'.breaker.trips := by
    by_cases ho : ∃ q, o = .breaker q
    · obtain ⟨q, rfl⟩ := ho
      obtain ⟨-, rfl⟩ := execOp_breaker.mp h
      exact Breaker.trips_le_exec _ _ _ q
    · rw [(execOp_frame h).breaker fun q hq => ho ⟨q, hq⟩]
  cases total with
  | cacheHits => exact hcache.1
  | cacheMisses => exact hcache.2
  | shed => exact hpool _
  | sessionResets => exact hpool _
  | breakerTrips => exact hbreaker

/-- Nothing the proxy does lowers a total. -/
theorem Sampled.value_le_step {cfg : ServiceConfig}
    {c c' : Config Op.Ans (Shared P) Party ThreadResult} {a : Action Choice (EnvAction P) Party}
    (h : (pooledProxy P cfg).step c a = some c') (total : Sampled) :
    total.value c.shared ≤ total.value c'.shared := by
  rcases System.step_cases h with ⟨l, -, -, rfl⟩ | ⟨i, e, l, hist, o, k, ans, s', -, -, he, rfl⟩ |
    ⟨i, l, hist, r, p, -, -, -, rfl⟩ | ⟨i, l, hist, o, k, -, -, -, rfl⟩ | ⟨v, s', -, hv, rfl⟩
  · exact Nat.le_refl _
  · exact Sampled.value_le_execOp he total
  · exact Nat.le_refl _
  · cases l <;> cases total <;> exact Nat.le_refl _
  · obtain rfl := Option.some.inj hv
    cases v <;> cases total <;> exact Nat.le_refl _

/-! ## What a round has read and exported -/

/-- What the sampler has read since the ticker fired, and what it has exported. -/
structure SampleLog where
  levels : Gauge → Option ℕ
  reads : Sampled → Option ℕ
  shown : Gauge → Option ℕ
  exported : Sampled → ℕ

namespace SampleLog

/-- The log of a sampler that has not run. -/
def empty : SampleLog := ⟨fun _ => none, fun _ => none, fun _ => none, fun _ => 0⟩

/-- One more event. -/
def note (g : SampleLog) : Event SamplerOp.Ans → SampleLog
  | ⟨.tick, _⟩ => { g with levels := fun _ => none, reads := fun _ => none }
  | ⟨.queueLen, depth⟩ => { g with levels := Function.update g.levels .queueDepth (some depth) }
  | ⟨.entryCount, entries⟩ =>
    { g with levels := Function.update g.levels .cacheEntries (some entries) }
  | ⟨.breakerState, state⟩ =>
    { g with levels := Function.update g.levels .breakerState (some (BreakerState.code state)) }
  | ⟨.load total, value⟩ => { g with reads := Function.update g.reads total (some value) }
  | ⟨.setGauge gauge value, _⟩ => { g with shown := Function.update g.shown gauge (some value) }
  | ⟨.increment total amount, _⟩ =>
    { g with exported := Function.update g.exported total (g.exported total + amount) }
  | ⟨.absolute total value, _⟩ =>
    { g with exported := Function.update g.exported total (max (g.exported total) value) }

/-- The totals a round starts with are those exported. -/
structure Matches (g : SampleLog) (last : LastTotals) : Prop where
  hits : g.exported .cacheHits = last.hits
  misses : g.exported .cacheMisses = last.misses
  shed : g.exported .shed = last.shed
  resets : g.exported .sessionResets = last.resets

/-- Everything was read in this round, and is exported as it was read. -/
structure Complete (g : SampleLog) : Prop where
  totals : ∀ total, g.reads total = some (g.exported total)
  gauges : ∀ gauge, (g.levels gauge).isSome ∧ g.shown gauge = g.levels gauge

end SampleLog

/-- What is exported brings a total to the value read, or a gauge to the level read; a total that is
read is not below what is exported of it. -/
def sampleContract : Contract SamplerOp.Ans SampleLog where
  init := .empty
  next g o a := g.note ⟨o, a⟩
  pre g o :=
    match o with
    | .setGauge gauge value => g.levels gauge = some value
    | .increment total amount => g.reads total = some (g.exported total + amount)
    | .absolute total value => g.reads total = some value
    | _ => True
  post g o a :=
    match o, a with
    | .load total, value => g.exported total ≤ value
    | _, _ => True

/-- The rule for one step of the sampler. -/
lemma meets_samplerCall {α : Type} {Q : SampleLog → α → Prop} {g : SampleLog} {o : SamplerOp}
    {k : o.Ans → Prog SamplerOp.Ans α} (hpre : sampleContract.pre g o)
    (hk : ∀ a, sampleContract.post g o a → (k a).Meets sampleContract Q (g.note ⟨o, a⟩)) :
    (samplerCall o >>= k).Meets sampleContract Q g :=
  ⟨hpre, hk⟩

/-- The difference to the round before brings a total to the value read. -/
lemma SampleLog.exported_add_sub {g : SampleLog} {total : Sampled} {last value : ℕ}
    (hlast : g.exported total = last) (hvalue : g.exported total ≤ value) :
    some value = some (g.exported total + (value - last)) := by
  rw [← hlast, Nat.add_sub_cancel' hvalue]

/-- A round exports what it reads. -/
theorem gaugeSamplerRound_meets {g : SampleLog} {last : LastTotals} (hg : g.Matches last) :
    (gaugeSamplerRound last).Meets sampleContract
      (fun g' last' => g'.Matches last' ∧ g'.Complete) g := by
  obtain ⟨hhits, hmisses, hshed, hresets⟩ := hg
  refine meets_samplerCall True.intro fun _ _ => ?_
  -- the gauges
  refine meets_samplerCall True.intro fun depth _ => meets_samplerCall rfl fun _ _ => ?_
  refine meets_samplerCall True.intro fun entries _ => meets_samplerCall rfl fun _ _ => ?_
  refine meets_samplerCall True.intro fun state _ => meets_samplerCall rfl fun _ _ => ?_
  -- the totals of the cache
  refine meets_samplerCall True.intro fun hits hread₁ => ?_
  refine meets_samplerCall True.intro fun misses hread₂ => ?_
  refine meets_samplerCall (SampleLog.exported_add_sub hhits hread₁) fun _ _ => ?_
  refine meets_samplerCall (SampleLog.exported_add_sub hmisses hread₂) fun _ _ => ?_
  -- the totals of the pool
  refine meets_samplerCall True.intro fun shed hread₃ => ?_
  refine meets_samplerCall True.intro fun resets hread₄ => ?_
  refine meets_samplerCall (SampleLog.exported_add_sub hshed hread₃) fun _ _ => ?_
  refine meets_samplerCall (SampleLog.exported_add_sub hresets hread₄) fun _ _ => ?_
  -- the trips of the breaker
  refine meets_samplerCall True.intro fun trips htrips => meets_samplerCall rfl fun _ _ => ?_
  have hhits' := SampleLog.exported_add_sub hhits hread₁
  have hmisses' := SampleLog.exported_add_sub hmisses hread₂
  have hshed' := SampleLog.exported_add_sub hshed hread₃
  have hresets' := SampleLog.exported_add_sub hresets hread₄
  refine ⟨⟨?_, ?_, ?_, ?_⟩, fun total => ?_, fun gauge => ?_⟩
  · exact (Option.some.inj hhits').symm
  · exact (Option.some.inj hmisses').symm
  · exact (Option.some.inj hshed').symm
  · exact (Option.some.inj hresets').symm
  · cases total with
    | cacheHits => exact hhits'
    | cacheMisses => exact hmisses'
    | shed => exact hshed'
    | sessionResets => exact hresets'
    | breakerTrips => exact congrArg some (Nat.max_eq_right htrips).symm
  · cases gauge <;> exact ⟨rfl, rfl⟩

/-! ## Every run -/

/-- The value is that of the gauge at an entry of the trace: the level in the proxy, and for the number
of cache entries the estimate that is answered there. -/
def Gauge.Shows : Gauge → Entry SamplerOp.Ans (Observed P) Unit → ℕ → Prop
  | .queueDepth, en, value => value = en.before.proxy.shared.pool.queue.length
  | .cacheEntries, en, value => en.event = ⟨.entryCount, value⟩
  | .breakerState, en, value => value = en.before.proxy.shared.breaker.state.code

/-- The log of the sampler, read off the trace. -/
def sampleLog (tr : List (Entry SamplerOp.Ans (Observed P) Unit)) : SampleLog :=
  sampleContract.ghost (histOf tr 0)

/-- One more entry. -/
lemma sampleLog_snoc {tr : List (Entry SamplerOp.Ans (Observed P) Unit)}
    {en : Entry SamplerOp.Ans (Observed P) Unit} (hen : en.tid = 0) :
    sampleLog (tr ++ [en]) = (sampleLog tr).note en.event := by
  unfold sampleLog
  rw [histOf_snoc, if_pos hen, Contract.ghost_snoc]
  rfl

/-- What was so at a moment since the ticker fired: the entries of the round carry the states. -/
def InRound (tr : List (Entry SamplerOp.Ans (Observed P) Unit))
    (p : Entry SamplerOp.Ans (Observed P) Unit → Prop) : Prop :=
  ∃ tr₁ en tr₂, tr = tr₁ ++ en :: tr₂ ∧ (∀ en' ∈ en :: tr₂, en'.event.1 ≠ .tick) ∧ p en

/-- The recorder holds what the log says, and what was read in the round was so in the round. -/
structure Exporting (g : SampleLog) (s : Observed P)
    (tr : List (Entry SamplerOp.Ans (Observed P) Unit)) : Prop where
  totals : s.exporter.totals = g.exported
  gauges : s.exporter.gauges = g.shown
  behind : ∀ total, g.exported total ≤ total.value s.proxy.shared
  read : ∀ total value, g.reads total = some value →
    value ≤ total.value s.proxy.shared ∧
      InRound tr fun en => total.value en.before.proxy.shared = value
  level : ∀ gauge value, g.levels gauge = some value → InRound tr fun en => gauge.Shows en value

section

variable {s s' : Observed P} {tr : List (Entry SamplerOp.Ans (Observed P) Unit)} {g : SampleLog}
  {en : Entry SamplerOp.Ans (Observed P) Unit}

/-- More entries of the round. -/
lemma InRound.snoc {p : Entry SamplerOp.Ans (Observed P) Unit → Prop} (h : InRound tr p)
    (hen : en.event.1 ≠ .tick) : InRound (tr ++ [en]) p := by
  obtain ⟨tr₁, en₁, tr₂, rfl, htick, hp⟩ := h
  refine ⟨tr₁, en₁, tr₂ ++ [en], by rw [List.append_assoc, List.cons_append], ?_, hp⟩
  rw [← List.cons_append]
  intro en' hen'
  rcases List.mem_append.mp hen' with hen' | hen'
  · exact htick en' hen'
  · rw [List.mem_singleton.mp hen']
    exact hen

/-- The entry that is added. -/
lemma InRound.last {p : Entry SamplerOp.Ans (Observed P) Unit → Prop} (hen : en.event.1 ≠ .tick)
    (hp : p en) : InRound (tr ++ [en]) p := by
  refine ⟨tr, en, [], rfl, fun en' hen' => ?_, hp⟩
  rw [List.mem_singleton.mp hen']
  exact hen

namespace Exporting

/-- The proxy goes on. -/
lemma proxy (h : Exporting g s tr) {cfg : ServiceConfig} {a : Action Choice (EnvAction P) Party}
    {c : Config Op.Ans (Shared P) Party ThreadResult}
    (hstep : (pooledProxy P cfg).step s.proxy a = some c) : Exporting g { s with proxy := c } tr := by
  have hle : ∀ total : Sampled, total.value s.proxy.shared ≤ total.value c.shared :=
    fun total => total.value_le_step hstep
  refine ⟨h.totals, h.gauges, fun total => (h.behind total).trans (hle total), ?_, h.level⟩
  intro total value hvalue
  obtain ⟨hbound, hround⟩ := h.read total value hvalue
  exact ⟨hbound.trans (hle total), hround⟩

/-- What was read stays so. -/
lemma read_snoc (h : Exporting g s tr) (hproxy : s'.proxy = s.proxy) (hen : en.event.1 ≠ .tick)
    (total : Sampled) (value : ℕ) (hvalue : g.reads total = some value) :
    value ≤ total.value s'.proxy.shared ∧
      InRound (tr ++ [en]) fun en => total.value en.before.proxy.shared = value := by
  rw [hproxy]
  exact ⟨(h.read total value hvalue).1, (h.read total value hvalue).2.snoc hen⟩

/-- A level is read. -/
lemma readLevel (h : Exporting g s tr) {gauge : Gauge} {value : ℕ} (hen : en.event.1 ≠ .tick)
    (hshows : gauge.Shows en value) :
    Exporting { g with levels := Function.update g.levels gauge (some value) } s (tr ++ [en]) := by
  refine ⟨h.totals, h.gauges, h.behind, h.read_snoc rfl hen, fun gauge' value' hvalue => ?_⟩
  dsimp only at hvalue
  by_cases hg : gauge' = gauge
  · subst hg
    rw [Function.update_self] at hvalue
    cases hvalue
    exact .last hen hshows
  · rw [Function.update_of_ne hg] at hvalue
    exact (h.level gauge' value' hvalue).snoc hen

/-- A total is brought to a value that is not ahead of its source. -/
lemma bring (h : Exporting g s tr) {total : Sampled} {value : ℕ} (hen : en.event.1 ≠ .tick)
    (hvalue : value ≤ total.value s.proxy.shared) :
    Exporting { g with exported := Function.update g.exported total value }
      { s with exporter := { s.exporter with
        totals := Function.update s.exporter.totals total value } } (tr ++ [en]) := by
  refine ⟨by rw [h.totals], h.gauges, fun total' => ?_, h.read_snoc rfl hen,
    fun gauge value hv => (h.level gauge value hv).snoc hen⟩
  dsimp only
  by_cases ht : total' = total
  · subst ht
    rw [Function.update_self]
    exact hvalue
  · rw [Function.update_of_ne ht]
    exact h.behind total'

/-- A step of the sampler. -/
theorem exec (h : Exporting g s tr) {interval estimate : ℕ} {o : SamplerOp} {a : o.Ans}
    {hist : List (Event SamplerOp.Ans)} (hpre : sampleContract.pre g o)
    (he : execSampler interval estimate s o = some (a, s')) :
    sampleContract.post g o a ∧ Exporting (g.note ⟨o, a⟩) s' (tr ++ [⟨0, (), hist, s, ⟨o, a⟩⟩]) := by
  cases o with
  | tick =>
    simp only [execSampler] at he
    split at he
    · cases he
      exact ⟨True.intro, h.totals, h.gauges, h.behind, fun _ _ hv => (by cases hv),
        fun _ _ hv => (by cases hv)⟩
    · cases he
  | queueLen =>
    cases he
    exact ⟨True.intro, h.readLevel SamplerOp.noConfusion rfl⟩
  | entryCount =>
    cases he
    exact ⟨True.intro, h.readLevel SamplerOp.noConfusion rfl⟩
  | breakerState =>
    cases he
    exact ⟨True.intro, h.readLevel SamplerOp.noConfusion rfl⟩
  | load total =>
    cases he
    refine ⟨h.behind total, h.totals, h.gauges, h.behind, fun total' value hvalue => ?_,
      fun gauge value hv => (h.level gauge value hv).snoc SamplerOp.noConfusion⟩
    simp only [SampleLog.note] at hvalue
    by_cases ht : total' = total
    · subst ht
      rw [Function.update_self] at hvalue
      cases hvalue
      exact ⟨Nat.le_refl _, .last SamplerOp.noConfusion rfl⟩
    · rw [Function.update_of_ne ht] at hvalue
      exact h.read_snoc rfl SamplerOp.noConfusion total' value hvalue
  | setGauge gauge value =>
    cases he
    refine ⟨True.intro, h.totals, ?_, h.behind, h.read_snoc rfl SamplerOp.noConfusion,
      fun gauge value hv => (h.level gauge value hv).snoc SamplerOp.noConfusion⟩
    simp only [SampleLog.note, h.gauges]
  | increment total amount =>
    cases he
    have hvalue : g.exported total + amount ≤ total.value s.proxy.shared := (h.read total _ hpre).1
    refine ⟨True.intro, ?_⟩
    rw [show s.exporter.totals total + amount = g.exported total + amount by rw [h.totals]]
    exact h.bring SamplerOp.noConfusion hvalue
  | absolute total value =>
    cases he
    have hvalue : max (g.exported total) value ≤ total.value s.proxy.shared :=
      max_le (h.behind total) (h.read total _ hpre).1
    refine ⟨True.intro, ?_⟩
    rw [show max (s.exporter.totals total) value = max (g.exported total) value by rw [h.totals]]
    exact h.bring SamplerOp.noConfusion hvalue

end Exporting

end

section

variable {cfg : ServiceConfig} {interval t₀ : ℕ} {sessions : List SessionHandle}
  {token : P.token.State}

/-- The sampler is the only thread. -/
def Alone (c : Config SamplerOp.Ans (Observed P) Unit LastTotals) : Prop :=
  ∀ i t, c.threads i = some t → i = 0

/-- The sampler stays the only thread: no other can be spawned. -/
lemma alone_step {c c' : Config SamplerOp.Ans (Observed P) Unit LastTotals}
    {a : Action ℕ (Action Choice (EnvAction P) Party) Unit} (hc : Alone c)
    (h : (sampling P cfg interval).step c a = some c') : Alone c' := by
  intro j t hj
  rcases System.label_of_step h hj with ⟨t', ht', -⟩ | ⟨-, -, hnew⟩
  · exact hc j t' ht'
  · cases hnew

/-- The obligations of the shared-invariant method. -/
lemma sampling_sound : System.Sound (sampling P cfg interval) (fun c _ => Alone c)
    (fun _ => sampleContract) (fun _ g last => g.Matches last ∧ g.Complete)
    (fun s tr => Exporting (sampleLog tr) s tr) where
  body l hl := by cases hl
  again l g last p hg hp := by
    obtain rfl := Option.some.inj hp
    exact gaugeSamplerRound_meets hg.1
  exec c i e l o k a s' hc halone ht hpre he := by
    obtain rfl := halone i _ ht
    rw [sampleLog_snoc rfl]
    exact hc.inv.exec hpre he
  cancel c i l o k hc halone ht hd := by cases hd
  env c v s' hc halone hv := by
    obtain ⟨c', hstep, rfl⟩ := Option.map_eq_some_iff.mp hv
    exact hc.inv.proxy hstep

/-- What is exported is truthful, in every interleaving of the sampler with the proxy: no total is
ahead of its source, and at the end of a round every total and gauge is what it was at some moment
since the ticker fired; the number of cache entries is one that `entry_count` answered since then. -/
theorem exports_truthful {as : List (Action ℕ (Action Choice (EnvAction P) Party) Unit)}
    {c : Config SamplerOp.Ans (Observed P) Unit LastTotals}
    (hrun : (sampling P cfg interval).run (samplerSpawned P t₀ sessions token) as = some c) :
    (∀ total, c.shared.exporter.totals total ≤ total.value c.shared.proxy.shared) ∧
    ((c.returned 0).isSome →
      (∀ total, InRound c.trace fun en =>
        c.shared.exporter.totals total = total.value en.before.proxy.shared) ∧
      ∀ gauge, ∃ value, c.shared.exporter.gauges gauge = some value ∧
        InRound c.trace fun en => gauge.Shows en value) := by
  have halone : Alone (samplerSpawned P t₀ sessions token) := by
    intro i t hi
    by_contra hne
    simp [samplerSpawned, hne] at hi
  have hstart : System.Outline (fun _ => sampleContract) (fun _ g last => g.Matches last ∧ g.Complete)
      (fun s tr => Exporting (sampleLog tr) s tr) (samplerSpawned P t₀ sessions token) := by
    refine ⟨System.Recorded.start (fun i hi => ?_) (fun i t hi => ?_) rfl, ?_, fun i t hi => ?_⟩
    · exact if_neg (Nat.pos_iff_ne_zero.mp hi)
    · obtain rfl := halone i t hi
      cases hi
      rfl
    · exact ⟨rfl, rfl, fun _ => Nat.zero_le _, fun _ _ hv => (by cases hv),
        fun _ _ hv => (by cases hv)⟩
    · obtain rfl := halone i t hi
      cases hi
      exact gaugeSamplerRound_meets ⟨rfl, rfl, rfl, rfl⟩
  have hc := sampling_sound.run hstart
    (System.throughout_invariant (fun _ _ _ hc h => alone_step hc h) halone) hrun
  refine ⟨fun total => ?_, fun hreturned => ?_⟩
  · rw [hc.inv.totals]
    exact hc.inv.behind total
  · obtain ⟨⟨l, last⟩, hreturned⟩ := Option.isSome_iff_exists.mp hreturned
    obtain ⟨hist, ht⟩ := System.exists_returned hreturned
    obtain rfl := hc.recorded.hist 0 _ ht
    obtain ⟨-, hcomplete⟩ : (sampleLog c.trace).Matches last ∧ (sampleLog c.trace).Complete :=
      hc.threads 0 _ ht
    refine ⟨fun total => ?_, fun gauge => ?_⟩
    · rw [hc.inv.totals]
      obtain ⟨tr₁, en, tr₂, htr, htick, hvalue⟩ := (hc.inv.read total _ (hcomplete.totals total)).2
      exact ⟨tr₁, en, tr₂, htr, htick, hvalue.symm⟩
    · obtain ⟨hsome, hshown⟩ := hcomplete.gauges gauge
      obtain ⟨value, hvalue⟩ := Option.isSome_iff_exists.mp hsome
      exact ⟨value, by rw [hc.inv.gauges, hshown, hvalue], hc.inv.level gauge value hvalue⟩

end

/-- A request that is shed, and then a round of the sampler, to which the cache says three entries. -/
def shedSampled : List (Action ℕ (Action Choice (EnvAction anyPlatform) Party) Unit) :=
  [.env (.spawn (.rpc signCall))] ++ List.replicate 5 (.env (.exec 1 .success)) ++
    List.replicate 17 (.exec 0 3)

/-- The round exports the request and the three entries, both of this round. -/
theorem exports_truthful_shed :
    ∃ c : Config SamplerOp.Ans (Observed anyPlatform) Unit LastTotals,
      (sampling anyPlatform (.plain 0 10) 1000).run (samplerSpawned _ 0 [7] ()) shedSampled = some c ∧
      (∀ total, c.shared.exporter.totals total ≤ total.value c.shared.proxy.shared) ∧
      InRound c.trace (fun en => 1 = Sampled.value .shed en.before.proxy.shared) ∧
      InRound c.trace (fun en => en.event = ⟨.entryCount, 3⟩) := by
  have hend : ((sampling anyPlatform (.plain 0 10) 1000).run (samplerSpawned _ 0 [7] ())
      shedSampled).map (fun c => ((c.returned 0).isSome, c.shared.exporter.totals .shed,
        c.shared.exporter.gauges .cacheEntries)) = some (true, 1, some 3) := by
    decide +kernel
  obtain ⟨c, hrun, hc⟩ := Option.map_eq_some_iff.mp hend
  obtain ⟨hreturned, hc⟩ := Prod.mk.inj hc
  obtain ⟨hshed, hentries⟩ := Prod.mk.inj hc
  obtain ⟨hbehind, hround⟩ := exports_truthful hrun
  have htotal := (hround hreturned).1 .shed
  rw [hshed] at htotal
  obtain ⟨value, hvalue, hgauge⟩ := (hround hreturned).2 .cacheEntries
  obtain rfl : value = 3 := Option.some.inj (hvalue.symm.trans hentries)
  exact ⟨c, hrun, hbehind, htotal, hgauge⟩

end HsmProxy
