import HsmProxy.Cache.KeyLookup
import HsmProxy.Service.Backends

/-!
# Who runs a load

A handler that enters the cache runs the load of its label or joins the one that is running.
`LoadLog` is what its history says about that, `Flight` relates the loads of the cache to the logs of
the live handlers: a load without an outcome that has a runner is run by the handler whose log says
so, and it is the load in progress for its label.  `inFlight_run` has this for every run of pool mode,
so that a handler that waits for a load waits for a live handler that runs it, or can take it over.
-/

namespace HsmProxy

open Interleaving Interleaving.Prog

/-! ## What a handler knows about its load -/

/-- The load a handler runs or waits for, with the label it asked for, and whether it runs it. -/
structure LoadLog where
  ticket : Option (String × ℕ)
  running : Bool
  deriving DecidableEq

namespace LoadLog

/-- The log of a handler that has not entered the cache. -/
def empty : LoadLog := ⟨none, false⟩

/-- One more event. -/
def note (g : LoadLog) : Event Op.Ans → LoadLog
  | ⟨.cache (.enter label), .own k⟩ => ⟨some (label, k), true⟩
  | ⟨.cache (.enter label), .join k⟩ => ⟨some (label, k), false⟩
  | ⟨.cache (.wait _), .own⟩ => { g with running := true }
  | ⟨.cache (.finish _ _), _⟩ => { g with running := false }
  | _ => g

/-- A load is entered and waited for while none is run, and finished while it is. -/
def Allows (g : LoadLog) : CacheOp → Prop
  | .enter _ => g.running = false
  | .wait k => g.running = false ∧ ∃ label, g.ticket = some (label, k)
  | .finish k _ => g.running = true ∧ ∃ label, g.ticket = some (label, k)
  | _ => True

end LoadLog

/-- The log after a history. -/
def loadLog (h : List (Event Op.Ans)) : LoadLog := h.foldl LoadLog.note .empty

/-- One more event. -/
@[simp] lemma loadLog_snoc (h : List (Event Op.Ans)) (ev : Event Op.Ans) :
    loadLog (h ++ [ev]) = (loadLog h).note ev := by
  simp [loadLog, List.foldl_append]

/-- Only steps of the cache are noted. -/
lemma LoadLog.note_of_not_cache (g : LoadLog) {o : Op} (ho : ∀ q, o ≠ .cache q) (a : o.Ans) :
    g.note ⟨o, a⟩ = g := by
  cases o with
  | cache q => exact absurd rfl (ho q)
  | _ => rfl

/-- A handler takes the steps of the cache that its log allows; a worker takes none. -/
def loadContract (party : Party) : Contract Op.Ans LoadLog where
  init := .empty
  next g o a := g.note ⟨o, a⟩
  pre g o :=
    match party, o with
    | .rpc _, .cache q => g.Allows q
    | .worker _, .cache _ => False
    | _, _ => True
  post _ _ _ := True

/-- What the threads end with: no load is left running. -/
def LoadEnds : Party → LoadLog → ThreadResult → Prop
  | .rpc _, g, _ => g.running = false
  | .worker _, _, _ => True

section

variable (P : Platform) (cfg : ServiceConfig) {rpc : Rpc} {g : LoadLog}

/-- The contract does not look at the steps around a load. -/
lemma loadContract_skip {o : Op} (ho : o.admits ∨ o.records ∨ o.countsLookup) (g : LoadLog) :
    (loadContract (.rpc rpc)).pre g o ∧ ∀ a, (loadContract (.rpc rpc)).next g o a = g := by
  cases o with
  | cache q =>
    cases q <;> first
      | exact ⟨True.intro, fun _ => rfl⟩
      | (rcases ho with ho | ho | ho <;> cases ho)
  | pool q => rcases ho with ho | ho | ho <;> cases ho
  | token q => rcases ho with ho | ho | ho <;> cases ho
  | _ => exact ⟨True.intro, fun _ => rfl⟩

/-- A submission leaves the load as it is. -/
lemma submit_load (request : JobRequest) :
    (submit cfg request).Meets (loadContract (.rpc rpc)) (fun g' _ => g' = g) g := by
  refine ⟨True.intro, fun _ _ => ⟨True.intro, fun t _ => ⟨True.intro, fun sent _ => ?_⟩⟩⟩
  cases sent with
  | error refusal =>
    cases refusal with
    | full => exact ⟨True.intro, fun _ _ => rfl⟩
    | disconnected => exact rfl
  | ok j =>
    refine ⟨True.intro, fun _ _ => ⟨True.intro, fun awaited _ => ?_⟩⟩
    cases awaited with
    | value result => exact rfl
    | closed => exact rfl
    | elapsed => exact ⟨True.intro, fun _ _ => rfl⟩

/-- A load is finished by the handler that runs it. -/
lemma runLoad_load {keyLabel : String} {k : ℕ} (hticket : g.ticket = some (keyLabel, k))
    (hrunning : g.running = true) :
    (runLoad k (loadPublicKey cfg keyLabel)).Meets (loadContract (.rpc rpc))
      (fun g' _ => g'.running = false) g := by
  rw [meets_runLoad]
  refine (submit_load cfg _).mono fun g' r hg' => ?_
  subst hg'
  exact ⟨⟨hrunning, keyLabel, hticket⟩, fun _ _ => rfl⟩

/-- The contract does not look at reports. -/
lemma observe_load {α : Type} {Q : LoadLog → Unit → Prop} (r : Except Status α) (hQ : Q g ()) :
    (observe r).Meets (loadContract (.rpc rpc)) Q g := by
  refine (observe_reports r).meets (fun o ho => ?_) fun _ => hQ
  cases o <;> first | exact ⟨True.intro, fun _ => rfl⟩ | cases ho

/-- A handler keeps to the contract, and leaves no load running. -/
theorem pooled_load :
    (pooled P cfg rpc).Meets (loadContract (.rpc rpc)) (fun g _ => g.running = false) .empty := by
  refine meets_pooled P cfg (fun g o ho => loadContract_skip (Or.inl ho) g)
    (fun g o ho => loadContract_skip (Or.inr (Or.inl ho)) g) (fun _ => rfl) fun p hp => ?_
  cases p with
  | job drawsIv request finish =>
    rw [meets_perform_job]
    refine (drawIv_only drawsIv).meets (fun o ho => ?_) fun iv => ?_
    · subst ho
      exact ⟨True.intro, fun _ => rfl⟩
    · rw [meets_submitObserved]
      refine (submit_load cfg _).mono fun g r hg => observe_load _ ?_
      subst hg
      exact rfl
  | key finish =>
    rw [meets_perform_key, meets_publicKey]
    refine meets_getOrLoad (fun g o ho => loadContract_skip (Or.inr (Or.inr ho)) g)
      ⟨rfl, fun entered _ => ?_⟩
    cases entered with
    | hit value => exact fun _ => observe_load _ rfl
    | own k => exact (runLoad_load cfg rfl rfl).mono fun g r hg _ => observe_load _ hg
    | join k =>
      refine ⟨⟨rfl, _, rfl⟩, fun joined _ => ?_⟩
      cases joined with
      | own => exact (runLoad_load cfg rfl rfl).mono fun g r hg _ => observe_load _ hg
      | finished outcome => exact fun _ => observe_load _ rfl

/-- A worker keeps to the contract. -/
theorem iterate_load {session : SessionHandle} (w : Worker) (g : LoadLog) :
    (Worker.iterate P w).Meets (loadContract (.worker session)) (fun _ _ => True) g := by
  refine (Worker.iterate_only P w).meets_of_invariant (J := fun _ => True)
    (fun g o _ ho => ⟨?_, fun _ => True.intro⟩) True.intro fun _ _ _ => True.intro
  cases o with
  | cache q => cases ho
  | _ => exact True.intro

end

/-! ## The loads of the cache and the logs of the handlers -/

/-- The loads of the cache and the logs of the live handlers. -/
structure Flight (s : CacheState) (logs : ℕ → Option LoadLog) : Prop where
  cache : CacheInv (fun _ _ => True) (fun _ _ => True) s
  unfinished : s.Unfinished
  /-- A load without an outcome is the one in progress for its label. -/
  registered : ∀ k label owner, s.loads k = some ⟨label, owner, none⟩ →
    s.inflight.lookup label = some k
  /-- The runner of a load is the live handler whose log says so. -/
  runner : ∀ i label k,
    logs i = some ⟨some (label, k), true⟩ ↔ s.loads k = some ⟨label, some i, none⟩
  /-- What a live handler asked for is a load of the label. -/
  ticket : ∀ i g label k, logs i = some g → g.ticket = some (label, k) →
    ∃ l, s.loads k = some l ∧ l.label = label

namespace CacheState

variable {cfg : CacheConfig} {now tid : ℕ} {s s' : CacheState}

/-- A load that is taken over has no runner. -/
lemma owner_of_enter_own {label : String} {k : ℕ} {l : Load}
    (h : s.exec cfg now tid (.enter label) = some (.own k, s'))
    (hk : s.inflight.lookup label = some k) (hl : s.loads k = some l) : l.owner = none := by
  have h := congrArg Prod.fst (Option.some.inj h)
  simp only [enter] at h
  cases hlive : s.live now label with
  | some value =>
    simp only [hlive] at h
    cases h
  | none =>
    obtain ⟨label', owner, outcome⟩ := l
    cases owner with
    | none => rfl
    | some i =>
      simp only [hlive, hk, hl] at h
      cases h

variable (cfg now) in
/-- What finishing a load does to the loads. -/
lemma finish_loads {k : ℕ} {l : Load} (hl : s.loads k = some l) (outcome : Except PoolError Lookup) :
    (s.finish cfg now k outcome).loads =
      Function.update s.loads k (some { l with outcome := some outcome }) := by
  obtain ⟨label, owner, old⟩ := l
  simp only [finish, hl]
  cases outcome <;> rfl

variable (cfg now) in
/-- What finishing a load does to the loads in progress. -/
lemma finish_inflight {k : ℕ} {l : Load} (hl : s.loads k = some l)
    (outcome : Except PoolError Lookup) :
    (s.finish cfg now k outcome).inflight = s.inflight.erase l.label := by
  obtain ⟨label, owner, old⟩ := l
  simp only [finish, hl]
  cases outcome <;> rfl

end CacheState

namespace Flight

variable {cfg : CacheConfig} {now i : ℕ} {s s' : CacheState} {logs : ℕ → Option LoadLog} {g : LoadLog}

/-- A handler that runs no load is not the runner of one. -/
lemma not_runner (h : Flight s logs) (hi : ∀ label k, logs i ≠ some ⟨some (label, k), true⟩)
    (label : String) (k : ℕ) : s.loads k ≠ some ⟨label, some i, none⟩ :=
  fun hk => hi label k ((h.runner i label k).mpr hk)

/-- A handler whose log does not run a load may change its log to another such. -/
lemma relabel (h : Flight s logs) (hi : ∀ label k, logs i ≠ some ⟨some (label, k), true⟩)
    {log : Option LoadLog} (hlog : ∀ label k, log ≠ some ⟨some (label, k), true⟩)
    (hticket : ∀ g label k, log = some g → g.ticket = some (label, k) →
      ∃ l, s.loads k = some l ∧ l.label = label) : Flight s (Function.update logs i log) := by
  refine ⟨h.cache, h.unfinished, h.registered, fun j label k => ?_, fun j g label k hj hg => ?_⟩
  · by_cases hji : j = i
    · subst hji
      rw [Function.update_self]
      exact iff_of_false (hlog label k) (h.not_runner hi label k)
    · rw [Function.update_of_ne hji]
      exact h.runner j label k
  · by_cases hji : j = i
    · subst hji
      rw [Function.update_self] at hj
      exact hticket g label k hj hg
    · rw [Function.update_of_ne hji] at hj
      exact h.ticket j g label k hj hg

/-- A handler that runs no load starts to run one that nobody runs: a vacant one, or a new one. -/
lemma start (h : Flight s logs) (hi : ∀ label k, logs i ≠ some ⟨some (label, k), true⟩) {k : ℕ}
    {label : String} (hcache : CacheInv (fun _ _ => True) (fun _ _ => True) s')
    (hunfinished : s'.Unfinished) (hkept : CacheState.LabelsKept s s')
    (hloads : s'.loads = Function.update s.loads k (some ⟨label, some i, none⟩))
    (hinflight : ∀ label' k', s.inflight.lookup label' = some k' → s'.inflight.lookup label' = some k')
    (hk : s'.inflight.lookup label = some k) (hvacant : ∀ l, s.loads k = some l → l.owner = none) :
    Flight s' (Function.update logs i (some ⟨some (label, k), true⟩)) := by
  refine ⟨hcache, hunfinished, fun k' label' owner hk' => ?_, fun j label' k' => ?_,
    fun j g label' k' hj hg => ?_⟩
  · rw [hloads] at hk'
    by_cases hkk : k' = k
    · subst hkk
      rw [Function.update_self] at hk'
      cases hk'
      exact hk
    · rw [Function.update_of_ne hkk] at hk'
      exact hinflight label' k' (h.registered k' label' owner hk')
  · rw [hloads]
    by_cases hji : j = i
    · subst hji
      rw [Function.update_self]
      by_cases hkk : k' = k
      · subst hkk
        rw [Function.update_self]
        simp
      · rw [Function.update_of_ne hkk]
        refine iff_of_false (fun heq => ?_) (h.not_runner hi label' k')
        cases heq
        exact hkk rfl
    · rw [Function.update_of_ne hji]
      by_cases hkk : k' = k
      · subst hkk
        rw [Function.update_self]
        refine iff_of_false (fun hj => ?_) fun heq => ?_
        · cases hvacant _ ((h.runner j label' k').mp hj)
        · cases heq
          exact hji rfl
      · rw [Function.update_of_ne hkk]
        exact h.runner j label' k'
  · by_cases hji : j = i
    · subst hji
      rw [Function.update_self] at hj
      cases hj
      cases hg
      exact ⟨_, by rw [hloads, Function.update_self], rfl⟩
    · rw [Function.update_of_ne hji] at hj
      obtain ⟨l, hl, hlabel⟩ := h.ticket j g label' k' hj hg
      obtain ⟨l', hl', hlabel'⟩ := hkept k' l hl
      exact ⟨l', hl', hlabel'.trans hlabel⟩

/-- One step of the cache by a live handler. -/
theorem exec (h : Flight s logs) (hi : logs i = some g) {q : CacheOp} {a : q.Ans}
    (hpre : g.Allows q) (hq : s.exec cfg now i q = some (a, s')) :
    Flight s' (Function.update logs i (some (g.note ⟨.cache q, a⟩))) := by
  obtain ⟨hcache, hkept⟩ := h.cache.exec hq fun _ _ _ _ _ => ⟨True.intro, True.intro⟩
  have hunfinished := h.unfinished.exec h.cache hq
  have hsame : Function.update logs i (some g) = logs := by
    rw [← hi]
    exact Function.update_eq_self i logs
  have hidle : g.running = false → ∀ label k, logs i ≠ some ⟨some (label, k), true⟩ := by
    intro hrunning label k hlog
    rw [hi] at hlog
    cases hlog
    cases hrunning
  cases q with
  | containsKey label =>
    cases hq
    exact hsame.symm ▸ h
  | enter label =>
    rcases CacheState.exec_enter hq with ⟨e, -, -, rfl, rfl⟩ | ⟨k, l, hk, -, rfl, rfl⟩ |
      ⟨k, hk, rfl, rfl⟩ | ⟨hnone, rfl, rfl⟩
    · exact hsame.symm ▸ h
    -- it joins the load in progress
    · refine h.relabel (hidle hpre) (fun label' k' heq => ?_) fun g' label' k' heq hg' => ?_
      · cases heq
      · cases heq
        cases hg'
        exact h.cache.inflight label k hk
    -- it takes a vacant load over
    · exact h.start (hidle hpre) hcache hunfinished hkept rfl (fun _ _ hk' => hk') hk
        fun l hl => CacheState.owner_of_enter_own hq hk hl
    -- it starts a new load, under a ticket that was not in use
    · refine h.start (hidle hpre) hcache hunfinished hkept rfl (fun label' k' hk' => ?_)
        (AList.lookup_insert _) fun l hl => absurd (h.cache.fresh _ l hl) (Nat.lt_irrefl _)
      by_cases hlabel : label' = label
      · subst hlabel
        rw [hnone] at hk'
        cases hk'
      · exact (AList.lookup_insert_ne hlabel).trans hk'
  | wait k =>
    obtain ⟨hrunning, label, hticket⟩ := hpre
    rcases CacheState.exec_wait hq with ⟨l, outcome, -, -, rfl, rfl⟩ | ⟨label', hl, rfl, rfl⟩
    · exact hsame.symm ▸ h
    · obtain ⟨l', hl', hlabel⟩ := h.ticket i g label k hi hticket
      rw [hl] at hl'
      obtain rfl := Option.some.inj hl'
      obtain rfl : label' = label := hlabel
      have hnote : g.note ⟨.cache (.wait k), .own⟩ = ⟨some (label', k), true⟩ := by
        rw [← hticket]
        rfl
      rw [hnote]
      refine h.start (hidle hrunning) hcache hunfinished hkept rfl (fun _ _ hk' => hk')
        (h.registered k label' none hl) fun l hl'' => ?_
      rw [hl] at hl''
      obtain rfl := Option.some.inj hl''
      rfl
  | finish k outcome =>
    obtain ⟨hrunning, label, hticket⟩ := hpre
    have hlog : logs i = some ⟨some (label, k), true⟩ := by
      rw [hi, ← hticket, ← hrunning]
    have hl := (h.runner i label k).mp hlog
    cases hq
    have hloads := CacheState.finish_loads cfg now hl outcome
    have hinflight := CacheState.finish_inflight cfg now hl outcome
    refine ⟨hcache, hunfinished, fun k' label' owner hk' => ?_, fun j label' k' => ?_,
      fun j g' label' k' hj hg' => ?_⟩
    · rw [hloads] at hk'
      by_cases hkk : k' = k
      · subst hkk
        rw [Function.update_self] at hk'
        cases hk'
      · rw [Function.update_of_ne hkk] at hk'
        have hin := h.registered k' label' owner hk'
        have hne : label' ≠ label := by
          rintro rfl
          exact hkk (Option.some.inj (hin.symm.trans (h.registered k label' _ hl)))
        rw [hinflight]
        exact (AList.lookup_erase_ne hne).trans hin
    · rw [hloads]
      by_cases hji : j = i
      · subst hji
        rw [Function.update_self]
        refine iff_of_false (fun heq => ?_) fun hk' => ?_
        · cases congrArg LoadLog.running (Option.some.inj heq)
        · by_cases hkk : k' = k
          · subst hkk
            rw [Function.update_self] at hk'
            cases hk'
          · rw [Function.update_of_ne hkk] at hk'
            have hlog' := (h.runner j label' k').mpr hk'
            rw [hlog] at hlog'
            cases hlog'
            exact hkk rfl
      · rw [Function.update_of_ne hji, h.runner]
        by_cases hkk : k' = k
        · subst hkk
          rw [Function.update_self, hl]
          refine iff_of_false (fun heq => ?_) fun heq => ?_
          · cases heq
            exact hji rfl
          · cases heq
        · rw [Function.update_of_ne hkk]
    · have hold : ∃ l, s.loads k' = some l ∧ l.label = label' := by
        by_cases hji : j = i
        · subst hji
          rw [Function.update_self] at hj
          cases hj
          exact h.ticket j g label' k' hi hg'
        · rw [Function.update_of_ne hji] at hj
          exact h.ticket j g' label' k' hj hg'
      obtain ⟨l', hl', hlabel⟩ := hold
      obtain ⟨l'', hl'', hlabel'⟩ := hkept k' l' hl'
      exact ⟨l'', hl'', hlabel'.trans hlabel⟩
  | countHit negative =>
    cases hq
    exact hsame.symm ▸ ⟨hcache, hunfinished, h.registered, h.runner, h.ticket⟩
  | countMiss =>
    cases hq
    exact hsame.symm ▸ ⟨hcache, hunfinished, h.registered, h.runner, h.ticket⟩

/-- A handler is dropped: the load it ran, if any, is left vacant. -/
lemma abandon (h : Flight s logs) (i : ℕ) : Flight (s.abandon i) (Function.update logs i none) := by
  obtain ⟨hcache, hkept⟩ := h.cache.abandon i
  have hload : ∀ k label owner, (s.abandon i).loads k = some ⟨label, owner, none⟩ ↔
      (s.loads k = some ⟨label, owner, none⟩ ∧ owner ≠ some i) ∨
        (s.loads k = some ⟨label, some i, none⟩ ∧ owner = none) := by
    intro k label owner
    simp only [CacheState.abandon]
    cases s.loads k with
    | none => simp
    | some l =>
      obtain ⟨label', owner', outcome⟩ := l
      by_cases howner : owner' = some i ∧ outcome = none
      · obtain ⟨rfl, rfl⟩ := howner
        simp only [Option.map_some, and_self, if_true, Option.some.injEq, Load.mk.injEq, and_true]
        constructor
        · rintro ⟨rfl, rfl⟩
          exact Or.inr ⟨rfl, rfl⟩
        · rintro (⟨⟨-, heq⟩, hne⟩ | ⟨rfl, rfl⟩)
          · exact absurd heq.symm hne
          · exact ⟨rfl, rfl⟩
      · simp only [Option.map_some, if_neg howner, Option.some.injEq, Load.mk.injEq]
        constructor
        · rintro ⟨rfl, rfl, rfl⟩
          exact Or.inl ⟨⟨rfl, rfl, rfl⟩, fun heq => howner ⟨heq, rfl⟩⟩
        · rintro (⟨heq, -⟩ | ⟨⟨-, hi, hnone⟩, -⟩)
          · exact heq
          · exact absurd ⟨hi, hnone⟩ howner
  refine ⟨hcache, h.unfinished.abandon i, fun k label owner hk => ?_, fun j label k => ?_,
    fun j g label k hj hg => ?_⟩
  · rcases (hload k label owner).mp hk with ⟨hl, -⟩ | ⟨hl, -⟩ <;> exact h.registered k label _ hl
  · rw [hload]
    by_cases hji : j = i
    · subst hji
      simp
    · rw [Function.update_of_ne hji, h.runner]
      simp [hji]
  · by_cases hji : j = i
    · subst hji
      rw [Function.update_self] at hj
      cases hj
    · rw [Function.update_of_ne hji] at hj
      obtain ⟨l, hl, hlabel⟩ := h.ticket j g label k hj hg
      obtain ⟨l', hl', hlabel'⟩ := hkept k l hl
      exact ⟨l', hl', hlabel'.trans hlabel⟩

end Flight

/-! ## Every run -/

section

variable {P : Platform} {cfg : ServiceConfig} {c c' : Config Op.Ans (Shared P) Party ThreadResult}
  {a : Action Choice (EnvAction P) Party}

/-- The log of a thread, if it is a handler. -/
def threadLog (t : Thread Op.Ans Party ThreadResult) : Option LoadLog :=
  match t.label with
  | .rpc _ => some (loadLog t.hist)
  | .worker _ => none

/-- The logs of the live handlers. -/
def handlerLogs (c : Config Op.Ans (Shared P) Party ThreadResult) (i : ℕ) : Option LoadLog :=
  (c.threads i).bind threadLog

/-- The logs after one thread has changed. -/
lemma handlerLogs_update {i : ℕ} {t : Option (Thread Op.Ans Party ThreadResult)}
    (h : c'.threads = Function.update c.threads i t) :
    handlerLogs c' = Function.update (handlerLogs c) i (t.bind threadLog) := by
  funext j
  unfold handlerLogs
  rw [h]
  by_cases hji : j = i
  · subst hji
    rw [Function.update_self, Function.update_self]
  · rw [Function.update_of_ne hji, Function.update_of_ne hji]

/-- The logs of the handlers are the same when the log of the thread is. -/
lemma handlerLogs_same {i : ℕ} {t : Option (Thread Op.Ans Party ThreadResult)}
    (h : c'.threads = Function.update c.threads i t)
    (ht : t.bind threadLog = (c.threads i).bind threadLog) : handlerLogs c' = handlerLogs c := by
  rw [handlerLogs_update h, ht]
  exact Function.update_eq_self i (handlerLogs c)

/-- Everyone keeps to the contract. -/
lemma load_sound : System.Sound (pooledProxy P cfg) (fun _ _ => True) loadContract LoadEnds
    (fun _ _ => True) :=
  proxy_sound (fun _ => pooled_load P cfg) (fun _ g w _ => iterate_load P w g)
    (fun _ _ _ _ _ _ _ _ _ _ _ _ _ => ⟨True.intro, True.intro⟩)
    (fun _ _ _ _ _ _ _ _ _ => True.intro) fun _ _ _ _ => True.intro

/-- What is known of the loads in a configuration. -/
structure InFlight (c : Config Op.Ans (Shared P) Party ThreadResult) : Prop where
  outline : System.Outline loadContract LoadEnds (fun _ _ => True) c
  flight : Flight c.shared.cache (handlerLogs c)

/-- After the start no load is in flight. -/
lemma inFlight_started {t₀ : ℕ} {sessions : List SessionHandle} {token : P.token.State} :
    InFlight (started P t₀ sessions token) := by
  have hnone : ∀ i, handlerLogs (started P t₀ sessions token) i = none := by
    intro i
    unfold handlerLogs
    cases ht : (started P t₀ sessions token).threads i with
    | none => rfl
    | some t =>
      obtain ⟨session, -, rfl⟩ := Option.map_eq_some_iff.mp ht
      rfl
  refine ⟨outline_started (fun session => iterate_load P _ _) True.intro, CacheInv.new,
    fun _ _ _ hk => ?_, fun _ _ _ hk => ?_, fun i label k => ?_, fun i g label k hi => ?_⟩
  · cases hk
  · cases hk
  · rw [hnone]
    exact iff_of_false (fun h => by cases h) fun h => by cases h
  · rw [hnone] at hi
    cases hi

/-- One step of a thread. -/
lemma flight_exec (hc : InFlight c) {i : ℕ} {e : Choice} {l : Party} {hist : List (Event Op.Ans)}
    {o : Op} {k : o.Ans → Prog Op.Ans ThreadResult} {ans : o.Ans} {s' : Shared P}
    (ht : c.threads i = some ⟨l, hist, .call o k⟩) (he : execOp cfg e i c.shared o = some (ans, s')) :
    Flight s'.cache (Function.update (handlerLogs c) i
      (threadLog (⟨l, hist ++ [⟨o, ans⟩], k ans⟩ : Thread Op.Ans Party ThreadResult))) := by
  have hpre : (loadContract l).pre (loadLog hist) o := (hc.outline.threads i _ ht).1
  have hlog : handlerLogs c i =
      threadLog (⟨l, hist, .call o k⟩ : Thread Op.Ans Party ThreadResult) := by
    unfold handlerLogs
    rw [ht]
    rfl
  by_cases hcache : ∃ q, o = .cache q
  · obtain ⟨q, rfl⟩ := hcache
    obtain ⟨s'', hs'', rfl⟩ := execOp_cache.mp he
    cases l with
    | worker session => cases hpre
    | rpc rpc =>
      simp only [threadLog, loadLog_snoc] at hlog ⊢
      exact hc.flight.exec hlog hpre hs''
  · have hsame : threadLog (⟨l, hist ++ [⟨o, ans⟩], k ans⟩ : Thread Op.Ans Party ThreadResult) =
        handlerLogs c i := by
      rw [hlog]
      cases l with
      | worker session => rfl
      | rpc rpc =>
        simp only [threadLog, loadLog_snoc]
        rw [LoadLog.note_of_not_cache _ fun q hq => hcache ⟨q, hq⟩]
    rw [hsame, Function.update_eq_self, (execOp_frame he).cache fun q hq => hcache ⟨q, hq⟩]
    exact hc.flight

/-- A step keeps what is known of the loads in flight. -/
lemma inFlight_step (hc : InFlight c) (h : (pooledProxy P cfg).step c a = some c') : InFlight c' := by
  refine ⟨load_sound.step hc.outline True.intro h, ?_⟩
  rcases System.step_cases h with ⟨l, -, hl, rfl⟩ | ⟨i, e, l, hist, o, k, ans, s', -, ht, he, rfl⟩ |
    ⟨i, l, hist, r, p, -, ht, -, rfl⟩ | ⟨i, l, hist, o, k, -, ht, -, rfl⟩ | ⟨v, s', -, hv, rfl⟩
  · cases l with
    | worker session => cases hl
    | rpc rpc =>
      have hfresh : handlerLogs c c.spawned = none := by
        unfold handlerLogs
        rw [hc.outline.recorded.fresh _ (Nat.le_refl _)]
        rfl
      rw [handlerLogs_update rfl]
      refine hc.flight.relabel (fun label k => ?_) (fun label k heq => ?_) fun g label k heq hg => ?_
      · rw [hfresh]
        exact fun h => by cases h
      · cases heq
      · cases heq
        cases hg
  · rw [handlerLogs_update rfl]
    exact flight_exec hc ht he
  · rw [handlerLogs_same rfl (by rw [ht]; rfl)]
    exact hc.flight
  · cases l with
    | worker session =>
      rw [handlerLogs_same rfl (by rw [ht]; rfl)]
      exact hc.flight
    | rpc rpc =>
      rw [handlerLogs_update rfl]
      exact hc.flight.abandon i
  · obtain rfl := Option.some.inj hv
    have hlogs : handlerLogs { c with shared := envStep P v c.shared } = handlerLogs c := rfl
    rw [hlogs]
    cases v with
    | evictKey label =>
      obtain ⟨hcache, -⟩ := hc.flight.cache.evict label
      exact ⟨hcache, hc.flight.unfinished, hc.flight.registered, hc.flight.runner, hc.flight.ticket⟩
    | _ => exact hc.flight

variable {t₀ : ℕ} {sessions : List SessionHandle} {token : P.token.State}
  {as : List (Action Choice (EnvAction P) Party)}

/-- What is known of the loads in flight holds after every run. -/
lemma inFlight_run (hrun : (pooledProxy P cfg).run (started P t₀ sessions token) as = some c) :
    InFlight c :=
  System.run_invariant (fun _ _ _ hc _ h => inFlight_step hc h) inFlight_started
    (System.throughout_true _ as) hrun

end

end HsmProxy
