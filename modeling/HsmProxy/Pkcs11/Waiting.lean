import HsmProxy.Pkcs11.PoolAccounting

/-!
# Who waits for which result

A handler that has sent a job and not yet awaited its result is the one thread that listens on the
job's oneshot channel, and as long as no worker dies such a channel is not closed without a result.
`waitContract` is what handlers promise, `Waiting` what holds in every run, and `not_closed` the
consequence: awaiting a result never ends with a closed channel.
-/

namespace HsmProxy

open Interleaving Interleaving.Prog

/-! ## The job a handler waits for -/

/-- The job sent and not yet awaited, after one more event. -/
def outstandingAfter (g : Option ℕ) : Event Op.Ans → Option ℕ
  | ⟨.pool (.trySend _ _), .ok j⟩ => some j
  | ⟨.pool (.awaitResult _ _), _⟩ => none
  | _ => g

/-- The job sent and not yet awaited, after a history. -/
def outstanding (h : List (Event Op.Ans)) : Option ℕ := h.foldl outstandingAfter none

/-- One more event. -/
@[simp] lemma outstanding_snoc (h : List (Event Op.Ans)) (ev : Event Op.Ans) :
    outstanding (h ++ [ev]) = outstandingAfter (outstanding h) ev := by
  simp [outstanding, List.foldl_append]

/-- A job is sent when none is outstanding, and only the outstanding one is awaited. -/
def waitContract : Contract Op.Ans (Option ℕ) where
  init := none
  next g o a := outstandingAfter g ⟨o, a⟩
  pre g
    | .pool (.trySend _ _) => g = none
    | .pool (.awaitResult j _) => g = some j
    | _ => True
  post _ _ _ := True

/-- The job outstanding after an event: it was so and is not awaited now, or it is sent now. -/
lemma outstandingAfter_eq_some {g : Option ℕ} {o : Op} {a : o.Ans} {j : ℕ}
    (hpre : waitContract.pre g o) :
    outstandingAfter g ⟨o, a⟩ = some j ↔ (g = some j ∧ ∀ d, o ≠ .pool (.awaitResult j d)) ∨
      ∃ request t, (⟨o, a⟩ : Event Op.Ans) = ⟨.pool (.trySend request t), .ok j⟩ := by
  have hother : (∀ request t, o ≠ .pool (.trySend request t)) →
      (∀ j' d, o ≠ .pool (.awaitResult j' d)) → outstandingAfter g ⟨o, a⟩ = g →
      (outstandingAfter g ⟨o, a⟩ = some j ↔ (g = some j ∧ ∀ d, o ≠ .pool (.awaitResult j d)) ∨
        ∃ request t, (⟨o, a⟩ : Event Op.Ans) = ⟨.pool (.trySend request t), .ok j⟩) := by
    intro hsend hawait heq
    rw [heq]
    constructor
    · exact fun h => Or.inl ⟨h, hawait j⟩
    · rintro (⟨h, -⟩ | ⟨request, t, h⟩)
      · exact h
      · exact absurd (congrArg Sigma.fst h) (hsend request t)
  cases o with
  | pool q =>
    cases q with
    | trySend request t =>
      obtain rfl : g = none := hpre
      cases a with
      | error refusal =>
        refine ⟨nofun, ?_⟩
        rintro (⟨h, -⟩ | ⟨request', t', h⟩) <;> cases h
      | ok j' =>
        constructor
        · intro h
          cases h
          exact Or.inr ⟨request, t, rfl⟩
        · rintro (⟨h, -⟩ | ⟨request', t', h⟩) <;> cases h
          rfl
    | awaitResult j' d =>
      obtain rfl : g = some j' := hpre
      refine ⟨nofun, ?_⟩
      rintro (⟨h, hnot⟩ | ⟨request', t', h⟩)
      · cases h
        exact absurd rfl (hnot d)
      · cases h
    | _ => exact hother nofun nofun rfl
  | _ => exact hother nofun nofun rfl

/-- The contract does not look at other steps. -/
lemma waitContract_skip {o : Op} (hsend : ∀ request t, o ≠ .pool (.trySend request t))
    (hawait : ∀ j d, o ≠ .pool (.awaitResult j d)) (g : Option ℕ) :
    waitContract.pre g o ∧ ∀ a, waitContract.next g o a = g := by
  cases o with
  | pool q =>
    cases q with
    | trySend request t => exact absurd rfl (hsend request t)
    | awaitResult j d => exact absurd rfl (hawait j d)
    | _ => exact ⟨True.intro, fun _ => rfl⟩
  | _ => exact ⟨True.intro, fun _ => rfl⟩

section

variable (P : Platform) (cfg : ServiceConfig)

/-- A submission awaits what it has sent. -/
lemma submit_waits (request : JobRequest) :
    (submit cfg request).Meets waitContract (fun g _ => g = none) none := by
  refine ⟨True.intro, fun _ _ => ⟨True.intro, fun _ _ => ⟨rfl, fun sent _ => ?_⟩⟩⟩
  cases sent with
  | error refusal =>
    cases refusal with
    | full => exact ⟨True.intro, fun _ _ => rfl⟩
    | disconnected => exact rfl
  | ok j =>
    refine ⟨True.intro, fun _ _ => ⟨rfl, fun awaited _ => ?_⟩⟩
    cases awaited with
    | value result => exact rfl
    | closed => exact rfl
    | elapsed => exact ⟨True.intro, fun _ _ => rfl⟩

/-- A handler keeps to the contract. -/
theorem pooled_waits (rpc : Rpc) :
    (pooled P cfg rpc).Meets waitContract (fun g _ => g = none) none := by
  refine meets_pooled_of_submit P cfg rpc (fun g o _ ho => waitContract_skip ?_ ?_ g)
    (fun g o _ _ hsubmits => waitContract_skip ?_ ?_ g) (fun request => submit_waits cfg request) rfl
  · rintro request t rfl
    rcases ho with ho | ho <;> cases ho
  · rintro j d rfl
    rcases ho with ho | ho <;> cases ho
  · rintro request t rfl
    cases hsubmits
  · rintro j d rfl
    cases hsubmits

/-- A round of a worker keeps to the contract: it sends no job and awaits none. -/
theorem iterate_waits (w : Worker) (g : Option ℕ) :
    (Worker.iterate P w).Meets waitContract (fun _ _ => True) g := by
  refine (Worker.iterate_only P w).meets (fun o ho => waitContract_skip ?_ ?_ g) fun _ => True.intro
  · rintro request t rfl
    cases ho
  · rintro j d rfl
    cases ho

end

/-! ## The channels -/

namespace PoolState

/-- Thread `i` listens on the channel of job `j`. -/
def Listens (s : PoolState) (i j : ℕ) : Prop :=
  ∃ o, s.oneshots j = some o ∧ o.owner = i ∧ o.receiverAlive = true

/-- One thread at most listens on a channel. -/
lemma Listens.unique {s : PoolState} {i i' j : ℕ} (h : s.Listens i j) (h' : s.Listens i' j) :
    i = i' := by
  obtain ⟨o, ho, rfl, -⟩ := h
  obtain ⟨o', ho', rfl, -⟩ := h'
  rw [ho] at ho'
  obtain rfl := Option.some.inj ho'
  rfl

/-- What is known of the channels: later jobs have none, and one whose sender is gone has a value
for whoever listens. -/
structure Channels (s : PoolState) : Prop where
  fresh : ∀ j, s.nextJob ≤ j → s.oneshots j = none
  answered : ∀ j o, s.oneshots j = some o → o.senderAlive = false → o.value = none →
    o.receiverAlive = false

variable {cfg : PoolConfig} {now tid : ℕ} {s s' : PoolState} {q : PoolOp} {a : q.Ans}

/-- How a step changes who listens: a sender of a job begins to, who awaits a result stops. -/
structure Channels.After (s : PoolState) (tid : ℕ) (ev : Event Op.Ans) (s' : PoolState) : Prop where
  channels : Channels s'
  listens : ∀ i j, s'.Listens i j ↔
    (s.Listens i j ∧ ∀ d, ev.1 ≠ .pool (.awaitResult j d)) ∨
      (i = tid ∧ ∃ request t, ev = ⟨.pool (.trySend request t), .ok j⟩)

/-- A step that leaves the channels alone, and neither sends nor awaits. -/
lemma Channels.After.same (h : Channels s) {ev : Event Op.Ans} (honeshots : s'.oneshots = s.oneshots)
    (hnext : s'.nextJob = s.nextJob) (hawait : ∀ j d, ev.1 ≠ .pool (.awaitResult j d))
    (hsend : ∀ request t j, ev ≠ ⟨.pool (.trySend request t), .ok j⟩) :
    Channels.After s tid ev s' := by
  refine ⟨⟨?_, ?_⟩, fun i j => ?_⟩
  · rw [honeshots, hnext]
    exact h.fresh
  · rw [honeshots]
    exact h.answered
  · unfold Listens
    rw [honeshots]
    constructor
    · exact fun hlistens => Or.inl ⟨hlistens, hawait j⟩
    · rintro (⟨hlistens, -⟩ | ⟨-, request, t, hev⟩)
      · exact hlistens
      · exact absurd hev (hsend request t j)

/-- A job is taken on: its sender listens. -/
lemma Channels.After.accept (h : Channels s) {request : JobRequest} {t : ℕ}
    (honeshots : s'.oneshots = (s.accept tid).oneshots) (hnext : s'.nextJob = s.nextJob + 1) :
    Channels.After s tid ⟨.pool (.trySend request t), .ok s.nextJob⟩ s' := by
  have hself : s'.oneshots s.nextJob = some ⟨tid, none, true, true⟩ := by
    simp [honeshots, PoolState.accept]
  have hother : ∀ j, j ≠ s.nextJob → s'.oneshots j = s.oneshots j := by
    intro j hj
    simp [honeshots, PoolState.accept, hj]
  refine ⟨⟨fun j hj => ?_, fun j o ho hsender hvalue => ?_⟩, fun i j => ?_⟩
  · rw [hnext] at hj
    rw [hother j (by omega)]
    exact h.fresh j (by omega)
  · by_cases hj : j = s.nextJob
    · subst hj
      rw [hself] at ho
      obtain rfl := Option.some.inj ho
      cases hsender
    · rw [hother j hj] at ho
      exact h.answered j o ho hsender hvalue
  · by_cases hj : j = s.nextJob
    · subst hj
      constructor
      · rintro ⟨o, ho, rfl, -⟩
        rw [hself] at ho
        obtain rfl := Option.some.inj ho
        exact Or.inr ⟨rfl, request, t, rfl⟩
      · rintro (⟨⟨o, ho, -⟩, -⟩ | ⟨rfl, -⟩)
        · rw [h.fresh _ (Nat.le_refl _)] at ho
          cases ho
        · exact ⟨_, hself, rfl, rfl⟩
    · have hsame : s'.Listens i j ↔ s.Listens i j := by
        unfold Listens
        rw [hother j hj]
      rw [hsame]
      constructor
      · intro hlistens
        refine Or.inl ⟨hlistens, fun deadline hev => ?_⟩
        cases hev
      · rintro (⟨hlistens, -⟩ | ⟨-, request', t', hev⟩)
        · exact hlistens
        · cases hev
          exact absurd rfl hj

/-- Every step of the pool. -/
theorem Channels.exec (h : Channels s) (hp : s.exec cfg now tid q = some (a, s')) :
    Channels.After s tid ⟨.pool q, a⟩ s' := by
  cases q with
  | count c n =>
    cases hp
    exact .same h rfl rfl nofun nofun
  | poll =>
    obtain ⟨job, rest, -, -, rfl⟩ | ⟨-, -, -, rfl⟩ | ⟨-, -, -, rfl⟩ := exec_poll hp <;>
      exact .same h rfl rfl nofun nofun
  | unpark =>
    obtain ⟨job, -, -, rfl⟩ | ⟨-, -, -, rfl⟩ := exec_unpark hp <;>
      exact .same h rfl rfl nofun nofun
  | trySend request t =>
    obtain ⟨-, ⟨-, rfl, rfl⟩ | ⟨w, ws, -, -, rfl, rfl⟩ | ⟨-, -, -, rfl, rfl⟩ | ⟨-, -, -, rfl, rfl⟩⟩ :=
      exec_trySend hp
    · exact .same h rfl rfl nofun nofun
    · exact .accept h rfl rfl
    · exact .accept h rfl rfl
    · exact .same h rfl rfl nofun nofun
  | awaitResult j d =>
    obtain ⟨o, ho, rfl, -⟩ := exec_awaitResult hp
    have hself : (s.stopWaiting j o).oneshots j =
        some { o with value := none, receiverAlive := false } := by
      simp [stopWaiting]
    have hother : ∀ j', j' ≠ j → (s.stopWaiting j o).oneshots j' = s.oneshots j' := by
      intro j' hj'
      simp [stopWaiting, hj']
    refine ⟨⟨fun j' hj' => ?_, fun j' o' ho' hsender hvalue => ?_⟩, fun i j' => ?_⟩
    · have hne : j' ≠ j := by
        rintro rfl
        rw [h.fresh _ hj'] at ho
        cases ho
      rw [hother j' hne]
      exact h.fresh j' hj'
    · by_cases hj' : j' = j
      · subst hj'
        rw [hself] at ho'
        obtain rfl := Option.some.inj ho'
        rfl
      · rw [hother j' hj'] at ho'
        exact h.answered j' o' ho' hsender hvalue
    · by_cases hj' : j' = j
      · subst hj'
        constructor
        · rintro ⟨o', ho', -, hreceiver⟩
          rw [hself] at ho'
          obtain rfl := Option.some.inj ho'
          cases hreceiver
        · rintro (⟨-, hnot⟩ | ⟨-, request, t, hev⟩)
          · exact absurd rfl (hnot d)
          · cases hev
      · have hsame : (s.stopWaiting j o).Listens i j' ↔ s.Listens i j' := by
          unfold Listens
          rw [hother j' hj']
        rw [hsame]
        constructor
        · refine fun hlistens => Or.inl ⟨hlistens, fun d' hev => ?_⟩
          cases hev
          exact hj' rfl
        · rintro (⟨hlistens, -⟩ | ⟨-, request, t, hev⟩)
          · exact hlistens
          · cases hev
  | respond j r =>
    cases hp
    have hself : (s.respond tid j r).oneshots j = (s.oneshots j).map fun o =>
        { o with value := if o.receiverAlive then some r else none, senderAlive := false } := by
      simp [respond]
    have hother : ∀ j', j' ≠ j → (s.respond tid j r).oneshots j' = s.oneshots j' := by
      intro j' hj'
      simp [respond, hj']
    refine ⟨⟨fun j' hj' => ?_, fun j' o' ho' hsender hvalue => ?_⟩, fun i j' => ?_⟩
    · by_cases hne : j' = j
      · subst hne
        rw [hself, h.fresh _ hj']
        rfl
      · rw [hother j' hne]
        exact h.fresh j' hj'
    · by_cases hne : j' = j
      · subst hne
        rw [hself] at ho'
        obtain ⟨o, ho, rfl⟩ := Option.map_eq_some_iff.mp ho'
        cases hreceiver : o.receiverAlive with
        | true => simp [hreceiver] at hvalue
        | false => rfl
      · rw [hother j' hne] at ho'
        exact h.answered j' o' ho' hsender hvalue
    · have hsame : (s.respond tid j r).Listens i j' ↔ s.Listens i j' := by
        unfold Listens
        by_cases hne : j' = j
        · subst hne
          rw [hself]
          constructor
          · rintro ⟨o', ho', rfl, hreceiver⟩
            obtain ⟨o, ho, rfl⟩ := Option.map_eq_some_iff.mp ho'
            exact ⟨o, ho, rfl, hreceiver⟩
          · rintro ⟨o, ho, rfl, hreceiver⟩
            exact ⟨_, congrArg (Option.map _) ho, rfl, hreceiver⟩
        · rw [hother j' hne]
      rw [hsame]
      constructor
      · exact fun hlistens => Or.inl ⟨hlistens, nofun⟩
      · rintro (⟨hlistens, -⟩ | ⟨-, request, t, hev⟩)
        · exact hlistens
        · cases hev

/-- A dropped handler stops listening. -/
lemma Channels.abandon (h : Channels s) (i : ℕ) :
    Channels (s.abandon i) ∧ ∀ i' j, (s.abandon i).Listens i' j ↔ s.Listens i' j ∧ i' ≠ i := by
  refine ⟨⟨fun j hj => ?_, fun j o' ho' hsender hvalue => ?_⟩, fun i' j => ?_⟩
  · simp only [PoolState.abandon]
    rw [h.fresh j hj]
    rfl
  · obtain ⟨o, ho, rfl⟩ := Option.map_eq_some_iff.mp ho'
    by_cases howner : o.owner = i
    · simp [howner]
    · simp only [howner, if_false] at hsender hvalue ⊢
      exact h.answered j o ho hsender hvalue
  · constructor
    · rintro ⟨o', ho', rfl, hreceiver⟩
      obtain ⟨o, ho, rfl⟩ := Option.map_eq_some_iff.mp ho'
      by_cases howner : o.owner = i
      · simp [howner] at hreceiver
      · simp only [howner, if_false] at hreceiver
        rw [if_neg howner]
        exact ⟨⟨o, ho, rfl, hreceiver⟩, howner⟩
    · rintro ⟨⟨o, ho, rfl, hreceiver⟩, howner⟩
      exact ⟨o, (congrArg (Option.map _) ho).trans (by simp [howner]), rfl, hreceiver⟩

end PoolState

/-! ## Every run in which no worker dies -/

section

variable {P : Platform} {cfg : ServiceConfig}
  {c c' : Config Op.Ans (Shared P) Party ThreadResult}
  {a : Action Choice (EnvAction P) Party}

/-- What is known of the channels: who listens on one is the thread whose job is outstanding. -/
structure Waiting (c : Config Op.Ans (Shared P) Party ThreadResult) : Prop where
  outline : System.Outline (fun _ => waitContract) (fun _ _ _ => True) (fun _ _ => True) c
  channels : c.shared.pool.Channels
  listens : ∀ i j, c.shared.pool.Listens i j ↔
    ∃ t, c.threads i = some t ∧ outstanding t.hist = some j

/-- Every handler and every worker keeps to the contract. -/
lemma wait_sound : System.Sound (pooledProxy P cfg) (fun _ _ => True) (fun _ => waitContract)
    (fun _ _ _ => True) (fun _ _ => True) :=
  proxy_sound (fun rpc => (pooled_waits P cfg rpc).mono fun _ _ _ => True.intro)
    (fun _ g w _ => iterate_waits P w g) (fun _ _ _ _ _ _ _ _ _ _ _ _ _ => ⟨True.intro, True.intro⟩)
    (fun _ _ _ _ _ _ _ _ _ => True.intro) fun _ _ _ _ => True.intro

/-- After the start nobody listens on a channel. -/
lemma waiting_started {t₀ : ℕ} {sessions : List SessionHandle} {token : P.token.State} :
    Waiting (started P t₀ sessions token) := by
  refine ⟨outline_started (fun session => iterate_waits P _ _) True.intro,
    ⟨fun _ _ => rfl, fun j o ho => nomatch ho⟩, fun i j => ⟨fun h => ?_, fun h => ?_⟩⟩
  · obtain ⟨o, ho, -⟩ := h
    cases ho
  · obtain ⟨t, ht, hsent⟩ := h
    have hnil : t.hist = [] := recorded_started.hist i t ht
    rw [hnil] at hsent
    cases hsent

/-- An operation keeps it. -/
lemma Waiting.exec (hc : Waiting c) {i : ℕ} {e : Choice} {l : Party} {hist : List (Event Op.Ans)}
    {o : Op} {k : o.Ans → Prog Op.Ans ThreadResult} {ans : o.Ans} {s' : Shared P}
    (ht : c.threads i = some ⟨l, hist, .call o k⟩) (he : execOp cfg e i c.shared o = some (ans, s')) :
    s'.pool.Channels ∧ ∀ i' j, s'.pool.Listens i' j ↔ ∃ t,
      Function.update c.threads i (some ⟨l, hist ++ [⟨o, ans⟩], k ans⟩) i' = some t ∧
        outstanding t.hist = some j := by
  have hpre : waitContract.pre (outstanding hist) o := (hc.outline.threads i _ ht).1
  have hself : ∀ j, c.shared.pool.Listens i j ↔ outstanding hist = some j := by
    intro j
    rw [hc.listens, ht]
    simp
  have hafter : PoolState.Channels.After c.shared.pool i ⟨o, ans⟩ s'.pool := by
    by_cases hpool : ∃ q, o = .pool q
    · obtain ⟨q, rfl⟩ := hpool
      obtain ⟨p, hp, rfl⟩ := execOp_pool.mp he
      exact hc.channels.exec hp
    · rw [(execOp_frame he).pool fun q hq => hpool ⟨q, hq⟩]
      refine .same hc.channels rfl rfl (fun j d h => hpool ⟨_, h⟩) fun request t j h => ?_
      exact hpool ⟨_, congrArg Sigma.fst h⟩
  refine ⟨hafter.channels, fun i' j => ?_⟩
  rw [hafter.listens]
  by_cases hi : i' = i
  · subst hi
    rw [hself]
    simp only [Function.update_self, Option.some.injEq, exists_eq_left', outstanding_snoc]
    rw [outstandingAfter_eq_some hpre]
    simp only [true_and]
  · rw [Function.update_of_ne hi]
    rw [← hc.listens]
    constructor
    · rintro (⟨hlistens, -⟩ | ⟨heq, -⟩)
      · exact hlistens
      · exact absurd heq hi
    · refine fun hlistens => Or.inl ⟨hlistens, fun d hd => hi ?_⟩
      have hd : o = .pool (.awaitResult j d) := hd
      rw [hd] at hpre
      exact hlistens.unique ((hself j).mpr hpre)

/-- Every step that drops no worker keeps it. -/
theorem waiting_step (hc : Waiting c) (ha : NoWorkerDies c a)
    (h : (pooledProxy P cfg).step c a = some c') : Waiting c' := by
  have houtline := wait_sound.step hc.outline True.intro h
  suffices hboth : c'.shared.pool.Channels ∧ ∀ i j, c'.shared.pool.Listens i j ↔
      ∃ t, c'.threads i = some t ∧ outstanding t.hist = some j from ⟨houtline, hboth.1, hboth.2⟩
  rcases System.step_cases h with ⟨l, -, -, rfl⟩ | ⟨i, e, l, hist, o, k, ans, s', -, ht, he, rfl⟩ |
    ⟨i, l, hist, r, p, -, ht, -, rfl⟩ | ⟨i, l, hist, o, k, rfl, ht, -, rfl⟩ | ⟨v, s', -, hv, rfl⟩
  · refine ⟨hc.channels, fun i j => (hc.listens i j).trans ?_⟩
    by_cases hi : i = c.spawned
    · -- the new thread has sent nothing, and its name was not in use
      have hnone : c.threads c.spawned = none := hc.outline.recorded.fresh _ (Nat.le_refl _)
      subst hi
      simp [hnone, outstanding]
    · simp [hi]
  · exact hc.exec ht he
  · refine ⟨hc.channels, fun i' j => (hc.listens i' j).trans ?_⟩
    by_cases hi : i' = i
    · simp [hi, ht]
    · simp [hi]
  · cases l with
    | worker session => exact absurd ht (ha i session hist _ rfl)
    | rpc rpc =>
      obtain ⟨hchannels, hlistens⟩ := hc.channels.abandon i
      refine ⟨hchannels, fun i' j => (hlistens i' j).trans ?_⟩
      rw [hc.listens]
      by_cases hi : i' = i
      · simp [hi]
      · simp [hi]
  · obtain rfl := Option.some.inj hv
    cases v with
    | shutdown => exact ⟨⟨hc.channels.fresh, hc.channels.answered⟩, hc.listens⟩
    | _ => exact ⟨hc.channels, hc.listens⟩

/-- The thread that awaits a result listens on its channel. -/
lemma Waiting.listens_of_await (hc : Waiting c) {i : ℕ} {l : Party} {hist : List (Event Op.Ans)}
    {j d : ℕ} {k : Awaited → Prog Op.Ans ThreadResult}
    (ht : c.threads i = some ⟨l, hist, .call (.pool (.awaitResult j d)) k⟩) :
    c.shared.pool.Listens i j :=
  (hc.listens i j).mpr ⟨_, ht, (hc.outline.threads i _ ht).1⟩

/-- Awaiting a result does not end with a closed channel. -/
theorem Waiting.not_closed (hc : Waiting c) {i : ℕ} {e : Choice} {l : Party}
    {hist : List (Event Op.Ans)} {j d : ℕ} {k : Awaited → Prog Op.Ans ThreadResult} {s' : Shared P}
    (ht : c.threads i = some ⟨l, hist, .call (.pool (.awaitResult j d)) k⟩) :
    execOp cfg e i c.shared (.pool (.awaitResult j d)) ≠ some (.closed, s') := by
  intro he
  obtain ⟨p, hp, -⟩ := execOp_pool.mp he
  obtain ⟨o, ho, -, ⟨r, -, h⟩ | ⟨hvalue, hsender, -⟩ | ⟨-, -, -, h⟩⟩ := PoolState.exec_awaitResult hp
  · cases h
  · obtain ⟨o', ho', -, hreceiver⟩ := hc.listens_of_await ht
    rw [ho] at ho'
    obtain rfl := Option.some.inj ho'
    rw [hc.channels.answered j o ho hsender hvalue] at hreceiver
    cases hreceiver
  · cases h

end

end HsmProxy
