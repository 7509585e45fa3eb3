import HsmProxy.Pkcs11.Start

/-!
# The verdict of `Pool::start`

When `start` has returned, it has returned `Ok` exactly if the module was loaded and every worker
reported that it is ready.  Whether it returns is another matter: it can be left waiting in `recv`
with nothing to come when a worker dies before it reports, another one serves, and none reports a
failure, for then the channel is neither used nor disconnected.  `start_reaches_verdict_iff` says
that these are the only fates of the workers with which this can happen.
-/

namespace HsmProxy

open Interleaving Interleaving.Prog

/-! ## Waiting for nothing -/

/-- The steps a worker makes before its report is sent. -/
def StartOp.unreported : StartOp → Bool
  | .begin _ | .workerNew _ | .report _ _ => true
  | _ => false

/-- A worker has reported or died. -/
def WorkerSettled (c : Config StartOp.Ans Startup StartParty (Except PoolError Unit)) (id : ℕ) :
    Prop :=
  ∀ o, c.nextOp (id + 1) = some o → o.unreported = false

/-- `start` waits in `recv` although every worker has reported or died. -/
def Stuck (workers : ℕ) (fate : ℕ → Fate)
    (c : Config StartOp.Ans Startup StartParty (Except PoolError Unit)) : Prop :=
  c.nextOp 0 = some .recv ∧ (∀ failure, execStart fate failure c.shared .recv = none) ∧
    ∀ id < workers, WorkerSettled c id

/-- The module was loaded. -/
def ModuleLoaded (c : Config StartOp.Ans Startup StartParty (Except PoolError Unit)) : Prop :=
  (startLogOf c.trace 0).loaded = true

/-- A worker has reported that it is ready. -/
def ReportedReady (c : Config StartOp.Ans Startup StartParty (Except PoolError Unit)) (id : ℕ) :
    Prop :=
  (id, .ok ()) ∈ sentReports c.trace

/-- `start` reaches a verdict, and the right one: it never waits for nothing, and it has returned
`Ok` exactly when every worker is ready. -/
def ReachesVerdict (workers : ℕ) (fate : ℕ → Fate) : Prop :=
  ∀ as c, (startSystem workers fate).run (starting workers) as = some c →
    ¬ Stuck workers fate c ∧
    ∀ r, c.returned 0 = some (.main, r) →
      (r = .ok () ↔ ModuleLoaded c ∧ ∀ id < workers, ReportedReady c id)

/-- A death that nobody notices: another worker keeps the channel connected, and no failure is
reported on it. -/
def Unnoticed (workers : ℕ) (fate : ℕ → Fate) : Prop :=
  (∃ id < workers, fate id = .died) ∧ (∃ id < workers, ∃ session, fate id = .serving session) ∧
    ∀ id < workers, ∀ e, fate id ≠ .failed e

section

variable {workers : ℕ} {fate : ℕ → Fate}
  {c : Config StartOp.Ans Startup StartParty (Except PoolError Unit)}

/-- The workers that have reported are among those of the pool. -/
lemma Starting.ids_subperm (hc : Starting workers fate c) :
    ((sentReports c.trace).map Prod.fst).Subperm (List.range workers) := by
  refine List.Nodup.subperm hc.outline.inv.once fun id hid => ?_
  obtain ⟨p, hp, rfl⟩ := List.mem_map.mp hid
  exact List.mem_range.mpr (lt_of_lt_of_le (hc.outline.inv.sent p hp).1 hc.outline.inv.bounded)

/-- When there are as many reports as workers, every worker has reported. -/
lemma Starting.all_reported (hc : Starting workers fate c)
    (hlength : workers ≤ (sentReports c.trace).length) {id : ℕ} (hid : id < workers) :
    ∃ r, (id, r) ∈ sentReports c.trace := by
  have hperm := hc.ids_subperm.perm_of_length_le (by simpa using hlength)
  have hmem : id ∈ (sentReports c.trace).map Prod.fst :=
    hperm.mem_iff.mpr (List.mem_range.mpr hid)
  obtain ⟨⟨id', r⟩, hp, rfl⟩ := List.mem_map.mp hmem
  exact ⟨r, hp⟩

/-- What `start` has received, workers have sent. -/
lemma Starting.sent_of_received (hc : Starting workers fate c) {r : Except PoolError Unit}
    (hr : r ∈ (startLogOf c.trace 0).received) : ∃ id, (id, r) ∈ sentReports c.trace := by
  have hmem : r ∈ (sentReports c.trace).map Prod.snd := by
    rw [← hc.outline.inv.channel]
    exact List.mem_append_left _ hr
  obtain ⟨⟨id, r'⟩, hp, rfl⟩ := List.mem_map.mp hmem
  exact ⟨id, hp⟩

/-- The verdict is the right one. -/
theorem Starting.verdict_iff (hc : Starting workers fate c) {r : Except PoolError Unit}
    (hr : c.returned 0 = some (.main, r)) :
    r = .ok () ↔ ModuleLoaded c ∧ ∀ id < workers, ReportedReady c id := by
  obtain ⟨hist, ht⟩ := System.exists_returned hr
  have hends : StartEnds workers .main ((startContract workers .main).ghost hist) r :=
    hc.outline.threads 0 _ ht
  obtain rfl := hc.outline.recorded.hist 0 _ ht
  have hinv := hc.outline.inv
  have hlength := congrArg List.length hinv.channel
  rw [List.length_append, List.length_map] at hlength
  cases r with
  | ok _ =>
    obtain ⟨hloaded, hreceived⟩ := hends
    have hreceived : (startLogOf c.trace 0).received = List.replicate workers (.ok ()) := hreceived
    rw [hreceived, List.length_replicate] at hlength
    refine ⟨fun _ => ⟨hloaded, fun id hid => ?_⟩, fun _ => rfl⟩
    -- every report was received: there are no more reports than workers
    have hready : c.shared.ready = [] := by
      have hle := hc.ids_subperm.length_le
      rw [List.length_map, List.length_range] at hle
      exact List.eq_nil_of_length_eq_zero (by omega)
    obtain ⟨r, hsent⟩ := hc.all_reported (by omega) hid
    have hmem : r ∈ (sentReports c.trace).map Prod.snd := List.mem_map.mpr ⟨_, hsent, rfl⟩
    rw [← hinv.channel, hready, hreceived, List.append_nil] at hmem
    obtain rfl := List.eq_of_mem_replicate hmem
    exact hsent
  | error e =>
    refine iff_of_false nofun ?_
    rintro ⟨hloaded, hready⟩
    rcases hends with hnot | hspawned | ⟨e', he'⟩ | hdisconnected
    · exact Bool.noConfusion (hloaded.symm.trans hnot)
    · have hlt := (hinv.sent _ (hready _ hspawned)).1
      rw [hinv.spawned] at hlt
      exact lt_irrefl _ hlt
    · obtain ⟨id, hsent⟩ := hc.sent_of_received he'
      have hbound := lt_of_lt_of_le (hinv.sent _ hsent).1 hinv.bounded
      have hboth := (hinv.sent _ hsent).2.2.symm.trans (hinv.sent _ (hready id hbound)).2.2
      cases hboth
    · have hfew := (hinv.disconnected hdisconnected).2
      have hmany : (List.range workers).Subperm ((sentReports c.trace).map Prod.fst) :=
        List.Nodup.subperm List.nodup_range fun id hid =>
          List.mem_map.mpr ⟨_, hready id (List.mem_range.mp hid), rfl⟩
      have hle := hmany.length_le
      rw [List.length_map, List.length_range] at hle
      omega

/-- A worker that is settled has reported, unless its fate is to die. -/
lemma Starting.reported_of_settled (hc : Starting workers fate c) {id : ℕ} (hid : id < workers)
    (hsettled : WorkerSettled c id) :
    (fate id = .died ∧ id ∉ c.shared.senders) ∨
      ∃ r, (id, r) ∈ sentReports c.trace ∧ (fate id).report = some r := by
  cases ht : c.threads (id + 1) with
  | none =>
    obtain ⟨hdied, -, hmem⟩ := hc.absent id hid ht
    exact Or.inl ⟨hdied, hmem⟩
  | some t =>
    obtain ⟨label, hist, prog⟩ := t
    have hmeets := hc.outline.threads _ _ ht
    obtain rfl : label = .worker id := hc.labelled _ _ ht
    obtain rfl := hc.outline.recorded.hist _ _ ht
    have hreported : (startLogOf c.trace (id + 1)).reported = true := by
      cases prog with
      | ret r => exact hmeets
      | call o k =>
        have hnot := hsettled o (System.nextOp_eq ht)
        have hpre := hmeets.1
        cases o with
        | work id' | leave id' => exact hpre.2
        | begin id' | workerNew id' | report id' r => cases hnot
        | _ => cases hpre
    obtain ⟨⟨id', r⟩, hp, rfl⟩ := List.mem_map.mp (hc.outline.inv.reported id hreported)
    exact Or.inr ⟨r, hp, (hc.outline.inv.sent _ hp).2.2⟩

/-- `start` waits for nothing only when a death is not noticed. -/
theorem Starting.unnoticed_of_stuck (hc : Starting workers fate c) (h : Stuck workers fate c) :
    Unnoticed workers fate := by
  obtain ⟨hnext, hblocked, hsettled⟩ := h
  obtain ⟨l, hist, k, ht⟩ := System.exists_thread hnext
  have hpre := (hc.outline.threads 0 _ ht).1
  obtain rfl : l = .main := hc.labelled 0 _ ht
  obtain rfl := hc.outline.recorded.hist 0 _ ht
  obtain ⟨hspawned, hdropped, m, hm, hreceived⟩ := hpre
  have hreceived : (startLogOf c.trace 0).received = List.replicate m (.ok ()) := hreceived
  have hinv := hc.outline.inv
  -- the channel is empty and connected
  have hchannel : c.shared.ready = [] ∧ c.shared.senders ≠ [] := by
    have hnone := hblocked none
    simp only [execStart] at hnone
    split at hnone
    · cases hnone
    · rename_i hready
      refine ⟨hready, fun hsenders => ?_⟩
      rw [if_pos ⟨hinv.dropped hdropped, hsenders⟩] at hnone
      cases hnone
  have hsent : (sentReports c.trace).map Prod.snd = List.replicate m (.ok ()) := by
    rw [← hinv.channel, hchannel.1, hreceived, List.append_nil]
  have hready : ∀ id r, (id, r) ∈ sentReports c.trace → r = .ok () := fun id r hp =>
    List.eq_of_mem_replicate (hsent ▸ List.mem_map.mpr ⟨_, hp, rfl⟩)
  have hnofail : ∀ id < workers, ∀ e, fate id ≠ .failed e := by
    intro id hid e hfate
    rcases hc.reported_of_settled hid (hsettled id hid) with ⟨hdied, -⟩ | ⟨r, hp, hr⟩
    · rw [hfate] at hdied
      cases hdied
    · rw [hready id r hp, hfate] at hr
      cases hr
  refine ⟨?_, ?_, hnofail⟩
  · -- fewer reports than workers: somebody has not reported
    by_contra hnone
    have hall : (List.range workers).Subperm ((sentReports c.trace).map Prod.fst) := by
      refine List.Nodup.subperm List.nodup_range fun id hid => ?_
      have hid := List.mem_range.mp hid
      rcases hc.reported_of_settled hid (hsettled id hid) with ⟨hdied, -⟩ | ⟨r, hp, -⟩
      · exact absurd ⟨id, hid, hdied⟩ hnone
      · exact List.mem_map.mpr ⟨_, hp, rfl⟩
    have hle := hall.length_le
    have hlength := congrArg List.length hsent
    rw [List.length_map, List.length_replicate] at hlength
    rw [List.length_map, List.length_range] at hle
    omega
  · -- whoever keeps the channel connected serves
    obtain ⟨id, hmem⟩ := List.exists_mem_of_ne_nil _ hchannel.2
    have hid : id < workers := lt_of_lt_of_le (hinv.senders id hmem) hinv.bounded
    refine ⟨id, hid, ?_⟩
    rcases hc.reported_of_settled hid (hsettled id hid) with ⟨-, hnot⟩ | ⟨r, -, hr⟩
    · exact absurd hmem hnot
    · cases hfate : fate id with
      | serving session => exact ⟨session, rfl⟩
      | failed e => exact absurd hfate (hnofail id hid e)
      | died => rw [hfate] at hr; cases hr

/-! ## A death that nobody notices -/

/-- The first `k` workers are spawned and settled, and the others have not begun. -/
structure Spawned (workers : ℕ) (fate : ℕ → Fate) (k : ℕ)
    (c : Config StartOp.Ans Startup StartParty (Except PoolError Unit)) : Prop where
  main : ∃ h, c.threads 0 = some ⟨.main, h,
    Pool.spawnWorkers (List.range' k (workers - k)) >>= Pool.collect workers >>= Pool.verdict⟩
  settled : ∀ id < k, WorkerSettled c id
  fresh : ∀ id, k ≤ id → id < workers →
    c.threads (id + 1) = some ⟨.worker id, [], workerThread id⟩
  spawned : c.shared.spawned = k
  ready : ∃ m ≤ k, c.shared.ready = List.replicate m (.ok ()) ∧
    ((∃ id < k, fate id = .died) → m < k)
  senders : ∀ id < k, ∀ session, fate id = .serving session → id ∈ c.shared.senders

/-- The module is loaded. -/
lemma exists_spawned_zero :
    ∃ c, (startSystem workers fate).Reaches (starting workers) c ∧ Spawned workers fate 0 c := by
  have hthread : (starting workers).threads 0 = some ⟨.main, [], Pool.start workers⟩ := rfl
  have hexec : (startSystem workers fate).exec none 0 (starting workers).shared .loadModule =
      some (.ok (), (starting workers).shared) := rfl
  obtain ⟨c, hreach, hmain, hrest, hshared⟩ := System.exists_exec hthread hexec
  refine ⟨c, hreach, ⟨_, hmain⟩, fun id hid => absurd hid (Nat.not_lt_zero id), ?_, ?_, ?_, ?_⟩
  · intro id _ hid
    rw [hrest _ (Nat.succ_ne_zero id)]
    simp [starting, hid]
  · rw [hshared]
    rfl
  · refine ⟨0, le_rfl, by rw [hshared]; rfl, ?_⟩
    rintro ⟨id, hid, -⟩
    exact absurd hid (Nat.not_lt_zero id)
  · exact fun id hid => absurd hid (Nat.not_lt_zero id)

/-- A worker whose thread no step has touched is as settled as before. -/
lemma workerSettled_congr
    {c' : Config StartOp.Ans Startup StartParty (Except PoolError Unit)} {id : ℕ}
    (h : c'.threads (id + 1) = c.threads (id + 1)) (hc : WorkerSettled c id) :
    WorkerSettled c' id := by
  intro o ho
  refine hc o ?_
  rw [Config.nextOp, ← h]
  exact ho

/-- One more worker is spawned, and serves or dies at once. -/
lemma Spawned.succ {k : ℕ} (hk : k < workers) (hfate : ∀ e, fate k ≠ .failed e)
    (hc : Spawned workers fate k c) :
    ∃ c', (startSystem workers fate).Reaches c c' ∧ Spawned workers fate (k + 1) c' := by
  obtain ⟨h, hmain⟩ := hc.main
  obtain ⟨m, hm, hready, hfew⟩ := hc.ready
  -- `start` spawns the worker
  have hsucc : workers - k = (workers - (k + 1)) + 1 := by omega
  rw [hsucc] at hmain
  have hspawn : (startSystem workers fate).exec none 0 c.shared (.spawn k) =
      some (.ok (), { c.shared with spawned := k + 1, senders := c.shared.senders ++ [k] }) := rfl
  obtain ⟨c₁, hreach₁, hmain₁, hrest₁, hshared₁⟩ := System.exists_exec hmain hspawn
  -- its thread begins
  have hworker₁ : c₁.threads (k + 1) = some ⟨.worker k, [], workerThread k⟩ := by
    rw [hrest₁ _ (Nat.succ_ne_zero k)]
    exact hc.fresh k le_rfl hk
  have hbegin : (startSystem workers fate).exec none (k + 1) c₁.shared (.begin k) =
      some ((), c₁.shared) := by
    refine if_pos ?_
    rw [hshared₁]
    exact Nat.lt_succ_self k
  obtain ⟨c₂, hreach₂, hworker₂, hrest₂, hshared₂⟩ := System.exists_exec hworker₁ hbegin
  have hreach := hreach₁.trans hreach₂
  have hsenders₂ : c₂.shared.senders = c.shared.senders ++ [k] := by rw [hshared₂, hshared₁]
  -- whatever it does then, the threads of the others stay
  have hnext : ∀ c', (∀ j, j ≠ k + 1 → c'.threads j = c₂.threads j) →
      WorkerSettled c' k → c'.shared.spawned = k + 1 →
      (∃ m ≤ k + 1, c'.shared.ready = List.replicate m (.ok ()) ∧
        ((∃ id < k + 1, fate id = .died) → m < k + 1)) →
      (∀ id < k + 1, ∀ session, fate id = .serving session → id ∈ c'.shared.senders) →
      Spawned workers fate (k + 1) c' := by
    intro c' hrest hsettled hspawned hready hsenders
    have hothers : ∀ j, j ≠ 0 → j ≠ k + 1 → c'.threads j = c.threads j := fun j hj hj' => by
      rw [hrest j hj', hrest₂ j hj', hrest₁ j hj]
    refine ⟨⟨h ++ [⟨.spawn k, .ok ()⟩], ?_⟩, ?_, ?_, hspawned, hready, hsenders⟩
    · rw [hrest 0 (Nat.succ_ne_zero k).symm, hrest₂ 0 (Nat.succ_ne_zero k).symm]
      exact hmain₁
    · intro id hid
      rcases Nat.lt_succ_iff_lt_or_eq.mp hid with hid | rfl
      · exact workerSettled_congr (hothers _ (Nat.succ_ne_zero id) (by omega)) (hc.settled id hid)
      · exact hsettled
    · intro id hid hlt
      rw [hothers _ (Nat.succ_ne_zero id) (by omega)]
      exact hc.fresh id (by omega) hlt
  cases hk' : fate k with
  | failed e => exact absurd hk' (hfate e)
  | serving session =>
    have hopen : (startSystem workers fate).exec none (k + 1) c₂.shared (.workerNew k) =
        some (.ok session, c₂.shared) := by
      change (fate k).outcome.map _ = _
      rw [hk']
      rfl
    obtain ⟨c₃, hreach₃, hworker₃, hrest₃, hshared₃⟩ := System.exists_exec hworker₂ hopen
    have hreport : (startSystem workers fate).exec none (k + 1) c₃.shared (.report k (.ok ())) =
        some ((), { c₃.shared with ready := c₃.shared.ready ++ [.ok ()] }) := rfl
    obtain ⟨c₄, hreach₄, hworker₄, hrest₄, hshared₄⟩ := System.exists_exec hworker₃ hreport
    refine ⟨c₄, hreach.trans (hreach₃.trans hreach₄), hnext c₄ ?_ ?_ ?_ ?_ ?_⟩
    · exact fun j hj => (hrest₄ j hj).trans (hrest₃ j hj)
    · intro o ho
      have hwork : c₄.nextOp (k + 1) = some (.work k) := System.nextOp_eq hworker₄
      obtain rfl := Option.some.inj (hwork.symm.trans ho)
      rfl
    · rw [hshared₄, hshared₃, hshared₂, hshared₁]
    · refine ⟨m + 1, Nat.succ_le_succ hm, ?_, ?_⟩
      · rw [hshared₄, hshared₃, hshared₂, hshared₁, List.replicate_succ', ← hready]
      · rintro ⟨id, hid, hdied⟩
        rcases Nat.lt_succ_iff_lt_or_eq.mp hid with hid | rfl
        · exact Nat.succ_lt_succ (hfew ⟨id, hid, hdied⟩)
        · rw [hk'] at hdied
          cases hdied
    · intro id hid session' hserving
      rw [hshared₄, hshared₃, hsenders₂]
      rcases Nat.lt_succ_iff_lt_or_eq.mp hid with hid | rfl
      · exact List.mem_append_left _ (hc.senders id hid session' hserving)
      · exact List.mem_append_right _ (List.mem_singleton_self _)
  | died =>
    have hdrop : (startSystem workers fate).droppable (.worker k) (.workerNew k) = true :=
      decide_eq_true hk'
    obtain ⟨c₃, hreach₃, hworker₃, hrest₃, hshared₃⟩ := System.exists_cancel hworker₂ hdrop
    refine ⟨c₃, hreach.trans hreach₃, hnext c₃ hrest₃ ?_ ?_ ?_ ?_⟩
    · intro o ho
      rw [Config.nextOp, hworker₃] at ho
      cases ho
    · rw [hshared₃]
      change c₂.shared.spawned = k + 1
      rw [hshared₂, hshared₁]
    · refine ⟨m, Nat.le_succ_of_le hm, ?_, fun _ => Nat.lt_succ_of_le hm⟩
      rw [hshared₃]
      change c₂.shared.ready = _
      rw [hshared₂, hshared₁]
      exact hready
    · intro id hid session hserving
      have hne : id ≠ k := by
        rintro rfl
        rw [hk'] at hserving
        cases hserving
      rw [hshared₃]
      refine (List.mem_erase_of_ne hne).mpr ?_
      rw [hsenders₂]
      exact List.mem_append_left _ (hc.senders id (by omega) session hserving)

/-- All workers can be spawned and settle. -/
lemma exists_spawned (hfate : ∀ id < workers, ∀ e, fate id ≠ .failed e) (k : ℕ) (hk : k ≤ workers) :
    ∃ c, (startSystem workers fate).Reaches (starting workers) c ∧ Spawned workers fate k c := by
  induction k with
  | zero => exact exists_spawned_zero
  | succ k ih =>
    obtain ⟨c, hreach, hc⟩ := ih (Nat.le_of_succ_le hk)
    obtain ⟨c', hreach', hc'⟩ := hc.succ hk (hfate k hk)
    exact ⟨c', hreach.trans hreach', hc'⟩

/-- `start` receives the reports there are and then waits for another one. -/
lemma exists_stuck (m d : ℕ) {h : List (Event StartOp.Ans)}
    (hmain : c.threads 0 = some ⟨.main, h, Pool.awaitReady (m + d + 1) >>= Pool.verdict⟩)
    (hready : c.shared.ready = List.replicate m (.ok ())) (hsenders : c.shared.senders ≠ [])
    (hsettled : ∀ id < workers, WorkerSettled c id) :
    ∃ c', (startSystem workers fate).Reaches c c' ∧ Stuck workers fate c' := by
  induction m generalizing c h with
  | zero =>
    rw [Nat.zero_add] at hmain
    refine ⟨c, .refl c, System.nextOp_eq hmain, fun failure => ?_, hsettled⟩
    simp only [execStart, hready, List.replicate_zero]
    exact if_neg fun hgone => hsenders hgone.2
  | succ m ih =>
    have hcount : m + 1 + d + 1 = (m + d + 1) + 1 := by omega
    rw [hcount] at hmain
    have hrecv : (startSystem workers fate).exec none 0 c.shared .recv =
        some (some (.ok ()), { c.shared with ready := List.replicate m (.ok ()) }) := by
      change execStart fate none c.shared .recv = _
      simp only [execStart, hready, List.replicate_succ]
    obtain ⟨c₁, hreach₁, hmain₁, hrest₁, hshared₁⟩ := System.exists_exec hmain hrecv
    have hsettled₁ : ∀ id < workers, WorkerSettled c₁ id := fun id hid =>
      workerSettled_congr (hrest₁ _ (Nat.succ_ne_zero id)) (hsettled id hid)
    obtain ⟨c', hreach, hstuck⟩ := ih hmain₁ (by rw [hshared₁]) (by rw [hshared₁]; exact hsenders)
      hsettled₁
    exact ⟨c', hreach₁.trans hreach, hstuck⟩

/-- When a death is not noticed, `start` can be left waiting. -/
theorem stuck_of_unnoticed (h : Unnoticed workers fate) :
    ∃ c, (startSystem workers fate).Reaches (starting workers) c ∧ Stuck workers fate c := by
  obtain ⟨hdied, ⟨id, hid, session, hserving⟩, hnofail⟩ := h
  obtain ⟨c, hreach, hc⟩ := exists_spawned hnofail workers le_rfl
  obtain ⟨hist, hmain⟩ := hc.main
  obtain ⟨m, -, hready, hfew⟩ := hc.ready
  have hlt := hfew hdied
  rw [Nat.sub_self] at hmain
  have hdrop : (startSystem workers fate).exec none 0 c.shared .dropEnds =
      some ((), { c.shared with ownSender := false }) := rfl
  obtain ⟨c₁, hreach₁, hmain₁, hrest₁, hshared₁⟩ := System.exists_exec hmain hdrop
  have hcount : workers = m + (workers - m - 1) + 1 := by omega
  have hsenders : c₁.shared.senders ≠ [] := by
    rw [hshared₁]
    exact List.ne_nil_of_mem (hc.senders id hid session hserving)
  have hsettled : ∀ id < workers, WorkerSettled c₁ id := fun id hid =>
    workerSettled_congr (hrest₁ _ (Nat.succ_ne_zero id)) (hc.settled id hid)
  have hwait : c₁.threads 0 = some ⟨.main, hist ++ [⟨.dropEnds, ()⟩],
      Pool.awaitReady (m + (workers - m - 1) + 1) >>= Pool.verdict⟩ := by
    rw [← hcount]
    exact hmain₁
  obtain ⟨c', hreach', hstuck⟩ := exists_stuck m _ hwait (by rw [hshared₁]; exact hready) hsenders
    hsettled
  exact ⟨c', (hreach.trans hreach₁).trans hreach', hstuck⟩

/-- `start` reaches a verdict, whatever the order of the steps, exactly for those fates of the
workers with which no death goes unnoticed. -/
theorem start_reaches_verdict_iff (workers : ℕ) (fate : ℕ → Fate) :
    ReachesVerdict workers fate ↔ ¬ Unnoticed workers fate := by
  constructor
  · intro hverdict hunnoticed
    obtain ⟨c, ⟨as, hrun⟩, hstuck⟩ := stuck_of_unnoticed hunnoticed
    exact (hverdict as c hrun).1 hstuck
  · intro hnoticed as c hrun
    have hc := starting_run hrun
    exact ⟨fun hstuck => hnoticed (hc.unnoticed_of_stuck hstuck), fun r hr => hc.verdict_iff hr⟩

end

/-- The first of two workers opens its session, the second one dies. -/
def oneDies : ℕ → Fate
  | 0 => .serving 1
  | _ => .died

/-- `start` loads the module and spawns both; the first reports and serves, the second dies; `start`
receives the report. -/
def oneDiesRun : List (Action (Option String) Empty StartParty) :=
  [.exec 0 none, .exec 0 none, .exec 0 none, .exec 0 none, .exec 1 none, .exec 1 none, .exec 1 none,
    .exec 2 none, .cancel 2, .exec 0 none]

/-- It then waits for a second report that will not come. -/
theorem start_waits_for_dead_worker :
    ∃ c, (startSystem 2 oneDies).run (starting 2) oneDiesRun = some c ∧ Stuck 2 oneDies c := by
  refine ⟨_, rfl, rfl, fun failure => rfl, fun id hid o ho => ?_⟩
  obtain rfl | rfl : id = 0 ∨ id = 1 := by omega
  · obtain rfl := Option.some.inj ho
    rfl
  · cases ho

end HsmProxy
