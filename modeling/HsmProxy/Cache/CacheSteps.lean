import HsmProxy.Cache.PublicKeyCache

/-!
# What one step of the cache does

Inversion lemmas for the operations of the public key cache, and the invariant that follows from
them: whatever is known of every loaded value is known of every value the cache hands out.
-/

namespace HsmProxy

namespace CacheState

variable {cfg : CacheConfig} {now tid : ℕ} {s s' : CacheState}

/-- `try_get_with`: a live entry, a load in progress, a load whose runner was dropped, or a new
load. -/
theorem exec_enter {label : String} {a : Entered}
    (h : s.exec cfg now tid (.enter label) = some (a, s')) :
    (∃ e, s.entries.lookup label = some e ∧ now < e.expires ∧ a = .hit e.value ∧ s' = s) ∨
    (∃ k l, s.inflight.lookup label = some k ∧ s.loads k = some l ∧ a = .join k ∧ s' = s) ∨
    (∃ k, s.inflight.lookup label = some k ∧ a = .own k ∧
      s' = s.setLoad k ⟨label, some tid, none⟩) ∨
    (s.inflight.lookup label = none ∧ a = .own s.nextTicket ∧
      s' = { s.setLoad s.nextTicket ⟨label, some tid, none⟩ with
        inflight := s.inflight.insert label s.nextTicket
        nextTicket := s.nextTicket + 1 }) := by
  have h := Option.some.inj h
  simp only [enter, live] at h
  cases hentry : s.entries.lookup label with
  | some e =>
    simp only [hentry] at h
    split at h
    · rename_i value hlive
      split at hlive
      · rename_i hnow
        obtain rfl := Option.some.inj hlive
        cases h
        exact Or.inl ⟨e, rfl, hnow, rfl, rfl⟩
      · cases hlive
    · split at h
      · rename_i k hk
        split at h
        · rename_i l owner outcome hload
          cases h
          exact Or.inr (Or.inl ⟨k, _, hk, hload, rfl, rfl⟩)
        · cases h
          exact Or.inr (Or.inr (Or.inl ⟨k, hk, rfl, rfl⟩))
      · rename_i hk
        cases h
        exact Or.inr (Or.inr (Or.inr ⟨hk, rfl, rfl⟩))
  | none =>
    simp only [hentry] at h
    split at h
    · rename_i k hk
      split at h
      · rename_i l owner outcome hload
        cases h
        exact Or.inr (Or.inl ⟨k, _, hk, hload, rfl, rfl⟩)
      · cases h
        exact Or.inr (Or.inr (Or.inl ⟨k, hk, rfl, rfl⟩))
    · rename_i hk
      cases h
      exact Or.inr (Or.inr (Or.inr ⟨hk, rfl, rfl⟩))

/-- Waiting for a load: it has ended, or its runner was dropped and the caller runs it. -/
theorem exec_wait {k : ℕ} {a : Joined} (h : s.exec cfg now tid (.wait k) = some (a, s')) :
    (∃ l outcome, s.loads k = some l ∧ l.outcome = some outcome ∧ a = .finished outcome ∧ s' = s) ∨
    (∃ label, s.loads k = some ⟨label, none, none⟩ ∧ a = .own ∧
      s' = s.setLoad k ⟨label, some tid, none⟩) := by
  simp only [exec, wait] at h
  split at h
  · rename_i label owner outcome hload
    cases h
    exact Or.inl ⟨_, outcome, hload, rfl, rfl, rfl⟩
  · rename_i label hload
    cases h
    exact Or.inr ⟨label, hload, rfl, rfl⟩
  · cases h

/-- The outcome of a load was there before, or is the one just published. -/
lemma exec_outcome {q : CacheOp} {a : q.Ans} {k : ℕ} {l : Load} {r : Except PoolError Lookup}
    (h : s.exec cfg now tid q = some (a, s')) (hl : s'.loads k = some l)
    (hr : l.outcome = some r) :
    (∃ l₀, s.loads k = some l₀ ∧ l₀.outcome = some r) ∨ q = .finish k r := by
  have hset : ∀ k' label, (s.setLoad k' ⟨label, some tid, none⟩).loads k = some l →
      ∃ l₀, s.loads k = some l₀ ∧ l₀.outcome = some r := by
    intro k' label hl
    by_cases hk : k = k'
    · subst hk
      have hload : l = ⟨label, some tid, none⟩ := by simpa [setLoad] using hl.symm
      subst hload
      cases hr
    · exact ⟨l, by simpa [setLoad, hk] using hl, hr⟩
  cases q with
  | containsKey label =>
    cases h
    exact Or.inl ⟨l, hl, hr⟩
  | enter label =>
    obtain ⟨e, -, -, -, rfl⟩ | ⟨k', l', -, -, -, rfl⟩ | ⟨k', -, -, rfl⟩ | ⟨-, -, rfl⟩ := exec_enter h
    · exact Or.inl ⟨l, hl, hr⟩
    · exact Or.inl ⟨l, hl, hr⟩
    · exact Or.inl (hset k' label hl)
    · exact Or.inl (hset s.nextTicket label hl)
  | wait k' =>
    obtain ⟨l', outcome, -, -, -, rfl⟩ | ⟨label, -, -, rfl⟩ := exec_wait h
    · exact Or.inl ⟨l, hl, hr⟩
    · exact Or.inl (hset k' label hl)
  | finish k' outcome =>
    cases h
    have hloads : (s.finish cfg now k' outcome).loads k = some l →
        (∃ l₀, s.loads k = some l₀ ∧ l₀.outcome = some r) ∨ (k = k' ∧ outcome = r) := by
      intro hl
      unfold finish at hl
      split at hl
      · rename_i label owner old hload
        have hl : (s.setLoad k' ⟨label, owner, some outcome⟩).loads k = some l := by
          cases outcome <;> exact hl
        by_cases hk : k = k'
        · subst hk
          have hload : l = ⟨label, owner, some outcome⟩ := by simpa [setLoad] using hl.symm
          subst hload
          exact Or.inr ⟨rfl, Option.some.inj hr⟩
        · exact Or.inl ⟨l, by simpa [setLoad, hk] using hl, hr⟩
      · exact Or.inl ⟨l, hl, hr⟩
    rcases hloads hl with hold | ⟨rfl, rfl⟩
    · exact Or.inl hold
    · exact Or.inr rfl
  | countHit negative =>
    cases h
    exact Or.inl ⟨l, hl, hr⟩
  | countMiss =>
    cases h
    exact Or.inl ⟨l, hl, hr⟩

/-- A load keeps its label. -/
def LabelsKept (s s' : CacheState) : Prop :=
  ∀ k l, s.loads k = some l → ∃ l', s'.loads k = some l' ∧ l'.label = l.label

lemma LabelsKept.refl (s : CacheState) : LabelsKept s s := fun _ l hl => ⟨l, hl, rfl⟩

/-- Replacing a load by one with its label, or making a new one. -/
lemma labelsKept_setLoad {k : ℕ} {load : Load}
    (hk : ∀ l, s.loads k = some l → load.label = l.label) : LabelsKept s (s.setLoad k load) := by
  intro k' l hl
  by_cases hkk : k' = k
  · subst hkk
    exact ⟨load, by simp [setLoad], hk l hl⟩
  · exact ⟨l, by simpa [setLoad, hkk] using hl, rfl⟩

end CacheState

/-- What is known of the cache: `good` of every outcome of a load, `goodEntry` of every entry. -/
structure CacheInv (good : String → Lookup → Prop) (goodEntry : String → CacheEntry → Prop)
    (s : CacheState) : Prop where
  entries : ∀ label e, s.entries.lookup label = some e → goodEntry label e
  loads : ∀ k l v, s.loads k = some l → l.outcome = some (.ok v) → good l.label v
  /-- The load in progress for a label is one of that label. -/
  inflight : ∀ label k, s.inflight.lookup label = some k →
    ∃ l, s.loads k = some l ∧ l.label = label
  /-- Tickets are given in order. -/
  fresh : ∀ k l, s.loads k = some l → k < s.nextTicket

namespace CacheInv

variable {cfg : CacheConfig} {now tid : ℕ} {s s' : CacheState} {good : String → Lookup → Prop}
  {goodEntry : String → CacheEntry → Prop}

/-- The empty cache. -/
lemma new : CacheInv good goodEntry CacheState.new where
  entries label e h := by simp [CacheState.new] at h
  loads k l v h := nomatch h
  inflight label k h := by simp [CacheState.new] at h
  fresh k l h := nomatch h

/-- More may become known. -/
lemma mono {good' : String → Lookup → Prop} {goodEntry' : String → CacheEntry → Prop}
    (h : CacheInv good goodEntry s) (hgood : ∀ label v, good label v → good' label v)
    (hentry : ∀ label e, goodEntry label e → goodEntry' label e) : CacheInv good' goodEntry' s where
  entries label e he := hentry label e (h.entries label e he)
  loads k l v hl hv := hgood l.label v (h.loads k l v hl hv)
  inflight := h.inflight
  fresh := h.fresh

/-- A load is started, or taken over, for its label. -/
lemma setLoad {k : ℕ} {label : String} (h : CacheInv good goodEntry s)
    (hk : ∃ l, s.loads k = some l ∧ l.label = label) :
    CacheInv good goodEntry (s.setLoad k ⟨label, some tid, none⟩) := by
  obtain ⟨l₀, hl₀, hlabel₀⟩ := hk
  have hload : ∀ k' l, (s.setLoad k ⟨label, some tid, none⟩).loads k' = some l →
      (k' = k ∧ l = ⟨label, some tid, none⟩) ∨ s.loads k' = some l := by
    intro k' l hl
    by_cases hkk : k' = k
    · subst hkk
      exact Or.inl ⟨rfl, by simpa [CacheState.setLoad] using hl.symm⟩
    · exact Or.inr (by simpa [CacheState.setLoad, hkk] using hl)
  refine ⟨h.entries, fun k' l v hl hv => ?_, fun label' k' hk' => ?_, fun k' l hl => ?_⟩
  · rcases hload k' l hl with ⟨-, rfl⟩ | hold
    · cases hv
    · exact h.loads k' l v hold hv
  · obtain ⟨l, hl, hlabel⟩ := h.inflight label' k' hk'
    have hkept : CacheState.LabelsKept s (s.setLoad k ⟨label, some tid, none⟩) := by
      refine CacheState.labelsKept_setLoad fun l hl => ?_
      rw [hl₀] at hl
      obtain rfl := Option.some.inj hl
      exact hlabel₀.symm
    obtain ⟨l', hl', hlabel'⟩ := hkept k' l hl
    exact ⟨l', hl', hlabel'.trans hlabel⟩
  · rcases hload k' l hl with ⟨rfl, -⟩ | hold
    · exact h.fresh k' l₀ hl₀
    · exact h.fresh k' l hold

/-- A new load. -/
lemma newLoad {label : String} (h : CacheInv good goodEntry s) :
    CacheInv good goodEntry { s.setLoad s.nextTicket ⟨label, some tid, none⟩ with
      inflight := s.inflight.insert label s.nextTicket
      nextTicket := s.nextTicket + 1 } := by
  have hnone : s.loads s.nextTicket = none := by
    cases hload : s.loads s.nextTicket with
    | none => rfl
    | some l => exact absurd (h.fresh _ l hload) (Nat.lt_irrefl _)
  have hload : ∀ k l, (s.setLoad s.nextTicket ⟨label, some tid, none⟩).loads k = some l →
      (k = s.nextTicket ∧ l = ⟨label, some tid, none⟩) ∨ s.loads k = some l := by
    intro k l hl
    by_cases hkk : k = s.nextTicket
    · subst hkk
      exact Or.inl ⟨rfl, by simpa [CacheState.setLoad] using hl.symm⟩
    · exact Or.inr (by simpa [CacheState.setLoad, hkk] using hl)
  refine ⟨h.entries, fun k l v hl hv => ?_, fun label' k hk => ?_, fun k l hl => ?_⟩
  · rcases hload k l hl with ⟨-, rfl⟩ | hold
    · cases hv
    · exact h.loads k l v hold hv
  · by_cases hlabel : label' = label
    · subst hlabel
      have hk : k = s.nextTicket := by simpa using hk.symm
      subst hk
      exact ⟨⟨label', some tid, none⟩, by simp [CacheState.setLoad], rfl⟩
    · have hk : s.inflight.lookup label' = some k := by
        simpa [AList.lookup_insert_ne hlabel] using hk
      obtain ⟨l, hl, hlabel'⟩ := h.inflight label' k hk
      have hne : k ≠ s.nextTicket := by
        rintro rfl
        rw [hnone] at hl
        cases hl
      exact ⟨l, by simpa [CacheState.setLoad, hne] using hl, hlabel'⟩
  · show k < s.nextTicket + 1
    rcases hload k l hl with ⟨rfl, -⟩ | hold
    · exact Nat.lt_succ_self _
    · exact Nat.lt_succ_of_lt (h.fresh k l hold)

/-- A load ends; a value is stored under the label of the load. -/
lemma finish {k : ℕ} {outcome : Except PoolError Lookup} (h : CacheInv good goodEntry s)
    (hgood : ∀ l v, s.loads k = some l → outcome = .ok v →
      good l.label v ∧ goodEntry l.label ⟨v, now + cfg.expireAfterCreate v⟩) :
    CacheInv good goodEntry (s.finish cfg now k outcome) ∧
      CacheState.LabelsKept s (s.finish cfg now k outcome) := by
  cases hload : s.loads k with
  | none =>
    have hfinish : s.finish cfg now k outcome = s := by simp [CacheState.finish, hload]
    rw [hfinish]
    exact ⟨h, CacheState.LabelsKept.refl s⟩
  | some l =>
    obtain ⟨label, owner, old⟩ := l
    have hgood : ∀ v, outcome = .ok v → good label v ∧
        goodEntry label ⟨v, now + cfg.expireAfterCreate v⟩ := fun v hv => hgood _ v hload hv
    have hkept : CacheState.LabelsKept s (s.setLoad k ⟨label, owner, some outcome⟩) := by
      refine CacheState.labelsKept_setLoad fun l hl => ?_
      rw [hload] at hl
      obtain rfl := Option.some.inj hl
      rfl
    have hold : ∀ k' l', (s.setLoad k ⟨label, owner, some outcome⟩).loads k' = some l' →
        (k' = k ∧ l' = ⟨label, owner, some outcome⟩) ∨ s.loads k' = some l' := by
      intro k' l' hl'
      by_cases hkk : k' = k
      · subst hkk
        exact Or.inl ⟨rfl, by simpa [CacheState.setLoad] using hl'.symm⟩
      · exact Or.inr (by simpa [CacheState.setLoad, hkk] using hl')
    have hloads : ∀ k' l' v, (s.setLoad k ⟨label, owner, some outcome⟩).loads k' = some l' →
        l'.outcome = some (.ok v) → good l'.label v := by
      intro k' l' v hl' hv
      rcases hold k' l' hl' with ⟨-, rfl⟩ | hl'
      · exact (hgood v (Option.some.inj hv)).1
      · exact h.loads k' l' v hl' hv
    have hinflight : ∀ label' k', (s.inflight.erase label).lookup label' = some k' →
        ∃ l', (s.setLoad k ⟨label, owner, some outcome⟩).loads k' = some l' ∧
          l'.label = label' := by
      intro label' k' hk'
      by_cases hlabel : label' = label
      · subst hlabel
        rw [AList.lookup_erase] at hk'
        cases hk'
      · rw [AList.lookup_erase_ne hlabel] at hk'
        obtain ⟨l', hl', hlabel'⟩ := h.inflight label' k' hk'
        obtain ⟨l'', hl'', hlabel''⟩ := hkept k' l' hl'
        exact ⟨l'', hl'', hlabel''.trans hlabel'⟩
    have hfresh : ∀ k' l', (s.setLoad k ⟨label, owner, some outcome⟩).loads k' = some l' →
        k' < s.nextTicket := by
      intro k' l' hl'
      rcases hold k' l' hl' with ⟨rfl, -⟩ | hl'
      · exact h.fresh k' _ hload
      · exact h.fresh k' l' hl'
    cases outcome with
    | error e =>
      simp only [CacheState.finish, hload]
      exact ⟨⟨h.entries, hloads, hinflight, hfresh⟩, hkept⟩
    | ok v =>
      simp only [CacheState.finish, hload]
      refine ⟨⟨fun label' e he => ?_, hloads, hinflight, hfresh⟩, hkept⟩
      by_cases hlabel : label' = label
      · subst hlabel
        have he : e = ⟨v, now + cfg.expireAfterCreate v⟩ := by simpa using he.symm
        rw [he]
        exact (hgood v rfl).2
      · exact h.entries label' e (by simpa [AList.lookup_insert_ne hlabel] using he)

/-- Every step keeps what is known, and the labels of the loads, when the values published by loads
are good. -/
theorem exec {q : CacheOp} {a : q.Ans} (h : CacheInv good goodEntry s)
    (hq : s.exec cfg now tid q = some (a, s'))
    (hgood : ∀ k l v, q = .finish k (.ok v) → s.loads k = some l →
      good l.label v ∧ goodEntry l.label ⟨v, now + cfg.expireAfterCreate v⟩) :
    CacheInv good goodEntry s' ∧ CacheState.LabelsKept s s' := by
  cases q with
  | containsKey label =>
    cases hq
    exact ⟨h, CacheState.LabelsKept.refl s⟩
  | countHit negative =>
    cases hq
    exact ⟨⟨h.entries, h.loads, h.inflight, h.fresh⟩, CacheState.LabelsKept.refl s⟩
  | countMiss =>
    cases hq
    exact ⟨⟨h.entries, h.loads, h.inflight, h.fresh⟩, CacheState.LabelsKept.refl s⟩
  | enter label =>
    obtain ⟨e, -, -, -, rfl⟩ | ⟨k, l, -, -, -, rfl⟩ | ⟨k, hk, -, rfl⟩ | ⟨hk, -, rfl⟩ :=
      CacheState.exec_enter hq
    · exact ⟨h, CacheState.LabelsKept.refl s'⟩
    · exact ⟨h, CacheState.LabelsKept.refl s'⟩
    · obtain ⟨l, hl, hlabel⟩ := h.inflight label k hk
      refine ⟨h.setLoad ⟨l, hl, hlabel⟩, CacheState.labelsKept_setLoad fun l' hl' => ?_⟩
      rw [hl] at hl'
      obtain rfl := Option.some.inj hl'
      exact hlabel.symm
    · refine ⟨h.newLoad, CacheState.labelsKept_setLoad fun l hl => ?_⟩
      exact absurd (h.fresh _ l hl) (Nat.lt_irrefl _)
  | wait k =>
    obtain ⟨l, outcome, -, -, -, rfl⟩ | ⟨label, hload, -, rfl⟩ := CacheState.exec_wait hq
    · exact ⟨h, CacheState.LabelsKept.refl s'⟩
    · refine ⟨h.setLoad ⟨_, hload, rfl⟩, CacheState.labelsKept_setLoad fun l hl => ?_⟩
      rw [hload] at hl
      obtain rfl := Option.some.inj hl
      rfl
  | finish k outcome =>
    cases hq
    refine h.finish fun l v hl hv => ?_
    subst hv
    exact hgood k l v rfl hl

/-- A dropped runner leaves its loads without one. -/
lemma abandon (h : CacheInv good goodEntry s) (tid : ℕ) :
    CacheInv good goodEntry (s.abandon tid) ∧ CacheState.LabelsKept s (s.abandon tid) := by
  have hkept : CacheState.LabelsKept s (s.abandon tid) := by
    intro k l hl
    refine ⟨_, congrArg (Option.map _) hl, ?_⟩
    dsimp only
    split <;> rfl
  have hload : ∀ k l, (s.abandon tid).loads k = some l →
      ∃ l₀, s.loads k = some l₀ ∧ l.label = l₀.label ∧ l.outcome = l₀.outcome := by
    intro k l hl
    obtain ⟨l₀, hl₀, rfl⟩ := Option.map_eq_some_iff.mp hl
    refine ⟨l₀, hl₀, ?_, ?_⟩ <;> split <;> rfl
  refine ⟨⟨h.entries, fun k l v hl hv => ?_, fun label k hk => ?_, fun k l hl => ?_⟩, hkept⟩
  · obtain ⟨l₀, hl₀, hlabel, houtcome⟩ := hload k l hl
    rw [hlabel]
    exact h.loads k l₀ v hl₀ (houtcome ▸ hv)
  · obtain ⟨l, hl, hlabel⟩ := h.inflight label k hk
    obtain ⟨l', hl', hlabel'⟩ := hkept k l hl
    exact ⟨l', hl', hlabel'.trans hlabel⟩
  · obtain ⟨l₀, hl₀, -, -⟩ := hload k l hl
    exact h.fresh k l₀ hl₀

/-- An entry may go. -/
lemma evict (h : CacheInv good goodEntry s) (label : String) :
    CacheInv good goodEntry (s.evict label) ∧ CacheState.LabelsKept s (s.evict label) := by
  refine ⟨⟨fun label' e he => ?_, h.loads, h.inflight, h.fresh⟩, CacheState.LabelsKept.refl s⟩
  by_cases hlabel : label' = label
  · subst hlabel
    simp only [CacheState.evict, AList.lookup_erase] at he
    cases he
  · exact h.entries label' e (by simpa [CacheState.evict, AList.lookup_erase_ne hlabel] using he)

end CacheInv

end HsmProxy
