import HsmProxy.Cache.CacheSteps
import HsmProxy.Pkcs11.Delivery

/-!
# Where a public key comes from

A `verify` or `get_public_key` handler gets its key from the cache, from another handler's load, or
from a load of its own.  `KeyLog` is what such a handler knows, `keyContract` what it promises, and
`key_origin` the result: in every run the key comes from a `GetPublicKey` job for the label of the
call.
-/

namespace HsmProxy

open Interleaving Interleaving.Prog

/-! ## What a handler knows -/

/-- What a handler knows about its key: the job it may have sent, the load it runs or waits for with
the label it asked for, and the value it has got for that label. -/
structure KeyLog where
  journal : JobLog
  asked : Option (String × ℕ)
  looked : Option (String × Lookup)

namespace KeyLog

/-- The log of a thread that has done nothing. -/
def empty : KeyLog := ⟨.empty, none, none⟩

/-- One more event. -/
def note (g : KeyLog) (ev : Event Op.Ans) : KeyLog :=
  match ev with
  | ⟨.cache (.enter label), .hit value⟩ => { g with looked := some (label, value) }
  | ⟨.cache (.enter label), .own k⟩ => { g with asked := some (label, k) }
  | ⟨.cache (.enter label), .join k⟩ => { g with asked := some (label, k) }
  | ⟨.cache (.wait _), .finished (.ok value)⟩ =>
    { g with looked := g.asked.map fun p => (p.1, value) }
  | ⟨.cache (.finish _ (.ok value)), _⟩ => { g with looked := g.asked.map fun p => (p.1, value) }
  | ev => { g with journal := g.journal.note ev }

end KeyLog

/-- The log after a history. -/
def keyLog (h : List (Event Op.Ans)) : KeyLog := h.foldl KeyLog.note .empty

/-- One more event. -/
@[simp] lemma keyLog_snoc (h : List (Event Op.Ans)) (ev : Event Op.Ans) :
    keyLog (h ++ [ev]) = (keyLog h).note ev := by
  simp [keyLog, List.foldl_append]

/-- What happens in the cache is not in the journal. -/
lemma note_journal (g : KeyLog) (ev : Event Op.Ans) :
    (g.note ev).journal = g.journal.note ev := by
  obtain ⟨o, a⟩ := ev
  cases o with
  | cache q =>
    cases q with
    | enter label => cases a <;> rfl
    | wait k =>
      rcases a with (e | value) | _ <;> rfl
    | finish k outcome => cases outcome <;> rfl
    | _ => rfl
  | _ => rfl

/-- The journal is the log of jobs. -/
lemma keyLog_journal (h : List (Event Op.Ans)) : (keyLog h).journal = jobLog h := by
  induction h using List.reverseRecOn with
  | nil => rfl
  | append_singleton h ev ih => rw [keyLog_snoc, note_journal, ih, jobLog_snoc]

/-- A key was produced for a label: by a job for the public key of that label. -/
def Produced {S : Type} (tr : List (Entry Op.Ans S Party)) (label : String) : Lookup → Prop
  | .notFound => True
  | .found key => ∃ i j t, (i, ⟨j, .getPublicKey label, t⟩) ∈ sentJobs tr ∧
      (⟨.pool (.respond j (.ok (.publicKey key.spkiDer key.keyType))), ()⟩ : Event Op.Ans) ∈
        tr.map Entry.event

/-- What was produced stays so. -/
lemma Produced.snoc {S : Type} {tr : List (Entry Op.Ans S Party)} {label : String} {v : Lookup}
    (h : Produced tr label v) (en : Entry Op.Ans S Party) : Produced (tr ++ [en]) label v := by
  cases v with
  | notFound => exact True.intro
  | found key =>
    obtain ⟨i, j, t, hsent, hresponded⟩ := h
    refine ⟨i, j, t, ?_, ?_⟩
    · rw [sentJobs_snoc]
      exact List.mem_append_left _ hsent
    · rw [List.map_append]
      exact List.mem_append_left _ hresponded

/-- A handler asks for the label of its call, waits for the load it joined, and publishes what its
own job for that label was answered. -/
def keyContract (party : Party) : Contract Op.Ans KeyLog where
  init := .empty
  next g o a := g.note ⟨o, a⟩
  pre g o :=
    match party, o with
    | .rpc rpc, .cache (.enter label) => label = rpc.keyLabel
    | .rpc _, .cache (.wait k) => ∃ label, g.asked = some (label, k)
    | .rpc _, .cache (.finish k (.ok (.found key))) => ∃ label j, g.asked = some (label, k) ∧
        g.journal.sent = some (j, .getPublicKey label) ∧
        g.journal.got = some (.ok (.publicKey key.spkiDer key.keyType))
    | .worker _, .cache _ => False
    | _, _ => True
  post _ _ _ := True

section

variable (P : Platform) (cfg : ServiceConfig)

/-- The contract does not look at the other steps of a handler. -/
lemma keyContract_skip {rpc : Rpc} {o : Op} (hcache : o.countsLookup ∨ ∀ q, o ≠ .cache q)
    (hpool : ∀ q, o ≠ .pool q) (htoken : ∀ q, o ≠ .token q) (g : KeyLog) :
    (keyContract (.rpc rpc)).pre g o ∧ ∀ a, (keyContract (.rpc rpc)).next g o a = g := by
  cases o with
  | cache q =>
    rcases hcache with hcache | hcache
    · cases q <;> first | exact ⟨True.intro, fun _ => rfl⟩ | cases hcache
    · exact absurd rfl (hcache q)
  | pool q => exact absurd rfl (hpool q)
  | token q => exact absurd rfl (htoken q)
  | _ => exact ⟨True.intro, fun _ => rfl⟩

/-- A submission, as its handler knows it. -/
lemma submit_key {rpc : Rpc} (request : JobRequest) {g : KeyLog} (hg : g.journal = .empty) :
    (submit cfg request).Meets (keyContract (.rpc rpc))
      (fun g' r => (g'.asked = g.asked ∧ g'.looked = g.looked) ∧ Submitted request g'.journal r)
      g := by
  obtain ⟨journal, asked, looked⟩ := g
  obtain rfl : journal = .empty := hg
  refine ⟨True.intro, fun _ _ => ⟨True.intro, fun _ _ => ⟨True.intro, fun sent _ => ?_⟩⟩⟩
  cases sent with
  | error refusal =>
    cases refusal with
    | full => exact ⟨True.intro, fun _ _ => ⟨⟨rfl, rfl⟩, Or.inl ⟨rfl, _, rfl⟩⟩⟩
    | disconnected => exact ⟨⟨rfl, rfl⟩, Or.inl ⟨rfl, _, rfl⟩⟩
  | ok j =>
    refine ⟨True.intro, fun _ _ => ⟨True.intro, fun awaited _ => ?_⟩⟩
    cases awaited with
    | value result => exact ⟨⟨rfl, rfl⟩, Or.inr ⟨rfl, j, rfl⟩⟩
    | closed => exact ⟨⟨rfl, rfl⟩, Or.inl ⟨rfl, _, rfl⟩⟩
    | elapsed => exact ⟨True.intro, fun _ _ => ⟨⟨rfl, rfl⟩, Or.inl ⟨rfl, _, rfl⟩⟩⟩

/-- What a lookup has got: the value it returns, or nothing. -/
def Looked (label : String) (g : KeyLog) : Except PoolError Lookup → Prop
  | .ok v => g.looked = some (label, v)
  | .error _ => g.looked = none

/-- A load publishes what its job was answered. -/
lemma runLoad_key {rpc : Rpc} {keyLabel : String} {k : ℕ} {g : KeyLog} (hg : g.journal = .empty)
    (hasked : g.asked = some (keyLabel, k)) (hlooked : g.looked = none) :
    (runLoad k (loadPublicKey cfg keyLabel)).Meets (keyContract (.rpc rpc)) (Looked keyLabel) g := by
  rw [meets_runLoad]
  refine (submit_key cfg _ hg).mono fun g' r hr => ?_
  obtain ⟨⟨hkeep, hnone⟩, hsubmitted⟩ := hr
  rw [hasked] at hkeep
  rw [hlooked] at hnone
  cases hload : loadOutcome r with
  | error e => exact ⟨True.intro, fun _ _ => hnone⟩
  | ok v =>
    have hgot : g'.asked.map (fun p => (p.1, v)) = some (keyLabel, v) := by rw [hkeep]; rfl
    cases v with
    | notFound => exact ⟨True.intro, fun _ _ => hgot⟩
    | found key =>
      have hr : r = .ok (.publicKey key.spkiDer key.keyType) := by
        rcases r with (_ | _ | _ | _ | _ | _ | _) | (_ | _ | _ | _ | _) <;> cases hload
        rfl
      rcases hsubmitted with ⟨-, e, he⟩ | ⟨hvalue, j, hsent⟩
      · rw [hr] at he
        cases he
      · exact ⟨⟨keyLabel, j, hkeep, hsent, hr ▸ hvalue⟩, fun _ _ => hgot⟩

/-- A lookup gets its value from the cache, from the load it joined, or from its own. -/
lemma tryGetWith_key {rpc : Rpc} :
    (tryGetWith rpc.keyLabel (loadPublicKey cfg rpc.keyLabel)).Meets (keyContract (.rpc rpc))
      (Looked rpc.keyLabel) .empty := by
  refine ⟨rfl, fun entered _ => ?_⟩
  cases entered with
  | hit value => rfl
  | own k => exact runLoad_key cfg rfl rfl rfl
  | join k =>
    refine ⟨⟨rpc.keyLabel, rfl⟩, fun joined _ => ?_⟩
    cases joined with
    | own => exact runLoad_key cfg rfl rfl rfl
    | finished outcome => cases outcome <;> rfl

/-- What a handler that plans a key lookup replies: an error, without having got a value, or what it
makes of the value it has got for its label. -/
def KeyReply (rpc : Rpc) (g : KeyLog) (reply : Except Status RpcResponse) : Prop :=
  ∀ finish, plan P rpc = .ok (.key finish) →
    (g.looked = none ∧ ∃ st, reply = .error st) ∨
    ∃ v wasPresent, g.looked = some (rpc.keyLabel, v) ∧ reply = finish (v, wasPresent)

/-- A handler keeps to the contract, and replies so. -/
theorem pooled_key (rpc : Rpc) :
    (pooled P cfg rpc).Meets (keyContract (.rpc rpc)) (KeyReply P rpc) .empty := by
  have hobserve : ∀ {α : Type} {Q : KeyLog → Unit → Prop} (r : Except Status α) (g : KeyLog), Q g () →
      (observe r).Meets (keyContract (.rpc rpc)) Q g := by
    intro α Q r g hQ
    refine (observe_reports r).meets (fun o ho => ?_) fun _ => hQ
    cases o <;> first | exact ⟨True.intro, fun _ => rfl⟩ | cases ho
  refine meets_pooled P cfg (fun g o ho => keyContract_skip (Or.inr ?_) ?_ ?_ g)
    (fun g o ho => keyContract_skip (Or.inr ?_) ?_ ?_ g) (fun st _ _ => Or.inl ⟨rfl, st, rfl⟩)
    fun p hp => ?_
  · rintro q rfl
    cases ho
  · rintro q rfl
    cases ho
  · rintro q rfl
    cases ho
  · rintro q rfl
    cases ho
  · rintro q rfl
    cases ho
  · rintro q rfl
    cases ho
  · cases p with
    | job drawsIv request finish =>
      rw [meets_perform_job]
      refine (drawIv_only drawsIv).meets (fun o ho => ?_) fun iv => ?_
      · subst ho
        exact ⟨True.intro, fun _ => rfl⟩
      · rw [meets_submitObserved]
        refine (submit_key cfg _ rfl).mono fun g r _ => hobserve _ g ?_
        intro finish' hp'
        rw [hp] at hp'
        cases hp'
    | key finish =>
      rw [meets_perform_key, meets_publicKey]
      refine meets_getOrLoad (fun g o ho => keyContract_skip (Or.inl ho) ?_ ?_ g)
        ((tryGetWith_key cfg).mono fun g r hr wasPresent => hobserve _ g ?_)
      · rintro q rfl
        cases ho
      · rintro q rfl
        cases ho
      · intro finish' hp'
        rw [hp] at hp'
        cases hp'
        cases r with
        | error e => exact Or.inl ⟨hr, _, rfl⟩
        | ok v => exact Or.inr ⟨v, wasPresent, hr, rfl⟩

/-- A worker does not touch the cache. -/
theorem iterate_key {session : SessionHandle} (w : Worker) (g : KeyLog) :
    (Worker.iterate P w).Meets (keyContract (.worker session)) (fun _ _ => True) g := by
  refine (Worker.iterate_only P w).meets_of_invariant (J := fun _ => True) (fun g o _ ho => ?_)
    True.intro fun _ _ _ => True.intro
  cases o with
  | cache q => cases ho
  | _ => exact ⟨True.intro, fun _ => True.intro⟩

end

/-! ## Every run -/

/-- What a new log asks for. -/
lemma note_asked {g : KeyLog} {ev : Event Op.Ans} {label : String} {k : ℕ}
    (h : (g.note ev).asked = some (label, k)) :
    g.asked = some (label, k) ∨ ev = ⟨.cache (.enter label), .own k⟩ ∨
      ev = ⟨.cache (.enter label), .join k⟩ := by
  obtain ⟨o, a⟩ := ev
  cases o with
  | cache q =>
    cases q with
    | enter label' =>
      cases a with
      | hit value => exact Or.inl h
      | own k' =>
        obtain ⟨rfl, rfl⟩ := Prod.mk.inj (Option.some.inj h)
        exact Or.inr (Or.inl rfl)
      | join k' =>
        obtain ⟨rfl, rfl⟩ := Prod.mk.inj (Option.some.inj h)
        exact Or.inr (Or.inr rfl)
    | wait k' => rcases a with (e | value) | _ <;> exact Or.inl h
    | finish k' outcome => cases outcome <;> exact Or.inl h
    | _ => exact Or.inl h
  | _ => exact Or.inl h

/-- What a new log has got. -/
lemma note_looked {g : KeyLog} {ev : Event Op.Ans} {label : String} {v : Lookup}
    (h : (g.note ev).looked = some (label, v)) :
    g.looked = some (label, v) ∨ ev = ⟨.cache (.enter label), .hit v⟩ ∨
      (∃ k k', g.asked = some (label, k') ∧ ev = ⟨.cache (.wait k), .finished (.ok v)⟩) ∨
      ∃ k k', g.asked = some (label, k') ∧ ev = ⟨.cache (.finish k (.ok v)), ()⟩ := by
  have hasked : ∀ v', g.asked.map (fun p => (p.1, v')) = some (label, v) →
      v' = v ∧ ∃ k', g.asked = some (label, k') := by
    intro v' hv'
    obtain ⟨⟨label', k'⟩, hg, heq⟩ := Option.map_eq_some_iff.mp hv'
    obtain ⟨rfl, rfl⟩ := Prod.mk.inj heq
    exact ⟨rfl, k', hg⟩
  obtain ⟨o, a⟩ := ev
  cases o with
  | cache q =>
    cases q with
    | enter label' =>
      cases a with
      | hit value =>
        obtain ⟨rfl, rfl⟩ := Prod.mk.inj (Option.some.inj h)
        exact Or.inr (Or.inl rfl)
      | own k' => exact Or.inl h
      | join k' => exact Or.inl h
    | wait k =>
      rcases a with (e | value) | _
      · exact Or.inl h
      · obtain ⟨rfl, k', hk'⟩ := hasked value h
        exact Or.inr (Or.inr (Or.inl ⟨k, k', hk', rfl⟩))
      · exact Or.inl h
    | finish k outcome =>
      cases outcome with
      | error e => exact Or.inl h
      | ok value =>
        obtain ⟨rfl, k', hk'⟩ := hasked value h
        exact Or.inr (Or.inr (Or.inr ⟨k, k', hk', rfl⟩))
    | _ => exact Or.inl h
  | _ => exact Or.inl h

section

variable {P : Platform} {cfg : ServiceConfig} {s s' : Shared P}
  {tr : List (Entry Op.Ans (Shared P) Party)} {c : Config Op.Ans (Shared P) Party ThreadResult}

/-- Everything in the cache was produced for its label; loads belong to the labels they were asked
for; and what handlers have got was produced. -/
structure KeysInv (s : Shared P) (tr : List (Entry Op.Ans (Shared P) Party)) : Prop where
  cache : CacheInv (Produced tr) (fun label e => Produced tr label e.value) s.cache
  asked : ∀ i label k, (keyLog (histOf tr i)).asked = some (label, k) →
    ∃ l, s.cache.loads k = some l ∧ l.label = label
  looked : ∀ i label v, (keyLog (histOf tr i)).looked = some (label, v) → Produced tr label v

/-- A step that is not one of the cache. -/
lemma KeysInv.keep (h : KeysInv s tr) {en : Entry Op.Ans (Shared P) Party}
    (hcache : s'.cache = s.cache) (hother : ∀ q, en.event.1 ≠ .cache q) :
    KeysInv s' (tr ++ [en]) := by
  have hlog : ∀ i label k, (keyLog (histOf (tr ++ [en]) i)).asked = some (label, k) →
      (keyLog (histOf tr i)).asked = some (label, k) := by
    intro i label k hi
    rw [histOf_snoc] at hi
    split at hi
    · rw [keyLog_snoc] at hi
      rcases note_asked hi with hi | hev | hev
      · exact hi
      · exact absurd (congrArg Sigma.fst hev) (hother _)
      · exact absurd (congrArg Sigma.fst hev) (hother _)
    · exact hi
  refine ⟨?_, fun i label k hi => hcache ▸ h.asked i label k (hlog i label k hi),
    fun i label v hi => ?_⟩
  · rw [hcache]
    exact h.cache.mono (fun _ _ hv => hv.snoc en) fun _ _ he => he.snoc en
  · rw [histOf_snoc] at hi
    split at hi
    · rw [keyLog_snoc] at hi
      rcases note_looked hi with hi | hev | ⟨k, k', -, hev⟩ | ⟨k, k', -, hev⟩
      · exact (h.looked _ label v hi).snoc en
      · exact absurd (congrArg Sigma.fst hev) (hother _)
      · exact absurd (congrArg Sigma.fst hev) (hother _)
      · exact absurd (congrArg Sigma.fst hev) (hother _)
    · exact (h.looked i label v hi).snoc en

/-- What a handler publishes was produced for the label it asked for. -/
lemma produced_of_finish (hc : Delivering c) {i k : ℕ} {party : Party} {v : Lookup}
    (hpre : (keyContract party).pre (keyLog (histOf c.trace i)) (.cache (.finish k (.ok v)))) :
    v = .notFound ∨ ∃ label, (keyLog (histOf c.trace i)).asked = some (label, k) ∧
      Produced c.trace label v := by
  cases v with
  | notFound => exact Or.inl rfl
  | found key =>
    cases party with
    | worker session => cases hpre
    | rpc rpc =>
      obtain ⟨label, j, hasked, hsent, hgot⟩ := hpre
      rw [keyLog_journal] at hsent hgot
      obtain ⟨j', request, hsent', hresponded⟩ := hc.inv.received i _ hgot
      obtain ⟨rfl, rfl⟩ : j = j' ∧ JobRequest.getPublicKey label = request := by
        rw [hsent] at hsent'
        exact Prod.mk.inj (Option.some.inj hsent')
      obtain ⟨t, hmem⟩ := hc.inv.log.own i j _ hsent
      exact Or.inr ⟨label, hasked, i, j, t, hmem, hresponded⟩

/-- A step of the cache. -/
lemma KeysInv.exec_cache (h : KeysInv c.shared c.trace) (hc : Delivering c) {e : Choice} {i : ℕ}
    {party : Party} {q : CacheOp} {a : q.Ans}
    (hpre : (keyContract party).pre (keyLog (histOf c.trace i)) (.cache q))
    (he : execOp cfg e i c.shared (.cache q) = some (a, s')) :
    KeysInv s' (c.trace ++ [⟨i, party, histOf c.trace i, c.shared, ⟨.cache q, a⟩⟩]) := by
  obtain ⟨p, hp, rfl⟩ := execOp_cache.mp he
  have hpublished : ∀ k l v, q = .finish k (.ok v) → c.shared.cache.loads k = some l →
      Produced c.trace l.label v := by
    rintro k l v rfl hl
    rcases produced_of_finish hc hpre with rfl | ⟨label, hasked, hproduced⟩
    · exact True.intro
    · obtain ⟨l', hl', hlabel⟩ := h.asked i label k hasked
      rw [hl] at hl'
      obtain rfl := Option.some.inj hl'
      rw [hlabel]
      exact hproduced
  obtain ⟨hcache, hkept⟩ := h.cache.exec hp fun k l v hq hl =>
    ⟨hpublished k l v hq hl, hpublished k l v hq hl⟩
  have hkeep : ∀ i' label k, (keyLog (histOf c.trace i')).asked = some (label, k) →
      ∃ l, p.loads k = some l ∧ l.label = label := by
    intro i' label k hi'
    obtain ⟨l, hl, hlabel⟩ := h.asked i' label k hi'
    obtain ⟨l', hl', hlabel'⟩ := hkept k l hl
    exact ⟨l', hl', hlabel'.trans hlabel⟩
  refine ⟨hcache.mono (fun _ _ hv => hv.snoc _) fun _ _ hv => hv.snoc _, fun i' label k hi' => ?_,
    fun i' label v hi' => ?_⟩
  · rw [histOf_snoc] at hi'
    split at hi'
    · rename_i hi
      obtain rfl : i = i' := hi
      rw [keyLog_snoc] at hi'
      rcases note_asked hi' with hi' | hev | hev
      · exact hkeep i label k hi'
      · cases hev
        obtain ⟨e', -, -, hans, -⟩ | ⟨k', l, -, -, hans, -⟩ | ⟨k', -, hans, rfl⟩ | ⟨-, hans, rfl⟩ :=
          CacheState.exec_enter hp
        · cases hans
        · cases hans
        · obtain rfl := Entered.own.inj hans
          exact ⟨⟨label, some i, none⟩, by simp [CacheState.setLoad], rfl⟩
        · obtain rfl := Entered.own.inj hans
          exact ⟨⟨label, some i, none⟩, by simp [CacheState.setLoad], rfl⟩
      · cases hev
        obtain ⟨e', -, -, hans, -⟩ | ⟨k', l, hk', hl, hans, rfl⟩ | ⟨k', -, hans, -⟩ | ⟨-, hans, -⟩ :=
          CacheState.exec_enter hp
        · cases hans
        · obtain rfl := Entered.join.inj hans
          exact h.cache.inflight label k hk'
        · cases hans
        · cases hans
    · exact hkeep i' label k hi'
  · rw [histOf_snoc] at hi'
    split at hi'
    · rename_i hi
      obtain rfl : i = i' := hi
      rw [keyLog_snoc] at hi'
      rcases note_looked hi' with hi' | hev | ⟨k, k', hasked, hev⟩ | ⟨k, k', hasked, hev⟩
      · exact (h.looked i label v hi').snoc _
      · cases hev
        obtain ⟨e', hentry, -, hans, -⟩ | ⟨k', l, -, -, hans, -⟩ | ⟨k', -, hans, -⟩ | ⟨-, hans, -⟩ :=
          CacheState.exec_enter hp
        · obtain rfl := Entered.hit.inj hans
          exact (h.cache.entries label e' hentry).snoc _
        · cases hans
        · cases hans
        · cases hans
      · cases hev
        have hk : ∃ label', (keyLog (histOf c.trace i)).asked = some (label', k) := by
          cases party with
          | rpc rpc => exact hpre
          | worker session => cases hpre
        obtain ⟨label', hasked'⟩ := hk
        obtain ⟨rfl, rfl⟩ : label = label' ∧ k' = k := by
          rw [hasked] at hasked'
          exact Prod.mk.inj (Option.some.inj hasked')
        obtain ⟨l, outcome, hl, houtcome, hans, -⟩ | ⟨label', -, hans, -⟩ := CacheState.exec_wait hp
        · obtain rfl := Joined.finished.inj hans
          obtain ⟨l', hl', hlabel⟩ := h.asked i label k' hasked
          rw [hl] at hl'
          obtain rfl := Option.some.inj hl'
          rw [← hlabel]
          exact (h.cache.loads k' l v hl houtcome).snoc _
        · cases hans
      · cases hev
        rcases produced_of_finish hc hpre with rfl | ⟨label', hasked', hproduced⟩
        · exact True.intro
        · obtain ⟨rfl, rfl⟩ : label = label' ∧ k' = k := by
            rw [hasked] at hasked'
            exact Prod.mk.inj (Option.some.inj hasked')
          exact hproduced.snoc _
    · exact (h.looked i' label v hi').snoc _

/-- What the threads end with. -/
def KeyEnds (P : Platform) : Party → KeyLog → ThreadResult → Prop
  | .rpc method, g, .reply reply => KeyReply P method g reply
  | _, _, _ => True

/-- The obligations of the shared-invariant method. -/
lemma key_sound : System.Sound (pooledProxy P cfg) (fun c _ => Delivering c) keyContract
    (KeyEnds P) KeysInv := by
  refine proxy_sound (fun rpc => pooled_key P cfg rpc) (fun _ g w _ => iterate_key P w g)
    (fun c i e l o k a s' hc hH ht hpre he => ⟨True.intro, ?_⟩) (fun c i l o k hc _ _ _ => ?_)
    fun c v hc _ => ?_
  · by_cases hcache : ∃ q, o = .cache q
    · obtain ⟨q, rfl⟩ := hcache
      exact hc.inv.exec_cache hH hpre he
    · exact hc.inv.keep ((execOp_frame he).cache fun q hq => hcache ⟨q, hq⟩)
        fun q hq => hcache ⟨q, hq⟩
  · obtain ⟨hcache, hasked, hlooked⟩ := hc.inv
    cases l with
    | worker session => exact ⟨hcache, hasked, hlooked⟩
    | rpc rpc =>
      obtain ⟨hcache', hkept⟩ := hcache.abandon i
      refine ⟨hcache', fun i' label k hi' => ?_, hlooked⟩
      obtain ⟨l, hl, hlabel⟩ := hasked i' label k hi'
      obtain ⟨l', hl', hlabel'⟩ := hkept k l hl
      exact ⟨l', hl', hlabel'.trans hlabel⟩
  · obtain ⟨hcache, hasked, hlooked⟩ := hc.inv
    cases v with
    | evictKey label => exact ⟨(hcache.evict label).1, hasked, hlooked⟩
    | _ => exact ⟨hcache, hasked, hlooked⟩

/-- After the start the cache is empty and no handler has got a key. -/
lemma key_started {t₀ : ℕ} {sessions : List SessionHandle} {token : P.token.State} :
    System.Outline keyContract (KeyEnds P) KeysInv (started P t₀ sessions token) := by
  refine outline_started (fun session => iterate_key P _ _) ⟨?_, ?_, ?_⟩
  · exact CacheInv.new
  · exact fun i label k h => nomatch h
  · exact fun i label v h => nomatch h

/-- What is known after every run. -/
lemma key_outline {t₀ : ℕ} {sessions : List SessionHandle} {token : P.token.State}
    {as : List (Action Choice (EnvAction P) Party)}
    (hrun : (pooledProxy P cfg).run (started P t₀ sessions token) as = some c) :
    System.Outline keyContract (KeyEnds P) KeysInv c :=
  key_sound.run key_started
    (System.throughout_invariant (fun _ _ _ => delivering_step) delivering_started) hrun

/-- In every run, a `verify` or `get_public_key` call that has replied has got no value for its
label, or has replied with what it makes of a value that was produced for its label. -/
theorem key_origin {t₀ : ℕ} {sessions : List SessionHandle} {token : P.token.State}
    {as : List (Action Choice (EnvAction P) Party)}
    (hrun : (pooledProxy P cfg).run (started P t₀ sessions token) as = some c) {i : ℕ} {rpc : Rpc}
    {reply : Except Status RpcResponse} (hi : replied c i = some (rpc, reply))
    {finish : Lookup × Bool → Except Status RpcResponse} (hplan : plan P rpc = .ok (.key finish)) :
    ((keyLog (histOf c.trace i)).looked = none ∧ ∃ st, reply = .error st) ∨
      ∃ v wasPresent, reply = finish (v, wasPresent) ∧ Produced c.trace rpc.keyLabel v := by
  have hc := key_outline hrun
  have hends : KeyReply P rpc (keyLog (histOf c.trace i)) reply := ends_of_replied hc hi
  rcases hends finish hplan with hnone | ⟨v, wasPresent, hlooked, hreply⟩
  · exact Or.inl hnone
  · exact Or.inr ⟨v, wasPresent, hreply, hc.inv.looked i rpc.keyLabel v hlooked⟩

end

end HsmProxy
