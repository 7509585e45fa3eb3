import HsmProxy.Cache.KeyLoad

/-!
# Lookups while keys are rotated

A handler that looks a key up runs a load or joins one, and is under way (`inLookup`) until it has
the outcome.  When loads take no time (`Instantaneous`) and no worker takes a stale handle from its
map (`FreshHandles`), what the threads of a run know of the keys under the labels is current
(`Knowing`): a worker has read the object under the label of its job, and what waits for a handler
is the key under its label now.
-/

namespace HsmProxy

open Interleaving Interleaving.Prog

/-! ## Lookups that are under way -/

/-- Is a lookup under way after one more event?  It is from the time a handler runs a load or waits
for one, until it has the outcome. -/
def lookupAfter (g : Bool) : Event Op.Ans → Bool
  | ⟨.cache (.enter _), .own _⟩ => true
  | ⟨.cache (.enter _), .join _⟩ => true
  | ⟨.cache (.wait _), .finished _⟩ => false
  | ⟨.cache (.finish _ _), _⟩ => false
  | _ => g

/-- Is a lookup under way after a history? -/
def inLookup (h : List (Event Op.Ans)) : Bool := h.foldl lookupAfter false

/-- One more event. -/
@[simp] lemma inLookup_snoc (h : List (Event Op.Ans)) (ev : Event Op.Ans) :
    inLookup (h ++ [ev]) = lookupAfter (inLookup h) ev := by
  simp [inLookup, List.foldl_append]

/-- Only entering the cache begins a lookup. -/
lemma inLookup_of_lookupAfter {g : Bool} {o : Op} {a : o.Ans}
    (ho : ∀ label, o ≠ .cache (.enter label)) (h : lookupAfter g ⟨o, a⟩ = true) : g = true := by
  cases o with
  | cache q =>
    cases q with
    | enter label => exact absurd rfl (ho label)
    | wait k =>
      cases a with
      | own => exact h
      | finished outcome => cases h
    | finish k outcome => cases h
    | _ => exact h
  | _ => exact h

/-- A lookup is begun once, before a job is sent, and it is under way when a load is awaited or
finished. -/
def lookupContract : Contract Op.Ans (JobLog × Bool) where
  init := (.empty, false)
  next g o a := (g.1.note ⟨o, a⟩, lookupAfter g.2 ⟨o, a⟩)
  pre g
    | .cache (.enter _) => g.1.sent = none ∧ g.2 = false
    | .cache (.wait _) => g.2 = true
    | .cache (.finish _ _) => g.2 = true
    | _ => True
  post _ _ _ := True

/-- The ghost value of the contract. -/
lemma lookupContract_ghost (h : List (Event Op.Ans)) :
    lookupContract.ghost h = (jobLog h, inLookup h) := by
  induction h using List.reverseRecOn with
  | nil => rfl
  | append_singleton h ev ih =>
    rw [Contract.ghost_snoc, ih, jobLog_snoc, inLookup_snoc]
    rfl

/-- Steps outside the cache are free, and leave the lookup as it is. -/
lemma lookupContract_free {o : Op} (ho : ∀ q, o ≠ .cache q) (g : JobLog × Bool) :
    lookupContract.pre g o ∧ ∀ a, (lookupContract.next g o a).2 = g.2 := by
  cases o with
  | cache q => exact absurd rfl (ho q)
  | _ => exact ⟨True.intro, fun _ => rfl⟩

section

variable (P : Platform) (cfg : ServiceConfig)

/-- A submission leaves the lookup as it is. -/
lemma submit_lookup (request : JobRequest) {g : JobLog × Bool} (hg : g.1 = .empty) :
    (submit cfg request).Meets lookupContract
      (fun g' r => g'.2 = g.2 ∧ Submitted request g'.1 r) g := by
  obtain ⟨journal, under⟩ := g
  obtain rfl : journal = .empty := hg
  refine ⟨True.intro, fun _ _ => ⟨True.intro, fun _ _ => ⟨True.intro, fun sent _ => ?_⟩⟩⟩
  cases sent with
  | error refusal =>
    cases refusal with
    | full => exact ⟨True.intro, fun _ _ => ⟨rfl, Or.inl ⟨rfl, _, rfl⟩⟩⟩
    | disconnected => exact ⟨rfl, Or.inl ⟨rfl, _, rfl⟩⟩
  | ok j =>
    refine ⟨True.intro, fun _ _ => ⟨True.intro, fun awaited _ => ?_⟩⟩
    cases awaited with
    | value result => exact ⟨rfl, Or.inr ⟨rfl, j, rfl⟩⟩
    | closed => exact ⟨rfl, Or.inl ⟨rfl, _, rfl⟩⟩
    | elapsed => exact ⟨True.intro, fun _ _ => ⟨rfl, Or.inl ⟨rfl, _, rfl⟩⟩⟩

/-- A key that was received from the pool is what is looked up. -/
def Resolved (g : JobLog) (r : Except PoolError Lookup) : Prop :=
  ∀ key : CachedPublicKey, g.got = some (.ok (.publicKey key.spkiDer key.keyType)) →
    r = .ok (.found key)

/-- A load publishes and returns the key it has received. -/
lemma runLoad_lookup (k : ℕ) (keyLabel : String) {g : JobLog × Bool} (hg : g.1 = .empty)
    (hunder : g.2 = true) :
    (runLoad k (loadPublicKey cfg keyLabel)).Meets lookupContract (fun g r => Resolved g.1 r) g := by
  rw [meets_runLoad]
  refine (submit_lookup cfg _ hg).mono fun g' r hr => ⟨hr.1.trans hunder, fun _ _ key hgot => ?_⟩
  have hgot : g'.1.got = some (.ok (.publicKey key.spkiDer key.keyType)) := hgot
  rcases hr.2 with ⟨hnone, -⟩ | ⟨hsome, -⟩
  · rw [hnone] at hgot
    cases hgot
  · rw [hsome] at hgot
    obtain rfl := Option.some.inj hgot
    rfl

/-- What a handler that looks up a key replies when it has received one from the pool. -/
def LookupReply (rpc : Rpc) (g : JobLog) (reply : Except Status RpcResponse) : Prop :=
  ∀ finish, plan P rpc = .ok (.key finish) → ∀ key : CachedPublicKey,
    g.got = some (.ok (.publicKey key.spkiDer key.keyType)) →
      ∃ wasPresent, reply = finish (.found key, wasPresent)

/-- The contract does not look at the steps around a lookup. -/
lemma lookupContract_skip {o : Op} (ho : o.admits ∨ o.records ∨ o.countsLookup)
    (g : JobLog × Bool) : lookupContract.pre g o ∧ ∀ a, lookupContract.next g o a = g := by
  cases o with
  | cache q =>
    cases q <;> first
      | exact ⟨True.intro, fun _ => rfl⟩
      | (rcases ho with ho | ho | ho <;> cases ho)
  | pool q => rcases ho with ho | ho | ho <;> cases ho
  | token q => rcases ho with ho | ho | ho <;> cases ho
  | _ => exact ⟨True.intro, fun _ => rfl⟩

/-- A handler keeps to the contract, and replies so. -/
theorem pooled_lookup (rpc : Rpc) :
    (pooled P cfg rpc).Meets lookupContract (fun g reply => LookupReply P rpc g.1 reply)
      (.empty, false) := by
  have hobserve : ∀ {α : Type} {Q : JobLog × Bool → Unit → Prop} (r : Except Status α)
      (g : JobLog × Bool), Q g () → (observe r).Meets lookupContract Q g := by
    intro α Q r g hQ
    refine (observe_reports r).meets (fun o ho => ?_) fun _ => hQ
    cases o <;> first | exact ⟨True.intro, fun _ => rfl⟩ | cases ho
  refine meets_pooled P cfg (fun g o ho => lookupContract_skip (Or.inl ho) g)
    (fun g o ho => lookupContract_skip (Or.inr (Or.inl ho)) g)
    (fun _ _ _ _ hgot => nomatch hgot) fun p hp => ?_
  cases p with
  | job drawsIv request finish =>
    rw [meets_perform_job]
    refine (drawIv_only drawsIv).meets (fun o ho => ?_) fun iv => ?_
    · subst ho
      exact ⟨True.intro, fun _ => rfl⟩
    · rw [meets_submitObserved]
      refine (submit_lookup cfg _ rfl).mono fun g r _ => hobserve _ g ?_
      intro finish' hp'
      rw [hp] at hp'
      cases hp'
  | key finish =>
    rw [meets_perform_key, meets_publicKey]
    have hreply : ∀ (g : JobLog × Bool) (r : Except PoolError Lookup), Resolved g.1 r →
        ∀ wasPresent, (observe ((r.map fun found => (found, wasPresent)).mapError fun e =>
          toStatus (.internal (e.display P)))).Meets lookupContract
            (fun g _ => LookupReply P rpc g.1 (((r.map fun found => (found, wasPresent)).mapError
              fun e => toStatus (.internal (e.display P))) >>= finish)) g := by
      intro g r hr wasPresent
      refine hobserve _ g fun finish' hp' key hgot => ⟨wasPresent, ?_⟩
      rw [hp] at hp'
      cases hp'
      rw [hr key hgot]
      rfl
    refine meets_getOrLoad (fun g o ho => lookupContract_skip (Or.inr (Or.inr ho)) g)
      ⟨⟨rfl, rfl⟩, fun entered _ => ?_⟩
    cases entered with
    | hit value => exact hreply _ _ fun _ hgot => nomatch hgot
    | own k => exact (runLoad_lookup cfg k _ rfl rfl).mono hreply
    | join k =>
      refine ⟨rfl, fun joined _ => ?_⟩
      cases joined with
      | own => exact (runLoad_lookup cfg k _ rfl rfl).mono hreply
      | finished outcome => exact hreply _ _ fun _ hgot => nomatch hgot

/-- A worker does not touch the cache. -/
theorem iterate_lookup (w : Worker) (g : JobLog × Bool) :
    (Worker.iterate P w).Meets lookupContract (fun _ _ => True) g := by
  refine (Worker.iterate_only P w).meets_of_invariant (J := fun _ => True)
    (fun g o _ ho => ⟨(lookupContract_free ?_ g).1, fun _ => True.intro⟩) True.intro
    fun _ _ _ => True.intro
  rintro q rfl
  cases ho

end

/-! ## Loads in the cache -/

namespace CacheState

variable {cfg : CacheConfig} {now tid : ℕ} {s s' : CacheState} {good : String → Lookup → Prop}
  {goodEntry : String → CacheEntry → Prop}

/-- The load in progress for a label has no outcome yet. -/
def Unfinished (s : CacheState) : Prop :=
  ∀ label k l, s.inflight.lookup label = some k → s.loads k = some l → l.outcome = none

/-- A load without an outcome replaces another one. -/
lemma Unfinished.setLoad (h : s.Unfinished) {k : ℕ} {load : Load} (hload : load.outcome = none) :
    (s.setLoad k load).Unfinished := by
  intro label k' l hk' hl
  by_cases hk : k' = k
  · subst hk
    obtain rfl : load = l := by simpa [CacheState.setLoad] using hl
    exact hload
  · exact h label k' l hk' (by simpa [CacheState.setLoad, hk] using hl)

/-- An operation on the cache leaves the loads in progress without an outcome. -/
lemma Unfinished.exec (h : s.Unfinished) (hs : CacheInv good goodEntry s) {q : CacheOp} {a : q.Ans}
    (hq : s.exec cfg now tid q = some (a, s')) : s'.Unfinished := by
  cases q with
  | containsKey label =>
    cases hq
    exact h
  | enter label =>
    rcases exec_enter hq with ⟨e, -, -, -, rfl⟩ | ⟨k, l, -, -, -, rfl⟩ | ⟨k, -, -, rfl⟩ | ⟨-, -, rfl⟩
    · exact h
    · exact h
    · exact h.setLoad rfl
    · intro label' k' l' hk' hl'
      by_cases hlabel : label' = label
      · subst hlabel
        obtain rfl : s.nextTicket = k' := by simpa using hk'
        obtain rfl : (⟨label', some tid, none⟩ : Load) = l' := by
          simpa [CacheState.setLoad] using hl'
        rfl
      · have hold : s.inflight.lookup label' = some k' := by
          simpa [AList.lookup_insert_ne hlabel] using hk'
        obtain ⟨l₀, hl₀, -⟩ := hs.inflight label' k' hold
        have hne : k' ≠ s.nextTicket := Nat.ne_of_lt (hs.fresh k' l₀ hl₀)
        exact h label' k' l' hold (by simpa [CacheState.setLoad, hne] using hl')
  | wait k =>
    rcases exec_wait hq with ⟨l, outcome, -, -, -, rfl⟩ | ⟨label, -, -, rfl⟩
    · exact h
    · exact h.setLoad rfl
  | finish k outcome =>
    cases hq
    cases hload : s.loads k with
    | none =>
      have hsame : s.finish cfg now k outcome = s := by simp [CacheState.finish, hload]
      rw [hsame]
      exact h
    | some load =>
      obtain ⟨label, owner, old⟩ := load
      have hinflight : (s.finish cfg now k outcome).inflight = s.inflight.erase label := by
        simp only [CacheState.finish, hload]
        cases outcome <;> rfl
      have hloads : ∀ k', k' ≠ k → (s.finish cfg now k outcome).loads k' = s.loads k' := by
        intro k' hk'
        simp only [CacheState.finish, hload]
        cases outcome <;> simp [CacheState.setLoad, hk']
      intro label' k' l' hk' hl'
      rw [hinflight] at hk'
      by_cases hlabel : label' = label
      · subst hlabel
        rw [AList.lookup_erase] at hk'
        cases hk'
      · rw [AList.lookup_erase_ne hlabel] at hk'
        have hne : k' ≠ k := by
          rintro rfl
          obtain ⟨l₀, hl₀, hlabel₀⟩ := hs.inflight label' k' hk'
          rw [hload] at hl₀
          obtain rfl := Option.some.inj hl₀
          exact hlabel hlabel₀.symm
        rw [hloads k' hne] at hl'
        exact h label' k' l' hk' hl'
  | countHit negative =>
    cases hq
    exact h
  | countMiss =>
    cases hq
    exact h

/-- Dropping the runner of a load keeps it. -/
lemma Unfinished.abandon (h : s.Unfinished) (tid : ℕ) : (s.abandon tid).Unfinished := by
  intro label k l hk hl
  obtain ⟨l₀, hl₀, rfl⟩ := Option.map_eq_some_iff.mp hl
  have hnone := h label k l₀ hk hl₀
  split <;> exact hnone

end CacheState

/-! ## Loads that know the key under their label -/

section

variable {P : Platform} {cfg : ServiceConfig}
  {c c' : Config Op.Ans (Shared P.rotating) Party ThreadResult}
  {a : Action Choice (EnvAction P.rotating) Party}

/-- Everyone keeps to the contract for searches and reads. -/
lemma aim_sound : System.Sound (pooledProxy P cfg) (fun _ _ => True) (fun _ => aimContract)
    (fun _ _ _ => True) (fun _ _ => True) :=
  proxy_sound (fun rpc => pooled_aims P cfg rpc) (fun _ g w _ => iterate_aims P w g)
    (fun _ _ _ _ _ _ _ _ _ _ _ _ _ => ⟨True.intro, True.intro⟩)
    (fun _ _ _ _ _ _ _ _ _ => True.intro) fun _ _ _ _ => True.intro

/-- What handlers end with. -/
def LookupEnds (P : Platform) : Party → JobLog × Bool → ThreadResult → Prop
  | .rpc rpc, g, .reply reply => LookupReply P rpc g.1 reply
  | _, _, _ => True

/-- Everyone keeps to the contract for lookups. -/
lemma lookup_sound : System.Sound (pooledProxy P cfg) (fun _ _ => True) (fun _ => lookupContract)
    (LookupEnds P) (fun _ _ => True) :=
  proxy_sound (fun rpc => pooled_lookup P cfg rpc) (fun _ g w _ => iterate_lookup P w g)
    (fun _ _ _ _ _ _ _ _ _ _ _ _ _ => ⟨True.intro, True.intro⟩)
    (fun _ _ _ _ _ _ _ _ _ => True.intro) fun _ _ _ _ => True.intro

/-- What holds in every run, whatever is rotated. -/
structure Known (c : Config Op.Ans (Shared P.rotating) Party ThreadResult) : Prop where
  delivering : Delivering c
  keys : System.Outline keyContract (KeyEnds P.rotating) KeysInv c
  handles : HandleOutline c
  aims : System.Outline (fun _ => aimContract) (fun _ _ _ => True) (fun _ _ => True) c
  lookups : System.Outline (fun _ => lookupContract) (LookupEnds P.rotating) (fun _ _ => True) c

/-- After the start nothing is cached, loaded or answered, so what is known holds. -/
lemma known_started {t₀ : ℕ} {sessions : List SessionHandle} {token : ObjectStore} :
    Known (started P.rotating t₀ sessions token) where
  delivering := delivering_started
  keys := key_started
  handles := handle_started
  aims := outline_started (fun _ => iterate_aims P.rotating _ _) True.intro
  lookups := outline_started (fun _ => iterate_lookup P.rotating _ _) True.intro

/-- A step keeps what holds whatever is rotated. -/
lemma known_step (hc : Known c) (h : (pooledProxy P.rotating cfg).step c a = some c') :
    Known c' where
  delivering := delivering_step hc.delivering h
  keys := key_sound.step hc.keys hc.delivering h
  handles := (handle_sound (pooled_only P.rotating cfg)).step hc.handles True.intro h
  aims := aim_sound.step hc.aims True.intro h
  lookups := lookup_sound.step hc.lookups True.intro h

/-- A load is under way: a handler is in a lookup, or a worker executes a job for a public key. -/
def midLoad (h : List (Event Op.Ans)) : Bool :=
  inLookup h || (jobLog h).job.any fun job => job.request.looksUp

/-- No load is under way. -/
def noLoad (c : Config Op.Ans (Shared P.rotating) Party ThreadResult) : Bool :=
  (List.range c.spawned).all fun i => (c.threads i).all fun t => !midLoad t.hist

/-- Loads take no time: the clock does not advance, and nothing is rotated, while a load is under
way. -/
def Instantaneous (c : Config Op.Ans (Shared P.rotating) Party ThreadResult)
    (a : Action Choice (EnvAction P.rotating) Party) : Bool :=
  match a with
  | .env (.tick _) => noLoad c
  | .env (.changeToken _) => noLoad c
  | _ => true

/-- A worker that takes a handle from its map for a job for a public key takes that of the object
under the label. -/
def FreshHandles (c : Config Op.Ans (Shared P.rotating) Party ThreadResult)
    (a : Action Choice (EnvAction P.rotating) Party) : Bool :=
  match a with
  | .exec i _ =>
    match c.threads i with
    | some ⟨_, hist, .call (.pool (.count .handleCacheHits _)) _⟩ => freshHandle c.shared.token hist
    | _ => true
  | _ => true

/-- What the handler of a lookup that is under way has got, or will get, is the key under the label
now. -/
structure LookupAgrees (s : Shared P.rotating) (h : List (Event Op.Ans)) : Prop where
  /-- The result of its job. -/
  waiting : ∀ j label key o, (jobLog h).sent = some (j, .getPublicKey label) →
    s.pool.oneshots j = some o → o.value = some (.ok (.publicKey key.spkiDer key.keyType)) →
      ObjectStore.keyAt P.rotating s.token label = some key
  /-- The result it has received. -/
  received : ∀ j label key, (jobLog h).sent = some (j, .getPublicKey label) →
    (jobLog h).got = some (.ok (.publicKey key.spkiDer key.keyType)) →
      ObjectStore.keyAt P.rotating s.token label = some key
  /-- The outcome of the load it has joined. -/
  joined : ∀ label k l key, (keyLog h).asked = some (label, k) → s.cache.loads k = some l →
    l.outcome = some (.ok (.found key)) → ObjectStore.keyAt P.rotating s.token label = some key

/-- Calls do not change the store, which answers them as it may. -/
lemma exec_store {e : Choice} {i : ℕ} {s s' : Shared P.rotating} {o : Op} {ans : o.Ans}
    (he : execOp cfg e i s o = some (ans, s')) : s'.token = s.token ∧
      ∀ (q : TokenOp) (ans' : q.Ans), (⟨o, ans⟩ : Event Op.Ans) = ⟨.token q, ans'⟩ →
        ∃ t, ObjectStore.answer s.token q ans' = some t := by
  by_cases htoken : ∃ q, o = .token q
  · obtain ⟨q, rfl⟩ := htoken
    unfold execOp at he
    obtain ⟨t, ht, heq⟩ := Option.map_eq_some_iff.mp he
    obtain ⟨rfl, rfl⟩ := Prod.mk.inj heq
    refine ⟨ObjectStore.answer_eq ht, fun q' ans' hev => ?_⟩
    cases hev
    exact ⟨t, ht⟩
  · refine ⟨(execOp_frame he).token fun q hq => htoken ⟨q, hq⟩, fun q ans' hev => ?_⟩
    exact absurd ⟨q, congrArg Sigma.fst hev⟩ htoken

/-- The steps of the execution of a job are not steps of a handler. -/
lemma not_executes_of_ofHandler {o : Op} (ho : o.ofHandler = true) : Worker.executes o = false := by
  cases o with
  | pool q =>
    cases q with
    | count counter n => cases counter <;> first | rfl | cases ho
    | _ => rfl
  | token q => cases ho
  | _ => rfl

/-- One step of a thread, as far as jobs for public keys go. -/
lemma Known.loads_exec (hk : Known c) {i : ℕ} {e : Choice} {l : Party} {hist : List (Event Op.Ans)}
    {o : Op} {k : o.Ans → Prog Op.Ans ThreadResult} {ans : o.Ans} {s' : Shared P.rotating}
    (hfresh : FreshHandles c (.exec i e) = true) (hl : Loads c.shared.token hist)
    (ht : c.threads i = some ⟨l, hist, .call o k⟩)
    (he : execOp cfg e i c.shared o = some (ans, s')) : Loads s'.token (hist ++ [⟨o, ans⟩]) := by
  obtain ⟨hstore, hanswer⟩ := exec_store he
  rw [hstore]
  refine hl.snoc (fun hexecutes => ?_) (hk.aims.threads i _ ht).1 ?_ hanswer
  · have hpre := (hk.handles.threads i _ ht).1
    cases l with
    | worker session => exact hpre
    | rpc rpc =>
      rw [not_executes_of_ofHandler hpre] at hexecutes
      cases hexecutes
  · rintro n rfl
    simpa [FreshHandles, ht] using hfresh

/-- A worker that answers a job with a key answers with the key under the label of the job. -/
lemma Known.current_of_respond (hk : Known c)
    (hloads : ∀ i t, c.threads i = some t → Loads c.shared.token t.hist) {i : ℕ} {l : Party}
    {hist : List (Event Op.Ans)} {j : ℕ} {key : CachedPublicKey}
    {k : Unit → Prog Op.Ans ThreadResult}
    (ht : c.threads i = some ⟨l, hist,
      .call (.pool (.respond j (.ok (.publicKey key.spkiDer key.keyType)))) k⟩)
    {i' : ℕ} {label : String}
    (hsent : (jobLog (histOf c.trace i')).sent = some (j, .getPublicKey label)) :
    ObjectStore.keyAt P.rotating c.shared.token label = some key := by
  have hhist : hist = histOf c.trace i := hk.delivering.recorded.hist i _ ht
  obtain ⟨job, w, w', hjob, hid, hruns⟩ := (hk.delivering.threads i _ ht).1
  have hjob : (jobLog hist).job = some job := hjob
  obtain ⟨t, hmem⟩ := hk.delivering.inv.log.own i' j _ hsent
  obtain ⟨i'', hmem'⟩ := hk.delivering.inv.sent_of_taken
    (hk.delivering.inv.log.taken i job (hhist ▸ hjob))
  have hsame := hk.delivering.inv.jobs.eq_of_id hmem' hmem hid
  have hrequest : job.request = .getPublicKey label := congrArg (fun p => p.2.request) hsame
  exact (hloads i _ ht).answer hjob hrequest hruns

/-- A handler that publishes a key publishes the key under the label of the load. -/
lemma Known.current_of_finish (hk : Known c)
    (hagrees : ∀ i t, c.threads i = some t → inLookup t.hist = true → LookupAgrees c.shared t.hist)
    {i : ℕ} {l : Party} {hist : List (Event Op.Ans)} {n : ℕ} {key : CachedPublicKey}
    {k : Unit → Prog Op.Ans ThreadResult}
    (ht : c.threads i = some ⟨l, hist, .call (.cache (.finish n (.ok (.found key)))) k⟩)
    {load : Load} (hload : c.shared.cache.loads n = some load) :
    ObjectStore.keyAt P.rotating c.shared.token load.label = some key := by
  have hhist : hist = histOf c.trace i := hk.delivering.recorded.hist i _ ht
  have hin : inLookup hist = true := by
    have hpre := (hk.lookups.threads i _ ht).1
    rw [lookupContract_ghost] at hpre
    exact hpre
  have hpre := (hk.keys.threads i _ ht).1
  cases l with
  | worker session => cases hpre
  | rpc rpc =>
    obtain ⟨label, j, hasked, hsent, hgot⟩ := hpre
    have hasked : (keyLog hist).asked = some (label, n) := hasked
    have hsent : (keyLog hist).journal.sent = some (j, .getPublicKey label) := hsent
    have hgot : (keyLog hist).journal.got = some (.ok (.publicKey key.spkiDer key.keyType)) := hgot
    rw [keyLog_journal] at hsent hgot
    obtain ⟨load', hload', hlabel⟩ := hk.keys.inv.asked i label n (hhist ▸ hasked)
    rw [hload] at hload'
    obtain rfl := Option.some.inj hload'
    rw [hlabel]
    exact (hagrees i _ ht hin).received j label key hsent hgot

/-- Nothing waits to be received under the name the next job gets. -/
lemma Known.unanswered (hk : Known c) {o : Oneshot}
    (ho : c.shared.pool.oneshots c.shared.pool.nextJob = some o) : o.value = none := by
  cases hvalue : o.value with
  | none => rfl
  | some r =>
    have hanswered := hk.delivering.inv.answered _ o r ho hvalue
    obtain ⟨job, hjob, hid, -⟩ := hk.delivering.inv.responded _ r hanswered
    have hlt := hk.delivering.inv.jobs.id_lt (List.mem_append_right _ hjob)
    omega

/-- A step of some thread, for a handler in a lookup: what comes to wait for it is current. -/
lemma LookupAgrees.exec (hk : Known c)
    (hloads : ∀ i t, c.threads i = some t → Loads c.shared.token t.hist)
    (hagrees : ∀ i t, c.threads i = some t → inLookup t.hist = true → LookupAgrees c.shared t.hist)
    {i : ℕ} {e : Choice} {l : Party} {hist : List (Event Op.Ans)} {o : Op}
    {k : o.Ans → Prog Op.Ans ThreadResult} {ans : o.Ans} {s' : Shared P.rotating}
    (ht : c.threads i = some ⟨l, hist, .call o k⟩)
    (he : execOp cfg e i c.shared o = some (ans, s')) {i' : ℕ}
    (h : LookupAgrees c.shared (histOf c.trace i')) : LookupAgrees s' (histOf c.trace i') := by
  have hstore := (exec_store he).1
  refine ⟨fun j label key shot hsent hshot hvalue => ?_, fun j label key hsent hgot => ?_,
    fun label n load key hasked hload houtcome => ?_⟩
  · rw [hstore]
    by_cases hpool : ∃ q, o = .pool q
    · obtain ⟨q, rfl⟩ := hpool
      obtain ⟨p, hp, rfl⟩ := execOp_pool.mp he
      rcases PoolState.oneshot_exec hp hshot hvalue with ⟨shot', hshot', hvalue'⟩ | rfl
      · exact h.waiting j label key shot' hsent hshot' hvalue'
      · exact hk.current_of_respond hloads ht hsent
    · rw [(execOp_frame he).pool fun q hq => hpool ⟨q, hq⟩] at hshot
      exact h.waiting j label key shot hsent hshot hvalue
  · rw [hstore]
    exact h.received j label key hsent hgot
  · rw [hstore]
    by_cases hcache : ∃ q, o = .cache q
    · obtain ⟨q, rfl⟩ := hcache
      obtain ⟨p, hp, rfl⟩ := execOp_cache.mp he
      rcases CacheState.exec_outcome hp hload houtcome with ⟨load', hload', houtcome'⟩ | rfl
      · exact h.joined label n load' key hasked hload' houtcome'
      · obtain ⟨load', hload', hlabel⟩ := hk.keys.inv.asked i' label n hasked
        rw [← hlabel]
        exact hk.current_of_finish hagrees ht hload'
    · rw [(execOp_frame he).cache fun q hq => hcache ⟨q, hq⟩] at hload
      exact h.joined label n load key hasked hload houtcome

/-- A handler's own step in a lookup: what it receives, or comes to wait for, is current. -/
lemma LookupAgrees.snoc (hk : Known c) {i : ℕ} {e : Choice} {l : Party}
    {hist : List (Event Op.Ans)} {o : Op} {k : o.Ans → Prog Op.Ans ThreadResult} {ans : o.Ans}
    {s' : Shared P.rotating} (ht : c.threads i = some ⟨l, hist, .call o k⟩)
    (he : execOp cfg e i c.shared o = some (ans, s')) (henter : ∀ label, o ≠ .cache (.enter label))
    (hold : LookupAgrees c.shared hist) (h : LookupAgrees s' hist) :
    LookupAgrees s' (hist ++ [⟨o, ans⟩]) := by
  have hstore := (exec_store he).1
  have hpre := (hk.delivering.threads i _ ht).1
  refine ⟨fun j label key shot hsent hshot hvalue => ?_, fun j label key hsent hgot => ?_,
    fun label n load key hasked hload houtcome => ?_⟩
  · rw [jobLog_snoc] at hsent
    rcases (jobLog hist).note_own ⟨o, ans⟩ with ⟨request, t, j', hev, hnote, -⟩ |
      ⟨-, -, -, -, hnote, -⟩ | ⟨hnote, -⟩
    · -- the job was sent just now, and nobody has answered it
      cases hev
      rw [hnote] at hsent
      obtain ⟨rfl, -⟩ := Prod.mk.inj (Option.some.inj hsent)
      obtain ⟨p, hp, rfl⟩ := execOp_pool.mp he
      obtain rfl : j' = c.shared.pool.nextJob := by
        obtain ⟨-, ⟨-, ha, -⟩ | ⟨-, -, -, -, ha, -⟩ | ⟨-, -, -, ha, -⟩ | ⟨-, -, -, ha, -⟩⟩ :=
          PoolState.exec_trySend hp
        · cases ha
        · exact Except.ok.inj ha
        · exact Except.ok.inj ha
        · cases ha
      rcases PoolState.oneshot_exec hp hshot hvalue with ⟨shot', hshot', hvalue'⟩ | hq
      · rw [hk.unanswered hshot'] at hvalue'
        cases hvalue'
      · cases hq
    · exact h.waiting j label key shot (hnote ▸ hsent) hshot hvalue
    · exact h.waiting j label key shot (hnote ▸ hsent) hshot hvalue
  · rw [jobLog_snoc] at hsent hgot
    rcases (jobLog hist).note_own ⟨o, ans⟩ with ⟨request, t, j', hev, -, hkeep⟩ |
      ⟨j', d, r, hev, hnote, hnew⟩ | ⟨hnote, hkeep⟩
    · cases hev
      have hnone : (jobLog hist).got = none := hpre.2
      rw [hkeep, hnone] at hgot
      cases hgot
    · cases hev
      rw [hnote] at hsent
      rw [hnew] at hgot
      obtain rfl := Option.some.inj hgot
      obtain ⟨request, hrequest⟩ := hpre
      have hrequest : (jobLog hist).sent = some (j', request) := hrequest
      rw [hsent] at hrequest
      obtain ⟨rfl, rfl⟩ := Prod.mk.inj (Option.some.inj hrequest)
      obtain ⟨p, hp, rfl⟩ := execOp_pool.mp he
      obtain ⟨shot, hshot, -, ⟨r, hr, ha⟩ | ⟨-, -, ha⟩ | ⟨-, -, -, ha⟩⟩ :=
        PoolState.exec_awaitResult hp
      · obtain rfl := Awaited.value.inj ha
        exact hold.waiting j label key shot hsent hshot hr
      · cases ha
      · cases ha
    · exact h.received j label key (hnote ▸ hsent) (hkeep ▸ hgot)
  · rw [keyLog_snoc] at hasked
    rcases note_asked hasked with hasked | hev | hev
    · exact h.joined label n load key hasked hload houtcome
    · exact absurd (congrArg Sigma.fst hev) (henter label)
    · exact absurd (congrArg Sigma.fst hev) (henter label)

/-- A lookup that has just begun knows nothing yet. -/
lemma LookupAgrees.enter (hk : Known c) (hunfinished : c.shared.cache.Unfinished) {i : ℕ}
    {e : Choice} {l : Party} {hist : List (Event Op.Ans)} {label : String}
    {k : Entered → Prog Op.Ans ThreadResult} {ans : Entered} {s' : Shared P.rotating}
    (ht : c.threads i = some ⟨l, hist, .call (.cache (.enter label)) k⟩)
    (he : execOp cfg e i c.shared (.cache (.enter label)) = some (ans, s'))
    (hin : inLookup (hist ++ [⟨.cache (.enter label), ans⟩]) = true) :
    LookupAgrees s' (hist ++ [⟨.cache (.enter label), ans⟩]) := by
  have hpre := (hk.lookups.threads i _ ht).1
  rw [lookupContract_ghost] at hpre
  obtain ⟨hsent, hout⟩ : (jobLog hist).sent = none ∧ inLookup hist = false := hpre
  have hnone : (jobLog (hist ++ [⟨.cache (.enter label), ans⟩])).sent = none := by
    rw [jobLog_snoc]
    exact hsent
  obtain ⟨p, hp, rfl⟩ := execOp_cache.mp he
  -- the load it runs or joins has no outcome
  have hopen : ∀ label' n load, (keyLog (hist ++ [⟨.cache (.enter label), ans⟩])).asked =
      some (label', n) → p.loads n = some load → load.outcome = none := by
    intro label' n load hasked hload
    rw [keyLog_snoc] at hasked
    rcases CacheState.exec_enter hp with ⟨entry, -, -, rfl, -⟩ | ⟨n', l', hn', -, rfl, rfl⟩ |
      ⟨n', -, rfl, rfl⟩ | ⟨-, rfl, rfl⟩
    · rw [inLookup_snoc] at hin
      exact absurd (hout.symm.trans hin) Bool.false_ne_true
    · obtain ⟨rfl, rfl⟩ := Prod.mk.inj (Option.some.inj hasked)
      exact hunfinished label n' load hn' hload
    · obtain ⟨rfl, rfl⟩ := Prod.mk.inj (Option.some.inj hasked)
      obtain rfl : (⟨label, some i, none⟩ : Load) = load := by
        simpa [CacheState.setLoad] using hload
      rfl
    · obtain ⟨rfl, rfl⟩ := Prod.mk.inj (Option.some.inj hasked)
      obtain rfl : (⟨label, some i, none⟩ : Load) = load := by
        simpa [CacheState.setLoad] using hload
      rfl
  refine ⟨fun j label' key shot hsent' => ?_, fun j label' key hsent' => ?_,
    fun label' n load key hasked hload houtcome => ?_⟩
  · rw [hnone] at hsent'
    cases hsent'
  · rw [hnone] at hsent'
    cases hsent'
  · rw [hopen label' n load hasked hload] at houtcome
    cases houtcome

/-! ## Every run -/

/-- What the threads know of the keys under the labels is current. -/
structure Knowing (c : Config Op.Ans (Shared P.rotating) Party ThreadResult) : Prop where
  known : Known c
  unfinished : c.shared.cache.Unfinished
  /-- Workers know what they have found and read for a job. -/
  loads : ∀ i t, c.threads i = some t → Loads c.shared.token t.hist
  /-- Handlers know what they have received. -/
  lookups : ∀ i t, c.threads i = some t → inLookup t.hist = true → LookupAgrees c.shared t.hist

/-- After the start the threads know of no key. -/
lemma knowing_started {t₀ : ℕ} {sessions : List SessionHandle} {token : ObjectStore} :
    Knowing (started P.rotating t₀ sessions token) := by
  have hhist : ∀ i t, (started P.rotating t₀ sessions token).threads i = some t → t.hist = [] := by
    intro i t ht
    exact known_started.delivering.recorded.hist i t ht
  refine ⟨known_started, fun label k l hk _ => ?_, fun i t ht => ?_, fun i t ht hin => ?_⟩
  · have hnew : (CacheState.new).inflight.lookup label = some k := hk
    simp [CacheState.new] at hnew
  · rw [hhist i t ht]
    intro job label hjob
    cases hjob
  · rw [hhist i t ht] at hin
    cases hin

/-- While no load is under way, nobody has anything to know. -/
lemma noLoad_iff (hc : Known c) : noLoad c = true ↔
    ∀ i t, c.threads i = some t → midLoad t.hist = false := by
  unfold noLoad
  rw [List.all_eq_true]
  constructor
  · intro h i t ht
    have hlt : i < c.spawned := by
      by_contra hle
      rw [hc.delivering.recorded.fresh i (Nat.le_of_not_lt hle)] at ht
      cases ht
    have hi := h i (List.mem_range.mpr hlt)
    rw [ht] at hi
    simpa using hi
  · intro h i _
    cases ht : c.threads i with
    | none => rfl
    | some t => simp [h i t ht]

/-- A thread that is not in a load has nothing to know. -/
lemma vacuous_of_not_midLoad {s : Shared P.rotating} {h : List (Event Op.Ans)}
    (hmid : midLoad h = false) : Loads s.token h ∧ (inLookup h = true → LookupAgrees s h) := by
  obtain ⟨hin, hjob⟩ := (Bool.or_eq_false_iff).mp hmid
  refine ⟨fun job label hjob' hrequest => ?_, fun hin' => ?_⟩
  · rw [hjob'] at hjob
    obtain ⟨id, request, t⟩ := job
    obtain rfl : request = .getPublicKey label := hrequest
    cases hjob
  · rw [hin] at hin'
    cases hin'

/-- What a handler knows when a thread is dropped. -/
lemma LookupAgrees.release {s : Shared P.rotating} {h : List (Event Op.Ans)}
    (hs : LookupAgrees s h) (i : ℕ) (party : Party) :
    LookupAgrees (release P.rotating i party s) h := by
  have hstore : (HsmProxy.release P.rotating i party s).token = s.token := by cases party <;> rfl
  refine ⟨fun j label key shot hsent hshot hvalue => ?_, fun j label key hsent hgot => ?_,
    fun label n load key hasked hload houtcome => ?_⟩
  · rw [hstore]
    obtain ⟨shot', hshot', hvalue'⟩ := oneshot_release hshot hvalue
    exact hs.waiting j label key shot' hsent hshot' hvalue'
  · rw [hstore]
    exact hs.received j label key hsent hgot
  · rw [hstore]
    cases party with
    | worker session => exact hs.joined label n load key hasked hload houtcome
    | rpc rpc =>
      obtain ⟨load', hload', rfl⟩ := Option.map_eq_some_iff.mp hload
      refine hs.joined label n load' key hasked hload' ?_
      split at houtcome <;> exact houtcome

/-- What the threads know of the keys stays current, when loads take no time and no stale handle is
taken. -/
theorem knowing_step (hc : Knowing c) (hinstant : Instantaneous c a = true)
    (hfresh : FreshHandles c a = true) (h : (pooledProxy P.rotating cfg).step c a = some c') :
    Knowing c' := by
  -- between loads, the environment may do anything
  have henv : ∀ v, a = .env v → ∀ i t, c.threads i = some t →
      Loads (envStep P.rotating v c.shared).token t.hist ∧
        (inLookup t.hist = true → LookupAgrees (envStep P.rotating v c.shared) t.hist) := by
    rintro v rfl i t ht
    cases v with
    | tick d => exact vacuous_of_not_midLoad ((noLoad_iff hc.known).mp hinstant i t ht)
    | changeToken r => exact vacuous_of_not_midLoad ((noLoad_iff hc.known).mp hinstant i t ht)
    | _ =>
      refine ⟨hc.loads i t ht, fun hin => ?_⟩
      obtain ⟨hwaiting, hreceived, hjoined⟩ := hc.lookups i t ht hin
      exact ⟨hwaiting, hreceived, hjoined⟩
  refine ⟨known_step hc.known h, ?_, ?_, ?_⟩
  · rcases System.step_cases h with ⟨l, -, -, rfl⟩ | ⟨i, e, l, hist, o, k, ans, s', -, -, he, rfl⟩ |
      ⟨i, l, hist, r, p, -, -, -, rfl⟩ | ⟨i, l, hist, o, k, -, -, -, rfl⟩ | ⟨v, s', -, hv, rfl⟩
    · exact hc.unfinished
    · have he : execOp cfg e i c.shared o = some (ans, s') := he
      by_cases hcache : ∃ q, o = .cache q
      · obtain ⟨q, rfl⟩ := hcache
        obtain ⟨p, hp, rfl⟩ := execOp_cache.mp he
        exact hc.unfinished.exec hc.known.keys.inv.cache hp
      · have hframe : s'.cache = c.shared.cache :=
          (execOp_frame he).cache fun q hq => hcache ⟨q, hq⟩
        show s'.cache.Unfinished
        rw [hframe]
        exact hc.unfinished
    · exact hc.unfinished
    · cases l with
      | rpc rpc => exact hc.unfinished.abandon i
      | worker session => exact hc.unfinished
    · obtain rfl := Option.some.inj hv
      cases v <;> exact hc.unfinished
  · refine System.threads_step (K := fun (s : Shared P.rotating) _ h => Loads s.token h) hc.loads
      (fun job label hjob => nomatch hjob) ?_ ?_ ?_ ?_ h
    · rintro i e l hist o k ans s' rfl ht he
      exact hc.known.loads_exec hfresh (hc.loads i _ ht) ht he
    · rintro i e l hist o k ans s' rfl ht he j t - hj
      have he : execOp cfg e i c.shared o = some (ans, s') := he
      rw [(exec_store he).1]
      exact hc.loads j t hj
    · rintro i l - j t - hj
      cases l <;> exact hc.loads j t hj
    · rintro v s' rfl hv j t hj
      obtain rfl := Option.some.inj hv
      exact (henv v rfl j t hj).1
  · refine System.threads_step
      (K := fun (s : Shared P.rotating) _ h => inLookup h = true → LookupAgrees s h) hc.lookups
      (fun hin => nomatch hin) ?_ ?_ ?_ ?_ h
    · rintro i e l hist o k ans s' rfl ht he hin
      have he : execOp cfg e i c.shared o = some (ans, s') := he
      have hhist : hist = histOf c.trace i := hc.known.delivering.recorded.hist i _ ht
      by_cases henter : ∃ label, o = .cache (.enter label)
      · obtain ⟨label, rfl⟩ := henter
        exact LookupAgrees.enter hc.known hc.unfinished ht he hin
      · have henter : ∀ label, o ≠ .cache (.enter label) := fun label ho => henter ⟨label, ho⟩
        have hbefore : inLookup hist = true := by
          rw [inLookup_snoc] at hin
          exact inLookup_of_lookupAfter henter hin
        have hold := hc.lookups i _ ht hbefore
        have hnew : LookupAgrees s' hist :=
          hhist ▸ LookupAgrees.exec hc.known hc.loads hc.lookups ht he (hhist ▸ hold)
        exact LookupAgrees.snoc hc.known ht he henter hold hnew
    · rintro i e l hist o k ans s' rfl ht he j t - hj hin
      have he : execOp cfg e i c.shared o = some (ans, s') := he
      have hhist : t.hist = histOf c.trace j := hc.known.delivering.recorded.hist j _ hj
      have hold := hc.lookups j t hj hin
      exact hhist ▸ LookupAgrees.exec hc.known hc.loads hc.lookups ht he (hhist ▸ hold)
    · rintro i l - j t - hj hin
      exact (hc.lookups j t hj hin).release i l
    · rintro v s' rfl hv j t hj hin
      obtain rfl := Option.some.inj hv
      exact (henv v rfl j t hj).2 hin

end

end HsmProxy
