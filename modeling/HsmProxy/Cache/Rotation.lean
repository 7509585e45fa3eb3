import HsmProxy.Cache.KeyLookup

/-!
# Keys that are rotated under the two caches

A public key passes through two caches: the map from labels to handles of the worker that reads it
from the token, which has no time limit, and the key cache, whose entries expire.  In every run in
which loads take no time and no worker takes a stale handle, an entry of the cache had its key under
its label when it was made (`Dated`), so that no call uses a key that is older than an entry may
become: `bounded_staleness`.  `stale_handle_outlives_ttl` has runs in which a worker has a stale
handle.
-/

namespace HsmProxy

open Interleaving Interleaving.Prog

/-! ## Keys with the time they were under their label -/

/-- What a handler is given for its label: by the cache, by the load it has joined, or by its
own. -/
def gives : Event Op.Ans → Option Lookup
  | ⟨.cache (.enter _), .hit v⟩ => some v
  | ⟨.cache (.wait _), .finished (.ok v)⟩ => some v
  | ⟨.cache (.finish _ (.ok v)), _⟩ => some v
  | _ => none

section

variable {P : Platform} {cfg : ServiceConfig}
  {c : Config Op.Ans (Shared P.rotating) Party ThreadResult} {ttl : ℕ} {s s' : Shared P.rotating}
  {tr : List (Entry Op.Ans (Shared P.rotating) Party)}

/-- The key was under the label when some step was made, not after `T` and not earlier than `ttl`
before it. -/
def BoundWithin (ttl : ℕ) (tr : List (Entry Op.Ans (Shared P.rotating) Party)) (label : String)
    (key : CachedPublicKey) (T : ℕ) : Prop :=
  ∃ en ∈ tr, ObjectStore.keyAt P.rotating en.before.token label = some key ∧ en.before.now ≤ T ∧
    T ≤ en.before.now + ttl

/-- The key of an entry was under the label of the entry not earlier than `ttl` before the entry
expires. -/
def EntryDated (ttl : ℕ) (tr : List (Entry Op.Ans (Shared P.rotating) Party)) (label : String)
    (e : CacheEntry) : Prop :=
  ∀ key, e.value = .found key → ∃ en ∈ tr,
    ObjectStore.keyAt P.rotating en.before.token label = some key ∧ e.expires ≤ en.before.now + ttl

/-- The job was answered with the key under its label, unless there was no key or the session did
not work. -/
def AnsweredWell (tr : List (Entry Op.Ans (Shared P.rotating) Party))
    (en : Entry Op.Ans (Shared P.rotating) Party) (j : ℕ) (r : JobResult) : Prop :=
  ∃ i job, (i, job) ∈ sentJobs tr ∧ job.id = j ∧ ∀ label key, job.request = .getPublicKey label →
    ObjectStore.keyAt P.rotating en.before.token label = some key →
      (∀ ev ∈ (jobLog en.hist).calls, worksOn en.before.token ev = true) →
        r = .ok (.publicKey key.spkiDer key.keyType)

/-- The trace grows. -/
lemma EntryDated.snoc {label : String} {e : CacheEntry} (h : EntryDated ttl tr label e)
    (en : Entry Op.Ans (Shared P.rotating) Party) : EntryDated ttl (tr ++ [en]) label e := by
  intro key hkey
  obtain ⟨en', hmem, hbound⟩ := h key hkey
  exact ⟨en', List.mem_append_left _ hmem, hbound⟩

/-- The trace grows. -/
lemma BoundWithin.snoc {label : String} {key : CachedPublicKey} {T : ℕ}
    (h : BoundWithin ttl tr label key T) (en : Entry Op.Ans (Shared P.rotating) Party) :
    BoundWithin ttl (tr ++ [en]) label key T := by
  obtain ⟨en', hmem, hbound⟩ := h
  exact ⟨en', List.mem_append_left _ hmem, hbound⟩

/-- The trace grows. -/
lemma AnsweredWell.snoc {en : Entry Op.Ans (Shared P.rotating) Party} {j : ℕ} {r : JobResult}
    (h : AnsweredWell tr en j r) (en' : Entry Op.Ans (Shared P.rotating) Party) :
    AnsweredWell (tr ++ [en']) en j r := by
  obtain ⟨i, job, hsent, hjob⟩ := h
  refine ⟨i, job, ?_, hjob⟩
  rw [sentJobs_snoc]
  exact List.mem_append_left _ hsent

/-- The key that is under a label as a step is made was so within any time. -/
lemma BoundWithin.now {en : Entry Op.Ans (Shared P.rotating) Party} {label : String}
    {key : CachedPublicKey}
    (h : ObjectStore.keyAt P.rotating en.before.token label = some key) :
    BoundWithin ttl (tr ++ [en]) label key en.before.now :=
  ⟨en, List.mem_append_right _ (List.mem_singleton_self en), h, Nat.le_refl _, Nat.le_add_right _ _⟩

/-- What is cached, what handlers have been given and what workers have answered, with the time at
which the key was under its label. -/
structure Dated (ttl : ℕ) (s : Shared P.rotating)
    (tr : List (Entry Op.Ans (Shared P.rotating) Party)) : Prop where
  clock : ∀ en ∈ tr, en.before.now ≤ s.now
  entries : CacheInv (fun _ _ => True) (EntryDated ttl tr) s.cache
  looked : ∀ i label key, (keyLog (histOf tr i)).looked = some (label, .found key) →
    ∃ en ∈ tr, en.tid = i ∧ gives en.event = some (.found key) ∧
      BoundWithin ttl tr label key en.before.now
  answered : ∀ en ∈ tr, ∀ j r, en.event = ⟨.pool (.respond j r), ()⟩ → AnsweredWell tr en j r

/-- What a handler has been given, after one more entry. -/
lemma Dated.looked_snoc (h : Dated ttl s tr) {en : Entry Op.Ans (Shared P.rotating) Party}
    (hnew : ∀ label key, (keyLog (histOf tr en.tid ++ [en.event])).looked =
      some (label, .found key) → (keyLog (histOf tr en.tid)).looked = some (label, .found key) ∨
        (gives en.event = some (.found key) ∧
          BoundWithin ttl (tr ++ [en]) label key en.before.now))
    (i : ℕ) (label : String) (key : CachedPublicKey)
    (hi : (keyLog (histOf (tr ++ [en]) i)).looked = some (label, .found key)) :
    ∃ en' ∈ tr ++ [en], en'.tid = i ∧ gives en'.event = some (.found key) ∧
      BoundWithin ttl (tr ++ [en]) label key en'.before.now := by
  have hold : ∀ i, (keyLog (histOf tr i)).looked = some (label, .found key) →
      ∃ en' ∈ tr ++ [en], en'.tid = i ∧ gives en'.event = some (.found key) ∧
        BoundWithin ttl (tr ++ [en]) label key en'.before.now := by
    intro i hi
    obtain ⟨en', hmem, htid, hgives, hbound⟩ := h.looked i label key hi
    exact ⟨en', List.mem_append_left _ hmem, htid, hgives, hbound.snoc en⟩
  rw [histOf_snoc] at hi
  split at hi
  · rename_i htid
    subst htid
    rcases hnew label key hi with hi | ⟨hgives, hbound⟩
    · exact hold _ hi
    · exact ⟨en, List.mem_append_right _ (List.mem_singleton_self en), rfl, hgives, hbound⟩
  · exact hold i hi

/-- The clock after one more entry. -/
lemma Dated.clock_snoc (h : Dated ttl s tr) (hnow : s'.now = s.now)
    {en : Entry Op.Ans (Shared P.rotating) Party} (hen : en.before = s) :
    ∀ en' ∈ tr ++ [en], en'.before.now ≤ s'.now := by
  intro en' hmem
  rw [hnow]
  rcases List.mem_append.mp hmem with hmem | hmem
  · exact h.clock en' hmem
  · obtain rfl := List.mem_singleton.mp hmem
    rw [hen]

/-- The answers after one more entry. -/
lemma Dated.answered_snoc (h : Dated ttl s tr) {en : Entry Op.Ans (Shared P.rotating) Party}
    (hnew : ∀ j r, en.event = ⟨.pool (.respond j r), ()⟩ → AnsweredWell tr en j r) :
    ∀ en' ∈ tr ++ [en], ∀ j r, en'.event = ⟨.pool (.respond j r), ()⟩ →
      AnsweredWell (tr ++ [en]) en' j r := by
  intro en' hmem j r hev
  rcases List.mem_append.mp hmem with hmem | hmem
  · exact (h.answered en' hmem j r hev).snoc en
  · obtain rfl := List.mem_singleton.mp hmem
    exact (hnew j r hev).snoc en'

/-- A worker answers well. -/
lemma Knowing.answeredWell (hc : Knowing c) {i j : ℕ} {party : Party} {r : JobResult}
    {k : Unit → Prog Op.Ans ThreadResult}
    (ht : c.threads i = some ⟨party, histOf c.trace i, .call (.pool (.respond j r)) k⟩) :
    AnsweredWell c.trace ⟨i, party, histOf c.trace i, c.shared, ⟨.pool (.respond j r), ()⟩⟩ j r := by
  obtain ⟨job, w, w', hjob, hid, hruns⟩ := (hc.known.delivering.threads i _ ht).1
  have hjob : (jobLog (histOf c.trace i)).job = some job := hjob
  obtain ⟨i', hsent⟩ := hc.known.delivering.inv.sent_of_taken
    (hc.known.delivering.inv.log.taken i job hjob)
  refine ⟨i', job, hsent, hid, fun label key hrequest hkey hworks => ?_⟩
  exact (hc.loads i _ ht).answer_working hjob hrequest hkey hworks hruns

/-- What a step of the cache gives a handler is dated. -/
lemma Knowing.given (hc : Knowing c) (hd : Dated ttl c.shared c.trace) {e : Choice} {i : ℕ}
    {party : Party} {q : CacheOp} {ans : q.Ans} {k : q.Ans → Prog Op.Ans ThreadResult}
    (ht : c.threads i = some ⟨party, histOf c.trace i, .call (.cache q) k⟩)
    (he : execOp cfg e i c.shared (.cache q) = some (ans, s')) {label : String}
    {key : CachedPublicKey}
    (hlooked : (keyLog (histOf c.trace i ++ [⟨.cache q, ans⟩])).looked =
      some (label, .found key)) :
    (keyLog (histOf c.trace i)).looked = some (label, .found key) ∨
      (gives ⟨.cache q, ans⟩ = some (.found key) ∧
        BoundWithin ttl (c.trace ++ [⟨i, party, histOf c.trace i, c.shared, ⟨.cache q, ans⟩⟩]) label
          key c.shared.now) := by
  obtain ⟨p, hp, rfl⟩ := execOp_cache.mp he
  rw [keyLog_snoc] at hlooked
  have hin : ∀ n, q = .wait n → inLookup (histOf c.trace i) = true := by
    rintro n rfl
    have hpre := (hc.known.lookups.threads i _ ht).1
    rw [lookupContract_ghost] at hpre
    exact hpre
  rcases note_looked hlooked with hold | hev | ⟨n, n', hasked, hev⟩ | ⟨n, n', hasked, hev⟩
  · exact Or.inl hold
  · -- a hit: the entry has not expired
    cases hev
    refine Or.inr ⟨rfl, ?_⟩
    obtain ⟨entry, hentry, hlive, hans, -⟩ | ⟨k', l, -, -, hans, -⟩ | ⟨k', -, hans, -⟩ |
      ⟨-, hans, -⟩ := CacheState.exec_enter hp
    · obtain ⟨en, hmem, hbound, hexpires⟩ :=
        hd.entries.entries label entry hentry key (Entered.hit.inj hans).symm
      exact ⟨en, List.mem_append_left _ hmem, hbound, hd.clock en hmem, by omega⟩
    · cases hans
    · cases hans
    · cases hans
  · -- the outcome of a load the handler has joined
    cases hev
    refine Or.inr ⟨rfl, BoundWithin.now ?_⟩
    have hpre := (hc.known.keys.threads i _ ht).1
    cases party with
    | worker session => cases hpre
    | rpc rpc =>
      obtain ⟨label', hasked'⟩ := hpre
      have hasked' : (keyLog (histOf c.trace i)).asked = some (label', n) := hasked'
      rw [hasked] at hasked'
      obtain ⟨rfl, rfl⟩ := Prod.mk.inj (Option.some.inj hasked')
      obtain ⟨l, outcome, hl, houtcome, hans, -⟩ | ⟨label', -, hans, -⟩ := CacheState.exec_wait hp
      · obtain rfl := Joined.finished.inj hans
        exact (hc.lookups i _ ht (hin _ rfl)).joined label n' l key hasked hl houtcome
      · cases hans
  · -- its own load
    cases hev
    refine Or.inr ⟨rfl, BoundWithin.now ?_⟩
    have hpre := (hc.known.keys.threads i _ ht).1
    cases party with
    | worker session => cases hpre
    | rpc rpc =>
      obtain ⟨label', j, hasked', -⟩ := hpre
      have hasked' : (keyLog (histOf c.trace i)).asked = some (label', n) := hasked'
      rw [hasked] at hasked'
      obtain ⟨rfl, rfl⟩ := Prod.mk.inj (Option.some.inj hasked')
      obtain ⟨load, hload, hlabel⟩ := hc.known.keys.inv.asked i label n' hasked
      rw [← hlabel]
      exact hc.known.current_of_finish hc.lookups ht hload

/-- The obligations of the shared-invariant method. -/
lemma dated_sound : System.Sound (pooledProxy P.rotating cfg) (fun c _ => Knowing c) keyContract
    (KeyEnds P.rotating) (Dated cfg.cache.ttl) := by
  refine proxy_sound (fun rpc => pooled_key P.rotating cfg rpc)
    (fun _ g w _ => iterate_key P.rotating w g)
    (fun c i e l o k a s' hc hH ht hpre he => ⟨True.intro, ?_⟩) (fun c i l o k hc _ _ _ => ?_)
    fun c v hc _ => ?_
  · have hnow := (execOp_frame he).now
    by_cases hcache : ∃ q, o = .cache q
    · obtain ⟨q, rfl⟩ := hcache
      refine ⟨hc.inv.clock_snoc hnow rfl, ?_, hc.inv.looked_snoc fun label key hlooked =>
        hH.given hc.inv ht he hlooked, hc.inv.answered_snoc fun j r hev => nomatch hev⟩
      obtain ⟨p, hp, rfl⟩ := execOp_cache.mp he
      refine ((hc.inv.entries.mono (fun _ _ hv => hv) fun _ _ hd => hd.snoc _).exec hp ?_).1
      rintro n load v rfl hload
      refine ⟨True.intro, ?_⟩
      rintro key rfl
      exact ⟨_, List.mem_append_right _ (List.mem_singleton_self _),
        hH.known.current_of_finish hH.lookups ht hload, Nat.le_refl _⟩
    · have hother : ∀ q, o ≠ .cache q := fun q hq => hcache ⟨q, hq⟩
      refine ⟨hc.inv.clock_snoc hnow rfl, ?_, hc.inv.looked_snoc fun label key hlooked => ?_,
        hc.inv.answered_snoc fun j r hev => ?_⟩
      · rw [(execOp_frame he).cache hother]
        exact hc.inv.entries.mono (fun _ _ hv => hv) fun _ _ hd => hd.snoc _
      · rw [keyLog_snoc] at hlooked
        rcases note_looked hlooked with hold | hev | ⟨n, n', -, hev⟩ | ⟨n, n', -, hev⟩
        · exact Or.inl hold
        · exact absurd (congrArg Sigma.fst hev) (hother _)
        · exact absurd (congrArg Sigma.fst hev) (hother _)
        · exact absurd (congrArg Sigma.fst hev) (hother _)
      · cases hev
        exact hH.answeredWell ht
  · obtain ⟨hclock, hentries, hlooked, hanswered⟩ := hc.inv
    cases l with
    | worker session => exact ⟨hclock, hentries, hlooked, hanswered⟩
    | rpc rpc => exact ⟨hclock, (hentries.abandon i).1, hlooked, hanswered⟩
  · obtain ⟨hclock, hentries, hlooked, hanswered⟩ := hc.inv
    cases v with
    | tick d =>
      exact ⟨fun en hen => (hclock en hen).trans (Nat.le_add_right _ _), hentries, hlooked, hanswered⟩
    | evictKey label => exact ⟨hclock, (hentries.evict label).1, hlooked, hanswered⟩
    | _ => exact ⟨hclock, hentries, hlooked, hanswered⟩

/-- After the start nothing is cached, so everything cached is dated. -/
lemma dated_started {t₀ : ℕ} {sessions : List SessionHandle} {token : ObjectStore} :
    System.Outline keyContract (KeyEnds P.rotating) (Dated ttl)
      (started P.rotating t₀ sessions token) := by
  refine outline_started (fun session => iterate_key P.rotating _ _) ⟨?_, ?_, ?_, ?_⟩
  · exact fun en hen => absurd hen List.not_mem_nil
  · exact CacheInv.new
  · exact fun i label v h => nomatch h
  · exact fun en hen => absurd hen List.not_mem_nil

/-- A method that finds no key does not succeed. -/
lemma found_of_finish {rpc : Rpc} {finish : Lookup × Bool → Except Status RpcResponse}
    (hplan : plan P.rotating rpc = .ok (.key finish)) {v : Lookup} {wasPresent : Bool}
    {response : RpcResponse} (hv : finish (v, wasPresent) = .ok response) :
    ∃ key, v = .found key := by
  cases v with
  | found key => exact ⟨key, rfl⟩
  | notFound =>
    cases rpc with
    | verify request =>
      obtain ⟨input, -, hplan⟩ := except_bind_ok hplan
      cases hplan
      cases hv
    | getPublicKey request =>
      cases hplan
      cases hv
    | _ => cases plan_key P.rotating hplan

/-- A successful call that reads a public key has planned to look it up. -/
lemma Known.plan_of_replied (hk : Known c) {i : ℕ} {rpc : Rpc} {response : RpcResponse}
    (hreads : rpc.readsPublicKey = true) (hi : replied c i = some (rpc, .ok response)) :
    ∃ finish, plan P.rotating rpc = .ok (.key finish) := by
  have hends : JobReply P.rotating rpc (jobLog (histOf c.trace i)) (.ok response) :=
    ends_of_replied hk.delivering hi
  obtain ⟨p, hplan, -⟩ := hends response rfl
  cases p with
  | key finish => exact ⟨finish, hplan⟩
  | job drawsIv request finish =>
    rw [plan_job P.rotating hplan] at hreads
    cases hreads

/-- Bounded staleness across the two caches, in every run with any number of workers and any mix of
requests in which loads take no time and no worker takes a stale handle from its map.

* A successful `verify` or `get_public_key` call has used a key that was under its label not earlier
  than `ttl` before the call was given it.
* A call that receives the answer to its own job, executed on a session that works while a key is
  under the label, resolves to that key. -/
theorem bounded_staleness {t₀ : ℕ} {sessions : List SessionHandle} {token : ObjectStore}
    {as : List (Action Choice (EnvAction P.rotating) Party)}
    (hrun : (pooledProxy P.rotating cfg).run (started P.rotating t₀ sessions token) as = some c)
    (hinstant : (pooledProxy P.rotating cfg).Throughout (fun c a => Instantaneous c a = true)
      (started P.rotating t₀ sessions token) as)
    (hfresh : (pooledProxy P.rotating cfg).Throughout (fun c a => FreshHandles c a = true)
      (started P.rotating t₀ sessions token) as) :
    (∀ i rpc response, rpc.readsPublicKey = true → replied c i = some (rpc, .ok response) →
      ∃ finish key wasPresent, plan P.rotating rpc = .ok (.key finish) ∧
        finish (.found key, wasPresent) = .ok response ∧
        ∃ en ∈ c.trace, en.tid = i ∧ gives en.event = some (.found key) ∧
          BoundWithin cfg.cache.ttl c.trace rpc.keyLabel key en.before.now) ∧
    ∀ i rpc reply finish en j r key, replied c i = some (rpc, reply) →
      plan P.rotating rpc = .ok (.key finish) → en ∈ c.trace →
      en.event = ⟨.pool (.respond j r), ()⟩ →
      (jobLog (histOf c.trace i)).sent = some (j, .getPublicKey rpc.keyLabel) →
      (jobLog (histOf c.trace i)).got = some r →
      ObjectStore.keyAt P.rotating en.before.token rpc.keyLabel = some key →
      (∀ ev ∈ (jobLog en.hist).calls, worksOn en.before.token ev = true) →
        ∃ wasPresent, reply = finish (.found key, wasPresent) := by
  have hthrough := (hinstant.and hfresh).and_kept
    (fun _ _ _ hI hP hstep => knowing_step hI hP.1 hP.2 hstep) knowing_started
  have hknowing : Knowing c := System.run_invariant
    (fun _ _ _ hI hP hstep => knowing_step hI hP.1 hP.2 hstep) knowing_started
    (hinstant.and hfresh) hrun
  have hdated : System.Outline keyContract (KeyEnds P.rotating) (Dated cfg.cache.ttl) c :=
    dated_sound.run dated_started (hthrough.mono fun _ _ h => h.2) hrun
  refine ⟨fun i rpc response hreads hi => ?_,
    fun i rpc reply finish en j r key hi hplan hen hev hsent hgot hkey hworks => ?_⟩
  · obtain ⟨finish, hplan⟩ := hknowing.known.plan_of_replied hreads hi
    have hends : KeyReply P.rotating rpc (keyLog (histOf c.trace i)) (.ok response) :=
      ends_of_replied hdated hi
    rcases hends finish hplan with ⟨-, st, hst⟩ | ⟨v, wasPresent, hlooked, hreply⟩
    · cases hst
    · obtain ⟨key, rfl⟩ := found_of_finish hplan hreply.symm
      exact ⟨finish, key, wasPresent, hplan, hreply.symm,
        hdated.inv.looked i rpc.keyLabel key hlooked⟩
  · obtain ⟨i', job, hmem, hid, hwell⟩ := hdated.inv.answered en hen j r hev
    obtain ⟨t, hmem'⟩ := hknowing.known.delivering.inv.log.own i j _ hsent
    have hsame := hknowing.known.delivering.inv.jobs.eq_of_id hmem hmem' hid
    have hrequest : job.request = .getPublicKey rpc.keyLabel :=
      congrArg (fun p => p.2.request) hsame
    have hr := hwell rpc.keyLabel key hrequest hkey hworks
    have hends := ends_of_replied hknowing.known.lookups hi
    rw [lookupContract_ghost] at hends
    exact hends finish hplan key (hr ▸ hgot)

end

/-! ## A key that is rotated -/

/-- An RSA public key whose modulus is the byte `n`. -/
def rsaObject (n : ℕ) : KeyObject where
  attributes types := types.map fun
    | .keyType => .keyType .rsa
    | .ecPoint => .ecPoint []
    | .modulus => .modulus [UInt8.ofNat n]
    | .publicExponent => .publicExponent [1]

/-- The object `n` takes the label `k`. -/
def rotateTo (n : ℕ) (destroys : Bool) : Rotation := ⟨"k", n, rsaObject n, destroys⟩

/-- A token on which object `n` is under the label that is searched for. -/
def Choice.holding (n : ℕ) : Choice where
  token
    | .findObjects _ _ _ => .ok [n]
    | .getAttributes _ handle types => .ok ((rsaObject handle).attributes types)
    | q => Choice.success.token q
  random := List.replicate gcmIvLen 0

/-- Object 0 is under the label `k`. -/
def firstKey : ObjectStore := ObjectStore.empty.rotate (rotateTo 0 false)

/-- Worker 0 looks the label up.  The key is rotated, the entry expires, and worker 1 looks the
label up. -/
def freshWorkerRun : List (Action Choice (EnvAction anyPlatform.rotating) Party) :=
  [.exec 0 (.holding 0), .spawn (.rpc lookupCall)] ++ execs 2 7 (.holding 0) ++
    execs 0 11 (.holding 0) ++ execs 2 6 (.holding 0) ++
    [.env (.changeToken (rotateTo 1 true)), .env (.tick 30), .exec 1 (.holding 1),
      .spawn (.rpc lookupCall)] ++
    execs 3 7 (.holding 1) ++ execs 1 11 (.holding 1) ++ execs 3 6 (.holding 1)

/-- The second lookup uses the new key, which was under the label at most ten seconds before. -/
theorem bounded_staleness_fresh_worker :
    ∃ c, (pooledProxy anyPlatform.rotating (.plain 1 10)).run (started _ 0 [7, 8] firstKey)
        freshWorkerRun = some c ∧
      replied c 3 = some (lookupCall, .ok (.getPublicKey ⟨[1, 1], "RSA", false⟩)) ∧
      ∃ en ∈ c.trace, en.tid = 3 ∧ gives en.event = some (.found ⟨[1, 1], "RSA"⟩) ∧
        BoundWithin 10 c.trace "k" ⟨[1, 1], "RSA"⟩ en.before.now := by
  have hreplied : ((pooledProxy anyPlatform.rotating (.plain 1 10)).run
      (started _ 0 [7, 8] firstKey) freshWorkerRun).map (fun c => replied c 3) =
      some (some (lookupCall, .ok (.getPublicKey ⟨[1, 1], "RSA", false⟩))) := by
    decide +kernel
  have hinstant : (pooledProxy anyPlatform.rotating (.plain 1 10)).Throughout
      (fun c a => Instantaneous c a = true) (started _ 0 [7, 8] firstKey) freshWorkerRun := by
    decide +kernel
  have hfresh : (pooledProxy anyPlatform.rotating (.plain 1 10)).Throughout
      (fun c a => FreshHandles c a = true) (started _ 0 [7, 8] firstKey) freshWorkerRun := by
    decide +kernel
  obtain ⟨c, hrun, hc⟩ := Option.map_eq_some_iff.mp hreplied
  obtain ⟨finish, ⟨spkiDer, keyType⟩, wasPresent, hplan, hreply, hused⟩ :=
    (bounded_staleness hrun hinstant hfresh).1 3 lookupCall _ rfl hc
  cases hplan
  cases hreply
  exact ⟨c, hrun, hc, hused⟩

/-- The same worker looks the label up before and after the rotation; the second time, three times
the time to live after it. -/
def sameWorkerRun (destroys : Bool) (e : Choice) :
    List (Action Choice (EnvAction anyPlatform.rotating) Party) :=
  [.exec 0 (.holding 0), .spawn (.rpc lookupCall)] ++ execs 1 7 (.holding 0) ++
    execs 0 11 (.holding 0) ++ execs 1 6 (.holding 0) ++
    [.env (.changeToken (rotateTo 1 destroys)), .env (.tick 30), .again 0, .exec 0 (.holding 1),
      .spawn (.rpc lookupCall)] ++
    execs 2 7 (.holding 1) ++ execs 0 10 e ++ execs 2 4 (.holding 1)

/-- When the old object has lost the label, the second call replies with its key; when it was
destroyed, the call fails on its handle, though the session works.  The new key was under the label
all the while. -/
theorem stale_handle_outlives_ttl :
    (∃ c, (pooledProxy anyPlatform.rotating (.plain 1 10)).run (started _ 0 [7] firstKey)
        (sameWorkerRun false (.holding 1) ++ execs 2 2 (.holding 1)) = some c ∧
      (pooledProxy anyPlatform.rotating (.plain 1 10)).Throughout
        (fun c a => Instantaneous c a = true) (started _ 0 [7] firstKey)
        (sameWorkerRun false (.holding 1) ++ execs 2 2 (.holding 1)) ∧
      replied c 2 = some (lookupCall, .ok (.getPublicKey ⟨[0, 1], "RSA", false⟩)) ∧
      (∀ en ∈ c.trace, en.tid = 2 → en.before.now = 30) ∧
      ∀ en ∈ c.trace, 20 ≤ en.before.now →
        ObjectStore.keyAt anyPlatform.rotating en.before.token "k" = some ⟨[1, 1], "RSA"⟩) ∧
    ∃ c, (pooledProxy anyPlatform.rotating (.plain 1 10)).run (started _ 0 [7] firstKey)
        (sameWorkerRun true (.failing (.pkcs11 .objectHandleInvalid))) = some c ∧
      (pooledProxy anyPlatform.rotating (.plain 1 10)).Throughout
        (fun c a => Instantaneous c a = true) (started _ 0 [7] firstKey)
        (sameWorkerRun true (.failing (.pkcs11 .objectHandleInvalid))) ∧
      replied c 2 = some (lookupCall, .error ⟨.internal, "internal error"⟩) ∧
      (∀ en ∈ c.trace, worksOn en.before.token en.event = true) ∧
      (∀ en ∈ c.trace, en.tid = 2 → en.before.now = 30) ∧
      ∀ en ∈ c.trace, 20 ≤ en.before.now →
        ObjectStore.keyAt anyPlatform.rotating en.before.token "k" = some ⟨[1, 1], "RSA"⟩ := by
  constructor
  · have hrun : ((pooledProxy anyPlatform.rotating (.plain 1 10)).run (started _ 0 [7] firstKey)
        (sameWorkerRun false (.holding 1) ++ execs 2 2 (.holding 1))).map (fun c => (replied c 2,
          decide (∀ en ∈ c.trace, en.tid = 2 → en.before.now = 30),
          decide (∀ en ∈ c.trace, 20 ≤ en.before.now →
            ObjectStore.keyAt anyPlatform.rotating en.before.token "k" =
              some ⟨[1, 1], "RSA"⟩))) =
        some (some (lookupCall, .ok (.getPublicKey ⟨[0, 1], "RSA", false⟩)), true, true) := by
      decide +kernel
    have hinstant : (pooledProxy anyPlatform.rotating (.plain 1 10)).Throughout
        (fun c a => Instantaneous c a = true) (started _ 0 [7] firstKey)
        (sameWorkerRun false (.holding 1) ++ execs 2 2 (.holding 1)) := by
      decide +kernel
    obtain ⟨c, hrun, hc⟩ := Option.map_eq_some_iff.mp hrun
    obtain ⟨hreply, hc⟩ := Prod.mk.inj hc
    obtain ⟨htime, hkey⟩ := Prod.mk.inj hc
    exact ⟨c, hrun, hinstant, hreply, of_decide_eq_true htime, of_decide_eq_true hkey⟩
  · have hrun : ((pooledProxy anyPlatform.rotating (.plain 1 10)).run (started _ 0 [7] firstKey)
        (sameWorkerRun true (.failing (.pkcs11 .objectHandleInvalid)))).map (fun c => (replied c 2,
          decide (∀ en ∈ c.trace, worksOn en.before.token en.event = true),
          decide (∀ en ∈ c.trace, en.tid = 2 → en.before.now = 30),
          decide (∀ en ∈ c.trace, 20 ≤ en.before.now →
            ObjectStore.keyAt anyPlatform.rotating en.before.token "k" =
              some ⟨[1, 1], "RSA"⟩))) =
        some (some (lookupCall, .error ⟨.internal, "internal error"⟩), true, true, true) := by
      decide +kernel
    have hinstant : (pooledProxy anyPlatform.rotating (.plain 1 10)).Throughout
        (fun c a => Instantaneous c a = true) (started _ 0 [7] firstKey)
        (sameWorkerRun true (.failing (.pkcs11 .objectHandleInvalid))) := by
      decide +kernel
    obtain ⟨c, hrun, hc⟩ := Option.map_eq_some_iff.mp hrun
    obtain ⟨hreply, hc⟩ := Prod.mk.inj hc
    obtain ⟨hworks, hc⟩ := Prod.mk.inj hc
    obtain ⟨htime, hkey⟩ := Prod.mk.inj hc
    exact ⟨c, hrun, hinstant, hreply, of_decide_eq_true hworks, of_decide_eq_true htime,
      of_decide_eq_true hkey⟩

end HsmProxy
