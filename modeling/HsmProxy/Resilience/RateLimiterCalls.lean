import HsmProxy.Interleaving.Sound
import HsmProxy.Metering.TokenBucket
import HsmProxy.Resilience.RateLimiter
import Mathlib.Data.Finset.Card
import Mathlib.Data.Rat.Lemmas

/-!
# Calls of the rate limiter

`RateLimiter::check` step by step: look the bucket of the identity up in the bounded cache, or put a
fresh one there; ask the bucket, which is shared and stays usable after the cache has dropped it;
and count the answer.  Calls of any number of identities interleave, and the cache drops buckets
while it holds more than `max_identities`.

When there are no more identities than that, no bucket is lost: what an identity is answered depends
on the times of its own checks alone, and it gets its quota and no more
(`per_identity_quota_and_isolation`).  Otherwise an identity whose bucket was dropped starts with a
full one.
-/

namespace HsmProxy

open Interleaving Interleaving.Prog Metering

/-! ## The steps of `check` -/

/-- The steps of a call: `get_with_by_ref`, `check` on the bucket it returned, and the counter. -/
inductive LimiterOp where
  | getBucket (identity : String)
  | check (bucket : ℕ)
  | count (ok : Bool)
  deriving DecidableEq

/-- What they return: the shared bucket, and whether there was a token. -/
abbrev LimiterOp.Ans : LimiterOp → Type
  | .getBucket _ => ℕ
  | .check _ => Bool
  | .count _ => Unit

/-- `RateLimiter::check`. -/
def checkSteps (identity : String) : Prog LimiterOp.Ans Bool := do
  let bucket ← Prog.op (LimiterOp.getBucket identity)
  let ok ← Prog.op (LimiterOp.check bucket)
  Prog.op (LimiterOp.count ok)
  return ok

/-- The shared state: the clock, the cache of buckets, every bucket that was ever made, and the
counters. -/
structure LimiterCells (G : Governor) where
  now : ℕ
  buckets : AList fun _ : String => ℕ
  cells : List G.Bucket
  allowed : ℕ
  rejected : ℕ

namespace LimiterCells

variable {G : Governor}

/-- `RateLimiter::new`, at time `now`. -/
def new (now : ℕ) : LimiterCells G := ⟨now, ∅, [], 0, 0⟩

/-- One step of a call. -/
def exec (cfg : RateLimitConfig) (s : LimiterCells G) :
    (o : LimiterOp) → Option (o.Ans × LimiterCells G)
  | .getBucket identity =>
    match s.buckets.lookup identity with
    | some bucket => some (bucket, s)
    | none => some (s.cells.length, { s with
        buckets := s.buckets.insert identity s.cells.length
        cells := s.cells ++ [G.direct cfg.quota] })
  | .check bucket =>
    (s.cells[bucket]?).map fun b =>
      ((G.check b s.now).1, { s with cells := s.cells.set bucket (G.check b s.now).2 })
  | .count ok =>
    if ok then some ((), { s with allowed := s.allowed + 1 })
    else some ((), { s with rejected := s.rejected + 1 })

end LimiterCells

/-- What happens around the calls: time passes, and the cache drops a bucket. -/
inductive LimiterEnv where
  | tick (d : ℕ)
  | evict (identity : String)
  deriving DecidableEq

/-- The environment acts.  A bucket is dropped only while there are more than `max_identities`. -/
def limiterEnv {G : Governor} (cfg : RateLimitConfig) (s : LimiterCells G) :
    LimiterEnv → Option (LimiterCells G)
  | .tick d => some { s with now := s.now + d }
  | .evict identity =>
    if cfg.maxIdentities < s.buckets.keys.length then
      some { s with buckets := s.buckets.erase identity }
    else none

/-- Calls of `check` for any identities. -/
def limiterSystem (G : Governor) (cfg : RateLimitConfig) :
    System LimiterOp.Ans (LimiterCells G) Unit LimiterEnv String Bool where
  body identity := checkSteps identity
  again _ _ := none
  spawnable _ := true
  exec _ _ s o := s.exec cfg o
  droppable _ _ := false
  cancel _ _ s := s
  env v s := limiterEnv cfg s v

/-! ## A call that is not interrupted -/

section

variable {G : Governor} {cfg : RateLimitConfig}

/-- The cache leads different identities to different buckets that exist. -/
structure LimiterCells.Keyed (s : LimiterCells G) : Prop where
  bounded : ∀ identity bucket, s.buckets.lookup identity = some bucket → bucket < s.cells.length
  distinct : ∀ identity identity' bucket, s.buckets.lookup identity = some bucket →
    s.buckets.lookup identity' = some bucket → identity = identity'

/-- The bucket of an identity, if there is one. -/
def LimiterCells.bucketOf (s : LimiterCells G) (identity : String) : Option G.Bucket :=
  (s.buckets.lookup identity).bind fun bucket => s.cells[bucket]?

/-- `get_with_by_ref` returns the bucket of the identity, which is the one it had or a fresh one,
and leaves the buckets of the others alone. -/
lemma LimiterCells.exec_getBucket {s s' : LimiterCells G} (hs : s.Keyed) {identity : String}
    {bucket : ℕ}
    (h : s.exec cfg (.getBucket identity) = some (bucket, s')) :
    s'.Keyed ∧ s'.buckets.lookup identity = some bucket ∧
      s'.bucketOf identity = some ((s.bucketOf identity).getD (G.direct cfg.quota)) ∧
      (∀ other, other ≠ identity → s'.buckets.lookup other = s.buckets.lookup other ∧
        s'.bucketOf other = s.bucketOf other) ∧
      s'.now = s.now ∧ s'.allowed = s.allowed ∧ s'.rejected = s.rejected := by
  simp only [exec] at h
  split at h
  · rename_i bucket' hlookup
    obtain ⟨rfl, rfl⟩ := Prod.mk.inj (Option.some.inj h)
    have hcell := List.getElem?_eq_getElem (hs.bounded identity _ hlookup)
    have hbucket : s.bucketOf identity = some (s.cells.get ⟨_, hs.bounded identity _ hlookup⟩) := by
      rw [bucketOf, hlookup, Option.bind_some, hcell]
      rfl
    refine ⟨hs, hlookup, ?_, fun _ _ => ⟨rfl, rfl⟩, rfl, rfl, rfl⟩
    rw [hbucket, Option.getD_some]
  · rename_i hlookup
    obtain ⟨rfl, rfl⟩ := Prod.mk.inj (Option.some.inj h)
    have hold : ∀ {other bucket}, other ≠ identity →
        (s.buckets.insert identity s.cells.length).lookup other = some bucket →
        s.buckets.lookup other = some bucket := by
      intro other bucket hne hother
      rwa [AList.lookup_insert_ne hne] at hother
    refine ⟨⟨fun other bucket hother => ?_, fun other other' bucket hother hother' => ?_⟩,
      AList.lookup_insert _, ?_, fun other hne => ⟨AList.lookup_insert_ne hne, ?_⟩, rfl, rfl, rfl⟩
    · simp only [List.length_append, List.length_singleton]
      by_cases hne : other = identity
      · subst hne
        rw [AList.lookup_insert] at hother
        have hbucket := Option.some.inj hother
        omega
      · have hlt := hs.bounded other bucket (hold hne hother)
        omega
    · -- the fresh bucket is beyond all that exist
      by_cases hne : other = identity <;> by_cases hne' : other' = identity
      · rw [hne, hne']
      · subst hne
        rw [AList.lookup_insert] at hother
        have hbucket := Option.some.inj hother
        have hlt := hs.bounded other' bucket (hold hne' hother')
        omega
      · subst hne'
        rw [AList.lookup_insert] at hother'
        have hbucket := Option.some.inj hother'
        have hlt := hs.bounded other bucket (hold hne hother)
        omega
      · exact hs.distinct other other' bucket (hold hne hother) (hold hne' hother')
    · simp [bucketOf, hlookup]
    · rw [bucketOf, bucketOf, AList.lookup_insert_ne hne]
      cases hother : s.buckets.lookup other with
      | none => rfl
      | some bucket => exact List.getElem?_append_left (hs.bounded other bucket hother)

/-- A check of the bucket of an identity changes that bucket. -/
lemma LimiterCells.exec_check {s s' : LimiterCells G} (hs : s.Keyed) {identity : String} {bucket : ℕ}
    {ok : Bool} (hlookup : s.buckets.lookup identity = some bucket)
    (h : s.exec cfg (.check bucket) = some (ok, s')) :
    ∃ b, s.bucketOf identity = some b ∧ ok = (G.check b s.now).1 ∧ s'.Keyed ∧
      s'.buckets = s.buckets ∧ s'.bucketOf identity = some (G.check b s.now).2 ∧
      (∀ other, other ≠ identity → s'.bucketOf other = s.bucketOf other) ∧
      s'.now = s.now ∧ s'.allowed = s.allowed ∧ s'.rejected = s.rejected := by
  obtain ⟨b, hb, heq⟩ := Option.map_eq_some_iff.mp h
  obtain ⟨rfl, rfl⟩ := Prod.mk.inj heq
  have hlt := hs.bounded identity bucket hlookup
  refine ⟨b, by rw [bucketOf, hlookup]; exact hb, rfl, ⟨?_, hs.distinct⟩, rfl, ?_, ?_, rfl, rfl, rfl⟩
  · intro other bucket' hother
    rw [List.length_set]
    exact hs.bounded other bucket' hother
  · simp [bucketOf, hlookup, hlt]
  · intro other hne
    simp only [bucketOf]
    cases hother : s.buckets.lookup other with
    | none => rfl
    | some bucket' =>
      have hbucket : bucket ≠ bucket' := by
        rintro rfl
        exact hne (hs.distinct other identity bucket hother hlookup)
      exact List.getElem?_set_ne hbucket

/-- The two models of the limiter hold the same buckets and counters. -/
structure Represents (s : LimiterCells G) (z : LimiterState G) : Prop where
  keyed : s.Keyed
  buckets : ∀ identity, z.buckets.lookup identity = s.bucketOf identity
  allowed : z.allowed = s.allowed
  rejected : z.rejected = s.rejected

/-- A call that is not interrupted does what `LimiterState.check` does in one step. -/
theorem checkSteps_refines {s s₁ s₂ s₃ : LimiterCells G} {z : LimiterState G} (h : Represents s z)
    {identity : String} {bucket : ℕ} {ok : Bool}
    (hget : s.exec cfg (.getBucket identity) = some (bucket, s₁))
    (hcheck : s₁.exec cfg (.check bucket) = some (ok, s₂))
    (hcount : s₂.exec cfg (.count ok) = some ((), s₃)) :
    (z.check cfg s.now identity).1 = ok ∧ Represents s₃ (z.check cfg s.now identity).2 := by
  obtain ⟨hs₁, hlookup, hbucket, hothers, hnow, hallowed, hrejected⟩ :=
    LimiterCells.exec_getBucket h.keyed hget
  obtain ⟨b, hb, rfl, hs₂, -, hnext, hothers', -, hallowed', hrejected'⟩ :=
    LimiterCells.exec_check hs₁ hlookup hcheck
  have hsame : (z.buckets.lookup identity).getD (G.direct cfg.quota) = b := by
    rw [h.buckets identity]
    exact Option.some.inj (hbucket.symm.trans hb)
  have hlookups : ∀ other, (z.buckets.insert identity (G.check b s.now).2).lookup other =
      s₂.bucketOf other := by
    intro other
    by_cases hne : other = identity
    · subst hne
      rw [AList.lookup_insert, hnext, hnow]
    · rw [AList.lookup_insert_ne hne, h.buckets other, hothers' other hne, (hothers other hne).2]
  have hyes : z.allowed = s₂.allowed := h.allowed.trans (hallowed'.trans hallowed).symm
  have hno : z.rejected = s₂.rejected := h.rejected.trans (hrejected'.trans hrejected).symm
  simp only [LimiterCells.exec] at hcount
  simp only [LimiterState.check, hsame]
  rw [hnow] at hcount ⊢
  cases hok : (G.check b s.now).1 with
  | true =>
    rw [hok, if_pos rfl] at hcount
    obtain rfl := (Prod.mk.inj (Option.some.inj hcount)).2
    exact ⟨rfl, ⟨hs₂.bounded, hs₂.distinct⟩, hlookups, congrArg (· + 1) hyes, hno⟩
  | false =>
    rw [hok, if_neg Bool.false_ne_true] at hcount
    obtain rfl := (Prod.mk.inj (Option.some.inj hcount)).2
    exact ⟨rfl, ⟨hs₂.bounded, hs₂.distinct⟩, hlookups, hyes, congrArg (· + 1) hno⟩

end

/-! ## What a call does -/

/-- What a call knows: whose bucket it was given. -/
def bucketNote (g : Option (String × ℕ)) : (o : LimiterOp) → o.Ans → Option (String × ℕ)
  | .getBucket identity, bucket => some (identity, bucket)
  | _, _ => g

/-- A call asks for the bucket of its identity, and checks the bucket it was given. -/
def limiterContract (identity : String) : Contract LimiterOp.Ans (Option (String × ℕ)) where
  init := none
  next := bucketNote
  pre g
    | .getBucket identity' => identity' = identity
    | .check bucket => g = some (identity, bucket)
    | .count _ => True
  post _ _ _ := True

/-- Every call keeps to the contract. -/
lemma checkSteps_meets (identity : String) :
    (checkSteps identity).Meets (limiterContract identity) (fun _ _ => True) none :=
  ⟨rfl, fun _ _ => ⟨rfl, fun _ _ => ⟨True.intro, fun _ _ => True.intro⟩⟩⟩

section

variable {G : Governor} {cfg : RateLimitConfig}

/-- The bucket a call was given, it was given by a step of its history. -/
lemma mem_of_bucket {identity : String} {h : List (Event LimiterOp.Ans)} {owner : String} {bucket : ℕ}
    (hg : (limiterContract identity).ghost h = some (owner, bucket)) :
    (⟨.getBucket owner, bucket⟩ : Event LimiterOp.Ans) ∈ h := by
  induction h using List.reverseRecOn with
  | nil => cases hg
  | append_singleton h ev ih =>
    rw [Contract.ghost_snoc] at hg
    obtain ⟨o, a⟩ := ev
    cases o with
    | getBucket identity' =>
      obtain ⟨rfl, rfl⟩ := Prod.mk.inj (Option.some.inj hg)
      exact List.mem_append_right _ (List.mem_singleton_self _)
    | check bucket' => exact List.mem_append_left _ (ih hg)
    | count ok => exact List.mem_append_left _ (ih hg)

/-- The answer of a check for an identity, with its time. -/
def answerTo (identity : String) (en : Entry LimiterOp.Ans (LimiterCells G) String) :
    Option (ℕ × Bool) :=
  match en.event with
  | ⟨.check _, ok⟩ => if en.label = identity then some (en.before.now, ok) else none
  | _ => none

/-- What an identity was answered in a trace, and when. -/
def answersTo (identity : String) (tr : List (Entry LimiterOp.Ans (LimiterCells G) String)) :
    List (ℕ × Bool) :=
  tr.filterMap (answerTo identity)

/-- The times of the checks of an identity. -/
def checkTimes (identity : String) (tr : List (Entry LimiterOp.Ans (LimiterCells G) String)) :
    List ℕ :=
  (answersTo identity tr).map Prod.fst

/-- One more entry. -/
lemma answersTo_snoc (identity : String) (tr : List (Entry LimiterOp.Ans (LimiterCells G) String))
    (en : Entry LimiterOp.Ans (LimiterCells G) String) :
    answersTo identity (tr ++ [en]) = answersTo identity tr ++ (answerTo identity en).toList := by
  cases h : answerTo identity en <;> simp [answersTo, h]

/-- What is known when no bucket has been dropped: the identities are among `U`, the bucket of each
of them is what its own checks have made of a fresh one, and these were answered accordingly, in the
order of time. -/
structure LimiterInv (cfg : RateLimitConfig) (U : Finset String) (s : LimiterCells G)
    (tr : List (Entry LimiterOp.Ans (LimiterCells G) String)) : Prop where
  keyed : s.Keyed
  known : ∀ identity ∈ s.buckets.keys, identity ∈ U
  bucket : ∀ identity, (s.bucketOf identity).getD (G.direct cfg.quota) =
    after G.check (G.direct cfg.quota) (checkTimes identity tr)
  given : ∀ en ∈ tr, ∀ identity bucket, en.event = ⟨.getBucket identity, bucket⟩ →
    s.buckets.lookup identity = some bucket
  answers : ∀ identity, answersTo identity tr =
    replay G.check (G.direct cfg.quota) (checkTimes identity tr)
  ordered : ∀ identity, (checkTimes identity tr ++ [s.now]).Pairwise (· ≤ ·)

namespace LimiterInv

variable {U : Finset String} {s s' : LimiterCells G}
  {tr : List (Entry LimiterOp.Ans (LimiterCells G) String)}

/-- Nothing has happened. -/
lemma new (now : ℕ) : LimiterInv cfg U (LimiterCells.new now : LimiterCells G) [] where
  keyed := ⟨fun identity bucket h => by simp [LimiterCells.new] at h,
    fun identity identity' bucket h => by simp [LimiterCells.new] at h⟩
  known identity h := by simp [LimiterCells.new] at h
  bucket identity := rfl
  given en h := absurd h List.not_mem_nil
  answers identity := rfl
  ordered identity := List.pairwise_singleton _ _

/-- A call is given a bucket. -/
lemma getBucket (h : LimiterInv cfg U s tr) {en : Entry LimiterOp.Ans (LimiterCells G) String}
    {identity : String} {bucket : ℕ} (hU : identity ∈ U)
    (hen : en.event = ⟨.getBucket identity, bucket⟩)
    (he : s.exec cfg (.getBucket identity) = some (bucket, s')) :
    LimiterInv cfg U s' (tr ++ [en]) := by
  obtain ⟨hkeyed, hlookup, hbucket, hothers, hnow, -, -⟩ := LimiterCells.exec_getBucket h.keyed he
  have hanswers : ∀ identity', answersTo identity' (tr ++ [en]) = answersTo identity' tr := by
    intro identity'
    rw [answersTo_snoc, answerTo, hen, Option.toList_none, List.append_nil]
  have htimes : ∀ identity', checkTimes identity' (tr ++ [en]) = checkTimes identity' tr :=
    fun identity' => congrArg (List.map Prod.fst) (hanswers identity')
  refine ⟨hkeyed, fun identity' hmem => ?_, fun identity' => ?_,
    fun en' hen' identity' bucket' hev => ?_,
    fun identity' => ?_, fun identity' => ?_⟩
  · by_cases hne : identity' = identity
    · exact hne ▸ hU
    · refine h.known identity' (AList.lookup_isSome.mp ?_)
      rw [← (hothers identity' hne).1]
      exact AList.lookup_isSome.mpr hmem
  · rw [htimes, ← h.bucket identity']
    by_cases hne : identity' = identity
    · subst hne
      rw [hbucket, Option.getD_some]
    · rw [(hothers identity' hne).2]
  · rcases List.mem_append.mp hen' with hen' | hen'
    · have hold := h.given en' hen' identity' bucket' hev
      by_cases hne : identity' = identity
      · -- the bucket that was given before is the one that is given now
        subst hne
        simp only [LimiterCells.exec, hold] at he
        obtain ⟨-, rfl⟩ := Prod.mk.inj (Option.some.inj he)
        exact hold
      · rw [(hothers identity' hne).1]
        exact hold
    · obtain rfl := List.mem_singleton.mp hen'
      rw [hen] at hev
      cases hev
      exact hlookup
  · rw [hanswers, htimes]
    exact h.answers identity'
  · rw [htimes, hnow]
    exact h.ordered identity'

/-- A call checks the bucket it was given. -/
lemma check (h : LimiterInv cfg U s tr) {i : ℕ} {identity : String}
    {hist : List (Event LimiterOp.Ans)} {bucket : ℕ} {ok : Bool}
    (hlookup : s.buckets.lookup identity = some bucket)
    (he : s.exec cfg (.check bucket) = some (ok, s')) :
    LimiterInv cfg U s' (tr ++ [⟨i, identity, hist, s, ⟨.check bucket, ok⟩⟩]) := by
  obtain ⟨b, hb, hok, hkeyed, hbuckets, hnext, hothers, hnow, -, -⟩ :=
    LimiterCells.exec_check h.keyed hlookup he
  have hafter : b = after G.check (G.direct cfg.quota) (checkTimes identity tr) := by
    rw [← h.bucket identity, hb, Option.getD_some]
  have hown : answersTo identity (tr ++ [⟨i, identity, hist, s, ⟨.check bucket, ok⟩⟩]) =
      answersTo identity tr ++ [(s.now, ok)] := by
    simp [answersTo_snoc, answerTo]
  have hother : ∀ other, other ≠ identity →
      answersTo other (tr ++ [⟨i, identity, hist, s, ⟨.check bucket, ok⟩⟩]) = answersTo other tr := by
    intro other hne
    simp [answersTo_snoc, answerTo, Ne.symm hne]
  have htimes : checkTimes identity (tr ++ [⟨i, identity, hist, s, ⟨.check bucket, ok⟩⟩]) =
      checkTimes identity tr ++ [s.now] := by
    rw [checkTimes, hown, List.map_append]
    rfl
  have htimes' : ∀ other, other ≠ identity →
      checkTimes other (tr ++ [⟨i, identity, hist, s, ⟨.check bucket, ok⟩⟩]) = checkTimes other tr :=
    fun other hne => congrArg (List.map Prod.fst) (hother other hne)
  refine ⟨hkeyed, fun other hmem => ?_, fun other => ?_, fun en hen other bucket' hev => ?_,
    fun other => ?_, fun other => ?_⟩
  · rw [hbuckets] at hmem
    exact h.known other hmem
  · by_cases hne : other = identity
    · subst hne
      rw [htimes, after_snoc, hnext, Option.getD_some, ← hafter]
    · rw [htimes' other hne, hothers other hne]
      exact h.bucket other
  · rw [hbuckets]
    rcases List.mem_append.mp hen with hen | hen
    · exact h.given en hen other bucket' hev
    · obtain rfl := List.mem_singleton.mp hen
      cases hev
  · by_cases hne : other = identity
    · subst hne
      rw [hown, htimes, replay_snoc, ← hafter, ← hok, h.answers other]
    · rw [hother other hne, htimes' other hne]
      exact h.answers other
  · rw [hnow]
    by_cases hne : other = identity
    · subst hne
      rw [htimes, List.pairwise_append]
      refine ⟨h.ordered other, List.pairwise_singleton _ _, fun t ht t' ht' => ?_⟩
      obtain rfl := List.mem_singleton.mp ht'
      rcases List.mem_append.mp ht with ht | ht
      · exact (List.pairwise_append.mp (h.ordered other)).2.2 t ht _ (List.mem_singleton_self _)
      · exact (List.mem_singleton.mp ht).le
    · rw [htimes' other hne]
      exact h.ordered other

/-- A call counts its answer. -/
lemma count (h : LimiterInv cfg U s tr) {en : Entry LimiterOp.Ans (LimiterCells G) String} {ok : Bool}
    (hen : en.event = ⟨.count ok, ()⟩) (he : s.exec cfg (.count ok) = some ((), s')) :
    LimiterInv cfg U s' (tr ++ [en]) := by
  have hanswers : ∀ identity, answersTo identity (tr ++ [en]) = answersTo identity tr := by
    intro identity
    rw [answersTo_snoc, answerTo, hen, Option.toList_none, List.append_nil]
  have htimes : ∀ identity, checkTimes identity (tr ++ [en]) = checkTimes identity tr :=
    fun identity => congrArg (List.map Prod.fst) (hanswers identity)
  have hsame : s'.buckets = s.buckets ∧ s'.cells = s.cells ∧ s'.now = s.now := by
    simp only [LimiterCells.exec] at he
    split at he <;> cases he <;> exact ⟨rfl, rfl, rfl⟩
  obtain ⟨now, buckets, cells, allowed, rejected⟩ := s
  obtain ⟨now', buckets', cells', allowed', rejected'⟩ := s'
  obtain ⟨rfl, rfl, rfl⟩ := hsame
  refine ⟨⟨h.keyed.bounded, h.keyed.distinct⟩, h.known, fun identity => ?_,
    fun en' hen' identity bucket hev => ?_, fun identity => ?_, fun identity => ?_⟩
  · rw [htimes]
    exact h.bucket identity
  · rcases List.mem_append.mp hen' with hen' | hen'
    · exact h.given en' hen' identity bucket hev
    · obtain rfl := List.mem_singleton.mp hen'
      rw [hen] at hev
      cases hev
  · rw [hanswers, htimes]
    exact h.answers identity
  · rw [htimes]
    exact h.ordered identity

/-- Time passes; and no bucket can be dropped when the identities fit the cache. -/
lemma env (h : LimiterInv cfg U s tr) (hU : U.card ≤ cfg.maxIdentities) {v : LimiterEnv}
    (hv : limiterEnv cfg s v = some s') : LimiterInv cfg U s' tr := by
  cases v with
  | tick d =>
    obtain rfl := Option.some.inj hv
    refine ⟨⟨h.keyed.bounded, h.keyed.distinct⟩, h.known, h.bucket, h.given, h.answers,
      fun identity => ?_⟩
    obtain ⟨htimes, -, hle⟩ := List.pairwise_append.mp (h.ordered identity)
    refine List.pairwise_append.mpr ⟨htimes, List.pairwise_singleton _ _, fun t ht t' ht' => ?_⟩
    obtain rfl := List.mem_singleton.mp ht'
    exact (hle t ht _ (List.mem_singleton_self _)).trans (Nat.le_add_right _ _)
  | evict identity =>
    have hfit : s.buckets.keys.length ≤ U.card := by
      rw [← List.toFinset_card_of_nodup s.buckets.keys_nodup]
      exact Finset.card_le_card fun identity hmem => h.known identity (List.mem_toFinset.mp hmem)
    simp only [limiterEnv] at hv
    rw [if_neg (by omega)] at hv
    cases hv

end LimiterInv

/-! ## Every run -/

variable {U : Finset String} {c c' : Config LimiterOp.Ans (LimiterCells G) String Bool}
  {a : Action Unit LimiterEnv String} {as : List (Action Unit LimiterEnv String)}

/-- The identities of a run. -/
def callers (as : List (Action Unit LimiterEnv String)) : Finset String :=
  (as.filterMap fun
    | .spawn identity => some identity
    | _ => none).toFinset

/-- Every call is for one of the identities. -/
def CallsOf (U : Finset String) (c : Config LimiterOp.Ans (LimiterCells G) String Bool) : Prop :=
  ∀ i t, c.threads i = some t → t.label ∈ U

/-- A new call is for one of the identities. -/
def CalledBy (U : Finset String) (a : Action Unit LimiterEnv String) : Prop :=
  ∀ identity, a = .spawn identity → identity ∈ U

/-- A step of a call for one of the identities leaves every call for one of them. -/
lemma callsOf_step (hc : CallsOf U c) (ha : CalledBy U a)
    (h : (limiterSystem G cfg).step c a = some c') : CallsOf U c' := by
  intro j t hj
  rcases System.label_of_step h hj with ⟨t', ht', hlabel⟩ | ⟨hspawn, -, -⟩
  · exact hlabel ▸ hc j t' ht'
  · exact ha t.label hspawn

/-- The obligations of the shared-invariant method. -/
lemma limiter_sound (hU : U.card ≤ cfg.maxIdentities) : System.Sound (limiterSystem G cfg)
    (fun c a => CalledBy U a ∧ CallsOf U c) limiterContract (fun _ _ _ => True)
    (LimiterInv cfg U) where
  body identity _ := checkSteps_meets identity
  again _ _ _ _ _ h := nomatch h
  exec c i e identity o k ans s' hc hH ht hpre he := by
    refine ⟨True.intro, ?_⟩
    have hinv := hc.inv
    cases o with
    | getBucket identity' =>
      obtain rfl : identity' = identity := hpre
      exact hinv.getBucket (hH.2 i _ ht) rfl he
    | check bucket =>
      obtain ⟨en, hen, -, hev⟩ := mem_histOf.mp (mem_of_bucket hpre)
      exact hinv.check (hinv.given en hen identity bucket hev) he
    | count ok => exact hinv.count rfl he
  cancel _ _ _ _ _ _ _ _ hd := nomatch hd
  env c v s' hc _ hv := hc.inv.env hU hv

/-- What is known after a run whose identities fit the cache. -/
lemma limiter_inv {t₀ : ℕ}
    (hrun : (limiterSystem G cfg).run (Config.initial (.new t₀)) as = some c)
    (hfit : (callers as).card ≤ cfg.maxIdentities) :
    LimiterInv cfg (callers as) c.shared c.trace := by
  have hcalled : (limiterSystem G cfg).Throughout (fun _ a => CalledBy (callers as) a)
      (Config.initial (.new t₀)) as := by
    refine System.throughout_of_forall (fun a ha c identity hspawn => ?_) _
    subst hspawn
    exact List.mem_toFinset.mpr (List.mem_filterMap.mpr ⟨_, ha, rfl⟩)
  have hthrough := hcalled.and_kept (I := CallsOf (callers as))
    (fun _ _ _ hc ha h => callsOf_step hc ha h) fun _ _ h => nomatch h
  have hstart : System.Outline limiterContract (fun _ _ _ => True) (LimiterInv cfg (callers as))
      (Config.initial (.new t₀) : Config LimiterOp.Ans (LimiterCells G) String Bool) :=
    ⟨System.Recorded.start (fun _ _ => rfl) (fun _ _ h => nomatch h) rfl, LimiterInv.new t₀,
      fun _ _ h => nomatch h⟩
  exact ((limiter_sound hfit).run hstart hthrough hrun).inv

end

/-! ## Quota and isolation -/

/-- A time in seconds. -/
def inSeconds (nanos : ℕ) : ℚ := nanos / 10 ^ 9

/-- A quota as the limit of a token bucket. -/
def Quota.limit (q : Quota) : Limit ℚ where
  size := q.burst
  rate := q.perSecond
  size_nonneg := Nat.cast_nonneg _
  rate_nonneg := Nat.cast_nonneg _

/-- What is assumed of `governor`: its direct limiter answers like a token bucket of size `burst`
that is refilled at `per_second`, and is full at the beginning. -/
def Governor.IsTokenBucket (G : Governor) : Prop :=
  ∀ (q : Quota) (ts : List ℕ), ts.Pairwise (· ≤ ·) →
    (replay G.check (G.direct q) ts).map (fun a => (inSeconds a.1, a.2)) =
      replay q.limit.take (q.limit.full 0) (ts.map inSeconds)

/-- The number of checks of an identity that were allowed from the second `lo` on, for `len`
seconds. -/
def allowedWithin {G : Governor} (identity : String) (lo len : ℚ)
    (tr : List (Entry LimiterOp.Ans (LimiterCells G) String)) : ℕ :=
  allowedAt (fun t => decide (lo ≤ inSeconds t ∧ inSeconds t ≤ lo + len)) (answersTo identity tr)

/-- Seconds are in the order of nanoseconds. -/
lemma inSeconds_le {t t' : ℕ} (h : t ≤ t') : inSeconds t ≤ inSeconds t' := by
  unfold inSeconds
  gcongr

/-- In every interleaving of checks by no more identities than the cache has room for: two runs in
which an identity checks at the same times give it the same answers, whatever the others do; and in
an interval of `len` seconds at most `max(burst, 1) + max(per_second, 1) * len` of its checks are
allowed. -/
theorem per_identity_quota_and_isolation {G : Governor} (hG : G.IsTokenBucket) {cfg : RateLimitConfig}
    {t₀ : ℕ} {as : List (Action Unit LimiterEnv String)}
    {c : Config LimiterOp.Ans (LimiterCells G) String Bool}
    (hrun : (limiterSystem G cfg).run (Config.initial (.new t₀)) as = some c)
    (hfit : (callers as).card ≤ cfg.maxIdentities) :
    (∀ t₀' as' c', (limiterSystem G cfg).run (Config.initial (.new t₀')) as' = some c' →
      (callers as').card ≤ cfg.maxIdentities → ∀ identity,
      checkTimes identity c.trace = checkTimes identity c'.trace →
      answersTo identity c.trace = answersTo identity c'.trace) ∧
    ∀ identity lo len, 0 ≤ len → (allowedWithin identity lo len c.trace : ℚ) ≤
      (max cfg.burst 1 : ℕ) + (max cfg.perSecond 1 : ℕ) * len := by
  have hinv := limiter_inv hrun hfit
  refine ⟨fun t₀' as' c' hrun' hfit' identity htimes => ?_, fun identity lo len hlen => ?_⟩
  · rw [hinv.answers identity, (limiter_inv hrun' hfit').answers identity, htimes]
  · have hordered := (List.pairwise_append.mp (hinv.ordered identity)).1
    have hseconds : (0 :: (checkTimes identity c.trace).map inSeconds).Pairwise (· ≤ ·) := by
      refine List.pairwise_cons.mpr ⟨fun t ht => ?_, ?_⟩
      · obtain ⟨nanos, -, rfl⟩ := List.mem_map.mp ht
        exact div_nonneg (Nat.cast_nonneg _) (by norm_num)
      · exact List.pairwise_map.mpr (hordered.imp fun h => inSeconds_le h)
    have hbound := allowed_within_le (p := cfg.quota.limit) (b := cfg.quota.limit.full 0) lo hlen
      (Nat.cast_nonneg _) hseconds
    rw [← hG cfg.quota _ hordered, allowedAt_map, ← hinv.answers identity] at hbound
    exact hbound

/-- A `governor` that is a token bucket. -/
def tokenBucketGovernor : Governor where
  Bucket := Limit ℚ × Bucket ℚ
  direct q := (q.limit, q.limit.full 0)
  check b now := ((b.1.take b.2 (inSeconds now)).1, (b.1, (b.1.take b.2 (inSeconds now)).2))

/-- The `governor` that keeps a bucket for each identity is a token bucket. -/
lemma tokenBucketGovernor_isTokenBucket : tokenBucketGovernor.IsTokenBucket := by
  intro q ts _
  refine replay_sim (R := fun b b' => b = (q.limit, b')) (fun b b' t hR => ?_) rfl ts
  subst hR
  exact ⟨rfl, rfl⟩

/-- One request in a second, with no burst beyond it, and room for `room` identities. -/
def oneInASecond (room : ℕ) : RateLimitConfig := ⟨1, 1, room⟩

/-- A call, without interruption. -/
def wholeCall (i : ℕ) (identity : String) : List (Action Unit LimiterEnv String) :=
  [.spawn identity, .exec i (), .exec i (), .exec i ()]

/-- Two checks of one identity, with one of another between them. -/
def threeChecks : List (Action Unit LimiterEnv String) :=
  wholeCall 0 "a" ++ wholeCall 1 "b" ++ wholeCall 2 "a"

/-- With room for both, the second check of the first identity is rejected. -/
theorem per_identity_quota_two_identities :
    (callers threeChecks).card ≤ (oneInASecond 2).maxIdentities ∧
    ∃ c : Config LimiterOp.Ans (LimiterCells tokenBucketGovernor) String Bool,
      (limiterSystem tokenBucketGovernor (oneInASecond 2)).run (Config.initial (.new 0)) threeChecks =
        some c ∧
      answersTo "a" c.trace = [(0, true), (0, false)] ∧
      (allowedWithin "a" 0 1 c.trace : ℚ) ≤ (1 : ℕ) + (1 : ℕ) * 1 := by
  have hfit : (callers threeChecks).card ≤ (oneInASecond 2).maxIdentities := by decide +kernel
  have hanswers : ((limiterSystem tokenBucketGovernor (oneInASecond 2)).run (Config.initial (.new 0))
      threeChecks).map (fun c => answersTo "a" c.trace) = some [(0, true), (0, false)] := by
    decide +kernel
  obtain ⟨c, hrun, hc⟩ := Option.map_eq_some_iff.mp hanswers
  exact ⟨hfit, c, hrun, hc, (per_identity_quota_and_isolation tokenBucketGovernor_isTokenBucket hrun
    hfit).2 "a" 0 1 zero_le_one⟩

/-- Checks of one identity from call `i` on, without interruption. -/
def wholeCalls (i n : ℕ) (identity : String) : List (Action Unit LimiterEnv String) :=
  (List.range n).flatMap fun k => wholeCall (i + k) identity

/-- With room for one identity, a second one appears; 400 ms later it checks four times, and the cache
drops its bucket after the first of these checks. -/
def bucketDropped : List (Action Unit LimiterEnv String) :=
  threeChecks ++ [.env (.tick 400000000)] ++ wholeCall 3 "b" ++ [.env (.evict "b")] ++
    wholeCalls 4 3 "b"

/-- The checks of the second identity alone, at the same times. -/
def bucketKept : List (Action Unit LimiterEnv String) :=
  wholeCall 0 "b" ++ [.env (.tick 400000000)] ++ wholeCalls 1 4 "b"

/-- The second identity is allowed twice in 0.4 seconds, where its quota is 1.4; and without the
other identity only the first of its checks, at the same times, is allowed. -/
theorem quota_exceeded_after_eviction :
    ((limiterSystem tokenBucketGovernor (oneInASecond 1)).run (Config.initial (.new 0))
      bucketDropped).map (fun c =>
        (answersTo "a" c.trace, answersTo "b" c.trace, allowedWithin "b" 0 (2 / 5) c.trace)) =
      some ([(0, true), (0, false)], [(0, true), (400000000, false), (400000000, true),
        (400000000, false), (400000000, false)], 2) ∧
    ((limiterSystem tokenBucketGovernor (oneInASecond 1)).run (Config.initial (.new 0))
      bucketKept).map (fun c => answersTo "b" c.trace) =
      some [(0, true), (400000000, false), (400000000, false), (400000000, false),
        (400000000, false)] ∧
    ((max (oneInASecond 1).burst 1 : ℕ) : ℚ) + (max (oneInASecond 1).perSecond 1 : ℕ) * (2 / 5) < 2 := by
  refine ⟨by decide +kernel, by decide +kernel, by decide +kernel⟩

end HsmProxy
