import HsmProxy.Pkcs11.SetupOrder

/-!
# A token that was provisioned passes the check

When the setup tools run one after the other on a token without demo keys, and a `provision` has
ended well, a `token-check` that is started later comes to its end and ends well, unless it is
stopped or a call fails that could have succeeded: `provisioned_passes_check`.  In particular the
pair that `check_keypair` finds belongs together, which overlapping tools do not guarantee.
-/

namespace HsmProxy

open Interleaving Interleaving.Prog Setup

/-- Each label names the objects of one call. -/
def ObjectTable.HoldsOnce (t : ObjectTable) (n : DemoKey → ℕ) : Prop :=
  ∀ k, t.labelled k = k.made (n k)

/-- The answer is one of a table that holds the demo keys, and a failure only when the call cannot
succeed on it. -/
def keysContract (T : SigningToken) (n : DemoKey → ℕ) : Contract SetupOp.Ans Unit where
  init := ()
  next _ _ _ := ()
  pre _ _ := True
  post _ o a := ∃ t : ObjectTable, t.HoldsOnce n ∧ (t.answer T o a).isSome = true ∧
    ∀ e, a = .error e → ∀ r, t.answer T o (.ok r) = none

section

variable {T : SigningToken} {n : DemoKey → ℕ}

/-- A call that can succeed does. -/
lemma answered {o : SetupOp} {a : o.Ans} (ha : (keysContract T n).post () o a)
    (hpossible : ∀ t : ObjectTable, t.HoldsOnce n → ∃ r, (t.answer T o (.ok r)).isSome = true) :
    ∃ r t, ObjectTable.HoldsOnce t n ∧ a = .ok r ∧ (t.answer T o (.ok r)).isSome = true := by
  obtain ⟨t, ht, hsome, hfails⟩ := ha
  cases a with
  | ok r => exact ⟨r, t, ht, rfl, hsome⟩
  | error e =>
    obtain ⟨r, hr⟩ := hpossible t ht
    rw [hfails e rfl r] at hr
    cases hr

/-- A search for a class of which a label names one object finds it. -/
lemma found_one {k : DemoKey} {c : ObjectClass} {o : StoredObject}
    (ho : (k.made (n k)).filter (fun o => decide (.ofClass (.key c) ∈ o.attributes)) = [o])
    {a : (SetupOp.findObjects [.ofClass (.key c), .label k.label]).Ans}
    (ha : (keysContract T n).post () _ a) : a = .ok [o.handle] := by
  have hmatching : ∀ t : ObjectTable, t.HoldsOnce n →
      t.matching [.ofClass (.key c), .label k.label] = [o] := by
    intro t ht
    rw [matching_template, ht k, ho]
  obtain ⟨handles, t, ht, rfl, hsome⟩ := answered ha fun t ht =>
    ⟨[o.handle], by simp [ObjectTable.answer, hmatching t ht]⟩
  simp only [ObjectTable.answer, hmatching t ht] at hsome
  split at hsome
  · rename_i hperm
    rw [List.perm_singleton.mp hperm]
  · cases hsome

/-- An object under a label is the one under its handle. -/
lemma ObjectTable.HoldsOnce.object {t : ObjectTable} (ht : t.HoldsOnce n) {k : DemoKey}
    {o : StoredObject} (ho : o ∈ k.made (n k)) : t.object o.handle = some o :=
  object_of_mem (List.mem_filter.mp (ht k ▸ ho : o ∈ t.labelled k)).1

/-- The two objects of a key pair: told apart by their class, of one key, the private one protected,
and fit for the signature that `token-check` makes. -/
structure PairMade (T : SigningToken) (k : DemoKey) (n : ℕ) (publicKey privateKey : StoredObject)
    (key : Generated) : Prop where
  made : k.made n = [publicKey, privateKey]
  privateOnly : (k.made n).filter (fun o => decide (.ofClass (.key .privateKey) ∈ o.attributes)) =
    [privateKey]
  publicOnly : (k.made n).filter (fun o => decide (.ofClass (.key .publicKey) ∈ o.attributes)) =
    [publicKey]
  publicSecret : publicKey.key = some key
  privateSecret : privateKey.key = some key
  protection : [ProtectionType.sensitive, ProtectionType.extractable].filterMap (fun type =>
      privateKey.attributes.find? fun held => decide (held.protection = some type)) =
    [.sensitive true, .extractable false]
  signs : (T.sign key (probeFor T k.label).1 (probeFor T k.label).2).isSome = true

/-- The demo key pairs are such. -/
lemma exists_pairMade (T : SigningToken) {k : DemoKey} (hk : k ≠ .aes) (n : ℕ) :
    ∃ publicKey privateKey key, PairMade T k n publicKey privateKey key := by
  cases k with
  | ec =>
    refine ⟨_, _, ⟨.eccKeyPairGen, n⟩, rfl, rfl, rfl, rfl, rfl, rfl, ?_⟩
    exact T.sign_ecdsa n _ (T.sha256_length _)
  | rsa =>
    refine ⟨_, _, ⟨.rsaPkcsKeyPairGen, n⟩, rfl, rfl, rfl, rfl, rfl, rfl, ?_⟩
    exact T.sign_rsa n _
  | aes => exact absurd rfl hk

/-- `check_keypair` passes. -/
lemma checkKeypair_passes {k : DemoKey} (hk : k ≠ .aes) :
    (checkKeypair T k.label).run.Meets (keysContract T n) (fun _ r => ∃ length, r = .ok length)
      () := by
  obtain ⟨publicKey, privateKey, key, hpair⟩ := exists_pairMade T hk (n k)
  have hpublic : publicKey ∈ k.made (n k) := hpair.made ▸ List.mem_cons_self
  have hprivate : privateKey ∈ k.made (n k) :=
    hpair.made ▸ List.mem_cons_of_mem _ (List.mem_singleton_self _)
  have hsigns := hpair.signs
  unfold checkKeypair
  generalize probeFor T k.label = probe at hsigns ⊢
  obtain ⟨mechanism, payload⟩ := probe
  refine ⟨True.intro, fun found hfound => ?_⟩
  obtain rfl := found_one hpair.privateOnly hfound
  refine ⟨True.intro, fun found hfound => ?_⟩
  obtain rfl := found_one hpair.publicOnly hfound
  refine ⟨True.intro, fun attributes hattributes => ?_⟩
  obtain rfl : attributes = .ok [.sensitive true, .extractable false] := by
    obtain ⟨r, t, ht, rfl, hsome⟩ := answered hattributes fun t ht =>
      ⟨[.sensitive true, .extractable false], by
        simp only [ObjectTable.answer, ht.object hprivate]
        rw [if_pos hpair.protection.symm]
        rfl⟩
    simp only [ObjectTable.answer, ht.object hprivate] at hsome
    split at hsome
    · rename_i hr
      rw [hr, hpair.protection]
    · cases hsome
  refine ⟨True.intro, fun signature hsignature => ?_⟩
  obtain ⟨bytes, hbytes⟩ := Option.isSome_iff_exists.mp hsigns
  obtain rfl : signature = .ok bytes := by
    obtain ⟨r, t, ht, rfl, hsome⟩ := answered hsignature fun t ht =>
      ⟨bytes, by simp [ObjectTable.answer, ht.object hprivate, hpair.privateSecret, hbytes]⟩
    simp only [ObjectTable.answer, ht.object hprivate, Option.bind_some, hpair.privateSecret,
      hbytes] at hsome
    split at hsome
    · rename_i hr
      rw [Option.some.inj hr]
    · cases hsome
  refine ⟨True.intro, fun verified hverified => ?_⟩
  obtain ⟨-, -, -, rfl, -⟩ := answered hverified fun t ht =>
    ⟨(), by simp [ObjectTable.answer, ht.object hpublic, hpair.publicSecret,
      T.verify_sign _ _ _ _ hbytes]⟩
  exact ⟨bytes.length, rfl⟩

/-- The loop over the pairs notes no failure. -/
lemma checkKeypairs_passes (display : CryptokiError → String) (ks : List DemoKey)
    (hks : DemoKey.aes ∉ ks) :
    (checkKeypairs T display (ks.map DemoKey.label)).run.Meets (keysContract T n)
      (fun _ r => r = .ok []) () := by
  induction ks with
  | nil => exact rfl
  | cons k ks ih =>
    obtain ⟨hk, hks⟩ := not_or.mp (mt List.mem_cons.mpr hks)
    refine (meets_run_bind _ _).mpr ((meets_run_lift _).mpr ((meets_map _ _).mpr
      ((checkKeypair_passes (Ne.symm hk)).mono ?_)))
    rintro _ _ ⟨length, rfl⟩
    refine (meets_run_bind _ _).mpr ((ih hks).mono ?_)
    rintro _ _ rfl
    exact rfl

/-- The loop over the secret keys notes no failure. -/
lemma checkSecretKeys_passes :
    (checkSecretKeys expectedSecretKeys).run.Meets (keysContract T n) (fun _ r => r = .ok []) () := by
  refine ⟨True.intro, fun found hfound => ?_⟩
  obtain rfl := found_one (k := .aes) rfl hfound
  exact rfl

/-- The token can be written to. -/
lemma checkWritable_passes (display : CryptokiError → String) :
    (checkWritable display).run.Meets (keysContract T n) (fun _ r => r = .ok []) () := by
  refine ⟨True.intro, fun created hcreated => ?_⟩
  obtain ⟨handle, -, -, rfl, -⟩ := answered hcreated fun t _ =>
    ⟨t.next, by simp [ObjectTable.answer]⟩
  refine ⟨True.intro, fun destroyed hdestroyed => ?_⟩
  obtain ⟨-, -, -, rfl, -⟩ := answered hdestroyed fun t _ => ⟨(), by simp [ObjectTable.answer]⟩
  exact rfl

/-- `token-check` passes. -/
theorem tokenCheck_passes (display : CryptokiError → String) :
    (tokenCheck T display).run.Meets (keysContract T n) (fun _ r => r = .ok ()) () := by
  have hpart : ∀ {x : Tool (List String)} {f : List String → Tool Unit},
      x.run.Meets (keysContract T n) (fun _ r => r = .ok []) () →
      (f []).run.Meets (keysContract T n) (fun _ r => r = .ok ()) () →
      (x >>= f).run.Meets (keysContract T n) (fun _ r => r = .ok ()) () := by
    intro x f hx hf
    refine (meets_run_bind _ _).mpr (hx.mono ?_)
    rintro _ _ rfl
    exact hf
  refine ⟨True.intro, fun info hinfo => ?_⟩
  obtain ⟨-, -, -, rfl, -⟩ := answered hinfo fun t _ => ⟨(), rfl⟩
  refine hpart (checkKeypairs_passes display [.ec, .rsa] (by simp)) ?_
  refine hpart checkSecretKeys_passes (hpart (checkWritable_passes display) ?_)
  exact ⟨True.intro, fun _ _ => rfl⟩

end

/-! ## Every run -/

section

variable {T : SigningToken} {display : CryptokiError → String} {t₀ : ObjectTable}
  {as bs : List (Action ((o : SetupOp) → o.Ans) Empty SetupTool)}
  {c c' : Config SetupOp.Ans ObjectTable SetupTool SetupResult}

/-- A call fails only when it cannot succeed. -/
def Obliging (T : SigningToken) (c : Config SetupOp.Ans ObjectTable SetupTool SetupResult) :
    Action ((o : SetupOp) → o.Ans) Empty SetupTool → Prop
  | .exec i answers => ∀ o, c.nextOp i = some o → ∀ e, answers o = .error e →
      ∀ r, c.shared.answer T o (.ok r) = none
  | _ => True

/-- The tools run in order, the demo keys are there, and the calls of the tool `i` were answered
accordingly. -/
structure Checking (T : SigningToken) (t₀ : ObjectTable) (n : DemoKey → ℕ) (i : ℕ)
    (c : Config SetupOp.Ans ObjectTable SetupTool SetupResult) : Prop where
  orderly : Orderly t₀ c
  holds : c.shared.HoldsOnce n
  answers : ∀ en ∈ c.trace, en.tid = i → (keysContract T n).post () en.event.1 en.event.2

/-- A call that is answered obligingly leaves the demo keys as they are. -/
lemma checking_step {n : DemoKey → ℕ} {i : ℕ} {a : Action ((o : SetupOp) → o.Ans) Empty SetupTool}
    (hc : Checking T t₀ n i c) (ha : OneByOne c a ∧ Obliging T c a)
    (h : (setup T display).step c a = some c') : Checking T t₀ n i c' := by
  have horderly := orderly_step hc.orderly ha.1 h
  rcases System.step_cases h with ⟨l, -, -, rfl⟩ | ⟨j, e, l, hist, o, rest, ans, t', rfl, ht, he, rfl⟩ |
    ⟨j, l, hist, r, p, -, -, hp, -⟩ | ⟨j, l, hist, o, rest, -, -, -, rfl⟩ | ⟨v, s', -, -, -⟩
  · exact ⟨horderly, hc.holds, hc.answers⟩
  · obtain ⟨t'', hanswer, heq⟩ := Option.map_eq_some_iff.mp he
    obtain ⟨rfl, rfl⟩ := Prod.mk.inj heq
    refine ⟨horderly, fun k => ?_, fun en hen htid => ?_⟩
    · rcases labelled_of_exec hc.orderly ht hanswer k with hsame | ⟨habsent, -⟩
      · exact hsame.trans (hc.holds k)
      · obtain ⟨o, ho, -⟩ := k.exists_fits_made (n k)
        rw [← hc.holds k, habsent] at ho
        cases ho
    · rcases List.mem_append.mp hen with hen | hen
      · exact hc.answers en hen htid
      · obtain rfl := List.mem_singleton.mp hen
        refine ⟨c.shared, hc.holds, by rw [hanswer]; rfl, fun e' he' => ha.2 o ?_ e' he'⟩
        unfold Config.nextOp
        rw [ht]
  · cases hp
  · exact ⟨horderly, hc.holds, hc.answers⟩
  · exact v.elim

/-- A token that was provisioned holds each demo key once. -/
lemma holdsOnce_of_provisioned (horderly : Orderly t₀ c)
    (hrun : (setup T display).run (.initial t₀) as = some c) {j : ℕ}
    {report : List (String × Provisioned)}
    (hj : c.returned j = some (.provision, .provisioned (.ok report))) :
    ∃ n, c.shared.HoldsOnce n := by
  have hmade : ∀ k, ∃ n, c.shared.labelled k = k.made n := by
    intro k
    rcases horderly.once k with hnone | hmade
    · obtain ⟨o, ho, hfits⟩ := holds_of_provisioned hrun hj k
      have hmem : o ∈ c.shared.labelled k := by
        refine List.mem_filter.mpr ⟨ho, ?_⟩
        simp only [StoredObject.fits, DemoKey.template, List.all_cons, Bool.and_eq_true] at hfits
        exact hfits.2.1
      rw [hnone] at hmem
      cases hmem
    · exact hmade
  choose n hn using hmade
  exact ⟨n, hn⟩

/-- The check that is started on such a token ends well if it ends. -/
lemma checked_of_holdsOnce (horderly : Orderly t₀ c) {n : DemoKey → ℕ} (hn : c.shared.HoldsOnce n)
    (hrun : (setup T display).run (.initial t₀) as = some c)
    (hone : (setup T display).Throughout OneByOne c bs)
    (hobliging : (setup T display).Throughout (Obliging T) c bs)
    (hrest : (setup T display).run c bs = some c') {r : SetupResult}
    (hi : c'.returned c.spawned = some (.tokenCheck, r)) : r = .checked (.ok ()) := by
  have hfresh : ∀ en ∈ c.trace, en.tid ≠ c.spawned := fun en hen =>
    (horderly.furnished.recorded.tids en hen).ne
  have hchecking : Checking T t₀ n c.spawned c' :=
    System.run_invariant (fun _ _ _ hc ha h => checking_step hc ha h)
      ⟨horderly, hn, fun en hen htid => absurd htid (hfresh en hen)⟩ (hone.and hobliging) hrest
  have hall : (setup T display).run (.initial t₀) (as ++ bs) = some c' := by
    rw [System.run_append, hrun, Option.bind_some, hrest]
  have hruns := System.runs_of_returned (System.Recorded.start (fun _ _ => rfl)
    (fun i t hi => by cases hi) rfl) (fun i t hi => by cases hi) hall hi fun _ => rfl
  obtain ⟨outcome, hbody, rfl⟩ := runs_map.mp hruns
  refine congrArg _ ((tokenCheck_passes (n := n) display).runs hbody fun _ ev hev => ?_)
  obtain ⟨en, hen, htid, rfl⟩ := mem_histOf.mp hev
  exact hchecking.answers en hen htid

/-- The tool that is started first is the one that runs under its name. -/
lemma label_of_started {l : SetupTool}
    (hrun : (setup T display).run c (.spawn l :: bs) = some c')
    {t : Thread SetupOp.Ans SetupTool SetupResult} (ht : c'.threads c.spawned = some t) :
    t.label = l := by
  obtain ⟨d, hd, hrun⟩ := Option.bind_eq_some_iff.mp hrun
  obtain rfl := Option.some.inj hd
  refine (System.run_invariant (I := fun d => c.spawned < d.spawned ∧
    ∀ t, d.threads c.spawned = some t → t.label = l) ?_ ⟨Nat.lt_succ_self _, fun t ht => ?_⟩
    (System.throughout_true _ _) hrun).2 t ht
  · rintro d a d' ⟨hlt, hlabel⟩ - hstep
    refine ⟨hlt.trans_le (System.spawned_le_of_step hstep), fun t ht => ?_⟩
    rcases System.label_of_step hstep ht with ⟨t', ht', hsame⟩ | ⟨-, hnew, -⟩
    · exact hsame ▸ hlabel t' ht'
    · exact absurd hnew hlt.ne
  · obtain rfl : t = ⟨l, [], (setup T display).body l⟩ := by simpa using ht.symm
    rfl

/-- Every call has an obliging answer. -/
lemma exists_obliging (T : SigningToken) (t : ObjectTable) (o : SetupOp) :
    ∃ (a : o.Ans) (t' : ObjectTable), t.answer T o a = some t' ∧
      ∀ e, a = .error e → ∀ r, t.answer T o (.ok r) = none := by
  by_cases h : ∃ r t', t.answer T o (.ok r) = some t'
  · obtain ⟨r, t', hr⟩ := h
    exact ⟨.ok r, t', hr, fun e he => by cases he⟩
  · refine ⟨.error (.other ""), t, by simp [ObjectTable.answer], fun _ _ r => ?_⟩
    exact Option.eq_none_iff_forall_ne_some.mpr fun t' hr => h ⟨r, t', hr⟩

/-- A tool can be brought to its end by obliging answers, by induction on what remains of its
program. -/
lemma exists_obliging_end (T : SigningToken) (display : CryptokiError → String) {i : ℕ}
    {l : SetupTool} {hist : List (Event SetupOp.Ans)} {p : Prog SetupOp.Ans SetupResult}
    (hi : c.threads i = some ⟨l, hist, p⟩) :
    ∃ (answers : List ((o : SetupOp) → o.Ans)) (c' : _) (r : SetupResult),
      (setup T display).Throughout (Obliging T) c (answers.map (.exec i)) ∧
      (setup T display).run c (answers.map (.exec i)) = some c' ∧ c'.returned i = some (l, r) := by
  induction p generalizing c hist with
  | ret r => exact ⟨[], c, r, True.intro, rfl, by simp [Config.returned, hi]⟩
  | call o k ih =>
    obtain ⟨a, t', ha, hobliging⟩ := exists_obliging T c.shared o
    let e : (o : SetupOp) → o.Ans := Function.update (fun _ => .error (.other "")) o a
    have he : e o = a := Function.update_self o a _
    have hexec : (setup T display).exec e i c.shared o = some (a, t') := by
      simp [setup, he, ha]
    obtain ⟨d, hd, hi'⟩ : ∃ d, (setup T display).step c (.exec i e) = some d ∧
        d.threads i = some ⟨l, hist ++ [⟨o, a⟩], k a⟩ :=
      ⟨_, System.step_exec hi hexec, by simp⟩
    obtain ⟨answers, c', r, hrest, hrun, hr⟩ := ih a hi'
    refine ⟨e :: answers, c', r, ⟨?_, fun d' hd' => ?_⟩, ?_, hr⟩
    · intro o' ho'
      obtain rfl : o = o' := Option.some.inj ((System.nextOp_eq hi).symm.trans ho')
      rw [he]
      exact hobliging
    · obtain rfl : d = d' := Option.some.inj (hd.symm.trans hd')
      exact hrest
    · rw [List.map_cons, System.run, hd]
      exact hrun

/-- A token that was provisioned passes the check: the tools run one after the other, on a token
without demo keys, a `provision` has ended well, and then a `token-check` is started.  When calls
fail only where they cannot succeed, the check ends well if it ends, and as long as it is not
stopped its own calls bring it there. -/
theorem provisioned_passes_check (hclean : ∀ k, t₀.labelled k = [])
    (hone : (setup T display).Throughout OneByOne (.initial t₀) (as ++ .spawn .tokenCheck :: bs))
    (hrun : (setup T display).run (.initial t₀) as = some c) {j : ℕ}
    {report : List (String × Provisioned)}
    (hj : c.returned j = some (.provision, .provisioned (.ok report)))
    (hobliging : (setup T display).Throughout (Obliging T) c (.spawn .tokenCheck :: bs))
    (hrest : (setup T display).run c (.spawn .tokenCheck :: bs) = some c') :
    (∀ outcome, c'.returned c.spawned = some (.tokenCheck, .checked outcome) → outcome = .ok ()) ∧
    ((c'.threads c.spawned).isSome = true → ∃ (answers : List ((o : SetupOp) → o.Ans)) (c'' : _),
      (setup T display).Throughout (Obliging T) c' (answers.map (.exec c.spawned)) ∧
      (setup T display).run c' (answers.map (.exec c.spawned)) = some c'' ∧
      c''.returned c.spawned = some (.tokenCheck, .checked (.ok ()))) := by
  obtain ⟨hone, honeRest⟩ := System.throughout_append.mp hone
  have honeRest := honeRest c hrun
  have horderly := orderly_run hclean hone hrun
  obtain ⟨n, hn⟩ := holdsOnce_of_provisioned horderly hrun hj
  constructor
  · intro outcome hi
    cases checked_of_holdsOnce horderly hn hrun honeRest hobliging hrest hi
    rfl
  · intro hsome
    obtain ⟨⟨l, hist, p⟩, ht⟩ := Option.isSome_iff_exists.mp hsome
    obtain rfl : l = .tokenCheck := label_of_started hrest ht
    obtain ⟨answers, c'', r, hanswers, hend, hr⟩ := exists_obliging_end T display ht
    have hall : (setup T display).run c
        ((.spawn .tokenCheck :: bs) ++ answers.map (.exec c.spawned)) = some c'' := by
      rw [System.run_append, hrest, Option.bind_some, hend]
    have honeAll : (setup T display).Throughout OneByOne c
        ((.spawn .tokenCheck :: bs) ++ answers.map (.exec c.spawned)) := by
      refine System.throughout_append.mpr ⟨honeRest, fun d _ => System.throughout_of_forall ?_ d⟩
      intro a ha d
      obtain ⟨e, -, rfl⟩ := List.mem_map.mp ha
      exact True.intro
    have hobligingAll : (setup T display).Throughout (Obliging T) c
        ((.spawn .tokenCheck :: bs) ++ answers.map (.exec c.spawned)) := by
      refine System.throughout_append.mpr ⟨hobliging, fun d hd => ?_⟩
      obtain rfl : c' = d := Option.some.inj (hrest.symm.trans hd)
      exact hanswers
    refine ⟨answers, c'', hanswers, hend, ?_⟩
    rw [hr, checked_of_holdsOnce horderly hn hrun honeAll hobligingAll hall hr]

end

/-- A check of the token that `provisionFresh 0 0` leaves. -/
def checkFresh : List (Action ((o : SetupOp) → o.Ans) Empty SetupTool) :=
  [.exec 1 (succeeding [] 0), .exec 1 (succeeding [1] 0), .exec 1 (succeeding [0] 0),
    .exec 1 (succeeding [] 0), .exec 1 (succeeding [] 0), .exec 1 (succeeding [] 0),
    .exec 1 (succeeding [3] 0), .exec 1 (succeeding [2] 0), .exec 1 (succeeding [] 0),
    .exec 1 (succeeding [] 2), .exec 1 (succeeding [] 0), .exec 1 (succeeding [4] 0),
    .exec 1 (succeeding [] 5), .exec 1 (succeeding [] 0), .exec 1 (succeeding [] 0)]

/-- The token that was provisioned first passes it, and a check that has just started comes to this
end. -/
theorem provisioned_passes_check_fresh :
    (∃ c outcome, (setup secretToken fun _ => "").run (.initial .empty)
        (provisionFresh 0 0 ++ .spawn .tokenCheck :: checkFresh) = some c ∧
      c.returned 1 = some (.tokenCheck, .checked outcome) ∧ outcome = .ok ()) ∧
    ∃ (c : _) (answers : List ((o : SetupOp) → o.Ans)) (c' : _),
      (setup secretToken fun _ => "").run (.initial .empty)
        (provisionFresh 0 0 ++ [.spawn .tokenCheck]) = some c ∧
      (setup secretToken fun _ => "").run c (answers.map (.exec 1)) = some c' ∧
      c'.returned 1 = some (.tokenCheck, .checked (.ok ())) := by
  have hend : ((setup secretToken fun _ => "").run (.initial .empty) (provisionFresh 0 0)).map
      (fun c => (c.spawned, c.returned 0)) = some (1, some (.provision, .provisioned (.ok
        [(demoEcKey, .created), (demoRsaKey, .created), (demoAesKey, .created)]))) := by
    decide +kernel
  have hchecked : ((setup secretToken fun _ => "").run (.initial .empty)
      (provisionFresh 0 0 ++ .spawn .tokenCheck :: checkFresh)).map (fun c => c.returned 1) =
      some (some (.tokenCheck, .checked (.ok ()))) := by
    decide +kernel
  have hone : (setup secretToken fun _ => "").Throughout OneByOne (.initial .empty)
      (provisionFresh 0 0 ++ .spawn .tokenCheck :: checkFresh) := by
    decide +kernel
  have hobliging : ∀ a ∈ Action.spawn SetupTool.tokenCheck :: checkFresh, ∀ c,
      Obliging secretToken c a := by
    have hok : ∀ found n (o : SetupOp) e, succeeding found n o ≠ .error e := by
      intro found n o e h
      cases o <;> cases h
    simp only [checkFresh, List.forall_mem_cons, Obliging]
    simp [hok]
  have hstarted : ((setup secretToken fun _ => "").run (.initial .empty)
      (provisionFresh 0 0 ++ [.spawn .tokenCheck])).map (fun c => (c.threads 1).isSome) =
      some true := by
    decide +kernel
  have honeStarted : (setup secretToken fun _ => "").Throughout OneByOne (.initial .empty)
      (provisionFresh 0 0 ++ [.spawn .tokenCheck]) := by
    decide +kernel
  obtain ⟨c, hrun, hc⟩ := Option.map_eq_some_iff.mp hend
  obtain ⟨hspawned, hprovisioned⟩ := Prod.mk.inj hc
  constructor
  · obtain ⟨c', hall, hc'⟩ := Option.map_eq_some_iff.mp hchecked
    have hrest := hall
    rw [System.run_append, hrun, Option.bind_some] at hrest
    exact ⟨c', .ok (), hall, hc', (provisioned_passes_check (fun _ => rfl) hone hrun hprovisioned
      (System.throughout_of_forall hobliging c) hrest).1 _ (hspawned.symm ▸ hc')⟩
  · obtain ⟨c', hall, hc'⟩ := Option.map_eq_some_iff.mp hstarted
    have hrest := hall
    rw [System.run_append, hrun, Option.bind_some] at hrest
    obtain ⟨answers, c'', -, hend', hr⟩ := (provisioned_passes_check (fun _ => rfl) honeStarted hrun
      hprovisioned (System.throughout_of_forall (fun a ha => hobliging a
        (List.mem_singleton.mp ha ▸ List.mem_cons_self)) c) hrest).2 (hspawned.symm ▸ hc')
    rw [hspawned] at hend' hr
    exact ⟨c', answers, c'', hall, hend', hr⟩

end HsmProxy
