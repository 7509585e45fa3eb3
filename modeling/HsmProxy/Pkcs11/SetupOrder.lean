import HsmProxy.Collections.Selection
import HsmProxy.Pkcs11.Provisioning

/-!
# The setup tools one after the other

Tools that overlap may both find a key missing and both create it; the label then names several
objects, and which of them a search returns first is up to the token.  When a tool is started only
after the others are over (they may have failed, or have been killed), a label names the objects of
one call at most: `provisioning_once`.
-/

namespace HsmProxy

open Interleaving Interleaving.Prog Setup

/-! ## Objects under a label -/

/-- The objects that carry the label of a demo key. -/
def ObjectTable.labelled (t : ObjectTable) (k : DemoKey) : List StoredObject :=
  t.objects.filter fun o => decide (.label k.label ∈ o.attributes)

section

variable {t t' : ObjectTable} {k k' : DemoKey} {n : ℕ} {o : StoredObject}

/-- All objects of a call carry its label. -/
lemma labelled_made (k : DemoKey) (n : ℕ) :
    (k.made n).filter (fun o => decide (.label k.label ∈ o.attributes)) = k.made n :=
  List.filter_eq_self.mpr fun _ ho => decide_eq_true (DemoKey.label_of_made ho)

/-- None carries another. -/
lemma labelled_made_of_ne (h : k' ≠ k) (n : ℕ) :
    (k.made n).filter (fun o => decide (.label k'.label ∈ o.attributes)) = [] := by
  cases k <;> cases k' <;> first | exact absurd rfl h | rfl

/-- A probe does not carry one. -/
lemma not_labelled_probe (k : DemoKey) (ho : o.attributes = probeTemplate) :
    .label k.label ∉ o.attributes := by
  rw [ho]
  cases k <;> decide +kernel

/-- A demo key is present exactly when the search by class and label finds an object. -/
lemma matching_template (t : ObjectTable) (k : DemoKey) (c : ObjectClass) :
    t.matching [.ofClass (.key c), .label k.label] =
      (t.labelled k).filter fun o => decide (.ofClass (.key c) ∈ o.attributes) := by
  unfold ObjectTable.matching ObjectTable.labelled
  rw [List.filter_filter]
  refine List.filter_congr fun o _ => ?_
  simp [StoredObject.fits]

/-- The object under a handle. -/
lemma object_of_mem (ho : o ∈ t.objects) : t.object o.handle = some o :=
  Selection.find?_eq_some_of_nodup t.distinct ho

/-- What a call does to the objects under a label, when the probe a tool destroys is one. -/
lemma labelled_of_effect {g : Option ObjectHandle} {ev : Event SetupOp.Ans}
    (hprobe : ∀ handle, g = some handle → ∀ o ∈ t.objects, o.handle = handle →
      o.attributes = probeTemplate)
    (heffect : Effect g t ev t') :
    t'.labelled k = t.labelled k ∨
      (∃ r, ev = ⟨k.generate, .ok r⟩) ∧ t'.labelled k = t.labelled k ++ k.made t.next := by
  unfold ObjectTable.labelled
  cases heffect with
  | nothing hsame _ _ => exact Or.inl (by rw [hsame])
  | made k' r hev hobjects _ =>
    rw [hobjects, List.filter_append]
    by_cases hk : k = k'
    · subst hk
      exact Or.inr ⟨⟨r, hev⟩, by rw [labelled_made]⟩
    · exact Or.inl (by rw [labelled_made_of_ne hk, List.append_nil])
  | probe hev hcreate =>
    refine Or.inl ?_
    rw [hcreate]
    have hprobe := not_labelled_probe (o := ⟨t.next, probeTemplate, none⟩) k rfl
    simp [ObjectTable.create, List.filter_append, hprobe]
  | destroyed handle hev hown hdestroy =>
    refine Or.inl ?_
    rw [hdestroy]
    unfold ObjectTable.destroy
    rw [List.filter_filter]
    refine List.filter_congr fun o ho => ?_
    by_cases hhandle : o.handle = handle
    · simp [not_labelled_probe k (hprobe handle hown o ho hhandle)]
    · simp [hhandle]

end

/-! ## Absence that was seen -/

/-- The demo key whose absence an answer shows. -/
def absenceShown : (o : SetupOp) → o.Ans → Option DemoKey
  | .findObjects template, .ok [] =>
    [DemoKey.ec, DemoKey.rsa, DemoKey.aes].find? fun k => decide (k.template = template)
  | _, _ => none

/-- What shows that a demo key is absent is a search for it that finds nothing. -/
lemma of_absenceShown {o : SetupOp} {a : o.Ans} {k : DemoKey} (h : absenceShown o a = some k) :
    (⟨o, a⟩ : Event SetupOp.Ans) = ⟨.findObjects k.template, .ok []⟩ := by
  cases o with
  | findObjects template =>
    rcases a with e | (_ | ⟨handle, handles⟩)
    · cases h
    · have htemplate : k.template = template := by simpa using List.find?_some h
      subst htemplate
      rfl
    · cases h
  | _ => cases h

/-- A key is created by a tool that has just seen that it is absent. -/
def absenceContract : Contract SetupOp.Ans (Option DemoKey) where
  init := none
  next _ o a := absenceShown o a
  pre g o := ∀ k : DemoKey, o = k.generate → g = some k
  post _ _ _ := True

section

variable {g : Option DemoKey}

/-- Calls that read create nothing. -/
lemma absenceContract_reads {o : SetupOp} (ho : o.reads = true) (g : Option DemoKey) :
    absenceContract.pre g o := by
  rintro k rfl
  cases k <;> cases ho

/-- A key is searched for before it is created. -/
lemma ensureKey_careful (k : DemoKey) (context : String) :
    (ensureKey k.objectClass k.label k.generate context).run.Meets absenceContract
      (fun _ _ => True) g := by
  refine ⟨absenceContract_reads rfl g, fun found _ => ?_⟩
  cases found with
  | error e => exact True.intro
  | ok handles =>
    cases handles with
    | cons handle handles => exact True.intro
    | nil =>
      refine ⟨fun k' hk' => ?_, fun generated _ => ?_⟩
      · obtain rfl := DemoKey.generate_injective hk'
        cases k <;> rfl
      · cases generated <;> exact True.intro

/-- `provision` keeps to the contract. -/
theorem provision_careful : provision.run.Meets absenceContract (fun _ _ => True) g := by
  have hstep : ∀ {β : Type} {k : DemoKey} {context : String} {f : Provisioned → Tool β}
      {Q : Option DemoKey → Except AnyhowError β → Prop} {g : Option DemoKey},
      (∀ g' e, Q g' (.error e)) → (∀ g' p, (f p).run.Meets absenceContract Q g') →
      (ensureKey k.objectClass k.label k.generate context >>= f).run.Meets absenceContract Q g := by
    intro β k context f Q g herror hf
    refine (meets_run_bind _ _).mpr ((ensureKey_careful k context).mono fun g' r _ => ?_)
    cases r with
    | error e => exact herror g' e
    | ok p => exact hf g' p
  refine (meets_run_bind _ _).mpr ?_
  refine hstep (k := .ec) (fun _ _ => True.intro) fun _ _ => ?_
  refine hstep (k := .rsa) (fun _ _ => True.intro) fun _ _ => ?_
  refine hstep (k := .aes) (fun _ _ => True.intro) fun g' _ => ?_
  exact ⟨absenceContract_reads rfl g', fun _ _ => True.intro⟩

/-- `token-check` creates no key. -/
theorem tokenCheck_careful (T : SigningToken) (display : CryptokiError → String) :
    (tokenCheck T display).run.Meets absenceContract (fun _ _ => True) g := by
  have hreads : ∀ o, o.reads = true → ∀ k : DemoKey, o ≠ k.generate := by
    rintro o ho k rfl
    cases k <;> cases ho
  have honly : Only (fun o => ∀ k : DemoKey, o ≠ k.generate) (tokenCheck T display).run := by
    refine only_run_bind (call_only (hreads _ rfl)) fun _ =>
      only_run_bind ((checkKeypairs_only T display _).weaken hreads) fun _ =>
      only_run_bind ((checkSecretKeys_only _).weaken hreads) fun _ =>
      only_run_bind (Only.bind (Only.bind (only_run_bind (call_only ?_) fun _ => call_only ?_)
        fun _ => only_ret _) fun _ => only_ret _) fun _ =>
      only_run_bind (callIgnored_only (hreads _ rfl)) fun _ => verdict_only _
    · exact fun k h => by cases k <;> cases h
    · exact fun k h => by cases k <;> cases h
  exact honly.meets_of_invariant (J := fun _ => True)
    (fun g o _ ho => ⟨fun k hk => absurd hk (ho k), fun _ => True.intro⟩) True.intro
    fun _ _ _ => True.intro

end

/-! ## One tool at a time -/

section

variable {T : SigningToken} {display : CryptokiError → String} {t₀ : ObjectTable}
  {as : List (Action ((o : SetupOp) → o.Ans) Empty SetupTool)}
  {c c' : Config SetupOp.Ans ObjectTable SetupTool SetupResult}
  {a : Action ((o : SetupOp) → o.Ans) Empty SetupTool}

/-- The tool has a call to make. -/
def Running (c : Config SetupOp.Ans ObjectTable SetupTool SetupResult) (i : ℕ) : Prop :=
  (c.nextOp i).isSome = true

/-- A tool is started only when no other is running. -/
def OneByOne (c : Config SetupOp.Ans ObjectTable SetupTool SetupResult) :
    Action ((o : SetupOp) → o.Ans) Empty SetupTool → Prop
  | .spawn _ => ∀ i < c.spawned, c.nextOp i = none
  | _ => True

instance : ∀ c a, Decidable (OneByOne c a)
  | c, .spawn _ => inferInstanceAs (Decidable (∀ i < c.spawned, c.nextOp i = none))
  | _, .exec _ _ => inferInstanceAs (Decidable True)
  | _, .again _ => inferInstanceAs (Decidable True)
  | _, .cancel _ => inferInstanceAs (Decidable True)
  | _, .env _ => inferInstanceAs (Decidable True)

/-- What is known when tools run one at a time. -/
structure Orderly (t₀ : ObjectTable) (c : Config SetupOp.Ans ObjectTable SetupTool SetupResult) :
    Prop where
  furnished : System.Outline (fun _ => setupContract) (fun _ _ _ => True) (Furnished t₀) c
  careful : System.Outline (fun _ => absenceContract) (fun _ _ _ => True) (fun _ _ => True) c
  solo : ∀ i j, Running c i → Running c j → i = j
  once : ∀ k, c.shared.labelled k = [] ∨ ∃ n, c.shared.labelled k = k.made n
  seen : ∀ i k, Running c i → absenceContract.ghost (histOf c.trace i) = some k →
    c.shared.labelled k = []

/-- The obligations of the shared-invariant method. -/
lemma careful_sound (T : SigningToken) (display : CryptokiError → String) :
    System.Sound (setup T display) (fun _ _ => True) (fun _ => absenceContract) (fun _ _ _ => True)
      (fun _ _ => True) where
  body l _ := by
    cases l with
    | provision => exact (meets_map _ _).mpr provision_careful
    | tokenCheck => exact (meets_map _ _).mpr (tokenCheck_careful T display)
  again l g r p _ hp := by cases hp
  exec _ _ _ _ _ _ _ _ _ _ _ _ _ := ⟨True.intro, True.intro⟩
  cancel _ _ _ _ _ _ _ _ _ := True.intro
  env c v s' _ _ _ := v.elim

/-- On a token without demo keys, before any tool was started, the tools are in order. -/
lemma orderly_initial (hclean : ∀ k, t₀.labelled k = []) : Orderly t₀ (.initial t₀) where
  furnished := ⟨System.Recorded.start (fun _ _ => rfl) (fun i t hi => by cases hi) rfl,
    Furnished.start t₀, fun i t hi => by cases hi⟩
  careful := ⟨System.Recorded.start (fun _ _ => rfl) (fun i t hi => by cases hi) rfl,
    True.intro, fun i t hi => by cases hi⟩
  solo i j hi := by cases hi
  once k := Or.inl (hclean k)
  seen i k hi := by cases hi

/-- A call by the tool that runs. -/
lemma labelled_of_exec (hc : Orderly t₀ c) {i : ℕ} {l : SetupTool} {hist : List (Event SetupOp.Ans)}
    {o : SetupOp} {rest : o.Ans → Prog SetupOp.Ans SetupResult} {ans : o.Ans} {t' : ObjectTable}
    (ht : c.threads i = some ⟨l, hist, .call o rest⟩) (ha : c.shared.answer T o ans = some t')
    (k : DemoKey) :
    t'.labelled k = c.shared.labelled k ∨
      c.shared.labelled k = [] ∧ ∃ n, t'.labelled k = k.made n := by
  obtain rfl := hc.furnished.recorded.hist i _ ht
  have heffect := effect_of_answer (hc.furnished.threads i _ ht).1 ha
  have hcareful : absenceContract.pre (absenceContract.ghost (histOf c.trace i)) o :=
    (hc.careful.threads i _ ht).1
  have hrunning : Running c i := by
    unfold Running Config.nextOp
    rw [ht]
    rfl
  rcases labelled_of_effect (k := k)
    (fun handle hown => (hc.furnished.inv.probes i handle hown).2.2) heffect with
    hsame | ⟨⟨r, hev⟩, hmade⟩
  · exact Or.inl hsame
  · have habsent := hc.seen i k hrunning (hcareful k (congrArg Sigma.fst hev))
    exact Or.inr ⟨habsent, _, by rw [hmade, habsent, List.nil_append]⟩

/-- A search that finds nothing shows that no object carries the label. -/
lemma labelled_of_absenceShown (hc : Orderly t₀ c) {o : SetupOp} {ans : o.Ans} {t' : ObjectTable}
    {k : DemoKey} (hk : absenceShown o ans = some k) (ha : c.shared.answer T o ans = some t') :
    t'.labelled k = [] := by
  cases of_absenceShown hk
  have hsame := answer_of_reads rfl ha
  subst hsame
  simp only [ObjectTable.answer, Option.ite_none_right_eq_some] at ha
  have hnone : c.shared.matching k.template = [] :=
    List.map_eq_nil_iff.mp (List.nil_perm.mp ha.1)
  rcases hc.once k with h | ⟨n, hn⟩
  · exact h
  · obtain ⟨o, ho, hfits⟩ := k.exists_fits_made n
    have hmem : o ∈ c.shared.matching k.template :=
      List.mem_filter.mpr ⟨(List.mem_filter.mp (hn ▸ ho)).1, hfits⟩
    rw [hnone] at hmem
    cases hmem

/-- The other tools run as before. -/
lemma running_of_update {i j : ℕ} {t : Option (Thread SetupOp.Ans SetupTool SetupResult)}
    (hthreads : c'.threads = Function.update c.threads i t) (hne : j ≠ i) (hj : Running c' j) :
    Running c j := by
  unfold Running Config.nextOp at hj ⊢
  rwa [hthreads, Function.update_of_ne hne] at hj

/-- A step that starts no tool while another runs keeps the tools in order. -/
theorem orderly_step (hc : Orderly t₀ c) (hone : OneByOne c a)
    (h : (setup T display).step c a = some c') : Orderly t₀ c' := by
  have hfurnished := (furnished_sound T display t₀).step hc.furnished True.intro h
  have hcareful := (careful_sound T display).step hc.careful True.intro h
  rcases System.step_cases h with ⟨l, rfl, -, hc'⟩ |
    ⟨i, e, l, hist, o, rest, ans, t', -, ht, he, hc'⟩ | ⟨i, l, hist, r, p, -, -, hp, -⟩ |
    ⟨i, l, hist, o, rest, -, -, -, hc'⟩ | ⟨v, s', -, -, -⟩
  · obtain ⟨t, hthreads⟩ : ∃ t, c'.threads = Function.update c.threads c.spawned t :=
      ⟨_, congrArg Config.threads hc'⟩
    have hnew : ∀ j, Running c' j → j = c.spawned := by
      intro j hj
      by_contra hne
      have hj := running_of_update hthreads hne hj
      unfold Running at hj
      rcases Nat.lt_or_ge j c.spawned with hlt | hge
      · rw [hone j hlt] at hj
        cases hj
      · unfold Config.nextOp at hj
        rw [hc.furnished.recorded.fresh j hge] at hj
        cases hj
    subst hc'
    refine ⟨hfurnished, hcareful, fun i j hi hj => (hnew i hi).trans (hnew j hj).symm, hc.once,
      fun i k hi hk => ?_⟩
    obtain rfl := hnew i hi
    have hfresh : histOf c.trace c.spawned = [] :=
      hc.furnished.recorded.histOf_fresh (Nat.le_refl _)
    have hk : absenceContract.ghost (histOf c.trace c.spawned) = some k := hk
    rw [hfresh] at hk
    cases hk
  · obtain ⟨t'', ha, heq⟩ := Option.map_eq_some_iff.mp he
    obtain ⟨rfl, rfl⟩ := Prod.mk.inj heq
    have hrunning : Running c i := by
      unfold Running Config.nextOp
      rw [ht]
      rfl
    obtain ⟨t, hthreads⟩ : ∃ t, c'.threads = Function.update c.threads i t :=
      ⟨_, congrArg Config.threads hc'⟩
    have hsolo : ∀ j, Running c' j → j = i := by
      intro j hj
      by_contra hne
      exact hne (hc.solo j i (running_of_update hthreads hne hj) hrunning)
    subst hc'
    refine ⟨hfurnished, hcareful, fun j j' hj hj' => (hsolo j hj).trans (hsolo j' hj').symm,
      fun k => ?_, fun j k hj hk => ?_⟩
    · rcases labelled_of_exec hc ht ha k with hsame | ⟨-, hmade⟩
      · exact hsame ▸ hc.once k
      · exact Or.inr hmade
    · obtain rfl := hsolo j hj
      have hk : absenceContract.ghost (histOf (c.trace ++ [⟨j, l, hist, c.shared, ⟨o, e o⟩⟩]) j) =
          some k := hk
      rw [histOf_snoc, if_pos rfl, Contract.ghost_snoc] at hk
      exact labelled_of_absenceShown hc hk ha
  · cases hp
  · have hthreads : c'.threads = Function.update c.threads i none := congrArg Config.threads hc'
    have hold : ∀ j, Running c' j → Running c j := by
      intro j hj
      refine running_of_update hthreads ?_ hj
      rintro rfl
      unfold Running Config.nextOp at hj
      rw [hthreads, Function.update_self] at hj
      cases hj
    subst hc'
    exact ⟨hfurnished, hcareful, fun j j' hj hj' => hc.solo j j' (hold j hj) (hold j' hj'), hc.once,
      fun j k hj hk => hc.seen j k (hold j hj) hk⟩
  · exact v.elim

/-- The tools are in order after every run in which they are started one after the other. -/
lemma orderly_run (hclean : ∀ k, t₀.labelled k = [])
    (hone : (setup T display).Throughout OneByOne (.initial t₀) as)
    (hrun : (setup T display).run (.initial t₀) as = some c) : Orderly t₀ c :=
  System.run_invariant (fun _ _ _ hc ha h => orderly_step hc ha h) (orderly_initial hclean) hone hrun

/-- Tools that run one after the other, whether they fail or are killed, leave at most one key under
each label: the objects of one call. -/
theorem provisioning_once (hclean : ∀ k, t₀.labelled k = [])
    (hone : (setup T display).Throughout OneByOne (.initial t₀) as)
    (hrun : (setup T display).run (.initial t₀) as = some c) (k : DemoKey) :
    c.shared.labelled k = [] ∨ ∃ n, c.shared.labelled k = k.made n :=
  (orderly_run hclean hone hrun).once k

end

/-- A `provision` that is killed after it has created the first key, and another one. -/
def provisionKilled : List (Action ((o : SetupOp) → o.Ans) Empty SetupTool) :=
  [.spawn .provision, .exec 0 (succeeding [] 0), .exec 0 (succeeding [] 0), .cancel 0,
    .spawn .provision, .exec 1 (succeeding [1] 2), .exec 1 (succeeding [] 2),
    .exec 1 (succeeding [] 2), .exec 1 (succeeding [] 4), .exec 1 (succeeding [] 4),
    .exec 1 (succeeding [] 5)]

/-- The second leaves the key of the first alone. -/
theorem provisioning_once_killed :
    ∃ c, (setup secretToken fun _ => "").run (.initial .empty) provisionKilled = some c ∧
      c.returned 1 = some (.provision, .provisioned (.ok
        [(demoEcKey, .alreadyPresent), (demoRsaKey, .created), (demoAesKey, .created)])) ∧
      ∀ k, c.shared.labelled k = [] ∨ ∃ n, c.shared.labelled k = k.made n := by
  have hend : ((setup secretToken fun _ => "").run (.initial .empty) provisionKilled).map
      (fun c => c.returned 1) = some (some (.provision, .provisioned (.ok
        [(demoEcKey, .alreadyPresent), (demoRsaKey, .created), (demoAesKey, .created)]))) := by
    decide +kernel
  obtain ⟨c, hrun, hc⟩ := Option.map_eq_some_iff.mp hend
  have hone : (setup secretToken fun _ => "").Throughout OneByOne (.initial .empty)
      provisionKilled := by
    decide +kernel
  exact ⟨c, hrun, hc, fun k => provisioning_once (fun k => rfl) hone hrun k⟩

/-- Two that overlap: both find the key missing, and there are two pairs. -/
example : ((setup secretToken fun _ => "").run (.initial .empty)
    [.spawn .provision, .spawn .provision, .exec 0 (succeeding [] 0), .exec 1 (succeeding [] 0),
      .exec 0 (succeeding [] 0), .exec 1 (succeeding [] 2)]).map
      (fun c => (c.shared.labelled .ec).map StoredObject.handle) = some [0, 1, 2, 3] := by
  decide +kernel

end HsmProxy
