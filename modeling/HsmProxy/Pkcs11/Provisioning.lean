import HsmProxy.Pkcs11.SetupTools

/-!
# What provisioning leaves on a token

Two facts about runs of the setup tools on one token, with calls that fail and tools that are killed.

* `provisioning_protects`: however the tools interleave, no object that was there is lost, every
  private or secret key that was added is sensitive and not extractable, and a `provision` that has
  ended well leaves every demo key present.
* `provisioning_idempotent`: where the demo keys are present, no interleaving of tools adds a key.
-/

namespace HsmProxy

open Interleaving Interleaving.Prog Setup

/-! ## The demo keys -/

/-- The token never hands the key back. -/
def StoredObject.Protected (o : StoredObject) : Prop :=
  .sensitive true ∈ o.attributes ∧ .extractable false ∈ o.attributes ∧
    .sensitive false ∉ o.attributes ∧ .extractable true ∉ o.attributes

/-- The demo keys. -/
inductive DemoKey where
  | ec
  | rsa
  | aes
  deriving DecidableEq, Repr

namespace DemoKey

/-- Its label. -/
def label : DemoKey → String
  | ec => demoEcKey
  | rsa => demoRsaKey
  | aes => demoAesKey

/-- The class it is searched under. -/
def objectClass : DemoKey → ObjectClass
  | ec => .privateKey
  | rsa => .privateKey
  | aes => .secretKey

/-- The call that creates it. -/
def generate (k : DemoKey) : SetupOp :=
  match k with
  | ec => generateEcKey ec.label
  | rsa => generateRsaKey rsa.label
  | aes => generateAesKey aes.label

/-- What it is searched by. -/
def template (k : DemoKey) : List ObjectAttribute := [.ofClass (.key k.objectClass), .label k.label]

/-- The objects of a table that is to give out the handle `n` next, after the call. -/
def made (k : DemoKey) (n : ℕ) : List StoredObject :=
  match k.generate with
  | .generateKeyPair mechanism publicTemplate privateTemplate =>
    [⟨n, .ofClass (.key .publicKey) :: publicTemplate, some ⟨mechanism, n⟩⟩,
      ⟨n + 1, .ofClass (.key .privateKey) :: privateTemplate, some ⟨mechanism, n⟩⟩]
  | .generateKey mechanism template =>
    [⟨n, .ofClass (.key .secretKey) :: template, some ⟨mechanism, n⟩⟩]
  | _ => []

/-- The objects that are made for a demo key carry its label. -/
lemma label_of_made {k : DemoKey} {n : ℕ} {o : StoredObject} (ho : o ∈ k.made n) :
    .label k.label ∈ o.attributes := by
  cases k with
  | ec =>
    obtain rfl | rfl : o = _ ∨ o = _ := by simpa [made, generate, generateEcKey] using ho
    · simp [publicKeyBase]
    · simp [privateKeyBase]
  | rsa =>
    obtain rfl | rfl : o = _ ∨ o = _ := by simpa [made, generate, generateRsaKey] using ho
    · simp [publicKeyBase]
    · simp [privateKeyBase]
  | aes =>
    obtain rfl : o = _ := by simpa [made, generate, generateAesKey] using ho
    simp

/-- Those that are private or secret keys are protected. -/
lemma protected_of_made {k : DemoKey} {n : ℕ} {o : StoredObject} {c : ObjectClass} (ho : o ∈ k.made n)
    (hc : c ≠ .publicKey) (hclass : .ofClass (.key c) ∈ o.attributes) : o.Protected := by
  cases k with
  | ec =>
    obtain rfl | rfl : o = _ ∨ o = _ := by simpa [made, generate, generateEcKey] using ho
    · simp [publicKeyBase, hc] at hclass
    · simp [StoredObject.Protected, privateKeyBase]
  | rsa =>
    obtain rfl | rfl : o = _ ∨ o = _ := by simpa [made, generate, generateRsaKey] using ho
    · simp [publicKeyBase, hc] at hclass
    · simp [StoredObject.Protected, privateKeyBase]
  | aes =>
    obtain rfl : o = _ := by simpa [made, generate, generateAesKey] using ho
    simp [StoredObject.Protected]

/-- Their handles are new. -/
lemma le_handle_of_made (k : DemoKey) {n : ℕ} {o : StoredObject} (ho : o ∈ k.made n) :
    n ≤ o.handle := by
  cases k with
  | ec =>
    obtain rfl | rfl : o = _ ∨ o = _ := by simpa [made, generate, generateEcKey] using ho
    · exact Nat.le_refl _
    · exact Nat.le_succ _
  | rsa =>
    obtain rfl | rfl : o = _ ∨ o = _ := by simpa [made, generate, generateRsaKey] using ho
    · exact Nat.le_refl _
    · exact Nat.le_succ _
  | aes =>
    obtain rfl : o = _ := by simpa [made, generate, generateAesKey] using ho
    exact Nat.le_refl _

/-- The call says which key it creates. -/
lemma generate_injective {k k' : DemoKey} (h : k.generate = k'.generate) : k = k' := by
  cases k <;> cases k' <;> first | rfl | cases h

/-- One of them is found by the search. -/
lemma exists_fits_made (k : DemoKey) (n : ℕ) : ∃ o ∈ k.made n, o.fits k.template = true := by
  cases k with
  | ec => exact ⟨_, List.mem_cons_of_mem _ (List.mem_singleton_self _), rfl⟩
  | rsa => exact ⟨_, List.mem_cons_of_mem _ (List.mem_singleton_self _), rfl⟩
  | aes => exact ⟨_, List.mem_singleton_self _, rfl⟩

end DemoKey

/-! ## What the tools may do -/

/-- The calls that leave the table as it is. -/
def SetupOp.reads : SetupOp → Bool
  | .generateKeyPair _ _ _ => false
  | .generateKey _ _ => false
  | .createObject _ => false
  | .destroyObject _ => false
  | _ => true

/-- A call that only reads leaves the table as it is. -/
lemma answer_of_reads {T : SigningToken} {t t' : ObjectTable} {o : SetupOp} {a : o.Ans}
    (ho : o.reads = true) (ha : t.answer T o a = some t') : t' = t := by
  cases a with
  | error e => cases o <;> exact (Option.some.inj ha).symm
  | ok r =>
    cases o with
    | findObjects template =>
      simp only [ObjectTable.answer, Option.ite_none_right_eq_some] at ha
      exact (Option.some.inj ha.2).symm
    | getAttributes handle types =>
      simp only [ObjectTable.answer] at ha
      split at ha
      · exact (Option.some.inj (Option.ite_none_right_eq_some.mp ha).2).symm
      · cases ha
    | sign mechanism handle data =>
      simp only [ObjectTable.answer] at ha
      split at ha
      · exact (Option.some.inj (Option.ite_none_right_eq_some.mp ha).2).symm
      · cases ha
    | verify mechanism handle data signature =>
      simp only [ObjectTable.answer] at ha
      split at ha
      · exact (Option.some.inj (Option.ite_none_right_eq_some.mp ha).2).symm
      · cases ha
    | getTokenInfo => exact (Option.some.inj ha).symm
    | logout => exact (Option.some.inj ha).symm
    | _ => cases ho

/-- The tools create demo keys and probes, and destroy the probe they have created. -/
def setupContract : Contract SetupOp.Ans (Option ObjectHandle) where
  init := none
  next g o a :=
    match o, a with
    | .createObject _, .ok handle => some handle
    | _, _ => g
  pre g o :=
    match o with
    | .createObject template => template = probeTemplate
    | .destroyObject handle => g = some handle
    | o => o.reads = true ∨ ∃ k : DemoKey, o = k.generate
  post _ _ _ := True

/-- What an answer to an allowed call does to the table. -/
inductive Effect (g : Option ObjectHandle) (t : ObjectTable) (ev : Event SetupOp.Ans)
    (t' : ObjectTable) : Prop
  | nothing (hsame : t' = t) (hg : setupContract.next g ev.1 ev.2 = g)
      (hquiet : ev.1.reads = true ∨ ∃ e, ev.2 = .error e)
  | made (k : DemoKey) (r : k.generate.Result) (hev : ev = ⟨k.generate, .ok r⟩)
      (hobjects : t'.objects = t.objects ++ k.made t.next) (hnext : t.next < t'.next)
  | probe (hev : ev = ⟨.createObject probeTemplate, .ok t.next⟩)
      (hcreate : t' = t.create probeTemplate none)
  | destroyed (handle : ObjectHandle) (hev : ev = ⟨.destroyObject handle, .ok ()⟩)
      (hown : g = some handle) (hdestroy : t' = t.destroy handle)

/-- Every allowed call has one of these effects. -/
theorem effect_of_answer {T : SigningToken} {g : Option ObjectHandle} {t t' : ObjectTable}
    {o : SetupOp} {a : o.Ans} (hpre : setupContract.pre g o) (ha : t.answer T o a = some t') :
    Effect g t ⟨o, a⟩ t' := by
  cases a with
  | error e =>
    have hsame : t = t' := by
      cases o <;> exact Option.some.inj ha
    exact .nothing hsame.symm (by cases o <;> rfl) (Or.inr ⟨e, rfl⟩)
  | ok r =>
    cases o with
    | createObject template =>
      obtain rfl : template = probeTemplate := hpre
      simp only [ObjectTable.answer, Option.ite_none_right_eq_some] at ha
      obtain ⟨rfl, ha⟩ := ha
      exact .probe rfl (Option.some.inj ha).symm
    | destroyObject handle => exact .destroyed handle rfl hpre (Option.some.inj ha).symm
    | generateKeyPair mechanism publicTemplate privateTemplate =>
      simp only [ObjectTable.answer, Option.ite_none_right_eq_some] at ha
      obtain ⟨-, ha⟩ := ha
      cases ha
      obtain h | ⟨k, hk⟩ := hpre
      · cases h
      · cases k <;> cases hk
        · exact .made .ec r rfl (by simp [ObjectTable.generateKeyPair, ObjectTable.create,
            DemoKey.made, DemoKey.generate, generateEcKey]) (Nat.lt_add_of_pos_right Nat.two_pos)
        · exact .made .rsa r rfl (by simp [ObjectTable.generateKeyPair, ObjectTable.create,
            DemoKey.made, DemoKey.generate, generateRsaKey]) (Nat.lt_add_of_pos_right Nat.two_pos)
    | generateKey mechanism template =>
      simp only [ObjectTable.answer, Option.ite_none_right_eq_some] at ha
      obtain ⟨-, ha⟩ := ha
      cases ha
      obtain h | ⟨k, hk⟩ := hpre
      · cases h
      · cases k <;> cases hk
        exact .made .aes r rfl rfl (Nat.lt_succ_self _)
    | _ => exact .nothing (answer_of_reads rfl ha) rfl (Or.inl rfl)

/-! ## The tools keep to it -/

section

variable {α : Type} {K : SetupOp → Prop} (T : SigningToken) (display : CryptokiError → String)

/-- A call makes one step. -/
lemma call_only {o : SetupOp} {context : String} (ho : K o) : Only K (call o context).run :=
  ⟨ho, fun _ => only_ret _⟩

/-- A call whose outcome is dropped makes one step. -/
lemma callIgnored_only {o : SetupOp} (ho : K o) : Only K (callIgnored o).run :=
  ⟨ho, fun _ => only_ret _⟩

/-- A search is one step. -/
lemma findObject_only {objectClass : ObjectClass} {label : String}
    (ho : K (.findObjects [.ofClass (.key objectClass), .label label])) :
    Only K (Setup.findObject objectClass label).run :=
  findObjectBy_only ⟨ho, fun _ => only_ret _⟩

/-- A key is searched for, and generated. -/
lemma ensureKey_only {objectClass : ObjectClass} {label context : String} {generate : SetupOp}
    (ho : K (.findObjects [.ofClass (.key objectClass), .label label])) (hgenerate : K generate) :
    Only K (ensureKey objectClass label generate context).run := by
  refine only_run_bind (findObject_only ho) fun found => ?_
  cases found with
  | some handle => exact only_ret _
  | none => exact only_run_bind (call_only hgenerate) fun _ => only_ret _

/-- The steps of `provision`. -/
lemma provision_only :
    Only (fun o => o.reads = true ∨ ∃ k : DemoKey, o = k.generate) provision.run := by
  refine only_run_bind (only_run_bind ?_ fun _ => only_run_bind ?_ fun _ =>
    only_run_bind ?_ fun _ => only_ret _) fun _ => only_run_bind (callIgnored_only (Or.inl rfl))
      fun _ => only_ret _
  · exact ensureKey_only (Or.inl rfl) (Or.inr ⟨.ec, rfl⟩)
  · exact ensureKey_only (Or.inl rfl) (Or.inr ⟨.rsa, rfl⟩)
  · exact ensureKey_only (Or.inl rfl) (Or.inr ⟨.aes, rfl⟩)

/-- Looking at attributes is no step. -/
lemma checkProtection_only (attributes : List ObjectAttribute) :
    Only K (checkProtection attributes).run := by
  fun_induction checkProtection attributes with
  | case1 => exact only_ret _
  | case2 => exact only_ret _
  | case3 => exact only_ret _
  | case4 _ _ _ _ ih => exact ih

/-- Checking a pair only reads. -/
lemma checkKeypair_only (label : String) :
    Only (fun o => o.reads = true) (checkKeypair T label).run := by
  refine only_run_bind (only_run_bind (findObject_only rfl) fun privateKey =>
    only_run_bind (findObject_only rfl) fun publicKey => ?_) fun found => ?_
  · cases privateKey <;> cases publicKey <;> exact only_ret _
  · cases found with
    | none => exact only_ret _
    | some keys =>
      exact only_run_bind (call_only rfl) fun _ => only_run_bind (checkProtection_only _) fun _ =>
        only_run_bind (call_only rfl) fun _ => only_run_bind (call_only rfl) fun _ => only_ret _

/-- Checking all pairs only reads. -/
lemma checkKeypairs_only (labels : List String) :
    Only (fun o => o.reads = true) (checkKeypairs T display labels).run := by
  induction labels with
  | nil => exact only_ret _
  | cons label labels ih =>
    refine only_run_bind ?_ fun _ => only_run_bind ih fun _ => only_ret _
    exact ((checkKeypair_only T label).bind fun _ => only_ret _).bind fun _ => only_ret _

/-- The verdict is no step. -/
lemma verdict_only (failures : List String) : Only K (verdict failures).run := by
  unfold verdict
  split <;> exact only_ret _

/-- And looking for the secret keys. -/
lemma checkSecretKeys_only (labels : List String) :
    Only (fun o => o.reads = true) (checkSecretKeys labels).run := by
  induction labels with
  | nil => exact only_ret _
  | cons label labels ih =>
    exact only_run_bind (findObject_only rfl) fun _ => only_run_bind ih fun _ => only_ret _

/-- The contract does not look at calls that read. -/
lemma setupContract_reads {o : SetupOp} (ho : o.reads = true) (g : Option ObjectHandle) :
    setupContract.pre g o ∧ ∀ a, setupContract.next g o a = g := by
  cases o <;> first | exact ⟨Or.inl ho, fun _ => rfl⟩ | cases ho

/-- `provision` keeps to the contract. -/
theorem provision_meets (g : Option ObjectHandle) :
    provision.run.Meets setupContract (fun _ _ => True) g := by
  refine provision_only.meets (fun o ho => ?_) fun _ => True.intro
  rcases ho with ho | ⟨k, rfl⟩
  · exact setupContract_reads ho g
  · cases k with
    | ec => exact ⟨Or.inr ⟨.ec, rfl⟩, fun _ => rfl⟩
    | rsa => exact ⟨Or.inr ⟨.rsa, rfl⟩, fun _ => rfl⟩
    | aes => exact ⟨Or.inr ⟨.aes, rfl⟩, fun _ => rfl⟩

/-- The rule for `token-check`: it reads, creates a probe, and destroys it. -/
theorem meets_tokenCheck {G : Type} {C : Contract SetupOp.Ans G} {g : G}
    (hreads : ∀ g o, o.reads = true → C.pre g o ∧ ∀ a, C.next g o a = g)
    (hcreate : ∀ g, C.pre g (.createObject probeTemplate))
    (hdestroy : ∀ g handle, C.pre (C.next g (.createObject probeTemplate) (.ok handle))
      (.destroyObject handle)) :
    (tokenCheck T display).run.Meets C (fun _ _ => True) g := by
  have hpart : ∀ {β : Type} {x : Tool β} {f : β → Tool Unit} {g : G},
      Only (fun o => o.reads = true) x.run → (∀ b, (f b).run.Meets C (fun _ _ => True) g) →
      (x >>= f).run.Meets C (fun _ _ => True) g := by
    intro β x f g hx hf
    refine (meets_run_bind _ _).mpr (hx.meets (hreads g) fun r => ?_)
    cases r with
    | ok b => exact hf b
    | error e => exact True.intro
  have hprobe : ∀ g, writeProbe.run.Meets C (fun _ _ => True) g := by
    refine fun g => ⟨hcreate g, fun created _ => ?_⟩
    cases created with
    | error e => exact True.intro
    | ok handle => exact ⟨hdestroy g handle, fun _ _ => True.intro⟩
  refine hpart (call_only rfl) fun _ => hpart (checkKeypairs_only T display _) fun keypairs =>
    hpart (checkSecretKeys_only _) fun secretKeys => ?_
  refine (meets_run_bind _ _).mpr ((meets_run_lift _).mpr ((meets_map _ _).mpr
    ((hprobe g).mono fun g' _ _ => ?_)))
  exact hpart (callIgnored_only rfl) fun _ => (verdict_only _).meets (hreads g') fun _ => True.intro

/-- `token-check` keeps to the contract. -/
theorem tokenCheck_meets (g : Option ObjectHandle) :
    (tokenCheck T display).run.Meets setupContract (fun _ _ => True) g :=
  meets_tokenCheck T display (fun g _ ho => setupContract_reads ho g) (fun _ => rfl) fun _ _ => rfl

end

/-! ## Every interleaving -/

/-- The event shows that a demo key is present: a search has found it, or it was created. -/
def Shows (k : DemoKey) (ev : Event SetupOp.Ans) : Prop :=
  (∃ handle handles, ev = ⟨.findObjects k.template, .ok (handle :: handles)⟩) ∨
    ∃ r, ev = ⟨k.generate, .ok r⟩

/-- A demo key is present, as far as `ensure_*` looks for it: of a pair, the private key. -/
def ObjectTable.Holds (t : ObjectTable) (k : DemoKey) : Prop :=
  ∃ o ∈ t.objects, o.fits k.template = true

/-- A probe is not a demo key. -/
lemma not_fits_probe (k : DemoKey) {o : StoredObject} (ho : o.attributes = probeTemplate) :
    o.fits k.template = false := by
  cases k <;> simp [StoredObject.fits, DemoKey.template, ho, probeTemplate]

/-- A search finds a demo key that is present. -/
lemma found_of_holds {T : SigningToken} {t t' : ObjectTable} {k : DemoKey}
    {handles : List ObjectHandle} (hholds : t.Holds k)
    (ha : t.answer T (.findObjects k.template) (.ok handles) = some t') : handles ≠ [] := by
  simp only [ObjectTable.answer, Option.ite_none_right_eq_some] at ha
  obtain ⟨o, ho, hfits⟩ := hholds
  have hmem : o.handle ∈ handles :=
    ha.1.symm.subset (List.mem_map_of_mem (List.mem_filter.mpr ⟨ho, hfits⟩))
  exact List.ne_nil_of_mem hmem

/-- The table of a run that began with the table `t₀`. -/
structure Furnished (t₀ t : ObjectTable) (tr : List (Entry SetupOp.Ans ObjectTable SetupTool)) :
    Prop where
  next : t₀.next ≤ t.next
  kept : ∀ o ∈ t₀.objects, o ∈ t.objects
  made : ∀ o ∈ t.objects, o ∈ t₀.objects ∨ (∃ k : DemoKey, ∃ n, o ∈ k.made n) ∨
    o.attributes = probeTemplate
  /-- What a tool may destroy is its probe. -/
  probes : ∀ i handle, setupContract.ghost (histOf tr i) = some handle →
    t₀.next ≤ handle ∧ handle < t.next ∧
      ∀ o ∈ t.objects, o.handle = handle → o.attributes = probeTemplate
  shown : ∀ en ∈ tr, ∀ k, Shows k en.event → t.Holds k

namespace Furnished

variable {t₀ t t' : ObjectTable} {tr : List (Entry SetupOp.Ans ObjectTable SetupTool)}
  {i : ℕ} {l : SetupTool} {T : SigningToken} {g : Option ObjectHandle}

/-- Nothing has happened. -/
lemma start (t₀ : ObjectTable) : Furnished t₀ t₀ [] where
  next := Nat.le_refl _
  kept _ ho := ho
  made _ ho := Or.inl ho
  probes i handle h := by cases h
  shown en hen := absurd hen List.not_mem_nil

/-- What the event shows is so. -/
lemma holds_of_shows {ev : Event SetupOp.Ans} {k : DemoKey} (ha : t.answer T ev.1 ev.2 = some t')
    (heffect : Effect g t ev t') (hshows : Shows k ev) : t'.Holds k := by
  rcases hshows with ⟨handle, handles, rfl⟩ | ⟨r, rfl⟩
  · simp only [ObjectTable.answer, Option.ite_none_right_eq_some] at ha
    obtain ⟨hperm, hsame⟩ := ha
    cases hsame
    obtain ⟨o, ho, -⟩ := List.mem_map.mp (hperm.subset List.mem_cons_self)
    exact ⟨o, List.mem_filter.mp ho⟩
  · cases heffect with
    | nothing _ _ hquiet =>
      rcases hquiet with h | ⟨e, h⟩
      · cases k <;> cases h
      · cases h
    | made k' r' hev hobjects _ =>
      obtain rfl := DemoKey.generate_injective (congrArg Sigma.fst hev)
      obtain ⟨o, ho, hfits⟩ := k.exists_fits_made t.next
      exact ⟨o, by rw [hobjects]; exact List.mem_append_right _ ho, hfits⟩
    | probe hev _ => cases k <;> cases hev
    | destroyed handle hev _ _ => cases k <;> cases hev

/-- A demo key stays present. -/
lemma holds_of_effect {ev : Event SetupOp.Ans} {k : DemoKey}
    (hprobe : ∀ handle, g = some handle → ∀ o ∈ t.objects, o.handle = handle →
      o.attributes = probeTemplate)
    (heffect : Effect g t ev t') (hholds : t.Holds k) : t'.Holds k := by
  obtain ⟨o, ho, hfits⟩ := hholds
  cases heffect with
  | nothing hsame _ _ => exact hsame ▸ ⟨o, ho, hfits⟩
  | made k' r' hev hobjects _ => exact ⟨o, by rw [hobjects]; exact List.mem_append_left _ ho, hfits⟩
  | probe hev hcreate => exact ⟨o, by rw [hcreate]; exact List.mem_append_left _ ho, hfits⟩
  | destroyed handle hev hown hdestroy =>
    refine ⟨o, ?_, hfits⟩
    rw [hdestroy]
    refine List.mem_filter.mpr ⟨ho, decide_eq_true fun heq => ?_⟩
    rw [not_fits_probe k (hprobe handle hown o ho heq)] at hfits
    cases hfits

/-- The probe of a tool after a call. -/
lemma ghost_snoc (j : ℕ) {o : SetupOp} {a : o.Ans} {hist : List (Event SetupOp.Ans)} :
    setupContract.ghost (histOf (tr ++ [⟨i, l, hist, t, ⟨o, a⟩⟩]) j) =
      if i = j then setupContract.next (setupContract.ghost (histOf tr i)) o a
      else setupContract.ghost (histOf tr j) := by
  rw [histOf_snoc]
  by_cases hij : i = j
  · subst hij
    rw [if_pos rfl, if_pos rfl, Contract.ghost_snoc]
  · rw [if_neg hij, if_neg hij]

/-- A call. -/
theorem exec (h : Furnished t₀ t tr) {o : SetupOp} {a : o.Ans} {hist : List (Event SetupOp.Ans)}
    (hpre : setupContract.pre (setupContract.ghost (histOf tr i)) o)
    (ha : t.answer T o a = some t') : Furnished t₀ t' (tr ++ [⟨i, l, hist, t, ⟨o, a⟩⟩]) := by
  have heffect := effect_of_answer hpre ha
  have hshown : ∀ en ∈ tr ++ [⟨i, l, hist, t, ⟨o, a⟩⟩], ∀ k, Shows k en.event → t'.Holds k := by
    intro en hen k hshows
    rcases List.mem_append.mp hen with hen | hen
    · exact holds_of_effect (fun handle hown => (h.probes i handle hown).2.2) heffect
        (h.shown en hen k hshows)
    · obtain rfl := List.mem_singleton.mp hen
      exact holds_of_shows ha heffect hshows
  have hsame : setupContract.next (setupContract.ghost (histOf tr i)) o a =
      setupContract.ghost (histOf tr i) → ∀ j handle,
      setupContract.ghost (histOf (tr ++ [⟨i, l, hist, t, ⟨o, a⟩⟩]) j) = some handle →
      setupContract.ghost (histOf tr j) = some handle := by
    intro hg j handle hj
    rw [ghost_snoc, hg] at hj
    split at hj
    · rename_i hij
      exact hij ▸ hj
    · exact hj
  cases heffect with
  | nothing ht hg _ =>
    subst ht
    exact ⟨h.next, h.kept, h.made, fun j handle hj => h.probes j handle (hsame hg j handle hj),
      hshown⟩
  | made k r hev hobjects hnext =>
    have hg : setupContract.next (setupContract.ghost (histOf tr i)) o a =
        setupContract.ghost (histOf tr i) := by
      cases hev
      cases k <;> rfl
    refine ⟨h.next.trans hnext.le, fun o ho => ?_, fun o ho => ?_, fun j handle hj => ?_, hshown⟩
    · rw [hobjects]
      exact List.mem_append_left _ (h.kept o ho)
    · rw [hobjects] at ho
      rcases List.mem_append.mp ho with ho | ho
      · exact h.made o ho
      · exact Or.inr (Or.inl ⟨k, _, ho⟩)
    · obtain ⟨hlow, hhigh, hprobe⟩ := h.probes j handle (hsame hg j handle hj)
      refine ⟨hlow, hhigh.trans hnext, fun o ho hhandle => ?_⟩
      rw [hobjects] at ho
      rcases List.mem_append.mp ho with ho | ho
      · exact hprobe o ho hhandle
      · exact absurd (hhandle ▸ k.le_handle_of_made ho) (Nat.not_le.mpr hhigh)
  | probe hev hcreate =>
    subst hcreate
    cases hev
    refine ⟨h.next.trans (Nat.le_succ _), fun o ho => List.mem_append_left _ (h.kept o ho),
      fun o ho => ?_, fun j handle hj => ?_, hshown⟩
    · rcases List.mem_append.mp ho with ho | ho
      · exact h.made o ho
      · obtain rfl := List.mem_singleton.mp ho
        exact Or.inr (Or.inr rfl)
    · have hold : ∀ o ∈ t.objects, o.handle ≠ t.next := fun o ho => (t.below o ho).ne
      rw [ghost_snoc] at hj
      split at hj
      · obtain rfl : t.next = handle := Option.some.inj hj
        refine ⟨h.next, Nat.lt_succ_self _, fun o ho hhandle => ?_⟩
        rcases List.mem_append.mp ho with ho | ho
        · exact absurd hhandle (hold o ho)
        · obtain rfl := List.mem_singleton.mp ho
          rfl
      · obtain ⟨hlow, hhigh, hprobe⟩ := h.probes j handle hj
        refine ⟨hlow, Nat.lt_succ_of_lt hhigh, fun o ho hhandle => ?_⟩
        rcases List.mem_append.mp ho with ho | ho
        · exact hprobe o ho hhandle
        · obtain rfl := List.mem_singleton.mp ho
          rfl
  | destroyed handle hev hown hdestroy =>
    subst hdestroy
    cases hev
    obtain ⟨hlow, hhigh, -⟩ := h.probes i handle hown
    refine ⟨h.next, fun o ho => ?_, fun o ho => h.made o (List.mem_filter.mp ho).1,
      fun j handle' hj => ?_, hshown⟩
    · refine List.mem_filter.mpr ⟨h.kept o ho, decide_eq_true fun heq => ?_⟩
      exact absurd (heq ▸ t₀.below o ho) (Nat.not_lt.mpr hlow)
    · obtain ⟨hlow', hhigh', hprobe⟩ := h.probes j handle' (hsame rfl j handle' hj)
      exact ⟨hlow', hhigh', fun o ho => hprobe o (List.mem_filter.mp ho).1⟩

end Furnished

/-- The obligations of the shared-invariant method. -/
lemma furnished_sound (T : SigningToken) (display : CryptokiError → String) (t₀ : ObjectTable) :
    System.Sound (setup T display) (fun _ _ => True) (fun _ => setupContract) (fun _ _ _ => True)
      (Furnished t₀) where
  body l _ := by
    cases l with
    | provision => exact (meets_map _ _).mpr (provision_meets _)
    | tokenCheck => exact (meets_map _ _).mpr (tokenCheck_meets T display _)
  again l g r p _ hp := by cases hp
  exec c i e l o k a s' hc _ ht hpre he := by
    obtain ⟨t', ha, heq⟩ := Option.map_eq_some_iff.mp he
    cases heq
    exact ⟨True.intro, hc.inv.exec hpre ha⟩
  cancel c i l o k hc _ _ _ := hc.inv
  env c v s' _ _ _ := v.elim

/-! ### A `provision` that ends well -/

/-- A key that is ensured is shown: it was found, or created. -/
lemma shows_of_ensureKey {k : DemoKey} {context : String} {tr : List (Event SetupOp.Ans)}
    {r : Provisioned} (h : Runs (ensureKey k.objectClass k.label k.generate context).run tr (.ok r)) :
    ∃ ev ∈ tr, Shows k ev := by
  cases h with
  | @call _ _ found _ _ h =>
    cases found with
    | error e => cases h
    | ok handles =>
      cases handles with
      | cons handle handles => exact ⟨_, List.mem_cons_self, Or.inl ⟨handle, handles, rfl⟩⟩
      | nil =>
        cases h with
        | @call _ _ generated _ _ h =>
          cases generated with
          | error e => cases h
          | ok r =>
            exact ⟨_, List.mem_cons_of_mem _ List.mem_cons_self, Or.inr ⟨r, rfl⟩⟩

/-- A `provision` that has ended well has shown every demo key. -/
theorem shows_of_provision {tr : List (Event SetupOp.Ans)} {report : List (String × Provisioned)}
    (h : Runs provision.run tr (.ok report)) (k : DemoKey) : ∃ ev ∈ tr, Shows k ev := by
  obtain ⟨e, -, he⟩ | ⟨_, tr', _, rfl, h, -⟩ := runs_run_bind h
  · cases he
  obtain ⟨e, -, he⟩ | ⟨_, tr₁, tr₂, rfl, hec, h⟩ := runs_run_bind h
  · cases he
  obtain ⟨e, -, he⟩ | ⟨_, tr₃, tr₄, rfl, hrsa, h⟩ := runs_run_bind h
  · cases he
  obtain ⟨e, -, he⟩ | ⟨_, tr₅, tr₆, rfl, haes, -⟩ := runs_run_bind h
  · cases he
  cases k with
  | ec =>
    obtain ⟨ev, hev, hshows⟩ := shows_of_ensureKey (k := .ec) hec
    exact ⟨ev, by simp [hev], hshows⟩
  | rsa =>
    obtain ⟨ev, hev, hshows⟩ := shows_of_ensureKey (k := .rsa) hrsa
    exact ⟨ev, by simp [hev], hshows⟩
  | aes =>
    obtain ⟨ev, hev, hshows⟩ := shows_of_ensureKey (k := .aes) haes
    exact ⟨ev, by simp [hev], hshows⟩

section

variable {T : SigningToken} {display : CryptokiError → String} {t₀ : ObjectTable}
  {as : List (Action ((o : SetupOp) → o.Ans) Empty SetupTool)}
  {c : Config SetupOp.Ans ObjectTable SetupTool SetupResult}

/-- What the table is after every run. -/
lemma furnished_run (hrun : (setup T display).run (.initial t₀) as = some c) :
    Furnished t₀ c.shared c.trace := by
  refine ((furnished_sound T display t₀).run ⟨System.Recorded.start (fun _ _ => rfl) ?_ rfl,
    Furnished.start t₀, ?_⟩ (System.throughout_true _ as) hrun).inv
  · exact fun i t hi => by cases hi
  · exact fun i t hi => by cases hi

/-- After a `provision` that has ended well the demo keys are present. -/
lemma holds_of_provisioned (hrun : (setup T display).run (.initial t₀) as = some c) {i : ℕ}
    {report : List (String × Provisioned)}
    (hi : c.returned i = some (.provision, .provisioned (.ok report))) (k : DemoKey) :
    c.shared.Holds k := by
  have hruns := System.runs_of_returned (System.Recorded.start (fun _ _ => rfl)
    (fun i t hi => by cases hi) rfl) (fun i t hi => by cases hi) hrun hi fun _ => rfl
  obtain ⟨outcome, hruns, heq⟩ := runs_map.mp hruns
  cases heq
  obtain ⟨ev, hev, hshows⟩ := shows_of_provision hruns k
  obtain ⟨en, hen, -, rfl⟩ := mem_histOf.mp hev
  exact (furnished_run hrun).shown en hen k hshows

/-- However the tools interleave, fail and are killed: no object is lost, the private and secret keys
that are added are protected, and after a `provision` that has ended well all demo keys are there. -/
theorem provisioning_protects (hrun : (setup T display).run (.initial t₀) as = some c) :
    (∀ o ∈ t₀.objects, o ∈ c.shared.objects) ∧
    (∀ o ∈ c.shared.objects, o ∉ t₀.objects → ∀ objectClass, objectClass ≠ .publicKey →
      .ofClass (.key objectClass) ∈ o.attributes → o.Protected) ∧
    ∀ i report, c.returned i = some (.provision, .provisioned (.ok report)) →
      ∀ k, c.shared.Holds k := by
  have hc := furnished_run hrun
  refine ⟨hc.kept, fun o ho hnew objectClass hprivate hclass => ?_,
    fun i report hi k => holds_of_provisioned hrun hi k⟩
  rcases hc.made o ho with h | ⟨k, n, hmade⟩ | hprobe
  · exact absurd h hnew
  · exact DemoKey.protected_of_made hmade hprivate hclass
  · rw [hprobe] at hclass
    simp [probeTemplate] at hclass

end

/-- A `provision` on a token that was just initialized: the tool with number `i` creates every key. -/
def provisionFresh (i n : ℕ) : List (Action ((o : SetupOp) → o.Ans) Empty SetupTool) :=
  [.spawn .provision, .exec i (succeeding [] n), .exec i (succeeding [] n),
    .exec i (succeeding [] n), .exec i (succeeding [] (n + 2)), .exec i (succeeding [] n),
    .exec i (succeeding [] (n + 4)), .exec i (succeeding [] n)]

/-- It leaves the demo keys, protected. -/
theorem provisioning_protects_fresh :
    ∃ c, (setup secretToken fun _ => "").run (.initial .empty) (provisionFresh 0 0) = some c ∧
      (∀ k, c.shared.Holds k) ∧ ∀ o ∈ c.shared.objects, ∀ objectClass, objectClass ≠ .publicKey →
        .ofClass (.key objectClass) ∈ o.attributes → o.Protected := by
  have hend : ((setup secretToken fun _ => "").run (.initial .empty) (provisionFresh 0 0)).map
      (fun c => c.returned 0) = some (some (.provision, .provisioned (.ok
        [(demoEcKey, .created), (demoRsaKey, .created), (demoAesKey, .created)]))) := by
    decide +kernel
  obtain ⟨c, hrun, hc⟩ := Option.map_eq_some_iff.mp hend
  obtain ⟨-, hprotected, hholds⟩ := provisioning_protects hrun
  exact ⟨c, hrun, hholds 0 _ hc, fun o ho => hprotected o ho List.not_mem_nil⟩

/-! ## Keys that are present -/

/-- Where the demo keys are present, a search for one finds it, and none is created. -/
def presentContract : Contract SetupOp.Ans (Option ObjectHandle) where
  init := none
  next := setupContract.next
  pre g o := setupContract.pre g o ∧ ∀ k : DemoKey, o ≠ k.generate
  post _ o a := ∀ (k : DemoKey) (handles : List ObjectHandle),
    (⟨o, a⟩ : Event SetupOp.Ans) = ⟨.findObjects k.template, .ok handles⟩ → handles ≠ []

/-- What `provision` reports then. -/
def reportPresent : List (String × Provisioned) :=
  [(demoEcKey, .alreadyPresent), (demoRsaKey, .alreadyPresent), (demoAesKey, .alreadyPresent)]

section

variable {g : Option ObjectHandle}

/-- The contract allows calls that read. -/
lemma presentContract_reads {o : SetupOp} (ho : o.reads = true) (g : Option ObjectHandle) :
    presentContract.pre g o ∧ ∀ a, presentContract.next g o a = g := by
  obtain ⟨hpre, hnext⟩ := setupContract_reads ho g
  refine ⟨⟨hpre, ?_⟩, hnext⟩
  rintro k rfl
  cases k <;> cases ho

/-- A key that is present is not created. -/
lemma ensureKey_present (k : DemoKey) (context : String) :
    (ensureKey k.objectClass k.label k.generate context).run.Meets presentContract
      (fun g' r => g' = g ∧ ∀ outcome, r = .ok outcome → outcome = .alreadyPresent) g := by
  refine ⟨(presentContract_reads rfl g).1, fun found hfound => ?_⟩
  cases found with
  | error e => exact ⟨rfl, fun outcome h => (by cases h)⟩
  | ok handles =>
    cases handles with
    | nil => exact absurd rfl (hfound k [] rfl)
    | cons handle handles =>
      refine ⟨rfl, fun outcome h => ?_⟩
      cases h
      rfl

/-- `provision` reports that the keys are present. -/
theorem provision_present :
    provision.run.Meets presentContract (fun _ r => ∀ report, r = .ok report →
      report = reportPresent) g := by
  have hstep : ∀ {β : Type} {k : DemoKey} {context : String} {f : Provisioned → Tool β}
      {Q : Option ObjectHandle → Except AnyhowError β → Prop},
      (∀ e, Q g (.error e)) → (f .alreadyPresent).run.Meets presentContract Q g →
      (ensureKey k.objectClass k.label k.generate context >>= f).run.Meets presentContract Q g := by
    intro β k context f Q herror hf
    refine (meets_run_bind _ _).mpr ((ensureKey_present k context).mono ?_)
    rintro g' r ⟨rfl, hr⟩
    cases r with
    | error e => exact herror e
    | ok outcome =>
      obtain rfl := hr outcome rfl
      exact hf
  refine (meets_run_bind _ _).mpr ?_
  refine hstep (k := .ec) (fun e report h => by cases h) ?_
  refine hstep (k := .rsa) (fun e report h => by cases h) ?_
  refine hstep (k := .aes) (fun e report h => by cases h) ?_
  refine ⟨(presentContract_reads rfl g).1, fun _ _ report h => ?_⟩
  cases h
  rfl

/-- A tool reports no key that was created. -/
def ReportsPresent : SetupResult → Prop
  | .provisioned (.ok report) => report = reportPresent
  | _ => True

/-- The obligations of the shared-invariant method. -/
lemma present_sound (T : SigningToken) (display : CryptokiError → String) {t₀ : ObjectTable}
    (hholds : ∀ k, t₀.Holds k) :
    System.Sound (setup T display) (fun _ _ => True) (fun _ => presentContract)
      (fun _ _ r => ReportsPresent r)
      (fun t tr => Furnished t₀ t tr ∧
        ∀ o ∈ t.objects, o ∈ t₀.objects ∨ o.attributes = probeTemplate) where
  body l _ := by
    cases l with
    | provision =>
      refine (meets_map _ _).mpr (provision_present.mono fun _ r hr => ?_)
      cases r with
      | ok report => exact hr report rfl
      | error e => exact True.intro
    | tokenCheck =>
      refine (meets_map _ _).mpr (meets_tokenCheck T display
        (fun g _ ho => presentContract_reads ho g) (fun _ => ⟨rfl, fun k h => ?_⟩)
        fun _ _ => ⟨rfl, fun k h => ?_⟩)
      · cases k <;> cases h
      · cases k <;> cases h
  again l g r p _ hp := by cases hp
  exec c i e l o rest a s' hc _ ht hpre he := by
    obtain ⟨t', ha, heq⟩ := Option.map_eq_some_iff.mp he
    cases heq
    obtain ⟨hfurnished, hadded⟩ := hc.inv
    refine ⟨fun k handles hev => ?_, hfurnished.exec hpre.1 ha, fun o' ho' => ?_⟩
    · generalize e o = a at ha hev
      cases hev
      obtain ⟨o', ho', hfits⟩ := hholds k
      exact found_of_holds ⟨o', hfurnished.kept o' ho', hfits⟩ ha
    · cases effect_of_answer hpre.1 ha with
      | nothing hsame _ _ => exact hadded o' (hsame ▸ ho')
      | made k r hev _ _ => exact absurd (congrArg Sigma.fst hev) (hpre.2 k)
      | probe hev hcreate =>
        rw [hcreate] at ho'
        rcases List.mem_append.mp ho' with ho' | ho'
        · exact hadded o' ho'
        · obtain rfl := List.mem_singleton.mp ho'
          exact Or.inr rfl
      | destroyed handle hev _ hdestroy =>
        rw [hdestroy] at ho'
        exact hadded o' (List.mem_filter.mp ho').1
  cancel c i l o k hc _ _ _ := hc.inv
  env c v s' _ _ _ := v.elim

/-- Provisioning is idempotent, also while tools interleave, fail and are killed: where the demo keys
are present no key is added, nothing is lost, and `provision` reports that all were present. -/
theorem provisioning_idempotent {T : SigningToken} {display : CryptokiError → String}
    {t₀ : ObjectTable} {as : List (Action ((o : SetupOp) → o.Ans) Empty SetupTool)}
    {c : Config SetupOp.Ans ObjectTable SetupTool SetupResult} (hholds : ∀ k, t₀.Holds k)
    (hrun : (setup T display).run (.initial t₀) as = some c) :
    (∀ o ∈ t₀.objects, o ∈ c.shared.objects) ∧
    (∀ o ∈ c.shared.objects, o ∈ t₀.objects ∨ o.attributes = probeTemplate) ∧
    ∀ i report, c.returned i = some (.provision, .provisioned (.ok report)) →
      report = reportPresent := by
  have hc := (present_sound T display hholds).run ⟨System.Recorded.start (fun _ _ => rfl)
    (fun i t hi => by cases hi) rfl, ⟨Furnished.start t₀, fun o ho => Or.inl ho⟩,
    fun i t hi => by cases hi⟩ (System.throughout_true _ as) hrun
  refine ⟨hc.inv.1.kept, hc.inv.2, fun i report hi => ?_⟩
  obtain ⟨hist, ht⟩ := System.exists_returned hi
  exact hc.threads i _ ht

end

/-- The table on which the demo keys were created one after the other. -/
def demoTable : ObjectTable where
  objects := DemoKey.ec.made 0 ++ DemoKey.rsa.made 2 ++ DemoKey.aes.made 4
  next := 5
  below := by decide +kernel
  distinct := by decide +kernel

/-- A `provision` on it creates nothing. -/
theorem provisioning_idempotent_again :
    ∃ c, (setup secretToken fun _ => "").run (.initial demoTable)
        [.spawn .provision, .exec 0 (succeeding [1] 0), .exec 0 (succeeding [3] 0),
          .exec 0 (succeeding [4] 0), .exec 0 (succeeding [] 0)] = some c ∧
      (∀ o ∈ c.shared.objects, o ∈ demoTable.objects ∨ o.attributes = probeTemplate) ∧
      c.returned 0 = some (.provision, .provisioned (.ok reportPresent)) := by
  have hend : ((setup secretToken fun _ => "").run (.initial demoTable)
      [.spawn .provision, .exec 0 (succeeding [1] 0), .exec 0 (succeeding [3] 0),
        .exec 0 (succeeding [4] 0), .exec 0 (succeeding [] 0)]).map (fun c => c.returned 0) =
      some (some (.provision, .provisioned (.ok reportPresent))) := by
    decide +kernel
  obtain ⟨c, hrun, hc⟩ := Option.map_eq_some_iff.mp hend
  have hholds : ∀ k, demoTable.Holds k := by
    intro k
    cases k <;> (unfold ObjectTable.Holds; decide +kernel)
  exact ⟨c, hrun, (provisioning_idempotent hholds hrun).2.1, hc⟩

end HsmProxy
