import HsmProxy.Collections.Selection
import HsmProxy.Service.CrossTalk

/-!
# A token that keeps its keys

`Vault` is a token whose objects stay: each has a handle, a class, a label and a key, and objects
under one label are of one key, as the two halves of a pair are.  Objects may be added at any time,
any call may fail, and what a call on an object may answer is up to `allows`, a relation between the
key and the answer.

`key_of_found` says of every run of pool mode that a handle a worker has found under a label stands
for the key of that label, and `answered_of_run` that every call was answered from the vault.
-/

namespace HsmProxy

open Interleaving Interleaving.Prog

/-! ## The token -/

/-- An object of a token. -/
structure VaultObject (K : Type) where
  handle : ObjectHandle
  objectClass : ObjectClass
  label : String
  key : K

/-- The objects of a token. -/
structure Vault (K : Type) where
  objects : List (VaultObject K)
  /-- A handle names one object. -/
  handles : (objects.map VaultObject.handle).Nodup
  /-- Objects under one label are of one key. -/
  coherent : ∀ o ∈ objects, ∀ o' ∈ objects, o.label = o'.label → o.key = o'.key

namespace Vault

variable {K : Type}

/-- The key behind a handle. -/
def key (v : Vault K) (handle : ObjectHandle) : Option K :=
  (v.objects.find? fun o => decide (o.handle = handle)).map VaultObject.key

/-- The handles of a class of objects under a label. -/
def search (v : Vault K) (objectClass : ObjectClass) (label : String) : List ObjectHandle :=
  (v.objects.filter fun o => decide (o.objectClass = objectClass ∧ o.label = label)).map
    VaultObject.handle

/-- Which answers agree with the vault: a search that succeeds finds the objects of the class under
the label, and a call on an object is answered as its key allows. -/
def agrees (allows : K → (o : TokenOp) → o.Ans → Bool) (v : Vault K) : (o : TokenOp) → o.Ans → Bool
  | .findObjects _ objectClass label, .ok found => decide (found = v.search objectClass label)
  | o, a =>
    match (Op.token o).usesHandle with
    | some (_, handle) => (v.key handle).all fun k => allows k o a
    | none => true

/-- The token gives answers that agree with the vault, and keeps it. -/
def answer (allows : K → (o : TokenOp) → o.Ans → Bool) (v : Vault K) (o : TokenOp) (a : o.Ans) :
    Option (Vault K) :=
  if v.agrees allows o a then some v else none

/-- The key of a label. -/
def keyOf (v : Vault K) (label : String) : Option K :=
  (v.objects.find? fun o => decide (o.label = label)).map VaultObject.key

/-- Every object under a label is of the key of the label. -/
lemma key_eq_of_label (v : Vault K) {o : VaultObject K} (ho : o ∈ v.objects) :
    v.keyOf o.label = some o.key := by
  unfold keyOf
  cases hfind : v.objects.find? fun o' => decide (o'.label = o.label) with
  | none =>
    have hnone := List.find?_eq_none.mp hfind _ ho
    simp at hnone
  | some o' =>
    have hlabel : o'.label = o.label := by simpa using List.find?_some hfind
    exact congrArg some (v.coherent o' (List.mem_of_find?_eq_some hfind) o ho hlabel)

/-- An object is added, under a handle that is not in use; under a label that is in use it is of the
key of the label. -/
def add (v : Vault K) (new : VaultObject K) : Vault K :=
  if hnew : new.handle ∉ v.objects.map VaultObject.handle then
    { objects := { new with key := (v.keyOf new.label).getD new.key } :: v.objects
      handles := List.nodup_cons.mpr ⟨hnew, v.handles⟩
      coherent := by
        have hkey : ∀ o ∈ v.objects, o.label = new.label →
            o.key = (v.keyOf new.label).getD new.key := by
          intro o ho hlabel
          rw [← hlabel, v.key_eq_of_label ho]
          rfl
        intro o ho o' ho' hlabel
        rcases List.mem_cons.mp ho with rfl | hold <;> rcases List.mem_cons.mp ho' with rfl | hold'
        · rfl
        · exact (hkey o' hold' hlabel.symm).symm
        · exact hkey o hold hlabel
        · exact v.coherent o hold o' hold' hlabel }
  else v

/-- No object is lost. -/
lemma subset_add (v : Vault K) (new : VaultObject K) : v.objects ⊆ (v.add new).objects := by
  unfold add
  split
  · exact List.subset_cons_self _ _
  · exact List.Subset.refl _

/-- The key behind the handle of an object. -/
lemma key_of_mem {v : Vault K} {o : VaultObject K} (h : o ∈ v.objects) :
    v.key o.handle = some o.key := by
  unfold key
  rw [Selection.find?_eq_some_of_nodup v.handles h]
  rfl

/-- A search that succeeds finds objects of the class under the label. -/
lemma mem_of_agrees {allows : K → (o : TokenOp) → o.Ans → Bool} {v : Vault K}
    {session : SessionHandle} {objectClass : ObjectClass} {label : String}
    {found : List ObjectHandle}
    (h : v.agrees allows (.findObjects session objectClass label) (.ok found) = true)
    {handle : ObjectHandle} (hhandle : handle ∈ found) :
    ∃ k, ⟨handle, objectClass, label, k⟩ ∈ v.objects := by
  obtain rfl : found = v.search objectClass label := of_decide_eq_true h
  obtain ⟨o, ho, rfl⟩ := List.mem_map.mp hhandle
  obtain ⟨hmem, hkind⟩ := List.mem_filter.mp ho
  obtain ⟨rfl, rfl⟩ := of_decide_eq_true hkind
  exact ⟨o.key, hmem⟩

end Vault

/-- The token with such a vault. -/
abbrev TokenModel.vault {K : Type} (allows : K → (o : TokenOp) → o.Ans → Bool) :
    TokenModel where
  State := Vault K
  Change := VaultObject K
  answer := Vault.answer allows
  change := Vault.add

/-- The platform around such a token. -/
abbrev Platform.keeping (P : Platform) {K : Type}
    (allows : K → (o : TokenOp) → o.Ans → Bool) : Platform :=
  { P with token := .vault allows }

/-! ## Every call is answered from the vault -/

section

variable {P : Platform} {K : Type} {allows : K → (o : TokenOp) → o.Ans → Bool} {cfg : ServiceConfig}

/-- What a log has found is in the vault. -/
def FoundIn (v : Vault K) (g : HandleLog) : Prop :=
  ∀ f ∈ g.found, ∃ k, ⟨f.handle, f.objectClass, f.label, k⟩ ∈ v.objects

/-- What was found in a vault stays there when objects are added. -/
lemma FoundIn.mono {v v' : Vault K} {g : HandleLog} (h : FoundIn v g) (hsub : v.objects ⊆ v'.objects) :
    FoundIn v' g := by
  intro f hf
  obtain ⟨k, hk⟩ := h f hf
  exact ⟨k, hsub hk⟩

/-- One more event: what it finds, if it is a search, is in the vault. -/
lemma FoundIn.note {v : Vault K} {g : HandleLog} (h : FoundIn v g) {ev : Event Op.Ans}
    (hev : ∀ o a, ev = ⟨.token o, a⟩ → v.agrees allows o a = true) : FoundIn v (g.note ev) := by
  obtain ⟨o, a⟩ := ev
  cases o with
  | pool q =>
    cases q with
    | poll => cases a <;> exact h
    | unpark => cases a <;> exact h
    | count counter n =>
      cases counter with
      | sessionResets => exact fun f hf => absurd hf List.not_mem_nil
      | _ => exact h
    | _ => exact h
  | token t =>
    cases t with
    | findObjects session objectClass label =>
      rcases a with e | (_ | ⟨handle, rest⟩)
      · exact h
      · exact h
      · intro f hf
        rcases List.mem_append.mp hf with hf | hf
        · exact h f hf
        · obtain rfl := List.mem_singleton.mp hf
          exact Vault.mem_of_agrees (hev _ _ rfl) List.mem_cons_self
    | _ => exact h
  | _ => exact h

/-- A call is answered from the vault, and leaves it as it is. -/
lemma execOp_call {s s' : Shared (P.keeping allows)} {e : Choice} {i : ℕ} {o : TokenOp} {a : o.Ans}
    (he : execOp cfg e i s (.token o) = some (a, s')) :
    s.token.agrees allows o a = true ∧ s'.token = s.token := by
  simp only [execOp] at he
  obtain ⟨v, hv, heq⟩ := Option.map_eq_some_iff.mp he
  cases heq
  simp only [Vault.answer] at hv
  split at hv
  · rename_i hagrees
    exact ⟨hagrees, (Option.some.inj hv).symm⟩
  · cases hv

/-- The vault and the trace: what a party has found is there, and was there at each of its steps,
and the vault has only grown since. -/
structure VaultInv (s : Shared (P.keeping allows))
    (tr : List (Entry Op.Ans (Shared (P.keeping allows)) Party)) : Prop where
  found : ∀ i, FoundIn s.token (handleLog (histOf tr i))
  grown : ∀ en ∈ tr, en.before.token.objects ⊆ s.token.objects
  entries : ∀ en ∈ tr, FoundIn en.before.token (handleLog en.hist)

namespace VaultInv

variable {s s' : Shared (P.keeping allows)}
  {tr : List (Entry Op.Ans (Shared (P.keeping allows)) Party)}

/-- The vault grows, or stays as it is. -/
lemma grow (h : VaultInv s tr) (hsub : s.token.objects ⊆ s'.token.objects) : VaultInv s' tr :=
  ⟨fun i => (h.found i).mono hsub, fun en hen => List.Subset.trans (h.grown en hen) hsub, h.entries⟩

/-- One operation. -/
lemma exec (h : VaultInv s tr) {e : Choice} {i : ℕ} {l : Party} {o : Op} {a : o.Ans}
    (he : execOp cfg e i s o = some (a, s')) :
    VaultInv s' (tr ++ [⟨i, l, histOf tr i, s, ⟨o, a⟩⟩]) := by
  have hcall : ∀ t b, (⟨o, a⟩ : Event Op.Ans) = ⟨.token t, b⟩ → s.token.agrees allows t b = true := by
    intro t b hev
    cases hev
    exact (execOp_call he).1
  have htoken : s'.token = s.token := by
    by_cases ho : ∃ t, o = .token t
    · obtain ⟨t, rfl⟩ := ho
      exact (execOp_call he).2
    · exact (execOp_frame he).token fun t ht => ho ⟨t, ht⟩
  refine ⟨fun j => ?_, fun en hen => ?_, fun en hen => ?_⟩
  · rw [histOf_snoc, htoken]
    split
    · rename_i hij
      obtain rfl : i = j := hij
      rw [handleLog_snoc]
      exact (h.found i).note hcall
    · exact h.found j
  · rw [htoken]
    rcases List.mem_append.mp hen with hen | hen
    · exact h.grown en hen
    · obtain rfl := List.mem_singleton.mp hen
      exact List.Subset.refl _
  · rcases List.mem_append.mp hen with hen | hen
    · exact h.entries en hen
    · obtain rfl := List.mem_singleton.mp hen
      exact h.found i

end VaultInv

variable {t₀ : ℕ} {sessions : List SessionHandle} {token : Vault K}
  {as : List (Action Choice (EnvAction (P.keeping allows)) Party)}
  {c : Config Op.Ans (Shared (P.keeping allows)) Party ThreadResult}

/-- After every run, what the parties have found is in the vault. -/
lemma vaultInv_run (hrun : (pooledProxy (P.keeping allows) cfg).run
    (started (P.keeping allows) t₀ sessions token) as = some c) : VaultInv c.shared c.trace := by
  refine (System.run_trace_invariant (fun c i e l o k a s' _ hI _ he => hI.exec he)
    (fun c i l _ hI => ?_) (fun c v s' _ hI hv => ?_) recorded_started ?_ hrun).2
  · cases l <;> exact hI.grow (List.Subset.refl _)
  · obtain rfl := Option.some.inj hv
    cases v with
    | changeToken new => exact hI.grow (Vault.subset_add _ new)
    | _ => exact hI.grow (List.Subset.refl _)
  · exact ⟨fun i f hf => absurd hf List.not_mem_nil, fun en hen => absurd hen List.not_mem_nil,
      fun en hen => absurd hen List.not_mem_nil⟩

/-- A handle that a worker had found when it made a call stood for a key, which is now in the vault
under the same label. -/
theorem key_of_found (hrun : (pooledProxy (P.keeping allows) cfg).run
      (started (P.keeping allows) t₀ sessions token) as = some c)
    {en : Entry Op.Ans (Shared (P.keeping allows)) Party} (hen : en ∈ c.trace) {f : Search}
    (hfound : f ∈ (handleLog en.hist).found) :
    ∃ o ∈ c.shared.token.objects, o.label = f.label ∧ en.before.token.key f.handle = some o.key := by
  have hvault : VaultInv c.shared c.trace := vaultInv_run hrun
  obtain ⟨k, hk⟩ := hvault.entries en hen f hfound
  exact ⟨_, hvault.grown en hen hk, rfl, Vault.key_of_mem hk⟩

/-- A call in the trace was answered from the vault as it was then. -/
theorem answered_of_run (hrun : (pooledProxy (P.keeping allows) cfg).run
      (started (P.keeping allows) t₀ sessions token) as = some c)
    {en : Entry Op.Ans (Shared (P.keeping allows)) Party} (hen : en ∈ c.trace) {o : TokenOp}
    {a : o.Ans} (hevent : en.event = ⟨.token o, a⟩) : en.before.token.agrees allows o a = true := by
  obtain ⟨e, s', he⟩ := System.run_executed recorded_started rfl hrun en hen
  rw [hevent] at he
  have hcall : execOp cfg e en.tid en.before (.token o) = some (a, s') := he
  exact (execOp_call hcall).1

end

end HsmProxy
