import HsmProxy.Pkcs11.WorkerSteps

/-!
# A token whose keys are rotated

`ObjectStore` is what a token knows of public keys: its objects, and which object carries a label.
Searches and reads are answered from it, though any of them may fail; a `Rotation` puts a new object
under a label and destroys the old one or leaves it without the label.

`execute_export` says what a `GetPublicKey` job makes of the object it reads: unless a search or a
read fails, the key of that object.
-/

namespace HsmProxy

open Interleaving Interleaving.Prog

/-! ## The store -/

/-- A public key object: its answer to a request for attributes. -/
structure KeyObject where
  attributes : List AttributeType → List Attribute

/-- The public key objects of a token, and the object that carries a label. -/
structure ObjectStore where
  objects : ObjectHandle → Option KeyObject
  bound : String → Option ObjectHandle
  /-- Who carries a label exists. -/
  isSome_of_bound : ∀ label h, bound label = some h → (objects h).isSome
  /-- An object carries one label. -/
  label_unique : ∀ label label' h, bound label = some h → bound label' = some h → label = label'

/-- A new object takes a label; the old one is destroyed, or loses the label. -/
structure Rotation where
  label : String
  handle : ObjectHandle
  object : KeyObject
  destroys : Bool

namespace ObjectStore

/-- The object under a label. -/
def boundObject (s : ObjectStore) (label : String) : Option KeyObject :=
  (s.bound label).bind s.objects

/-- The token without public keys. -/
def empty : ObjectStore where
  objects _ := none
  bound _ := none
  isSome_of_bound _ _ h := nomatch h
  label_unique _ _ _ h := nomatch h

/-- The answers the token may give: a search finds the object under the label, a read returns the
attributes of the object, and anything may fail. -/
def answer (s : ObjectStore) : (o : TokenOp) → o.Ans → Option ObjectStore
  | .findObjects _ .publicKey label, .ok found =>
    if found = (s.bound label).toList then some s else none
  | .getAttributes _ handle types, .ok attrs =>
    match s.objects handle with
    | some object => if attrs = object.attributes types then some s else none
    | none => none
  | _, _ => some s

/-- The objects after a rotation. -/
def rotatedObjects (s : ObjectStore) (r : Rotation) (h : ObjectHandle) : Option KeyObject :=
  if h = r.handle then some r.object
  else if r.destroys ∧ s.bound r.label = some h then none
  else s.objects h

/-- The labels after a rotation. -/
def rotatedBound (s : ObjectStore) (r : Rotation) (label : String) : Option ObjectHandle :=
  if label = r.label then some r.handle else s.bound label

/-- A rotation, to an object with a new handle. -/
def rotate (s : ObjectStore) (r : Rotation) : ObjectStore :=
  if hfresh : s.objects r.handle = none then
    { objects := s.rotatedObjects r
      bound := s.rotatedBound r
      isSome_of_bound := by
        intro label h hbound
        unfold rotatedObjects
        split
        · rfl
        · rename_i hne
          unfold rotatedBound at hbound
          split at hbound
          · exact absurd (Option.some.inj hbound).symm hne
          · rename_i hlabel
            rw [if_neg fun hold => hlabel (s.label_unique label r.label h hbound hold.2)]
            exact s.isSome_of_bound label h hbound
      label_unique := by
        have hnew : ∀ label, s.bound label ≠ some r.handle := by
          intro label hbound
          have hsome := s.isSome_of_bound label _ hbound
          rw [hfresh] at hsome
          cases hsome
        intro label label' h hbound hbound'
        unfold rotatedBound at hbound hbound'
        split at hbound <;> split at hbound'
        · rename_i hlabel hlabel'
          exact hlabel.trans hlabel'.symm
        · exact absurd (hbound'.trans hbound.symm) (hnew label')
        · exact absurd (hbound.trans hbound'.symm) (hnew label)
        · exact s.label_unique label label' h hbound hbound' }
  else s

/-- No answer changes the store. -/
lemma answer_eq {s s' : ObjectStore} {o : TokenOp} {a : o.Ans} (h : s.answer o a = some s') :
    s' = s := by
  cases o with
  | findObjects session objectClass label =>
    cases objectClass with
    | publicKey =>
      cases a with
      | error e => exact (Option.some.inj h).symm
      | ok found =>
        simp only [answer] at h
        split at h
        · exact (Option.some.inj h).symm
        · cases h
    | _ => cases a <;> exact (Option.some.inj h).symm
  | getAttributes session handle types =>
    cases a with
    | error e => exact (Option.some.inj h).symm
    | ok attrs =>
      simp only [answer] at h
      split at h
      · split at h
        · exact (Option.some.inj h).symm
        · cases h
      · cases h
  | _ => exact (Option.some.inj h).symm

/-- A search that succeeds finds the object under the label. -/
lemma answer_findObjects {s s' : ObjectStore} {session : SessionHandle} {label : String}
    {found : List ObjectHandle}
    (h : s.answer (.findObjects session .publicKey label) (.ok found) = some s') :
    found = (s.bound label).toList := by
  simp only [answer] at h
  split at h
  · assumption
  · cases h

/-- A read that succeeds returns the attributes of the object. -/
lemma answer_getAttributes {s s' : ObjectStore} {session : SessionHandle} {handle : ObjectHandle}
    {types : List AttributeType} {attrs : List Attribute}
    (h : s.answer (.getAttributes session handle types) (.ok attrs) = some s') :
    ∃ object, s.objects handle = some object ∧ attrs = object.attributes types := by
  simp only [answer] at h
  split at h
  · rename_i object hobject
    split at h
    · rename_i hattrs
      exact ⟨object, hobject, hattrs⟩
    · cases h
  · cases h

end ObjectStore

/-- The token with such a store. -/
abbrev TokenModel.objectStore : TokenModel where
  State := ObjectStore
  Change := Rotation
  answer := ObjectStore.answer
  change := ObjectStore.rotate

/-- The platform around such a token. -/
abbrev Platform.rotating (P : Platform) : Platform := { P with token := TokenModel.objectStore }

/-! ## The key of an object -/

section

variable (P : Platform)

/-- The key of an object, as `public_key_to_spki_der` computes it from the attributes. -/
def KeyObject.spki (object : KeyObject) : Except AnyhowError (Bytes × String) :=
  match (object.attributes [.keyType]).head? with
  | some (.keyType .ec) => do return (← ecSpkiOf P (object.attributes [.ecPoint]), "EC")
  | some (.keyType .rsa) =>
    do return (← rsaSpkiOf P (object.attributes [.modulus, .publicExponent]), "RSA")
  | other => .error (anyhow s!"unsupported public key type: {P.debugAttribute other}")

/-- The key under a label. -/
def ObjectStore.keyAt (s : ObjectStore) (label : String) : Option CachedPublicKey :=
  match (s.boundObject label).map (KeyObject.spki P) with
  | some (.ok (spkiDer, keyType)) => some ⟨spkiDer, keyType⟩
  | _ => none

/-- A search or a read that does not give an object. -/
def troubles : Event Op.Ans → Bool
  | ⟨.token (.findObjects _ _ _), .error _⟩ => true
  | ⟨.token (.findObjects _ _ _), .ok []⟩ => true
  | ⟨.token (.getAttributes _ _ _), .error _⟩ => true
  | _ => false

/-- A program relies on reading one object, and it is noted whether a search or a read failed. -/
def exportContract (object : KeyObject) : Contract Op.Ans Bool where
  init := false
  next g o a := g || troubles ⟨o, a⟩
  pre _ _ := True
  post _
    | .token (.getAttributes _ _ types), answer => ∀ attrs, answer = .ok attrs →
        attrs = object.attributes types
    | _, _ => True

/-- What is known at the end of a program that should compute `r₀`. -/
def Exports {α ε : Type} (r₀ : Except ε α) (g : Bool) (r : Except ε α) : Prop :=
  g = true ∧ (∃ e, r = .error e) ∨ r = r₀

variable (object : KeyObject)

/-- Reading an EC point. -/
lemma ecSpki_export (session : SessionHandle) (key : ObjectHandle) (g : Bool) :
    (ecSpki P session key).run.Meets (exportContract object)
      (Exports (ecSpkiOf P (object.attributes [.ecPoint]))) g := by
  refine (meets_run_bind _ _).mpr ⟨True.intro, fun answer hanswer => ?_⟩
  cases answer with
  | error e => exact Or.inl ⟨Bool.or_true g, _, rfl⟩
  | ok attrs =>
    obtain rfl := hanswer attrs rfl
    exact Or.inr rfl

/-- Reading an RSA key. -/
lemma rsaSpki_export (session : SessionHandle) (key : ObjectHandle) (g : Bool) :
    (rsaSpki P session key).run.Meets (exportContract object)
      (Exports (rsaSpkiOf P (object.attributes [.modulus, .publicExponent]))) g := by
  refine (meets_run_bind _ _).mpr ⟨True.intro, fun answer hanswer => ?_⟩
  cases answer with
  | error e => exact Or.inl ⟨Bool.or_true g, _, rfl⟩
  | ok attrs =>
    obtain rfl := hanswer attrs rfl
    exact Or.inr rfl

/-- Reading a key. -/
lemma publicKeyToSpkiDer_export (session : SessionHandle) (key : ObjectHandle) (g : Bool) :
    (publicKeyToSpkiDer P session key).run.Meets (exportContract object)
      (Exports (object.spki P)) g := by
  refine (meets_run_bind _ _).mpr ⟨True.intro, fun answer hanswer => ?_⟩
  cases answer with
  | error e => exact Or.inl ⟨Bool.or_true g, _, rfl⟩
  | ok attrs =>
    obtain rfl := hanswer attrs rfl
    unfold KeyObject.spki
    show Meets _ _ _ (ExceptT.run (match (object.attributes [.keyType]).head? with
      | some (.keyType .ec) => _
      | some (.keyType .rsa) => _
      | other => _))
    split
    · refine (meets_run_bind _ _).mpr ((ecSpki_export P object session key _).mono fun g' r hr => ?_)
      rcases hr with ⟨htrouble, e, rfl⟩ | rfl
      · exact Or.inl ⟨htrouble, e, rfl⟩
      · cases ecSpkiOf P (object.attributes [.ecPoint]) <;> exact Or.inr rfl
    · refine (meets_run_bind _ _).mpr
        ((rsaSpki_export P object session key _).mono fun g' r hr => ?_)
      rcases hr with ⟨htrouble, e, rfl⟩ | rfl
      · exact Or.inl ⟨htrouble, e, rfl⟩
      · cases rsaSpkiOf P (object.attributes [.modulus, .publicExponent]) <;> exact Or.inr rfl
    · exact Or.inr rfl

/-- Executing a job for a public key. -/
lemma execute_exports (w : Worker) (label : String) :
    (Worker.execute P w (.getPublicKey label)).Meets (exportContract object)
      (fun g r => Exports (exportResult (object.spki P)) g r.1) false := by
  have hoperation : ∀ (w₁ : Worker) (key : ObjectHandle) (g : Bool),
      Meets (exportContract object) (fun g r => Exports (exportResult (object.spki P)) g r.1) g
        (Worker.operation P (.getPublicKey label) w₁.session key >>= fun result =>
          if Worker.needsReset result then do return (result, ← Worker.resetSession P w₁)
          else return (result, w₁)) := by
    intro w₁ key g
    simp only [Worker.operation]
    rw [meets_bind, meets_map]
    refine (publicKeyToSpkiDer_export P object w₁.session key g).mono fun g' r hr => ?_
    -- the result of an export never says that the session is unusable
    have hreset : Worker.needsReset (exportResult r) = false := by
      rcases r with e | ⟨spkiDer, keyType⟩ <;> rfl
    rw [hreset]
    rcases hr with ⟨htrouble, e, rfl⟩ | rfl
    · exact Or.inl ⟨htrouble, _, rfl⟩
    · exact Or.inr rfl
  rw [Worker.execute_eq]
  unfold Worker.resolve
  cases w.cached (JobRequest.getPublicKey label).kind (JobRequest.getPublicKey label).keyLabel with
  | some key => exact ⟨True.intro, fun _ _ => hoperation w key _⟩
  | none =>
    refine ⟨True.intro, fun _ _ => ⟨True.intro, fun found _ => ?_⟩⟩
    rcases found with e | (_ | ⟨key, rest⟩)
    · exact Or.inl ⟨rfl, _, rfl⟩
    · exact Or.inl ⟨rfl, _, rfl⟩
    · exact hoperation (w.store _ _ key) key _

variable {P object}

/-- Trouble that is noted was there. -/
lemma exists_of_foldl_troubles {tr : List (Event Op.Ans)} {g : Bool}
    (h : tr.foldl (fun g ev => g || troubles ev) g = true) :
    g = true ∨ ∃ ev ∈ tr, troubles ev = true := by
  induction tr generalizing g with
  | nil => exact Or.inl h
  | cons ev tr ih =>
    rcases ih h with hg | ⟨ev', hev', htrouble⟩
    · rcases (Bool.or_eq_true _ _).mp hg with hg | hg
      · exact Or.inl hg
      · exact Or.inr ⟨ev, List.mem_cons_self, hg⟩
    · exact Or.inr ⟨ev', List.mem_cons_of_mem _ hev', htrouble⟩

/-- What a job for a public key is answered when it reads one object: the key of that object, unless
a search or a read fails, and an error if so. -/
theorem execute_export {w w' : Worker} {label : String} {calls : List (Event Op.Ans)} {r : JobResult}
    (h : Runs (Worker.execute P w (.getPublicKey label)) calls (r, w'))
    (hread : ∀ session handle types attrs,
      (⟨.token (.getAttributes session handle types), .ok attrs⟩ : Event Op.Ans) ∈ calls →
        attrs = object.attributes types) :
    (∃ ev ∈ calls, troubles ev = true) ∧ (∃ e, r = .error e) ∨ r = exportResult (object.spki P) := by
  have hpost : ∀ g, ∀ ev ∈ calls, (exportContract object).post g ev.1 ev.2 := by
    rintro g ⟨o, a⟩ hev
    cases o with
    | token q =>
      cases q with
      | getAttributes session handle types =>
        rintro attrs rfl
        exact hread session handle types attrs hev
      | _ => exact True.intro
    | _ => exact True.intro
  rcases (execute_exports P object w label).runs h hpost with ⟨htrouble, herror⟩ | hr
  · rcases exists_of_foldl_troubles htrouble with hfalse | hexists
    · cases hfalse
    · exact Or.inl ⟨hexists, herror⟩
  · exact Or.inr hr

end

end HsmProxy
