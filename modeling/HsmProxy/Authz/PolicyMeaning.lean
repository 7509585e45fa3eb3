import HsmProxy.Authz.Policy
import HsmProxy.Collections.AssocPairs

/-!
# What a compiled policy means

A policy file lists triples of an identity, a key label and an operation; a compiled policy is an
association list of association lists of sets, that is, a set of such triples (`Policy.triples`).
The compile loop adds one grant after the other to this set (`keyPairs_addGrants`), so the triples of
the compiled policy are the triples of the file (`triples_compile`), and everything that can be
asked of a compiled policy is a question about the file.
-/

namespace HsmProxy

open AssocPairs

/-- The triples a workload entry lists. -/
def WorkloadEntry.triples (w : WorkloadEntry) : List (String × String × Operation) :=
  w.grants.flatMap fun g => g.operations.map fun operation => (w.identity, g.keyLabel, operation)

/-- The triples a policy file lists, in the order and with the repetitions of the file. -/
def PolicyFile.triples (file : PolicyFile) : List (String × String × Operation) :=
  file.workloads.flatMap WorkloadEntry.triples

/-- A file lists a triple when one of its entries has a grant that does. -/
lemma PolicyFile.mem_triples {file : PolicyFile} {identity keyLabel : String}
    {operation : Operation} :
    (identity, keyLabel, operation) ∈ file.triples ↔
      ∃ w ∈ file.workloads, w.identity = identity ∧
        ∃ g ∈ w.grants, g.keyLabel = keyLabel ∧ operation ∈ g.operations := by
  simp only [triples, WorkloadEntry.triples, List.mem_flatMap, List.mem_map, Prod.mk.injEq]
  constructor
  · rintro ⟨w, hw, g, hg, operation', hop, hidentity, hlabel, rfl⟩
    exact ⟨w, hw, hidentity, g, hg, hlabel, hop⟩
  · rintro ⟨w, hw, hidentity, g, hg, hlabel, hop⟩
    exact ⟨w, hw, g, hg, operation, hop, hidentity, hlabel, rfl⟩

namespace Policy

/-- What the grants of one identity amount to: pairs of a key label and an operation. -/
abbrev keyPairs (keys : KeyGrants) : Finset (String × Operation) := pairs id keys

/-- The triples a compiled policy allows. -/
def triples (p : Policy) : Finset (String × String × Operation) := pairs keyPairs p.grants

/-- `is_allowed` asks for membership. -/
lemma isAllowed_iff_mem (p : Policy) (identity keyLabel : String) (operation : Operation) :
    p.isAllowed identity keyLabel operation = true ↔
      (identity, keyLabel, operation) ∈ p.triples := by
  rw [triples, mem_pairs]
  unfold isAllowed content
  cases p.grants.lookup identity with
  | none => simp
  | some keys =>
    simp only [Option.map_some, Option.getD_some, mem_pairs, content]
    cases keys.lookup keyLabel with
    | none => simp
    | some ops => simp

/-- Merging grants into what an identity has adds their pairs. -/
lemma keyPairs_addGrants (perKey : KeyGrants) (grants : List GrantEntry) :
    keyPairs (addGrants perKey grants) = keyPairs perKey ∪
      (grants.flatMap fun g =>
        g.operations.map fun operation => (g.keyLabel, operation)).toFinset := by
  unfold addGrants
  induction grants generalizing perKey with
  | nil => simp
  | cons g grants ih =>
    have hcontent : (perKey.lookup g.keyLabel).getD ∅ = content id perKey g.keyLabel := by
      simp [content]
    have hone : keyPairs (perKey.insert g.keyLabel
        ((perKey.lookup g.keyLabel).getD ∅ ∪ g.operations.toFinset)) =
        keyPairs perKey ∪ g.operations.toFinset.image (Prod.mk g.keyLabel) := by
      refine pairs_insert ?_
      rw [hcontent]
      rfl
    rw [List.foldl_cons, ih, hone, Finset.union_assoc]
    congr 1
    ext p
    simp

/-- The triples of the compiled policy are those of the file. -/
theorem triples_compile (file : PolicyFile) : (compile file).triples = file.triples.toFinset := by
  have hfold : ∀ (workloads : List WorkloadEntry) (m : AList fun _ : String => KeyGrants),
      pairs keyPairs (workloads.foldl (fun m w =>
        m.insert w.identity (addGrants ((m.lookup w.identity).getD ∅) w.grants)) m) =
        pairs keyPairs m ∪ (workloads.flatMap WorkloadEntry.triples).toFinset := by
    intro workloads
    induction workloads with
    | nil => simp
    | cons w workloads ih =>
      intro m
      have hcontent : keyPairs ((m.lookup w.identity).getD ∅) = content keyPairs m w.identity := by
        unfold content
        cases m.lookup w.identity with
        | none => simp
        | some keys => rfl
      have hone : pairs keyPairs
          (m.insert w.identity (addGrants ((m.lookup w.identity).getD ∅) w.grants)) =
          pairs keyPairs m ∪ w.triples.toFinset := by
        rw [pairs_insert (by rw [keyPairs_addGrants, hcontent])]
        congr 1
        ext p
        simp only [WorkloadEntry.triples, Finset.mem_image, List.mem_toFinset, List.mem_flatMap,
          List.mem_map]
        constructor
        · rintro ⟨q, ⟨g, hg, operation, hop, rfl⟩, rfl⟩
          exact ⟨g, hg, operation, hop, rfl⟩
        · rintro ⟨g, hg, operation, hop, rfl⟩
          exact ⟨_, ⟨g, hg, operation, hop, rfl⟩, rfl⟩
      rw [List.foldl_cons, ih, hone, Finset.union_assoc, List.flatMap_cons, List.toFinset_append]
  have hcompile := hfold file.workloads ∅
  rw [pairs_empty, Finset.empty_union] at hcompile
  exact hcompile

/-- `grant_count` is the number of triples. -/
lemma grantCount_eq_card (p : Policy) : p.grantCount = p.triples.card := by
  rw [triples, card_pairs, grantCount, List.map_flatMap, List.flatMap_def, List.sum_flatten,
    List.map_map]
  refine congrArg List.sum (List.map_congr_left fun workload _ => ?_)
  exact (card_pairs (f := id)).symm

/-- Compilation preserves the meaning of the file: what is allowed is what some entry grants, in
whatever order the entries come; more entries allow more; and the grants are counted without
repetitions. -/
theorem compile_preserves_meaning (file : PolicyFile) :
    (∀ identity keyLabel operation,
      (compile file).isAllowed identity keyLabel operation = true ↔
        ∃ w ∈ file.workloads, w.identity = identity ∧
          ∃ g ∈ w.grants, g.keyLabel = keyLabel ∧ operation ∈ g.operations) ∧
    (∀ file' : PolicyFile, file'.workloads.Perm file.workloads →
      ∀ identity keyLabel operation, (compile file').isAllowed identity keyLabel operation =
        (compile file).isAllowed identity keyLabel operation) ∧
    (∀ file' : PolicyFile, file.workloads ⊆ file'.workloads →
      ∀ identity keyLabel operation,
        (compile file).isAllowed identity keyLabel operation = true →
        (compile file').isAllowed identity keyLabel operation = true) ∧
    (compile file).grantCount = file.triples.toFinset.card := by
  have hmeaning : ∀ (file : PolicyFile) identity keyLabel operation,
      (compile file).isAllowed identity keyLabel operation = true ↔
        ∃ w ∈ file.workloads, w.identity = identity ∧
          ∃ g ∈ w.grants, g.keyLabel = keyLabel ∧ operation ∈ g.operations := by
    intro file identity keyLabel operation
    rw [isAllowed_iff_mem, triples_compile, List.mem_toFinset, PolicyFile.mem_triples]
  have hmono : ∀ (file file' : PolicyFile), file.workloads ⊆ file'.workloads →
      ∀ identity keyLabel operation,
        (compile file).isAllowed identity keyLabel operation = true →
        (compile file').isAllowed identity keyLabel operation = true := by
    intro file file' hsub identity keyLabel operation hallowed
    obtain ⟨w, hw, hgrants⟩ := (hmeaning file _ _ _).mp hallowed
    exact (hmeaning file' _ _ _).mpr ⟨w, hsub hw, hgrants⟩
  refine ⟨hmeaning file, fun file' hperm identity keyLabel operation => ?_, hmono file, ?_⟩
  · exact Bool.eq_iff_iff.mpr
      ⟨hmono file' file hperm.subset _ _ _, hmono file file' hperm.symm.subset _ _ _⟩
  · rw [grantCount_eq_card, triples_compile]

end Policy

end HsmProxy
