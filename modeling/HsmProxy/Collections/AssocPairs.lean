import Mathlib.Algebra.BigOperators.Group.Finset.Basic
import Mathlib.Algebra.BigOperators.Group.Finset.Sigma
import Mathlib.Algebra.GroupWithZero.Nat
import Mathlib.Data.List.AList

/-!
# Association lists read as relations

An association list whose values stand for finite sets is a finite relation between keys and
members: `AssocPairs.pairs f m` is the set of pairs of a key and a member of the content `f` of its
value.  Nesting is iteration: when the values are association lists again, their content is the set
of their own pairs.

`pairs_insert` says what replacing the value of a key does to the relation, and `card_pairs` that
the number of pairs is the sum of the sizes of the contents.
-/

namespace AssocPairs

variable {α β γ : Type} [DecidableEq α]

/-- The content of the value of a key; empty when the key is absent. -/
def content (f : β → Finset γ) (m : AList fun _ : α => β) (a : α) : Finset γ :=
  ((m.lookup a).map f).getD ∅

variable {f : β → Finset γ} {m : AList fun _ : α => β} {a : α} {c : γ}

/-- An absent key has no content. -/
lemma content_of_notMem (h : a ∉ m.keys) : content f m a = ∅ := by
  have hnone : m.lookup a = none := AList.lookup_eq_none.mpr h
  simp [content, hnone]

/-- The content after the value of a key was replaced. -/
lemma content_insert (b : β) (a' : α) :
    content f (m.insert a b) a' = if a' = a then f b else content f m a' := by
  by_cases h : a' = a
  · subst h
    simp [content]
  · simp [content, h, AList.lookup_insert_ne h]

/-- The content of an entry is that of its value. -/
lemma content_of_mem {e : Sigma fun _ : α => β} (he : e ∈ m.entries) : content f m e.1 = f e.2 := by
  have hlookup : m.lookup e.1 = some e.2 := AList.mem_lookup_iff.mpr he
  simp [content, hlookup]

variable [DecidableEq γ]

/-- The pairs of a key and a member of the content of its value. -/
def pairs (f : β → Finset γ) (m : AList fun _ : α => β) : Finset (α × γ) :=
  m.keys.toFinset.biUnion fun a => (content f m a).image (Prod.mk a)

/-- A pair is in the relation when its member is in the content of its key. -/
@[simp] lemma mem_pairs : (a, c) ∈ pairs f m ↔ c ∈ content f m a := by
  simp only [pairs, Finset.mem_biUnion, List.mem_toFinset, Finset.mem_image, Prod.mk.injEq]
  constructor
  · rintro ⟨a', -, c', hc', rfl, rfl⟩
    exact hc'
  · intro hc
    refine ⟨a, ?_, c, hc, rfl, rfl⟩
    by_contra ha
    rw [content_of_notMem ha] at hc
    exact absurd hc (Finset.notMem_empty c)

/-- The empty list is the empty relation. -/
@[simp] lemma pairs_empty : pairs f (∅ : AList fun _ : α => β) = ∅ := by
  simp [pairs]

/-- When the new value of a key has what the old one had, and the members `s`, the relation gains
the pairs of the key with them. -/
lemma pairs_insert {b : β} {s : Finset γ} (hb : f b = content f m a ∪ s) :
    pairs f (m.insert a b) = pairs f m ∪ s.image (Prod.mk a) := by
  ext ⟨a', c⟩
  rw [Finset.mem_union, mem_pairs, mem_pairs, content_insert]
  by_cases h : a' = a
  · subst h
    simp [hb]
  · simp [h, Ne.symm h]

/-- There are as many pairs as the contents of all entries have members together. -/
theorem card_pairs : (pairs f m).card = (m.entries.map fun e => (f e.2).card).sum := by
  have hdisjoint : (m.keys.toFinset : Set α).PairwiseDisjoint
      fun a => (content f m a).image (Prod.mk a) := by
    intro a _ a' _ hne
    rw [Function.onFun, Finset.disjoint_left]
    intro p hp hp'
    obtain ⟨c, -, rfl⟩ := Finset.mem_image.mp hp
    obtain ⟨c', -, heq⟩ := Finset.mem_image.mp hp'
    exact hne (congrArg Prod.fst heq).symm
  have hcard : ∀ a, ((content f m a).image (Prod.mk a)).card = (content f m a).card :=
    fun a => Finset.card_image_of_injective _ (Prod.mk_right_injective a)
  calc (pairs f m).card
      = ∑ a ∈ m.keys.toFinset, ((content f m a).image (Prod.mk a)).card :=
        Finset.card_biUnion hdisjoint
    _ = ∑ a ∈ m.keys.toFinset, (content f m a).card := Finset.sum_congr rfl fun a _ => hcard a
    _ = (m.keys.map fun a => (content f m a).card).sum := List.sum_toFinset _ m.keys_nodup
    _ = (m.entries.map fun e => (f e.2).card).sum := by
        have hkeys : m.keys = m.entries.map Sigma.fst := rfl
        rw [hkeys, List.map_map]
        refine congrArg List.sum (List.map_congr_left fun e he => ?_)
        exact congrArg Finset.card (content_of_mem he)

end AssocPairs
