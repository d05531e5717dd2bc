import Applicability.Proofs.Capability.Grammar
import Applicability.Proofs.Condition.References

namespace Applicability.Condition

open Capability Text Pattern

theorem utf8ByteSize_ofList (s : List Char) : (String.ofList s).utf8ByteSize = byteLength s := by
  induction s with
  | nil => rfl
  | cons c s ih =>
    rw [String.ofList_cons, String.utf8ByteSize_append, String.utf8ByteSize_singleton, ih]
    rfl

def Before (a b : List Char) : Prop :=
  (String.ofList b).utf8ByteSize < (String.ofList a).utf8ByteSize ∨
    (String.ofList a).utf8ByteSize = (String.ofList b).utf8ByteSize ∧ a < b

theorem precedes_iff_before {a b : List Char} : precedes a b = true ↔ Before a b := by
  simp only [precedes, Before, utf8ByteSize_ofList, Bool.or_eq_true, Bool.and_eq_true, decide_eq_true_eq, beq_iff_eq]

theorem InOrder.before {xs : List (List Char)} (h : InOrder xs) : xs.Pairwise Before :=
  h.imp precedes_iff_before.mp

theorem before_of_isInfix {a b : List Char} (h : a <:+: b) (hne : a ≠ b) : Before b a := by
  left
  rw [utf8ByteSize_ofList, utf8ByteSize_ofList]
  by_contra hle
  exact hne (eq_of_isInfix h (Nat.le_of_not_lt hle)).symm

theorem InOrder.pair_sublist {xs : List (List Char)} {a b : List Char} (h : InOrder xs) (ha : a ∈ xs) (hb : b ∈ xs)
    (hab : Before a b) : [a, b].Sublist xs := by
  have hpair : InOrder [a, b] := List.pairwise_pair.mpr (precedes_iff_before.mpr hab)
  apply hpair.sublist h
  rintro x hx
  rcases List.mem_cons.mp hx with rfl | hx
  · exact ha
  · rwa [List.mem_singleton.mp hx]

theorem mem_references_iff {text r : List Char} {extra : List (List Char)} :
    r ∈ references text extra ↔
      r ∈ idExpression.pattern.allIn text ∨ isId r = true ∧ ∃ x ∈ extra, trim x = r := by
  rw [references, mem_foldr_insertReference, List.mem_append, List.mem_filter, List.mem_map, pattern_idExpression,
    and_comm (b := isId r = true)]

theorem allIn_id {id : List Char} (h : isId id = true) : idPattern.allIn id = [id] := by
  obtain ⟨hne, hlen⟩ := isId_iff.mp h
  rw [← List.append_nil id] at hlen
  have hmatch := matchesFrom_match hne (hlen.trans (by rw [List.append_nil]))
  rw [List.append_nil] at hmatch
  exact hmatch

theorem references_id {id : List Char} (h : isId id = true) : references id [] = [id] := by
  rw [references, allIn_id h]
  rfl

/-- The references of a text are the matches in it and the ids among the further texts, each once and in order, so
that a reference never comes before one that it is part of. The ids are the words of the expression, and each of
them is matched as a whole. -/
theorem references_exact (text : List Char) (extra : List (List Char)) :
    (references text extra).Nodup ∧
      (∀ r, r ∈ references text extra ↔
        r ∈ idExpression.pattern.allIn text ∨ isId r = true ∧ ∃ x ∈ extra, trim x = r) ∧
      (references text extra).Pairwise Before ∧
      (∀ a b, a ∈ references text extra → b ∈ references text extra → a <:+: b → a ≠ b →
        [b, a].Sublist (references text extra)) ∧
      ∀ id, (isId id = true ↔ id ∈ idExpression.language) ∧ (isId id = true → references id [] = [id]) := by
  have hordered := inOrder_references text extra
  refine ⟨hordered.nodup, fun r => mem_references_iff, hordered.before, ?_, ?_⟩
  · intro a b ha hb hinfix hne
    exact hordered.pair_sublist hb ha (before_of_isInfix hinfix hne)
  · intro id
    exact ⟨isId_iff_mem_language, references_id⟩

theorem references_exact_overlapping :
    references "A.1 AND A.1.2 OR PC_X".toList [" A.1/2b ".toList, "B".toList] =
        ["A.1/2b".toList, "A.1.2".toList, "PC_X".toList, "A.1".toList] ∧
      ["A.1.2".toList, "A.1".toList].Sublist
        (references "A.1 AND A.1.2 OR PC_X".toList [" A.1/2b ".toList, "B".toList]) ∧
      references "A.1/2b".toList [] = ["A.1/2b".toList] := by
  obtain ⟨-, hmem, -, hinfix, hid⟩ :=
    references_exact "A.1 AND A.1.2 OR PC_X".toList [" A.1/2b ".toList, "B".toList]
  refine ⟨by decide +kernel, ?_, (hid "A.1/2b".toList).2 (by decide +kernel)⟩
  exact hinfix "A.1".toList "A.1.2".toList (by decide +kernel) (by decide +kernel) (by decide) (by decide)

end Applicability.Condition
