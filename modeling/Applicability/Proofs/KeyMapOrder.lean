import Applicability.Proofs.KeyMap
import Mathlib.Algebra.Ring.Nat
import Mathlib.Data.String.Basic

namespace Applicability.KeyMap

variable {α : Type} {m m' : KeyMap α}

def Ordered (l : List (String × α)) : Prop :=
  l.Pairwise fun e e' => e.1 < e'.1

theorem mem_put {l : List (String × α)} {key : String} {v : α} {e : String × α} (h : e ∈ put key v l) :
    e = (key, v) ∨ e ∈ l := by
  induction l with
  | nil => exact .inl (List.mem_singleton.mp h)
  | cons d l ih =>
    obtain ⟨k, x⟩ := d
    rw [put] at h
    split at h
    · rcases List.mem_cons.mp h with h | h
      · exact .inl h
      · exact .inr (List.mem_cons_of_mem _ h)
    · split at h
      · exact List.mem_cons.mp h
      · rcases List.mem_cons.mp h with rfl | h
        · exact .inr List.mem_cons_self
        · exact (ih h).imp_right (List.mem_cons_of_mem _)

theorem ordered_put {l : List (String × α)} (h : Ordered l) (key : String) (v : α) : Ordered (put key v l) := by
  induction l with
  | nil => exact List.pairwise_singleton _ _
  | cons d l ih =>
    obtain ⟨k, x⟩ := d
    obtain ⟨hd, hl⟩ := List.pairwise_cons.mp h
    rw [put]
    split
    · rename_i hk
      subst hk
      exact List.pairwise_cons.mpr ⟨hd, hl⟩
    · rename_i hk
      split
      · rename_i hlt
        refine List.pairwise_cons.mpr ⟨?_, h⟩
        intro e he
        rcases List.mem_cons.mp he with rfl | he
        · exact hlt
        · exact lt_trans hlt (hd e he)
      · rename_i hlt
        refine List.pairwise_cons.mpr ⟨?_, ih hl⟩
        intro e he
        rcases mem_put he with rfl | he
        · exact lt_of_le_of_ne (not_lt.mp hlt) hk
        · exact hd e he

theorem ordered_insertAll (h : Ordered m.entries) (pairs : List (String × α)) :
    Ordered (m.insertAll pairs).entries := by
  induction pairs generalizing m with
  | nil => exact h
  | cons e pairs ih => exact ih (m := m.insert e.1 e.2) (ordered_put h e.1 e.2)

theorem ordered_ofList (pairs : List (String × α)) : Ordered (ofList pairs).entries :=
  ordered_insertAll List.Pairwise.nil pairs

theorem lookup_of_lt {l : List (String × α)} {key : String} (h : ∀ e ∈ l, key < e.1) : lookup key l = none := by
  induction l with
  | nil => rfl
  | cons d l ih =>
    obtain ⟨hd, hl⟩ := List.forall_mem_cons.mp h
    rw [lookup, if_neg (ne_of_gt hd)]
    exact ih hl

theorem head_le_of_lookup {l l' : List (String × α)} {d d' : String × α} (hl : Ordered (d :: l))
    (h : ∀ key, lookup key (d :: l) = lookup key (d' :: l')) : d.1 ≤ d'.1 := by
  by_contra hlt
  rw [not_le] at hlt
  have hnone : lookup d'.1 (d :: l) = none := by
    apply lookup_of_lt
    intro e he
    rcases List.mem_cons.mp he with rfl | he
    · exact hlt
    · exact lt_trans hlt ((List.pairwise_cons.mp hl).1 e he)
  rw [h d'.1, lookup, if_pos rfl] at hnone
  cases hnone

theorem entries_inj {l l' : List (String × α)} (hl : Ordered l) (hl' : Ordered l')
    (h : ∀ key, lookup key l = lookup key l') : l = l' := by
  induction l generalizing l' with
  | nil =>
    cases l' with
    | nil => rfl
    | cons d' l' =>
      have hd := h d'.1
      rw [lookup, lookup, if_pos rfl] at hd
      cases hd
  | cons d l ih =>
    cases l' with
    | nil =>
      have hd := h d.1
      rw [lookup, lookup, if_pos rfl] at hd
      cases hd
    | cons d' l' =>
      obtain ⟨k, v⟩ := d
      obtain ⟨k', v'⟩ := d'
      obtain rfl : k = k' := le_antisymm (head_le_of_lookup hl h) (head_le_of_lookup hl' fun key => (h key).symm)
      obtain ⟨hd, hrest⟩ := List.pairwise_cons.mp hl
      obtain ⟨hd', hrest'⟩ := List.pairwise_cons.mp hl'
      have hv := h k
      rw [lookup, lookup, if_pos rfl, if_pos rfl] at hv
      cases hv
      congr 1
      apply ih hrest hrest'
      intro key
      by_cases hkey : k = key
      · subst hkey
        rw [lookup_of_lt hd, lookup_of_lt hd']
      · have htail := h key
        rwa [lookup, lookup, if_neg hkey, if_neg hkey] at htail

theorem ext_of_ordered (hm : Ordered m.entries) (hm' : Ordered m'.entries)
    (h : ∀ key, m.get? key = m'.get? key) : m = m' := by
  obtain ⟨l⟩ := m
  obtain ⟨l'⟩ := m'
  exact congrArg KeyMap.mk (entries_inj hm hm' h)

theorem mem_insertAll {pairs : List (String × α)} {e : String × α} (h : e ∈ (m.insertAll pairs).entries) :
    e ∈ pairs ∨ e ∈ m.entries := by
  induction pairs generalizing m with
  | nil => exact .inr h
  | cons d pairs ih =>
    rcases ih (m := m.insert d.1 d.2) h with h | h
    · exact .inl (List.mem_cons_of_mem _ h)
    · rcases mem_put h with rfl | h
      · exact .inl List.mem_cons_self
      · exact .inr h

theorem mem_of_mem_ofList {pairs : List (String × α)} {e : String × α} (h : e ∈ (ofList pairs).toList) :
    e ∈ pairs :=
  (mem_insertAll h).resolve_right List.not_mem_nil

theorem mem_of_lookup {l : List (String × α)} {key : String} {v : α} (h : lookup key l = some v) : (key, v) ∈ l := by
  induction l with
  | nil => cases h
  | cons d l ih =>
    obtain ⟨k, x⟩ := d
    rw [lookup] at h
    split at h
    · rename_i hk
      cases h
      rw [hk]
      exact List.mem_cons_self
    · exact List.mem_cons_of_mem _ (ih h)

theorem not_mem_of_lookup {l : List (String × α)} {key : String} (h : lookup key l = none) :
    key ∉ l.map (·.1) := by
  induction l with
  | nil => exact List.not_mem_nil
  | cons d l ih =>
    rw [lookup] at h
    split at h
    · cases h
    · rename_i hk
      rw [List.map_cons, List.mem_cons, not_or]
      exact ⟨fun heq => hk heq.symm, ih h⟩

theorem nodup_keys (h : Ordered m.entries) : (m.toList.map (·.1)).Nodup :=
  List.pairwise_map.mpr (h.imp fun hlt => ne_of_lt hlt)

theorem lookup_of_mem {l : List (String × α)} (hl : Ordered l) {key : String} {v : α} (h : (key, v) ∈ l) :
    lookup key l = some v := by
  induction l with
  | nil => cases h
  | cons d l ih =>
    obtain ⟨hd, hl⟩ := List.pairwise_cons.mp hl
    rcases List.mem_cons.mp h with rfl | h
    · exact if_pos rfl
    · rw [lookup, if_neg (ne_of_lt (hd _ h))]
      exact ih hl h

theorem mem_toList_iff (h : Ordered m.entries) {key : String} {v : α} :
    (key, v) ∈ m.toList ↔ m.get? key = some v :=
  ⟨lookup_of_mem h, mem_of_lookup⟩

theorem sum_put {l : List (String × Nat)} (h : Ordered l) (key : String) (n : Nat) :
    ((put key n l).map (·.2)).sum + (lookup key l).getD 0 = (l.map (·.2)).sum + n := by
  induction l with
  | nil => simp [put, lookup]
  | cons d l ih =>
    obtain ⟨k, x⟩ := d
    obtain ⟨hd, hl⟩ := List.pairwise_cons.mp h
    by_cases hk : k = key
    · simp only [put, lookup, hk, if_true, List.map_cons, List.sum_cons, Option.getD_some]
      omega
    by_cases hlt : key < k
    · have hnone : lookup key l = none := lookup_of_lt fun e he => lt_trans hlt (hd e he)
      simp only [put, lookup, hk, hlt, if_true, if_false, hnone, List.map_cons, List.sum_cons, Option.getD_none]
      omega
    · have ih := ih hl
      simp only [put, lookup, hk, hlt, if_false, List.map_cons, List.sum_cons]
      omega

theorem ofList_toList (h : Ordered m.entries) : ofList m.toList = m := by
  apply ext_of_ordered (ordered_ofList m.toList) h
  intro key
  cases hkey : m.get? key with
  | some v => exact get?_insertAll_of_mem (nodup_keys h) (mem_of_lookup hkey)
  | none => exact get?_insertAll_of_not_mem (not_mem_of_lookup hkey)

end Applicability.KeyMap
