import Mathlib.Data.List.Forall2
import Mathlib.Data.List.Induction
import Mathlib.Data.List.Nodup

namespace Applicability.Lists

section Related

variable {α β : Type} {R : α → β → Prop} {xs : List α} {ys : List β}

theorem exists_right_of_mem {x : α} (h : List.Forall₂ R xs ys) (hx : x ∈ xs) : ∃ y ∈ ys, R x y := by
  induction h with
  | nil => cases hx
  | @cons a b xs ys hab _ ih =>
    rcases List.mem_cons.mp hx with rfl | hx
    · exact ⟨b, List.mem_cons_self, hab⟩
    · obtain ⟨y, hy, hxy⟩ := ih hx
      exact ⟨y, List.mem_cons_of_mem _ hy, hxy⟩

theorem exists_left_of_mem {y : β} (h : List.Forall₂ R xs ys) (hy : y ∈ ys) : ∃ x ∈ xs, R x y := by
  obtain ⟨x, hx, hxy⟩ := exists_right_of_mem h.flip hy
  exact ⟨x, hx, hxy⟩

theorem exists_append_of_forall₂ {zs : List β} (h : List.Forall₂ R xs (ys ++ zs)) :
    ∃ us vs, xs = us ++ vs ∧ List.Forall₂ R us ys ∧ List.Forall₂ R vs zs :=
  ⟨_, _, (List.take_append_drop ys.length xs).symm, List.forall₂_take_append xs ys zs h,
    List.forall₂_drop_append xs ys zs h⟩

theorem forall₂_replicate {x : α} {y : β} (h : R x y) (n : Nat) :
    List.Forall₂ R (List.replicate n x) (List.replicate n y) := by
  induction n with
  | zero => exact .nil
  | succ n ih => exact .cons h ih

end Related

section Occurrences

variable {α : Type} [BEq α] [LawfulBEq α] {xs : List α} {x : α}

theorem eraseDups_concat_of_mem (h : x ∈ xs) : (xs ++ [x]).eraseDups = xs.eraseDups := by
  rw [List.eraseDups_append]
  simp [List.removeAll, h]

theorem eraseDups_concat_of_not_mem (h : x ∉ xs) : (xs ++ [x]).eraseDups = xs.eraseDups ++ [x] := by
  rw [List.eraseDups_append]
  simp [List.removeAll, h, List.eraseDups_cons]

theorem nodup_eraseDups (xs : List α) : xs.eraseDups.Nodup := by
  induction xs using List.reverseRecOn with
  | nil => exact List.nodup_nil
  | append_singleton xs x ih =>
    by_cases h : x ∈ xs
    · rwa [eraseDups_concat_of_mem h]
    · rw [eraseDups_concat_of_not_mem h, ← List.concat_eq_append]
      exact ih.concat (by rwa [List.mem_eraseDups])

theorem countP_zipIdx_concat {α : Type} (P : List α → α → Bool) (xs : List α) (x : α) :
    (xs ++ [x]).zipIdx.countP (fun p => P ((xs ++ [x]).take p.2) p.1) =
      xs.zipIdx.countP (fun p => P (xs.take p.2) p.1) + if P xs x then 1 else 0 := by
  have hbefore : xs.zipIdx.countP (fun p => P ((xs ++ [x]).take p.2) p.1) =
      xs.zipIdx.countP fun p => P (xs.take p.2) p.1 := by
    apply List.countP_congr
    intro p hp
    have hlt : p.2 < xs.length := by simpa using List.snd_lt_of_mem_zipIdx hp
    rw [List.take_append_of_le_length (by omega)]
  rw [List.zipIdx_append, List.countP_append, hbefore]
  simp [List.countP_cons]

end Occurrences

theorem exists_append_of_length_le {α : Type} {a b c d : List α} (h : a ++ b = c ++ d) (hle : a.length ≤ c.length) :
    ∃ w, c = a ++ w ∧ b = w ++ d := by
  obtain ⟨w, rfl⟩ := List.prefix_of_prefix_length_le ⟨_, h⟩ (List.prefix_append c d) hle
  rw [List.append_assoc] at h
  exact ⟨w, rfl, List.append_cancel_left h⟩

theorem append_cons_inj_of_last {α : Type} {q : α → Bool} {p p' s s' : List α} {c c' : α}
    (h : p ++ c :: s = p' ++ c' :: s') (hc : q c = true) (hs : ∀ d ∈ s, q d = false) (hc' : q c' = true)
    (hs' : ∀ d ∈ s', q d = false) : p = p' ∧ c :: s = c' :: s' := by
  have hcut : ∀ {x t t' : List α} {d d' : α}, d :: t = x ++ d' :: t' → (∀ e ∈ t, q e = false) → q d' = true →
      x = [] := by
    intro x t t' d d' heq ht hd'
    cases x with
    | nil => rfl
    | cons e x =>
      obtain ⟨-, rfl⟩ := List.cons.inj heq
      rw [ht d' (by simp)] at hd'
      cases hd'
  rcases List.append_eq_append_iff.mp h with ⟨x, rfl, hx⟩ | ⟨x, rfl, hx⟩
  · obtain rfl := hcut hx hs hc'
    exact ⟨by simp, hx⟩
  · obtain rfl := hcut hx hs' hc
    exact ⟨by simp, hx.symm⟩

section Traversal

variable {α β ε : Type}

theorem mapM_of_forall₂ {f : α → Except ε β} {xs : List α} {ys : List β}
    (h : List.Forall₂ (fun x y => f x = .ok y) xs ys) : xs.mapM f = .ok ys := by
  induction h with
  | nil => rfl
  | cons hx _ ih =>
    rw [List.mapM_cons, hx, ih]
    rfl

theorem forall₂_of_mapM {f : α → Except ε β} {xs : List α} {ys : List β} (h : xs.mapM f = .ok ys) :
    List.Forall₂ (fun x y => f x = .ok y) xs ys := by
  induction xs generalizing ys with
  | nil =>
    cases h
    exact .nil
  | cons x xs ih =>
    rw [List.mapM_cons] at h
    cases hx : f x with
    | error e =>
      rw [hx] at h
      cases h
    | ok y =>
      cases hxs : xs.mapM f with
      | error e =>
        rw [hx, hxs] at h
        cases h
      | ok ys' =>
        rw [hx, hxs] at h
        cases h
        exact .cons hx (ih hxs)

theorem mapM_of_ok {f : α → Except ε β} {g : α → β} {xs : List α} (h : ∀ x ∈ xs, f x = .ok (g x)) :
    xs.mapM f = .ok (xs.map g) := by
  apply mapM_of_forall₂
  rw [List.forall₂_map_right_iff, List.forall₂_same]
  exact h

end Traversal

section Picking

variable {α β : Type} {xs : List α} {ys : List β} {is : List Nat}

def pick (is : List Nat) (xs : List α) : List α :=
  is.filterMap fun i => xs[i]?

theorem pick_range (n : Nat) (xs : List α) : pick (List.range n) xs = xs.take n := by
  induction n with
  | zero => rfl
  | succ n ih =>
    have hsingle : [n].filterMap (fun i => xs[i]?) = xs[n]?.toList := by cases h : xs[n]? <;> simp [h]
    rw [List.range_succ, pick, List.filterMap_append, hsingle, List.take_add_one, ← ih, pick]

theorem pick_perm (h : is.Perm (List.range xs.length)) : (pick is xs).Perm xs := by
  have hperm : (pick is xs).Perm (pick (List.range xs.length) xs) := h.filterMap _
  rwa [pick_range, List.take_length] at hperm

theorem length_pick (h : ∀ i ∈ is, i < xs.length) : (pick is xs).length = is.length := by
  induction is with
  | nil => rfl
  | cons i is ih =>
    obtain ⟨hi, his⟩ := List.forall_mem_cons.mp h
    rw [pick, List.filterMap_cons_some (List.getElem?_eq_getElem hi), List.length_cons, List.length_cons, ← ih his,
      pick]

theorem pick_zip (hxs : ∀ i ∈ is, i < xs.length) (hys : ∀ i ∈ is, i < ys.length) (zs : List β) :
    (pick is xs).zip (pick is ys ++ zs) = pick is (xs.zip ys) := by
  induction is with
  | nil => rfl
  | cons i is ih =>
    obtain ⟨hx, hxs⟩ := List.forall_mem_cons.mp hxs
    obtain ⟨hy, hys⟩ := List.forall_mem_cons.mp hys
    have hpair : (xs.zip ys)[i]? = some (xs[i], ys[i]) :=
      List.getElem?_zip_eq_some.mpr ⟨List.getElem?_eq_getElem hx, List.getElem?_eq_getElem hy⟩
    have hrest := ih hxs hys
    simp only [pick] at hrest ⊢
    rw [List.filterMap_cons_some (List.getElem?_eq_getElem hx), List.filterMap_cons_some (List.getElem?_eq_getElem hy),
      List.filterMap_cons_some hpair, List.cons_append, List.zip_cons_cons, hrest]

theorem zip_append_of_le {zs : List β} (h : xs.length ≤ ys.length) : xs.zip (ys ++ zs) = xs.zip ys := by
  induction xs generalizing ys with
  | nil => rfl
  | cons x xs ih =>
    cases ys with
    | nil => cases h
    | cons y ys => rw [List.cons_append, List.zip_cons_cons, ih (Nat.le_of_succ_le_succ h), List.zip_cons_cons]

theorem zip_insertIdx {i : Nat} (hxs : i ≤ xs.length) (hys : i ≤ ys.length) (x : α) (y : β) :
    (xs.insertIdx i x).zip (ys.insertIdx i y) = (xs.zip ys).insertIdx i (x, y) := by
  induction i generalizing xs ys with
  | zero => rfl
  | succ i ih =>
    cases xs with
    | nil => cases hxs
    | cons x' xs =>
      cases ys with
      | nil => cases hys
      | cons y' ys =>
        rw [List.insertIdx_succ_cons, List.insertIdx_succ_cons, List.zip_cons_cons,
          ih (Nat.le_of_succ_le_succ hxs) (Nat.le_of_succ_le_succ hys), List.zip_cons_cons, List.insertIdx_succ_cons]

end Picking

section Chunks

variable {α : Type}

def chunks (n : Nat) (xs : List α) : List (List α) :=
  (List.range ((xs.length + n - 1) / n)).map fun i => (xs.drop (i * n)).take n

variable {n : Nat} {xs ys : List α}

theorem length_chunks : (chunks n xs).length = (xs.length + n - 1) / n := by
  rw [chunks, List.length_map, List.length_range]

theorem chunks_nil (hn : 0 < n) : chunks n ([] : List α) = [] := by
  have hdiv : (0 + n - 1) / n = 0 := Nat.div_eq_of_lt (by omega)
  rw [chunks, List.length_nil, hdiv]
  rfl

theorem chunks_of_length_le (hxs : xs ≠ []) (h : xs.length ≤ n) : chunks n xs = [xs] := by
  have hpos : 0 < xs.length := List.length_pos_iff.mpr hxs
  have hdiv : (xs.length + n - 1) / n = 1 := by
    apply Nat.div_eq_of_lt_le
    · omega
    · omega
  rw [chunks, hdiv, List.range_one, List.map_singleton, Nat.zero_mul, List.drop_zero,
    List.take_of_length_le h]

theorem chunks_append (hn : 0 < n) (hxs : xs.length = n) : chunks n (xs ++ ys) = xs :: chunks n ys := by
  have hdiv : ((xs ++ ys).length + n - 1) / n = (ys.length + n - 1) / n + 1 := by
    rw [← Nat.add_div_right _ hn, List.length_append]
    congr 1
    omega
  rw [chunks, chunks, hdiv, List.range_succ_eq_map, List.map_cons, List.map_map]
  congr 1
  · rw [Nat.zero_mul, List.drop_zero, ← hxs, List.take_left]
  · apply List.map_congr_left
    intro i _
    have hskip : (i + 1) * n = xs.length + i * n := by
      rw [Nat.succ_mul]
      omega
    rw [Function.comp_apply, Nat.succ_eq_add_one, hskip, List.drop_length_add_append]

theorem chunks_flatten_append {xss : List (List α)} (hn : 0 < n) (hfull : ∀ xs ∈ xss, xs.length = n) :
    chunks n (xss.flatten ++ ys) = xss ++ chunks n ys := by
  induction xss with
  | nil => rfl
  | cons xs xss ih =>
    obtain ⟨hxs, hrest⟩ := List.forall_mem_cons.mp hfull
    rw [List.flatten_cons, List.append_assoc, chunks_append hn hxs, ih hrest, List.cons_append]

end Chunks

end Applicability.Lists
