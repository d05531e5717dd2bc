import Applicability.KeyMap

namespace Applicability.KeyMap

variable {α : Type} {m : KeyMap α}

theorem lookup_put (l : List (String × α)) (key key' : String) (v : α) :
    lookup key' (put key v l) = if key = key' then some v else lookup key' l := by
  induction l with
  | nil => rfl
  | cons e l ih =>
    obtain ⟨k, x⟩ := e
    by_cases hk : k = key
    · subst hk
      by_cases hk' : k = key' <;> simp [put, lookup, hk']
    · by_cases hlt : key < k
      · simp [put, lookup, hk, hlt]
      · by_cases hkk : k = key'
        · subst hkk
          simp [put, lookup, hk, hlt, Ne.symm hk]
        · simp [put, lookup, hk, hlt, hkk, ih]

theorem get?_insert (key key' : String) (v : α) :
    (m.insert key v).get? key' = if key = key' then some v else m.get? key' :=
  lookup_put m.entries key key' v

@[simp] theorem get?_empty (key : String) : (empty : KeyMap α).get? key = none := rfl

theorem lookup_filter (l : List (String × α)) (key key' : String) :
    lookup key' (l.filter fun e => e.1 != key) = if key = key' then none else lookup key' l := by
  induction l with
  | nil => simp [lookup]
  | cons e l ih =>
    obtain ⟨k, x⟩ := e
    by_cases hk : k = key
    · subst hk
      by_cases hk' : k = key' <;> simp_all [lookup]
    · by_cases hk' : k = key'
      · subst hk'
        simp [lookup, hk, Ne.symm hk]
      · simp [lookup, hk, hk', ih]

theorem get?_erase (key key' : String) :
    (m.erase key).get? key' = if key = key' then none else m.get? key' :=
  lookup_filter m.entries key key'

theorem lookup_map (l : List (String × α)) (key key' : String) (f : α → α) :
    lookup key' (l.map fun e => if e.1 = key then (e.1, f e.2) else e) =
      if key = key' then (lookup key' l).map f else lookup key' l := by
  induction l with
  | nil => simp [lookup]
  | cons e l ih =>
    obtain ⟨k, x⟩ := e
    by_cases hk : k = key
    · subst hk
      by_cases hk' : k = key' <;> simp_all [lookup]
    · by_cases hk' : k = key'
      · subst hk'
        simp [lookup, hk, Ne.symm hk]
      · simp [lookup, hk, hk', ih]

theorem get?_modify (key key' : String) (f : α → α) :
    (m.modify key f).get? key' = if key = key' then (m.get? key').map f else m.get? key' :=
  lookup_map m.entries key key' f

theorem get?_insertAll (pairs : List (String × α)) (key : String) :
    (m.insertAll pairs).get? key =
      ((pairs.reverse.find? fun e => e.1 = key).map (·.2)).or (m.get? key) := by
  induction pairs generalizing m with
  | nil => rfl
  | cons e pairs ih =>
    change ((m.insert e.1 e.2).insertAll pairs).get? key = _
    rw [ih, List.reverse_cons, List.find?_append, get?_insert]
    cases pairs.reverse.find? fun e => e.1 = key with
    | some x => simp
    | none => by_cases he : e.1 = key <;> simp [he]

theorem get?_ofList (pairs : List (String × α)) (key : String) :
    (ofList pairs).get? key = (pairs.reverse.find? fun e => e.1 = key).map (·.2) := by
  rw [ofList, get?_insertAll, get?_empty, Option.or_none]

theorem get?_insertAll_of_not_mem {pairs : List (String × α)} {key : String}
    (h : key ∉ pairs.map (·.1)) : (m.insertAll pairs).get? key = m.get? key := by
  have hnone : pairs.reverse.find? (fun e => e.1 = key) = none := by
    rw [List.find?_eq_none]
    intro e he hkey
    exact h (List.mem_map.mpr ⟨e, List.mem_reverse.mp he, by simpa using hkey⟩)
  rw [get?_insertAll, hnone]
  rfl

theorem get?_insertAll_of_mem {pairs : List (String × α)} {key : String} {v : α}
    (hnodup : (pairs.map (·.1)).Nodup) (h : (key, v) ∈ pairs) :
    (m.insertAll pairs).get? key = some v := by
  induction pairs generalizing m with
  | nil => cases h
  | cons e pairs ih =>
    obtain ⟨he, hnodup⟩ := List.nodup_cons.mp hnodup
    change ((m.insert e.1 e.2).insertAll pairs).get? key = some v
    rcases List.mem_cons.mp h with rfl | h
    · rw [get?_insertAll_of_not_mem he, get?_insert, if_pos rfl]
    · exact ih hnodup h

section Map

variable {β : Type} (f : α → β)

def map (m : KeyMap α) : KeyMap β :=
  ⟨m.entries.map fun e => (e.1, f e.2)⟩

theorem get?_map (key : String) : (m.map f).get? key = (m.get? key).map f := by
  obtain ⟨l⟩ := m
  change lookup key (l.map fun e => (e.1, f e.2)) = (lookup key l).map f
  induction l with
  | nil => rfl
  | cons e l ih =>
    obtain ⟨k, x⟩ := e
    by_cases hk : k = key <;> simp [lookup, hk, ih]

theorem map_put (l : List (String × α)) (key : String) (v : α) :
    (put key v l).map (fun e => (e.1, f e.2)) = put key (f v) (l.map fun e => (e.1, f e.2)) := by
  induction l with
  | nil => rfl
  | cons e l ih =>
    obtain ⟨k, x⟩ := e
    by_cases hk : k = key
    · simp [put, hk]
    · by_cases hlt : key < k <;> simp [put, hk, hlt, ih]

theorem map_insert (key : String) (v : α) : (m.insert key v).map f = (m.map f).insert key (f v) :=
  congrArg KeyMap.mk (map_put f m.entries key v)

theorem map_insertAll (pairs : List (String × α)) :
    (m.insertAll pairs).map f = (m.map f).insertAll (pairs.map fun e => (e.1, f e.2)) := by
  induction pairs generalizing m with
  | nil => rfl
  | cons e pairs ih =>
    change ((m.insert e.1 e.2).insertAll pairs).map f = _
    rw [ih, map_insert]
    rfl

theorem map_modify {g : α → α} (key : String) (hg : ∀ v, f (g v) = f v) :
    (m.modify key g).map f = m.map f := by
  rw [map, map, modify, List.map_map]
  congr 1
  apply List.map_congr_left
  intro e _
  by_cases he : e.1 = key <;> simp [he, hg]

end Map

end Applicability.KeyMap
