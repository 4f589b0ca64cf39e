import Mathlib.Algebra.GroupWithZero.Nat
import Mathlib.Data.List.Nodup

/-!
# Lists of records with a key

A table is a list of records, found by their keys. The key of a record never changes.

Results:

* `find?_modify`, `find?_remove`, `find?_append`: what is found after a change of the table.
* `keys_modify`: a change of records leaves the keys as they are.
* `modify_modify`: two changes under one key are one change.
* `remove_modify`: a change under a key is lost when the key is taken away.
* `perm_remove`: a table is what is found under a key, and the rest.
* `sum_modify`, `sum_own`: a sum over a table after one record has changed, and that of one record.
* `eq_of_key_eq`, `eq_of_find?`: in a table without repeated keys, a key belongs to one record.
* `concat_eq`: an entry of a list that has grown at its end is the last one, or was there before.
-/

namespace JobSwarm.Keyed

variable {α κ : Type} [DecidableEq κ] {key : α → κ} {k k' : κ} {table : List α}

theorem find?_modify (change : α → α) (keeps : ∀ a, key a = k → key (change a) = k) :
    (table.map fun a => if key a = k then change a else a).find? (fun a => key a == k') =
      if k' = k then (table.find? fun a => key a == k').map change
      else table.find? fun a => key a == k' := by
  induction table with
  | nil => simp
  | cons a rest ih =>
    by_cases ha : key a = k
    · by_cases hk : k' = k
      · simp [ha, hk, keeps a ha]
      · simp [ha, hk, Ne.symm hk, keeps a ha, ih]
    · by_cases hk : key a = k'
      · simp [ha, ← hk]
      · simp [ha, hk, ih]

theorem find?_remove :
    (table.filter fun a => key a != k).find? (fun a => key a == k') =
      if k' = k then none else table.find? fun a => key a == k' := by
  induction table with
  | nil => simp
  | cons a rest ih =>
    by_cases ha : key a = k
    · rw [List.filter_cons_of_neg (by simpa using ha), ih]
      by_cases hk : k' = k
      · simp [hk]
      · simp [ha, hk, Ne.symm hk]
    · rw [List.filter_cons_of_pos (by simpa using ha)]
      by_cases hk : key a = k'
      · simp [← hk, ha]
      · simp [hk, ih]

theorem find?_append {a : α} :
    (table ++ [a]).find? (fun b => key b == k') =
      if k' = key a then (table.find? fun b => key b == k').or (some a)
      else table.find? fun b => key b == k' := by
  rw [List.find?_append]
  by_cases h : k' = key a
  · simp [h]
  · simp [h, Ne.symm h]

theorem keys_modify (change : α → α) (keeps : ∀ a, key a = k → key (change a) = k) :
    (table.map fun a => if key a = k then change a else a).map key = table.map key := by
  rw [List.map_map]
  refine List.map_congr_left fun a _ => ?_
  by_cases ha : key a = k <;> simp [ha, keeps]

theorem modify_modify (first second : α → α) (keeps : ∀ a, key a = k → key (first a) = k) :
    (table.map fun a => if key a = k then first a else a).map
        (fun a => if key a = k then second a else a) =
      table.map fun a => if key a = k then second (first a) else a := by
  rw [List.map_map]
  refine List.map_congr_left fun a _ => ?_
  by_cases ha : key a = k <;> simp [ha, keeps]

theorem remove_modify (change : α → α) (keeps : ∀ a, key a = k → key (change a) = k) :
    ((table.map fun a => if key a = k then change a else a).filter fun a => key a != k) =
      table.filter fun a => key a != k := by
  induction table with
  | nil => rfl
  | cons a rest ih =>
    by_cases ha : key a = k <;> simp [ha, keeps a, ih]

theorem find?_eq_none : (table.find? fun a => key a == k) = none ↔ k ∉ table.map key := by
  simp

theorem mem_of_find? {a : α} (h : (table.find? fun a => key a == k) = some a) :
    a ∈ table ∧ key a = k :=
  ⟨List.mem_of_find?_eq_some h, by simpa using List.find?_some h⟩

omit [DecidableEq κ] in
theorem eq_of_key_eq {a b : α} (unique : (table.map key).Nodup) (ha : a ∈ table) (hb : b ∈ table)
    (h : key a = key b) : a = b :=
  List.inj_on_of_nodup_map unique ha hb h

theorem eq_of_find? {a b : α} (unique : (table.map key).Nodup)
    (found : (table.find? fun a => key a == k) = some a) (hb : b ∈ table) (h : key b = k) :
    b = a := by
  obtain ⟨ha, hkey⟩ := mem_of_find? found
  exact eq_of_key_eq unique hb ha (h.trans hkey.symm)

theorem find?_of_mem {a : α} (unique : (table.map key).Nodup) (h : a ∈ table) :
    (table.find? fun b => key b == key a) = some a := by
  cases hfind : table.find? fun b => key b == key a with
  | none => exact absurd (List.mem_map_of_mem h) (find?_eq_none.1 hfind)
  | some b =>
    obtain ⟨hb, hkey⟩ := mem_of_find? hfind
    rw [eq_of_key_eq unique hb h hkey]

/-- A table is what is found under a key, and the rest. -/
theorem perm_remove {a : α} (unique : (table.map key).Nodup)
    (h : (table.find? fun a => key a == k) = some a) :
    table.Perm (a :: table.filter fun a => key a != k) := by
  induction table with
  | nil => cases h
  | cons b rest ih =>
    obtain ⟨hnew, hrest⟩ := List.nodup_cons.1 unique
    by_cases hb : key b = k
    · have absent : ∀ c ∈ rest, (key c != k) = true := fun c hc => by
        simpa [← hb] using fun heq => hnew (List.mem_map.2 ⟨c, hc, heq⟩)
      simp only [List.find?_cons, hb, beq_self_eq_true, Option.some.injEq] at h
      rw [h, List.filter_cons_of_neg (by simpa using h ▸ hb), List.filter_eq_self.2 absent]
    · rw [List.find?_cons_of_neg (by simpa using hb)] at h
      rw [List.filter_cons_of_pos (by simpa using hb)]
      exact ((ih hrest h).cons b).trans (.swap a b _)

/-- The other records count for as much as before. -/
theorem sum_modify (weight : α → Nat) {a : α} (change : α → α) (unique : (table.map key).Nodup)
    (found : (table.find? fun a => key a == k) = some a) :
    ((table.map fun a => if key a = k then change a else a).map weight).sum + weight a =
      (table.map weight).sum + weight (change a) := by
  induction table with
  | nil => cases found
  | cons b rest ih =>
    obtain ⟨hnew, hrest⟩ := List.nodup_cons.1 unique
    by_cases hb : key b = k
    · have same : (rest.map fun a => if key a = k then change a else a) = rest := by
        refine (List.map_congr_left fun c hc => if_neg fun heq => ?_).trans (List.map_id' rest)
        exact hnew (List.mem_map.2 ⟨c, hc, heq.trans hb.symm⟩)
      simp only [List.find?_cons, hb, beq_self_eq_true, Option.some.injEq] at found
      rw [List.map_cons, if_pos hb, same, found, List.map_cons, List.map_cons, List.sum_cons,
        List.sum_cons]
      omega
    · rw [List.find?_cons_of_neg (by simpa using hb)] at found
      have others := ih hrest found
      rw [List.map_cons, if_neg hb, List.map_cons, List.map_cons, List.sum_cons, List.sum_cons]
      omega

/-- A sum over the records of one key is that of one record. -/
theorem sum_own (weight : α → Nat) {a : α} (unique : (table.map key).Nodup) (h : a ∈ table) :
    (table.map fun b => if key b = key a then weight b else 0).sum = weight a := by
  have split := (perm_remove unique (find?_of_mem unique h)).map
    fun b => if key b = key a then weight b else 0
  have nothing : ((table.filter fun b => key b != key a).map
      fun b => if key b = key a then weight b else 0).sum = 0 := by
    rw [List.sum_eq_zero_iff_forall_eq_nat]
    intro amount hmem
    obtain ⟨b, hb, rfl⟩ := List.mem_map.1 hmem
    exact if_neg (by simpa using (List.mem_filter.1 hb).2)
  rw [split.sum_nat, List.map_cons, if_pos rfl, List.sum_cons, nothing, Nat.add_zero]

/-- The last entry, or one before it. -/
theorem concat_eq {entry last : α} {entries earlier since : List α}
    (h : entries ++ [last] = earlier ++ entry :: since) :
    entries = earlier ∧ last = entry ∧ since = [] ∨
      ∃ others, since = others ++ [last] ∧ entries = earlier ++ entry :: others := by
  rcases List.eq_nil_or_concat since with rfl | ⟨others, final, rfl⟩
  · obtain ⟨same, rest⟩ := List.append_inj' h rfl
    exact .inl ⟨same, List.head_eq_of_cons_eq rest, rfl⟩
  · rw [List.concat_eq_append, ← List.cons_append, ← List.append_assoc] at h
    obtain ⟨same, rest⟩ := List.append_inj' h rfl
    rw [List.head_eq_of_cons_eq rest]
    exact .inr ⟨others, List.concat_eq_append, same⟩

end JobSwarm.Keyed
