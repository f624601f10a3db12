/-
Tables as lists of rows with a key: look-up, replacement and removal by key, and what each of them, or an appended row,
does to a look-up and to a total over the rows. Replacing a row commutes with mapping all rows (`map_replace`), and with
distinct keys is itself a map (`replace_eq_map`).
-/
import Mathlib.Tactic

namespace BankServices.KeyedList

variable {α κ : Type} [DecidableEq κ] (key : α → κ)

/-- the first row with the key -/
def lookup (l : List α) (k : κ) : Option α := l.find? fun a => key a = k

/-- every row with the key of `a` becomes `a` -/
def replace (l : List α) (a : α) : List α := l.map fun b => if key b = key a then a else b

/-- no row with the key stays -/
def remove (l : List α) (k : κ) : List α := l.filter fun b => key b ≠ k

variable {key}

theorem lookup_some {l : List α} {k : κ} {a : α} (h : lookup key l k = some a) : a ∈ l ∧ key a = k :=
  ⟨List.mem_of_find?_eq_some h, by simpa using List.find?_some h⟩

theorem lookup_none {l : List α} {k : κ} : lookup key l k = none ↔ ∀ a ∈ l, key a ≠ k := by
  simp [lookup, List.find?_eq_none]

theorem lookup_append (l : List α) (a : α) (k : κ) :
    lookup key (l ++ [a]) k = (lookup key l k).or (if key a = k then some a else none) := by
  unfold lookup
  rw [List.find?_append]
  by_cases h : key a = k <;> simp [h]

theorem key_replaced (a b : α) : key (if key b = key a then a else b) = key b := by
  split_ifs with h
  · exact h.symm
  · rfl

theorem lookup_map {f : α → α} (hf : ∀ a, key (f a) = key a) (l : List α) (k : κ) :
    lookup key (l.map f) k = (lookup key l k).map f := by
  unfold lookup
  rw [List.find?_map]
  congr 2
  funext a
  simp only [Function.comp, hf]

theorem lookup_replace (l : List α) (a : α) (k : κ) :
    lookup key (replace key l a) k = if key a = k then (lookup key l k).map fun _ => a else lookup key l k := by
  unfold replace
  rw [lookup_map fun b => key_replaced a b]
  cases hl : lookup key l k with
  | none => simp
  | some b =>
    have hb : key b = k := (lookup_some hl).2
    by_cases ha : key a = k
    · simp [ha, hb]
    · simp [ha, hb, Ne.symm ha]

/-- a row replaced before or after all rows are mapped -/
theorem map_replace {f : α → α} (hf : ∀ a, key (f a) = key a) (l : List α) (a : α) :
    (replace key l a).map f = replace key (l.map f) (f a) := by
  unfold replace
  rw [List.map_map, List.map_map]
  refine List.map_congr_left fun b _ => ?_
  simp only [Function.comp, hf]
  split_ifs
  · rfl
  · rfl

theorem lookup_remove (l : List α) (k k' : κ) :
    lookup key (remove key l k') k = if k = k' then none else lookup key l k := by
  unfold lookup remove
  rw [List.find?_filter]
  split_ifs with h
  · subst h
    rw [List.find?_eq_none]
    simp
  · congr 1
    funext b
    by_cases hb : key b = k
    · simp [hb, h]
    · simp [hb]

theorem mem_replace {l : List α} {a b : α} (h : b ∈ replace key l a) : (b ∈ l ∧ key b ≠ key a) ∨ b = a := by
  obtain ⟨c, hc, rfl⟩ := List.mem_map.1 h
  split_ifs with hk
  · exact Or.inr rfl
  · exact Or.inl ⟨hc, hk⟩

theorem map_key_replace (l : List α) (a : α) : (replace key l a).map key = l.map key := by
  unfold replace
  rw [List.map_map]
  exact List.map_congr_left fun b _ => key_replaced a b

/-- with distinct keys the look-up of a row's key finds the row -/
theorem lookup_of_mem {l : List α} (hn : (l.map key).Nodup) {a : α} (ha : a ∈ l) : lookup key l (key a) = some a := by
  cases hl : lookup key l (key a) with
  | none => exact absurd rfl (lookup_none.1 hl a ha)
  | some b =>
    obtain ⟨hb, hk⟩ := lookup_some hl
    rw [List.inj_on_of_nodup_map hn hb ha hk]

/-- with distinct keys, replacing the row found by a version of it is mapping that row -/
theorem replace_eq_map {l : List α} (hn : (l.map key).Nodup) {k : κ} {b : α} (h : lookup key l k = some b) {g : α → α}
    (hg : key (g b) = k) : replace key l (g b) = l.map fun c => if key c = k then g c else c := by
  unfold replace
  rw [hg]
  refine List.map_congr_left fun c hc => ?_
  split_ifs with hk
  · have hfound := lookup_of_mem hn hc
    rw [hk, h] at hfound
    rw [Option.some.inj hfound]
  · rfl

/-- with distinct keys, replacing a row moves a total by the difference of the two rows -/
theorem sum_replace {l : List α} (hn : (l.map key).Nodup) {a b : α} (h : lookup key l (key a) = some b) (f : α → ℤ) :
    ((replace key l a).map f).sum = (l.map f).sum - f b + f a := by
  induction l with
  | nil => cases h
  | cons c l ih =>
    obtain ⟨hc, hl⟩ := List.nodup_cons.1 hn
    unfold lookup at h ih
    rw [List.find?_cons] at h
    unfold replace at ih ⊢
    rw [List.map_cons, List.map_cons, List.sum_cons, List.map_cons, List.sum_cons]
    by_cases hk : key c = key a
    · simp only [hk, decide_true, Option.some.injEq] at h
      subst h
      -- no other row has the key
      have hrest : (l.map fun b => if key b = key a then a else b) = l := by
        conv_rhs => rw [← List.map_id l]
        refine List.map_congr_left fun d hd => if_neg fun hda => hc ?_
        rw [hk, ← hda]
        exact List.mem_map_of_mem hd
      rw [hrest, if_pos hk]
      ring
    · simp only [hk, decide_false] at h
      rw [ih hl h, if_neg hk]
      ring

/-- with distinct keys, removing a row takes its share off a total -/
theorem sum_remove {l : List α} (hn : (l.map key).Nodup) {k : κ} {a : α} (h : lookup key l k = some a) (f : α → ℤ) :
    ((remove key l k).map f).sum = (l.map f).sum - f a := by
  induction l with
  | nil => cases h
  | cons c l ih =>
    obtain ⟨hc, hl⟩ := List.nodup_cons.1 hn
    unfold lookup at h ih
    rw [List.find?_cons] at h
    unfold remove at ih ⊢
    by_cases hk : key c = k
    · simp only [hk, decide_true, Option.some.injEq] at h
      subst h
      have hrest : (l.filter fun b => key b ≠ k) = l :=
        List.filter_eq_self.2 fun d hd => decide_eq_true fun hdk => hc (by rw [hk, ← hdk]; exact List.mem_map_of_mem hd)
      rw [List.filter_cons_of_neg (by simp [hk]), hrest, List.map_cons, List.sum_cons]
      ring
    · simp only [hk, decide_false] at h
      rw [List.filter_cons_of_pos (by simp [hk]), List.map_cons, List.map_cons, List.sum_cons, List.sum_cons, ih hl h]
      ring

end BankServices.KeyedList
