import Mathlib.Data.List.Basic
import Mathlib.Data.List.Nodup

/-!
# Objects by a key

A list of objects of which no two have the same key, and what is found under a key after an object
is added, changed or removed.
-/

namespace Polycube.Lib

section

variable {α κ : Type*} [DecidableEq κ] (key : α → κ)

def findKey (k : κ) (l : List α) : Option α := l.find? fun x => key x = k

def modifyKey (k : κ) (f : α → α) (l : List α) : List α := l.map fun x => if key x = k then f x else x

def eraseKey (k : κ) (l : List α) : List α := l.filter fun x => key x ≠ k

variable {key} {k k' : κ} {f : α → α} {l : List α} {x : α}

theorem findKey_eq_some_iff (distinct : (l.map key).Nodup) :
    findKey key k l = some x ↔ x ∈ l ∧ key x = k := by
  unfold findKey
  constructor
  · intro h
    exact ⟨List.mem_of_find?_eq_some h, by simpa using List.find?_some h⟩
  · induction l with
    | nil => simp
    | cons y l ih =>
      rw [List.map_cons, List.nodup_cons] at distinct
      rintro ⟨hx, rfl⟩
      rcases List.mem_cons.1 hx with rfl | hx
      · simp
      · have other : key y ≠ key x := fun same => distinct.1 (same ▸ List.mem_map_of_mem hx)
        rw [List.find?_cons_of_neg (by simpa using other)]
        exact ih distinct.2 ⟨hx, rfl⟩

theorem findKey_eq_none_iff : findKey key k l = none ↔ k ∉ l.map key := by
  simp [findKey]

/-- Lists of objects with the same keys have related objects under each key. -/
theorem findKey_forall₂ {β : Type*} {key' : β → κ} {R : α → β → Prop} {l' : List β}
    (same : ∀ x y, R x y → key x = key' y) (h : List.Forall₂ R l l') :
    Option.Rel R (findKey key k l) (findKey key' k l') := by
  unfold findKey
  induction h with
  | nil => exact .none
  | @cons x y l l' rel _ ih =>
    rw [List.find?_cons, List.find?_cons, same x y rel]
    by_cases here : key' y = k
    · simpa [here] using rel
    · simpa [here] using ih

theorem findKey_concat (new : key x ∉ l.map key) :
    findKey key k (l ++ [x]) = if key x = k then some x else findKey key k l := by
  unfold findKey
  rw [List.find?_append]
  by_cases h : key x = k
  · have none : l.find? (fun y => key y = k) = none := findKey_eq_none_iff.2 (h ▸ new)
    simp [none, h]
  · simp [h]

theorem findKey_eraseKey : findKey key k (eraseKey key k' l) =
    if k = k' then none else findKey key k l := by
  unfold findKey eraseKey
  induction l with
  | nil => simp
  | cons y l ih =>
    by_cases hy : key y = k' <;> by_cases hk : k = k' <;> by_cases hyk : key y = k <;>
      simp_all

theorem map_modifyKey (keep : ∀ x, key (f x) = key x) :
    (modifyKey key k f l).map key = l.map key := by
  simp only [modifyKey, List.map_map]
  refine List.map_congr_left fun y _ => ?_
  simp only [Function.comp_apply]
  split
  · exact keep y
  · rfl

theorem findKey_modifyKey (keep : ∀ x, key (f x) = key x) :
    findKey key k (modifyKey key k' f l) =
      if k = k' then (findKey key k l).map f else findKey key k l := by
  unfold findKey modifyKey
  induction l with
  | nil => simp
  | cons y l ih =>
    by_cases hy : key y = k' <;> by_cases hk : k = k' <;> by_cases hyk : key y = k <;>
      simp_all

end

end Polycube.Lib
