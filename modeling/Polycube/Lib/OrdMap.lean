import Mathlib.Data.List.Sort

/-!
# Ordered maps

A map as the list of its entries in the order of their keys (`std::map`): an insertion puts an
entry in its place and does nothing when the key is there, a modification changes the entry of a
key.
-/

namespace Polycube.Lib

abbrev OrdMap (κ α : Type*) := List (κ × α)

namespace OrdMap

variable {κ α β : Type*} [DecidableEq κ] {m : OrdMap κ α} {k k' : κ} {v v' : α}

def contains (m : OrdMap κ α) (k : κ) : Bool := m.any fun e => e.1 = k

def insert [LE κ] [DecidableLE κ] (m : OrdMap κ α) (k : κ) (v : α) : OrdMap κ α :=
  if m.contains k then m else m.orderedInsert (fun a b => a.1 ≤ b.1) (k, v)

def modify (m : OrdMap κ α) (k : κ) (f : α → α) : OrdMap κ α :=
  m.map fun e => (e.1, if e.1 = k then f e.2 else e.2)

theorem contains_iff : m.contains k = true ↔ ∃ v, (k, v) ∈ m := by
  simp only [contains, List.any_eq_true, decide_eq_true_eq]
  constructor
  · rintro ⟨⟨k', v⟩, he, rfl⟩
    exact ⟨v, he⟩
  · rintro ⟨v, he⟩
    exact ⟨(k, v), he, rfl⟩

theorem eq_nil_iff_contains : m = [] ↔ ∀ k, m.contains k = false := by
  constructor
  · rintro rfl k
    rfl
  · intro h
    cases m with
    | nil => rfl
    | cons e m =>
      have := h e.1
      simp [contains] at this

section Insert

variable [LE κ] [DecidableLE κ]

theorem mem_insert_of_new (h : m.contains k = false) :
    (k', v') ∈ m.insert k v ↔ (k', v') = (k, v) ∨ (k', v') ∈ m := by
  rw [insert, h]
  exact List.mem_orderedInsert _

theorem mem_or_of_mem_insert (h : (k', v') ∈ m.insert k v) :
    (k', v') = (k, v) ∧ m.contains k = false ∨ (k', v') ∈ m := by
  cases hk : m.contains k with
  | true =>
    rw [insert, if_pos hk] at h
    exact Or.inr h
  | false =>
    rcases (mem_insert_of_new hk).1 h with e | h
    · exact Or.inl ⟨e, rfl⟩
    · exact Or.inr h

theorem contains_insert : (m.insert k v).contains k' = (decide (k' = k) || m.contains k') := by
  rw [Bool.eq_iff_iff]
  simp only [Bool.or_eq_true, decide_eq_true_eq, contains_iff]
  cases hk : m.contains k with
  | true =>
    rw [insert, if_pos hk]
    constructor
    · exact Or.inr
    · rintro (rfl | h)
      · exact contains_iff.1 hk
      · exact h
  | false =>
    simp only [mem_insert_of_new hk, Prod.mk.injEq]
    constructor
    · rintro ⟨v', ⟨rfl, -⟩ | h⟩
      · exact Or.inl rfl
      · exact Or.inr ⟨v', h⟩
    · rintro (rfl | ⟨v', h⟩)
      · exact ⟨v, Or.inl ⟨rfl, rfl⟩⟩
      · exact ⟨v', Or.inr h⟩

/-- Of the entries with one key the first is inserted, if the key is new. -/
theorem mem_foldl_insert {f : β → κ × α} {l : List β} :
    (k, v) ∈ l.foldl (fun m b => m.insert (f b).1 (f b).2) m ↔
      (k, v) ∈ m ∨ m.contains k = false ∧
        ∃ b, l.find? (fun b => (f b).1 = k) = some b ∧ (f b).2 = v := by
  induction l generalizing m with
  | nil => simp
  | cons b l ih =>
    rw [List.foldl_cons, ih, contains_insert]
    by_cases here : (f b).1 = k
    · rw [List.find?_cons_of_pos (by simpa using here), here]
      cases there : m.contains k with
      | true => simp [insert, there]
      | false =>
        have absent : (k, v) ∉ m := by
          intro mem
          rw [contains_iff.2 ⟨v, mem⟩] at there
          cases there
        simp [mem_insert_of_new there, absent, eq_comm]
    · rw [List.find?_cons_of_neg (by simpa using here)]
      refine or_congr ?_ (by simp [Ne.symm here])
      cases there : m.contains (f b).1 with
      | true => rw [insert, if_pos there]
      | false =>
        have other : (k, v) ≠ ((f b).1, (f b).2) := fun eq => here (Prod.ext_iff.1 eq).1.symm
        rw [mem_insert_of_new there, or_iff_right other]

def Ordered (m : OrdMap κ α) : Prop := m.Pairwise fun a b => a.1 ≤ b.1

omit [DecidableEq κ] [DecidableLE κ] in
theorem Ordered.map {f : κ → α → β} (h : m.Ordered) :
    Ordered (m.map fun e => (e.1, f e.1 e.2)) :=
  List.pairwise_map.2 h

theorem Ordered.insert [Std.Total (α := κ) (· ≤ ·)] [IsTrans κ (· ≤ ·)] (h : m.Ordered) :
    (m.insert k v).Ordered := by
  unfold OrdMap.insert
  split
  · exact h
  · have : Std.Total (α := κ × α) fun a b => a.1 ≤ b.1 := ⟨fun a b => Std.Total.total a.1 b.1⟩
    have : IsTrans (κ × α) fun a b => a.1 ≤ b.1 :=
      ⟨fun a b c => IsTrans.trans (r := (· ≤ ·)) a.1 b.1 c.1⟩
    exact List.Pairwise.orderedInsert _ _ h

end Insert

theorem mem_modify {f : α → α} :
    (k', v') ∈ m.modify k f ↔ ∃ v, (k', v) ∈ m ∧ v' = if k' = k then f v else v := by
  simp only [modify, List.mem_map, Prod.mk.injEq, Prod.exists]
  constructor
  · rintro ⟨k₁, v, h, rfl, rfl⟩
    exact ⟨v, h, rfl⟩
  · rintro ⟨v, h, rfl⟩
    exact ⟨k', v, h, rfl, rfl⟩

theorem contains_map {f : κ → α → β} :
    contains (m.map fun e => (e.1, f e.1 e.2)) k = m.contains k := by
  simp [contains, List.any_map, Function.comp_def]

theorem contains_modify {f : α → α} : (m.modify k f).contains k' = m.contains k' :=
  contains_map (f := fun k₁ v => if k₁ = k then f v else v)

def get (m : OrdMap κ α) (k : κ) : Option α := (m.find? fun e => e.1 = k).map Prod.snd

def erase (m : OrdMap κ α) (k : κ) : OrdMap κ α := m.filter fun e => e.1 ≠ k

/-- Sets the entry of a key (`m[k] = v`). -/
def assign [LE κ] [DecidableLE κ] (m : OrdMap κ α) (k : κ) (v : α) : OrdMap κ α :=
  (m.erase k).orderedInsert (fun a b => a.1 ≤ b.1) (k, v)

@[simp] theorem get_nil : get ([] : OrdMap κ α) k = none := rfl

theorem get_cons (e : κ × α) : get (e :: m) k = if e.1 = k then some e.2 else get m k := by
  unfold get
  by_cases h : e.1 = k
  · simp [h]
  · simp [h]

@[simp] theorem get_erase : (m.erase k).get k' = if k' = k then none else m.get k' := by
  induction m with
  | nil => simp [erase]
  | cons e m ih =>
    by_cases he : e.1 = k
    · rw [erase, List.filter_cons_of_neg (by simpa using he), ← erase, ih, get_cons]
      split_ifs with h h' <;> simp_all
    · rw [erase, List.filter_cons_of_pos (by simpa using he), ← erase, get_cons, get_cons, ih]
      split_ifs with h h' <;> simp_all

section Assign

variable [LE κ] [DecidableLE κ]

theorem get_orderedInsert (h : m.get k = none) : get
    (m.orderedInsert (fun a b => a.1 ≤ b.1) (k, v)) k' = if k' = k then some v else m.get k' := by
  induction m with
  | nil =>
    rw [List.orderedInsert_nil, get_cons]
    by_cases hk : k' = k
    · simp [hk]
    · simp [hk, Ne.symm hk]
  | cons e m ih =>
    rw [get_cons] at h
    split_ifs at h with he
    rw [List.orderedInsert_cons]
    split_ifs with hle hk
    · rw [get_cons, if_pos hk.symm]
    · rw [get_cons, if_neg (Ne.symm hk)]
    · rw [get_cons, ih h, if_neg (fun eq => he (eq.trans ‹k' = k›)), if_pos ‹k' = k›]
    · rw [get_cons, get_cons, ih h, if_neg ‹¬ k' = k›]

@[simp] theorem get_assign : (m.assign k v).get k' = if k' = k then some v else m.get k' := by
  unfold assign
  rw [get_orderedInsert (by simp), get_erase]
  split_ifs <;> rfl

end Assign

theorem get_take {n : ℕ} (h : get (m.take n) k = some v) : m.get k = some v := by
  induction m generalizing n with
  | nil => simp at h
  | cons e m ih =>
    cases n with
    | zero => simp at h
    | succ n =>
      rw [List.take_succ_cons, get_cons] at h
      rw [get_cons]
      split_ifs at h ⊢ with he
      · exact h
      · exact ih h

end OrdMap

end Polycube.Lib
