import Mathlib.Data.List.Nodup
import Mathlib.Logic.Function.Basic

/-!
# Chains of links

Each element of a chain holds the place to go to behind it.  `Leads` follows these from a place
and names the elements met.  `relink` makes a chain anew from its end, over the elements of a list
that take part; `retarget` moves the end of one.
-/

namespace Polycube.Lib

open Function

variable {κ ι σ : Type*}

/-- Following `next` from the place `i` meets exactly `cs`, in order, and comes to `e`. -/
def Leads (index next : κ → ι) : List κ → ι → ι → Prop
  | [], i, e => i = e
  | c :: cs, i, e => i = index c ∧ Leads index next cs (next c) e

/-- Links the elements of a list that take part, the one nearest to the end first, and returns the
place where the chain starts. -/
def relink (has : κ → Bool) (index : κ → ι) (set : κ → ι → σ → σ) : List κ → ι → σ → σ × ι
  | [], e, s => (s, e)
  | c :: cs, e, s =>
    if has c then relink has index set cs (index c) (set c e s)
    else relink has index set cs e s

variable {index next next' : κ → ι} {cs cs' : List κ} {i j e : ι} {c : κ}

theorem leads_append :
    Leads index next (cs ++ cs') i e ↔ ∃ j, Leads index next cs i j ∧ Leads index next cs' j e := by
  induction cs generalizing i with
  | nil => simp [Leads]
  | cons c cs ih => simp only [List.cons_append, Leads, ih, exists_and_left, and_assoc]

theorem leads_congr (h : ∀ c ∈ cs, next' c = next c) :
    Leads index next' cs i e ↔ Leads index next cs i e := by
  induction cs generalizing i with
  | nil => rfl
  | cons c cs ih =>
    rw [Leads, Leads, h c List.mem_cons_self, ih fun c' hc' => h c' (List.mem_cons_of_mem _ hc')]

theorem Leads.map {ι' : Type*} (f : ι → ι') (h : Leads index next cs i e) :
    Leads (fun c => f (index c)) (fun c => f (next c)) cs (f i) (f e) := by
  induction cs generalizing i with
  | nil => exact congrArg f h
  | cons c cs ih => exact ⟨congrArg f h.1, ih h.2⟩

section Update

variable [DecidableEq κ]

theorem leads_update_of_notMem (h : c ∉ cs) (j : ι) :
    Leads index (update next c j) cs i e ↔ Leads index next cs i e :=
  leads_congr fun c' hc' => update_of_ne (fun eq : c' = c => h (eq ▸ hc')) _ _

theorem Leads.retarget (h : Leads index next cs i e) (distinct : cs.Nodup)
    (last : cs.getLast? = some c) (j : ι) : Leads index (update next c j) cs i j := by
  obtain ⟨init, rfl⟩ := List.getLast?_eq_some_iff.1 last
  obtain ⟨k, front, hk, -⟩ := leads_append.1 h
  have fresh : c ∉ init := fun hc => (List.nodup_append.1 distinct).2.2 c hc c (by simp) rfl
  exact leads_append.2 ⟨k, (leads_update_of_notMem fresh j).2 front, hk, update_self ..⟩

end Update

section Relink

variable (has : κ → Bool) (index : κ → ι) (set : κ → ι → σ → σ) (get : σ → κ → ι)

theorem relink_keeps {α : Type*} (f : σ → α) (keep : ∀ c j s, f (set c j s) = f s) (cs : List κ)
    (e : ι) (s : σ) : f (relink has index set cs e s).1 = f s := by
  induction cs generalizing e s with
  | nil => rfl
  | cons c cs ih =>
    unfold relink
    split_ifs
    · rw [ih, keep]
    · exact ih _ _

/-- The chain starts at the last element of the list that takes part. -/
theorem relink_snd (cs : List κ) (e : ι) (s : σ) : (relink has index set cs e s).2 =
    match cs.reverse.find? has with
    | some c => index c
    | none => e := by
  induction cs generalizing e s with
  | nil => rfl
  | cons c cs ih =>
    rw [List.reverse_cons, List.find?_append]
    unfold relink
    split_ifs with hc
    · rw [ih]
      cases cs.reverse.find? has <;> simp [hc]
    · rw [ih]
      cases cs.reverse.find? has <;> simp [hc]

variable [DecidableEq κ]

/-- Elements that are not in the list keep their place to go to. -/
theorem get_relink_of_notMem (sets : ∀ c j s, get (set c j s) = update (get s) c j)
    (s : σ) (h : c ∉ cs) : get (relink has index set cs e s).1 c = get s c := by
  induction cs generalizing e s with
  | nil => rfl
  | cons c' cs ih =>
    simp only [List.mem_cons, not_or] at h
    unfold relink
    split_ifs
    · rw [ih _ h.2, sets, update_of_ne h.1]
    · exact ih _ h.2

/-- A chain linked anew is the list read backwards, without the elements that take no part. -/
theorem leads_relink (sets : ∀ c j s, get (set c j s) = update (get s) c j)
    (distinct : cs.Nodup) (e : ι) (s : σ) :
    Leads index (get (relink has index set cs e s).1) (cs.reverse.filter has)
      (relink has index set cs e s).2 e := by
  induction cs generalizing e s with
  | nil => rfl
  | cons c cs ih =>
    rw [List.nodup_cons] at distinct
    rw [List.reverse_cons, List.filter_append]
    unfold relink
    split_ifs with hc
    · refine leads_append.2 ⟨index c, ih distinct.2 _ _, ?_⟩
      rw [List.filter_cons_of_pos hc]
      refine ⟨rfl, ?_⟩
      rw [get_relink_of_notMem has index set get sets _ distinct.1, sets, update_self]
      exact rfl
    · rw [List.filter_cons_of_neg hc, List.filter_nil, List.append_nil]
      exact ih distinct.2 _ _

end Relink

end Polycube.Lib
