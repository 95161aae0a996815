import Mathlib.Data.List.ReduceOption
import Polycube.Lib.Listed
import Polycube.Lib.Run
import Polycube.Natting.RuleStores

/-!
# Rule stores and rule tables

The tables of the programs are in step with the configured rules when they list the entries of the
rules, and of masquerade when it is enabled, and nothing else.  Rules are found by their ids and
moved by their positions, so a store works as long as these are the same: `Held` is what the
operations keep, next to the entries others have in the same table.
-/

namespace Polycube.Natting

open Lib

/-! ### One kind of rules -/

namespace Kind

variable {C E U S K V : Type} [DecidableEq K] (k : Kind C E U S K V)

def entry (e : E) : K × V := (k.key e, k.value e)

/-- The rules stand in the order of their ids, and the table lists them and the entries `rest`. -/
structure Held (rest : List (K × V)) (l : List E) (r : Rules E K V) : Prop where
  entries : r.entries = l.map some
  ids : l.map k.id = List.range l.length
  table : Listed (l.map k.entry ++ rest) r.table

/-- What a store is given: a new rule that is not refused as a duplicate gets the number of the
rules as its id, and nothing stands under its key. -/
def AddFits (r : Rules E K V) (conf : C) (refused : Bool) : Prop :=
  ∀ e, k.create conf = some e → (∀ it, some it ∈ r.entries → k.same it e = false) →
    k.confId conf = r.entries.length ∧ refused = false ∧ r.table (k.key e) = none

/-- The id is not the number of the rules, and is small when no rule has it. -/
def DelFits (r : Rules E K V) (id : ℕ) : Prop :=
  id ≠ r.entries.length ∧ (r.entries.length < id → id ≤ 17)

def EditFits (r : Rules E K V) (id : ℕ) (m : Method E Unit) : Prop :=
  (∀ e, some e ∈ r.entries → k.id e = id →
    k.key (leaves m e) = k.key e ∧ k.value (leaves m e) = k.value e) ∧
  ((∀ e, some e ∈ r.entries → k.id e ≠ id) → id ≤ 17)

def After (m : Work E K V Unit) (P : Rules E K V → Prop) (r : Rules E K V) : Prop :=
  wp m (fun _ r' => P r') (fun _ _ => True) r

def AddListFits : List (C × Bool) → Rules E K V → Prop
  | [], _ => True
  | (conf, refused) :: l, r =>
    k.AddFits r conf refused ∧ After (k.addEntry conf refused) (AddListFits l) r

def UpdateFits : List (ℕ × U) → Rules E K V → Prop
  | [], _ => True
  | (id, u) :: l, r =>
    k.EditFits r id (k.update u) ∧ After (k.edit id (k.update u)) (UpdateFits l) r

def Fits (r : Rules E K V) : RuleOp C U S → Prop
  | .append conf refused => k.AddFits r (k.withId r.entries.length conf) refused
  | .addEntry conf refused => k.AddFits r conf refused
  | .addEntryList l => k.AddListFits l r
  | .replaceEntry id conf refused =>
    DelFits r id ∧ After (k.delEntry id) (fun r' => k.AddFits r' conf refused) r
  | .update l => k.UpdateFits l r
  | .set id s => k.EditFits r id (k.set s)
  | .delEntry id => DelFits r id
  | .delEntryList => True

instance (r : Rules E K V) (conf : C) (refused : Bool) : Decidable (k.AddFits r conf refused) :=
  decidable_of_iff (∀ e ∈ k.create conf, (∀ x ∈ r.entries, ∀ it ∈ x, k.same it e = false) →
      k.confId conf = r.entries.length ∧ refused = false ∧ r.table (k.key e) = none) (by
    refine forall₂_congr fun e _ => imp_congr_left ⟨fun h it hit => h _ hit it rfl, ?_⟩
    rintro h x hx it ⟨⟩
    exact h it hx)

instance (r : Rules E K V) (id : ℕ) : Decidable (DelFits r id) :=
  inferInstanceAs (Decidable (id ≠ r.entries.length ∧ (r.entries.length < id → id ≤ 17)))

instance [DecidableEq V] (r : Rules E K V) (id : ℕ) (m : Method E Unit) :
    Decidable (k.EditFits r id m) :=
  decidable_of_iff ((∀ x ∈ r.entries, ∀ e ∈ x, k.id e = id →
      k.key (leaves m e) = k.key e ∧ k.value (leaves m e) = k.value e) ∧
    ((∀ x ∈ r.entries, ∀ e ∈ x, k.id e ≠ id) → id ≤ 17)) (by
    have all : ∀ P : E → Prop, (∀ x ∈ r.entries, ∀ e ∈ x, P e) ↔ ∀ e, some e ∈ r.entries → P e := by
      refine fun P => ⟨fun h e he => h _ he e rfl, ?_⟩
      rintro h x hx e ⟨⟩
      exact h e hx
    rw [all, all]
    rfl)

instance (m : Work E K V Unit) (P : Rules E K V → Prop) [DecidablePred P] (r : Rules E K V) :
    Decidable (After m P r) :=
  match h : m.run r with
  | .ok _ r' => decidable_of_iff (P r') (by unfold After wp; rw [h])
  | .error _ _ => isTrue (by unfold After wp; rw [h]; trivial)

instance decidableAddList : ∀ (l : List (C × Bool)) (r : Rules E K V),
    Decidable (k.AddListFits l r)
  | [], _ => inferInstanceAs (Decidable True)
  | (conf, refused) :: l, r =>
    have := decidableAddList l
    inferInstanceAs (Decidable (k.AddFits r conf refused ∧
      After (k.addEntry conf refused) (k.AddListFits l) r))

instance decidableUpdate [DecidableEq V] : ∀ (l : List (ℕ × U)) (r : Rules E K V),
    Decidable (k.UpdateFits l r)
  | [], _ => inferInstanceAs (Decidable True)
  | (id, u) :: l, r =>
    have := decidableUpdate l
    inferInstanceAs (Decidable (k.EditFits r id (k.update u) ∧
      After (k.edit id (k.update u)) (k.UpdateFits l) r))

instance [DecidableEq V] (r : Rules E K V) : ∀ op, Decidable (k.Fits r op)
  | .append conf refused =>
    inferInstanceAs (Decidable (k.AddFits r (k.withId r.entries.length conf) refused))
  | .addEntry conf refused => inferInstanceAs (Decidable (k.AddFits r conf refused))
  | .addEntryList l => inferInstanceAs (Decidable (k.AddListFits l r))
  | .replaceEntry id conf refused => inferInstanceAs (Decidable (DelFits r id ∧
      After (k.delEntry id) (fun r' => k.AddFits r' conf refused) r))
  | .update l => inferInstanceAs (Decidable (k.UpdateFits l r))
  | .set id s => inferInstanceAs (Decidable (k.EditFits r id (k.set s)))
  | .delEntry id => inferInstanceAs (Decidable (DelFits r id))
  | .delEntryList => inferInstanceAs (Decidable True)

variable {k} {rest : List (K × V)} {l pre post : List E} {r : Rules E K V} {e : E} {id : ℕ}

section

omit [DecidableEq K]

theorem Held.mem_iff (h : k.Held rest l r) : some e ∈ r.entries ↔ e ∈ l := by
  rw [h.entries, List.mem_map_of_injective (Option.some_injective E)]

theorem Held.length (h : k.Held rest l r) : r.entries.length = l.length := by
  rw [h.entries, List.length_map]

/-- The rule under an id stands at that position, and no other has the id. -/
theorem Held.split (h : k.Held rest l r) (lt : id < l.length) :
    ∃ pre e post, l = pre ++ e :: post ∧ pre.length = id ∧ k.id e = id ∧
      ∀ x ∈ pre ++ post, k.id x ≠ id := by
  have hid : k.id l[id] = id := by
    have at_id := congrArg (·[id]?) h.ids
    simp only [List.getElem?_map, List.getElem?_eq_getElem lt, Option.map_some,
      List.getElem?_range lt, Option.some.injEq] at at_id
    exact at_id
  have hl : l = l.take id ++ l[id] :: l.drop (id + 1) := by
    rw [List.cons_getElem_drop_succ, List.take_append_drop]
  have nodup : ((l.take id ++ l[id] :: l.drop (id + 1)).map k.id).Nodup := by
    rw [← hl, h.ids]
    exact List.nodup_range
  have first := (List.perm_middle.map k.id).nodup_iff.1 nodup
  rw [List.map_cons, List.nodup_cons] at first
  refine ⟨_, _, _, hl, List.length_take_of_le lt.le, hid, fun x hx same => first.1 ?_⟩
  have hm := List.mem_map_of_mem (f := k.id) hx
  rw [same] at hm
  rwa [hid]

theorem ids_of_append {pre post : List E}
    (h : (pre ++ post).map k.id = List.range (pre ++ post).length) :
    pre.map k.id = List.range pre.length := by
  rw [List.map_append, List.length_append, List.range_eq_range', ← List.range'_append_1] at h
  rw [List.range_eq_range']
  exact (List.append_inj h (by rw [List.length_map, List.length_range'])).1

/-- No rule has the number of the rules, or a greater one, as its id. -/
theorem Held.id_lt (h : k.Held rest l r) (he : e ∈ l) : k.id e < l.length := by
  have hm := List.mem_map_of_mem (f := k.id) he
  rw [h.ids] at hm
  exact List.mem_range.1 hm

theorem Held.table_of_mem (h : k.Held rest l r) (he : e ∈ l) :
    r.table (k.key e) = some (k.value e) :=
  h.table.apply_of_mem (List.mem_append_left _ (List.mem_map_of_mem (f := k.entry) he))

end

omit [DecidableEq K] in
theorem checkDuplicates_spec (e : E) (l : List E) (r : Rules E K V) :
    wp (k.checkDuplicates e (l.map some))
      (fun _ r' => r' = r ∧ ∀ it ∈ l, k.same it e = false)
      (fun stop r' => stop = .throws ∧ r' = r) r := by
  induction l with
  | nil => exact ⟨rfl, fun it h => absurd h List.not_mem_nil⟩
  | cons it l ih =>
    rw [List.map_cons]
    unfold checkDuplicates
    rw [wp_ite]
    split_ifs with same
    · exact ⟨rfl, rfl⟩
    · refine wp_mono ih ?_ fun _ _ h => h
      rintro _ r' ⟨rfl, other⟩
      refine ⟨rfl, fun x hx => ?_⟩
      rcases List.mem_cons.1 hx with rfl | hx
      · exact Bool.not_eq_true _ ▸ same
      · exact other x hx

theorem addEntry_spec (h : k.Held rest l r) {conf : C} {refused : Bool}
    (fits : k.AddFits r conf refused) :
    wp (k.addEntry conf refused) (fun _ r' => ∃ l', k.Held rest l' r')
      (fun stop r' => stop = .throws ∧ r' = r) r := by
  unfold addEntry
  cases hc : k.create conf with
  | none => exact ⟨rfl, rfl⟩
  | some e =>
    simp only [wp_bind, wp_get]
    rw [h.entries]
    refine wp_mono (checkDuplicates_spec e l r) ?_ fun _ _ h => h
    rintro _ r' ⟨rfl, other⟩
    obtain ⟨hid, hrefused, new⟩ := fits e hc fun it hit => other it (h.mem_iff.1 hit)
    unfold injectToDatapath
    rw [hrefused, wp_modify, if_neg Bool.false_ne_true, wp_modify]
    refine ⟨l ++ [e], ?_, ?_, ?_⟩
    · show r'.entries ++ [some e] = _
      rw [h.entries, List.map_append, List.map_singleton]
    · rw [List.map_append, h.ids, List.length_append, List.length_singleton, List.range_succ,
        List.map_singleton, k.id_create conf e hc, hid, h.length]
    · refine (h.table.set (v := k.value e) new).perm ?_
      rw [List.map_append, List.map_singleton, List.append_assoc]
      exact List.perm_middle.symm

theorem addEntryList_spec (h : k.Held rest l r) {confs : List (C × Bool)}
    (fits : k.AddListFits confs r) :
    wp (k.addEntryList confs) (fun _ r' => ∃ l', k.Held rest l' r')
      (fun stop r' => stop = .throws ∧ ∃ l', k.Held rest l' r') r := by
  induction confs generalizing l r with
  | nil => exact ⟨l, h⟩
  | cons c confs ih =>
    obtain ⟨first, others⟩ := fits
    unfold addEntryList
    rw [wp_bind]
    refine wp_mono (wp_and (addEntry_spec h first) others) ?_ ?_
    · rintro _ r' ⟨⟨l', h'⟩, fits'⟩
      exact ih h' fits'
    · rintro stop r' ⟨⟨rfl, rfl⟩, -⟩
      exact ⟨rfl, l, h⟩

/-! ### Deletion -/

theorem removeId_of_split {post : List (Option E)} (other : ∀ x ∈ pre, k.id x ≠ id)
    (hid : k.id e = id) :
    k.removeId id (pre.map some ++ some e :: post) = k.removeFromDatapath e := by
  induction pre with
  | nil =>
    rw [List.map_nil, List.nil_append]
    unfold removeId
    rw [if_pos hid]
  | cons x pre ih =>
    rw [List.map_cons, List.cons_append]
    unfold removeId
    rw [if_neg (other x List.mem_cons_self)]
    exact ih fun y hy => other y (List.mem_cons_of_mem x hy)

/-- Rules that get their positions, counted from `i`, as ids. -/
def moved (k : Kind C E U S K V) : ℕ → List E → List E
  | _, [] => []
  | i, e :: l => k.setId i e :: moved k (i + 1) l

section

omit [DecidableEq K]

theorem renumber_map_some (i : ℕ) (l : List E) :
    k.renumber i (l.map some) = some ((k.moved i l).map some) := by
  induction l generalizing i with
  | nil => rfl
  | cons e l ih =>
    rw [List.map_cons]
    unfold renumber
    rw [ih, Option.map_some]
    rfl

theorem length_moved (i : ℕ) (l : List E) : (k.moved i l).length = l.length := by
  induction l generalizing i with
  | nil => rfl
  | cons e l ih => exact congrArg (· + 1) (ih (i + 1))

theorem map_id_moved (i : ℕ) (l : List E) : (k.moved i l).map k.id = List.range' i l.length := by
  induction l generalizing i with
  | nil => rfl
  | cons e l ih =>
    unfold moved
    rw [List.map_cons, ih, k.id_setId]
    rfl

theorem map_entry_moved (i : ℕ) (l : List E) : (k.moved i l).map k.entry = l.map k.entry := by
  induction l generalizing i with
  | nil => rfl
  | cons e l ih =>
    unfold moved
    rw [List.map_cons, List.map_cons, ih]
    unfold entry
    rw [k.key_setId, k.value_setId]

/-- Nothing but the ids is changed. -/
theorem map_setId_moved (m i : ℕ) (l : List E) :
    (k.moved i l).map (k.setId m) = l.map (k.setId m) := by
  induction l generalizing i with
  | nil => rfl
  | cons e l ih =>
    unfold moved
    rw [List.map_cons, List.map_cons, ih, k.setId_setId]

end

theorem noRule_small (small : id ≤ 17) : noRule id = .throws := if_neg (Nat.not_lt.2 small)

theorem delEntry_spec (h : k.Held rest l r) (fits : DelFits r id) :
    wp (k.delEntry id)
      (fun _ r' => ∃ pre e post, l = pre ++ e :: post ∧ k.id e = id ∧
        (∀ x ∈ pre ++ post, k.id x ≠ id) ∧ k.Held rest (pre ++ k.moved id post) r')
      (fun stop r' => stop = .throws ∧ r' = r ∧ ∀ e ∈ l, k.id e ≠ id) r := by
  unfold delEntry
  obtain ⟨notNext, small⟩ := fits
  simp only [wp_bind, wp_get, wp_ite, wp_throw]
  split_ifs with hlt
  · refine ⟨noRule_small (small hlt), trivial, fun e he same => ?_⟩
    have := h.id_lt he
    have := h.length
    omega
  · have lt : id < l.length := by
      have := h.length
      omega
    obtain ⟨pre, e, post, rfl, hpos, hid, other⟩ := h.split lt
    have hentries : r.entries = pre.map some ++ some e :: post.map some := by
      rw [h.entries, List.map_append, List.map_cons]
    rw [hentries, removeId_of_split (fun x hx => other x (List.mem_append_left _ hx)) hid]
    have he : e ∈ pre ++ e :: post := List.mem_append_right _ List.mem_cons_self
    unfold removeFromDatapath
    simp only [wp_bind, wp_get, wp_ite, wp_throw, wp_modify]
    rw [if_neg (by rw [h.table_of_mem he]; exact Option.some_ne_none _)]
    unfold moveUp
    simp only [wp_bind, wp_get, wp_ite, wp_throw, wp_modify]
    rw [if_neg (by rw [hentries]; exact List.append_ne_nil_of_right_ne_nil _ (List.cons_ne_nil _ _)),
      if_pos (by rw [h.length]; exact lt)]
    have hdrop : r.entries.drop (id + 1) = post.map some := by
      rw [hentries, List.drop_append, ← hpos]
      simp
    have htake : r.entries.take id = pre.map some := by
      rw [hentries, List.take_append, ← hpos]
      simp
    rw [hdrop, renumber_map_some]
    rw [wp_modify, htake]
    refine ⟨pre, e, post, rfl, hid, other, ?_, ?_, ?_⟩
    · exact List.map_append.symm
    · rw [List.map_append, map_id_moved, List.length_append, length_moved, ids_of_append h.ids,
        ← hpos, List.range_eq_range', List.range_eq_range', ← List.range'_append_1, Nat.zero_add]
    · rw [List.map_append, map_entry_moved, ← List.map_append]
      have first : Listed (k.entry e :: ((pre ++ post).map k.entry ++ rest)) r.table := by
        refine h.table.perm ?_
        rw [← List.cons_append, ← List.map_cons]
        exact (List.perm_middle.map k.entry).append_right rest
      exact first.remove

/-- The loop over the rules that are left removes their entries of the table. -/
theorem removeAll_spec {i : ℕ} {r : Rules E K V} (h : Listed (l.map k.entry ++ rest) r.table) :
    wp (k.removeAll i (l.map some)) (fun _ r' => Listed rest r'.table) (fun _ _ => False) r := by
  induction l generalizing i r with
  | nil => exact h
  | cons e l ih =>
    have he : r.table (k.key e) = some (k.value e) := h.apply_of_mem List.mem_cons_self
    rw [List.map_cons]
    unfold removeAll removeFromDatapath
    simp only [wp_bind, wp_get, wp_ite, wp_throw, wp_modify]
    rw [if_neg (by rw [he]; exact Option.some_ne_none _)]
    exact ih h.remove

theorem delEntryList_spec (h : k.Held rest l r) :
    wp k.delEntryList (fun _ r' => k.Held rest [] r') (fun _ _ => False) r := by
  unfold delEntryList
  simp only [wp_bind, wp_get]
  rw [h.entries]
  refine wp_mono (removeAll_spec h.table) ?_ fun _ _ h => h
  intro _ r' table
  exact ⟨rfl, rfl, table⟩

theorem replaceEntry_spec (h : k.Held rest l r) {conf : C} {refused : Bool}
    (fits : DelFits r id)
    (add : After (k.delEntry id) (fun r' => k.AddFits r' conf refused) r) :
    wp (k.replaceEntry id conf refused) (fun _ r' => ∃ l', k.Held rest l' r')
      (fun stop r' => stop = .throws ∧ ∃ l', k.Held rest l' r') r := by
  unfold replaceEntry
  rw [wp_bind]
  refine wp_mono (wp_and (delEntry_spec h fits) add) ?_ ?_
  · rintro _ r' ⟨⟨pre, e, post, -, -, -, h'⟩, fits'⟩
    refine wp_mono (addEntry_spec h' fits') (fun _ _ h => h) ?_
    rintro stop r'' ⟨rfl, rfl⟩
    exact ⟨rfl, _, h'⟩
  · rintro stop r' ⟨⟨rfl, rfl, -⟩, -⟩
    exact ⟨rfl, l, h⟩

section

omit [DecidableEq K]

theorem getEntry_of_split {post : List (Option E)} (i : ℕ) (other : ∀ x ∈ pre, k.id x ≠ id)
    (hid : k.id e = id) :
    k.getEntry id i (pre.map some ++ some e :: post) =
      (pure (i + pre.length, e) : Work E K V (ℕ × E)) := by
  induction pre generalizing i with
  | nil =>
    rw [List.map_nil, List.nil_append]
    unfold getEntry
    rw [if_pos hid]
    rfl
  | cons x pre ih =>
    rw [List.map_cons, List.cons_append, List.length_cons]
    unfold getEntry
    rw [if_neg (other x List.mem_cons_self), ih (i + 1) fun y hy => other y (List.mem_cons_of_mem x hy)]
    congr 2
    omega

theorem getEntry_of_none (i : ℕ) (l : List E) (other : ∀ x ∈ l, k.id x ≠ id) :
    k.getEntry id i (l.map some) = (throw (noRule id) : Work E K V (ℕ × E)) := by
  induction l generalizing i with
  | nil => rfl
  | cons x l ih =>
    rw [List.map_cons]
    unfold getEntry
    rw [if_neg (other x List.mem_cons_self), ih (i + 1) fun y hy => other y (List.mem_cons_of_mem x hy)]

theorem Held.edited (h : k.Held rest (pre ++ e :: post) r) {e' : E} (hid : k.id e' = k.id e)
    (hkey : k.key e' = k.key e) (hvalue : k.value e' = k.value e) :
    k.Held rest (pre ++ e' :: post) { r with entries := r.entries.set pre.length (some e') } where
  entries := by
    rw [h.entries, List.map_append, List.map_cons, List.map_append, List.map_cons]
    rw [List.set_append_right _ _ (by rw [List.length_map]), List.length_map, Nat.sub_self]
    rfl
  ids := by
    have ids := h.ids
    rw [List.map_append, List.map_cons, List.length_append, List.length_cons] at ids ⊢
    rw [hid, ids]
  table := by
    have entry : k.entry e' = k.entry e := Prod.ext hkey hvalue
    rw [List.map_append, List.map_cons, entry]
    have table := h.table
    rwa [List.map_append, List.map_cons] at table

theorem edit_spec (h : k.Held rest l r) {m : Method E Unit} (keeps : Keeps k.id m)
    (fits : k.EditFits r id m) :
    wp (k.edit id m) (fun _ r' => ∃ l', k.Held rest l' r')
      (fun stop r' => stop = .throws ∧ ∃ l', k.Held rest l' r') r := by
  unfold edit
  simp only [wp_bind, wp_get]
  by_cases lt : id < l.length
  · obtain ⟨pre, e, post, rfl, hpos, hid, other⟩ := h.split lt
    have hentries : r.entries = pre.map some ++ some e :: post.map some := by
      rw [h.entries, List.map_append, List.map_cons]
    have he : some e ∈ r.entries := by
      rw [hentries]
      exact List.mem_append_right _ List.mem_cons_self
    rw [hentries, getEntry_of_split 0 (fun x hx => other x (List.mem_append_left _ hx)) hid, wp_pure,
      Nat.zero_add]
    obtain ⟨hkey, hvalue⟩ := fits.1 e he hid
    have held := h.edited (keeps e) hkey hvalue
    unfold leaves at held
    unfold call
    cases hm : m.run e with
    | ok u e' =>
      rw [hm] at held
      exact ⟨_, held⟩
    | error u e' =>
      rw [hm] at held
      exact ⟨rfl, _, held⟩
  · have other : ∀ x ∈ l, k.id x ≠ id := fun x hx same => lt (same ▸ h.id_lt hx)
    rw [h.entries, getEntry_of_none 0 l other]
    exact ⟨noRule_small (fits.2 fun e he => other e (h.mem_iff.1 he)), l, h⟩

theorem updateList_spec (h : k.Held rest l r) {us : List (ℕ × U)} (fits : k.UpdateFits us r) :
    wp (k.updateList us) (fun _ r' => ∃ l', k.Held rest l' r')
      (fun stop r' => stop = .throws ∧ ∃ l', k.Held rest l' r') r := by
  induction us generalizing l r with
  | nil => exact ⟨l, h⟩
  | cons u us ih =>
    obtain ⟨first, others⟩ := fits
    unfold updateList
    rw [wp_bind]
    refine wp_mono (wp_and (edit_spec h (k.id_update u.2) first) others) ?_ ?_
    · rintro _ r' ⟨⟨l', h'⟩, fits'⟩
      exact ih h' fits'
    · rintro stop r' ⟨held, -⟩
      exact held

end

theorem exec_spec (h : k.Held rest l r) (op : RuleOp C U S) (fits : k.Fits r op) :
    wp (k.exec op) (fun _ r' => ∃ l', k.Held rest l' r')
      (fun stop r' => stop = .throws ∧ ∃ l', k.Held rest l' r') r := by
  have unchanged : ∀ stop r', stop = Stop.throws ∧ r' = r →
      stop = .throws ∧ ∃ l', k.Held rest l' r' := by
    rintro stop r' ⟨rfl, rfl⟩
    exact ⟨rfl, l, h⟩
  cases op with
  | append conf refused =>
    unfold exec append
    simp only [wp_bind, wp_get]
    exact wp_mono (addEntry_spec h fits) (fun _ _ h => h) unchanged
  | addEntry conf refused => exact wp_mono (addEntry_spec h fits) (fun _ _ h => h) unchanged
  | addEntryList confs => exact addEntryList_spec h fits
  | replaceEntry id conf refused => exact replaceEntry_spec h fits.1 fits.2
  | update us => exact updateList_spec h fits
  | set id s => exact edit_spec h (k.id_set s) fits
  | delEntry id =>
    refine wp_mono (delEntry_spec h fits) ?_ fun stop r' h => unchanged stop r' ⟨h.1, h.2.1⟩
    rintro _ r' ⟨pre, e, post, -, -, -, h'⟩
    exact ⟨_, h'⟩
  | delEntryList =>
    exact wp_mono (delEntryList_spec h) (fun _ _ h' => ⟨[], h'⟩) fun _ _ h => h.elim

end Kind

theorem wp_on {R : Type} {part : Store → R} {setPart : Store → R → Store}
    {m : EStateM Stop R Unit} {ok : Unit → Store → Prop} {err : Stop → Store → Prop} {s : Store} :
    wp (on part setPart m) ok err s ↔
      wp m (fun _ r => ok () (setPart s r)) (fun stop r => err stop (setPart s r)) (part s) := by
  unfold wp on EStateM.run
  dsimp only
  cases m (part s) <;> rfl

theorem reduceOption_map_some {E : Type} (l : List E) : (l.map some).reduceOption = l := by
  unfold List.reduceOption
  rw [List.filterMap_map]
  exact List.filterMap_some

namespace Store

def masqueradeEntries (s : Store) : List ((ℕ × BitVec 32) × SmV) :=
  if s.enabled = true then
    s.externalIp.toList.map fun ip => (Lpm.key 0 0, ⟨ip, .masquerade, masquerade_isSource⟩)
  else []

structure InStep (s : Store) : Prop where
  sm : Listed (s.snat.reduceOption.map ruleSnat.entry ++ s.masqueradeEntries) s.smRules
  dp : Listed (s.dnat.reduceOption.map ruleDnat.entry ++
    s.portForwarding.reduceOption.map rulePortForwarding.entry) s.dpRules
  address : s.enabled = true → s.externalIp.isSome

/-- The rules of every kind stand in the order of their ids, and the tables are in step. -/
structure Inv (s : Store) (snat : List RuleSnatEntry) (dnat : List RuleDnatEntry)
    (portForwarding : List RulePortForwardingEntry) : Prop where
  heldSnat : ruleSnat.Held s.masqueradeEntries snat s.snatRules
  heldDnat : ruleDnat.Held (portForwarding.map rulePortForwarding.entry) dnat s.dnatRules
  heldPortForwarding :
    rulePortForwarding.Held (dnat.map ruleDnat.entry) portForwarding s.portForwardingRules
  address : s.enabled = true → s.externalIp.isSome

variable {s : Store} {snat : List RuleSnatEntry} {dnat : List RuleDnatEntry}
  {portForwarding : List RulePortForwardingEntry}

theorem Inv.inStep (inv : s.Inv snat dnat portForwarding) : s.InStep where
  sm := by
    have entries : s.snat = snat.map some := inv.heldSnat.entries
    rw [entries, reduceOption_map_some]
    exact inv.heldSnat.table
  dp := by
    have entries : s.dnat = dnat.map some := inv.heldDnat.entries
    have entries' : s.portForwarding = portForwarding.map some := inv.heldPortForwarding.entries
    rw [entries, entries', reduceOption_map_some, reduceOption_map_some]
    exact inv.heldDnat.table
  address := inv.address

theorem inv_start : start.Inv [] [] [] where
  heldSnat := ⟨rfl, rfl, Listed.nil⟩
  heldDnat := ⟨rfl, rfl, Listed.nil⟩
  heldPortForwarding := ⟨rfl, rfl, Listed.nil⟩
  address h := by cases h

/-- Masquerade can be enabled: its address is known, the kernel takes the entry, and there is no
other under its key. -/
def Enables (s : Store) (refused : Bool) : Prop :=
  s.externalIp.isSome ∧ refused = false ∧ s.smRules (Lpm.key 0 0) = none

/-- What is asked of masquerade.  To disable it writes an entry where one should be removed. -/
def FitsSetEnabled (s : Store) (value refused : Bool) : Prop :=
  if value = true then s.enabled = false → s.Enables refused else s.enabled = false

/-- The member of a new object happens to hold what that of the old one did. -/
def FitsAdd (s : Store) (unset : Bool) (value : Option Bool) (refused : Bool) : Prop :=
  unset = s.enabled ∧ s.FitsSetEnabled (value.getD false) refused

theorem inv_enabled (inv : s.Inv snat dnat portForwarding) (disabled : s.enabled = false)
    {ip : BitVec 32} (known : s.externalIp = some ip) (new : s.smRules (Lpm.key 0 0) = none) :
    Inv { s with
      smRules := s.smRules.set 0 0 ⟨ip, .masquerade, rfl⟩
      enabled := true } snat dnat portForwarding where
  heldSnat := by
    have none : s.masqueradeEntries = [] := by
      unfold masqueradeEntries
      rw [disabled]
      rfl
    have table : Listed (snat.map ruleSnat.entry ++ s.masqueradeEntries) s.smRules :=
      inv.heldSnat.table
    rw [none, List.append_nil] at table
    refine ⟨inv.heldSnat.entries, inv.heldSnat.ids, ?_⟩
    have entries : masqueradeEntries { s with
        smRules := s.smRules.set 0 0 ⟨ip, .masquerade, rfl⟩
        enabled := true } = [(Lpm.key 0 0, ⟨ip, .masquerade, rfl⟩)] := by
      unfold masqueradeEntries
      rw [known]
      rfl
    rw [entries]
    exact (table.set new).perm (List.perm_append_singleton _ _).symm
  heldDnat := ⟨inv.heldDnat.entries, inv.heldDnat.ids, inv.heldDnat.table⟩
  heldPortForwarding :=
    ⟨inv.heldPortForwarding.entries, inv.heldPortForwarding.ids, inv.heldPortForwarding.table⟩
  address _ := by
    rw [known]
    rfl

theorem inv_enable (inv : s.Inv snat dnat portForwarding) {refused : Bool}
    (fits : s.enabled = false → s.externalIp.isSome → refused = false →
      s.smRules (Lpm.key 0 0) = none) :
    (s.enable refused).2.Inv snat dnat portForwarding := by
  unfold enable
  split_ifs with henabled
  · exact inv
  · have disabled : s.enabled = false := Bool.not_eq_true _ ▸ henabled
    cases known : s.externalIp with
    | none => exact inv
    | some ip =>
      unfold enabledIf inject
      cases refused with
      | true => exact inv
      | false => exact inv_enabled inv disabled known (fits disabled (by rw [known]; rfl) rfl)

theorem enabled_enable {refused : Bool} (fits : s.enabled = false → s.Enables refused) :
    (s.enable refused).2.enabled = true := by
  unfold enable
  split_ifs with henabled
  · exact henabled
  · obtain ⟨known, hrefused, -⟩ := fits (Bool.not_eq_true _ ▸ henabled)
    obtain ⟨ip, known⟩ := Option.isSome_iff_exists.1 known
    rw [known, hrefused]
    rfl

theorem inv_setEnabled (inv : s.Inv snat dnat portForwarding) {value refused : Bool}
    (fits : s.FitsSetEnabled value refused) :
    (s.setEnabled value refused).Inv snat dnat portForwarding := by
  unfold FitsSetEnabled at fits
  unfold setEnabled
  cases value with
  | true =>
    have fits : s.enabled = false → s.Enables refused := fits
    have same : { (s.enable refused).2 with enabled := true } = (s.enable refused).2 := by
      rw [← enabled_enable fits]
    rw [if_pos rfl, same]
    exact inv_enable inv fun disabled _ _ => (fits disabled).2.2
  | false =>
    have disabled : s.enabled = false := fits
    have same : (s.disable refused).2 = s := by
      unfold disable
      rw [disabled]
      rfl
    rw [if_neg Bool.false_ne_true, same]
    have same : { s with enabled := false } = s := by rw [← disabled]
    rwa [same]

theorem inv_disable (inv : s.Inv snat dnat portForwarding) {refused : Bool}
    (fits : s.enabled = true → refused = true) :
    (s.disable refused).2.Inv snat dnat portForwarding := by
  unfold disable
  split_ifs with henabled
  · rw [fits henabled]
    exact inv
  · exact inv

theorem inv_add (inv : s.Inv snat dnat portForwarding) {unset refused : Bool} {value : Option Bool}
    (fits : s.FitsAdd unset value refused) :
    (s.addMasquerade unset value refused).Inv snat dnat portForwarding := by
  obtain ⟨rfl, fits⟩ := fits
  exact inv_setEnabled inv fits

theorem parentIp_spec (inv : s.Inv snat dnat portForwarding) {value : Option (BitVec 32)}
    {refused : Bool} (fits : s.enabled = true → value.isSome ∧ refused = false) :
    wp (parentIp value refused) (fun _ s' => s'.Inv snat dnat portForwarding)
      (fun _ _ => False) s := by
  unfold parentIp
  simp only [wp_bind, wp_modify, wp_get, wp_ite]
  have dnatHeld := inv.heldDnat
  have forwarding := inv.heldPortForwarding
  have table : Listed (snat.map ruleSnat.entry ++ s.masqueradeEntries) s.smRules :=
    inv.heldSnat.table
  unfold masqueradeEntries at table
  split_ifs with henabled
  · obtain ⟨known, rfl⟩ := fits henabled
    obtain ⟨ip, rfl⟩ := Option.isSome_iff_exists.1 known
    obtain ⟨old, hold⟩ := Option.isSome_iff_exists.1 (inv.address henabled)
    rw [if_pos henabled, hold] at table
    have front := table.perm (List.perm_append_singleton _ _)
    refine ⟨⟨inv.heldSnat.entries, inv.heldSnat.ids, ?_⟩,
      ⟨dnatHeld.entries, dnatHeld.ids, dnatHeld.table⟩,
      ⟨forwarding.entries, forwarding.ids, forwarding.table⟩, fun _ => rfl⟩
    have entries : masqueradeEntries { s with
        externalIp := some ip
        smRules := s.smRules.set 0 0 ⟨ip, .masquerade, rfl⟩ } =
          [(Lpm.key 0 0, ⟨ip, .masquerade, rfl⟩)] := by
      unfold masqueradeEntries
      rw [if_pos henabled]
      rfl
    have written := (front.replace (w := ⟨ip, .masquerade, rfl⟩)).perm
      (List.perm_append_singleton _ _).symm
    rw [← entries] at written
    exact written
  · rw [if_neg henabled] at table
    refine ⟨⟨inv.heldSnat.entries, inv.heldSnat.ids, ?_⟩,
      ⟨dnatHeld.entries, dnatHeld.ids, dnatHeld.table⟩,
      ⟨forwarding.entries, forwarding.ids, forwarding.table⟩, fun h => absurd h henabled⟩
    have entries : masqueradeEntries { s with externalIp := value } = [] := by
      unfold masqueradeEntries
      exact if_neg henabled
    rw [entries]
    exact table

/-! ### Runs -/

def Fits (s : Store) : Op → Prop
  | .snat op => ruleSnat.Fits s.snatRules op
  | .dnat op => ruleDnat.Fits s.dnatRules op
  | .portForwarding op => rulePortForwarding.Fits s.portForwardingRules op
  | .enable refused => s.enabled = false → s.externalIp.isSome → refused = false →
    s.smRules (Lpm.key 0 0) = none
  | .disable refused => s.enabled = true → refused = true
  | .setEnabled value refused => s.FitsSetEnabled value refused
  | .updateMasquerade value refused => s.FitsSetEnabled (value.getD false) refused
  | .addMasquerade unset value refused => s.FitsAdd unset value refused
  | .replaceMasquerade unset value undeleted refused => (s.enabled = true → undeleted = true) ∧
    (s.delMasquerade undeleted).FitsAdd unset value refused
  | .parentIp value refused => s.enabled = true → value.isSome ∧ refused = false

instance (s : Store) (value refused : Bool) : Decidable (s.FitsSetEnabled value refused) :=
  inferInstanceAs (Decidable (if value = true
    then s.enabled = false → s.externalIp.isSome ∧ refused = false ∧ s.smRules (Lpm.key 0 0) = none
    else s.enabled = false))

instance (s : Store) (unset : Bool) (value : Option Bool) (refused : Bool) :
    Decidable (s.FitsAdd unset value refused) :=
  inferInstanceAs (Decidable (unset = s.enabled ∧ s.FitsSetEnabled (value.getD false) refused))

instance (s : Store) : ∀ op, Decidable (s.Fits op)
  | .snat op => inferInstanceAs (Decidable (ruleSnat.Fits s.snatRules op))
  | .dnat op => inferInstanceAs (Decidable (ruleDnat.Fits s.dnatRules op))
  | .portForwarding op =>
    inferInstanceAs (Decidable (rulePortForwarding.Fits s.portForwardingRules op))
  | .enable refused => inferInstanceAs (Decidable (s.enabled = false → s.externalIp.isSome →
      refused = false → s.smRules (Lpm.key 0 0) = none))
  | .disable refused => inferInstanceAs (Decidable (s.enabled = true → refused = true))
  | .setEnabled value refused => inferInstanceAs (Decidable (s.FitsSetEnabled value refused))
  | .updateMasquerade value refused =>
    inferInstanceAs (Decidable (s.FitsSetEnabled (value.getD false) refused))
  | .addMasquerade unset value refused => inferInstanceAs (Decidable (s.FitsAdd unset value refused))
  | .replaceMasquerade unset value undeleted refused =>
    inferInstanceAs (Decidable ((s.enabled = true → undeleted = true) ∧
      (s.delMasquerade undeleted).FitsAdd unset value refused))
  | .parentIp value refused =>
    inferInstanceAs (Decidable (s.enabled = true → value.isSome ∧ refused = false))

theorem exec_spec (inv : s.Inv snat dnat portForwarding) (op : Op) (fits : s.Fits op) :
    wp (exec op) (fun _ s' => ∃ snat' dnat' portForwarding', s'.Inv snat' dnat' portForwarding')
      (fun stop s' => stop = .throws ∧
        ∃ snat' dnat' portForwarding', s'.Inv snat' dnat' portForwarding') s := by
  have snatDone : ∀ snat' r, ruleSnat.Held s.masqueradeEntries snat' r →
      (s.setSnatRules r).Inv snat' dnat portForwarding := fun snat' r h =>
    ⟨⟨h.entries, h.ids, h.table⟩, inv.heldDnat, inv.heldPortForwarding, inv.address⟩
  have dnatDone : ∀ dnat' r, ruleDnat.Held (portForwarding.map rulePortForwarding.entry) dnat' r →
      (s.setDnatRules r).Inv snat dnat' portForwarding := fun dnat' r h =>
    ⟨inv.heldSnat, ⟨h.entries, h.ids, h.table⟩,
      ⟨inv.heldPortForwarding.entries, inv.heldPortForwarding.ids,
        h.table.perm List.perm_append_comm⟩, inv.address⟩
  have forwardingDone : ∀ forwarding' r,
      rulePortForwarding.Held (dnat.map ruleDnat.entry) forwarding' r →
      (s.setPortForwardingRules r).Inv snat dnat forwarding' := fun forwarding' r h =>
    ⟨inv.heldSnat, ⟨inv.heldDnat.entries, inv.heldDnat.ids, h.table.perm List.perm_append_comm⟩,
      ⟨h.entries, h.ids, h.table⟩, inv.address⟩
  cases op with
  | snat op =>
    unfold exec
    rw [wp_on]
    refine wp_mono (Kind.exec_spec inv.heldSnat op fits) ?_ ?_
    · rintro _ r ⟨snat', h⟩
      exact ⟨_, _, _, snatDone snat' r h⟩
    · rintro stop r ⟨rfl, snat', h⟩
      exact ⟨rfl, _, _, _, snatDone snat' r h⟩
  | dnat op =>
    unfold exec
    rw [wp_on]
    refine wp_mono (Kind.exec_spec inv.heldDnat op fits) ?_ ?_
    · rintro _ r ⟨dnat', h⟩
      exact ⟨_, _, _, dnatDone dnat' r h⟩
    · rintro stop r ⟨rfl, dnat', h⟩
      exact ⟨rfl, _, _, _, dnatDone dnat' r h⟩
  | portForwarding op =>
    unfold exec
    rw [wp_on]
    refine wp_mono (Kind.exec_spec inv.heldPortForwarding op fits) ?_ ?_
    · rintro _ r ⟨forwarding', h⟩
      exact ⟨_, _, _, forwardingDone forwarding' r h⟩
    · rintro stop r ⟨rfl, forwarding', h⟩
      exact ⟨rfl, _, _, _, forwardingDone forwarding' r h⟩
  | enable refused => exact ⟨_, _, _, inv_enable inv fits⟩
  | disable refused => exact ⟨_, _, _, inv_disable inv fits⟩
  | setEnabled value refused => exact ⟨_, _, _, inv_setEnabled inv fits⟩
  | updateMasquerade value refused => exact ⟨_, _, _, inv_setEnabled inv fits⟩
  | addMasquerade unset value refused => exact ⟨_, _, _, inv_add inv fits⟩
  | replaceMasquerade unset value undeleted refused =>
    exact ⟨_, _, _, inv_add (inv_disable inv fits.1) fits.2⟩
  | parentIp value refused =>
    exact wp_mono (parentIp_spec inv fits) (fun _ _ h => ⟨_, _, _, h⟩) fun _ _ h => h.elim

end Store

/-- The deletion of a rule by its id removes this rule, leaves the others apart from their ids, and
nothing else of the store but the table; where no rule has the id, it throws and changes nothing. -/
def DeletesRule {C E U S K V : Type} [DecidableEq K] (k : Kind C E U S K V)
    (part : Store → Rules E K V) (setPart : Store → Rules E K V → Store) (id : ℕ) (s : Store) :
    Prop :=
  wp (on part setPart (k.delEntry id))
    (fun _ s' => (∃ r, s' = setPart s r ∧ part s' = r) ∧
      ∃ pre e post, (part s).entries = pre ++ some e :: post ∧ k.id e = id ∧
        (∀ x, some x ∈ pre ++ post → k.id x ≠ id) ∧
        (part s').entries.map (Option.map (k.setId 0)) =
          (pre ++ post).map (Option.map (k.setId 0)))
    (fun stop s' => stop = .throws ∧ s' = s ∧ ∀ e, some e ∈ (part s).entries → k.id e ≠ id) s

theorem deletesRule_of_held {C E U S K V : Type} [DecidableEq K] {k : Kind C E U S K V}
    {part : Store → Rules E K V} {setPart : Store → Rules E K V → Store} {id : ℕ} {s : Store}
    {rest : List (K × V)} {l : List E} (get_set : ∀ r, part (setPart s r) = r)
    (set_get : setPart s (part s) = s) (h : k.Held rest l (part s))
    (fits : Kind.DelFits (part s) id) : DeletesRule k part setPart id s := by
  unfold DeletesRule
  rw [wp_on]
  refine wp_mono (Kind.delEntry_spec h fits) ?_ ?_
  · rintro _ r ⟨pre, e, post, rfl, hid, other, held⟩
    refine ⟨⟨r, rfl, get_set r⟩, pre.map some, e, post.map some, ?_, hid, fun x hx => ?_, ?_⟩
    · rw [h.entries, List.map_append, List.map_cons]
    · rw [← List.map_append, List.mem_map_of_injective (Option.some_injective E)] at hx
      exact other x hx
    · rw [get_set, held.entries, ← List.map_append]
      simp only [List.map_append, List.map_map, Function.comp_def, Option.map_some]
      have same := Kind.map_setId_moved (k := k) 0 id post
      have lift := congrArg (List.map some) same
      simpa only [List.map_map, Function.comp_def, List.append_cancel_left_eq] using lift
  · rintro stop r ⟨rfl, rfl, other⟩
    exact ⟨rfl, set_get, fun e he => other e (h.mem_iff.1 he)⟩

def DeletesExactly (s : Store) : Op → Prop
  | .snat (.delEntry id) => DeletesRule ruleSnat Store.snatRules Store.setSnatRules id s
  | .dnat (.delEntry id) => DeletesRule ruleDnat Store.dnatRules Store.setDnatRules id s
  | .portForwarding (.delEntry id) =>
    DeletesRule rulePortForwarding Store.portForwardingRules Store.setPortForwardingRules id s
  | _ => True

theorem deletesExactly {s : Store} {snat : List RuleSnatEntry} {dnat : List RuleDnatEntry}
    {portForwarding : List RulePortForwardingEntry} (inv : s.Inv snat dnat portForwarding) (op : Op)
    (fits : s.Fits op) : DeletesExactly s op := by
  cases op with
  | snat op =>
    cases op with
    | delEntry id => exact deletesRule_of_held (fun _ => rfl) rfl inv.heldSnat fits
    | _ => trivial
  | dnat op =>
    cases op with
    | delEntry id => exact deletesRule_of_held (fun _ => rfl) rfl inv.heldDnat fits
    | _ => trivial
  | portForwarding op =>
    cases op with
    | delEntry id => exact deletesRule_of_held (fun _ => rfl) rfl inv.heldPortForwarding fits
    | _ => trivial
  | _ => trivial

def Correct (s : Option Store) (op : Op) : Prop :=
  ∃ t t', s = some t ∧ stepStore s op = some t' ∧ t'.InStep ∧ DeletesExactly t op

def FitsIn (s : Option Store) (op : Op) : Prop := ∀ t, s = some t → t.Fits op

instance (s : Option Store) (op : Op) : Decidable (FitsIn s op) :=
  decidable_of_iff (∀ t ∈ s, t.Fits op) Iff.rfl

theorem correct_of_meets {s : Store} {snat : List RuleSnatEntry} {dnat : List RuleDnatEntry}
    {portForwarding : List RulePortForwardingEntry} (inv : s.Inv snat dnat portForwarding)
    {ops : List Op} (meets : Meets stepStore FitsIn (some s) ops) :
    Meets stepStore Correct (some s) ops := by
  induction ops generalizing s snat dnat portForwarding with
  | nil => trivial
  | cons op ops ih =>
    obtain ⟨first, others⟩ := meets
    have fits := first s rfl
    have done := Store.exec_spec inv op fits
    have next : ∃ s', stepStore (some s) op = some s' ∧
        ∃ snat' dnat' portForwarding', s'.Inv snat' dnat' portForwarding' := by
      unfold wp at done
      unfold stepStore
      rw [Option.bind_some]
      cases hrun : (exec op).run s with
      | ok u s' =>
        rw [hrun] at done
        exact ⟨s', rfl, done⟩
      | error stop s' =>
        rw [hrun] at done
        obtain ⟨rfl, inv'⟩ := done
        exact ⟨s', rfl, inv'⟩
    obtain ⟨s', hs', snat', dnat', portForwarding', inv'⟩ := next
    refine ⟨⟨s, s', rfl, hs', inv'.inStep, deletesExactly inv op fits⟩, ?_⟩
    rw [hs'] at others ⊢
    exact ih inv' others

/-- In a run from a service without rules whose requests all meet the condition, every request
leaves the tables in step and deletes exactly what it is asked to. -/
theorem correct_of_run (ops : List Op) (meets : Meets stepStore FitsIn (some Store.start) ops) :
    Meets stepStore Correct (some Store.start) ops :=
  correct_of_meets Store.inv_start meets

def someIp : IpText := ⟨some 0x04030201, none⟩

def someNet : IpText := ⟨some 0x0000000a, some (some 24)⟩

/-- Rules of every kind are added, one is set to what it is, and one is deleted. -/
theorem correct_someOps :
    Meets stepStore Correct (some Store.start)
      [.snat (.append ⟨0, someNet, someIp⟩ false), .parentIp (some 0x08080808) false,
        .enable false, .dnat (.addEntryList [(⟨0, someIp, someIp⟩, false)]),
        .portForwarding (.append ⟨0, someIp, 80, some "TCP", someIp, 8080⟩ false),
        .portForwarding (.set 0 (.proto "tcp")), .snat (.delEntry 2), .snat (.delEntry 0)] :=
  correct_of_run _ (by decide +kernel)

/-- There is one rule, of id 0.  The deletion of a rule of id 1 removes it, and leaves its entry in
the table. -/
theorem not_correct_delEntry :
    ¬ Meets stepStore Correct (some Store.start)
      [.snat (.append ⟨0, someNet, someIp⟩ false), .snat (.delEntry 1)] := by
  rintro ⟨-, ⟨t, t', -, ht', inStep, -⟩, -⟩
  have left : (stepStore (stepStore (some Store.start) (.snat (.append ⟨0, someNet, someIp⟩ false)))
      (.snat (.delEntry 1))).all fun s => s.snat.isEmpty && !s.enabled &&
        (s.smRules (Lpm.key 24 0x0a000000)).isSome := by
    decide +kernel
  rw [ht', Option.all_some, Bool.and_eq_true, Bool.and_eq_true, List.isEmpty_iff,
    Bool.not_eq_true'] at left
  obtain ⟨⟨empty, disabled⟩, entry⟩ := left
  obtain ⟨v, hv⟩ := Option.isSome_iff_exists.1 entry
  have mem := (inStep.sm.mem _ v).1 hv
  unfold Store.masqueradeEntries at mem
  rw [empty, disabled] at mem
  exact absurd mem List.not_mem_nil

end Polycube.Natting
