import Mathlib.Data.Finset.Union
import Mathlib.Data.List.TakeWhile
import Mathlib.Order.Interval.Finset.Nat
import Polycube.Lib.ServiceMaps

/-!
# Plans

What an operation is to write into two maps, as a list.  The writes are done one after the other
until a map is full.  All of them are done if and only if their keys fit (`perform_returns_iff`), and
the maps are as before if and only if only keys that are there are written, in the end with what they
had (`perform_unchanged_iff`).
-/

namespace Polycube.Lib

open Function

variable {κ β ι : Type*} [DecidableEq κ] [DecidableEq β] {size : ℕ}

inductive Write (κ β : Type*)
  | service (k : κ) (v : β)
  | reverse (v : β) (k : κ)

abbrev Plan (κ β : Type*) := List (Write κ β) × Exit

def Plan.andThen (p q : Plan κ β) : Plan κ β :=
  match p.2 with
  | .returns => (p.1 ++ q.1, q.2)
  | _ => p

def serviceKeys (ws : List (Write κ β)) : Finset κ :=
  (ws.filterMap fun | .service k _ => some k | .reverse _ _ => none).toFinset

def reverseKeys (ws : List (Write κ β)) : Finset β :=
  (ws.filterMap fun | .service _ _ => none | .reverse v _ => some v).toFinset

def Write.on (t : Table κ β × Table β κ) : Write κ β → Table κ β × Table β κ
  | .service k v => (update t.1 k (some v), t.2)
  | .reverse v k => (t.1, update t.2 v (some k))

namespace ServiceMaps

variable {m m' : ServiceMaps κ β size} {w : Write κ β} {ws ws' : List (Write κ β)}

def entries (m : ServiceMaps κ β size) : Table κ β × Table β κ :=
  (m.services.entry, m.reverse.entry)

def write (m : ServiceMaps κ β size) : Write κ β → Option (ServiceMaps κ β size)
  | .service k v => (m.services.set k v).map fun services => { m with services }
  | .reverse v k => (m.reverse.set v k).map fun reverse => { m with reverse }

def perform : List (Write κ β) → ServiceMaps κ β size → ServiceMaps κ β size × Exit
  | [], m => (m, .returns)
  | w :: ws, m =>
    match m.write w with
    | none => (m, .throws tableSetError)
    | some m => perform ws m

def exec (p : Plan κ β) (m : ServiceMaps κ β size) : ServiceMaps κ β size × Exit :=
  match perform p.1 m with
  | (m, .returns) => (m, p.2)
  | failed => failed

structure Fits (m : ServiceMaps κ β size) (ws : List (Write κ β)) : Prop where
  services : (m.services.keys ∪ serviceKeys ws).card ≤ size
  reverse : (m.reverse.keys ∪ reverseKeys ws).card ≤ size

def Has (m : ServiceMaps κ β size) : Write κ β → Bool
  | .service k _ => k ∈ m.services.keys
  | .reverse v _ => v ∈ m.reverse.keys

def Full (m : ServiceMaps κ β size) : Write κ β → Prop
  | .service _ _ => m.services.keys.card = size
  | .reverse _ _ => m.reverse.keys.card = size

/-- The writes up to the first new key, which finds the map full, leave each entry as it was. -/
structure Idle (m : ServiceMaps κ β size) (ws : List (Write κ β)) : Prop where
  same : (ws.takeWhile m.Has).foldl Write.on m.entries = m.entries
  full : ∀ w ∈ (ws.dropWhile m.Has).head?, m.Full w

end ServiceMaps

section Keys

variable {w : Write κ β} {ws ws' : List (Write κ β)}

omit [DecidableEq β] in
theorem serviceKeys_append : serviceKeys (ws ++ ws') = serviceKeys ws ∪ serviceKeys ws' := by
  unfold serviceKeys
  rw [List.filterMap_append, List.toFinset_append]

omit [DecidableEq κ] in
theorem reverseKeys_append : reverseKeys (ws ++ ws') = reverseKeys ws ∪ reverseKeys ws' := by
  unfold reverseKeys
  rw [List.filterMap_append, List.toFinset_append]

omit [DecidableEq β] in
theorem serviceKeys_cons : serviceKeys (w :: ws) = serviceKeys [w] ∪ serviceKeys ws := by
  rw [← serviceKeys_append, List.singleton_append]

omit [DecidableEq κ] in
theorem reverseKeys_cons : reverseKeys (w :: ws) = reverseKeys [w] ∪ reverseKeys ws := by
  rw [← reverseKeys_append, List.singleton_append]

omit [DecidableEq β] in
theorem mem_serviceKeys {k : κ} : k ∈ serviceKeys ws ↔ ∃ v, Write.service k v ∈ ws := by
  unfold serviceKeys
  rw [List.mem_toFinset, List.mem_filterMap]
  constructor
  · rintro ⟨w, hw, e⟩
    cases w with
    | service k' v =>
      obtain rfl : k' = k := Option.some.inj e
      exact ⟨v, hw⟩
    | reverse v k' => cases e
  · rintro ⟨v, hv⟩
    exact ⟨_, hv, rfl⟩

omit [DecidableEq κ] in
theorem mem_reverseKeys {v : β} : v ∈ reverseKeys ws ↔ ∃ k, Write.reverse v k ∈ ws := by
  unfold reverseKeys
  rw [List.mem_toFinset, List.mem_filterMap]
  constructor
  · rintro ⟨w, hw, e⟩
    cases w with
    | service k v' => cases e
    | reverse v' k =>
      obtain rfl : v' = v := Option.some.inj e
      exact ⟨k, hw⟩
  · rintro ⟨k, hk⟩
    exact ⟨_, hk, rfl⟩

end Keys

/-! ### What is done -/

namespace ServiceMaps

variable {m m' : ServiceMaps κ β size} {w : Write κ β} {ws ws' : List (Write κ β)}

theorem write_some (h : m.write w = some m') : m'.entries = w.on m.entries ∧
    m'.services.keys = m.services.keys ∪ serviceKeys [w] ∧
    m'.reverse.keys = m.reverse.keys ∪ reverseKeys [w] := by
  cases w with
  | service k v =>
    obtain ⟨services, written, rfl⟩ := Option.map_eq_some_iff.1 h
    refine ⟨?_, ?_, (Finset.union_empty _).symm⟩
    · exact Prod.ext (Bounded.entry_of_set written) rfl
    · exact (Bounded.keys_of_set written).trans
        ((Finset.insert_eq k _).trans (Finset.union_comm _ _))
  | reverse v k =>
    obtain ⟨reverse, written, rfl⟩ := Option.map_eq_some_iff.1 h
    refine ⟨?_, (Finset.union_empty _).symm, ?_⟩
    · exact Prod.ext rfl (Bounded.entry_of_set written)
    · exact (Bounded.keys_of_set written).trans
        ((Finset.insert_eq v _).trans (Finset.union_comm _ _))

theorem write_of_fits (fits : m.Fits [w]) : ∃ m', m.write w = some m' := by
  cases w with
  | service k v =>
    obtain ⟨services, written, -⟩ :=
      Bounded.set_of_room fits.services (mem_serviceKeys.2 ⟨v, List.mem_singleton_self _⟩) v
    exact ⟨_, by rw [write, written]; rfl⟩
  | reverse v k =>
    obtain ⟨reverse, written, -⟩ :=
      Bounded.set_of_room fits.reverse (mem_reverseKeys.2 ⟨k, List.mem_singleton_self _⟩) k
    exact ⟨_, by rw [write, written]; rfl⟩

theorem Fits.left (h : m.Fits (ws ++ ws')) : m.Fits ws := by
  constructor
  · refine (Finset.card_le_card ?_).trans h.services
    rw [serviceKeys_append]
    exact Finset.union_subset_union_right Finset.subset_union_left
  · refine (Finset.card_le_card ?_).trans h.reverse
    rw [reverseKeys_append]
    exact Finset.union_subset_union_right Finset.subset_union_left

theorem fits_append (services : m'.services.keys = m.services.keys ∪ serviceKeys ws)
    (reverse : m'.reverse.keys = m.reverse.keys ∪ reverseKeys ws) :
    m'.Fits ws' ↔ m.Fits (ws ++ ws') := by
  constructor
  · rintro ⟨hs, hr⟩
    rw [services, Finset.union_assoc, ← serviceKeys_append] at hs
    rw [reverse, Finset.union_assoc, ← reverseKeys_append] at hr
    exact ⟨hs, hr⟩
  · rintro ⟨hs, hr⟩
    rw [serviceKeys_append, ← Finset.union_assoc, ← services] at hs
    rw [reverseKeys_append, ← Finset.union_assoc, ← reverse] at hr
    exact ⟨hs, hr⟩

theorem perform_returns (h : perform ws m = (m', .returns)) :
    m'.entries = ws.foldl Write.on m.entries ∧
      m'.services.keys = m.services.keys ∪ serviceKeys ws ∧
      m'.reverse.keys = m.reverse.keys ∪ reverseKeys ws := by
  induction ws generalizing m with
  | nil =>
    obtain rfl : m = m' := (Prod.mk.inj h).1
    exact ⟨rfl, (Finset.union_empty _).symm, (Finset.union_empty _).symm⟩
  | cons w ws ih =>
    unfold perform at h
    split at h
    · cases h
    · rename_i m₁ written
      obtain ⟨entries, services, reverse⟩ := write_some written
      obtain ⟨entries', services', reverse'⟩ := ih h
      refine ⟨?_, ?_, ?_⟩
      · rw [entries', entries]
        rfl
      · rw [services', services, Finset.union_assoc, ← serviceKeys_append]
        rfl
      · rw [reverse', reverse, Finset.union_assoc, ← reverseKeys_append]
        rfl

theorem fits_of_returns (h : perform ws m = (m', .returns)) : m.Fits ws := by
  obtain ⟨-, services, reverse⟩ := perform_returns h
  exact ⟨services ▸ m'.services.card_le, reverse ▸ m'.reverse.card_le⟩

/-- All writes are done if and only if there is room for their keys. -/
theorem perform_returns_iff : (perform ws m).2 = .returns ↔ m.Fits ws := by
  constructor
  · intro h
    exact fits_of_returns (Prod.ext rfl h : perform ws m = ((perform ws m).1, .returns))
  · intro fits
    induction ws generalizing m with
    | nil => rfl
    | cons w ws ih =>
      have first : m.Fits ([w] ++ ws) := fits
      obtain ⟨m₁, written⟩ := write_of_fits first.left
      obtain ⟨-, services, reverse⟩ := write_some written
      unfold perform
      rw [written]
      exact ih ((fits_append services reverse).2 fits)

theorem perform_fails (h : (perform ws m).2 ≠ .returns) :
    (perform ws m).2 = .throws tableSetError := by
  induction ws generalizing m with
  | nil => exact absurd rfl h
  | cons w ws ih =>
    unfold perform at h ⊢
    split
    · rfl
    · rename_i m₁ written
      rw [written] at h
      exact ih h

theorem perform_append : perform (ws ++ ws') m =
    match perform ws m with
    | (m, .returns) => perform ws' m
    | failed => failed := by
  induction ws generalizing m with
  | nil => rfl
  | cons w ws ih =>
    rw [List.cons_append, perform, perform]
    split
    · rfl
    · exact ih

theorem exec_andThen (p q : Plan κ β) : exec (p.andThen q) m =
    match exec p m with
    | (m, .returns) => exec q m
    | failed => failed := by
  obtain ⟨ws, e⟩ := p
  cases e with
  | returns =>
    unfold Plan.andThen exec
    rw [perform_append]
    cases done : perform ws m with
    | mk m₁ e => cases e <;> rfl
  | throws _ | undefined | terminates =>
    unfold Plan.andThen exec
    cases done : perform ws m with
    | mk m₁ e => cases e <;> rfl

theorem exec_andThen_returns {p q : Plan κ β} : exec (p.andThen q) m = (m', .returns) ↔
    ∃ m₁, exec p m = (m₁, .returns) ∧ exec q m₁ = (m', .returns) := by
  rw [exec_andThen]
  cases exec p m with
  | mk m₁ e =>
    cases e with
    | returns =>
      constructor
      · exact fun h => ⟨m₁, rfl, h⟩
      · rintro ⟨_, ⟨⟩, h⟩
        exact h
    | throws _ | undefined | terminates =>
      refine iff_of_false (fun h => by cases h) ?_
      rintro ⟨_, ⟨⟩, -⟩

theorem exec_snd (p : Plan κ β) (m : ServiceMaps κ β size) :
    (exec p m).2 = if (perform p.1 m).2 = .returns then p.2 else .throws tableSetError := by
  unfold exec
  split
  · rename_i done
    rw [done, if_pos rfl]
  · rename_i failed
    have fails : (perform p.1 m).2 ≠ .returns := fun h => failed _ (Prod.ext rfl h)
    rw [if_neg fails, perform_fails fails]

theorem exec_returns_iff {p : Plan κ β} :
    (exec p m).2 = .returns ↔ p.2 = .returns ∧ m.Fits p.1 := by
  rw [exec_snd, ← perform_returns_iff]
  split
  · rename_i done
    exact (and_iff_left done).symm
  · rename_i failed
    exact iff_of_false (fun h => by cases h) fun h => failed h.2

theorem exec_throws_iff {p : Plan κ β} : (∃ what, (exec p m).2 = .throws what) ↔
    ¬ m.Fits p.1 ∨ ∃ what, p.2 = .throws what := by
  rw [exec_snd, ← perform_returns_iff]
  split
  · rename_i done
    exact (or_iff_right (not_not_intro done)).symm
  · rename_i failed
    exact iff_of_true ⟨_, rfl⟩ (.inl failed)

theorem exec_fst (p : Plan κ β) (m : ServiceMaps κ β size) :
    (exec p m).1 = (perform p.1 m).1 := by
  unfold exec
  split
  · rename_i done
    rw [done]
  · rfl

/-- What is not written is as before, however far the writes come. -/
theorem perform_frame (ws : List (Write κ β)) (m : ServiceMaps κ β size) :
    (∀ k ∉ serviceKeys ws, (perform ws m).1.services.entry k = m.services.entry k) ∧
      ∀ v ∉ reverseKeys ws, (perform ws m).1.reverse.entry v = m.reverse.entry v := by
  induction ws generalizing m with
  | nil => exact ⟨fun _ _ => rfl, fun _ _ => rfl⟩
  | cons w ws ih =>
    rw [serviceKeys_cons, reverseKeys_cons]
    unfold perform
    split
    · exact ⟨fun _ _ => rfl, fun _ _ => rfl⟩
    · rename_i m₁ written
      obtain ⟨entries, -, -⟩ := write_some written
      obtain ⟨services, reverse⟩ := ih m₁
      constructor
      · intro k hk
        rw [Finset.mem_union, not_or] at hk
        have before : m₁.services.entry = (w.on m.entries).1 := congrArg Prod.fst entries
        rw [services k hk.2, before]
        cases w with
        | service k' v =>
          refine update_of_ne ?_ _ _
          rintro rfl
          exact hk.1 (mem_serviceKeys.2 ⟨v, List.mem_singleton_self _⟩)
        | reverse v k' => rfl
      · intro v hv
        rw [Finset.mem_union, not_or] at hv
        have before : m₁.reverse.entry = (w.on m.entries).2 := congrArg Prod.snd entries
        rw [reverse v hv.2, before]
        cases w with
        | service k v' => rfl
        | reverse v' k =>
          refine update_of_ne ?_ _ _
          rintro rfl
          exact hv.1 (mem_reverseKeys.2 ⟨k, List.mem_singleton_self _⟩)

theorem write_has (h : m.write w = some m') : m'.Has w = true := by
  obtain ⟨-, services, reverse⟩ := write_some h
  cases w with
  | service k v =>
    unfold Has
    rw [services]
    exact decide_eq_true (Finset.mem_union_right _ (mem_serviceKeys.2 ⟨v, List.mem_singleton_self _⟩))
  | reverse v k =>
    unfold Has
    rw [reverse]
    exact decide_eq_true (Finset.mem_union_right _ (mem_reverseKeys.2 ⟨k, List.mem_singleton_self _⟩))

theorem perform_has {w : Write κ β} (ws : List (Write κ β)) (h : m.Has w = true) :
    (perform ws m).1.Has w = true := by
  induction ws generalizing m with
  | nil => exact h
  | cons w' ws ih =>
    unfold perform
    split
    · exact h
    · rename_i m₁ written
      obtain ⟨-, services, reverse⟩ := write_some written
      apply ih
      cases w with
      | service k v =>
        unfold Has at h ⊢
        rw [services]
        exact decide_eq_true (Finset.mem_union_left _ (of_decide_eq_true h))
      | reverse v k =>
        unfold Has at h ⊢
        rw [reverse]
        exact decide_eq_true (Finset.mem_union_left _ (of_decide_eq_true h))

theorem has_congr (h : m'.entries = m.entries) (w : Write κ β) : m'.Has w = m.Has w := by
  have services : m'.services.entry = m.services.entry := congrArg Prod.fst h
  have reverse : m'.reverse.entry = m.reverse.entry := congrArg Prod.snd h
  cases w with
  | service k v =>
    unfold Has
    rw [decide_eq_decide, Bounded.mem_keys, Bounded.mem_keys, services]
  | reverse v k =>
    unfold Has
    rw [decide_eq_decide, Bounded.mem_keys, Bounded.mem_keys, reverse]

theorem set_of_new {κ α : Type*} [DecidableEq κ] {t : Bounded κ α size} {k : κ} (v : α)
    (new : k ∉ t.keys) : t.set k v = none ↔ t.keys.card = size := by
  have card := Finset.card_insert_of_notMem new
  have bound := t.card_le
  unfold Bounded.set
  split
  · rename_i room
    exact iff_of_false (Option.some_ne_none _) (by omega)
  · rename_i room
    exact iff_of_true rfl (by omega)

theorem write_of_new (new : m.Has w = false) : m.write w = none ↔ m.Full w := by
  cases w with
  | service k v =>
    unfold write
    rw [Option.map_eq_none_iff]
    exact set_of_new v (of_decide_eq_false new)
  | reverse v k =>
    unfold write
    rw [Option.map_eq_none_iff]
    exact set_of_new k (of_decide_eq_false new)

theorem perform_present (present : ∀ w ∈ ws, m.Has w = true) :
    ∃ m', perform ws m = (m', .returns) ∧ m'.entries = ws.foldl Write.on m.entries ∧
      m'.services.keys = m.services.keys ∧ m'.reverse.keys = m.reverse.keys := by
  have services : m.services.keys ∪ serviceKeys ws = m.services.keys := by
    refine Finset.union_eq_left.2 fun k hk => ?_
    obtain ⟨v, hv⟩ := mem_serviceKeys.1 hk
    exact of_decide_eq_true (present _ hv)
  have reverse : m.reverse.keys ∪ reverseKeys ws = m.reverse.keys := by
    refine Finset.union_eq_left.2 fun v hv => ?_
    obtain ⟨k, hk⟩ := mem_reverseKeys.1 hv
    exact of_decide_eq_true (present _ hk)
  have fits : m.Fits ws :=
    ⟨services.symm ▸ m.services.card_le, reverse.symm ▸ m.reverse.card_le⟩
  have done : perform ws m = ((perform ws m).1, .returns) :=
    Prod.ext rfl (perform_returns_iff.2 fits)
  obtain ⟨entries, hs, hr⟩ := perform_returns done
  exact ⟨_, done, entries, hs.trans services, hr.trans reverse⟩

theorem perform_unchanged_iff : (perform ws m).1.entries = m.entries ↔ m.Idle ws := by
  obtain ⟨m₁, done, entries, services, reverse⟩ := @perform_present _ _ _ _ _ m
    (ws.takeWhile m.Has) fun w hw => List.mem_takeWhile_imp hw
  have split : perform ws m = perform (ws.dropWhile m.Has) m₁ := by
    have parts := List.takeWhile_append_dropWhile (p := m.Has) (l := ws)
    rw [← congrArg (perform · m) parts, perform_append, done]
  rw [split]
  cases rest : ws.dropWhile m.Has with
  | nil =>
    constructor
    · intro same
      exact ⟨entries.symm.trans same, by rw [rest]; rintro w ⟨⟩⟩
    · exact fun idle => entries.trans idle.same
  | cons w tail =>
    have new : m.Has w = false := by
      have := List.head?_dropWhile_not m.Has ws
      rw [rest] at this
      simpa using this
    have new₁ : m₁.Has w = false := by
      cases w with
      | service k v =>
        unfold Has at new ⊢
        rwa [services]
      | reverse v k =>
        unfold Has at new ⊢
        rwa [reverse]
    have full : m₁.Full w ↔ m.Full w := by
      cases w with
      | service k v =>
        unfold Full
        rw [services]
      | reverse v k =>
        unfold Full
        rw [reverse]
    unfold perform
    split
    · rename_i failed
      have isFull := full.1 ((write_of_new new₁).1 failed)
      constructor
      · intro same
        refine ⟨entries.symm.trans same, ?_⟩
        rw [rest]
        rintro w' ⟨⟩
        exact isFull
      · exact fun idle => entries.trans idle.same
    · rename_i m₂ written
      constructor
      · intro same
        have kept := perform_has tail (write_has written)
        rw [has_congr same, new] at kept
        cases kept
      · intro idle
        have isFull := idle.full w (by rw [rest]; rfl)
        rw [(write_of_new new₁).2 (full.2 isFull)] at written
        cases written

end ServiceMaps

section Rows

variable (key : ℕ → κ) (value : ι → Option β) (unknown : String)

def slotPlan : ℕ → List (Option ι) → Plan κ β
  | _, [] => ([], .returns)
  | index, slot :: slots =>
    match slot.bind value with
    | none => ([], .throws unknown)
    | some v =>
      let rest := slotPlan (index + 1) slots
      (.service (key (index + 1)) v :: .reverse v (key (index + 1)) :: rest.1, rest.2)

def rowPlan (header : β) (array : List (Option ι)) : Plan κ β :=
  let slots := slotPlan key value unknown 0 array
  (.service (key 0) header :: slots.1, slots.2)

variable {key value unknown} {m m' : ServiceMaps κ β size} {header : β}
  {array slots : List (Option ι)} {index : ℕ}

theorem setSlots_eq_exec :
    setSlots key value true unknown index slots m =
      ServiceMaps.exec (slotPlan key value unknown index slots) m := by
  induction slots generalizing index m with
  | nil => rfl
  | cons slot slots ih =>
    unfold setSlots slotPlan
    cases slot.bind value with
    | none => rfl
    | some v =>
      simp only [if_true, ServiceMaps.exec, ServiceMaps.perform, ServiceMaps.write]
      cases m.services.set (key (index + 1)) v with
      | none => rfl
      | some services =>
        simp only [Option.map_some]
        cases m.reverse.set v (key (index + 1)) with
        | none => rfl
        | some reverse => exact ih

theorem setRow_eq_exec :
    setRow key value true unknown header array m =
      ServiceMaps.exec (rowPlan key value unknown header array) m := by
  unfold setRow rowPlan
  simp only [ServiceMaps.exec, ServiceMaps.perform, ServiceMaps.write]
  cases m.services.set (key 0) header with
  | none => rfl
  | some services => exact setSlots_eq_exec

omit [DecidableEq κ] [DecidableEq β] in
theorem mem_slotPlan {w : Write κ β} (h : w ∈ (slotPlan key value unknown index slots).1) :
    ∃ i v ip, value ip = some v ∧ (w = .service (key i) v ∨ w = .reverse v (key i)) := by
  induction slots generalizing index with
  | nil => cases h
  | cons slot slots ih =>
    unfold slotPlan at h
    cases read : slot.bind value with
    | none =>
      rw [read] at h
      cases h
    | some v =>
      rw [read] at h
      obtain ⟨ip, -, hip⟩ := Option.bind_eq_some_iff.1 read
      rcases List.mem_cons.1 h with rfl | h
      · exact ⟨_, v, ip, hip, .inl rfl⟩
      · rcases List.mem_cons.1 h with rfl | h
        · exact ⟨_, v, ip, hip, .inr rfl⟩
        · exact ih h

theorem slotPlan_returns (h : (slotPlan key value unknown index slots).2 = .returns) :
    ∃ l : List β, slots.map (·.bind value) = l.map some ∧
      (∀ i, index < i → i ≤ index + l.length →
        key i ∈ serviceKeys (slotPlan key value unknown index slots).1) ∧
      ∀ v ∈ l, v ∈ reverseKeys (slotPlan key value unknown index slots).1 := by
  induction slots generalizing index with
  | nil =>
    refine ⟨[], rfl, fun i low high => ?_, fun v hv => absurd hv List.not_mem_nil⟩
    rw [List.length_nil] at high
    omega
  | cons slot slots ih =>
    unfold slotPlan at h ⊢
    cases read : slot.bind value with
    | none =>
      rw [read] at h
      cases h
    | some v =>
      rw [read] at h
      obtain ⟨l, values, keys, named⟩ := ih h
      refine ⟨v :: l, ?_, ?_, ?_⟩
      · rw [List.map_cons, List.map_cons, read, values]
      · intro i low high
        rw [List.length_cons] at high
        rw [mem_serviceKeys]
        by_cases first : i = index + 1
        · exact ⟨v, first ▸ List.mem_cons_self⟩
        · obtain ⟨v', hv'⟩ := mem_serviceKeys.1 (keys i (by omega) (by omega))
          exact ⟨v', List.mem_cons_of_mem _ (List.mem_cons_of_mem _ hv')⟩
      · intro v' hv'
        rw [mem_reverseKeys]
        rcases List.mem_cons.1 hv' with rfl | later
        · exact ⟨_, List.mem_cons_of_mem _ List.mem_cons_self⟩
        · obtain ⟨k, hk⟩ := mem_reverseKeys.1 (named v' later)
          exact ⟨k, List.mem_cons_of_mem _ (List.mem_cons_of_mem _ hk)⟩

structure Row (key : ℕ → κ) (header : β) (l : List β) (m : ServiceMaps κ β size) : Prop where
  header : m.services.entry (key 0) = some header
  slot : ∀ p (h : p < l.length), m.services.entry (key (p + 1)) = some l[p]
  named : ∀ v ∈ l, ∃ p, ∃ h : p < l.length, l[p] = v ∧ m.reverse.entry v = some (key (p + 1))

theorem setRow_row {N : ℕ} (inj : ∀ i j, i ≤ N → j ≤ N → key i = key j → i = j) (large : size < N)
    (h : setRow key value true unknown header array m = (m', .returns)) :
    ∃ l : List β, array.map (·.bind value) = l.map some ∧ Row key header l m' := by
  unfold setRow at h
  split at h
  · cases h
  · rename_i services written
    have exec := h
    rw [setSlots_eq_exec, ServiceMaps.exec] at exec
    split at exec
    · rename_i m₁ done
      obtain ⟨rfl, returns⟩ := Prod.mk.inj exec
      obtain ⟨l, values, keys, named⟩ := slotPlan_returns returns
      have fits := ServiceMaps.fits_of_returns done
      have short : l.length ≤ N := by
        by_contra long
        have sub : (Finset.Icc 1 N).image key ⊆
            serviceKeys (slotPlan key value unknown 0 array).1 := by
          intro k hk
          obtain ⟨i, hi, rfl⟩ := Finset.mem_image.1 hk
          rw [Finset.mem_Icc] at hi
          exact keys i (by omega) (by omega)
        have card := (Finset.card_le_card (sub.trans Finset.subset_union_right)).trans fits.services
        rw [Finset.card_image_of_injOn, Nat.card_Icc] at card
        · omega
        · intro i hi j hj e
          rw [Finset.mem_coe, Finset.mem_Icc] at hi hj
          exact inj i j hi.2 hj.2 e
      obtain ⟨m₂, done', slots, -, -⟩ := @setSlots_written κ β ι _ _ size key value true unknown 0 l
        { m with services } N inj array values _ keys fits.services _ (fun _ => named)
        (fun _ => fits.reverse) (by omega)
      rw [h] at done'
      obtain ⟨rfl, -⟩ := Prod.mk.inj done'
      refine ⟨l, values, ?_, ?_, ?_⟩
      · rw [slots.frame, Bounded.entry_of_set written, update_self]
        intro p hp e
        have := inj _ _ (by omega) (by omega) e
        omega
      · intro p hp
        have := slots.slot p hp
        rwa [Nat.zero_add] at this
      · intro v hv
        obtain ⟨p, hp, e, k⟩ := slots.named rfl v hv
        rw [Nat.zero_add] at k
        exact ⟨p, hp, e, k⟩
    · rename_i failed hf
      rw [exec] at hf
      exact absurd rfl (hf m')

theorem Row.congr {l : List β} (h : Row key header l m)
    (services : ∀ i, m'.services.entry (key i) = m.services.entry (key i))
    (reverse : ∀ v ∈ l, m'.reverse.entry v = m.reverse.entry v) : Row key header l m' where
  header := (services 0).trans h.header
  slot p hp := (services (p + 1)).trans (h.slot p hp)
  named v hv := by
    obtain ⟨p, hp, e, k⟩ := h.named v hv
    exact ⟨p, hp, e, (reverse v hv).trans k⟩

end Rows

omit [DecidableEq κ] [DecidableEq β] in
theorem Plan.mem_andThen {p q : Plan κ β} {w : Write κ β} (h : w ∈ (p.andThen q).1) :
    w ∈ p.1 ∨ w ∈ q.1 := by
  obtain ⟨ws, e⟩ := p
  cases e with
  | returns => exact List.mem_append.1 h
  | throws _ | undefined | terminates => exact .inl h

end Polycube.Lib
