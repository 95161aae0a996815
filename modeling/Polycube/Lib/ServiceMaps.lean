import Polycube.Lib.Bounded

/-!
# Services in two maps

One map has a row of entries for each service: a header at index 0, and a value in each of the slots
after it.  The other has for a value the key of a slot with it.  `Mirrored` says that the maps hold
the rows of the services and nothing else.  Writing the row of a service keeps it, when the new row
covers the old one and the values that only the old one has are not named as values of this service.
-/

namespace Polycube.Lib

open Function

variable {κ β ι S : Type*} [DecidableEq κ] [DecidableEq β] {size : ℕ}

/-- How an operation ends: an exception in a destructor ends the process; what does not end or reads
outside of a vector has no outcome. -/
inductive Exit
  | returns
  | throws (what : String)
  | undefined
  | terminates
  deriving DecidableEq

structure ServiceMaps (κ β : Type*) [DecidableEq κ] [DecidableEq β] (size : ℕ) where
  services : Bounded κ β size
  reverse : Bounded β κ size

def ServiceMaps.empty : ServiceMaps κ β size := ⟨Bounded.empty, Bounded.empty⟩

def tableSetError : String := "Table set error: Argument list too long"

def tableRemoveError : String := "Table remove error: No such file or directory"

section Operations

variable (key : ℕ → κ) (value : ι → Option β) (back : Bool) (unknown : String)

/-- The slots after `index`.  `back` says whether the values are named in the second map, and
`unknown` is the exception for what has no value. -/
def setSlots : ℕ → List (Option ι) → ServiceMaps κ β size → ServiceMaps κ β size × Exit
  | _, [], m => (m, .returns)
  | index, slot :: slots, m =>
    match slot.bind value with
    | none => (m, .throws unknown)
    | some v =>
      match m.services.set (key (index + 1)) v with
      | none => (m, .throws tableSetError)
      | some services =>
        if back then
          match m.reverse.set v (key (index + 1)) with
          | none => ({ m with services }, .throws tableSetError)
          | some reverse => setSlots (index + 1) slots ⟨services, reverse⟩
        else setSlots (index + 1) slots { m with services }

def setRow (header : β) (array : List (Option ι)) (m : ServiceMaps κ β size) :
    ServiceMaps κ β size × Exit :=
  match m.services.set (key 0) header with
  | none => (m, .throws tableSetError)
  | some services => setSlots key value back unknown 0 array { m with services }

def removeIndices : List ℕ → ServiceMaps κ β size → ServiceMaps κ β size × Exit
  | [], m => (m, .returns)
  | index :: indices, m =>
    match m.services.remove (key index) with
    | none => (m, .throws tableRemoveError)
    | some services => removeIndices indices { m with services }

end Operations

section Written

variable {key : ℕ → κ} {value : ι → Option β} {back : Bool} {unknown : String} {start : ℕ}
  {l : List β} {m m' : ServiceMaps κ β size}

/-- The slots after `start` have been written, and nothing else has changed. -/
structure Written (key : ℕ → κ) (back : Bool) (start : ℕ) (l : List β)
    (m m' : ServiceMaps κ β size) : Prop where
  slot : ∀ p (h : p < l.length), m'.services.entry (key (start + p + 1)) = some l[p]
  frame : ∀ k, (∀ p < l.length, k ≠ key (start + p + 1)) →
    m'.services.entry k = m.services.entry k
  named : back = true → ∀ v ∈ l, ∃ p, ∃ h : p < l.length, l[p] = v ∧
    m'.reverse.entry v = some (key (start + p + 1))
  unnamed : ∀ v, back = false ∨ v ∉ l → m'.reverse.entry v = m.reverse.entry v

theorem Written.cons {v : β} (inj : ∀ p < l.length, key (start + 1) ≠ key (start + 1 + p + 1))
    {services : Bounded κ β size} {reverse : Bounded β κ size}
    (hs : services.entry = update m.services.entry (key (start + 1)) (some v))
    (hr : reverse.entry = if back then update m.reverse.entry v (some (key (start + 1)))
      else m.reverse.entry) (h : Written key back (start + 1) l ⟨services, reverse⟩ m') :
    Written key back start (v :: l) m m' := by
  refine ⟨fun p hp => ?_, fun k hk => ?_, fun hb w hw => ?_, fun w hw => ?_⟩
  · cases p with
    | zero =>
      rw [h.frame (key (start + 0 + 1)) (fun p hp => inj p hp), hs]
      exact update_self ..
    | succ p =>
      rw [List.length_cons] at hp
      have := h.slot p (by omega)
      rwa [Nat.add_right_comm start 1 p] at this
  · rw [h.frame k]
    · rw [hs]
      exact update_of_ne (hk 0 (by simp)) _ _
    · intro p hp
      have := hk (p + 1) (by simpa using hp)
      rwa [Nat.add_right_comm start 1 p]
  · by_cases hl : w ∈ l
    · have ⟨p, hp, hv, hk⟩ := h.named hb w hl
      refine ⟨p + 1, by simpa using hp, hv, ?_⟩
      rwa [Nat.add_right_comm start 1 p] at hk
    · have hwv := (List.mem_cons.1 hw).resolve_right hl
      refine ⟨0, by simp, hwv.symm, ?_⟩
      rw [h.unnamed w (Or.inr hl), hr, if_pos hb, hwv]
      exact update_self ..
  · rcases hw with hb | hw
    · rw [h.unnamed w (Or.inl hb), hr, hb]
      rfl
    · rw [List.mem_cons, not_or] at hw
      rw [h.unnamed w (Or.inr hw.2), hr]
      split
      · exact update_of_ne hw.1 _ _
      · rfl

theorem setSlots_written {N : ℕ} (inj : ∀ i j, i ≤ N → j ≤ N → key i = key j → i = j)
    {slots : List (Option ι)} (values : slots.map (·.bind value) = l.map some)
    {ks : Finset κ} (hks : ∀ i, start < i → i ≤ start + l.length → key i ∈ ks)
    (room : (m.services.keys ∪ ks).card ≤ size) {vs : Finset β}
    (hvs : back = true → ∀ v ∈ l, v ∈ vs)
    (roomBack : back = true → (m.reverse.keys ∪ vs).card ≤ size) (bound : start + l.length ≤ N) :
    ∃ m', setSlots key value back unknown start slots m = (m', .returns) ∧
      Written key back start l m m' ∧ m'.services.keys ∪ ks = m.services.keys ∪ ks ∧
      m'.reverse.keys ∪ vs = m.reverse.keys ∪ vs := by
  induction slots generalizing start l m with
  | nil =>
    rw [List.map_nil, eq_comm, List.map_eq_nil_iff] at values
    subst values
    refine ⟨m, rfl, ⟨fun p hp => ?_, fun k _ => rfl, fun _ v hv => ?_, fun v _ => rfl⟩, rfl, rfl⟩
    · cases hp
    · cases hv
  | cons slot slots ih =>
    cases l with
    | nil => cases values
    | cons v l =>
      rw [List.map_cons, List.map_cons, List.cons.injEq] at values
      rw [List.length_cons] at hks bound
      have ⟨services, hset, hentry, hkeys⟩ := Bounded.set_of_room room
        (hks (start + 1) (by omega) (by omega)) v
      have hinj : ∀ p < l.length, key (start + 1) ≠ key (start + 1 + p + 1) := by
        intro p hp e
        have := inj _ _ (by omega) (by omega) e
        omega
      rw [setSlots, values.1]
      dsimp only
      rw [hset]
      dsimp only
      by_cases hb : back = true
      · have ⟨reverse, hset', hentry', hkeys'⟩ := Bounded.set_of_room (roomBack hb)
          (hvs hb v List.mem_cons_self) (key (start + 1))
        rw [if_pos hb, hset']
        have ⟨m', run, written, services', reverse'⟩ := @ih (start + 1) l ⟨services, reverse⟩
          values.2 (fun i h1 h2 => hks i (by omega) (by omega)) (by rwa [hkeys])
          (fun _ w hw => hvs hb w (List.mem_cons_of_mem _ hw)) (fun _ => by
            rw [hkeys']
            exact roomBack hb) (by omega)
        refine ⟨m', run, written.cons hinj hentry ?_, services'.trans hkeys, reverse'.trans hkeys'⟩
        rw [hentry', if_pos hb]
      · rw [if_neg hb]
        have ⟨m', run, written, services', reverse'⟩ := @ih (start + 1) l ⟨services, m.reverse⟩
          values.2 (fun i h1 h2 => hks i (by omega) (by omega)) (by rwa [hkeys])
          (fun h => absurd h hb) (fun h => absurd h hb) (by omega)
        refine ⟨m', run, written.cons hinj hentry ?_, services'.trans hkeys, reverse'⟩
        rw [if_neg hb]

end Written

/-! ### Mirrored services -/

section Mirrored

variable {key : S → ℕ → κ} {N : ℕ} {row : S → ℕ → Option β} {back : S → Prop}
  {m m' : ServiceMaps κ β size}

/-- The first map holds the rows, and the second one a slot for each value of the rows that are
named in it, and nothing else. -/
structure Mirrored (key : S → ℕ → κ) (N : ℕ) (row : S → ℕ → Option β) (back : S → Prop)
    (m : ServiceMaps κ β size) : Prop where
  services : ∀ s i, i ≤ N → m.services.entry (key s i) = row s i
  reverse : ∀ v k, m.reverse.entry v = some k →
    ∃ s i, back s ∧ 1 ≤ i ∧ i ≤ N ∧ k = key s i ∧ row s i = some v
  named : ∀ s i v, back s → 1 ≤ i → i ≤ N → row s i = some v → m.reverse.entry v ≠ none

theorem mirrored_empty : Mirrored key N (fun _ _ => none) back
    (ServiceMaps.empty : ServiceMaps κ β size) where
  services _ _ _ := rfl
  reverse _ _ h := by cases h
  named _ _ _ _ _ _ h := by cases h

def rowOf (header : β) (l : List β) (i : ℕ) : Option β :=
  if i = 0 then some header else l[i - 1]?

omit [DecidableEq β] in
theorem rowOf_succ (header : β) (l : List β) (p : ℕ) : rowOf header l (p + 1) = l[p]? := rfl

omit [DecidableEq β] in
variable {header : β} {l : List β}

theorem rowOf_beyond {i : ℕ} (hi : l.length < i) : rowOf header l i = none := by
  rw [rowOf, if_neg (by omega), List.getElem?_eq_none (by omega)]

omit [DecidableEq β] in
variable {v : β}

theorem mem_of_rowOf {i : ℕ} (hi : 1 ≤ i) (h : rowOf header l i = some v) : v ∈ l := by
  rw [rowOf, if_neg (by omega)] at h
  exact List.mem_of_getElem? h

omit [DecidableEq β] in
theorem exists_rowOf {header v : β} {l : List β} (h : v ∈ l) :
    ∃ i, 1 ≤ i ∧ i ≤ l.length ∧ rowOf header l i = some v := by
  have ⟨p, hp, e⟩ := List.getElem_of_mem h
  exact ⟨p + 1, by omega, by omega, by rw [rowOf_succ, List.getElem?_eq_getElem hp, e]⟩

theorem Mirrored.row_of_reverse (h : Mirrored key N row back m)
    (inj : ∀ s s' i i', i ≤ N → i' ≤ N → key s i = key s' i' → s = s' ∧ i = i') {s : S}
    {i : ℕ} (hi : i ≤ N) (hv : m.reverse.entry v = some (key s i)) : row s i = some v := by
  have ⟨s', i', _, _, hi', e, hrow⟩ := h.reverse v _ hv
  have ⟨hs, hii⟩ := inj _ _ _ _ hi hi' e
  rwa [← hs, ← hii] at hrow

theorem Mirrored.mem_reverse_keys (h : Mirrored key N row back m) {s : S} (hs : back s)
    {i : ℕ} (h1 : 1 ≤ i) (hi : i ≤ N) (hv : row s i = some v) : v ∈ m.reverse.keys :=
  (m.reverse.mem_keys v).2 (h.named s i v hs h1 hi hv)

theorem Mirrored.put [DecidableEq S] (h : Mirrored key N row back m)
    (inj : ∀ s s' i i', i ≤ N → i' ≤ N → key s i = key s' i' → s = s' ∧ i = i') {s : S}
    (bound : l.length ≤ N) {services : Bounded κ β size}
    (hheader : services.entry = update m.services.entry (key s 0) (some header))
    {b : Bool} (written : Written (key s) b 0 l { m with services } m')
    (beyond : ∀ i, l.length < i → i ≤ N → row s i = none)
    (stale : ∀ v i, 1 ≤ i → i ≤ N → m.reverse.entry v = some (key s i) → b = true ∧ v ∈ l)
    {back' : S → Prop} (hback : ∀ s', s' ≠ s → (back' s' ↔ back s')) (hb : b = true ↔ back' s) :
    Mirrored key N (update row s (rowOf header l)) back' m' := by
  have others : ∀ s' i, s' ≠ s → i ≤ N → m'.services.entry (key s' i) = row s' i := by
    intro s' i hs hi
    rw [written.frame]
    · rw [hheader, update_of_ne, h.services s' i hi]
      intro e
      exact hs (inj _ _ _ _ hi (Nat.zero_le N) e).1
    · intro p hp e
      exact hs (inj _ _ _ _ hi (by omega) e).1
  refine ⟨fun s' i hi => ?_, fun v k hk => ?_, fun s' i v hs' h1 hi hv => ?_⟩
  · by_cases hs : s' = s
    · rw [hs, update_self]
      by_cases slot : 1 ≤ i ∧ i ≤ l.length
      · have ⟨p, hp⟩ : ∃ p, i = p + 1 := ⟨i - 1, by omega⟩
        have hpl : p < l.length := by omega
        have := written.slot p hpl
        rw [Nat.zero_add] at this
        rw [hp, this, rowOf_succ, List.getElem?_eq_getElem hpl]
      · rw [written.frame]
        · rw [hheader, rowOf]
          by_cases zero : i = 0
          · rw [if_pos zero, zero, update_self]
          · rw [if_neg zero, update_of_ne, h.services s i hi, beyond i (by omega) hi,
              List.getElem?_eq_none (by omega)]
            intro e
            exact zero (inj _ _ _ _ hi (Nat.zero_le N) e).2
        · intro p hp e
          have := (inj _ _ _ _ hi (by omega) e).2
          omega
    · rw [update_of_ne hs, others s' i hs hi]
  · by_cases hv : b = true ∧ v ∈ l
    · have ⟨p, hp, hpv, hkey⟩ := written.named hv.1 v hv.2
      rw [hkey, Option.some.injEq, Nat.zero_add] at hk
      refine ⟨s, p + 1, hb.1 hv.1, by omega, by omega, hk.symm, ?_⟩
      rw [update_self, rowOf_succ, List.getElem?_eq_getElem hp, hpv]
    · rw [written.unnamed v] at hk
      · have ⟨s', i, hs', h1, hi, e, hrow⟩ := h.reverse v k hk
        have hs : s' ≠ s := by
          rintro rfl
          rw [e] at hk
          exact hv (stale v i h1 hi hk)
        exact ⟨s', i, (hback s' hs).2 hs', h1, hi, e, by rwa [update_of_ne hs]⟩
      · by_cases hbt : b = true
        · exact Or.inr fun hl => hv ⟨hbt, hl⟩
        · exact Or.inl (by simpa using hbt)
  · by_cases hs : s' = s
    · rw [hs, update_self] at hv
      have ⟨p, hp⟩ : ∃ p, i = p + 1 := ⟨i - 1, by omega⟩
      rw [hp, rowOf_succ] at hv
      have ⟨_, _, _, hkey⟩ := written.named (hb.2 (hs ▸ hs')) v (List.mem_of_getElem? hv)
      rw [hkey]
      exact Option.some_ne_none _
    · rw [update_of_ne hs] at hv
      by_cases hvl : b = true ∧ v ∈ l
      · have ⟨_, _, _, hkey⟩ := written.named hvl.1 v hvl.2
        rw [hkey]
        exact Option.some_ne_none _
      · rw [written.unnamed v]
        · exact h.named s' i v ((hback s' hs).1 hs') h1 hi hv
        · by_cases hbt : b = true
          · exact Or.inr fun hl => hvl ⟨hbt, hl⟩
          · exact Or.inl (by simpa using hbt)

theorem Mirrored.setRow [DecidableEq S] (h : Mirrored key N row back m)
    (inj : ∀ s s' i i', i ≤ N → i' ≤ N → key s i = key s' i' → s = s' ∧ i = i') {s : S}
    {value : ι → Option β} {unknown : String} {slots : List (Option ι)} {header : β} {l : List β}
    (values : slots.map (·.bind value) = l.map some) (bound : l.length ≤ N) {b : Bool}
    {ks : Finset κ} (hks : ∀ i ≤ l.length, key s i ∈ ks)
    (room : (m.services.keys ∪ ks).card ≤ size) {vs : Finset β}
    (hvs : b = true → ∀ v ∈ l, v ∈ vs) (roomBack : b = true → (m.reverse.keys ∪ vs).card ≤ size)
    (beyond : ∀ i, l.length < i → i ≤ N → row s i = none)
    (stale : ∀ v i, 1 ≤ i → i ≤ N → m.reverse.entry v = some (key s i) → b = true ∧ v ∈ l)
    {back' : S → Prop} (hback : ∀ s', s' ≠ s → (back' s' ↔ back s')) (hb : b = true ↔ back' s) :
    ∃ m', Lib.setRow (key s) value b unknown header slots m = (m', .returns) ∧
      Mirrored key N (update row s (rowOf header l)) back' m' ∧
      m'.services.keys ∪ ks = m.services.keys ∪ ks ∧
      m'.reverse.keys ∪ vs = m.reverse.keys ∪ vs := by
  have ⟨services, hset, hentry, hkeys⟩ := Bounded.set_of_room room (hks 0 (Nat.zero_le _)) header
  have ⟨m', run, written, services', reverse'⟩ := @setSlots_written κ β ι _ _ size (key s) value b
    unknown 0 l { m with services } N (fun i j hi hj e => (inj _ _ _ _ hi hj e).2) slots values
    ks (fun i _ hi => hks i (by omega)) (by rwa [hkeys]) vs hvs roomBack (by omega)
  refine ⟨m', ?_, h.put inj bound hentry written beyond stale hback hb, services'.trans hkeys,
    reverse'⟩
  rw [Lib.setRow, hset]
  exact run

end Mirrored

section Rows

variable {π : Type*} [DecidableEq S] {row : π → ℕ → Option β} {services : Table S π} {s : S} {p : π}

def rowsOf (row : π → ℕ → Option β) (services : Table S π) (s : S) : ℕ → Option β :=
  match services s with
  | none => fun _ => none
  | some p => row p

omit [DecidableEq β] [DecidableEq S] in
theorem rowsOf_some (h : services s = some p) : rowsOf row services s = row p := by
  rw [rowsOf, h]

omit [DecidableEq β] [DecidableEq S] in
theorem rowsOf_none (h : services s = none) : rowsOf row services s = fun _ => none := by
  rw [rowsOf, h]

omit [DecidableEq β] in
theorem rowsOf_update (p : π) : rowsOf row (update services s (some p)) =
    update (rowsOf row services) s (row p) := by
  funext s'
  by_cases hs : s' = s
  · rw [hs, update_self, rowsOf, update_self]
  · rw [update_of_ne hs, rowsOf, update_of_ne hs, rowsOf]

omit [DecidableEq β] in
theorem rowsOf_erase (h : rowsOf row services s = fun _ => none) :
    rowsOf row (update services s none) = rowsOf row services := by
  funext s'
  by_cases hs : s' = s
  · rw [hs, h, rowsOf, update_self]
  · rw [rowsOf, update_of_ne hs, rowsOf]

end Rows

end Polycube.Lib
