import Mathlib.Data.List.Nodup
import Polycube.Ddosmitigator.Blacklists

/-!
# Blacklisted packets are dropped

Beside a run stand the entries that have been asked for.  The maps of the program have the
addresses of these entries, as long as no two of them are read as one address.
-/

namespace Polycube.Ddosmitigator

open Function

open Lib

inductive Op
  | add (w : Which) (ip : String) (loads : Loads)
  | addList (w : Which) (l : List (String × Loads))
  | replace (w : Which) (ip newIp : String) (del add : Loads)
  | del (w : Which) (ip : String) (loads : Loads)
  | delList (w : Which) (loads : Loads)
  | packet (cpu : ℕ) (p : Packet)

variable (read : String → Option (BitVec 32))

def exec : Op → Work Unit
  | .add w ip loads => addBlacklist read w ip loads
  | .addList w l => addBlacklistList read w l
  | .replace w ip newIp del add => replaceBlacklist read w ip newIp del add
  | .del w ip loads => delBlacklist read w ip loads
  | .delList w loads => delBlacklistList read w loads
  | .packet cpu p => modify fun s => (handleRx s cpu p).2

def added (s : State) (returned : Bool) (w : Which) (l : List String) : List String :=
  l.filter fun ip => returned || decide (ip ∈ (s.lists w).entries)

def current (asked : Which → List String) (s : State) (returned : Bool) :
    Op → Which → List String
  | .add w ip _ => update asked w (asked w ++ added s returned w [ip])
  | .addList w l => update asked w (asked w ++ added s returned w (l.map Prod.fst))
  | .replace w ip newIp _ _ => update asked w
      ((asked w).filter (fun x => x ≠ ip) ++ added s returned w [newIp])
  | .del w ip _ => update asked w ((asked w).filter fun x => x ≠ ip)
  | .delList w _ => update asked w []
  | .packet _ _ => asked

structure Mitigator where
  state : State
  asked : Which → List String

def Mitigator.start : Mitigator := ⟨State.start, fun _ => []⟩

def step (m : Option Mitigator) (op : Op) : Option Mitigator :=
  m.bind fun m =>
    match (exec read op).run m.state with
    | .ok _ s => some ⟨s, current m.asked s true op⟩
    | .error .throws s => some ⟨s, current m.asked s false op⟩
    | .error .crashes _ => none

def Listed (asked : Which → List String) (w : Which) (address : BitVec 32) : Prop :=
  ∃ ip ∈ asked w, read ip = some address

def State.counters (s : State) (w : Which) (address : BitVec 32) : Counters :=
  ((s.lists w).find address).getD fun _ => 0

def Mitigated (m : Mitigator) (cpu : ℕ) : Packet → Prop
  | .other => handleRx m.state cpu .other = (false, m.state)
  | .ipv4 src dst protocol => ∀ v s', handleRx m.state cpu (.ipv4 src dst protocol) = (v, s') →
    (v = true ↔ Listed read m.asked .src src ∨ Listed read m.asked .dst dst) ∧
    (v = false → s' = m.state) ∧
    (v = true → s'.dropcnt = m.state.dropcnt.count cpu ∧ ∃ w address,
      Listed read m.asked w address ∧ (w = .src ∧ address = src ∨ w = .dst ∧ address = dst) ∧
      ∀ w' address', s'.counters w' address' = if w' = w ∧ address' = address
        then (m.state.counters w address).count cpu else m.state.counters w' address')

def Does (m : Mitigator) : Op → Prop
  | .packet cpu p => Mitigated read m cpu p
  | _ => True

/-- No request ends the process, and packets are dropped and counted as they should be. -/
def Right (m : Option Mitigator) (op : Op) : Prop :=
  ∃ t, m = some t ∧ (step read m op).isSome ∧ Does read t op

/-- What a step must meet: no two texts of a list are read as one address; no list of destinations is
added; and a packet of protocol 0 is of no list. -/
def Mitigator.Fits (m : Mitigator) : Op → Prop
  | .add w ip _ => ∀ ip' ∈ (m.state.lists w).entries, read ip' = read ip → ip' = ip
  | .addList .src l => ∀ ip ∈ (m.state.lists .src).entries ++ l.map Prod.fst,
    ∀ ip' ∈ (m.state.lists .src).entries ++ l.map Prod.fst,
      (read ip).isSome → read ip = read ip' → ip = ip'
  | .addList .dst l => l = []
  | .replace w ip newIp _ _ =>
    ∀ ip' ∈ (m.state.lists w).entries, ip' ≠ ip → read ip' = read newIp → ip' = newIp
  | .packet _ (.ipv4 src dst protocol) =>
    protocol = 0 → ¬ Listed read m.asked .src src ∧ ¬ Listed read m.asked .dst dst
  | _ => True

def FitsIn (m : Option Mitigator) (op : Op) : Prop := ∀ t, m = some t → t.Fits read op

instance (asked : Which → List String) (w : Which) (address : BitVec 32) :
    Decidable (Listed read asked w address) :=
  inferInstanceAs (Decidable (∃ ip ∈ asked w, read ip = some address))

instance (m : Mitigator) : ∀ op, Decidable (m.Fits read op)
  | .add w ip _ => inferInstanceAs
      (Decidable (∀ ip' ∈ (m.state.lists w).entries, read ip' = read ip → ip' = ip))
  | .addList .src l => inferInstanceAs
      (Decidable (∀ ip ∈ (m.state.lists .src).entries ++ l.map Prod.fst,
        ∀ ip' ∈ (m.state.lists .src).entries ++ l.map Prod.fst,
          (read ip).isSome → read ip = read ip' → ip = ip'))
  | .addList .dst l => inferInstanceAs (Decidable (l = []))
  | .replace w ip newIp _ _ => inferInstanceAs (Decidable (∀ ip' ∈ (m.state.lists w).entries,
      ip' ≠ ip → read ip' = read newIp → ip' = newIp))
  | .del _ _ _ => inferInstanceAs (Decidable True)
  | .delList _ _ => inferInstanceAs (Decidable True)
  | .packet _ (.ipv4 src dst protocol) => inferInstanceAs (Decidable
      (protocol = 0 → ¬ Listed read m.asked .src src ∧ ¬ Listed read m.asked .dst dst))
  | .packet _ .other => inferInstanceAs (Decidable True)

instance (m : Option Mitigator) (op : Op) : Decidable (FitsIn read m op) :=
  decidable_of_iff (∀ t ∈ m, t.Fits read op) Iff.rfl

/-! ### The invariant -/

def Maps (map : Table (BitVec 32) Counters) (l : List String) : Prop :=
  ∀ address, (map address).isSome ↔ ∃ ip ∈ l, read ip = some address

structure Keeps (l : Blacklist) (asked : List String) : Prop where
  nodup : l.entries.Nodup
  listed : ∀ ip, ip ∈ asked ↔ ip ∈ l.entries
  readable : ∀ ip ∈ l.entries, (read ip).isSome
  distinct : ∀ ip ∈ l.entries, ∀ ip' ∈ l.entries, read ip = read ip' → ip = ip'
  compiled : l.entries ≠ [] → l.matching = true ∧ l.map.isSome
  maps : ∀ map, l.map = some map → Maps read map l.entries

structure Inv (s : State) (asked : Which → List String) : Prop where
  keeps : ∀ w, Keeps read (s.lists w) (asked w)
  /-- The program is that of the flags, if no change is pending. -/
  loaded : s.isCodeChanged = false → ∀ w, (s.lists w).map.isSome = (s.lists w).matching

variable {read} {s s' : State} {asked asked' : Which → List String} {w : Which} {ip : String}
  {loads : Loads} {l : Blacklist}

theorem inv_start : Inv read Mitigator.start.state Mitigator.start.asked where
  keeps w := by
    refine ⟨List.nodup_nil, fun _ => Iff.rfl, ?_, ?_, fun h => absurd rfl h, ?_⟩
    · exact fun ip h => absurd h List.not_mem_nil
    · exact fun ip h => absurd h List.not_mem_nil
    · intro map h
      cases h
  loaded _ _ := rfl

@[simp] theorem setList_self (s : State) (w : Which) (l : Blacklist) :
    (s.setList w l).lists w = l := update_self _ _ _

theorem setList_of_ne {w' : Which} (h : w' ≠ w) (s : State) (l : Blacklist) :
    (s.setList w l).lists w' = s.lists w' := update_of_ne h _ _

theorem setList_setList (s : State) (w : Which) (l₁ l₂ : Blacklist) :
    (s.setList w l₁).setList w l₂ = s.setList w l₂ := by
  unfold State.setList
  rw [update_idem]

theorem setList_lists (s : State) (w : Which) : s.setList w (s.lists w) = s := by
  unfold State.setList
  rw [update_eq_self]

theorem Inv.congr (inv : Inv read s asked) (same : ∀ w ip, ip ∈ asked' w ↔ ip ∈ asked w) :
    Inv read s asked' where
  keeps w :=
    { inv.keeps w with listed := fun ip => (same w ip).trans ((inv.keeps w).listed ip) }
  loaded := inv.loaded

variable {list : List String}

theorem Inv.setList (inv : Inv read s asked) (keeps : Keeps read l list)
    (compiled : l.matching = (s.lists w).matching) (map : l.map.isSome = (s.lists w).map.isSome) :
    Inv read (s.setList w l) (update asked w list) where
  keeps w' := by
    by_cases here : w' = w
    · subst here
      rw [setList_self, update_self]
      exact keeps
    · rw [setList_of_ne here, update_of_ne here]
      exact inv.keeps w'
  loaded h w' := by
    by_cases here : w' = w
    · subst here
      rw [setList_self, compiled, map]
      exact inv.loaded h w'
    · rw [setList_of_ne here]
      exact inv.loaded h w'

theorem Keeps.reload {list : List String} (h : Keeps read l list) : Keeps read l.reload list where
  nodup := h.nodup
  listed := h.listed
  readable := h.readable
  distinct := h.distinct
  compiled some := by
    obtain ⟨matching, -⟩ := h.compiled some
    refine ⟨matching, ?_⟩
    unfold Blacklist.reload
    rw [if_pos matching]
    rfl
  maps map hmap := by
    unfold Blacklist.reload at hmap
    dsimp only at hmap
    split_ifs at hmap
    obtain rfl := Option.some.inj hmap
    cases old : l.map with
    | some map => exact h.maps map old
    | none =>
      have empty : l.entries = [] := by
        by_contra some
        have := (h.compiled some).2
        rw [old] at this
        cases this
      intro address
      show _ ↔ ∃ ip ∈ l.entries, _
      rw [empty]
      simp

theorem Inv.setMatch (inv : Inv read s asked) (value : Bool)
    (h : value = false → (s.lists w).entries = []) :
    wp (setMatch w value) (fun _ s' => Inv read s' asked ∧ (s'.lists w).matching = value ∧
      ∀ w', (s'.lists w').entries = (s.lists w').entries) (fun _ _ => False) s := by
  unfold Ddosmitigator.setMatch
  rw [wp_modify]
  split_ifs with changed
  · refine ⟨⟨fun w' => ?_, fun h => (by cases h)⟩, ?_, fun w' => ?_⟩
    · show Keeps read ((s.setList w { s.lists w with matching := value }).lists w') (asked w')
      by_cases here : w' = w
      · subst here
        rw [setList_self]
        refine { inv.keeps w' with compiled := fun some => ⟨?_, ((inv.keeps w').compiled some).2⟩ }
        cases value with
        | true => rfl
        | false => exact absurd (h rfl) some
      · rw [setList_of_ne here]
        exact inv.keeps w'
    · show ((s.setList w { s.lists w with matching := value }).lists w).matching = value
      rw [setList_self]
    · show ((s.setList w { s.lists w with matching := value }).lists w').entries = _
      by_cases here : w' = w
      · subst here
        rw [setList_self]
      · rw [setList_of_ne here]
  · exact ⟨inv, (not_not.1 changed).symm, fun _ => rfl⟩

theorem Inv.reloadCode (inv : Inv read s asked) (accepted : Bool) :
    wp (reloadCode accepted) (fun _ s' => Inv read s' asked ∧ s'.isCodeChanged = false ∧
        ∀ w, (s'.lists w).entries = (s.lists w).entries ∧
          (s'.lists w).matching = (s.lists w).matching)
      (fun stop s' => stop = .throws ∧ s' = s) s := by
  unfold Ddosmitigator.reloadCode
  simp only [wp_bind, wp_get, wp_ite, wp_modify, wp_throw, wp_pure]
  split_ifs with changed accept
  · refine ⟨⟨fun w => (inv.keeps w).reload, fun _ w => ?_⟩, trivial, fun w => ⟨rfl, rfl⟩⟩
    show ((s.lists w).reload).map.isSome = ((s.lists w).reload).matching
    unfold Blacklist.reload
    split_ifs with matching
    · exact matching.symm
    · exact ((Bool.not_eq_true _).mp matching).symm
  · exact ⟨trivial, trivial⟩
  · exact ⟨inv, Bool.eq_false_iff.2 changed, fun _ => ⟨trivial, trivial⟩⟩

/-! ### Requests -/

variable {map : Table (BitVec 32) Counters} {address : BitVec 32}

theorem Maps.insert (h : Maps read map list) (hip : read ip = some address) (c : Counters) :
    Maps read (update map address (some c)) (list ++ [ip]) := by
  intro a
  by_cases here : a = address
  · subst here
    rw [update_self]
    exact ⟨fun _ => ⟨ip, by simp, hip⟩, fun _ => rfl⟩
  · rw [update_of_ne here, h a]
    constructor
    · rintro ⟨x, hx, hread⟩
      exact ⟨x, List.mem_append_left _ hx, hread⟩
    · rintro ⟨x, hx, hread⟩
      rcases List.mem_append.1 hx with hx | hx
      · exact ⟨x, hx, hread⟩
      · obtain rfl := List.mem_singleton.1 hx
        exact absurd (Option.some.inj (hread.symm.trans hip)) here

theorem Maps.erase {list' : List String} (h : Maps read map list) (hip : read ip = some address)
    (mem : ∀ x, x ∈ list ↔ x = ip ∨ x ∈ list') (other : ∀ x ∈ list', read x ≠ read ip) :
    Maps read (update map address none) list' := by
  intro a
  by_cases here : a = address
  · subst here
    rw [update_self]
    refine ⟨fun none => (by cases none), ?_⟩
    rintro ⟨x, hx, hread⟩
    exact absurd (hread.trans hip.symm) (other x hx)
  · rw [update_of_ne here, h a]
    constructor
    · rintro ⟨x, hx, hread⟩
      rcases (mem x).1 hx with rfl | hx
      · exact absurd (Option.some.inj (hread.symm.trans hip)) here
      · exact ⟨x, hx, hread⟩
    · rintro ⟨x, hx, hread⟩
      exact ⟨x, (mem x).2 (.inr hx), hread⟩

def Unchanged (read : String → Option (BitVec 32)) (s : State) (asked : Which → List String)
    (stop : Stop) (s' : State) : Prop :=
  stop = .throws ∧ Inv read s' asked ∧ ∀ w, (s'.lists w).entries = (s.lists w).entries

theorem Keeps.append
    (h : Keeps read l list) (hmap : l.map = some map) (hip : read ip = some address)
    (new : ip ∉ l.entries) (other : ∀ ip' ∈ l.entries, read ip' = read ip → ip' = ip)
    (matching : l.matching = true) :
    Keeps read ⟨l.entries ++ [ip], l.matching,
      some (update map address (some fun _ => 0))⟩ (list ++ [ip]) where
  nodup := List.nodup_append'.2 ⟨h.nodup, List.nodup_singleton ip, fun x hx hip' =>
    new (List.mem_singleton.1 hip' ▸ hx)⟩
  listed x := by
    rw [List.mem_append, List.mem_append, h.listed]
  readable x hx := by
    rcases List.mem_append.1 hx with hx | hx
    · exact h.readable x hx
    · rw [List.mem_singleton.1 hx, hip]
      rfl
  distinct x hx y hy same := by
    rcases List.mem_append.1 hx with hx' | hx'
    · rcases List.mem_append.1 hy with hy' | hy'
      · exact h.distinct x hx' y hy' same
      · rw [List.mem_singleton.1 hy'] at same ⊢
        exact other x hx' same
    · rw [List.mem_singleton.1 hx'] at same ⊢
      rcases List.mem_append.1 hy with hy' | hy'
      · exact (other y hy' same.symm).symm
      · exact (List.mem_singleton.1 hy').symm
  compiled _ := ⟨matching, rfl⟩
  maps t ht := by
    obtain rfl := Option.some.inj ht
    exact (h.maps map hmap).insert hip _

theorem Inv.addBlacklist (inv : Inv read s asked)
    (other : ∀ ip' ∈ (s.lists w).entries, read ip' = read ip → ip' = ip) :
    wp (addBlacklist read w ip loads)
      (fun _ s' => Inv read s' (update asked w (asked w ++ [ip])) ∧
        ∀ x, x ∈ (s'.lists w).entries ↔ x ∈ (s.lists w).entries ∨ x = ip)
      (Unchanged read s asked) s := by
  unfold Ddosmitigator.addBlacklist
  simp only [wp_bind, wp_get, wp_ite, wp_pure]
  split_ifs with old
  · refine ⟨inv.congr fun w' x => ?_, fun x => ?_⟩
    · by_cases here : w' = w
      · subst here
        rw [update_self, List.mem_append, List.mem_singleton]
        refine ⟨fun h => ?_, .inl⟩
        rcases h with h | rfl
        · exact h
        · exact ((inv.keeps w').listed x).2 old
      · rw [update_of_ne here]
    · refine ⟨.inl, fun h => ?_⟩
      rcases h with h | rfl
      · exact h
      · exact old
  refine wp_mono (inv.setMatch (w := w) true fun h => (by cases h)) ?_
    fun _ _ h => h.elim
  rintro _ s₁ ⟨inv₁, matching₁, entries₁⟩
  refine wp_mono (inv₁.reloadCode loads.code) ?_ ?_
  swap
  · rintro stop s₂ ⟨rfl, rfl⟩
    exact ⟨rfl, inv₁, entries₁⟩
  rintro _ s₂ ⟨inv₂, pending, same₂⟩
  have matching₂ : (s₂.lists w).matching = true := (same₂ w).2.trans matching₁
  have entries₂ : ∀ w', (s₂.lists w').entries = (s.lists w').entries :=
    fun w' => (same₂ w').1.trans (entries₁ w')
  have unchanged : Unchanged read s asked .throws s₂ := ⟨rfl, inv₂, entries₂⟩
  obtain ⟨map, hmap⟩ : ∃ map, (s₂.lists w).map = some map :=
    Option.isSome_iff_exists.1 ((inv₂.loaded pending w).trans matching₂)
  unfold setEntry
  rw [wp_bind, wp_get, hmap]
  cases hip : read ip with
  | none => exact unchanged
  | some address =>
    simp only [wp_ite, wp_modify, wp_throw]
    split_ifs with set
    swap
    · exact unchanged
    rw [setList_self]
    have new : ip ∉ (s₂.lists w).entries := by rw [entries₂]; exact old
    have keeps := (inv₂.keeps w).append hmap hip new
      (fun x hx => other x (by rw [← entries₂]; exact hx)) matching₂
    have done := inv₂.setList (w := w) keeps rfl (by rw [hmap]; rfl)
    rw [setList_setList]
    refine ⟨done, fun x => ?_⟩
    rw [setList_self]
    show x ∈ (s₂.lists w).entries ++ [ip] ↔ _
    rw [List.mem_append, List.mem_singleton, entries₂]

/-- A text is taken out of a list, and its address out of the map. -/
theorem Keeps.erase (h : Keeps read l list) (hmap : l.map = some map) (hip : read ip = some address)
    (old : ip ∈ l.entries) :
    Keeps read ⟨l.entries.erase ip, l.matching, some (update map address none)⟩
      (list.filter fun x => x ≠ ip) where
  nodup := h.nodup.erase ip
  listed x := by
    rw [h.nodup.mem_erase_iff, List.mem_filter, decide_eq_true_iff, h.listed]
    exact and_comm
  readable x hx := h.readable x (List.mem_of_mem_erase hx)
  distinct x hx y hy := h.distinct x (List.mem_of_mem_erase hx) y (List.mem_of_mem_erase hy)
  compiled _ := ⟨(h.compiled (List.ne_nil_of_mem old)).1, rfl⟩
  maps t ht := by
    obtain rfl := Option.some.inj ht
    refine (h.maps map hmap).erase hip (fun x => ?_) fun x hx same => ?_
    · rw [h.nodup.mem_erase_iff]
      by_cases this : x = ip
      · subst this
        exact ⟨fun _ => .inl rfl, fun _ => old⟩
      · exact ⟨fun hx => .inr ⟨this, hx⟩, fun hx => (hx.resolve_left this).2⟩
    · obtain ⟨ne, hx⟩ := h.nodup.mem_erase_iff.1 hx
      exact ne (h.distinct x hx ip old same)

theorem Inv.unmatch (inv : Inv read s asked) (accepted : Bool) :
    wp (unmatch w accepted) (fun _ s' => Inv read s' asked ∧
        ∀ w, (s'.lists w).entries = (s.lists w).entries)
      (Unchanged read s asked) s := by
  unfold Ddosmitigator.unmatch
  simp only [wp_bind, wp_get, wp_ite, wp_pure]
  split_ifs with empty
  swap
  · exact ⟨inv, fun _ => trivial⟩
  refine wp_mono (inv.setMatch (w := w) false fun _ => empty) ?_ fun _ _ h => h.elim
  rintro _ s₁ ⟨inv₁, -, entries₁⟩
  refine wp_mono (inv₁.reloadCode accepted) ?_ ?_
  · rintro _ s₂ ⟨inv₂, -, same₂⟩
    exact ⟨inv₂, fun w' => (same₂ w').1.trans (entries₁ w')⟩
  · rintro stop s₂ ⟨rfl, rfl⟩
    exact ⟨rfl, inv₁, entries₁⟩

def Deleted (read : String → Option (BitVec 32)) (asked : Which → List String) (w : Which)
    (left entries : List String) (s' : State) : Prop :=
  Inv read s' (update asked w left) ∧ (s'.lists w).entries = entries

theorem Inv.delBlacklist (inv : Inv read s asked) :
    wp (delBlacklist read w ip loads)
      (fun _ => Deleted read asked w ((asked w).filter fun x => x ≠ ip)
        ((s.lists w).entries.erase ip))
      (fun stop s' => stop = .throws ∧ Deleted read asked w ((asked w).filter fun x => x ≠ ip)
        ((s.lists w).entries.erase ip) s') s := by
  unfold Ddosmitigator.delBlacklist
  simp only [wp_bind, wp_get, wp_ite, wp_modify]
  split_ifs with old
  · obtain ⟨address, hip⟩ := Option.isSome_iff_exists.1 ((inv.keeps w).readable ip old)
    obtain ⟨-, mapped⟩ := (inv.keeps w).compiled (List.ne_nil_of_mem old)
    obtain ⟨map, hmap⟩ := Option.isSome_iff_exists.1 mapped
    unfold destroy
    rw [wp_bind, wp_get, setList_self]
    rw [hmap, hip]
    rw [wp_modify, setList_self]
    have done := inv.setList (w := w) ((inv.keeps w).erase hmap hip old) rfl (by rw [hmap]; rfl)
    rw [setList_setList]
    refine wp_mono (done.unmatch (w := w) loads.code) ?_ ?_
    · rintro _ s' ⟨inv', entries⟩
      refine ⟨inv', ?_⟩
      rw [entries w, setList_self]
    · rintro stop s' ⟨rfl, inv', entries⟩
      refine ⟨rfl, inv', ?_⟩
      rw [entries w, setList_self]
  · have same : Inv read s (update asked w ((asked w).filter fun x => x ≠ ip)) := by
      refine inv.congr fun w' x => ?_
      by_cases here : w' = w
      · subst here
        rw [update_self, List.mem_filter, decide_eq_true_iff]
        refine ⟨And.left, fun hx => ⟨hx, ?_⟩⟩
        rintro rfl
        exact old (((inv.keeps w').listed x).1 hx)
      · rw [update_of_ne here]
    refine wp_mono (same.unmatch (w := w) loads.code) ?_ ?_
    · rintro _ s' ⟨inv', entries⟩
      refine ⟨inv', ?_⟩
      rw [entries w, List.erase_of_not_mem old]
    · rintro stop s' ⟨rfl, inv', entries⟩
      refine ⟨rfl, inv', ?_⟩
      rw [entries w, List.erase_of_not_mem old]

theorem destroyAll_spec {ips : List String}
    (hmap : (s.lists w).map = some map) (readable : ∀ ip ∈ ips, (read ip).isSome) :
    wp (destroyAll read w ips) (fun _ s' => ∃ map', (∀ a, (map' a).isSome ↔
        (map a).isSome ∧ ∀ ip ∈ ips, read ip ≠ some a) ∧
        s' = s.setList w { s.lists w with map := some map' }) (fun _ _ => False) s:= by
  induction ips generalizing s map with
  | nil =>
    refine ⟨map, fun a => ⟨fun h => ⟨h, fun ip hip => absurd hip List.not_mem_nil⟩, And.left⟩, ?_⟩
    rw [← hmap]
    exact (setList_lists s w).symm
  | cons ip ips ih =>
    obtain ⟨address, hip⟩ := Option.isSome_iff_exists.1 (readable ip List.mem_cons_self)
    unfold destroyAll destroy
    rw [wp_bind, wp_bind, wp_get, hmap, hip]
    rw [wp_modify]
    have there : ((s.setList w { s.lists w with
        map := some (update map address none) }).lists w).map =
        some (update map address none) := by rw [setList_self]
    refine wp_mono (ih there fun x hx => readable x (List.mem_cons_of_mem ip hx)) ?_ fun _ _ h => h
    rintro _ s' ⟨map', has, rfl⟩
    refine ⟨map', fun a => ?_, ?_⟩
    · rw [has a, List.forall_mem_cons, hip]
      by_cases here : a = address
      · subst here
        rw [update_self]
        exact ⟨fun h => (by cases h.1), fun h => absurd rfl h.2.1⟩
      · rw [update_of_ne here]
        exact ⟨fun h => ⟨h.1, fun same => here (Option.some.inj same).symm, h.2⟩,
          fun h => ⟨h.1, h.2.2⟩⟩
    · rw [setList_self, setList_setList]

theorem Inv.delBlacklistList (inv : Inv read s asked) :
    wp (delBlacklistList read w loads) (fun _ => Deleted read asked w [] [])
      (fun stop s' => stop = .throws ∧ Deleted read asked w [] [] s') s := by
  unfold Ddosmitigator.delBlacklistList
  simp only [wp_bind, wp_get, wp_modify]
  have unmatched : ∀ s₁, Inv read s₁ (update asked w []) → (s₁.lists w).entries = [] →
      wp (Ddosmitigator.unmatch w loads.code) (fun _ => Deleted read asked w [] [])
        (fun stop s' => stop = .throws ∧ Deleted read asked w [] [] s') s₁ := by
    intro s₁ inv₁ empty
    refine wp_mono (inv₁.unmatch (w := w) loads.code) ?_ ?_
    · rintro _ s' ⟨inv', entries⟩
      exact ⟨inv', (entries w).trans empty⟩
    · rintro stop s' ⟨rfl, inv', entries⟩
      exact ⟨rfl, inv', (entries w).trans empty⟩
  by_cases empty : (s.lists w).entries = []
  · rw [empty]
    have self : s.setList w ⟨[], (s.lists w).matching, (s.lists w).map⟩ = s := by
      rw [← empty]
      exact setList_lists s w
    rw [self]
    refine unmatched s (inv.congr fun w' x => ?_) empty
    by_cases here : w' = w
    · subst here
      rw [update_self, (inv.keeps w').listed, empty]
    · rw [update_of_ne here]
  · obtain ⟨matching, mapped⟩ := (inv.keeps w).compiled empty
    obtain ⟨map, hmap⟩ := Option.isSome_iff_exists.1 mapped
    refine wp_mono (destroyAll_spec (by rw [setList_self]; exact hmap)
      (inv.keeps w).readable) ?_ fun _ _ h => h.elim
    rintro _ s₁ ⟨map', has, rfl⟩
    rw [setList_self, setList_setList]
    have keeps : Keeps read ⟨[], (s.lists w).matching, some map'⟩ [] := by
      refine ⟨List.nodup_nil, fun _ => Iff.rfl, ?_, ?_, fun h => absurd rfl h, ?_⟩
      · exact fun ip h => absurd h List.not_mem_nil
      · exact fun ip h => absurd h List.not_mem_nil
      · intro t ht a
        obtain rfl := Option.some.inj ht
        rw [has a, (inv.keeps w).maps map hmap a]
        refine ⟨?_, ?_⟩
        · rintro ⟨⟨x, hx, hread⟩, none⟩
          exact absurd hread (none x hx)
        · rintro ⟨x, hx, -⟩
          exact absurd hx List.not_mem_nil
    refine unmatched _ (inv.setList keeps rfl (by rw [hmap]; rfl)) ?_
    rw [setList_self]

theorem Inv.addBlacklistSrcList {l : List (String × Loads)} (inv : Inv read s asked)
    (distinct : ∀ ip ∈ (s.lists .src).entries ++ l.map Prod.fst,
      ∀ ip' ∈ (s.lists .src).entries ++ l.map Prod.fst,
        (read ip).isSome → read ip = read ip' → ip = ip') :
    wp (addBlacklistSrcList read l)
      (fun _ s' => Inv read s' (update asked .src (asked .src ++ l.map Prod.fst)))
      (fun stop s' => stop = .throws ∧ ∃ list, Inv read s' (update asked .src list) ∧
        (∀ x ∈ asked .src, x ∈ list) ∧ ∀ x ∈ list, x ∈ asked .src ∨ x ∈ l.map Prod.fst) s := by
  induction l generalizing s asked with
  | nil =>
    refine inv.congr fun w x => ?_
    rw [List.map_nil, List.append_nil, update_eq_self]
  | cons e l ih =>
    obtain ⟨ip, loads⟩ := e
    unfold Ddosmitigator.addBlacklistSrcList
    rw [wp_bind]
    refine wp_mono (inv.addBlacklist (w := .src)
      fun x hx same => ?_) ?_ ?_
    · refine distinct x (List.mem_append_left _ hx) ip ?_ ((inv.keeps .src).readable x hx) same
      exact List.mem_append_right _ List.mem_cons_self
    · rintro _ s₁ ⟨inv₁, entries₁⟩
      have sub : ∀ x ∈ (s₁.lists .src).entries ++ l.map Prod.fst,
          x ∈ (s.lists .src).entries ++ ((ip, loads) :: l).map Prod.fst := by
        intro x hx
        rw [List.mem_append, entries₁] at hx
        rw [List.mem_append, List.map_cons, List.mem_cons]
        tauto
      refine wp_mono (ih inv₁ fun x hx y hy => distinct x (sub x hx) y (sub y hy)) ?_ ?_
      · intro _ s' inv'
        rw [update_self, update_idem, List.append_assoc] at inv'
        exact inv'
      · rintro stop s' ⟨rfl, list, inv', kept, asked'⟩
        rw [update_idem] at inv'
        rw [update_self] at kept asked'
        refine ⟨rfl, list, inv', fun x hx => kept x (List.mem_append_left _ hx), fun x hx => ?_⟩
        rw [List.map_cons, List.mem_cons]
        rcases asked' x hx with old | new
        · rcases List.mem_append.1 old with old | new
          · exact .inl old
          · exact .inr (.inl (List.mem_singleton.1 new))
        · exact .inr (.inr new)
    · rintro stop s₁ ⟨rfl, inv₁, -⟩
      refine ⟨rfl, asked .src, ?_, fun x hx => hx, fun x hx => .inl hx⟩
      rw [update_eq_self]
      exact inv₁

theorem Inv.added {base new : List String} (inv : Inv read s' (update asked w list))
    (kept : ∀ x ∈ base, x ∈ list) (asked' : ∀ x ∈ list, x ∈ base ∨ x ∈ new) :
    Inv read s' (update asked w (base ++ added s' false w new)) := by
  refine inv.congr fun w' x => ?_
  by_cases here : w' = w
  · subst here
    have listed := (inv.keeps w').listed x
    rw [update_self] at listed
    rw [update_self, update_self, List.mem_append]
    unfold Ddosmitigator.added
    rw [List.mem_filter, Bool.false_or, decide_eq_true_iff, ← listed]
    constructor
    · rintro (old | new)
      · exact kept x old
      · exact new.2
    · intro hx
      exact (asked' x hx).imp id fun new => ⟨new, hx⟩
  · rw [update_of_ne here, update_of_ne here]

theorem added_true (s : State) (w : Which) (l : List String) : added s true w l = l :=
  List.filter_true l

def Stays (read : String → Option (BitVec 32)) (asked : Which → List String) (op : Op)
    (s : State) : Prop :=
  wp (exec read op) (fun _ s' => Inv read s' (current asked s' true op))
    (fun stop s' => stop = .throws ∧ Inv read s' (current asked s' false op)) s

theorem stays_add (inv : Inv read s asked)
    (fits : ∀ ip' ∈ (s.lists w).entries, read ip' = read ip → ip' = ip) :
    Stays read asked (.add w ip loads) s := by
  refine wp_mono (inv.addBlacklist fits) ?_ ?_
  · rintro _ s' ⟨inv', -⟩
    show Inv read s' (update asked w (asked w ++ added s' true w [ip]))
    rw [added_true]
    exact inv'
  · rintro stop s' ⟨rfl, inv', -⟩
    have same : Inv read s' (update asked w (asked w)) := by
      rw [update_eq_self]
      exact inv'
    exact ⟨rfl, same.added (fun x hx => hx) fun x hx => .inl hx⟩

theorem stays_addList {l : List (String × Loads)} (inv : Inv read s asked)
    (fits : Mitigator.Fits read ⟨s, asked⟩ (.addList w l)) :
    Stays read asked (.addList w l) s := by
  cases w with
  | src =>
    refine wp_mono (inv.addBlacklistSrcList fits) ?_ ?_
    · intro _ s' inv'
      show Inv read s' (update asked .src
        (asked .src ++ added s' true .src (l.map Prod.fst)))
      rw [added_true]
      exact inv'
    · rintro stop s' ⟨rfl, list, inv', kept, asked'⟩
      exact ⟨rfl, inv'.added kept asked'⟩
  | dst =>
    obtain rfl : l = [] := fits
    show Inv read s (update asked .dst (asked .dst ++ added s true .dst []))
    rw [added_true, List.append_nil, update_eq_self]
    exact inv

theorem stays_del (inv : Inv read s asked) : Stays read asked (.del w ip loads) s :=
  wp_mono inv.delBlacklist (fun _ _ h => h.1) fun _ _ h => ⟨h.1, h.2.1⟩

theorem stays_delList (inv : Inv read s asked) : Stays read asked (.delList w loads) s :=
  wp_mono inv.delBlacklistList (fun _ _ h => h.1) fun _ _ h => ⟨h.1, h.2.1⟩

theorem stays_replace {newIp : String} {del add : Loads} (inv : Inv read s asked)
    (fits : ∀ ip' ∈ (s.lists w).entries, ip' ≠ ip → read ip' = read newIp → ip' = newIp) :
    Stays read asked (.replace w ip newIp del add) s := by
  have undone : ∀ s', Inv read s' (update asked w ((asked w).filter fun x => x ≠ ip)) →
      Inv read s' (current asked s' false (.replace w ip newIp del add)) :=
    fun s' inv' => inv'.added (fun x hx => hx) fun x hx => .inl hx
  unfold Stays exec replaceBlacklist
  rw [wp_bind]
  refine wp_mono inv.delBlacklist ?_ ?_
  · rintro _ s₁ ⟨inv₁, entries₁⟩
    refine wp_mono (inv₁.addBlacklist (w := w) fun x hx => ?_) ?_ ?_
    · rw [entries₁] at hx
      obtain ⟨ne, hx⟩ := (inv.keeps w).nodup.mem_erase_iff.1 hx
      exact fits x hx ne
    · rintro _ s' ⟨inv', -⟩
      rw [update_self, update_idem] at inv'
      show Inv read s' (update asked w
        ((asked w).filter (fun x => x ≠ ip) ++ added s' true w [newIp]))
      rw [added_true]
      exact inv'
    · rintro stop s' ⟨rfl, inv', -⟩
      exact ⟨rfl, undone s' inv'⟩
  · rintro stop s' ⟨rfl, inv', -⟩
    exact ⟨rfl, undone s' inv'⟩

theorem Inv.find (inv : Inv read s asked) (w : Which) (address : BitVec 32) :
    ((s.lists w).find address).isSome ↔ Listed read asked w address := by
  have keeps := inv.keeps w
  have listed : Listed read asked w address ↔
      ∃ ip ∈ (s.lists w).entries, read ip = some address :=
    exists_congr fun ip => and_congr_left fun _ => keeps.listed ip
  rw [listed]
  unfold Blacklist.find
  cases hmap : (s.lists w).map with
  | some map => exact keeps.maps map hmap address
  | none =>
    refine ⟨fun h => (by cases h), ?_⟩
    rintro ⟨ip, hip, -⟩
    have := (keeps.compiled (List.ne_nil_of_mem hip)).2
    rw [hmap] at this
    cases this

theorem hit_find {a : BitVec 32} (l : Blacklist) (address : BitVec 32) (cpu : ℕ) :
    (l.hit address cpu).find a = if a = address
      then (l.find address).map fun c => c.count cpu else l.find a := by
  unfold Blacklist.hit Blacklist.find
  cases l.map with
  | none => split_ifs <;> rfl
  | some map =>
    show update _ _ _ _ = _
    by_cases here : a = address
    · subst here
      rw [update_self, if_pos rfl]
      rfl
    · rw [update_of_ne here, if_neg here]
      rfl

/-- A packet that is counted for an address changes nothing but its counters. -/
theorem Inv.hit (inv : Inv read s asked) (w : Which) (address : BitVec 32) (cpu : ℕ) :
    Inv read (s.setList w ((s.lists w).hit address cpu)) asked := by
  have keeps := inv.keeps w
  have done : Inv read (s.setList w ((s.lists w).hit address cpu))
      (update asked w (asked w)) := by
    refine inv.setList ⟨keeps.nodup, keeps.listed, keeps.readable, keeps.distinct, ?_, ?_⟩ rfl ?_
    · intro some
      obtain ⟨matching, mapped⟩ := keeps.compiled some
      exact ⟨matching, (Option.isSome_map).trans mapped⟩
    · intro t ht
      obtain ⟨map, hmap, rfl⟩ := Option.map_eq_some_iff.1 ht
      intro a
      refine Iff.trans ?_ (keeps.maps map hmap a)
      by_cases here : a = address
      · subst here
        rw [update_self, Option.isSome_map]
      · rw [update_of_ne here]
    · exact Option.isSome_map
  rwa [update_eq_self] at done

theorem Inv.dropcnt (inv : Inv read s asked) (dropcnt : Counters) :
    Inv read { s with dropcnt } asked := ⟨inv.keeps, inv.loaded⟩

theorem Inv.handleRx (inv : Inv read s asked) (cpu : ℕ) (p : Packet) :
    Inv read (handleRx s cpu p).2 asked := by
  cases p with
  | other => exact inv
  | ipv4 src dst protocol =>
    have parsed : Inv read (parseIpv4 s cpu src dst protocol).2 asked := by
      unfold parseIpv4
      split_ifs
      · exact inv.hit .src src cpu
      · exact inv.hit .dst dst cpu
      · exact inv
    unfold Ddosmitigator.handleRx
    dsimp only
    split_ifs
    · exact parsed
    · exact parsed.dropcnt _

theorem stays_packet (inv : Inv read s asked) (cpu : ℕ) (p : Packet) :
    Stays read asked (.packet cpu p) s := inv.handleRx cpu p

theorem counters_hit (s : State) {w : Which} {cpu : ℕ} {dropcnt : Counters}
    (found : ((s.lists w).find address).isSome) (w' : Which) (address' : BitVec 32) :
    State.counters { s.setList w ((s.lists w).hit address cpu) with dropcnt } w' address' =
      if w' = w ∧ address' = address then (s.counters w address).count cpu
      else s.counters w' address' := by
  unfold State.counters
  show (((s.setList w ((s.lists w).hit address cpu)).lists w').find address').getD _ = _
  by_cases here : w' = w
  · subst here
    rw [setList_self, hit_find]
    by_cases same : address' = address
    · subst same
      obtain ⟨c, hc⟩ := Option.isSome_iff_exists.1 found
      rw [if_pos rfl, if_pos ⟨rfl, rfl⟩, hc]
      rfl
    · rw [if_neg same, if_neg fun h => same h.2]
  · rw [setList_of_ne here, if_neg fun h => here h.1]

theorem mitigated_of_inv {m : Mitigator} (inv : Inv read m.state m.asked) {cpu : ℕ} {p : Packet}
    (fits : m.Fits read (.packet cpu p)) : Mitigated read m cpu p := by
  cases p with
  | other => rfl
  | ipv4 src dst protocol =>
    intro v s' run
    unfold handleRx at run
    dsimp only at run
    by_cases hsrc : ((m.state.lists .src).find src).isSome
    · have listed := (inv.find .src src).1 hsrc
      have nonzero : protocol ≠ 0 := fun zero => (fits zero).1 listed
      have parsed : parseIpv4 m.state cpu src dst protocol =
          (protocol, m.state.setList .src ((m.state.lists .src).hit src cpu)) := if_pos hsrc
      rw [parsed, if_neg nonzero] at run
      obtain ⟨rfl, rfl⟩ := Prod.mk.inj run
      refine ⟨⟨fun _ => .inl listed, fun _ => rfl⟩, fun h => (by cases h), fun _ => ⟨rfl, ?_⟩⟩
      exact ⟨.src, src, listed, .inl ⟨rfl, rfl⟩, counters_hit m.state hsrc⟩
    have unlisted := fun h => hsrc ((inv.find .src src).2 h)
    by_cases hdst : ((m.state.lists .dst).find dst).isSome
    · have listed := (inv.find .dst dst).1 hdst
      have nonzero : protocol ≠ 0 := fun zero => (fits zero).2 listed
      have parsed : parseIpv4 m.state cpu src dst protocol =
          (protocol, m.state.setList .dst ((m.state.lists .dst).hit dst cpu)) := by
        unfold parseIpv4
        rw [if_neg hsrc, if_pos hdst]
      rw [parsed, if_neg nonzero] at run
      obtain ⟨rfl, rfl⟩ := Prod.mk.inj run
      refine ⟨⟨fun _ => .inr listed, fun _ => rfl⟩, fun h => (by cases h), fun _ => ⟨rfl, ?_⟩⟩
      exact ⟨.dst, dst, listed, .inr ⟨rfl, rfl⟩, counters_hit m.state hdst⟩
    · have unlisted' := fun h => hdst ((inv.find .dst dst).2 h)
      have parsed : parseIpv4 m.state cpu src dst protocol = (0, m.state) := by
        unfold parseIpv4
        rw [if_neg hsrc, if_neg hdst]
      rw [parsed, if_pos rfl] at run
      obtain ⟨rfl, rfl⟩ := Prod.mk.inj run
      refine ⟨⟨fun h => (by cases h), fun h => ?_⟩, fun _ => rfl, fun h => (by cases h)⟩
      exact (h.elim unlisted unlisted').elim

variable {op : Op}

theorem stays_of_fits {m : Mitigator} (inv : Inv read m.state m.asked)
    (fits : m.Fits read op) : Stays read m.asked op m.state := by
  cases op with
  | add w ip loads => exact stays_add inv fits
  | addList w l => exact stays_addList inv fits
  | replace w ip newIp del add => exact stays_replace inv fits
  | del w ip loads => exact stays_del inv
  | delList w loads => exact stays_delList inv
  | packet cpu p => exact stays_packet inv cpu p

def Sound (read : String → Option (BitVec 32)) (m : Option Mitigator) : Prop :=
  ∃ t, m = some t ∧ Inv read t.state t.asked

theorem sound_step {m : Option Mitigator} (sound : Sound read m)
    (fits : FitsIn read m op) : Sound read (step read m op) := by
  obtain ⟨t, rfl, inv⟩ := sound
  have stays := stays_of_fits inv (fits t rfl)
  unfold Stays wp at stays
  unfold step
  show Sound read (match (exec read op).run t.state with
    | .ok _ s => some (⟨s, current t.asked s true op⟩ : Mitigator)
    | .error .throws s => some ⟨s, current t.asked s false op⟩
    | .error .crashes _ => none)
  cases outcome : (exec read op).run t.state with
  | ok _ s =>
    rw [outcome] at stays
    exact ⟨_, rfl, stays⟩
  | error stop s =>
    rw [outcome] at stays
    obtain ⟨rfl, inv'⟩ := stays
    exact ⟨_, rfl, inv'⟩

theorem right_of_sound {m : Option Mitigator} (sound : Sound read m)
    (fits : FitsIn read m op) : Right read m op := by
  obtain ⟨t', ht', -⟩ := sound_step sound fits
  obtain ⟨t, rfl, inv⟩ := sound
  refine ⟨t, rfl, Option.isSome_iff_exists.2 ⟨t', ht'⟩, ?_⟩
  cases op with
  | packet cpu p => exact mitigated_of_inv inv (fits t rfl)
  | _ => trivial

/-- In every run whose steps meet the condition, no step ends the process, and packets are dropped
and counted as the lists that are asked for say. -/
theorem mitigated_of_run (read : String → Option (BitVec 32)) (ops : List Op)
    (fits : Meets (step read) (FitsIn read) (some Mitigator.start) ops) :
    Meets (step read) (Right read) (some Mitigator.start) ops :=
  Meets.imp (P := Sound read) (fun _ _ sound fits => sound_step sound fits)
    (fun _ _ sound fits => right_of_sound sound fits) ⟨Mitigator.start, rfl, inv_start⟩ fits

def readSome (ip : String) : Option (BitVec 32) :=
  if ip = "10.0.0.1" then some 0x0100000a else if ip = "10.0.0.2" then some 0x0200000a else none

/-- An entry is added, is hit, is replaced after a request that throws, and is deleted with the
list of destinations. -/
def someOps : List Op :=
  [.packet 0 (.ipv4 0x0100000a 0x0300000a 6), .add .src "10.0.0.1" ⟨true, true⟩,
    .packet 1 (.ipv4 0x0100000a 0x0300000a 17), .add .dst "10.0.0" ⟨true, true⟩,
    .addList .src [("10.0.0.1", ⟨true, true⟩), ("10.0.0.2", ⟨true, false⟩)],
    .replace .src "10.0.0.1" "10.0.0.2" ⟨false, true⟩ ⟨true, true⟩,
    .replace .src "10.0.0.1" "10.0.0.2" ⟨true, true⟩ ⟨true, true⟩,
    .packet 1 (.ipv4 0x0100000a 0x0300000a 0), .packet 0 (.ipv4 0x0200000a 0x0300000a 6),
    .packet 0 .other, .delList .dst ⟨true, true⟩, .delList .src ⟨true, true⟩]

theorem mitigated_someOps :
    Meets (step readSome) (Right readSome) (some Mitigator.start) someOps :=
  mitigated_of_run readSome someOps (by decide +kernel)

/-- A list of destinations that is added is not looked for. -/
theorem not_mitigated_addDstList :
    ¬ Meets (step readSome) (Right readSome) (some Mitigator.start)
      [.addList .dst [("10.0.0.1", ⟨true, true⟩)], .packet 0 (.ipv4 0x0300000a 0x0100000a 6)] := by
  rintro ⟨-, ⟨t, ht, -, does⟩, -⟩
  have passed : ∀ t ∈ step readSome (some Mitigator.start)
      (.addList .dst [("10.0.0.1", ⟨true, true⟩)]),
      (handleRx t.state 0 (.ipv4 0x0300000a 0x0100000a 6)).1 = false ∧
        Listed readSome t.asked .dst 0x0100000a := by decide +kernel
  obtain ⟨passed, listed⟩ := passed t ht
  have dropped : (handleRx t.state 0 (.ipv4 0x0300000a 0x0100000a 6)).1 = true :=
    (does _ _ rfl).1.2 (.inr listed)
  rw [passed] at dropped
  cases dropped

end Polycube.Ddosmitigator
