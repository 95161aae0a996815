import Polycube.Lib.Run
import Polycube.Polycubed.PatchPanels

/-!
# The programs of a cube

`add_program`, `reload` and `del_program` of a cube, with the slots of its programs, the codes it
saves, its program tables and the patch panels.  A cube for XDP keeps a second copy of each egress
program, for TC, which it compiles after the first one has been put everywhere.
-/

namespace Polycube.Polycubed.ProgramSlots

open Function Lib

structure Loaded where
  code : String
  fd : ℕ
  deriving DecidableEq

abbrev Slot := Option (Option Loaded)

structure Cube where
  kind : PortType
  programs : ProgramType → ℕ → Slot
  code : ProgramType → ℕ → String
  table : ProgramType → ℕ → Option ℕ
  /-- `egress_programs_tc_` and `egress_programs_table_tc_`, of a cube for XDP -/
  programsTc : ℕ → Slot
  tableTc : ℕ → Option ℕ
  /-- `ingress_index_` and `egress_index_` -/
  index : ProgramType → ℕ
  panels : PatchPanels

def fresh (kind : PortType) : Cube :=
  ⟨kind, fun _ _ => none, fun _ _ => "", fun _ _ => none, fun _ => none, fun _ => none, fun _ => 0,
    .start⟩

/-- `index >= programs.size()`: the size is unsigned, and against it a negative index is large. -/
def TooLarge (index : ℤ) : Prop := index < 0 ∨ maxPrograms ≤ index

instance (index : ℤ) : Decidable (TooLarge index) := inferInstanceAs (Decidable (_ ∨ _))

def updatePanel (k : PortType) (t : ProgramType) (fd : ℕ) : EStateM Fault Cube Unit :=
  attempt fun s => (s.panels.update k (s.index t) fd).map fun p => ((), { s with panels := p })

def slotFor (t : ProgramType) (index : ℤ) : EStateM Fault Cube ℕ := do
  if index < -1 ∨ TooLarge index then throw (.runtimeError "Invalid ebpf program index")
  let s ← get
  if index ≠ -1 then
    if s.programs t index.toNat ≠ none then throw (.runtimeError "Program is not empty")
    pure index.toNat
  else match (List.range maxPrograms).find? fun i => s.programs t i = none with
    | some i => pure i
    | none => throw (.runtimeError "Maximum number of programs reached")

def doAddProgram (t : ProgramType) (code : String) (index : ℤ) (built : Option ℕ) :
    EStateM Fault Cube ℕ := do
  let i ← slotFor t index
  modify fun s => { s with programs := put s.programs t i (some none) }
  let fd ← build built
  modify fun s => { s with
    programs := put s.programs t i (some (some ⟨code, fd⟩)), table := put s.table t i (some fd) }
  if i = 0 then
    let s ← get
    if s.index t ≠ 0 then updatePanel s.kind t fd
    else attempt fun s => (s.panels.add s.kind fd).map fun (id, p) =>
      ((), { s with index := update s.index t id, panels := p })
  modify fun s => { s with code := put s.code t i code }
  pure i

def Twice (s : Cube) (t : ProgramType) : Prop := s.kind = .xdp ∧ t = .egress

instance (s : Cube) (t : ProgramType) : Decidable (Twice s t) := inferInstanceAs (Decidable (_ ∧ _))

def addTc (code : String) (i : ℕ) (built : Option ℕ) : EStateM Fault Cube Unit := do
  modify fun s => { s with programsTc := update s.programsTc i (some none) }
  let fd ← build built
  modify fun s => { s with
    programsTc := update s.programsTc i (some (some ⟨code, fd⟩)),
    tableTc := update s.tableTc i (some fd) }
  if i = 0 then attempt fun s =>
    (s.panels.addAt .tc (s.index .egress) fd).map fun p => ((), { s with panels := p })

def addProgram (t : ProgramType) (code : String) (index : ℤ) (built builtTc : Option ℕ) :
    EStateM Fault Cube Unit := do
  let i ← doAddProgram t code index built
  let s ← get
  if Twice s t then addTc code i builtTc

def doReload (t : ProgramType) (code : String) (index : ℤ) (built : Option ℕ) :
    EStateM Fault Cube Unit := do
  if TooLarge index then throw (.runtimeError "Invalid ebpf program index")
  let s ← get
  if s.programs t index.toNat = none then throw (.runtimeError "ebpf does not exist")
  let fd ← build built
  modify fun s => { s with table := put s.table t index.toNat (some fd) }
  if index = 0 then updatePanel s.kind t fd
  modify fun s => { s with
    programs := put s.programs t index.toNat (some (some ⟨code, fd⟩)),
    code := put s.code t index.toNat code }

def reloadTc (code : String) (i : ℕ) (built : Option ℕ) : EStateM Fault Cube Unit := do
  let fd ← build built
  modify fun s => { s with tableTc := update s.tableTc i (some fd) }
  if i = 0 then updatePanel .tc .egress fd
  let s ← get
  -- the old copy is unloaded through its pointer
  if s.programsTc i = none then throw .undefined
  modify fun s => { s with programsTc := update s.programsTc i (some (some ⟨code, fd⟩)) }

def reload (t : ProgramType) (code : String) (index : ℤ) (built builtTc : Option ℕ) :
    EStateM Fault Cube Unit := do
  doReload t code index built
  let s ← get
  if Twice s t then reloadTc code index.toNat builtTc

def doDelProgram (t : ProgramType) (index : ℤ) : EStateM Fault Cube Unit := do
  if index < 0 ∨ TooLarge index then throw (.runtimeError "Invalid ebpf program index")
  let s ← get
  if s.programs t index.toNat = none then throw (.runtimeError "ebpf program does not exist")
  modify fun s => { s with
    table := put s.table t index.toNat none, programs := put s.programs t index.toNat none,
    code := put s.code t index.toNat "" }

def delTc (i : ℕ) : EStateM Fault Cube Unit := do
  modify fun s => { s with tableTc := update s.tableTc i none }
  let s ← get
  if s.programsTc i = none then throw .undefined
  modify fun s => { s with programsTc := update s.programsTc i none }

def delProgram (t : ProgramType) (index : ℤ) : EStateM Fault Cube Unit := do
  doDelProgram t index
  let s ← get
  if Twice s t then delTc index.toNat

/-- An operation, with what the compiler and the kernel make of each copy; `others` is what other
cubes have left of the patch panels: they keep the entries of this one. -/
inductive Op
  | addProgram (t : ProgramType) (code : String) (index : ℤ) (built builtTc : Option ℕ)
  | reload (t : ProgramType) (code : String) (index : ℤ) (built builtTc : Option ℕ)
  | delProgram (t : ProgramType) (index : ℤ)
  | others (p : PatchPanels)

def Cube.shared (s : Cube) (p : PatchPanels) : PatchPanels where
  nodeIds := p.nodeIds \ {0, s.index .ingress, s.index .egress}
  present k i := if i = s.index .ingress ∨ i = s.index .egress then s.panels.present k i else p.present k i
  nodes k i := if i = s.index .ingress ∨ i = s.index .egress then s.panels.nodes k i else p.nodes k i

def exec : Op → EStateM Fault Cube Unit
  | .addProgram t code index built builtTc => addProgram t code index built builtTc
  | .reload t code index built builtTc => reload t code index built builtTc
  | .delProgram t index => delProgram t index
  | .others p => modify fun s => { s with panels := s.shared p }

def step (s : Cube) (op : Op) : Cube :=
  match (exec op).run s with
  | .ok _ s' => s'
  | .error _ s' => s'

/-- A slot is empty and nothing is saved, or it has the program whose code is saved and whose
descriptor the table holds. -/
def Holds (slot : Slot) (code : String) (entry : Option ℕ) : Prop :=
  slot = none ∧ code = "" ∧ entry = none ∨ ∃ fd, slot = some (some ⟨code, fd⟩) ∧ entry = some fd

def Leads (s : Cube) (k : PortType) (t : ProgramType) (slot : Slot) : Prop :=
  ∀ l, slot = some (some l) → s.index t ≠ 0 ∧ s.panels.nodes k (s.index t) = some l.fd

structure Copied (s : Cube) : Prop where
  slots : ∀ i, Holds (s.programsTc i) (s.code .egress i) (s.tableTc i)
  both : ∀ i, s.programsTc i = none ↔ s.programs .egress i = none
  panel : Leads s .tc .egress (s.programsTc 0)

structure Consistent (s : Cube) : Prop where
  slots : ∀ t i, Holds (s.programs t i) (s.code t i) (s.table t i)
  panel : ∀ t, Leads s s.kind t (s.programs t 0)
  copied : s.kind = .xdp → Copied s

def AllOrNothing (s : Cube) (op : Op) : Prop :=
  wp (exec op) (fun _ s' => Consistent s') (fun e s' => e ≠ .undefined ∧ s' = s) s

def Vacant (s : Cube) (t : ProgramType) (index : ℤ) : Prop :=
  0 ≤ index ∧ index < maxPrograms ∧ s.programs t index.toNat = none

def Room (s : Cube) (t : ProgramType) (i : ℕ) : Prop :=
  i = 0 → s.index t ≠ 0 ∨ s.panels.nodeIds.Nonempty

def Unused (s : Cube) (i : ℕ) : Prop :=
  i = 0 → s.index .egress = 0 ∧
    ∀ h : s.panels.nodeIds.Nonempty, s.panels.present .tc (s.panels.nodeIds.min' h) = false

/-- All copies of a program that is added can be compiled, loaded and put in the panels.  When the
first copy of one that is reloaded can, the one for TC can too, unless the first was there. -/
def Fine (s : Cube) : Op → Prop
  | .addProgram t _ index built builtTc => Vacant s t index →
      built ≠ none ∧ Room s t index.toNat ∧
        (Twice s t → builtTc ≠ none ∧ Unused s index.toNat)
  | .reload t code index built builtTc =>
      Twice s t → ¬TooLarge index → s.programs t index.toNat ≠ none → built ≠ none →
        builtTc ≠ none ∨ s.programs t index.toNat = some (built.map (⟨code, ·⟩))
  | .delProgram .. | .others _ => True

/-! ### What is kept -/

structure Placed (s : Cube) : Prop where
  slots : ∀ t i, Holds (s.programs t i) (s.code t i) (s.table t i)
  panel : ∀ t, Leads s s.kind t (s.programs t 0)
  registered : ∀ t, s.index t ≠ 0 → s.panels.present s.kind (s.index t) = true
  taken : ∀ i ∈ s.panels.nodeIds, i ≠ 0 ∧ ∀ t, s.index t ≠ i
  apart : ∀ t t', s.index t ≠ 0 → s.index t = s.index t' → t = t'

structure PlacedTc (s : Cube) : Prop extends Copied s where
  registered : s.index .egress ≠ 0 → s.panels.present .tc (s.index .egress) = true

structure Sound (s : Cube) : Prop extends Placed s where
  copies : s.kind = .xdp → PlacedTc s

variable {s : Cube} {t : ProgramType} {code : String} {index : ℤ} {i fd fdTc : ℕ}
  {built builtTc : Option ℕ}

theorem Sound.consistent (h : Sound s) : Consistent s :=
  ⟨h.slots, h.panel, fun xdp => (h.copies xdp).toCopied⟩

theorem sound_fresh (kind : PortType) : Sound (fresh kind) := by
  refine ⟨⟨fun _ _ => Or.inl ⟨rfl, rfl, rfl⟩, fun _ _ h => (nomatch h), fun _ h => absurd rfl h,
    fun i hi => ?_, fun _ _ h => absurd rfl h⟩,
    fun _ => ⟨⟨fun _ => Or.inl ⟨rfl, rfl, rfl⟩, fun _ => Iff.rfl, fun _ h => (nomatch h)⟩,
      fun h => absurd rfl h⟩⟩
  have := Finset.mem_Ico.1 hi
  exact ⟨by omega, fun _ => show 0 ≠ i by omega⟩

theorem wp_slotFor (h : Vacant s t index) {ok : ℕ → Cube → Prop} {err : Fault → Cube → Prop} :
    wp (slotFor t index) ok err s ↔ ok index.toNat s := by
  obtain ⟨hlo, hhi, hs⟩ := h
  have valid : ¬(index < -1 ∨ TooLarge index) := by
    unfold TooLarge
    omega
  have given : index ≠ -1 := by omega
  simp [slotFor, valid, given, hs]

theorem wp_slotFor_throws (h : ¬Vacant s t index) : ∃ what, ∀ (ok : ℕ → Cube → Prop) (err),
    wp (slotFor t index) ok err s ↔ err (.runtimeError what) s := by
  by_cases bad : index < -1 ∨ TooLarge index
  · exact ⟨"Invalid ebpf program index", fun ok err => by simp [slotFor, bad]⟩
  have given : index ≠ -1 := by
    unfold TooLarge at bad
    omega
  have full : s.programs t index.toNat ≠ none := by
    unfold Vacant TooLarge at *
    grind
  exact ⟨"Program is not empty", fun ok err => by simp [slotFor, bad, given, full]⟩

def Cube.fill (s : Cube) (t : ProgramType) (i : ℕ) (code : String) (fd : ℕ) : Cube :=
  { s with
    programs := put s.programs t i (some (some ⟨code, fd⟩))
    code := put s.code t i code
    table := put s.table t i (some fd) }

def Cube.lead (s : Cube) (t : ProgramType) (i fd : ℕ) : Cube :=
  if i ≠ 0 then s
  else if s.index t ≠ 0 then
    { s with panels := s.panels.register s.kind (s.index t) fd }
  else if h : s.panels.nodeIds.Nonempty then
    { s with
      index := update s.index t (s.panels.nodeIds.min' h)
      panels := s.panels.register s.kind (s.panels.nodeIds.min' h) fd }
  else s

theorem Placed.free (h : Placed s) (t : ProgramType) : s.index t ∉ s.panels.nodeIds :=
  fun mem => (h.taken _ mem).2 t rfl

theorem wp_doAddProgram (h : Placed s) (vacant : Vacant s t index) (room : Room s t index.toNat)
    {ok : ℕ → Cube → Prop} {err : Fault → Cube → Prop} :
    wp (doAddProgram t code index (some fd)) ok err s ↔
      ok index.toNat ((s.lead t index.toNat fd).fill t index.toNat code fd) := by
  simp only [doAddProgram, wp_bind, wp_slotFor vacant, wp_modify, build, wp_pure, wp_ite, wp_get,
    wp_attempt, updatePanel, put_put]
  by_cases first : index.toNat = 0
  · by_cases known : s.index t = 0
    · have free : s.panels.nodeIds.Nonempty := (room first).resolve_left (not_not.2 known)
      simp [first, known, free, PatchPanels.add, Except.map, Cube.lead, Cube.fill]
    · simp [first, known, PatchPanels.update_eq _ (h.registered t known) (h.free t), Except.map,
        Cube.lead, Cube.fill]
  · simp [first, Cube.lead, Cube.fill]

theorem holds_put {p : ProgramType → ℕ → Slot} {c : ProgramType → ℕ → String}
    {e : ProgramType → ℕ → Option ℕ} (h : ∀ t i, Holds (p t i) (c t i) (e t i)) {slot : Slot}
    {entry : Option ℕ} (new : Holds slot code entry) (t' : ProgramType) (i' : ℕ) :
    Holds (put p t i slot t' i') (put c t i code t' i') (put e t i entry t' i') := by
  unfold put
  split
  · exact new
  · exact h t' i'

theorem Placed.fill (h : Placed s) (room : Room s t i) :
    Placed ((s.lead t i fd).fill t i code fd) := by
  have slots := holds_put h.slots (t := t) (i := i) (Or.inr ⟨fd, rfl, rfl⟩ : Holds _ code _)
  have taken := h.taken
  have apart := h.apart
  have registered := h.registered
  have panel := h.panel
  unfold Room at room
  unfold Cube.lead
  split_ifs with first known free
  · refine ⟨slots, fun t' => ?_, registered, taken, apart⟩
    intro l
    simp only [Cube.fill, put_of_ne (Ne.symm first)]
    exact panel t' l
  · refine ⟨slots, fun t' l hl => ?_, fun t' ht => ?_, fun j hj => taken j (Finset.mem_of_mem_erase hj),
      apart⟩
    · simp only [Cube.fill, put_apply, PatchPanels.register] at hl ⊢
      have := apart t t' known
      have := panel t' l
      grind
    · simp only [Cube.fill, put_apply, PatchPanels.register]
      have := registered t' ht
      grind
  · have min := Finset.min'_mem _ free
    refine ⟨slots, fun t' l hl => ?_, fun t' => ?_, fun j hj => ?_, fun t₁ t₂ => ?_⟩
    · simp only [Cube.fill, put_apply, PatchPanels.register, update_apply] at hl ⊢
      have := panel t' l
      have := taken _ min
      grind
    · simp only [Cube.fill, put_apply, PatchPanels.register, update_apply]
      have := registered t'
      grind
    · simp only [Cube.fill, PatchPanels.register, update_apply, Finset.mem_erase] at hj ⊢
      have := taken j hj.2
      grind
    · simp only [Cube.fill, update_apply]
      have := apart t₁ t₂
      have := taken _ min
      grind
  · exact absurd (room (by omega)) (by simp_all)

def Cube.copy (s : Cube) (i : ℕ) (code : String) (fd : ℕ) : Cube :=
  { s with
    programsTc := update s.programsTc i (some (some ⟨code, fd⟩))
    tableTc := update s.tableTc i (some fd)
    panels := if i = 0 then s.panels.register .tc (s.index .egress) fd else s.panels }

theorem Placed.copy (h : Placed s) (xdp : s.kind = .xdp) : Placed (s.copy i code fd) := by
  have kept : ∀ j, (s.copy i code fd).panels.nodes .xdp j = s.panels.nodes .xdp j ∧
      (s.copy i code fd).panels.present .xdp j = s.panels.present .xdp j := by
    intro j
    unfold Cube.copy
    split <;> simp [PatchPanels.register, put_apply]
  have fewer : (s.copy i code fd).panels.nodeIds ⊆ s.panels.nodeIds := by
    unfold Cube.copy
    split
    · exact Finset.erase_subset _ _
    · exact subset_rfl
  refine ⟨h.slots, fun t l hl => ?_, fun t ht => ?_, fun j hj => h.taken j (fewer hj), h.apart⟩
  · have := h.panel t l hl
    rw [xdp] at this
    exact ⟨this.1, (congrFun (congrArg _ xdp) _).trans ((kept _).1.trans this.2)⟩
  · have := h.registered t ht
    rw [xdp] at this
    exact (congrFun (congrArg _ xdp) _).trans ((kept _).2.trans this)

theorem PlacedTc.fill (h : PlacedTc s) (xdp : s.kind = .xdp) :
    PlacedTc ((s.lead .ingress i fd).fill .ingress i code fd) := by
  have other : ProgramType.egress ≠ .ingress := by decide
  have tc : PortType.tc ≠ s.kind := by simp [xdp]
  unfold Cube.lead
  split_ifs
  all_goals
    refine ⟨⟨?_, ?_, ?_⟩, ?_⟩
    · simpa [Cube.fill, put_other other] using h.slots
    · simpa [Cube.fill, put_other other] using h.both
    · simpa [Leads, Cube.fill, PatchPanels.register, put_other tc, other] using h.panel
    · simpa [Cube.fill, PatchPanels.register, put_other tc, other] using h.registered

theorem lead_eq : s.lead t i fd =
    { s with index := (s.lead t i fd).index, panels := (s.lead t i fd).panels } := by
  unfold Cube.lead
  split_ifs <;> rfl

/-- A program that was put in its slot and led to is copied. -/
theorem PlacedTc.copy (h : PlacedTc s)
    (placed : Placed ((s.lead .egress i fd).fill .egress i code fd)) :
    PlacedTc (((s.lead .egress i fd).fill .egress i code fd).copy i code fdTc) := by
  have slots := h.slots
  have both := h.both
  rw [lead_eq] at placed ⊢
  refine ⟨⟨fun j => ?_, fun j => ?_, ?_⟩, ?_⟩
  · simp only [Cube.copy, Cube.fill, put_apply, update_apply, true_and]
    split
    · exact Or.inr ⟨fdTc, rfl, rfl⟩
    · exact slots j
  · simp only [Cube.copy, Cube.fill, put_apply, update_apply, true_and]
    split
    · simp
    · exact both j
  · by_cases first : i = 0
    · subst first
      have known := (placed.panel .egress ⟨code, fd⟩ (by simp [Cube.fill])).1
      intro l hl
      simp only [Cube.copy, update_self] at hl
      cases hl
      exact ⟨known, by simp [Cube.copy, PatchPanels.register]⟩
    · simpa [Leads, Cube.copy, Cube.fill, Cube.lead, first, update_of_ne (Ne.symm first)]
        using h.panel
  · by_cases first : i = 0
    · intro known
      simp [Cube.copy, first, PatchPanels.register]
    · simpa [Cube.copy, Cube.fill, Cube.lead, first] using h.registered

theorem lead_kind : (s.lead t i fd).kind = s.kind := by
  rw [lead_eq]

theorem Sound.fill (h : Sound s) (room : Room s t i) (once : ¬Twice s t) :
    Sound ((s.lead t i fd).fill t i code fd) := by
  refine ⟨h.toPlaced.fill room, fun kind => ?_⟩
  have xdp : s.kind = .xdp := lead_kind.symm.trans kind
  cases t with
  | ingress => exact (h.copies xdp).fill xdp
  | egress => exact absurd ⟨xdp, rfl⟩ once

theorem Sound.copy (h : Sound s) (room : Room s .egress i) (xdp : s.kind = .xdp) :
    Sound (((s.lead .egress i fd).fill .egress i code fd).copy i code fdTc) := by
  have placed := @Placed.fill s .egress code i fd h.toPlaced room
  exact ⟨placed.copy (lead_kind.trans xdp), fun _ => (h.copies xdp).copy placed⟩

theorem lead_unused (h : PlacedTc s) (xdp : s.kind = .xdp) (room : Room s .egress 0) :
    (s.lead .egress 0 fd).panels.present .tc ((s.lead .egress 0 fd).index .egress) = false ↔
      Unused s 0 := by
  have tc : PortType.tc ≠ s.kind := by simp [xdp]
  unfold Unused Cube.lead
  split_ifs with h₁ known free
  · exact absurd rfl h₁
  · simp [PatchPanels.register, put_other tc, h.registered known, known]
  · simp [PatchPanels.register, put_other tc, not_not.1 known, free]
  · exact absurd (room rfl) (by simp_all)

theorem wp_addTc {ok : Unit → Cube → Prop} {err : Fault → Cube → Prop}
    (unused : i = 0 → s.panels.present .tc (s.index .egress) = false) :
    wp (addTc code i (some fd)) ok err s ↔ ok () (s.copy i code fd) := by
  by_cases first : i = 0
  · simp [addTc, build, first, PatchPanels.addAt, unused first, Except.map, Cube.copy]
  · simp [addTc, build, first, Cube.copy]

def Ends (s : Cube) (x : EStateM Fault Cube Unit) : Prop :=
  wp x (fun _ s' => Sound s') (fun e s' => e ≠ .undefined ∧ s' = s) s

theorem ends_addProgram (h : Sound s) (fine : Fine s (.addProgram t code index built builtTc)) :
    Ends s (addProgram t code index built builtTc) := by
  unfold Ends
  by_cases vacant : Vacant s t index
  · obtain ⟨hb, room, copy⟩ := fine vacant
    obtain ⟨fd, rfl⟩ := Option.ne_none_iff_exists'.1 hb
    have kind : ((s.lead t index.toNat fd).fill t index.toNat code fd).kind = s.kind := lead_kind
    simp only [addProgram, wp_bind, wp_doAddProgram h.toPlaced vacant room, wp_get, wp_ite, wp_pure,
      Twice, kind]
    split_ifs with twice
    · obtain ⟨xdp, rfl⟩ := twice
      obtain ⟨hb, unused⟩ := copy ⟨xdp, rfl⟩
      obtain ⟨fdTc, rfl⟩ := Option.ne_none_iff_exists'.1 hb
      rw [wp_addTc]
      · exact h.copy room xdp
      · intro first
        rw [first] at room unused ⊢
        exact (lead_unused (h.copies xdp) xdp room).2 unused
    · exact h.fill room twice
  · obtain ⟨what, hw⟩ := wp_slotFor_throws vacant
    simp [addProgram, doAddProgram, hw]

theorem fine_addProgram (h : Sound s) (all : AllOrNothing s (.addProgram t code index built builtTc)) :
    Fine s (.addProgram t code index built builtTc) := by
  intro vacant
  have empty := vacant.2.2
  -- the slot is not empty any more
  have filled : ∀ s' : Cube, s'.programs t index.toNat ≠ none → s' ≠ s := by
    rintro s' full rfl
    exact full empty
  unfold AllOrNothing exec addProgram at all
  rcases built with - | fd
  · simp only [doAddProgram, wp_bind, wp_slotFor vacant, wp_modify, build, wp_throw] at all
    exact absurd all.2 (filled _ (by simp))
  by_cases room : Room s t index.toNat
  swap
  · obtain ⟨first, room⟩ := Classical.not_imp.1 room
    obtain ⟨known, free⟩ := not_or.1 room
    simp [doAddProgram, wp_slotFor vacant, build, first, not_not.1 known, PatchPanels.add, free,
      Except.map] at all
  rw [wp_bind, wp_doAddProgram h.toPlaced vacant room] at all
  refine ⟨by simp, room, ?_⟩
  rintro ⟨xdp, rfl⟩
  have kind : ((s.lead .egress index.toNat fd).fill .egress index.toNat code fd).kind = .xdp :=
    lead_kind.trans xdp
  simp only [wp_bind, wp_get, Twice, kind, and_self, if_true] at all
  rcases builtTc with - | fdTc
  · simp only [addTc, wp_bind, wp_modify, build, wp_throw] at all
    exact absurd all.2 (filled _ (by simp [Cube.fill]))
  refine ⟨by simp, fun first => ?_⟩
  rw [first] at all room
  by_contra used
  have busy : (s.lead .egress 0 fd).panels.present .tc ((s.lead .egress 0 fd).index .egress) = true :=
    by simpa using mt (lead_unused (h.copies xdp) xdp room).1 fun unused => used (unused rfl)
  simp [addTc, build, Cube.fill, PatchPanels.addAt, busy, Except.map] at all
  rw [first] at filled
  exact filled _ (by simp) all

theorem Placed.loaded (h : Placed s) (full : s.programs t i ≠ none) :
    ∃ fd, s.programs t i = some (some ⟨s.code t i, fd⟩) ∧ s.table t i = some fd := by
  rcases h.slots t i with e | loaded
  · exact absurd e.1 full
  · exact loaded

theorem Placed.known (h : Placed s) (full : s.programs t i ≠ none) (first : i = 0) :
    s.index t ≠ 0 := by
  obtain ⟨fd, loaded, -⟩ := h.loaded full
  exact (h.panel t _ (first ▸ loaded)).1

theorem wp_doReload (h : Placed s) (valid : ¬TooLarge index) (full : s.programs t index.toNat ≠ none)
    {ok : Unit → Cube → Prop} {err : Fault → Cube → Prop} :
    wp (doReload t code index (some fd)) ok err s ↔
      ok () ((s.lead t index.toNat fd).fill t index.toNat code fd) := by
  have zero : index.toNat = 0 ↔ index = 0 := by
    unfold TooLarge at valid
    omega
  by_cases first : index = 0
  · have known := h.known full (zero.2 first)
    subst first
    have full : s.programs t 0 ≠ none := full
    simp [doReload, valid, full, build, updatePanel, known, Cube.lead, Cube.fill, Except.map,
      PatchPanels.update_eq _ (h.registered t known) (h.free t)]
  · simp [doReload, valid, full, build, first, mt zero.1 first, Cube.lead, Cube.fill]

theorem wp_reloadTc {ok : Unit → Cube → Prop} {err : Fault → Cube → Prop}
    (full : s.programsTc i ≠ none) (registered : i = 0 →
      s.panels.present .tc (s.index .egress) = true ∧ s.index .egress ∉ s.panels.nodeIds) :
    wp (reloadTc code i (some fd)) ok err s ↔ ok () (s.copy i code fd) := by
  by_cases first : i = 0
  · obtain ⟨present, taken⟩ := registered first
    rw [first] at full
    simp [reloadTc, build, first, updatePanel, PatchPanels.update_eq _ present taken, Except.map,
      full, Cube.copy]
  · simp [reloadTc, build, first, full, Cube.copy]

theorem Sound.fill_same (h : Sound s) (same : s.programs t i = some (some ⟨code, fd⟩)) :
    (s.lead t i fd).fill t i code fd = s := by
  have full : s.programs t i ≠ none := by simp [same]
  obtain ⟨fd', loaded, entry⟩ := h.loaded full
  rw [same] at loaded
  cases loaded
  have lead : s.lead t i fd = s := by
    unfold Cube.lead
    split_ifs with first known free
    · rfl
    · have nodes := (h.panel t _ (not_not.1 first ▸ same)).2
      rw [PatchPanels.register, Finset.erase_eq_of_notMem (h.free t),
        put_eq_self (h.registered t known), put_eq_self nodes]
    all_goals exact absurd (h.known full (not_not.1 first)) known
  rw [lead, Cube.fill, put_eq_self same, put_eq_self rfl, put_eq_self entry]

theorem ends_reload (h : Sound s) (fine : Fine s (.reload t code index built builtTc)) :
    Ends s (reload t code index built builtTc) := by
  unfold Ends reload
  by_cases invalid : TooLarge index
  · simp [doReload, invalid]
  by_cases full : s.programs t index.toNat = none
  · simp [doReload, invalid, full]
  rcases built with - | fd
  · simp [doReload, invalid, build]
  have room : Room s t index.toNat := fun first => Or.inl (h.known full first)
  have kind : ((s.lead t index.toNat fd).fill t index.toNat code fd).kind = s.kind := lead_kind
  simp only [wp_bind, wp_doReload h.toPlaced invalid full, wp_get, wp_ite, wp_pure, Twice, kind]
  split_ifs with twice
  · obtain ⟨xdp, rfl⟩ := twice
    rcases builtTc with - | fdTc
    · have same := (fine ⟨xdp, rfl⟩ invalid full (by simp)).resolve_left (by simp)
      simp [reloadTc, build, h.fill_same same]
    · rw [wp_reloadTc]
      · exact h.copy room xdp
      · rw [lead_eq]
        exact mt ((h.copies xdp).both _).1 full
      · intro first
        have known := h.known full first
        have tc : PortType.tc ≠ s.kind := by simp [xdp]
        refine ⟨?_, (@Placed.fill s .egress code _ fd h.toPlaced room).free .egress⟩
        simp [Cube.fill, Cube.lead, first, known, PatchPanels.register, put_other tc,
          (h.copies xdp).registered known]
  · exact h.fill room twice

theorem fine_reload (h : Sound s) (all : AllOrNothing s (.reload t code index built builtTc)) :
    Fine s (.reload t code index built builtTc) := by
  rintro ⟨xdp, rfl⟩ valid full hb
  obtain ⟨fd, rfl⟩ := Option.ne_none_iff_exists'.1 hb
  rcases builtTc with - | fdTc
  · right
    have kind : ((s.lead .egress index.toNat fd).fill .egress index.toNat code fd).kind = .xdp :=
      lead_kind.trans xdp
    simp only [AllOrNothing, exec, reload, wp_bind, wp_doReload h.toPlaced valid full, wp_get, Twice,
      kind, and_self, if_true, reloadTc, build, wp_throw] at all
    rw [← all.2]
    simp [Cube.fill]
  · exact Or.inl (by simp)

theorem ends_delProgram (h : Sound s) : Ends s (delProgram t index) := by
  unfold Ends delProgram
  by_cases invalid : index < 0 ∨ TooLarge index
  · simp [doDelProgram, invalid]
  by_cases full : s.programs t index.toNat = none
  · simp [doDelProgram, invalid, full]
  have slots := holds_put h.slots (t := t) (i := index.toNat) (Or.inl ⟨rfl, rfl, rfl⟩)
  have panel : ∀ t', Leads s s.kind t' (put s.programs t index.toNat none t' 0) := by
    intro t' l hl
    rw [put_apply] at hl
    split at hl
    · cases hl
    · exact h.panel t' l hl
  have placed : Placed { s with
      programs := put s.programs t index.toNat none, code := put s.code t index.toNat ""
      table := put s.table t index.toNat none } :=
    ⟨slots, panel, h.registered, h.taken, h.apart⟩
  simp only [doDelProgram, wp_bind, wp_ite, invalid, full, if_false, wp_pure, wp_get, wp_modify]
  split_ifs with twice
  · obtain ⟨xdp, rfl⟩ : s.kind = .xdp ∧ t = .egress := twice
    have old := h.copies xdp
    simp only [delTc, wp_bind, wp_ite, wp_get, wp_modify, wp_throw,
      mt (old.both _).1 full, if_false]
    refine ⟨⟨slots, panel, h.registered, h.taken, h.apart⟩,
      fun _ => ⟨⟨fun j => ?_, fun j => ?_, fun l hl => ?_⟩, old.registered⟩⟩
    · simp only [put_apply, update_apply, true_and]
      split
      · exact Or.inl ⟨rfl, rfl, rfl⟩
      · exact old.slots j
    · simp only [put_apply, update_apply, true_and]
      split
      · exact Iff.rfl
      · exact old.both j
    · simp only [update_apply] at hl
      split at hl
      · cases hl
      · exact old.panel l hl
  · refine ⟨placed, fun xdp => ?_⟩
    have other : ProgramType.egress ≠ t := fun e => twice ⟨xdp, e.symm⟩
    have old := h.copies xdp
    exact ⟨⟨by simpa only [put_other other] using old.slots,
      by simpa only [put_other other] using old.both, old.panel⟩, old.registered⟩

theorem ends_others (h : Sound s) (p : PatchPanels) : Ends s (exec (.others p)) := by
  have own : ∀ t, s.index t = s.index .ingress ∨ s.index t = s.index .egress := by
    intro t
    cases t <;> simp
  have nodes : ∀ k t, (s.shared p).nodes k (s.index t) = s.panels.nodes k (s.index t) :=
    fun k t => if_pos (own t)
  have present : ∀ k t, (s.shared p).present k (s.index t) = s.panels.present k (s.index t) :=
    fun k t => if_pos (own t)
  refine ⟨⟨h.slots, fun t l hl => ?_, fun t ht => ?_, fun i hi => ?_, h.apart⟩, fun xdp =>
    ⟨⟨(h.copies xdp).slots, (h.copies xdp).both, fun l hl => ?_⟩, fun ht => ?_⟩⟩
  · exact ⟨(h.panel t l hl).1, (nodes _ t).trans (h.panel t l hl).2⟩
  · exact (present _ t).trans (h.registered t ht)
  · obtain ⟨-, new⟩ := Finset.mem_sdiff.1 hi
    simp only [Finset.mem_insert, Finset.mem_singleton, not_or] at new
    refine ⟨new.1, fun t => ?_⟩
    cases t
    · exact Ne.symm new.2.1
    · exact Ne.symm new.2.2
  · exact ⟨((h.copies xdp).panel l hl).1, (nodes _ _).trans ((h.copies xdp).panel l hl).2⟩
  · exact (present _ _).trans ((h.copies xdp).registered ht)

theorem ends_of_fine (h : Sound s) {op : Op} (fine : Fine s op) : Ends s (exec op) := by
  cases op with
  | addProgram => exact ends_addProgram h fine
  | reload => exact ends_reload h fine
  | delProgram => exact ends_delProgram h
  | others p => exact ends_others h p

theorem allOrNothing_iff (h : Sound s) (op : Op) : AllOrNothing s op ↔ Fine s op := by
  refine ⟨fun all => ?_, fun fine => wp_mono (ends_of_fine h fine)
    (fun _ _ sound => sound.consistent) fun _ _ same => same⟩
  cases op with
  | addProgram => exact fine_addProgram h all
  | reload => exact fine_reload h all
  | delProgram => trivial
  | others p => trivial

theorem sound_step (h : Sound s) {op : Op} (fine : Fine s op) : Sound (step s op) := by
  have ends := ends_of_fine h fine
  unfold Ends wp at ends
  unfold step
  cases run : (exec op).run s with
  | ok _ s' =>
    rw [run] at ends
    exact ends
  | error e s' =>
    rw [run] at ends
    exact ends.2 ▸ h

/-- In a run every operation of a cube is all or nothing if and only if every one meets the
condition, whatever other cubes do to the panels in between. -/
theorem programs_iff (kind : PortType) (ops : List Op) :
    Meets step AllOrNothing (fresh kind) ops ↔ Meets step Fine (fresh kind) ops :=
  meets_congr (fun _ op h => allOrNothing_iff h op) (fun _ _ h fine => sound_step h fine)
    (sound_fresh kind)

/-- A program that does not compile keeps its slot. -/
theorem not_allOrNothing : ¬ ∀ kind ops, Meets step AllOrNothing (fresh kind) ops := by
  intro all
  have fine := (allOrNothing_iff (sound_fresh .tc) (.addProgram .ingress "" 0 none none)).1
    (all .tc [.addProgram .ingress "" 0 none none]).1
  exact (fine ⟨by decide, by decide, rfl⟩).1 rfl

end Polycube.Polycubed.ProgramSlots
