import Mathlib.Data.List.Nodup
import Mathlib.Logic.Function.Basic
import Polycube.Lib.Run
import Polycube.Lib.Throwing

/-!
# The path configurations of dynmon

The ingress and the egress path of a `Dynmon` each have a configuration and up to three programs:
the code itself at index 0, or a master at index 0 that calls the code or its swap at 1 and 2.  A
configuration is loaded program by program; when a step throws, the default is loaded again, and
the programs counted in `progress` are deleted.  Ingress counts them and egress does not, and
neither looks at the programs that the configuration before has left.
-/

namespace Polycube.Dynmon

open Function Lib

abbrev Code := String

/-- `MetricConfigJsonObject`; of the labels of its metadata there are the names. -/
structure MetricConfig where
  name : String
  mapName : String
  swapOnRead : Bool
  labels : List String

/-- `PathConfigJsonObject` -/
structure PathConfig where
  name : Option String
  code : Option Code
  metricConfigs : List MetricConfig

/-- `DEFAULT_PATH_CODE`: all packets pass. -/
def defaultCode : Code :=
  "static __always_inline int handle_rx(struct CTXTYPE *ctx, struct pkt_metadata *md) \x7b\n" ++
    "  return RX_OK;\n\x7d"

def PathConfig.default : PathConfig := ⟨some "Default path config", some defaultCode, []⟩

def PathConfig.getCode (c : PathConfig) : Code := c.code.getD ""

/-- The constructor of a `PathConfig` does not throw: neither a metric nor a label of a metric is
there twice. -/
def PathConfig.valid (c : PathConfig) : Bool :=
  c.code.isSome && c.name.isSome && decide (c.metricConfigs.map (·.name)).Nodup &&
    c.metricConfigs.all fun metric => decide metric.labels.Nodup

/-- A place for a program.  The object of a program that could not be compiled or loaded stays. -/
inductive Slot
  | empty
  | broken
  | loaded (code : Code)
  deriving DecidableEq

/-- The new names of maps. -/
abbrev Names := List (String × String)

/-- `SwapStateConfig`: how the code was rewritten, with the codes and the names that have changed. -/
inductive Rewriting
  | none
  | programReload (original swapped : Code) (names : Names)
  | programIndexSwap (master original swapped : Code) (names globalNames : Names)
  deriving DecidableEq

def Rewriting.isIndexSwap : Rewriting → Bool
  | .programIndexSwap .. => true
  | _ => false

/-- `getCodeToLoad` -/
def Rewriting.codeToLoad (r : Rewriting) (current : ℕ) : Code :=
  match r with
  | .none => ""
  | .programReload original swapped _ | .programIndexSwap _ original swapped _ _ =>
    if current = 1 then original else swapped

/-- `getProgramIndexAndMapNameToRead`: the program whose maps are read. -/
def Rewriting.programIndexToRead (r : Rewriting) (current : ℕ) : ℕ :=
  if r.isIndexSwap then current % 2 + 1 else 0

/-- `getProgramIndexAndMapNameToRead`: the name under which the map is read. -/
def Rewriting.mapNameToRead (r : Rewriting) (current : ℕ) (mapName : String) : String :=
  match r with
  | .none => mapName
  | .programReload _ _ names =>
    if current = 1 then (names.lookup mapName).getD mapName else mapName
  | .programIndexSwap _ _ _ names globalNames =>
    match names.lookup mapName with
    | some tuned => tuned
    | .none => if current = 1 then (globalNames.lookup mapName).getD mapName else mapName

/-- One path: its part of `DataplaneConfig`, its swap state, its programs, and the index that the
map of the master program holds; `progress` is the local variable of the configuration that is
going on. -/
structure Path where
  config : Option PathConfig
  rewriting : Rewriting
  current : ℕ
  programs : ℕ → Slot
  pivot : ℕ
  progress : ℕ

def Path.put (p : Path) (i : ℕ) (s : Slot) : Path :=
  { p with programs := update p.programs i s }

section Put

variable (p : Path) (i : ℕ) (s : Slot)

@[simp] theorem Path.put_progress : (p.put i s).progress = p.progress := rfl

@[simp] theorem Path.put_self : (p.put i s).programs i = s := update_self ..

theorem Path.put_of_ne {p : Path} {i j : ℕ} {s : Slot} (h : j ≠ i) :
    (p.put i s).programs j = p.programs j :=
  update_of_ne h ..

end Put

def Path.start : Path where
  config := some .default
  rewriting := .none
  current := 1
  programs := fun i => if i = 0 then .loaded defaultCode else .empty
  pivot := 0
  progress := 0

/-- One of the two ways to rewrite a code: by regular expressions, which may be ill-formed. -/
inductive Attempt (α : Type)
  | throws
  | fails
  | gives (codes : α)

/-- What is not decided here: what the rewriter makes of the code, whether the program of an index
compiles and loads, whether the map of the master can be written, and whether the default code
loads. -/
structure Outcomes where
  enhanced : Attempt (Code × Code × Code × Names × Names)
  base : Attempt (Code × Code × Names)
  loads : ℕ → Bool
  pivot : Bool
  default : Bool

/-- `CodeRewriter::compile`, if it does not throw. -/
def rewritten (c : PathConfig) (o : Outcomes) : Option Rewriting :=
  if c.metricConfigs.any (·.swapOnRead) then
    match o.enhanced, o.base with
    | .throws, _ => none
    | .gives (master, original, swapped, names, globalNames), _ =>
      some (.programIndexSwap master original swapped names globalNames)
    | .fails, .throws => none
    | .fails, .gives (original, swapped, names) => some (.programReload original swapped names)
    | .fails, .fails => some .none
  else some .none

abbrev M := EStateM String Path

/-- `reload`: the old program stays where the new one does not load. -/
def reload (ok : Bool) (code : Code) (i : ℕ) : M Unit := do
  let p ← get
  if p.programs i = .empty then throw "ebpf does not exist"
  else if ok then set (p.put i (.loaded code))
  else throw "failed to load ebpf program"

def addProgram (ok : Bool) (code : Code) (i : ℕ) : M Unit := do
  let p ← get
  if p.programs i ≠ .empty then throw "Program is not empty"
  else if ok then set (p.put i (.loaded code))
  else do
    set (p.put i .broken)
    throw "failed to load ebpf program"

def delProgram (i : ℕ) : M Unit := do
  let p ← get
  if p.programs i = .empty then throw "ebpf program does not exist"
  else set (p.put i .empty)

/-- `SWAP_MASTER_INDEX_MAP` is set. -/
def setPivot (ok : Bool) (i : ℕ) : M Unit :=
  if ok then modify fun p => { p with pivot := i } else throw "map update failed"

/-! ### Configurations -/

/-- `CodeRewriter::compile`; where it throws the swap state stays. -/
def compile (c : PathConfig) (o : Outcomes) : M Unit :=
  match rewritten c o with
  | none => throw "regex_error"
  | some r => modify fun p => { p with rewriting := r, current := 1 }

/-- `++progress`, in the one path that counts. -/
def count (counts : Bool) : M Unit :=
  modify fun p => { p with progress := if counts then p.progress + 1 else p.progress }

/-- `add_program(code, ++progress, ..)`; in egress the index is written out. -/
def addCounted (counts ok : Bool) (code : Code) (i : ℕ) : M Unit := do
  count counts
  addProgram ok code i

def loadPrograms (counts : Bool) (c : PathConfig) (o : Outcomes) : Rewriting → M Unit
  | .none => reload (o.loads 0) c.getCode 0
  | .programReload original swapped names =>
    reload (o.loads 0) ((Rewriting.programReload original swapped names).codeToLoad 1) 0
  | .programIndexSwap master original swapped _ _ => do
    reload (o.loads 0) master 0
    addCounted counts (o.loads 1) original 1
    addCounted counts (o.loads 2) swapped 2
    setPivot o.pivot 1

/-- `replaceIngressPathConfig`, `replaceEgressPathConfig`: the old one is deleted first. -/
def replacePathConfig (c : PathConfig) : M Unit := do
  modify fun p => { p with config := none }
  if c.valid then modify fun p => { p with config := some c }
  else throw "Path Config: missing code"

def load (counts : Bool) (c : PathConfig) (o : Outcomes) : M Unit := do
  compile c o
  let p ← get
  loadPrograms counts c o p.rewriting
  replacePathConfig c

/-- `for (int i = 1; i <= progress; i++) del_program(i);` -/
def delPrograms : ℕ → M Unit
  | 0 => pure ()
  | n + 1 => do
    delPrograms n
    delProgram (n + 1)

/-- `egressSwapState = {};` -/
def clearSwapState : M Unit := modify fun p => { p with rewriting := .none, current := 1 }

/-- The `catch` block. -/
def restore (default : Bool) : M Unit := do
  replacePathConfig .default
  reload default defaultCode 0
  let p ← get
  delPrograms p.progress
  clearSwapState

/-- `setIngressPathConfig` and `setEgressPathConfig`; true if the configuration is accepted. -/
def setPathConfig (counts : Bool) (c : PathConfig) (o : Outcomes) : M Bool := do
  modify fun p => { p with progress := 0 }
  tryCatch (do
    load counts c o
    pure true) fun _ => do
    restore o.default
    pure false

def setIngressPathConfig : PathConfig → Outcomes → M Bool := setPathConfig true

/-- `progress` is declared here as well, but nothing increments it. -/
def setEgressPathConfig : PathConfig → Outcomes → M Bool := setPathConfig false

def delSwapped (r : Rewriting) : M Unit :=
  if r.isIndexSwap then do
    delProgram 2
    delProgram 1
  else pure ()

/-- `resetIngressPathConfig`, `resetEgressPathConfig` -/
def resetPathConfig (default : Bool) : M Bool := do
  replacePathConfig .default
  reload default defaultCode 0
  let p ← get
  delSwapped p.rewriting
  clearSwapState
  pure false

/-- `triggerRead` of the swap state. -/
def advance : M Unit := modify fun p => { p with current := p.current % 2 + 1 }

def swapPrograms (ok : Bool) (p : Path) : M Unit :=
  match p.rewriting with
  | .none => pure ()
  | .programReload original swapped names => do
    advance
    reload ok ((Rewriting.programReload original swapped names).codeToLoad (p.current % 2 + 1)) 0
  | .programIndexSwap .. => do
    advance
    setPivot ok (p.current % 2 + 1)

/-- `triggerReadIngress`, `triggerReadEgress`: what every read of metrics starts with. -/
def triggerRead (ok : Bool) : M Bool := do
  let p ← get
  swapPrograms ok p
  pure false

inductive Direction
  | ingress | egress
  deriving DecidableEq

inductive Op
  | set (d : Direction) (c : PathConfig) (o : Outcomes)
  | reset (d : Direction) (default : Bool)
  | read (d : Direction) (ok : Bool)

def Op.direction : Op → Direction
  | .set d _ _ | .reset d _ | .read d _ => d

def Op.exec : Op → M Bool
  | .set .ingress c o => setIngressPathConfig c o
  | .set .egress c o => setEgressPathConfig c o
  | .reset _ default => resetPathConfig default
  | .read _ ok => triggerRead ok

structure Dynmon where
  path : Direction → Path
  accepted : Direction → Option (PathConfig × Rewriting)

def Dynmon.start : Dynmon := ⟨fun _ => .start, fun _ => none⟩

def Dynmon.step (s : Dynmon) (op : Op) : Dynmon × Bool :=
  match op.exec.run (s.path op.direction) with
  | .ok accepted p =>
    ({ path := update s.path op.direction p,
       accepted := if accepted then
         update s.accepted op.direction (p.config.map fun c => (c, p.rewriting))
         else s.accepted }, false)
  | .error _ p => ({ s with path := update s.path op.direction p }, true)

def Dynmon.handle (s : Dynmon) : List Op → Dynmon
  | [] => s
  | op :: ops => if (s.step op).2 then (s.step op).1 else (s.step op).1.handle ops

/-- `setDataplaneConfig`, of the paths that are in the request. -/
def setDataplaneConfig (ingress egress : Option (Bool × PathConfig × Outcomes)) : List Op :=
  let path (d : Direction) (r : Bool × PathConfig × Outcomes) : List Op :=
    [.reset d r.1, .set d r.2.1 r.2.2]
  ingress.elim [] (path .ingress) ++ egress.elim [] (path .egress)

/-- `resetDataplaneConfig` -/
def resetDataplaneConfig (ingress egress : Bool) : List Op :=
  [.reset .ingress ingress, .reset .egress egress]

/-- Behind the program at index 0, there is something at the next `n` and at no other. -/
def Extra (n : ℕ) (p : Path) : Prop := ∀ i, i ≠ 0 → (p.programs i ≠ .empty ↔ i ≤ n)

def Holds (code : Code) (p : Path) : Rewriting → Prop
  | .none => p.programs 0 = .loaded code ∧ Extra 0 p
  | .programReload original swapped _ =>
    (p.programs 0 = .loaded original ∨ p.programs 0 = .loaded swapped) ∧ Extra 0 p
  | .programIndexSwap master original swapped _ _ =>
    (p.programs 0 = .loaded master ∧ p.programs 1 = .loaded original ∧
      p.programs 2 = .loaded swapped ∧ (p.pivot = 1 ∨ p.pivot = 2)) ∧ Extra 2 p

structure Configured (a : PathConfig × Rewriting) (p : Path) : Prop where
  config : p.config = some a.1
  rewriting : p.rewriting = a.2
  current : p.current = 1 ∨ p.current = 2
  holds : Holds a.1.getCode p a.2

def PassesThrough (p : Path) : Prop := Configured (.default, .none) p

/-- A path is in the default state or configured with what was accepted last. -/
def Stands (accepted : Option (PathConfig × Rewriting)) (p : Path) : Prop :=
  PassesThrough p ∨ ∃ a, accepted = some a ∧ Configured a p

/-- The maps that a program has when its code is compiled. -/
abbrev Maps := Code → List String

/-- The metrics of the configuration can be read: a program that is loaded has their maps. -/
def Readable (maps : Maps) (p : Path) : Prop :=
  ∃ c, p.config = some c ∧ ∀ metric ∈ c.metricConfigs,
    ∃ code, p.programs (p.rewriting.programIndexToRead p.current) = .loaded code ∧
      p.rewriting.mapNameToRead p.current metric.mapName ∈ maps code

def Whole (maps : Maps) (accepted : Option (PathConfig × Rewriting)) (p : Path) : Prop :=
  Stands accepted p ∧ Readable maps p

/-- The codes that may be loaded when the maps of the metrics are read have these maps. -/
def Rewriting.HasMaps (maps : Maps) (c : PathConfig) (r : Rewriting) : Prop :=
  ∀ metric ∈ c.metricConfigs,
    let read (current : ℕ) (code : Code) := r.mapNameToRead current metric.mapName ∈ maps code
    match r with
    | .none => read 1 c.getCode
    | .programReload original swapped _ =>
      (read 1 original ∧ read 1 swapped) ∧ read 2 original ∧ read 2 swapped
    | .programIndexSwap _ original swapped _ _ => read 1 swapped ∧ read 2 original

instance (maps : Maps) (c : PathConfig) : DecidablePred (Rewriting.HasMaps maps c)
  | .none => inferInstanceAs (Decidable (∀ metric ∈ c.metricConfigs, _ ∈ _))
  | .programReload .. =>
    inferInstanceAs (Decidable (∀ metric ∈ c.metricConfigs, (_ ∈ _ ∧ _ ∈ _) ∧ _ ∈ _ ∧ _ ∈ _))
  | .programIndexSwap .. =>
    inferInstanceAs (Decidable (∀ metric ∈ c.metricConfigs, _ ∈ _ ∧ _ ∈ _))

def succeeds (c : PathConfig) (o : Outcomes) : Bool :=
  match rewritten c o with
  | none => false
  | some r =>
    o.loads 0 && (!r.isIndexSwap || (o.loads 1 && o.loads 2 && o.pivot)) && c.valid

def begins (c : PathConfig) (o : Outcomes) : Bool :=
  (rewritten c o).any Rewriting.isIndexSwap && o.loads 0

/-- A configuration is not set over one that swaps indices; if something throws, the default can be
loaded, and in the egress path no second program has been begun; if nothing does, the codes have the
maps of the metrics.  A reset can load the default. -/
def Fine (maps : Maps) (s : Dynmon) : Op → Prop
  | .set d c o =>
    (s.path d).rewriting.isIndexSwap = false ∧
      (succeeds c o = false → o.default = true ∧ (d = .egress → begins c o = false)) ∧
      (succeeds c o = true → (rewritten c o).elim True (Rewriting.HasMaps maps c))
  | .reset _ default => default = true
  | .read _ _ => True

instance (maps : Maps) (s : Dynmon) : DecidablePred (Fine maps s)
  | .set _ c o =>
    have : Decidable ((rewritten c o).elim True (Rewriting.HasMaps maps c)) :=
      match rewritten c o with
      | none => instDecidableTrue
      | some _ => inferInstanceAs (Decidable (Rewriting.HasMaps ..))
    instDecidableAnd
  | .reset _ _ => instDecidableEqBool _ _
  | .read _ _ => instDecidableTrue

end Polycube.Dynmon
