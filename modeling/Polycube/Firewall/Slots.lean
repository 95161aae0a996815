import Polycube.Firewall.FieldLookups
import Polycube.Lib.Run

/-!
# The slots of a chain's programs

A chain has two regions of slots and uses them in turn: while the programs of one version are live,
`updateChain` puts those of the next one into the other region, one after another, each calling the
slot behind its own.  Which programs are there depends on the rules, and their order on which of
them may break the pipeline; the verdict depends on neither the slots nor this order.  But a slot
takes a program only if it is free, `load` does not tell when it is not, and an update that throws
leaves its programs in the slots that the next version gets.
-/

namespace Polycube.Firewall

open Function Lib

/-! ### The order of the programs -/

section Order

variable {pkt : PacketHeaders} {n : ℕ} {defaultAction : ActionEnum}

def Program.ele (pkt : PacketHeaders) : Program → Option BitVector
  | .conntrackMatch conntrack => some ((conntrack pkt.connStatus).getD Words.zero)
  | .ipLookup type ipTrie => some ((ipTrie.lookup (bswap32 (pkt.ip type))).getD Words.zero)
  | .l4ProtocolLookup transportProto =>
    some (((transportProto pkt.l4proto).or (transportProto 0)).getD Words.zero)
  | .l4PortLookup type ports wildcardEle =>
    if pkt.l4proto ≠ ipprotoTcp ∧ pkt.l4proto ≠ ipprotoUdp then none
    else some (((ports (pkt.port type)).or wildcardEle).getD Words.zero)
  | .tcpFlagsLookup tcpFlags =>
    if pkt.l4proto ≠ ipprotoTcp then none else some (tcpFlags pkt.flags)
  | .bitScan | .actionLookup _ => none

def Program.Matching (pkt : PacketHeaders) : Program → Prop
  | .conntrackMatch conntrack => (conntrack pkt.connStatus).isSome = true
  | .bitScan | .actionLookup _ => False
  | _ => True

theorem matching_of_load {rules : List ChainRule} {lookups : List (Option Program × Bool)}
    (load : lookupPrograms rules = .ok lookups) {label : ConntrackstatusEnum}
    (labelled : pkt.connStatus = label.connStatus) {program : Program} {brk : Bool}
    (h : (some program, brk) ∈ lookups) : program.Matching pkt := by
  unfold lookupPrograms at load
  dsimp only at load
  split at load
  next srcTrie dstTrie hsrc hdst =>
    obtain rfl := Except.ok.inj load
    simp only [List.mem_cons, Prod.mk.injEq, List.not_mem_nil, or_false] at h
    rcases h with h | h | h | h | h | h | h
    · obtain ⟨nonempty, rfl⟩ := mem_ifNonempty h.1
      unfold conntrackFromRulesToMap at nonempty ⊢
      split
      · show (Table.ofEntries _ pkt.connStatus).isSome = true
        rw [labelled]
        cases label <;> rfl
      next e =>
        rw [if_neg e] at nonempty
        exact absurd rfl nonempty
    · obtain ⟨-, rfl⟩ := mem_ifNonempty h.1
      trivial
    · obtain ⟨-, rfl⟩ := mem_ifNonempty h.1
      trivial
    · obtain ⟨-, rfl⟩ := mem_ifNonempty h.1
      trivial
    · obtain ⟨-, rfl⟩ := mem_ifNonempty h.1
      trivial
    · obtain ⟨-, rfl⟩ := mem_ifNonempty h.1
      trivial
    · obtain ⟨tcpFlags, -, rfl⟩ := Option.map_eq_some_iff.1 h.1.symm
      trivial
  · cases load
  · cases load

end Order

/-! ### Slots -/

structure Compiled where
  program : Program
  nrElements : ℕ
  nextHop : ℕ

/-- The programs of a cube.  A slot without a program that runs may be taken, by one that the kernel
has refused. -/
abbrev Slots := ℕ → Option (Option Compiled)

/-- A packet that a program calls the slot `hop` for, for at most so many calls.  A call of a slot
without a program drops the packet. -/
def call (defaultAction : ActionEnum) (pkt : PacketHeaders) (slots : Slots) :
    ℕ → ℕ → BitVector → Verdict
  | 0, _, _ => .drop
  | calls + 1, hop, result =>
    match (slots hop).join with
    | none => .drop
    | some c =>
      match if c.nrElements = 0 then c.program.noElements
        else c.program.handleRx c.nrElements pkt result with
      | .nextHop result => call defaultAction pkt slots calls c.nextHop result
      | .defaultAction => defaultAction.verdict
      | .conntrackTableUpdate => .accept
      | .rxDrop => .drop

/-- The number of a program's module, in the order of `ModulesConstants`. -/
inductive Module
  | conntrackMatch | ipSource | ipDestination | l4Proto | portSource | portDestination | tcpFlags
  | bitScan | action
  deriving DecidableEq

def Program.module : Program → Module
  | .conntrackMatch _ => .conntrackMatch
  | .ipLookup .source _ => .ipSource
  | .ipLookup .destination _ => .ipDestination
  | .l4ProtocolLookup _ => .l4Proto
  | .l4PortLookup .source _ _ => .portSource
  | .l4PortLookup .destination _ _ => .portDestination
  | .tcpFlagsLookup _ => .tcpFlags
  | .bitScan => .bitScan
  | .actionLookup _ => .action

namespace Reloading

def nrModules : ℕ := 9

/-- The slots of the programs that all versions share, the two of Horus among them. -/
def nrInitialModules : ℕ := 7

/-- Every program of a chain gets the slot behind its own as `_NEXT_HOP_1`. -/
def nextHop (index : ℕ) : ℕ := index + 1

def present (nonempty : Bool) (m : Module) : Option Module := if nonempty then some m else none

def matchingModules (rules : List ChainRule) : List (Option Module × Bool) :=
  let conntrack := conntrackFromRulesToMap rules
  let ipsrc := ipFromRulesToMap .source rules
  let ipdst := ipFromRulesToMap .destination rules
  let protocol := transportProtoFromRulesToMap rules
  let portsrc := portFromRulesToMap .source rules
  let portdst := portFromRulesToMap .destination rules
  let flags := flagsFromRulesToMap rules
  [(present (!conntrack.1.isEmpty) .conntrackMatch, conntrack.2),
   (present (!ipsrc.1.isEmpty) .ipSource, ipsrc.2),
   (present (!ipdst.1.isEmpty) .ipDestination, ipdst.2),
   (present (!protocol.1.isEmpty) .l4Proto, protocol.2),
   (present (!portsrc.1.isEmpty) .portSource, portsrc.2),
   (present (!portdst.1.isEmpty) .portDestination, portdst.2),
   (present flags.1.isSome .tcpFlags, flags.2)]

def iteration (second : Bool) (modules : List (Option Module × Bool)) : List Module :=
  modules.filterMap fun e => if e.2 ^^ second then e.1 else none

def placed (rules : List ChainRule) : List Module :=
  iteration false (matchingModules rules) ++ iteration true (matchingModules rules)

/-- The loop's state: the next free slot, the slot of the program that was loaded first, and the
slots of `newProgramsChain`. -/
structure Building where
  index : ℕ
  firstProgramLoaded : Option ℕ
  newProgramsChain : Module → Option ℕ

/-- A program goes to the slot `index`. -/
def Building.inject (startingIndex : ℕ) (b : Building) (m : Module) : Building where
  index := b.index + 1
  firstProgramLoaded := if b.index = startingIndex then some b.index else b.firstProgramLoaded
  newProgramsChain := update b.newProgramsChain m (some b.index)

/-- The modules from a slot on. -/
def build (startingIndex : ℕ) (modules : List Module) : Building :=
  modules.foldl (Building.inject startingIndex) ⟨startingIndex, none, fun _ => none⟩

abbrev version (matching : List Module) : List Module :=
  matching ++ [Module.bitScan, Module.action]

/-- `updateChain` for the rules of a chain, and what is not the chain's to say: whether something
throws on the way, the slots whose programs the kernel refuses, and what is `left`: in the slots of
the version when the update throws, and in one that was taken by another program, which then has the
entries of the maps that it shares with the new one. -/
structure Update where
  rules : List ChainRule
  throws : Bool
  refused : ℕ → Bool
  left : Slots

/-- `add_program`, whose exception `load` catches, and `updateMap` -/
def Update.load (u : Update) (nrElements : ℕ) (slots : Slots) (k : ℕ) (program : Program) : Slots :=
  update slots k <| some <|
    match slots k with
    | some _ => (u.left k).join
    | none => if u.refused k then none else some ⟨program, nrElements, nextHop k⟩

def Update.loadFrom (u : Update) (nrElements : ℕ) : ℕ → List Program → Slots → Slots
  | _, [], slots => slots
  | k, program :: programs, slots =>
    u.loadFrom nrElements (k + 1) programs (u.load nrElements slots k program)

/-- A chain: `chainNumber`, the slots of its live programs, the slot that the chain forwarder calls,
its own one as long as there is no chain, and the number of elements that it is compiled with; and
the slots of the cube. -/
structure State where
  chainNumber : ℕ
  programs : Module → Option ℕ
  hop : Option ℕ
  nrElements : ℕ
  slots : Slots

def State.init : State where
  chainNumber := 0
  programs _ := none
  hop := none
  nrElements := 0
  slots _ := none

def allModules : List Module :=
  [.conntrackMatch, .ipSource, .ipDestination, .l4Proto, .portSource, .portDestination, .tcpFlags,
    .bitScan, .action]

namespace State

variable (s : State)

def startingIndex : ℕ := nrInitialModules + s.chainNumber * nrModules

/-- The slots without the programs of the old version. -/
def unload (slots : Slots) : Slots := fun k =>
  if allModules.any fun m => s.programs m = some k then none else slots k

/-- The programs of a chain, in the order they have there, get live. -/
def reload (u : Update) (chain : Loaded) : State :=
  let b := build s.startingIndex (chain.programs.map Program.module)
  { chainNumber := if s.chainNumber = 0 then 1 else 0
    programs := b.newProgramsChain
    hop := b.firstProgramLoaded
    nrElements := chain.nrElements
    slots := s.unload (u.loadFrom chain.nrElements s.startingIndex chain.programs s.slots) }

/-- The old version stays live, and nothing remembers the new programs. -/
def abandon (u : Update) : State :=
  { s with slots := fun k =>
      if s.startingIndex ≤ k ∧ k < s.startingIndex + nrModules then (s.slots k).or (u.left k)
      else s.slots k }

/-- `ChainForwarder`, which calls a slot when the chain has rules. -/
def forward (defaultAction : ActionEnum) (pkt : PacketHeaders) (result : BitVector) : Verdict :=
  if s.nrElements > 0 then
    match s.hop with
    | none => .drop
    | some hop => call defaultAction pkt s.slots nrModules hop result
  else defaultAction.verdict

end State

/-- An update throws when an action has no number (`LOG`), when a map is full, or for a reason of its
own. -/
def step (s : State) (u : Update) : State :=
  match u.throws, loadChain u.rules with
  | false, .ok chain => s.reload u chain
  | _, _ => s.abandon u

/-! ### The slots of a version -/

section Version

variable {start : ℕ} {modules : List Module}

/-- Each program's next hop is the slot of the next one, the matching modules lead to `BitScan` and
that one to `ActionLookup`, and no two programs share a slot. -/
structure Linked (b : Building) (modules : List Module) : Prop where
  present : ∀ m, (b.newProgramsChain m).isSome = true ↔ m ∈ modules
  first : ∀ m, modules.head? = some m → b.firstProgramLoaded = b.newProgramsChain m
  next : ∀ i m m', modules[i]? = some m → modules[i + 1]? = some m' →
    ∃ k, b.newProgramsChain m = some k ∧ b.newProgramsChain m' = some (nextHop k)
  distinct : ∀ m m' k, b.newProgramsChain m = some k → b.newProgramsChain m' = some k → m = m'

end Version

section Modules

variable {rules : List ChainRule}

theorem iterations_perm {α : Type} (l : List (Option α × Bool)) :
    (l.filterMap (fun e => if e.2 ^^ false then e.1 else none) ++
      l.filterMap (fun e => if e.2 ^^ true then e.1 else none)).Perm (l.filterMap Prod.fst) := by
  simp only [Bool.xor_false, Bool.xor_true]
  induction l with
  | nil => exact .refl _
  | cons e l ih =>
    obtain ⟨m, brk⟩ := e
    cases m with
    | none => simpa using ih
    | some m =>
      cases brk with
      | true => simpa using ih
      | false =>
        simp only [List.filterMap_cons, Bool.not_false, if_true, Bool.false_eq_true, if_false]
        exact List.perm_middle.trans (ih.cons m)

theorem filterMap_sublist {α : Type} {l : List (Option α × Bool)} {names : List α}
    (h : List.Forall₂ (fun e m => e.1 = none ∨ e.1 = some m) l names) :
    List.Sublist (l.filterMap Prod.fst) names := by
  induction h with
  | nil => exact .slnil
  | @cons e m l names he _ ih =>
    obtain ⟨m', brk⟩ := e
    rcases he with rfl | rfl
    · exact ih.cons m
    · exact ih.cons_cons m

theorem present_cases (nonempty : Bool) (m : Module) :
    present nonempty m = none ∨ present nonempty m = some m := by
  cases nonempty with
  | false => exact Or.inl rfl
  | true => exact Or.inr rfl

theorem placed_perm (rules : List ChainRule) :
    (placed rules).Perm ((matchingModules rules).filterMap Prod.fst) := iterations_perm _

theorem nodup_version {matching : List Module} (perm : matching.Perm (placed rules)) :
    (version matching).Nodup := by
  have sub : List.Sublist ((matchingModules rules).filterMap Prod.fst)
      [.conntrackMatch, .ipSource, .ipDestination, .l4Proto, .portSource, .portDestination,
        .tcpFlags] := by
    refine filterMap_sublist ?_
    exact .cons (present_cases ..) (.cons (present_cases ..) (.cons (present_cases ..)
      (.cons (present_cases ..) (.cons (present_cases ..) (.cons (present_cases ..)
      (.cons (present_cases ..) .nil))))))
  have perm := perm.trans (placed_perm rules)
  have nodup : (version ((matchingModules rules).filterMap Prod.fst)).Nodup :=
    (sub.append_right _).nodup (by decide)
  exact (perm.append_right _).nodup_iff.2 nodup

theorem matchingModules_eq {lookups : List (Option Program × Bool)}
    (load : lookupPrograms rules = .ok lookups) :
    matchingModules rules = lookups.map fun e => (e.1.map Program.module, e.2) := by
  have here : ∀ {ε : Type} (map : List ε) (program : Program),
      present (!map.isEmpty) program.module = (ifNonempty map program).map Program.module := by
    intro ε map program
    cases map with
    | nil => rfl
    | cons e map => rfl
  have flags : ∀ tcpFlags : Option (BitVec 8 → BitVector), present tcpFlags.isSome .tcpFlags =
      (tcpFlags.map Program.tcpFlagsLookup).map Program.module := by
    intro tcpFlags
    cases tcpFlags with
    | none => rfl
    | some tcpFlags => rfl
  unfold lookupPrograms at load
  dsimp only at load
  split at load
  next srcTrie dstTrie hsrc hdst =>
    obtain rfl := Except.ok.inj load
    simp only [List.map_cons, List.map_nil, ← here, ← flags]
    rfl
  · cases load
  · cases load

theorem iteration_map (second : Bool) (lookups : List (Option Program × Bool)) :
    iteration second (lookups.map fun e => (e.1.map Program.module, e.2)) =
      (pass second lookups).map Program.module := by
  unfold iteration pass
  rw [List.filterMap_map, List.map_filterMap]
  congr 1
  funext e
  show (if e.2 ^^ second then e.1.map Program.module else none) = _
  split
  · rfl
  · rfl

theorem placed_eq {lookups : List (Option Program × Bool)}
    (load : lookupPrograms rules = .ok lookups) :
    placed rules = (pass false lookups ++ pass true lookups).map Program.module := by
  unfold placed
  rw [matchingModules_eq load, iteration_map, iteration_map, List.map_append]

end Modules

/-- The programs of a chain in the order of a row of modules that ends with `BitScan` and
`ActionLookup`. -/
structure Placement (chain : Loaded) (programs : List Program) : Prop where
  perm : programs.Perm chain.programs
  ends : ∃ matching, programs.map Program.module = version matching

section Packets

variable {pkt : PacketHeaders} {n : ℕ} {defaultAction : ActionEnum} {slots : Slots}

theorem module_bitScan {program : Program} (h : program.module = .bitScan) :
    program = .bitScan := by
  cases program with
  | bitScan => rfl
  | ipLookup type ipTrie => cases type <;> cases h
  | l4PortLookup type ports wildcardEle => cases type <;> cases h
  | _ => cases h

theorem module_action {program : Program} (h : program.module = .action) :
    ∃ actions, program = .actionLookup actions := by
  cases program with
  | actionLookup actions => exact ⟨actions, rfl⟩
  | ipLookup type ipTrie => cases type <;> cases h
  | l4PortLookup type ports wildcardEle => cases type <;> cases h
  | _ => cases h

theorem module_ne_action {program : Program} (matching : program.Matching pkt) :
    program.module ≠ .action := by
  cases program with
  | bitScan => exact matching.elim
  | actionLookup actions => exact matching.elim
  | ipLookup type ipTrie => cases type <;> exact nofun
  | l4PortLookup type ports wildcardEle => cases type <;> exact nofun
  | _ => exact nofun

/-- A placement has the lookup programs of the chain in some order, and the two others behind. -/
theorem Placement.split {rules : List ChainRule} {chain : Loaded}
    (load : loadChain rules = .ok chain) {programs : List Program}
    (placement : Placement chain programs) {label : ConntrackstatusEnum}
    (labelled : pkt.connStatus = label.connStatus) :
    ∃ lookups lookups' actions, chain.programs = lookups ++ [.bitScan, .actionLookup actions] ∧
      programs = lookups' ++ [.bitScan, .actionLookup actions] ∧ lookups'.Perm lookups ∧
      ∀ program ∈ lookups, program.Matching pkt := by
  obtain ⟨perm, matching, same⟩ := placement
  unfold loadChain at load
  split at load
  next lookups actions hlookups hactions =>
    obtain rfl := Except.ok.inj load
    have all : ∀ program ∈ pass false lookups ++ pass true lookups, program.Matching pkt := by
      intro program hp
      obtain ⟨brk, he⟩ := mem_passes.1 hp
      exact matching_of_load hlookups labelled he
    obtain ⟨lookups', ends, rfl, hmatching, hends⟩ := List.map_eq_append_iff.1 same
    obtain ⟨scan, rest, rfl, hscan, hrest⟩ := List.map_eq_cons_iff.1 hends
    obtain ⟨last, rest, rfl, hlast, hnil⟩ := List.map_eq_cons_iff.1 hrest
    obtain rfl := List.map_eq_nil_iff.1 hnil
    obtain rfl := module_bitScan hscan
    obtain ⟨actions', rfl⟩ := module_action hlast
    -- the only other programs are the lookup programs
    have mem : Program.actionLookup actions' ∈
        (pass false lookups ++ pass true lookups) ++ [.bitScan, .actionLookup actions] :=
      perm.subset (by simp)
    rcases List.mem_append.1 mem with mem | mem
    · exact absurd rfl (module_ne_action (all _ mem))
    · obtain rfl : actions' = actions := by simpa using mem
      exact ⟨_, lookups', actions', rfl, rfl, (List.perm_append_right_iff _).1 perm, all⟩
  · cases load
  · cases load

end Packets

section Loading

variable {u : Update} {n k : ℕ} {programs : List Program} {slots : Slots}

end Loading

namespace State

/-- The live programs are in the region that the next version does not get, and the chain forwarder
calls one of them. -/
structure Kept (s : State) : Prop where
  chainNumber : s.chainNumber = 0 ∨ s.chainNumber = 1
  programs : ∀ m k, s.programs m = some k →
    nrInitialModules + (1 - s.chainNumber) * nrModules ≤ k ∧
      k < nrInitialModules + (1 - s.chainNumber) * nrModules + nrModules
  hop : ∀ k, s.hop = some k → ∃ m, s.programs m = some k

end State

/-- What an update must meet: the rules have tables and actions, nothing throws, and the kernel
refuses no program. -/
structure Update.Fits (u : Update) : Prop where
  returns : u.throws = false
  loads : ∃ chain, loadChain u.rules = .ok chain
  accepted : ∀ k, u.refused k = false

section Steps

variable {s : State} {u : Update} {chain : Loaded} {programs : List Program}

theorem modules_of_load (load : loadChain u.rules = .ok chain) :
    chain.programs.map Program.module = version (placed u.rules) := by
  unfold loadChain at load
  split at load
  next lookups actions hlookups hactions =>
    obtain rfl := Except.ok.inj load
    rw [placed_eq hlookups, List.map_append]
    rfl
  · cases load
  · cases load

theorem Placement.nodup (load : loadChain u.rules = .ok chain)
    (placement : Placement chain programs) : (programs.map Program.module).Nodup := by
  refine (placement.perm.map Program.module).nodup_iff.2 ?_
  rw [modules_of_load load]
  exact nodup_version (.refl _)

end Steps

end Reloading

end Polycube.Firewall
