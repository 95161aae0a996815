import Polycube.Iptables.Pipeline
import Polycube.Firewall.FirstMatch

/-!
# A chain decides by the first matching rule

The programs that the two services share narrow the bit vector as they do in the firewall.
`InterfaceLookup` narrows it by the indices that the interfaces of the rules were resolved to, and
by nothing for a rule whose interface was not.
-/

namespace Polycube.Iptables

open Lib
open Polycube.Firewall (BitVector PacketHeaders Packet Exit Verdict ActionEnum ConnStatus
  ConntrackstatusEnum Numbered Narrowed nrElements)

def ChainRule.holds (type : InterfaceType) (p : Packet) (iface : String) (rule : ChainRule) :
    Bool :=
  rule.common.holds p && (rule.iface type).all fun name => name = iface

def ChainRule.matches (type : InterfaceType) (p : Packet) (iface : String) (rule : ChainRule) :
    Bool :=
  rule.common.matches p && (rule.iface type).all fun name => name = iface

def ChainRule.reads (type : InterfaceType) (ports : Ports) (rules : List ChainRule) (p : Packet)
    (port : BitVec 16) (rule : ChainRule) : Bool :=
  rule.common.reads (commonRules rules) p &&
    (rule.interface type ports).all fun index => index = port

def firstMatch (test : ChainRule → Bool) (rules : List ChainRule)
    (defaultAction : DefaultAction) : Verdict :=
  match rules.find? test with
  | some rule => rule.action.verdict
  | none => defaultAction.action.verdict

theorem firstMatch_congr {test test' : ChainRule → Bool} {rules : List ChainRule}
    (h : ∀ rule ∈ rules, test rule = test' rule) (defaultAction : DefaultAction) :
    firstMatch test rules defaultAction = firstMatch test' rules defaultAction := by
  rw [firstMatch, List.find?_congr h, firstMatch]

theorem firstMatch_common {test : ChainRule → Bool} {test' : Firewall.ChainRule → Bool}
    {rules : List ChainRule} (h : ∀ rule ∈ rules, test' rule.common = test rule)
    (defaultAction : DefaultAction) :
    Firewall.firstMatch test' (commonRules rules) defaultAction.action =
      firstMatch test rules defaultAction := by
  have same : rules.find? (test' ∘ ChainRule.common) = rules.find? test := List.find?_congr h
  rw [Firewall.firstMatch, commonRules, List.find?_map, same, firstMatch]
  cases rules.find? test <;> rfl

section Interfaces

variable {type : InterfaceType} {ports : Ports} {rules : List ChainRule} {rule : ChainRule}

def interfaceKey (type : InterfaceType) (ports : Ports) (rules : List ChainRule)
    (r : Firewall.ChainRule) : Option (BitVec 16) :=
  (rules.find? fun rule => rule.id = r.id).bind fun rule => rule.interface type ports

theorem interfaceKey_common (numbered : Numbered (commonRules rules)) (hr : rule ∈ rules) :
    interfaceKey type ports rules rule.common = rule.interface type ports := by
  have found : rules.find? (fun r => r.id = rule.id) = some rule := by
    cases hfind : rules.find? fun r => r.id = rule.id with
    | none =>
      rw [List.find?_eq_none] at hfind
      exact absurd (decide_eq_true rfl) (hfind rule hr)
    | some r =>
      have hid : r.id = rule.id := by simpa using List.find?_some hfind
      have nodup : (rules.map ChainRule.id).Nodup := by
        have ids := numbered.ids
        rw [commonRules, List.map_map] at ids
        exact ids ▸ List.nodup_range
      rw [List.inj_on_of_nodup_map nodup (List.mem_of_find?_eq_some hfind) hr hid]
  show (rules.find? fun r => r.id = rule.id).bind _ = _
  rw [found, Option.bind_some]

theorem ruleInterfaces_eq (numbered : Numbered (commonRules rules)) :
    ruleInterfaces type ports rules =
      Firewall.ruleKeys (interfaceKey type ports rules) (commonRules rules) := by
  rw [ruleInterfaces, Firewall.ruleKeys, commonRules, List.foldl_map]
  refine List.foldl_ext _ _ _ fun m rule hr => ?_
  simp only [Firewall.addRuleKey, interfaceKey_common numbered hr]

theorem dontCareInterfaces_eq (numbered : Numbered (commonRules rules)) :
    dontCareInterfaces type ports rules =
      Firewall.dontCareRules (interfaceKey type ports rules) (commonRules rules) := by
  rw [dontCareInterfaces, Firewall.dontCareRules, commonRules, List.filter_map, List.map_map]
  have same : rules.filter (fun rule => (rule.interface type ports).isNone) =
      rules.filter ((fun r => (interfaceKey type ports rules r).isNone) ∘ ChainRule.common) :=
    List.filter_congr fun rule hr => by rw [Function.comp_apply, interfaceKey_common numbered hr]
  rw [same]
  rfl

theorem interfaceFromRulesToMap_eq (numbered : Numbered (commonRules rules)) :
    interfaceFromRulesToMap type ports rules = Firewall.keyFromRulesToMap
      (interfaceKey type ports rules) wildcardInterface (commonRules rules) := by
  rw [interfaceFromRulesToMap, Firewall.keyFromRulesToMap, ruleInterfaces_eq numbered,
    dontCareInterfaces_eq numbered]

end Interfaces

/-! ### The programs -/

def Program.reading (type : InterfaceType) (ports : Ports) (rules : List ChainRule) (p : Packet)
    (port : BitVec 16) : Program → Firewall.ChainRule → Bool
  | .common program => program.reading (commonRules rules) p
  | .interfaceLookup _ _ => fun r => (interfaceKey type ports rules r).all fun index => index = port

section Programs

variable {type : InterfaceType} {ports : Ports} {rules : List ChainRule} {port : BitVec 16}
  {pkt : PacketHeaders} {label : ConntrackstatusEnum}

def Real (ports : Ports) : Prop := ∀ name, ports name ≠ some wildcardInterface

theorem interfaceKey_ne_wildcard (real : Real ports) (r : Firewall.ChainRule) :
    interfaceKey type ports rules r ≠ some wildcardInterface := by
  intro h
  obtain ⟨rule, -, h⟩ := Option.bind_eq_some_iff.1 h
  obtain ⟨name, -, h⟩ := Option.bind_eq_some_iff.1 h
  exact real name h

theorem outcome_interfaceLookup (numbered : Numbered (commonRules rules)) (real : Real ports)
    (nonempty : (interfaceFromRulesToMap type ports rules).1 ≠ [])
    {test : Firewall.ChainRule → Bool} {v : BitVector} (h : Narrowed (commonRules rules) test v) :
    Firewall.Outcome (commonRules rules)
      (fun r => test r && (interfaceKey type ports rules r).all fun index => index = port)
      ((interfaceLookup (interfaceFromRulesToMap type ports rules).1).handleRx
        (nrElements (commonRules rules)) port pkt v) := by
  rw [interfaceFromRulesToMap_eq numbered] at nonempty ⊢
  set map := (Firewall.keyFromRulesToMap (interfaceKey type ports rules) wildcardInterface
    (commonRules rules)).1 with hmap
  have mem_entry : ∀ ele, Table.ofEntries map port = some ele → (port, ele) ∈ map :=
    fun _ => Table.mem_of_ofEntries
  have no_entry : Table.ofEntries map port = none → map.contains port = false := by
    intro e
    rw [← Bool.not_eq_true, OrdMap.contains_iff]
    rintro ⟨w, hw⟩
    exact Table.notMem_of_ofEntries e w hw
  have mem_wildcard : ∀ ele, (map.find? fun e => e.1 = wildcardInterface).map Prod.snd = some ele →
      (wildcardInterface, ele) ∈ map := by
    intro ele e
    obtain ⟨⟨k, ele'⟩, hfind, rfl⟩ := Option.map_eq_some_iff.1 e
    obtain rfl : k = wildcardInterface := by simpa using List.find?_some hfind
    exact List.mem_of_find?_eq_some hfind
  have no_wildcard : (map.find? fun e => e.1 = wildcardInterface).map Prod.snd = none →
      map.contains wildcardInterface = false := by
    intro e
    rw [Option.map_eq_none_iff, List.find?_eq_none] at e
    rw [← Bool.not_eq_true, OrdMap.contains_iff]
    rintro ⟨w, hw⟩
    simpa using e _ hw
  have found := Firewall.tabulates_byKey numbered nonempty mem_entry no_entry mem_wildcard
    no_wildcard
  refine (Firewall.Tabulates.outcome numbered h found).congr fun r hr => ?_
  congr 1
  cases hk : interfaceKey type ports rules r with
  | none => rfl
  | some k =>
    rw [Option.all_some, Option.all_some]
    split
    · rfl
    next absent =>
      -- the index of a rule is not the wildcard's, and not that of a port without rules
      have wild : k ≠ wildcardInterface := fun e => interfaceKey_ne_wildcard real r (e ▸ hk)
      have other : k ≠ port := fun e => absent ⟨r, hr, e ▸ hk⟩
      simp [wild, other]

/-- What the program for the interfaces narrows by; without one no rule has an interface. -/
theorem interface_unset (empty : (interfaceFromRulesToMap type ports rules).1 = [])
    (numbered : Numbered (commonRules rules)) {r : Firewall.ChainRule}
    (hr : r ∈ commonRules rules) :
    (interfaceKey type ports rules r).all (fun index => index = port) = true := by
  rw [interfaceFromRulesToMap_eq numbered] at empty
  rw [Firewall.keyFromRulesToMap_eq_nil_iff.1 empty r hr, Option.all_none]

theorem mem_lookupPrograms {lookups : List (Option Program × Bool)}
    (load : lookupPrograms type ports rules = .ok lookups)
    (numbered : Numbered (commonRules rules)) :
    ∃ commonLookups, Firewall.lookupPrograms (commonRules rules) = .ok commonLookups ∧
      ∀ program brk, (some program, brk) ∈ lookups ↔
        (some program, brk) = interfaceProgram type ports rules ∨
          ∃ p, (some p, brk) ∈ commonLookups ∧ .common p = program := by
  unfold lookupPrograms at load
  split at load
  · cases load
  next commonLookups common =>
    obtain rfl := Except.ok.inj load
    -- some packet, whatever its label: there is a program or none for each of the seven fields
    have length := (@Firewall.compiled_lookupPrograms _
      ⟨0, 0, 0, 0, 0, 0, 0, 0, .new, .notSet⟩ .new _ numbered common rfl).length_eq
    refine ⟨commonLookups, common, fun program brk => ?_⟩
    have room : 6 ≤ (commonLookups.map fun e => (e.1.map Program.common, e.2)).length := by
      rw [List.length_map, ← length]
      decide
    rw [List.mem_insertIdx room]
    refine or_congr_right ?_
    constructor
    · intro h
      obtain ⟨⟨p, brk'⟩, hp, e⟩ := List.mem_map.1 h
      obtain ⟨hprogram, rfl⟩ := Prod.mk.inj e
      obtain ⟨p, rfl, rfl⟩ := Option.map_eq_some_iff.1 hprogram
      exact ⟨p, hp, rfl⟩
    · rintro ⟨p, hp, rfl⟩
      exact List.mem_map.2 ⟨_, hp, rfl⟩

theorem eq_interfaceProgram {program : Program} {brk : Bool}
    (h : (some program, brk) = interfaceProgram type ports rules) :
    (interfaceFromRulesToMap type ports rules).1 ≠ [] ∧
      program = interfaceLookup (interfaceFromRulesToMap type ports rules).1 := by
  unfold interfaceProgram at h
  dsimp only at h
  split at h
  · cases h
  next nonempty => exact ⟨nonempty, Option.some.inj (Prod.mk.inj h).1⟩

theorem run_lookups (numbered : Numbered (commonRules rules)) (real : Real ports)
    {lookups : List (Option Program × Bool)} (load : lookupPrograms type ports rules = .ok lookups)
    (labelled : pkt.connStatus = label.connStatus) {v : BitVector}
    (start : Narrowed (commonRules rules) (fun _ => true) v) (defaultAction : DefaultAction)
    (rest : List Program) :
    (∃ v', Narrowed (commonRules rules) (fun r => r.reads (commonRules rules) (pkt.packet label) &&
        (interfaceKey type ports rules r).all fun index => index = port) v' ∧
      runPrograms defaultAction.action (nrElements (commonRules rules)) port pkt
          (pass false lookups ++ pass true lookups ++ rest) v =
        runPrograms defaultAction.action (nrElements (commonRules rules)) port pkt rest v') ∨
    ((∀ r ∈ commonRules rules, (r.reads (commonRules rules) (pkt.packet label) &&
        (interfaceKey type ports rules r).all fun index => index = port) = false) ∧
      runPrograms defaultAction.action (nrElements (commonRules rules)) port pkt
          (pass false lookups ++ pass true lookups ++ rest) v = defaultAction.action.verdict) := by
  obtain ⟨commonLookups, common, mem⟩ := mem_lookupPrograms load numbered
  have compiled := Firewall.compiled_lookupPrograms numbered common labelled
  have pos : nrElements (commonRules rules) ≠ 0 := by
    obtain ⟨r, hr, -⟩ := start.some_rule
    exact Firewall.nrElements_pos (List.ne_nil_of_mem hr)
  have sound : ∀ program ∈ pass false lookups ++ pass true lookups, ∀ test v,
      Narrowed (commonRules rules) test v → Firewall.Outcome (commonRules rules)
        (fun r => test r && program.reading type ports rules (pkt.packet label) port r)
        (program.handleRx (nrElements (commonRules rules)) port pkt v) := by
    intro program hp test v hv
    obtain ⟨brk, h⟩ := Firewall.mem_filterMap_passes.1 hp
    rcases (mem program brk).1 h with h | ⟨p, inCommon, rfl⟩
    · obtain ⟨nonempty, rfl⟩ := eq_interfaceProgram h
      exact outcome_interfaceLookup numbered real nonempty hv
    · exact Firewall.sound_of_compiled compiled inCommon test v hv
  have tests : ∀ r ∈ commonRules rules, (true && (pass false lookups ++ pass true lookups).all
      fun program => program.reading type ports rules (pkt.packet label) port r) =
      (r.reads (commonRules rules) (pkt.packet label) &&
        (interfaceKey type ports rules r).all fun index => index = port) := by
    intro r hr
    have fieldwise := Firewall.tests_of_compiled compiled hr
    rw [Bool.true_and, Bool.eq_iff_iff, List.all_eq_true, Bool.and_eq_true,
      Firewall.ChainRule.reads, List.all_eq_true, ← fieldwise]
    constructor
    · intro all
      constructor
      · rintro p ⟨brk, hp⟩
        exact all (.common p)
          (Firewall.mem_filterMap_passes.2 ⟨brk, (mem _ brk).2 (Or.inr ⟨p, hp, rfl⟩)⟩)
      · by_cases empty : (interfaceFromRulesToMap type ports rules).1 = []
        · exact interface_unset empty numbered hr
        · refine all (interfaceLookup (interfaceFromRulesToMap type ports rules).1)
            (Firewall.mem_filterMap_passes.2 ⟨(interfaceFromRulesToMap type ports rules).2,
              (mem _ _).2 (Or.inl ?_)⟩)
          simp only [interfaceProgram, if_neg empty]
    · rintro ⟨common, interface⟩ program hp
      obtain ⟨brk, h⟩ := Firewall.mem_filterMap_passes.1 hp
      rcases (mem program brk).1 h with h | ⟨p, inCommon, rfl⟩
      · obtain ⟨-, rfl⟩ := eq_interfaceProgram h
        exact interface
      · exact common p ⟨brk, inCommon⟩
  rcases @Firewall.run_narrows _ _ _ _
      (runPrograms defaultAction.action (nrElements (commonRules rules)) port pkt)
      (fun program v => program.handleRx (nrElements (commonRules rules)) port pkt v)
      defaultAction.action.verdict
      (Program.reading type ports rules (pkt.packet label) port) _
      (fun hexit => by simp only [runPrograms, if_neg pos, hexit])
      (fun hexit => by simp only [runPrograms, if_neg pos, hexit])
      sound start rest with ⟨v', hv, run⟩ | ⟨none, run⟩
  · exact Or.inl ⟨v', hv.congr tests, run⟩
  · exact Or.inr ⟨fun r hr => (tests r hr).symm.trans (none r hr), run⟩

theorem runPrograms_common (defaultAction : ActionEnum) (n : ℕ) (programs : List Firewall.Program)
    (v : BitVector) : runPrograms defaultAction n port pkt (programs.map Program.common) v =
      Firewall.runPrograms defaultAction n pkt programs v := by
  induction programs generalizing v with
  | nil => rfl
  | cons program programs ih =>
    simp only [List.map_cons, runPrograms, Firewall.runPrograms, Program.noElements,
      Program.handleRx]
    cases if n = 0 then program.noElements else program.handleRx n pkt v with
    | nextHop v' => exact ih v'
    | defaultAction => rfl
    | conntrackTableUpdate => rfl
    | rxDrop => rfl

theorem runPrograms_eq_firstMatch (numbered : Numbered (commonRules rules)) (real : Real ports)
    (nonempty : rules ≠ []) {chain : Loaded} (load : loadChain type ports rules = .ok chain)
    (labelled : pkt.connStatus = label.connStatus) (defaultAction : DefaultAction)
    (shared : BitVector) :
    runPrograms defaultAction.action chain.nrElements port pkt chain.programs
        (Firewall.initShared chain.nrElements shared) =
      firstMatch (ChainRule.reads type ports rules (pkt.packet label) port) rules
        defaultAction := by
  have tests : ∀ rule ∈ rules, (rule.common.reads (commonRules rules) (pkt.packet label) &&
      (interfaceKey type ports rules rule.common).all fun index => index = port) =
      rule.reads type ports rules (pkt.packet label) port := by
    intro rule hr
    rw [interfaceKey_common numbered hr, ChainRule.reads]
  unfold loadChain at load
  split at load
  next lookups actions hlookups hactions =>
    obtain rfl := Except.ok.inj load
    have elements : Firewall.fromNRulesToNElements rules.length =
        nrElements (commonRules rules) := by
      rw [nrElements, commonRules, List.length_map]
    have start := Firewall.narrowed_initShared numbered (by simpa using nonempty) shared
    rw [elements]
    rcases run_lookups numbered real hlookups labelled start defaultAction
        [.common .bitScan, .common (.actionLookup actions)] with ⟨v, hv, run⟩ | ⟨none, run⟩
    · rw [run, ← @firstMatch_common _ (fun r => r.reads (commonRules rules) (pkt.packet label) &&
        (interfaceKey type ports rules r).all fun index => index = port) _ tests]
      exact (runPrograms_common defaultAction.action _ [.bitScan, .actionLookup actions] v).trans
        (Firewall.runPrograms_decide numbered hactions hv)
    · rw [run, firstMatch, List.find?_eq_none.2 fun rule hr => ?_]
      rw [← tests rule hr, none rule.common (List.mem_map_of_mem hr)]
      exact Bool.false_ne_true
  · cases load
  · cases load

end Programs

/-- The chain a packet belongs to: `INPUT` if it is for this host, `OUTPUT` if it is from it. -/
def packetChain (isLocal : BitVec 32 → Bool) (type : ProgramType) (p : Packet) :
    Option ChainNameEnum :=
  match type with
  | .ingress => some (if isLocal (p.address .destination) then .input else .forward)
  | .egress => if isLocal (p.address .source) then some .output else none

def decision (test : ChainNameEnum → ChainRule → Bool) (rules : ChainNameEnum → List ChainRule)
    (defaults : ChainNameEnum → DefaultAction) (isLocal : BitVec 32 → Bool) (type : ProgramType)
    (p : Packet) : Verdict :=
  match packetChain isLocal type p with
  | none => .accept
  | some name => firstMatch (test name) (rules name) (defaults name)

structure Loads (defaults : ChainNameEnum → DefaultAction) (ports : ChainNameEnum → Ports)
    (rules : ChainNameEnum → List ChainRule) (d : Datapath) : Prop where
  numbered : ∀ c, Numbered (commonRules (rules c))
  real : ∀ c, Real (ports c)
  loaded : ∀ c, rules c ≠ [] →
    loadChain c.interfaceType (ports c) (rules c) = .ok (d.chains c)
  elements : ∀ c, d.nrElements c = Firewall.fromNRulesToNElements (rules c).length
  allow : d.allowLogic = true → allowLogic defaults rules = true

section Decision

variable {defaults : ChainNameEnum → DefaultAction} {ports : ChainNameEnum → Ports}
  {rules : ChainNameEnum → List ChainRule} {d : Datapath} {isLocal : BitVec 32 → Bool}
  {type : ProgramType} {p : Packet}

/-- With no rules and `ACCEPT` for both chains all packets that come in pass. -/
theorem decision_of_allowLogic (allow : allowLogic defaults rules = true)
    (test : ChainNameEnum → ChainRule → Bool) :
    decision test rules defaults isLocal .ingress p = .accept := by
  obtain ⟨input, forward, noInput, noForward⟩ := of_decide_eq_true allow
  unfold decision packetChain
  cases isLocal (p.address .destination) with
  | false => simp [firstMatch, noForward, forward, DefaultAction.action, Firewall.ActionEnum.verdict]
  | true => simp [firstMatch, noInput, input, DefaultAction.action, Firewall.ActionEnum.verdict]

theorem selectChain_eq_packetChain (pkt : PacketHeaders) (label : ConntrackstatusEnum) :
    selectChain (fun ip => isLocal (bswap32 ip)) type pkt.srcIp pkt.dstIp =
      packetChain isLocal type (pkt.packet label) := by
  cases type with
  | ingress => exact (apply_ite some _ _ _).symm
  | egress => rfl

theorem nrElements_pos_iff {rules : List ChainRule} :
    Firewall.fromNRulesToNElements rules.length > 0 ↔ rules ≠ [] := by
  constructor
  · rintro h rfl
    cases h
  · intro h
    have := @Firewall.nrElements_pos (commonRules rules) (by simpa using h)
    rw [Firewall.nrElements, commonRules, List.length_map] at this
    exact Nat.pos_of_ne_zero this

theorem Loads.classify (loads : Loads defaults ports rules d) {pkt : PacketHeaders}
    {label : ConntrackstatusEnum} (labelled : pkt.connStatus = label.connStatus)
    (port : BitVec 16) (shared : BitVector) :
    d.classify defaults (fun ip => isLocal (bswap32 ip)) type port pkt shared =
      decision (fun c => ChainRule.reads c.interfaceType (ports c) (rules c) (pkt.packet label) port)
        rules defaults isLocal type (pkt.packet label) := by
  unfold Datapath.classify
  by_cases allow : type = .ingress ∧ d.allowLogic = true
  · rw [if_pos allow, allow.1, decision_of_allowLogic (loads.allow allow.2)]
  · rw [if_neg allow, selectChain_eq_packetChain pkt label, decision]
    cases packetChain isLocal type (pkt.packet label) with
    | none => rfl
    | some name =>
      dsimp only
      rw [loads.elements]
      by_cases empty : rules name = []
      · rw [if_neg (by rw [nrElements_pos_iff]; exact not_not.2 empty), empty]
        rfl
      · have load := loads.loaded name empty
        have elements : Firewall.fromNRulesToNElements (rules name).length =
            (d.chains name).nrElements := by
          unfold loadChain at load
          split at load
          · rw [← Except.ok.inj load]
          · cases load
          · cases load
        rw [if_pos (nrElements_pos_iff.2 empty), elements]
        exact runPrograms_eq_firstMatch (loads.numbered name) (loads.real name) empty load labelled
          (defaults name) shared

theorem decision_congr {test test' : ChainNameEnum → ChainRule → Bool}
    (h : ∀ c, ∀ rule ∈ rules c, test c rule = test' c rule) :
    decision test rules defaults isLocal type p = decision test' rules defaults isLocal type p := by
  unfold decision
  cases packetChain isLocal type p with
  | none => rfl
  | some name => exact firstMatch_congr (h name) _

end Decision

end Polycube.Iptables
