import Polycube.Iptables.Chains
import Polycube.Firewall.Classification

/-!
# The programs of the chains

The chains of this service run the programs of the firewall's, and one more that looks up the port
of a packet: `InterfaceLookup`.  `updateChain` resolves the interfaces of the rules to port indices
when it builds the table of that program.  Before the chains stands `ChainSelector`, which chooses
one by the addresses of the packet.
-/

namespace Polycube.Iptables

open Lib
open Polycube.Firewall (BitVector PacketHeaders Exit Verdict ActionEnum ConnStatus)

/-! ### Interfaces -/

def ChainRule.common (rule : ChainRule) : Firewall.ChainRule where
  id := rule.id
  ipSrc := rule.ipSrc
  ipDst := rule.ipDst
  srcPort := rule.srcPort
  dstPort := rule.dstPort
  l4Proto := rule.l4Proto
  tcpFlags := rule.tcpFlags
  conntrack := rule.conntrack
  action := rule.action
  description := none

abbrev commonRules (rules : List ChainRule) : List Firewall.ChainRule :=
  rules.map ChainRule.common

/-- `IN_TYPE`, `OUT_TYPE` -/
inductive InterfaceType
  | inType | outType
  deriving DecidableEq

def ChainRule.iface (rule : ChainRule) : InterfaceType → Option String
  | .inType => rule.inIface
  | .outType => rule.outIface

def ChainNameEnum.interfaceType : ChainNameEnum → InterfaceType
  | .output => .outType
  | _ => .inType

abbrev Ports := String → Option (BitVec 16)

def ChainRule.interface (rule : ChainRule) (type : InterfaceType) (ports : Ports) :
    Option (BitVec 16) :=
  (rule.iface type).bind ports

def wildcardInterface : BitVec 16 := 0xffff#16

def ruleInterfaces (type : InterfaceType) (ports : Ports) (rules : List ChainRule) :
    OrdMap (BitVec 16) BitVector :=
  rules.foldl (fun m rule =>
    Firewall.addRuleKey (fun _ => rule.interface type ports) m rule.common) []

def dontCareInterfaces (type : InterfaceType) (ports : Ports) (rules : List ChainRule) : List ℕ :=
  (rules.filter fun rule => (rule.interface type ports).isNone).map ChainRule.id

def interfaceFromRulesToMap (type : InterfaceType) (ports : Ports) (rules : List ChainRule) :
    OrdMap (BitVec 16) BitVector × Bool :=
  if ruleInterfaces type ports rules ≠ [] ∧ dontCareInterfaces type ports rules ≠ [] then
    ((dontCareInterfaces type ports rules).foldl Firewall.addDontCare
      ((ruleInterfaces type ports rules).insert wildcardInterface Words.zero), false)
  else (ruleInterfaces type ports rules, true)

/-- A program of a chain.  `InterfaceLookup` has the bit vector of the wildcard compiled in. -/
inductive Program
  | common (program : Firewall.Program)
  | interfaceLookup (interfaces : Table (BitVec 16) BitVector) (wildcardEle : Option BitVector)

/-- `handle_rx`; `port` is the port of the packet. -/
def rxInterfaceLookup (nrElements : ℕ) (port : BitVec 16) (result : BitVector)
    (interfaces : Table (BitVec 16) BitVector) (wildcardEle : Option BitVector) : Exit :=
  match (interfaces port).or wildcardEle with
  | none => .defaultAction
  | some ele => Firewall.narrow nrElements result ele

def Program.handleRx (nrElements : ℕ) (port : BitVec 16) (pkt : PacketHeaders)
    (result : BitVector) : Program → Exit
  | .common program => program.handleRx nrElements pkt result
  | .interfaceLookup interfaces wildcardEle =>
    rxInterfaceLookup nrElements port result interfaces wildcardEle

def Program.noElements : Program → Exit
  | .common program => program.noElements
  | .interfaceLookup _ _ => .rxDrop

def runPrograms (defaultAction : ActionEnum) (nrElements : ℕ) (port : BitVec 16)
    (pkt : PacketHeaders) : List Program → BitVector → Verdict
  | [], _ => .drop
  | program :: programs, result =>
    match if nrElements = 0 then program.noElements
      else program.handleRx nrElements port pkt result with
    | .nextHop result => runPrograms defaultAction nrElements port pkt programs result
    | .defaultAction => defaultAction.verdict
    | .conntrackTableUpdate => .accept
    | .rxDrop => .drop

def interfaceLookup (interfaceMap : OrdMap (BitVec 16) BitVector) : Program :=
  .interfaceLookup (Table.ofEntries interfaceMap)
    ((interfaceMap.find? fun e => e.1 = wildcardInterface).map Prod.snd)

def interfaceProgram (type : InterfaceType) (ports : Ports) (rules : List ChainRule) :
    Option Program × Bool :=
  let interface := interfaceFromRulesToMap type ports rules
  (if interface.1 = [] then none else some (interfaceLookup interface.1), interface.2)

/-- One of the two passes over the programs: those that may break first, then the others. -/
def pass (second : Bool) (programs : List (Option Program × Bool)) : List Program :=
  programs.filterMap fun e => if e.2 ^^ second then e.1 else none

def lookupPrograms (type : InterfaceType) (ports : Ports) (rules : List ChainRule) :
    Except String (List (Option Program × Bool)) :=
  match Firewall.lookupPrograms (commonRules rules) with
  | .error err => .error err
  | .ok lookups => .ok
    ((lookups.map fun e => (e.1.map Program.common, e.2)).insertIdx 6
      (interfaceProgram type ports rules))

structure Loaded where
  nrElements : ℕ
  programs : List Program

/-- `Chain::updateChain`: the programs it loads for a rule list. -/
def loadChain (type : InterfaceType) (ports : Ports) (rules : List ChainRule) :
    Except String Loaded :=
  match lookupPrograms type ports rules,
      Firewall.loadActions (commonRules rules) (fun _ => 0) with
  | .ok lookups, .ok actions => .ok
    { nrElements := Firewall.fromNRulesToNElements rules.length
      programs := pass false lookups ++ pass true lookups ++
        [.common .bitScan, .common (.actionLookup actions)] }
  | .error err, _ => .error err
  | _, .error err => .error err

/-- `INGRESS`, `EGRESS` -/
inductive ProgramType
  | ingress | egress
  deriving DecidableEq

def ChainNameEnum.programType : ChainNameEnum → ProgramType
  | .output => .egress
  | _ => .ingress

inductive DefaultAction
  | drop | accept
  deriving DecidableEq

def DefaultAction.action : DefaultAction → ActionEnum
  | .drop => .drop
  | .accept => .accept

/-- Where `ChainSelector` sends a packet; `localip` are the words of the local addresses.  A packet
that leaves and is from none of them has no chain. -/
def selectChain (localip : BitVec 32 → Bool) (type : ProgramType) (srcIp dstIp : BitVec 32) :
    Option ChainNameEnum :=
  match type with
  | .ingress => if localip dstIp then some .input else some .forward
  | .egress => if localip srcIp then some .output else none

/-- What is loaded: the chains, the numbers of elements that the programs `ChainSelector` are
compiled with, and whether the one for packets that come in lets all of them pass. -/
structure Datapath where
  chains : ChainNameEnum → Loaded
  nrElements : ChainNameEnum → ℕ
  allowLogic : Bool

/-- Is the code that lets all packets pass compiled in? -/
def allowLogic (defaults : ChainNameEnum → DefaultAction) (rules : ChainNameEnum → List ChainRule) :
    Bool :=
  defaults .input = .accept ∧ defaults .forward = .accept ∧ rules .input = [] ∧
    rules .forward = []

/-- `ChainSelector` and what is behind it, for a packet in the record. -/
def Datapath.classify (d : Datapath) (defaults : ChainNameEnum → DefaultAction)
    (localip : BitVec 32 → Bool) (type : ProgramType) (port : BitVec 16) (pkt : PacketHeaders)
    (shared : BitVector) : Verdict :=
  if type = .ingress ∧ d.allowLogic then .accept
  else
    match selectChain localip type pkt.srcIp pkt.dstIp with
    | none => .accept
    | some name =>
      if d.nrElements name > 0 then
        runPrograms (defaults name).action (d.chains name).nrElements port pkt
          (d.chains name).programs (Firewall.initShared (d.nrElements name) shared)
      else (defaults name).action.verdict

/-- A frame from `Parser` on, which is the firewall's but for the field of the forwarding decision,
that this record has not.  The label the packet gets is `connStatus`; the record `pkt` and the bit
vector `shared` are as the last packet left them. -/
def Datapath.verdict (d : Datapath) (defaults : ChainNameEnum → DefaultAction)
    (localip : BitVec 32 → Bool) (type : ProgramType) (port : BitVec 16) (frame : Buffer)
    (connStatus : ConnStatus) (pkt : PacketHeaders) (shared : BitVector) : Verdict :=
  match Firewall.parse frame pkt with
  | (_, some ret) => ret.verdict
  | (pkt, none) => d.classify defaults localip type port { pkt with connStatus } shared

end Polycube.Iptables
