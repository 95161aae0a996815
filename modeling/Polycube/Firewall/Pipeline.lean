import Polycube.Firewall.Rules
import Polycube.Lib.Lpm

/-!
# The programs of a chain

A loaded chain is a row of programs, each of which narrows the bit vector of the rules that may
still match and calls the next.  `updateChain` compiles a rule list to them: a lookup program for
each field that some rule sets, those that can end the chain early first, then `BitScan` and
`ActionLookup`.
-/

namespace Polycube.Firewall

open Lib

inductive Verdict
  | drop | accept
  deriving DecidableEq

/-- `DefaultAction`: only `DROP` drops. -/
def ActionEnum.verdict : ActionEnum → Verdict
  | .drop => .drop
  | _ => .accept

def PacketHeaders.ip (pkt : PacketHeaders) : FieldType → BitVec 32
  | .source => pkt.srcIp
  | .destination => pkt.dstIp

def PacketHeaders.port (pkt : PacketHeaders) : FieldType → BitVec 16
  | .source => pkt.srcPort
  | .destination => pkt.dstPort

/-! ### The programs -/

/-- A program and its tables.  `L4PortLookup` has the bit vector of key 0 compiled in. -/
inductive Program
  | conntrackMatch (conntrack : Table ConnStatus BitVector)
  | ipLookup (type : FieldType) (ipTrie : Lpm 32 BitVector)
  | l4ProtocolLookup (transportProto : Table (BitVec 8) BitVector)
  | l4PortLookup (type : FieldType) (ports : Table (BitVec 16) BitVector)
      (wildcardEle : Option BitVector)
  | tcpFlagsLookup (tcpFlags : BitVec 8 → BitVector)
  | bitScan
  | actionLookup (actions : ℕ → ℕ)

/-- How a program ends: it calls the next hop, the program of the default action or the one that
updates the connections, or it drops the packet. -/
inductive Exit
  | nextHop (result : BitVector)
  | defaultAction
  | conntrackTableUpdate
  | rxDrop

def index64 : List ℕ :=
  [0, 47, 1, 56, 48, 27, 2, 60, 57, 49, 41, 37, 28, 16, 3, 61,
   54, 58, 35, 52, 50, 42, 21, 44, 38, 32, 29, 23, 17, 11, 4, 62,
   46, 55, 26, 59, 40, 36, 15, 53, 34, 51, 20, 43, 31, 22, 10, 45,
   25, 39, 14, 33, 19, 30, 9, 24, 13, 18, 8, 12, 7, 6, 5, 63]

/-- The index `BitScan` looks a word up at. -/
def scanIndex (bits : BitVec 64) : ℕ :=
  (((bits ^^^ (bits - 1#64)) * 0x03f79d71b4cb0a89#64) >>> 58).toNat

def matchingResult (bits : BitVec 64) : ℕ := index64.getD (scanIndex bits) 0

/-- Intersect with the entry that was found; a result of no rules breaks the pipeline. -/
def narrow (nrElements : ℕ) (result ele : BitVector) : Exit :=
  if (result.inter nrElements ele).isAllZero nrElements then .defaultAction
  else .nextHop (result.inter nrElements ele)

section Rx

variable (nrElements : ℕ) (pkt : PacketHeaders) (result : BitVector)

/-! `handle_rx` of each program; `result` is the shared bit vector. -/

def rxConntrackMatch (conntrack : Table ConnStatus BitVector) : Exit :=
  match conntrack pkt.connStatus with
  | none => .rxDrop
  | some ele => narrow nrElements result ele

def rxIpLookup (type : FieldType) (ipTrie : Lpm 32 BitVector) : Exit :=
  match ipTrie.lookup (bswap32 (pkt.ip type)) with
  | none => .defaultAction
  | some ele => narrow nrElements result ele

def rxL4ProtocolLookup (transportProto : Table (BitVec 8) BitVector) : Exit :=
  match (transportProto pkt.l4proto).or (transportProto 0) with
  | none => .defaultAction
  | some ele => narrow nrElements result ele

def rxL4PortLookup (type : FieldType) (ports : Table (BitVec 16) BitVector)
    (wildcardEle : Option BitVector) : Exit :=
  if pkt.l4proto ≠ ipprotoTcp ∧ pkt.l4proto ≠ ipprotoUdp then .nextHop result
  else
    match (ports (pkt.port type)).or wildcardEle with
    | none => .defaultAction
    | some ele => narrow nrElements result ele

def rxTcpFlagsLookup (tcpFlags : BitVec 8 → BitVector) : Exit :=
  if pkt.l4proto ≠ ipprotoTcp then .nextHop result
  else narrow nrElements result (tcpFlags pkt.flags)

def rxBitScan : Exit :=
  match result.scan wordRules matchingResult nrElements with
  | none => .defaultAction
  | some globalBit => .nextHop (result.setWord 0 (BitVec.ofNat 64 globalBit))

def rxActionLookup (actions : ℕ → ℕ) : Exit :=
  match actions (result.word 0).toNat with
  | 0 => .rxDrop
  | 1 => .conntrackTableUpdate
  | _ => .rxDrop

end Rx

def Program.handleRx (nrElements : ℕ) (pkt : PacketHeaders) (result : BitVector) :
    Program → Exit
  | .conntrackMatch conntrack => rxConntrackMatch nrElements pkt result conntrack
  | .ipLookup type ipTrie => rxIpLookup nrElements pkt result type ipTrie
  | .l4ProtocolLookup transportProto => rxL4ProtocolLookup nrElements pkt result transportProto
  | .l4PortLookup type ports wildcardEle =>
    rxL4PortLookup nrElements pkt result type ports wildcardEle
  | .tcpFlagsLookup tcpFlags => rxTcpFlagsLookup nrElements pkt result tcpFlags
  | .bitScan => rxBitScan nrElements result
  | .actionLookup actions => rxActionLookup result actions

def Program.noElements : Program → Exit
  | .bitScan => .defaultAction
  | _ => .rxDrop

def runPrograms (defaultAction : ActionEnum) (nrElements : ℕ) (pkt : PacketHeaders) :
    List Program → BitVector → Verdict
  | [], _ => .drop
  | program :: programs, result =>
    match if nrElements = 0 then program.noElements
      else program.handleRx nrElements pkt result with
    | .nextHop result => runPrograms defaultAction nrElements pkt programs result
    | .defaultAction => defaultAction.verdict
    | .conntrackTableUpdate => .accept
    | .rxDrop => .drop

/-! ### Loading a chain -/

/-- The map of an `IpLookup` program and the number of its entries. -/
structure IpTrie where
  entries : Lpm 32 BitVector
  size : ℕ

namespace IpTrie

def empty : IpTrie := ⟨fun _ => none, 0⟩

def maxEntries : ℕ := 1024

def key (ip : IpAddr) : ℕ × BitVec 32 := Lpm.key ip.netmask (bswap32 ip.ip)

/-- `IpLookup::updateTableValue`; a full map takes no new prefix. -/
def updateTableValue (t : IpTrie) (ip : IpAddr) (value : BitVector) : Except String IpTrie :=
  if (t.entries (key ip)).isSome then
    .ok { t with entries := t.entries.set ip.netmask (bswap32 ip.ip) value }
  else if t.size < maxEntries then
    .ok ⟨t.entries.set ip.netmask (bswap32 ip.ip) value, t.size + 1⟩
  else .error "Table set error: No space left on device"

/-- `IpLookup::updateMap` -/
def updateMap : OrdMap IpAddr BitVector → IpTrie → Except String IpTrie
  | [], t => .ok t
  | e :: ips, t =>
    match t.updateTableValue e.1 e.2 with
    | .error err => .error err
    | .ok t => updateMap ips t

end IpTrie

/-- The table of the actions: `ActionLookup::updateTableValue` for each rule. -/
def loadActions : List ChainRule → (ℕ → ℕ) → Except String (ℕ → ℕ)
  | [], actions => .ok actions
  | rule :: rules, actions =>
    match rule.action.toInt with
    | .error err => .error err
    | .ok action => loadActions rules (Function.update actions rule.id action)

def conntrackMatch (conntrackMap : List (ConntrackstatusEnum × BitVector)) : Program :=
  .conntrackMatch (Table.ofEntries (conntrackMap.map fun e => (e.1.connStatus, e.2)))

def l4ProtocolLookup (protocolMap : OrdMap (BitVec 8) BitVector) : Program :=
  .l4ProtocolLookup (Table.ofEntries protocolMap)

/-- The keys are put in network order; the entry of key 0 is the wildcard. -/
def l4PortLookup (type : FieldType) (portMap : OrdMap (BitVec 16) BitVector) : Program :=
  .l4PortLookup type (Table.ofEntries (portMap.map fun e => (bswap16 e.1, e.2)))
    ((portMap.find? fun e => e.1 = 0).map Prod.snd)

def ifNonempty {ε : Type} (map : List ε) (program : Program) : Option Program :=
  if map = [] then none else some program

/-- One of the two passes over the programs: those that may break first, then the others. -/
def pass (second : Bool) (programs : List (Option Program × Bool)) : List Program :=
  programs.filterMap fun e => if e.2 ^^ second then e.1 else none

def lookupPrograms (rules : List ChainRule) : Except String (List (Option Program × Bool)) :=
  let conntrack := conntrackFromRulesToMap rules
  let ipsrc := ipFromRulesToMap .source rules
  let ipdst := ipFromRulesToMap .destination rules
  let protocol := transportProtoFromRulesToMap rules
  let portsrc := portFromRulesToMap .source rules
  let portdst := portFromRulesToMap .destination rules
  let flags := flagsFromRulesToMap rules
  match IpTrie.updateMap ipsrc.1 .empty, IpTrie.updateMap ipdst.1 .empty with
  | .ok srcTrie, .ok dstTrie => .ok
    [(ifNonempty conntrack.1 (conntrackMatch conntrack.1), conntrack.2),
     (ifNonempty ipsrc.1 (.ipLookup .source srcTrie.entries), ipsrc.2),
     (ifNonempty ipdst.1 (.ipLookup .destination dstTrie.entries), ipdst.2),
     (ifNonempty protocol.1 (l4ProtocolLookup protocol.1), protocol.2),
     (ifNonempty portsrc.1 (l4PortLookup .source portsrc.1), portsrc.2),
     (ifNonempty portdst.1 (l4PortLookup .destination portdst.1), portdst.2),
     (flags.1.map .tcpFlagsLookup, flags.2)]
  | .error err, _ => .error err
  | _, .error err => .error err

structure Loaded where
  nrElements : ℕ
  programs : List Program

/-- `Chain::updateChain`: the programs it loads for a rule list. -/
def loadChain (rules : List ChainRule) : Except String Loaded :=
  match lookupPrograms rules, loadActions rules (fun _ => 0) with
  | .ok lookups, .ok actions => .ok
    { nrElements := fromNRulesToNElements rules.length
      programs := pass false lookups ++ pass true lookups ++ [.bitScan, .actionLookup actions] }
  | .error err, _ => .error err
  | _, .error err => .error err

/-- The shared bit vector as `Parser` leaves it. -/
def initShared (nrElements : ℕ) (shared : BitVector) : BitVector := fun i =>
  if i.val < nrElements then 0x7FFFFFFFFFFFFFFF#64 else shared i

/-- `ChainForwarder` and the chain behind it. -/
def Loaded.classify (chain : Loaded) (defaultAction : ActionEnum) (pkt : PacketHeaders)
    (result : BitVector) : Verdict :=
  if chain.nrElements > 0 then
    runPrograms defaultAction chain.nrElements pkt chain.programs result
  else defaultAction.verdict

def Ret.verdict : Ret → Verdict
  | .rxOk => .accept
  | .rxDrop => .drop

/-- A frame from `Parser` on; `connStatus` is the label it gets.  The record `pkt` and the bit
vector `shared` are as the last packet left them. -/
def Loaded.verdict (chain : Loaded) (defaultAction : ActionEnum) (frame : Buffer)
    (connStatus : ConnStatus) (pkt : PacketHeaders) (shared : BitVector) : Verdict :=
  match parse frame pkt with
  | (_, some ret) => ret.verdict
  | (pkt, none) =>
    chain.classify defaultAction { pkt with connStatus } (initShared chain.nrElements shared)

end Polycube.Firewall
