import Polycube.Firewall.Pipeline

/-!
# What a rule list means

A packet is decided by the first rule that matches it, or by the default action.  `Packet` is the
packet as its frame says, with host-order numbers.  A rule `Holds` of a packet when all its
conditions do; `matches` is the chain's reading of a rule, which leaves a condition on ports to the
packets of TCP and UDP and one on flags to those of TCP.
-/

namespace Polycube.Firewall

open Lib

def IpAddr.net (a : IpAddr) : BitVec 32 := bswap32 a.ip

def IpAddr.contains (a : IpAddr) (address : BitVec 32) : Bool :=
  topBits a.netmask address = topBits a.netmask a.net

def TcpFlags.met (f : TcpFlags) (flags : BitVec 8) : Bool :=
  flags &&& f.flagsSet = f.flagsSet && flags &&& f.flagsNotSet = 0

structure Packet where
  address : FieldType → BitVec 32
  proto : BitVec 8
  ports : Option (FieldType → BitVec 16)
  flags : Option (BitVec 8)
  label : ConntrackstatusEnum

inductive Field
  | conntrack | ip (type : FieldType) | proto | port (type : FieldType) | flags
  deriving DecidableEq

/-- Does the condition of a rule on a field hold of the packet?  A condition on what the packet
does not have is left to `absent`. -/
def ChainRule.test (absent : Bool) (rule : ChainRule) (p : Packet) : Field → Bool
  | .conntrack => rule.conntrack.all fun state => state = p.label
  | .ip type => (rule.ip type).all fun a => a.contains (p.address type)
  | .proto => rule.l4Proto.all fun proto => proto.toInt = p.proto
  | .port type => (rule.port type).all fun port =>
      (p.ports.map fun ports => decide (ports type = port)).getD absent
  | .flags => rule.tcpFlags.all fun f => (p.flags.map f.met).getD absent

def fields : List Field :=
  [.conntrack, .ip .source, .ip .destination, .proto, .port .source, .port .destination, .flags]

def ChainRule.holds (p : Packet) (rule : ChainRule) : Bool := fields.all (rule.test false p)

def ChainRule.matches (p : Packet) (rule : ChainRule) : Bool := fields.all (rule.test true p)

/-- The prefix of a list that decides for an address: the longest that contains it, the last in the
order of the map when there are several. -/
def IpAddr.decides (ips : List IpAddr) (address : BitVec 32) (a : IpAddr) : Bool :=
  a.contains address && ips.all fun b =>
    !b.contains address || b.netmask < a.netmask || (b.netmask = a.netmask && b.ip ≤ a.ip)

/-- What the tables of a rule list make of the rule's condition on a field.  They agree with the
field's `test` where prefixes compare as they contain each other, no rule has port 0 and no rule
only forbids flags. -/
def ChainRule.reading (rules : List ChainRule) (p : Packet) (rule : ChainRule) : Field → Bool
  | .ip type => (rules.map fun r => r.currentIp type).any fun a =>
      a.decides (rules.map fun r => r.currentIp type) (p.address type) &&
        (rule.currentIp type).covers a
  | .port type => (rule.port type).all fun port =>
      (p.ports.map fun ports => decide (port =
        if ∃ r ∈ rules, r.port type = some (ports type) then ports type else 0)).getD true
  | .flags => rule.tcpFlags.all fun f => (p.flags.map f.candidate).getD true
  | .conntrack => rule.test true p .conntrack
  | .proto => rule.test true p .proto

section Equations

variable {rules : List ChainRule} {p : Packet} {rule : ChainRule} {absent : Bool} {type : FieldType}

theorem test_ip :
    rule.test absent p (.ip type) = (rule.ip type).all fun a => a.contains (p.address type) := rfl

theorem test_port : rule.test absent p (.port type) = (rule.port type).all fun port =>
    (p.ports.map fun ports => decide (ports type = port)).getD absent := rfl

theorem test_flags : rule.test absent p .flags =
    rule.tcpFlags.all fun f => (p.flags.map f.met).getD absent := rfl

theorem reading_conntrack :
    rule.reading rules p .conntrack = rule.conntrack.all fun state => state = p.label := rfl

theorem reading_ip : rule.reading rules p (.ip type) =
    (rules.map fun r => r.currentIp type).any fun a =>
      a.decides (rules.map fun r => r.currentIp type) (p.address type) &&
        (rule.currentIp type).covers a := rfl

theorem reading_proto :
    rule.reading rules p .proto = rule.l4Proto.all fun proto => proto.toInt = p.proto := rfl

theorem reading_port : rule.reading rules p (.port type) = (rule.port type).all fun port =>
    (p.ports.map fun ports => decide (port =
      if ∃ r ∈ rules, r.port type = some (ports type) then ports type else 0)).getD true := rfl

theorem reading_flags : rule.reading rules p .flags =
    rule.tcpFlags.all fun f => (p.flags.map f.candidate).getD true := rfl

end Equations

def ChainRule.reads (rules : List ChainRule) (p : Packet) (rule : ChainRule) : Bool :=
  fields.all (rule.reading rules p)

def firstMatch (test : ChainRule → Bool) (rules : List ChainRule) (defaultAction : ActionEnum) :
    Verdict :=
  match rules.find? test with
  | some rule => rule.action.verdict
  | none => defaultAction.verdict

def Packet.ofFrame (frame : Buffer) (label : ConntrackstatusEnum) : Option Packet :=
  let proto := frame.byte 23
  let header := if proto = ipprotoTcp then tcpLen else if proto = ipprotoUdp then udpLen else 0
  if frame.length < ethLen + ipLen + header ∨ frame.load16 12 ≠ bswap16 ethPIp then none
  else some
    { address := fun type => bswap32 (frame.load32 (match type with
        | .source => 26
        | .destination => 30))
      proto
      ports := if proto = ipprotoTcp ∨ proto = ipprotoUdp then
          some fun type => bswap16 (frame.load16 (match type with
            | .source => 34
            | .destination => 36))
        else none
      flags := if proto = ipprotoTcp then some (frame.byte 47) else none
      label }

def PacketHeaders.packet (pkt : PacketHeaders) (label : ConntrackstatusEnum) : Packet where
  address type := bswap32 (pkt.ip type)
  proto := pkt.l4proto
  ports := if pkt.l4proto = ipprotoTcp ∨ pkt.l4proto = ipprotoUdp then
      some fun type => bswap16 (pkt.port type)
    else none
  flags := if pkt.l4proto = ipprotoTcp then some pkt.flags else none
  label

/-- `Parser` reads the packet of the frame, whatever the record was before. -/
theorem parse_of_ofFrame {frame : Buffer} {label : ConntrackstatusEnum} {p : Packet}
    (h : Packet.ofFrame frame label = some p) (old : PacketHeaders) :
    ∃ pkt, parse frame old = (pkt, none) ∧ pkt.packet label = p := by
  unfold Packet.ofFrame at h
  simp only [Option.ite_none_left_eq_some, not_or, not_not, Option.some.injEq, not_lt] at h
  obtain ⟨⟨hlen, heth⟩, rfl⟩ := h
  have h14 : ¬ frame.length < ethLen := by unfold ethLen ipLen at *; omega
  have h34 : ¬ frame.length < ethLen + ipLen := by omega
  unfold parse
  simp only [h14, heth, h34, if_false, ne_eq, not_true_eq_false]
  by_cases tcp : frame.byte 23 = ipprotoTcp
  · simp only [tcp, if_true] at hlen
    simp only [tcp, if_true, not_lt.2 hlen, if_false]
    refine ⟨_, rfl, ?_⟩
    simp only [PacketHeaders.packet, Packet.mk.injEq, and_true, true_and, true_or, if_true]
    constructor
    · funext type
      cases type <;> rfl
    · congr 1
      funext type
      cases type <;> rfl
  · by_cases udp : frame.byte 23 = ipprotoUdp
    · simp only [udp, if_true] at hlen
      rw [if_neg (by decide)] at hlen
      have hno : ipprotoUdp ≠ ipprotoTcp := by decide
      simp only [udp, hno, if_true, not_lt.2 hlen, if_false]
      refine ⟨_, rfl, ?_⟩
      simp only [PacketHeaders.packet, Packet.mk.injEq, and_true, true_and, or_true, if_true,
        hno, if_false]
      constructor
      · funext type
        cases type <;> rfl
      · congr 1
        funext type
        cases type <;> rfl
    · simp only [tcp, udp, if_false]
      refine ⟨_, rfl, ?_⟩
      simp only [PacketHeaders.packet, Packet.mk.injEq, and_true, tcp, udp, or_self, if_false]
      funext type
      cases type <;> rfl

end Polycube.Firewall
