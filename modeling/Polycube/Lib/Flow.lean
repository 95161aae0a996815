import Polycube.Lib.Bytes

/-!
# Flows

Packets of TCP, UDP and ICMP with their tuple of addresses and ports, as translators of addresses
see them.  The identifier of an ICMP packet is both of its ports.  Addresses and ports are raw, as
in the frame.
-/

namespace Polycube.Lib

def ipprotoIcmp : BitVec 8 := 1#8
def ipprotoTcp : BitVec 8 := 6#8
def ipprotoUdp : BitVec 8 := 17#8

/-- What follows the IP header; `short` is a frame that ends before its header does. -/
inductive L4
  | tcp (source dest : BitVec 16)
  | udp (source dest : BitVec 16)
  | icmp (type : BitVec 8) (id : BitVec 16)
  | other (protocol : BitVec 8)
  | short
  deriving DecidableEq

structure Ip where
  saddr : BitVec 32
  daddr : BitVec 32
  l4 : L4
  deriving DecidableEq

structure FiveTuple where
  srcIp : BitVec 32
  dstIp : BitVec 32
  srcPort : BitVec 16
  dstPort : BitVec 16
  proto : BitVec 8
  deriving DecidableEq

def Ip.tuple (p : Ip) : Option FiveTuple :=
  match p.l4 with
  | .tcp source dest => some ⟨p.saddr, p.daddr, source, dest, ipprotoTcp⟩
  | .udp source dest => some ⟨p.saddr, p.daddr, source, dest, ipprotoUdp⟩
  | .icmp _ id => some ⟨p.saddr, p.daddr, id, id, ipprotoIcmp⟩
  | .other _ => none
  | .short => none

def L4.setSource (port : BitVec 16) : L4 → L4
  | .tcp _ dest => .tcp port dest
  | .udp _ dest => .udp port dest
  | .icmp type _ => .icmp type port
  | l4 => l4

def L4.setDest (port : BitVec 16) : L4 → L4
  | .tcp source _ => .tcp source port
  | .udp source _ => .udp source port
  | .icmp type _ => .icmp type port
  | l4 => l4

def Ip.setSource (p : Ip) (ip : BitVec 32) (port : BitVec 16) : Ip :=
  { p with saddr := ip, l4 := p.l4.setSource port }

def Ip.setDest (p : Ip) (ip : BitVec 32) (port : BitVec 16) : Ip :=
  { p with daddr := ip, l4 := p.l4.setDest port }

def L4.Answers : L4 → L4 → Prop
  | .tcp source dest, .tcp source' dest' => source = dest' ∧ dest = source'
  | .udp source dest, .udp source' dest' => source = dest' ∧ dest = source'
  | .icmp _ id, .icmp _ id' => id = id'
  | _, _ => False

structure Ip.Answers (r p : Ip) : Prop where
  saddr : r.saddr = p.daddr
  daddr : r.daddr = p.saddr
  l4 : r.l4.Answers p.l4

def FiveTuple.answer (t : FiveTuple) (newIp : BitVec 32) (newPort : BitVec 16) : FiveTuple :=
  ⟨t.dstIp, newIp, if t.proto = ipprotoIcmp then newPort else t.dstPort, newPort, t.proto⟩

def FiveTuple.client (t : FiveTuple) : BitVec 32 × BitVec 16 := (t.srcIp, t.srcPort)

def FiveTuple.Echo (t : FiveTuple) : Prop := t.proto = ipprotoIcmp → t.srcPort = t.dstPort

theorem Ip.tuple_echo {p : Ip} {t : FiveTuple} (h : p.tuple = some t) : t.Echo := by
  intro icmp
  unfold Ip.tuple at h
  cases hl : p.l4 with
  | tcp source dest => rw [hl] at h; cases h; exact absurd (show ipprotoTcp = ipprotoIcmp from icmp) (by decide)
  | udp source dest => rw [hl] at h; cases h; exact absurd (show ipprotoUdp = ipprotoIcmp from icmp) (by decide)
  | icmp type id => rw [hl] at h; cases h; rfl
  | other protocol => rw [hl] at h; cases h
  | short => rw [hl] at h; cases h

theorem FiveTuple.eq_of_answer {t t' : FiveTuple} {newIp newIp' : BitVec 32}
    {newPort newPort' : BitVec 16} (et : t.Echo) (et' : t'.Echo)
    (ha : t.answer newIp newPort = t'.answer newIp' newPort') (hc : t.client = t'.client) :
    t = t' := by
  obtain ⟨srcIp, dstIp, srcPort, dstPort, proto⟩ := t
  obtain ⟨srcIp', dstIp', srcPort', dstPort', proto'⟩ := t'
  simp only [answer, client, Echo, mk.injEq, Prod.mk.injEq] at et et' ha hc
  obtain ⟨rfl, rfl⟩ := hc
  obtain ⟨rfl, rfl, ports, rfl, rfl⟩ := ha
  by_cases icmp : proto = ipprotoIcmp
  · rw [← et icmp, ← et' icmp]
  · rw [if_neg icmp, if_neg icmp] at ports
    rw [ports]

/-- An answer to a translated packet has the tuple that is expected, and with the client's address
and port it answers the packet. -/
theorem Ip.Answers.back {p r : Ip} {t : FiveTuple} {newIp : BitVec 32} {newPort : BitVec 16}
    (hp : p.tuple = some t) (h : r.Answers (p.setSource newIp newPort)) :
    r.tuple = some (t.answer newIp newPort) ∧ (r.setDest t.srcIp t.srcPort).Answers p := by
  obtain ⟨hs, hd, hl⟩ := h
  obtain ⟨saddr, daddr, l4⟩ := p
  obtain ⟨saddr', daddr', l4'⟩ := r
  obtain rfl : saddr' = daddr := hs
  obtain rfl : daddr' = newIp := hd
  replace hl : l4'.Answers (l4.setSource newPort) := hl
  cases l4 with
  | tcp source dest =>
    cases hp
    cases l4' with
    | tcp source' dest' =>
      obtain ⟨rfl, rfl⟩ := hl
      exact ⟨rfl, rfl, rfl, rfl, rfl⟩
    | _ => cases hl
  | udp source dest =>
    cases hp
    cases l4' with
    | udp source' dest' =>
      obtain ⟨rfl, rfl⟩ := hl
      exact ⟨rfl, rfl, rfl, rfl, rfl⟩
    | _ => cases hl
  | icmp type id =>
    cases hp
    cases l4' with
    | icmp type' id' =>
      obtain rfl : id' = newPort := hl
      exact ⟨rfl, rfl, rfl, rfl⟩
    | _ => cases hl
  | other protocol => cases hp
  | short => cases hp

def takePort (free : BitVec 16) : BitVec 16 × BitVec 16 :=
  let port := if free < 1024 ∨ free = 65535 then 1024 else free
  (bswap16 port, port + 1)

theorem takePort_ofNat {n : ℕ} (low : 1024 ≤ n) (high : n < 65535) :
    takePort (BitVec.ofNat 16 n) = (bswap16 (BitVec.ofNat 16 n), BitVec.ofNat 16 (n + 1)) := by
  have inRange : ¬ (BitVec.ofNat 16 n < 1024 ∨ BitVec.ofNat 16 n = 65535) := by
    rw [BitVec.lt_def, ← BitVec.toNat_inj, BitVec.toNat_ofNat,
      Nat.mod_eq_of_lt (by omega : n < 2 ^ 16)]
    show ¬ (n < 1024 ∨ n = 65535)
    omega
  rw [takePort, if_neg inRange, BitVec.ofNat_add n 1]
  rfl

end Polycube.Lib
