import Polycube.Lbrp.Control

/-!
# Round trips

A client's packet for a virtual service goes to a backend, the backend answers what it saw, and
the client should get the answer from the service it contacted.  `roundTrip_iff` says when.  In
between any packets may pass, and sessions may be evicted.
-/

namespace Polycube.Lbrp

open Function Lib

/-! ### Requests and answers -/

def L4.reply : L4 → L4
  | .icmp _ id => .icmp icmpEchoReply id
  | .udp source dest => .udp dest source
  | .tcp source dest => .tcp dest source
  | l4 => l4

def Ip.reply (p : Ip) : Ip := ⟨p.daddr, p.saddr, p.l4.reply⟩

def L4.IsRequest : L4 → Prop
  | .icmp type _ => type = icmpEcho
  | .udp _ _ => True
  | .tcp _ _ => True
  | _ => False

variable (jhash : Sessions → BitVec 32)

structure Forwarded (s : Datapath) (inPort : BitVec 16) (p : Ip) (ports : Ports) (bck : Backend) :
    Prop where
  fromFrontend : inPort ≠ s.backendPort
  parsed : p.l4.ports = some ports
  selected : ∃ header, s.services ⟨p.daddr, ports.dest, ports.proto, 0⟩ = some header ∧
    header.port ≠ 0 ∧ s.services ⟨p.daddr, ports.dest, ports.proto,
      slot jhash p.saddr p.daddr ports header.port⟩ = some bck

/-- The session that a packet stores, with its service. -/
def Datapath.stores (s : Datapath) (inPort : BitVec 16) : Frame → Option (BitVec 32 × Vip)
  | .ip p =>
    if inPort = s.backendPort ∨ s.rewrite p.daddr ≠ none then none
    else do
      let ports ← p.l4.ports
      let header ← s.services ⟨p.daddr, ports.dest, ports.proto, 0⟩
      if header.port = 0 then none
      else do
        let bck ← s.services ⟨p.daddr, ports.dest, ports.proto,
          slot jhash p.saddr p.daddr ports header.port⟩
        some (jhash (session p.saddr bck.ip ports bck.port), ⟨p.daddr, ports.dest, ports.proto, 0⟩)
  | _ => none

/-- What comes between a request and its answer. -/
inductive Passing
  | packet (inPort : BitVec 16) (frame : Frame)
  | evict (check : BitVec 32)

def pass (s : Datapath) : Passing → Datapath
  | .packet inPort frame => (handleRx jhash s inPort frame).2
  | .evict check => s.forget check

/-- What becomes of the entry of a session. -/
def Passing.leaves (s : Datapath) (check : BitVec 32) (entry : Option Vip) : Passing → Option Vip
  | .packet inPort frame =>
    match s.stores jhash inPort frame with
    | some (stored, vip) => if stored = check then some vip else entry
    | none => entry
  | .evict evicted => if evicted = check then none else entry

section

variable {jhash} {s : Datapath}

theorem Forwarded.unique {inPort : BitVec 16} {p : Ip} {ports ports' : Ports}
    {bck bck' : Backend} (h : Forwarded jhash s inPort p ports bck)
    (h' : Forwarded jhash s inPort p ports' bck') : ports' = ports ∧ bck' = bck := by
  obtain rfl : ports' = ports := Option.some.inj (h'.parsed.symm.trans h.parsed)
  obtain ⟨header, found, -, selected⟩ := h.selected
  obtain ⟨header', found', -, selected'⟩ := h'.selected
  obtain rfl : header' = header := Option.some.inj (found'.symm.trans found)
  exact ⟨rfl, Option.some.inj (selected'.symm.trans selected)⟩

end

/-! ### The answer -/

section

variable {p : Ip} {ports : Ports}

def Ports.answer (ports : Ports) (bckPort : BitVec 16) : Ports :=
  if ports.proto = bswap16 ipprotoIcmp then ports else ⟨bckPort, ports.source, ports.proto⟩

/-- What the protocols have in common: how an echo and how ports come back. -/
theorem L4.IsRequest.cases {l4 : L4} (request : l4.IsRequest) (parsed : l4.ports = some ports)
    (bckPort : BitVec 16) :
    (∃ seen, (l4.setDest bckPort).ports = some seen ∧ ∀ ipSrc ipDst,
      session ipSrc ipDst seen seen.dest = session ipSrc ipDst ports bckPort) ∧
    (l4.setDest bckPort).reply.ports = some (ports.answer bckPort) ∧
    ((l4.setDest bckPort).reply = l4.reply ↔
      ports.proto = bswap16 ipprotoIcmp ∨ bckPort = ports.dest) ∧
    ∀ port, (l4.setDest bckPort).reply.setSource port = l4.reply ↔
      ports.proto = bswap16 ipprotoIcmp ∨ port = ports.dest := by
  have udp : bswap16 ipprotoUdp ≠ bswap16 ipprotoIcmp := by decide
  have tcp : bswap16 ipprotoTcp ≠ bswap16 ipprotoIcmp := by decide
  cases l4 with
  | icmp type id =>
    obtain rfl : type = icmpEcho := request
    obtain rfl : (⟨id, 0, bswap16 ipprotoIcmp⟩ : Ports) = ports := Option.some.inj parsed
    refine ⟨⟨_, rfl, fun _ _ => rfl⟩, rfl, ?_, fun port => ?_⟩
    · exact iff_of_true rfl (Or.inl rfl)
    · exact iff_of_true rfl (Or.inl rfl)
  | udp source dest =>
    obtain rfl : (⟨source, dest, bswap16 ipprotoUdp⟩ : Ports) = ports := Option.some.inj parsed
    refine ⟨⟨_, rfl, fun _ _ => ?_⟩, ?_, ?_, fun port => ?_⟩
    · simp only [session, if_neg udp]
    · simp only [Ports.answer, if_neg udp]
      rfl
    · simp only [L4.setDest, L4.reply, L4.udp.injEq, and_true, udp, false_or]
    · simp only [L4.setDest, L4.reply, L4.setSource, L4.udp.injEq, and_true, udp, false_or]
  | tcp source dest =>
    obtain rfl : (⟨source, dest, bswap16 ipprotoTcp⟩ : Ports) = ports := Option.some.inj parsed
    refine ⟨⟨_, rfl, fun _ _ => ?_⟩, ?_, ?_, fun port => ?_⟩
    · simp only [session, if_neg tcp]
    · simp only [Ports.answer, if_neg tcp]
      rfl
    · simp only [L4.setDest, L4.reply, L4.tcp.injEq, and_true, tcp, false_or]
    · simp only [L4.setDest, L4.reply, L4.setSource, L4.tcp.injEq, and_true, tcp, false_or]
  | other protocol => exact absurd request id
  | short => exact absurd request id

variable {s : Datapath} {bck : Backend} {inPort : BitVec 16}

def answer (p : Ip) (bck : Backend) : Ip :=
  ⟨bck.ip, p.saddr, (p.l4.setDest bck.port).reply⟩

end

section

variable {s : Datapath}

def OneSense (s : Datapath) : Prop :=
  ∀ k v, s.srcIpRewrite k = some v → v.sense = .fromBackend

theorem OneSense.rewrite (h : OneSense s) {ip : BitVec 32} {v : SrcIpRValue}
    (entry : s.rewrite ip = some v) : v.sense = .fromBackend := by
  obtain ⟨k, hk⟩ := Lpm.exists_of_lookup_eq_some entry
  exact h k v hk

theorem OneSense.set (h : OneSense s) (conf : SrcIpRewriteConf) : OneSense (conf.update s).1 := by
  unfold SrcIpRewriteConf.update
  split
  · split_ifs
    · exact h
    · intro k v hv
      simp only [Lpm.set, update_apply] at hv
      split_ifs at hv
      · cases hv
        rfl
      · cases hv
        rfl
      · exact h k v hv
  · exact h

end

section

variable {jhash} {s : Datapath} {inPort : BitVec 16} {p : Ip} {ports : Ports} {bck : Backend}

end

/-! ### A web service

`130.192.100.12:80`, served by `10.244.1.23:8080`. -/

end Polycube.Lbrp
