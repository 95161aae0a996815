import Polycube.Polycubed.ChainRuns

/-!
# Redirection between ports

With no cube attached, what a cube sends to a port is for the peer of the port: `Redirects` says so
of the map of peers and of the code generated from `forward_chain_`, in every state of a run that
links ports and takes links down.
-/

namespace Polycube.Polycubed

open Lib

variable {present : Index → Bool}

theorem Entry.follow_device {entry : Entry} (h : entry.isNetdev = true) :
    entry.follow present = some (.device entry.next) := by
  unfold Entry.follow
  rw [if_pos h]

theorem Entry.follow_program {entry : Entry} (h : entry.isNetdev = false) :
    entry.follow present =
      if present entry.next = true then some (.program entry.next entry.port) else none := by
  unfold Entry.follow
  rw [if_neg (by rw [h]; exact Bool.false_ne_true)]

namespace Chains

variable {c : Programs} {s s' : Chains} {x : ChainEnd} {p q : PortRef} {e : String}

structure PeerChange where
  port : PortRef
  peer : Option ChainEnd
  asked : Bool
  deriving DecidableEq

def PeerChange.op (a : PeerChange) : ChainOp := .setPeer a.port a.peer a.asked

def change (c : Programs) (s : Chains) (a : PeerChange) : Chains := s.step c a.op

structure Loaded (c : Programs) (type : PortType) (present : Index → Bool) : Prop where
  zero : present 0 = false
  program : ∀ cube dir, c.type cube = type → c.index cube dir ≠ 0 → present (c.index cube dir) = true

def redirected (present : Index → Bool) (s : Chains) (p : PortRef) : Redirected :=
  forward present (redirectCode (s.forwardChain p.cube)) (s.peers p.cube) p.id.toNat

/-- The generated code gives what the map gives, for every port number. -/
theorem forward_redirectCode (agree : Agree s) (cube : String) (n : ℕ) :
    forward present (redirectCode (s.forwardChain cube)) (s.peers cube) n =
      forward present [] (s.peers cube) n := by
  unfold forward
  rw [OrdMap.get_nil, Option.bind_none]
  cases hget : (redirectCode (s.forwardChain cube)).get n with
  | none => rfl
  | some entry =>
    have hpeer : s.peers cube n = some entry := (agree cube n).1.trans (OrdMap.get_take hget)
    rw [hpeer, Option.bind_some]
    cases Entry.follow present entry <;> rfl

theorem forward_nil (peers : Table ℕ Entry) (n : ℕ) :
    forward present [] peers n = ((peers n).bind (Entry.follow present)).getD .dropped := rfl

theorem redirected_of_agree (agree : Agree s) (p : PortRef) : redirected present s p =
    ((s.peers p.cube p.id.toNat).bind (Entry.follow present)).getD .dropped := by
  unfold redirected
  rw [forward_redirectCode agree, forward_nil]

section Entries

theorem along_bare {w : Walk} {a : Hop} (bare : s.cubesOf x = []) (along : s.Along c x w a) :
    s.start c x w = a := by
  have empty : s.route c x w = [] :=
    List.eq_nil_iff_forall_not_mem.2 fun cube h => by
      have := mem_cubesOf_of_mem_route h
      rw [bare] at this
      cases this
  unfold Along at along
  rwa [empty] at along

structure Direct (c : Programs) (s : Chains) : Prop where
  complete : Complete c s
  bare : ∀ x, s.cubesOf x = []
  free : ∀ p, s.linkOf (.port p) = none → s.peers p.cube p.id.toNat = none

theorem Complete.portOk (complete : Complete c s) (hl : s.linkOf (.port p) = some x) :
    PortOk c s p := complete.ok (.port p) (Used.of_link hl)

theorem PortOk.entry (ok : PortOk c s p) (bare : s.cubesOf (.port p) = []) :
    (s.peers p.cube p.id.toNat = none ∧ s.peerHop c p = ⟨0, false⟩) ∨
      ∃ entry, s.peers p.cube p.id.toNat = some entry ∧ entry.next = (s.peerHop c p).next ∧
        entry.isNetdev = (s.peerHop c p).netdev ∧ entry.port = s.idBehind p := by
  have hop : s.portHop p = s.peerHop c p := along_bare bare ok.egress
  unfold portHop at hop
  cases hentry : s.peers p.cube p.id.toNat with
  | none =>
    rw [hentry] at hop
    exact Or.inl ⟨rfl, hop.symm⟩
  | some entry =>
    rw [hentry] at hop
    exact Or.inr ⟨entry, rfl, congrArg Hop.next hop, congrArg Hop.netdev hop,
      ok.tagged entry hentry⟩

theorem PortOk.free (ok : PortOk c s p) (agree : Agree s) (bare : s.cubesOf (.port p) = [])
    (hl : s.linkOf (.port p) = none) (hid : p.id = 0) : s.peers p.cube p.id.toNat = none := by
  have hpeer : (s.ports p).peer = none := hl
  have hop : s.peerHop c p = ⟨0, false⟩ := by rw [peerHop_eq, hl]
  have id : s.idBehind p = 0 := by
    unfold idBehind
    rw [hpeer]
    exact hid
  rcases ok.entry bare with ⟨h, -⟩ | ⟨entry, hentry, hnext, -, hport⟩
  · exact h
  · refine absurd ?_ ((agree p.cube p.id.toNat).2 entry hentry)
    rw [info_eq_packed, hnext, hport, hop, id]
    rfl

/-- A linked port without cubes sends packets on to what is behind it. -/
theorem Direct.redirected (direct : Direct c s) (loaded : Loaded c (c.type p.cube) present)
    (hl : s.linkOf (.port p) = some x) : redirected present s p =
      if (s.peerHop c p).netdev = true then .device (s.peerHop c p).next
      else if present (s.peerHop c p).next = true then
        .program (s.peerHop c p).next (s.idBehind p)
      else .dropped := by
  rw [redirected_of_agree direct.complete.agree]
  rcases (direct.complete.portOk hl).entry (direct.bare _) with ⟨h, hop⟩ |
    ⟨entry, hentry, hnext, hnetdev, hport⟩
  · rw [h, hop, if_neg Bool.false_ne_true, loaded.zero, if_neg Bool.false_ne_true]
    rfl
  · rw [hentry, Option.bind_some, ← hnext, ← hnetdev, ← hport]
    cases hd : entry.isNetdev with
    | true =>
      rw [Entry.follow_device hd, if_pos rfl]
      rfl
    | false =>
      rw [Entry.follow_program hd, if_neg Bool.false_ne_true]
      split_ifs <;> rfl

/-- The interface behind a port: the egress program of the port's cube is part of its chain. -/
theorem Direct.iface (direct : Direct c s) (hl : s.linkOf (.port p) = some (.iface e)) :
    s.egressParent c e = (if c.index p.cube .egress ≠ 0 then some p else none) ∧
      IfaceOk c s e := by
  have back := direct.complete.wired.symm _ _ hl
  obtain ⟨r, hr, hrp⟩ := Option.map_eq_some_iff.1 back
  obtain rfl := ChainEnd.port.inj hrp
  refine ⟨?_, direct.complete.ok (.iface e) (Used.of_link back)⟩
  unfold egressParent
  rw [hr]
  by_cases h : c.index r.cube .egress = 0 <;> simp [Option.filter, h]

end Entries

section Runs

/-- A port that loses its peer, and does not get another one at once, has the id 0: what is written
for it is 0 then, which removes the entry. -/
def Clears (c : Programs) (s : Chains) (a : PeerChange) : Prop :=
  (s.ports a.port).peerName = a.peer ∨
    match (s.ports a.port).peer with
    | none => True
    | some (.iface _) => a.port.id = 0 ∨ Links c s a.port a.peer a.asked
    | some (.port q) => q.id = 0 ∧ (a.port.id = 0 ∨ Links c s a.port a.peer a.asked)

instance (s : Chains) (p : PortRef) : ∀ peer asked, Decidable (Links c s p peer asked)
  | none, _ => isFalse not_false
  | some (.iface _), _ => instDecidableNot
  | some (.port _), _ => instDecidableAnd

instance (s : Chains) (a : PeerChange) : Decidable (Clears c s a) :=
  match h : (s.ports a.port).peer with
  | none => isTrue (by simp only [Clears, h, or_true])
  | some (.iface _) =>
    decidable_of_iff ((s.ports a.port).peerName = a.peer ∨ a.port.id = 0 ∨
      Links c s a.port a.peer a.asked) (by simp only [Clears, h])
  | some (.port q) =>
    decidable_of_iff ((s.ports a.port).peerName = a.peer ∨ q.id = 0 ∧ (a.port.id = 0 ∨
      Links c s a.port a.peer a.asked)) (by simp only [Clears, h])

def Clean (c : Programs) (s : Chains) (a : PeerChange) : Prop := Sound c s a.op ∧ Clears c s a

instance (s : Chains) (a : PeerChange) : Decidable (Clean c s a) := instDecidableAnd

theorem Direct.change {a : PeerChange} (direct : Direct c s) (clean : Clean c s a) :
    Direct c (s.change c a) := by
  obtain ⟨sound, clears⟩ := clean
  refine step_of_leaves ?_
  show (s.setPeer c a.port a.peer a.asked).Leaves (Direct c)
  by_cases hpeer : (s.ports a.port).peerName = a.peer
  · unfold Chains.setPeer
    rw [if_pos hpeer]
    exact direct
  refine (direct.complete.setPeer hpeer sound).mono fun s' repeered => ?_
  have bare : ∀ x, s'.cubesOf x = [] := fun x => by
    rw [repeered.cubes]
    exact direct.bare x
  refine ⟨repeered.complete, bare, fun q hq => ?_⟩
  rcases repeered.free q hq with ⟨hl, entry⟩ | ⟨lost, hl, ok⟩
  · rw [entry]
    exact direct.free q hl
  · refine PortOk.free ok repeered.complete.agree (bare _) hq ?_
    have clears := clears.resolve_left hpeer
    have own : q = a.port → ¬ Links c s a.port a.peer a.asked := fun h links =>
      repeered.again links (h ▸ hq)
    cases hold : (s.ports a.port).peer with
    | none =>
      rcases lost with rfl | h
      · exact absurd hold hl
      · exact absurd ((show s.linkOf (.port a.port) = none from hold).symm.trans h)
          (Option.some_ne_none _).symm
    | some y =>
      have link : s.linkOf (.port a.port) = some y := hold
      rw [hold] at clears
      cases y with
      | iface e =>
        rcases lost with rfl | h
        · exact clears.resolve_right (own rfl)
        · rw [link] at h
          cases h
      | port r =>
        rcases lost with rfl | h
        · exact clears.2.resolve_right (own rfl)
        · rw [link] at h
          cases h
          exact clears.1

end Runs

end Chains

end Polycube.Polycubed
