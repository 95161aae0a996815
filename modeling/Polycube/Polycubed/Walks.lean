import Polycube.Polycubed.Chains

/-!
# Walks along service chains

From the outside of a port or of an interface a packet walks along its ingress chain, from the
inside along its egress chain: `Along` says which programs it meets and where it comes to.  A walk
is the same in two states when it starts in the same place and the cubes on it hand packets on
alike.  So the lemmas on an operation say which walks it leaves as they are, and where the others
lead.
-/

namespace Polycube.Polycubed

open Function Lib

/-- A chain of an end.  Packets of the kernel take the TC programs of the egress chain, packets of
an XDP port the XDP ones. -/
inductive Walk
  | ingress | egress | egressTc
  deriving DecidableEq

def Walk.type : Walk → ProgramType
  | .ingress => .ingress
  | .egress => .egress
  | .egressTc => .egress

def ChainEnd.outward : ChainEnd → Walk
  | .port _ => .egress
  | .iface _ => .ingress

def ChainEnd.inward : ChainEnd → Walk
  | .port _ => .ingress
  | .iface _ => .egress

def Programs.hop (c : Programs) (w : Walk) (cube : String) : Hop := ⟨c.index cube w.type, false⟩

@[ext] structure Shape where
  cubesOf : ChainEnd → List String
  peer : PortRef → Option ChainEnd
  ifacePeer : String → Option PortRef
  ifaceType : String → PortType
  known : String → Bool
  parent : String → Option ChainEnd

namespace Chains

def shape (s : Chains) : Shape where
  cubesOf := s.cubesOf
  peer p := (s.ports p).peer
  ifacePeer e := (s.ifaces e).peer
  ifaceType e := (s.ifaces e).type
  known e := (s.ifaces e).known
  parent cube := (s.cubes cube).parent

variable (c : Programs)

def view (s : Chains) : Walk → String → Hop
  | .ingress, cube => ⟨(s.cubes cube).ingressNext, false⟩
  | .egress, cube => (s.cubes cube).egressNext
  | .egressTc, cube => (s.cubes cube).egressNextTc

def route (s : Chains) : ChainEnd → Walk → List String
  | .port p, .ingress => (s.ports p).cubes.reverse.filter (c.has .ingress)
  | .port p, _ => (s.ports p).cubes.filter (c.has .egress)
  | .iface e, .ingress => (s.ifaces e).cubes.filter (c.has .ingress)
  | .iface e, _ => (s.ifaces e).cubes.reverse.filter (c.has .egress)

def portHop (p : PortRef) (s : Chains) : Hop :=
  match s.peers p.cube p.id.toNat with
  | none => ⟨0, false⟩
  | some e => ⟨e.next, e.isNetdev⟩

def start (s : Chains) : ChainEnd → Walk → Hop
  | .port p, .ingress => ⟨(s.ports p).portIndex, false⟩
  | .port p, _ => s.portHop p
  | .iface e, .ingress => ⟨(s.ifaces e).ingressNext, false⟩
  | .iface e, .egress =>
    match s.egressParent c e with
    | none => hopTo c (.iface e) (s.ifaces e).index
    | some p => (s.ports p).egressNextXdp
  | .iface e, .egressTc =>
    match s.egressParent c e with
    | none => ⟨(s.ifaces e).egressNext, false⟩
    | some p => ⟨(s.ports p).egressNext, false⟩

/-- A packet on this walk meets the cubes of its route, each once and in order, and comes to
`e`. -/
def Along (s : Chains) (x : ChainEnd) (w : Walk) (e : Hop) : Prop :=
  Leads (c.hop w) (s.view w) (s.route c x w) (s.start c x w) e

variable {c} {s s' : Chains} {x : ChainEnd} {w : Walk} {p : PortRef} {e cube : String}

theorem route_congr (h : s'.cubesOf x = s.cubesOf x) : s'.route c x w = s.route c x w := by
  cases x with
  | port p => cases w <;> simp only [route, show (s'.ports p).cubes = _ from h] <;> rfl
  | iface e => cases w <;> simp only [route, show (s'.ifaces e).cubes = _ from h] <;> rfl

theorem route_of_shape (h : s'.shape = s.shape) : s'.route c x w = s.route c x w :=
  route_congr (congrFun (congrArg Shape.cubesOf h) x)

theorem mem_cubesOf_of_mem_route (h : cube ∈ s.route c x w) : cube ∈ s.cubesOf x := by
  cases x <;> cases w <;> simpa [cubesOf] using List.mem_of_mem_filter h

theorem route_nodup (distinct : (s.cubesOf x).Nodup) : (s.route c x w).Nodup := by
  cases x <;> cases w <;>
    first
    | exact (List.nodup_reverse.2 distinct).filter _
    | exact distinct.filter _

/-- A walk in two states that starts alike, over cubes that hand packets on alike. -/
structure SameWay (c : Programs) (s s' : Chains) (x : ChainEnd) (w : Walk) : Prop where
  start : s'.start c x w = s.start c x w
  view : ∀ cube ∈ s.cubesOf x, s'.view w cube = s.view w cube

theorem SameWay.refl (s : Chains) (x : ChainEnd) (w : Walk) : SameWay c s s x w :=
  ⟨rfl, fun _ _ => rfl⟩

theorem SameWay.trans {s'' : Chains} (shape : s'.shape = s.shape) (h : SameWay c s s' x w)
    (h' : SameWay c s' s'' x w) : SameWay c s s'' x w where
  start := h'.start.trans h.start
  view cube hc := by
    have cubes : s'.cubesOf x = s.cubesOf x := congrFun (congrArg Shape.cubesOf shape) x
    exact (h'.view cube (cubes ▸ hc)).trans (h.view cube hc)

theorem SameWay.along_iff (h : SameWay c s s' x w) (cubes : s'.cubesOf x = s.cubesOf x) (e : Hop) :
    s'.Along c x w e ↔ s.Along c x w e := by
  unfold Along
  rw [route_congr cubes, h.start]
  exact leads_congr fun cube hc => h.view cube (mem_cubesOf_of_mem_route hc)

/-! ### Single writes -/

section Shape

theorem shape_setPort {f : CubePort → CubePort} (h : ∀ t, (f t).cubes = t.cubes ∧ (f t).peer = t.peer) :
    (s.setPort p f).shape = s.shape := by
  have same : ∀ q, ((s.setPort p f).ports q).cubes = (s.ports q).cubes ∧
      ((s.setPort p f).ports q).peer = (s.ports q).peer := by
    intro q
    by_cases hq : q = p
    · subst hq
      simpa [setPort] using h (s.ports q)
    · simp [setPort, update_of_ne hq]
  ext1
  · funext x
    cases x with
    | port q => exact (same q).1
    | iface e => rfl
  · funext q
    exact (same q).2
  all_goals rfl

theorem shape_setIface {f : ExtIface → ExtIface} (h : ∀ t, (f t).cubes = t.cubes ∧
    (f t).peer = t.peer ∧ (f t).type = t.type ∧ (f t).known = t.known) :
    (s.setIface e f).shape = s.shape := by
  have same : ∀ i, ((s.setIface e f).ifaces i).cubes = (s.ifaces i).cubes ∧
      ((s.setIface e f).ifaces i).peer = (s.ifaces i).peer ∧
      ((s.setIface e f).ifaces i).type = (s.ifaces i).type ∧
      ((s.setIface e f).ifaces i).known = (s.ifaces i).known := by
    intro i
    by_cases hi : i = e
    · subst hi
      simpa [setIface] using h (s.ifaces i)
    · simp [setIface, update_of_ne hi]
  ext1
  · funext x
    cases x with
    | port q => rfl
    | iface i => exact (same i).1
  · rfl
  · exact funext fun i => (same i).2.1
  · exact funext fun i => (same i).2.2.1
  · exact funext fun i => (same i).2.2.2
  · rfl

theorem shape_setCube {f : TransparentCube → TransparentCube} (h : ∀ t, (f t).parent = t.parent) :
    (s.setCube cube f).shape = s.shape := by
  ext1
  case parent =>
    funext cube'
    by_cases hc : cube' = cube
    · subst hc
      simpa [shape, setCube] using h (s.cubes cube')
    · simp [shape, setCube, update_of_ne hc]
  all_goals rfl

@[simp] theorem shape_updateForwardingTable (n : ℕ) (i : BitVec 32) (b : Bool) :
    (s.updateForwardingTable cube n i b).shape = s.shape := by
  unfold updateForwardingTable
  split_ifs <;> rfl

@[simp] theorem shape_updateParentFwdTable (h : Hop) :
    (s.updateParentFwdTable p h).shape = s.shape :=
  shape_updateForwardingTable ..

@[simp] theorem shape_setNextIngress (i : Index) : (s.setNextIngress e i).shape = s.shape :=
  shape_setIface fun _ => ⟨rfl, rfl, rfl, rfl⟩

@[simp] theorem shape_setNextEgress (i : Index) : (s.setNextEgress e i).shape = s.shape :=
  shape_setIface fun _ => ⟨rfl, rfl, rfl, rfl⟩

end Shape

section Views

@[simp] theorem view_setPort (f : CubePort → CubePort) : (s.setPort p f).view = s.view := by
  funext w
  cases w <;> rfl

@[simp] theorem view_setIface (f : ExtIface → ExtIface) : (s.setIface e f).view = s.view := by
  funext w
  cases w <;> rfl

theorem updateForwardingTable_rest (s : Chains) (cube : String) (n : ℕ) (i : BitVec 32)
    (b : Bool) :
    (s.updateForwardingTable cube n i b).ports = s.ports ∧
      (s.updateForwardingTable cube n i b).ifaces = s.ifaces ∧
      (s.updateForwardingTable cube n i b).cubes = s.cubes := by
  unfold updateForwardingTable
  split_ifs <;> exact ⟨rfl, rfl, rfl⟩

theorem updateForwardingTable_peers (n : ℕ) (i : BitVec 32) (b : Bool) :
    (s.updateForwardingTable cube n i b).peers = update s.peers cube
      (update (s.peers cube) n (if i = 0 then none else some ⟨i, b⟩)) := by
  unfold updateForwardingTable
  split_ifs <;> first | rfl | contradiction

theorem updateForwardingTable_forwardChain (n : ℕ) (i : BitVec 32) (b : Bool) :
    (s.updateForwardingTable cube n i b).forwardChain = update s.forwardChain cube
      (if i = 0 then (s.forwardChain cube).erase n
        else (s.forwardChain cube).assign n ⟨i, b⟩) := by
  unfold updateForwardingTable
  split_ifs <;> first | rfl | contradiction

@[simp] theorem view_updateParentFwdTable (h : Hop) :
    (s.updateParentFwdTable p h).view = s.view := by
  funext w cube
  cases w <;> simp only [view, updateParentFwdTable, (updateForwardingTable_rest ..).2.2]

theorem view_setIngressNext (i : Index) : (s.setIngressNext cube i).view .ingress =
    update (s.view .ingress) cube ⟨i, false⟩ := by
  funext cube'
  by_cases h : cube' = cube
  · subst h
    simp [view, setIngressNext, setCube]
  · simp [view, setIngressNext, setCube, update_of_ne h]

theorem view_setIngressNext_egress (i : Index) (hw : w.type = .egress) :
    (s.setIngressNext cube i).view w = s.view w := by
  funext cube'
  by_cases h : cube' = cube
  · subst h
    cases w <;> simp_all [view, setIngressNext, setCube, Walk.type]
  · cases w <;> simp [view, setIngressNext, setCube, update_of_ne h]

theorem view_setEgressNextXdp (h h' : Hop) : (s.setEgressNextXdp cube h h').view .egress =
      update (s.view .egress) cube h ∧
    (s.setEgressNextXdp cube h h').view .egressTc =
      update (s.view .egressTc) cube h' ∧
    (s.setEgressNextXdp cube h h').view .ingress = s.view .ingress := by
  refine ⟨?_, ?_, ?_⟩ <;> funext cube' <;> by_cases hc : cube' = cube
  all_goals first
    | subst hc; simp [view, setEgressNextXdp, setCube]
    | simp [view, setEgressNextXdp, setCube, update_of_ne hc]

theorem view_setEgressNext (h : Hop) (hw : w.type = .egress) : (s.setEgressNext cube h).view w =
    update (s.view w) cube h := by
  cases w with
  | ingress => cases hw
  | egress => exact (view_setEgressNextXdp h h).1
  | egressTc => exact (view_setEgressNextXdp h h).2.1

end Views

/-! ### Where a walk starts -/

section Packed

theorem packed_next (next id : Index) (b : Bool) : (⟨packed next id, b⟩ : Entry).next = next := by
  ext i hi
  simp [Entry.next, packed]

theorem packed_port (next id : Index) (b : Bool) : (⟨packed next id, b⟩ : Entry).port = id := by
  ext i hi
  have wide : 16 + i < 32 := by omega
  simp [Entry.port, packed, wide, hi]

theorem info_eq_packed (e : Entry) : e.info = packed e.next e.port := by
  ext i hi
  by_cases low : i < 16
  · simp [packed, Entry.next, low, BitVec.getLsbD_eq_getElem hi]
  · have high : i - 16 < 16 := by omega
    have sum : 16 + (i - 16) = i := by omega
    simp [packed, Entry.next, Entry.port, low, high, sum, BitVec.getLsbD_eq_getElem hi]

theorem packed_eq_zero {next id : Index} (h : packed next id = 0) : next = 0 ∧ id = 0 := by
  have hn := packed_next next id false
  have hp := packed_port next id false
  rw [h] at hn hp
  exact ⟨hn.symm, hp.symm⟩

end Packed

section Start

@[simp] theorem start_setCube (f : TransparentCube → TransparentCube) :
    (s.setCube cube f).start c = s.start c := by
  funext x w
  cases x <;> cases w <;> rfl

@[simp] theorem start_setIngressNext (i : Index) :
    (s.setIngressNext cube i).start c = s.start c :=
  start_setCube _

@[simp] theorem start_setEgressNext (h : Hop) : (s.setEgressNext cube h).start c = s.start c :=
  start_setCube _

theorem start_setPortIndex (i : Index) (x : ChainEnd) (w : Walk) :
    (s.setPort p fun t => { t with portIndex := i }).start c x w =
      if x = .port p ∧ w = .ingress then ⟨i, false⟩ else s.start c x w := by
  have at_p : ∀ q, ((s.setPort p fun t => { t with portIndex := i }).ports q).portIndex =
      if q = p then i else (s.ports q).portIndex := by
    intro q
    by_cases hq : q = p
    · subst hq
      simp [setPort]
    · simp [setPort, hq]
  have others : ∀ q, ((s.setPort p fun t => { t with portIndex := i }).ports q).egressNext =
      (s.ports q).egressNext ∧
      ((s.setPort p fun t => { t with portIndex := i }).ports q).egressNextXdp =
      (s.ports q).egressNextXdp := by
    intro q
    by_cases hq : q = p
    · subst hq
      simp [setPort]
    · simp [setPort, update_of_ne hq]
  cases x with
  | port q =>
    cases w with
    | ingress =>
      simp only [start, at_p, ChainEnd.port.injEq, and_true]
      split_ifs <;> rfl
    | egress =>
      rw [if_neg (by simp)]
      rfl
    | egressTc =>
      rw [if_neg (by simp)]
      rfl
  | iface e =>
    rw [if_neg (by simp)]
    cases w with
    | ingress => rfl
    | egress =>
      simp only [start, egressParent, (others _).2]
      rfl
    | egressTc =>
      simp only [start, egressParent, (others _).1]
      rfl

def storedHop (p : PortRef) (h : Hop) (s : Chains) : Hop :=
  if packed h.next (s.idBehind p) = 0 then ⟨0, false⟩ else h

theorem storedHop_of_ne {h : Hop} (real : h ≠ ⟨0, true⟩) : s.storedHop p h = h := by
  unfold storedHop
  split_ifs with hz
  · obtain ⟨next, netdev⟩ := h
    obtain rfl : next = 0 := (packed_eq_zero hz).1
    cases netdev with
    | true => exact absurd rfl real
    | false => rfl
  · rfl

theorem portHop_updateParentFwdTable (h : Hop) (q : PortRef) :
    (s.updateParentFwdTable p h).portHop q =
      if q = p then s.storedHop p h else s.portHop q := by
  unfold portHop updateParentFwdTable
  rw [updateForwardingTable_peers]
  by_cases hq : q = p
  · subst hq
    rw [if_pos rfl, update_self, update_self]
    unfold storedHop
    split_ifs with hz
    · rfl
    · simp only [packed_next]
  · rw [if_neg hq]
    by_cases hc : q.cube = p.cube
    · have other : q.id.toNat ≠ p.id.toNat := fun hid =>
        hq (PortRef.ext hc (BitVec.eq_of_toNat_eq hid))
      rw [hc, update_self, update_of_ne other]
    · rw [update_of_ne hc]

theorem start_updateParentFwdTable (h : Hop) (x : ChainEnd) (w : Walk) :
    (s.updateParentFwdTable p h).start c x w =
      if x = .port p ∧ w.type = .egress then s.storedHop p h else s.start c x w := by
  have rest := updateForwardingTable_rest s p.cube p.id.toNat (packed h.next
    (s.idBehind p)) h.netdev
  cases x with
  | port q =>
    cases w with
    | ingress => simp [start, Walk.type, updateParentFwdTable, rest.1]
    | egress => simp [start, Walk.type, portHop_updateParentFwdTable]
    | egressTc => simp [start, Walk.type, portHop_updateParentFwdTable]
  | iface e => cases w <;> simp [start, egressParent, updateParentFwdTable, rest.1, rest.2.1]

theorem ifaces_setIface (f : ExtIface → ExtIface) (i : String) :
    (s.setIface e f).ifaces i = if i = e then f (s.ifaces e) else s.ifaces i := by
  by_cases h : i = e
  · subst h
    simp [setIface]
  · simp [setIface, h]

theorem egressParent_setIface {f : ExtIface → ExtIface} (h : ∀ t, (f t).peer = t.peer) (i : String) :
    (s.setIface e f).egressParent c i = s.egressParent c i := by
  unfold egressParent
  rw [ifaces_setIface]
  split_ifs with hi
  · rw [h, hi]
  · rfl

theorem start_setNextIngress (i : Index) (x : ChainEnd) (w : Walk) :
    (s.setNextIngress e i).start c x w =
      if x = .iface e ∧ w = .ingress then ⟨i, false⟩ else s.start c x w := by
  have parent : ∀ i', (s.setNextIngress e i).egressParent c i' = s.egressParent c i' :=
    egressParent_setIface fun _ => rfl
  cases x with
  | port q => cases w <;> rfl
  | iface i' =>
    cases w <;> simp only [start, parent, ChainEnd.iface.injEq, reduceCtorEq, and_false, and_true,
      if_false]
    all_goals
      simp only [setNextIngress, ifaces_setIface]
      split_ifs with hi <;> first | rfl | (rw [hi]; rfl)

theorem start_setNextEgress (i : Index) (x : ChainEnd) (w : Walk) :
    (s.setNextEgress e i).start c x w =
      if x = .iface e ∧ w = .egressTc ∧ s.egressParent c e = none then ⟨i, false⟩
      else s.start c x w := by
  have parent : ∀ i', (s.setNextEgress e i).egressParent c i' = s.egressParent c i' :=
    egressParent_setIface fun _ => rfl
  cases x with
  | port q => cases w <;> rfl
  | iface i' =>
    cases w <;> simp only [start, parent, ChainEnd.iface.injEq, reduceCtorEq, and_false, false_and,
      true_and, if_false]
    · simp only [setNextEgress, ifaces_setIface]
      split_ifs with hi <;> first | rfl | (rw [hi])
    · simp only [setNextEgress, ifaces_setIface]
      split_ifs with hi <;> first | rfl | (rw [hi]; rfl)
    · simp only [setNextEgress, ifaces_setIface]
      by_cases hi : i' = e
      · subst hi
        cases hp : s.egressParent c i' <;> simp [setIface]
      · simp only [hi, false_and, if_false]
        rfl

theorem start_setIndex (i : Index) (x : ChainEnd) (w : Walk) :
    (s.setIface e fun t => { t with index := i }).start c x w =
      if x = .iface e ∧ w = .egress ∧ s.egressParent c e = none then hopTo c (.iface e) i
      else s.start c x w := by
  have parent : ∀ i', (s.setIface e fun t => { t with index := i }).egressParent c i' =
      s.egressParent c i' := egressParent_setIface fun _ => rfl
  cases x with
  | port q => cases w <;> rfl
  | iface i' =>
    cases w <;> simp only [start, parent, ChainEnd.iface.injEq, reduceCtorEq, and_false, false_and,
      true_and, if_false]
    · simp only [ifaces_setIface]
      split_ifs with hi <;> first | rfl | (rw [hi])
    · simp only [ifaces_setIface]
      by_cases hi : i' = e
      · subst hi
        cases hp : s.egressParent c i' <;> simp [setIface]
      · simp only [hi, false_and, if_false]
        rfl
    · simp only [ifaces_setIface]
      split_ifs with hi <;> first | rfl | (rw [hi]; rfl)

end Start

end Chains

end Polycube.Polycubed
