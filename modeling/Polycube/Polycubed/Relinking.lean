import Polycube.Polycubed.Rewiring

/-!
# Linking an end anew

`updateIndexes` of a port and of the two kinds of interfaces: both chains of the end are complete
afterwards, and the chain of the peer that leads here ends where the chain of this end starts.
-/

namespace Polycube.Polycubed

open Lib

namespace Chains

variable {c : Programs} {s s' : Chains} {x y : ChainEnd} {w : Walk} {p q : PortRef}
  {e cube : String} {i : Index}

theorem index_ne_ffff (c : Programs) (cube : String) (d : ProgramType) :
    c.index cube d ≠ 0xffff := by
  intro h
  have := c.index_lt cube d
  rw [h] at this
  exact absurd this (by decide)

theorem calculateIndex_ne_ffff (c : Programs) (p : PortRef) (cubes : List String) :
    c.calculateIndex p cubes ≠ 0xffff := by
  unfold Programs.calculateIndex
  split <;> exact index_ne_ffff _ _ _

theorem program_ne (i : Index) : (⟨i, false⟩ : Hop) ≠ ⟨0, true⟩ := fun h =>
  Bool.noConfusion (congrArg Hop.netdev h)

theorem ingress_ne_egress : ProgramType.ingress ≠ .egress := by decide

section Port

theorem ports_setPort (f : CubePort → CubePort) (q : PortRef) :
    (s.setPort p f).ports q = if q = p then f (s.ports p) else s.ports q := by
  by_cases h : q = p
  · subst h
    simp [setPort]
  · simp [setPort, h]

theorem ingressNext_setIngressNext (cube : String) (i : Index) (s : Chains) :
    (fun cube' => ((s.setIngressNext cube i).cubes cube').ingressNext) =
      Function.update (fun cube' => (s.cubes cube').ingressNext) cube i := by
  funext cube'
  by_cases h : cube' = cube
  · subst h
    simp [setIngressNext, setCube]
  · simp [setIngressNext, setCube, h]

theorem linkIngressPort_spec (apart : s.Apart) :
    Rewires c (fun y w => y = .port p ∧ w = .ingress) s (s.linkIngressPort c p) ∧
      (s.linkIngressPort c p).Along c (.port p) .ingress ⟨c.index p.cube .ingress, false⟩ ∧
      ((s.linkIngressPort c p).ports p).portIndex = c.calculateIndex p (s.ports p).cubes := by
  unfold linkIngressPort
  have linking : Rewires c (fun y w => y = .port p ∧ w = .ingress) s
      (relink (c.has .ingress) (c.index · .ingress) setIngressNext (s.ports p).cubes
        (c.index p.cube .ingress) s).1 := by
    refine rewires_relink fun cube hc i s' hs' => ?_
    have mem : cube ∈ s'.cubesOf (.port p) := by rwa [cubesOf_of_shape hs']
    refine (rewires_setIngressNext (apart.of_shape hs') mem i).mono fun y w h => ⟨h.1, ?_⟩
    cases w <;> simp_all [Walk.type]
  have leads := leads_relink (c.has .ingress) (c.index · .ingress) setIngressNext
    (fun s cube => (s.cubes cube).ingressNext) ingressNext_setIngressNext (apart.nodup (.port p))
    (c.index p.cube .ingress) s
  generalize hlinked : relink (c.has .ingress) (c.index · .ingress) setIngressNext
    (s.ports p).cubes (c.index p.cube .ingress) s = linked at linking
  have start : linked.2 = c.calculateIndex p (s.ports p).cubes := by
    rw [← hlinked, relink_snd]
    unfold Programs.calculateIndex
    cases (s.ports p).cubes.reverse.find? (c.has .ingress) <;> rfl
  have rewires := linking.trans (rewires_setPortIndex (p := p) linked.2)
  refine ⟨rewires, ?_, ?_⟩
  · unfold Along
    rw [route_of_shape rewires.shape, start_setPortIndex, if_pos ⟨rfl, rfl⟩, view_setPort]
    rw [show s.cubesOf (.port p) = (s.ports p).cubes from rfl, hlinked] at leads
    exact leads.map fun i => (⟨i, false⟩ : Hop)
  · rw [ports_setPort, if_pos rfl]
    exact start

def AtPort (s : Chains) (p : PortRef) (y : ChainEnd) (w : Walk) : Prop :=
  y = .port p ∨ (s.ports p).peer = some y ∧ w.type = y.outward.type

def toldEnd : ChainEnd → Index → Hop → Hop
  | .port _, i, a => if i = 0 then a else ⟨i, false⟩
  | .iface _, i, _ => ⟨i, false⟩

theorem tellPeer_spec (apart : s.Apart) (noself : (s.ports p).peer ≠ some (.port p))
    (last : ∀ e, (s.ports p).peer = some (.iface e) → LastIngress c (s.ifaces e).cubes)
    (hi : (s.ports p).portIndex ≠ 0xffff) :
    ∃ s', s.tellPeer c p = some s' ∧
      Rewires c (fun y w => (s.ports p).peer = some y ∧ w.type = y.outward.type) s s' ∧
      ∀ x, (s.ports p).peer = some x →
        (∀ a, s.Along c x x.outward a →
          s'.Along c x x.outward (toldEnd x (s.ports p).portIndex a)) ∧
        ∀ q, x = .port q → s.Tagged q → s'.Tagged q := by
  unfold tellPeer
  cases hpeer : (s.ports p).peer with
  | none => exact ⟨s, rfl, Rewires.refl s, fun x hx => by cases hx⟩
  | some x =>
    cases x with
    | port q =>
      dsimp only
      rw [if_neg fun h => noself (by rw [hpeer, h])]
      unfold setNextIndex
      by_cases hzero : (s.ports p).portIndex = 0
      · rw [hzero]
        refine ⟨s, setNextIndexPort_zero, Rewires.refl s, fun x hx => ?_⟩
        obtain rfl := Option.some.inj hx
        exact ⟨fun a along => along, fun _ _ tagged => tagged⟩
      · have hop : s.toldHop c q (s.ports p).portIndex = ⟨(s.ports p).portIndex, false⟩ := by
          unfold toldHop
          split
          · rfl
          · exact hopTo_of_ne hi
        obtain ⟨s', hs', rewires, along, tagged⟩ := setNextIndexPort_spec (c := c) (p := q) apart
          hzero (fun h => absurd h hi) (by rw [hop]; exact program_ne _)
        refine ⟨s', hs', rewires.mono fun y w h => ?_, fun x hx => ?_⟩
        · obtain ⟨rfl, hw⟩ := h
          exact ⟨rfl, hw⟩
        · obtain rfl := Option.some.inj hx
          refine ⟨fun a h => ?_, fun q' hq' => ?_⟩
          · rw [toldEnd, if_neg hzero, ← hop]
            exact along a h
          · obtain rfl := ChainEnd.port.inj hq'
            exact tagged
    | iface e =>
      dsimp only
      rw [if_neg fun h => by cases h]
      obtain ⟨s', hs', rewires, along⟩ := setNextIndexIface_spec apart (last e hpeer)
        (s.ports p).portIndex
      refine ⟨s', hs', rewires.mono fun y w h => ?_, fun x hx => ?_⟩
      · obtain ⟨rfl, rfl⟩ := h
        exact ⟨rfl, rfl⟩
      · obtain rfl := Option.some.inj hx
        exact ⟨along, fun q hq => by cases hq⟩

theorem linkEgressPort_spec (apart : s.Apart) :
    Rewires c (fun y w => y = .port p ∧ w.type = .egress) s (s.linkEgressPort c p) ∧
      (∃ a, (s.linkEgressPort c p).Along c (.port p) .egress a) ∧
      (s.peerHop c p ≠ ⟨0, true⟩ →
        (s.linkEgressPort c p).Along c (.port p) .egress (s.peerHop c p)) ∧
      (s.linkEgressPort c p).Tagged p := by
  unfold linkEgressPort
  have linking : Rewires c (fun y w => y = .port p ∧ w.type = .egress) s
      (relink (c.has .egress) (fun cube => (⟨c.index cube .egress, false⟩ : Hop)) setEgressNext
        (s.ports p).cubes.reverse (s.peerHop c p) s).1 := by
    refine rewires_relink fun cube hc h s' hs' => ?_
    have mem : cube ∈ s'.cubesOf (.port p) := by
      rw [cubesOf_of_shape hs']
      exact List.mem_reverse.1 hc
    exact rewires_setEgressNext (apart.of_shape hs') mem h
  have leads := leads_relink (c.has .egress) (c.hop .egress) setEgressNext
    (fun s => s.view .egress) (fun cube h s => view_setEgressNext h rfl)
    (List.nodup_reverse.2 (apart.nodup (.port p))) (s.peerHop c p) s
  have first := relink_snd (c.has .egress)
    (fun cube => (⟨c.index cube .egress, false⟩ : Hop)) setEgressNext
    (s.ports p).cubes.reverse (s.peerHop c p) s
  rw [show s.cubesOf (.port p) = (s.ports p).cubes from rfl, List.reverse_reverse] at leads
  change Leads _ ((relink (c.has .egress) (fun cube => (⟨c.index cube .egress, false⟩ : Hop))
    setEgressNext (s.ports p).cubes.reverse (s.peerHop c p) s).1.view .egress) _
    (relink (c.has .egress) (fun cube => (⟨c.index cube .egress, false⟩ : Hop))
    setEgressNext (s.ports p).cubes.reverse (s.peerHop c p) s).2 _ at leads
  generalize relink (c.has .egress) (fun cube => (⟨c.index cube .egress, false⟩ : Hop))
    setEgressNext (s.ports p).cubes.reverse (s.peerHop c p) s = linked at linking leads first
  rw [List.reverse_reverse] at first
  have rewires := linking.trans (rewires_updateParentFwdTable (p := p) linked.2)
  have from_start : ∀ a, (linked.1.updateParentFwdTable p linked.2).Along c (.port p) .egress a ↔
      Leads (c.hop .egress) (linked.1.view .egress) ((s.ports p).cubes.filter (c.has .egress))
        (linked.1.storedHop p linked.2) a := by
    intro a
    unfold Along
    rw [route_of_shape rewires.shape, start_updateParentFwdTable, if_pos ⟨rfl, rfl⟩,
      view_updateParentFwdTable]
    rfl
  have along : linked.2 ≠ ⟨0, true⟩ →
      (linked.1.updateParentFwdTable p linked.2).Along c (.port p) .egress (s.peerHop c p) := by
    intro real
    rw [from_start, storedHop_of_ne real]
    exact leads
  refine ⟨rewires, ?_, fun real => along ?_, tagged_updateParentFwdTable _⟩
  · by_cases real : linked.2 = ⟨0, true⟩
    · -- a chain that meets a cube starts at a program
      cases hfind : (s.ports p).cubes.find? (c.has .egress) with
      | some cube =>
        rw [hfind] at first
        exact absurd (first.symm.trans real) (program_ne _)
      | none =>
        rw [← List.head?_filter, List.head?_eq_none_iff] at hfind
        refine ⟨linked.1.storedHop p linked.2, (from_start _).2 ?_⟩
        rw [hfind]
        exact rfl
    · exact ⟨_, along real⟩
  · rw [first]
    split
    · exact program_ne _
    · exact real

theorem getIndex_of_rewires {P : ChainEnd → Walk → Prop} (h : Rewires c P s s')
    (hin : ∀ q, x = .port q → ¬ P x .ingress) (hout : ∀ e, x = .iface e → ¬ P x .egress) :
    s'.getIndex x = s.getIndex x := by
  cases x with
  | port q => exact h.portIndex (hin q rfl)
  | iface e => exact h.index e (hout e rfl)

theorem updateIndexesPort_spec (apart : s.Apart) (noself : (s.ports p).peer ≠ some (.port p))
    (last : ∀ e, (s.ports p).peer = some (.iface e) → LastIngress c (s.ifaces e).cubes) :
    ∃ s', s.updateIndexesPort c p = some s' ∧ Rewires c (AtPort s p) s s' ∧
      s'.Along c (.port p) .ingress ⟨c.index p.cube .ingress, false⟩ ∧
      (s'.ports p).portIndex = c.calculateIndex p (s.ports p).cubes ∧
      (∃ a, s'.Along c (.port p) .egress a) ∧
      (s'.peerHop c p ≠ ⟨0, true⟩ → s'.Along c (.port p) .egress (s'.peerHop c p)) ∧
      s'.Tagged p ∧
      ∀ x, (s.ports p).peer = some x →
        (∀ a, s.Along c x x.outward a → s'.Along c x x.outward
          (toldEnd x (c.calculateIndex p (s.ports p).cubes) a)) ∧
        ∀ q, x = .port q → s.Tagged q → s'.Tagged q := by
  obtain ⟨rewires₁, ingress₁, index₁⟩ := linkIngressPort_spec (c := c) (p := p) apart
  generalize hs₁ : s.linkIngressPort c p = s₁ at rewires₁ ingress₁ index₁
  have peer₁ := peer_of_shape rewires₁.shape p
  have iface₁ : ∀ e, (s₁.ifaces e).cubes = (s.ifaces e).cubes := fun e =>
    congrFun (cubesOf_of_shape rewires₁.shape) (.iface e)
  obtain ⟨s₂, hs₂, rewires₂, told⟩ := tellPeer_spec (c := c) (s := s₁) (p := p)
    (apart.of_shape rewires₁.shape) (by rwa [peer₁])
    (fun e he => by rw [iface₁]; exact last e (peer₁ ▸ he))
    (by rw [index₁]; exact calculateIndex_ne_ffff _ _ _)
  have shape₂ := rewires₂.shape.trans rewires₁.shape
  obtain ⟨rewires₃, some₃, egress₃, tagged₃⟩ :=
    linkEgressPort_spec (c := c) (p := p) (apart.of_shape shape₂)
  have at_p : ∀ y w, (y = ChainEnd.port p ∧ w = Walk.ingress) → AtPort s p y w :=
    fun y w h => Or.inl h.1
  have at_peer : ∀ y w, ((s₁.ports p).peer = some y ∧ w.type = y.outward.type) → AtPort s p y w :=
    fun y w h => Or.inr ⟨peer₁ ▸ h.1, h.2⟩
  have at_p' : ∀ y w, (y = ChainEnd.port p ∧ w.type = .egress) → AtPort s p y w :=
    fun y w h => Or.inl h.1
  have rewires : Rewires c (AtPort s p) s (s₂.linkEgressPort c p) :=
    ((rewires₁.mono at_p).trans (rewires₂.mono at_peer)).trans (rewires₃.mono at_p')
  have not_peer : ¬ ((s₁.ports p).peer = some (.port p) ∧ Walk.ingress.type =
      (ChainEnd.port p).outward.type) := fun h => absurd h.2 ingress_ne_egress
  have not_egress : ¬ (ChainEnd.port p = .port p ∧ Walk.ingress.type = .egress) :=
    fun h => absurd h.2 ingress_ne_egress
  refine ⟨s₂.linkEgressPort c p, ?_, rewires, ?_, ?_, some₃, ?_, tagged₃, fun x hx => ⟨fun a along => ?_,
    fun q hq tagged => ?_⟩⟩
  · unfold updateIndexesPort
    rw [hs₁, hs₂, Option.map_some]
  · exact (rewires₃.along_iff not_egress _).2 ((rewires₂.along_iff not_peer _).2 ingress₁)
  · rw [rewires₃.portIndex not_egress, rewires₂.portIndex not_peer]
    exact index₁
  · have same : (s₂.linkEgressPort c p).peerHop c p = s₂.peerHop c p := by
      unfold peerHop
      rw [peer_of_shape rewires₃.shape]
      cases hpeer : (s₂.ports p).peer with
      | none => rfl
      | some x =>
        have xp : x ≠ .port p := fun h => noself (by rw [← peer_of_shape shape₂, hpeer, h])
        dsimp only
        rw [getIndex_of_rewires rewires₃ (fun q hq h => xp h.1) (fun e he h => xp h.1)]
    rw [same]
    exact egress₃
  · have xp : x ≠ .port p := fun h => noself (h ▸ hx)
    rw [rewires₃.along_iff fun h => xp h.1, ← index₁]
    exact (told x (peer₁ ▸ hx)).1 a ((rewires₁.along_iff (fun h => xp h.1) a).2 along)
  · subst hq
    have xp : ChainEnd.port q ≠ .port p := fun h => noself (h ▸ hx)
    refine rewires₃.tagged (fun h => xp h.1) ?_
    exact (told _ (peer₁ ▸ hx)).2 q rfl (rewires₁.tagged (fun h => xp h.1) tagged)

end Port

/-! ### An interface -/

section Iface

def AtIface (s : Chains) (e : String) (y : ChainEnd) (w : Walk) : Prop :=
  y = .iface e ∨ ∃ p, (s.ifaces e).peer = some p ∧ y = .port p ∧ w.type = .egress

theorem linkIngress_spec (apart : s.Apart) (e : String) :
    Rewires c (fun y w => y = .iface e ∧ w = .ingress) s (s.linkIngress c e) ∧
      (s.linkIngress c e).Along c (.iface e) .ingress ⟨s.ingressEnd e, false⟩ := by
  unfold linkIngress
  dsimp only
  have linking : Rewires c (fun y w => y = .iface e ∧ w = .ingress) s
      (relink (c.has .ingress) (c.index · .ingress) setIngressNext (s.ifaces e).cubes.reverse
        (s.ingressEnd e) s).1 := by
    refine rewires_relink fun cube hc i s' hs' => ?_
    have mem : cube ∈ s'.cubesOf (.iface e) := by
      rw [cubesOf_of_shape hs']
      exact List.mem_reverse.1 hc
    refine (rewires_setIngressNext (apart.of_shape hs') mem i).mono fun y w h => ⟨h.1, ?_⟩
    cases w <;> simp_all [Walk.type]
  have leads := leads_relink (c.has .ingress) (c.index · .ingress) setIngressNext
    (fun s cube => (s.cubes cube).ingressNext) ingressNext_setIngressNext
    (List.nodup_reverse.2 (apart.nodup (.iface e))) (s.ingressEnd e) s
  rw [show s.cubesOf (.iface e) = (s.ifaces e).cubes from rfl, List.reverse_reverse] at leads
  generalize relink (c.has .ingress) (c.index · .ingress) setIngressNext
    (s.ifaces e).cubes.reverse (s.ingressEnd e) s = linked at linking leads
  have rewires := linking.trans (rewires_setNextIngress (e := e) linked.2)
  refine ⟨rewires, ?_⟩
  unfold Along
  rw [route_of_shape rewires.shape, start_setNextIngress, if_pos ⟨rfl, rfl⟩, setNextIngress,
    view_setIface]
  exact leads.map fun i => (⟨i, false⟩ : Hop)

theorem start_setParent {f : CubePort → CubePort} (hf : ∀ t, (f t).portIndex = t.portIndex)
    (h : ¬ ∃ e, y = .iface e ∧ s.egressParent c e = some p ∧ w.type = .egress) :
    (s.setPort p f).start c y w = s.start c y w := by
  cases y with
  | port q =>
    cases w with
    | ingress =>
      simp only [start, ports_setPort]
      split_ifs with hq
      · rw [hf, hq]
      · rfl
    | egress => rfl
    | egressTc => rfl
  | iface e =>
    cases w with
    | ingress => rfl
    | egress =>
      simp only [start]
      rw [show (s.setPort p f).egressParent c e = s.egressParent c e from rfl]
      cases hp : s.egressParent c e with
      | none => rfl
      | some q =>
        have hq : q ≠ p := fun hq => h ⟨e, rfl, hq ▸ hp, rfl⟩
        simp only [ports_setPort, if_neg hq]
    | egressTc =>
      simp only [start]
      rw [show (s.setPort p f).egressParent c e = s.egressParent c e from rfl]
      cases hp : s.egressParent c e with
      | none => rfl
      | some q =>
        have hq : q ≠ p := fun hq => h ⟨e, rfl, hq ▸ hp, rfl⟩
        simp only [ports_setPort, if_neg hq]

theorem rewires_setParent {f : CubePort → CubePort} (hf : ∀ t, (f t).portIndex = t.portIndex ∧
    (f t).cubes = t.cubes ∧ (f t).peer = t.peer) :
    Rewires c (fun y w => ∃ e, y = .iface e ∧ s.egressParent c e = some p ∧ w.type = .egress) s
      (s.setPort p f) where
  shape := shape_setPort fun t => (hf t).2
  others y w hP := ⟨start_setParent (fun t => (hf t).1) hP, fun _ _ => by rw [view_setPort]⟩
  index _ _ := rfl
  next _ _ := rfl
  entry _ _ := rfl
  agree h := h

theorem setParentEgressNext_spec (hp : s.egressParent c e = some p)
    (single : ∀ e', (s.ifaces e').peer = some p → e' = e)
    (linked : (s.ports p).peer = some (.iface e)) (i : Index) :
    ∃ s', s.setParentEgressNext c p i = some s' ∧
      Rewires c (fun y w => y = .iface e ∧ w.type = .egress) s s' ∧
      (s'.view = s.view ∧ s'.ifaces = s.ifaces) ∧
      s'.start c (.iface e) .egressTc = ⟨i, false⟩ ∧
      (c.type p.cube = .xdp → s'.start c (.iface e) .egress = hopTo c (.iface e) i) := by
  have only : ∀ (y : ChainEnd) (w : Walk),
      (∃ e', y = .iface e' ∧ s.egressParent c e' = some p ∧ w.type = .egress) →
      y = ChainEnd.iface e ∧ w.type = ProgramType.egress := by
    rintro y w ⟨e', rfl, he', hw⟩
    exact ⟨congrArg _ (single e' (Option.filter_eq_some_iff.1 he').1), hw⟩
  have starts : ∀ f : CubePort → CubePort,
      (s.setPort p f).start c (.iface e) .egressTc = ⟨(f (s.ports p)).egressNext, false⟩ ∧
      (s.setPort p f).start c (.iface e) .egress = (f (s.ports p)).egressNextXdp := by
    intro f
    have parent : (s.setPort p f).egressParent c e = some p := hp
    constructor <;> simp [start, parent, ports_setPort]
  have rewires : ∀ f : CubePort → CubePort, (∀ t, (f t).portIndex = t.portIndex ∧
      (f t).cubes = t.cubes ∧ (f t).peer = t.peer) →
      Rewires c (fun y w => y = .iface e ∧ w.type = .egress) s (s.setPort p f) :=
    fun f hf => (rewires_setParent hf).mono only
  unfold setParentEgressNext
  cases htype : c.type p.cube with
  | tc =>
    refine ⟨_, rfl, rewires _ ?_, ⟨view_setPort _, rfl⟩, (starts _).1, fun h => by cases h⟩
    exact fun _ => ⟨rfl, rfl, rfl⟩
  | xdp =>
    split_ifs with hi
    · rw [linked, Option.map_some]
      refine ⟨_, rfl, rewires _ ?_, ⟨view_setPort _, rfl⟩, ?_, fun _ => ?_⟩
      · exact fun _ => ⟨rfl, rfl, rfl⟩
      · rw [hi]
        exact (starts _).1
      · rw [(starts _).2, hopTo, if_pos hi]
    · refine ⟨_, rfl, rewires _ ?_, ⟨view_setPort _, rfl⟩, (starts _).1, fun _ => ?_⟩
      · exact fun _ => ⟨rfl, rfl, rfl⟩
      · rw [(starts _).2, hopTo, if_neg hi]

/-- Where both egress chains of an interface start when its program in front has index `next`. -/
structure EgressFrom (c : Programs) (s : Chains) (e : String) (next : Index) : Prop where
  tc : Leads (c.hop .egressTc) (s.view .egressTc) (s.route c (.iface e) .egressTc) ⟨next, false⟩
    ⟨0xffff, false⟩
  xdp : (s.ifaces e).type = .xdp → Leads (c.hop .egress) (s.view .egress)
    (s.route c (.iface e) .egress) (hopTo c (.iface e) next) ⟨c.getPortId (.iface e), true⟩

theorem linkEgressTc_spec (apart : s.Apart) (e : String) (tc : (s.ifaces e).type = .tc) :
    ∃ s' next, relink (c.has .egress) (fun cube => (⟨c.index cube .egress, false⟩ : Hop))
        setEgressNext (s.ifaces e).cubes ⟨0xffff, false⟩ s = (s', ⟨next, false⟩) ∧
      s'.ifaces = s.ifaces ∧ Rewires c (fun y w => y = .iface e ∧ w.type = .egress) s s' ∧
      EgressFrom c s' e next := by
  have linking : Rewires c (fun y w => y = .iface e ∧ w.type = .egress) s
      (relink (c.has .egress) (fun cube => (⟨c.index cube .egress, false⟩ : Hop)) setEgressNext
        (s.ifaces e).cubes ⟨0xffff, false⟩ s).1 := by
    refine rewires_relink fun cube hc h s' hs' => ?_
    have mem : cube ∈ s'.cubesOf (.iface e) := by rwa [cubesOf_of_shape hs']
    exact rewires_setEgressNext (apart.of_shape hs') mem h
  have leads := leads_relink (c.has .egress) (c.hop .egressTc) setEgressNext
    (fun s => s.view .egressTc) (fun cube h s => view_setEgressNext h rfl)
    (apart.nodup (.iface e)) ⟨0xffff, false⟩ s
  have start := relink_snd (c.has .egress)
    (fun cube => (⟨c.index cube .egress, false⟩ : Hop)) setEgressNext (s.ifaces e).cubes
    ⟨0xffff, false⟩ s
  have ifaces := relink_keeps (c.has .egress)
    (fun cube => (⟨c.index cube .egress, false⟩ : Hop)) setEgressNext Chains.ifaces
    (fun _ _ _ => rfl) (s.ifaces e).cubes ⟨0xffff, false⟩ s
  have program : ∃ next, (relink (c.has .egress)
      (fun cube => (⟨c.index cube .egress, false⟩ : Hop)) setEgressNext (s.ifaces e).cubes
      ⟨0xffff, false⟩ s).2 = ⟨next, false⟩ := by
    rw [start]
    split
    · exact ⟨_, rfl⟩
    · exact ⟨_, rfl⟩
  obtain ⟨next, hnext⟩ := program
  refine ⟨_, next, Prod.ext rfl hnext, ifaces, linking, ⟨?_, fun h => ?_⟩⟩
  · rw [route_of_shape linking.shape, ← hnext]
    exact leads
  · rw [show (Chains.ifaces _ e).type = (s.ifaces e).type from
      congrFun (congrArg Shape.ifaceType linking.shape) e, tc] at h
    cases h

/-- The hops that stand for the front of the chain of an interface of type XDP: for packets of an
XDP port, and for those of the kernel. -/
def front (c : Programs) (e : String) (first : Bool) (next : Index) : Hop × Hop :=
  if first then (⟨c.getPortId (.iface e), true⟩, ⟨0xffff, false⟩)
  else (⟨next, false⟩, ⟨next, false⟩)

def setBoth (cube : String) (h : Hop × Hop) : Chains → Chains := setEgressNextXdp cube h.1 h.2

theorem linkEgressXdp_eq {cubes : List String} (xdp : ∀ cube ∈ cubes, c.type cube = .xdp)
    (l : Linking) : ∃ first next, linkEgressXdp c e cubes l = some ⟨first, next,
        (relink (c.has .egress) (fun cube => (c.hop .egress cube, c.hop .egress cube)) setBoth cubes
          (front c e l.first l.next) l.chains).1⟩ ∧
      (relink (c.has .egress) (fun cube => (c.hop .egress cube, c.hop .egress cube)) setBoth cubes
        (front c e l.first l.next) l.chains).2 = front c e first next ∧
      ((first, next) = (l.first, l.next) ∨
        first = false ∧ ∃ cube, c.has .egress cube = true ∧ next = c.index cube .egress) := by
  induction cubes generalizing l with
  | nil => exact ⟨l.first, l.next, rfl, rfl, Or.inl rfl⟩
  | cons cube cubes ih =>
    have tail : ∀ cube ∈ cubes, c.type cube = .xdp := fun cube hc =>
      xdp cube (List.mem_cons_of_mem _ hc)
    unfold linkEgressXdp relink
    by_cases has : c.has .egress cube = true
    · rw [if_pos has, if_pos has, if_pos (xdp cube List.mem_cons_self)]
      have linked : ∀ s' : Chains, s' = setBoth cube (front c e l.first l.next) l.chains →
          ∃ first next, linkEgressXdp c e cubes ⟨false, c.index cube .egress, s'⟩ =
            some ⟨first, next, (relink (c.has .egress)
              (fun cube => (c.hop .egress cube, c.hop .egress cube)) setBoth cubes
              (c.hop .egress cube, c.hop .egress cube)
              (setBoth cube (front c e l.first l.next) l.chains)).1⟩ ∧
            (relink (c.has .egress) (fun cube => (c.hop .egress cube, c.hop .egress cube)) setBoth
              cubes (c.hop .egress cube, c.hop .egress cube)
              (setBoth cube (front c e l.first l.next) l.chains)).2 = front c e first next ∧
            ((first, next) = (l.first, l.next) ∨
              first = false ∧ ∃ cube, c.has .egress cube = true ∧ next = c.index cube .egress) := by
        rintro s' rfl
        obtain ⟨first, next, hl, hr, h⟩ := ih tail ⟨false, c.index cube .egress,
          setBoth cube (front c e l.first l.next) l.chains⟩
        refine ⟨first, next, hl, hr, Or.inr ?_⟩
        rcases h with h | h
        · obtain ⟨rfl, rfl⟩ := Prod.mk.inj h
          exact ⟨rfl, cube, has, rfl⟩
        · exact h
      cases hfirst : l.first with
      | true =>
        rw [if_pos rfl]
        rw [hfirst] at linked
        exact linked _ rfl
      | false =>
        rw [if_neg Bool.false_ne_true]
        rw [hfirst] at linked
        exact linked _ rfl
    · rw [if_neg has, if_neg has]
      exact ih tail l

theorem linkEgressXdp_spec (apart : s.Apart) (e : String)
    (xdp : ∀ cube ∈ (s.ifaces e).cubes, c.type cube = .xdp) :
    ∃ first next s', linkEgressXdp c e (s.ifaces e).cubes ⟨true, 0xffff, s⟩ =
        some ⟨first, next, s'⟩ ∧ (if first then 0xffff else next) = next ∧ next ≠ 0 ∧
      s'.ifaces = s.ifaces ∧ Rewires c (fun y w => y = .iface e ∧ w.type = .egress) s s' ∧
      EgressFrom c s' e next := by
  obtain ⟨first, next, hl, hr, h⟩ := linkEgressXdp_eq (c := c) (e := e) xdp ⟨true, 0xffff, s⟩
  have linking : Rewires c (fun y w => y = .iface e ∧ w.type = .egress) s
      (relink (c.has .egress) (fun cube => (c.hop .egress cube, c.hop .egress cube)) setBoth
        (s.ifaces e).cubes (front c e true 0xffff) s).1 := by
    refine rewires_relink fun cube hc h s' hs' => ?_
    have mem : cube ∈ s'.cubesOf (.iface e) := by rwa [cubesOf_of_shape hs']
    exact rewires_setEgressNextXdp (apart.of_shape hs') mem h.1 h.2
  have leads := leads_relink (c.has .egress)
    (fun cube => (c.hop .egress cube, c.hop .egress cube)) setBoth
    (fun s cube => (s.view .egress cube, s.view .egressTc cube))
    (fun cube h s => by
      have views := @view_setEgressNextXdp s cube h.1 h.2
      funext cube'
      simp only [setBoth, views.1, views.2.1]
      by_cases hc : cube' = cube
      · subst hc
        simp
      · simp [hc])
    (apart.nodup (.iface e)) (front c e true 0xffff) s
  rw [show s.cubesOf (.iface e) = (s.ifaces e).cubes from rfl, hr] at leads
  have hnext : (if first then 0xffff else next) = next ∧ next ≠ 0 := by
    rcases h with h | ⟨rfl, cube, has, rfl⟩
    · obtain ⟨rfl, rfl⟩ := Prod.mk.inj h
      exact ⟨rfl, show (0xffff : Index) ≠ 0 by decide⟩
    · refine ⟨rfl, ?_⟩
      simpa [Programs.has] using has
  have starts : front c e first next = (hopTo c (.iface e) next, ⟨next, false⟩) := by
    rcases h with h | ⟨rfl, cube, has, rfl⟩
    · obtain ⟨rfl, rfl⟩ := Prod.mk.inj h
      rfl
    · exact congrArg (·, _) (hopTo_of_ne (index_ne_ffff _ _ _)).symm
  rw [starts] at leads
  have ifaces := relink_keeps (c.has .egress)
    (fun cube => (c.hop .egress cube, c.hop .egress cube)) setBoth Chains.ifaces
    (fun _ _ _ => rfl) (s.ifaces e).cubes (front c e true 0xffff) s
  refine ⟨first, next, _, hl, hnext.1, hnext.2, ifaces, linking, ⟨?_, fun _ => ?_⟩⟩
  · rw [route_of_shape linking.shape]
    exact leads.map Prod.snd
  · rw [route_of_shape linking.shape]
    exact leads.map Prod.fst

structure Ready (c : Programs) (s : Chains) (e : String) : Prop where
  apart : s.Apart
  types : (s.ifaces e).type = .xdp → ∀ cube ∈ (s.ifaces e).cubes, c.type cube = .xdp
  peerType : ∀ p, (s.ifaces e).peer = some p → c.type p.cube = (s.ifaces e).type
  single : ∀ p e', (s.ifaces e).peer = some p → (s.ifaces e').peer = some p → e' = e
  linked : ∀ p, (s.ifaces e).peer = some p → (s.ports p).peer = some (.iface e)
  device : ∀ p, (s.ifaces e).peer = some p → c.getPortId (.iface e) ≠ 0

structure Relinked (c : Programs) (e : String) (s s' : Chains) : Prop where
  rewires : Rewires c (AtIface s e) s s'
  ingress : s'.Along c (.iface e) .ingress ⟨s.ingressEnd e, false⟩
  tc : s'.Along c (.iface e) .egressTc ⟨0xffff, false⟩
  xdp : (s.ifaces e).type = .xdp →
    s'.Along c (.iface e) .egress ⟨c.getPortId (.iface e), true⟩
  index : (s.ifaces e).type = .tc → (s'.ifaces e).index = (s.ifaces e).index
  parent : ∀ p, s.egressParent c e = some p →
    (s'.ifaces e).egressNext = c.index p.cube .egress ∧
      ((s.ifaces e).type = .xdp → (s'.ifaces e).index = c.index p.cube .egress)
  told : ∀ p, (s.ifaces e).peer = some p → s.Along c (.port p) .egress (s.peerHop c p) →
    s'.Along c (.port p) .egress (s'.peerHop c p)
  tagged : ∀ p, (s.ifaces e).peer = some p → s.Tagged p → s'.Tagged p

theorem Ready.of_shape (ready : Ready c s e) (h : s'.shape = s.shape) : Ready c s' e := by
  have type : (s'.ifaces e).type = (s.ifaces e).type :=
    congrFun (congrArg Shape.ifaceType h) e
  have cubes : (s'.ifaces e).cubes = (s.ifaces e).cubes :=
    congrFun (cubesOf_of_shape h) (.iface e)
  refine ⟨ready.apart.of_shape h, ?_, ?_, ?_, ?_, ?_⟩
  · rw [type, cubes]
    exact ready.types
  · rw [type, ifacePeer_of_shape h]
    exact ready.peerType
  · intro p e' hp he'
    rw [ifacePeer_of_shape h] at hp he'
    exact ready.single p e' hp he'
  · intro p hp
    rw [ifacePeer_of_shape h] at hp
    rw [peer_of_shape h]
    exact ready.linked p hp
  · rw [ifacePeer_of_shape h]
    exact ready.device

/-- The egress program of the peer's cube comes in front of the chain: in a state with the chain
linked, the program the interface calls first, and where both walks start. -/
structure Fronted (c : Programs) (e : String) (next first : Index) (s s' : Chains) : Prop where
  rewires : Rewires c (fun y w => y = .iface e ∧ w.type = .egress) s s'
  view : s'.view = s.view
  ifaces : s'.ifaces = s.ifaces
  tc : s.egressParent c e ≠ none → s'.start c (.iface e) .egressTc = ⟨next, false⟩
  xdp : s.egressParent c e ≠ none → (s.ifaces e).type = .xdp →
    s'.start c (.iface e) .egress = hopTo c (.iface e) next
  none : s.egressParent c e = none → first = next
  parent : ∀ p, s.egressParent c e = some p → first = c.index p.cube .egress

theorem Ready.fronted (ready : Ready c s e) (hp : s.egressParent c e = some p) (next : Index) :
    ∃ s', s.setParentEgressNext c p next = some s' ∧
      Fronted c e next (c.index p.cube .egress) s s' := by
  have peer := (Option.filter_eq_some_iff.1 hp).1
  obtain ⟨s', hs', rewires, view, tc, xdp⟩ := setParentEgressNext_spec hp
    (fun e' => ready.single p e' peer) (ready.linked p peer) next
  refine ⟨s', hs', rewires, view.1, view.2, fun _ => tc, fun _ ht => xdp ?_, fun h => ?_,
    fun q hq => ?_⟩
  · rw [ready.peerType p peer, ht]
  · rw [hp] at h
    cases h
  · obtain rfl := Option.some.inj (hp.symm.trans hq)
    rfl

theorem fronted_of_none (hp : s.egressParent c e = none) (next : Index) :
    Fronted c e next next s s :=
  ⟨Rewires.refl s, rfl, rfl, fun h => absurd hp h, fun h => absurd hp h, fun _ => rfl, fun p h => by
    rw [hp] at h
    cases h⟩

/-- The chain of the kernel's packets, when the interface calls the first program. -/
theorem Fronted.along_tc {next first : Index} (h : Fronted c e next first s s')
    (chain : EgressFrom c s e next) :
    (s'.setNextEgress e first).Along c (.iface e) .egressTc ⟨0xffff, false⟩ := by
  have rewires := h.rewires.trans
    ((rewires_setNextEgress (e := e) first).mono fun y w hw => ⟨hw.1, by rw [hw.2]; rfl⟩)
  unfold Along
  rw [route_of_shape rewires.shape, setNextEgress, view_setIface, ← setNextEgress, h.view,
    start_setNextEgress, egressParent_of_shape h.rewires.shape]
  cases hp : s.egressParent c e with
  | none =>
    rw [if_pos ⟨rfl, rfl, rfl⟩, h.none hp]
    exact chain.tc
  | some p =>
    rw [if_neg fun hw => Option.some_ne_none p hw.2.2, h.tc (by rw [hp]; exact Option.some_ne_none _)]
    exact chain.tc

theorem egressNext_setNextEgress (i : Index) :
    ((s.setNextEgress e i).ifaces e).egressNext = i := by
  rw [setNextEgress, ifaces_setIface, if_pos rfl]

/-- The chain of an interface, called by its program and not told to its peer yet. -/
structure Called (c : Programs) (e : String) (s s' : Chains) : Prop where
  rewires : Rewires c (fun y _ => y = .iface e) s s'
  ingress : s'.Along c (.iface e) .ingress ⟨s.ingressEnd e, false⟩
  tc : s'.Along c (.iface e) .egressTc ⟨0xffff, false⟩
  index : (s'.ifaces e).index = (s.ifaces e).index

theorem Called.along_port (h : Called c e s s') (p : PortRef) {w : Walk} {a : Hop} :
    s'.Along c (.port p) w a ↔ s.Along c (.port p) w a :=
  h.rewires.along_iff (fun h => by cases h) a

theorem Called.tagged (h : Called c e s s') {p : PortRef} (tagged : s.Tagged p) : s'.Tagged p :=
  h.rewires.tagged (fun h => by cases h) tagged

theorem Called.peerHop (h : Called c e s s') {p : PortRef}
    (linked : (s.ports p).peer = some (.iface e)) : s'.peerHop c p = s.peerHop c p := by
  unfold Chains.peerHop
  rw [peer_of_shape h.rewires.shape, linked]
  exact congrArg (hopTo c (.iface e)) h.index

theorem Called.atIface (h : Called c e s s') : Rewires c (AtIface s e) s s' :=
  h.rewires.mono fun _ _ h => Or.inl h

/-- Whatever comes in front of the chain, calling it is all that is left. -/
theorem Fronted.called {s₁ s₂ s₃ : Chains} {next first : Index}
    (rewires₁ : Rewires c (fun y w => y = .iface e ∧ w = .ingress) s s₁)
    (ingress₁ : s₁.Along c (.iface e) .ingress ⟨s.ingressEnd e, false⟩)
    (rewires₂ : Rewires c (fun y w => y = .iface e ∧ w.type = .egress) s₁ s₂)
    (ifaces₂ : s₂.ifaces = s₁.ifaces) (chain : EgressFrom c s₂ e next)
    (fronted : Fronted c e next first s₂ s₃) : Called c e s (s₃.setNextEgress e first) := by
  have rewires₄ : Rewires c (fun y w => y = .iface e ∧ w.type = .egress) s₃
      (s₃.setNextEgress e first) :=
    (rewires_setNextEgress first).mono fun y w hw => ⟨hw.1, by rw [hw.2]; rfl⟩
  have egress := (rewires₂.trans fronted.rewires).trans rewires₄
  refine ⟨(rewires₁.mono fun y w h => h.1).trans (egress.mono fun y w h => h.1), ?_,
    fronted.along_tc chain, ?_⟩
  · exact (egress.along_iff (w := .ingress) (fun h => ingress_ne_egress h.2) _).2 ingress₁
  · rw [setNextEgress, ifaces_setIface, if_pos rfl, fronted.ifaces, ifaces₂]
    exact rewires₁.index e fun h => by cases h.2

theorem updateIndexesTc_spec (ready : Ready c s e) (htype : (s.ifaces e).type = .tc) :
    ∃ s', s.updateIndexesTc c e = some s' ∧ Relinked c e s s' := by
  obtain ⟨rewires₁, ingress₁⟩ := linkIngress_spec (c := c) ready.apart e
  unfold updateIndexesTc
  dsimp only
  generalize s.linkIngress c e = s₁ at rewires₁ ingress₁
  have cubes₁ : (s₁.ifaces e).cubes = (s.ifaces e).cubes :=
    congrFun (cubesOf_of_shape rewires₁.shape) (.iface e)
  have type₁ : (s₁.ifaces e).type = (s.ifaces e).type :=
    congrFun (congrArg Shape.ifaceType rewires₁.shape) e
  obtain ⟨s₂, next, hs₂, ifaces₂, rewires₂, chain⟩ := linkEgressTc_spec (c := c)
    (ready.apart.of_shape rewires₁.shape) e (type₁.trans htype)
  rw [cubes₁] at hs₂
  rw [hs₂]
  dsimp only
  have shape₂ := rewires₂.shape.trans rewires₁.shape
  have ready₂ := ready.of_shape shape₂
  have parent₂ := egressParent_of_shape (c := c) shape₂ e
  -- whatever comes in front of the chain, what is left is to call it
  have finish : ∀ s₃ first, Fronted c e next first s₂ s₃ →
      Relinked c e s (s₃.setNextEgress e first) := by
    intro s₃ first fronted
    have called := fronted.called rewires₁ ingress₁ rewires₂ ifaces₂ chain
    refine ⟨called.atIface, called.ingress, called.tc, fun h => ?_, fun _ => called.index,
      fun p hp => ⟨?_, fun h => ?_⟩, fun p hp along => ?_, fun p _ tagged => called.tagged tagged⟩
    · rw [htype] at h
      cases h
    · rw [egressNext_setNextEgress]
      exact fronted.parent p (parent₂.trans hp)
    · rw [htype] at h
      cases h
    · rw [called.peerHop (ready.linked p hp)]
      exact (called.along_port p).2 along
  cases hp : s.egressParent c e with
  | none => exact ⟨_, rfl, finish _ _ (fronted_of_none (parent₂.trans hp) next)⟩
  | some p =>
    obtain ⟨s₃, hs₃, fronted⟩ := ready₂.fronted (parent₂.trans hp) next
    dsimp only
    rw [hs₃, Option.map_some]
    exact ⟨_, rfl, finish _ _ fronted⟩

theorem tellPort_spec (ready : Ready c s e) {next : Index} (hnext : next ≠ 0) :
    ∃ s', s.tellPort c e next = some s' ∧
      Rewires c (fun y w => ∃ p, (s.ifaces e).peer = some p ∧ y = .port p ∧ w.type = .egress) s s' ∧
      ∀ p, (s.ifaces e).peer = some p →
        (s.Along c (.port p) .egress (s.peerHop c p) →
          s'.Along c (.port p) .egress (hopTo c (.iface e) next)) ∧
        (s.Tagged p → s'.Tagged p) := by
  unfold tellPort
  cases hpeer : (s.ifaces e).peer with
  | none => exact ⟨s, rfl, Rewires.refl s, fun p hp => by cases hp⟩
  | some p =>
    have linked := ready.linked p hpeer
    have real : s.toldHop c p next ≠ ⟨0, true⟩ := by
      rw [toldHop, linked]
      unfold hopTo
      split_ifs
      · exact fun h => ready.device p hpeer (congrArg Hop.next h)
      · exact program_ne _
    split_ifs with hindex
    · obtain ⟨s', hs', rewires, along, tagged⟩ := setNextIndexPort_spec ready.apart hnext
        (fun _ h => by rw [linked] at h; cases h) real
      refine ⟨s', hs', rewires.mono fun y w h => ⟨p, rfl, h⟩, fun q hq => ?_⟩
      obtain rfl := Option.some.inj hq
      refine ⟨fun h => ?_, tagged⟩
      have := along _ h
      rwa [toldHop, linked] at this
    · refine ⟨s, rfl, Rewires.refl s, fun q hq => ⟨fun h => ?_, id⟩⟩
      obtain rfl := Option.some.inj hq
      rw [not_not] at hindex
      rw [peerHop, linked] at h
      dsimp only [getIndex] at h
      rwa [hindex] at h

theorem updateIndexesXdp_spec (ready : Ready c s e) (htype : (s.ifaces e).type = .xdp) :
    ∃ s', s.updateIndexesXdp c e = some s' ∧ Relinked c e s s' := by
  obtain ⟨rewires₁, ingress₁⟩ := linkIngress_spec (c := c) ready.apart e
  unfold updateIndexesXdp
  generalize s.linkIngress c e = s₁ at rewires₁ ingress₁
  have cubes₁ : (s₁.ifaces e).cubes = (s.ifaces e).cubes :=
    congrFun (cubesOf_of_shape rewires₁.shape) (.iface e)
  obtain ⟨first, next, s₂, hs₂, hfirst, hnext, ifaces₂, rewires₂, chain⟩ :=
    linkEgressXdp_spec (c := c)
    (ready.apart.of_shape rewires₁.shape) e (by rw [cubes₁]; exact ready.types htype)
  rw [cubes₁] at hs₂
  rw [hs₂, Option.bind_some]
  have shape₂ := rewires₂.shape.trans rewires₁.shape
  have ready₂ := ready.of_shape shape₂
  have type₂ : (s₂.ifaces e).type = .xdp :=
    (congrFun (congrArg Shape.ifaceType shape₂) e).trans htype
  have parent₂ := egressParent_of_shape (c := c) shape₂ e
  have peer₂ := ifacePeer_of_shape shape₂ e
  -- whatever comes in front of the chain, what is left is to call it and to tell the peer
  have finish : ∀ s₃ first, first ≠ 0 → Fronted c e next first s₂ s₃ →
      ∃ s₅, ((s₃.setNextEgress e first).tellPort c e first) = some s₅ ∧
        Relinked c e s (s₅.setIface e fun t => { t with index := first }) := by
    intro s₃ first hne fronted
    have rewires₃ := fronted.rewires
    have called := fronted.called rewires₁ ingress₁ rewires₂ ifaces₂ chain
    have rewires₄ := rewires_setNextEgress (c := c) (s := s₃) (e := e) first
    have shape₄ := called.rewires.shape
    have ready₄ := ready.of_shape shape₄
    have peer₄ := ifacePeer_of_shape shape₄ e
    obtain ⟨s₅, hs₅, rewires₅, told⟩ := tellPort_spec ready₄ hne
    have rewires₆ := rewires_setIndex (c := c) (s := s₅) (e := e) first
    have rewires : Rewires c (AtIface s e) s (s₅.setIface e fun t => { t with index := first }) := by
      refine (called.atIface.trans (rewires₅.mono fun y w h => Or.inr ?_)).trans
        (rewires₆.mono fun y w h => Or.inl h.1)
      rwa [peer₄] at h
    have own : ∀ w a, w ≠ .egress →
        ((s₅.setIface e fun t => { t with index := first }).Along c (.iface e) w a ↔
          (s₃.setNextEgress e first).Along c (.iface e) w a) := fun w a hw =>
      (rewires₆.along_iff (fun h => hw h.2) a).trans
        (rewires₅.along_iff (by rintro ⟨q, hq, h, _⟩; cases h) a)
    refine ⟨s₅, hs₅, rewires, ?_, ?_, fun _ => ?_, fun h => ?_, fun p hp => ⟨?_, fun _ => ?_⟩,
      fun p hp along => ?_, fun p hp tagged => ?_⟩
    · exact (own _ _ (by decide)).2 called.ingress
    · exact (own _ _ (by decide)).2 called.tc
    · -- the walk of the XDP programs starts at the new index, or behind the parent's program
      have shape₅ := rewires₅.shape.trans rewires₄.shape
      have view : ∀ cube ∈ s₃.cubesOf (.iface e), s₅.view .egress cube = s₃.view .egress cube := by
        intro cube hc
        have same := rewires₅.others (.iface e) .egress (by rintro ⟨q, hq, h, _⟩; cases h)
        rw [same.view cube (by rwa [cubesOf_of_shape rewires₄.shape]), setNextEgress,
          view_setIface]
      have start₅ : s₅.start c (.iface e) .egress = s₃.start c (.iface e) .egress := by
        have same := rewires₅.others (.iface e) .egress (by rintro ⟨q, hq, h, _⟩; cases h)
        rw [same.start, start_setNextEgress, if_neg fun h => by cases h.2.1]
      unfold Along
      rw [route_of_shape (rewires₆.shape.trans shape₅), view_setIface]
      refine (leads_congr fun cube hc => view cube (mem_cubesOf_of_mem_route hc)).2 ?_
      rw [start_setIndex, egressParent_of_shape (shape₅.trans rewires₃.shape), start₅, fronted.view,
        route_of_shape rewires₃.shape]
      cases hp : s₂.egressParent c e with
      | none =>
        rw [if_pos ⟨rfl, rfl, rfl⟩, fronted.none hp]
        exact chain.xdp type₂
      | some p =>
        rw [if_neg fun h => Option.some_ne_none p h.2.2,
          fronted.xdp (by rw [hp]; exact Option.some_ne_none _) type₂]
        exact chain.xdp type₂
    · rw [htype] at h
      cases h
    · rw [rewires₆.next e (fun h => by cases h.2), rewires₅.next e (by rintro ⟨q, hq, h, _⟩; cases h),
        egressNext_setNextEgress]
      exact fronted.parent p (parent₂.trans hp)
    · rw [ifaces_setIface, if_pos rfl]
      exact fronted.parent p (parent₂.trans hp)
    · have behind : (s₅.setIface e fun t => { t with index := first }).peerHop c p =
          hopTo c (.iface e) first := by
        unfold peerHop
        rw [peer_of_shape rewires.shape, ready.linked p hp]
        dsimp only [getIndex]
        rw [ifaces_setIface, if_pos rfl]
      rw [behind, rewires₆.along_iff fun h => by cases h.1]
      refine (told p (peer₄.trans hp)).1 ?_
      rw [called.peerHop (ready.linked p hp)]
      exact (called.along_port p).2 along
    · refine rewires₆.tagged (fun h => by cases h.1) ((told p (peer₄.trans hp)).2 ?_)
      exact called.tagged tagged
  unfold linkEgressParent
  dsimp only
  cases hp : s.egressParent c e with
  | none =>
    rw [parent₂, hp, Option.bind_some]
    dsimp only
    obtain ⟨s₅, hs₅, relinked⟩ := finish s₂ next hnext (fronted_of_none (parent₂.trans hp) next)
    rw [hfirst, hs₅, Option.map_some]
    exact ⟨_, rfl, relinked⟩
  | some p =>
    obtain ⟨s₃, hs₃, fronted⟩ := ready₂.fronted (parent₂.trans hp) next
    have hne : c.index p.cube .egress ≠ 0 := by
      simpa using (Option.filter_eq_some_iff.1 hp).2
    rw [parent₂, hp]
    dsimp only
    rw [hfirst, hs₃, Option.map_some, Option.bind_some]
    obtain ⟨s₅, hs₅, relinked⟩ := finish s₃ _ hne fronted
    dsimp only
    rw [if_neg Bool.false_ne_true, hs₅, Option.map_some]
    exact ⟨_, rfl, relinked⟩

theorem updateIndexesIface_spec (ready : Ready c s e) :
    ∃ s', s.updateIndexes c (.iface e) = some s' ∧ Relinked c e s s' := by
  cases htype : (s.ifaces e).type with
  | tc =>
    simp only [updateIndexes, htype]
    exact updateIndexesTc_spec ready htype
  | xdp =>
    simp only [updateIndexes, htype]
    exact updateIndexesXdp_spec ready htype

end Iface

end Chains

end Polycube.Polycubed
