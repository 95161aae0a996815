import Polycube.Polycubed.Relinking

/-!
# Complete chains

`Ok` says that the chains of an end are complete: each leads from the outside or the inside over
the attached cubes with a program for it, in order, to where it has to lead.  The invariant of a
run is that every end in use is `Ok`; `Sound` is the condition under which an operation keeps it.
-/

namespace Polycube.Polycubed

open Function Lib

def Programs.Fits (c : Programs) (e : String) : Prop :=
  (c.getPortId (.iface e)).setWidth 32 = c.ifindex e ∧ c.ifindex e ≠ 0

namespace Chains

def linkOf (s : Chains) : ChainEnd → Option ChainEnd
  | .port p => (s.ports p).peer
  | .iface e => (s.ifaces e).peer.map .port

def Used (s : Chains) (x : ChainEnd) : Prop := s.cubesOf x ≠ [] ∨ s.linkOf x ≠ none

def Sends (s : Chains) (e : String) : Prop :=
  s.linkOf (.iface e) ≠ none ∨ (s.cubesOf (.iface e) ≠ [] ∧ (s.ifaces e).type = .xdp)

section Completeness

variable (c : Programs)

def typeOf (s : Chains) : ChainEnd → PortType
  | .port p => c.type p.cube
  | .iface e => (s.ifaces e).type

structure PortOk (s : Chains) (p : PortRef) : Prop where
  ingress : s.Along c (.port p) .ingress ⟨c.index p.cube .ingress, false⟩
  egress : s.Along c (.port p) .egress (s.peerHop c p)
  tagged : s.Tagged p

/-- The ingress chain of an interface ends at its peer or in the stack, the egress chain at the
device, behind the egress program of the peer's cube if it has one. -/
structure IfaceOk (s : Chains) (e : String) : Prop where
  ingress : s.Along c (.iface e) .ingress ⟨s.ingressEnd e, false⟩
  tc : s.Along c (.iface e) .egressTc ⟨0xffff, false⟩
  xdp : (s.ifaces e).type = .xdp →
    s.Along c (.iface e) .egress ⟨c.getPortId (.iface e), true⟩
  parent : ∀ p, s.egressParent c e = some p →
    (s.ifaces e).egressNext = c.index p.cube .egress ∧
      ((s.ifaces e).type = .xdp → (s.ifaces e).index = c.index p.cube .egress)

def Ok (s : Chains) : ChainEnd → Prop
  | .port p => PortOk c s p
  | .iface e => IfaceOk c s e

structure Wired (s : Chains) : Prop where
  apart : s.Apart
  types : ∀ x, ∀ cube ∈ s.cubesOf x, c.type cube = s.typeOf c x
  known : ∀ e, s.Used (.iface e) → (s.ifaces e).known = true
  symm : ∀ x y, s.linkOf x = some y → s.linkOf y = some x
  irrefl : ∀ x, s.linkOf x ≠ some x
  link_type : ∀ x y, s.linkOf x = some y → s.typeOf c x = s.typeOf c y
  fits : ∀ e, s.Sends e → c.Fits e

def TcDevices (s : Chains) : Prop := ∀ e, (s.ifaces e).type = .tc → (s.ifaces e).index = 0xffff

end Completeness

variable {c : Programs} {s s' s'' : Chains} {x y : ChainEnd} {p q : PortRef} {e cube : String}

/-! ### The same chains in two states -/

structure SameAt (c : Programs) (s s' : Chains) (x : ChainEnd) : Prop where
  cubes : s'.cubesOf x = s.cubesOf x
  way : ∀ w, SameWay c s s' x w
  link : s'.linkOf x = s.linkOf x
  index : ∀ y, s.linkOf x = some y → s'.getIndex y = s.getIndex y
  entry : ∀ p, x = .port p →
    s'.peers p.cube p.id.toNat = s.peers p.cube p.id.toNat
  iface : ∀ e, x = .iface e → (s'.ifaces e).type = (s.ifaces e).type ∧
    (s'.ifaces e).egressNext = (s.ifaces e).egressNext ∧
    (s'.ifaces e).index = (s.ifaces e).index

theorem peerHop_eq (s : Chains) (p : PortRef) : s.peerHop c p =
    match s.linkOf (.port p) with
    | none => ⟨0, false⟩
    | some x => hopTo c x (s.getIndex x) := by
  have link : s.linkOf (.port p) = (s.ports p).peer := rfl
  unfold peerHop
  cases h : (s.ports p).peer with
  | none => simp only [link, h]
  | some x => simp only [link, h]

theorem ingressEnd_eq (s : Chains) (e : String) : s.ingressEnd e =
    match s.linkOf (.iface e) with
    | none => 0xffff
    | some x => s.getIndex x := by
  have link : s.linkOf (.iface e) = (s.ifaces e).peer.map .port := rfl
  unfold ingressEnd
  cases h : (s.ifaces e).peer with
  | none => simp only [link, h, Option.map_none]
  | some p => simp only [link, h, Option.map_some, getIndex]

theorem SameAt.along_iff (h : SameAt c s s' x) (w : Walk) (a : Hop) :
    s'.Along c x w a ↔ s.Along c x w a :=
  (h.way w).along_iff h.cubes a

theorem Ok.of_sameAt (h : SameAt c s s' x) (ok : Ok c s x) : Ok c s' x := by
  cases x with
  | port p =>
    have hop : s'.peerHop c p = s.peerHop c p := by
      rw [peerHop_eq, peerHop_eq, h.link]
      cases hl : s.linkOf (.port p) with
      | none => rfl
      | some y =>
        dsimp only
        rw [h.index y hl]
    refine ⟨(h.along_iff _ _).2 ok.ingress, ?_, fun entry he => ?_⟩
    · rw [hop, h.along_iff]
      exact ok.egress
    · have id : s'.idBehind p = s.idBehind p := by
        unfold idBehind
        rw [show (s'.ports p).peer = (s.ports p).peer from h.link]
      rw [id]
      exact ok.tagged entry (by rw [← h.entry p rfl, he])
  | iface e =>
    obtain ⟨type, next, index⟩ := h.iface e rfl
    have peer : (s'.ifaces e).peer = (s.ifaces e).peer :=
      Option.map_injective (fun _ _ => ChainEnd.port.inj) h.link
    refine ⟨?_, (h.along_iff _ _).2 ok.tc, fun ht => ?_, fun p hp => ?_⟩
    · have behind : s'.ingressEnd e = s.ingressEnd e := by
        rw [ingressEnd_eq, ingressEnd_eq, h.link]
        cases hl : s.linkOf (.iface e) with
        | none => rfl
        | some y => exact h.index y hl
      rw [behind, h.along_iff]
      exact ok.ingress
    · rw [h.along_iff]
      exact ok.xdp (type ▸ ht)
    · have hp' : s.egressParent c e = some p := by
        rw [← hp]
        unfold egressParent
        rw [peer]
      rw [next, index, type]
      exact ok.parent p hp'

theorem linkOf_of_shape (h : s'.shape = s.shape) (x : ChainEnd) : s'.linkOf x = s.linkOf x := by
  cases x with
  | port p => exact peer_of_shape h p
  | iface e => exact congrArg (Option.map ChainEnd.port) (ifacePeer_of_shape h e)

theorem type_of_shape (h : s'.shape = s.shape) (e : String) :
    (s'.ifaces e).type = (s.ifaces e).type :=
  congrFun (congrArg Shape.ifaceType h) e

/-- A change of links that touches neither the chains of an end nor where its peer starts. -/
theorem Rewires.sameAt {P : ChainEnd → Walk → Prop} (h : Rewires c P s s')
    (own : ∀ w, ¬ P x w) (other : ∀ y, s.linkOf x = some y → ¬ P y y.inward) :
    SameAt c s s' x where
  cubes := congrFun (cubesOf_of_shape h.shape) x
  way w := h.others x w (own w)
  link := linkOf_of_shape h.shape x
  index y hy := by
    refine getIndex_of_rewires h (fun q hq => ?_) (fun e he => ?_)
    · subst hq
      exact other _ hy
    · subst he
      exact other _ hy
  entry p hp := h.entry p (hp ▸ own .egress)
  iface e he := ⟨type_of_shape h.shape e, h.next e (he ▸ own .egressTc),
    h.index e (he ▸ own .egress)⟩

theorem SameAt.trans (h : SameAt c s s' x) (h' : SameAt c s' s'' x) : SameAt c s s'' x where
  cubes := h'.cubes.trans h.cubes
  way w := ⟨(h'.way w).start.trans (h.way w).start, fun cube hc =>
    ((h'.way w).view cube (h.cubes ▸ hc)).trans ((h.way w).view cube hc)⟩
  link := h'.link.trans h.link
  index y hy := (h'.index y (h.link.trans hy)).trans (h.index y hy)
  entry p hp := (h'.entry p hp).trans (h.entry p hp)
  iface e he := ⟨(h'.iface e he).1.trans (h.iface e he).1,
    (h'.iface e he).2.1.trans (h.iface e he).2.1, (h'.iface e he).2.2.trans (h.iface e he).2.2⟩

/-- Writing the list or the link of one port leaves the chains of the others. -/
theorem sameAt_setPort {f : CubePort → CubePort} (hf : ∀ t, (f t).portIndex = t.portIndex ∧
    (f t).egressNext = t.egressNext ∧ (f t).egressNextXdp = t.egressNextXdp) (hx : x ≠ .port p) :
    SameAt c s (s.setPort p f) x := by
  have fields : ∀ q, ((s.setPort p f).ports q).portIndex = (s.ports q).portIndex ∧
      ((s.setPort p f).ports q).egressNext = (s.ports q).egressNext ∧
      ((s.setPort p f).ports q).egressNextXdp = (s.ports q).egressNextXdp := by
    intro q
    rw [ports_setPort]
    split_ifs with hq
    · subst hq
      exact hf _
    · exact ⟨rfl, rfl, rfl⟩
  have same : ∀ q, x = .port q → (s.setPort p f).ports q = s.ports q := fun q hq => by
    rw [ports_setPort, if_neg fun h => hx (hq.trans (congrArg _ h))]
  refine ⟨?_, fun w => ⟨?_, fun _ _ => by rw [view_setPort]⟩, ?_, fun y _ => ?_, fun _ _ => rfl,
    fun _ _ => ⟨rfl, rfl, rfl⟩⟩
  · cases x with
    | port q => exact congrArg CubePort.cubes (same q rfl)
    | iface e => rfl
  · cases x with
    | port q =>
      cases w with
      | ingress => exact congrArg (fun i => (⟨i, false⟩ : Hop)) (fields q).1
      | egress => rfl
      | egressTc => rfl
    | iface e =>
      cases w with
      | ingress => rfl
      | egress =>
        simp only [start, egressParent, (fields _).2.2]
        rfl
      | egressTc =>
        simp only [start, egressParent, (fields _).2.1]
        rfl
  · cases x with
    | port q => exact congrArg CubePort.peer (same q rfl)
    | iface e => rfl
  · cases y with
    | port q => exact (fields q).1
    | iface e => rfl

/-- Writing one interface leaves the chains of the others, if what it tells its peer stays. -/
theorem sameAt_setIface {f : ExtIface → ExtIface} (hx : x ≠ .iface e)
    (index : s.linkOf x = some (.iface e) → (f (s.ifaces e)).index = (s.ifaces e).index) :
    SameAt c s (s.setIface e f) x := by
  have same : ∀ i, x = .iface i → (s.setIface e f).ifaces i = s.ifaces i := fun i hi => by
    rw [ifaces_setIface, if_neg fun h => hx (hi.trans (congrArg _ h))]
  refine ⟨?_, fun w => ⟨?_, fun _ _ => by rw [view_setIface]⟩, ?_, fun y hy => ?_, fun _ _ => rfl,
    fun i hi => ?_⟩
  · cases x with
    | port q => rfl
    | iface i => exact congrArg ExtIface.cubes (same i rfl)
  · cases x with
    | port q => cases w <;> rfl
    | iface i =>
      have parent : (s.setIface e f).egressParent c i = s.egressParent c i := by
        unfold egressParent
        rw [same i rfl]
      cases w with
      | ingress => exact congrArg (fun t => (⟨t.ingressNext, false⟩ : Hop)) (same i rfl)
      | egress => simp only [start, parent, same i rfl]; rfl
      | egressTc => simp only [start, parent, same i rfl]; rfl
  · cases x with
    | port q => rfl
    | iface i => exact congrArg (fun t => t.peer.map ChainEnd.port) (same i rfl)
  · cases y with
    | port q => rfl
    | iface i =>
      simp only [getIndex, ifaces_setIface]
      split_ifs with hi
      · subst hi
        exact index hy
      · rfl
  · rw [same i hi]
    exact ⟨rfl, rfl, rfl⟩

theorem sameAt_setParent (parent : Option ChainEnd) :
    SameAt c s (s.setCube cube fun t => { t with parent := parent }) x where
  cubes := by cases x <;> rfl
  way w := by
    refine ⟨by rw [start_setCube], fun cube' _ => ?_⟩
    by_cases hc : cube' = cube
    · subst hc
      cases w <;> simp [view, setCube]
    · cases w <;> simp [view, setCube, update_of_ne hc]
  link := by cases x <;> rfl
  index y _ := by cases y <;> rfl
  entry _ _ := rfl
  iface _ _ := ⟨rfl, rfl, rfl⟩

theorem sameAt_setName (p : PortRef) (peer : Option ChainEnd) (x : ChainEnd) :
    SameAt c s (s.setName p peer) x := by
  by_cases hx : x = .port p
  · subst hx
    have port : (s.setName p peer).ports p = { s.ports p with peerName := peer } := by
      rw [setName, ports_setPort, if_pos rfl]
    refine ⟨?_, fun w => ⟨?_, fun _ _ => by rw [setName, view_setPort]⟩, ?_, fun y _ => ?_,
      fun _ _ => rfl, fun _ _ => ⟨rfl, rfl, rfl⟩⟩
    · simp only [cubesOf, port]
    · cases w with
      | ingress => simp only [start, port]
      | egress => rfl
      | egressTc => rfl
    · simp only [linkOf, port]
    · cases y with
      | port q =>
        simp only [getIndex, setName, ports_setPort]
        split_ifs with h
        · rw [h]
        · rfl
      | iface e => rfl
  · exact sameAt_setPort (f := fun t => { t with peerName := peer }) (fun _ => ⟨rfl, rfl, rfl⟩) hx

theorem sameAt_setCubesOf (cubes : List String) (hx : x ≠ y) :
    SameAt c s (s.setCubesOf y cubes) x := by
  cases y with
  | port p =>
    exact sameAt_setPort (f := fun t => { t with cubes := cubes }) (fun _ => ⟨rfl, rfl, rfl⟩) hx
  | iface e =>
    exact sameAt_setIface (f := fun t => { t with cubes := cubes }) hx fun _ => rfl

theorem PortOk.portIndex_ne (ok : PortOk c s p) : (s.ports p).portIndex ≠ 0xffff := by
  have leads := ok.ingress
  unfold Along at leads
  cases hroute : s.route c (.port p) .ingress with
  | nil =>
    rw [hroute] at leads
    rw [show (s.ports p).portIndex = _ from congrArg Hop.next leads]
    exact index_ne_ffff _ _ _
  | cons cube cubes =>
    rw [hroute] at leads
    rw [show (s.ports p).portIndex = _ from congrArg Hop.next leads.1]
    exact index_ne_ffff _ _ _

theorem PortOk.portIndex_eq (ok : PortOk c s p) :
    (s.ports p).portIndex = c.calculateIndex p (s.ports p).cubes := by
  have leads := ok.ingress
  have first : (s.route c (.port p) .ingress).head? =
      (s.ports p).cubes.reverse.find? (c.has .ingress) := List.head?_filter
  unfold Along at leads
  unfold Programs.calculateIndex
  rw [← first]
  cases hroute : s.route c (.port p) .ingress with
  | nil =>
    rw [hroute] at leads
    exact congrArg Hop.next leads
  | cons cube cubes =>
    rw [hroute] at leads
    exact congrArg Hop.next leads.1

theorem portId_ne_of_fits (fits : c.Fits e) : c.getPortId (.iface e) ≠ 0 := by
  intro h
  have := fits.1
  rw [h] at this
  exact fits.2 this.symm

theorem Used.of_link (h : s.linkOf x = some y) : s.Used x :=
  Or.inr fun h' => Option.some_ne_none y (h.symm.trans h')

theorem Sends.of_link (h : s.linkOf (.iface e) = some y) : s.Sends e :=
  Or.inl fun h' => Option.some_ne_none y (h.symm.trans h')

theorem Sends.used (h : s.Sends e) : s.Used (.iface e) :=
  h.elim Or.inr fun h => Or.inl h.1

theorem peerHop_ne (ok : ∀ q, s.linkOf (.port p) = some (.port q) →
      (s.ports q).portIndex ≠ 0xffff)
    (fits : ∀ e, s.linkOf (.port p) = some (.iface e) → c.Fits e) :
    s.peerHop c p ≠ ⟨0, true⟩ := by
  rw [peerHop_eq]
  cases hl : s.linkOf (.port p) with
  | none => exact program_ne _
  | some x =>
    dsimp only
    unfold hopTo
    split_ifs with h
    · cases x with
      | port q => exact absurd h (ok q hl)
      | iface e => exact fun hh => portId_ne_of_fits (fits e hl) (congrArg Hop.next hh)
    · exact program_ne _

section Relink

theorem Wired.of_shape (wired : Wired c s) (h : s'.shape = s.shape) : Wired c s' := by
  have cubes := cubesOf_of_shape h
  have link : s'.linkOf = s.linkOf := funext (linkOf_of_shape h)
  have type : s'.typeOf c = s.typeOf c := by
    funext x
    cases x with
    | port p => rfl
    | iface e => exact type_of_shape h e
  have used : ∀ x, s'.Used x ↔ s.Used x := fun x => by unfold Used; rw [cubes, link]
  refine ⟨wired.apart.of_shape h, ?_, fun e he => ?_, ?_, ?_, ?_, fun e he => ?_⟩
  · rw [cubes, type]
    exact wired.types
  · rw [show (s'.ifaces e).known = (s.ifaces e).known from congrFun (congrArg Shape.known h) e]
    exact wired.known e ((used _).1 he)
  · rw [link]
    exact wired.symm
  · rw [link]
    exact wired.irrefl
  · rw [link, type]
    exact wired.link_type
  · refine wired.fits e ?_
    unfold Sends at he ⊢
    rwa [cubes, link, type_of_shape h] at he

theorem Wired.ready (wired : Wired c s) (e : String) : Ready c s e := by
  have link : ∀ p, (s.ifaces e).peer = some p → s.linkOf (.iface e) = some (.port p) := fun p hp =>
    congrArg (Option.map ChainEnd.port) hp
  refine ⟨wired.apart, fun ht cube hc => ?_, fun p hp => ?_, fun p e' hp he' => ?_, fun p hp => ?_,
    fun p hp => ?_⟩
  · exact (wired.types (.iface e) cube hc).trans ht
  · exact (wired.link_type _ _ (link p hp)).symm
  · have link' : s.linkOf (.iface e') = some (.port p) := congrArg (Option.map ChainEnd.port) he'
    have back := (wired.symm _ _ (link p hp)).symm.trans (wired.symm _ _ link')
    exact (ChainEnd.iface.inj (Option.some.inj back)).symm
  · exact wired.symm _ _ (link p hp)
  · exact portId_ne_of_fits (wired.fits e (Sends.of_link (link p hp)))

/-- Telling the peer of an end that is linked anew works: the loop of an interface finds a program,
and a port is not told of an index 0 when it had another one. -/
def Tells (c : Programs) (s : Chains) : ChainEnd → Prop
  | .port p =>
    match (s.ports p).peer with
    | none => True
    | some (.iface e) => LastIngress c (s.ifaces e).cubes
    | some (.port _) =>
      c.calculateIndex p (s.ports p).cubes ≠ 0 ∨ (s.ports p).portIndex = 0
  | .iface _ => True

theorem tcDevices_of_rewires {P : ChainEnd → Walk → Prop} (h : Rewires c P s s')
    (hP : ∀ e, ¬ P (.iface e) .egress) (tc : TcDevices s) : TcDevices s' := fun e ht => by
  rw [h.index e (hP e)]
  exact tc e ((type_of_shape h.shape e).symm.trans ht)

theorem not_atIface (p : PortRef) : ¬ AtIface s e (.port p) .ingress := by
  rintro (h | ⟨q, -, -, h⟩)
  · cases h
  · cases h

theorem Relinked.ok (relinked : Relinked c e s s') : IfaceOk c s' e := by
  have shape := relinked.rewires.shape
  have type := type_of_shape shape e
  refine ⟨?_, relinked.tc, fun ht => relinked.xdp (type.symm.trans ht), fun p hp => ?_⟩
  · have same : s'.ingressEnd e = s.ingressEnd e := by
      unfold ingressEnd
      rw [ifacePeer_of_shape shape]
      cases (s.ifaces e).peer with
      | none => rfl
      | some p => exact relinked.rewires.portIndex (not_atIface p)
    rw [same]
    exact relinked.ingress
  · rw [egressParent_of_shape shape] at hp
    rw [type]
    exact relinked.parent p hp

theorem Relinked.tcDevices (relinked : Relinked c e s s') (tc : TcDevices s) : TcDevices s' := by
  have shape := relinked.rewires.shape
  intro i ht
  have was : (s.ifaces i).type = .tc := (type_of_shape shape i).symm.trans ht
  by_cases hi : i = e
  · subst hi
    rw [relinked.index was]
    exact tc i was
  · rw [relinked.rewires.index i]
    · exact tc i was
    · rintro (h | ⟨_, -, h, -⟩)
      · exact hi (ChainEnd.iface.inj h)
      · cases h

theorem TcDevices.setPeer (tc : TcDevices s) (o : Option PortRef) :
    TcDevices (s.setIface e fun t => { t with peer := o }) := by
  intro i
  rw [ifaces_setIface]
  split_ifs with h
  · exact tc e
  · exact tc i

/-- An end of a wired state is linked anew: it gets complete chains, its peer keeps them, and the
others are not touched. -/
theorem relink_ok (wired : Wired c s) (x : ChainEnd) (tells : Tells c s x)
    (ok : ∀ y, y ≠ x → s.Used y → Ok c s y) (tc : TcDevices s) :
    ∃ s', s.updateIndexes c x = some s' ∧ s'.shape = s.shape ∧
      (∀ y, y = x ∨ s.Used y → Ok c s' y) ∧ TcDevices s' ∧ (Agree s → Agree s') := by
  cases x with
  | port p =>
    have last : ∀ e, (s.ports p).peer = some (.iface e) → LastIngress c (s.ifaces e).cubes := by
      intro e he
      simpa [Tells, he] using tells
    have noself : (s.ports p).peer ≠ some (.port p) := wired.irrefl (.port p)
    obtain ⟨s', hs', rewires, ingress, start, -, egress, tagged, told⟩ :=
      updateIndexesPort_spec (c := c) wired.apart noself last
    have link := linkOf_of_shape rewires.shape
    -- the end itself
    have own : PortOk c s' p := by
      refine ⟨ingress, egress (peerHop_ne (fun q hq => ?_) fun e he => ?_), tagged⟩
      · rw [link] at hq
        have hqp : ChainEnd.port q ≠ .port p := fun h => noself (h ▸ hq)
        rw [rewires.portIndex]
        · exact PortOk.portIndex_ne (ok _ hqp (Used.of_link (wired.symm _ _ hq)))
        · rintro (h | ⟨-, h⟩)
          · exact hqp h
          · cases h
      · rw [link] at he
        exact wired.fits e (Sends.of_link (wired.symm _ _ he))
    have index : s'.getIndex (.port p) = c.calculateIndex p (s.ports p).cubes := start
    refine ⟨s', hs', rewires.shape, fun y hy => ?_, ?_, rewires.agree⟩
    · by_cases hyp : y = .port p
      · subst hyp
        exact own
      have used : s.Used y := hy.resolve_left hyp
      by_cases hpeer : (s.ports p).peer = some y
      · -- the peer: what leads to the end is sent to where its chain starts
        have back := wired.symm _ _ (show s.linkOf (.port p) = some y from hpeer)
        obtain ⟨toldAlong, toldTagged⟩ := told y hpeer
        cases y with
        | port q =>
          have okq : PortOk c s q := ok _ hyp used
          have not_in : ¬ AtPort s p (.port q) .ingress := by
            rintro (h | ⟨-, h⟩)
            · exact hyp h
            · cases h
          refine ⟨(rewires.along_iff not_in _).2 okq.ingress, ?_, toldTagged q rfl okq.tagged⟩
          have hop : s'.peerHop c q = hopTo c (.port p) (c.calculateIndex p (s.ports p).cubes) := by
            rw [peerHop_eq, link, back]
            dsimp only
            rw [index]
          have before : s.peerHop c q = hopTo c (.port p) (s.ports p).portIndex := by
            rw [peerHop_eq, back]
            rfl
          have along := toldAlong _ okq.egress
          rw [hop, hopTo_of_ne (calculateIndex_ne_ffff _ _ _)]
          unfold toldEnd at along
          dsimp only at along
          split_ifs at along with hzero
          · have old : (s.ports p).portIndex = 0 := by
              have := tells
              simp only [Tells, hpeer] at this
              exact this.resolve_left fun h => h hzero
            rw [before, hopTo_of_ne (by rw [old]; decide), old] at along
            rw [hzero]
            exact along
          · exact along
        | iface e =>
          have oke : IfaceOk c s e := ok _ hyp used
          have not_out : ∀ w, w.type = .egress → ¬ AtPort s p (.iface e) w := by
            rintro w hw (h | ⟨-, h⟩)
            · cases h
            · rw [hw] at h
              cases h
          have type := type_of_shape rewires.shape e
          refine ⟨?_, (rewires.along_iff (not_out _ rfl) _).2 oke.tc, fun ht => ?_, fun r hr => ?_⟩
          · rw [ingressEnd_eq, link, back]
            dsimp only
            rw [index]
            exact toldAlong _ oke.ingress
          · exact (rewires.along_iff (not_out _ rfl) _).2 (oke.xdp (type.symm.trans ht))
          · rw [egressParent_of_shape rewires.shape] at hr
            rw [rewires.next e (not_out _ rfl), rewires.index e (not_out _ rfl), type]
            exact oke.parent r hr
      · -- any other end
        refine Ok.of_sameAt (rewires.sameAt (fun w => ?_) fun z hz => ?_) (ok y hyp used)
        · rintro (h | ⟨h, -⟩)
          · exact hyp h
          · exact hpeer h
        · rintro (rfl | ⟨-, h⟩)
          · exact hpeer (wired.symm _ _ hz)
          · cases z <;> cases h
    · refine tcDevices_of_rewires rewires (fun e => ?_) tc
      rintro (h | ⟨-, h⟩)
      · cases h
      · cases h
  | iface e =>
    have ready := wired.ready e
    obtain ⟨s', hs', relinked⟩ := updateIndexesIface_spec ready
    have rewires := relinked.rewires
    have link := linkOf_of_shape rewires.shape
    refine ⟨s', hs', rewires.shape, fun y hy => ?_, relinked.tcDevices tc, rewires.agree⟩
    · by_cases hye : y = .iface e
      · subst hye
        exact relinked.ok
      have used : s.Used y := hy.resolve_left hye
      by_cases hpeer : s.linkOf (.iface e) = some y
      · -- the peer
        cases y with
        | iface i =>
          have : (s.ifaces e).peer.map ChainEnd.port = some (.iface i) := hpeer
          obtain ⟨p, -, h⟩ := Option.map_eq_some_iff.1 this
          cases h
        | port p =>
          have okp : PortOk c s p := ok _ hye used
          have peer : (s.ifaces e).peer = some p := by
            obtain ⟨q, hq, h⟩ := Option.map_eq_some_iff.1 hpeer
            rw [hq, ChainEnd.port.inj h]
          exact ⟨(rewires.along_iff (not_atIface p) _).2 okp.ingress, relinked.told p peer okp.egress,
            relinked.tagged p peer okp.tagged⟩
      · refine Ok.of_sameAt (rewires.sameAt (fun w => ?_) fun z hz => ?_) (ok y hye used)
        · rintro (h | ⟨p, hp, rfl, -⟩)
          · exact hye h
          · exact hpeer (congrArg (Option.map ChainEnd.port) hp)
        · rintro (rfl | ⟨p, -, rfl, h⟩)
          · exact hpeer (wired.symm _ _ hz)
          · cases h

end Relink

/-! ### Links taken down and made -/

section Links

/-- Only links differ; `links` are the new ones. -/
structure Relinks (s s' : Chains) (links : ChainEnd → Option ChainEnd) : Prop where
  cubes : s'.cubesOf = s.cubesOf
  parent : ∀ cube, (s'.cubes cube).parent = (s.cubes cube).parent
  type : ∀ e, (s'.ifaces e).type = (s.ifaces e).type
  known : ∀ e, (s'.ifaces e).known = (s.ifaces e).known
  link : s'.linkOf = links

theorem Relinks.of_shape (h : s'.shape = s.shape) : Relinks s s' s.linkOf :=
  ⟨cubesOf_of_shape h, congrFun (congrArg Shape.parent h), type_of_shape h,
    congrFun (congrArg Shape.known h), funext (linkOf_of_shape h)⟩

theorem Relinks.trans {l l' : ChainEnd → Option ChainEnd} (h : Relinks s s' l)
    (h' : Relinks s' s'' l') : Relinks s s'' l' :=
  ⟨h'.cubes.trans h.cubes, fun cube => (h'.parent cube).trans (h.parent cube),
    fun e => (h'.type e).trans (h.type e), fun e => (h'.known e).trans (h.known e), h'.link⟩

theorem relinks_setPort (z : Option ChainEnd) :
    Relinks s (s.setPort p fun t => { t with peer := z }) (update s.linkOf (.port p) z) := by
  refine ⟨?_, fun _ => rfl, fun _ => rfl, fun _ => rfl, ?_⟩
  · funext x
    cases x with
    | port q =>
      simp only [cubesOf, ports_setPort]
      split_ifs with h
      · rw [h]
      · rfl
    | iface e => rfl
  · funext x
    cases x with
    | port q =>
      simp only [linkOf, ports_setPort, update_apply, ChainEnd.port.injEq]
      split_ifs <;> rfl
    | iface e => rfl

theorem relinks_setIface (z : Option PortRef) :
    Relinks s (s.setIface e fun t => { t with peer := z })
      (update s.linkOf (.iface e) (z.map .port)) := by
  have fields : ∀ i, ((s.setIface e fun t => { t with peer := z }).ifaces i).cubes =
      (s.ifaces i).cubes ∧
      ((s.setIface e fun t => { t with peer := z }).ifaces i).type = (s.ifaces i).type ∧
      ((s.setIface e fun t => { t with peer := z }).ifaces i).known = (s.ifaces i).known := by
    intro i
    rw [ifaces_setIface]
    split_ifs with h
    · rw [h]
      exact ⟨rfl, rfl, rfl⟩
    · exact ⟨rfl, rfl, rfl⟩
  refine ⟨?_, fun _ => rfl, fun i => (fields i).2.1, fun i => (fields i).2.2, ?_⟩
  · funext x
    cases x with
    | port q => rfl
    | iface i => exact (fields i).1
  · funext x
    cases x with
    | port q => rfl
    | iface i =>
      simp only [linkOf, ifaces_setIface, update_apply, ChainEnd.iface.injEq]
      split_ifs <;> rfl

theorem Relinks.apart {l : ChainEnd → Option ChainEnd} (h : Relinks s s' l) (apart : s.Apart) :
    s'.Apart := by
  refine ⟨?_, ?_⟩ <;> rw [h.cubes]
  exacts [apart.nodup, apart.unique]

theorem Relinks.typeOf {l : ChainEnd → Option ChainEnd} (h : Relinks s s' l) (x : ChainEnd) :
    s'.typeOf c x = s.typeOf c x := by
  cases x with
  | port p => rfl
  | iface e => exact h.type e

theorem relink_unlinked (apart : s.Apart) (p : PortRef) (hl : s.linkOf (.port p) = none) :
    ∃ s', s.updateIndexesPort c p = some s' ∧ Rewires c (fun y _ => y = .port p) s s' ∧
      PortOk c s' p := by
  have peer : (s.ports p).peer = none := hl
  obtain ⟨s', hs', rewires, ingress, -, -, egress, tagged, -⟩ :=
    updateIndexesPort_spec (c := c) (p := p) apart (by rw [peer]; exact fun h => by cases h)
      fun e he => by
        rw [peer] at he
        cases he
  refine ⟨s', hs', rewires.mono fun y w h => ?_, ingress, egress ?_, tagged⟩
  · rcases h with h | ⟨h, -⟩
    · exact h
    · rw [peer] at h
      cases h
  · rw [peerHop_eq, linkOf_of_shape rewires.shape, hl]
    exact program_ne _

theorem unconnect_ok (wired : Wired c s) (hl : s.linkOf (.port p) = some y)
    (ok : ∀ z, s.Used z → Ok c s z) (tc : TcDevices s) :
    ∃ s', s.unconnect c p y = some s' ∧
      Relinks s s' (update (update s.linkOf (.port p) none) y none) ∧
      (∀ z, z ≠ .port p → z ≠ y → SameAt c s s' z) ∧ (∀ z, s.Used z → Ok c s' z) ∧
      TcDevices s' ∧ (Agree s → Agree s') := by
  have hyp : y ≠ .port p := fun h => wired.irrefl _ (h ▸ hl)
  have relinks₀ := relinks_setPort (s := s) (p := p) none
  -- the port
  obtain ⟨s₁, hs₁, rewires₁, okp⟩ := relink_unlinked (c := c) (relinks₀.apart wired.apart) p
    (by rw [relinks₀.link, update_self])
  have relinks₁ := relinks₀.trans (Relinks.of_shape rewires₁.shape)
  have link₁ : s₁.linkOf = update s.linkOf (.port p) none := relinks₁.link.trans relinks₀.link
  have relinks₁' : Relinks s s₁ (update s.linkOf (.port p) none) :=
    { relinks₁ with link := link₁ }
  have others₁ : ∀ z, z ≠ .port p → z ≠ y → SameAt c s s₁ z := fun z hzp hzy => by
    refine (sameAt_setPort (f := fun t => { t with peer := none }) (fun _ => ⟨rfl, rfl, rfl⟩)
      hzp).trans (rewires₁.sameAt (fun _ => hzp) fun v hv => ?_)
    rw [relinks₀.link, update_of_ne hzp] at hv
    rintro rfl
    exact hzy (Option.some.inj ((wired.symm _ _ hv).symm.trans hl))
  have tc₁ : TcDevices s₁ := tcDevices_of_rewires rewires₁ (fun e h => by cases h) tc
  unfold unconnect setPeerOfPort
  simp only [updateIndexes]
  rw [hs₁, Option.bind_some]
  cases y with
  | port q =>
    have relinks₂ := relinks_setPort (s := s₁) (p := q) none
    obtain ⟨s₃, hs₃, rewires₃, okq⟩ := relink_unlinked (c := c)
      (relinks₂.apart (relinks₁'.apart wired.apart)) q (by rw [relinks₂.link, update_self])
    have others₃ : ∀ z, z ≠ .port q → s₁.linkOf z ≠ some (.port q) → SameAt c s₁ s₃ z :=
      fun z hzq hl => by
        refine (sameAt_setPort (f := fun t => { t with peer := none }) (fun _ => ⟨rfl, rfl, rfl⟩)
          hzq).trans (rewires₃.sameAt (fun _ => hzq) fun v hv => ?_)
        rw [relinks₂.link, update_of_ne hzq] at hv
        rintro rfl
        exact hl hv
    have others : ∀ z, z ≠ .port p → z ≠ .port q → SameAt c s s₃ z := fun z hzp hzq =>
      (others₁ z hzp hzq).trans (others₃ z hzq (by
        rw [link₁, update_of_ne hzp]
        exact fun h => hzp (Option.some.inj
          ((wired.symm _ _ h).symm.trans (wired.symm _ _ hl)))))
    refine ⟨s₃, hs₃, ?_, others, fun z hz => ?_, ?_, fun h => rewires₃.agree (rewires₁.agree h)⟩
    · have := (relinks₁'.trans relinks₂).trans (Relinks.of_shape rewires₃.shape)
      rwa [relinks₂.link, link₁] at this
    · by_cases hzq : z = .port q
      · subst hzq
        exact okq
      by_cases hzp : z = .port p
      · subst hzp
        refine Ok.of_sameAt (others₃ _ hzq ?_) okp
        rw [link₁, update_self]
        exact fun h => by cases h
      exact Ok.of_sameAt (others z hzp hzq) (ok z hz)
    · exact tcDevices_of_rewires rewires₃ (fun e h => by cases h) tc₁
  | iface e =>
    have relinks₂ := relinks_setIface (s := s₁) (e := e) none
    have peer₂ : ((s₁.setIface e fun t => { t with peer := none }).ifaces e).peer = none := by
      rw [ifaces_setIface, if_pos rfl]
    have ready : Ready c (s₁.setIface e fun t => { t with peer := none }) e := by
      have relinks := relinks₁'.trans relinks₂
      refine ⟨relinks.apart wired.apart, fun ht cube hc => ?_, ?_, ?_, ?_, ?_⟩
      · have := wired.types (.iface e) cube (by rwa [← relinks.cubes])
        exact this.trans ((relinks.type e).symm.trans ht)
      · exact fun p hp => absurd (peer₂.symm.trans hp) (Option.some_ne_none p).symm
      · exact fun p e' hp => absurd (peer₂.symm.trans hp) (Option.some_ne_none p).symm
      · exact fun p hp => absurd (peer₂.symm.trans hp) (Option.some_ne_none p).symm
      · exact fun p hp => absurd (peer₂.symm.trans hp) (Option.some_ne_none p).symm
    obtain ⟨s₃, hs₃, relinked⟩ := updateIndexesIface_spec ready
    have rewires₃ : Rewires c (fun y _ => y = .iface e) _ s₃ := relinked.rewires.mono
      fun y w h => by
        rcases h with h | ⟨p, hp, -⟩
        · exact h
        · rw [peer₂] at hp
          cases hp
    have others₃ : ∀ z, z ≠ .iface e → s₁.linkOf z ≠ some (.iface e) → SameAt c s₁ s₃ z :=
      fun z hze hl => by
        refine (sameAt_setIface (f := fun t => { t with peer := none }) hze
          fun h => absurd h hl).trans (rewires₃.sameAt (fun _ => hze) fun v hv => ?_)
        rw [relinks₂.link, update_of_ne hze] at hv
        rintro rfl
        exact hl hv
    have others : ∀ z, z ≠ .port p → z ≠ .iface e → SameAt c s s₃ z := fun z hzp hze =>
      (others₁ z hzp hze).trans (others₃ z hze (by
        rw [link₁, update_of_ne hzp]
        exact fun h => hzp (Option.some.inj
          ((wired.symm _ _ h).symm.trans (wired.symm _ _ hl)))))
    refine ⟨s₃, hs₃, ?_, others, fun z hz => ?_, relinked.tcDevices (tc₁.setPeer _),
      fun h => rewires₃.agree (rewires₁.agree h)⟩
    · have := (relinks₁'.trans relinks₂).trans (Relinks.of_shape rewires₃.shape)
      rwa [relinks₂.link, link₁] at this
    · by_cases hze : z = .iface e
      · subst hze
        exact relinked.ok
      by_cases hzp : z = .port p
      · subst hzp
        refine Ok.of_sameAt (others₃ _ hze ?_) okp
        rw [link₁, update_self]
        exact fun h => by cases h
      exact Ok.of_sameAt (others z hzp hze) (ok z hz)

/-- What the other end of a new link has to be like: an interface whose loop finds a program and
whose device 16 bits tell, or a port whose entry program is not lost. -/
def Takes (c : Programs) (s : Chains) : ChainEnd → Prop
  | .iface e => LastIngress c (s.ifaces e).cubes ∧ c.Fits e
  | .port q => c.calculateIndex q (s.ports q).cubes ≠ 0 ∨ (s.ports q).portIndex = 0

theorem PortOk.takes (ok : PortOk c s p) : Takes c s (.port p) := by
  unfold Takes
  dsimp only
  rw [ok.portIndex_eq]
  exact em' _

theorem inward_type_ne (x : ChainEnd) : x.inward.type ≠ x.outward.type := by
  cases x <;> exact fun h => by cases h

/-- The first half of a connection: the chains of the port are linked to a peer that does not know
of it yet. -/
theorem setPeerOfPort_ok (wired : Wired c s) (hp : s.linkOf (.port p) = none)
    (hy : s.linkOf y = none) (hyp : y ≠ .port p)
    (last : ∀ e, y = .iface e → LastIngress c (s.ifaces e).cubes) :
    ∃ s', s.setPeerOfPort c p (some y) = some s' ∧
      Relinks s s' (update s.linkOf (.port p) (some y)) ∧
      (∀ z, z ≠ .port p → z ≠ y → SameAt c s s' z) ∧ s'.getIndex y = s.getIndex y ∧
      s'.Along c (.port p) .ingress ⟨c.index p.cube .ingress, false⟩ ∧
      (s'.ports p).portIndex = c.calculateIndex p (s.ports p).cubes ∧
      (∃ a, s'.Along c (.port p) .egress a) ∧
      (s'.peerHop c p ≠ ⟨0, true⟩ → s'.Along c (.port p) .egress (s'.peerHop c p)) ∧
      s'.Tagged p ∧ (TcDevices s → TcDevices s') ∧ (Agree s → Agree s') := by
  have relinks₀ := relinks_setPort (s := s) (p := p) (some y)
  have peer₀ : ((s.setPort p fun t => { t with peer := some y }).ports p).peer = some y := by
    rw [ports_setPort, if_pos rfl]
  have index₀ : ∀ z, (s.setPort p fun t => { t with peer := some y }).getIndex z = s.getIndex z := by
    intro z
    cases z with
    | port q =>
      simp only [getIndex, ports_setPort]
      split_ifs with h
      · rw [h]
      · rfl
    | iface e => rfl
  obtain ⟨s₁, hs₁, rewires₁, ingress, start, along, egress, tagged, -⟩ :=
    updateIndexesPort_spec (c := c) (p := p) (relinks₀.apart wired.apart)
      (by rw [peer₀]; exact fun h => hyp (Option.some.inj h))
      (fun e he => last e (Option.some.inj (peer₀.symm.trans he)))
  have cubes₀ : ((s.setPort p fun t => { t with peer := some y }).ports p).cubes =
      (s.ports p).cubes := congrFun relinks₀.cubes (.port p)
  rw [cubes₀] at start
  have at_own : ∀ z w, z ≠ .port p → z ≠ y →
      ¬ AtPort (s.setPort p fun t => { t with peer := some y }) p z w := by
    rintro z w hzp hzy (h | ⟨h, -⟩)
    · exact hzp h
    · exact hzy (Option.some.inj (h.symm.trans peer₀))
  have at_inward : ∀ z, z ≠ .port p →
      ¬ AtPort (s.setPort p fun t => { t with peer := some y }) p z z.inward := by
    rintro z hzp (h | ⟨-, h⟩)
    · exact hzp h
    · exact inward_type_ne z h
  refine ⟨s₁, hs₁, ?_, fun z hzp hzy => ?_, ?_, ingress, start, along, egress, tagged, fun tc => ?_,
    fun h => rewires₁.agree h⟩
  · have := relinks₀.trans (Relinks.of_shape rewires₁.shape)
    rwa [relinks₀.link] at this
  · refine (sameAt_setPort (f := fun t => { t with peer := some y }) (fun _ => ⟨rfl, rfl, rfl⟩)
      hzp).trans (rewires₁.sameAt (fun w => at_own z w hzp hzy) fun v hv => at_inward v ?_)
    rw [relinks₀.link, update_of_ne hzp] at hv
    rintro rfl
    rw [wired.symm _ _ hv] at hp
    cases hp
  · rw [getIndex_of_rewires rewires₁ (fun q hq => ?_) (fun e he => ?_), index₀]
    · subst hq
      exact at_inward _ hyp
    · subst he
      exact at_inward _ hyp
  · refine tcDevices_of_rewires rewires₁ (fun e => ?_) tc
    rintro (h | ⟨-, h⟩)
    · cases h
    · cases h

theorem connect_ok (wired : Wired c s) (hp : s.linkOf (.port p) = none) (hy : s.linkOf y = none)
    (hyp : y ≠ .port p) (htype : s.typeOf c y = c.type p.cube) (takes : Takes c s y)
    (ok : ∀ z, s.Used z → Ok c s z) (tc : TcDevices s) :
    ∃ s', s.connect c p y = some s' ∧
      Relinks s s' (update (update s.linkOf (.port p) (some y)) y
        (some (.port p))) ∧
      (∀ z, z ≠ .port p → z ≠ y → SameAt c s s' z) ∧
      (∀ z, z = .port p ∨ z = y ∨ s.Used z → Ok c s' z) ∧ TcDevices s' ∧
      (Agree s → Agree s') := by
  obtain ⟨s₁, hs₁, relinks₁, others₁, index₁, ingress₁, start₁, along₁, egress₁, tagged₁, tcs₁,
    agree₁⟩ := setPeerOfPort_ok wired hp hy hyp
      (fun e he => by
        subst he
        exact takes.1)
  have free : ∀ z, s.linkOf z ≠ some y ∧ s.linkOf z ≠ some (.port p) := fun z =>
    ⟨fun h => Option.some_ne_none _ ((wired.symm _ _ h).symm.trans hy),
      fun h => Option.some_ne_none _ ((wired.symm _ _ h).symm.trans hp)⟩
  have link₁ : s₁.linkOf (.port p) = some y := by rw [relinks₁.link, update_self]
  unfold connect
  rw [hs₁, Option.bind_some]
  cases y with
  | port q =>
    have hqp : q ≠ p := fun h => hyp (congrArg _ h)
    have relinks₂ := relinks_setPort (s := s₁) (p := q) (some (.port p))
    have peer₂ : ((s₁.setPort q fun t => { t with peer := some (.port p) }).ports q).peer =
        some (.port p) := by
      rw [ports_setPort, if_pos rfl]
    obtain ⟨s₃, hs₃, rewires₃, ingress₃, start₃, -, egress₃, tagged₃, told₃⟩ :=
      updateIndexesPort_spec (c := c) (p := q) (relinks₂.apart (relinks₁.apart wired.apart))
        (by rw [peer₂]; exact fun h => hyp (Option.some.inj h).symm)
        (fun e he => by rw [peer₂] at he; cases he)
    obtain ⟨toldAlong, toldTagged⟩ := told₃ (.port p) peer₂
    have same₂ : ∀ z, z ≠ .port q →
        SameAt c s₁ (s₁.setPort q fun t => { t with peer := some (.port p) }) z := fun z hz =>
      sameAt_setPort (f := fun t => { t with peer := some (.port p) }) (fun _ => ⟨rfl, rfl, rfl⟩) hz
    have cubes₂ : ((s₁.setPort q fun t => { t with peer := some (.port p) }).ports q).cubes =
        (s.ports q).cubes := congrFun (relinks₂.cubes.trans relinks₁.cubes) (.port q)
    rw [cubes₂] at start₃ toldAlong
    have link₃ := linkOf_of_shape rewires₃.shape
    have at_inward : ∀ z, z ≠ .port q →
        ¬ AtPort (s₁.setPort q fun t => { t with peer := some (.port p) }) q z z.inward := by
      rintro z hz (h | ⟨-, h⟩)
      · exact hz h
      · exact inward_type_ne z h
    have linkp₃ : s₃.linkOf (.port p) = some (.port q) := by
      rw [link₃, relinks₂.link, update_of_ne (Ne.symm hyp), link₁]
    have hopp₃ : s₃.peerHop c p = ⟨c.calculateIndex q (s.ports q).cubes, false⟩ := by
      rw [peerHop_eq, linkp₃]
      dsimp only [getIndex]
      rw [start₃, hopTo_of_ne (calculateIndex_ne_ffff _ _ _)]
    have portIndex₃ : (s₃.ports p).portIndex = c.calculateIndex p (s.ports p).cubes := by
      rw [rewires₃.portIndex (at_inward (.port p) (Ne.symm hyp)), ports_setPort,
        if_neg (Ne.symm hqp)]
      exact start₁
    have others : ∀ z, z ≠ .port p → z ≠ .port q → SameAt c s s₃ z := fun z hzp hzq => by
      refine (others₁ z hzp hzq).trans ((same₂ z hzq).trans
        (rewires₃.sameAt (fun w => ?_) fun v hv => at_inward v ?_))
      · rintro (h | ⟨h, -⟩)
        · exact hzq h
        · exact hzp (Option.some.inj (h.symm.trans peer₂))
      · rw [relinks₂.link, update_of_ne hzq, relinks₁.link,
          update_of_ne hzp] at hv
        rintro rfl
        exact (free z).1 hv
    refine ⟨s₃, hs₃, ?_, others, fun z hz => ?_, ?_, fun h => rewires₃.agree (agree₁ h)⟩
    · have := (relinks₁.trans relinks₂).trans (Relinks.of_shape rewires₃.shape)
      rwa [relinks₂.link, relinks₁.link] at this
    · by_cases hzq : z = .port q
      · subst hzq
        refine ⟨ingress₃, egress₃ (peerHop_ne (fun r hr => ?_) fun e he => ?_), tagged₃⟩
        · rw [link₃, relinks₂.link, update_self] at hr
          obtain rfl := ChainEnd.port.inj (Option.some.inj hr)
          rw [portIndex₃]
          exact calculateIndex_ne_ffff _ _ _
        · rw [link₃, relinks₂.link, update_self] at he
          cases he
      by_cases hzp : z = .port p
      · subst hzp
        refine ⟨(rewires₃.along_iff (at_inward (.port p) (Ne.symm hyp)) _).2
          (((same₂ _ (Ne.symm hyp)).along_iff _ _).2 ingress₁), ?_, toldTagged p rfl ?_⟩
        · rw [hopp₃]
          by_cases hzero : c.calculateIndex q (s.ports q).cubes = 0
          · -- the port kept what it knew of its peer, which was the same
            have old : s₁.peerHop c p = ⟨0, false⟩ := by
              rw [peerHop_eq, link₁]
              dsimp only
              rw [index₁, show s.getIndex (.port q) = 0 from takes.resolve_left fun h => h hzero]
              exact hopTo_of_ne (by decide)
            have along := egress₁ (by rw [old]; exact program_ne _)
            rw [old] at along
            have := toldAlong _ (((same₂ _ (Ne.symm hyp)).along_iff _ _).2 along)
            rw [toldEnd, if_pos hzero] at this
            rwa [hzero]
          · obtain ⟨a, along⟩ := along₁
            have := toldAlong a (((same₂ _ (Ne.symm hyp)).along_iff _ _).2 along)
            rwa [toldEnd, if_neg hzero] at this
        · intro entry he
          have id : (s₁.setPort q fun t => { t with peer := some (.port p) }).idBehind p =
              s₁.idBehind p := by
            unfold idBehind
            rw [ports_setPort, if_neg (Ne.symm hqp)]
          rw [id]
          exact tagged₁ entry he
      have used : s.Used z := by
        rcases hz with h | h | h
        · exact absurd h hzp
        · exact absurd h hzq
        · exact h
      exact Ok.of_sameAt (others z hzp hzq) (ok z used)
    · refine tcDevices_of_rewires rewires₃ (fun e => ?_) (tcs₁ tc)
      rintro (h | ⟨-, h⟩)
      · cases h
      · cases h
  | iface e =>
    have relinks₂ := relinks_setIface (s := s₁) (e := e) (some p)
    have peer₂ : ((s₁.setIface e fun t => { t with peer := some p }).ifaces e).peer = some p := by
      rw [ifaces_setIface, if_pos rfl]
    have relinks := relinks₁.trans relinks₂
    have ready : Ready c (s₁.setIface e fun t => { t with peer := some p }) e := by
      refine ⟨relinks.apart wired.apart, fun ht cube hc => ?_, fun r hr => ?_, fun r i hr hi => ?_,
        fun r hr => ?_, fun r _ => portId_ne_of_fits takes.2⟩
      · have := wired.types (.iface e) cube (by rwa [← relinks.cubes])
        exact this.trans ((relinks.type e).symm.trans ht)
      · obtain rfl := Option.some.inj (peer₂.symm.trans hr)
        exact htype.symm.trans (relinks.type e).symm
      · obtain rfl := Option.some.inj (peer₂.symm.trans hr)
        by_contra hie
        have : (s₁.setIface e fun t => { t with peer := some p }).linkOf (.iface i) =
            some (.port p) := congrArg (Option.map ChainEnd.port) hi
        rw [relinks₂.link, update_of_ne fun h => hie (ChainEnd.iface.inj h),
          relinks₁.link, update_of_ne fun h => by cases h] at this
        exact (free _).2 this
      · obtain rfl := Option.some.inj (peer₂.symm.trans hr)
        exact link₁
    obtain ⟨s₃, hs₃, relinked⟩ := updateIndexesIface_spec ready
    have rewires₃ := relinked.rewires
    have same₂ : ∀ z, z ≠ .iface e →
        SameAt c s₁ (s₁.setIface e fun t => { t with peer := some p }) z := fun z hz =>
      sameAt_setIface (f := fun t => { t with peer := some p }) hz fun _ => rfl
    have link₃ := linkOf_of_shape rewires₃.shape
    have others : ∀ z, z ≠ .port p → z ≠ .iface e → SameAt c s s₃ z := fun z hzp hze => by
      refine (others₁ z hzp hze).trans ((same₂ z hze).trans
        (rewires₃.sameAt (fun w => ?_) fun v hv => ?_))
      · rintro (h | ⟨r, hr, h, -⟩)
        · exact hze h
        · obtain rfl := Option.some.inj (peer₂.symm.trans hr)
          exact hzp h
      · rw [relinks₂.link, update_of_ne hze, relinks₁.link,
          update_of_ne hzp] at hv
        rintro (rfl | ⟨r, -, rfl, h⟩)
        · exact (free z).1 hv
        · cases h
    refine ⟨s₃, hs₃, ?_, others, fun z hz => ?_, relinked.tcDevices ((tcs₁ tc).setPeer _),
      fun h => rewires₃.agree (agree₁ h)⟩
    · have := relinks.trans (Relinks.of_shape rewires₃.shape)
      rwa [relinks₂.link, relinks₁.link] at this
    · by_cases hze : z = .iface e
      · subst hze
        exact relinked.ok
      by_cases hzp : z = .port p
      · subst hzp
        have hop₂ : (s₁.setIface e fun t => { t with peer := some p }).peerHop c p =
            s₁.peerHop c p := by
          rw [peerHop_eq, peerHop_eq, (same₂ _ hze).link]
          cases hl : s₁.linkOf (.port p) with
          | none => rfl
          | some v =>
            dsimp only
            rw [(same₂ _ hze).index v hl]
        have real : s₁.peerHop c p ≠ ⟨0, true⟩ := by
          rw [peerHop_eq, link₁]
          dsimp only
          unfold hopTo
          split_ifs
          · exact fun h => portId_ne_of_fits takes.2 (congrArg Hop.next h)
          · exact program_ne _
        refine ⟨(rewires₃.along_iff (not_atIface p) _).2 (((same₂ _ hze).along_iff _ _).2 ingress₁),
          relinked.told p peer₂ ?_, relinked.tagged p peer₂ fun entry he => ?_⟩
        · rw [hop₂]
          exact ((same₂ _ hze).along_iff _ _).2 (egress₁ real)
        · exact tagged₁ entry he
      have used : s.Used z := by
        rcases hz with h | h | h
        · exact absurd h hzp
        · exact absurd h hze
        · exact h
      exact Ok.of_sameAt (others z hzp hze) (ok z used)

end Links

end Chains

end Polycube.Polycubed
