import Polycube.Polycubed.Walks

/-!
# What linking changes

`Rewires` says which walks a change of links may touch; all others are the same walks.  Each
operation that links gets one lemma: when it is defined, what it touches, and where the walks it
links lead.
-/

namespace Polycube.Polycubed

open Function Lib

namespace Chains

variable {c : Programs} {s s' s'' : Chains} {x y : ChainEnd} {w : Walk} {p : PortRef}
  {e cube : String} {i : Index}

structure Apart (s : Chains) : Prop where
  nodup : ∀ x, (s.cubesOf x).Nodup
  unique : ∀ x y cube, cube ∈ s.cubesOf x → cube ∈ s.cubesOf y → x = y

theorem cubesOf_of_shape (h : s'.shape = s.shape) : s'.cubesOf = s.cubesOf :=
  congrArg Shape.cubesOf h

theorem peer_of_shape (h : s'.shape = s.shape) (p : PortRef) :
    (s'.ports p).peer = (s.ports p).peer :=
  congrFun (congrArg Shape.peer h) p

theorem ifacePeer_of_shape (h : s'.shape = s.shape) (e : String) :
    (s'.ifaces e).peer = (s.ifaces e).peer :=
  congrFun (congrArg Shape.ifacePeer h) e

theorem egressParent_of_shape (h : s'.shape = s.shape) (e : String) :
    s'.egressParent c e = s.egressParent c e := by
  unfold egressParent
  rw [ifacePeer_of_shape h]

theorem Apart.of_shape (apart : s.Apart) (h : s'.shape = s.shape) : s'.Apart := by
  refine ⟨?_, ?_⟩ <;> rw [cubesOf_of_shape h]
  exacts [apart.nodup, apart.unique]

def Agree (s : Chains) : Prop := ∀ cube n, s.peers cube n = (s.forwardChain cube).get n ∧
  ∀ entry, s.peers cube n = some entry → entry.info ≠ 0

/-- Walks other than those of `P` are the same in both states. -/
structure Rewires (c : Programs) (P : ChainEnd → Walk → Prop) (s s' : Chains) : Prop where
  shape : s'.shape = s.shape
  others : ∀ y w, ¬ P y w → SameWay c s s' y w
  index : ∀ e, ¬ P (.iface e) .egress → (s'.ifaces e).index = (s.ifaces e).index
  next : ∀ e, ¬ P (.iface e) .egressTc → (s'.ifaces e).egressNext = (s.ifaces e).egressNext
  entry : ∀ p, ¬ P (.port p) .egress →
    s'.peers p.cube p.id.toNat = s.peers p.cube p.id.toNat
  agree : Agree s → Agree s'

namespace Rewires

variable {P Q : ChainEnd → Walk → Prop}

theorem refl (s : Chains) : Rewires c P s s :=
  ⟨rfl, fun y w _ => SameWay.refl s y w, fun _ _ => rfl, fun _ _ => rfl, fun _ _ => rfl, id⟩

theorem trans (h : Rewires c P s s') (h' : Rewires c P s' s'') : Rewires c P s s'' where
  shape := h'.shape.trans h.shape
  others y w hP := (h.others y w hP).trans h.shape (h'.others y w hP)
  index e hP := (h'.index e hP).trans (h.index e hP)
  next e hP := (h'.next e hP).trans (h.next e hP)
  entry p hP := (h'.entry p hP).trans (h.entry p hP)
  agree := h'.agree ∘ h.agree

theorem mono (h : Rewires c P s s') (sub : ∀ y w, P y w → Q y w) : Rewires c Q s s' where
  shape := h.shape
  others y w hQ := h.others y w fun hP => hQ (sub y w hP)
  index e hQ := h.index e fun hP => hQ (sub _ _ hP)
  next e hQ := h.next e fun hP => hQ (sub _ _ hP)
  entry p hQ := h.entry p fun hP => hQ (sub _ _ hP)
  agree := h.agree

theorem along_iff (h : Rewires c P s s') (hP : ¬ P x w) (a : Hop) :
    s'.Along c x w a ↔ s.Along c x w a :=
  (h.others x w hP).along_iff (congrFun (congrArg Shape.cubesOf h.shape) x) a

theorem portIndex (h : Rewires c P s s') (hP : ¬ P (.port p) .ingress) :
    (s'.ports p).portIndex = (s.ports p).portIndex :=
  congrArg Hop.next (h.others _ _ hP).start

end Rewires

/-! ### Single writes -/

section Writes

theorem rewires_setCube {f : TransparentCube → TransparentCube} {d : ProgramType}
    (apart : s.Apart) (mem : cube ∈ s.cubesOf x) (parent : ∀ t, (f t).parent = t.parent)
    (view : ∀ w cube', w.type ≠ d → (s.setCube cube f).view w cube' = s.view w cube') :
    Rewires c (fun y w => y = x ∧ w.type = d) s (s.setCube cube f) where
  shape := shape_setCube parent
  others y w hP := by
    refine ⟨by rw [start_setCube], fun cube' hc' => ?_⟩
    by_cases hw : w.type = d
    · have other : cube' ≠ cube := by
        rintro rfl
        exact hP ⟨apart.unique y x cube' hc' mem, hw⟩
      cases w <;> simp [Chains.view, setCube, update_of_ne other]
    · exact view w cube' hw
  index _ _ := rfl
  next _ _ := rfl
  entry _ _ := rfl
  agree h := h

theorem rewires_setIngressNext (apart : s.Apart) (mem : cube ∈ s.cubesOf x) (i : Index) :
    Rewires c (fun y w => y = x ∧ w.type = .ingress) s (s.setIngressNext cube i) :=
  rewires_setCube apart mem (fun _ => rfl) fun w cube' hw => by
    have : w.type = .egress := by cases w <;> simp_all [Walk.type]
    exact congrFun (view_setIngressNext_egress i this) cube'

theorem rewires_setEgressNextXdp (apart : s.Apart) (mem : cube ∈ s.cubesOf x) (h h' : Hop) :
    Rewires c (fun y w => y = x ∧ w.type = .egress) s (s.setEgressNextXdp cube h h') :=
  rewires_setCube apart mem (fun _ => rfl) fun w cube' hw => by
    obtain rfl : w = .ingress := by cases w <;> simp_all [Walk.type]
    exact congrFun (view_setEgressNextXdp h h').2.2 cube'

theorem rewires_setEgressNext (apart : s.Apart) (mem : cube ∈ s.cubesOf x) (h : Hop) :
    Rewires c (fun y w => y = x ∧ w.type = .egress) s (s.setEgressNext cube h) :=
  rewires_setEgressNextXdp apart mem h h

theorem rewires_relink {ι : Type*} {P : ChainEnd → Walk → Prop} {has : String → Bool}
    {index : String → ι} {set : String → ι → Chains → Chains} {cs : List String} {j : ι}
    (single : ∀ cube ∈ cs, ∀ i s', s'.shape = s.shape → Rewires c P s' (set cube i s')) :
    Rewires c P s (relink has index set cs j s).1 := by
  induction cs generalizing s j with
  | nil => exact Rewires.refl s
  | cons cube cs ih =>
    unfold relink
    split_ifs
    · have first := single cube List.mem_cons_self j s rfl
      refine first.trans (ih fun cube' hc' i s' hs' => ?_)
      exact single cube' (List.mem_cons_of_mem _ hc') i s' (hs'.trans first.shape)
    · exact ih fun cube' hc' => single cube' (List.mem_cons_of_mem _ hc')

theorem rewires_setPortIndex (i : Index) :
    Rewires c (fun y w => y = .port p ∧ w = .ingress) s
      (s.setPort p fun t => { t with portIndex := i }) where
  shape := shape_setPort fun _ => ⟨rfl, rfl⟩
  others y w hP := ⟨by rw [start_setPortIndex, if_neg hP], fun _ _ => by rw [view_setPort]⟩
  index _ _ := rfl
  next _ _ := rfl
  entry _ _ := rfl
  agree h := h

theorem agree_updateForwardingTable (n : ℕ) (k : BitVec 32) (b : Bool) (h : Agree s) :
    Agree (s.updateForwardingTable cube n k b) := by
  intro cube' n'
  rw [updateForwardingTable_peers, updateForwardingTable_forwardChain]
  by_cases hc : cube' = cube
  · subst hc
    obtain ⟨same, real⟩ := h cube' n'
    rw [update_self, update_self, update_apply]
    refine ⟨?_, fun entry he => ?_⟩
    · split_ifs <;> simp_all
    · by_cases hn : n' = n
      · rw [if_pos hn] at he
        split_ifs at he with hk
        cases he
        exact hk
      · rw [if_neg hn] at he
        exact real entry he
  · rw [update_of_ne hc, update_of_ne hc]
    exact h cube' n'

theorem rewires_updateParentFwdTable (h : Hop) :
    Rewires c (fun y w => y = .port p ∧ w.type = .egress) s (s.updateParentFwdTable p h) where
  shape := shape_updateParentFwdTable h
  others y w hP := ⟨by rw [start_updateParentFwdTable, if_neg hP], fun _ _ => by
    rw [view_updateParentFwdTable]⟩
  index e _ := by rw [updateParentFwdTable, (updateForwardingTable_rest ..).2.1]
  next e _ := by rw [updateParentFwdTable, (updateForwardingTable_rest ..).2.1]
  entry q hP := by
    rw [updateParentFwdTable, updateForwardingTable_peers]
    by_cases hc : q.cube = p.cube
    · have other : q.id.toNat ≠ p.id.toNat := by
        intro hid
        obtain rfl := PortRef.ext hc (BitVec.eq_of_toNat_eq hid)
        exact hP ⟨rfl, rfl⟩
      rw [hc, update_self, update_of_ne other]
    · rw [update_of_ne hc]
  agree := agree_updateForwardingTable _ _ _

theorem rewires_setNextIngress (i : Index) :
    Rewires c (fun y w => y = .iface e ∧ w = .ingress) s (s.setNextIngress e i) where
  shape := shape_setNextIngress i
  others y w hP := ⟨by rw [start_setNextIngress, if_neg hP], fun _ _ => by
    rw [setNextIngress, view_setIface]⟩
  index e' _ := by
    rw [setNextIngress, ifaces_setIface]
    split_ifs with h
    · rw [h]
    · rfl
  next e' _ := by
    rw [setNextIngress, ifaces_setIface]
    split_ifs with h
    · rw [h]
    · rfl
  entry _ _ := rfl
  agree h := h

theorem rewires_setNextEgress (i : Index) :
    Rewires c (fun y w => y = .iface e ∧ w = .egressTc) s (s.setNextEgress e i) where
  shape := shape_setNextEgress i
  others y w hP := ⟨by rw [start_setNextEgress, if_neg fun h => hP ⟨h.1, h.2.1⟩], fun _ _ => by
    rw [setNextEgress, view_setIface]⟩
  index e' _ := by
    rw [setNextEgress, ifaces_setIface]
    split_ifs with h
    · rw [h]
    · rfl
  next e' hP := by
    rw [setNextEgress, ifaces_setIface, if_neg fun h => hP ⟨congrArg _ h, rfl⟩]
  entry _ _ := rfl
  agree h := h

theorem rewires_setIndex (i : Index) :
    Rewires c (fun y w => y = .iface e ∧ w = .egress) s
      (s.setIface e fun t => { t with index := i }) where
  shape := shape_setIface fun _ => ⟨rfl, rfl, rfl, rfl⟩
  others y w hP := ⟨by rw [start_setIndex, if_neg fun h => hP ⟨h.1, h.2.1⟩], fun _ _ => by
    rw [view_setIface]⟩
  index e' hP := by
    rw [ifaces_setIface, if_neg fun h => hP ⟨congrArg _ h, rfl⟩]
  next e' _ := by
    rw [ifaces_setIface]
    split_ifs with h
    · rw [h]
    · rfl
  entry _ _ := rfl
  agree h := h

end Writes

/-! ### Telling the other end -/

def toldHop (c : Programs) (p : PortRef) (i : Index) (s : Chains) : Hop :=
  match (s.ports p).peer with
  | none => ⟨i, false⟩
  | some x => hopTo c x i

def Tagged (p : PortRef) (s : Chains) : Prop :=
  ∀ entry, s.peers p.cube p.id.toNat = some entry → entry.port = s.idBehind p

def LastIngress (c : Programs) (cubes : List String) : Prop :=
  ∀ cube, cubes.getLast? = some cube → c.has .ingress cube = true

section Tell

theorem hopTo_of_ne (h : i ≠ 0xffff) : hopTo c x i = ⟨i, false⟩ := if_neg h

theorem idBehind_of_shape (h : s'.shape = s.shape) (p : PortRef) :
    s'.idBehind p = s.idBehind p := by
  unfold idBehind
  rw [peer_of_shape h]

theorem tagged_updateParentFwdTable (h : Hop) : (s.updateParentFwdTable p h).Tagged p := by
  intro entry he
  rw [idBehind_of_shape (shape_updateParentFwdTable h)]
  rw [updateParentFwdTable, updateForwardingTable_peers, update_self,
    update_self] at he
  split_ifs at he
  obtain rfl := Option.some.inj he
  exact packed_port ..

theorem Rewires.tagged {P : ChainEnd → Walk → Prop} (h : Rewires c P s s')
    (hP : ¬ P (.port p) .egress) (tagged : s.Tagged p) : s'.Tagged p := by
  intro entry he
  rw [idBehind_of_shape h.shape]
  exact tagged entry (by rw [← h.entry p hP, he])

theorem find?_reverse_eq_getLast? (has : String → Bool) (cubes : List String) :
    cubes.reverse.find? has = (cubes.filter has).getLast? := by
  rw [← List.head?_filter, List.filter_reverse, List.head?_reverse]

/-- The end of a walk moves with what its last cube hands packets on to. -/
theorem Along.retarget {a b : Hop} (along : s.Along c x w a) (apart : s.Apart)
    (shape : s'.shape = s.shape) (start : s'.start c = s.start c)
    (last : (s.route c x w).getLast? = some cube)
    (view : s'.view w = update (s.view w) cube b) : s'.Along c x w b := by
  unfold Along at along ⊢
  rw [route_of_shape shape, start, view]
  exact along.retarget (route_nodup (apart.nodup x)) last b

theorem along_of_route_nil (empty : s.route c x w = []) (a : Hop) :
    s.Along c x w a ↔ s.start c x w = a := by
  unfold Along
  rw [empty]
  rfl

theorem setNextIndexPort_zero : s.setNextIndexPort c p 0 = some s := by
  simp [setNextIndexPort]

theorem setNextIndexPort_spec (apart : s.Apart) (hi : i ≠ 0)
    (known : i = 0xffff → (s.ports p).peer ≠ none) (real : s.toldHop c p i ≠ ⟨0, true⟩) :
    ∃ s', s.setNextIndexPort c p i = some s' ∧
      Rewires c (fun y w => y = .port p ∧ w.type = .egress) s s' ∧
      (∀ a, s.Along c (.port p) .egress a → s'.Along c (.port p) .egress (s.toldHop c p i)) ∧
      (s.Tagged p → s'.Tagged p) := by
  have told : (if i = 0xffff then (s.ports p).peer.map (hopTo c · i) else some ⟨i, false⟩) =
      some (s.toldHop c p i) := by
    unfold toldHop
    split_ifs with hffff
    · cases hpeer : (s.ports p).peer with
      | none => exact absurd hpeer (known hffff)
      | some x => rfl
    · cases (s.ports p).peer with
      | none => rfl
      | some x => exact congrArg some (hopTo_of_ne hffff).symm
  unfold setNextIndexPort
  rw [if_neg hi]
  rw [told, Option.map_some, find?_reverse_eq_getLast?]
  refine ⟨_, rfl, ?_⟩
  cases hlast : ((s.ports p).cubes.filter (c.has .egress)).getLast? with
  | some cube =>
    have mem : cube ∈ s.cubesOf (.port p) :=
      List.mem_of_mem_filter (List.mem_of_getLast? hlast)
    have rewires := rewires_setEgressNext (c := c) apart mem (s.toldHop c p i)
    refine ⟨rewires, fun a along => ?_, fun tagged => ?_⟩
    · exact along.retarget apart rewires.shape (start_setEgressNext _) hlast
        (view_setEgressNext _ rfl)
    · intro entry he
      rw [idBehind_of_shape rewires.shape]
      exact tagged entry he
  | none =>
    have rewires := rewires_updateParentFwdTable (c := c) (s := s) (p := p)
      (s.toldHop c p i)
    have empty : (s.updateParentFwdTable p (s.toldHop c p i)).route c (.port p) .egress = [] := by
      rw [route_of_shape rewires.shape]
      exact List.getLast?_eq_none_iff.1 hlast
    refine ⟨rewires, fun a _ => ?_, fun _ => tagged_updateParentFwdTable _⟩
    rw [along_of_route_nil empty, start_updateParentFwdTable, if_pos ⟨rfl, rfl⟩,
      storedHop_of_ne real]

/-- The ingress chain of an interface gets a new end, unless the loop runs off the list. -/
theorem setNextIndexIface_spec (apart : s.Apart) (last : LastIngress c (s.ifaces e).cubes)
    (i : Index) :
    ∃ s', s.setNextIndexIface c e i = some s' ∧
      Rewires c (fun y w => y = .iface e ∧ w = .ingress) s s' ∧
      ∀ a, s.Along c (.iface e) .ingress a → s'.Along c (.iface e) .ingress ⟨i, false⟩ := by
  unfold setNextIndexIface
  rcases List.eq_nil_or_concat' (s.ifaces e).cubes with hnil | ⟨init, cube, hcubes⟩
  · rw [if_pos hnil]
    have rewires := rewires_setNextIngress (c := c) (s := s) (e := e) i
    refine ⟨_, rfl, rewires, fun a _ => ?_⟩
    have empty : (s.setNextIngress e i).route c (.iface e) .ingress = [] := by
      rw [route_of_shape rewires.shape, route, hnil, List.filter_nil]
    rw [along_of_route_nil empty, start_setNextIngress, if_pos ⟨rfl, rfl⟩]
  · have hlast : (s.ifaces e).cubes.getLast? = some cube := by rw [hcubes, List.getLast?_concat]
    have has := last cube hlast
    have found : ((s.ifaces e).cubes.drop ((s.ifaces e).cubes.length - 1)).find?
        (c.has .ingress) = some cube := by
      simp [hcubes, has]
    have mem : cube ∈ s.cubesOf (.iface e) := List.mem_of_getLast? hlast
    rw [if_neg (show (s.ifaces e).cubes ≠ [] from List.ne_nil_of_mem mem), found,
      Option.map_some]
    have rewires := rewires_setIngressNext (c := c) apart mem i
    have route : (s.route c (.iface e) .ingress).getLast? = some cube := by
      rw [Chains.route, hcubes, List.filter_append, List.filter_cons_of_pos has, List.filter_nil,
        List.getLast?_concat]
    refine ⟨_, rfl, rewires.mono fun y w h => ⟨h.1, ?_⟩, fun a along => ?_⟩
    · cases w <;> simp_all [Walk.type]
    · exact along.retarget apart rewires.shape (start_setIngressNext _) route
        (view_setIngressNext _)

end Tell

end Chains

end Polycube.Polycubed
