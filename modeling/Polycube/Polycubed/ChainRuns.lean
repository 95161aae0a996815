import Polycube.Lib.Run
import Polycube.Polycubed.Chained

/-!
# Runs of operations on chains

`Complete` is what the operations on chains keep.  `Sound` is the condition under which they do:
it leaves out what has no defined behaviour and what a link or a list cannot be told of.
-/

namespace Polycube.Polycubed

open Function Lib

/-- What holds of the state an operation leaves.  One without defined behaviour leaves none. -/
def Outcome.Leaves (P : Chains → Prop) : Outcome → Prop
  | .returned s => P s
  | .threw _ s => P s
  | .undefined => False

theorem Outcome.Leaves.mono {P Q : Chains → Prop} {o : Outcome} (h : o.Leaves P)
    (sub : ∀ s, P s → Q s) : o.Leaves Q := by
  cases o with
  | returned s => exact sub s h
  | threw err s => exact sub s h
  | undefined => exact h

namespace Chains

structure Complete (c : Programs) (s : Chains) : Prop where
  wired : Wired c s
  attached : ∀ cube x, cube ∈ s.cubesOf x ↔ (s.cubes cube).parent = some x
  ok : ∀ x, s.Used x → Ok c s x
  tc : TcDevices s
  agree : Agree s

variable {c : Programs} {s s' s'' : Chains} {x y : ChainEnd} {p q : PortRef} {e cube : String}

theorem SameAt.refl (s : Chains) (x : ChainEnd) : SameAt c s s x :=
  ⟨rfl, fun w => SameWay.refl s x w, rfl, fun _ _ => rfl, fun _ _ => rfl,
    fun _ _ => ⟨rfl, rfl, rfl⟩⟩

section Lists

variable {cubes : List String}

theorem cubesOf_setCubesOf : (s.setCubesOf x cubes).cubesOf = update s.cubesOf x cubes := by
  funext y
  cases x with
  | port p =>
    cases y with
    | port q =>
      simp only [setCubesOf, cubesOf, ports_setPort, update_apply, ChainEnd.port.injEq]
      split_ifs <;> rfl
    | iface e => rfl
  | iface e =>
    cases y with
    | port q => rfl
    | iface i =>
      simp only [setCubesOf, cubesOf, ifaces_setIface, update_apply,
        ChainEnd.iface.injEq]
      split_ifs <;> rfl

theorem ifaces_setCubesOf (s : Chains) (x : ChainEnd) (cubes : List String) (i : String) :
    ∃ l, (s.setCubesOf x cubes).ifaces i = { s.ifaces i with cubes := l } := by
  cases x with
  | port p => exact ⟨_, rfl⟩
  | iface e =>
    simp only [setCubesOf, ifaces_setIface]
    split_ifs with h
    · subst h
      exact ⟨cubes, rfl⟩
    · exact ⟨_, rfl⟩

theorem linkOf_setCubesOf : (s.setCubesOf x cubes).linkOf = s.linkOf := by
  funext y
  cases y with
  | iface i =>
    obtain ⟨l, h⟩ := ifaces_setCubesOf s x cubes i
    simp only [linkOf, h]
  | port q =>
    cases x with
    | port p =>
      simp only [setCubesOf, linkOf, ports_setPort]
      split_ifs with h
      · rw [h]
      · rfl
    | iface e => rfl

theorem typeOf_setCubesOf : (s.setCubesOf x cubes).typeOf c = s.typeOf c := by
  funext y
  cases y with
  | port q => rfl
  | iface i =>
    obtain ⟨l, h⟩ := ifaces_setCubesOf s x cubes i
    simp only [typeOf, h]

theorem parent_setCubesOf : ((s.setCubesOf x cubes).cubes cube).parent = (s.cubes cube).parent := by
  cases x <;> rfl

theorem used_setCubesOf (hyx : y ≠ x) : (s.setCubesOf x cubes).Used y ↔ s.Used y := by
  unfold Used
  rw [cubesOf_setCubesOf, linkOf_setCubesOf, update_of_ne hyx]

theorem shape_setName (p : PortRef) (peer : Option ChainEnd) :
    (s.setName p peer).shape = s.shape :=
  shape_setPort fun _ => ⟨rfl, rfl⟩

theorem Complete.setName (complete : Complete c s) (p : PortRef) (peer : Option ChainEnd) :
    Complete c (s.setName p peer) := by
  have shape := shape_setName (s := s) p peer
  refine ⟨complete.wired.of_shape shape, fun cube x => ?_, fun x used => ?_, complete.tc,
    complete.agree⟩
  · rw [cubesOf_of_shape shape]
    exact complete.attached cube x
  · have same := sameAt_setName (c := c) (s := s) p peer x
    refine Ok.of_sameAt same (complete.ok x ?_)
    unfold Used at used ⊢
    rwa [same.cubes, same.link] at used

theorem Wired.setParent (wired : Wired c s) (parent : Option ChainEnd) :
    Wired c (s.setCube cube fun t => { t with parent := parent }) :=
  ⟨⟨wired.apart.nodup, wired.apart.unique⟩, wired.types, wired.known, wired.symm, wired.irrefl,
    wired.link_type, wired.fits⟩

/-- A cube is put into the list of an end, or taken out of it, and the end is linked anew. -/
theorem Complete.relist (complete : Complete c s) (cubes : List String) (cube : String)
    (parent : Option ChainEnd)
    (nodup : cubes.Nodup)
    (mem : ∀ cube', cube' ∈ cubes ↔
      (if cube' = cube then parent else (s.cubes cube').parent) = some x)
    (others : ∀ y, y ≠ x → (s.cubes cube).parent ≠ some y ∧ parent ≠ some y)
    (types : ∀ cube' ∈ cubes, c.type cube' = s.typeOf c x)
    (fits : ∀ e, x = .iface e → (s.ifaces e).known = true ∧
      ((s.ifaces e).type = .xdp → c.Fits e))
    (tells : Tells c (s.setCubesOf x cubes) x) :
    ∃ s', (s.setCubesOf x cubes).updateIndexes c x = some s' ∧
      Complete c (s'.setCube cube fun t => { t with parent := parent }) := by
  have wired := complete.wired
  -- the lists and the attached cubes agree again
  have attached : ∀ cube' y, cube' ∈ update s.cubesOf x cubes y ↔
      (if cube' = cube then parent else (s.cubes cube').parent) = some y := by
    intro cube' y
    by_cases hyx : y = x
    · subst hyx
      rw [update_self]
      exact mem cube'
    · rw [update_of_ne hyx, complete.attached]
      split_ifs with h
      · subst h
        exact iff_of_false (others y hyx).1 (others y hyx).2
      · rfl
  have wired₀ : Wired c (s.setCubesOf x cubes) := by
    refine ⟨⟨fun y => ?_, fun y z cube' hy hz => ?_⟩, fun y cube' hc => ?_, fun e he => ?_, ?_, ?_,
      ?_, fun e he => ?_⟩
    · rw [cubesOf_setCubesOf]
      by_cases hyx : y = x
      · subst hyx
        rwa [update_self]
      · rw [update_of_ne hyx]
        exact wired.apart.nodup y
    · rw [cubesOf_setCubesOf, attached] at hy hz
      exact Option.some.inj (hy.symm.trans hz)
    · rw [cubesOf_setCubesOf] at hc
      rw [typeOf_setCubesOf]
      by_cases hyx : y = x
      · subst hyx
        rw [update_self] at hc
        exact types cube' hc
      · rw [update_of_ne hyx] at hc
        exact wired.types y cube' hc
    · obtain ⟨l, h⟩ := ifaces_setCubesOf s x cubes e
      rw [h]
      by_cases hx : x = .iface e
      · exact (fits e hx).1
      · exact wired.known e ((used_setCubesOf (Ne.symm hx)).1 he)
    · rw [linkOf_setCubesOf]
      exact wired.symm
    · rw [linkOf_setCubesOf]
      exact wired.irrefl
    · rw [linkOf_setCubesOf, typeOf_setCubesOf]
      exact wired.link_type
    · obtain ⟨l, h⟩ := ifaces_setCubesOf s x cubes e
      unfold Sends at he
      rw [linkOf_setCubesOf, cubesOf_setCubesOf, h] at he
      rcases he with he | ⟨hcubes, ht⟩
      · exact wired.fits e (Or.inl he)
      · by_cases hx : x = .iface e
        · exact (fits e hx).2 ht
        · rw [update_of_ne (Ne.symm hx)] at hcubes
          exact wired.fits e (Or.inr ⟨hcubes, ht⟩)
  have tc₀ : TcDevices (s.setCubesOf x cubes) := fun i ht => by
    obtain ⟨l, h⟩ := ifaces_setCubesOf s x cubes i
    rw [h] at ht ⊢
    exact complete.tc i ht
  have agree₀ : Agree (s.setCubesOf x cubes) := by
    cases x <;> exact complete.agree
  obtain ⟨s', hs', shape, ok, tc, agree⟩ := relink_ok wired₀ x tells
    (fun y hyx used => Ok.of_sameAt (sameAt_setCubesOf cubes hyx)
      (complete.ok y ((used_setCubesOf hyx).1 used))) tc₀
  have cubes' : s'.cubesOf = update s.cubesOf x cubes :=
    (cubesOf_of_shape shape).trans cubesOf_setCubesOf
  refine ⟨s', hs', (wired₀.of_shape shape).setParent parent, fun cube' y => ?_, fun y used => ?_,
    tc, agree agree₀⟩
  · have parent' : (s'.cubes cube').parent = (s.cubes cube').parent :=
      (congrFun (congrArg Shape.parent shape) cube').trans parent_setCubesOf
    have hpar : ((s'.setCube cube fun t => { t with parent := parent }).cubes cube').parent =
        if cube' = cube then parent else (s.cubes cube').parent := by
      simp only [setCube, update_apply]
      split_ifs
      · rfl
      · exact parent'
    rw [hpar, ← attached, ← cubes']
    exact Iff.rfl
  · refine Ok.of_sameAt (sameAt_setParent parent) (ok y ?_)
    by_cases hyx : y = x
    · exact Or.inl hyx
    · refine Or.inr ?_
      have link' : s'.linkOf = (s.setCubesOf x cubes).linkOf := funext (linkOf_of_shape shape)
      unfold Used
      rw [← cubesOf_of_shape shape, ← link']
      exact used

end Lists

/-! ### Interfaces come and go -/

section Interfaces

/-- An interface that is not in use is written, but for its list and its link. -/
theorem Complete.setIface (complete : Complete c s) (unused : ¬ s.Used (.iface e))
    {f : ExtIface → ExtIface} (hcubes : (f (s.ifaces e)).cubes = (s.ifaces e).cubes)
    (hpeer : (f (s.ifaces e)).peer = (s.ifaces e).peer)
    (htc : (f (s.ifaces e)).type = .tc → (f (s.ifaces e)).index = 0xffff) :
    (s.setIface e f).cubesOf = s.cubesOf ∧ (s.setIface e f).linkOf = s.linkOf ∧
      Complete c (s.setIface e f) := by
  have wired := complete.wired
  have cubes : (s.setIface e f).cubesOf = s.cubesOf := by
    funext y
    cases y with
    | port q => rfl
    | iface i =>
      simp only [cubesOf, ifaces_setIface]
      split_ifs with h
      · rw [h, hcubes]
      · rfl
  have link : (s.setIface e f).linkOf = s.linkOf := by
    funext y
    cases y with
    | port q => rfl
    | iface i =>
      simp only [linkOf, ifaces_setIface]
      split_ifs with h
      · rw [h, hpeer]
      · rfl
  have used : ∀ y, (s.setIface e f).Used y ↔ s.Used y := fun y => by
    unfold Used
    rw [cubes, link]
  have same : ∀ i, s.Used (.iface i) → (s.setIface e f).ifaces i = s.ifaces i := fun i hi => by
    rw [ifaces_setIface, if_neg]
    rintro rfl
    exact unused hi
  have type : ∀ y, s.Used y → (s.setIface e f).typeOf c y = s.typeOf c y := fun y hy => by
    cases y with
    | port q => rfl
    | iface i => exact congrArg ExtIface.type (same i hy)
  refine ⟨cubes, link, ⟨⟨?_, ?_⟩, fun y cube' hc => ?_, fun i hi => ?_, ?_, ?_, fun y z h => ?_,
    fun i hi => wired.fits i ?_⟩, fun cube' y => ?_, fun y hy => ?_, fun i ht => ?_,
    complete.agree⟩
  · rw [cubes]
    exact wired.apart.nodup
  · rw [cubes]
    exact wired.apart.unique
  · rw [cubes] at hc
    rw [type y (Or.inl (List.ne_nil_of_mem hc))]
    exact wired.types y cube' hc
  · rw [same i ((used _).1 hi)]
    exact wired.known i ((used _).1 hi)
  · rw [link]
    exact wired.symm
  · rw [link]
    exact wired.irrefl
  · rw [link] at h
    rw [type y (Used.of_link h), type z (Used.of_link (wired.symm _ _ h))]
    exact wired.link_type _ _ h
  · have used' := (used _).1 hi.used
    unfold Sends at hi ⊢
    rwa [cubes, link, same i used'] at hi
  · rw [cubes]
    exact complete.attached cube' y
  · have hy' := (used y).1 hy
    refine Ok.of_sameAt (sameAt_setIface ?_ fun h => ?_) (complete.ok y hy')
    · rintro rfl
      exact unused hy'
    · exact absurd (Used.of_link (wired.symm _ _ h)) unused
  · rw [ifaces_setIface] at ht ⊢
    split_ifs at ht ⊢ with h
    · exact htc ht
    · exact complete.tc i ht

theorem Complete.unused (complete : Complete c s) (h : (s.ifaces e).known = false) :
    ¬ s.Used (.iface e) := fun used => by
  rw [complete.wired.known e used] at h
  cases h

theorem not_used_iff : ¬ s.Used (.iface e) ↔ (s.ifaces e).cubes = [] ∧ (s.ifaces e).peer = none := by
  unfold Used
  rw [not_or, not_not, not_not]
  exact and_congr_right fun _ => Option.map_eq_none_iff

theorem Complete.create (complete : Complete c s) (e : String) (type : PortType) :
    (s.create e type).cubesOf = s.cubesOf ∧ (s.create e type).linkOf = s.linkOf ∧
      Complete c (s.create e type) := by
  unfold Chains.create
  split_ifs with h
  · exact ⟨rfl, rfl, complete⟩
  · have unused := complete.unused (Bool.eq_false_iff.2 h)
    obtain ⟨cubes, peer⟩ := not_used_iff.1 unused
    exact complete.setIface unused cubes.symm peer.symm fun _ => rfl

theorem sameAt_create (complete : Complete c s) (q : PortRef) (e : String) (type : PortType) :
    SameAt c s (s.create e type) (.port q) := by
  unfold Chains.create
  split_ifs with h
  · exact SameAt.refl s _
  · refine sameAt_setIface (fun h => by cases h) fun hl => ?_
    exact absurd (Used.of_link (complete.wired.symm _ _ hl))
      (complete.unused (Bool.eq_false_iff.2 h))

theorem create_known (s : Chains) (e : String) (type : PortType) :
    ((s.create e type).ifaces e).known = true := by
  unfold create
  split_ifs with h
  · exact h
  · rw [ifaces_setIface, if_pos rfl]
    rfl

theorem create_type {type : PortType} (h : (s.ifaces e).known = true → (s.ifaces e).type = type) :
    ((s.create e type).ifaces e).type = type := by
  unfold create
  split_ifs with hk
  · exact h hk
  · rw [ifaces_setIface, if_pos rfl]
    rfl

theorem Complete.release (complete : Complete c s) (e : String) :
    (s.release e).cubesOf = s.cubesOf ∧ (s.release e).linkOf = s.linkOf ∧
      Complete c (s.release e) := by
  unfold Chains.release
  split_ifs with h
  · exact ⟨rfl, rfl, complete⟩
  · have unused : ¬ s.Used (.iface e) := not_used_iff.2 (by simpa [isUsed] using h)
    exact complete.setIface unused rfl rfl (complete.tc e)

theorem ifaces_release (s : Chains) (e i : String) : ∃ b, (s.release e).ifaces i =
    { s.ifaces i with known := b } ∧ (i ≠ e → b = (s.ifaces i).known) := by
  unfold release
  split_ifs
  · exact ⟨_, rfl, fun _ => rfl⟩
  · rw [ifaces_setIface]
    split_ifs with h
    · exact ⟨false, by rw [h], fun hi => absurd h hi⟩
    · exact ⟨_, rfl, fun _ => rfl⟩

theorem ports_release (s : Chains) (e : String) : (s.release e).ports = s.ports ∧
    (s.release e).cubes = s.cubes ∧ (s.release e).peers = s.peers := by
  unfold release
  split_ifs <;> exact ⟨rfl, rfl, rfl⟩

theorem sameAt_release (e : String) (x : ChainEnd) : SameAt c s (s.release e) x := by
  obtain ⟨ports, cubes, peers⟩ := ports_release s e
  have view : (s.release e).view = s.view := by
    funext w cube
    cases w <;> simp only [Chains.view, cubes]
  refine ⟨?_, fun w => ⟨?_, fun cube _ => by rw [view]⟩, ?_, fun y _ => ?_, fun p _ => by rw [peers],
    fun i _ => ?_⟩
  · cases x with
    | port p => simp only [cubesOf, ports]
    | iface i =>
      obtain ⟨b, h, -⟩ := ifaces_release s e i
      simp only [cubesOf, h]
  · cases x with
    | port p => cases w <;> simp only [start, portHop, ports, peers]
    | iface i =>
      obtain ⟨b, h, -⟩ := ifaces_release s e i
      cases w <;> simp only [start, egressParent, ports, h]
  · cases x with
    | port p => simp only [linkOf, ports]
    | iface i =>
      obtain ⟨b, h, -⟩ := ifaces_release s e i
      simp only [linkOf, h]
  · cases y with
    | port q => simp only [getIndex, ports]
    | iface i =>
      obtain ⟨b, h, -⟩ := ifaces_release s e i
      simp only [getIndex, h]
  · obtain ⟨b, h, -⟩ := ifaces_release s e i
    rw [h]
    exact ⟨rfl, rfl, rfl⟩

theorem release_setCube (f : TransparentCube → TransparentCube) :
    (s.release e).setCube cube f = (s.setCube cube f).release e := by
  unfold release
  rw [show (s.setCube cube f).isUsed e = s.isUsed e from rfl]
  split_ifs <;> rfl

end Interfaces

/-! ### The condition -/

section Condition

variable (c)

instance (cubes : List String) : Decidable (LastIngress c cubes) :=
  decidable_of_iff (cubes.getLast?.all (c.has .ingress) = true)
    (Option.all_eq_true _ _)

instance (e : String) : Decidable (c.Fits e) := instDecidableAnd

instance (s : Chains) : ∀ x, Decidable (Tells c s x)
  | .iface _ => isTrue trivial
  | .port p =>
    match h : (s.ports p).peer with
    | none => isTrue (by simp only [Tells, h])
    | some (.iface e) => decidable_of_iff (LastIngress c (s.ifaces e).cubes) (by simp only [Tells, h])
    | some (.port _) =>
      decidable_of_iff (c.calculateIndex p (s.ports p).cubes ≠ 0 ∨ (s.ports p).portIndex = 0)
        (by simp only [Tells, h])

instance (s : Chains) : ∀ x, Decidable (Takes c s x)
  | .iface _ => instDecidableAnd
  | .port _ => instDecidableOr

def Accepts (s : Chains) (type : PortType) (e : String) : Prop :=
  (s.ifaces e).known = true → (s.ifaces e).type = type

/-- An interface has a peer, and not the port that is to get it. -/
def InUse (s : Chains) (p : PortRef) (e : String) : Prop :=
  (s.ifaces e).known = true ∧ (s.ifaces e).peer ≠ none ∧ (s.ifaces e).peer ≠ some p

instance (s : Chains) (p : PortRef) (e : String) : Decidable (InUse s p e) := instDecidableAnd

def Placed (s : Chains) (cube : String) (x : ChainEnd) (position other : String) : Prop :=
  match placeCube c cube position other (s.cubesOf x) with
  | .throws _ => True
  | .undefined => False
  | .at i => Tells c (s.setCubesOf x ((s.cubesOf x).insertIdx i cube)) x

instance (s : Chains) (cube : String) (x : ChainEnd) (position other : String) :
    Decidable (Placed c s cube x position other) :=
  match h : placeCube c cube position other (s.cubesOf x) with
  | .throws _ => isTrue (by simp only [Placed, h])
  | .undefined => isFalse (by simp only [Placed, h, not_false_eq_true])
  | .at i =>
    decidable_of_iff (Tells c (s.setCubesOf x ((s.cubesOf x).insertIdx i cube)) x)
      (by simp only [Placed, h])

/-- An operation that is refused, or that leaves complete chains.  The place and the types of what
is linked have to be right, devices have to be told by 16 bits, the loop that looks for the last
ingress program of an interface has to find one at the end of the list, and no port that has a
peer may be told of an index 0 or get a second peer. -/
def Sound (s : Chains) : ChainOp → Prop
  | .attach cube x position other =>
    (s.cubes cube).parent ≠ none ∨
      match x with
      | .port p => c.type cube ≠ c.type p.cube ∨ Placed c s cube x position other
      | .iface e =>
        Accepts s (c.type cube) e ∧ (c.type cube = .xdp → c.Fits e) ∧ Placed c s cube x position other
  | .detach cube x =>
    cube ∈ s.cubesOf x → Tells c (s.setCubesOf x ((s.cubesOf x).erase cube)) x
  | .setPeer p peer asked =>
    (s.ports p).peerName = peer ∨
      match peer with
      | none => True
      | some (.iface e) =>
        InUse s p e ∨
          (Accepts s (c.type p.cube) e ∧ c.Fits e ∧ LastIngress c (s.ifaces e).cubes)
      | some (.port q) =>
        c.type p.cube ≠ c.type q.cube ∨ asked = false ∨ (s.ports p).peer = some (.port q) ∨
          (q ≠ p ∧ (s.ports q).peer = none ∧ Takes c s (.port q))

instance (s : Chains) : ∀ op, Decidable (Sound c s op)
  | .attach _ (.port _) _ _ => instDecidableOr
  | .attach cube (.iface e) _ _ =>
    have : Decidable (Accepts s (c.type cube) e) := inferInstanceAs (Decidable (_ → _))
    instDecidableOr
  | .detach _ _ => inferInstanceAs (Decidable (_ → _))
  | .setPeer _ none _ => instDecidableOr
  | .setPeer p (some (.iface e)) _ =>
    have : Decidable (Accepts s (c.type p.cube) e) := inferInstanceAs (Decidable (_ → _))
    instDecidableOr
  | .setPeer _ (some (.port _)) _ => instDecidableOr

end Condition

section Attaching

variable {i : ℕ} {position other : String} {cubes : List String}

theorem autoFront_le (service : String) (cubes : List String) {k index : ℕ} (h : index ≤ k) :
    (autoFront c service cubes k index).1 ≤ k + cubes.length := by
  induction cubes generalizing k index with
  | nil => exact Nat.le_trans h (Nat.le_add_right _ _)
  | cons cube cubes ih =>
    have step : k + (cube :: cubes).length = k + 1 + cubes.length := by
      rw [List.length_cons]
      omega
    unfold autoFront
    rw [step]
    split
    · exact ih le_rfl
    · exact ih (by omega)
    · omega

theorem autoBack_le (service : String) (cubes : List String) {index n : ℕ}
    (h : autoBack c service cubes index = some n) : n ≤ max index cubes.length := by
  induction cubes generalizing index with
  | nil =>
    obtain rfl : index = n := Option.some.inj h
    exact le_max_left _ _
  | cons cube cubes ih =>
    rw [List.length_cons]
    unfold autoBack at h
    split at h
    · have := ih h
      omega
    · have := ih h
      omega
    · cases h

theorem placeCube_le (h : placeCube c cube position other cubes = .at i) : i ≤ cubes.length := by
  unfold placeCube at h
  split_ifs at h with _ _ _ _ _ _ _ hmem
  · -- auto
    have front := autoFront_le (c := c) (c.serviceName cube) cubes (Nat.le_refl 0)
    split at h
    · next hfront =>
      rw [hfront] at front
      cases h
      omega
    · next hfront =>
      rw [hfront] at front
      split at h
      · next hback =>
        have := autoBack_le _ _ hback
        rw [List.length_reverse] at this
        cases h
        omega
      · cases h
  · cases h
    exact Nat.zero_le _
  · cases h
    exact le_rfl
  · cases h
    exact List.idxOf_le_length
  · cases h
    exact List.idxOf_lt_length_of_mem (not_not.1 fun h => hmem (Or.inr h))
  · cases h
    exact Nat.zero_le _

/-- Putting a cube into the list of an end that it is not attached to yet. -/
theorem Complete.addCube (complete : Complete c s) (free : (s.cubes cube).parent = none)
    (type : c.type cube = s.typeOf c x)
    (fits : ∀ e, x = .iface e → (s.ifaces e).known = true ∧
      ((s.ifaces e).type = .xdp → c.Fits e))
    (placed : Placed c s cube x position other) :
    (s.addCube c cube x position other).Leaves (Complete c) := by
  unfold Placed at placed
  unfold Chains.addCube
  cases hplace : placeCube c cube position other (s.cubesOf x) with
  | throws err => exact complete
  | undefined =>
    rw [hplace] at placed
    exact placed
  | «at» i =>
    rw [hplace] at placed
    dsimp only at placed ⊢
    have le := placeCube_le hplace
    have out : ∀ y, cube ∉ s.cubesOf y := fun y h => by
      rw [complete.attached, free] at h
      cases h
    have perm := List.perm_insertIdx cube (s.cubesOf x) le
    obtain ⟨s', hs', complete'⟩ := complete.relist ((s.cubesOf x).insertIdx i cube) cube
      (some x)
      (perm.nodup_iff.2 (List.nodup_cons.2 ⟨out x, complete.wired.apart.nodup x⟩))
      (fun cube' => by
        rw [perm.mem_iff, List.mem_cons]
        split_ifs with h
        · exact iff_of_true (Or.inl h) rfl
        · rw [← complete.attached]
          exact or_iff_right h)
      (fun y hy => ⟨fun h => Option.some_ne_none y (h.symm.trans free),
        fun h => hy (Option.some.inj h).symm⟩)
      (fun cube' h => by
        rw [perm.mem_iff, List.mem_cons] at h
        rcases h with rfl | h
        · exact type
        · exact complete.wired.types x cube' h)
      fits placed
    rw [hs']
    exact complete'

theorem Complete.removeCube (complete : Complete c s)
    (known : ∀ e, x = .iface e → (s.ifaces e).known = true)
    (tells : cube ∈ s.cubesOf x → Tells c (s.setCubesOf x ((s.cubesOf x).erase cube)) x) :
    (∃ err, s.removeCube c cube x = .threw err s) ∨
      ∃ s', s.removeCube c cube x = .returned s' ∧
        Complete c (s'.setCube cube fun t => { t with parent := none }) := by
  unfold Chains.removeCube
  split_ifs with hmem
  · have nodup := complete.wired.apart.nodup x
    obtain ⟨s', hs', complete'⟩ := complete.relist ((s.cubesOf x).erase cube) cube none
      (nodup.erase cube)
      (fun cube' => by
        rw [nodup.mem_erase_iff]
        split_ifs with h
        · exact iff_of_false (fun hh => hh.1 h) (fun hh => by cases hh)
        · rw [← complete.attached]
          exact and_iff_right h)
      (fun y hy => ⟨fun h => hy (Option.some.inj
        (((complete.attached cube x).1 hmem).symm.trans h)).symm, (Option.some_ne_none y).symm⟩)
      (fun cube' h => complete.wired.types x cube' (List.mem_of_mem_erase h))
      (fun e he => ⟨known e he, by
        subst he
        exact fun ht => complete.wired.fits e (Or.inr ⟨List.ne_nil_of_mem hmem, ht⟩)⟩)
      (tells hmem)
    refine Or.inr ⟨s', ?_, complete'⟩
    rw [hs']
  · exact Or.inl ⟨_, rfl⟩

theorem Complete.attach (complete : Complete c s)
    (sound : Sound c s (.attach cube x position other)) :
    (s.attach c cube x position other).Leaves (Complete c) := by
  unfold Chains.attach
  split_ifs with hparent
  · exact complete
  have free : (s.cubes cube).parent = none := not_not.1 hparent
  have sound := sound.resolve_left hparent
  cases x with
  | port p =>
    dsimp only
    split_ifs with htype
    · exact complete
    exact complete.addCube free (not_not.1 htype) (fun e h => by cases h)
      (sound.resolve_left htype)
  | iface e =>
    dsimp only at sound ⊢
    obtain ⟨htype, fits, placed⟩ := sound
    obtain ⟨cubes, -, complete'⟩ := complete.create e (c.type cube)
    have peer : ((s.create e (c.type cube)).cubes cube).parent = none := by
      unfold Chains.create
      split_ifs <;> exact free
    refine complete'.addCube peer (create_type htype).symm
      (fun i hi => ?_) ?_
    · cases hi
      refine ⟨create_known s e _, fun ht => fits ?_⟩
      rwa [create_type htype] at ht
    · unfold Placed at placed ⊢
      rw [cubes]
      cases hplace : placeCube c cube position other (s.cubesOf (.iface e)) with
      | throws err => trivial
      | undefined =>
        rw [hplace] at placed
        exact placed
      | «at» i => trivial

theorem Complete.detach (complete : Complete c s) (sound : Sound c s (.detach cube x)) :
    (s.detach c cube x).Leaves (Complete c) := by
  unfold Chains.detach
  cases x with
  | port p =>
    dsimp only
    rcases complete.removeCube (fun e h => by cases h) sound with ⟨err, h⟩ | ⟨s', h, complete'⟩
    · rw [h]
      exact complete
    · rw [h]
      exact complete'
  | iface e =>
    dsimp only
    split_ifs with hknown
    · rcases complete.removeCube (x := .iface e) (fun i h => by cases h; exact hknown) sound with
        ⟨err, h⟩ | ⟨s', h, complete'⟩
      · rw [h]
        exact complete
      · rw [h]
        dsimp only
        rw [release_setCube]
        exact (complete'.release e).2.2
    · exact complete

end Attaching

section Peers

theorem Complete.of_relinks (complete : Complete c s) {l : ChainEnd → Option ChainEnd}
    (relinks : Relinks s s' l) (symm : ∀ x y, l x = some y → l y = some x)
    (irrefl : ∀ x, l x ≠ some x) (link_type : ∀ x y, l x = some y → s.typeOf c x = s.typeOf c y)
    (known : ∀ e, l (.iface e) ≠ none → (s.ifaces e).known = true ∧ c.Fits e)
    (ok : ∀ x, s'.Used x → Ok c s' x) (tc : TcDevices s') (agree : Agree s') : Complete c s' := by
  have wired := complete.wired
  have used : ∀ x, s'.Used x → s.cubesOf x ≠ [] ∨ l x ≠ none := fun x h => by
    unfold Used at h
    rwa [relinks.cubes, relinks.link] at h
  refine ⟨⟨relinks.apart wired.apart, fun x cube' hc => ?_, fun e he => ?_, ?_, ?_,
    fun x y h => ?_, fun e he => ?_⟩, fun cube' x => ?_, ok, tc, agree⟩
  · rw [relinks.typeOf]
    rw [relinks.cubes] at hc
    exact wired.types x cube' hc
  · rw [relinks.known]
    rcases used _ he with h | h
    · exact wired.known e (Or.inl h)
    · exact (known e h).1
  · rw [relinks.link]
    exact symm
  · rw [relinks.link]
    exact irrefl
  · rw [relinks.typeOf, relinks.typeOf]
    rw [relinks.link] at h
    exact link_type x y h
  · unfold Sends at he
    rw [relinks.cubes, relinks.link, relinks.type] at he
    rcases he with h | h
    · exact (known e h).2
    · exact wired.fits e (Or.inr h)
  · rw [relinks.cubes, relinks.parent]
    exact complete.attached cube' x

structure Cleared (c : Programs) (p : PortRef) (s s' : Chains) : Prop where
  complete : Complete c s'
  cubes : s'.cubesOf = s.cubesOf
  link : ∀ x, s'.linkOf x =
    if x = .port p ∨ s.linkOf (.port p) = some x then none else s.linkOf x
  ok : ∀ x, s.Used x → Ok c s' x
  others : ∀ x, x ≠ .port p → s.linkOf (.port p) ≠ some x → SameAt c s s' x
  known : ∀ e, s.linkOf (.port p) ≠ some (.iface e) → (s'.ifaces e).known = (s.ifaces e).known
  type : ∀ e, (s'.ifaces e).type = (s.ifaces e).type
  free : s.linkOf (.port p) = none → s' = s

theorem Complete.unconnect (complete : Complete c s) (hl : s.linkOf (.port p) = some y) :
    ∃ s', s.unconnect c p y = some s' ∧ Cleared c p s s' := by
  have wired := complete.wired
  obtain ⟨s', hs', relinks, others, ok, tc, agree⟩ := unconnect_ok wired hl complete.ok complete.tc
  have link : ∀ x, update (update s.linkOf (.port p) none) y none x =
      if x = .port p ∨ s.linkOf (.port p) = some x then none else s.linkOf x := by
    intro x
    by_cases hy : x = y
    · rw [hy, update_self, if_pos (Or.inr hl)]
    by_cases hp : x = .port p
    · rw [update_of_ne hy, hp, update_self, if_pos (Or.inl rfl)]
    · rw [update_of_ne hy, update_of_ne hp, if_neg]
      rw [not_or, hl]
      exact ⟨hp, fun h => hy (Option.some.inj h).symm⟩
  -- a link that is left has both its ends left
  have left : ∀ {x z}, update (update s.linkOf (.port p) none) y none x = some z →
      (x ≠ .port p ∧ s.linkOf (.port p) ≠ some x) ∧ s.linkOf x = some z := by
    intro x z h
    rw [link] at h
    split_ifs at h with hx
    exact ⟨not_or.1 hx, h⟩
  refine ⟨s', hs', ⟨complete.of_relinks relinks (fun x z h => ?_) (fun x h => ?_) (fun x z h => ?_)
    (fun e h => ?_) (fun x h => ok x ?_) tc (agree complete.agree), relinks.cubes,
    fun x => by rw [relinks.link, link], ok, fun x hp h => others x hp fun hxy => ?_,
    fun e _ => relinks.known e, relinks.type, fun h => absurd (h.symm.trans hl) (Option.some_ne_none y).symm⟩⟩
  · obtain ⟨⟨hxp, hxy⟩, hxz⟩ := left h
    have back := wired.symm _ _ hxz
    rw [link, if_neg]
    · exact back
    · rintro (rfl | hz)
      · exact hxy back
      · exact hxp (Option.some.inj (back.symm.trans (wired.symm _ _ hz)))
  · exact wired.irrefl x (left h).2
  · exact wired.link_type x z (left h).2
  · obtain ⟨z, hz⟩ := Option.ne_none_iff_exists'.1 h
    exact ⟨wired.known e (Used.of_link (left hz).2), wired.fits e (Sends.of_link (left hz).2)⟩
  · rcases h with h | h
    · rw [relinks.cubes] at h
      exact Or.inl h
    · rw [relinks.link] at h
      obtain ⟨z, hz⟩ := Option.ne_none_iff_exists'.1 h
      exact Used.of_link (left hz).2
  · exact h (hxy ▸ hl)

theorem Complete.clearPeer (complete : Complete c s) (p : PortRef) :
    ∃ s', s.clearPeer c p = some s' ∧ Cleared c p s s' := by
  unfold Chains.clearPeer
  cases hl : (s.ports p).peer with
  | none =>
    have none : s.linkOf (.port p) = none := hl
    refine ⟨s, rfl, complete, rfl, fun x => ?_, complete.ok, fun x _ _ => SameAt.refl s x,
      fun _ _ => rfl, fun _ => rfl, fun _ => rfl⟩
    by_cases h : x = .port p
    · rw [if_pos (Or.inl h), h, none]
    · rw [if_neg]
      rw [none, not_or]
      exact ⟨h, (Option.some_ne_none x).symm⟩
  | some y =>
    obtain ⟨s₁, hs₁, cleared⟩ := complete.unconnect (p := p) hl
    cases y with
    | port q => exact ⟨s₁, hs₁, cleared⟩
    | iface e =>
      dsimp only
      rw [hs₁]
      obtain ⟨cubes, link, complete'⟩ := cleared.complete.release e
      refine ⟨s₁.release e, rfl, complete', cubes.trans cleared.cubes, fun x => ?_, fun x h => ?_,
        fun x hp h => (cleared.others x hp h).trans (sameAt_release e x), fun i hi => ?_, fun i => ?_,
        fun h => absurd (h.symm.trans hl) (Option.some_ne_none _).symm⟩
      · rw [link]
        exact cleared.link x
      · exact Ok.of_sameAt (sameAt_release e x) (cleared.ok x h)
      · obtain ⟨b, h, hb⟩ := ifaces_release s₁ e i
        have hie : i ≠ e := by
          rintro rfl
          exact hi hl
        rw [h]
        exact (hb hie).trans (cleared.known i hi)
      · obtain ⟨b, h, -⟩ := ifaces_release s₁ e i
        rw [h]
        exact cleared.type i

theorem Complete.connect (complete : Complete c s) (hp : s.linkOf (.port p) = none)
    (hy : s.linkOf y = none) (hyp : y ≠ .port p) (htype : s.typeOf c y = c.type p.cube)
    (takes : Takes c s y) (known : ∀ e, y = .iface e → (s.ifaces e).known = true) :
    ∃ s', s.connect c p y = some s' ∧ Complete c s' ∧ s'.cubesOf = s.cubesOf ∧
      s'.linkOf = update (update s.linkOf (.port p) (some y)) y
        (some (.port p)) ∧
      ∀ x, x ≠ .port p → x ≠ y → SameAt c s s' x := by
  have wired := complete.wired
  obtain ⟨s', hs', relinks, others, ok, tc, agree⟩ :=
    connect_ok wired hp hy hyp htype takes complete.ok complete.tc
  -- the two new links, and those of before
  have cases : ∀ {x z}, update (update s.linkOf (.port p) (some y)) y
      (some (.port p)) x = some z →
      (x = y ∧ z = .port p) ∨ (x = .port p ∧ z = y) ∨ (x ≠ y ∧ x ≠ .port p ∧ s.linkOf x = some z) := by
    intro x z h
    by_cases hxy : x = y
    · rw [hxy, update_self] at h
      exact Or.inl ⟨hxy, (Option.some.inj h).symm⟩
    rw [update_of_ne hxy] at h
    by_cases hxp : x = .port p
    · rw [hxp, update_self] at h
      exact Or.inr (Or.inl ⟨hxp, (Option.some.inj h).symm⟩)
    · rw [update_of_ne hxp] at h
      exact Or.inr (Or.inr ⟨hxy, hxp, h⟩)
  refine ⟨s', hs', complete.of_relinks relinks (fun x z h => ?_) (fun x h => ?_) (fun x z h => ?_)
    (fun e h => ?_) (fun x h => ok x ?_) tc (agree complete.agree), relinks.cubes, relinks.link,
    others⟩
  · rcases cases h with ⟨rfl, rfl⟩ | ⟨rfl, rfl⟩ | ⟨hxy, hxp, hxz⟩
    · rw [update_of_ne (Ne.symm hyp), update_self]
    · rw [update_self]
    · have back := wired.symm _ _ hxz
      rw [update_of_ne, update_of_ne]
      · exact back
      · rintro rfl
        exact Option.some_ne_none _ (back.symm.trans hp)
      · rintro rfl
        exact Option.some_ne_none _ (back.symm.trans hy)
  · rcases cases h with ⟨hxy, hxp⟩ | ⟨hxp, hxy⟩ | ⟨-, -, hxx⟩
    · exact hyp (hxy.symm.trans hxp)
    · exact hyp (hxy.symm.trans hxp)
    · exact wired.irrefl x hxx
  · rcases cases h with ⟨rfl, rfl⟩ | ⟨rfl, rfl⟩ | ⟨-, -, hxz⟩
    · exact htype
    · exact htype.symm
    · exact wired.link_type x z hxz
  · obtain ⟨z, hz⟩ := Option.ne_none_iff_exists'.1 h
    rcases cases hz with ⟨hey, -⟩ | ⟨hep, -⟩ | ⟨-, -, hez⟩
    · refine ⟨known e hey.symm, ?_⟩
      subst hey
      exact takes.2
    · cases hep
    · exact ⟨wired.known e (Used.of_link hez), wired.fits e (Sends.of_link hez)⟩
  · rcases h with h | h
    · rw [relinks.cubes] at h
      exact Or.inr (Or.inr (Or.inl h))
    · rw [relinks.link] at h
      obtain ⟨z, hz⟩ := Option.ne_none_iff_exists'.1 h
      rcases cases hz with ⟨hxy, -⟩ | ⟨hxp, -⟩ | ⟨-, -, hxz⟩
      · exact Or.inr (Or.inl hxy)
      · exact Or.inl hxp
      · exact Or.inr (Or.inr (Used.of_link hxz))

def Links (c : Programs) (s : Chains) (p : PortRef) : Option ChainEnd → Bool → Prop
  | none, _ => False
  | some (.iface e), _ => ¬ InUse s p e
  | some (.port q), asked => c.type p.cube = c.type q.cube ∧ asked = true

/-- What a change of the peer of a port does beside: the lists stay, and a port without a peer had
none before and keeps its entry, or it has lost it and has complete chains.  The port itself has a
peer if it `links`. -/
structure Repeered (c : Programs) (p : PortRef) (links : Prop) (s s' : Chains) : Prop where
  complete : Complete c s'
  cubes : s'.cubesOf = s.cubesOf
  free : ∀ q, s'.linkOf (.port q) = none →
    (s.linkOf (.port q) = none ∧
      s'.peers q.cube q.id.toNat = s.peers q.cube q.id.toNat) ∨
    ((q = p ∨ s.linkOf (.port p) = some (.port q)) ∧ s.linkOf (.port q) ≠ none ∧
      Ok c s' (.port q))
  again : links → s'.linkOf (.port p) ≠ none

theorem Cleared.repeered {links : Prop} (cleared : Cleared c p s s') (wired : Wired c s)
    (not : ¬ links) : Repeered c p links s s' := by
  refine ⟨cleared.complete, cleared.cubes, fun q hq => ?_, fun h => absurd h not⟩
  by_cases hl : s.linkOf (.port q) = none
  · refine Or.inl ⟨hl, ?_⟩
    by_cases hqp : ChainEnd.port q = .port p
    · rw [cleared.free (hqp ▸ hl)]
    · by_cases hpq : s.linkOf (.port p) = some (.port q)
      · exact absurd ((wired.symm _ _ hpq).symm.trans hl) (Option.some_ne_none _)
      · exact (cleared.others _ hqp hpq).entry q rfl
  · refine Or.inr ⟨?_, hl, cleared.ok _ (Or.inr hl)⟩
    rw [cleared.link] at hq
    split_ifs at hq with h
    · exact h.imp ChainEnd.port.inj id
    · exact absurd hq hl

theorem Cleared.connect {s₁ s₂ : Chains} (cleared : Cleared c p s s₁) (wired : Wired c s)
    (complete : Complete c s₂) (cubes : s₂.cubesOf = s₁.cubesOf) (link : s₂.linkOf = s₁.linkOf)
    (same : ∀ q, SameAt c s₁ s₂ (.port q)) (hy : s₂.linkOf y = none) (hyp : y ≠ .port p)
    (htype : s₂.typeOf c y = c.type p.cube) (takes : Takes c s₂ y)
    (known : ∀ e, y = .iface e → (s₂.ifaces e).known = true) (links : Prop) :
    ∃ s', s₂.connect c p y = some s' ∧ Repeered c p links s s' := by
  have hp : s₂.linkOf (.port p) = none := by
    rw [link, cleared.link, if_pos (Or.inl rfl)]
  obtain ⟨s', hs', complete', cubes', link', others⟩ :=
    complete.connect hp hy hyp htype takes known
  refine ⟨s', hs', complete', cubes'.trans (cubes.trans cleared.cubes), fun q hq => ?_, fun _ => ?_⟩
  swap
  · rw [link', update_of_ne (Ne.symm hyp), update_self]
    exact Option.some_ne_none y
  have hqy : ChainEnd.port q ≠ y := by
    rintro rfl
    rw [link', update_self] at hq
    cases hq
  have hqp : ChainEnd.port q ≠ .port p := fun h => by
    rw [link', update_of_ne hqy, h, update_self] at hq
    cases hq
  have same' := (same q).trans (others _ hqp hqy)
  rw [link', update_of_ne hqy, update_of_ne hqp, link] at hq
  rcases (cleared.repeered wired not_false).free q hq with ⟨hl, entry⟩ | ⟨lost, hl, ok⟩
  · exact Or.inl ⟨hl, (same'.entry q rfl).trans entry⟩
  · exact Or.inr ⟨lost, hl, Ok.of_sameAt same' ok⟩

theorem Complete.setPortPeer {peer : Option ChainEnd} {asked : Bool} (complete : Complete c s)
    (hname : (s.ports p).peerName ≠ peer) (sound : Sound c s (.setPeer p peer asked)) :
    (s.setPortPeer c p peer asked).Leaves (Repeered c p (Links c s p peer asked) s) := by
  obtain ⟨s₁, hs₁, cleared⟩ := complete.clearPeer p
  have wired := complete.wired
  have sound := sound.resolve_left hname
  unfold Chains.setPortPeer
  rw [hs₁]
  cases peer with
  | none => exact cleared.repeered wired not_false
  | some y =>
    cases y with
    | port q =>
      dsimp only at sound ⊢
      split_ifs with htype hasked
      · exact cleared.repeered wired fun h => htype h.1
      · have sound := (sound.resolve_left htype).resolve_left (by rw [hasked]; decide)
        have free : ChainEnd.port q ≠ .port p ∧ s₁.linkOf (.port q) = none ∧
            Takes c s₁ (.port q) := by
          by_cases hy : s.linkOf (.port p) = some (.port q)
          · -- the port is linked to this peer: the link is taken down and made again
            refine ⟨fun h => wired.irrefl _ (h ▸ hy), ?_, ?_⟩
            · rw [cleared.link, if_pos (Or.inr hy)]
            · exact PortOk.takes (cleared.ok _ (Used.of_link (wired.symm _ _ hy)))
          obtain ⟨hqp, hq, takes⟩ := sound.resolve_left hy
          have hqp' : ChainEnd.port q ≠ .port p := fun h => hqp (ChainEnd.port.inj h)
          have same := cleared.others (.port q) hqp' hy
          refine ⟨hqp', same.link.trans hq, ?_⟩
          have index : (s₁.ports q).portIndex = (s.ports q).portIndex :=
            congrArg Hop.next (same.way .ingress).start
          unfold Takes at takes ⊢
          dsimp only at takes ⊢
          rw [show (s₁.ports q).cubes = (s.ports q).cubes from same.cubes, index]
          exact takes
        obtain ⟨s', hs', repeered'⟩ := cleared.connect wired cleared.complete rfl rfl
          (fun r => SameAt.refl s₁ _) free.2.1 free.1 (not_not.1 htype).symm free.2.2
          (fun e h => by cases h) _
        rw [hs']
        exact repeered'
      · exact cleared.repeered wired fun h => hasked h.2
    | iface e =>
      -- in use when the old link is gone is what was in use by another port
      have used : ((s₁.ifaces e).known = true ∧ (s₁.ifaces e).peer.isSome = true) ↔
          InUse s p e := by
        unfold InUse
        by_cases hy : s.linkOf (.port p) = some (.iface e)
        · have back : (s.ifaces e).peer = some p :=
            Option.map_injective (fun _ _ => ChainEnd.port.inj) (wired.symm _ _ hy)
          have gone : (s₁.ifaces e).peer = none := Option.map_eq_none_iff.1
            ((cleared.link (.iface e)).trans (if_pos (Or.inr hy)))
          rw [gone, back]
          exact iff_of_false (fun h => by cases h.2) fun h => h.2.2 rfl
        · have same := cleared.others (.iface e) (fun h => by cases h) hy
          have hlink : (s₁.ifaces e).peer = (s.ifaces e).peer :=
            Option.map_injective (fun _ _ => ChainEnd.port.inj) same.link
          rw [cleared.known e hy, hlink, Option.isSome_iff_ne_none]
          refine and_congr_right fun _ => (and_iff_left_of_imp fun _ h => hy ?_).symm
          exact wired.symm _ _ (congrArg (Option.map ChainEnd.port) h)
      dsimp only at sound ⊢
      rw [if_congr used rfl rfl]
      split_ifs with huse
      · exact cleared.repeered wired fun h => h huse
      · obtain ⟨htype, fits, last⟩ := sound.resolve_left huse
        have free : s₁.linkOf (.iface e) = none := by
          by_contra hl
          have known := cleared.complete.wired.known e (Or.inr hl)
          refine huse (used.1 ⟨known, Option.isSome_iff_ne_none.2 fun h => hl ?_⟩)
          exact congrArg (Option.map ChainEnd.port) h
        have accepts : (s₁.ifaces e).known = true → (s₁.ifaces e).type = c.type p.cube := by
          intro known
          rw [cleared.type]
          by_cases hy : s.linkOf (.port p) = some (.iface e)
          · exact (wired.link_type _ _ hy).symm
          · exact htype ((cleared.known e hy).symm.trans known)
        obtain ⟨cubes₂, link₂, complete₂⟩ := cleared.complete.create e (c.type p.cube)
        have last₂ : LastIngress c ((s₁.create e (c.type p.cube)).ifaces e).cubes := by
          rw [show ((s₁.create e (c.type p.cube)).ifaces e).cubes = (s.ifaces e).cubes from
            congrFun (cubes₂.trans cleared.cubes) (.iface e)]
          exact last
        obtain ⟨s', hs', repeered'⟩ := cleared.connect wired complete₂ cubes₂ link₂
          (fun r => sameAt_create cleared.complete r e _) (y := .iface e)
          (by rw [link₂, free]) (fun h => by cases h) (create_type accepts) ⟨last₂, fits⟩
          (fun i hi => by
            cases hi
            exact create_known s₁ e _) _
        rw [hs']
        exact repeered'

theorem Repeered.setName {links : Prop} (repeered : Repeered c p links s s')
    (peer : Option ChainEnd) : Repeered c p links s (s'.setName p peer) where
  complete := repeered.complete.setName p peer
  cubes := (cubesOf_of_shape (shape_setName p peer)).trans repeered.cubes
  free q hq := by
    have same := sameAt_setName (c := c) (s := s') p peer (.port q)
    refine (repeered.free q (same.link.symm.trans hq)).imp (fun h => ?_) fun h => ?_
    · exact ⟨h.1, (same.entry q rfl).trans h.2⟩
    · exact ⟨h.1, h.2.1, Ok.of_sameAt same h.2.2⟩
  again h := by
    rw [(sameAt_setName (c := c) (s := s') p peer (.port p)).link]
    exact repeered.again h

theorem Complete.setPeer {peer : Option ChainEnd} {asked : Bool} (complete : Complete c s)
    (hname : (s.ports p).peerName ≠ peer) (sound : Sound c s (.setPeer p peer asked)) :
    (s.setPeer c p peer asked).Leaves (Repeered c p (Links c s p peer asked) s) := by
  have leaves := complete.setPortPeer hname sound
  unfold Chains.setPeer
  rw [if_neg hname]
  cases h : s.setPortPeer c p peer asked with
  | returned s' =>
    rw [h] at leaves
    exact Repeered.setName leaves peer
  | threw err s' =>
    rw [h] at leaves
    exact leaves
  | undefined =>
    rw [h] at leaves
    exact leaves

end Peers

section Runs

theorem Complete.exec {op : ChainOp} (complete : Complete c s) (sound : Sound c s op) :
    (s.exec c op).Leaves (Complete c) := by
  cases op with
  | attach cube x position other => exact complete.attach sound
  | detach cube x => exact complete.detach sound
  | setPeer p peer asked =>
    by_cases hname : (s.ports p).peerName = peer
    · show (s.setPeer c p peer asked).Leaves (Complete c)
      unfold Chains.setPeer
      rw [if_pos hname]
      exact complete
    · exact (complete.setPeer hname sound).mono fun s' h => h.complete

theorem step_of_leaves {P : Chains → Prop} {op : ChainOp} (h : (s.exec c op).Leaves P) :
    P (s.step c op) := by
  unfold step
  cases hr : s.exec c op with
  | returned s' =>
    rw [hr] at h
    exact h
  | threw err s' =>
    rw [hr] at h
    exact h
  | undefined =>
    rw [hr] at h
    exact h.elim

/-- A router `r` with ports, and a bridge cube `mon` that watches what is sent. -/
def watched : Programs where
  index cube type :=
    if cube = "r" ∧ type = .ingress then 1 else if cube = "mon" ∧ type = .egress then 2 else 0
  type _ := .tc
  serviceName cube := cube
  path p := p.cube
  ifindex _ := 3
  index_lt cube type := by
    split_ifs <;> decide

end Runs

end Chains

end Polycube.Polycubed
