import Polycube.Bridging.Operations
import Polycube.Lib.Run

/-!
# The tables mirror the configuration

The configuration is changed by requests, and the STP instances report port states in between.  A
request keeps the tables as the configuration has them; a report does when the port is still in the
VLAN.
-/

namespace Polycube.Bridging

open Lib

/-! ### Requests and reports -/

def Ports.overwrite (p q : Ports) : Ports := { q with link := p.link, stps := p.stps }

namespace Bridge

def store (b : Bridge) (p : Ports) : Bridge :=
  { b with ports := modifyKey Ports.index p.index p.overwrite b.ports }

def withPort (b : Bridge) (name : String) (op : PortOp) : Bridge :=
  match b.portNamed name with
  | none => b
  | some p =>
    match op.run ⟨b, p⟩ with
    | .ok _ w => w.bridge.store w.port
    | .error _ w => w.bridge.store w.port

def eachPort (op : PortOp) : List String → Bridge → Bridge
  | [], b => b
  | name :: names, b =>
    match b.portNamed name with
    | none => eachPort op names b
    | some p =>
      match op.run ⟨b, p⟩ with
      | .ok _ w => eachPort op names (w.bridge.store w.port)
      | .error _ w => w.bridge.store w.port

def newPort (name : String) (index : ℕ) : Ports := ⟨name, index, .access 0#16, []⟩

/-- `addPorts`.  When the constructor throws the members of the port are destroyed, the port itself
is not. -/
def insertPorts (b : Bridge) (name : String) (index : ℕ) (conf : PortOp.LinkConf)
    (stp : List Vlan) (junk : PortOp.Uninitialised) : EStateM.Result String Bridge Unit :=
  if (b.portNamed name).isSome || (b.portAt index).isSome then .error "Port already exists" b
  else
    match (PortOp.create conf stp junk).run ⟨b, newPort name index⟩ with
    | .ok _ w => .ok () { w.bridge with ports := w.bridge.ports ++ [w.port] }
    | .error e w =>
      match PortOp.removeStpList.run w with
      | .ok _ w => .error e w.bridge
      | .error _ w => .error e w.bridge

def addPorts (b : Bridge) (name : String) (index : ℕ) (conf : PortOp.LinkConf) (stp : List Vlan)
    (junk : PortOp.Uninitialised) : Bridge :=
  match b.insertPorts name index conf stp junk with
  | .ok _ b => b
  | .error _ b => b

def delPorts (b : Bridge) (name : String) : Bridge :=
  match b.portNamed name with
  | none => b
  | some p =>
    match PortOp.destroy.run ⟨b, p⟩ with
    | .ok _ w => { w.bridge with ports := eraseKey Ports.index p.index w.bridge.ports }
    | .error _ w => { w.bridge with ports := eraseKey Ports.index p.index w.bridge.ports }

/-- `setStpEnabled`, from `updatePorts` on. -/
def setStpEnabled (b : Bridge) (value : Bool) : Bridge :=
  if b.stpEnabled = value then b
  else if value then
    eachPort PortOp.setStpEnabled (b.ports.map Ports.name) { b with stpEnabled := true }
  else
    { eachPort PortOp.removeStpList (b.ports.map Ports.name) b with stpEnabled := false }

/-- The key under which `updatePortsState` writes the state of a port. -/
def reportKey (link : Link) (vlan : Vlan) : Vlan :=
  match link.mode with
  | .access => vlanWildcard
  | .trunk => vlan

/-- `updatePortsState` of the instance of a VLAN. -/
def updatePortsState (b : Bridge) (vlan : Vlan) (stp : Stp) : Bridge where
  stpEnabled := b.stpEnabled
  ports := b.ports
  stps := Function.update b.stps vlan
    (some { stp with lib := { stp.lib with stateChanged := fun _ => false } })
  tables :=
    { b.tables with
      portVlan := fun index =>
        match b.portAt index with
        | none => b.tables.portVlan index
        | some p =>
          if stp.lib.stateChanged index then
            Function.update (b.tables.portVlan index) (reportKey p.link vlan)
              (some ⟨vlan, stp.lib.state index⟩)
          else b.tables.portVlan index }

def stpUpdate (b : Bridge) (vlan : Vlan) (next : ℕ → StpState) : Bridge :=
  match b.stps vlan with
  | none => b
  | some stp => b.updatePortsState vlan { stp with lib := stp.lib.advance next }

inductive Event
  | addPorts (name : String) (index : ℕ) (conf : PortOp.LinkConf) (stp : List Vlan)
      (junk : PortOp.Uninitialised)
  | delPorts (name : String)
  | setMode (name : String) (value : PortsMode) (junk : PortOp.Uninitialised)
  | setVlanid (name : String) (value : Vlan)
  | addAllowed (name : String) (vlanid : Vlan)
  | delAllowed (name : String) (vlanid : Vlan)
  | delAllowedList (name : String)
  | replaceAllowed (name : String) (vlanid value : Vlan)
  | setNativeVlanEnabled (name : String) (value : Bool)
  | setNativeVlan (name : String) (value : Vlan)
  | setStpEnabled (value : Bool)
  | stpUpdate (vlan : Vlan) (next : ℕ → StpState)

def step (b : Bridge) : Event → Bridge
  | .addPorts name index conf stp junk => b.addPorts name index conf stp junk
  | .delPorts name => b.delPorts name
  | .setMode name value junk => b.withPort name (PortOp.setMode value junk)
  | .setVlanid name value =>
    b.withPort name (PortOp.onAccess fun vlanId => PortOp.setVlanid vlanId value)
  | .addAllowed name vlanid => b.withPort name (PortOp.onTrunk (PortOp.addAllowed vlanid))
  | .delAllowed name vlanid => b.withPort name (PortOp.onTrunk (PortOp.delAllowed vlanid))
  | .delAllowedList name =>
    b.withPort name (PortOp.onTrunk fun t => PortOp.delAllowedList t.allowed)
  | .replaceAllowed name vlanid value => b.withPort name (PortOp.replaceAllowed vlanid value)
  | .setNativeVlanEnabled name value =>
    b.withPort name (PortOp.onTrunk (PortOp.setNativeVlanEnabled value))
  | .setNativeVlan name value => b.withPort name (PortOp.onTrunk (PortOp.setNativeVlan value))
  | .setStpEnabled value => b.setStpEnabled value
  | .stpUpdate vlan next => b.stpUpdate vlan next

def empty (stpEnabled : Bool) : Bridge :=
  ⟨stpEnabled, [], fun _ => none, ⟨fun _ => none, fun _ _ => none⟩⟩

/-- The entries that a request or a report adds to `port_vlan`. -/
def added (b : Bridge) : Event → ℕ
  | .addPorts name index conf stp junk =>
    if (b.portNamed name).isSome || (b.portAt index).isSome then 0
    else if b.stpEnabled = false ∧ stp ≠ [] then 0
    else (conf.link junk).vlans.length
  | .setMode name value _ =>
    match b.portNamed name with
    | none => 0
    -- the entries of the old mode are removed first
    | some p => if p.link.mode ≠ value ∧ p.link.vlans = [] then 1 else 0
  | .addAllowed name vlanid =>
    match (b.portNamed name).map Ports.link with
    | some (.trunk t) => if vlanid ∈ t.allowed ∨ PortOp.invalidVlan vlanid then 0 else 1
    | _ => 0
  | .stpUpdate vlan next =>
    match b.stps vlan with
    | none => 0
    | some stp => b.ports.countP fun p => (stp.lib.advance next).stateChanged p.index &&
        (b.tables.portVlan p.index (reportKey p.link vlan)).isNone
  | _ => 0

/-- `allocate_port_id` gives `_POLYCUBE_MAX_PORTS` numbers, so that `ports` with its 256 entries is
never full. -/
def Event.Numbered : Event → Prop
  | .addPorts _ index .. => index < 128
  | _ => True

instance : ∀ e : Event, Decidable e.Numbered
  | .addPorts _ index .. => inferInstanceAs (Decidable (index < 128))
  | .delPorts _ | .setMode .. | .setVlanid .. | .addAllowed .. | .delAllowed ..
  | .delAllowedList _ | .replaceAllowed .. | .setNativeVlanEnabled .. | .setNativeVlan ..
  | .setStpEnabled _ | .stpUpdate .. => inferInstanceAs (Decidable True)

/-- What a request or a report leaves.  `port_vlan` has 1024 entries; one that finds it full throws
with some of its writes done, and what it leaves is open. -/
def Leaves (b : Bridge) (e : Event) (b' : Bridge) : Prop :=
  e.Numbered ∧ (b.tables.entries.encard + b.added e ≤ 1024 → b' = b.step e)

/-! ### What holds in between -/

open PortOp

/-- The numbers without a port are not in the tables, and the STP instances enable ports in the
VLANs that they have a `PortsStp` for. -/
structure Skeleton (b : Bridge) : Prop where
  distinct : b.Distinct
  gone : ∀ index, b.portAt index = none →
    b.tables.ports index = none ∧ ∀ key, b.tables.portVlan index key = none
  enabled : ∀ vlan index, b.Enabled vlan index → ∃ p, b.portAt index = some p ∧ vlan ∈ p.stps

structure Inv (b : Bridge) : Prop extends Skeleton b where
  good : ∀ index p, b.portAt index = some p → Good ⟨b, p⟩

variable {b b' : Bridge} {p q : Ports} {w : Work} {name : String} {index : ℕ} {on : Bool}

theorem portAt_index (distinct : b.Distinct) (h : b.portAt index = some p) : p.index = index :=
  ((findKey_eq_some_iff distinct.indices).1 h).2

theorem portAt_of_mem (distinct : b.Distinct) (h : p ∈ b.ports) : b.portAt p.index = some p :=
  (findKey_eq_some_iff distinct.indices).2 ⟨h, rfl⟩

theorem portNamed_iff (distinct : b.Distinct) :
    b.portNamed name = some p ↔ p ∈ b.ports ∧ p.name = name :=
  findKey_eq_some_iff distinct.names

theorem Inv.mirrors (inv : b.Inv) : b.Mirrors := by
  refine ⟨fun index => ?_, fun index key => ?_⟩
  · cases h : b.portAt index with
    | none => exact (inv.gone index h).1
    | some p =>
      have entry := (inv.good index p h).entry
      rw [Work.entry, portAt_index inv.distinct h] at entry
      exact entry
  · cases h : b.portAt index with
    | none =>
      rw [(inv.gone index h).2 key]
      rfl
    | some p =>
      have entries := (inv.good index p h).held.portVlan key
      rw [portAt_index inv.distinct h] at entries
      exact entries

/-- Whether a port is as it ought to be depends on what is under its number. -/
theorem goodAs_congr (ports : b'.tables.ports p.index = b.tables.ports p.index)
    (portVlan : b'.tables.portVlan p.index = b.tables.portVlan p.index)
    (good : GoodAs on ⟨b, p⟩) : GoodAs on ⟨b', p⟩ := by
  refine ⟨⟨fun key => ?_, good.held.valid, good.held.stps⟩, ?_⟩
  · rw [portVlan]
    exact good.held.portVlan key
  · dsimp only [Work.entry]
    rw [ports]
    exact good.entry

section

variable (skeleton : b.Skeleton) (others : Others ⟨b, p⟩ w) (tables : b'.tables = w.bridge.tables)
  (same : ∀ index, index ≠ p.index → b'.portAt index = b.portAt index)
include skeleton others tables same

theorem skeleton_others (start : ∀ vlan, b.Enabled vlan p.index → vlan ∈ p.stps)
    (distinct : b'.Distinct) (stps : b'.stps = w.bridge.stps)
    (own : b'.portAt p.index = some w.port ∨
      b'.portAt p.index = none ∧ Bare w ∧ w.entry = none) : b'.Skeleton := by
  have own' := others.own start
  refine ⟨distinct, fun index none => ?_, fun vlan index on => ?_⟩
  · rw [tables]
    by_cases here : index = p.index
    · subst here
      rcases own with there | ⟨-, bare, entry⟩
      · rw [there] at none
        cases none
      · have entries := bare.portVlan
        rw [Work.entry, others.index] at entry
        rw [others.index] at entries
        exact ⟨entry, entries⟩
    · rw [others.ports index here, others.portVlan index here]
      exact skeleton.gone index (same index here ▸ none)
  · have on' : w.bridge.Enabled vlan index := by
      unfold Enabled at on ⊢
      rwa [stps] at on
    by_cases here : index = p.index
    · subst here
      have member := own' vlan on'
      rcases own with there | ⟨-, bare, -⟩
      · exact ⟨w.port, there, member⟩
      · simp [bare.stps] at member
    · rw [same index here]
      exact skeleton.enabled vlan index (others.enabled vlan index here on')

theorem goodAs_others {index : ℕ} (here : index ≠ p.index) (h : b'.portAt index = some q)
    (good : ∀ index q, b.portAt index = some q → GoodAs on ⟨b, q⟩) : GoodAs on ⟨b', q⟩ := by
  rw [same index here] at h
  have number := portAt_index skeleton.distinct h
  refine goodAs_congr ?_ ?_ (good index q h)
  · rw [tables, number, others.ports index here]
  · rw [tables, number, others.portVlan index here]

end

theorem inv_others (inv : b.Inv) (others : Others ⟨b, p⟩ w)
    (start : ∀ vlan, b.Enabled vlan p.index → vlan ∈ p.stps) (distinct : b'.Distinct)
    (flag : b'.stpEnabled = w.bridge.stpEnabled) (tables : b'.tables = w.bridge.tables)
    (stps : b'.stps = w.bridge.stps)
    (same : ∀ index, index ≠ p.index → b'.portAt index = b.portAt index)
    (own : b'.portAt p.index = some w.port ∧ Good w ∨
      b'.portAt p.index = none ∧ Bare w ∧ w.entry = none) : b'.Inv := by
  refine ⟨skeleton_others inv.toSkeleton others tables same start distinct stps
    (own.imp And.left id), fun index q hq => ?_⟩
  by_cases here : index = p.index
  · rw [here] at hq
    rcases own with ⟨there, good⟩ | ⟨gone, -⟩
    · rw [there] at hq
      rw [← Option.some.inj hq]
      have good' : GoodAs b'.stpEnabled ⟨w.bridge, w.port⟩ := by
        rw [flag]
        exact good
      exact goodAs_congr (by rw [tables]) (by rw [tables]) good'
    · rw [gone] at hq
      cases hq
  · have flag' : b'.stpEnabled = b.stpEnabled := flag.trans others.stpEnabled
    have rest : GoodAs b.stpEnabled ⟨b', q⟩ :=
      goodAs_others inv.toSkeleton others tables same here hq inv.good
    rwa [← flag'] at rest

theorem store_ports (distinct : b.Distinct) (hp : p ∈ b.ports) (others : Others ⟨b, p⟩ w) :
    (w.bridge.store w.port).Distinct ∧ (w.bridge.store w.port).portAt p.index = some w.port ∧
      ∀ index, index ≠ p.index → (w.bridge.store w.port).portAt index = b.portAt index := by
  have at' (index : ℕ) : (w.bridge.store w.port).portAt index =
      if index = p.index then (b.portAt index).map w.port.overwrite else b.portAt index := by
    unfold portAt store
    rw [findKey_modifyKey (f := w.port.overwrite) fun _ => rfl, others.bridgePorts, others.index]
  refine ⟨⟨?_, ?_⟩, ?_, fun index other => by rw [at', if_neg other]⟩
  · have names : ((w.bridge.store w.port).ports.map Ports.name) = b.ports.map Ports.name := by
      unfold store modifyKey
      rw [others.bridgePorts, List.map_map]
      refine List.map_congr_left fun q _ => ?_
      simp only [Function.comp_apply]
      split <;> rfl
    rw [names]
    exact distinct.names
  · have indices : ((w.bridge.store w.port).ports.map Ports.index) = b.ports.map Ports.index := by
      unfold store
      rw [map_modifyKey (f := w.port.overwrite) fun _ => rfl, others.bridgePorts]
    rw [indices]
    exact distinct.indices
  · rw [at', if_pos rfl, portAt_of_mem distinct hp, Option.map_some, Option.some.injEq]
    have name := others.name
    have number := others.index
    simp only at name number
    rw [Ports.overwrite, ← name, ← number]

/-- The instances enable a port in VLANs that it has a `PortsStp` for. -/
theorem Skeleton.own (skeleton : b.Skeleton) (hp : p ∈ b.ports) (vlan : Vlan)
    (on : b.Enabled vlan p.index) : vlan ∈ p.stps := by
  obtain ⟨q, hq, member⟩ := skeleton.enabled vlan p.index on
  rw [portAt_of_mem skeleton.distinct hp] at hq
  exact Option.some.inj hq ▸ member

theorem skeleton_store (skeleton : b.Skeleton) (hp : p ∈ b.ports) (others : Others ⟨b, p⟩ w) :
    (w.bridge.store w.port).Skeleton := by
  obtain ⟨distinct, own, same⟩ := store_ports skeleton.distinct hp others
  exact skeleton_others skeleton others rfl same (skeleton.own hp) distinct rfl (.inl own)

theorem inv_withPort {op : PortOp} (isLocal : Local op) (keeps : Keeps op) (inv : b.Inv)
    (name : String) : (b.withPort name op).Inv := by
  unfold withPort
  cases h : b.portNamed name with
  | none => exact inv
  | some p =>
    obtain ⟨hp, -⟩ := (portNamed_iff inv.distinct).1 h
    have good := inv.good p.index p (portAt_of_mem inv.distinct hp)
    have result := wp_and (isLocal ⟨b, p⟩) (keeps ⟨b, p⟩ good)
    have stored (w : Work) (h : Others ⟨b, p⟩ w ∧ Good w) : (w.bridge.store w.port).Inv := by
      obtain ⟨others, good⟩ := h
      obtain ⟨distinct, own, same⟩ := store_ports inv.distinct hp others
      exact inv_others inv others (inv.own hp) distinct rfl rfl rfl same (.inl ⟨own, good⟩)
    unfold wp at result
    dsimp only
    split at result <;> rename_i run <;> rw [run] <;> exact stored _ result

/-- A configuration that the constructor of `Ports` takes, and writes the entry of. -/
def CleanConf (b : Bridge) (conf : LinkConf) (stp : List Vlan) (junk : Uninitialised) : Prop :=
  if b.stpEnabled = false ∧ stp ≠ [] then True
  else stp = [] ∧ conf.Valid ∧ conf.Fits junk

instance (conf : LinkConf) (stp : List Vlan) (junk : Uninitialised) :
    Decidable (b.CleanConf conf stp junk) :=
  inferInstanceAs (Decidable (if b.stpEnabled = false ∧ stp ≠ [] then True else _))

/-- Without STP a list of instances is refused before anything is done. -/
theorem create_refused {conf : LinkConf} {stp : List Vlan} {junk : Uninitialised}
    (disabled : w.bridge.stpEnabled = false) (some : stp ≠ []) :
    (create conf stp junk).run w = .error "STP is disabled" w := by
  obtain ⟨vlan, vlans, rfl⟩ := List.exists_cons_of_ne_nil some
  have refused : (insertStp vlan).run w = .error "STP is disabled" w := by
    unfold insertStp
    simp [disabled]
  unfold create insertStpList
  simp [refused]

theorem inv_addPorts (inv : b.Inv) (name : String) (index : ℕ) {conf : LinkConf}
    {stp : List Vlan} {junk : Uninitialised} (clean : b.CleanConf conf stp junk) :
    (b.addPorts name index conf stp junk).Inv := by
  unfold addPorts insertPorts
  split_ifs with taken
  · exact inv
  simp only [Bool.or_eq_true, Option.isSome_iff_ne_none, not_or, not_not] at taken
  obtain ⟨newName, newIndex⟩ := taken
  unfold CleanConf at clean
  split_ifs at clean with refused
  · rw [create_refused refused.1 refused.2]
    exact inv
  obtain ⟨rfl, valid, fits⟩ := clean
  have bare : Bare ⟨b, newPort name index⟩ := ⟨(inv.gone index newIndex).2, rfl⟩
  have result := wp_and (local_create conf [] junk ⟨b, newPort name index⟩)
    (create_bare bare conf junk)
  unfold wp at result
  split at result
  swap
  · exact absurd valid result.2
  rename_i w run
  obtain ⟨others, -, made⟩ := result
  rw [run]
  have good := made.good ((written_eq_iff conf junk).2 fits)
  have hname : w.port.name = name := others.name
  have hindex : w.port.index = index := others.index
  have hports : w.bridge.ports = b.ports := others.bridgePorts
  have freshName : w.port.name ∉ w.bridge.ports.map Ports.name := by
    rw [hname, hports]
    exact findKey_eq_none_iff.1 newName
  have freshIndex : w.port.index ∉ w.bridge.ports.map Ports.index := by
    rw [hindex, hports]
    exact findKey_eq_none_iff.1 newIndex
  have at' (i : ℕ) : portAt { w.bridge with ports := w.bridge.ports ++ [w.port] } i =
      if index = i then some w.port else b.portAt i := by
    unfold portAt
    rw [findKey_concat freshIndex, hindex, hports]
  have distinct : Distinct { w.bridge with ports := w.bridge.ports ++ [w.port] } := by
    constructor
    · rw [List.map_append, List.map_singleton]
      rw [hports] at freshName ⊢
      exact List.nodup_append.2 ⟨inv.distinct.names, List.nodup_singleton _, by
        rintro a ha _ hb rfl
        exact freshName (List.mem_singleton.1 hb ▸ ha)⟩
    · rw [List.map_append, List.map_singleton]
      rw [hports] at freshIndex ⊢
      exact List.nodup_append.2 ⟨inv.distinct.indices, List.nodup_singleton _, by
        rintro a ha _ hb rfl
        exact freshIndex (List.mem_singleton.1 hb ▸ ha)⟩
  have same (i : ℕ) (other : i ≠ index) :
      portAt { w.bridge with ports := w.bridge.ports ++ [w.port] } i = b.portAt i := by
    rw [at', if_neg (Ne.symm other)]
  have start (vlan : Vlan) (on : b.Enabled vlan index) : vlan ∈ (newPort name index).stps := by
    obtain ⟨p, hp, -⟩ := inv.enabled vlan index on
    rw [newIndex] at hp
    cases hp
  exact inv_others inv others start distinct rfl rfl rfl same
    (.inl ⟨by rw [at', newPort, if_pos rfl], good⟩)

theorem inv_delPorts (inv : b.Inv) (name : String) : (b.delPorts name).Inv := by
  unfold delPorts
  cases h : b.portNamed name with
  | none => exact inv
  | some p =>
    obtain ⟨hp, -⟩ := (portNamed_iff inv.distinct).1 h
    have there := portAt_of_mem inv.distinct hp
    have result := wp_and (local_destroy ⟨b, p⟩) (destroy_good (inv.good p.index p there))
    unfold wp at result
    dsimp only
    split at result
    swap
    · exact result.2.elim
    rename_i w run
    obtain ⟨others, bare, entry⟩ := result
    rw [run]
    have hports : w.bridge.ports = b.ports := others.bridgePorts
    have at' (i : ℕ) : portAt
        { w.bridge with ports := eraseKey Ports.index p.index w.bridge.ports } i =
          if i = p.index then none else b.portAt i := by
      unfold portAt
      dsimp only
      rw [findKey_eraseKey, hports]
    have distinct : Distinct
        { w.bridge with ports := eraseKey Ports.index p.index w.bridge.ports } := by
      unfold eraseKey
      rw [hports]
      exact ⟨inv.distinct.names.sublist (List.filter_sublist.map _),
        inv.distinct.indices.sublist (List.filter_sublist.map _)⟩
    have same (i : ℕ) (other : i ≠ p.index) : portAt
        { w.bridge with ports := eraseKey Ports.index p.index w.bridge.ports } i =
          b.portAt i := by
      rw [at', if_neg other]
    exact inv_others inv others (inv.own hp) distinct rfl rfl rfl same
      (.inr ⟨by rw [at', if_pos rfl], bare, entry⟩)

/-- An operation that takes each port from one way of being to another does so for all ports. -/
theorem eachPort_good {op : PortOp} {on on' flag : Bool} (isLocal : Local op)
    (turns : ∀ w, w.bridge.stpEnabled = flag → GoodAs on w →
      wp op (fun _ => GoodAs on') (fun _ _ => False) w)
    (names : List String) (nodup : names.Nodup) (skeleton : b.Skeleton)
    (enabled : b.stpEnabled = flag)
    (state : ∀ index p, b.portAt index = some p →
      GoodAs (if p.name ∈ names then on else on') ⟨b, p⟩) :
    (eachPort op names b).Skeleton ∧ (eachPort op names b).stpEnabled = flag ∧
      ∀ index p, (eachPort op names b).portAt index = some p →
        GoodAs on' ⟨eachPort op names b, p⟩ := by
  induction names generalizing b with
  | nil => exact ⟨skeleton, enabled, by simpa [eachPort] using state⟩
  | cons name names ih =>
    obtain ⟨once, nodup⟩ := List.nodup_cons.1 nodup
    rw [eachPort]
    cases h : b.portNamed name with
    | none =>
      refine ih nodup skeleton enabled fun index p hp => ?_
      have other : p.name ≠ name := by
        rintro rfl
        have member := ((findKey_eq_some_iff skeleton.distinct.indices).1 hp).1
        exact findKey_eq_none_iff.1 h (List.mem_map_of_mem member)
      simpa only [List.mem_cons, other, false_or] using state index p hp
    | some p =>
      obtain ⟨hp, hname⟩ := (portNamed_iff skeleton.distinct).1 h
      have there := portAt_of_mem skeleton.distinct hp
      have before := state p.index p there
      rw [if_pos (by simp [hname])] at before
      have result := wp_and (isLocal ⟨b, p⟩) (turns ⟨b, p⟩ enabled before)
      unfold wp at result
      dsimp only
      split at result
      swap
      · exact result.2.elim
      rename_i w run
      obtain ⟨others, good⟩ := result
      rw [run]
      obtain ⟨distinct, own, same⟩ := store_ports skeleton.distinct hp others
      refine ih nodup (skeleton_store skeleton hp others) (others.stpEnabled.trans enabled)
        fun index q hq => ?_
      by_cases here : index = p.index
      · rw [here, own, Option.some.injEq] at hq
        subst hq
        have name' : w.port.name = name := others.name.trans hname
        rw [name', if_neg once]
        exact goodAs_congr (b := w.bridge) rfl rfl good
      · have other : q.name ≠ name := by
          intro sameName
          rw [same index here] at hq
          obtain ⟨hq', rfl⟩ := (findKey_eq_some_iff skeleton.distinct.indices).1 hq
          have twice := List.inj_on_of_nodup_map skeleton.distinct.names hq' hp
            (sameName.trans hname.symm)
          exact here (congrArg Ports.index twice)
        rw [same index here] at hq
        have before := state index q hq
        simp only [List.mem_cons, other, false_or] at before
        have number := portAt_index skeleton.distinct hq
        refine goodAs_congr ?_ ?_ before
        · rw [number]
          exact others.ports index here
        · rw [number]
          exact others.portVlan index here

theorem inv_setStpEnabled (inv : b.Inv) (value : Bool) : (b.setStpEnabled value).Inv := by
  unfold setStpEnabled
  have good (stpEnabled : Bool) (flag : b.stpEnabled = stpEnabled) (index : ℕ) (p : Ports)
      (hp : b.portAt index = some p) : GoodAs stpEnabled ⟨b, p⟩ := flag ▸ inv.good index p hp
  have named {index : ℕ} {p : Ports} (hp : b.portAt index = some p) :
      p.name ∈ b.ports.map Ports.name :=
    List.mem_map_of_mem ((findKey_eq_some_iff inv.distinct.indices).1 hp).1
  split_ifs with same enable
  · exact inv
  · have disabled : b.stpEnabled = false := by
      rw [enable] at same
      simpa using same
    have turns (w : Work) (enabled : w.bridge.stpEnabled = true) (before : GoodAs false w) :
        wp PortOp.setStpEnabled (fun _ => GoodAs true) (fun _ _ => False) w := by
      refine wp_mono (wp_and (local_setStpEnabled w) (setStpEnabled_good before enabled))
        (fun _ w' h => ?_) fun _ _ h => h.2
      unfold GoodAs
      rw [← h.1.stpEnabled.trans enabled]
      exact h.2
    obtain ⟨skeleton, flag, after⟩ := @eachPort_good { b with stpEnabled := true } _ false true true
      local_setStpEnabled turns (b.ports.map Ports.name) inv.distinct.names
      ⟨⟨inv.distinct.names, inv.distinct.indices⟩, inv.gone, inv.enabled⟩ rfl
      fun index p hp => by
        rw [if_pos (named hp)]
        exact good false disabled index p hp
    refine ⟨skeleton, fun index p hp => ?_⟩
    have good := after index p hp
    have asNow {on : Bool} {w : Work} (flag : w.bridge.stpEnabled = on) (good : GoodAs on w) :
        Good w := by
      subst flag
      exact good
    exact asNow flag good
  · have enabled : b.stpEnabled = true := by
      cases h : b.stpEnabled
      · simp_all
      · rfl
    have turns (w : Work) (_ : w.bridge.stpEnabled = true) (before : GoodAs true w) :
        wp removeStpList (fun _ => GoodAs false) (fun _ _ => False) w := removeStpList_good before
    obtain ⟨skeleton, -, after⟩ := eachPort_good local_removeStpList turns
      (b.ports.map Ports.name) inv.distinct.names inv.toSkeleton enabled fun index p hp => by
        rw [if_pos (named hp)]
        exact good true enabled index p hp
    exact ⟨⟨⟨skeleton.distinct.names, skeleton.distinct.indices⟩, skeleton.gone, skeleton.enabled⟩,
      after⟩

def CleanReport (b : Bridge) (vlan : Vlan) : Prop :=
  ∀ stp ∈ b.stps vlan, ∀ p ∈ b.ports, stp.lib.stateChanged p.index = true → vlan ∈ p.link.vlans

instance (vlan : Vlan) : Decidable (b.CleanReport vlan) :=
  inferInstanceAs (Decidable (∀ stp ∈ b.stps vlan, ∀ p ∈ b.ports, _))

/-- A protocol step changes the states of enabled ports only. -/
theorem advance_changed {lib : StpInstance} {next : ℕ → StpState}
    (h : (lib.advance next).stateChanged index = true) :
    lib.stateChanged index = true ∨ lib.state index ≠ .disabled := by
  unfold StpInstance.advance at h
  simp only [Bool.or_eq_true, Bool.not_eq_true', decide_eq_false_iff_not, not_or] at h
  exact h.imp_right And.left

theorem Inv.vlan_of_enabled (inv : b.Inv) {vlan : Vlan} (hp : b.portAt index = some p)
    (on : b.Enabled vlan index) : vlan ∈ p.link.vlans := by
  obtain ⟨q, hq, member⟩ := inv.enabled vlan index on
  rw [hp, Option.some.injEq] at hq
  subst hq
  have stps := (inv.good index p hp).held.stps
  dsimp only at stps
  rw [stps] at member
  split_ifs at member
  · exact member
  · cases member

theorem vlanAt_reportKey {link : Link} {vlan : Vlan} (member : vlan ∈ link.vlans) :
    link.vlanAt (reportKey link vlan) = some vlan := by
  cases link with
  | access vlanId =>
    rw [Link.vlans, List.mem_singleton] at member
    simp [reportKey, Link.mode, Link.vlanAt, member]
  | trunk t =>
    have allowed : vlan ∈ t.allowed := member
    simp [reportKey, Link.mode, Link.vlanAt, allowed]

theorem inv_stpUpdate (inv : b.Inv) {vlan : Vlan} (clean : b.CleanReport vlan)
    (next : ℕ → StpState) : (b.stpUpdate vlan next).Inv := by
  unfold stpUpdate
  cases hs : b.stps vlan with
  | none => exact inv
  | some stp =>
    have kept (index : ℕ) (p : Ports) (hp : b.portAt index = some p) (key : Vlan) :
        Option.map (·.vlan) ((b.updatePortsState vlan
          { stp with lib := stp.lib.advance next }).tables.portVlan index key) =
            Option.map (·.vlan) (b.tables.portVlan index key) := by
      simp only [updatePortsState, hp]
      split_ifs with changed
      · have member : vlan ∈ p.link.vlans := by
          rcases advance_changed changed with reported | enabled
          · obtain ⟨member, rfl⟩ := (findKey_eq_some_iff inv.distinct.indices).1 hp
            exact clean stp hs p member reported
          · exact inv.vlan_of_enabled hp ⟨stp, hs, enabled⟩
        by_cases same : key = reportKey p.link vlan
        · subst same
          have entries := (inv.good index p hp).held.portVlan (reportKey p.link vlan)
          rw [portAt_index inv.distinct hp, vlanAt_reportKey member] at entries
          rw [Function.update_self]
          exact entries.symm
        · rw [Function.update_of_ne same]
      · rfl
    refine ⟨⟨⟨inv.distinct.names, inv.distinct.indices⟩, fun index none => ?_,
      fun v index on => ?_⟩, fun index p hp => ?_⟩
    · have none' : b.portAt index = .none := none
      refine ⟨(inv.gone index none').1, fun key => ?_⟩
      simp only [updatePortsState, none']
      exact (inv.gone index none').2 key
    · have on' : b.Enabled v index := by
        obtain ⟨stp', has, state⟩ := on
        by_cases same : v = vlan
        · subst same
          simp only [updatePortsState, Function.update_self, Option.some.injEq] at has
          subst has
          refine ⟨stp, hs, fun disabled => state ?_⟩
          simp [StpInstance.advance, disabled]
        · simp only [updatePortsState, Function.update_of_ne same] at has
          exact ⟨stp', has, state⟩
      exact inv.enabled v index on'
    · have hp' : b.portAt index = some p := hp
      have number := portAt_index inv.distinct hp'
      have good := inv.good index p hp'
      refine ⟨⟨fun key => ?_, good.held.valid, good.held.stps⟩, good.entry⟩
      rw [number, kept index p hp' key, ← number]
      exact good.held.portVlan key

/-- A new port has a configuration that its constructor takes and writes, and no instance reports a
port that has left its VLAN. -/
def CleanEvent (b : Bridge) : Event → Prop
  | .addPorts name index conf stp junk =>
    b.portNamed name = none → b.portAt index = none → b.CleanConf conf stp junk
  | .stpUpdate vlan _ => b.CleanReport vlan
  | _ => True

instance : ∀ e, Decidable (b.CleanEvent e)
  | .addPorts name index conf stp junk =>
    inferInstanceAs (Decidable (b.portNamed name = none → b.portAt index = none →
      b.CleanConf conf stp junk))
  | .stpUpdate vlan _ => inferInstanceAs (Decidable (b.CleanReport vlan))
  | .delPorts _ | .setMode .. | .setVlanid .. | .addAllowed .. | .delAllowed ..
  | .delAllowedList _ | .replaceAllowed .. | .setNativeVlanEnabled .. | .setNativeVlan ..
  | .setStpEnabled _ => inferInstanceAs (Decidable True)

theorem inv_empty (stpEnabled : Bool) : (empty stpEnabled).Inv where
  distinct := ⟨List.nodup_nil, List.nodup_nil⟩
  gone _ _ := ⟨rfl, fun _ => rfl⟩
  enabled := by simp [empty, Enabled]
  good := by simp [empty, portAt, findKey]

theorem inv_step (e : Event) (inv : b.Inv) (clean : b.CleanEvent e) : (b.step e).Inv := by
  cases e with
  | addPorts name index conf stp junk =>
    by_cases taken : b.portNamed name = none ∧ b.portAt index = none
    · exact inv_addPorts inv name index (clean taken.1 taken.2)
    · have ignored : b.addPorts name index conf stp junk = b := by
        unfold addPorts insertPorts
        rw [if_pos]
        rw [not_and_or] at taken
        simpa [Option.isSome_iff_ne_none] using taken
      rw [step, ignored]
      exact inv
  | delPorts name => exact inv_delPorts inv name
  | setMode name value junk => exact inv_withPort (local_setMode _ _) (keeps_setMode _ _) inv name
  | setVlanid name value =>
    exact inv_withPort (local_onAccess fun _ => local_setVlanid _ _) (keeps_setVlanid value) inv name
  | addAllowed name vlanid =>
    exact inv_withPort (local_onTrunk (local_addAllowed vlanid)) (keeps_addAllowed vlanid) inv name
  | delAllowed name vlanid =>
    exact inv_withPort (local_onTrunk (local_delAllowed vlanid)) (keeps_delAllowed vlanid) inv name
  | delAllowedList name =>
    exact inv_withPort (local_onTrunk fun _ => local_delAllowedList _) keeps_delAllowedList inv name
  | replaceAllowed name vlanid value =>
    exact inv_withPort (local_replaceAllowed _ _) (keeps_replaceAllowed vlanid value) inv name
  | setNativeVlanEnabled name value =>
    exact inv_withPort (local_onTrunk (local_setNativeVlanEnabled value))
      (keeps_setNativeVlanEnabled value) inv name
  | setNativeVlan name value =>
    exact inv_withPort (local_onTrunk (local_setNativeVlan value)) (keeps_setNativeVlan value) inv name
  | setStpEnabled value => exact inv_setStpEnabled inv value
  | stpUpdate vlan next => exact inv_stpUpdate inv clean next

def vlanCount (b : Bridge) : ℕ := (b.ports.map fun p => p.link.vlans.length).sum

/-- A step that keeps the tables: one of those, with room for the VLANs of all ports and those that
it adds. -/
structure Clean (b : Bridge) (e : Event) : Prop where
  event : b.CleanEvent e
  room : b.vlanCount + b.added e ≤ 1024

instance (e : Event) : Decidable (b.Clean e) :=
  decidable_of_iff (b.CleanEvent e ∧ b.vlanCount + b.added e ≤ 1024)
    ⟨fun h => ⟨h.1, h.2⟩, fun h => ⟨h.event, h.room⟩⟩

/-- The entries are those of the VLANs of the ports. -/
theorem Inv.entries_le (inv : b.Inv) : b.tables.entries.encard ≤ b.vlanCount := by
  let keys : List (ℕ × Vlan) := b.ports.flatMap fun p => p.link.keys.map fun k => (p.index, k)
  have within : b.tables.entries ⊆ (keys.toFinset : Set (ℕ × Vlan)) := by
    rintro ⟨index, key⟩ (has : (b.tables.portVlan index key).isSome)
    have entry := inv.mirrors.portVlan index key
    cases there : b.portAt index with
    | none => simp_all
    | some p =>
      obtain ⟨member, rfl⟩ := (findKey_eq_some_iff inv.distinct.indices).1 there
      have vlan : (p.link.vlanAt key).isSome := by
        rw [there, Option.bind_some] at entry
        rwa [← entry, Option.isSome_map]
      simpa [keys] using ⟨p, member, Link.mem_keys_of_vlanAt vlan, rfl⟩
  have count : keys.length = b.vlanCount := by
    have each (p : Ports) : p.link.keys.length = p.link.vlans.length := by
      cases p.link <;> rfl
    simp [keys, vlanCount, List.length_flatMap, each]
  calc b.tables.entries.encard ≤ (keys.toFinset : Set (ℕ × Vlan)).encard := Set.encard_le_encard within
    _ = keys.toFinset.card := Set.encard_coe_eq_coe_finsetCard _
    _ ≤ keys.length := Nat.cast_le.2 keys.toFinset_card_le
    _ = b.vlanCount := by rw [count]

theorem inv_leaves {e : Event} (inv : b.Inv) (clean : b.Clean e) (left : b.Leaves e b') : b'.Inv := by
  have room : b.tables.entries.encard + b.added e ≤ 1024 :=
    (add_le_add_left inv.entries_le _).trans (mod_cast clean.room)
  rw [left.2 room]
  exact inv_step e inv clean.event

/-- The tables mirror the configuration after runs of such steps. -/
theorem mirrors_run (stpEnabled : Bool) (events : List Event)
    (run : Runs (fun b e b' => b.Clean e ∧ b.Leaves e b') (empty stpEnabled) events b') :
    b'.Mirrors :=
  (run.induction (P := Inv) (fun _ _ _ inv step => inv_leaves inv step.1 step.2)
    (inv_empty stpEnabled)).mirrors

/-- An access port and a trunk port; the first gets another VLAN after its instance has reported. -/
theorem mirrors_run_pair : (run step (empty true)
    [.addPorts "access" 1 (.access 10#16) [] ⟨false, 0#16⟩,
      .addPorts "trunk" 2 (.trunk ⟨[5#16], true, 1#16⟩) [] ⟨false, 0#16⟩,
      .stpUpdate 10#16 fun _ => .listening, .setVlanid "access" 20#16,
      .stpUpdate 5#16 fun _ => .listening, .delAllowed "trunk" 5#16]).Mirrors := by
  refine mirrors_run true _ (Runs.of_meets ?_ (by decide +kernel :
    Meets step (fun b e => b.Clean e ∧ e.Numbered) (empty true) _))
  exact fun b e clean => ⟨clean.1, clean.2, fun _ => rfl⟩

/-- A port that leaves a VLAN is reported as disabled there, while another port keeps the instance:
the report puts its entry back. -/
theorem not_mirrors_run : ¬∀ stpEnabled events b',
    Runs Leaves (empty stpEnabled) events b' → b'.Mirrors := by
  intro mirrors
  have entry := (mirrors true
    [.addPorts "a" 1 (.trunk ⟨[5#16], true, 1#16⟩) [] ⟨false, 0#16⟩,
      .addPorts "b" 2 (.trunk ⟨[5#16], true, 1#16⟩) [] ⟨false, 0#16⟩,
      .delAllowed "a" 5#16, .stpUpdate 5#16 fun _ => .listening] _
    (Runs.of_meets (fun b e numbered => ⟨numbered, fun _ => rfl⟩) (by decide +kernel :
      Meets step (fun _ e => e.Numbered) (empty true) _))).portVlan 1 5#16
  revert entry
  decide +kernel

end Bridge

end Polycube.Bridging
