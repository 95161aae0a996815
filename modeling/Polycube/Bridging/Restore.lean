import Polycube.Bridging.Datapath
import Polycube.Bridging.Mirror

/-!
# Saving and restoring a bridge

`toJsonObject` gives the configuration of a bridge and its filtering database, and the constructor
makes a bridge of them.  Ports and entries are the same when they are under the same name: the
numbers of the ports are new.  The members that the constructor of `PortsTrunk` reads before it sets
them may hold anything, so a bridge is restored when it is whatever they hold.
-/

namespace Polycube.Bridging

open Lib PortOp
open Function (update)

/-! ### The saved bridge -/

/-- What is read of a `PortsJsonObject`. -/
structure PortsConf where
  name : String
  link : LinkConf
  stp : List Vlan

structure FdbEntryConf where
  vlan : Vlan
  mac : Mac
  port : String

structure BridgeConf where
  stpEnabled : Bool
  ports : List PortsConf
  entry : List FdbEntryConf

abbrev FwdTable := Vlan → Mac → Option FwdEntry

/-- A filtering database, with the keys that `getEntryList` goes through. -/
structure Fdb where
  agingTime : BitVec 32
  fwdtable : FwdTable
  keys : List (Vlan × Mac)
  listed : ∀ vlan mac e, fwdtable vlan mac = some e → (vlan, mac) ∈ keys

def PortsTrunk.toJsonObject (t : PortsTrunk) : TrunkConf where
  allowed := t.allowed
  nativeVlanEnabled := t.nativeVlanEnabled
  nativeVlan := if t.nativeVlanEnabled then t.nativeVlan else 0#16

def Link.toJsonObject : Link → LinkConf
  | .access vlanId => .access vlanId
  | .trunk t => .trunk t.toJsonObject

def Ports.toJsonObject (p : Ports) : PortsConf := ⟨p.name, p.link.toJsonObject, p.stps⟩

/-- Whether `constructFromMap` leaves an entry out. -/
def FwdEntry.old (e : FwdEntry) (agingTime now : BitVec 32) : Bool :=
  e.type = .dynamic && decide (agingTime < now - e.timestamp)

namespace Bridge

/-- `getEntryList`, from the keys on.  The type and the age are saved too, but nothing reads them. -/
def getEntryList (b : Bridge) (fdb : Fdb) (now : BitVec 32) :
    List (Vlan × Mac) → Except String (List FdbEntryConf)
  | [] => pure []
  | (vlan, mac) :: keys =>
    match fdb.fwdtable vlan mac with
    | none => b.getEntryList fdb now keys
    | some e =>
      if e.old fdb.agingTime now then b.getEntryList fdb now keys
      else
        match b.portAt e.port with
        | none => throw "Unable to get filtering database"
        | some p => do
          let entries ← b.getEntryList fdb now keys
          return ⟨vlan, mac, p.name⟩ :: entries

def toJsonObject (b : Bridge) (fdb : Fdb) (now : BitVec 32) : Except String BridgeConf := do
  let entry ← b.getEntryList fdb now fdb.keys
  return ⟨b.stpEnabled, b.ports.map Ports.toJsonObject, entry⟩

/-- `addPortsList` of the constructor.  The numbers are given out in order. -/
def addPortsList (junk : String → Uninitialised) : List PortsConf → Bridge → Except String Bridge
  | [], b => pure b
  | c :: cs, b =>
    match b.insertPorts c.name b.ports.length c.link c.stp (junk c.name) with
    | .ok _ b => addPortsList junk cs b
    | .error e _ => throw e

/-- `Fdb::addEntry` -/
def addEntry (b : Bridge) (now : BitVec 32) (c : FdbEntryConf) (t : FwdTable) :
    Except String FwdTable :=
  if invalidVlan c.vlan then throw "Not a valid VLAN"
  else
    match b.portNamed c.port with
    | none => throw "Port doesn't exist"
    | some p => pure (update t c.vlan
        (update (t c.vlan) c.mac (some ⟨now, p.index, .static⟩)))

def addEntryList (b : Bridge) (now : BitVec 32) : List FdbEntryConf → FwdTable → Except String FwdTable
  | [], t => pure t
  | c :: cs, t => do
    let t ← b.addEntry now c t
    b.addEntryList now cs t

/-- The constructor of `Bridge`. -/
def create (conf : BridgeConf) (junk : String → Uninitialised) (now : BitVec 32) :
    Except String (Bridge × FwdTable) := do
  let b ← addPortsList junk conf.ports (empty conf.stpEnabled)
  let t ← b.addEntryList now conf.entry fun _ _ => none
  return (b, t)

end Bridge

def Link.Same : Link → Link → Prop
  | .access vlanId, .access vlanId' => vlanId = vlanId'
  | .trunk t, .trunk t' =>
    (∀ vlan, vlan ∈ t.allowed ↔ vlan ∈ t'.allowed) ∧ t.nativeVlanEnabled = t'.nativeVlanEnabled ∧
      (t.nativeVlanEnabled = true → t.nativeVlan = t'.nativeVlan)
  | _, _ => False

theorem Link.Same.refl (l : Link) : l.Same l := by
  cases l with
  | access vlanId => exact rfl
  | trunk t => exact ⟨fun _ => Iff.rfl, rfl, fun _ => rfl⟩

def PortEntry.Same (e e' : PortEntry) : Prop :=
  e.mode = e'.mode ∧ e.nativeVlanEnabled = e'.nativeVlanEnabled ∧
    (e.nativeVlanEnabled = true → e.nativeVlan = e'.nativeVlan)

structure Ports.Same (b b' : Bridge) (p p' : Ports) : Prop where
  link : p.link.Same p'.link
  stps : ∀ vlan, vlan ∈ p.stps ↔ vlan ∈ p'.stps
  entry : Option.Rel PortEntry.Same (b.tables.ports p.index) (b'.tables.ports p'.index)
  portVlan : ∀ key, (b.tables.portVlan p.index key).map (·.vlan) =
    (b'.tables.portVlan p'.index key).map (·.vlan)

namespace Bridge

def NoStray (b : Bridge) : Prop :=
  ∀ index, b.portAt index = none →
    b.tables.ports index = none ∧ ∀ key, b.tables.portVlan index key = none

def staticPort (b : Bridge) (t : FwdTable) (vlan : Vlan) (mac : Mac) : Option String :=
  match t vlan mac with
  | some ⟨_, port, .static⟩ => (b.portAt port).map (·.name)
  | _ => none

structure Same (b : Bridge) (t : FwdTable) (b' : Bridge) (t' : FwdTable) : Prop where
  ports : ∀ name, Option.Rel (Ports.Same b b') (b.portNamed name) (b'.portNamed name)
  stps : ∀ vlan, (b.stps vlan).isSome = (b'.stps vlan).isSome
  stray : b.NoStray ∧ b'.NoStray
  static : ∀ vlan mac, b.staticPort t vlan mac = b'.staticPort t' vlan mac

def Restores (b : Bridge) (fdb : Fdb) (now later : BitVec 32) (junk : String → Uninitialised) :
    Prop :=
  ∃ conf, b.toJsonObject fdb now = .ok conf ∧
    ∃ b' t', create conf junk later = .ok (b', t') ∧ b.Same fdb.fwdtable b' t'

/-! ### Restored ports -/

/-- The numbers are given out in order, and nothing else is in the tables. -/
structure Numbered (b : Bridge) : Prop where
  names : (b.ports.map Ports.name).Nodup
  indices : b.ports.map Ports.index = List.range b.ports.length
  stray : b.NoStray

variable {b b' : Bridge} {p q : Ports} {w : Work} {name : String} {index : ℕ} {conf : LinkConf}
  {stp : List Vlan} {junk : Uninitialised}

theorem Numbered.distinct (h : b.Numbered) : b.Distinct :=
  ⟨h.names, by rw [h.indices]; exact List.nodup_range⟩

theorem Numbered.index_lt (h : b.Numbered) (hp : p ∈ b.ports) : p.index < b.ports.length := by
  have member := List.mem_map_of_mem (f := Ports.index) hp
  rw [h.indices] at member
  exact List.mem_range.1 member

theorem Numbered.portAt_eq_none (h : b.Numbered) (large : b.ports.length ≤ index) :
    b.portAt index = none := by
  refine findKey_eq_none_iff.2 fun member => ?_
  rw [h.indices, List.mem_range] at member
  omega

theorem numbered_empty (on : Bool) : (empty on).Numbered :=
  ⟨List.nodup_nil, rfl, fun _ _ => ⟨rfl, fun _ => rfl⟩⟩

theorem insertPorts_eq_ok_iff : b.insertPorts name index conf stp junk = .ok () b' ↔
    b.portNamed name = none ∧ b.portAt index = none ∧
      ∃ w, (PortOp.create conf stp junk).run ⟨b, newPort name index⟩ = .ok () w ∧
        b' = { w.bridge with ports := w.bridge.ports ++ [w.port] } := by
  unfold insertPorts
  split_ifs with taken
  · simp only [Bool.or_eq_true, Option.isSome_iff_ne_none] at taken
    constructor
    · intro h
      cases h
    · rintro ⟨newName, newIndex, -⟩
      exact absurd taken (by simp [newName, newIndex])
  · simp only [Bool.or_eq_true, Option.isSome_iff_ne_none, not_or, not_not] at taken
    rw [and_iff_right taken.1, and_iff_right taken.2]
    cases run : (PortOp.create conf stp junk).run ⟨b, newPort name index⟩ with
    | ok a w =>
      constructor
      · intro h
        injection h with _ same
        exact ⟨w, rfl, same.symm⟩
      · rintro ⟨w', same, rfl⟩
        injection same with _ same
        rw [same]
    | error e w =>
      constructor
      · intro h
        dsimp only at h
        split at h <;> cases h
      · rintro ⟨w', h, -⟩
        cases h

structure Made (b : Bridge) (junk : String → Uninitialised) (c : PortsConf) (p : Ports) : Prop where
  name : p.name = c.name
  run : ∃ w₀ w, Bare w₀ ∧ w₀.bridge.stpEnabled = b.stpEnabled ∧
    (PortOp.create c.link c.stp (junk c.name)).run w₀ = .ok () w ∧ w.port = p ∧
      b.tables.ports p.index = w.entry ∧
        b.tables.portVlan p.index = w.bridge.tables.portVlan w.port.index

theorem insertPorts_numbered (numbered : b.Numbered) {c : PortsConf}
    {junk : String → Uninitialised}
    (ok : b.insertPorts c.name b.ports.length c.link c.stp (junk c.name) = .ok () b') :
    b'.Numbered ∧ b'.stpEnabled = b.stpEnabled ∧
      (b.stpEnabled = false → b'.stps = b.stps) ∧
      (∃ p, b'.ports = b.ports ++ [p] ∧ b'.Made junk c p) ∧
      ∀ index, index < b.ports.length → b'.tables.ports index = b.tables.ports index ∧
        b'.tables.portVlan index = b.tables.portVlan index := by
  obtain ⟨newName, newIndex, w, run, rfl⟩ := insertPorts_eq_ok_iff.1 ok
  have others := local_create c.link c.stp (junk c.name) ⟨b, newPort c.name b.ports.length⟩
  unfold wp at others
  rw [run] at others
  have hname : w.port.name = c.name := others.name
  have hindex : w.port.index = b.ports.length := others.index
  have hports : w.bridge.ports = b.ports := others.bridgePorts
  have bare : Bare ⟨b, newPort c.name b.ports.length⟩ :=
    ⟨(numbered.stray _ newIndex).2, rfl⟩
  have at' (index : ℕ) : portAt { w.bridge with ports := w.bridge.ports ++ [w.port] } index =
      if b.ports.length = index then some w.port else b.portAt index := by
    have fresh : w.port.index ∉ w.bridge.ports.map Ports.index := by
      rw [hindex, hports]
      exact findKey_eq_none_iff.1 newIndex
    unfold portAt
    rw [findKey_concat fresh, hindex, hports]
  refine ⟨⟨?_, ?_, fun index none => ?_⟩, others.stpEnabled, fun off => (others.idle off rfl).1,
    ⟨w.port, by rw [hports], hname, _, w, bare, others.stpEnabled.symm, run, rfl, rfl, rfl⟩,
    fun index old => ?_⟩
  · rw [hports, List.map_append, List.map_singleton, hname]
    refine List.nodup_append.2 ⟨numbered.names, List.nodup_singleton _, ?_⟩
    rintro a ha _ hb rfl
    exact findKey_eq_none_iff.1 newName (List.mem_singleton.1 hb ▸ ha)
  · simp [hports, numbered.indices, hindex, List.range_succ]
  · rw [at'] at none
    split_ifs at none with last
    rw [others.ports index (Ne.symm last), others.portVlan index (Ne.symm last)]
    exact numbered.stray index none
  · have other : index ≠ b.ports.length := by omega
    exact ⟨others.ports index other, others.portVlan index other⟩

theorem Made.of_tables {junk : String → Uninitialised} {c : PortsConf} (made : b.Made junk c p)
    (enabled : b'.stpEnabled = b.stpEnabled)
    (ports : b'.tables.ports p.index = b.tables.ports p.index)
    (portVlan : b'.tables.portVlan p.index = b.tables.portVlan p.index) : b'.Made junk c p := by
  obtain ⟨name, w₀, w, bare, flag, run, port, entry, entries⟩ := made
  exact ⟨name, w₀, w, bare, flag.trans enabled.symm, run, port, ports.trans entry,
    portVlan.trans entries⟩

theorem addPortsList_made {junk : String → Uninitialised} {cs : List PortsConf}
    (numbered : b.Numbered) (ok : addPortsList junk cs b = .ok b') :
    b'.Numbered ∧ b'.stpEnabled = b.stpEnabled ∧
      (b.stpEnabled = false → b'.stps = b.stps) ∧ (cs = [] → b' = b) ∧
      (∃ ps, b'.ports = b.ports ++ ps ∧ List.Forall₂ (b'.Made junk) cs ps) ∧
      ∀ index, index < b.ports.length → b'.tables.ports index = b.tables.ports index ∧
        b'.tables.portVlan index = b.tables.portVlan index := by
  induction cs generalizing b with
  | nil =>
    obtain rfl := Except.ok.inj ok
    exact ⟨numbered, rfl, fun _ => rfl, fun _ => rfl, ⟨[], by simp, .nil⟩, fun _ _ => ⟨rfl, rfl⟩⟩
  | cons c cs ih =>
    rw [addPortsList] at ok
    cases inserted : b.insertPorts c.name b.ports.length c.link c.stp (junk c.name) with
    | error e b₁ =>
      rw [inserted] at ok
      cases ok
    | ok a b₁ =>
      rw [inserted] at ok
      obtain ⟨numbered₁, flag₁, idle₁, ⟨p, ports₁, made₁⟩, old₁⟩ :=
        insertPorts_numbered numbered inserted
      obtain ⟨numbered', flag', idle', -, ⟨ps, ports', made'⟩, old'⟩ := ih numbered₁ ok
      have length₁ : b₁.ports.length = b.ports.length + 1 := by simp [ports₁]
      have here : p.index < b₁.ports.length := numbered₁.index_lt (by simp [ports₁])
      refine ⟨numbered', flag'.trans flag₁, fun off => ?_, fun none => by simp at none,
        ⟨p :: ps, by simp [ports', ports₁], .cons ?_ made'⟩, fun index old => ?_⟩
      · exact (idle' (flag₁.trans off)).trans (idle₁ off)
      · exact made₁.of_tables flag' (old' _ here).1 (old' _ here).2
      · obtain ⟨ports, portVlan⟩ := old' index (by omega)
        exact ⟨ports.trans (old₁ index old).1, portVlan.trans (old₁ index old).2⟩

/-- Ports with valid configurations and names of their own are restored, without STP. -/
theorem addPortsList_ok (junk : String → Uninitialised) {cs : List PortsConf}
    (numbered : b.Numbered) (names : (b.ports.map Ports.name ++ cs.map PortsConf.name).Nodup)
    (valid : ∀ c ∈ cs, c.stp = [] ∧ c.link.Valid) : ∃ b', addPortsList junk cs b = .ok b' := by
  induction cs generalizing b with
  | nil => exact ⟨b, rfl⟩
  | cons c cs ih =>
    obtain ⟨noStp, valid₁⟩ := valid c (by simp)
    have newName : b.portNamed c.name = none := by
      refine findKey_eq_none_iff.2 fun member => ?_
      exact (List.nodup_append.1 names).2.2 _ member c.name (by simp) rfl
    have newIndex : b.portAt b.ports.length = none := numbered.portAt_eq_none (Nat.le_refl _)
    have bare : Bare ⟨b, newPort c.name b.ports.length⟩ := ⟨(numbered.stray _ newIndex).2, rfl⟩
    have result := create_bare bare c.link (junk c.name)
    unfold wp at result
    split at result
    swap
    · exact absurd valid₁ result
    rename_i w run
    have inserted : b.insertPorts c.name b.ports.length c.link c.stp (junk c.name) =
        .ok () { w.bridge with ports := w.bridge.ports ++ [w.port] } :=
      insertPorts_eq_ok_iff.2 ⟨newName, newIndex, w, noStp ▸ run, rfl⟩
    obtain ⟨numbered₁, -, -, ⟨p, ports₁, made⟩, -⟩ := insertPorts_numbered numbered inserted
    rw [addPortsList, inserted]
    refine ih numbered₁ ?_ fun c' member => valid c' (List.mem_cons_of_mem _ member)
    rw [ports₁]
    simpa [made.name] using names

/-- Without STP a port is made of a valid configuration that lists no instances. -/
theorem Made.disabled {junk : String → Uninitialised} {c : PortsConf} (made : b.Made junk c p)
    (off : b.stpEnabled = false) : c.stp = [] ∧ c.link.Valid ∧ p.stps = [] ∧
      p.link = c.link.link (junk c.name) ∧
      b.tables.ports p.index = c.link.written (junk c.name) (some ⟨c.link.mode, 1#16, true⟩) ∧
      ∀ key, (b.tables.portVlan p.index key).map (·.vlan) = p.link.vlanAt key := by
  obtain ⟨-, w₀, w, bare, flag, run, rfl, entry, entries⟩ := made
  have noStp : c.stp = [] := by
    by_contra some
    rw [create_refused (flag.trans off) some] at run
    cases run
  rw [noStp] at run
  have result := wp_and (local_create c.link [] (junk c.name) w₀)
    (create_bare bare c.link (junk c.name))
  unfold wp at result
  rw [run] at result
  obtain ⟨others, valid, held, link, entry'⟩ := result
  refine ⟨noStp, valid, ?_, link, entry.trans entry', fun key => ?_⟩
  · have stps := held.stps
    rwa [others.stpEnabled, flag, off, if_neg Bool.false_ne_true] at stps
  · rw [entries]
    exact held.portVlan key

end Bridge

/-! ### Ports with STP -/

namespace PortOp

variable {w : Work} {t : PortsTrunk}

/-- With STP a VLAN is allowed when the port is not in its instance; a `PortsStp` is made. -/
theorem addAllowed_stp (enabled : w.bridge.stpEnabled = true) (vlanid : Vlan) :
    wp (addAllowed vlanid t)
      (fun _ w' => w'.bridge.stpEnabled = true ∧ vlanid ∉ w.port.stps ∧
        w'.port.stps = w.port.stps ++ [vlanid] ∧
        w'.port.link = .trunk { t with allowed := t.allowed ++ [vlanid] })
      (fun _ w' => w'.bridge.stpEnabled = true ∧ w'.port.stps = w.port.stps ∧
        (vlanid ∉ t.allowed → ¬invalidVlan vlanid = true →
          w'.port.link = .trunk { t with allowed := t.allowed ++ [vlanid] }) ∧
        (vlanid ∈ t.allowed → w' = w)) w := by
  unfold addAllowed
  simp only [wp_ite, wp_bind, wp_throw, wp_setLink, wp_get, wp_insertStp, wp_onBridge]
  split_ifs with has invalid joined
  · exact ⟨enabled, trivial, fun new => absurd has new, fun _ => trivial⟩
  · exact ⟨enabled, trivial, fun _ valid => absurd invalid valid, fun _ => trivial⟩
  · exact ⟨enabled, trivial, fun _ _ => trivial, fun h => absurd h has⟩
  · exact ⟨enabled, joined, trivial, trivial⟩

theorem addAllowedList_stp (enabled : w.bridge.stpEnabled = true)
    (link : w.port.link = .trunk t) (vlans : List Vlan) :
    wp (addAllowedList vlans)
      (fun _ w' => w'.bridge.stpEnabled = true ∧
        w'.port.link = .trunk { t with allowed := t.allowed ++ vlans } ∧
        w.port.stps ⊆ w'.port.stps ∧ ∀ vlan ∈ vlans, vlan ∉ w.port.stps ∧ vlan ∈ w'.port.stps)
      (fun _ _ => True) w := by
  induction vlans generalizing w t with
  | nil => exact ⟨enabled, by simp [link], fun _ => id, by simp⟩
  | cons vlanid vlans ih =>
    rw [addAllowedList, wp_bind, wp_onTrunk link]
    refine wp_mono (addAllowed_stp enabled vlanid) ?_ fun _ _ _ => trivial
    rintro - w₁ ⟨enabled₁, new, stps₁, link₁⟩
    refine wp_mono (ih enabled₁ link₁) ?_ fun _ _ _ => trivial
    rintro - w' ⟨enabled', link', grows, each⟩
    have grows₁ : w.port.stps ⊆ w₁.port.stps := by
      rw [stps₁]
      exact List.subset_append_left _ _
    refine ⟨enabled', by simpa using link', fun vlan h => grows (grows₁ h), fun vlan member => ?_⟩
    rcases List.mem_cons.1 member with rfl | member
    · exact ⟨new, grows (by simp [stps₁])⟩
    · exact ⟨fun h => (each vlan member).1 (grows₁ h), (each vlan member).2⟩

/-- The native VLAN changes neither the instances nor the allowed VLANs. -/
theorem setNative_stp (link : w.port.link = .trunk t) (conf : TrunkConf) :
    wp (setNative conf)
      (fun _ w' => w'.port.stps = w.port.stps ∧
        ∃ t', w'.port.link = .trunk t' ∧ t'.allowed = t.allowed)
      (fun _ _ => True) w := by
  have rest (w₁ : Work) (t₁ : PortsTrunk) (link₁ : w₁.port.link = .trunk t₁)
      (stps : w₁.port.stps = w.port.stps) (allowed : t₁.allowed = t.allowed) :
      wp (onTrunk fun t => if t.nativeVlanEnabled then setNativeVlan conf.nativeVlan t else pure ())
        (fun _ w' => w'.port.stps = w.port.stps ∧
          ∃ t', w'.port.link = .trunk t' ∧ t'.allowed = t.allowed) (fun _ _ => True) w₁ := by
    rw [wp_onTrunk link₁]
    unfold setNativeVlan
    simp only [wp_ite, wp_bind, wp_throw, wp_pure, wp_setLink, wp_onBridge]
    split_ifs
    · exact ⟨stps, _, rfl, allowed⟩
    · exact ⟨stps, t₁, link₁, allowed⟩
    · exact ⟨stps, t₁, link₁, allowed⟩
  rw [setNative, wp_bind, wp_onTrunk link]
  unfold setNativeVlanEnabled
  simp only [wp_ite, wp_bind, wp_pure, wp_setLink, wp_onBridge]
  split_ifs
  · exact rest _ _ rfl rfl rfl
  · exact rest _ _ link rfl rfl

def HasMore (conf : TrunkConf) (w w' : Work) : Prop :=
  1#16 ∉ w.port.stps ∧ 1#16 ∈ w'.port.stps ∨
    1#16 ∉ conf.allowed ∧ ∃ t', w'.port.link = .trunk t' ∧ 1#16 ∈ t'.allowed

theorem createTrunk_stp (enabled : w.bridge.stpEnabled = true) (conf : TrunkConf)
    (junk : Uninitialised) :
    wp (createTrunk conf junk) (fun _ => HasMore conf w) (fun _ _ => True) w := by
  unfold createTrunk
  rw [wp_bind, wp_setLink, wp_bind]
  refine wp_mono (addAllowedList_stp (by exact enabled) rfl conf.allowed) ?_ fun _ _ _ => trivial
  rintro - w₁ ⟨enabled₁, link₁, -, each⟩
  rw [wp_bind, wp_tryCatch, wp_onTrunk link₁]
  by_cases has : 1#16 ∈ conf.allowed
  · obtain ⟨new, joined⟩ := each _ has
    have rest (w₂ : Work) (t₂ : PortsTrunk) (link₂ : w₂.port.link = .trunk t₂)
        (joined₂ : 1#16 ∈ w₂.port.stps) :
        wp (setNative conf) (fun _ => HasMore conf w) (fun _ _ => True) w₂ :=
      wp_mono (setNative_stp link₂ conf) (fun _ _ h => .inl ⟨new, h.1.symm ▸ joined₂⟩)
        fun _ _ _ => trivial
    refine wp_mono (addAllowed_stp enabled₁ 1#16) ?_ ?_
    · rintro - w₂ ⟨-, -, stps₂, link₂⟩
      exact rest w₂ _ link₂ (by simp [stps₂])
    · rintro - w₂ ⟨-, -, -, same⟩
      rw [same (by simpa using has)]
      exact rest w₁ _ link₁ joined
  · have rest (w₂ : Work) (t₂ : PortsTrunk) (link₂ : w₂.port.link = .trunk t₂)
        (allowed₂ : 1#16 ∈ t₂.allowed) :
        wp (setNative conf) (fun _ => HasMore conf w) (fun _ _ => True) w₂ := by
      refine wp_mono (setNative_stp link₂ conf) ?_ fun _ _ _ => trivial
      rintro - w' ⟨-, t', link', allowed⟩
      exact .inr ⟨has, t', link', allowed ▸ allowed₂⟩
    refine wp_mono (addAllowed_stp enabled₁ 1#16) ?_ ?_
    · rintro - w₂ ⟨-, -, -, link₂⟩
      exact rest w₂ _ link₂ (by simp)
    · rintro - w₂ ⟨-, -, link₂, -⟩
      exact rest w₂ _ (link₂ (by simpa using has) (by decide)) (by simp)

theorem createAccess_stp (enabled : w.bridge.stpEnabled = true) (vlanid : Vlan) :
    wp (createAccess vlanid) (fun _ w' => vlanid ∉ w.port.stps ∧ vlanid ∈ w'.port.stps)
      (fun _ _ => True) w := by
  unfold createAccess setVlanid
  simp only [wp_ite, wp_bind, wp_throw, wp_pure, wp_setLink, wp_get, wp_insertStp, wp_removeStp,
    wp_onBridge, ite_not]
  by_cases invalid : invalidVlan vlanid = true
  · rw [if_pos invalid]
    trivial
  rw [if_neg invalid, if_neg (ne_zero_of_valid invalid).symm, if_pos enabled, if_pos trivial,
    if_pos enabled]
  split_ifs with joined
  exact ⟨joined, by simp⟩

/-- With STP the constructor of a port makes an instance that the configuration does not list, or
allows VLAN 1 though the configuration does not. -/
theorem create_stp (enabled : w.bridge.stpEnabled = true) (none : w.port.stps = [])
    (conf : LinkConf) (stp : List Vlan) (junk : Uninitialised) :
    wp (create conf stp junk)
      (fun _ w' => (∃ vlan, vlan ∉ stp ∧ vlan ∈ w'.port.stps) ∨
        ∃ conf' t, conf = .trunk conf' ∧ w'.port.link = .trunk t ∧ 1#16 ∉ conf'.allowed ∧
          1#16 ∈ t.allowed)
      (fun _ _ => True) w := by
  have inserts (stp' : List Vlan) (w₁ : Work) (enabled₁ : w₁.bridge.stpEnabled = true) :
      wp (insertStpList stp') (fun _ w' => w'.bridge.stpEnabled = true ∧
        w'.port.stps = w₁.port.stps ++ stp') (fun _ _ => True) w₁ := by
    induction stp' generalizing w₁ with
    | nil => exact ⟨enabled₁, by simp⟩
    | cons vlan stp' ih =>
      rw [insertStpList, wp_bind, wp_insertStp, if_pos enabled₁]
      split_ifs
      refine wp_mono (ih ⟨w₁.bridge.attachStp w₁.port.index vlan,
        { w₁.port with stps := w₁.port.stps ++ [vlan] }⟩ enabled₁) ?_ fun _ _ => id
      rintro - w' ⟨enabled', stps⟩
      exact ⟨enabled', by simpa using stps⟩
  unfold create
  rw [wp_bind]
  refine wp_mono (inserts stp w enabled) ?_ fun _ _ => id
  rintro - w₁ ⟨enabled₁, stps⟩
  rw [none, List.nil_append] at stps
  rw [wp_bind, wp_onBridge]
  cases conf with
  | access vlanid =>
    refine wp_mono (createAccess_stp (by exact enabled₁) vlanid) ?_ fun _ _ => id
    rintro - w' ⟨new, joined⟩
    exact .inl ⟨vlanid, stps ▸ new, joined⟩
  | trunk conf =>
    refine wp_mono (createTrunk_stp (by exact enabled₁) conf junk) ?_ fun _ _ => id
    rintro - w' (⟨new, joined⟩ | ⟨new, t', link, allowed⟩)
    · exact .inl ⟨1#16, stps ▸ new, joined⟩
    · exact .inr ⟨conf, t', rfl, link, new, allowed⟩

end PortOp

namespace Bridge

variable {b b' : Bridge} {p q : Ports} {junk : String → Uninitialised} {c : PortsConf}

theorem Made.enabled (made : b.Made junk c p) (on : b.stpEnabled = true) :
    (∃ vlan, vlan ∉ c.stp ∧ vlan ∈ p.stps) ∨
      ∃ conf t, c.link = .trunk conf ∧ p.link = .trunk t ∧ 1#16 ∉ conf.allowed ∧
        1#16 ∈ t.allowed := by
  obtain ⟨-, w₀, w, bare, flag, run, rfl, -⟩ := made
  have result := create_stp (flag.trans on) bare.stps c.link c.stp (junk c.name)
  unfold wp at result
  rwa [run] at result

theorem stp_disabled (made : b.Made junk q.toJsonObject p) (link : q.link.Same p.link)
    (stps : ∀ vlan, vlan ∈ q.stps ↔ vlan ∈ p.stps) : b.stpEnabled = false := by
  rw [← Bool.not_eq_true]
  intro on
  rcases made.enabled on with ⟨vlan, new, joined⟩ | ⟨conf, t', conf_eq, link', new, allowed⟩
  · exact new ((stps vlan).2 joined)
  · cases hq : q.link with
    | access vlanId => simp [Ports.toJsonObject, Link.toJsonObject, hq] at conf_eq
    | trunk t =>
      simp only [Ports.toJsonObject, Link.toJsonObject, hq, LinkConf.trunk.injEq] at conf_eq
      rw [hq, link'] at link
      exact new (conf_eq ▸ (link.1 1#16).2 allowed)

end Bridge

def Link.Saveable : Link → Prop
  | .access vlanId => ¬invalidVlan vlanId = true
  | .trunk t => (t.allowed.Nodup ∧ ∀ vlan ∈ t.allowed, ¬invalidVlan vlan = true) ∧
    1#16 ∈ t.allowed ∧ t.nativeVlanEnabled = true ∧ t.nativeVlan = 1#16

theorem Link.Saveable.restored {l : Link} (h : l.Saveable) (junk : Uninitialised) :
    l.toJsonObject.Valid ∧ l.toJsonObject.link junk = l ∧
      l.toJsonObject.written junk (some ⟨l.toJsonObject.mode, 1#16, true⟩) = some l.entry := by
  cases l with
  | access vlanId => exact ⟨h, rfl, rfl⟩
  | trunk t =>
    obtain ⟨allowed, enabled, native⟩ := t
    obtain ⟨⟨nodup, valid⟩, one, on, first⟩ := h
    dsimp only at on first one
    subst on first
    have valid' : (Link.trunk ⟨allowed, true, 1#16⟩).toJsonObject.Valid :=
      ⟨nodup, valid, fun _ => by simp [PortsTrunk.toJsonObject, invalidVlan]⟩
    have same : (Link.trunk ⟨allowed, true, 1#16⟩).toJsonObject.link junk =
        .trunk ⟨allowed, true, 1#16⟩ := by
      simp [Link.toJsonObject, PortsTrunk.toJsonObject, LinkConf.link, TrunkConf.trunk, one]
    refine ⟨valid', same, ?_⟩
    rw [(written_eq_iff _ junk).2, same]
    simp [Link.toJsonObject, PortsTrunk.toJsonObject, LinkConf.Fits]

/-- What comes back whatever the uninitialised members hold is of this kind. -/
theorem saveable_of_restored {l : Link} {entry : Option PortEntry} (valid : l.toJsonObject.Valid)
    (links : ∀ junk, l.Same (l.toJsonObject.link junk))
    (entries : ∀ junk, Option.Rel PortEntry.Same entry
      (l.toJsonObject.written junk (some ⟨l.toJsonObject.mode, 1#16, true⟩))) :
    l.Saveable ∧ entry = some l.entry := by
  cases l with
  | access vlanId =>
    refine ⟨valid, ?_⟩
    cases entries ⟨false, 0#16⟩ with
    | some same =>
      rename_i e
      obtain ⟨mode, enabled, native⟩ := e
      obtain ⟨rfl, rfl, first⟩ := same
      obtain rfl := first rfl
      rfl
  | trunk t =>
    obtain ⟨allowed, enabled, native⟩ := t
    have one : 1#16 ∈ allowed := by
      by_contra none
      have allows := ((links ⟨false, 0#16⟩).1 1#16).2
      simp [PortsTrunk.toJsonObject, TrunkConf.trunk, none] at allows
    -- the member may hold what it is set to, or not
    have held := entries ⟨enabled, native⟩
    have other := entries ⟨!enabled, native⟩
    cases enabled with
    | false =>
      simp only [LinkConf.written, Link.toJsonObject, TrunkConf.written, PortsTrunk.toJsonObject,
        LinkConf.mode, Bool.false_eq_true, false_and, ↓reduceIte, Bool.not_false,
        Bool.true_eq_false] at held other
      cases held with
      | some same =>
        cases other with
        | some same' => exact Bool.noConfusion (same.2.1.symm.trans same'.2.1)
    | true =>
      simp only [LinkConf.written, Link.toJsonObject, TrunkConf.written, PortsTrunk.toJsonObject,
        LinkConf.mode, ↓reduceIte, ne_eq, not_true_eq_false, and_false, Bool.not_true,
        Bool.false_eq_true] at held other
      cases held with
      | some same =>
        rename_i e
        cases other with
        | some same' =>
          obtain ⟨mode, on, first⟩ := e
          obtain ⟨rfl, rfl, one'⟩ := same
          obtain rfl := one' rfl
          have native' : 1#16 = native := same'.2.2 rfl
          subst native'
          exact ⟨⟨⟨valid.1, valid.2.1⟩, one, rfl, rfl⟩, rfl⟩

namespace Bridge

variable {b b' : Bridge} {fdb : Fdb} {now : BitVec 32} {t t' : FwdTable}

def Saves (b : Bridge) (fdb : Fdb) (now : BitVec 32) (keys : List (Vlan × Mac))
    (c : FdbEntryConf) : Prop :=
  (c.vlan, c.mac) ∈ keys ∧ ∃ e, fdb.fwdtable c.vlan c.mac = some e ∧
    e.old fdb.agingTime now = false ∧ ∃ p, b.portAt e.port = some p ∧ c.port = p.name

theorem saves_nil {c : FdbEntryConf} : ¬b.Saves fdb now [] c := fun h => List.not_mem_nil h.1

variable {vlan : Vlan} {mac : Mac}

theorem saves_cons {keys : List (Vlan × Mac)} {c : FdbEntryConf} :
    b.Saves fdb now ((vlan, mac) :: keys) c ↔
      (∃ e, fdb.fwdtable vlan mac = some e ∧ e.old fdb.agingTime now = false ∧
        ∃ p, b.portAt e.port = some p ∧ c = ⟨vlan, mac, p.name⟩) ∨ b.Saves fdb now keys c := by
  unfold Saves
  rw [List.mem_cons, or_and_right]
  refine or_congr_left ⟨?_, ?_⟩
  · rintro ⟨same, e, has, young, p, hp, name⟩
    obtain ⟨rfl, rfl⟩ := Prod.mk.inj same
    exact ⟨e, has, young, p, hp, by rw [← name]⟩
  · rintro ⟨e, has, young, p, hp, rfl⟩
    exact ⟨rfl, e, has, young, p, hp, rfl⟩

theorem getEntryList_eq_ok {keys : List (Vlan × Mac)} {entries : List FdbEntryConf}
    (ok : b.getEntryList fdb now keys = .ok entries) :
    (∀ vlan mac e, (vlan, mac) ∈ keys → fdb.fwdtable vlan mac = some e →
      e.old fdb.agingTime now = false → (b.portAt e.port).isSome) ∧
    ∀ c, c ∈ entries ↔ b.Saves fdb now keys c := by
  induction keys generalizing entries with
  | nil =>
    obtain rfl := Except.ok.inj ok
    exact ⟨by simp, fun c => by simp [saves_nil]⟩
  | cons key keys ih =>
    obtain ⟨vlan, mac⟩ := key
    rw [getEntryList] at ok
    simp only [saves_cons, List.mem_cons]
    cases has : fdb.fwdtable vlan mac with
    | none =>
      rw [has] at ok
      obtain ⟨ports, members⟩ := ih ok
      refine ⟨fun vlan' mac' e here => ?_, fun c => by simp [members]⟩
      rcases here with same | rest
      · obtain ⟨rfl, rfl⟩ := Prod.mk.inj same
        simp [has]
      · exact ports vlan' mac' e rest
    | some e =>
      rw [has] at ok
      dsimp only at ok
      split_ifs at ok with old
      · obtain ⟨ports, members⟩ := ih ok
        refine ⟨fun vlan' mac' e' here has' young => ?_, fun c => by simp [members, old]⟩
        rcases here with same | rest
        · obtain ⟨rfl, rfl⟩ := Prod.mk.inj same
          obtain rfl := Option.some.inj (has.symm.trans has')
          exact absurd (old.symm.trans young) (by simp)
        · exact ports vlan' mac' e' rest has' young
      · cases hp : b.portAt e.port with
        | none =>
          rw [hp] at ok
          cases ok
        | some p =>
          rw [hp] at ok
          obtain ⟨rest, listed, made⟩ := bind_eq_ok_iff.1 ok
          obtain rfl := Except.ok.inj made
          obtain ⟨ports, members⟩ := ih listed
          refine ⟨fun vlan' mac' e' here has' young => ?_, fun c => ?_⟩
          · rcases here with same | rest
            · obtain ⟨rfl, rfl⟩ := Prod.mk.inj same
              obtain rfl := Option.some.inj (has.symm.trans has')
              simp [hp]
            · exact ports vlan' mac' e' rest has' young
          · simp [members, old, hp]

theorem getEntryList_ok (keys : List (Vlan × Mac))
    (ports : ∀ vlan mac e, fdb.fwdtable vlan mac = some e →
      e.old fdb.agingTime now = false → (b.portAt e.port).isSome) :
    ∃ entries, b.getEntryList fdb now keys = .ok entries := by
  induction keys with
  | nil => exact ⟨[], rfl⟩
  | cons key keys ih =>
    obtain ⟨vlan, mac⟩ := key
    obtain ⟨entries, ok⟩ := ih
    rw [getEntryList]
    cases has : fdb.fwdtable vlan mac with
    | none => exact ⟨entries, ok⟩
    | some e =>
      dsimp only
      split_ifs with old
      · exact ⟨entries, ok⟩
      · obtain ⟨p, hp⟩ := Option.isSome_iff_exists.1 (ports vlan mac e has (by simpa using old))
        rw [hp]
        exact ⟨_, bind_eq_ok_iff.2 ⟨entries, ok, rfl⟩⟩

theorem addEntry_eq_ok_iff {c : FdbEntryConf} : b.addEntry now c t = .ok t' ↔
    ¬invalidVlan c.vlan = true ∧ ∃ p, b.portNamed c.port = some p ∧
      t' = update t c.vlan
        (update (t c.vlan) c.mac (some ⟨now, p.index, .static⟩)) := by
  unfold addEntry
  split_ifs with invalid
  · constructor
    · intro h
      cases h
    · exact fun h => absurd invalid h.1
  · cases hp : b.portNamed c.port with
    | none =>
      constructor
      · intro h
        cases h
      · rintro ⟨-, p, same, -⟩
        cases same
    | some p => simp [invalid, pure, Except.pure, eq_comm]

theorem addEntryList_eq_ok {cs : List FdbEntryConf} (ok : b.addEntryList now cs t = .ok t') :
    (∀ c ∈ cs, ¬invalidVlan c.vlan = true) ∧ ∀ vlan mac,
      (∃ c ∈ cs, c.vlan = vlan ∧ c.mac = mac ∧ ∃ p, b.portNamed c.port = some p ∧
        t' vlan mac = some ⟨now, p.index, .static⟩) ∨
      (∀ c ∈ cs, ¬(c.vlan = vlan ∧ c.mac = mac)) ∧ t' vlan mac = t vlan mac := by
  induction cs generalizing t with
  | nil =>
    obtain rfl := Except.ok.inj ok
    exact ⟨by simp, fun _ _ => .inr ⟨by simp, rfl⟩⟩
  | cons c cs ih =>
    obtain ⟨t₁, added, ok⟩ := bind_eq_ok_iff.1 ok
    obtain ⟨valid, p, hp, rfl⟩ := addEntry_eq_ok_iff.1 added
    obtain ⟨valids, each⟩ := ih ok
    refine ⟨List.forall_mem_cons.2 ⟨valid, valids⟩, fun vlan mac => ?_⟩
    rcases each vlan mac with ⟨c', member, found⟩ | ⟨none, kept⟩
    · exact .inl ⟨c', List.mem_cons_of_mem _ member, found⟩
    · by_cases here : c.vlan = vlan ∧ c.mac = mac
      · obtain ⟨rfl, rfl⟩ := here
        exact .inl ⟨c, List.mem_cons_self, rfl, rfl, p, hp, by simp [kept]⟩
      · refine .inr ⟨List.forall_mem_cons.2 ⟨here, none⟩, kept.trans ?_⟩
        by_cases sameVlan : vlan = c.vlan
        · have other : mac ≠ c.mac := fun same => here ⟨sameVlan.symm, same.symm⟩
          simp [sameVlan, other]
        · simp [sameVlan]

theorem addEntryList_ok {cs : List FdbEntryConf} (t : FwdTable)
    (each : ∀ c ∈ cs, ¬invalidVlan c.vlan = true ∧ (b.portNamed c.port).isSome) :
    ∃ t', b.addEntryList now cs t = .ok t' := by
  induction cs generalizing t with
  | nil => exact ⟨t, rfl⟩
  | cons c cs ih =>
    obtain ⟨⟨valid, named⟩, rest⟩ := List.forall_mem_cons.1 each
    obtain ⟨p, hp⟩ := Option.isSome_iff_exists.1 named
    obtain ⟨t', ok⟩ := ih _ rest
    exact ⟨t', bind_eq_ok_iff.2 ⟨_, addEntry_eq_ok_iff.2 ⟨valid, p, hp, rfl⟩, ok⟩⟩

/-! ### Restoring -/

/-- Without STP, except where there is no port; with VLAN 1 as the native VLAN of trunk ports; with
tables that mirror the configuration, and without learned entries that are not too old. -/
structure Saveable (b : Bridge) (fdb : Fdb) (now : BitVec 32) : Prop where
  ports : ∀ p ∈ b.ports, b.stpEnabled = false ∧ p.stps = [] ∧ p.link.Saveable
  stps : ∀ vlan, b.stps vlan = none
  mirrors : b.Mirrors
  entries : ∀ vlan mac e, fdb.fwdtable vlan mac = some e → e.old fdb.agingTime now = true ∨
    e.type = .static ∧ ¬invalidVlan vlan = true ∧ (b.portAt e.port).isSome

variable {e : FwdEntry}

theorem staticPort_some (has : t vlan mac = some e)
    (static : e.type = .static) : b.staticPort t vlan mac = (b.portAt e.port).map (·.name) := by
  obtain ⟨timestamp, port, type⟩ := e
  dsimp only at static
  subst static
  simp [staticPort, has]

theorem staticPort_isSome (has : t vlan mac = some e)
    (some : (b.staticPort t vlan mac).isSome) : e.type = .static := by
  obtain ⟨timestamp, port, type⟩ := e
  cases type with
  | static => rfl
  | dynamic => simp [staticPort, has] at some

theorem Mirrors.noStray (h : b.Mirrors) : b.NoStray := by
  intro index none
  refine ⟨?_, fun key => ?_⟩
  · rw [h.ports, none]
    rfl
  · have entry := h.portVlan index key
    rw [none, Option.bind_none, Option.map_eq_none_iff] at entry
    exact entry

variable {later : BitVec 32}

theorem static_restored {entries : List FdbEntryConf}
    (saved : ∀ c, c ∈ entries ↔ b.Saves fdb now fdb.keys c) (distinct' : b'.Distinct)
    (added : b'.addEntryList later entries (fun _ _ => none) = .ok t') (vlan : Vlan) (mac : Mac) :
    b'.staticPort t' vlan mac = (fdb.fwdtable vlan mac).bind fun e =>
      if e.old fdb.agingTime now then none else (b.portAt e.port).map (·.name) := by
  obtain ⟨-, each⟩ := addEntryList_eq_ok added
  rcases each vlan mac with ⟨c, member, rfl, rfl, p', hp', found⟩ | ⟨none, kept⟩
  · obtain ⟨-, e, has, young, p, hp, name⟩ := (saved c).1 member
    have hp'' := (portNamed_iff distinct').1 hp'
    have there := portAt_of_mem distinct' hp''.1
    rw [staticPort_some found rfl, has]
    simp [there, young, hp, hp''.2, name]
  · have nothing : b'.staticPort t' vlan mac = .none := by simp [staticPort, kept]
    rw [nothing]
    cases has : fdb.fwdtable vlan mac with
    | none => rfl
    | some e =>
      rw [Option.bind_some]
      split_ifs with old
      · rfl
      · cases hp : b.portAt e.port with
        | none => rfl
        | some p =>
          exact absurd ⟨rfl, rfl⟩ (none ⟨vlan, mac, p.name⟩ ((saved _).2
            ⟨fdb.listed vlan mac e has, e, has, by simpa using old, p, hp, rfl⟩))

theorem old_dynamic (old : e.old fdb.agingTime now = true) : e.type = .dynamic := by
  unfold FwdEntry.old at old
  simp only [Bool.and_eq_true, decide_eq_true_eq] at old
  exact old.1

theorem restores_made {junk : String → Uninitialised} :
    b.Restores fdb now later junk ↔ ∃ entries b' t',
      b.getEntryList fdb now fdb.keys = .ok entries ∧
      addPortsList junk (b.ports.map Ports.toJsonObject) (empty b.stpEnabled) = .ok b' ∧
      b'.addEntryList later entries (fun _ _ => none) = .ok t' ∧ b.Same fdb.fwdtable b' t' := by
  constructor
  · rintro ⟨conf, saved, b', t', created, same⟩
    obtain ⟨entries, listed, made⟩ := bind_eq_ok_iff.1 saved
    obtain rfl := Except.ok.inj made
    obtain ⟨b₁, ports, created⟩ := bind_eq_ok_iff.1 created
    obtain ⟨t₁, added, made⟩ := bind_eq_ok_iff.1 created
    obtain ⟨rfl, rfl⟩ := Prod.mk.inj (Except.ok.inj made)
    exact ⟨entries, b₁, t₁, listed, ports, added, same⟩
  · rintro ⟨entries, b', t', listed, ports, added, same⟩
    refine ⟨_, bind_eq_ok_iff.2 ⟨entries, listed, rfl⟩, b', t', ?_, same⟩
    exact bind_eq_ok_iff.2 ⟨b', ports, bind_eq_ok_iff.2 ⟨t', added, rfl⟩⟩

theorem restored_ports {junk : String → Uninitialised}
    (ok : addPortsList junk (b.ports.map Ports.toJsonObject) (empty b.stpEnabled) = .ok b') :
    b'.Numbered ∧ b'.stpEnabled = b.stpEnabled ∧
      ((∃ p ∈ b.ports, b.stpEnabled = true) ∨ ∀ vlan, b'.stps vlan = none) ∧
      ∀ name, Option.Rel (fun q p => b'.Made junk q.toJsonObject p) (b.portNamed name)
        (b'.portNamed name) := by
  obtain ⟨numbered, flag, idle, nil, ⟨ps, ports, made⟩, -⟩ :=
    addPortsList_made (numbered_empty _) ok
  refine ⟨numbered, flag, ?_, fun name => ?_⟩
  · cases hb : b.ports with
    | nil =>
      right
      intro vlan
      rw [nil (by rw [hb, List.map_nil])]
      rfl
    | cons p rest =>
      cases on : b.stpEnabled with
      | true => exact .inl ⟨p, by simp, rfl⟩
      | false => exact .inr fun vlan => by rw [idle on]; rfl
  · unfold portNamed
    rw [ports, show (empty b.stpEnabled).ports = [] from rfl, List.nil_append]
    rw [List.forall₂_map_left_iff] at made
    exact findKey_forall₂ (fun q p h => h.name.symm) made

structure ComesBack (b : Bridge) (q : Ports) (junk : Uninitialised) : Prop where
  off : b.stpEnabled = false
  stps : q.stps = []
  valid : q.link.toJsonObject.Valid
  link : q.link.Same (q.link.toJsonObject.link junk)
  entry : Option.Rel PortEntry.Same (b.tables.ports q.index)
    (q.link.toJsonObject.written junk (some ⟨q.link.toJsonObject.mode, 1#16, true⟩))
  portVlan : ∀ key, (b.tables.portVlan q.index key).map (·.vlan) =
    (q.link.toJsonObject.link junk).vlanAt key

theorem restored_pair (distinct : b.Distinct) {junk : String → Uninitialised}
    (ok : addPortsList junk (b.ports.map Ports.toJsonObject) (empty b.stpEnabled) = .ok b')
    (same : b.Same t b' t') (hq : q ∈ b.ports) : b.ComesBack q (junk q.name) := by
  obtain ⟨-, flag, -, named⟩ := restored_ports ok
  have made := named q.name
  have alike := same.ports q.name
  rw [(portNamed_iff distinct).2 ⟨hq, rfl⟩] at made alike
  cases hp : b'.portNamed q.name with
  | none =>
    rw [hp] at made
    cases made
  | some p =>
    rw [hp] at made alike
    cases made with
    | some made =>
      cases alike with
      | some alike =>
        have off := stp_disabled made alike.link alike.stps
        obtain ⟨noStp, valid, -, link, entry, entries⟩ := made.disabled off
        refine ⟨flag.symm.trans off, noStp, valid, link ▸ alike.link, entry ▸ alike.entry,
          fun key => ?_⟩
        rw [alike.portVlan key, entries key, link]
        rfl

theorem saveable_of_restores (distinct : b.Distinct)
    (restores : ∀ junk, b.Restores fdb now later junk) : b.Saveable fdb now := by
  have each (q : Ports) (hq : q ∈ b.ports) : b.stpEnabled = false ∧ q.stps = [] ∧
      q.link.Saveable ∧ b.tables.ports q.index = some q.link.entry := by
    have facts (j : Uninitialised) : b.ComesBack q j := by
      obtain ⟨entries, b', t', -, ok, -, same⟩ := restores_made.1 (restores fun _ => j)
      exact restored_pair distinct ok same hq
    obtain ⟨off, noStp, valid, -, -, -⟩ := facts ⟨false, 0#16⟩
    exact ⟨off, noStp, saveable_of_restored valid (fun j => (facts j).link)
      fun j => (facts j).entry⟩
  obtain ⟨entries, b', t', listed, ok, added, same⟩ :=
    restores_made.1 (restores fun _ => ⟨false, 0#16⟩)
  obtain ⟨numbered', -, stps', -⟩ := restored_ports ok
  obtain ⟨ports, saved⟩ := getEntryList_eq_ok listed
  refine ⟨fun q hq => ⟨(each q hq).1, (each q hq).2.1, (each q hq).2.2.1⟩, fun vlan => ?_,
    ⟨fun index => ?_, fun index key => ?_⟩, fun vlan mac e has => ?_⟩
  · have none : b'.stps vlan = none := by
      rcases stps' with ⟨q, hq, on⟩ | none
      · exact absurd ((each q hq).1.symm.trans on) (by decide)
      · exact none vlan
    have isSome := same.stps vlan
    rw [none] at isSome
    simpa using isSome
  · cases h : b.portAt index with
    | none => exact (same.stray.1 index h).1
    | some q =>
      obtain ⟨hq, rfl⟩ := (findKey_eq_some_iff distinct.indices).1 h
      exact (each q hq).2.2.2
  · cases h : b.portAt index with
    | none =>
      rw [(same.stray.1 index h).2]
      rfl
    | some q =>
      obtain ⟨hq, rfl⟩ := (findKey_eq_some_iff distinct.indices).1 h
      rw [(restored_pair distinct ok same hq).portVlan, ((each q hq).2.2.1.restored _).2.1]
      rfl
  · cases old : e.old fdb.agingTime now with
    | true => exact .inl rfl
    | false =>
      right
      have port := ports vlan mac e (fdb.listed vlan mac e has) has old
      obtain ⟨p, hp⟩ := Option.isSome_iff_exists.1 port
      have member : ⟨vlan, mac, p.name⟩ ∈ entries :=
        (saved _).2 ⟨fdb.listed vlan mac e has, e, has, old, p, hp, rfl⟩
      refine ⟨?_, (addEntryList_eq_ok added).1 _ member, port⟩
      have static := same.static vlan mac
      rw [static_restored saved numbered'.distinct added, has] at static
      exact staticPort_isSome (b := b) has (by simp [static, old, hp])

theorem restores_of_saveable (distinct : b.Distinct) (h : b.Saveable fdb now)
    (junk : String → Uninitialised) : b.Restores fdb now later junk := by
  have young {vlan : Vlan} {mac : Mac} {e : FwdEntry} (has : fdb.fwdtable vlan mac = some e)
      (young : e.old fdb.agingTime now = false) := (h.entries vlan mac e has).resolve_left
        fun old => Bool.noConfusion (old.symm.trans young)
  obtain ⟨entries, listed⟩ := getEntryList_ok fdb.keys
    fun vlan mac e has now' => (young has now').2.2
  have names : ((empty b.stpEnabled).ports.map Ports.name ++
      (b.ports.map Ports.toJsonObject).map PortsConf.name).Nodup := by
    rw [List.map_map]
    exact distinct.names
  obtain ⟨b', ok⟩ := addPortsList_ok junk (numbered_empty b.stpEnabled) names
    fun c member => by
      obtain ⟨q, hq, rfl⟩ := List.mem_map.1 member
      obtain ⟨-, noStp, saveable⟩ := h.ports q hq
      exact ⟨noStp, (saveable.restored ⟨false, 0#16⟩).1⟩
  obtain ⟨numbered', flag, stps', named⟩ := restored_ports ok
  obtain ⟨-, saved⟩ := getEntryList_eq_ok listed
  obtain ⟨t', added⟩ := @addEntryList_ok b' later entries (fun _ _ => none)
    fun c member => by
      obtain ⟨-, e, has, now', p, hp, name⟩ := (saved c).1 member
      refine ⟨(young has now').2.1, ?_⟩
      have rel := named p.name
      rw [(portNamed_iff distinct).2
        ⟨((findKey_eq_some_iff distinct.indices).1 hp).1, rfl⟩, ← name] at rel
      cases hp' : b'.portNamed c.port with
      | none =>
        rw [hp'] at rel
        cases rel
      | some p' => rfl
  refine restores_made.2 ⟨entries, b', t', listed, ok, added, fun name => ?_, fun vlan => ?_,
    ⟨h.mirrors.noStray, numbered'.stray⟩, fun vlan mac => ?_⟩
  · have rel := named name
    cases hq : b.portNamed name with
    | none =>
      rw [hq] at rel
      cases hp : b'.portNamed name with
      | none => exact .none
      | some p =>
        rw [hp] at rel
        cases rel
    | some q =>
      rw [hq] at rel
      cases hp : b'.portNamed name with
      | none =>
        rw [hp] at rel
        cases rel
      | some p =>
        rw [hp] at rel
        cases rel with
        | some made =>
          obtain ⟨member, -⟩ := (portNamed_iff distinct).1 hq
          obtain ⟨off, noStp, saveable⟩ := h.ports q member
          obtain ⟨-, link, entry⟩ := saveable.restored (junk q.name)
          obtain ⟨-, -, noStp', link', entry', entries'⟩ := made.disabled (flag.trans off)
          have there := portAt_of_mem distinct member
          have link'' : p.link = q.link := link'.trans link
          refine .some ⟨link'' ▸ .refl q.link, fun vlan => by rw [noStp, noStp'], ?_, fun key => ?_⟩
          · rw [entry'.trans entry, h.mirrors.ports, there]
            exact .some ⟨rfl, rfl, fun _ => rfl⟩
          · rw [entries', h.mirrors.portVlan, there, link'']
            rfl
  · have none : b'.stps vlan = none := by
      rcases stps' with ⟨q, hq, on⟩ | none
      · exact absurd ((h.ports q hq).1.symm.trans on) (by decide)
      · exact none vlan
    rw [none, h.stps]
  · rw [static_restored saved numbered'.distinct added]
    cases has : fdb.fwdtable vlan mac with
    | none => simp [staticPort, has]
    | some e =>
      rw [Option.bind_some]
      split_ifs with old
      · have dynamic := old_dynamic old
        obtain ⟨timestamp, port, type⟩ := e
        dsimp only at dynamic
        subst dynamic
        simp [staticPort, has]
      · exact staticPort_some has (young has (by simpa using old)).1

/-- A bridge comes back as it was, whatever the uninitialised members hold, exactly when it is of
this kind. -/
theorem restores_iff (b : Bridge) (distinct : b.Distinct) (fdb : Fdb) (now later : BitVec 32) :
    (∀ junk, b.Restores fdb now later junk) ↔ b.Saveable fdb now :=
  ⟨saveable_of_restores distinct, restores_of_saveable distinct⟩

/-- An access port and a trunk port, with the tables that mirror them, and a static entry. -/
def savedFdb : Fdb where
  agingTime := 300
  fwdtable := fun vlan mac => if vlan = 10#16 ∧ mac = 5#48 then some ⟨7, 2, .static⟩ else none
  keys := [(10#16, 5#48)]
  listed := by
    intro vlan mac e has
    split_ifs at has with here
    simp [here.1, here.2]

theorem restores_pairBridge : pairBridge.Restores savedFdb 100 200 fun _ => ⟨false, 0#16⟩ := by
  refine (restores_iff pairBridge ⟨by decide, by decide⟩ savedFdb 100 200).2 ⟨?_, fun _ => rfl,
    pairBridge_synced.mirrors, fun vlan mac e has => .inr ?_⟩ _
  · intro p hp
    have hp' : p = accessPort ∨ p = trunkPort := by simpa [pairBridge] using hp
    rcases hp' with rfl | rfl
    · have access : (Link.access 10#16).Saveable := by
        unfold Link.Saveable
        decide
      exact ⟨rfl, rfl, access⟩
    · have trunk : (Link.trunk ⟨[1#16, 10#16], true, 1#16⟩).Saveable := by
        exact ⟨⟨by decide, by simp [invalidVlan]⟩, by decide, rfl, rfl⟩
      exact ⟨rfl, rfl, trunk⟩
  · unfold savedFdb at has
    dsimp only at has
    split_ifs at has with here
    obtain ⟨rfl, rfl⟩ := here
    rw [← Option.some.inj has]
    exact ⟨rfl, by decide, rfl⟩

def emptyFdb : Fdb := ⟨300, fun _ _ => none, [], fun _ _ _ h => by cases h⟩

/-- With STP a port is refused: its constructor makes the instance of its VLAN though it has made it
from the list already. -/
theorem not_restores_run : ¬∀ stpEnabled events junk,
    (run step (empty stpEnabled) events).Restores emptyFdb 0 0 junk := by
  intro restores
  let b := run step (empty true) [.addPorts "port" 0 (.access 10#16) [] ⟨false, 0#16⟩]
  have distinct : b.Distinct := ⟨by decide +kernel, by decide +kernel⟩
  have saveable := saveable_of_restores distinct (restores true _)
  have off := (saveable.ports ⟨"port", 0, .access 10#16, [10#16]⟩ (by decide +kernel)).1
  have on : b.stpEnabled = true := by decide +kernel
  exact Bool.noConfusion (off.symm.trans on)

end Bridge

end Polycube.Bridging
