import Polycube.Bridging.Ports
import Polycube.Lib.Throwing

/-!
# What the operations on a port do

An operation on a port writes what the tables have under its number and nothing else.  From entries
that are those of the port it leaves entries that are those of the port.
-/

namespace Polycube.Bridging

open Lib
open Function (update_of_ne update_self update_apply)

namespace Bridge

/-! ### What an operation on a port changes -/

def Enabled (b : Bridge) (vlan : Vlan) (index : ℕ) : Prop :=
  ∃ stp, b.stps vlan = some stp ∧ stp.lib.state index ≠ .disabled

variable {b : Bridge} {index index' : ℕ} {vlan vlan' : Vlan}

theorem Enabled.of_attachStp (h : (b.attachStp index vlan).Enabled vlan' index') :
    index' = index ∧ vlan' = vlan ∨ b.Enabled vlan' index' := by
  obtain ⟨stp, has, state⟩ := h
  by_cases sameVlan : vlan' = vlan
  · subst sameVlan
    by_cases sameIndex : index' = index
    · exact .inl ⟨sameIndex, rfl⟩
    · right
      simp only [attachStp, update_self, Option.some.injEq] at has
      subst has
      cases before : b.stps vlan' with
      | none =>
        simp [attached, before, StpInstance.create, StpInstance.enable, StpInstance.setPortState,
          update_of_ne sameIndex] at state
      | some stp =>
        refine ⟨stp, before, ?_⟩
        simp only [attached, before, StpInstance.enable] at state
        split at state
        · simpa [StpInstance.setPortState, update_of_ne sameIndex] using state
        · exact state
  · simp only [attachStp, update_of_ne sameVlan] at has
    exact .inr ⟨stp, has, state⟩

theorem Enabled.of_detachStp (h : (b.detachStp index vlan).Enabled vlan' index') :
    ¬(index' = index ∧ vlan' = vlan) ∧ b.Enabled vlan' index' := by
  obtain ⟨stp, has, state⟩ := h
  by_cases sameVlan : vlan' = vlan
  · subst sameVlan
    simp only [detachStp, update_self] at has
    cases before : b.stps vlan' with
    | none => simp [detached, before] at has
    | some old =>
      simp only [detached, before, Option.ite_none_left_eq_some, Option.some.injEq] at has
      obtain ⟨-, rfl⟩ := has
      by_cases sameIndex : index' = index
      · subst sameIndex
        simp only [StpInstance.disable] at state
        split at state
        · simp [StpInstance.setPortState] at state
        · rename_i disabled
          exact absurd (not_not.1 disabled) state
      · refine ⟨fun same => sameIndex same.1, old, before, ?_⟩
        simp only [StpInstance.disable] at state
        split at state
        · simpa [StpInstance.setPortState, update_of_ne sameIndex] using state
        · exact state
  · simp only [detachStp, update_of_ne sameVlan] at has
    exact ⟨fun same => sameVlan same.2, stp, has, state⟩

end Bridge

open Bridge

/-- What stays when a port is worked on: everything under other numbers, that the instances enable
the port only in VLANs it has a `PortsStp` for, and without STP all instances. -/
structure Others (w w' : Work) : Prop where
  name : w'.port.name = w.port.name
  index : w'.port.index = w.port.index
  stpEnabled : w'.bridge.stpEnabled = w.bridge.stpEnabled
  bridgePorts : w'.bridge.ports = w.bridge.ports
  ports : ∀ index, index ≠ w.port.index →
    w'.bridge.tables.ports index = w.bridge.tables.ports index
  portVlan : ∀ index, index ≠ w.port.index →
    w'.bridge.tables.portVlan index = w.bridge.tables.portVlan index
  enabled : ∀ vlan index, index ≠ w.port.index →
    w'.bridge.Enabled vlan index → w.bridge.Enabled vlan index
  own : (∀ vlan, w.bridge.Enabled vlan w.port.index → vlan ∈ w.port.stps) →
    ∀ vlan, w'.bridge.Enabled vlan w.port.index → vlan ∈ w'.port.stps
  idle : w.bridge.stpEnabled = false → w.port.stps = [] →
    w'.bridge.stps = w.bridge.stps ∧ w'.port.stps = []

namespace Others

variable {w w' w'' : Work}

theorem refl (w : Work) : Others w w :=
  ⟨rfl, rfl, rfl, rfl, fun _ _ => rfl, fun _ _ => rfl, fun _ _ _ => id, id, fun _ none => ⟨rfl, none⟩⟩

theorem trans (h : Others w w') (h' : Others w' w'') : Others w w'' where
  name := h'.name.trans h.name
  index := h'.index.trans h.index
  stpEnabled := h'.stpEnabled.trans h.stpEnabled
  bridgePorts := h'.bridgePorts.trans h.bridgePorts
  ports index other := (h'.ports index (h.index ▸ other)).trans (h.ports index other)
  portVlan index other := (h'.portVlan index (h.index ▸ other)).trans (h.portVlan index other)
  enabled vlan index other on := h.enabled vlan index other (h'.enabled vlan index (h.index ▸ other) on)
  own start vlan on := by
    refine h'.own (fun vlan on => ?_) vlan (h.index ▸ on)
    exact h.own start vlan (h.index ▸ on)
  idle disabled none := by
    obtain ⟨stps, none'⟩ := h.idle disabled none
    obtain ⟨stps', none''⟩ := h'.idle (h.stpEnabled.trans disabled) none'
    exact ⟨stps'.trans stps, none''⟩

end Others

namespace PortOp

def Local {α : Type} (x : EStateM String Work α) : Prop :=
  ∀ w, wp x (fun _ => Others w) (fun _ => Others w) w

section

variable {α β : Type} {x : EStateM String Work α} {f : α → EStateM String Work β}

theorem Local.bind (hx : Local x) (hf : ∀ a, Local (f a)) : Local (x >>= f) := by
  intro w
  rw [wp_bind]
  refine wp_mono (hx w) (fun a w' others => ?_) fun _ _ => id
  exact wp_mono (hf a w') (fun _ _ h => others.trans h) fun _ _ h => others.trans h

theorem Local.pure (a : α) : Local (Pure.pure a : EStateM String Work α) := fun w => Others.refl w

theorem Local.throw (e : String) : Local (throw e : EStateM String Work α) := fun w => Others.refl w

theorem Local.get : Local (get : EStateM String Work Work) := fun w => Others.refl w

theorem Local.tryCatch {f : String → EStateM String Work α} (hx : Local x) (hf : ∀ e, Local (f e)) :
    Local (tryCatch x f) := by
  intro w
  rw [wp_tryCatch]
  refine wp_mono (hx w) (fun _ _ => id) fun e w' others => ?_
  exact wp_mono (hf e w') (fun _ _ h => others.trans h) fun _ _ h => others.trans h

end

theorem local_setLink (link : Link) : Local (setLink link) := fun _ =>
  ⟨rfl, rfl, rfl, rfl, fun _ _ => rfl, fun _ _ => rfl, fun _ _ _ => id, id,
    fun _ none => ⟨rfl, none⟩⟩

theorem local_setPortEntry (entry : Option PortEntry) :
    Local (onBridge fun b index => b.setPortEntry index entry) := fun _ =>
  ⟨rfl, rfl, rfl, rfl, fun _ other => update_of_ne other _ _, fun _ _ => rfl,
    fun _ _ _ => id, id, fun _ none => ⟨rfl, none⟩⟩

theorem local_setPortVlan (key : Vlan) (value : Option PortVlanValue) :
    Local (onBridge fun b index => b.setPortVlan index key value) := fun _ =>
  ⟨rfl, rfl, rfl, rfl, fun _ _ => rfl, fun _ other => update_of_ne other _ _,
    fun _ _ _ => id, id, fun _ none => ⟨rfl, none⟩⟩

theorem wp_insertStp {vlan : Vlan} {w : Work} {ok : Unit → Work → Prop}
    {err : String → Work → Prop} :
    wp (insertStp vlan) ok err w ↔
      if w.bridge.stpEnabled then
        if vlan ∈ w.port.stps then err "STP instance for this vlan in this port already exists" w
        else ok ⟨⟩ ⟨w.bridge.attachStp w.port.index vlan,
          { w.port with stps := w.port.stps ++ [vlan] }⟩
      else err "STP is disabled" w := by
  unfold insertStp
  simp

theorem wp_removeStp {vlan : Vlan} {w : Work} {ok : Unit → Work → Prop}
    {err : String → Work → Prop} :
    wp (removeStp vlan) ok err w ↔
      if w.bridge.stpEnabled then
        if vlan ∈ w.port.stps then ok ⟨⟩ ⟨w.bridge.detachStp w.port.index vlan,
          { w.port with stps := w.port.stps.filter (· ≠ vlan) }⟩
        else err "STP instance for this vlan in this port does not exist" w
      else err "STP is disabled" w := by
  unfold removeStp
  simp

theorem local_insertStp (vlan : Vlan) : Local (insertStp vlan) := by
  intro w
  rw [wp_insertStp]
  split_ifs with enabled
  · exact .refl w
  · refine ⟨rfl, rfl, rfl, rfl, fun _ _ => rfl, fun _ _ => rfl, fun vlan' index other on => ?_,
      fun start vlan' on => ?_, fun disabled => by simp [enabled] at disabled⟩
    · exact (on.of_attachStp).resolve_left fun same => other same.1
    · rcases on.of_attachStp with ⟨-, rfl⟩ | before
      · simp
      · exact List.mem_append_left _ (start vlan' before)
  · exact .refl w

theorem local_removeStp (vlan : Vlan) : Local (removeStp vlan) := by
  intro w
  rw [wp_removeStp]
  split_ifs with enabled
  · refine ⟨rfl, rfl, rfl, rfl, fun _ _ => rfl, fun _ _ => rfl, fun vlan' index other on => ?_,
      fun start vlan' on => ?_, fun disabled => by simp [enabled] at disabled⟩
    · exact on.of_detachStp.2
    · obtain ⟨other, before⟩ := on.of_detachStp
      simpa using ⟨start vlan' before, fun same => other ⟨rfl, same⟩⟩
  · exact .refl w
  · exact .refl w

/-- What taking a port out of the instances of a list of VLANs changes. -/
theorem detachStps (vlans : List Vlan) (b : Bridge) (index : ℕ) :
    let b' := vlans.foldl (fun b vlan => b.detachStp index vlan) b
    b'.stpEnabled = b.stpEnabled ∧ b'.ports = b.ports ∧ b'.tables = b.tables ∧
      ∀ vlan' index', b'.Enabled vlan' index' →
        ¬(index' = index ∧ vlan' ∈ vlans) ∧ b.Enabled vlan' index' := by
  induction vlans generalizing b with
  | nil => exact ⟨rfl, rfl, rfl, fun _ _ on => ⟨by simp, on⟩⟩
  | cons vlan vlans ih =>
    obtain ⟨flag, ports, tables, enabled⟩ := ih (b.detachStp index vlan)
    refine ⟨flag, ports, tables, fun vlan' index' on => ?_⟩
    obtain ⟨later, on⟩ := enabled vlan' index' on
    obtain ⟨now, on⟩ := on.of_detachStp
    refine ⟨?_, on⟩
    rintro ⟨rfl, member⟩
    rcases List.mem_cons.1 member with rfl | member
    · exact now ⟨rfl, rfl⟩
    · exact later ⟨rfl, member⟩

theorem local_removeStpList : Local removeStpList := by
  intro w
  unfold removeStpList
  rw [wp_modify]
  obtain ⟨flag, ports, tables, enabled⟩ := detachStps w.port.stps w.bridge w.port.index
  refine ⟨rfl, rfl, flag, ports, fun _ _ => ?_, fun _ _ => ?_, fun vlan' index _ on => ?_,
    fun start vlan' on => ?_, fun _ none => ⟨by rw [none]; rfl, rfl⟩⟩
  · rw [tables]
  · rw [tables]
  · exact (enabled vlan' index on).2
  · obtain ⟨none, before⟩ := enabled vlan' w.port.index on
    exact absurd ⟨rfl, start vlan' before⟩ none

theorem Local.ite {α : Type} {c : Prop} [Decidable c] {x y : EStateM String Work α}
    (hx : Local x) (hy : Local y) : Local (if c then x else y) := by
  split
  · exact hx
  · exact hy

theorem local_onTrunk {op : PortsTrunk → PortOp} (h : ∀ t, Local (op t)) : Local (onTrunk op) := by
  refine .bind .get fun w => ?_
  split
  · exact .throw _
  · exact h _

theorem local_onAccess {op : Vlan → PortOp} (h : ∀ vlanId, Local (op vlanId)) :
    Local (onAccess op) := by
  refine .bind .get fun w => ?_
  split
  · exact h _
  · exact .throw _

theorem local_insertStpList (vlans : List Vlan) : Local (insertStpList vlans) := by
  induction vlans with
  | nil => exact .pure _
  | cons vlan vlans ih => exact .bind (local_insertStp vlan) fun _ => ih

theorem local_setVlanid (vlanId value : Vlan) : Local (setVlanid vlanId value) := by
  have write : Local (do
      onBridge fun b index => b.setPortVlan index vlanWildcard (some ⟨value, .blocking⟩)
      setLink (.access value)) := .bind (local_setPortVlan _ _) fun _ => local_setLink _
  have insert := local_insertStp value
  refine .ite (.bind (.throw _) fun _ => ?_) ?_ <;>
    exact .ite (.bind .get fun w => .ite
      (.ite (.bind (local_removeStp _) fun _ => .bind insert fun _ => write)
        (.bind insert fun _ => write)) write) (.pure _)

theorem local_destroyAccess (vlanId : Vlan) : Local (destroyAccess vlanId) := by
  have clear := local_setPortVlan vlanWildcard none
  exact .bind .get fun w => .ite (.bind (local_removeStp _) fun _ => clear) clear

theorem local_addAllowed (vlanid : Vlan) (t : PortsTrunk) : Local (addAllowed vlanid t) := by
  have write := local_setPortVlan vlanid (some ⟨vlanid, .blocking⟩)
  have add : Local (do
      setLink (.trunk { t with allowed := t.allowed ++ [vlanid] })
      if (← get).bridge.stpEnabled then insertStp vlanid
      onBridge fun b index => b.setPortVlan index vlanid (some ⟨vlanid, .blocking⟩)) :=
    .bind (local_setLink _) fun _ => .bind .get fun w =>
      .ite (.bind (local_insertStp _) fun _ => write) write
  refine .ite (.bind (.throw _) fun _ => ?_) ?_ <;>
    exact .ite (.bind (.throw _) fun _ => add) add

theorem local_delAllowed (vlanid : Vlan) (t : PortsTrunk) : Local (delAllowed vlanid t) := by
  have clear := local_setPortVlan vlanid none
  have remove : Local (do
      setLink (.trunk { t with allowed := t.allowed.filter (· ≠ vlanid) })
      if (← get).bridge.stpEnabled then removeStp vlanid
      onBridge fun b index => b.setPortVlan index vlanid none) :=
    .bind (local_setLink _) fun _ => .bind .get fun w =>
      .ite (.bind (local_removeStp _) fun _ => clear) clear
  exact .ite (.bind (.throw _) fun _ => remove) remove

theorem local_addAllowedList (vlans : List Vlan) : Local (addAllowedList vlans) := by
  induction vlans with
  | nil => exact .pure _
  | cons vlanid vlans ih => exact .bind (local_onTrunk (local_addAllowed vlanid)) fun _ => ih

theorem local_delAllowedList (vlans : List Vlan) : Local (delAllowedList vlans) := by
  induction vlans with
  | nil => exact .pure _
  | cons vlanid vlans ih => exact .bind (local_onTrunk (local_delAllowed vlanid)) fun _ => ih

theorem local_replaceAllowed (vlanid value : Vlan) : Local (replaceAllowed vlanid value) :=
  .bind (local_onTrunk (local_delAllowed vlanid)) fun _ => local_onTrunk (local_addAllowed value)

theorem local_setNativeVlanEnabled (value : Bool) (t : PortsTrunk) :
    Local (setNativeVlanEnabled value t) :=
  .ite (.bind (local_setPortEntry _) fun _ => local_setLink _) (.pure _)

theorem local_setNativeVlan (value : Vlan) (t : PortsTrunk) : Local (setNativeVlan value t) := by
  have set : Local (if t.nativeVlan ≠ value then do
      onBridge fun b index => b.setPortEntry index (some ⟨.trunk, value, true⟩)
      setLink (.trunk { t with nativeVlan := value }) else pure ()) :=
    .ite (.bind (local_setPortEntry _) fun _ => local_setLink _) (.pure _)
  refine .ite (.bind (.throw _) fun _ => ?_) ?_ <;>
    exact .ite (.bind (.throw _) fun _ => set) set

theorem local_createTrunk (conf : TrunkConf) (junk : Uninitialised) :
    Local (createTrunk conf junk) := by
  refine .bind (local_setLink _) fun _ => .bind (local_addAllowedList _) fun _ =>
    .bind (.tryCatch (local_onTrunk (local_addAllowed _)) fun _ => .pure _) fun _ =>
      .bind (local_onTrunk (local_setNativeVlanEnabled _)) fun _ => local_onTrunk fun t => ?_
  exact .ite (local_setNativeVlan _ _) (.pure _)

theorem local_createLink (conf : LinkConf) (junk : Uninitialised) :
    Local (createLink conf junk) := by
  cases conf with
  | access vlanid => exact .bind (local_setLink _) fun _ => local_setVlanid _ _
  | trunk conf => exact local_createTrunk conf junk

theorem local_create (conf : LinkConf) (stp : List Vlan) (junk : Uninitialised) :
    Local (create conf stp junk) :=
  .bind (local_insertStpList stp) fun _ => .bind (local_setPortEntry _) fun _ =>
    local_createLink conf junk

theorem local_destroyLink : Local destroyLink := by
  refine .bind .get fun w => ?_
  split
  · exact local_destroyAccess _
  · exact local_delAllowedList _

theorem local_destroy : Local destroy :=
  .bind local_destroyLink fun _ => .bind (local_setPortEntry _) fun _ => local_removeStpList

theorem local_setMode (value : PortsMode) (junk : Uninitialised) : Local (setMode value junk) :=
  .bind .get fun _ => .ite
    (.bind local_destroyLink fun _ => .bind (local_createLink _ _) fun _ => local_setPortEntry _)
    (.pure _)

theorem local_setStpEnabled : Local PortOp.setStpEnabled := by
  refine .bind .get fun w => ?_
  split
  · exact local_insertStp _
  · exact local_insertStpList _

/-! ### The entries of a port -/

end PortOp

def Link.Valid : Link → Prop
  | .access vlanId => vlanId ≠ 0#16
  | .trunk t => t.allowed.Nodup ∧ 0#16 ∉ t.allowed

/-- `port_vlan` has the VLANs of the port, and it is in the STP instances of all of them or, without
STP, of none. -/
structure Held (w : Work) : Prop where
  portVlan : ∀ key,
    (w.bridge.tables.portVlan w.port.index key).map (·.vlan) = w.port.link.vlanAt key
  valid : w.port.link.Valid
  stps : w.port.stps = if w.bridge.stpEnabled then w.port.link.vlans else []

/-- The entry of the port in `ports`. -/
def Work.entry (w : Work) : Option PortEntry := w.bridge.tables.ports w.port.index

/-- `port_vlan` has nothing of the port, and it is in no STP instance. -/
structure Bare (w : Work) : Prop where
  portVlan : ∀ key, w.bridge.tables.portVlan w.port.index key = none
  stps : w.port.stps = []

namespace PortOp

variable {w : Work} {t : PortsTrunk}

section

variable {ok : Unit → Work → Prop} {err : String → Work → Prop}

@[simp] theorem wp_onBridge {f : Bridge → ℕ → Bridge} :
    wp (onBridge f) ok err w ↔ ok ⟨⟩ { w with bridge := f w.bridge w.port.index } := Iff.rfl

@[simp] theorem wp_setLink {link : Link} :
    wp (setLink link) ok err w ↔ ok ⟨⟩ { w with port := { w.port with link := link } } := Iff.rfl

theorem wp_onTrunk {op : PortsTrunk → PortOp} (link : w.port.link = .trunk t) :
    wp (onTrunk op) ok err w ↔ wp (op t) ok err w := by
  unfold onTrunk
  simp [link]

end

theorem setPortVlan_portVlan (b : Bridge) (index : ℕ) (key key' : Vlan)
    (value : Option PortVlanValue) : (b.setPortVlan index key value).tables.portVlan index key' =
      if key' = key then value else b.tables.portVlan index key' := by
  simp [setPortVlan, update_apply]

theorem vlanAt_concat {entries : Vlan → Option PortVlanValue} {vlanid : Vlan}
    (mirror : ∀ key, (entries key).map (·.vlan) = (Link.trunk t).vlanAt key) (key : Vlan) :
    (if key = vlanid then some ⟨vlanid, .blocking⟩ else entries key).map (·.vlan) =
      (Link.trunk { t with allowed := t.allowed ++ [vlanid] }).vlanAt key := by
  by_cases same : key = vlanid
  · simp [same, Link.vlanAt]
  · simp [same, mirror key, Link.vlanAt]

theorem vlanAt_filter {entries : Vlan → Option PortVlanValue} {vlanid : Vlan}
    (mirror : ∀ key, (entries key).map (·.vlan) = (Link.trunk t).vlanAt key) (key : Vlan) :
    (if key = vlanid then none else entries key).map (·.vlan) =
      (Link.trunk { t with allowed := t.allowed.filter (· ≠ vlanid) }).vlanAt key := by
  by_cases same : key = vlanid
  · simp [same, Link.vlanAt]
  · simp [same, mirror key, Link.vlanAt]

structure Becomes (link : Link) (entry : Option PortEntry) (w : Work) : Prop where
  held : Held w
  link : w.port.link = link
  entry : w.entry = entry

theorem addAllowed_held (held : Held w) (link : w.port.link = .trunk t) (vlanid : Vlan) :
    wp (addAllowed vlanid t)
      (fun _ w' => (vlanid ∉ t.allowed ∧ ¬invalidVlan vlanid = true) ∧
        Becomes (.trunk { t with allowed := t.allowed ++ [vlanid] }) w.entry w')
      (fun _ w' => w' = w ∧ (vlanid ∈ t.allowed ∨ invalidVlan vlanid = true)) w := by
  obtain ⟨portVlan, valid, stps⟩ := held
  rw [link] at portVlan valid stps
  unfold addAllowed
  simp only [wp_ite, wp_bind, wp_throw, wp_setLink, wp_get, wp_insertStp, wp_onBridge]
  have valid' (new : vlanid ∉ t.allowed) (ok : ¬invalidVlan vlanid = true) :
      (Link.trunk { t with allowed := t.allowed ++ [vlanid] }).Valid := by
    have nonzero : ¬vlanid = 0#16 := by
      simp only [invalidVlan, Bool.or_eq_true, decide_eq_true_eq, not_or] at ok
      exact ok.1
    refine ⟨List.nodup_append.2 ⟨valid.1, List.nodup_singleton _, ?_⟩, ?_⟩
    · intro a ha b hb same
      rw [List.mem_singleton.1 hb] at same
      exact new (same ▸ ha)
    · simp [valid.2, Ne.symm nonzero]
  split_ifs with has invalid enabled already
  · exact ⟨trivial, .inl has⟩
  · exact ⟨trivial, .inr invalid⟩
  · -- the `PortsStp` are those of the allowed VLANs
    rw [stps, if_pos enabled] at already
    exact absurd already has
  · refine ⟨⟨has, invalid⟩, ⟨fun key => ?_, valid' has invalid, ?_⟩, rfl, rfl⟩
    · rw [setPortVlan_portVlan]
      exact vlanAt_concat portVlan key
    · have flag : (w.bridge.attachStp w.port.index vlanid).stpEnabled = true := enabled
      simp [setPortVlan, flag, stps, enabled, Link.vlans]
  · refine ⟨⟨has, invalid⟩, ⟨fun key => ?_, valid' has invalid, ?_⟩, rfl, rfl⟩
    · rw [setPortVlan_portVlan]
      exact vlanAt_concat portVlan key
    · simp [setPortVlan, stps, enabled]

theorem delAllowed_held (held : Held w) (link : w.port.link = .trunk t) (vlanid : Vlan) :
    wp (delAllowed vlanid t)
      (fun _ => Becomes (.trunk { t with allowed := t.allowed.filter (· ≠ vlanid) }) w.entry)
      (fun _ w' => w' = w ∧ vlanid ∉ t.allowed) w := by
  obtain ⟨portVlan, valid, stps⟩ := held
  rw [link] at portVlan valid stps
  unfold delAllowed
  simp only [wp_ite, wp_bind, wp_throw, wp_setLink, wp_get, wp_removeStp, wp_onBridge, ite_not]
  have valid' : (Link.trunk { t with allowed := t.allowed.filter (· ≠ vlanid) }).Valid :=
    ⟨valid.1.filter _, fun member => valid.2 (List.mem_filter.1 member).1⟩
  split_ifs with has enabled joined
  · refine ⟨⟨fun key => ?_, valid', ?_⟩, rfl, rfl⟩
    · rw [setPortVlan_portVlan]
      exact vlanAt_filter portVlan key
    · have flag : (w.bridge.detachStp w.port.index vlanid).stpEnabled = true := enabled
      simp [setPortVlan, flag, stps, enabled, Link.vlans]
  · rw [stps, if_pos enabled] at joined
    exact absurd has joined
  · refine ⟨⟨fun key => ?_, valid', ?_⟩, rfl, rfl⟩
    · rw [setPortVlan_portVlan]
      exact vlanAt_filter portVlan key
    · simp [setPortVlan, stps, enabled]
  · exact ⟨trivial, has⟩

theorem ne_zero_of_valid {vlan : Vlan} (valid : ¬invalidVlan vlan = true) : vlan ≠ 0#16 := by
  rintro rfl
  exact valid (by decide)

theorem held_access {b : Bridge} {index : ℕ} {value : Vlan} {stps : List Vlan} (name : String)
    (others : ∀ key, key ≠ vlanWildcard → b.tables.portVlan index key = none)
    (valid : ¬invalidVlan value = true) (joined : stps = if b.stpEnabled then [value] else []) :
    Held ⟨b.setPortVlan index vlanWildcard (some ⟨value, .blocking⟩),
      ⟨name, index, .access value, stps⟩⟩ := by
  refine ⟨fun key => ?_, ne_zero_of_valid valid, joined⟩
  rw [setPortVlan_portVlan]
  by_cases same : key = vlanWildcard
  · simp [same, Link.vlanAt]
  · simp [same, others key same, Link.vlanAt]

theorem setVlanid_held {vlanId : Vlan} (held : Held w) (link : w.port.link = .access vlanId)
    (value : Vlan) :
    wp (setVlanid vlanId value) (fun _ => Becomes (.access value) w.entry)
      (fun _ w' => w' = w) w := by
  have portVlan := held.portVlan
  have valid := held.valid
  have stps := held.stps
  rw [link] at portVlan valid stps
  have others (key : Vlan) (other : key ≠ vlanWildcard) :
      w.bridge.tables.portVlan w.port.index key = none := by
    simpa [Link.vlanAt, other] using portVlan key
  unfold setVlanid
  simp only [wp_ite, wp_bind, wp_throw, wp_pure, wp_setLink, wp_get, wp_insertStp, wp_removeStp,
    wp_onBridge, ite_not]
  by_cases invalid : invalidVlan value = true
  · rw [if_pos invalid]
    trivial
  rw [if_neg invalid]
  by_cases same : vlanId = value
  · rw [if_pos same]
    exact ⟨held, by rw [link, same], rfl⟩
  rw [if_neg same]
  by_cases enabled : w.bridge.stpEnabled = true
  · have flag : (w.bridge.detachStp w.port.index vlanId).stpEnabled = true := enabled
    have single : w.port.stps = [vlanId] := by
      rw [stps, if_pos enabled]
      rfl
    have removed : [vlanId].filter (· ≠ vlanId) = [] := by simp
    rw [if_pos enabled, if_neg valid, if_pos enabled, if_pos (by simp [single]), if_pos flag,
      single, removed, if_neg List.not_mem_nil]
    refine ⟨held_access _ others invalid ?_, rfl, rfl⟩
    exact (if_pos (c := ((w.bridge.detachStp w.port.index vlanId).attachStp
      w.port.index value).stpEnabled = true) enabled).symm
  · rw [if_neg enabled]
    exact ⟨held_access _ others invalid (by rw [stps, if_neg enabled, if_neg enabled]), rfl, rfl⟩

def Allows (allowed vlans : List Vlan) : Prop :=
  (allowed ++ vlans).Nodup ∧ ∀ vlan ∈ vlans, ¬invalidVlan vlan = true

theorem addAllowedList_held (held : Held w) (link : w.port.link = .trunk t) (vlans : List Vlan) :
    wp (addAllowedList vlans)
      (fun _ w' => Allows t.allowed vlans ∧
        Becomes (.trunk { t with allowed := t.allowed ++ vlans }) w.entry w')
      (fun _ _ => ¬Allows t.allowed vlans) w := by
  induction vlans generalizing w t with
  | nil =>
    have valid := held.valid
    rw [link] at valid
    exact ⟨⟨by simpa using valid.1, by simp⟩, held, by rw [link, List.append_nil], rfl⟩
  | cons vlanid vlans ih =>
    rw [addAllowedList, wp_bind, wp_onTrunk link]
    refine wp_mono (addAllowed_held held link vlanid) ?_ ?_
    · rintro - w' ⟨⟨new, valid⟩, added⟩
      have step : Allows (t.allowed ++ [vlanid]) vlans ↔ Allows t.allowed (vlanid :: vlans) := by
        unfold Allows
        rw [List.append_assoc, List.singleton_append, List.forall_mem_cons]
        exact and_congr_right fun _ => (and_iff_right valid).symm
      refine wp_mono (ih added.held added.link) (fun _ w'' h => ?_) fun _ _ => mt step.2
      rw [added.entry, List.append_assoc] at h
      exact ⟨step.1 h.1, h.2⟩
    · rintro e w' ⟨-, has | invalid⟩ ⟨nodup, valid⟩
      · exact (List.nodup_append.1 nodup).2.2 vlanid has vlanid (by simp) rfl
      · exact valid vlanid (by simp) invalid

theorem delAllowedList_held (held : Held w) (link : w.port.link = .trunk t) :
    wp (delAllowedList t.allowed)
      (fun _ => Becomes (.trunk { t with allowed := [] }) w.entry) (fun _ _ => False) w := by
  obtain ⟨allowed, enabled, native⟩ := t
  induction allowed generalizing w with
  | nil => exact ⟨held, link, rfl⟩
  | cons vlanid allowed ih =>
    have valid := held.valid
    rw [link] at valid
    have only : (vlanid :: allowed).filter (· ≠ vlanid) = allowed := by
      rw [List.filter_cons_of_neg (by simp), List.filter_eq_self]
      intro vlan member
      have other : vlan ≠ vlanid := fun same => (List.nodup_cons.1 valid.1).1 (same ▸ member)
      simpa using other
    rw [delAllowedList, wp_bind, wp_onTrunk link]
    refine wp_mono (delAllowed_held held link vlanid) (fun _ w' removed => ?_) ?_
    · have rest := ih removed.held (by rw [removed.link]; simp only [only])
      rw [removed.entry] at rest
      exact rest
    · rintro e w' ⟨-, none⟩
      exact none (by simp)

/-- `port_vlan` does not depend on the native VLAN. -/
theorem held_native (held : Held w) (link : w.port.link = .trunk t) (entry : Option PortEntry)
    (enabled : Bool) (native : Vlan) :
    Held ⟨w.bridge.setPortEntry w.port.index entry,
      { w.port with link := .trunk ⟨t.allowed, enabled, native⟩ }⟩ := by
  obtain ⟨portVlan, valid, stps⟩ := held
  rw [link] at portVlan valid stps
  exact ⟨portVlan, valid, stps⟩

theorem setNativeVlanEnabled_held (held : Held w) (link : w.port.link = .trunk t) (value : Bool) :
    wp (setNativeVlanEnabled value t)
      (fun _ => Becomes (.trunk { t with nativeVlanEnabled := value })
        (if t.nativeVlanEnabled = value then w.entry else some ⟨.trunk, t.nativeVlan, value⟩))
      (fun _ _ => False) w := by
  unfold setNativeVlanEnabled
  simp only [wp_ite, wp_bind, wp_pure, wp_setLink, wp_onBridge, ite_not]
  split_ifs with same
  · exact ⟨held, by rw [link, ← same], rfl⟩
  · exact ⟨held_native held link _ _ _, rfl, by simp [Work.entry, setPortEntry]⟩

theorem setNativeVlan_held (held : Held w) (link : w.port.link = .trunk t) (value : Vlan) :
    wp (setNativeVlan value t)
      (fun _ w' => ¬invalidVlan value = true ∧ Becomes (.trunk { t with nativeVlan := value })
        (if t.nativeVlan = value then w.entry else some ⟨.trunk, value, t.nativeVlanEnabled⟩) w')
      (fun _ w' => w' = w ∧ (t.nativeVlanEnabled = false ∨ invalidVlan value = true)) w := by
  unfold setNativeVlan
  simp only [wp_ite, wp_bind, wp_throw, wp_pure, wp_setLink, wp_onBridge, ite_not]
  split_ifs with disabled invalid same
  · exact ⟨trivial, .inl (by simpa using disabled)⟩
  · exact ⟨trivial, .inr invalid⟩
  · exact ⟨invalid, held, by rw [link, ← same], rfl⟩
  · refine ⟨invalid, held_native held link _ _ _, rfl, ?_⟩
    have enabled : t.nativeVlanEnabled = true := by simpa using disabled
    simp [Work.entry, setPortEntry, enabled]

/-! ### Constructors and destructors -/

theorem createAccess_bare (bare : Bare w) (vlanid : Vlan) :
    wp (createAccess vlanid)
      (fun _ w' => ¬invalidVlan vlanid = true ∧ Becomes (.access vlanid) w.entry w')
      (fun _ _ => invalidVlan vlanid = true) w := by
  unfold createAccess setVlanid
  simp only [wp_ite, wp_bind, wp_throw, wp_pure, wp_setLink, wp_get, wp_insertStp, wp_removeStp,
    wp_onBridge, ite_not]
  by_cases valid : invalidVlan vlanid = true
  · rw [if_pos valid]
    exact valid
  rw [if_neg valid, if_neg (ne_zero_of_valid valid).symm]
  by_cases enabled : w.bridge.stpEnabled = true
  · rw [if_pos enabled, if_pos trivial, if_pos enabled, if_neg (by simp [bare.stps]), bare.stps]
    refine ⟨valid, held_access _ (fun key _ => bare.portVlan key) valid ?_, rfl, rfl⟩
    exact (if_pos (c := (w.bridge.attachStp w.port.index vlanid).stpEnabled = true) enabled).symm
  · rw [if_neg enabled]
    exact ⟨valid, held_access _ (fun key _ => bare.portVlan key) valid
      (by rw [bare.stps, if_neg enabled]), rfl, rfl⟩

def TrunkConf.Valid (conf : TrunkConf) : Prop :=
  conf.allowed.Nodup ∧ (∀ vlan ∈ conf.allowed, ¬invalidVlan vlan = true) ∧
    (conf.nativeVlanEnabled = true → ¬invalidVlan conf.nativeVlan = true)

theorem TrunkConf.valid_iff (conf : TrunkConf) :
    conf.allowed.Nodup ∧ (conf.allowed.all fun vlan => !invalidVlan vlan) = true ∧
      (conf.nativeVlanEnabled = true → ¬invalidVlan conf.nativeVlan = true) ↔ conf.Valid := by
  simp [TrunkConf.Valid]

-- only the VLANs of the list are looked at
instance (conf : TrunkConf) : Decidable conf.Valid := decidable_of_iff _ conf.valid_iff

/-- The `PortsTrunk` of a configuration. -/
def TrunkConf.trunk (conf : TrunkConf) (junk : Uninitialised) : PortsTrunk where
  allowed := if 1#16 ∈ conf.allowed then conf.allowed else conf.allowed ++ [1#16]
  nativeVlanEnabled := conf.nativeVlanEnabled
  nativeVlan := if conf.nativeVlanEnabled then conf.nativeVlan else junk.nativeVlan

def TrunkConf.written (conf : TrunkConf) (junk : Uninitialised) (entry : Option PortEntry) :
    Option PortEntry :=
  if conf.nativeVlanEnabled = true ∧ junk.nativeVlan ≠ conf.nativeVlan then
    some ⟨.trunk, conf.nativeVlan, true⟩
  else if junk.nativeVlanEnabled = conf.nativeVlanEnabled then entry
  else some ⟨.trunk, junk.nativeVlan, conf.nativeVlanEnabled⟩

theorem createTrunk_bare (bare : Bare w) (conf : TrunkConf) (junk : Uninitialised) :
    wp (createTrunk conf junk)
      (fun _ w' => conf.Valid ∧ Becomes (.trunk (conf.trunk junk)) (conf.written junk w.entry) w')
      (fun _ _ => ¬conf.Valid) w := by
  have start : Held { w with port := { w.port with
      link := .trunk ⟨[], junk.nativeVlanEnabled, junk.nativeVlan⟩ } } := by
    refine ⟨fun key => ?_, ⟨List.nodup_nil, List.not_mem_nil⟩, ?_⟩
    · simp [bare.portVlan, Link.vlanAt]
    · simp [bare.stps, Link.vlans]
  unfold createTrunk
  rw [wp_bind, wp_setLink, wp_bind]
  refine wp_mono (addAllowedList_held start rfl conf.allowed) ?_
    fun _ _ => mt fun valid => ⟨by simpa using valid.1, valid.2.1⟩
  rintro - w₁ ⟨⟨nodup, each⟩, held₁, link₁, entry₁⟩
  rw [wp_bind, wp_tryCatch, wp_onTrunk link₁]
  have rest {w₂ : Work} (h : Becomes (.trunk ⟨(conf.trunk junk).allowed,
      junk.nativeVlanEnabled, junk.nativeVlan⟩) w.entry w₂) :
      wp (setNative conf)
        (fun _ w' => conf.Valid ∧
          Becomes (.trunk (conf.trunk junk)) (conf.written junk w.entry) w')
        (fun _ _ => ¬conf.Valid) w₂ := by
    rw [setNative, wp_bind, wp_onTrunk h.link]
    refine wp_mono (setNativeVlanEnabled_held h.held h.link _) (fun _ w₃ set => ?_)
      fun _ _ => False.elim
    rw [wp_onTrunk set.link, wp_ite]
    split_ifs with enabled
    · have enabled' : conf.nativeVlanEnabled = true := enabled
      refine wp_mono (setNativeVlan_held set.held set.link _) ?_ ?_
      · rintro - w₄ ⟨valid, done⟩
        refine ⟨⟨by simpa using nodup, each, fun _ => valid⟩, done.held, ?_, ?_⟩
        · rw [done.link]
          simp [TrunkConf.trunk, enabled']
        · rw [done.entry, set.entry, h.entry]
          by_cases same : junk.nativeVlan = conf.nativeVlan
          · simp [TrunkConf.written, same]
          · simp [TrunkConf.written, same, enabled']
      · rintro e w' ⟨-, disabled | invalid⟩ valid
        · exact Bool.noConfusion (enabled.symm.trans disabled)
        · exact valid.2.2 enabled' invalid
    · have disabled : ¬conf.nativeVlanEnabled = true := enabled
      refine ⟨⟨by simpa using nodup, each, fun on => absurd on disabled⟩, set.held, ?_, ?_⟩
      · rw [set.link]
        simp [TrunkConf.trunk, disabled]
      · rw [set.entry, h.entry]
        simp [TrunkConf.written, disabled]
  have link₁' : w₁.port.link = .trunk ⟨conf.allowed, junk.nativeVlanEnabled, junk.nativeVlan⟩ := link₁
  refine wp_mono (addAllowed_held held₁ link₁ 1#16) ?_ ?_
  · rintro - w₂ ⟨⟨new, -⟩, added⟩
    have new' : 1#16 ∉ conf.allowed := new
    refine rest ⟨added.held, ?_, added.entry.trans entry₁⟩
    rw [added.link]
    simp [TrunkConf.trunk, new']
  · rintro e w₂ ⟨rfl, has | invalid⟩
    · have has' : 1#16 ∈ conf.allowed := has
      exact rest ⟨held₁, by rw [link₁']; simp [TrunkConf.trunk, has'], entry₁⟩
    · exact absurd invalid (by decide)

def LinkConf.Valid : LinkConf → Prop
  | .access vlanid => ¬invalidVlan vlanid = true
  | .trunk conf => conf.Valid

instance : ∀ conf : LinkConf, Decidable conf.Valid
  | .access vlanid => inferInstanceAs (Decidable ¬invalidVlan vlanid = true)
  | .trunk conf => inferInstanceAs (Decidable conf.Valid)

def LinkConf.link (conf : LinkConf) (junk : Uninitialised) : Link :=
  match conf with
  | .access vlanid => .access vlanid
  | .trunk conf => .trunk (conf.trunk junk)

def LinkConf.written (conf : LinkConf) (junk : Uninitialised) (entry : Option PortEntry) :
    Option PortEntry :=
  match conf with
  | .access _ => entry
  | .trunk conf => conf.written junk entry

theorem createLink_bare (bare : Bare w) (conf : LinkConf) (junk : Uninitialised) :
    wp (createLink conf junk)
      (fun _ w' => conf.Valid ∧ Becomes (conf.link junk) (conf.written junk w.entry) w')
      (fun _ _ => ¬conf.Valid) w := by
  cases conf with
  | access vlanid =>
    exact wp_mono (createAccess_bare bare vlanid) (fun _ _ => id) fun _ _ => not_not.2
  | trunk conf => exact createTrunk_bare bare conf junk

theorem destroyLink_held (held : Held w) :
    wp destroyLink (fun _ => Bare) (fun _ _ => False) w := by
  unfold destroyLink
  rw [wp_bind, wp_get]
  cases link : w.port.link with
  | access vlanId =>
    obtain ⟨portVlan, valid, stps⟩ := held
    rw [link] at portVlan valid stps
    have bare (b : Bridge) (p : Ports) (alone : p.stps = []) (index : p.index = w.port.index)
        (same : b.tables.portVlan = w.bridge.tables.portVlan) :
        Bare ⟨b.setPortVlan w.port.index vlanWildcard none, p⟩ := by
      refine ⟨fun key => ?_, alone⟩
      rw [index, setPortVlan_portVlan, same]
      split_ifs with wildcard
      · rfl
      · simpa [Link.vlanAt, wildcard] using portVlan key
    unfold destroyAccess
    simp only [wp_ite, wp_bind, wp_get, wp_removeStp, wp_onBridge]
    by_cases enabled : w.bridge.stpEnabled = true
    · have single : w.port.stps = [vlanId] := by
        rw [stps, if_pos enabled]
        rfl
      rw [if_pos enabled, if_pos enabled, if_pos (by simp [single])]
      exact bare _ _ (by simp [single]) rfl rfl
    · rw [if_neg enabled]
      exact bare _ _ (by rw [stps, if_neg enabled]) rfl rfl
  | trunk t =>
    refine wp_mono (delAllowedList_held held link) (fun _ w' removed => ?_) fun _ _ => id
    obtain ⟨⟨portVlan, -, stps⟩, link', -⟩ := removed
    rw [link'] at portVlan stps
    refine ⟨fun key => ?_, by simpa [Link.vlans] using stps⟩
    simpa [Link.vlanAt] using portVlan key

structure Good (w : Work) : Prop where
  held : Held w
  entry : w.entry = some w.port.link.entry

theorem Becomes.good {link : Link} {entry : Option PortEntry} (h : Becomes link entry w)
    (same : entry = some link.entry) : Good w :=
  ⟨h.held, by rw [h.entry, same, h.link]⟩

theorem setMode_good (good : Good w) (value : PortsMode) (junk : Uninitialised) :
    wp (setMode value junk) (fun _ => Good) (fun _ _ => False) w := by
  unfold setMode
  rw [wp_bind, wp_get, wp_ite]
  split_ifs with other
  swap
  · exact good
  rw [wp_bind]
  refine wp_mono (destroyLink_held good.held) (fun _ w₁ bare => ?_) fun _ _ => id
  have default (conf : LinkConf) (valid : conf.Valid)
      (entry : (conf.link junk).entry = ⟨value, 1#16, true⟩) :
      wp (do
          createLink conf junk
          onBridge fun b index => b.setPortEntry index (some ⟨value, 1#16, true⟩))
        (fun _ => Good) (fun _ _ => False) w₁ := by
    rw [wp_bind]
    refine wp_mono (createLink_bare bare conf junk) ?_ fun _ _ invalid => invalid valid
    rintro - w₂ ⟨-, made⟩
    refine ⟨⟨made.held.portVlan, made.held.valid, made.held.stps⟩, ?_⟩
    simp [Work.entry, setPortEntry, made.link, entry]
  cases value with
  | access => exact default (.access 1#16) (by unfold LinkConf.Valid; decide) rfl
  | trunk =>
    refine default (.trunk ⟨[], true, 1#16⟩) ⟨List.nodup_nil, by simp, fun _ => ?_⟩ rfl
    decide

def Keeps (op : PortOp) : Prop := ∀ w, Good w → wp op (fun _ => Good) (fun _ => Good) w

theorem Keeps.bind {op op' : PortOp} (h : Keeps op) (h' : Keeps op') :
    Keeps (do op; op') := by
  intro w good
  rw [wp_bind]
  exact wp_mono (h w good) (fun _ => h') fun _ _ => id

theorem keeps_onTrunk {op : PortsTrunk → PortOp}
    (h : ∀ w t, Good w → w.port.link = .trunk t → wp (op t) (fun _ => Good) (fun _ => Good) w) :
    Keeps (onTrunk op) := by
  intro w good
  unfold onTrunk
  rw [wp_bind, wp_get]
  cases link : w.port.link with
  | access vlanId => exact good
  | trunk t => exact h w t good link

theorem keeps_setMode (value : PortsMode) (junk : Uninitialised) : Keeps (setMode value junk) :=
  fun _ good => wp_mono (setMode_good good value junk) (fun _ _ => id) fun _ _ => False.elim

theorem keeps_setVlanid (value : Vlan) : Keeps (onAccess fun vlanId => setVlanid vlanId value) := by
  intro w good
  unfold onAccess
  rw [wp_bind, wp_get]
  cases link : w.port.link with
  | access vlanId =>
    refine wp_mono (setVlanid_held good.held link value) (fun _ w' set => ?_) ?_
    · exact set.good (by rw [good.entry, link]; rfl)
    · rintro _ _ rfl
      exact good
  | trunk t => exact good

theorem keeps_addAllowed (vlanid : Vlan) : Keeps (onTrunk (addAllowed vlanid)) := by
  refine keeps_onTrunk fun w t good link => ?_
  refine wp_mono (addAllowed_held good.held link vlanid) ?_ ?_
  · rintro - w' ⟨-, added⟩
    exact added.good (by rw [good.entry, link]; rfl)
  · rintro - _ ⟨rfl, -⟩
    exact good

theorem keeps_delAllowed (vlanid : Vlan) : Keeps (onTrunk (delAllowed vlanid)) := by
  refine keeps_onTrunk fun w t good link => ?_
  refine wp_mono (delAllowed_held good.held link vlanid) (fun _ w' removed => ?_) ?_
  · exact removed.good (by rw [good.entry, link]; rfl)
  · rintro - _ ⟨rfl, -⟩
    exact good

theorem keeps_delAllowedList : Keeps (onTrunk fun t => delAllowedList t.allowed) := by
  refine keeps_onTrunk fun w t good link => ?_
  refine wp_mono (delAllowedList_held good.held link) (fun _ w' removed => ?_)
    fun _ _ => False.elim
  exact removed.good (by rw [good.entry, link]; rfl)

theorem keeps_replaceAllowed (vlanid value : Vlan) : Keeps (replaceAllowed vlanid value) :=
  (keeps_delAllowed vlanid).bind (keeps_addAllowed value)

theorem keeps_setNativeVlanEnabled (value : Bool) :
    Keeps (onTrunk (setNativeVlanEnabled value)) := by
  refine keeps_onTrunk fun w t good link => ?_
  refine wp_mono (setNativeVlanEnabled_held good.held link value) (fun _ w' set => set.good ?_)
    fun _ _ => False.elim
  rw [good.entry, link]
  split_ifs with same
  · rw [← same]
  · rfl

theorem keeps_setNativeVlan (value : Vlan) : Keeps (onTrunk (setNativeVlan value)) := by
  refine keeps_onTrunk fun w t good link => ?_
  refine wp_mono (setNativeVlan_held good.held link value) (fun _ w' set => set.2.good ?_) ?_
  · rw [good.entry, link]
    split_ifs with same
    · rw [← same]
    · rfl
  · rintro - _ ⟨rfl, -⟩
    exact good

/-- What `native_vlan_enabled_` and `native_vlan_` hold lets the constructor write an entry that is
right: it writes none where it takes them for set. -/
def LinkConf.Fits (conf : LinkConf) (junk : Uninitialised) : Prop :=
  match conf with
  | .access _ => True
  | .trunk conf =>
    if conf.nativeVlanEnabled then
      ¬(junk.nativeVlanEnabled = true ∧ junk.nativeVlan = conf.nativeVlan ∧ conf.nativeVlan ≠ 1#16)
    else junk.nativeVlanEnabled = true

instance (conf : LinkConf) (junk : Uninitialised) : Decidable (conf.Fits junk) := by
  cases conf <;> unfold LinkConf.Fits <;> infer_instance

theorem written_eq_iff (conf : LinkConf) (junk : Uninitialised) :
    conf.written junk (some ⟨conf.mode, 1#16, true⟩) = some (conf.link junk).entry ↔
      conf.Fits junk := by
  cases conf with
  | access vlanid => simp [LinkConf.written, LinkConf.link, Link.entry, LinkConf.mode, LinkConf.Fits]
  | trunk conf =>
    obtain ⟨allowed, enabled, native⟩ := conf
    obtain ⟨enabled', native'⟩ := junk
    cases enabled <;> cases enabled' <;> by_cases same : native' = native <;>
      simp [LinkConf.written, TrunkConf.written, LinkConf.link, TrunkConf.trunk, Link.entry,
        LinkConf.mode, LinkConf.Fits, same, eq_comm]

theorem create_bare (bare : Bare w) (conf : LinkConf) (junk : Uninitialised) :
    wp (create conf [] junk)
      (fun _ w' => conf.Valid ∧
        Becomes (conf.link junk) (conf.written junk (some ⟨conf.mode, 1#16, true⟩)) w')
      (fun _ _ => ¬conf.Valid) w := by
  unfold create insertStpList
  rw [wp_bind, wp_pure, wp_bind, wp_onBridge]
  have bare' : Bare ⟨w.bridge.setPortEntry w.port.index (some ⟨conf.mode, 1#16, true⟩), w.port⟩ :=
    ⟨bare.portVlan, bare.stps⟩
  refine wp_mono (createLink_bare bare' conf junk) (fun _ w' made => ?_) fun _ _ => id
  simpa [Work.entry, setPortEntry] using made

theorem destroy_good (good : Good w) :
    wp destroy (fun _ w' => Bare w' ∧ w'.entry = none) (fun _ _ => False) w := by
  unfold destroy removeStpList
  rw [wp_bind]
  refine wp_mono (destroyLink_held good.held) (fun _ w' bare => ?_) fun _ _ => id
  rw [wp_bind, wp_onBridge, wp_modify]
  rw [bare.stps]
  exact ⟨⟨bare.portVlan, rfl⟩, by simp [Work.entry, setPortEntry]⟩

def GoodAs (stpEnabled : Bool) (w : Work) : Prop :=
  Good { w with bridge := { w.bridge with stpEnabled := stpEnabled } }

theorem insertStpList_ok {vlans : List Vlan} (enabled : w.bridge.stpEnabled = true)
    (nodup : (w.port.stps ++ vlans).Nodup) :
    wp (insertStpList vlans)
      (fun _ w' => w'.bridge.stpEnabled = true ∧ w'.bridge.tables = w.bridge.tables ∧
        w'.port = { w.port with stps := w.port.stps ++ vlans }) (fun _ _ => False) w := by
  induction vlans generalizing w with
  | nil => exact ⟨enabled, rfl, by simp⟩
  | cons vlan vlans ih =>
    have new : vlan ∉ w.port.stps := fun member =>
      (List.nodup_append.1 nodup).2.2 vlan member vlan (by simp) rfl
    rw [insertStpList, wp_bind, wp_insertStp, if_pos enabled, if_neg new]
    refine wp_mono (ih enabled (by simpa using nodup)) (fun _ w' inserted => ?_) fun _ _ => id
    obtain ⟨enabled', tables, port⟩ := inserted
    exact ⟨enabled', tables, by simpa using port⟩

theorem setStpEnabled_good (good : GoodAs false w) (enabled : w.bridge.stpEnabled = true) :
    wp PortOp.setStpEnabled (fun _ => Good) (fun _ _ => False) w := by
  have joins (w' : Work) (h : w'.bridge.stpEnabled = true ∧ w'.bridge.tables = w.bridge.tables ∧
      w'.port = { w.port with stps := w.port.link.vlans }) : Good w' := by
    obtain ⟨enabled', tables, port⟩ := h
    refine ⟨⟨fun key => ?_, ?_, ?_⟩, ?_⟩
    · rw [tables, port]
      exact good.held.portVlan key
    · rw [port]
      exact good.held.valid
    · rw [enabled', port]
      rfl
    · unfold Work.entry
      rw [tables, port]
      exact good.entry
  have none : w.port.stps = [] := good.held.stps
  have valid : w.port.link.Valid := good.held.valid
  unfold PortOp.setStpEnabled
  rw [wp_bind, wp_get]
  cases link : w.port.link with
  | access vlanId =>
    dsimp only
    rw [wp_insertStp, if_pos enabled, if_neg (by simp [none])]
    exact joins _ ⟨enabled, rfl, by simp [none, link, Link.vlans]⟩
  | trunk t =>
    rw [link] at valid
    have all : t.allowed.filter (· ≠ 0#16) = t.allowed := by
      rw [List.filter_eq_self]
      intro vlan member
      have other : vlan ≠ 0#16 := fun same => valid.2 (same ▸ member)
      simpa using other
    dsimp only
    rw [all]
    refine wp_mono (insertStpList_ok enabled (by simpa [none] using valid.1))
      (fun _ w' inserted => joins w' ?_) fun _ _ => id
    simpa [none, link, Link.vlans] using inserted

theorem removeStpList_good {stpEnabled : Bool} (good : GoodAs stpEnabled w) :
    wp removeStpList (fun _ => GoodAs false) (fun _ _ => False) w := by
  obtain ⟨-, -, tables, -⟩ := detachStps w.port.stps w.bridge w.port.index
  unfold removeStpList
  rw [wp_modify]
  refine ⟨⟨fun key => ?_, good.held.valid, rfl⟩, ?_⟩
  · rw [tables]
    exact good.held.portVlan key
  · dsimp only [Work.entry]
    rw [tables]
    exact good.entry

end PortOp

end Polycube.Bridging
