import Polycube.Bridging.Tables

/-!
# Forwarding and flooding

`handleRx` is the datapath of the bridge; a frame whose destination it does not know goes to the
slow path, which sends it out of the ports one by one.  Both decide for themselves which ports are
in the VLAN of the frame and whether it leaves with a tag.
-/

namespace Polycube.Bridging

open Function Lib

structure Frame where
  dst : Mac
  src : Mac
  tag : Option Vlan
  deriving DecidableEq

def Frame.tagged (f : Frame) : Bool := f.tag.isSome

def Frame.isBpdu (f : Frame) : Bool :=
  f.dst = 0x000000C28001#48 || f.dst = 0xCDCCCC0C0001#48

inductive Reason
  | bpdu | broadcast
  deriving DecidableEq

inductive Verdict
  | drop
  | redirect (port : ℕ) (tagged : Bool)
  | controller (reason : Reason) (vlan : Vlan) (tagged : Bool)
  deriving DecidableEq

structure Code where
  stpEnabled : Bool
  agingTime : BitVec 32

def PortEntry.trunkVlan (inPort : PortEntry) (f : Frame) : Option Vlan :=
  match f.tag with
  | some vlanid => some vlanid
  | none => if inPort.nativeVlanEnabled then some inPort.nativeVlan else none

section Rx

variable (c : Code) (t : Tables)

def classify (inIfc : ℕ) (f : Frame) : Option (Vlan × PortVlanValue) := do
  let inPort ← t.ports inIfc
  match inPort.mode with
  | .access =>
    if f.tagged then none
    else do
      let entry ← t.portVlan inIfc vlanWildcard
      return (entry.vlan, entry)
  | .trunk =>
    let vlanid ← inPort.trunkVlan f
    let entry ← t.portVlan inIfc vlanid
    return (vlanid, entry)

/-- The learning phase; a table that is full does not take the address. -/
def learn (fdb : FwdMap) (now : BitVec 32) (inIfc : ℕ) (vlanid : Vlan) (f : Frame) : FwdMap :=
  match fdb.get (vlanid, f.src) with
  | some ⟨_, _, .static⟩ => fdb
  | _ => (fdb.set (vlanid, f.src) ⟨now, inIfc, .dynamic⟩).getD fdb

/-- `FORWARD`, out of the port of the entry.  The tag is pushed or popped on the way. -/
def forward (inIfc : ℕ) (vlanid : Vlan) (dstInterface : ℕ) : Verdict :=
  match t.ports dstInterface with
  | none => .drop
  | some outPort =>
    if dstInterface = inIfc then .drop
    else match outPort.mode with
      | .access =>
        match t.portVlan dstInterface vlanWildcard with
        | none => .drop
        | some entry =>
          if entry.vlan ≠ vlanid then .drop
          else if c.stpEnabled && !entry.stpState.forwards then .drop
          else .redirect dstInterface false
      | .trunk =>
        match t.portVlan dstInterface vlanid with
        | none => .drop
        | some entry =>
          if c.stpEnabled && !entry.stpState.forwards then .drop
          else if outPort.nativeVlanEnabled && vlanid = outPort.nativeVlan then
            .redirect dstInterface false
          else .redirect dstInterface true

/-- `handle_rx` -/
def handleRx (now : BitVec 32) (fdb : FwdMap) (inIfc : ℕ) (f : Frame) : Verdict × FwdMap :=
  match classify t inIfc f with
  | none => (.drop, fdb)
  | some (vlanid, vlanEntry) =>
    if c.stpEnabled && f.isBpdu then (.controller .bpdu vlanid f.tagged, fdb)
    else if c.stpEnabled && !vlanEntry.stpState.learns then (.drop, fdb)
    else
      let fdb := learn fdb now inIfc vlanid f
      if c.stpEnabled && !vlanEntry.stpState.forwards then (.drop, fdb)
      else match fdb.get (vlanid, f.dst) with
        | none => (.controller .broadcast vlanid f.tagged, fdb)
        | some entry =>
          if entry.type = .static then (forward c t inIfc vlanid entry.port, fdb)
          else if c.agingTime < now - entry.timestamp then
            (.controller .broadcast vlanid f.tagged, fdb.erase (vlanid, f.dst))
          else (forward c t inIfc vlanid entry.port,
            fdb.replace (vlanid, f.dst) { entry with timestamp := now })

end Rx

def PortsTrunk.isNative (t : PortsTrunk) (vlan : Vlan) : Bool :=
  t.nativeVlanEnabled && t.nativeVlan = vlan

/-- The switch of `send_packet_out`: `send_tagged`, if the port is in the VLAN. -/
def Link.sendTagged (vlan : Vlan) : Link → Option Bool
  | .access vlanId => if vlan ≠ vlanId then none else some false
  | .trunk t => if vlan ∉ t.allowed then none else if t.isNative vlan then some false else some true

/-- What libtins reads from a frame: whether there is a PDU behind the Ethernet header, and one
behind the `Dot1Q`, if it finds one. -/
structure Parsed where
  inner : Bool
  dot1q : Option Bool

/-- How an attempt to send a frame goes wrong.  A PDU that is not there is used nevertheless. -/
inductive Failure
  | threw (what : String)
  | nullPdu

/-- The end of `send_packet_out`: the original, or the tag pushed or popped. -/
def Parsed.send (p : Parsed) (tagged sendTagged : Bool) : Except Failure Unit :=
  if tagged = sendTagged then return
  else if sendTagged then
    if p.inner then return else throw .nullPdu
  else
    match p.dot1q with
    | none => throw (.threw "PDU not found")
    | some false => throw .nullPdu
    | some true => return

/-- A frame that is read has the PDUs that pushing or popping the tag needs. -/
def Sendable (read : Option Parsed) (tagged sendTagged : Bool) : Prop :=
  ∃ pdu, read = some pdu ∧ (tagged = sendTagged ∨
    tagged = false ∧ pdu.inner = true ∨ tagged = true ∧ pdu.dot1q = some true)

theorem Parsed.send_iff (pdu : Parsed) (tagged sendTagged : Bool) :
    pdu.send tagged sendTagged = .ok () ↔ Sendable (some pdu) tagged sendTagged := by
  obtain ⟨inner, dot1q⟩ := pdu
  cases tagged <;> cases sendTagged <;> cases inner <;> rcases dot1q with _ | _ | _ <;>
    simp [Parsed.send, Sendable, pure, Except.pure, throw, throwThe, MonadExceptOf.throw]

/-- `Ports::send_packet_out`: the port that the frame leaves by, and whether with a tag.  `read` is
what the constructor of `EthernetII` makes of the frame, which it may refuse. -/
def Ports.sendPacketOut (b : Bridge) (p : Ports) (read : Option Parsed) (tagged : Bool)
    (vlan : Vlan) : Except Failure (Option (ℕ × Bool)) := do
  if b.stpEnabled then
    match b.stps vlan with
    | none => throw (.threw "STP instance does not exist")
    | some stp => if !(stp.lib.state p.index).forwards then return none
  match read with
  | none => throw (.threw "Malformed packet")
  | some pdu =>
    match p.link.sendTagged vlan with
    | none => return none
    | some sendTagged =>
      pdu.send tagged sendTagged
      return some (p.index, sendTagged)

namespace Bridge

/-- The loop of `broadcastPacket`, which a failure ends. -/
def broadcast (b : Bridge) (ingress : String) (read : Option Parsed) (tagged : Bool) (vlan : Vlan) :
    List Ports → List (ℕ × Bool)
  | [] => []
  | it :: ports =>
    if it.name = ingress then broadcast b ingress read tagged vlan ports
    else match it.sendPacketOut b read tagged vlan with
      | .error _ => []
      | .ok none => broadcast b ingress read tagged vlan ports
      | .ok (some out) => out :: broadcast b ingress read tagged vlan ports

/-- `packet_in`: where a frame from the datapath is flooded to. -/
def packetIn (b : Bridge) (p : Ports) (read : Option Parsed) : Verdict → List (ℕ × Bool)
  | .controller .broadcast vlan tagged => b.broadcast p.name read tagged vlan b.ports
  | .controller .bpdu vlan tagged =>
    if b.stpEnabled then [] else b.broadcast p.name read tagged vlan b.ports
  | _ => []

end Bridge

def enteringVlan (c : Code) (t : Tables) (inIfc : ℕ) (f : Frame) : Option Vlan :=
  match classify t inIfc f with
  | none => none
  | some (vlanid, entry) =>
    if c.stpEnabled && (f.isBpdu || !entry.stpState.forwards) then none else some vlanid

def destination (c : Code) (now : BitVec 32) (fdb : FwdMap) (inIfc : ℕ) (vlanid : Vlan)
    (f : Frame) : Option ℕ :=
  match (learn fdb now inIfc vlanid f).get (vlanid, f.dst) with
  | none => none
  | some e => if e.type = .static ∨ ¬c.agingTime < now - e.timestamp then some e.port else none

section Admit

variable {c : Code} {t : Tables} {now : BitVec 32} {fdb : FwdMap} {inIfc : ℕ} {f : Frame}

theorem learns_of_forwards {s : StpState} (h : s.forwards = true) : s.learns = true := by
  cases s <;> simp_all [StpState.forwards, StpState.learns]

theorem learn_static {key : FwdKey} {e : FwdEntry} {vlanid : Vlan} (has : fdb.get key = some e)
    (static : e.type = .static) :
    (learn fdb now inIfc vlanid f).get key = some e := by
  unfold learn
  split
  · exact has
  · rename_i notStatic
    cases set : fdb.set (vlanid, f.src) ⟨now, inIfc, .dynamic⟩ with
    | none => exact has
    | some fdb' =>
      rw [Option.getD_some, HashTable.get_set set, if_neg, has]
      rintro rfl
      obtain ⟨timestamp, port, type⟩ := e
      obtain rfl : type = .static := static
      exact notStatic _ _ has

theorem handleRx_entering {vlan : Vlan} (h : enteringVlan c t inIfc f = some vlan) :
    (handleRx c t now fdb inIfc f).1 =
      match destination c now fdb inIfc vlan f with
      | some port => forward c t inIfc vlan port
      | none => .controller .broadcast vlan f.tagged := by
  unfold enteringVlan at h
  unfold handleRx
  cases hc : classify t inIfc f with
  | none => simp [hc] at h
  | some found =>
    obtain ⟨vlanid, entry⟩ := found
    simp only [hc, Option.ite_none_left_eq_some, Bool.and_eq_true, Bool.or_eq_true,
      Option.some.injEq] at h
    obtain ⟨lets, rfl⟩ := h
    have notBpdu : ¬(c.stpEnabled && f.isBpdu) = true := by
      simp only [Bool.and_eq_true]
      exact fun both => lets ⟨both.1, .inl both.2⟩
    have forwards : ¬(c.stpEnabled && !entry.stpState.forwards) = true := by
      simp only [Bool.and_eq_true]
      exact fun both => lets ⟨both.1, .inr both.2⟩
    have learns : ¬(c.stpEnabled && !entry.stpState.learns) = true := by
      intro not
      refine forwards ?_
      simp only [Bool.and_eq_true, Bool.not_eq_true'] at not ⊢
      refine ⟨not.1, ?_⟩
      by_contra h
      have := learns_of_forwards (by simpa using h)
      simp [this] at not
    simp only [if_neg notBpdu, if_neg learns, if_neg forwards]
    unfold destination
    cases (learn fdb now inIfc vlanid f).get (vlanid, f.dst) with
    | none => rfl
    | some e =>
      by_cases static : e.type = .static
      · simp [static]
      · by_cases old : c.agingTime < now - e.timestamp <;> simp [static, old]

theorem handleRx_not_entering (now : BitVec 32) (fdb : FwdMap)
    (h : enteringVlan c t inIfc f = none) :
    (handleRx c t now fdb inIfc f).1 = .drop ∨
      c.stpEnabled = true ∧ ∃ vlan, (handleRx c t now fdb inIfc f).1 = .controller .bpdu vlan f.tagged := by
  unfold enteringVlan at h
  unfold handleRx
  cases hc : classify t inIfc f with
  | none => exact .inl rfl
  | some found =>
    obtain ⟨vlanid, entry⟩ := found
    simp only [hc, ite_eq_left_iff, reduceCtorEq, imp_false, not_not, Bool.and_eq_true,
      Bool.or_eq_true] at h
    obtain ⟨enabled, bpdu | blocked⟩ := h
    · exact .inr ⟨enabled, vlanid, by simp [enabled, bpdu]⟩
    · cases bpdu : f.isBpdu with
      | true => exact .inr ⟨enabled, vlanid, by simp [enabled]⟩
      | false =>
        refine .inl ?_
        simp only [enabled, blocked, Bool.and_false, Bool.and_self, Bool.false_eq_true, ↓reduceIte]
        split <;> rfl

end Admit

/-! ### The same ports, from the tables and from the objects -/

namespace Bridge

def Forwarding (b : Bridge) (vlan : Vlan) (index : ℕ) : Prop :=
  b.stpEnabled = true → ∃ stp, b.stps vlan = some stp ∧ (stp.lib.state index).forwards = true

structure Synced (b : Bridge) (c : Code) : Prop where
  distinct : b.Distinct
  mirrors : b.Mirrors
  code : c.stpEnabled = b.stpEnabled
  state : b.stpEnabled = true → ∀ index key e, b.tables.portVlan index key = some e →
    ∃ stp, b.stps e.vlan = some stp ∧ stp.lib.state index = e.stpState

/-- The port at the index is another one than the ingress port, in the VLAN of the frame and in a
state that forwards; whether a frame of the VLAN leaves it with a tag. -/
def Receives (b : Bridge) (c : Code) (p : Ports) (f : Frame) (index : ℕ) (sendTagged : Bool) : Prop :=
  ∃ vlan, enteringVlan c b.tables p.index f = some vlan ∧ index ≠ p.index ∧
    ∃ q, b.portAt index = some q ∧ q.link.sendTagged vlan = some sendTagged ∧ b.Forwarding vlan index

section

variable {b : Bridge} {c : Code} {p q : Ports} {vlan : Vlan} {out : ℕ × Bool} {read : Option Parsed}
  {tagged sendTagged : Bool}

theorem sendPacketOut_blocked (has : b.stpEnabled = true → ∃ stp, b.stps vlan = some stp)
    (blocked : ¬b.Forwarding vlan q.index) : q.sendPacketOut b read tagged vlan = .ok none := by
  unfold Forwarding at blocked
  cases enabled : b.stpEnabled with
  | false => simp [enabled] at blocked
  | true =>
    obtain ⟨stp, found⟩ := has enabled
    have not : (stp.lib.state q.index).forwards = false := by
      simpa [enabled, found] using blocked
    unfold Ports.sendPacketOut
    simp [enabled, found, not, pure, Except.pure]

theorem sendPacketOut_forwarding (pdu : Parsed) (forwarding : b.Forwarding vlan q.index) :
    q.sendPacketOut b none tagged vlan = .error (.threw "Malformed packet") ∧
      q.sendPacketOut b (some pdu) tagged vlan =
        match q.link.sendTagged vlan with
        | none => .ok none
        | some sendTagged => (pdu.send tagged sendTagged).map fun _ => some (q.index, sendTagged) := by
  unfold Ports.sendPacketOut
  cases enabled : b.stpEnabled with
  | false =>
    refine ⟨rfl, ?_⟩
    cases q.link.sendTagged vlan <;> rfl
  | true =>
    obtain ⟨stp, found, forwards⟩ := forwarding enabled
    simp only [found, forwards]
    refine ⟨rfl, ?_⟩
    cases q.link.sendTagged vlan <;> rfl

theorem sendPacketOut_iff (has : b.stpEnabled = true → ∃ stp, b.stps vlan = some stp)
    {index : ℕ} : q.sendPacketOut b read tagged vlan = .ok (some (index, sendTagged)) ↔
      index = q.index ∧ q.link.sendTagged vlan = some sendTagged ∧ b.Forwarding vlan q.index ∧
        Sendable read tagged sendTagged := by
  by_cases forwarding : b.Forwarding vlan q.index
  · cases read with
    | none => simp [(sendPacketOut_forwarding ⟨true, none⟩ forwarding).1, Sendable]
    | some pdu =>
      rw [(sendPacketOut_forwarding pdu forwarding).2]
      cases tags : q.link.sendTagged vlan with
      | none => simp
      | some tags' =>
        have sent := pdu.send_iff tagged tags'
        dsimp only
        cases result : pdu.send tagged tags' with
        | error e =>
          have not : ¬Sendable (some pdu) tagged tags' := fun sends => by
            rw [sent.2 sends] at result
            cases result
          simp only [Except.map, reduceCtorEq, false_iff]
          rintro ⟨-, same, -, sends⟩
          exact not (Option.some.inj same ▸ sends)
        | ok u =>
          have sends := sent.1 result
          simp only [Except.map, Except.ok.injEq, Option.some.injEq, Prod.mk.injEq]
          constructor
          · rintro ⟨rfl, rfl⟩
            exact ⟨rfl, rfl, forwarding, sends⟩
          · rintro ⟨rfl, rfl, -, -⟩
            exact ⟨rfl, rfl⟩
  · rw [sendPacketOut_blocked has forwarding]
    simp [forwarding]

theorem of_mem_broadcast {ingress : String} {ports : List Ports}
    (member : out ∈ b.broadcast ingress read tagged vlan ports) :
    ∃ it ∈ ports, it.name ≠ ingress ∧ it.sendPacketOut b read tagged vlan = .ok (some out) := by
  induction ports with
  | nil => cases member
  | cons it ports ih =>
    rw [List.exists_mem_cons_iff]
    rw [broadcast] at member
    split at member
    · exact .inr (ih member)
    · rename_i other
      split at member
      · cases member
      · exact .inr (ih member)
      · rename_i out' sent
        rcases List.mem_cons.1 member with rfl | later
        · exact .inl ⟨other, sent⟩
        · exact .inr (ih later)

theorem portAt_iff (sync : b.Synced c) {index : ℕ} :
    b.portAt index = some q ↔ q ∈ b.ports ∧ q.index = index :=
  findKey_eq_some_iff sync.distinct.indices

theorem forwarding_iff (sync : b.Synced c) {index : ℕ} {key : Vlan} {e : PortVlanValue}
    (entry : b.tables.portVlan index key = some e) :
    b.Forwarding e.vlan index ↔ (c.stpEnabled && !e.stpState.forwards) = false := by
  rw [sync.code]
  cases enabled : b.stpEnabled with
  | false => simp [Forwarding, enabled]
  | true =>
    obtain ⟨stp, found, state⟩ := sync.state enabled index key e entry
    simp [Forwarding, enabled, found, state]

theorem forward_iff (sync : b.Synced c) {inIfc index index' : ℕ} {tagged : Bool} :
    forward c b.tables inIfc vlan index = .redirect index' tagged ↔
      index = index' ∧ index ≠ inIfc ∧ ∃ q, b.portAt index = some q ∧
        q.link.sendTagged vlan = some tagged ∧ b.Forwarding vlan index := by
  unfold forward
  rw [sync.mirrors.ports index]
  cases hq : b.portAt index with
  | none => simp
  | some q =>
    by_cases same : index = inIfc
    · simp [same]
    have portVlan := sync.mirrors.portVlan index
    rw [hq] at portVlan
    cases hl : q.link with
    | access vlanId =>
      have entry := portVlan vlanWildcard
      simp only [Option.bind_some, hl, Link.vlanAt, ↓reduceIte] at entry
      obtain ⟨e, he, rfl⟩ := Option.map_eq_some_iff.1 entry
      simp only [Option.map_some, hl, Link.entry, if_neg same, he]
      by_cases hv : e.vlan = vlan
      · subst hv
        rw [forwarding_iff sync he]
        cases c.stpEnabled && !e.stpState.forwards <;> simp [hl, Link.sendTagged, same]
      · simp [hv, hl, Link.sendTagged, Ne.symm hv]
    | trunk t =>
      have entry := portVlan vlan
      simp only [Option.bind_some, hl, Link.vlanAt] at entry
      simp only [Option.map_some, hl, Link.entry, if_neg same]
      by_cases hv : vlan ∈ t.allowed
      · rw [if_pos hv] at entry
        obtain ⟨e, he, rfl⟩ := Option.map_eq_some_iff.1 entry
        have native : (t.nativeVlanEnabled && decide (e.vlan = t.nativeVlan)) = t.isNative e.vlan := by
          rw [PortsTrunk.isNative, decide_eq_decide.2 eq_comm]
        rw [he, forwarding_iff sync he]
        simp only [native]
        cases hn : t.isNative e.vlan <;> cases c.stpEnabled && !e.stpState.forwards <;>
          simp [hl, Link.sendTagged, hn, hv, same]
      · rw [if_neg hv, Option.map_eq_none_iff] at entry
        simp [entry, hl, Link.sendTagged, hv]

theorem classify_entry (sync : b.Synced c) {inIfc : ℕ} {f : Frame} {e : PortVlanValue}
    (h : classify b.tables inIfc f = some (vlan, e)) :
    ∃ key, b.tables.portVlan inIfc key = some e ∧ e.vlan = vlan := by
  unfold classify at h
  rw [sync.mirrors.ports inIfc] at h
  cases hp : b.portAt inIfc with
  | none => simp [hp] at h
  | some p =>
    have portVlan := sync.mirrors.portVlan inIfc
    rw [hp] at h portVlan
    cases hl : p.link with
    | access vlanId =>
      simp only [Option.map_some, hl, Link.entry, Option.bind_eq_bind, Option.bind_some,
        Option.ite_none_left_eq_some, Option.bind_eq_some_iff] at h
      obtain ⟨-, e', entry, same⟩ := h
      obtain ⟨rfl, rfl⟩ := Prod.mk.inj (Option.some.inj same)
      exact ⟨_, entry, rfl⟩
    | trunk t =>
      simp only [Option.map_some, hl, Link.entry, Option.bind_eq_bind, Option.bind_some,
        Option.bind_eq_some_iff] at h
      obtain ⟨v, -, e', entry, same⟩ := h
      obtain ⟨rfl, rfl⟩ := Prod.mk.inj (Option.some.inj same)
      refine ⟨v, entry, ?_⟩
      have at' := portVlan v
      simp only [entry, Option.map_some, Option.bind_some, hl, Link.vlanAt] at at'
      split at at'
      · exact Option.some.inj at'
      · simp at at'

theorem has_instance (sync : b.Synced c) {inIfc : ℕ} {f : Frame}
    (h : enteringVlan c b.tables inIfc f = some vlan) (enabled : b.stpEnabled = true) :
    ∃ stp, b.stps vlan = some stp := by
  unfold enteringVlan at h
  split at h
  · simp at h
  · rename_i v e found
    obtain ⟨-, same⟩ := Option.ite_none_left_eq_some.1 h
    obtain rfl := Option.some.inj same
    obtain ⟨key, entry, rfl⟩ := classify_entry sync found
    obtain ⟨stp, has, -⟩ := sync.state enabled _ _ _ entry
    exact ⟨stp, has⟩

theorem mem_vlans_of_sendTagged {link : Link} (h : link.sendTagged vlan = some sendTagged) :
    vlan ∈ link.vlans := by
  cases link with
  | access vlanId =>
    obtain ⟨same, -⟩ := Option.ite_none_left_eq_some.1 h
    exact List.mem_singleton.2 (not_not.1 same)
  | trunk t =>
    obtain ⟨allowed, -⟩ := Option.ite_none_left_eq_some.1 h
    exact not_not.1 allowed

theorem packetIn_forward (inIfc port : ℕ) : b.packetIn p read (forward c b.tables inIfc vlan port) = [] := by
  unfold forward
  repeat' split
  all_goals rfl

theorem name_ne_iff (sync : b.Synced c) (hp : p ∈ b.ports) (hq : q ∈ b.ports) :
    q.name ≠ p.name ↔ q.index ≠ p.index := by
  refine not_congr ⟨fun same => ?_, fun same => ?_⟩
  · rw [List.inj_on_of_nodup_map sync.distinct.names hq hp same]
  · rw [List.inj_on_of_nodup_map sync.distinct.indices hq hp same]

section

variable {f : Frame} {index : ℕ} {now : BitVec 32} {fdb : FwdMap}

theorem of_mem_flood (sync : b.Synced c) (hp : p ∈ b.ports)
    (h : enteringVlan c b.tables p.index f = some vlan)
    (member : (index, sendTagged) ∈ b.broadcast p.name read f.tagged vlan b.ports) :
    b.Receives c p f index sendTagged ∧ Sendable read f.tagged sendTagged := by
  obtain ⟨q, hq, other, sent⟩ := of_mem_broadcast member
  obtain ⟨rfl, tags, forwarding, sends⟩ := (sendPacketOut_iff (has_instance sync h)).1 sent
  exact ⟨⟨vlan, h, (name_ne_iff sync hp hq).1 other, q, (portAt_iff sync).2 ⟨hq, rfl⟩, tags,
    forwarding⟩, sends⟩

/-- What is flooded has come in by a VLAN. -/
theorem of_mem_packetIn (sync : b.Synced c)
    (member : out ∈ b.packetIn p read (handleRx c b.tables now fdb p.index f).1) :
    ∃ vlan, enteringVlan c b.tables p.index f = some vlan ∧
      destination c now fdb p.index vlan f = none ∧
        out ∈ b.broadcast p.name read f.tagged vlan b.ports := by
  cases h : enteringVlan c b.tables p.index f with
  | none =>
    rcases handleRx_not_entering now fdb h with dropped | ⟨enabled, vlan, bpdu⟩
    · rw [dropped] at member
      cases member
    · simp [bpdu, packetIn, sync.code ▸ enabled] at member
  | some vlan =>
    rw [handleRx_entering h] at member
    cases known : destination c now fdb p.index vlan f with
    | none =>
      rw [known] at member
      exact ⟨vlan, rfl, known, member⟩
    | some port =>
      rw [known, packetIn_forward] at member
      cases member

theorem receives_of_redirect (sync : b.Synced c)
    (sent : (handleRx c b.tables now fdb p.index f).1 = .redirect index sendTagged) :
    b.Receives c p f index sendTagged := by
  cases h : enteringVlan c b.tables p.index f with
  | none =>
    rcases handleRx_not_entering now fdb h with dropped | ⟨-, vlan, bpdu⟩
    · rw [dropped] at sent
      cases sent
    · rw [bpdu] at sent
      cases sent
  | some vlan =>
    rw [handleRx_entering h] at sent
    cases known : destination c now fdb p.index vlan f with
    | none =>
      rw [known] at sent
      cases sent
    | some port =>
      rw [known] at sent
      obtain ⟨rfl, other, receives⟩ := (forward_iff sync).1 sent
      exact ⟨vlan, h, other, receives⟩

end

end

/-- The filtering database, after learning, has the destination on the port, or does not have it. -/
def Knows (b : Bridge) (c : Code) (now : BitVec 32) (fdb : FwdMap) (p : Ports) (f : Frame)
    (port : Option ℕ) : Prop :=
  ∀ vlan, enteringVlan c b.tables p.index f = some vlan →
    destination c now fdb p.index vlan f = port

/-- The port is not the ingress port, is in the VLAN of the frame and forwards. -/
def Member (b : Bridge) (c : Code) (p : Ports) (f : Frame) (index : ℕ) : Prop :=
  index ≠ p.index ∧ ∃ q vlan, b.portAt index = some q ∧
    enteringVlan c b.tables p.index f = some vlan ∧ vlan ∈ q.link.vlans ∧ b.Forwarding vlan index

theorem Receives.member {b : Bridge} {c : Code} {p : Ports} {f : Frame} {index : ℕ}
    {sendTagged : Bool} (receives : b.Receives c p f index sendTagged) : b.Member c p f index := by
  obtain ⟨vlan, h, other, q, there, tags, forwarding⟩ := receives
  exact ⟨other, q, vlan, there, h, mem_vlans_of_sendTagged tags, forwarding⟩

/-- A frame whose destination is not known is flooded to the ports that it would be forwarded to if
the destination was there, with the same tagging. -/
structure Agrees (b : Bridge) (c : Code) (now : BitVec 32) (p : Ports) (f : Frame)
    (read : Option Parsed) : Prop where
  same : ∀ fdb fdb' index sendTagged, b.Knows c now fdb p f none →
    b.Knows c now fdb' p f (some index) →
      ((index, sendTagged) ∈ b.packetIn p read (handleRx c b.tables now fdb p.index f).1 ↔
        (handleRx c b.tables now fdb' p.index f).1 = .redirect index sendTagged)
  flooded : ∀ fdb index sendTagged,
    (index, sendTagged) ∈ b.packetIn p read (handleRx c b.tables now fdb p.index f).1 →
      b.Member c p f index
  forwarded : ∀ fdb index sendTagged,
    (handleRx c b.tables now fdb p.index f).1 = .redirect index sendTagged → b.Member c p f index

def accessPort : Ports := ⟨"access", 1, .access 10#16, []⟩
def trunkPort : Ports := ⟨"trunk", 2, .trunk ⟨[1#16, 10#16], true, 1#16⟩, []⟩

def pairBridge : Bridge where
  stpEnabled := false
  ports := [accessPort, trunkPort]
  stps := fun _ => none
  tables :=
    { ports := fun index =>
        (findKey Ports.index index [accessPort, trunkPort]).map (·.link.entry)
      portVlan := fun index key =>
        ((findKey Ports.index index [accessPort, trunkPort]).bind (·.link.vlanAt key)).map
          (⟨·, .blocking⟩) }

theorem pairBridge_synced : pairBridge.Synced ⟨false, 300⟩ where
  distinct := ⟨by decide, by decide⟩
  mirrors := ⟨fun _ => rfl, fun _ _ => by simp [pairBridge, portAt, comp_def]⟩
  code := rfl
  state := by simp [pairBridge]

section

variable {b : Bridge} {c : Code} {p q : Ports} {vlan : Vlan} {f : Frame} {index : ℕ}

theorem mem_vlans_of_vlanAt {link : Link} {key : Vlan} (h : link.vlanAt key = some vlan) :
    vlan ∈ link.vlans := by
  cases link with
  | access vlanId =>
    obtain ⟨-, same⟩ := Option.ite_none_right_eq_some.1 h
    exact List.mem_singleton.2 (Option.some.inj same).symm
  | trunk t =>
    obtain ⟨allowed, same⟩ := Option.ite_none_right_eq_some.1 h
    exact Option.some.inj same ▸ allowed

/-- A frame is put into a VLAN of the port it comes in by. -/
theorem mem_vlans_of_entering (sync : b.Synced c) (here : b.portAt p.index = some p)
    (h : enteringVlan c b.tables p.index f = some vlan) : vlan ∈ p.link.vlans := by
  unfold enteringVlan at h
  split at h
  · cases h
  · rename_i v e found
    obtain ⟨-, same⟩ := Option.ite_none_left_eq_some.1 h
    obtain rfl := Option.some.inj same
    obtain ⟨key, entry, rfl⟩ := classify_entry sync found
    have mirrored := sync.mirrors.portVlan p.index key
    rw [entry, here] at mirrored
    exact mem_vlans_of_vlanAt mirrored.symm

/-- Between ports that share no VLAN no frame passes, forwarded or flooded, whatever the filtering
database holds and whatever the tag of the frame says. -/
theorem vlans_apart (sync : b.Synced c) (hp : p ∈ b.ports) (hq : b.portAt index = some q)
    (apart : List.Disjoint p.link.vlans q.link.vlans) (now : BitVec 32) (fdb : FwdMap) (f : Frame)
    (read : Option Parsed) :
    (∀ tagged, (handleRx c b.tables now fdb p.index f).1 ≠ .redirect index tagged) ∧
      ∀ tagged, (index, tagged) ∉ b.packetIn p read (handleRx c b.tables now fdb p.index f).1 := by
  have here : b.portAt p.index = some p := (portAt_iff sync).2 ⟨hp, rfl⟩
  have never {tagged : Bool} (receives : b.Receives c p f index tagged) : False := by
    obtain ⟨vlan, h, -, q', found, tags, -⟩ := receives
    obtain rfl := Option.some.inj (found.symm.trans hq)
    exact apart (mem_vlans_of_entering sync here h) (mem_vlans_of_sendTagged tags)
  refine ⟨fun tagged sent => never (receives_of_redirect sync sent), fun tagged member => ?_⟩
  obtain ⟨vlan, h, -, flooded⟩ := of_mem_packetIn sync member
  exact never (of_mem_flood sync hp h flooded).1

end

def guestPort : Ports := ⟨"guest", 2, .access 20#16, []⟩

def twoVlans : Bridge where
  stpEnabled := false
  ports := [accessPort, guestPort]
  stps := fun _ => none
  tables :=
    { ports := fun index =>
        (findKey Ports.index index [accessPort, guestPort]).map (·.link.entry)
      portVlan := fun index key =>
        ((findKey Ports.index index [accessPort, guestPort]).bind (·.link.vlanAt key)).map
          (⟨·, .blocking⟩) }

theorem twoVlans_synced : twoVlans.Synced ⟨false, 300⟩ where
  distinct := ⟨by decide, by decide⟩
  mirrors := ⟨fun _ => rfl, fun _ _ => by simp [twoVlans, portAt, comp_def]⟩
  code := rfl
  state := by simp [twoVlans]

theorem vlans_apart_guest :
    (∀ tagged, (handleRx ⟨false, 300⟩ twoVlans.tables 0 .empty 1 ⟨5, 6, none⟩).1 ≠
      .redirect 2 tagged) ∧ ∀ tagged, (2, tagged) ∉ twoVlans.packetIn accessPort (some ⟨true, none⟩)
        (handleRx ⟨false, 300⟩ twoVlans.tables 0 .empty 1 ⟨5, 6, none⟩).1 :=
  vlans_apart (p := accessPort) (q := guestPort) twoVlans_synced (by decide) rfl
    (List.disjoint_singleton.2 (by decide)) 0 _ _ _

end Bridge

end Polycube.Bridging
