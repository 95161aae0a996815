import Mathlib.Order.WellFounded
import Polycube.Pbforwarder.Datapath

/-!
# The first match

`Decides` is what becomes of a packet: the action of the rule of the lowest number that matches it.
The matcher finds this rule when the entries show the rules (`Shows`), the programs look at the
headers that the rules are about, and the memory of the headers holds those of the packet
(`Clear`).
-/

namespace Polycube.Pbforwarder

open Lib

def Payload.srcIp : Payload → Option (BitVec 32)
  | .ip src _ _ => some src
  | _ => none

def Payload.dstIp : Payload → Option (BitVec 32)
  | .ip _ dst _ => some dst
  | _ => none

def Payload.l4 : Payload → L4
  | .ip _ _ l4 => l4
  | _ => .other

def L4.proto : L4 → Option RulesL4ProtoEnum
  | .segment proto _ => some proto
  | .other => none

def L4.ports : L4 → Option (BitVec 16 × BitVec 16)
  | .segment _ ports => ports
  | .other => none

variable (ports : String → Option (BitVec 16))

structure Rule.Matches (r : Rule) (f : Frame) (inPort : BitVec 16) : Prop where
  srcMac : ∀ mac, r.srcMac = some mac → f.srcMac = mac
  dstMac : ∀ mac, r.dstMac = some mac → f.dstMac = mac
  vlan : ∀ vlan, r.vlan = some vlan → ∃ id, f.vlan = some id ∧ id.toNat = vlan.toNat
  srcIp : ∀ ip, r.srcIp = some ip → f.payload.srcIp = some ip
  dstIp : ∀ ip, r.dstIp = some ip → f.payload.dstIp = some ip
  l4Proto : ∀ proto, r.l4Proto = some proto → f.payload.l4.proto = some proto
  srcPort : ∀ port, r.srcPort = some port → f.payload.l4.ports.map Prod.fst = some port
  dstPort : ∀ port, r.dstPort = some port → f.payload.l4.ports.map Prod.snd = some port
  inPort : ∀ name, r.inPort = some name → ports name = some inPort

def Rule.Acts (r : Rule) (v : Verdict) : Prop :=
  match r.action with
  | .drop => v = .drop
  | .slowpath => v = .slowpath
  | .forward => ∃ name port, r.outPort = some name ∧ ports name = some port ∧ v = .forward port

def Decides (rules : BitVec 32 → Option Rule) (f : Frame) (inPort : BitVec 16) (v : Verdict) :
    Prop :=
  (∃ id r, rules id = some r ∧ r.Matches ports f inPort ∧ r.Acts ports v ∧
    ∀ id' r', id' < id → rules id' = some r' → ¬ r'.Matches ports f inPort) ∨
  (v = .drop ∧ ∀ id r, rules id = some r → ¬ r.Matches ports f inPort)

def Rule.Resolves (r : Rule) : Prop :=
  (∀ name, r.inPort = some name → (ports name).isSome) ∧
    (r.action = .forward → ∃ name, r.outPort = some name ∧ (ports name).isSome)

structure Shows (r : Rule) (e : Entry) : Prop where
  srcMac : Holds id (isSet e.flags 0) e.srcMac r.srcMac
  dstMac : Holds id (isSet e.flags 1) e.dstMac r.dstMac
  vlan : Holds (BitVec.setWidth 16) (isSet e.flags 2) e.vlanid r.vlan
  srcIp : Holds id (isSet e.flags 3) e.srcIp r.srcIp
  dstIp : Holds id (isSet e.flags 4) e.dstIp r.dstIp
  l4Proto : Holds RulesL4ProtoEnum.number (isSet e.flags 5) e.lvl4Proto r.l4Proto
  srcPort : Holds bswap16 (isSet e.flags 6) e.srcPort r.srcPort
  dstPort : Holds bswap16 (isSet e.flags 7) e.dstPort r.dstPort
  inPort : Holds ports (isSet e.flags 8) (some e.inport) r.inPort
  acts : r.Acts ports (action e.action e.outport)
  vlanShort : ∀ vlan, r.vlan = some vlan → vlan.toNat < 2 ^ 16
  ports : r.l4Proto = none → r.srcPort = none ∧ r.dstPort = none

def Rule.level (r : Rule) : ℕ :=
  if r.l4Proto.isSome ∨ r.inPort.isSome then 4
  else if r.srcIp.isSome ∨ r.dstIp.isSome then 3
  else 2

variable {ports} {r : Rule} {e : Entry} {o : Rules} {f : Frame} {inPort : BitVec 16}

theorem Means.toRule (h : Means r o) (resolves : r.Resolves ports) :
    ∃ e, o.toRule ports = some e ∧ e.flags = o.flags ∧ Shows ports r e := by
  obtain ⟨⟨srcMac, hsrcMac⟩, ⟨dstMac, hdstMac⟩, ⟨srcIp, hsrcIp⟩, ⟨dstIp, hdstIp⟩⟩ :
      (∃ m, o.srcMac = some m) ∧ (∃ m, o.dstMac = some m) ∧ (∃ a, o.srcIp = some a) ∧
        ∃ a, o.dstIp = some a := by
    simpa only [Option.isSome_iff_exists] using h.readable
  have plain : ∀ {α : Type} {set : Bool} {value : α} {field : Option α},
      Holds some set (some value) field → Holds id set value field := by
    intro α set value field holds
    cases field with
    | none => exact holds
    | some a => exact ⟨holds.1, Option.some.inj holds.2⟩
  refine ⟨⟨srcMac, dstMac, o.vlan, srcIp, dstIp, o.l4Proto.number, o.srcPort, o.dstPort,
    (ports o.inPort).getD 0, o.action.number, (ports o.outPort).getD 0, o.flags⟩, ?_, rfl, ?_⟩
  · unfold Rules.toRule
    rw [hsrcMac, hdstMac, hsrcIp, hdstIp]
    rfl
  · refine ⟨plain (hsrcMac ▸ h.srcMac), plain (hdstMac ▸ h.dstMac), h.vlan,
      plain (hsrcIp ▸ h.srcIp), plain (hdstIp ▸ h.dstIp), ?_, h.srcPort, h.dstPort, ?_, ?_,
      h.vlanShort, h.ports⟩
    · have proto := h.l4Proto
      cases hr : r.l4Proto with
      | none =>
        rw [hr] at proto
        exact proto
      | some p =>
        rw [hr] at proto
        exact ⟨proto.1, congrArg RulesL4ProtoEnum.number proto.2⟩
    · have inPort := h.inPort
      cases hr : r.inPort with
      | none =>
        rw [hr] at inPort
        exact inPort
      | some name =>
        rw [hr] at inPort
        obtain ⟨port, hport⟩ := Option.isSome_iff_exists.1 (resolves.1 name hr)
        refine ⟨inPort.1, ?_⟩
        show some ((ports o.inPort).getD 0) = ports name
        rw [inPort.2, id, hport]
        rfl
    · unfold Rule.Acts
      rw [h.action]
      cases hr : r.action with
      | drop => rfl
      | slowpath => rfl
      | forward =>
        obtain ⟨name, hname, hsome⟩ := resolves.2 hr
        obtain ⟨port, hport⟩ := Option.isSome_iff_exists.1 hsome
        refine ⟨name, port, hname, hport, ?_⟩
        rw [h.outPort name hname, hport]
        rfl

def Rule.withoutL4 (r : Rule) : Rule := { r with l4Proto := none, srcPort := none, dstPort := none }

/-- The frame ends in a header that programs of the level read. -/
def Frame.Cut (f : Frame) (level : ℕ) : Prop :=
  f.vlan = none ∧
    match f.payload with
    | .short => 2 < level
    | .ip _ _ (.segment _ none) => level = 4
    | _ => False

/-- A packet that is not mistaken: if its frame is cut, the first rule that matches it drops it; if
it is tagged, no rule about its IP header matches; and if it has no TCP or UDP header that the parser
reads, no rule matches it but for the protocol, which is that of an earlier packet. -/
structure Clear (ports : String → Option (BitVec 16)) (rules : BitVec 32 → Option Rule) (f : Frame)
    (inPort : BitVec 16) (level : ℕ) (pkt : PacketHeaders) : Prop where
  cut : f.Cut level → ∀ id r, rules id = some r → r.Matches ports f inPort →
    (∀ id' r', id' < id → rules id' = some r' → ¬ r'.Matches ports f inPort) → r.action = .drop
  tagged : f.vlan.isSome → ∀ id r, rules id = some r →
    r.srcIp.isSome ∨ r.dstIp.isSome ∨ r.l4Proto.isSome → ¬ r.Matches ports f inPort
  stale : f.vlan.isSome ∨ f.payload.l4.proto = none → ∀ id r proto, rules id = some r →
    r.l4Proto = some proto → pkt.l4proto = proto.number.setWidth 8 →
    ¬ r.withoutL4.Matches ports f inPort

/-! ### What the matcher finds -/

variable {level matcher : ℕ} {pkt : PacketHeaders}

theorem Holds.check {α β : Type} {enc : α → β} {set : Bool} {value : β} {field : Option α}
    (h : Holds enc set value field) {c : Bool} {P : α → Prop}
    (same : ∀ a, field = some a → value = enc a → (c = true ↔ P a)) :
    (!set || c) = true ↔ ∀ a, field = some a → P a := by
  cases field with
  | none =>
    obtain rfl : set = false := h
    simp
  | some a =>
    obtain ⟨rfl, value⟩ := h
    rw [Bool.not_true, Bool.false_or, same a rfl value]
    simp

theorem parseL4_ip (l4 : L4) (pkt : PacketHeaders) :
    (parseL4 l4 pkt).1.ip = pkt.ip ∧ (parseL4 l4 pkt).1.srcIp = pkt.srcIp ∧
      (parseL4 l4 pkt).1.dstIp = pkt.dstIp ∧ (parseL4 l4 pkt).1.srcMac = pkt.srcMac ∧
      (parseL4 l4 pkt).1.dstMac = pkt.dstMac ∧ (parseL4 l4 pkt).1.vlan = pkt.vlan ∧
      (parseL4 l4 pkt).1.vlanPresent = pkt.vlanPresent := by
  unfold parseL4
  split <;> exact ⟨rfl, rfl, rfl, rfl, rfl, rfl, rfl⟩

theorem parseIp_eth (level : ℕ) (payload : Payload) (pkt : PacketHeaders) :
    (parseIp level payload pkt).1.srcMac = pkt.srcMac ∧
      (parseIp level payload pkt).1.dstMac = pkt.dstMac ∧
      (parseIp level payload pkt).1.vlan = pkt.vlan ∧
      (parseIp level payload pkt).1.vlanPresent = pkt.vlanPresent := by
  unfold parseIp
  split
  · split_ifs
    · exact (parseL4_ip _ _).2.2.2
    · exact ⟨rfl, rfl, rfl, rfl⟩
  · exact ⟨rfl, rfl, rfl, rfl⟩
  · exact ⟨rfl, rfl, rfl, rfl⟩

theorem parse_eth (level : ℕ) (f : Frame) (pkt : PacketHeaders) :
    (parse level f pkt).1.srcMac = f.srcMac ∧ (parse level f pkt).1.dstMac = f.dstMac ∧
      (parse level f pkt).1.vlanPresent = f.vlan.isSome ∧
      ∀ id, f.vlan = some id → (parse level f pkt).1.vlan = id.setWidth 16 := by
  have eth : (parseEth f pkt).srcMac = f.srcMac ∧ (parseEth f pkt).dstMac = f.dstMac ∧
      (parseEth f pkt).vlanPresent = f.vlan.isSome ∧
      ∀ id, f.vlan = some id → (parseEth f pkt).vlan = id.setWidth 16 := by
    refine ⟨rfl, rfl, rfl, fun id hid => ?_⟩
    unfold parseEth
    rw [hid]
    rfl
  unfold parse
  split_ifs
  · obtain ⟨srcMac, dstMac, vlan, vlanPresent⟩ := parseIp_eth level f.payload (parseEth f pkt)
    rw [srcMac, dstMac, vlan, vlanPresent]
    exact eth
  · exact eth

/-- The addresses that the matcher sees are those of the packet, unless it is tagged. -/
theorem parse_ip (above : level > 2) (f : Frame) (pkt : PacketHeaders) (ip : BitVec 32) :
    ((parse level f pkt).1.ip = true ∧ (parse level f pkt).1.srcIp = ip ↔
      f.vlan = none ∧ f.payload.srcIp = some ip) ∧
    ((parse level f pkt).1.ip = true ∧ (parse level f pkt).1.dstIp = ip ↔
      f.vlan = none ∧ f.payload.dstIp = some ip) := by
  unfold parse
  by_cases untagged : f.vlan = none
  · rw [if_pos ⟨above, untagged⟩]
    unfold parseIp Payload.srcIp Payload.dstIp
    cases f.payload with
    | ip src dst l4 =>
      split_ifs
      · obtain ⟨hip, hsrc, hdst, -⟩ :=
          parseL4_ip l4 { parseEth f pkt with ip := true, srcIp := src, dstIp := dst }
        rw [hip, hsrc, hdst]
        simp [untagged]
      · simp [untagged]
    | short => simp [parseEth]
    | other => simp [parseEth]
  · rw [if_neg fun h => untagged h.2]
    simp [parseEth, untagged]

/-- The transport header that the matcher sees is the packet's, if the parser gets to it. -/
theorem parse_segment {proto : RulesL4ProtoEnum} (top : level = 4) (untagged : f.vlan = none)
    (segment : f.payload.l4.proto = some proto) (whole : (parse level f pkt).2 = true) :
    (parse level f pkt).1.l4proto = proto.number.setWidth 8 ∧ ∃ src dst,
      f.payload.l4.ports = some (src, dst) ∧ (parse level f pkt).1.srcPort = bswap16 src ∧
        (parse level f pkt).1.dstPort = bswap16 dst := by
  subst top
  unfold parse at whole ⊢
  rw [if_pos ⟨by decide, untagged⟩] at whole ⊢
  cases hpayload : f.payload with
  | ip src dst l4 =>
    rw [hpayload] at segment whole
    unfold parseIp at whole ⊢
    dsimp only at whole ⊢
    rw [if_pos rfl] at whole ⊢
    cases l4 with
    | segment p ports =>
      obtain rfl := Option.some.inj segment
      cases ports with
      | none => cases whole
      | some ab => exact ⟨rfl, ab.1, ab.2, rfl, rfl, rfl⟩
    | other => cases segment
  | short =>
    rw [hpayload] at segment
    cases segment
  | other =>
    rw [hpayload] at segment
    cases segment

theorem parse_stale (other : f.vlan.isSome ∨ f.payload.l4.proto = none) (level : ℕ)
    (pkt : PacketHeaders) : (parse level f pkt).1.l4proto = pkt.l4proto := by
  unfold parse
  split_ifs with h
  · rw [h.2] at other
    have other : f.payload.l4.proto = none := by simpa using other
    unfold parseIp
    cases hpayload : f.payload with
    | ip src dst l4 =>
      rw [hpayload] at other
      cases l4 with
      | segment p ports => cases other
      | other =>
        split_ifs <;> rfl
    | short => rfl
    | other => rfl
  · rfl

theorem matchesL2_iff (shows : Shows ports r e) (level : ℕ) (f : Frame) (pkt : PacketHeaders) :
    e.matchesL2 (parse level f pkt).1 = true ↔
      (∀ mac, r.srcMac = some mac → f.srcMac = mac) ∧
      (∀ mac, r.dstMac = some mac → f.dstMac = mac) ∧
      ∀ vlan, r.vlan = some vlan → ∃ id, f.vlan = some id ∧ id.toNat = vlan.toNat := by
  obtain ⟨srcMac, dstMac, vlanPresent, vlan⟩ := parse_eth level f pkt
  unfold Entry.matchesL2
  rw [srcMac, dstMac, vlanPresent, Bool.and_eq_true, Bool.and_eq_true, and_assoc]
  refine and_congr ?_ (and_congr ?_ ?_)
  · refine shows.srcMac.check fun mac _ value => ?_
    rw [value, beq_iff_eq, id]
  · refine shows.dstMac.check fun mac _ value => ?_
    rw [value, beq_iff_eq, id]
  · refine shows.vlan.check fun v hv value => ?_
    have short := shows.vlanShort v hv
    rw [value, Bool.and_eq_true, beq_iff_eq, Option.isSome_iff_exists]
    constructor
    · rintro ⟨⟨id, hid⟩, same⟩
      rw [vlan id hid] at same
      have same := congrArg BitVec.toNat same
      rw [BitVec.toNat_setWidth, BitVec.toNat_setWidth, Nat.mod_eq_of_lt short] at same
      have := id.isLt
      exact ⟨id, hid, by omega⟩
    · rintro ⟨id, hid, same⟩
      refine ⟨⟨id, hid⟩, ?_⟩
      rw [vlan id hid]
      apply BitVec.eq_of_toNat_eq
      rw [BitVec.toNat_setWidth, BitVec.toNat_setWidth, same]

theorem Rule.level_of_ip (r : Rule) (ip : r.srcIp.isSome ∨ r.dstIp.isSome) : 3 ≤ r.level := by
  unfold Rule.level
  split_ifs <;> omega

theorem Rule.level_of_l4 (r : Rule) (l4 : r.l4Proto.isSome ∨ r.inPort.isSome) : r.level = 4 :=
  if_pos l4

theorem matchesL3_iff (shows : Shows ports r e) (parsed : r.level ≤ level)
    (matched : r.level ≤ matcher) (f : Frame) (pkt : PacketHeaders) :
    (!decide (matcher > 2) || e.matchesL3 (parse level f pkt).1) = true ↔
      (∀ ip, r.srcIp = some ip → f.vlan = none ∧ f.payload.srcIp = some ip) ∧
      ∀ ip, r.dstIp = some ip → f.vlan = none ∧ f.payload.dstIp = some ip := by
  by_cases ip : r.srcIp.isSome ∨ r.dstIp.isSome
  · have above := r.level_of_ip ip
    have above' : level > 2 := by omega
    rw [decide_eq_true (by omega : matcher > 2), Bool.not_true, Bool.false_or]
    unfold Entry.matchesL3
    rw [Bool.and_eq_true]
    refine and_congr ?_ ?_
    · refine shows.srcIp.check fun ip _ value => ?_
      rw [value, Bool.and_eq_true, beq_iff_eq]
      exact (parse_ip above' f pkt ip).1
    · refine shows.dstIp.check fun ip _ value => ?_
      rw [value, Bool.and_eq_true, beq_iff_eq]
      exact (parse_ip above' f pkt ip).2
  · rw [not_or, Bool.not_eq_true, Bool.not_eq_true, Option.isSome_eq_false_iff,
      Option.isSome_eq_false_iff, Option.isNone_iff_eq_none, Option.isNone_iff_eq_none] at ip
    have srcIp := shows.srcIp
    have dstIp := shows.dstIp
    rw [ip.1] at srcIp
    rw [ip.2] at dstIp
    unfold Entry.matchesL3
    rw [show isSet e.flags 3 = false from srcIp, show isSet e.flags 4 = false from dstIp, ip.1,
      ip.2]
    simp

theorem checkProto (proto : RulesL4ProtoEnum) (l4proto : BitVec 8) :
    (!((proto.number == 6 && l4proto != 6) || (proto.number == 17 && l4proto != 17))) = true ↔
      l4proto = proto.number.setWidth 8 := by
  cases proto with
  | udp =>
    show (!(((17 : BitVec 16) == 6 && l4proto != 6) || ((17 : BitVec 16) == 17 && l4proto != 17))) =
      true ↔ l4proto = 17
    simp
  | tcp =>
    show (!(((6 : BitVec 16) == 6 && l4proto != 6) || ((6 : BitVec 16) == 17 && l4proto != 17))) =
      true ↔ l4proto = 6
    simp

theorem matchesL4_iff (shows : Shows ports r e) (top : matcher ≤ 4) (matched : r.level ≤ matcher)
    (pkt : PacketHeaders) :
    (!decide (matcher = 4) || e.matchesL4 pkt inPort) = true ↔
      (∀ proto, r.l4Proto = some proto → pkt.l4proto = proto.number.setWidth 8 ∧
        (∀ port, r.srcPort = some port → pkt.srcPort = bswap16 port) ∧
        ∀ port, r.dstPort = some port → pkt.dstPort = bswap16 port) ∧
      ∀ name, r.inPort = some name → ports name = some inPort := by
  by_cases l4 : r.l4Proto.isSome ∨ r.inPort.isSome
  · have above := r.level_of_l4 l4
    rw [decide_eq_true (by omega : matcher = 4), Bool.not_true, Bool.false_or]
    unfold Entry.matchesL4
    rw [Bool.and_eq_true]
    refine and_congr ?_ ?_
    · refine shows.l4Proto.check fun proto _ value => ?_
      rw [value, Bool.and_eq_true, Bool.and_eq_true, checkProto, and_assoc]
      refine and_congr Iff.rfl (and_congr ?_ ?_)
      · refine shows.srcPort.check fun port _ value => ?_
        rw [value, beq_iff_eq]
      · refine shows.dstPort.check fun port _ value => ?_
        rw [value, beq_iff_eq]
    · refine shows.inPort.check fun name _ value => ?_
      rw [beq_iff_eq, ← value, Option.some_inj, eq_comm]
  · rw [not_or, Bool.not_eq_true, Bool.not_eq_true, Option.isSome_eq_false_iff,
      Option.isSome_eq_false_iff, Option.isNone_iff_eq_none, Option.isNone_iff_eq_none] at l4
    have proto := shows.l4Proto
    have inPort := shows.inPort
    rw [l4.1] at proto
    rw [l4.2] at inPort
    unfold Entry.matchesL4
    rw [show isSet e.flags 5 = false from proto, show isSet e.flags 8 = false from inPort, l4.1,
      l4.2]
    simp

theorem matches_iff (shows : Shows ports r e) (parsed : r.level ≤ level) (low : level ≤ 4)
    (matched : r.level ≤ matcher) (top : matcher ≤ 4) (whole : (parse level f pkt).2 = true)
    (tagged : f.vlan.isSome → r.srcIp.isSome ∨ r.dstIp.isSome ∨ r.l4Proto.isSome →
      ¬ r.Matches ports f inPort)
    (stale : f.vlan.isSome ∨ f.payload.l4.proto = none → ∀ proto, r.l4Proto = some proto →
      pkt.l4proto = proto.number.setWidth 8 → ¬ r.withoutL4.Matches ports f inPort) :
    e.matches matcher (parse level f pkt).1 inPort = true ↔ r.Matches ports f inPort := by
  unfold Entry.matches
  rw [Bool.and_eq_true, Bool.and_eq_true, matchesL2_iff shows, matchesL3_iff shows parsed matched,
    matchesL4_iff shows top matched]
  constructor
  · rintro ⟨⟨⟨srcMac, dstMac, vlan⟩, srcIp, dstIp⟩, l4, inPort'⟩
    have without : r.withoutL4.Matches ports f inPort :=
      ⟨srcMac, dstMac, vlan, fun ip h => (srcIp ip h).2, fun ip h => (dstIp ip h).2,
        fun _ h => (by cases h), fun _ h => (by cases h), fun _ h => (by cases h), inPort'⟩
    cases hproto : r.l4Proto with
    | none =>
      obtain ⟨noSrc, noDst⟩ := shows.ports hproto
      exact ⟨srcMac, dstMac, vlan, fun ip h => (srcIp ip h).2, fun ip h => (dstIp ip h).2,
        fun _ h => (by rw [hproto] at h; cases h), fun _ h => (by rw [noSrc] at h; cases h),
        fun _ h => (by rw [noDst] at h; cases h), inPort'⟩
    | some proto =>
      obtain ⟨same, srcPort, dstPort⟩ := l4 proto hproto
      by_cases seen : f.vlan.isSome ∨ f.payload.l4.proto = none
      · rw [parse_stale seen] at same
        exact absurd without (stale seen proto hproto same)
      · rw [not_or, Bool.not_eq_true, Option.isSome_eq_false_iff, Option.isNone_iff_eq_none] at seen
        obtain ⟨p, hp⟩ := Option.ne_none_iff_exists'.1 seen.2
        have above := r.level_of_l4 (.inl (by rw [hproto]; rfl))
        obtain ⟨number, src, dst, hports, hsrc, hdst⟩ :=
          parse_segment (by omega) seen.1 hp whole
        obtain rfl : p = proto := by
          rw [number] at same
          cases p <;> cases proto <;> first | rfl | exact absurd same (by decide)
        refine ⟨srcMac, dstMac, vlan, fun ip h => (srcIp ip h).2, fun ip h => (dstIp ip h).2, ?_,
          fun port h => ?_, fun port h => ?_, inPort'⟩
        · intro p' h
          rw [hproto] at h
          rw [hp, h]
        · rw [hports]
          exact congrArg some (bswap16_injective (hsrc.symm.trans (srcPort port h)))
        · rw [hports]
          exact congrArg some (bswap16_injective (hdst.symm.trans (dstPort port h)))
  · intro m
    have untagged : r.srcIp.isSome ∨ r.dstIp.isSome ∨ r.l4Proto.isSome → f.vlan = none := by
      intro h
      by_contra some
      exact tagged (Option.isSome_iff_ne_none.2 some) h m
    refine ⟨⟨⟨m.srcMac, m.dstMac, m.vlan⟩, fun ip h => ⟨untagged (.inl ?_), m.srcIp ip h⟩,
      fun ip h => ⟨untagged (.inr (.inl ?_)), m.dstIp ip h⟩⟩, fun proto h => ?_, m.inPort⟩
    · rw [h]
      rfl
    · rw [h]
      rfl
    · have above := r.level_of_l4 (.inl (by rw [h]; rfl))
      obtain ⟨number, src, dst, hports, hsrc, hdst⟩ := parse_segment (by omega)
        (untagged (.inr (.inr (by rw [h]; rfl)))) (m.l4Proto proto h) whole
      refine ⟨number, fun port hport => ?_, fun port hport => ?_⟩
      · have same := m.srcPort port hport
        rw [hports] at same
        rw [hsrc, show src = port from Option.some.inj same]
      · have same := m.dstPort port hport
        rw [hports] at same
        rw [hdst, show dst = port from Option.some.inj same]

variable {rules : BitVec 32 → Option Rule} {table : Table (BitVec 32) Entry} {n : ℤ}

theorem cut_of_parse {pkt : PacketHeaders} (dropped : (parse level f pkt).2 = false) :
    f.Cut level := by
  unfold parse at dropped
  split_ifs at dropped with parsed
  obtain ⟨high, untagged⟩ := parsed
  refine ⟨untagged, ?_⟩
  unfold parseIp at dropped
  cases payload : f.payload with
  | short => exact high
  | other => simp [payload] at dropped
  | ip src dst l4 =>
    simp only [payload] at dropped
    split_ifs at dropped with four
    rcases l4 with ⟨proto, _ | ports⟩ | _
    · exact four
    · simp [parseL4] at dropped
    · simp [parseL4] at dropped

/-- Of the rules that match there is one of the lowest number. -/
theorem decides_drop (first : ∀ id r, rules id = some r → r.Matches ports f inPort →
    (∀ id' r', id' < id → rules id' = some r' → ¬ r'.Matches ports f inPort) → r.action = .drop) :
    Decides ports rules f inPort .drop := by
  by_cases found : ∃ id r, rules id = some r ∧ r.Matches ports f inPort
  · obtain ⟨id, ⟨r, hr, m⟩, least⟩ := (measure BitVec.toNat).wf.has_min
      {id : BitVec 32 | ∃ r, rules id = some r ∧ r.Matches ports f inPort} found
    have before : ∀ id' r', id' < id → rules id' = some r' → ¬ r'.Matches ports f inPort :=
      fun id' r' lt hr' m' => least id' ⟨r', hr', m'⟩ lt
    refine .inl ⟨id, r, hr, m, ?_, before⟩
    unfold Rule.Acts
    rw [first id r hr m before]
  · exact .inr ⟨rfl, fun id r hr m => found ⟨id, r, hr, m⟩⟩

theorem decides_matching
    (held : ∀ id r, rules id = some r → id.toNat < n.toNat ∧ ∃ e, table id = some e ∧
      Shows ports r e ∧ (e.matches matcher pkt inPort = true ↔ r.Matches ports f inPort))
    (others : ∀ id, rules id = none → table id = none) :
    Decides ports rules f inPort (matching n matcher table pkt inPort) := by
  have tried : ∀ i e, (table (BitVec.ofNat 32 i)).filter
      (fun e => e.matches matcher pkt inPort) = some e →
      ∃ r, rules (BitVec.ofNat 32 i) = some r ∧ Shows ports r e ∧ r.Matches ports f inPort := by
    intro i e he
    obtain ⟨he, hm⟩ := Option.filter_eq_some_iff.1 he
    cases hr : rules (BitVec.ofNat 32 i) with
    | none =>
      rw [others _ hr] at he
      cases he
    | some r =>
      obtain ⟨-, e', he', shows, same⟩ := held _ r hr
      obtain rfl : e = e' := Option.some.inj (he.symm.trans he')
      exact ⟨r, rfl, shows, same.1 hm⟩
  have missed : ∀ id r, rules id = some r → (table (BitVec.ofNat 32 id.toNat)).filter
      (fun e => e.matches matcher pkt inPort) = none → ¬ r.Matches ports f inPort := by
    intro id r hr none m
    obtain ⟨-, e, he, -, same⟩ := held id r hr
    rw [BitVec.ofNat_toNat, BitVec.setWidth_eq, he, Option.filter_some_eq_none] at none
    exact none (same.2 m)
  unfold matching
  split
  · rename_i e he
    obtain ⟨l₁, i, l₂, hl, hi, before⟩ := List.findSome?_eq_some_iff.1 he
    obtain ⟨r, hr, shows, m⟩ := tried i e hi
    refine .inl ⟨_, r, hr, m, shows.acts, fun id' r' lt hr' => missed id' r' hr' (before _ ?_)⟩
    have low : id'.toNat < i :=
      lt_of_lt_of_le lt (by rw [BitVec.toNat_ofNat]; exact Nat.mod_le _ _)
    have mem : id'.toNat ∈ l₁ ++ i :: l₂ := hl ▸ List.mem_range.2 (held id' r' hr').1
    have sorted : (l₁ ++ i :: l₂).Pairwise (· < ·) := hl ▸ List.pairwise_lt_range
    rcases List.mem_append.1 mem with first | rest
    · exact first
    rcases List.mem_cons.1 rest with same | rest
    · omega
    · have := List.rel_of_pairwise_cons (List.pairwise_append.1 sorted).2.1 rest
      omega
  · rename_i none
    rw [List.findSome?_eq_none_iff] at none
    exact .inr ⟨rfl, fun id r hr => missed id r hr
      (none _ (List.mem_range.2 (held id r hr).1))⟩

end Polycube.Pbforwarder
