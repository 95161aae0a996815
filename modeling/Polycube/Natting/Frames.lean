import Polycube.Lib.Ipv4
import Polycube.Natting.Datapath

/-!
# The address translator's programs on frames

`handleFrame` is the program of the translator byte by byte: where it reads the addresses and ports
of a packet, and what it stores in its frame.  The checksum of a message is looked for after a
header of 20 bytes.  On frames without options it is the program on packets.
-/

namespace Polycube.Natting

open Lib Lib.Ipv4

def parseL4 (frame : Buffer) : L4 :=
  let l4 := l4Off frame
  if protocol frame = ipprotoTcp then
    if frame.length < l4 + 20 then .short else .tcp (frame.load16 l4) (frame.load16 (l4 + 2))
  else if protocol frame = ipprotoUdp then
    if frame.length < l4 + 8 then .short else .udp (frame.load16 l4) (frame.load16 (l4 + 2))
  else if protocol frame = ipprotoIcmp then
    if frame.length < l4 + 8 then .short else .icmp (frame.byte l4) (frame.load16 (l4 + 4))
  else .other (protocol frame)

def parse (frame : Buffer) : Frame :=
  if frame.length < ethLen then .short
  else if frame.load16 12 = ethPIp then
    if frame.length < ethLen + ipLen then .short
    else .ip ⟨frame.load32 (ethLen + 12), frame.load32 (ethLen + 16), parseL4 frame⟩
  else if frame.load16 12 = ethPArp then .arp
  else .noIp

/-! ### Stores -/

def Match.addressOff (m : Match) : ℕ := if m.ruleType.isSource then ethLen + 12 else ethLen + 16

def Match.portOff (m : Match) (frame : Buffer) (h : L4Header) : ℕ :=
  l4Off frame + 2 * if m.ruleType.isSource then h.source else h.dest

def Match.oldIp (m : Match) (key : StK) : BitVec 32 :=
  if m.ruleType.isSource then key.srcIp else key.dstIp

def Match.oldPort (m : Match) (key : StK) : BitVec 16 :=
  if m.ruleType.isSource then key.srcPort else key.dstPort

/-- `pcn_l3_csum_replace` and `pcn_l4_csum_replace` with a difference. -/
def csumReplace (helpers : CsumHelpers) (frame : Buffer) (off : ℕ) (diff : BitVec 32) : Buffer :=
  if frame.length < off + 2 then frame
  else frame.store16 off (helpers.replaceByDiff (frame.load16 off) diff)

def ipCsumOffset : ℕ := ethLen + 10

/-- `TCP_CSUM_OFFSET`, `UDP_CSUM_OFFSET` and `ICMP_CSUM_OFFSET` -/
def csumOffset (h : L4Header) : ℕ := ethLen + ipLen + 2 * h.check

def storeTuple (frame : Buffer) (h : L4Header) (m : Match) : Buffer :=
  (frame.store32 m.addressOff m.newIp).store16 (m.portOff frame h) m.newPort

protected def modify (helpers : CsumHelpers) (frame : Buffer) (key : StK) (m : Match) : Buffer :=
  let l3sum := helpers.csumDiff (m.oldIp key) m.newIp
  let l4sum := helpers.csumDiff ((m.oldPort key).setWidth 32) (m.newPort.setWidth 32)
  match l4Header key.proto with
  | none => frame
  | some h =>
    let frame := storeTuple frame h m
    let frame := if h.pseudo then csumReplace helpers frame (csumOffset h) l3sum else frame
    let frame := csumReplace helpers frame (csumOffset h) l4sum
    csumReplace helpers frame ipCsumOffset l3sum

def Datapath.lookups (s : Datapath) (type : Nattype) (key : StK) : Option Match × Datapath :=
  match type with
  | .egress => s.matchEgress key
  | .ingress => (s.matchIngress key, s)

def handleFrame (helpers : CsumHelpers) (type : Nattype) (s : Datapath) (frame : Buffer) :
    Option Buffer × Datapath :=
  match parse frame with
  | .short => (none, s)
  | .arp => (some frame, s)
  | .noIp => (none, s)
  | .ip p =>
    match p.tuple with
    | none => (none, s)
    | some key =>
      let (m, s) := s.lookups type key
      match m with
      | none => (some frame, s)
      | some m =>
        (some (Natting.modify helpers frame key m),
          if m.updateSessionTable then s.updateSessionTables key m else s)

def tupleOf (frame : Buffer) : Option StK :=
  match parse frame with
  | .ip p => p.tuple
  | _ => none

structure Rewritten (frame : Buffer) (h : L4Header) (m : Match) (frame' : Buffer) : Prop where
  length : frame'.length = frame.length
  address : frame'.load32 m.addressOff = m.newIp
  port : frame'.load16 (m.portOff frame h) = m.newPort
  rest : ∀ i, (i < m.addressOff ∨ m.addressOff + 4 ≤ i) →
    (i < m.portOff frame h ∨ m.portOff frame h + 2 ≤ i) →
    (i < checkOff frame h ∨ checkOff frame h + 2 ≤ i) →
    (i < ipCsumOffset ∨ ipCsumOffset + 2 ≤ i) → frame'.byte i = frame.byte i

structure Reads (frame : Buffer) (h : L4Header) : Prop where
  header : 5 ≤ ihl frame
  fits : l4Off frame + h.size ≤ frame.length

theorem Match.addressOff_cases (m : Match) : m.addressOff = 26 ∨ m.addressOff = 30 := by
  unfold addressOff
  split_ifs
  · exact .inl rfl
  · exact .inr rfl

section Stores

variable {frame : Buffer} {h : L4Header} (m : Match)

theorem Match.portOff_eq (frame : Buffer) (h : L4Header) :
    ∃ k, m.portOff frame h = l4Off frame + 2 * k ∧ 2 * k + 2 ≤ h.size ∧ h.check ≠ k := by
  unfold portOff
  split_ifs
  · exact ⟨h.source, rfl, h.source_fits, h.check_ne_source⟩
  · exact ⟨h.dest, rfl, h.dest_fits, h.check_ne_dest⟩

theorem l4Off_le (reads : Reads frame h) : 34 ≤ l4Off frame := by
  have long := reads.header
  show 34 ≤ 14 + 4 * ihl frame
  omega

theorem load16_storeTuple {off : ℕ} (address : off + 2 ≤ m.addressOff ∨ m.addressOff + 4 ≤ off)
    (port : off + 2 ≤ m.portOff frame h ∨ m.portOff frame h + 2 ≤ off) :
    (storeTuple frame h m).load16 off = frame.load16 off := by
  unfold storeTuple
  rw [Buffer.load16_store16_of_disjoint _ _ (by omega)]
  apply Buffer.load16_congr
  intro i low high
  exact Buffer.byte_store32_of_outside _ _ _ _ (by omega)

theorem rewritten_stores (reads : Reads frame h) (check sum : BitVec 16) :
    Rewritten frame h m
      (((storeTuple frame h m).store16 (checkOff frame h) check).store16 ipCsumOffset sum) := by
  have l4 := l4Off_le reads
  have fits := reads.fits
  have address := m.addressOff_cases
  obtain ⟨k, port, portFits, apart⟩ := m.portOff_eq frame h
  have checkFits := h.check_fits
  have check_eq : checkOff frame h = l4Off frame + 2 * h.check := rfl
  have sum_eq : ipCsumOffset = 24 := rfl
  unfold storeTuple
  refine ⟨?_, ?_, ?_, fun i onAddress onPort onCheck onSum => ?_⟩
  · simp only [Buffer.length_store16, Buffer.length_store32]
  · rw [Buffer.load32_store16_of_disjoint _ _ (by omega),
      Buffer.load32_store16_of_disjoint _ _ (by omega),
      Buffer.load32_store16_of_disjoint _ _ (by omega), Buffer.load32_store32 _ _ _ (by omega)]
  · rw [Buffer.load16_store16_of_disjoint _ _ (by omega),
      Buffer.load16_store16_of_disjoint _ _ (by omega), Buffer.load16_store16 _ _ _ (by
        rw [Buffer.length_store32]
        omega)]
  · rw [Buffer.byte_store16_of_ne _ _ _ _ (by omega) (by omega),
      Buffer.byte_store16_of_ne _ _ _ _ (by omega) (by omega),
      Buffer.byte_store16_of_ne _ _ _ _ (by omega) (by omega),
      Buffer.byte_store32_of_outside _ _ _ _ onAddress]

end Stores

/-! ### Frames without options -/

section Plain

variable {frame frame' : Buffer} {h : L4Header} {m : Match}

/-- The bytes that no new address, port or checksum is stored in, over the message header. -/
theorem Rewritten.ahead (r : Rewritten frame h m frame') (reads : Reads frame h) {i : ℕ}
    (front : i < 24) : frame'.byte i = frame.byte i := by
  have l4 := l4Off_le reads
  have address := m.addressOff_cases
  obtain ⟨k, port, -, -⟩ := m.portOff_eq frame h
  have check : checkOff frame h = l4Off frame + 2 * h.check := rfl
  have sum : ipCsumOffset = 24 := rfl
  exact r.rest i (by omega) (by omega) (by omega) (by omega)

theorem Rewritten.ihl (r : Rewritten frame h m frame') (reads : Reads frame h) :
    ihl frame' = ihl frame := by
  unfold Ipv4.ihl
  rw [r.ahead reads (by decide)]

theorem Rewritten.l4Off (r : Rewritten frame h m frame') (reads : Reads frame h) :
    l4Off frame' = l4Off frame := by
  unfold Ipv4.l4Off
  rw [r.ihl reads]

theorem Rewritten.protocol (r : Rewritten frame h m frame') (reads : Reads frame h) :
    protocol frame' = protocol frame := r.ahead reads (by decide)

theorem Rewritten.otherAddress (r : Rewritten frame h m frame') (reads : Reads frame h) {off : ℕ}
    (hoff : off = 26 ∨ off = 30) (other : off ≠ m.addressOff) :
    frame'.load32 off = frame.load32 off := by
  have l4 := l4Off_le reads
  have address := m.addressOff_cases
  obtain ⟨k, port, -, -⟩ := m.portOff_eq frame h
  have check : checkOff frame h = Ipv4.l4Off frame + 2 * h.check := rfl
  have sum : ipCsumOffset = 24 := rfl
  apply Buffer.load32_congr
  intro i low high
  exact r.rest i (by omega) (by omega) (by omega) (by omega)

/-- Words of the message header other than its new port and its checksum. -/
theorem Rewritten.otherWord (r : Rewritten frame h m frame') (reads : Reads frame h) {k : ℕ}
    (port : Ipv4.l4Off frame + 2 * k ≠ m.portOff frame h) (check : k ≠ h.check) :
    frame'.load16 (Ipv4.l4Off frame + 2 * k) = frame.load16 (Ipv4.l4Off frame + 2 * k) := by
  have l4 := l4Off_le reads
  have address := m.addressOff_cases
  obtain ⟨p, port_eq, -, -⟩ := m.portOff_eq frame h
  have check_eq : checkOff frame h = Ipv4.l4Off frame + 2 * h.check := rfl
  have sum : ipCsumOffset = 24 := rfl
  apply Buffer.load16_congr
  intro i low high
  exact r.rest i (by omega) (by omega) (by omega) (by omega)

theorem parseL4_tcp (fits : Ipv4.l4Off frame + 20 ≤ frame.length)
    (tcp : Ipv4.protocol frame = ipprotoTcp) : parseL4 frame =
      .tcp (frame.load16 (Ipv4.l4Off frame)) (frame.load16 (Ipv4.l4Off frame + 2)) := by
  unfold parseL4
  rw [if_pos tcp, if_neg (Nat.not_lt.2 fits)]

theorem parseL4_udp (fits : Ipv4.l4Off frame + 8 ≤ frame.length)
    (udp : Ipv4.protocol frame = ipprotoUdp) : parseL4 frame =
      .udp (frame.load16 (Ipv4.l4Off frame)) (frame.load16 (Ipv4.l4Off frame + 2)) := by
  have noTcp : ¬ Ipv4.protocol frame = ipprotoTcp := by
    rw [udp]
    decide
  unfold parseL4
  rw [if_neg noTcp, if_pos udp, if_neg (Nat.not_lt.2 fits)]

theorem parseL4_icmp (fits : Ipv4.l4Off frame + 8 ≤ frame.length)
    (icmp : Ipv4.protocol frame = ipprotoIcmp) : parseL4 frame =
      .icmp (frame.byte (Ipv4.l4Off frame)) (frame.load16 (Ipv4.l4Off frame + 4)) := by
  have noTcp : ¬ Ipv4.protocol frame = ipprotoTcp := by
    rw [icmp]
    decide
  have noUdp : ¬ Ipv4.protocol frame = ipprotoUdp := by
    rw [icmp]
    decide
  unfold parseL4
  rw [if_neg noTcp, if_neg noUdp, if_pos icmp, if_neg (Nat.not_lt.2 fits)]

theorem Rewritten.ports (r : Rewritten frame h m frame') (reads : Reads frame h)
    (source : h.source = 0) (dest : h.dest = 1) :
    frame'.load16 (Ipv4.l4Off frame) =
        (if m.ruleType.isSource then m.newPort else frame.load16 (Ipv4.l4Off frame)) ∧
      frame'.load16 (Ipv4.l4Off frame + 2) =
        (if m.ruleType.isSource then frame.load16 (Ipv4.l4Off frame + 2) else m.newPort) := by
  have port := r.port
  have first : 0 ≠ h.check := by
    rw [← source]
    exact h.check_ne_source.symm
  have second : 1 ≠ h.check := by
    rw [← dest]
    exact h.check_ne_dest.symm
  have atSource := fun off => r.otherWord reads (k := 0) off first
  have atDest := fun off => r.otherWord reads (k := 1) off second
  unfold Match.portOff at port atSource atDest
  rw [source, dest] at port atSource atDest
  split_ifs at port atSource atDest ⊢
  · exact ⟨port, atDest (by omega)⟩
  · exact ⟨atSource (by omega), port⟩

theorem Rewritten.messageLen (r : Rewritten frame h m frame') (reads : Reads frame h)
    (hh : l4Header (Ipv4.protocol frame) = some h) : messageLen frame' = messageLen frame := by
  have eth : ethLen = 14 := rfl
  have totalLen : frame'.load16 (ethLen + 2) = frame.load16 (ethLen + 2) :=
    Buffer.load16_congr fun i low high => r.ahead reads (by omega)
  have udpLen : Ipv4.protocol frame = ipprotoUdp →
      frame'.load16 (Ipv4.l4Off frame + 4) = frame.load16 (Ipv4.l4Off frame + 4) := by
    intro udp
    rw [udp] at hh
    cases hh
    refine r.otherWord reads (k := 2) ?_ (by decide)
    unfold Match.portOff
    split_ifs <;> simp [udphdr]
  unfold Ipv4.messageLen totalLength
  rw [r.protocol reads, r.ihl reads, r.l4Off reads, totalLen]
  split_ifs with udp
  · rw [udpLen udp]
  · rfl

theorem Rewritten.reads (r : Rewritten frame h m frame') (reads : Reads frame h) :
    Reads frame' h where
  header := by
    rw [r.ihl reads]
    exact reads.header
  fits := by
    rw [r.l4Off reads, r.length]
    exact reads.fits

theorem Rewritten.parseL4 (r : Rewritten frame h m frame') (reads : Reads frame h)
    (hh : l4Header (Ipv4.protocol frame) = some h) :
    parseL4 frame' = if m.ruleType.isSource then (parseL4 frame).setSource m.newPort
      else (parseL4 frame).setDest m.newPort := by
  have protocol := r.protocol reads
  have l4 := r.l4Off reads
  have fits' := (r.reads reads).fits
  rcases l4Header_cases hh with ⟨e, rfl⟩ | ⟨e, rfl⟩ | ⟨e, rfl⟩
  · obtain ⟨source, dest⟩ := r.ports reads rfl rfl
    rw [parseL4_tcp fits' (protocol.trans e), parseL4_tcp reads.fits e, l4, source, dest]
    split_ifs <;> rfl
  · obtain ⟨source, dest⟩ := r.ports reads rfl rfl
    rw [parseL4_udp fits' (protocol.trans e), parseL4_udp reads.fits e, l4, source, dest]
    split_ifs <;> rfl
  · have portOff : m.portOff frame icmphdr = Ipv4.l4Off frame + 4 := by
      unfold Match.portOff
      split_ifs <;> rfl
    have id : frame'.load16 (Ipv4.l4Off frame + 4) = m.newPort := by
      rw [← portOff]
      exact r.port
    have type : frame'.byte (Ipv4.l4Off frame) = frame.byte (Ipv4.l4Off frame) := by
      have behind := l4Off_le reads
      have address := m.addressOff_cases
      have check : checkOff frame icmphdr = Ipv4.l4Off frame + 2 := rfl
      have sum : ipCsumOffset = 24 := rfl
      exact r.rest _ (by omega) (by omega) (by omega) (by omega)
    rw [parseL4_icmp fits' (protocol.trans e), parseL4_icmp reads.fits e, l4, id, type]
    split_ifs <;> rfl

theorem parse_eq (reads : Reads frame h) (isIp : frame.load16 12 = ethPIp) : parse frame =
    .ip ⟨frame.load32 (ethLen + 12), frame.load32 (ethLen + 16), Natting.parseL4 frame⟩ := by
  have l4 := l4Off_le reads
  have fits := reads.fits
  have ethernet : ¬ frame.length < ethLen := by
    show ¬ frame.length < 14
    omega
  have ip : ¬ frame.length < ethLen + ipLen := by
    show ¬ frame.length < 34
    omega
  unfold parse
  rw [if_neg ethernet, if_pos isIp, if_neg ip]

theorem Rewritten.parse (r : Rewritten frame h m frame') (reads : Reads frame h)
    (hh : l4Header (Ipv4.protocol frame) = some h) (isIp : frame.load16 12 = ethPIp) {p : Ip}
    (hp : parse frame = .ip p) : parse frame' = .ip (if m.ruleType.isSource
      then p.setSource m.newIp m.newPort else p.setDest m.newIp m.newPort) := by
  have isIp' : frame'.load16 12 = ethPIp := by
    rw [← isIp]
    exact Buffer.load16_congr fun i low high => r.ahead reads (by omega)
  have address := r.address
  have other : ∀ off, off = 26 ∨ off = 30 → off ≠ m.addressOff →
      frame'.load32 off = frame.load32 off := fun off => r.otherAddress reads
  rw [parse_eq reads isIp] at hp
  cases hp
  rw [parse_eq (r.reads reads) isIp', r.parseL4 reads hh]
  unfold Match.addressOff at address other
  split_ifs at address other ⊢
  · rw [address, other (ethLen + 16) (.inr rfl) (by decide)]
    rfl
  · rw [address, other (ethLen + 12) (.inl rfl) (by decide)]
    rfl

end Plain

/-! ### The packet of a frame -/

structure ReadAs (frame : Buffer) (key : StK) (h : L4Header) : Prop where
  isIp : frame.load16 12 = ethPIp
  protocol : l4Header (protocol frame) = some h
  proto : key.proto = Ipv4.protocol frame
  fits : l4Off frame + h.size ≤ frame.length
  srcIp : key.srcIp = frame.load32 26
  dstIp : key.dstIp = frame.load32 30
  srcPort : key.srcPort = frame.load16 (l4Off frame + 2 * h.source)
  dstPort : key.dstPort = frame.load16 (l4Off frame + 2 * h.dest)

theorem readAs_of_tuple {frame : Buffer} {p : Ip} {key : StK} (hp : parse frame = .ip p)
    (tuple : p.tuple = some key) : ∃ h, ReadAs frame key h := by
  unfold parse at hp
  split_ifs at hp with ethernet isIp ip
  cases hp
  unfold Ip.tuple parseL4 at tuple
  dsimp only at tuple
  by_cases tcp : protocol frame = ipprotoTcp
  · rw [if_pos tcp] at tuple
    by_cases long : frame.length < l4Off frame + 20
    · rw [if_pos long] at tuple
      cases tuple
    rw [if_neg long] at tuple
    cases tuple
    exact ⟨tcphdr, isIp, by rw [tcp]; rfl, tcp.symm, Nat.not_lt.1 long, rfl, rfl, rfl, rfl⟩
  rw [if_neg tcp] at tuple
  by_cases udp : protocol frame = ipprotoUdp
  · rw [if_pos udp] at tuple
    by_cases long : frame.length < l4Off frame + 8
    · rw [if_pos long] at tuple
      cases tuple
    rw [if_neg long] at tuple
    cases tuple
    exact ⟨udphdr, isIp, by rw [udp]; rfl, udp.symm, Nat.not_lt.1 long, rfl, rfl, rfl, rfl⟩
  rw [if_neg udp] at tuple
  by_cases icmp : protocol frame = ipprotoIcmp
  · rw [if_pos icmp] at tuple
    by_cases long : frame.length < l4Off frame + 8
    · rw [if_pos long] at tuple
      cases tuple
    rw [if_neg long] at tuple
    cases tuple
    exact ⟨icmphdr, isIp, by rw [icmp]; rfl, icmp.symm, Nat.not_lt.1 long, rfl, rfl, rfl, rfl⟩
  rw [if_neg icmp] at tuple
  cases tuple

section Stored

variable {frame : Buffer} {key : StK} {h : L4Header}

theorem ReadAs.oldIp (read : ReadAs frame key h) (m : Match) :
    m.oldIp key = frame.load32 m.addressOff := by
  unfold Match.oldIp Match.addressOff
  split_ifs
  · exact read.srcIp
  · exact read.dstIp

theorem ReadAs.oldPort (read : ReadAs frame key h) (m : Match) :
    m.oldPort key = frame.load16 (m.portOff frame h) := by
  unfold Match.oldPort Match.portOff
  split_ifs
  · exact read.srcPort
  · exact read.dstPort

def l3sum (helpers : CsumHelpers) (key : StK) (m : Match) : BitVec 32 :=
  helpers.csumDiff (m.oldIp key) m.newIp

def l4sum (helpers : CsumHelpers) (key : StK) (m : Match) : BitVec 32 :=
  helpers.csumDiff ((m.oldPort key).setWidth 32) (m.newPort.setWidth 32)

def mendedBy (helpers : CsumHelpers) (h : L4Header) (key : StK) (m : Match) (w : BitVec 16) :
    BitVec 16 :=
  helpers.replaceByDiff (if h.pseudo then helpers.replaceByDiff w (l3sum helpers key m) else w)
    (l4sum helpers key m)

theorem csumReplace_eq (helpers : CsumHelpers) {frame : Buffer} {off : ℕ} (diff : BitVec 32)
    (inside : off + 2 ≤ frame.length) : csumReplace helpers frame off diff =
      frame.store16 off (helpers.replaceByDiff (frame.load16 off) diff) :=
  if_neg (Nat.not_lt.2 inside)

theorem modify_eq (helpers : CsumHelpers) (read : ReadAs frame key h) (long : 5 ≤ ihl frame)
    (m : Match) : Natting.modify helpers frame key m =
      ((storeTuple frame h m).store16 (csumOffset h)
        (mendedBy helpers h key m ((storeTuple frame h m).load16 (csumOffset h)))).store16
          ipCsumOffset (helpers.replaceByDiff (frame.load16 ipCsumOffset)
            (l3sum helpers key m)) := by
  have reads : Reads frame h := ⟨long, read.fits⟩
  have l4 := l4Off_le reads
  have fits := read.fits
  have check := h.check_fits
  have offset : csumOffset h = 34 + 2 * h.check := rfl
  have ipOffset : ipCsumOffset = 24 := rfl
  have address := m.addressOff_cases
  obtain ⟨k, port, -, -⟩ := m.portOff_eq frame h
  have size : (storeTuple frame h m).length = frame.length := by
    unfold storeTuple
    rw [Buffer.length_store16, Buffer.length_store32]
  have inside : csumOffset h + 2 ≤ (storeTuple frame h m).length := by omega
  have same : (storeTuple frame h m).load16 ipCsumOffset = frame.load16 ipCsumOffset :=
    load16_storeTuple m (by omega) (by omega)
  have again : ∀ v diff, csumReplace helpers ((storeTuple frame h m).store16 (csumOffset h) v)
      (csumOffset h) diff =
        (storeTuple frame h m).store16 (csumOffset h) (helpers.replaceByDiff v diff) := by
    intro v diff
    rw [csumReplace_eq _ _ (by rwa [Buffer.length_store16]), Buffer.load16_store16 _ _ _ inside,
      Buffer.store16_store16]
  have last : ∀ v diff, csumReplace helpers ((storeTuple frame h m).store16 (csumOffset h) v)
      ipCsumOffset diff = ((storeTuple frame h m).store16 (csumOffset h) v).store16 ipCsumOffset
        (helpers.replaceByDiff (frame.load16 ipCsumOffset) diff) := by
    intro v diff
    rw [csumReplace_eq _ _ (by
      rw [Buffer.length_store16]
      omega), Buffer.load16_store16_of_disjoint _ _ (by omega), same]
  unfold Natting.modify mendedBy
  rw [read.proto, read.protocol]
  dsimp only
  split_ifs
  · rw [csumReplace_eq _ _ inside, again, last]
    rfl
  · rw [csumReplace_eq _ _ inside, last]
    rfl

/-- After a header without options, the new address, port and checksums are all that is stored. -/
theorem rewritten_modify (helpers : CsumHelpers) (read : ReadAs frame key h)
    (plain : ihl frame = 5) (m : Match) : Rewritten frame h m (Natting.modify helpers frame key m) := by
  have offset : csumOffset h = checkOff frame h := by
    unfold checkOff l4Off
    rw [plain]
    rfl
  rw [modify_eq helpers read plain.ge, offset]
  exact rewritten_stores m ⟨plain.ge, read.fits⟩ _ _

end Stored

theorem parse_of_tupleOf {frame : Buffer} {key : StK} (tuple : tupleOf frame = some key) :
    ∃ p, parse frame = .ip p ∧ p.tuple = some key := by
  unfold tupleOf at tuple
  cases hp : parse frame with
  | short => rw [hp] at tuple; cases tuple
  | arp => rw [hp] at tuple; cases tuple
  | noIp => rw [hp] at tuple; cases tuple
  | ip p =>
    rw [hp] at tuple
    exact ⟨p, rfl, tuple⟩

theorem handleFrame_found (helpers : CsumHelpers) {type : Nattype} {s : Datapath} {frame : Buffer}
    {key : StK} {m : Match} (tuple : tupleOf frame = some key)
    (found : (s.lookups type key).1 = some m) :
    (handleFrame helpers type s frame).1 = some (Natting.modify helpers frame key m) := by
  obtain ⟨p, hp, htuple⟩ := parse_of_tupleOf tuple
  unfold handleFrame
  rw [hp]
  dsimp only
  rw [htuple]
  dsimp only
  rw [found]

theorem handleIp_of_tuple {s : Datapath} {type : Nattype} {p : Ip} {key : StK}
    (tuple : p.tuple = some key) : s.handleIp type p =
      match s.lookups type key with
      | (none, s) => (some p, s)
      | (some m, s) => (some (s.applyNat p key m).1, (s.applyNat p key m).2) := by
  unfold Datapath.handleIp Datapath.lookups
  rw [tuple]
  cases type with
  | egress =>
    dsimp only
    cases s.matchEgress key with
    | mk m s => cases m <;> rfl
  | ingress =>
    dsimp only
    cases s.matchIngress key <;> rfl

/-- On frames without options the program on frames is the one on packets. -/
theorem handleFrame_parse (helpers : CsumHelpers) (type : Nattype) (s : Datapath) (frame : Buffer)
    (plain : ihl frame = 5) :
    ((handleFrame helpers type s frame).1.map parse, (handleFrame helpers type s frame).2) =
      handleRx type s (parse frame) := by
  unfold handleFrame handleRx
  cases hp : parse frame with
  | short => rfl
  | arp => simp [hp]
  | noIp => rfl
  | ip p =>
    dsimp only
    cases tuple : p.tuple with
    | none =>
      unfold Datapath.handleIp
      rw [tuple]
      rfl
    | some key =>
      obtain ⟨h, read⟩ := readAs_of_tuple hp tuple
      have rewritten := fun m => (rewritten_modify helpers read plain m).parse
        ⟨plain.ge, read.fits⟩ read.protocol read.isIp hp
      rw [handleIp_of_tuple tuple]
      dsimp only
      rcases s.lookups type key with ⟨m, s'⟩
      cases m with
      | none => simp only [Option.map_some, hp]
      | some m =>
        simp only [Option.map_some, rewritten m]
        unfold Datapath.applyNat
        split_ifs <;> rfl

def queryFrame : Buffer :=
  [0x02, 0x00, 0x00, 0x00, 0x00, 0x01, 0x02, 0x00, 0x00, 0x00, 0x00, 0x02, 0x08, 0x00,
    0x45, 0x00, 0x00, 0x1C, 0x00, 0x00, 0x00, 0x00, 0x40, 0x11, 0x65, 0xCE,
    0x0A, 0x00, 0x00, 0x02, 0x0A, 0x00, 0x01, 0x02,
    0x13, 0x88, 0x00, 0x35, 0x00, 0x08, 0x00, 0x00]

def anyInside : Datapath where
  egressSessionTable := fun _ => some ⟨0x0100A8C0, 0x0004, .snat⟩
  ingressSessionTable := fun _ => none
  smRules := fun _ => none
  dpRules := fun _ => none
  firstFreePort := 1025

theorem handleFrame_parse_query :
    ((handleFrame pcnHelpers .egress anyInside queryFrame).1.map parse,
        (handleFrame pcnHelpers .egress anyInside queryFrame).2) =
      handleRx .egress anyInside (parse queryFrame) :=
  handleFrame_parse pcnHelpers .egress anyInside queryFrame (by decide)

end Polycube.Natting
