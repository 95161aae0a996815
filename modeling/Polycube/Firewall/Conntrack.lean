import Polycube.Lib.Table
import Polycube.Firewall.Packet

/-!
# Connection tracking

`label` is `ConntrackLabel`: it labels the packet from the entry of its session and leaves the
table alone.  `tableUpdate` is `ConntrackTableUpdate`: it runs after the verdict and moves the
entry.  Both find the session by the same normalised key (`normalize`) and tell the direction of
the packet from the two flags of the entry.  Time is an input; the entries' deadlines are written
but neither program reads them.
-/

namespace Polycube.Firewall

open Function Lib

/-- The key of a session, `ct_k`; also the addresses and ports of a packet, in its own order. -/
structure CtKey where
  srcIp : BitVec 32
  dstIp : BitVec 32
  l4proto : BitVec 8
  srcPort : BitVec 16
  dstPort : BitVec 16
  deriving DecidableEq

/-- The entry of a session, `ct_v`. -/
structure CtValue where
  ttl : BitVec 64
  state : ConnStatus
  ipRev : Bool
  portRev : Bool
  sequence : BitVec 32
  deriving DecidableEq

/-- The table `connections`. -/
abbrev Connections := Table CtKey CtValue

def PacketHeaders.tuple (pkt : PacketHeaders) : CtKey :=
  ⟨pkt.srcIp, pkt.dstIp, pkt.l4proto, pkt.srcPort, pkt.dstPort⟩

/-- `pkt->connStatus = st`. -/
def PacketHeaders.setConnStatus (pkt : PacketHeaders) (st : ConnStatus) : PacketHeaders :=
  { pkt with connStatus := st }

section

variable (pkt : PacketHeaders) (st : ConnStatus)

@[simp] theorem tuple_setConnStatus : (pkt.setConnStatus st).tuple = pkt.tuple := rfl
@[simp] theorem l4proto_setConnStatus : (pkt.setConnStatus st).l4proto = pkt.l4proto := rfl
@[simp] theorem flags_setConnStatus : (pkt.setConnStatus st).flags = pkt.flags := rfl
@[simp] theorem seqN_setConnStatus : (pkt.setConnStatus st).seqN = pkt.seqN := rfl
@[simp] theorem ackN_setConnStatus : (pkt.setConnStatus st).ackN = pkt.ackN := rfl
@[simp] theorem connStatus_setConnStatus : (pkt.setConnStatus st).connStatus = st := rfl

end

structure Session where
  key : CtKey
  ipRev : Bool
  portRev : Bool
  deriving DecidableEq

/-- The normalisation both programs begin with: the addresses and the ports are put in order,
each pair by itself. -/
def normalize (t : CtKey) : Session :=
  let ips := if t.srcIp ≤ t.dstIp then (t.srcIp, t.dstIp, false) else (t.dstIp, t.srcIp, true)
  let ports :=
    if t.srcPort < t.dstPort then (t.srcPort, t.dstPort, false)
    else if t.srcPort > t.dstPort then (t.dstPort, t.srcPort, true)
    else (t.srcPort, t.dstPort, ips.2.2)
  ⟨⟨ips.1, ips.2.1, t.l4proto, ports.1, ports.2.1⟩, ips.2.2, ports.2.2⟩

/-- How a packet stands to the entry found under its key. -/
inductive Direction
  | forward | reverse | miss
  deriving DecidableEq

def Session.direction (s : Session) (v : CtValue) : Direction :=
  if v.ipRev = s.ipRev ∧ v.portRev = s.portRev then .forward
  else if v.ipRev ≠ s.ipRev ∧ v.portRev ≠ s.portRev then .reverse
  else .miss

/-- The flag `m` is set. -/
def hasFlag (flags m : BitVec 8) : Bool := flags &&& m ≠ 0#8

/-- `SYN` is the only flag. -/
def onlySyn (flags : BitVec 8) : Bool :=
  hasFlag flags tcphdrSyn && (flags ||| tcphdrSyn) == tcphdrSyn

/-- `ACK` is the only flag. -/
def onlyAck (flags : BitVec 8) : Bool :=
  hasFlag flags tcphdrAck && (flags ||| tcphdrAck) == tcphdrAck

/-- `SYN` and `ACK` are the only flags. -/
def onlySynAck (flags : BitVec 8) : Bool :=
  hasFlag flags tcphdrAck && hasFlag flags tcphdrSyn &&
    (flags ||| (tcphdrSyn ||| tcphdrAck)) == (tcphdrSyn ||| tcphdrAck)

/-! ### ConntrackLabel -/

/-- The states in which every packet of the session is labelled `ESTABLISHED`. -/
def openState (st : ConnStatus) : Bool :=
  st == .established || st == .finWait1 || st == .finWait2 || st == .lastAck

/-- `TCP_MISS`: a new entry has to be a SYN. -/
def labelTcpMiss (pkt : PacketHeaders) : ConnStatus :=
  if onlySyn pkt.flags then .new else .invalid

/-- `TCP_FORWARD`. -/
def labelTcpForward (v : CtValue) (pkt : PacketHeaders) : ConnStatus :=
  if hasFlag pkt.flags tcphdrRst then .established
  else if v.state = .synSent then
    if onlySyn pkt.flags then .new else .invalid
  else if v.state = .synRecv then
    if onlyAck pkt.flags ∧ pkt.ackN = v.sequence then .established else .invalid
  else if openState v.state then .established
  else if v.state = .timeWait ∧ onlySyn pkt.flags then .new
  else .invalid

/-- `TCP_REVERSE`. -/
def labelTcpReverse (v : CtValue) (pkt : PacketHeaders) : ConnStatus :=
  if hasFlag pkt.flags tcphdrRst then .established
  else if v.state = .synSent then
    if onlySynAck pkt.flags ∧ pkt.ackN = v.sequence then .established else .invalid
  else if v.state = .synRecv then
    if onlySynAck pkt.flags ∧ pkt.ackN = v.sequence then .established else .invalid
  else if openState v.state then .established
  else if v.state = .timeWait ∧ onlySyn pkt.flags then .new
  else .invalid

def labelTcp (s : Session) (entry : Option CtValue) (pkt : PacketHeaders) : ConnStatus :=
  match entry with
  | none => labelTcpMiss pkt
  | some v =>
    match s.direction v with
    | .forward => labelTcpForward v pkt
    | .reverse => labelTcpReverse v pkt
    | .miss => labelTcpMiss pkt

def labelUdp (s : Session) (entry : Option CtValue) : ConnStatus :=
  match entry with
  | none => .new
  | some v =>
    match s.direction v with
    | .forward => if v.state = .new then .new else .established
    | .reverse => .established
    | .miss => .new

/-! ICMP types. -/

def icmpEchoReply : BitVec 8 := 0#8
def icmpEcho : BitVec 8 := 8#8

def icmpUnsupported : List (BitVec 8) := [13#8, 14#8, 15#8, 16#8, 17#8, 18#8]

def icmpType (frame : Buffer) : BitVec 8 := frame.byte (ethLen + ipLen)

def quotedOff : Nat := ethLen + ipLen + icmpLen

def quotedTuple (frame : Buffer) : CtKey where
  srcIp := frame.load32 (quotedOff + 12)
  dstIp := frame.load32 (quotedOff + 16)
  l4proto := frame.byte (quotedOff + 9)
  srcPort := frame.load16 (quotedOff + ipLen)
  dstPort := frame.load16 (quotedOff + ipLen + 2)

/-- The key of the quoted packet.  Exchanging its ports goes through the frame: the quoted
destination port is overwritten with the source port. -/
def quotedKey (frame : Buffer) : CtKey × Buffer :=
  let q := quotedTuple frame
  let ips := if q.srcIp ≤ q.dstIp then (q.srcIp, q.dstIp) else (q.dstIp, q.srcIp)
  if q.srcPort ≤ q.dstPort then (⟨ips.1, ips.2, q.l4proto, q.srcPort, q.dstPort⟩, frame)
  else
    (⟨ips.1, ips.2, q.l4proto, q.dstPort, q.srcPort⟩,
      frame.store16 (quotedOff + ipLen + 2) q.srcPort)

/-- `ICMP_MISS`: an error is related to the session it quotes. -/
def labelIcmpMiss (ct : Connections) (frame : Buffer) : Option (ConnStatus × Buffer) :=
  if icmpType frame ∈ icmpUnsupported then some (.invalid, frame)
  else if frame.length < quotedOff + ipLen then none
  else if frame.length < quotedOff + ipLen + 8 then none
  else
    let (key, frame) := quotedKey frame
    some (if (ct key).isSome then .related else .invalid, frame)

def labelIcmp (ct : Connections) (s : Session) (frame : Buffer) : Option (ConnStatus × Buffer) :=
  if frame.length < ethLen + ipLen + icmpLen then none
  else if icmpType frame = icmpEcho then some (.new, frame)
  else if icmpType frame = icmpEchoReply then
    match ct s.key with
    | none => some (.invalid, frame)
    | some v =>
      if v.ipRev ≠ s.ipRev ∧ v.portRev ≠ s.portRev then some (.established, frame)
      else labelIcmpMiss ct frame
  else labelIcmpMiss ct frame

/-- `ConntrackLabel` up to its tail call: the label of the packet and the frame it leaves, or
`none` when the packet is dropped. -/
def label (ct : Connections) (pkt : PacketHeaders) (frame : Buffer) :
    Option (ConnStatus × Buffer) :=
  let s := normalize pkt.tuple
  if pkt.l4proto = ipprotoTcp then some (labelTcp s (ct s.key) pkt, frame)
  else if pkt.l4proto = ipprotoUdp then some (labelUdp s (ct s.key), frame)
  else if pkt.l4proto = ipprotoIcmp then labelIcmp ct s frame
  else some (.invalid, frame)

/-! ### ConntrackTableUpdate

Timeouts are in nanoseconds. -/

def udpEstablishedTimeout : BitVec 64 := 180000000000#64
def udpNewTimeout : BitVec 64 := 30000000000#64
def icmpTimeout : BitVec 64 := 30000000000#64
def tcpEstablished : BitVec 64 := 432000000000000#64
def tcpSynSent : BitVec 64 := 120000000000#64
def tcpSynRecv : BitVec 64 := 60000000000#64
def tcpLastAck : BitVec 64 := 30000000000#64
def tcpFinWait : BitVec 64 := 120000000000#64

/-- One, as a big-endian word a little-endian host has read. -/
def hexBeOne : BitVec 32 := 0x1000000#32

inductive TcpStep
  /-- write the entry -/
  | store (v : CtValue)
  /-- leave the entry -/
  | keep
  /-- leave the entry and mark the packet `INVALID` -/
  | reject
  /-- go on at `TCP_MISS` -/
  | miss
  deriving DecidableEq

/-- The state `FIN_WAIT_2`: one side has closed. -/
def updateFinWait2 (v : CtValue) (pkt : PacketHeaders) (now : BitVec 64) : TcpStep :=
  if hasFlag pkt.flags tcphdrFin then
    .store { v with state := .lastAck, ttl := now + tcpLastAck, sequence := pkt.ackN }
  else .store { v with ttl := now + tcpFinWait }

/-- The states from `ESTABLISHED` on, where the two directions do the same. -/
def updateTcpOpen (v : CtValue) (pkt : PacketHeaders) (now : BitVec 64) : TcpStep :=
  match v.state with
  | .established =>
    if hasFlag pkt.flags tcphdrFin then
      .store { v with state := .finWait1, ttl := now + tcpFinWait, sequence := pkt.ackN }
    else .store { v with ttl := now + tcpEstablished }
  | .finWait1 =>
    -- the packet that acknowledges the first FIN may carry the second one
    if hasFlag pkt.flags tcphdrAck ∧ pkt.seqN = v.sequence then
      updateFinWait2 { v with state := .finWait2, ttl := now + tcpFinWait } pkt now
    else .reject
  | .finWait2 => updateFinWait2 v pkt now
  | .lastAck =>
    if hasFlag pkt.flags tcphdrAck ∧ pkt.seqN = v.sequence then
      .store { v with state := .timeWait, ttl := now + tcpLastAck }
    else .store { v with ttl := now + tcpLastAck }
  | .timeWait => if pkt.connStatus = .new then .miss else .keep
  | _ => .keep

/-- `TCP_FORWARD`. -/
def updateTcpForward (v : CtValue) (pkt : PacketHeaders) (now : BitVec 64) : TcpStep :=
  match v.state with
  | .synSent =>
    if onlySyn pkt.flags then .store { v with ttl := now + tcpSynSent } else .reject
  | .synRecv =>
    if onlyAck pkt.flags ∧ pkt.ackN = v.sequence then
      .store { v with state := .established, ttl := now + tcpEstablished }
    else .reject
  | _ => updateTcpOpen v pkt now

/-- `TCP_REVERSE`. -/
def updateTcpReverse (v : CtValue) (pkt : PacketHeaders) (now : BitVec 64) : TcpStep :=
  match v.state with
  | .synSent =>
    if onlySynAck pkt.flags ∧ pkt.ackN = v.sequence then
      .store { v with state := .synRecv, ttl := now + tcpSynRecv, sequence := pkt.seqN + hexBeOne }
    else .reject
  | .synRecv =>
    if onlySynAck pkt.flags ∧ pkt.ackN = v.sequence then
      .store { v with ttl := now + tcpSynRecv }
    else .reject
  | _ => updateTcpOpen v pkt now

def updateTcpStep (s : Session) (entry : Option CtValue) (pkt : PacketHeaders)
    (now : BitVec 64) : TcpStep :=
  match entry with
  | none => .miss
  | some v =>
    match s.direction v with
    | .forward => updateTcpForward v pkt now
    | .reverse => updateTcpReverse v pkt now
    | .miss => .miss

/-- The entry `TCP_MISS` makes for a SYN. -/
def synEntry (s : Session) (pkt : PacketHeaders) (now : BitVec 64) : CtValue :=
  ⟨now + tcpSynSent, .synSent, s.ipRev, s.portRev, pkt.seqN + hexBeOne⟩

def updateTcp (pkt : PacketHeaders) (now : BitVec 64) (ct : Connections) :
    PacketHeaders × Connections :=
  let s := normalize pkt.tuple
  if hasFlag pkt.flags tcphdrRst then (pkt, ct)
  else
    match updateTcpStep s (ct s.key) pkt now with
    | .store v => (pkt, update ct s.key (some v))
    | .keep => (pkt, ct)
    | .reject => (pkt.setConnStatus .invalid, ct)
    | .miss =>
      if onlySyn pkt.flags then (pkt, update ct s.key (some (synEntry s pkt now)))
      else (pkt, ct)

/-- `connections.insert`: an entry that is there stays. -/
def insertNew (k : CtKey) (v : CtValue) (ct : Connections) : Connections :=
  match ct k with
  | none => update ct k (some v)
  | some _ => ct

def newEntry (s : Session) (ttl : BitVec 64) : CtValue := ⟨ttl, .new, s.ipRev, s.portRev, 0#32⟩

/-- What a UDP packet makes of the entry it found; `none` is `UDP_MISS`. -/
def udpRefresh (s : Session) (v : CtValue) (now : BitVec 64) : Option CtValue :=
  match s.direction v with
  | .forward =>
    if v.state = .new then some { v with ttl := now + udpNewTimeout }
    else some { v with ttl := now + udpEstablishedTimeout }
  | .reverse =>
    if v.state = .new then some { v with ttl := now + udpNewTimeout, state := .established }
    else some { v with ttl := now + udpEstablishedTimeout }
  | .miss => none

def updateUdp (pkt : PacketHeaders) (now : BitVec 64) (ct : Connections) : Connections :=
  let s := normalize pkt.tuple
  match (ct s.key).bind (udpRefresh s · now) with
  | some v => update ct s.key (some v)
  | none => insertNew s.key (newEntry s (now + udpNewTimeout)) ct

def updateIcmp (pkt : PacketHeaders) (frame : Buffer) (now : BitVec 64) (ct : Connections) :
    Ret × Connections :=
  let s := normalize pkt.tuple
  if frame.length < ethLen + ipLen + icmpLen then (.rxDrop, ct)
  else if icmpType frame = icmpEcho then
    (.rxOk, insertNew s.key (newEntry s (now + icmpTimeout)) ct)
  else if icmpType frame = icmpEchoReply then (.rxOk, update ct s.key none)
  else (.rxOk, ct)

/-- `ConntrackTableUpdate`, as compiled when tracking is on. -/
def tableUpdate (pkt : PacketHeaders) (frame : Buffer) (now : BitVec 64) (ct : Connections) :
    (Ret × PacketHeaders) × Connections :=
  if pkt.connStatus = .invalid then ((.rxOk, pkt), ct)
  else if pkt.l4proto = ipprotoTcp then
    let (pkt, ct) := updateTcp pkt now ct
    ((.rxOk, pkt), ct)
  else if pkt.l4proto = ipprotoUdp then ((.rxOk, pkt), updateUdp pkt now ct)
  else if pkt.l4proto = ipprotoIcmp then
    let (ret, ct) := updateIcmp pkt frame now ct
    ((ret, pkt), ct)
  else ((.rxOk, pkt), ct)

end Polycube.Firewall
