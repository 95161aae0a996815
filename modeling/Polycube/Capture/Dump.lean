import Polycube.Capture.Pcap
import Polycube.Lib.Run

/-!
# The capture files of the service

A packet the control plane gets is put in a queue in network mode, and else appended to a capture
file.  The file is named by the path the user set, or by the time of the first packet since the
cube was attached; its header is written when `writeHeader` is set.

`Session` runs the service beside what its files are for: the log of a file are the packets written
to it since it was begun.  A file is `Recorded` if the standard reader finds its log.  The service
gives the length of a packet where the reader expects the captured length, and opens a file without
a header after the cube is attached again; `recorded_of_run` is what holds apart from that.
-/

namespace Polycube.Capture.Dump

open Function

open Lib

/-- `struct pcap_pt`, in the order of its fields. -/
structure PcapPt where
  tsSec : BitVec 32
  tsUsec : BitVec 32
  len : BitVec 32
  caplen : BitVec 32

def PcapPt.bytes (p : PcapPt) : Buffer :=
  leBytes 4 p.tsSec.toNat ++ (leBytes 4 p.tsUsec.toNat ++ (leBytes 4 p.len.toNat ++
    leBytes 4 p.caplen.toNat))

structure Packet where
  tsSec : BitVec 32
  tsUsec : BitVec 32
  packetLen : BitVec 32
  captureLen : BitVec 32
  rawPacketData : Buffer

/-- What `localtime` gives. -/
structure Tm where
  mday : ℤ
  mon : ℤ
  year : ℤ
  hour : ℤ
  min : ℤ
  sec : ℤ

def Tm.text (t : Tm) : String :=
  toString t.mday ++ "-" ++ toString t.mon ++ "-" ++ toString (t.year + 1900) ++ "-" ++
    toString t.hour ++ ":" ++ toString t.min ++ ":" ++ toString t.sec

/-- What the system answers while a packet is taken: the clock, the environment, a random number,
and whether the file can be opened. -/
structure Moment where
  tm : Tm
  getenv : String → Option String
  rand : ℕ
  opens : Bool

def Moment.folder (m : Moment) : String :=
  (m.getenv "TMPDIR" <|> m.getenv "TMP" <|> m.getenv "TEMP" <|> m.getenv "TEMPDIR").getD "/tmp"

structure Metadata where
  low : BitVec 32
  high : BitVec 32
  epoch : BitVec 32

/-- `temp_offset`, in nanoseconds. -/
def Metadata.offset (md : Metadata) : ℤ := (md.high ++ md.low : BitVec 64).toInt

structure State where
  /-- The time of the boot. -/
  timeP : ℤ
  snaplen : BitVec 32
  networkMode : Bool
  dumpFlag : Bool
  writeHeader : Bool
  dt : String
  tempFolder : String
  randomNumber : String
  packetsCaptured : List Packet
  /-- The files the service can open, by path. -/
  files : String → Option Buffer

namespace State

def time (s : State) (md : Metadata) : ℤ :=
  if md.epoch = 0 then s.timeP + md.offset else md.offset

end State

/-- `to_timeval`: the seconds of a time, and the microseconds of the rest.  C++ rounds to zero. -/
def toTimeval (d : ℤ) : ℤ × ℤ :=
  (d.tdiv 1000000000, (d - d.tdiv 1000000000 * 1000000000).tdiv 1000)

/-- The packet `writeDump` and `addPacket` fill in. -/
def newPacket (snaplen : BitVec 32) (time : ℤ) (packet : Buffer) : Packet where
  tsSec := BitVec.ofInt 32 (toTimeval time).1
  tsUsec := BitVec.ofInt 32 (toTimeval time).2
  packetLen := BitVec.ofNat 32 packet.length
  captureLen :=
    if BitVec.ofNat 32 packet.length > snaplen then snaplen else BitVec.ofNat 32 packet.length
  rawPacketData := packet

def Packet.written (snaplen : BitVec 32) (p : Packet) : Buffer :=
  (PcapPt.mk p.tsSec p.tsUsec p.packetLen p.captureLen).bytes ++
    p.rawPacketData.take (if snaplen.toNat < p.rawPacketData.length then snaplen.toNat
      else p.rawPacketData.length)

def globalHeader (snaplen : BitVec 32) : FileHeader where
  magic := 0xa1b2c3d4
  versionMajor := 2
  versionMinor := 4
  thiszone := 0
  sigfigs := 0
  snaplen := snaplen
  linktype := 1

namespace State

/-- The first packet since the cube was attached names the file. -/
def stamp (m : Moment) (s : State) : State :=
  if s.dt = "" then
    if s.dumpFlag = false then
      { s with
        dt := m.tm.text
        tempFolder := m.folder ++ "/"
        randomNumber := toString (m.rand % 1000) }
    else { s with dt := m.tm.text }
  else s

def path (s : State) : String :=
  if s.dumpFlag then s.tempFolder ++ ".pcap"
  else s.tempFolder ++ "capture_" ++ s.dt ++ "_" ++ s.randomNumber ++ ".pcap"

/-- What the file holds when it has been opened: `trunc` or `app`. -/
def opened (s : State) : Buffer :=
  if s.dumpFlag && s.writeHeader then [] else (s.files s.path).getD []

def append (opens : Bool) (p : Packet) (s : State) : State :=
  { s with
    writeHeader := false
    files := if opens = true then
        update s.files s.path (some (s.opened ++
          ((if s.writeHeader then (globalHeader s.snaplen).bytes else []) ++ p.written s.snaplen)))
      else s.files }

def writeDump (m : Moment) (time : ℤ) (packet : Buffer) (s : State) : State :=
  (s.stamp m).append m.opens (newPacket s.snaplen time packet)

def addPacket (time : ℤ) (packet : Buffer) (s : State) : State :=
  { s with packetsCaptured := s.packetsCaptured ++ [newPacket s.snaplen time packet] }

/-- `packet_in`, the same in both directions.  `tins` says whether the packet can be parsed; the
parser throws where it cannot. -/
def packetIn (tins : Buffer → Bool) (m : Moment) (md : Metadata) (packet : Buffer) (s : State) :
    State :=
  if tins packet = true then
    if s.networkMode = true then s.addPacket (s.time md) packet
    else s.writeDump m (s.time md) packet
  else s

def setSnaplen (value : BitVec 32) (s : State) : State := { s with snaplen := value }

def setDump (value : String) (s : State) : State :=
  { s with dumpFlag := true, tempFolder := value, writeHeader := true }

def setNetworkmode (value : Bool) (s : State) : State := { s with networkMode := value }

def attach (s : State) : State := { s with dt := "" }

end State

inductive Op
  | packetIn (m : Moment) (md : Metadata) (packet : Buffer)
  | setSnaplen (value : BitVec 32)
  | setDump (value : String)
  | setNetworkmode (value : Bool)
  | attach

def create (timeP : ℤ) (snaplen : BitVec 32) (networkMode : Bool) (dump : Option String)
    (files : String → Option Buffer) : State where
  timeP := timeP
  snaplen := snaplen
  networkMode := networkMode
  dumpFlag := dump.isSome
  writeHeader := true
  dt := ""
  tempFolder := dump.getD ""
  randomNumber := ""
  packetsCaptured := []
  files := files

/-! ## What the files are for -/

def recordOf (snaplen : BitVec 32) (time : ℤ) (packet : Buffer) : Record where
  tsSec := BitVec.ofInt 32 (time / 1000000000)
  tsUsec := BitVec.ofInt 32 (time % 1000000000 / 1000)
  len := BitVec.ofNat 32 packet.length
  data := packet.take snaplen.toNat
  short := by
    have hs := snaplen.isLt
    rw [List.length_take]
    omega

/-- The service, the packets written to each file since it was begun, and whether the next packet
begins a file: the first one does, and the first one after a path is set. -/
structure Session where
  state : State
  log : String → List Record
  fresh : Bool

namespace Session

def record (r : Session) (path : String) (rec : Record) : String → List Record :=
  update r.log path ((if r.fresh then [] else r.log path) ++ [rec])

def packetIn (tins : Buffer → Bool) (m : Moment) (md : Metadata) (packet : Buffer) (r : Session) :
    Session :=
  if tins packet = true ∧ r.state.networkMode = false ∧ m.opens = true then
    { state := r.state.packetIn tins m md packet
      log := r.record (r.state.stamp m).path (recordOf r.state.snaplen (r.state.time md) packet)
      fresh := false }
  else { r with state := r.state.packetIn tins m md packet }

def step (tins : Buffer → Bool) (r : Session) : Op → Session
  | .packetIn m md packet => r.packetIn tins m md packet
  | .setSnaplen value => { r with state := r.state.setSnaplen value }
  | .setDump value => { r with state := r.state.setDump value, fresh := true }
  | .setNetworkmode value => { r with state := r.state.setNetworkmode value }
  | .attach => { r with state := r.state.attach }

def start (s : State) : Session where
  state := s
  log := fun _ => []
  fresh := true

def Recorded (r : Session) : Prop :=
  ∀ path, r.log path ≠ [] → ∃ bytes snaplen,
    r.state.files path = some bytes ∧ decode bytes = some (globalHeader snaplen, r.log path)

structure Fitting (r : Session) (m : Moment) (md : Metadata) (packet : Buffer) : Prop where
  /-- The packet is not truncated. -/
  whole : packet.length ≤ r.state.snaplen.toNat
  epoch : 0 ≤ r.state.time md
  /-- Without a path of the user's, the file of a header is new and other files are begun. -/
  begun : r.state.dumpFlag = false → if r.state.writeHeader = true
    then r.state.files (r.state.stamp m).path = none else r.log (r.state.stamp m).path ≠ []

instance (r : Session) (m : Moment) (md : Metadata) (packet : Buffer) :
    Decidable (r.Fitting m md packet) :=
  decidable_of_iff (packet.length ≤ r.state.snaplen.toNat ∧ 0 ≤ r.state.time md ∧
      (r.state.dumpFlag = false → if r.state.writeHeader = true
        then r.state.files (r.state.stamp m).path = none else r.log (r.state.stamp m).path ≠ []))
    ⟨fun h => ⟨h.1, h.2.1, h.2.2⟩, fun h => ⟨h.whole, h.epoch, h.begun⟩⟩

def Fits (tins : Buffer → Bool) (r : Session) : Op → Prop
  | .packetIn m md packet => tins packet = true → r.state.networkMode = false →
    if m.opens = true then r.Fitting m md packet else r.state.writeHeader = false
  | .setSnaplen _ | .setDump _ | .setNetworkmode _ | .attach => True

instance (tins : Buffer → Bool) (r : Session) : ∀ op, Decidable (r.Fits tins op)
  | .packetIn m md packet => inferInstanceAs (Decidable (tins packet = true →
      r.state.networkMode = false →
      if m.opens = true then r.Fitting m md packet else r.state.writeHeader = false))
  | .setSnaplen _ | .setDump _ | .setNetworkmode _ | .attach => inferInstanceAs (Decidable True)

end Session

theorem toTimeval_eq {d : ℤ} (h : 0 ≤ d) :
    toTimeval d = (d / 1000000000, d % 1000000000 / 1000) := by
  have rest : d - d / 1000000000 * 1000000000 = d % 1000000000 := by omega
  unfold toTimeval
  rw [Int.tdiv_eq_ediv_of_nonneg h, rest, Int.tdiv_eq_ediv_of_nonneg (by omega)]

theorem written_newPacket {snaplen : BitVec 32} {time : ℤ} {packet : Buffer}
    (whole : packet.length ≤ snaplen.toNat) (epoch : 0 ≤ time) :
    (newPacket snaplen time packet).written snaplen = (recordOf snaplen time packet).bytes := by
  have hs := snaplen.isLt
  have hlen : (BitVec.ofNat 32 packet.length).toNat = packet.length := by
    rw [BitVec.toNat_ofNat]
    omega
  have caplen : ¬ BitVec.ofNat 32 packet.length > snaplen := by
    rw [gt_iff_lt, BitVec.lt_def, hlen]
    omega
  unfold newPacket Packet.written PcapPt.bytes recordOf Record.bytes
  dsimp only
  rw [if_neg caplen, if_neg (by omega), toTimeval_eq epoch, List.take_of_length_le whole, hlen,
    List.take_of_length_le (Nat.le_refl _)]
  simp only [List.append_assoc]

namespace State

variable (m : Moment) (s : State)

@[simp] theorem files_stamp : (s.stamp m).files = s.files := by
  unfold stamp
  split_ifs <;> rfl

@[simp] theorem snaplen_stamp : (s.stamp m).snaplen = s.snaplen := by
  unfold stamp
  split_ifs <;> rfl

@[simp] theorem dumpFlag_stamp : (s.stamp m).dumpFlag = s.dumpFlag := by
  unfold stamp
  split_ifs <;> rfl

@[simp] theorem writeHeader_stamp : (s.stamp m).writeHeader = s.writeHeader := by
  unfold stamp
  split_ifs <;> rfl

theorem path_stamp (h : s.dumpFlag = true) : (s.stamp m).path = s.path := by
  unfold stamp
  split_ifs with hdt hdump
  · rw [h] at hdump
    cases hdump
  · unfold path
    rw [h]
    rfl
  · rfl

end State

/-! ## Runs -/

namespace Session

variable {tins : Buffer → Bool} {r : Session} {m : Moment} {md : Metadata} {packet : Buffer}

structure Inv (r : Session) : Prop where
  /-- A header is due exactly when a file is to be begun. -/
  due : r.fresh = r.state.writeHeader
  files : ∀ path, r.log path ≠ [] → ∃ snaplen, r.state.files path =
    some ((globalHeader snaplen).bytes ++ (r.log path).flatMap Record.bytes)
  /-- The file of a path of the user's has been begun when its header is written. -/
  begun : r.state.writeHeader = false → r.state.dumpFlag = true → r.log r.state.path ≠ []

theorem Inv.recorded (inv : r.Inv) : r.Recorded := by
  intro path hlog
  obtain ⟨snaplen, hfile⟩ := inv.files path hlog
  exact ⟨_, snaplen, hfile, decode_bytes _ _⟩

theorem inv_start (timeP : ℤ) (snaplen : BitVec 32) (networkMode : Bool) (dump : Option String)
    (files : String → Option Buffer) :
    (start (create timeP snaplen networkMode dump files)).Inv where
  due := rfl
  files _ h := absurd rfl h
  begun h := by cases h

/-- The file a fitting packet is appended to holds its log, and a header is written to a file that
is begun. -/
theorem Inv.opened (inv : r.Inv) (fitting : r.Fitting m md packet) : ∃ snaplen,
    (r.state.stamp m).opened ++
        (if r.state.writeHeader then (globalHeader r.state.snaplen).bytes else []) =
      (globalHeader snaplen).bytes ++
        (if r.fresh then [] else r.log (r.state.stamp m).path).flatMap Record.bytes := by
  unfold State.opened
  rw [State.files_stamp, State.dumpFlag_stamp, State.writeHeader_stamp, inv.due]
  cases hw : r.state.writeHeader with
  | true =>
    have empty : (if r.state.dumpFlag && true then []
        else (r.state.files (r.state.stamp m).path).getD []) = [] := by
      cases hd : r.state.dumpFlag with
      | true => rfl
      | false =>
        have new := fitting.begun hd
        rw [if_pos hw] at new
        rw [new]
        rfl
    refine ⟨r.state.snaplen, ?_⟩
    rw [empty, if_pos rfl, if_pos rfl, List.flatMap_nil, List.append_nil, List.nil_append]
  | false =>
    have begun : r.log (r.state.stamp m).path ≠ [] := by
      cases hd : r.state.dumpFlag with
      | true =>
        rw [State.path_stamp m r.state hd]
        exact inv.begun hw hd
      | false =>
        have begun := fitting.begun hd
        rw [hw] at begun
        exact begun
    obtain ⟨snaplen, hfile⟩ := inv.files _ begun
    refine ⟨snaplen, ?_⟩
    rw [Bool.and_false, hfile, if_neg Bool.false_ne_true, if_neg Bool.false_ne_true,
      if_neg Bool.false_ne_true, Option.getD_some, List.append_nil]

theorem Inv.writeDump (inv : r.Inv) (hopens : m.opens = true) (fitting : r.Fitting m md packet) :
    Inv ⟨r.state.writeDump m (r.state.time md) packet,
      r.record (r.state.stamp m).path (recordOf r.state.snaplen (r.state.time md) packet),
      false⟩ where
  due := rfl
  files path hlog := by
    unfold Session.record at hlog ⊢
    unfold State.writeDump State.append
    dsimp only at hlog ⊢
    rw [if_pos hopens]
    by_cases hpath : path = (r.state.stamp m).path
    · subst hpath
      obtain ⟨snaplen, hopened⟩ := inv.opened fitting
      refine ⟨snaplen, ?_⟩
      rw [update_self, update_self, State.snaplen_stamp,
        State.writeHeader_stamp, written_newPacket fitting.whole fitting.epoch,
        ← List.append_assoc, hopened, List.flatMap_append, List.flatMap_singleton,
        List.append_assoc]
    · rw [update_of_ne hpath] at hlog
      rw [update_of_ne hpath, update_of_ne hpath, State.files_stamp]
      exact inv.files path hlog
  begun _ _ := by
    have path : ((r.state.stamp m).append m.opens
        (newPacket r.state.snaplen (r.state.time md) packet)).path = (r.state.stamp m).path := rfl
    unfold Session.record State.writeDump
    dsimp only
    rw [path, update_self]
    exact List.append_ne_nil_of_right_ne_nil _ (List.cons_ne_nil _ _)

theorem Inv.unopened (inv : r.Inv) (hopens : m.opens = false) (hw : r.state.writeHeader = false) :
    Inv { r with state := r.state.writeDump m (r.state.time md) packet } where
  due := inv.due.trans hw
  files path hlog := by
    unfold State.writeDump State.append
    rw [hopens, if_neg Bool.false_ne_true, State.files_stamp]
    exact inv.files path hlog
  begun _ hd := by
    have hd : r.state.dumpFlag = true := (State.dumpFlag_stamp m r.state).symm.trans hd
    have path : ((r.state.stamp m).append m.opens
        (newPacket r.state.snaplen (r.state.time md) packet)).path = (r.state.stamp m).path := rfl
    unfold State.writeDump
    rw [path, State.path_stamp m r.state hd]
    exact inv.begun hw hd

theorem Inv.packetIn (inv : r.Inv) (fits : r.Fits tins (.packetIn m md packet)) :
    (r.packetIn tins m md packet).Inv := by
  unfold Session.packetIn State.packetIn
  by_cases htins : tins packet = true
  · cases hmode : r.state.networkMode with
    | true =>
      rw [if_neg fun h => Bool.noConfusion h.2.1, if_pos htins, if_pos rfl]
      exact ⟨inv.due, inv.files, inv.begun⟩
    | false =>
      have fits := fits htins hmode
      rw [if_pos htins, if_neg Bool.false_ne_true]
      cases hopens : m.opens with
      | true =>
        rw [if_pos hopens] at fits
        rw [if_pos ⟨htins, rfl, rfl⟩]
        exact inv.writeDump hopens fits
      | false =>
        rw [hopens, if_neg Bool.false_ne_true] at fits
        rw [if_neg fun h => Bool.noConfusion h.2.2]
        exact inv.unopened hopens fits
  · rw [if_neg fun h => htins h.1, if_neg htins]
    exact inv

theorem Inv.step (inv : r.Inv) (op : Op) (fits : r.Fits tins op) : (r.step tins op).Inv := by
  cases op with
  | packetIn m md packet => exact inv.packetIn fits
  | setSnaplen value => exact ⟨inv.due, inv.files, inv.begun⟩
  | setDump value => exact ⟨rfl, inv.files, fun h => by cases h⟩
  | setNetworkmode value => exact ⟨inv.due, inv.files, inv.begun⟩
  | attach =>
    refine ⟨inv.due, inv.files, fun hw hd => ?_⟩
    have path : r.state.attach.path = r.state.path := by
      have hd : r.state.dumpFlag = true := hd
      unfold State.path State.attach
      rw [hd]
      rfl
    show r.log r.state.attach.path ≠ []
    rw [path]
    exact inv.begun hw hd

/-- In a run of a service just created whose packets are written so that they are read back, every
file is read back as the packets written to it since it was begun. -/
theorem recorded_of_run (tins : Buffer → Bool) (timeP : ℤ) (snaplen : BitVec 32)
    (networkMode : Bool) (dump : Option String) (files : String → Option Buffer) (ops : List Op)
    (meets : Meets (step tins) (Fits tins) (start (create timeP snaplen networkMode dump files))
      ops) :
    (run (step tins) (start (create timeP snaplen networkMode dump files)) ops).Recorded :=
  (run_induction (P := Inv) (fun _ op inv fits => inv.step op fits)
    (inv_start timeP snaplen networkMode dump files) meets).recorded

def newYear : Moment := ⟨⟨1, 0, 120, 0, 0, 0⟩, fun _ => none, 41, true⟩

/-- A frame of an experimental type with `n` bytes behind the header. -/
def rawFrame (n : ℕ) : Buffer := List.replicate 12 2 ++ [136, 181] ++ List.replicate n 1

def whole (packet : Buffer) : Bool := 14 ≤ packet.length

/-- A packet, a path of the user's, and a packet on either side of an attachment. -/
theorem recorded_newYear :
    (run (step whole) (start (create 5 262144 false none fun _ => none))
      [.packetIn newYear ⟨1, 0, 0⟩ (rawFrame 3), .setDump "d", .packetIn newYear ⟨2, 0, 1⟩ (rawFrame 1),
        .attach, .setSnaplen 14, .packetIn newYear ⟨3, 0, 1⟩ (rawFrame 0)]).Recorded :=
  recorded_of_run whole 5 262144 false none (fun _ => none) _ (by decide +kernel)

/-- Of a packet of 15 bytes 14 are captured, and the reader looks for 15. -/
theorem not_recorded_truncated :
    ¬ (run (step whole) (start (create 5 14 false (some "d") fun _ => none))
      [.packetIn newYear ⟨1, 0, 0⟩ (rawFrame 1)]).Recorded := by
  intro recorded
  obtain ⟨bytes, snaplen, hfile, hdecode⟩ := recorded "d.pcap" (by decide +kernel)
  have unread : ((run (step whole) (start (create 5 14 false (some "d") fun _ => none))
      [.packetIn newYear ⟨1, 0, 0⟩ (rawFrame 1)]).state.files "d.pcap").bind decode = none := by
    decide +kernel
  rw [hfile, Option.bind_some, hdecode] at unread
  cases unread

end Session

end Polycube.Capture.Dump
