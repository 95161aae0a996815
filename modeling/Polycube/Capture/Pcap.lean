import Polycube.Lib.LittleEndian

/-!
# Capture files

A capture file is a global header and records, as a little-endian host writes them.  `decode` is
the standard reader: it reads the header, and a record takes as many bytes as its captured length
says.  `decode_bytes` is the round trip.
-/

namespace Polycube.Capture

open Lib

/-- `struct pcap_file_header`. -/
structure FileHeader where
  magic : BitVec 32
  versionMajor : BitVec 16
  versionMinor : BitVec 16
  thiszone : BitVec 32
  sigfigs : BitVec 32
  snaplen : BitVec 32
  linktype : BitVec 32
deriving DecidableEq

structure Record where
  tsSec : BitVec 32
  tsUsec : BitVec 32
  len : BitVec 32
  data : Buffer
  short : data.length < 2 ^ 32
deriving DecidableEq

def FileHeader.bytes (h : FileHeader) : Buffer :=
  leBytes 4 h.magic.toNat ++ (leBytes 2 h.versionMajor.toNat ++ (leBytes 2 h.versionMinor.toNat ++
    (leBytes 4 h.thiszone.toNat ++ (leBytes 4 h.sigfigs.toNat ++ (leBytes 4 h.snaplen.toNat ++
      leBytes 4 h.linktype.toNat)))))

def Record.bytes (r : Record) : Buffer :=
  leBytes 4 r.tsSec.toNat ++ (leBytes 4 r.tsUsec.toNat ++ (leBytes 4 r.data.length ++
    (leBytes 4 r.len.toNat ++ r.data)))

/-- A number of `n` bytes at the front of a buffer, as a word. -/
def readWord (w n : ℕ) (bs : Buffer) : Option (BitVec w × Buffer) :=
  (readLe n bs).map fun r => (BitVec.ofNat w r.1, r.2)

def readHeader (bs : Buffer) : Option (FileHeader × Buffer) := do
  let (magic, bs) ← readWord 32 4 bs
  let (versionMajor, bs) ← readWord 16 2 bs
  let (versionMinor, bs) ← readWord 16 2 bs
  let (thiszone, bs) ← readWord 32 4 bs
  let (sigfigs, bs) ← readWord 32 4 bs
  let (snaplen, bs) ← readWord 32 4 bs
  let (linktype, bs) ← readWord 32 4 bs
  return (⟨magic, versionMajor, versionMinor, thiszone, sigfigs, snaplen, linktype⟩, bs)

def readData (tsSec tsUsec len : BitVec 32) (caplen : ℕ) (bs : Buffer) : Option (Record × Buffer) :=
  if h : caplen ≤ bs.length ∧ caplen < 2 ^ 32 then
    some (⟨tsSec, tsUsec, len, bs.take caplen, by rw [List.length_take_of_le h.1]; exact h.2⟩,
      bs.drop caplen)
  else none

def readRecord (bs : Buffer) : Option (Record × Buffer) := do
  let (tsSec, bs) ← readWord 32 4 bs
  let (tsUsec, bs) ← readWord 32 4 bs
  let (caplen, bs) ← readLe 4 bs
  let (len, bs) ← readWord 32 4 bs
  readData tsSec tsUsec len caplen bs

/-- The records of a file, at most `fuel` many; every record takes bytes. -/
def readRecords : ℕ → Buffer → Option (List Record)
  | _, [] => some []
  | 0, _ :: _ => none
  | fuel + 1, b :: bs => do
    let (r, rest) ← readRecord (b :: bs)
    let rs ← readRecords fuel rest
    return r :: rs

def decode (bs : Buffer) : Option (FileHeader × List Record) := do
  let (h, rest) ← readHeader bs
  let rs ← readRecords rest.length rest
  return (h, rs)

theorem readWord_append {w n : ℕ} (h : 2 ^ w = 256 ^ n) (v : BitVec w) (rest : Buffer) :
    readWord w n (leBytes n v.toNat ++ rest) = some (v, rest) := by
  have hv := v.isLt
  unfold readWord
  rw [readLe_append (by omega), Option.map_some, BitVec.ofNat_toNat, BitVec.setWidth_eq]

theorem readHeader_append (h : FileHeader) (rest : Buffer) :
    readHeader (h.bytes ++ rest) = some (h, rest) := by
  have word := fun v rest => readWord_append (w := 32) (n := 4) (by decide) v rest
  have half := fun v rest => readWord_append (w := 16) (n := 2) (by decide) v rest
  unfold readHeader FileHeader.bytes
  simp only [List.append_assoc, word, half, Option.bind_eq_bind, Option.bind_some, Option.pure_def]

theorem readData_append (r : Record) (rest : Buffer) :
    readData r.tsSec r.tsUsec r.len r.data.length (r.data ++ rest) = some (r, rest) := by
  have hlen : r.data.length ≤ (r.data ++ rest).length := by
    rw [List.length_append]
    omega
  unfold readData
  rw [dif_pos ⟨hlen, r.short⟩]
  simp only [List.take_left, List.drop_left]

theorem readRecord_append (r : Record) (rest : Buffer) :
    readRecord (r.bytes ++ rest) = some (r, rest) := by
  have word := fun v rest => readWord_append (w := 32) (n := 4) (by decide) v rest
  have caplen := fun rest => readLe_append (n := 4) r.short rest
  unfold readRecord Record.bytes
  simp only [List.append_assoc, word, caplen, Option.bind_eq_bind, Option.bind_some]
  exact readData_append r rest

theorem Record.length_bytes (r : Record) : r.bytes.length = 16 + r.data.length := by
  unfold Record.bytes
  simp only [List.length_append, length_leBytes]
  omega

theorem readRecords_bytes {fuel : ℕ} {rs : List Record} (h : rs.length ≤ fuel) :
    readRecords fuel (rs.flatMap Record.bytes) = some rs := by
  induction fuel generalizing rs with
  | zero =>
    obtain rfl := List.length_eq_zero_iff.1 (Nat.le_zero.1 h)
    rfl
  | succ fuel ih =>
    cases rs with
    | nil => rfl
    | cons r rs =>
      have hrest := ih (Nat.le_of_succ_le_succ h)
      have hrec := readRecord_append r (rs.flatMap Record.bytes)
      rw [List.flatMap_cons]
      cases hb : r.bytes ++ rs.flatMap Record.bytes with
      | nil =>
        have hlen := congrArg List.length hb
        rw [List.length_append, r.length_bytes, List.length_nil] at hlen
        omega
      | cons b bs =>
        rw [hb] at hrec
        unfold readRecords
        simp only [hrec, hrest, Option.bind_eq_bind, Option.bind_some, Option.pure_def]

theorem length_le_flatMap_bytes (rs : List Record) :
    rs.length ≤ (rs.flatMap Record.bytes).length := by
  induction rs with
  | nil => exact Nat.le_refl 0
  | cons r rs ih =>
    rw [List.flatMap_cons, List.length_append, r.length_bytes, List.length_cons]
    omega

theorem decode_bytes (h : FileHeader) (rs : List Record) :
    decode (h.bytes ++ rs.flatMap Record.bytes) = some (h, rs) := by
  unfold decode
  simp only [readHeader_append, readRecords_bytes (length_le_flatMap_bytes rs),
    Option.bind_eq_bind, Option.bind_some, Option.pure_def]

end Polycube.Capture
