import Polycube.Lib.ChecksumUpdate

/-!
# Checksums in XDP

XDP programs have no helpers of the kernel for checksums.  The framework gives them functions that
mend a checksum for a field, and one that writes the checksum of an IPv4 header, which folds the sum
of the header once.  A checksum is mended by what the field counts more or less, and of a message
that becomes all zeros (an ICMP message may) nothing but zeros is left, the checksum too.
-/

namespace Polycube.Polycubed.XdpChecksums

open Lib

/-- `pcn_csum16_add` -/
def csum16Add (csum addend : BitVec 16) : BitVec 16 :=
  let res := csum + addend
  res + if res < addend then 1#16 else 0#16

def replaced (size : BitVec 32) (sum : BitVec 16) (oldValue newValue : BitVec 32) :
    Option (BitVec 16) :=
  if size = 0 then some (pcnCsumReplaceByDiff sum newValue)
  else if size = 2 then
    some (~~~csum16Add (csum16Add (~~~sum) ((~~~oldValue).setWidth 16)) (newValue.setWidth 16))
  else if size = 4 then some (pcnCsumReplaceByDiff sum (pcnCsumAdd newValue (~~~oldValue)))
  else none

def einval : ℤ := 22

def efault : ℤ := 14

/-- `pcn_l3_csum_replace`: the packet and what is returned. -/
def l3CsumReplace (packet : Buffer) (csumOffset oldValue newValue flags : BitVec 32) : Buffer × ℤ :=
  if flags &&& ~~~0xF ≠ 0 then (packet, -einval)
  else if 0xFFFF < csumOffset ∨ csumOffset &&& 1 ≠ 0 then (packet, -efault)
  else if packet.length < csumOffset.toNat + 2 then (packet, -einval)
  else
    match replaced (flags &&& 0xF) (packet.load16 csumOffset.toNat) oldValue newValue with
    | none => (packet, -einval)
    | some sum => (packet.store16 csumOffset.toNat sum, 0)

/-- `pcn_l4_csum_replace`, with the flags `BPF_F_PSEUDO_HDR`, `BPF_F_MARK_MANGLED_0` and
`BPF_F_MARK_ENFORCE`. -/
def l4CsumReplace (packet : Buffer) (csumOffset oldValue newValue flags : BitVec 32) : Buffer × ℤ :=
  let isMmzero := flags &&& 0x20 ≠ 0
  let doMforce := flags &&& 0x40 ≠ 0
  if flags &&& ~~~(0x20 ||| 0x40 ||| 0x10 ||| 0xF) ≠ 0 then (packet, -einval)
  else if 0xFFFF < csumOffset ∨ csumOffset &&& 1 ≠ 0 then (packet, -efault)
  else if packet.length < csumOffset.toNat + 2 then (packet, -einval)
  else if isMmzero ∧ ¬doMforce ∧ packet.load16 csumOffset.toNat = 0 then (packet, 0)
  else
    match replaced (flags &&& 0xF) (packet.load16 csumOffset.toNat) oldValue newValue with
    | none => (packet, -einval)
    | some sum =>
      (packet.store16 csumOffset.toNat (if isMmzero ∧ sum = 0 then 0xFFFF else sum), 0)

/-- `pcn_update_csum`: the sum is of 20 bytes. -/
def updateCsum (iph : Buffer) : Buffer :=
  let csum := (iph.words 0 10).foldl (fun csum word => csum + word.setWidth 32) 0#32
  iph.store16 10 ((~~~((csum &&& 0xFFFF#32) + (csum >>> 16))).setWidth 16)

/-! ### Right checksums -/

/-- A packet with a checksum in it, and the words that are summed up with it and stay. -/
structure Packet where
  bytes : Buffer
  csumOffset : BitVec 32
  small : csumOffset ≤ 0xFFFF
  even : csumOffset &&& 1 = 0
  inside : csumOffset.toNat + 2 ≤ bytes.length
  others : List (BitVec 16)

def Packet.check (p : Packet) : BitVec 16 := p.bytes.load16 p.csumOffset.toNat

inductive Change
  | two (old new : BitVec 16)
  | four (old new : BitVec 32)
  | diff (old new : BitVec 32)

namespace Change

def halves (v : BitVec 32) : List (BitVec 16) := [v.extractLsb' 0 16, v.extractLsb' 16 16]

def before : Change → List (BitVec 16)
  | two old _ => [old]
  | four old _ | diff old _ => halves old

def after : Change → List (BitVec 16)
  | two _ new => [new]
  | four _ new | diff _ new => halves new

def size : Change → BitVec 32
  | two _ _ => 2
  | four _ _ => 4
  | diff _ _ => 0

def oldValue : Change → BitVec 32
  | two old _ => old.setWidth 32
  | four old _ => old
  | diff _ _ => 0

/-- `pcn_csum_diff` is the framework's or, with newer kernels, theirs. -/
def newValue (helpers : CsumHelpers) : Change → BitVec 32
  | two _ new => new.setWidth 32
  | four _ new => new
  | diff old new => helpers.csumDiff old new

end Change

/-- The checksum is written, and is right for the new words if it was for the old ones. -/
def Mends (p : Packet) (change : Change) (mangled : Bool) (result : Buffer × ℤ) : Prop :=
  ∃ sum, result = (p.bytes.store16 p.csumOffset.toNat sum, 0) ∧ (mangled = true → sum ≠ 0) ∧
    (ChecksumOk (p.check :: (p.others ++ change.before)) →
      ChecksumOk (sum :: (p.others ++ change.after)))

def flag (bit : BitVec 32) (set : Bool) : BitVec 32 := if set then bit else 0

def ReplacesL3 (helpers : CsumHelpers) (p : Packet) (change : Change) : Prop :=
  Mends p change false (l3CsumReplace p.bytes p.csumOffset change.oldValue
    (change.newValue helpers) change.size)

def ReplacesL4 (helpers : CsumHelpers) (p : Packet) (change : Change)
    (pseudo mangled enforce : Bool) : Prop :=
  let result := l4CsumReplace p.bytes p.csumOffset change.oldValue (change.newValue helpers)
    (change.size ||| flag 0x10 pseudo ||| flag 0x20 mangled ||| flag 0x40 enforce)
  if mangled = true ∧ enforce = false ∧ p.check = 0 then result = (p.bytes, 0)
  else Mends p change mangled result

/-- All words but the checksum, which is right, become zero.  When a field of two bytes is all ones
like the checksum, that still comes out as all ones. -/
def Blanks (p : Packet) (change : Change) : Prop :=
  ChecksumOk (p.check :: (p.others ++ change.before)) ∧ total p.others = 0 ∧
    total change.after = 0 ∧ ¬ (p.check = 0xFFFF ∧ change = .two 0xFFFF 0)

structure Header where
  bytes : Buffer
  options : ℕ
  length : bytes.length = 20 + 4 * options
  zero : bytes.load16 10 = 0

def Updates (h : Header) : Prop :=
  ChecksumOk ((updateCsum h.bytes).words 0 (10 + 2 * h.options))

/-- The sum of 20 bytes fits 16 bits after one fold and the options count nothing, or it does not and
they count one less than nothing. -/
def Folds (h : Header) : Prop :=
  let sum := total (h.bytes.words 0 10)
  let options := total (h.bytes.words 20 (2 * h.options))
  (sum % 65536 + sum / 65536 < 65536 ∧ options % 65535 = 0) ∨
    (65536 ≤ sum % 65536 + sum / 65536 ∧ options % 65535 = 65534)

/-! ### The functions -/

theorem csum16Add_eq (csum addend : BitVec 16) : csum16Add csum addend = onesAdd csum addend := by
  have left := csum.isLt
  have right := addend.isLt
  apply BitVec.eq_of_toNat_eq
  rw [toNat_onesAdd]
  unfold csum16Add
  simp only [BitVec.lt_def, BitVec.toNat_add]
  split <;> simp only [BitVec.toNat_ofNat] <;> omega

theorem total_halves (v : BitVec 32) : total (Change.halves v) % 65535 = v.toNat % 65535 := by
  have bound := v.isLt
  unfold Change.halves
  simp only [total_cons, total_nil, BitVec.extractLsb'_toNat, Nat.shiftRight_eq_div_pow,
    Nat.reducePow, Nat.div_one]
  have high : v.toNat / 65536 % 65536 = v.toNat / 65536 := by omega
  have split : v.toNat = v.toNat % 65536 + v.toNat / 65536 + 65535 * (v.toNat / 65536) := by omega
  rw [high, add_zero]
  conv_rhs => rw [split]
  exact (Nat.add_mul_mod_self_left ..).symm

section

variable {p : Packet} {change : Change} (helpers : CsumHelpers)

/-- A new checksum that counts what the old one did and what the field counts less is right if
anything but zeros is left. -/
theorem checksumOk_of_mod {sum : BitVec 16}
    (mod : (sum.toNat + total change.after) % 65535 = (p.check.toNat + total change.before) % 65535)
    (some : sum.toNat + total p.others + total change.after ≠ 0)
    (ok : ChecksumOk (p.check :: (p.others ++ change.before))) :
    ChecksumOk (sum :: (p.others ++ change.after)) := by
  refine ok.of_mod ?_ ?_
  · simp only [total_cons, total_append]
    omega
  · simp only [total_cons, total_append]
    omega

theorem toNat_eq_ones {x : BitVec 16} : x = 0xFFFF ↔ x.toNat = 65535 :=
  ⟨fun h => congrArg BitVec.toNat h, fun h => BitVec.eq_of_toNat_eq h⟩

/-- The complement of a sum is all ones when all that is added up is zero. -/
theorem added_eq_ones (check old new : BitVec 16) :
    ~~~onesAdd (onesAdd (~~~check) (~~~old)) new = 0xFFFF ↔
      check = 0xFFFF ∧ Change.two old new = .two 0xFFFF 0 := by
  have inner := toNat_onesAdd_eq_zero (~~~check) (~~~old)
  have outer := toNat_onesAdd_eq_zero (onesAdd (~~~check) (~~~old)) new
  have bounds := And.intro check.isLt (And.intro old.isLt
    (onesAdd (onesAdd (~~~check) (~~~old)) new).isLt)
  have zero : new = 0 ↔ new.toNat = 0 := ⟨congrArg BitVec.toNat, fun h => BitVec.eq_of_toNat_eq h⟩
  rw [Change.two.injEq, toNat_eq_ones, toNat_eq_ones, toNat_eq_ones, zero, BitVec.toNat_not]
  rw [BitVec.toNat_not, BitVec.toNat_not] at inner
  omega

theorem replaced_eq (p : Packet) (change : Change) : ∃ sum,
    replaced change.size p.check change.oldValue (change.newValue helpers) = some sum ∧
    (sum.toNat + total change.after) % 65535 = (p.check.toNat + total change.before) % 65535 ∧
    (sum = 0xFFFF ↔ p.check = 0xFFFF ∧ change = .two 0xFFFF 0) := by
  cases change with
  | two old new =>
    have hold : (~~~(old.setWidth 32)).setWidth 16 = ~~~old := by
      apply BitVec.eq_of_toNat_eq
      have bound := old.isLt
      rw [BitVec.toNat_setWidth, BitVec.toNat_not, BitVec.toNat_not, BitVec.toNat_setWidth]
      omega
    have hnew : (new.setWidth 32).setWidth 16 = new := by simp
    have added : replaced 2 p.check (old.setWidth 32) (new.setWidth 32) =
        some (~~~onesAdd (onesAdd (~~~p.check) (~~~old)) new) := by
      rw [← csum16Add_eq, ← csum16Add_eq]
      conv_rhs => rw [← hold, ← hnew]
      rfl
    refine ⟨_, added, ?_, added_eq_ones p.check old new⟩
    have first := toNat_onesAdd_mod (~~~p.check) (~~~old)
    have second := toNat_onesAdd_mod (onesAdd (~~~p.check) (~~~old)) new
    have bounds := And.intro p.check.isLt (And.intro old.isLt
      (onesAdd (onesAdd (~~~p.check) (~~~old)) new).isLt)
    simp only [BitVec.toNat_not] at first ⊢
    unfold Change.after Change.before
    simp only [total_cons, total_nil]
    omega
  | four old new =>
    refine ⟨_, rfl, ?_, fun h => absurd h (pcnHelpers.replaceByDiff_ne _ _), fun h => nomatch h.2⟩
    have count := pcnHelpers.replaceByDiff_mod p.check (pcnHelpers.csumDiff old new)
    have diff := pcnHelpers.csumDiff_mod old new
    have before := total_halves old
    have after := total_halves new
    show ((pcnHelpers.replaceByDiff p.check (pcnHelpers.csumDiff old new)).toNat +
      total (Change.halves new)) % 65535 = (p.check.toNat + total (Change.halves old)) % 65535
    omega
  | diff old new =>
    refine ⟨_, rfl, ?_, fun h => absurd h (pcnHelpers.replaceByDiff_ne _ _), fun h => nomatch h.2⟩
    have count := pcnHelpers.replaceByDiff_mod p.check (helpers.csumDiff old new)
    have diff := helpers.csumDiff_mod old new
    have before := total_halves old
    have after := total_halves new
    show ((pcnHelpers.replaceByDiff p.check (helpers.csumDiff old new)).toNat +
      total (Change.halves new)) % 65535 = (p.check.toNat + total (Change.halves old)) % 65535
    omega

/-- What is written is right, unless it is zero like all else. -/
theorem mends_iff {sum : BitVec 16}
    (mod : (sum.toNat + total change.after) % 65535 = (p.check.toNat + total change.before) % 65535)
    (ones : sum = 0xFFFF ↔ p.check = 0xFFFF ∧ change = .two 0xFFFF 0) :
    Mends p change false (p.bytes.store16 p.csumOffset.toNat sum, 0) ↔ ¬ Blanks p change := by
  have bound := sum.isLt
  rw [toNat_eq_ones] at ones
  constructor
  · rintro ⟨sum', same, -, right⟩ ⟨ok, others, after, short⟩
    have same : p.bytes.store16 p.csumOffset.toNat sum = p.bytes.store16 p.csumOffset.toNat sum' :=
      congrArg Prod.fst same
    have inside := p.inside
    obtain rfl : sum = sum' := by
      rw [← Buffer.load16_store16 p.bytes p.csumOffset.toNat sum (by omega), same,
        Buffer.load16_store16 p.bytes _ sum' (by omega)]
    have left := (checksumOk_iff _).1 (right ok)
    have was := (checksumOk_iff _).1 ok
    have few : sum.toNat ≠ 65535 := fun full => short (ones.1 full)
    simp only [total_cons, total_append] at left was
    omega
  · intro some
    refine ⟨sum, rfl, nofun, fun ok => checksumOk_of_mod mod (fun none => some ?_) ok⟩
    refine ⟨ok, by omega, by omega, fun all => ?_⟩
    have full := ones.2 all
    omega

theorem size_cases : change.size = 0 ∨ change.size = 2 ∨ change.size = 4 := by
  cases change
  · exact .inr (.inl rfl)
  · exact .inr (.inr rfl)
  · exact .inl rfl

theorem flags_spec (pseudo mangled enforce : Bool) {size flags : BitVec 32}
    (sizes : size = 0 ∨ size = 2 ∨ size = 4)
    (h : flags = size ||| flag 0x10 pseudo ||| flag 0x20 mangled ||| flag 0x40 enforce) :
    flags &&& ~~~(0x20 ||| 0x40 ||| 0x10 ||| 0xF) = 0 ∧ flags &&& 0xF = size ∧
      (flags &&& 0x20 ≠ 0 ↔ mangled = true) ∧ (flags &&& 0x40 ≠ 0 ↔ enforce = true) := by
  subst h
  rcases sizes with rfl | rfl | rfl <;> cases pseudo <;> cases mangled <;> cases enforce <;> decide

theorem l3_iff : ReplacesL3 helpers p change ↔ ¬ Blanks p change := by
  obtain ⟨sum, written, mod, ones⟩ := replaced_eq helpers p change
  have long : ¬p.bytes.length < p.csumOffset.toNat + 2 := Nat.not_lt.2 p.inside
  have place : ¬(0xFFFF < p.csumOffset ∨ p.csumOffset &&& 1 ≠ 0) := by
    rw [not_or, not_not]
    exact ⟨BitVec.not_lt.2 p.small, p.even⟩
  have known : change.size &&& ~~~0xF = 0 ∧ change.size &&& 0xF = change.size := by
    rcases @size_cases change with h | h | h <;> rw [h] <;> decide
  unfold ReplacesL3 l3CsumReplace
  rw [if_neg (not_not.2 known.1), if_neg place, if_neg long, known.2, ← Packet.check, written]
  exact mends_iff mod ones

/-- With the flag for a mangled zero, zero is not written. -/
theorem l4_iff (pseudo mangled enforce : Bool) :
    ReplacesL4 helpers p change pseudo mangled enforce ↔ mangled = true ∨ ¬ Blanks p change := by
  obtain ⟨sum, written, mod, ones⟩ := replaced_eq helpers p change
  have long : ¬p.bytes.length < p.csumOffset.toNat + 2 := Nat.not_lt.2 p.inside
  have place : ¬(0xFFFF < p.csumOffset ∨ p.csumOffset &&& 1 ≠ 0) := by
    rw [not_or, not_not]
    exact ⟨BitVec.not_lt.2 p.small, p.even⟩
  obtain ⟨known, size, mm, force⟩ :=
    flags_spec pseudo mangled enforce (@size_cases change) rfl
  unfold ReplacesL4
  generalize change.size ||| flag 0x10 pseudo ||| flag 0x20 mangled ||| flag 0x40 enforce = flags at *
  unfold l4CsumReplace
  rw [if_neg (not_not.2 known), if_neg place, if_neg long, size, ← Packet.check, written]
  simp only [mm, force, Bool.not_eq_true]
  cases mangled with
  | false => simpa using mends_iff mod ones
  | true =>
    simp only [true_and, true_or, iff_true]
    split_ifs with unset zero
    · rfl
    · refine ⟨0xFFFF, rfl, fun _ => by decide, ?_⟩
      have count : sum.toNat = 0 := congrArg BitVec.toNat zero
      have ones : (0xFFFF : BitVec 16).toNat = 65535 := rfl
      exact checksumOk_of_mod (by omega) (by omega)
    · have some : sum.toNat ≠ 0 := fun none => zero (BitVec.eq_of_toNat_eq none)
      exact ⟨sum, rfl, fun _ => zero, checksumOk_of_mod mod (by omega)⟩

end

theorem toNat_sum (words : List (BitVec 16)) (csum : BitVec 32) :
    (words.foldl (fun csum word => csum + word.setWidth 32) csum).toNat =
      (csum.toNat + total words) % 2 ^ 32 := by
  induction words generalizing csum with
  | nil =>
    have bound := csum.isLt
    rw [List.foldl_nil, total_nil]
    omega
  | cons w words ih =>
    have bound := w.isLt
    rw [List.foldl_cons, ih, BitVec.toNat_add, BitVec.toNat_setWidth, total_cons]
    omega

theorem updates_iff (h : Header) : Updates h ↔ Folds h := by
  have length := h.length
  have zero : (h.bytes.load16 10).toNat = 0 := congrArg BitVec.toNat h.zero
  have limit := total_words_le h.bytes 0 10
  let csum := (h.bytes.words 0 10).foldl (fun csum word => csum + word.setWidth 32) 0#32
  let check : BitVec 16 := (~~~((csum &&& 0xFFFF#32) + (csum >>> 16))).setWidth 16
  have sum : csum.toNat = total (h.bytes.words 0 10) := by
    have sum : csum.toNat = (0 + total (h.bytes.words 0 10)) % 2 ^ 32 := toNat_sum _ _
    omega
  have half := toNat_half csum
  have folded : check.toNat =
      65535 - (csum.toNat % 65536 + csum.toNat / 65536) % 65536 := by
    have complement : check.toNat = (~~~((csum &&& 0xFFFF#32) + (csum >>> 16))).toNat % 65536 :=
      BitVec.toNat_setWidth 16 _
    rw [complement, BitVec.toNat_not, half]
    omega
  have written := total_words_store16 (k := 5) (n := 10 + 2 * h.options) h.bytes 0 check (by omega)
    (by omega)
  have parts : total (h.bytes.words 0 (10 + 2 * h.options)) =
      total (h.bytes.words 0 10) + total (h.bytes.words 20 (2 * h.options)) := by
    rw [Buffer.words_add, total_append]
  rw [parts] at written
  unfold Updates Folds
  rw [checksumOk_iff]
  show total ((h.bytes.store16 (0 + 2 * 5) check).words 0 (10 + 2 * h.options)) % 65535 = 0 ∧
    total ((h.bytes.store16 (0 + 2 * 5) check).words 0 (10 + 2 * h.options)) ≠ 0 ↔ _
  have zero' : (h.bytes.load16 (0 + 2 * 5)).toNat = 0 := zero
  generalize total ((h.bytes.store16 (0 + 2 * 5) check).words 0 (10 + 2 * h.options)) = result at *
  dsimp only
  generalize total (h.bytes.words 20 (2 * h.options)) = options at *
  rw [sum] at folded
  generalize total (h.bytes.words 0 10) = header at *
  -- the carry counts nothing
  have carry : header = header % 65536 + header / 65536 + 65535 * (header / 65536) := by omega
  have top : header % 65536 + header / 65536 < 131072 := by omega
  generalize header / 65536 = high at *
  generalize header % 65536 + high = once at *
  by_cases fits : once < 65536
  · have whole : result = options + 65535 * (high + 1) := by omega
    rw [whole, Nat.add_mul_mod_self_left]
    omega
  · have less : result = options + 1 + 65535 * (high + 2) := by omega
    rw [less, Nat.add_mul_mod_self_left]
    omega

/-- Checksums are mended where anything but zeros is left or zero is mangled, and written for exactly
the headers with which one fold is enough. -/
theorem checksums_iff (helpers : CsumHelpers) (p : Packet) (change : Change) (h : Header) :
    (ReplacesL3 helpers p change ↔ ¬ Blanks p change) ∧
    (∀ pseudo mangled enforce, ReplacesL4 helpers p change pseudo mangled enforce ↔
      mangled = true ∨ ¬ Blanks p change) ∧
    (Updates h ↔ Folds h) :=
  ⟨l3_iff helpers, l4_iff helpers, updates_iff h⟩

/-- A header whose words add up to 0x1FFFF. -/
theorem not_updates_ones :
    ¬((∀ helpers p change pseudo mangled enforce, ReplacesL3 helpers p change ∧
      ReplacesL4 helpers p change pseudo mangled enforce) ∧ ∀ h, Updates h) := by
  rintro ⟨-, updates⟩
  have folds := (updates_iff _).1 (updates ⟨[0x45, 0, 0xBA, 0xFF, 0xFF, 0xFF, 1] ++
    List.replicate 13 0, 0, rfl, by decide⟩)
  revert folds
  unfold Folds
  decide

end Polycube.Polycubed.XdpChecksums
