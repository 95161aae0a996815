import Mathlib
import Polycube.Iptables.Pipeline
import Polycube.Dispatcher.Rules
import Polycube.Lib.Bounded
import Polycube.Lib.Digits

/-!
# The table of local addresses

`updateLocalIps` compares the addresses of the interfaces with those it has noted, both as texts
with a prefix length, while the kernel's table has the bare addresses.  New texts are written first
and old ones removed afterwards, so a text that goes takes with it an address that another text
still has.
-/

namespace Polycube.Iptables

open Lib
open Polycube.Dispatcher (isSpace number)

abbrev Text := List Char

def scanSign : Text → Bool × Text
  | '-' :: rest => (true, rest)
  | '+' :: rest => (false, rest)
  | rest => (false, rest)

/-- `%hhu` of `sscanf`: the number, cut to 8 bits, and the text after it. -/
def scanHhu (text : Text) : Option (BitVec 8 × Text) :=
  let (minus, text) := scanSign (text.dropWhile isSpace)
  let digits := text.takeWhile Char.isDigit
  if digits.isEmpty then none
  else
    let n := number digits
    let value := if n < 2 ^ 64 then
        if minus then -BitVec.ofNat 8 n else BitVec.ofNat 8 n
      else BitVec.allOnes 8
    some (value, text.dropWhile Char.isDigit)

def scanHhuDot (text : Text) : Option (BitVec 8 × Text) :=
  match scanHhu text with
  | some (a, '.' :: rest) => some (a, rest)
  | _ => none

def removeNetFromIp (ip : Text) : Text := ip.takeWhile (· ≠ '/')

/-- What `sscanf` with `%hhu.%hhu.%hhu.%hhu` reads, when it reads the whole text. -/
def scanAddress (text : Text) : Option (BitVec 32) := do
  let (a₀, text) ← scanHhuDot text
  let (a₁, text) ← scanHhuDot text
  let (a₂, text) ← scanHhuDot text
  let (a₃, text) ← scanHhu text
  if text = [] then some (a₃ ++ a₂ ++ a₁ ++ a₀) else none

def ipStringToNboUint (ip : Text) : Except String (BitVec 32) :=
  -- `get_ip_from_string` cuts off what `removeNetFromIp` does
  match scanAddress (removeNetFromIp ip) with
  | some a => .ok a
  | none => .error ("Not an ipv4 address " ++ String.ofList ip)

abbrev LocalipTable := Bounded (BitVec 32) (BitVec 32) 256

/-- `localip_table.set` in the `try` block. -/
def writeIp (t : LocalipTable) (newIp : Text) : LocalipTable :=
  match ipStringToNboUint (removeNetFromIp newIp) with
  | .ok ip => (t.set ip 0).getD t
  | .error _ => t

/-- `localipTable.remove` in the `try` block. -/
def dropIp (t : LocalipTable) (oldIp : Text) : LocalipTable :=
  match ipStringToNboUint (removeNetFromIp oldIp) with
  | .ok ip => (t.remove ip).getD t
  | .error _ => t

/-- The first loop, over the new addresses.  What is not noted yet is noted, also when the table
does not take it. -/
def addIps : List Text → List Text → LocalipTable → List Text × LocalipTable
  | [], localIps, t => (localIps, t)
  | newIp :: rest, localIps, t =>
    if newIp ∈ localIps then addIps rest localIps t
    else addIps rest (newIp :: localIps) (writeIp t newIp)

def removeIps (localipNew : List Text) : List Text → LocalipTable → List Text × LocalipTable
  | [], t => ([], t)
  | oldIp :: rest, t =>
    if oldIp ∉ localipNew then removeIps localipNew rest (dropIp t oldIp)
    else
      let (localIps, t) := removeIps localipNew rest t
      (oldIp :: localIps, t)

/-- `localipNew` has the order of the C++ map, which may be any; what the second loop leaves does
not depend on an order. -/
def updateLocalIps (localipNew localIps : List Text) (t : LocalipTable) :
    List Text × LocalipTable :=
  let (localIps, t) := addIps localipNew localIps t
  removeIps localipNew localIps t

structure ChainSelectors where
  localIps : ProgramType → List Text
  localip : LocalipTable

def ChainSelectors.init : ChainSelectors := ⟨fun _ => [], Bounded.empty⟩

def Colon (text : Text) : Prop := ':' ∈ text.takeWhile (· ≠ '.')

/-- An address as netlink tells it: an IPv4 address, with the length of its prefix unless that is
left out, or the text of an IPv6 one. -/
inductive IfaceAddr
  | inet (ip : BitVec 32) (prefixlen : Option ℕ)
  | inet6 (text : Text) (colon : Colon (removeNetFromIp text))

def IfaceAddr.text : IfaceAddr → Text
  | .inet ip none => dotted ip
  | .inet ip (some prefixlen) => dotted ip ++ '/' :: Nat.toDigits 10 prefixlen
  | .inet6 text _ => text

/-- What `updateLocalIps` sees: one of the two programs, and the addresses of the interfaces in the
order in which the C++ map of their texts is walked. -/
structure Update where
  type : ProgramType
  ifaceAddrs : List IfaceAddr

def Update.localipNew (u : Update) : List Text := u.ifaceAddrs.map IfaceAddr.text

def ChainSelectors.update (s : ChainSelectors) (u : Update) : ChainSelectors :=
  let (localIps, t) := updateLocalIps u.localipNew (s.localIps u.type) s.localip
  ⟨Function.update s.localIps u.type localIps, t⟩

def Update.Local (u : Update) (ip : BitVec 32) : Prop :=
  ∃ prefixlen, IfaceAddr.inet ip prefixlen ∈ u.ifaceAddrs

/-- After the update the table has exactly the local addresses, and a packet goes to `INPUT` if and
only if its destination is one of them. -/
def Exact (s : ChainSelectors) (u : Update) : Prop :=
  (∀ ip, (s.update u).localip.entry ip ≠ none ↔ u.Local ip) ∧
    ∀ src dst, selectChain (fun ip => ((s.update u).localip.entry ip).isSome) .ingress src dst =
      some .input ↔ u.Local dst

def address (text : Text) : Option (BitVec 32) :=
  (ipStringToNboUint (removeNetFromIp text)).toOption

def addresses (texts : List Text) : Finset (BitVec 32) := (texts.filterMap address).toFinset

def ChainSelectors.added (s : ChainSelectors) (u : Update) : List Text :=
  u.localipNew.filter (· ∉ s.localIps u.type)

def ChainSelectors.gone (s : ChainSelectors) (u : Update) : List Text :=
  (s.localIps u.type).filter (· ∉ u.localipNew)

/-- The kernel's table has room, no address that is still there is under a text that is gone, and
what the table lacks or has too much is what this program has not noted or is to forget. -/
structure Covered (s : ChainSelectors) (u : Update) : Prop where
  fits : (s.localip.keys ∪ addresses (s.added u)).card ≤ 256
  gone : Disjoint (addresses u.localipNew) (addresses (s.gone u))
  lacks : addresses u.localipNew ⊆ s.localip.keys ∪ addresses (s.added u)
  exceeds : s.localip.keys ⊆ addresses u.localipNew ∪ addresses (s.gone u)

/-! ### Reading an address -/

theorem number_toDigits (n : ℕ) : number (Nat.toDigits 10 n) = n :=
  Nat.ofDigitChars_ten_toDigits

def Ends (rest : Text) : Prop := ∀ c ∈ rest.head?, c.isDigit = false

theorem takeWhile_digits {l rest : Text} (digits : ∀ c ∈ l, c.isDigit = true) (ends : Ends rest) :
    (l ++ rest).takeWhile Char.isDigit = l ∧ (l ++ rest).dropWhile Char.isDigit = rest := by
  rw [List.takeWhile_append_of_pos digits, List.dropWhile_append_of_pos digits]
  cases rest with
  | nil => exact ⟨List.append_nil l, rfl⟩
  | cons c rest =>
    have hc : ¬ c.isDigit = true := by simpa using ends c rfl
    rw [List.takeWhile_cons_of_neg hc, List.dropWhile_cons_of_neg hc]
    exact ⟨List.append_nil l, rfl⟩

theorem isSpace_of_isDigit {c : Char} (h : c.isDigit = true) :
    isSpace c = false ∧ c ≠ '-' ∧ c ≠ '+' := by
  obtain ⟨low, high⟩ := Char.isDigit_iff_toNat.1 h
  have low : 48 ≤ c.toNat := low
  have high : c.toNat ≤ 57 := high
  refine ⟨?_, ?_, ?_⟩
  · unfold isSpace
    have : c ≠ ' ' := by
      rintro rfl
      exact absurd low (by decide)
    simp only [beq_eq_false_iff_ne.2 this, Bool.false_or, Bool.and_eq_false_iff,
      decide_eq_false_iff_not]
    omega
  · rintro rfl
    exact absurd low (by decide)
  · rintro rfl
    exact absurd low (by decide)

theorem scanHhu_toDigits {n : ℕ} (hn : n < 256) {rest : Text} (ends : Ends rest) :
    scanHhu (Nat.toDigits 10 n ++ rest) = some (BitVec.ofNat 8 n, rest) := by
  obtain ⟨c, cs, hd⟩ : ∃ c cs, Nat.toDigits 10 n = c :: cs :=
    List.exists_cons_of_ne_nil Nat.toDigits_ne_nil
  have digits := isDigit_of_mem_digits (n := n)
  obtain ⟨noSpace, noMinus, noPlus⟩ :=
    isSpace_of_isDigit (digits c (by rw [hd]; exact List.mem_cons_self))
  obtain ⟨taken, dropped⟩ := takeWhile_digits digits ends
  have start : (Nat.toDigits 10 n ++ rest).dropWhile isSpace = Nat.toDigits 10 n ++ rest := by
    rw [hd, List.cons_append, List.dropWhile_cons_of_neg (by rw [noSpace]; decide)]
  have small : n < 2 ^ 64 := by omega
  have notEmpty : (Nat.toDigits 10 n).isEmpty = false := by rw [hd]; rfl
  unfold scanHhu
  rw [start]
  have sign : scanSign (Nat.toDigits 10 n ++ rest) = (false, Nat.toDigits 10 n ++ rest) := by
    rw [hd, List.cons_append]
    unfold scanSign
    split
    · rename_i e
      exact absurd (List.cons.inj e).1 noMinus
    · rename_i e
      exact absurd (List.cons.inj e).1 noPlus
    · rfl
  simp only [sign, taken, dropped, notEmpty, number_toDigits, small, if_true, Bool.false_eq_true, if_false]

theorem scanHhuDot_toDigits {n : ℕ} (hn : n < 256) (rest : Text) :
    scanHhuDot (Nat.toDigits 10 n ++ ['.'] ++ rest) = some (BitVec.ofNat 8 n, rest) := by
  unfold scanHhuDot
  rw [List.append_assoc, scanHhu_toDigits hn]
  · rfl
  · rintro c ⟨⟩
    rfl

theorem bytes_append (ip : BitVec 32) :
    BitVec.ofNat 8 (ip.toNat / 256 ^ 3 % 256) ++ BitVec.ofNat 8 (ip.toNat / 256 ^ 2 % 256) ++
      BitVec.ofNat 8 (ip.toNat / 256 ^ 1 % 256) ++ BitVec.ofNat 8 (ip.toNat / 256 ^ 0 % 256) =
      ip := by
  apply BitVec.eq_of_toNat_eq
  have := ip.isLt
  simp only [toNat_append_eq, BitVec.toNat_ofNat, Nat.reducePow, Nat.mod_mod]
  omega

theorem scanAddress_dotted (ip : BitVec 32) : scanAddress (dotted ip) = some ip := by
  have byte (i : ℕ) : ip.toNat / 256 ^ i % 256 < 256 := Nat.mod_lt _ (by decide)
  unfold scanAddress dotted
  have ends : Ends [] := by rintro c ⟨⟩
  have last := scanHhu_toDigits (byte 3) ends
  rw [List.append_nil] at last
  simp only [List.append_assoc]
  simp only [← List.append_assoc _ ['.'] _, scanHhuDot_toDigits (byte _), last, Option.bind_eq_bind,
    Option.bind_some, if_true, bytes_append]

variable {text : Text}

theorem Colon.of_cons {c : Char} (hc : c ≠ ':') (h : Colon (c :: text)) : Colon text := by
  unfold Colon at h
  rw [List.takeWhile_cons] at h
  split at h
  · exact (List.mem_cons.1 h).resolve_left (Ne.symm hc)
  · exact absurd h List.not_mem_nil

theorem Colon.dropWhile {p : Char → Bool} (colon : p ':' = false)
    (h : Colon text) : Colon (text.dropWhile p) := by
  induction text with
  | nil => exact h
  | cons c text ih =>
    rw [List.dropWhile_cons]
    split
    · rename_i hp
      refine ih (h.of_cons ?_)
      rintro rfl
      rw [colon] at hp
      cases hp
    · exact h

theorem Colon.scanSign (h : Colon text) : Colon (scanSign text).2 := by
  unfold Iptables.scanSign
  split
  · exact h.of_cons (by decide)
  · exact h.of_cons (by decide)
  · exact h

theorem Colon.scanHhuDot (h : Colon text) : scanHhuDot text = none := by
  unfold Iptables.scanHhuDot
  split
  · rename_i a rest scanned
    unfold scanHhu at scanned
    simp only at scanned
    split at scanned
    · cases scanned
    · have left := ((h.dropWhile (p := isSpace) rfl).scanSign).dropWhile (p := Char.isDigit) rfl
      rw [(Prod.mk.inj (Option.some.inj scanned)).2] at left
      exact absurd left (by unfold Colon; simp)
  · rfl

theorem Colon.scanAddress (h : Colon text) : scanAddress text = none := by
  unfold Iptables.scanAddress
  rw [h.scanHhuDot]
  rfl

theorem removeNetFromIp_idem (text : Text) :
    removeNetFromIp (removeNetFromIp text) = removeNetFromIp text := by
  unfold removeNetFromIp
  rw [List.takeWhile_takeWhile]
  simp

theorem address_eq (text : Text) : address text = scanAddress (removeNetFromIp text) := by
  unfold address ipStringToNboUint
  rw [removeNetFromIp_idem]
  cases scanAddress (removeNetFromIp text) <;> rfl

theorem mem_dotted {ip : BitVec 32} : ∀ c ∈ dotted ip, c ≠ '/' := by
  rintro c hc rfl
  unfold dotted at hc
  simp only [List.mem_append, List.mem_singleton] at hc
  have slash (n : ℕ) : '/' ∉ Nat.toDigits 10 n := fun h => absurd (isDigit_of_mem_digits _ h) (by decide)
  simp only [slash, false_or, or_false] at hc
  revert hc
  decide

theorem removeNetFromIp_dotted (ip : BitVec 32) (prefixlen : Option ℕ) :
    removeNetFromIp (IfaceAddr.inet ip prefixlen).text = dotted ip := by
  have noSlash : ∀ c ∈ dotted ip, decide (c ≠ '/') = true := by
    simpa using mem_dotted
  unfold removeNetFromIp
  cases prefixlen with
  | none =>
    exact List.takeWhile_eq_self_iff.2 noSlash
  | some n =>
    rw [IfaceAddr.text, List.takeWhile_append_of_pos noSlash,
      List.takeWhile_cons_of_neg (by decide), List.append_nil]

theorem address_inet (ip : BitVec 32) (prefixlen : Option ℕ) :
    address (IfaceAddr.inet ip prefixlen).text = some ip := by
  rw [address_eq, removeNetFromIp_dotted, scanAddress_dotted]

theorem address_inet6 (colon : Colon (removeNetFromIp text)) :
    address (IfaceAddr.inet6 text colon).text = none := by
  rw [address_eq]
  exact colon.scanAddress

theorem mem_addresses {texts : List Text} {ip : BitVec 32} :
    ip ∈ addresses texts ↔ ∃ text ∈ texts, address text = some ip := by
  unfold addresses
  rw [List.mem_toFinset, List.mem_filterMap]

theorem mem_addresses_new (u : Update) (ip : BitVec 32) :
    ip ∈ addresses u.localipNew ↔ u.Local ip := by
  rw [mem_addresses]
  unfold Update.localipNew Update.Local
  constructor
  · rintro ⟨text, hm, read⟩
    obtain ⟨a, ha, rfl⟩ := List.mem_map.1 hm
    cases a with
    | inet ip' prefixlen =>
      rw [address_inet, Option.some.injEq] at read
      exact ⟨prefixlen, read ▸ ha⟩
    | inet6 text colon =>
      rw [address_inet6] at read
      cases read
  · rintro ⟨prefixlen, ha⟩
    exact ⟨_, List.mem_map_of_mem ha, address_inet ip prefixlen⟩

/-! ### The two loops -/

theorem addresses_cons (text : Text) (texts : List Text) :
    addresses (text :: texts) = (address text).toFinset ∪ addresses texts := by
  ext ip
  rw [Finset.mem_union, mem_addresses, mem_addresses, List.exists_mem_cons_iff, Option.mem_toFinset,
    Option.mem_def]

theorem addresses_mono {l l' : List Text} (h : ∀ text ∈ l, text ∈ l') :
    addresses l ⊆ addresses l' := by
  intro ip hip
  obtain ⟨text, ht, read⟩ := mem_addresses.1 hip
  exact mem_addresses.2 ⟨text, h text ht, read⟩

theorem keys_writeIp (t : LocalipTable) (text : Text) :
    t.keys ⊆ (writeIp t text).keys ∧ (writeIp t text).keys ⊆ t.keys ∪ (address text).toFinset := by
  unfold writeIp address
  cases ipStringToNboUint (removeNetFromIp text) with
  | error _ => exact ⟨subset_rfl, Finset.subset_union_left⟩
  | ok ip =>
    simp only
    cases written : t.set ip 0 with
    | none => exact ⟨subset_rfl, Finset.subset_union_left⟩
    | some t' =>
      rw [Option.getD_some, Bounded.keys_of_set written, Finset.insert_eq, Finset.union_comm]
      exact ⟨Finset.subset_union_left, subset_rfl⟩

variable {t : LocalipTable}

theorem keys_writeIp_of_room {s : Finset (BitVec 32)}
    (room : (t.keys ∪ s).card ≤ 256) (hs : (address text).toFinset ⊆ s) :
    (writeIp t text).keys = t.keys ∪ (address text).toFinset := by
  unfold writeIp
  unfold address at hs ⊢
  cases read : ipStringToNboUint (removeNetFromIp text) with
  | error _ => exact (Finset.union_empty _).symm
  | ok ip =>
    rw [read] at hs
    obtain ⟨t', written, -, -⟩ := Bounded.set_of_room room (hs (Finset.mem_singleton_self ip)) 0
    simp only [written, Option.getD_some]
    rw [Bounded.keys_of_set written, Finset.insert_eq, Finset.union_comm]
    rfl

theorem keys_dropIp (t : LocalipTable) (text : Text) :
    (dropIp t text).keys = t.keys \ (address text).toFinset := by
  unfold dropIp address
  cases ipStringToNboUint (removeNetFromIp text) with
  | error _ => exact (Finset.sdiff_empty).symm
  | ok ip =>
    simp only
    rw [Bounded.keys_getD_remove, Finset.erase_eq]
    rfl

variable {new localIps : List Text}

theorem mem_addIps : text ∈ (addIps new localIps t).1 ↔ text ∈ localIps ∨ text ∈ new := by
  induction new generalizing localIps t with
  | nil => simp [addIps]
  | cons x new ih =>
    unfold addIps
    split
    · rename_i noted
      rw [ih, List.mem_cons]
      constructor
      · rintro (h | h)
        · exact .inl h
        · exact .inr (.inr h)
      · rintro (h | rfl | h)
        · exact .inl h
        · exact .inl noted
        · exact .inr h
    · rw [ih, List.mem_cons, List.mem_cons]
      tauto

theorem addresses_filter_cons (x : Text) (new localIps : List Text) (noted : x ∉ localIps) :
    addresses ((x :: new).filter (· ∉ localIps)) =
      (address x).toFinset ∪ addresses (new.filter (· ∉ x :: localIps)) := by
  rw [List.filter_cons_of_pos (by simpa using noted), addresses_cons]
  ext ip
  simp only [Finset.mem_union, mem_addresses, List.mem_filter, decide_eq_true_eq, List.mem_cons,
    Option.mem_toFinset, Option.mem_def]
  constructor
  · rintro (h | ⟨text, ⟨hm, hn⟩, read⟩)
    · exact .inl h
    · by_cases same : text = x
      · exact .inl (same ▸ read)
      · exact .inr ⟨text, ⟨hm, not_or.2 ⟨same, hn⟩⟩, read⟩
  · rintro (h | ⟨text, ⟨hm, hn⟩, read⟩)
    · exact .inl h
    · exact .inr ⟨text, ⟨hm, (not_or.1 hn).2⟩, read⟩

theorem filter_cons_noted {x : Text} (noted : x ∈ localIps) :
    (x :: new).filter (· ∉ localIps) = new.filter (· ∉ localIps) :=
  List.filter_cons_of_neg (by simpa using noted)

theorem keys_addIps (new localIps : List Text) (t : LocalipTable) :
    t.keys ⊆ (addIps new localIps t).2.keys ∧
      (addIps new localIps t).2.keys ⊆ t.keys ∪ addresses (new.filter (· ∉ localIps)) := by
  induction new generalizing localIps t with
  | nil => exact ⟨subset_rfl, Finset.subset_union_left⟩
  | cons x new ih =>
    unfold addIps
    split
    · rename_i noted
      rw [filter_cons_noted noted]
      exact ih localIps t
    · rename_i noted
      obtain ⟨grows, bound⟩ := keys_writeIp t x
      obtain ⟨rest_grows, rest_bound⟩ := ih (x :: localIps) (writeIp t x)
      rw [addresses_filter_cons x new localIps noted, ← Finset.union_assoc]
      exact ⟨grows.trans rest_grows, rest_bound.trans (Finset.union_subset_union_left bound)⟩

theorem keys_addIps_of_room (room : (t.keys ∪ addresses (new.filter (· ∉ localIps))).card ≤ 256) :
    (addIps new localIps t).2.keys = t.keys ∪ addresses (new.filter (· ∉ localIps)) := by
  induction new generalizing localIps t with
  | nil => exact (Finset.union_empty _).symm
  | cons x new ih =>
    unfold addIps
    split
    · rename_i noted
      rw [filter_cons_noted noted] at room ⊢
      exact ih room
    · rename_i noted
      rw [addresses_filter_cons x new localIps noted] at room ⊢
      have written := keys_writeIp_of_room room Finset.subset_union_left
      rw [← Finset.union_assoc, ← written] at room ⊢
      exact ih room

theorem keys_removeIps (new localIps : List Text) (t : LocalipTable) :
    (removeIps new localIps t).2.keys = t.keys \ addresses (localIps.filter (· ∉ new)) := by
  induction localIps generalizing t with
  | nil => exact (Finset.sdiff_empty).symm
  | cons x localIps ih =>
    unfold removeIps
    split
    · rename_i gone
      rw [List.filter_cons_of_pos (by simpa using gone), ih, keys_dropIp, addresses_cons]
      exact sdiff_sdiff_left
    · rename_i stays
      rw [List.filter_cons_of_neg (by simpa using stays)]
      exact ih t

/-- The texts that are gone are among the noted ones before the first loop. -/
theorem addresses_gone (new localIps : List Text) (t : LocalipTable) :
    addresses ((addIps new localIps t).1.filter (· ∉ new)) =
      addresses (localIps.filter (· ∉ new)) := by
  ext ip
  simp only [mem_addresses, List.mem_filter, decide_eq_true_eq, mem_addIps]
  constructor
  · rintro ⟨text, ⟨hm, hn⟩, read⟩
    exact ⟨text, ⟨hm.resolve_right hn, hn⟩, read⟩
  · rintro ⟨text, ⟨hm, hn⟩, read⟩
    exact ⟨text, ⟨.inl hm, hn⟩, read⟩

theorem keys_update (s : ChainSelectors) (u : Update) :
    (s.update u).localip.keys =
      (addIps u.localipNew (s.localIps u.type) s.localip).2.keys \ addresses (s.gone u) := by
  unfold ChainSelectors.update updateLocalIps
  rw [keys_removeIps, addresses_gone]
  rfl

theorem keys_update_iff (s : ChainSelectors) (u : Update) :
    (s.update u).localip.keys = addresses u.localipNew ↔ Covered s u := by
  have ours : addresses (s.added u) ⊆ addresses u.localipNew :=
    addresses_mono fun _ h => (List.mem_filter.1 h).1
  obtain ⟨grows, bound⟩ := keys_addIps u.localipNew (s.localIps u.type) s.localip
  rw [keys_update, Bounded.sdiff_eq_iff ours grows bound]
  constructor
  · rintro ⟨full, gone, lacks, exceeds⟩
    have fits := (addIps u.localipNew (s.localIps u.type) s.localip).2.card_le
    rw [full] at fits
    exact ⟨fits, gone, lacks, exceeds⟩
  · rintro ⟨fits, gone, lacks, exceeds⟩
    exact ⟨keys_addIps_of_room fits, gone, lacks, exceeds⟩

theorem selectChain_input_iff {localip : BitVec 32 → Bool} {src dst : BitVec 32} :
    selectChain localip .ingress src dst = some .input ↔ localip dst = true := by
  unfold selectChain
  cases localip dst
  · exact iff_of_false (fun h => nomatch h) (by decide)
  · exact iff_of_true rfl rfl

theorem exact_iff (s : ChainSelectors) (u : Update) : Exact s u ↔ Covered s u := by
  rw [← keys_update_iff, Finset.ext_iff]
  have keys (ip : BitVec 32) := (s.update u).localip.mem_keys ip
  constructor
  · rintro ⟨right, -⟩ ip
    rw [keys, right, mem_addresses_new]
  · intro right
    have entries (ip : BitVec 32) : (s.update u).localip.entry ip ≠ none ↔ u.Local ip := by
      rw [← keys, right, mem_addresses_new]
    refine ⟨entries, fun src dst => ?_⟩
    rw [selectChain_input_iff, Option.isSome_iff_ne_none, entries]

/-- In every run of updates by the two programs, each leaves exactly the local addresses in the table
if and only if its condition is met. -/
theorem localIps_exact_iff (s : ChainSelectors) (updates : List Update) :
    Meets ChainSelectors.update Exact s updates ↔
      Meets ChainSelectors.update Covered s updates :=
  meets_congr (P := fun _ => True) (fun s u _ => exact_iff s u) (fun _ _ _ _ => trivial) trivial

def shorterPrefix : List Update :=
  [⟨.ingress, [.inet 0x0100000A (some 24)]⟩, ⟨.ingress, [.inet 0x0100000A (some 16)]⟩]

theorem not_localIps_exact_shorterPrefix :
    ¬ Meets ChainSelectors.update Exact .init shorterPrefix := by
  rintro ⟨-, ⟨right, -⟩, -⟩
  have lost : ((ChainSelectors.init.update ⟨.ingress, [.inet 0x0100000A (some 24)]⟩).update
      ⟨.ingress, [.inet 0x0100000A (some 16)]⟩).localip.entry 0x0100000A = none := by
    decide +kernel
  exact (right 0x0100000A).2 ⟨some 16, List.mem_singleton_self _⟩ lost

end Polycube.Iptables
