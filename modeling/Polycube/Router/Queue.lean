import Mathlib.Data.BitVec
import Polycube.Lib.Run
import Polycube.Lib.Table

/-!
# Packets that wait for an ARP reply

A packet whose next hop has no ARP entry is put in the circular buffer of that next hop, and an ARP
request is sent.  The buffer should have the packets that arrived last, as many as there is room
for, and a reply should send them, the oldest one first.  The code takes one packet out of the buffer
for a reply and leaves the others.
-/

namespace Polycube

open Lib
open Function (update_of_ne update_self)

namespace Router

/-! ### The circular buffer -/

structure Packet where
  dst : BitVec 48
  src : BitVec 48
  payload : List (BitVec 8)
  deriving DecidableEq

/-- `SIZE` -/
abbrev size : ℕ := 5

structure CircularBuffer where
  items : Fin size → Packet
  front : ℤ
  rear : ℤ

namespace CircularBuffer

def new : CircularBuffer := ⟨fun _ => ⟨0, 0, []⟩, -1, -1⟩

def slot (i : ℤ) : Option (Fin size) :=
  if h : 0 ≤ i ∧ i < size then some ⟨i.toNat, by omega⟩ else none

def isFull (b : CircularBuffer) : Bool :=
  (b.front = 0 ∧ b.rear = size - 1) || b.front = b.rear + 1

def isEmpty (b : CircularBuffer) : Bool := b.front = -1

/-- What `front` is when the element is written. -/
def frontFor (b : CircularBuffer) : ℤ :=
  let front := if b.isFull then b.front + 1 else b.front
  if front = -1 then 0 else front

/-- `none` is a write outside the array. -/
def enQueue (element : Packet) (b : CircularBuffer) : Option CircularBuffer :=
  let rear := (b.rear + 1).tmod size
  (slot rear).map fun i => ⟨Function.update b.items i element, b.frontFor, rear⟩

/-- The element and the buffer without it, if there is one; `none` is a read outside the array. -/
def deQueue (b : CircularBuffer) : Option (Option Packet × CircularBuffer) :=
  if b.isEmpty then some (none, b)
  else (slot b.front).map fun i =>
    (some (b.items i), if b.front = b.rear then { b with front := -1, rear := -1 }
      else { b with front := (b.front + 1).tmod size })

end CircularBuffer

inductive Sent
  | arpRequest (port : ℕ) (targetIp srcIp : BitVec 32) (srcMac : BitVec 48)
  | packet (port : ℕ) (frame : Packet)
  | toNamespace
  deriving DecidableEq

/-- `arp_request_map` -/
abbrev ArpRequestMap := Table (BitVec 32) CircularBuffer

/-- `SLOWPATH_ARP_LOOKUP_MISS` and `SLOWPATH_ARP_REPLY`, with the metadata.  A miss names the port
to leave by, which has an address if it still exists; a reply comes in by a port. -/
inductive SlowPath
  | lookupMiss (targetIp : BitVec 32) (index : ℕ) (srcIp : BitVec 32) (portOut : Option (BitVec 48))
      (packet : Packet)
  | arpReply (srcIp : BitVec 32) (port : ℕ) (reply : Packet)
  deriving DecidableEq

def Packet.answering (packet reply : Packet) : Packet :=
  { packet with src := reply.dst, dst := reply.src }

/-- `generate_arp_request`.  A port that does not exist throws before anything is done. -/
def generateArpRequest (targetIp : BitVec 32) (index : ℕ) (srcIp : BitVec 32)
    (portOut : Option (BitVec 48)) (packet : Packet) (m : ArpRequestMap) :
    Option (List Sent × ArpRequestMap) :=
  match portOut with
  | none => some ([], m)
  | some srcMac =>
    (((m targetIp).getD CircularBuffer.new).enQueue packet).map fun q =>
      ([.arpRequest index targetIp srcIp srcMac], Function.update m targetIp (some q))

/-- `generate_arp_reply` -/
def generateArpReply (shadow : Bool) (srcIp : BitVec 32) (port : ℕ) (reply : Packet)
    (m : ArpRequestMap) : Option (List Sent × ArpRequestMap) :=
  match m srcIp with
  | none => some (if shadow then [.toNamespace] else [], m)
  | some q =>
    if q.isEmpty then some ([], Function.update m srcIp none)
    else q.deQueue.map fun (packet, q) =>
      ((packet.map fun p => Sent.packet port (p.answering reply)).toList,
        Function.update m srcIp (if q.isEmpty then none else some q))

def packetIn (shadow : Bool) (m : ArpRequestMap) : SlowPath → Option (List Sent × ArpRequestMap)
  | .lookupMiss targetIp index srcIp portOut packet =>
    generateArpRequest targetIp index srcIp portOut packet m
  | .arpReply srcIp port reply => generateArpReply shadow srcIp port reply m

/-- A packet arrives in a queue with room for `size` packets; the oldest makes room. -/
def arrive (packet : Packet) (q : List Packet) : List Packet :=
  (q ++ [packet]).drop (q.length + 1 - size)

abbrev Waiting := BitVec 32 → List Packet

def Waiting.after (w : Waiting) : SlowPath → Waiting
  | .lookupMiss _ _ _ none _ => w
  | .lookupMiss targetIp _ _ (some _) packet =>
    Function.update w targetIp (arrive packet (w targetIp))
  | .arpReply srcIp _ _ => Function.update w srcIp []

def Waiting.sends (w : Waiting) (shadow : Bool) : SlowPath → List Sent
  | .lookupMiss _ _ _ none _ => []
  | .lookupMiss targetIp index srcIp (some srcMac) _ => [.arpRequest index targetIp srcIp srcMac]
  | .arpReply srcIp port reply =>
    match w srcIp with
    | [] => if shadow then [.toNamespace] else []
    | packet :: packets =>
      (packet :: packets).map fun p => .packet port (p.answering reply)

def place (f : Fin size) (i : ℕ) : Fin size := f + Fin.ofNat size i

/-- The indices are inside the array, and the buffer has these packets from `front` to `rear`. -/
inductive CircularBuffer.Holds (b : CircularBuffer) : List Packet → Prop
  | empty : b.front = -1 → b.rear = -1 → Holds b []
  | filled (f : Fin size) (q : List Packet) : q ≠ [] → q.length ≤ size → b.front = f.val →
      b.rear = (place f (q.length - 1)).val →
      (∀ i (h : i < q.length), b.items (place f i) = q[i]) → Holds b q

def InOrder (m : ArpRequestMap) (w : Waiting) : Prop :=
  ∀ ip, match m ip with
    | none => w ip = []
    | some b => w ip ≠ [] ∧ b.Holds (w ip)

/-- From here on every event finds and leaves the packets in order, and sends the right ones. -/
def Fifo (shadow : Bool) : ArpRequestMap → Waiting → List SlowPath → Prop
  | m, w, [] => InOrder m w
  | m, w, e :: es => InOrder m w ∧ ∃ m', packetIn shadow m e = some (w.sends shadow e, m') ∧
      Fifo shadow m' (w.after e) es

def CircularBuffer.overruns (b : CircularBuffer) : Bool := b.isFull && b.front = size - 1

/-- A packet that misses is not put where the buffer overruns, and a reply finds one packet at
most. -/
def Room (m : ArpRequestMap) : SlowPath → Prop
  | .lookupMiss _ _ _ none _ => True
  | .lookupMiss targetIp _ _ (some _) _ => ∀ b ∈ m targetIp, b.overruns = false
  | .arpReply srcIp _ _ => ∀ b ∈ m srcIp, b.front = b.rear

instance (m : ArpRequestMap) : ∀ e, Decidable (Room m e)
  | .lookupMiss _ _ _ none _ => inferInstanceAs (Decidable True)
  | .lookupMiss targetIp _ _ (some _) _ =>
    inferInstanceAs (Decidable (∀ b ∈ m targetIp, b.overruns = false))
  | .arpReply srcIp _ _ => inferInstanceAs (Decidable (∀ b ∈ m srcIp, b.front = b.rear))

theorem place_val (f : Fin size) (i : ℕ) : (place f i).val = (f.val + i) % size := by
  unfold place
  rw [Fin.val_add, Fin.val_ofNat, Nat.add_mod_mod]

@[simp] theorem place_zero (f : Fin size) : place f 0 = f := by
  apply Fin.ext
  rw [place_val, Nat.add_zero, Nat.mod_eq_of_lt f.isLt]

theorem place_place_one (f : Fin size) (i : ℕ) : place (place f 1) i = place f (i + 1) := by
  apply Fin.ext
  rw [place_val, place_val, place_val, Nat.mod_add_mod]
  congr 1
  omega

theorem place_ne (f : Fin size) {i j : ℕ} (hi : i < size) (hj : j < size) (ne : i ≠ j) :
    place f i ≠ place f j := by
  intro same
  have val := congrArg Fin.val same
  rw [place_val, place_val] at val
  unfold size at *
  omega

namespace CircularBuffer

variable {b : CircularBuffer} {q : List Packet}

theorem slot_val (f : Fin size) : slot f.val = some f := by
  unfold slot
  rw [dif_pos ⟨Int.natCast_nonneg _, Int.ofNat_lt.2 f.isLt⟩]
  rfl

theorem tmod_succ (f : Fin size) : ((f.val : ℤ) + 1).tmod size = (place f 1).val := by
  rw [Int.tmod_eq_emod_of_nonneg (by omega), place_val]
  rfl

theorem Holds.inside (h : b.Holds q) : b.front < size := by
  cases h with
  | empty front rear =>
    rw [front]
    decide
  | filled f q ne len front rear items =>
    rw [front]
    exact Int.ofNat_lt.2 f.isLt

theorem Holds.isEmpty_iff (h : b.Holds q) : b.isEmpty = true ↔ q = [] := by
  unfold isEmpty
  rw [decide_eq_true_iff]
  cases h with
  | empty front rear => exact iff_of_true front rfl
  | filled f q ne len front rear items => exact iff_of_false (by omega) ne

theorem Holds.isFull_iff (h : b.Holds q) : b.isFull = true ↔ q.length = size := by
  unfold isFull
  rw [Bool.or_eq_true, decide_eq_true_iff, decide_eq_true_iff]
  cases h with
  | empty front rear =>
    rw [front, rear]
    decide
  | filled f q ne len front rear items =>
    have pos : 0 < q.length := List.length_pos_of_ne_nil ne
    have inside := f.isLt
    rw [front, rear, place_val]
    unfold size at *
    omega

theorem Holds.single_iff {x : Packet} (h : b.Holds (x :: q)) : b.front = b.rear ↔ q = [] := by
  cases h with
  | filled f q' ne len front rear items =>
    rw [front, rear, List.length_cons, Nat.add_sub_cancel, ← List.length_eq_zero_iff]
    rw [List.length_cons] at len
    constructor
    · intro same
      by_contra some
      refine place_ne f (Nat.zero_lt_succ _ : 0 < size) (by omega) (Ne.symm some) ?_
      rw [place_zero]
      exact Fin.ext (Int.ofNat.inj same)
    · intro none
      rw [none, place_zero]

theorem frontFor_of_full (full : b.isFull = true) (nonneg : 0 ≤ b.front) :
    b.frontFor = b.front + 1 := by
  unfold frontFor
  rw [full, if_pos rfl, if_neg (by omega)]

theorem frontFor_of_not_full (full : b.isFull = false) :
    b.frontFor = if b.front = -1 then 0 else b.front := by
  unfold frontFor
  rw [full, if_neg Bool.false_ne_true]

theorem enQueue_eq {r : Fin size} (rear : b.rear = r.val) (x : Packet) :
    b.enQueue x =
      some ⟨Function.update b.items (place r 1) x, b.frontFor, (place r 1).val⟩ := by
  unfold enQueue
  dsimp only
  rw [rear, tmod_succ, slot_val]
  rfl

/-- The packets of a buffer and one more behind them, while there is room. -/
theorem items_concat {f : Fin size} (items : ∀ i (h : i < q.length), b.items (place f i) = q[i])
    (room : q.length < size) (x : Packet) (i : ℕ) (h : i < (q ++ [x]).length) :
    Function.update b.items (place f q.length) x (place f i) = (q ++ [x])[i] := by
  rw [List.length_append, List.length_singleton] at h
  by_cases old : i < q.length
  · rw [List.getElem_append_left old, update_of_ne, items]
    exact place_ne f (by omega) room (by omega)
  · obtain rfl : i = q.length := by omega
    rw [update_self, List.getElem_concat_length rfl]

/-- A packet is written behind the others, and over the oldest if there is no room. -/
theorem Holds.enQueue (h : b.Holds q) (ok : b.overruns = false) (x : Packet) :
    ∃ b', b.enQueue x = some b' ∧ b'.Holds (arrive x q) := by
  have full := h.isFull_iff
  cases h with
  | empty front rear =>
    have notFull : b.isFull = false := Bool.eq_false_iff.2 (full.not.2 (by decide))
    have first : b.enQueue x = some ⟨Function.update b.items 0 x, 0, 0⟩ := by
      unfold CircularBuffer.enQueue
      rw [rear, frontFor_of_not_full notFull, front]
      rfl
    refine ⟨_, first, .filled 0 [x] (List.cons_ne_nil _ _) ?_ rfl rfl fun i hi => ?_⟩
    · exact (by decide : 1 ≤ size)
    · obtain rfl : i = 0 := by
        rw [List.length_singleton] at hi
        omega
      exact update_self (0 : Fin size) x b.items
  | filled f q ne len front rear items =>
    have pos : 0 < q.length := List.length_pos_of_ne_nil ne
    have behind : place (place f (q.length - 1)) 1 = place f q.length := by
      apply Fin.ext
      rw [place_val, place_val, place_val, Nat.mod_add_mod]
      congr 1
      omega
    refine ⟨_, enQueue_eq rear x, ?_⟩
    rw [behind]
    unfold arrive
    by_cases all : q.length = size
    · -- the oldest packet is overwritten, and the first one is in the next slot
      have later : f.val + 1 < size := by
        by_contra last
        have inside := f.isLt
        have overruns : b.overruns = true := by
          unfold overruns
          rw [full.2 all, front, Bool.true_and, decide_eq_true_iff]
          omega
        exact absurd (ok.symm.trans overruns) Bool.false_ne_true
      obtain ⟨old, q, rfl⟩ := List.exists_cons_of_ne_nil ne
      have one : (old :: q).length + 1 - size = 1 := by omega
      have next : (place f 1).val = f.val + 1 := by
        rw [place_val, Nat.mod_eq_of_lt later]
      have left : q.length < size := by
        rw [List.length_cons] at all
        omega
      have rest : ∀ i (h : i < q.length), b.items (place (place f 1) i) = q[i] := by
        intro i hi
        rw [place_place_one, items (i + 1) (by simpa using hi)]
        rfl
      have last : place (place f 1) q.length = place f (old :: q).length := place_place_one f _
      rw [one, List.cons_append, List.drop_succ_cons, List.drop_zero, ← last]
      refine .filled (place f 1) (q ++ [x]) (by simp) ?_ ?_ ?_ (items_concat rest left x)
      · rw [List.length_append, List.length_singleton]
        omega
      · rw [frontFor_of_full (full.2 all) (by omega), front, next]
        rfl
      · rw [List.length_append, List.length_singleton, Nat.add_sub_cancel]
    · have notFull : b.isFull = false := Bool.eq_false_iff.2 (full.not.2 all)
      have none : q.length + 1 - size = 0 := by omega
      rw [none, List.drop_zero]
      refine .filled f (q ++ [x]) (by simp) ?_ ?_ ?_ (items_concat items (by omega) x)
      · rw [List.length_append, List.length_singleton]
        omega
      · rw [frontFor_of_not_full notFull, front, if_neg (by omega)]
      · rw [List.length_append, List.length_singleton, Nat.add_sub_cancel]

/-- In a buffer that overruns the index of the first packet leaves the array. -/
theorem not_holds_of_overruns (past : b.overruns = true) (x : Packet) {b' : CircularBuffer}
    (h : b.enQueue x = some b') (q : List Packet) : ¬ b'.Holds q := by
  unfold overruns at past
  rw [Bool.and_eq_true, decide_eq_true_iff] at past
  obtain ⟨full, last⟩ := past
  have front : b'.front = size := by
    unfold enQueue at h
    obtain ⟨i, -, rfl⟩ := Option.map_eq_some_iff.1 h
    rw [frontFor_of_full full (by rw [last]; decide), last]
    rfl
  intro holds
  have inside := holds.inside
  rw [front] at inside
  exact lt_irrefl _ inside

theorem Holds.deQueue {x : Packet} (h : b.Holds (x :: q)) :
    ∃ b', b.deQueue = some (some x, b') ∧ b'.Holds q := by
  have notEmpty : b.isEmpty = false := Bool.eq_false_iff.2 (h.isEmpty_iff.not.2 (by simp))
  cases h with
  | filled f q' ne len front rear items =>
    have first : b.items f = x := by
      have := items 0 (by simp)
      rwa [place_zero] at this
    unfold CircularBuffer.deQueue
    rw [notEmpty, if_neg Bool.false_ne_true, front, slot_val, Option.map_some, first, rear,
      List.length_cons, Nat.add_sub_cancel]
    refine ⟨_, rfl, ?_⟩
    cases q with
    | nil =>
      rw [List.length_nil, place_zero, if_pos rfl]
      exact .empty rfl rfl
    | cons y q =>
      rw [List.length_cons, List.length_cons] at len
      have other : (f.val : ℤ) ≠ (place f (y :: q).length).val := by
        have ne := place_ne f (i := 0) (j := (y :: q).length) (by omega) (by simp; omega) (by simp)
        rw [place_zero] at ne
        intro same
        exact ne (Fin.ext (Int.ofNat.inj same))
      rw [if_neg other, tmod_succ]
      refine .filled (place f 1) _ (List.cons_ne_nil _ _) ?_ rfl ?_ fun i hi => ?_
      · rw [List.length_cons]
        omega
      · rw [place_place_one, List.length_cons, Nat.add_sub_cancel]
      · rw [place_place_one, items (i + 1) (by simpa using hi)]
        rfl

end CircularBuffer

/-! ### Runs -/

variable {shadow : Bool} {m m' : ArpRequestMap} {w : Waiting} {e : SlowPath}

theorem holds_new : CircularBuffer.new.Holds [] := .empty rfl rfl

theorem arrive_ne_nil (packet : Packet) (q : List Packet) : arrive packet q ≠ [] := by
  unfold arrive
  rw [Ne, List.drop_eq_nil_iff, List.length_append, List.length_singleton]
  unfold size
  omega

theorem InOrder.holds (h : InOrder m w) (ip : BitVec 32) :
    ((m ip).getD CircularBuffer.new).Holds (w ip) := by
  have here := h ip
  cases found : m ip with
  | none =>
    rw [found] at here
    rw [here]
    exact holds_new
  | some b =>
    rw [found] at here
    exact here.2

theorem InOrder.update (h : InOrder m w) (ip : BitVec 32) {b : Option CircularBuffer}
    {q : List Packet} (here : match b with | none => q = [] | some b => q ≠ [] ∧ b.Holds q) :
    InOrder (Function.update m ip b) (Function.update w ip q) := by
  intro ip'
  by_cases same : ip' = ip
  · rw [same, update_self, update_self]
    exact here
  · rw [update_of_ne same, update_of_ne same]
    exact h ip'

theorem Room.getD {targetIp srcIp : BitVec 32} {index : ℕ} {srcMac : BitVec 48} {packet : Packet}
    (room : Room m (.lookupMiss targetIp index srcIp (some srcMac) packet)) :
    ((m targetIp).getD CircularBuffer.new).overruns = false := by
  cases found : m targetIp with
  | none => rfl
  | some b => exact room b found

/-- A reply takes the oldest packet. -/
theorem InOrder.arpReply (h : InOrder m w) (shadow : Bool) {srcIp : BitVec 32} (port : ℕ)
    (reply : Packet) {b : CircularBuffer} (found : m srcIp = some b) :
    ∃ x q m', w srcIp = x :: q ∧ (b.front = b.rear ↔ q = []) ∧
      packetIn shadow m (.arpReply srcIp port reply) =
        some ([.packet port (x.answering reply)], m') ∧
      InOrder m' (Function.update w srcIp q) := by
  have here := h srcIp
  rw [found] at here
  obtain ⟨ne, holds⟩ := here
  have notEmpty : b.isEmpty = false := Bool.eq_false_iff.2 (holds.isEmpty_iff.not.2 ne)
  obtain ⟨x, q, waiting⟩ := List.exists_cons_of_ne_nil ne
  rw [waiting] at holds
  obtain ⟨b', taken, holds'⟩ := holds.deQueue
  refine ⟨x, q, Function.update m srcIp (if b'.isEmpty then none else some b'), waiting,
    holds.single_iff, ?_, h.update srcIp ?_⟩
  · unfold Router.packetIn generateArpReply
    dsimp only
    rw [found]
    dsimp only
    rw [notEmpty, if_neg Bool.false_ne_true, taken]
    rfl
  · by_cases last : q = []
    · rw [if_pos (holds'.isEmpty_iff.2 last)]
      exact last
    · rw [if_neg (holds'.isEmpty_iff.not.2 last)]
      exact ⟨last, holds'⟩

theorem InOrder.packetIn (h : InOrder m w) (shadow : Bool) (room : Room m e) :
    ∃ m', packetIn shadow m e = some (w.sends shadow e, m') ∧ InOrder m' (w.after e) := by
  cases e with
  | lookupMiss targetIp index srcIp portOut packet =>
    cases portOut with
    | none => exact ⟨m, rfl, h⟩
    | some srcMac =>
      obtain ⟨b', put, holds⟩ := (h.holds targetIp).enQueue room.getD packet
      refine ⟨Function.update m targetIp (some b'), ?_,
        h.update targetIp ⟨arrive_ne_nil _ _, holds⟩⟩
      unfold Router.packetIn generateArpRequest
      dsimp only
      rw [put]
      rfl
  | arpReply srcIp port reply =>
    unfold Waiting.sends Waiting.after
    cases found : m srcIp with
    | none =>
      have here := h srcIp
      rw [found] at here
      refine ⟨m, ?_, ?_⟩
      · unfold Router.packetIn generateArpReply
        dsimp only at here ⊢
        rw [found, here]
      · dsimp only at here ⊢
        rw [← here, Function.update_eq_self]
        exact h
    | some b =>
      obtain ⟨x, q, m', waiting, single, does, inOrder⟩ := h.arpReply shadow port reply found
      obtain rfl := single.1 (room b found)
      refine ⟨m', ?_, inOrder⟩
      dsimp only
      rw [does, waiting]
      rfl

/-- Where there is no room, a packet leaves the array or a packet stays behind a reply. -/
theorem InOrder.room (h : InOrder m w)
    (does : Router.packetIn shadow m e = some (w.sends shadow e, m'))
    (inOrder : InOrder m' (w.after e)) : Room m e := by
  cases e with
  | lookupMiss targetIp index srcIp portOut packet =>
    cases portOut with
    | none => exact trivial
    | some srcMac =>
      intro b found
      by_contra past
      unfold Router.packetIn generateArpRequest at does
      dsimp only at does
      rw [show m targetIp = some b from found, Option.getD_some] at does
      obtain ⟨b', put, same⟩ := Option.map_eq_some_iff.1 does
      obtain ⟨-, rfl⟩ := Prod.mk.inj same
      have here := inOrder targetIp
      rw [update_self] at here
      exact CircularBuffer.not_holds_of_overruns (Bool.eq_true_of_not_eq_false past) packet put _
        here.2
  | arpReply srcIp port reply =>
    intro b found
    obtain ⟨x, q, m'', waiting, single, does', -⟩ := h.arpReply shadow port reply found
    rw [does', Option.some.injEq, Prod.mk.injEq] at does
    -- as many packets are sent as wait
    have one := congrArg List.length does.1
    unfold Waiting.sends at one
    dsimp only at one
    rw [waiting, List.length_singleton, List.length_map, List.length_cons] at one
    exact single.2 (List.length_eq_zero_iff.1 (by omega))

theorem Fifo.inOrder {es : List SlowPath} (h : Fifo shadow m w es) : InOrder m w := by
  cases es with
  | nil => exact h
  | cons e es => exact h.1

end Router

end Polycube
