import Polycube.Lib.Run
import Polycube.Lib.Slots

/-!
# Packets from the controller

`Controller::send_packet_to_cube` puts the metadata of a packet in a slot of `md_map_rx` and sends
the packet on an interface; the decapsulator, which receives it there, takes the slot whose turn it
is.  Calls run in several threads and the decapsulator on several CPUs, so both are split into the
steps that can come between each other.  The packets are their calls: nothing in a packet says which
slot is its own.
-/

namespace Polycube.Polycubed

open Lib

inductive Direction
  | ingress | egress
  deriving DecidableEq

inductive ControllerType
  | tc | xdp
  deriving DecidableEq

structure SendCall where
  moduleIndex : BitVec 16
  isNetdev : Bool
  portId : BitVec 16
  direction : Direction
  deriving DecidableEq

structure Metadata where
  moduleIndex : BitVec 16
  isNetdev : BitVec 8
  portId : BitVec 16
  flags : BitVec 32
  deriving DecidableEq

/-- Where the decapsulator takes a packet: out of a device, up the stack, or to a program with an
input port and, in TC, the flags in `cb[2]`. -/
inductive Delivery
  | redirect (ifindex : BitVec 16)
  | stack
  | call (moduleIndex inPort : BitVec 16) (flags : Option (BitVec 32))
  deriving DecidableEq

def mdMapSize : ℕ := 1024

def mdPktFromController : BitVec 32 := 1#32
def mdEgressContext : BitVec 32 := 2#32

/-- `md_temp` -/
def SendCall.metadata (c : SendCall) : Metadata where
  moduleIndex := c.moduleIndex
  isNetdev := if c.isNetdev then 1#8 else 0#8
  portId := c.portId
  flags :=
    if c.direction = .egress then mdPktFromController ||| mdEgressContext else mdPktFromController

def ControllerType.context (type : ControllerType) (flags : BitVec 32) : Option (BitVec 32) :=
  match type with
  | .tc => some flags
  | .xdp => none

def SendCall.destination (type : ControllerType) (c : SendCall) : Delivery :=
  if c.isNetdev then .redirect c.moduleIndex
  else if c.moduleIndex = 0xffff#16 then
    match c.direction with
    | .egress => .redirect c.portId
    | .ingress => .stack
  else .call c.moduleIndex c.portId (type.context c.metadata.flags)

/-- `controller_module_rx`, from the metadata on.  The map of the XDP one has no flags. -/
def Metadata.deliver (type : ControllerType) (md : Metadata) : Delivery :=
  if md.isNetdev ≠ 0#8 then .redirect md.moduleIndex
  else if md.moduleIndex = 0xffff#16 then
    match type with
    | .tc => if md.flags &&& mdEgressContext ≠ 0#32 then .redirect md.portId else .stack
    | .xdp => .stack
  else .call md.moduleIndex md.portId (type.context md.flags)

/-- XDP has no way out of a device for a packet without a next program. -/
def SendCall.Fits (type : ControllerType) (c : SendCall) : Prop :=
  type = .tc ∨ c.isNetdev = true ∨ c.moduleIndex ≠ 0xffff#16 ∨ c.direction = .ingress

structure Controller where
  /-- `ctrl_rx_md_index_` -/
  index : ℕ
  mdMapRx : ℕ → Metadata
  /-- `index_map_rx` -/
  indexRx : ℕ
  /-- calls that have begun, that have incremented the index, that have wrapped it, and that have
  written their metadata -/
  called : List SendCall
  incremented : List SendCall
  wrapped : List SendCall
  written : List SendCall
  /-- packets on the interface, and in a decapsulator before and behind its index -/
  sent : List SendCall
  received : List SendCall
  indexed : List (SendCall × ℕ)
  delivered : List (SendCall × Delivery)

namespace Controller

def init (md : ℕ → Metadata) : Controller := ⟨0, md, 0, [], [], [], [], [], [], [], []⟩

inductive Event
  | call (c : SendCall)
  | increment (i : ℕ)
  | wrap (i : ℕ)
  | write (i : ℕ)
  | send (i : ℕ)
  | lose (i : ℕ)
  | receive (i : ℕ)
  | takeIndex (i : ℕ)
  | deliver (i : ℕ)
  deriving DecidableEq

variable (type : ControllerType)

def step (s : Controller) : Event → Controller
  | .call c => { s with called := s.called ++ [c] }
  | .increment i =>
    match s.called[i]? with
    | none => s
    | some c => { s with
      called := s.called.eraseIdx i
      incremented := s.incremented ++ [c]
      index := s.index + 1 }
  | .wrap i =>
    match s.incremented[i]? with
    | none => s
    | some c => { s with
      incremented := s.incremented.eraseIdx i
      wrapped := s.wrapped ++ [c]
      index := s.index % mdMapSize }
  | .write i =>
    match s.wrapped[i]? with
    | none => s
    | some c => { s with
      wrapped := s.wrapped.eraseIdx i
      written := s.written ++ [c]
      -- an index past the map is refused
      mdMapRx := if s.index < mdMapSize then Function.update s.mdMapRx s.index c.metadata
        else s.mdMapRx }
  | .send i =>
    match s.written[i]? with
    | none => s
    | some c => { s with
      written := s.written.eraseIdx i
      sent := s.sent ++ [c] }
  | .lose i => { s with sent := s.sent.eraseIdx i }
  | .receive i =>
    match s.sent[i]? with
    | none => s
    | some c => { s with
      sent := s.sent.eraseIdx i
      received := s.received ++ [c] }
  | .takeIndex i =>
    match s.received[i]? with
    | none => s
    | some c => { s with
      received := s.received.eraseIdx i
      indexed := s.indexed ++ [(c, (s.indexRx + 1) % mdMapSize)]
      indexRx := (s.indexRx + 1) % mdMapSize }
  | .deliver i =>
    match s.indexed[i]? with
    | none => s
    | some (c, slot) => { s with
      indexed := s.indexed.eraseIdx i
      delivered := s.delivered ++ [(c, (s.mdMapRx slot).deliver type)] }

def OwnMetadata (s : Controller) : Prop :=
  ∀ e ∈ s.delivered, e.2 = e.1.destination type

/-- A step is in turn: an index is moved and its metadata written before the next call moves it, the
slot written is that of no packet on its way, packets are sent, received and given their indices in
the order of the writes, and none is lost. -/
def InTurn (s : Controller) : Event → Prop
  | .call c => c.Fits type
  | .increment _ => s.incremented = [] ∧ s.wrapped = []
  | .write _ => s.written.length + s.sent.length + s.received.length < mdMapSize ∧
      ∀ e ∈ s.indexed, e.2 ≠ s.index
  | .send i => i = 0
  | .lose _ => False
  | .receive i => i = 0
  | .takeIndex i => i = 0
  | .wrap _ | .deliver _ => True

/-- The metadata of a call lead where it asks for, unless XDP is to send a packet out that has no
next program. -/
theorem deliver_metadata_iff (type : ControllerType) (c : SendCall) :
    c.metadata.deliver type = c.destination type ↔ c.Fits type := by
  obtain ⟨module, netdev, port, dir⟩ := c
  by_cases none : module = 0xffff#16
  · subst none
    cases netdev <;> cases type <;> cases dir <;>
      simp [SendCall.metadata, Metadata.deliver, SendCall.destination, SendCall.Fits,
        mdPktFromController, mdEgressContext]
  · cases netdev <;>
      simp [SendCall.metadata, Metadata.deliver, SendCall.destination, SendCall.Fits, none]

/-! ### Taking turns -/

section Turns

variable {type : ControllerType} {s : Controller} {n i : ℕ}

/-- The calls whose metadata wait for their packets, by the order of the writes. -/
def waiting (s : Controller) : List SendCall := s.received ++ s.sent ++ s.written

def outstanding (s : Controller) : List SendCall :=
  s.called ++ s.incremented ++ s.wrapped ++ s.waiting ++ s.indexed.map Prod.fst

/-- The two indices go round in step.  The decapsulator has taken `n` indices. -/
structure Ordered (type : ControllerType) (s : Controller) (n : ℕ) : Prop where
  reader : s.indexRx = n % mdMapSize
  slots : Holds mdMapSize s.mdMapRx n (s.waiting.map SendCall.metadata)
  one : s.incremented.length + s.wrapped.length ≤ 1
  writer : s.index % mdMapSize =
    (n + s.waiting.length + s.incremented.length + s.wrapped.length) % mdMapSize
  valid : s.incremented = [] → s.index < mdMapSize
  taken : ∀ e ∈ s.indexed, s.mdMapRx e.2 = e.1.metadata
  fits : ∀ c ∈ s.outstanding, c.Fits type
  own : s.OwnMetadata type

theorem ordered_init (md : ℕ → Metadata) : Ordered type (init md) 0 where
  reader := rfl
  slots := .nil
  one := by simp [init]
  writer := rfl
  valid := fun _ => by simp [init, mdMapSize]
  taken := by simp [init]
  fits := by simp [outstanding, waiting, init]
  own := by simp [OwnMetadata, init]

theorem outstanding_step {e : Event} {x : SendCall} (hx : x ∈ (s.step type e).outstanding) :
    x ∈ s.outstanding ∨ e = .call x := by
  have erased := @List.mem_of_mem_eraseIdx SendCall
  have taken := @List.mem_of_mem_eraseIdx (SendCall × ℕ)
  have found := @List.mem_of_getElem? SendCall
  cases e <;> simp only [step] at hx <;> (try split at hx) <;>
    simp only [outstanding, waiting, List.mem_append, List.mem_map] at hx ⊢ <;> grind

theorem Ordered.fits_step (h : Ordered type s n) {e : Event} (turn : s.InTurn type e) :
    ∀ c ∈ (s.step type e).outstanding, c.Fits type := by
  intro c hc
  rcases outstanding_step hc with old | rfl
  · exact h.fits c old
  · exact turn

theorem Ordered.call (h : Ordered type s n) {c : SendCall} (turn : s.InTurn type (.call c)) :
    Ordered type (s.step type (.call c)) n :=
  { h with fits := h.fits_step turn }

theorem Ordered.increment (h : Ordered type s n) (turn : s.InTurn type (.increment i)) :
    Ordered type (s.step type (.increment i)) n := by
  have fits := h.fits_step turn
  obtain ⟨noIncremented, noWrapped⟩ := turn
  cases hc : s.called[i]? with
  | none => simpa only [step, hc] using h
  | some c =>
    simp only [step, hc] at fits ⊢
    have writer := h.writer
    simp only [noIncremented, noWrapped, List.length_nil, Nat.add_zero] at writer
    refine { h with fits := fits, one := ?_, writer := ?_, valid := ?_ }
    · simp [noIncremented, noWrapped]
    · simp only [noIncremented, noWrapped]
      exact Nat.ModEq.add_right 1 writer
    · simp

theorem Ordered.wrap (h : Ordered type s n) : Ordered type (s.step type (.wrap i)) n := by
  have fits := h.fits_step (e := .wrap i) trivial
  cases hc : s.incremented[i]? with
  | none => simpa only [step, hc] using h
  | some c =>
    simp only [step, hc] at fits ⊢
    have here : i < s.incremented.length := (List.getElem?_eq_some_iff.1 hc).1
    have one := h.one
    refine { h with fits := fits, one := ?_, writer := ?_, valid := fun _ => ?_ }
    · simp only [List.length_eraseIdx_of_lt here, List.length_append, List.length_singleton]
      omega
    · simp only [List.length_eraseIdx_of_lt here, List.length_append, List.length_singleton]
      rw [Nat.mod_mod, h.writer]
      congr 1
      change _ = n + s.waiting.length + _ + _
      omega
    · exact Nat.mod_lt _ (by decide)

theorem Ordered.write (h : Ordered type s n) (turn : s.InTurn type (.write i)) :
    Ordered type (s.step type (.write i)) n := by
  have fits := h.fits_step turn
  obtain ⟨room, free⟩ := turn
  cases hc : s.wrapped[i]? with
  | none => simpa only [step, hc] using h
  | some c =>
    simp only [step, hc] at fits ⊢
    have here : i < s.wrapped.length := (List.getElem?_eq_some_iff.1 hc).1
    have one := h.one
    have noIncremented : s.incremented = [] := List.length_eq_zero_iff.1 (by omega)
    have valid := h.valid noIncremented
    have next : s.index = (n + s.waiting.length + 1) % mdMapSize := by
      rw [← Nat.mod_eq_of_lt valid, h.writer, noIncremented]
      congr 1
      simp only [List.length_nil]
      omega
    rw [if_pos valid] at fits ⊢
    have more : s.received ++ s.sent ++ (s.written ++ [c]) = s.waiting ++ [c] := by
      simp [waiting]
    refine { h with fits := fits, slots := ?_, one := ?_, writer := ?_, taken := ?_ }
    · change Holds _ _ n ((s.received ++ s.sent ++ (s.written ++ [c])).map SendCall.metadata)
      have pushed := h.slots.push (x := c.metadata) (by simp [waiting]; omega)
      rw [List.length_map, ← next] at pushed
      rw [more, List.map_append]
      exact pushed
    · simp only [List.length_eraseIdx_of_lt here]
      omega
    · have := h.writer
      simp only [waiting, more, List.length_eraseIdx_of_lt here, List.length_append,
        List.length_singleton] at this ⊢
      rw [this]
      congr 1
      omega
    · intro e he
      dsimp only
      rw [Function.update_of_ne (free e he)]
      exact h.taken e he

/-- Sending and receiving the first leave the packets that wait in their order. -/
theorem Ordered.moved (h : Ordered type s n) {s' : Controller} (same : s'.waiting = s.waiting)
    (fits : ∀ c ∈ s'.outstanding, c.Fits type)
    (rest : s' = { s with received := s'.received, sent := s'.sent, written := s'.written }) :
    Ordered type s' n := by
  rw [rest] at same fits ⊢
  refine { h with fits := fits, slots := ?_, writer := ?_ }
  · rw [same]
    exact h.slots
  · rw [same]
    exact h.writer

theorem Ordered.send (h : Ordered type s n) (turn : s.InTurn type (.send i)) :
    Ordered type (s.step type (.send i)) n := by
  have fits := h.fits_step turn
  cases hw : s.written with
  | nil => simpa [step, hw] using h
  | cons c w =>
    refine h.moved ?_ fits ?_
    · simp [step, waiting, hw, show i = 0 from turn]
    · simp [step, hw, show i = 0 from turn]

theorem Ordered.receive (h : Ordered type s n) (turn : s.InTurn type (.receive i)) :
    Ordered type (s.step type (.receive i)) n := by
  have fits := h.fits_step turn
  cases hw : s.sent with
  | nil => simpa [step, hw] using h
  | cons c w =>
    refine h.moved ?_ fits ?_
    · simp [step, waiting, hw, show i = 0 from turn]
    · simp [step, hw, show i = 0 from turn]

theorem Ordered.takeIndex (h : Ordered type s n) (turn : s.InTurn type (.takeIndex i)) :
    ∃ n', Ordered type (s.step type (.takeIndex i)) n' := by
  have fits := h.fits_step turn
  cases hr : s.received with
  | nil => exact ⟨n, by simpa [step, hr] using h⟩
  | cons c r =>
    obtain rfl : i = 0 := turn
    simp only [step, hr, List.getElem?_cons_zero, List.eraseIdx_cons_zero] at fits ⊢
    have slots := h.slots
    have writer := h.writer
    have waits : s.waiting = c :: (r ++ s.sent ++ s.written) := by simp [waiting, hr]
    rw [waits] at slots writer
    have reader : (s.indexRx + 1) % mdMapSize = (n + 1) % mdMapSize := by
      rw [h.reader, Nat.mod_add_mod]
    refine ⟨n + 1, { h with
      fits := fits, reader := reader, slots := slots.tail, writer := ?_, taken := ?_ }⟩
    · simp only [waiting, List.length_cons] at writer ⊢
      rw [writer]
      congr 1
      omega
    · intro e he
      rcases List.mem_append.1 he with old | new
      · exact h.taken e old
      · rw [List.mem_singleton.1 new]
        rw [reader]
        exact slots.head

theorem Ordered.deliver (h : Ordered type s n) : Ordered type (s.step type (.deliver i)) n := by
  have fits := h.fits_step (e := .deliver i) trivial
  cases hc : s.indexed[i]? with
  | none => simpa only [step, hc] using h
  | some p =>
    obtain ⟨c, slot⟩ := p
    simp only [step, hc] at fits ⊢
    have here := List.mem_of_getElem? hc
    refine { h with fits := fits, taken := fun e he => ?_, own := fun e he => ?_ }
    · exact h.taken e (List.mem_of_mem_eraseIdx he)
    · rcases List.mem_append.1 he with old | new
      · exact h.own e old
      · rw [List.mem_singleton.1 new]
        rw [h.taken _ here]
        refine (deliver_metadata_iff type c).2 (h.fits c ?_)
        exact List.mem_append_right _ (List.mem_map_of_mem here)

theorem Ordered.step (h : Ordered type s n) {e : Event} (turn : s.InTurn type e) :
    ∃ n', Ordered type (s.step type e) n' := by
  cases e with
  | call => exact ⟨n, h.call turn⟩
  | increment => exact ⟨n, h.increment turn⟩
  | wrap => exact ⟨n, h.wrap⟩
  | write => exact ⟨n, h.write turn⟩
  | send => exact ⟨n, h.send turn⟩
  | lose => exact turn.elim
  | receive => exact ⟨n, h.receive turn⟩
  | takeIndex => exact h.takeIndex turn
  | deliver => exact ⟨n, h.deliver⟩

end Turns

/-- While the steps are taken in turn, every packet is taken to where its own call asked for. -/
theorem run_ownMetadata (type : ControllerType) (md : ℕ → Metadata) (events : List Event)
    (turns : Meets (step type) (InTurn type) (init md) events) :
    OwnMetadata type (run (step type) (init md) events) := by
  have keep : ∀ s e, (∃ n, Ordered type s n) → InTurn type s e →
      ∃ n, Ordered type (step type s e) n :=
    fun _ _ ⟨_, h⟩ turn => h.step turn
  obtain ⟨n, h⟩ := run_induction keep ⟨0, ordered_init md⟩ turns
  exact h.own

def toFirst : SendCall := ⟨1#16, false, 7#16, .ingress⟩
def toSecond : SendCall := ⟨2#16, false, 8#16, .ingress⟩
def noMetadata : Metadata := ⟨0#16, 0#8, 0#16, 0#32⟩

/-- Two packets, the second sent before the first is received. -/
theorem run_ownMetadata_two :
    OwnMetadata .tc (run (step .tc) (init fun _ => noMetadata)
      [.call toFirst, .call toSecond, .increment 0, .wrap 0, .write 0, .send 0,
       .increment 0, .wrap 0, .write 0, .send 0,
       .receive 0, .takeIndex 0, .receive 0, .deliver 0, .takeIndex 0, .deliver 0]) := by
  apply run_ownMetadata
  simp [Meets, InTurn, step, init, toFirst, toSecond, SendCall.Fits, mdMapSize]

/-- A packet is lost, and the next one finds its metadata. -/
theorem run_lost :
    ¬∀ type md events, OwnMetadata type (run (step type) (init md) events) := by
  intro h
  have := h .tc (fun _ => noMetadata)
    [.call toFirst, .increment 0, .wrap 0, .write 0, .send 0, .lose 0,
     .call toSecond, .increment 0, .wrap 0, .write 0, .send 0, .receive 0, .takeIndex 0, .deliver 0]
    (toSecond, .call 1#16 7#16 (some 1#32)) (by decide +kernel)
  exact absurd this (by decide)

end Controller

end Polycube.Polycubed
