import Polycube.K8switch.Ports
import Polycube.Lib.Leases
import Polycube.Lib.Owned
import Polycube.Lib.Pools
import Polycube.Lib.Run
import Mathlib.Order.Interval.Finset.Nat

/-!
# No port is shared

A port that `get_free_port` returns belongs to the program that asked for it, then to the entry of
the session, and then to the thread that removes the entry, until the thread writes it back into a
buffer.  The thread writes the whole control structure of a buffer, with the place of the reader as
it was when the structure was read.  While no program takes a port from that buffer in between,
every port is in one place only.
-/

namespace Polycube.K8switch

open Lib
open Function (update_of_ne update_self)

variable {ncpus : ℕ} {clientIp : BitVec 32} {s : State}

/-! ### Owners -/

/-- Who can have a port: the program on a CPU, an entry of `nodeport_session_out`, or the thread. -/
inductive Owner
  | program (cpu : ℕ)
  | session (key : NodeportSessionIn)
  | thread
  deriving DecidableEq

/-- The port, and the packets for which `nodeport_session_in` may name it. -/
def Program.owns : Program → Option (BitVec 16 × Option NodeportSessionOut)
  | .waiting => none
  | .updateIn _ key => some (key.port, none)
  | .updateOut value key => some (key.port, some value)

def Stage.owns : Stage → Option (BitVec 16 × Option NodeportSessionOut)
  | .next | .removeOut _ _ => none
  | .removeIn key value => some (key.port, some value.untimed)
  | .getCb port | .getRow port _ _ | .setRow port _ _ _ | .setCb port _ _ => some (port, none)

def Cleanup.owns : Cleanup → Option (BitVec 16 × Option NodeportSessionOut)
  | .sleeping => none
  | .walking stage _ => stage.owns

def owns (program : ℕ → Program) (sessions : Table NodeportSessionIn NodeportSessionOut)
    (cleanup : Cleanup) : Owner → Option (BitVec 16 × Option NodeportSessionOut)
  | .program cpu => (program cpu).owns
  | .session key => (sessions key).map fun value => (key.port, some value.untimed)
  | .thread => cleanup.owns

theorem owns_program (program : ℕ → Program) (sessions : Table NodeportSessionIn NodeportSessionOut)
    (cleanup : Cleanup) (cpu : ℕ) (p : Program) :
    owns (Function.update program cpu p) sessions cleanup =
      Function.update (owns program sessions cleanup) (.program cpu) p.owns := by
  funext a
  cases a with
  | program cpu' =>
    by_cases e : cpu' = cpu
    · simp [owns, e]
    · simp [owns, e]
  | session key => simp [owns]
  | thread => simp [owns]

theorem owns_session (program : ℕ → Program) (sessions : Table NodeportSessionIn NodeportSessionOut)
    (cleanup : Cleanup) (key : NodeportSessionIn) (v : Option NodeportSessionOut) :
    owns program (Function.update sessions key v) cleanup =
      Function.update (owns program sessions cleanup) (.session key)
        (v.map fun value => (key.port, some value.untimed)) := by
  funext a
  cases a with
  | program cpu => simp [owns]
  | session key' =>
    by_cases e : key' = key
    · simp [owns, e]
    · simp [owns, e]
  | thread => simp [owns]

theorem owns_thread (program : ℕ → Program) (sessions : Table NodeportSessionIn NodeportSessionOut)
    (cleanup cleanup' : Cleanup) :
    owns program sessions cleanup' =
      Function.update (owns program sessions cleanup) .thread cleanup'.owns := by
  funext a
  cases a with
  | program cpu => simp [owns]
  | session key => simp [owns]
  | thread => simp [owns]

def named (sessions : Table NodeportSessionOut NodeportSessionIn) (value : NodeportSessionOut) :
    Option (BitVec 16) :=
  (sessions value).map NodeportSessionIn.port

def Program.Untimed : Program → Prop
  | .waiting => True
  | .updateIn value _ | .updateOut value _ => value.untimed = value

def Cleanup.todo : Cleanup → List (NodeportSessionIn × NodeportSessionOut)
  | .sleeping => []
  | .walking (.removeOut key value) rest => (key, value) :: rest
  | .walking _ rest => rest

def Cleanup.Agrees (ncpus : ℕ) (buffer : BitVec 16 → ℕ → BitVec 16) (control : ℕ → CbControl) :
    Cleanup → Prop
  | .walking (.getRow _ cpu cb) _ => cpu < ncpus ∧ control cpu = cb
  | .walking (.setRow _ cpu cb ports) _ =>
    cpu < ncpus ∧ control cpu = cb ∧ buffer cb.writer = ports
  | .walking (.setCb port cpu cb) _ =>
    cpu < ncpus ∧ control cpu = cb ∧ buffer cb.writer cpu = port
  | _ => True

structure State.Inv (ncpus : ℕ) (s : State) : Prop where
  pools : Pools (fun port => 1024 ≤ port.toNat) s.pool s.held
  leases : Leased (owns s.program s.nodeportSessionOut s.cleanup) (named s.nodeportSessionIn) s.held
  sized : ∀ cpu < ncpus, (s.freePortsCb cpu).size = bufSize
  blank : ∀ cpu, ncpus ≤ cpu → s.pool cpu = []
  untimed : ∀ cpu, (s.program cpu).Untimed
  nodup : (s.cleanup.todo.map Prod.fst).Nodup
  listed : Owned NodeportSessionOut.untimed Prod.fst (fun e => e.2.untimed) s.nodeportSessionOut
    s.cleanup.todo
  agrees : s.cleanup.Agrees ncpus s.freePortsBuffer s.freePortsCb

theorem init_pool {cpu : ℕ} (hc : cpu < ncpus) :
    (State.init ncpus).pool cpu = (List.range ((65535 - 1024) / ncpus)).map fun i =>
      BitVec.ofNat 16 (1024 + i * ncpus + cpu) := by
  have fits : (65535 - 1024) / ncpus < 2 ^ 16 :=
    lt_of_le_of_lt (Nat.div_le_self _ _) (by decide)
  simp only [State.pool, State.init, hc, if_true, and_true, ring]
  rw [show (0 : BitVec 16) = 0#16 from rfl, BitVec.sub_zero, BitVec.toNat_ofNat,
    Nat.mod_eq_of_lt fits]
  apply List.map_congr_left
  intro i hi
  have hi := List.mem_range.1 hi
  rw [BitVec.zero_add, BitVec.toNat_ofNat, Nat.mod_eq_of_lt (hi.trans fits), if_pos hi]

theorem init_pool_of_le {cpu : ℕ} (hc : ncpus ≤ cpu) : (State.init ncpus).pool cpu = [] := by
  simp [State.pool, State.init, Nat.not_lt.2 hc]

variable {port : BitVec 16}

theorem mem_init_pool {cpu : ℕ} (h : port ∈ (State.init ncpus).pool cpu) :
    cpu < ncpus ∧ ∃ i, port.toNat = 1024 + i * ncpus + cpu := by
  by_cases hc : cpu < ncpus
  · rw [init_pool hc] at h
    obtain ⟨i, hi, rfl⟩ := List.mem_map.1 h
    refine ⟨hc, i, ?_⟩
    have row : (i + 1) * ncpus ≤ 65535 - 1024 :=
      (Nat.mul_le_mul_right ncpus (List.mem_range.1 hi)).trans (Nat.div_mul_le_self _ _)
    rw [Nat.add_mul, Nat.one_mul] at row
    rw [BitVec.toNat_ofNat, Nat.mod_eq_of_lt (by omega)]
  · rw [init_pool_of_le (Nat.not_lt.1 hc)] at h
    cases h

theorem init_pools (pos : 0 < ncpus) :
    Pools (fun port => 1024 ≤ port.toNat) (State.init ncpus).pool (State.init ncpus).held := by
  refine ⟨fun cpu => ?_, fun cpu cpu' port h h' => ?_, fun _ _ _ => List.not_mem_nil,
    fun cpu port h => ?_, fun port h => absurd h List.not_mem_nil⟩
  · by_cases hc : cpu < ncpus
    · rw [init_pool hc]
      refine List.Nodup.map_on (fun i hi j hj e => ?_) List.nodup_range
      have row : ∀ k ∈ List.range ((65535 - 1024) / ncpus), k * ncpus + ncpus ≤ 65535 - 1024 := by
        intro k hk
        rw [← Nat.succ_mul]
        exact (Nat.mul_le_mul_right ncpus (List.mem_range.1 hk)).trans (Nat.div_mul_le_self _ _)
      have e := congrArg BitVec.toNat e
      have hi := row i hi
      have hj := row j hj
      rw [BitVec.toNat_ofNat, BitVec.toNat_ofNat, Nat.mod_eq_of_lt (by omega),
        Nat.mod_eq_of_lt (by omega)] at e
      exact Nat.eq_of_mul_eq_mul_right pos (by omega)
    · rw [init_pool_of_le (Nat.not_lt.1 hc)]
      exact List.nodup_nil
  · obtain ⟨hc, i, hi⟩ := mem_init_pool h
    obtain ⟨hc', j, hj⟩ := mem_init_pool h'
    have same : (cpu + i * ncpus) % ncpus = (cpu' + j * ncpus) % ncpus := by
      congr 1
      omega
    rwa [Nat.add_mul_mod_self_right, Nat.add_mul_mod_self_right, Nat.mod_eq_of_lt hc,
      Nat.mod_eq_of_lt hc'] at same
  · obtain ⟨-, i, hi⟩ := mem_init_pool h
    omega

theorem init_inv (pos : 0 < ncpus) : (State.init ncpus).Inv ncpus where
  pools := init_pools pos
  leases := by
    have nobody : ∀ a, owns (State.init ncpus).program (State.init ncpus).nodeportSessionOut
        (State.init ncpus).cleanup a = none := by
      intro a
      cases a <;> rfl
    refine ⟨fun a p v h => ?_, fun a b p v w h => ?_, fun v p h => ?_, fun v p a w h => ?_⟩
    · rw [nobody] at h
      cases h
    · rw [nobody] at h
      cases h
    · cases h
    · cases h
  sized cpu hc := by simp [State.init, hc]
  blank cpu hc := init_pool_of_le hc
  untimed _ := trivial
  nodup := List.nodup_nil
  listed := Owned.nil
  agrees := trivial

/-! ### Programs -/

variable {cb : CbControl}

theorem CbControl.advance_eq (h : cb.size = bufSize) (place : BitVec 16) :
    cb.advance place = place + 1#16 := by
  apply BitVec.eq_of_toNat_eq
  have lt := (place + 1#16).isLt
  rw [CbControl.advance, h, bufSize, BitVec.toNat_setWidth, BitVec.toNat_umod,
    BitVec.toNat_setWidth, Nat.mod_eq_of_lt (a := (place + 1#16).toNat) (by omega)]
  simp

theorem getFreePort_of_pool_nil {cpu : ℕ} (h : s.pool cpu = []) : s.getFreePort cpu = (0, s) := by
  rw [State.getFreePort, if_pos (ring_eq_nil_iff.1 h)]

theorem getFreePort_of_pool {cpu : ℕ} (sized : (s.freePortsCb cpu).size = bufSize)
    (h : s.pool cpu ≠ []) : ∃ port rest, s.pool cpu = port :: rest ∧
      (s.getFreePort cpu).1 = bswap16 port ∧
      (s.getFreePort cpu).2.pool = Function.update s.pool cpu rest := by
  have ne : (s.freePortsCb cpu).reader ≠ (s.freePortsCb cpu).writer :=
    fun e => h (ring_eq_nil_iff.2 e)
  refine ⟨_, _, ring_eq_cons ne, ?_, funext fun cpu' => ?_⟩
  · rw [State.getFreePort, if_neg ne]
  · rw [State.getFreePort, if_neg ne]
    by_cases e : cpu' = cpu
    · subst e
      simp [State.pool, CbControl.advance_eq sized]
    · simp [State.pool, e]

theorem getFreePort_frame (s : State) (cpu : ℕ) : (s.getFreePort cpu).2 =
    { s with freePortsCb := (s.getFreePort cpu).2.freePortsCb } := by
  unfold State.getFreePort
  dsimp only
  split
  · rfl
  · rfl

theorem getFreePort_size (s : State) (cpu cpu' : ℕ) :
    ((s.getFreePort cpu).2.freePortsCb cpu').size = (s.freePortsCb cpu').size := by
  unfold State.getFreePort
  dsimp only
  split
  · rfl
  · by_cases e : cpu' = cpu
    · simp [e]
    · simp [e]

theorem getFreePort_other (s : State) {cpu cpu' : ℕ} (h : cpu' ≠ cpu) :
    (s.getFreePort cpu).2.freePortsCb cpu' = s.freePortsCb cpu' := by
  unfold State.getFreePort
  dsimp only
  split
  · rfl
  · exact update_of_ne h _ _

def State.Takes (s : State) (cpu : ℕ) (value : NodeportSessionOut) : Prop :=
  s.program cpu = .waiting ∧ s.nodeportSessionIn value.untimed = none ∧ s.pool cpu ≠ []

/-- The CPU whose control structure the thread has read and not written back. -/
def Cleanup.copied : Cleanup → Option ℕ
  | .walking (.getRow _ cpu _) _ | .walking (.setRow _ cpu _ _) _ | .walking (.setCb _ cpu _) _ =>
    some cpu
  | _ => none

/-- The thread's copy stays right when another structure changes. -/
theorem Cleanup.Agrees.of_copied {c : Cleanup} {buffer : BitVec 16 → ℕ → BitVec 16}
    {control control' : ℕ → CbControl} (h : c.Agrees ncpus buffer control)
    (same : ∀ cpu, c.copied = some cpu → control' cpu = control cpu) :
    c.Agrees ncpus buffer control' := by
  match c, h, same with
  | .sleeping, _, _ => trivial
  | .walking .next _, _, _ => trivial
  | .walking (.removeOut _ _) _, _, _ => trivial
  | .walking (.removeIn _ _) _, _, _ => trivial
  | .walking (.getCb _) _, _, _ => trivial
  | .walking (.getRow _ cpu _) _, h, same => exact ⟨h.1, (same cpu rfl).trans h.2⟩
  | .walking (.setRow _ cpu _ _) _, h, same => exact ⟨h.1, (same cpu rfl).trans h.2.1, h.2.2⟩
  | .walking (.setCb _ cpu _) _, h, same => exact ⟨h.1, (same cpu rfl).trans h.2.1, h.2.2⟩

theorem ne_zero_of_valid (h : 1024 ≤ port.toNat) : bswap16 port ≠ 0 := by
  intro zero
  have swapped : port = bswap16 0 := by rw [← zero, bswap16_bswap16]
  rw [swapped] at h
  exact absurd h (by decide)

variable {value : NodeportSessionOut}

theorem named_touch {sessions : Table NodeportSessionOut NodeportSessionIn}
    {session : NodeportSessionIn} (h : sessions value = some session) (now : BitVec 64) :
    named (Function.update sessions value (some { session with timestamp := now })) =
      named sessions := by
  funext value'
  by_cases e : value' = value
  · rw [e, named, named, update_self, h]
    rfl
  · rw [named, named, update_of_ne e]

theorem State.Inv.packet (h : s.Inv ncpus) (cpu : ℕ) (value : NodeportSessionOut)
    (backend : BitVec 32 × BitVec 16) (now : BitVec 64)
    (safe : s.Takes cpu value → s.cleanup.copied ≠ some cpu) :
    (s.packet clientIp cpu value backend now).Inv ncpus := by
  unfold State.packet
  cases hp : s.program cpu with
  | updateIn _ _ => exact h
  | updateOut _ _ => exact h
  | waiting =>
    dsimp only
    cases hs : s.nodeportSessionIn value.untimed with
    | some session =>
      exact { h with leases := (named_touch hs now).symm ▸ h.leases }
    | none =>
      dsimp only
      by_cases empty : s.pool cpu = []
      · rw [getFreePort_of_pool_nil empty, if_pos rfl]
        exact h
      have hc : cpu < ncpus := by
        by_contra hc
        exact empty (h.blank cpu (Nat.not_lt.1 hc))
      obtain ⟨port, rest, hpool, returned, pool⟩ := getFreePort_of_pool (h.sized cpu hc) empty
      have mem : port ∈ s.pool cpu := hpool ▸ List.mem_cons_self
      rw [returned, if_neg (ne_zero_of_valid (h.pools.valid_pool cpu port mem)), bswap16_bswap16]
      have taken := h.leases.take (h.pools.free cpu port mem) (.program cpu)
      refine ⟨?_, ?_, fun cpu' hc' => ?_, fun cpu' hc' => ?_, fun cpu' => ?_, ?_, ?_, ?_⟩
      · exact (congrArg (Pools _ · _) pool).mpr (h.pools.take hpool)
      · have named : (sessionKey clientIp value backend (bswap16 port)).port = port :=
          bswap16_bswap16 port
        rw [owns_program, getFreePort_frame, Program.owns, named]
        exact taken
      · exact (getFreePort_size s cpu cpu').trans (h.sized cpu' hc')
      · have same : s.pool cpu' = [] := h.blank cpu' hc'
        have ne : cpu' ≠ cpu := by omega
        exact (congrFun pool cpu').trans ((update_of_ne ne _ _).trans same)
      · rw [getFreePort_frame]
        dsimp only
        by_cases e : cpu' = cpu
        · rw [e, update_self]
          rfl
        · rw [update_of_ne e]
          exact h.untimed cpu'
      · rw [getFreePort_frame]
        exact h.nodup
      · rw [getFreePort_frame]
        exact h.listed
      · rw [getFreePort_frame]
        refine h.agrees.of_copied fun cpu' copied => getFreePort_other s ?_
        rintro rfl
        exact safe ⟨hp, hs, empty⟩ copied

variable {key : NodeportSessionIn}

theorem named_accept {sessions : Table NodeportSessionOut NodeportSessionIn}
    {value' : NodeportSessionOut} {now : BitVec 64} {accepted : Bool} (h : named (if accepted then
      Function.update sessions value (some { key with timestamp := now }) else sessions) value' =
        some port) : named sessions value' = some port ∨ value = value' ∧ port = key.port := by
  by_cases ha : accepted = true
  · rw [if_pos ha] at h
    by_cases e : value' = value
    · rw [e, named, update_self] at h
      exact Or.inr ⟨e.symm, (Option.some.inj h).symm⟩
    · rw [named, update_of_ne e] at h
      exact Or.inl h
  · rw [if_neg ha] at h
    exact Or.inl h

theorem State.Inv.update (h : s.Inv ncpus) (cpu : ℕ) (now : BitVec 64) (accepted : Bool) :
    (s.update cpu now accepted).Inv ncpus := by
  unfold State.update
  cases hp : s.program cpu with
  | waiting => exact h
  | updateIn value key =>
    have same : value.untimed = value := by
      have untimed := h.untimed cpu
      rwa [hp] at untimed
    have had : owns s.program s.nodeportSessionOut s.cleanup (.program cpu) =
        some (key.port, none) := by
      rw [owns, hp, Program.owns]
    refine { h with leases := ?_, untimed := fun cpu' => ?_ }
    · dsimp only
      rw [owns_program, Program.owns]
      refine h.leases.rekey had fun value' port hn => ?_
      rcases named_accept hn with hn | ⟨rfl, rfl⟩
      · exact Or.inl ⟨hn, nofun⟩
      · exact Or.inr ⟨rfl, rfl⟩
    · dsimp only
      by_cases e : cpu' = cpu
      · rw [e, update_self]
        exact same
      · rw [update_of_ne e]
        exact h.untimed cpu'
  | updateOut value key =>
    have same : value.untimed = value := by
      have untimed := h.untimed cpu
      rwa [hp] at untimed
    have had : owns s.program s.nodeportSessionOut s.cleanup (.program cpu) =
        some (key.port, some value) := by
      rw [owns, hp, Program.owns]
    -- the thread's keys have entries with their ports, so the new key is none of them
    have other : ∀ e ∈ s.cleanup.todo, e.1 ≠ key := by
      rintro e he rfl
      obtain ⟨w, hw, -⟩ := h.listed.entry he
      have owner : owns s.program s.nodeportSessionOut s.cleanup (.session e.1) =
          some (e.1.port, some w.untimed) := by
        rw [owns, hw, Option.map_some]
      cases h.leases.unique _ _ _ _ _ had owner
    have untimed : ∀ cpu', (Function.update s.program cpu .waiting cpu').Untimed := by
      intro cpu'
      by_cases e : cpu' = cpu
      · rw [e, update_self]
        trivial
      · rw [update_of_ne e]
        exact h.untimed cpu'
    cases accepted with
    | false =>
      refine { h with leases := ?_, untimed := untimed }
      dsimp only
      rw [owns_program, Program.owns]
      exact h.leases.drop _
    | true =>
      refine { h with leases := ?_, untimed := untimed, listed := h.listed.write other }
      dsimp only
      rw [owns_program, if_pos rfl, owns_session, Program.owns,
        Function.update_comm (show Owner.session key ≠ Owner.program cpu from nofun)]
      show Leased (Function.update _ _ (some (key.port, some value.untimed))) _ _
      rw [same]
      exact h.leases.move had (.session key)

theorem State.Inv.answer (h : s.Inv ncpus) (key : NodeportSessionIn) (now : BitVec 64) :
    (s.answer key now).Inv ncpus := by
  unfold State.answer
  cases hs : s.nodeportSessionOut key with
  | none => exact h
  | some value =>
    refine { h with leases := ?_, listed := fun e he => ?_ }
    · have same : owns s.program s.nodeportSessionOut s.cleanup (.session key) =
          some (key.port, some value.untimed) := by
        rw [owns, hs, Option.map_some]
      rw [owns_session]
      have kept := Function.update_eq_self (Owner.session key)
        (owns s.program s.nodeportSessionOut s.cleanup)
      rw [same] at kept
      exact kept.symm ▸ h.leases
    · dsimp only at he ⊢
      by_cases e' : e.1 = key
      · have entry := h.listed e he
        rw [e', hs] at entry
        rw [e', update_self]
        exact entry
      · rw [update_of_ne e']
        exact h.listed e he

theorem State.Inv.getAll (h : s.Inv ncpus) (keys : List NodeportSessionIn) :
    (s.getAll keys).Inv ncpus := by
  unfold State.getAll
  cases hc : s.cleanup with
  | walking stage rest => exact h
  | sleeping =>
    have entry : ∀ e ∈ keys.dedup.filterMap fun key =>
        (s.nodeportSessionOut key).map fun value => (key, value),
        e.1 ∈ keys.dedup ∧ s.nodeportSessionOut e.1 = some e.2 := by
      intro e he
      obtain ⟨key, hk, found⟩ := List.mem_filterMap.1 he
      obtain ⟨value, hv, rfl⟩ := Option.map_eq_some_iff.1 found
      exact ⟨hk, hv⟩
    refine { h with leases := ?_, nodup := ?_, listed := fun e he => ?_, agrees := trivial }
    · rw [owns_thread _ _ s.cleanup]
      exact h.leases.drop _
    · dsimp only [Cleanup.todo]
      rw [List.map_filterMap]
      refine (List.nodup_dedup keys).filterMap fun key key' k hk hk' => ?_
      have first : ∀ key, ((s.nodeportSessionOut key).map fun value => (key, value)).map Prod.fst =
          some k → key = k := by
        intro key found
        cases hs : s.nodeportSessionOut key with
        | none => simp [hs] at found
        | some value => simpa [hs] using found
      rw [first key hk, first key' hk']
    · have listed := (entry e he).2
      rw [listed, Option.map_some]

theorem State.Inv.skip (h : s.Inv ncpus) {cleanup : Cleanup} (nothing : cleanup.owns = none)
    (fewer : cleanup.todo.Sublist s.cleanup.todo)
    (agrees : cleanup.Agrees ncpus s.freePortsBuffer s.freePortsCb) :
    { s with cleanup := cleanup }.Inv ncpus where
  pools := h.pools
  leases := by
    rw [owns_thread _ _ s.cleanup, nothing]
    exact h.leases.drop _
  sized := h.sized
  blank := h.blank
  untimed := h.untimed
  nodup := h.nodup.sublist (fewer.map _)
  listed e he := h.listed e (fewer.subset he)
  agrees := agrees

theorem State.Inv.sleep (h : s.Inv ncpus) : { s with cleanup := .sleeping }.Inv ncpus :=
  h.skip rfl (List.nil_sublist _) trivial

variable {rest : List (NodeportSessionIn × NodeportSessionOut)}

theorem State.Inv.removeOut (h : s.Inv ncpus)
    (here : s.cleanup = .walking (.removeOut key value) rest) :
    { s with
      nodeportSessionOut := Function.update s.nodeportSessionOut key none
      cleanup := .walking (.removeIn key value) rest }.Inv ncpus := by
  have nodup := h.nodup
  have listed := h.listed
  rw [here] at nodup listed
  obtain ⟨fresh, nodup⟩ := List.nodup_cons.1 nodup
  obtain ⟨w, hw, untimed⟩ := listed.entry List.mem_cons_self
  have had : owns s.program s.nodeportSessionOut s.cleanup (.session key) =
      some (key.port, some value.untimed) := by
    rw [owns, hw, Option.map_some, untimed]
  refine { h with leases := ?_, nodup := nodup, listed := ?_, agrees := trivial }
  · rw [owns_thread _ _ s.cleanup, owns_session]
    exact h.leases.move had .thread
  · have others : Owned NodeportSessionOut.untimed Prod.fst (fun e => e.2.untimed)
        s.nodeportSessionOut rest := fun e he => listed e (List.mem_cons_of_mem _ he)
    refine others.write fun e he => ?_
    rintro rfl
    exact fresh (List.mem_map.2 ⟨e, he, rfl⟩)

theorem State.Inv.removeIn (h : s.Inv ncpus)
    (here : s.cleanup = .walking (.removeIn key value) rest) :
    { s with
      nodeportSessionIn := Function.update s.nodeportSessionIn value.untimed none
      cleanup := .walking (.getCb key.port) rest }.Inv ncpus := by
  have had : owns s.program s.nodeportSessionOut s.cleanup .thread =
      some (key.port, some value.untimed) := by
    rw [owns, here]
    rfl
  have nodup := h.nodup
  have listed := h.listed
  rw [here] at nodup listed
  refine { h with leases := ?_, nodup := nodup, listed := listed, agrees := trivial }
  dsimp only
  rw [owns_thread _ _ s.cleanup]
  refine h.leases.rekey had fun value' port hn => Or.inl ?_
  by_cases e : value' = value.untimed
  · rw [e, named, update_self] at hn
    cases hn
  · rw [named, update_of_ne e] at hn
    exact ⟨hn, fun same => e (Option.some.inj same).symm⟩

theorem State.Inv.read (h : s.Inv ncpus) {cleanup : Cleanup} (owns : cleanup.owns = s.cleanup.owns)
    (todo : cleanup.todo = s.cleanup.todo)
    (agrees : cleanup.Agrees ncpus s.freePortsBuffer s.freePortsCb) :
    { s with cleanup := cleanup }.Inv ncpus where
  pools := h.pools
  leases := by
    have kept := Function.update_eq_self Owner.thread
      (K8switch.owns s.program s.nodeportSessionOut s.cleanup)
    rw [owns_thread _ _ s.cleanup, owns]
    exact kept.symm ▸ h.leases
  sized := h.sized
  blank := h.blank
  untimed := h.untimed
  nodup := todo ▸ h.nodup
  listed := todo ▸ h.listed
  agrees := agrees

theorem State.Inv.setRow (h : s.Inv ncpus) {cpu : ℕ} {ports : ℕ → BitVec 16}
    (here : s.cleanup = .walking (.setRow port cpu cb ports) rest) :
    { s with
      freePortsBuffer :=
        Function.update s.freePortsBuffer cb.writer (Function.update ports cpu port)
      cleanup := .walking (.setCb port cpu cb) rest }.Inv ncpus := by
  have agrees := h.agrees
  have nodup := h.nodup
  have listed := h.listed
  rw [here] at agrees nodup listed
  obtain ⟨hc, rfl, rfl⟩ := agrees
  have pool : State.pool { s with
      freePortsBuffer := Function.update s.freePortsBuffer (s.freePortsCb cpu).writer
        (Function.update (s.freePortsBuffer (s.freePortsCb cpu).writer) cpu port)
      cleanup := .walking (.setCb port cpu (s.freePortsCb cpu)) rest } = s.pool := by
    funext cpu'
    by_cases e : cpu' = cpu
    · subst e
      refine ring_congr fun i hi => ?_
      dsimp only at hi ⊢
      rw [update_of_ne hi]
    · unfold State.pool
      congr 1
      funext i
      dsimp only
      by_cases ei : i = (s.freePortsCb cpu).writer
      · rw [ei, update_self, update_of_ne e]
      · rw [update_of_ne ei]
  have kept := Function.update_eq_self Owner.thread
    (owns s.program s.nodeportSessionOut s.cleanup)
  refine ⟨(congrArg (Pools _ · _) pool).mpr h.pools, ?_, h.sized,
    fun cpu' hc' => (congrFun pool cpu').trans (h.blank cpu' hc'), h.untimed, ?_, ?_, ?_⟩
  · dsimp only
    rw [owns_thread _ _ s.cleanup]
    rw [show owns s.program s.nodeportSessionOut s.cleanup .thread = some (port, none) by
      rw [owns, here]
      rfl] at kept
    exact kept.symm ▸ h.leases
  · exact nodup
  · exact listed
  · refine ⟨hc, rfl, ?_⟩
    dsimp only
    rw [update_self, update_self]

theorem length_of_valid {l : List (BitVec 16)} (nodup : l.Nodup)
    (valid : ∀ port ∈ l, 1024 ≤ port.toNat) : l.length + 1 < 2 ^ 16 := by
  have nodup' : (l.map BitVec.toNat).Nodup :=
    nodup.map fun _ _ e => BitVec.eq_of_toNat_eq e
  have bounds : (l.map BitVec.toNat).toFinset ⊆ Finset.Ico 1024 65536 := by
    intro n hn
    obtain ⟨port, hp, rfl⟩ := List.mem_map.1 (List.mem_toFinset.1 hn)
    exact Finset.mem_Ico.2 ⟨valid port hp, port.isLt⟩
  have few := Finset.card_le_card bounds
  rw [List.toFinset_card_of_nodup nodup', List.length_map, Nat.card_Ico] at few
  omega

theorem State.Inv.setCb (h : s.Inv ncpus) {cpu : ℕ}
    (here : s.cleanup = .walking (.setCb port cpu cb) rest) :
    { s with
      freePortsCb := Function.update s.freePortsCb cpu { cb with writer := cb.advance cb.writer }
      held := s.held.filter (· ≠ port)
      cleanup := .walking .next rest }.Inv ncpus := by
  have agrees := h.agrees
  have nodup := h.nodup
  have listed := h.listed
  rw [here] at agrees nodup listed
  obtain ⟨hc, rfl, rfl⟩ := agrees
  have had : owns s.program s.nodeportSessionOut s.cleanup .thread =
      some (s.freePortsBuffer (s.freePortsCb cpu).writer cpu, none) := by
    rw [owns, here]
    rfl
  have pool : State.pool { s with
      freePortsCb := Function.update s.freePortsCb cpu
        { s.freePortsCb cpu with writer := (s.freePortsCb cpu).advance (s.freePortsCb cpu).writer }
      held := s.held.filter (· ≠ s.freePortsBuffer (s.freePortsCb cpu).writer cpu)
      cleanup := .walking .next rest } = Function.update s.pool cpu
        (s.pool cpu ++ [s.freePortsBuffer (s.freePortsCb cpu).writer cpu]) := by
    funext cpu'
    by_cases e : cpu' = cpu
    · subst e
      have pushed := ring_push (length_of_valid (h.pools.nodup cpu') (h.pools.valid_pool cpu'))
        (x := s.freePortsBuffer (s.freePortsCb cpu').writer cpu')
      rw [Function.update_eq_self (s.freePortsCb cpu').writer
        fun i => s.freePortsBuffer i cpu'] at pushed
      rw [update_self, State.pool]
      dsimp only
      rw [update_self, CbControl.advance_eq (h.sized cpu' hc)]
      exact pushed
    · rw [update_of_ne e, State.pool]
      dsimp only
      rw [update_of_ne e]
      rfl
  have given := h.pools.give (h.leases.held_owned _ _ _ had) cpu
  refine ⟨(congrArg (Pools _ · _) pool).mpr given, ?_, fun cpu' hc' => ?_, fun cpu' hc' => ?_,
    h.untimed, ?_, ?_, trivial⟩
  · dsimp only
    rw [owns_thread _ _ s.cleanup]
    exact h.leases.release had
  · dsimp only
    by_cases e : cpu' = cpu
    · rw [e, update_self]
      exact h.sized cpu hc
    · rw [update_of_ne e]
      exact h.sized cpu' hc'
  · have ne : cpu' ≠ cpu := by omega
    exact (congrFun pool cpu').trans ((update_of_ne ne _ _).trans (h.blank cpu' hc'))
  · exact nodup
  · exact listed

theorem State.Inv.cleanupSessionTable (h : s.Inv ncpus) (pos : 0 < ncpus) (now : BitVec 64) :
    (s.cleanupSessionTable ncpus now).Inv ncpus := by
  unfold State.cleanupSessionTable
  match hc : s.cleanup with
  | .sleeping => exact h
  | .walking .next [] => exact h.sleep
  | .walking .next ((key, value) :: rest) =>
    have skip : { s with cleanup := .walking .next rest }.Inv ncpus :=
      h.skip rfl (by rw [hc]; exact List.sublist_cons_self _ _) trivial
    dsimp only
    split
    · split
      · exact h.sleep
      · split
        · exact h.read (by rw [hc]; rfl) (by rw [hc]; rfl) trivial
        · exact skip
    · exact skip
  | .walking (.removeOut key value) rest =>
    dsimp only
    split
    · exact h.sleep
    · exact h.removeOut hc
  | .walking (.removeIn key value) rest =>
    dsimp only
    split
    · exact h.sleep
    · exact h.removeIn hc
  | .walking (.getCb port) rest =>
    exact h.read (by rw [hc]; rfl) (by rw [hc]; rfl) ⟨Nat.mod_lt _ pos, rfl⟩
  | .walking (.getRow port cpu cb) rest =>
    have agrees := h.agrees
    rw [hc] at agrees
    exact h.read (by rw [hc]; rfl) (by rw [hc]; rfl) ⟨agrees.1, agrees.2, rfl⟩
  | .walking (.setRow port cpu cb ports) rest => exact h.setRow hc
  | .walking (.setCb port cpu cb) rest => exact h.setCb hc

/-! ### Runs -/

/-- A port that a CPU can take is not held and no entry of a session uses it, and the port that a
CPU would get next is not one that was returned and not freed. -/
structure State.Unshared (s : State) : Prop where
  free : ∀ cpu, ∀ port ∈ s.pool cpu, port ∉ s.held ∧
    (∀ key, s.nodeportSessionOut key ≠ none → key.port ≠ port) ∧
    ∀ value key, s.nodeportSessionIn value = some key → key.port ≠ port
  fresh : ∀ cpu, (s.getFreePort cpu).1 ≠ 0 → bswap16 (s.getFreePort cpu).1 ∉ s.held

/-- No port is taken from a buffer whose control structure the thread is about to write back. -/
def Event.Safe (s : State) : Event → Prop
  | .packet cpu value _ _ => s.Takes cpu value → s.cleanup.copied ≠ some cpu
  | _ => True

theorem State.Inv.unshared (h : s.Inv ncpus) : s.Unshared where
  free cpu port hp := by
    have free := h.pools.free cpu port hp
    refine ⟨free, fun key hk => ?_, fun value key hk => ?_⟩
    · rintro rfl
      obtain ⟨value, hv⟩ := Option.ne_none_iff_exists'.1 hk
      refine free (h.leases.held_owned (.session key) key.port (some value.untimed) ?_)
      rw [owns, hv, Option.map_some]
    · rintro rfl
      refine free (h.leases.held_named value key.port ?_)
      rw [named, hk, Option.map_some]
  fresh cpu hp := by
    by_cases empty : s.pool cpu = []
    · rw [getFreePort_of_pool_nil empty] at hp
      exact absurd rfl hp
    have hc : cpu < ncpus := by
      by_contra hc
      exact empty (h.blank cpu (Nat.not_lt.1 hc))
    obtain ⟨port, rest, hpool, returned, -⟩ := getFreePort_of_pool (h.sized cpu hc) empty
    rw [returned, bswap16_bswap16]
    exact h.pools.free cpu port (hpool ▸ List.mem_cons_self)

theorem step_inv (pos : 0 < ncpus) (s : State) (event : Event) (h : s.Inv ncpus)
    (safe : event.Safe s) : (step ncpus clientIp s event).Inv ncpus := by
  cases event with
  | packet cpu value backend now => exact h.packet cpu value backend now safe
  | update cpu now accepted => exact h.update cpu now accepted
  | answer key now => exact h.answer key now
  | getAll keys => exact h.getAll keys
  | cleanupSessionTable now => exact h.cleanupSessionTable pos now

/-- For any number of CPUs and any order of the steps of the programs and of the thread, no port is
shared while no port is taken from a buffer between the thread's read of its control structure and
the write. -/
theorem run_unshared (ncpus : ℕ) (clientIp : BitVec 32) (events : List Event) (pos : 0 < ncpus)
    (safe : Meets (step ncpus clientIp) Event.Safe (State.init ncpus) events) :
    (run (step ncpus clientIp) (State.init ncpus) events).Unshared :=
  (run_induction (step_inv pos) (init_inv pos) safe).unshared

def client (port : BitVec 16) : NodeportSessionOut :=
  ⟨0, 0, 0x0200000a#32, 0x0100000a#32, bswap16 port, bswap16 30000, bswap16 6, 0⟩

def session (port : BitVec 16) : List Event :=
  [.packet 0 (client port) (0x0300000a#32, bswap16 8080) 0, .update 0 0 true, .update 0 0 true]

def firstKey : NodeportSessionIn :=
  ⟨0x020000ac#32, 0x0300000a#32, bswap16 1024, bswap16 8080, bswap16 6, 0⟩

/-- The thread's walk over the first session, up to the read of the control structure. -/
def walk : List Event :=
  .getAll [firstKey] :: List.replicate 4 (.cleanupSessionTable 301000000000)

def writeBack : List Event := List.replicate 3 (.cleanupSessionTable 301000000000)

/-- A session ends, and the next one is made when its port is free again. -/
theorem run_unshared_next : (run (step 1 0x020000ac#32) (State.init 1)
    (session 50000 ++ walk ++ writeBack ++ session 50001)).Unshared := by
  refine run_unshared 1 _ _ Nat.one_pos ?_
  refine ⟨fun _ => ?_, trivial, trivial, trivial, trivial, trivial, trivial, trivial, trivial,
    trivial, trivial, fun _ => ?_, trivial, trivial, trivial⟩
  · decide
  · decide +kernel

/-- One CPU: a session is made between the read and the write, and its port can be taken again. -/
theorem session_not_unshared : ¬ (run (step 1 0x020000ac#32) (State.init 1)
    (session 50000 ++ walk ++ session 50001 ++ writeBack)).Unshared := by
  intro unshared
  exact unshared.fresh 0 (by decide +kernel) (by decide +kernel)

end Polycube.K8switch
