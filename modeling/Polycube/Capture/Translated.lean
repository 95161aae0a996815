import Polycube.Capture.Invisible

/-!
# What of a filter is translated

`keeps` says of an instruction in a state of BPF that its text does what it does, `kept` that a run
only meets such instructions, also behind the return that takes the packet, where the text goes on.
Then the packet is handed to the control plane when BPF returns a word other than 0, and once.
-/

namespace Polycube.Capture

open Function Lib

variable {around : ℤ → BitVec 8} {cubeType : CubeType} {prog : List Insn} {pkt : Packet}
  {n pc pc' : ℕ} {known accepted : Bool} {s s' : Regs} {c : CState}

def Insn.eatsLabel : Insn → Bool
  | .ja _ | .ldxLen => true
  | _ => false

/-- There is C text for an instruction: it names nothing that is not there, and the label it goes
to is not behind an instruction that eats labels. -/
def Insn.compilable (prog : List Insn) (n : ℕ) : Insn → Bool
  | .ldLen | .ldxMsh _ | .alu .mod _ | .ret .a | .ret .x => false
  | .ret (.k k) => k == 0 || k == 0xffffffff
  | .ldAbs _ k => !linuxNames.any fun n => skfAdOff + n.1 = k
  | .jmp _ _ jt jf =>
    !(prog[n + jt.toNat]?.any Insn.eatsLabel) && !(prog[n + jf.toNat]?.any Insn.eatsLabel)
  | _ => true

def compilable (prog : List Insn) : Bool :=
  prog.zipIdx.all fun i => i.1.compilable prog i.2

def AluOp.keeps (a v : Word) : AluOp → Bool
  | .add | .sub | .mul => true
  | .div => v ≠ 0 && v ≠ 0x80000000
  | .mod => false
  | .and => a &&& v == a
  | .or => a ||| v == a
  | .xor => a ^^^ v == a
  | .lsh => a <<< v.toNat == a
  | .rsh => a >>> v.toNat == a

/-- The text of an instruction does what the instruction does.  The variable `a` is the accumulator
once it is `known`, which it is from the first load on; `x` is never loaded as it should be. -/
def Insn.keeps (known : Bool) (s : Regs) : Insn → Bool
  | .ldAbs size k => k.toNat + size.bytes < 2 ^ 31
  | .st _ | .stx _ => true
  | .alu op (.k v) => known && op.keeps s.a v
  | .neg => known && -s.a == s.a
  | .txa => known && s.a == s.x
  | .ja k => k == 0
  | .jmp _ (.k _) _ _ => known
  | .ret (.k k) => k == 0 || k == 0xffffffff
  | _ => false

def Insn.loadsA : Insn → Bool
  | .ldAbs _ _ => true
  | _ => false

/-- A run only meets instructions that are kept.  Behind the return that takes the packet
(`accepted`) it goes on, and meets no other such one. -/
def kept (prog : List Insn) (pkt : Packet) : ℕ → ℕ → Bool → Regs → Bool → Bool
  | 0, _, _, _, _ => false
  | n + 1, pc, known, s, accepted =>
    match prog[pc]? with
    | none => accepted
    | some i =>
      i.keeps known s &&
        match i.step pkt pc s with
        | .goto pc' s' => kept prog pkt n pc' (known || i.loadsA) s' accepted
        | .halt r =>
          if r = 0 then true else !accepted && kept prog pkt n (pc + 1) known s true

def Kept (prog : List Insn) (pkt : Packet) : Prop :=
  compilable prog = true ∧ kept prog pkt (prog.length + 1) 0 false ⟨0, 0, fun _ => 0⟩ false = true

instance (prog : List Insn) (pkt : Packet) : Decidable (Kept prog pkt) := instDecidableAnd

/-! ### One instruction -/

section Step

structure Follows (pkt : Packet) (known : Bool) (s : Regs) (c : CState) : Prop where
  a : known = true → c.a = s.a
  packet : c.packet = pkt

theorem toInt_of_lt {v : Word} (h : v.toNat < 2 ^ 31) : v.toInt = v.toNat :=
  BitVec.toInt_eq_toNat_of_lt (by omega)

theorem readAt_eq (around : ℤ → BitVec 8) {size : Size} {k : ℕ}
    (h : k + size.bytes ≤ pkt.length) : readAt around pkt size k =
      bigEndian ((List.range size.bytes).map fun i => pkt.getD (k + i) 0) := by
  unfold readAt
  refine congrArg bigEndian (List.map_congr_left fun i hi => ?_)
  have hi := List.mem_range.1 hi
  unfold byteAt
  rw [if_pos ⟨by omega, by omega⟩]
  congr 1

inductive Does (around : ℤ → BitVec 8) (pkt : Packet) (known : Bool) (line : Line) (pc : ℕ)
    (c : CState) : Next Regs Word → Prop
  | goto {pc' : ℕ} {s' : Regs} {d : CState} (step : line.step around true pc c = .goto pc' d)
      (follows : Follows pkt known s' d) (submitted : d.submitted = c.submitted) :
      Does around pkt known line pc c (.goto pc' s')
  | refuses {r : RxCode} (step : line.step around true pc c = .halt (r, c)) :
      Does around pkt known line pc c (.halt 0)
  | takes {r : Word} (hr : r ≠ 0)
      (step : line.step around true pc c = .goto (pc + 1) { c with submitted := c.submitted + 1 }) :
      Does around pkt known line pc c (.halt r)

theorem does_ldAbs {size : Size} {k : Word} (plain : cbpfDumpLinuxK k = .dec)
    (small : k.toNat + size.bytes < 2 ^ 31) (follows : Follows pkt known s c) :
    Does around pkt true (loadLine .a size (cbpfDumpLinuxK k) k) pc c
      ((Insn.ldAbs size k).step pkt pc s) := by
  have hsize : size.bytes ≤ 4 := by cases size <;> decide
  have hbound : (k + BitVec.ofNat 32 size.bytes).toNat = k.toNat + size.bytes := by
    rw [BitVec.toNat_add, BitVec.toNat_ofNat]
    omega
  have hoffset : Operand.offset c (.dec (k + BitVec.ofNat 32 size.bytes)) =
      ((k.toNat + size.bytes : ℕ) : ℤ) := by
    unfold Operand.offset
    dsimp only
    rw [toInt_of_lt (by omega), hbound]
  have hindex : Operand.index c (.dec k) = (k.toNat : ℤ) := toInt_of_lt (by omega)
  unfold loadLine
  rw [plain]
  unfold Insn.step
  dsimp only
  unfold loadAt
  split_ifs with h
  · refine Does.goto (d := c.set .a (readAt around c.packet size k.toNat)) ?_ ⟨fun _ => ?_, ?_⟩ rfl
    · rw [step_load, hoffset, hindex, follows.packet, if_neg]
      omega
    · show readAt around c.packet size k.toNat = _
      rw [follows.packet]
      exact readAt_eq around h
    · exact follows.packet
  · refine Does.refuses (r := .drop) ?_
    rw [step_load, hoffset, follows.packet, if_pos]
    exact ⟨rfl, by omega⟩

theorem word_dec (v : Word) : Operand.word c (.dec v) = v := BitVec.ofInt_toInt

theorem word_hex (v : Word) : Operand.word c (.hex v) = v := by
  unfold Operand.word Operand.offset
  rw [BitVec.ofInt_natCast, BitVec.ofNat_toNat, BitVec.setWidth_eq]

theorem expr_step (around : ℤ → BitVec 8) (pc : ℕ) {op : AluOp} {v : Word}
    (keeps : op.keeps c.a v = true) :
    ∃ w, op.apply c.a v = some w ∧
      (Line.expr (aluExpr op (.k v))).step around true pc c = .goto (pc + 1) { c with a := w } := by
  have unchanged : ∀ {w : Word}, w = c.a →
      (.goto (pc + 1) c : Next CState (RxCode × CState)) = .goto (pc + 1) { c with a := w } := by
    rintro w rfl
    rfl
  have assigned : ∀ {w w' : Word}, w = w' →
      (.goto (pc + 1) { c with a := w } : Next CState (RxCode × CState)) =
        .goto (pc + 1) { c with a := w' } := by
    rintro w w' rfl
    rfl
  unfold AluOp.keeps at keeps
  cases op with
  | add => exact ⟨_, rfl, assigned (congrArg (c.a + ·) (word_dec v))⟩
  | sub => exact ⟨_, rfl, assigned (congrArg (c.a - ·) (word_dec v))⟩
  | mul => exact ⟨_, rfl, assigned (congrArg (c.a * ·) (word_dec v))⟩
  | div =>
    rw [Bool.and_eq_true, decide_eq_true_eq, decide_eq_true_eq] at keeps
    refine ⟨_, if_neg keeps.1, assigned ?_⟩
    show cDiv c.a c (.dec v) = _
    unfold cDiv
    rw [if_neg fun h => keeps.2 (Operand.dec.inj h), word_dec]
  | mod => cases keeps
  | and => exact ⟨_, rfl, unchanged (beq_iff_eq.1 keeps)⟩
  | or => exact ⟨_, rfl, unchanged (beq_iff_eq.1 keeps)⟩
  | xor => exact ⟨_, rfl, unchanged (beq_iff_eq.1 keeps)⟩
  | lsh => exact ⟨_, rfl, unchanged (beq_iff_eq.1 keeps)⟩
  | rsh => exact ⟨_, rfl, unchanged (beq_iff_eq.1 keeps)⟩

theorem cbpfDumpLinuxK_eq {size : Size} {k : Word}
    (h : (Insn.ldAbs size k).compilable prog n = true) : cbpfDumpLinuxK k = .dec := by
  have none : (linuxNames.find? fun n => skfAdOff + n.1 = k) = none := by
    rw [List.find?_eq_none]
    intro m hm hk
    unfold Insn.compilable at h
    rw [Bool.not_eq_true', List.any_eq_false] at h
    exact h m hm hk
  funext v
  unfold cbpfDumpLinuxK
  rw [none]

/-- The text of an instruction that is kept, and loads nothing, does what the instruction does. -/
theorem does_of_keeps (cubeType : CubeType) (i : Insn) (hl : i.loadsA = false)
    (keeps : i.keeps known s = true) (follows : Follows pkt known s c) :
    Does around pkt known (cbpfDump cubeType pc i) pc c (i.step pkt pc s) := by
  cases i with
  | alu op src =>
    cases src with
    | k v =>
      obtain ⟨hk, keeps⟩ := Bool.and_eq_true_iff.1 keeps
      have ha := follows.a hk
      rw [← ha] at keeps
      obtain ⟨w, hw, step⟩ := expr_step around pc keeps
      have target : (Insn.alu op (.k v)).step pkt pc s = .goto (pc + 1) { s with a := w } := by
        show orReturn (op.apply s.a v) _ = _
        rw [← ha, hw]
        rfl
      rw [target]
      exact Does.goto step ⟨fun _ => rfl, follows.packet⟩ rfl
    | x => cases keeps
  | st k =>
    exact Does.goto (d := { c with m := update c.m k.toNat c.a }) rfl
      ⟨follows.a, follows.packet⟩ rfl
  | stx k =>
    exact Does.goto (d := { c with m := update c.m k.toNat c.x }) rfl
      ⟨follows.a, follows.packet⟩ rfl
  | neg =>
    obtain ⟨hk, keeps⟩ := Bool.and_eq_true_iff.1 keeps
    refine Does.goto (d := c) rfl ⟨fun hk => ?_, follows.packet⟩ rfl
    show c.a = -s.a
    rw [beq_iff_eq.1 keeps, follows.a hk]
  | txa =>
    obtain ⟨hk, keeps⟩ := Bool.and_eq_true_iff.1 keeps
    refine Does.goto (d := c.set .x c.a) rfl ⟨fun hk => ?_, follows.packet⟩ rfl
    show c.a = s.x
    rw [follows.a hk, beq_iff_eq.1 keeps]
  | ja k =>
    obtain rfl : k = 0 := beq_iff_eq.1 keeps
    have target : (Insn.ja 0).step pkt pc s = .goto (pc + 1) s := by
      show Next.goto ((pc : ℤ) + 1 + (0 : Word).toInt).toNat s = _
      congr 1
    rw [target]
    exact Does.goto (d := c) rfl follows rfl
  | jmp op src jt jf =>
    cases src with
    | x => cases keeps
    | k v =>
      have hk : known = true := keeps
      have target : (cbpfDump cubeType pc (.jmp op (.k v) jt jf)).step around true pc c =
          .goto (pc + 1 + if op.test s.a v then jt.toNat else jf.toNat) c := by
        show Next.goto (if op.test c.a (Operand.word c (.hex v)) then pc + 1 + jt.toNat
          else pc + 1 + jf.toNat) c = _
        rw [word_hex, follows.a hk]
        split_ifs <;> rfl
      exact Does.goto target follows rfl
  | ret r =>
    cases r with
    | a => cases keeps
    | x => cases keeps
    | k k =>
      rcases Bool.or_eq_true_iff.1 keeps with h | h
      · obtain rfl := beq_iff_eq.1 h
        exact Does.refuses (r := .ok) rfl
      · obtain rfl := beq_iff_eq.1 h
        exact Does.takes (by decide) rfl
  | ldAbs size k => cases hl
  | ldInd size k => cases keeps
  | ldLen => cases keeps
  | ldImm k => cases keeps
  | ldMem k => cases keeps
  | ldxImm k => cases keeps
  | ldxMem k => cases keeps
  | ldxLen => cases keeps
  | ldxMsh k => cases keeps
  | tax => cases keeps

theorem does_of_kept (around : ℤ → BitVec 8) (pc : ℕ) (cubeType : CubeType) (i : Insn)
    (hc : i.compilable prog n = true)
    (keeps : i.keeps known s = true) (follows : Follows pkt known s c) :
    Does around pkt (known || i.loadsA) (cbpfDump cubeType pc i) pc c (i.step pkt pc s) := by
  cases hl : i.loadsA with
  | false =>
    rw [Bool.or_false]
    exact does_of_keeps cubeType i hl keeps follows
  | true =>
    rw [Bool.or_true]
    cases i with
    | ldAbs size k => exact does_ldAbs (cbpfDumpLinuxK_eq hc) (of_decide_eq_true keeps) follows
    | _ => cases hl

end Step

section Compiles

theorem compilable_of_getElem? (h : compilable prog = true) {i : Insn} (hi : prog[n]? = some i) :
    i.compilable prog n = true := by
  unfold compilable at h
  rw [List.all_eq_true] at h
  exact h (i, n) (List.mem_zipIdx_iff_getElem?.2 hi)

theorem dump_eq_unimp (cubeType : CubeType) (n : ℕ) (i : Insn) :
    cbpfDump cubeType n i = .unimp ↔ i.eatsLabel = true := by
  cases i with
  | ret v =>
    cases v with
    | k k =>
      unfold cbpfDump
      dsimp only
      split_ifs <;> exact iff_of_false (fun h => by cases h) Bool.false_ne_true
    | a => exact iff_of_false (fun h => by cases h) Bool.false_ne_true
    | x => exact iff_of_false (fun h => by cases h) Bool.false_ne_true
  | ja k => exact iff_of_true rfl rfl
  | ldxLen => exact iff_of_true rfl rfl
  | _ => exact iff_of_false (fun h => by cases h) Bool.false_ne_true

theorem declared_toC (cubeType : CubeType) (h : n + 1 < prog.length) :
    declared (toC cubeType prog) (n + 1) = !(prog[n]?.any Insn.eatsLabel) := by
  unfold declared
  rw [length_toC, decide_eq_true h, Bool.true_and, Nat.add_sub_cancel, getElem?_toC,
    List.getElem?_eq_getElem (Nat.lt_of_succ_lt h)]
  have unimp := dump_eq_unimp cubeType n prog[n]
  rw [Option.map_some, Option.any_some]
  cases he : prog[n].eatsLabel with
  | true =>
    rw [unimp.2 he]
    rfl
  | false =>
    have : cbpfDump cubeType n prog[n] ≠ .unimp := fun h => by
      rw [unimp.1 h] at he
      cases he
    simp [this]

theorem isC_dump (cubeType : CubeType) {i : Insn} (valid : i.valid prog.length n = true) :
    (cbpfDump cubeType n i).isC (toC cubeType prog) = i.compilable prog n := by
  cases i with
  | ret v =>
    cases v with
    | k k =>
      unfold cbpfDump Insn.compilable
      dsimp only
      split_ifs with h h'
      · rw [h]
        rfl
      · rw [h']
        rfl
      · exact (Bool.or_eq_false_iff.2 ⟨beq_eq_false_iff_ne.2 h, beq_eq_false_iff_ne.2 h'⟩).symm
    | a => rfl
    | x => rfl
  | alu op src => cases op <;> cases src <;> rfl
  | jmp op src jt jf =>
    have lt := Bool.and_eq_true_iff.1 valid
    have ht : n + jt.toNat + 1 < prog.length := by
      have := of_decide_eq_true lt.1
      omega
    have hf : n + jf.toNat + 1 < prog.length := by
      have := of_decide_eq_true lt.2
      omega
    have text : (cbpfDump cubeType n (.jmp op src jt jf)).isC (toC cubeType prog) =
        (((jumpOperand src).isC && declared (toC cubeType prog) (n + 1 + jt.toNat)) &&
          declared (toC cubeType prog) (n + 1 + jf.toNat)) := rfl
    have operand : (jumpOperand src).isC = true := by cases src <;> rfl
    rw [text, operand, Bool.true_and, Nat.add_right_comm n 1, Nat.add_right_comm n 1,
      declared_toC cubeType ht, declared_toC cubeType hf]
    rfl
  | ldAbs size k =>
    have text : (cbpfDump cubeType n (.ldAbs size k)).isC (toC cubeType prog) =
        ((cbpfDumpLinuxK k (k + BitVec.ofNat 32 size.bytes)).isC && (cbpfDumpLinuxK k k).isC) := rfl
    have named : (linuxNames.any fun n => skfAdOff + n.1 = k) =
        (linuxNames.find? fun n => skfAdOff + n.1 = k).isSome := List.isSome_find?.symm
    rw [text]
    unfold cbpfDumpLinuxK Insn.compilable
    dsimp only
    rw [named]
    cases linuxNames.find? fun n => skfAdOff + n.1 = k <;> rfl
  | _ => rfl

theorem compiles_toC (cubeType : CubeType) (valid : cbpfValidate prog = true) :
    compiles (toC cubeType prog) = compilable prog := by
  obtain ⟨hvalid, hret⟩ := Bool.and_eq_true_iff.1 valid
  rw [List.all_eq_true] at hvalid
  -- the last instruction returns
  have last : (toC cubeType prog).getLast? ≠ some .unimp := by
    rw [List.getLast?_eq_getElem?, getElem?_toC, length_toC]
    rw [List.getLast?_eq_getElem?] at hret
    intro h
    obtain ⟨i, hi, hd⟩ := Option.map_eq_some_iff.1 h
    rw [hi, Option.any_some] at hret
    have eats := (dump_eq_unimp cubeType _ i).1 hd
    cases i with
    | ja k => cases hret
    | ldxLen => cases hret
    | _ => cases eats
  unfold compiles compilable
  rw [bne_iff_ne.2 last, Bool.and_true]
  conv_lhs => arg 1; unfold toC
  rw [List.all_map, Bool.eq_iff_iff, List.all_eq_true, List.all_eq_true]
  refine forall₂_congr fun i hi => ?_
  rw [comp_apply, isC_dump cubeType (hvalid i hi)]

end Compiles

section Runs

theorem bpfStep_eq (pkt : Packet) {i : Insn} (hi : prog[pc]? = some i) (s : Regs) :
    bpfStep prog pkt pc s = i.step pkt pc s := by
  unfold bpfStep
  rw [hi]

theorem cStep_eq (around : ℤ → BitVec 8) (cubeType : CubeType) {i : Insn} (hi : prog[pc]? = some i)
    (c : CState) :
    cStep around (toC cubeType prog) pc c = (cbpfDump cubeType pc i).step around true pc c := by
  unfold cStep
  rw [getElem?_toC, hi]
  rfl

/-- A run that is kept: the text ends as well, and hands the packet to the control plane once if
the program returns a word other than 0 and has not taken the packet yet. -/
theorem run_of_kept (around : ℤ → BitVec 8) (cubeType : CubeType) (hc : compilable prog = true)
    (hkept : kept prog pkt n pc known s accepted = true) (follows : Follows pkt known s c) :
    ∃ rx c', runFrom (cStep around (toC cubeType prog)) n pc c = some (rx, c') ∧
      if accepted = true then c'.submitted = c.submitted
      else ∃ r, runFrom (bpfStep prog pkt) n pc s = some r ∧
        c'.submitted = c.submitted + if r = 0 then 0 else 1 := by
  induction n generalizing pc known s accepted c with
  | zero => cases hkept
  | succ n ih =>
    unfold kept at hkept
    cases hi : prog[pc]? with
    | none =>
      rw [hi] at hkept
      have step : cStep around (toC cubeType prog) pc c = .halt (.ok, c) := by
        unfold cStep
        rw [getElem?_toC, hi]
        rfl
      exact ⟨.ok, c, runFrom_halt step, by rw [if_pos hkept]⟩
    | some i =>
      rw [hi] at hkept
      obtain ⟨keeps, rest⟩ := Bool.and_eq_true_iff.1 hkept
      have does := does_of_kept around pc cubeType i
        (compilable_of_getElem? hc hi) keeps follows
      have text := cStep_eq around cubeType hi c
      have bpf := bpfStep_eq pkt hi s
      cases hstep : i.step pkt pc s with
      | goto pc' s' =>
        rw [hstep] at does rest
        rw [hstep] at bpf
        cases does with
        | @goto _ _ c' step follows' submitted =>
          rw [step] at text
          obtain ⟨rx, c'', hrun, hsub⟩ := ih rest follows'
          rw [runFrom_goto text, runFrom_goto bpf, ← submitted]
          exact ⟨rx, c'', hrun, hsub⟩
      | halt r =>
        rw [hstep] at does rest
        rw [hstep] at bpf
        cases does with
        | @refuses rx step =>
          rw [step] at text
          refine ⟨rx, c, runFrom_halt text, ?_⟩
          split_ifs
          · rfl
          · exact ⟨0, runFrom_halt bpf, rfl⟩
        | takes hr step =>
          rw [step] at text
          dsimp only at rest
          rw [if_neg hr] at rest
          obtain ⟨hfirst, rest⟩ := Bool.and_eq_true_iff.1 rest
          have hfirst : accepted = false := by simpa using hfirst
          -- the text goes on behind the return
          obtain ⟨rx, c', hrun, hsub⟩ := ih rest
            (⟨follows.a, follows.packet⟩ : Follows pkt known s { c with submitted := c.submitted + 1 })
          refine ⟨rx, c', by rw [runFrom_goto text, hrun], ?_⟩
          rw [if_neg (by rw [hfirst]; exact Bool.false_ne_true)]
          refine ⟨r, runFrom_halt bpf, ?_⟩
          rw [if_neg hr]
          exact hsub

/-- A valid filter that is kept for a packet is C, and hands the packet to the control plane exactly
once if BPF returns a word other than 0, and not at all if it returns 0. -/
theorem captures_of_kept (around : ℤ → BitVec 8) (cubeType : CubeType) (prog : List Insn)
    (pkt : Packet) (a x : Word) (m : ℕ → Word) (valid : cbpfValidate prog = true)
    (hkept : Kept prog pkt) :
    ∃ r rx c', Returns prog pkt r ∧ (∀ r', Returns prog pkt r' → r' = r) ∧
      handleRx around (toC cubeType prog) ⟨a, x, m, 0, pkt⟩ = some (rx, c') ∧
      c'.submitted = if r = 0 then 0 else 1 := by
  obtain ⟨hc, hrun⟩ := hkept
  obtain ⟨rx, c', htext, r, hbpf, hsub⟩ := run_of_kept around cubeType hc hrun
    (⟨fun h => absurd h Bool.false_ne_true, rfl⟩ : Follows pkt false _ ⟨a, x, m, 0, pkt⟩)
  refine ⟨r, rx, c', ⟨_, hbpf⟩, ?_, ?_, hsub.trans (Nat.zero_add _)⟩
  · rintro r' ⟨n, h⟩
    exact runFrom_unique h hbpf
  · unfold handleRx
    rw [if_pos ((compiles_toC cubeType valid).trans hc), length_toC]
    exact htext

def arpPacket : Packet := List.replicate 12 0 ++ [8, 6]

theorem captures_arp :
    ∃ r rx c', Returns arpFilter arpPacket r ∧ (∀ r', Returns arpFilter arpPacket r' → r' = r) ∧
      handleRx (fun _ => 0) (toC .tc arpFilter) ⟨0, 0, fun _ => 0, 0, arpPacket⟩ =
        some (rx, c') ∧ c'.submitted = if r = 0 then 0 else 1 :=
  captures_of_kept (fun _ => 0) .tc arpFilter arpPacket 0 0 (fun _ => 0) (by decide)
    (by decide +kernel)

def maskFilter : List Insn :=
  [.ldAbs .half 12, .alu .and (.k 0xff), .jmp .jeq (.k 6) 0 1, .ret (.k 0xffffffff), .ret (.k 0)]

/-- The mask is left without effect, and the packet is not captured. -/
theorem not_captures_mask :
    cbpfValidate maskFilter = true ∧ Returns maskFilter arpPacket 0xffffffff ∧
      (handleRx (fun _ => 0) (toC .tc maskFilter) ⟨0, 0, fun _ => 0, 0, arpPacket⟩).map
        (fun r => r.2.submitted) = some 0 :=
  ⟨by decide, ⟨6, by decide +kernel⟩, by decide +kernel⟩

end Runs

end Polycube.Capture
