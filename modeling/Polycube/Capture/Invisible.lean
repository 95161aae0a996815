import Polycube.Capture.Cbpf2c

/-!
# What a filter does to the traffic

`handle_rx` never changes a packet.  Whether it lets the packet pass depends on the loads the filter
comes to: one of them that lies behind the end of the packet makes it return `RX_DROP`.
-/

namespace Polycube.Capture

open Lib

variable {around : ℤ → BitVec 8} {text : List Line} {cubeType : CubeType} {prog : List Insn}
  {n pc pc' : ℕ} {s s' : CState}

def Line.needs (s : CState) : Line → List ℤ
  | .load _ _ bound _ => [bound.offset s]
  | _ => []

def needed (around : ℤ → BitVec 8) (text : List Line) : ℕ → ℕ → CState → List ℤ
  | 0, _, _ => []
  | n + 1, pc, s =>
    match text[pc]? with
    | none => []
    | some line =>
      line.needs s ++
        match line.step around false pc s with
        | .halt _ => []
        | .goto pc' s' => needed around text n pc' s'

theorem set_packet (s : CState) (r : Reg) (v : Word) : (s.set r v).packet = s.packet := by
  cases r <;> rfl

theorem step_load (dst : Reg) (size : Size) (bound offset : Operand) (guarded : Bool) (pc : ℕ)
    (s : CState) : (Line.load dst size bound offset).step around guarded pc s =
      if guarded = true ∧ (s.packet.length : ℤ) < bound.offset s then .halt (.drop, s)
      else .goto (pc + 1) (s.set dst (readAt around s.packet size (offset.index s))) := rfl

theorem step_goto {line : Line} {guarded : Bool}
    (h : line.step around guarded pc s = .goto pc' s') : s'.packet = s.packet ∧
      (pc' = pc + 1 ∨ ∃ op rhs jt jf, line = .branch op rhs jt jf ∧ (pc' = jt ∨ pc' = jf)) := by
  have next : ∀ {t : CState}, (.goto (pc + 1) t : Next CState (RxCode × CState)) = .goto pc' s' →
      t.packet = s.packet → s'.packet = s.packet ∧ (pc' = pc + 1 ∨
        ∃ op rhs jt jf, line = .branch op rhs jt jf ∧ (pc' = jt ∨ pc' = jf)) := by
    intro t h ht
    cases h
    exact ⟨ht, Or.inl rfl⟩
  cases line with
  | unimp => exact next h rfl
  | unimpLine => exact next h rfl
  | returnOk => cases h
  | submit cubeType => exact next h rfl
  | copy dst src => exact next h (set_packet _ _ _)
  | store slot src => cases slot <;> exact next h rfl
  | expr e => cases e <;> exact next h rfl
  | branch op rhs jt jf =>
    unfold Line.step at h
    cases h
    refine ⟨rfl, Or.inr ⟨op, rhs, jt, jf, rfl, ?_⟩⟩
    split_ifs
    · exact Or.inl rfl
    · exact Or.inr rfl
  | load dst size bound offset =>
    rw [step_load] at h
    split_ifs at h with hb
    exact next h (set_packet _ _ _)

theorem step_guarded (around : ℤ → BitVec 8) (line : Line) (pc : ℕ) (s : CState) :
    ((∀ b ∈ line.needs s, b ≤ s.packet.length) ∧
      line.step around true pc s = line.step around false pc s) ∨
    ((∃ b ∈ line.needs s, (s.packet.length : ℤ) < b) ∧
      line.step around true pc s = .halt (.drop, s)) := by
  cases line with
  | load dst size bound offset =>
    rw [step_load, step_load]
    by_cases h : (s.packet.length : ℤ) < bound.offset s
    · exact Or.inr ⟨⟨_, List.mem_singleton_self _, h⟩, if_pos ⟨rfl, h⟩⟩
    · refine Or.inl ⟨fun b hb => ?_, ?_⟩
      · rw [List.mem_singleton.1 hb]
        exact not_lt.1 h
      · rw [if_neg fun hh => h hh.2, if_neg fun hh => h hh.2]
  | store slot src => cases slot <;> exact Or.inl ⟨fun _ => False.elim ∘ List.not_mem_nil, rfl⟩
  | expr e => cases e <;> exact Or.inl ⟨fun _ => False.elim ∘ List.not_mem_nil, rfl⟩
  | _ => exact Or.inl ⟨fun _ => False.elim ∘ List.not_mem_nil, rfl⟩

/-- Without its guards the filter only ends well. -/
theorem step_unguarded {line : Line} {r : RxCode × CState}
    (h : line.step around false pc s = .halt r) : r = (.ok, s) := by
  cases line with
  | returnOk =>
    cases h
    rfl
  | load dst size bound offset =>
    rw [step_load, if_neg fun hh => Bool.false_ne_true hh.1] at h
    cases h
  | store slot src => cases slot <;> cases h
  | expr e => cases e <;> cases h
  | _ => cases h

/-- A run passes the packet on, as it was, when all loads it comes to lie in it. -/
theorem run_ok_iff {rx : RxCode} (h : runFrom (cStep around text) n pc s = some (rx, s')) :
    s'.packet = s.packet ∧
      (rx = .ok ↔ ∀ b ∈ needed around text n pc s, b ≤ (s.packet.length : ℤ)) := by
  induction n generalizing pc s with
  | zero => cases h
  | succ n ih =>
    unfold needed
    cases hline : text[pc]? with
    | none =>
      have step : cStep around text pc s = .halt (.ok, s) := by
        unfold cStep
        rw [hline]
      rw [runFrom_halt step] at h
      cases h
      exact ⟨rfl, iff_of_true rfl fun b hb => by cases hb⟩
    | some line =>
      have step : cStep around text pc s = line.step around true pc s := by
        unfold cStep
        rw [hline]
      dsimp only
      rcases step_guarded around line pc s with ⟨hneeds, same⟩ | ⟨⟨b, hb, hlt⟩, drop⟩
      · cases hfree : line.step around false pc s with
        | halt r =>
          rw [same, hfree] at step
          rw [runFrom_halt step, step_unguarded hfree] at h
          cases h
          refine ⟨rfl, iff_of_true rfl fun b hb => ?_⟩
          rw [List.append_nil] at hb
          exact hneeds b hb
        | goto pc₁ s₁ =>
          rw [same, hfree] at step
          rw [runFrom_goto step] at h
          obtain ⟨packet, ok⟩ := ih h
          have same₁ := (step_goto hfree).1
          refine ⟨packet.trans same₁, ok.trans ?_⟩
          rw [same₁, List.forall_mem_append]
          exact ⟨fun h => ⟨hneeds, h⟩, fun h => h.2⟩
      · rw [drop] at step
        rw [runFrom_halt step] at h
        cases h
        refine ⟨rfl, iff_of_false (by decide) fun hall => ?_⟩
        exact absurd (hall b (List.mem_append_left _ hb)) (not_le.2 hlt)

section Compiled

theorem getElem?_toC (cubeType : CubeType) (prog : List Insn) (n : ℕ) :
    (toC cubeType prog)[n]? = prog[n]?.map (cbpfDump cubeType n) := by
  unfold toC
  rw [List.getElem?_map, List.getElem?_zipIdx]
  cases prog[n]? with
  | none => rfl
  | some i => simp

theorem length_toC (cubeType : CubeType) (prog : List Insn) :
    (toC cubeType prog).length = prog.length := by
  unfold toC
  rw [List.length_map, List.length_zipIdx]

/-- The code of a filter only goes forward. -/
theorem toC_forward {op : JmpOp} {rhs : Operand} {jt jf : ℕ} (i : Insn)
    (h : cbpfDump cubeType n i = .branch op rhs jt jf) : n < jt ∧ n < jf := by
  cases i with
  | jmp op' src jt' jf' =>
    cases h
    exact ⟨by omega, by omega⟩
  | ret v =>
    cases v with
    | k k =>
      unfold cbpfDump at h
      dsimp only at h
      split_ifs at h
    | a => cases h
    | x => cases h
  | _ => cases h

theorem exists_run (around : ℤ → BitVec 8) (cubeType : CubeType) (prog : List Insn) (s : CState) :
    ∃ r, runFrom (cStep around (toC cubeType prog)) ((toC cubeType prog).length + 1) 0 s =
      some r := by
  refine exists_runFrom (toC cubeType prog).length (fun pc s pc' s' h => ?_)
    (fun pc s h => ⟨(.ok, s), ?_⟩) (by omega) s
  · unfold cStep at h
    split at h
    · cases h
    · next line hline =>
      rw [getElem?_toC] at hline
      obtain ⟨i, hi, rfl⟩ := Option.map_eq_some_iff.1 hline
      rcases (step_goto h).2 with rfl | ⟨op, rhs, jt, jf, hbranch, rfl | rfl⟩
      · omega
      · exact (toC_forward i hbranch).1
      · exact (toC_forward i hbranch).2
  · unfold cStep
    rw [List.getElem?_eq_none h]

/-- The filter lets every packet pass as it is, exactly when each load that it comes to lies in the
packet. -/
theorem handleRx_ok_iff (around : ℤ → BitVec 8) (cubeType : CubeType) (prog : List Insn)
    (s : CState) (h : compiles (toC cubeType prog) = true) :
    ∃ rx s', handleRx around (toC cubeType prog) s = some (rx, s') ∧ s'.packet = s.packet ∧
      (rx = .ok ↔ ∀ b ∈ needed around (toC cubeType prog) ((toC cubeType prog).length + 1) 0 s,
        b ≤ (s.packet.length : ℤ)) := by
  obtain ⟨⟨rx, s'⟩, hrun⟩ := exists_run around cubeType prog s
  refine ⟨rx, s', ?_, run_ok_iff hrun⟩
  unfold handleRx
  rw [if_pos h, hrun]

/-- `arp`, as the compiler of filters has it. -/
def arpFilter : List Insn :=
  [.ldAbs .half 12, .jmp .jeq (.k 0x806) 0 1, .ret (.k 0xffffffff), .ret (.k 0)]

theorem handleRx_arp :
    ∃ rx s', handleRx (fun _ => 0) (toC .tc arpFilter)
        ⟨0, 0, fun _ => 0, 0, List.replicate 14 0⟩ = some (rx, s') ∧
      s'.packet = List.replicate 14 0 ∧
      (rx = .ok ↔ ∀ b ∈ needed (fun _ => 0) (toC .tc arpFilter)
        ((toC .tc arpFilter).length + 1) 0 ⟨0, 0, fun _ => 0, 0, List.replicate 14 0⟩,
        b ≤ ((List.replicate 14 (0 : BitVec 8)).length : ℤ)) :=
  handleRx_ok_iff (fun _ => 0) .tc arpFilter ⟨0, 0, fun _ => 0, 0, List.replicate 14 0⟩ (by decide)

/-- A packet with no type field is dropped. -/
theorem handleRx_arp_short :
    ¬ ∃ s', handleRx (fun _ => 0) (toC .tc arpFilter) ⟨0, 0, fun _ => 0, 0, List.replicate 10 0⟩ =
      some (.ok, s') := by
  rintro ⟨s', h⟩
  have drop : (handleRx (fun _ => 0) (toC .tc arpFilter)
      ⟨0, 0, fun _ => 0, 0, List.replicate 10 0⟩).map Prod.fst = some .drop := by decide +kernel
  rw [h] at drop
  cases drop

end Compiled

end Polycube.Capture
