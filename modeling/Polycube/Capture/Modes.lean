import Polycube.Capture.Translated
import Polycube.Lib.Run

/-!
# Capture modes

The mode is one variable of `Packetcapture`, the filter another; what hands packets to the control
plane are the programs loaded in the two directions.  `setFilter` loads some of them, `setCapture`
none.  So a change of the mode leaves the programs of the mode before behind, and a filter that is
set while the mode is off is loaded in both directions.
-/

namespace Polycube.Capture

open Function Lib

/-- `CapStatus` -/
inductive CapStatus
  | ingress | egress | bidirectional | off
  deriving DecidableEq

inductive Direction
  | ingress | egress
  deriving DecidableEq

def CapStatus.selects : CapStatus → Direction → Bool
  | .ingress, .ingress | .egress, .egress | .bidirectional, _ => true
  | _, _ => false

/-- The directions `updateFilter` loads, in its order. -/
def CapStatus.reloaded : CapStatus → List Direction
  | .off | .bidirectional => [.ingress, .egress]
  | .ingress => [.ingress]
  | .egress => [.egress]

abbrev Compiled := { prog : List Insn // cbpfValidate prog = true }

/-- The value of `setFilter`: the word `all`, or an expression. -/
inductive Filter
  | all
  | expr (prog : Compiled)

/-- What `filterCompile` makes of a return: all of the packet is taken. -/
def Insn.whole : Insn → Insn
  | .ret (.k k) => .ret (.k (if 0 < k then 0xffffffff else k))
  | i => i

/-- `filterCode`, what takes the place of `//CUSTOM_FILTER_CODE`. -/
inductive FilterCode
  /-- `return RX_OK;`, the default -/
  | pass
  /-- the packet is handed over, whatever it is -/
  | all
  | text (lines : List Line)

/-- `filterCode` of a filter. -/
def Filter.code (cubeType : CubeType) : Filter → FilterCode
  | .all => .all
  | .expr prog => .text (toC cubeType (prog.1.map Insn.whole))

def FilterCode.compiles : FilterCode → Bool
  | .pass | .all => true
  | .text lines => Capture.compiles lines

/-- `Packetcapture`, and the programs it has loaded. -/
structure Cube where
  capStatus : CapStatus
  filter : Option Filter
  filterCode : FilterCode
  loaded : Direction → FilterCode

def Cube.new (capture : CapStatus) : Cube := ⟨capture, none, .pass, fun _ => .pass⟩

def Cube.setCapture (value : CapStatus) (s : Cube) : Cube := { s with capStatus := value }

/-- `reload` of the directions in turn.  It throws where the text does not compile or the kernel
does not accept the program; the directions that come first are then loaded. -/
def reloadAll (accepts : Direction → Bool) : List Direction → Cube → Cube
  | [], s => s
  | d :: ds, s =>
    if s.filterCode.compiles && accepts d then
      reloadAll accepts ds { s with loaded := update s.loaded d s.filterCode }
    else s

def Cube.updateFilter (accepts : Direction → Bool) (s : Cube) : Cube :=
  reloadAll accepts s.capStatus.reloaded s

/-- `setFilter`; a text that libpcap does not compile is refused. -/
def Cube.setFilter (cubeType : CubeType) (value : Option Filter) (accepts : Direction → Bool)
    (s : Cube) : Cube :=
  match value with
  | none => s
  | some f =>
    Cube.updateFilter accepts { s with filter := some f, filterCode := f.code cubeType }

/-- A request: what libpcap makes of a filter and which programs the kernel accepts are given. -/
inductive Request
  | setCapture (value : CapStatus)
  | setFilter (value : Option Filter) (accepts : Direction → Bool)

def Cube.handle (cubeType : CubeType) (s : Cube) : Request → Cube
  | .setCapture value => s.setCapture value
  | .setFilter value accepts => s.setFilter cubeType value accepts

/-- How often a program hands a packet to the control plane.  The variables `a`, `x` and `m` have
the values they happen to have. -/
def FilterCode.handed (around : ℤ → BitVec 8) (a x : Word) (m : ℕ → Word) (pkt : Packet) :
    FilterCode → ℕ
  | .pass => 0
  | .all => 1
  | .text lines => (handleRx around lines ⟨a, x, m, 0, pkt⟩).elim 0 fun r => r.2.submitted

def Hands (code : FilterCode) (pkt : Packet) (n : ℕ) : Prop :=
  ∀ around a x m, code.handed around a x m pkt = n

def Filter.Matches (pkt : Packet) : Filter → Prop
  | .all => True
  | .expr prog => ∃ r, Returns prog.1 pkt r ∧ r ≠ 0

def Cube.Matches (s : Cube) (pkt : Packet) : Prop := ∃ f, s.filter = some f ∧ f.Matches pkt

/-- In both directions, a packet is handed over, and once, if the mode asks for the direction and
the packet matches the latest filter; otherwise it is not. -/
def Honoured (pkt : Packet) (s : Cube) : Prop :=
  ∀ d, (s.capStatus.selects d = true ∧ s.Matches pkt → Hands (s.loaded d) pkt 1) ∧
    (¬ (s.capStatus.selects d = true ∧ s.Matches pkt) → Hands (s.loaded d) pkt 0)

def Filter.Kept (pkt : Packet) : Filter → Prop
  | .all => True
  | .expr prog => Capture.Kept (prog.1.map Insn.whole) pkt

/-- A request leaves no program that does not do what the mode asks for.  The mode is not changed
as long as the filter takes the packet; while it is off, no filter is loaded that does; and the
programs it asks for are loaded, and say what the filter says. -/
def Fine (cubeType : CubeType) (pkt : Packet) (s : Cube) : Request → Prop
  | .setCapture value => value = s.capStatus ∨ ¬ s.Matches pkt
  | .setFilter none _ => True
  | .setFilter (some f) accepts =>
    if s.capStatus = .off then
      (f.code cubeType).compiles = true → accepts .ingress = true →
        f.Kept pkt ∧ ¬ f.Matches pkt
    else f.Kept pkt ∧ ∀ d, s.capStatus.selects d = true → accepts d = true

section Filters

variable {cubeType : CubeType} {prog : List Insn} {pkt : Packet} {f : Filter}

/-- Whether a packet is taken is left by `filterCompile`. -/
theorem like_whole (prog : List Insn) (pkt : Packet) (pc : ℕ) (s : Regs) :
    Next.Like (fun r r' : Word => r = 0 ↔ r' = 0) (bpfStep prog pkt pc s)
      (bpfStep (prog.map Insn.whole) pkt pc s) := by
  have same : ∀ n : Next Regs Word, Next.Like (fun r r' : Word => r = 0 ↔ r' = 0) n n := by
    rintro (⟨pc, s⟩ | r)
    · exact .goto pc s
    · exact .halt Iff.rfl
  unfold bpfStep
  rw [List.getElem?_map]
  cases prog[pc]? with
  | none => exact same _
  | some i =>
    cases i with
    | ret v =>
      cases v with
      | k k =>
        refine .halt ?_
        split_ifs with h
        · exact iff_of_false (fun hk => by rw [hk] at h; exact absurd h (by decide)) (by decide)
        · exact Iff.rfl
      | a => exact same _
      | x => exact same _
    | _ => exact same _

theorem like_whole_symm (prog : List Insn) (pkt : Packet) (pc : ℕ) (s : Regs) :
    Next.Like (fun r r' : Word => r = 0 ↔ r' = 0) (bpfStep (prog.map Insn.whole) pkt pc s)
      (bpfStep prog pkt pc s) := by
  have like := like_whole prog pkt pc s
  generalize bpfStep prog pkt pc s = n at like ⊢
  generalize bpfStep (prog.map Insn.whole) pkt pc s = n' at like ⊢
  cases like with
  | goto pc s => exact .goto pc s
  | halt h => exact .halt h.symm

theorem matches_whole (prog : List Insn) (pkt : Packet) :
    (∃ r, Returns (prog.map Insn.whole) pkt r ∧ r ≠ 0) ↔ ∃ r, Returns prog pkt r ∧ r ≠ 0 := by
  constructor
  · rintro ⟨r, ⟨n, h⟩, hr⟩
    obtain ⟨r', h', hr'⟩ := exists_runFrom_of_like (like_whole_symm prog pkt) h
    exact ⟨r', ⟨n, h'⟩, fun h0 => hr (hr'.2 h0)⟩
  · rintro ⟨r, ⟨n, h⟩, hr⟩
    obtain ⟨r', h', hr'⟩ := exists_runFrom_of_like (like_whole prog pkt) h
    exact ⟨r', ⟨n, h'⟩, fun h0 => hr (hr'.2 h0)⟩

theorem valid_whole (len n : ℕ) (i : Insn) : i.whole.valid len n = i.valid len n := by
  cases i with
  | ret v => cases v <;> rfl
  | _ => rfl

theorem isRet_whole (i : Insn) : i.whole.isRet = i.isRet := by
  cases i with
  | ret v => cases v <;> rfl
  | _ => rfl

theorem cbpfValidate_whole (prog : List Insn) :
    cbpfValidate (prog.map Insn.whole) = cbpfValidate prog := by
  unfold cbpfValidate
  rw [List.zipIdx_map, List.all_map, List.getLast?_map, Option.any_map]
  congr 1
  · refine congrArg (fun p => List.all prog.zipIdx p) (funext fun i => ?_)
    rw [comp_apply, Prod.map_fst, Prod.map_snd, valid_whole, List.length_map]
    rfl
  · exact congrArg (fun p => Option.any p prog.getLast?) (funext isRet_whole)

variable (cubeType) in
theorem compiles_of_kept (kept : f.Kept pkt) : (f.code cubeType).compiles = true := by
  cases f with
  | all => rfl
  | expr prog =>
    exact (compiles_toC cubeType ((cbpfValidate_whole prog.1).trans prog.2)).trans kept.1

variable (cubeType) in
/-- The code of a filter that is kept hands the packet over once if the packet matches. -/
theorem hands_of_kept (kept : f.Kept pkt) :
    (f.Matches pkt → Hands (f.code cubeType) pkt 1) ∧
      (¬ f.Matches pkt → Hands (f.code cubeType) pkt 0) := by
  cases f with
  | all => exact ⟨fun _ _ _ _ _ => rfl, fun h => absurd trivial h⟩
  | expr prog =>
    obtain ⟨hc, hrun⟩ := kept
    have hv := (cbpfValidate_whole prog.1).trans prog.2
    have handed : ∀ around a x m, ∃ r, Returns (prog.1.map Insn.whole) pkt r ∧
        (Filter.code cubeType (.expr prog)).handed around a x m pkt = if r = 0 then 0 else 1 := by
      intro around a x m
      obtain ⟨rx, c, htext, r, hbpf, hsub⟩ := run_of_kept around cubeType hc hrun
        (⟨fun h => absurd h Bool.false_ne_true, rfl⟩ : Follows pkt false _ ⟨a, x, m, 0, pkt⟩)
      refine ⟨r, ⟨_, hbpf⟩, ?_⟩
      have hrx : handleRx around (toC cubeType (prog.1.map Insn.whole)) ⟨a, x, m, 0, pkt⟩ =
          some (rx, c) := by
        unfold handleRx
        rw [if_pos ((compiles_toC cubeType hv).trans hc), length_toC]
        exact htext
      show (handleRx around (toC cubeType (prog.1.map Insn.whole)) ⟨a, x, m, 0, pkt⟩).elim 0
        (fun r => r.2.submitted) = _
      rw [hrx]
      exact hsub.trans (Nat.zero_add _)
    constructor
    · intro taken around a x m
      obtain ⟨r, ⟨n, hr⟩, hh⟩ := handed around a x m
      obtain ⟨r', ⟨n', hr'⟩, h0⟩ := (matches_whole prog.1 pkt).2 taken
      rw [hh, runFrom_unique hr hr', if_neg h0]
    · intro refused around a x m
      obtain ⟨r, hr, hh⟩ := handed around a x m
      have h0 : r = 0 := by
        by_contra h0
        exact refused ((matches_whole prog.1 pkt).1 ⟨r, hr, h0⟩)
      rw [hh, if_pos h0]

end Filters

/-! ### Requests -/

section Requests

variable {cubeType : CubeType} {pkt : Packet} {s : Cube} {code : FilterCode}

theorem not_hands_both (h₀ : Hands code pkt 0) (h₁ : Hands code pkt 1) : False := by
  have := (h₀ (fun _ => 0) 0 0 fun _ => 0).symm.trans (h₁ (fun _ => 0) 0 0 fun _ => 0)
  cases this

theorem CapStatus.ext_selects {v w : CapStatus} (h : ∀ d, v.selects d = w.selects d) : v = w := by
  have hi := h .ingress
  have he := h .egress
  cases v <;> cases w <;> first | rfl | exact absurd hi (by decide) | exact absurd he (by decide)

/-- The mode may be changed exactly if the filter does not take the packet. -/
theorem honoured_setCapture_iff (h : Honoured pkt s) (value : CapStatus) :
    Honoured pkt (s.setCapture value) ↔ value = s.capStatus ∨ ¬ s.Matches pkt := by
  constructor
  · intro h'
    by_cases taken : s.Matches pkt
    · refine Or.inl (CapStatus.ext_selects fun d => ?_)
      have old := h d
      have new := h' d
      cases hs : s.capStatus.selects d with
      | true =>
        by_contra hv
        exact not_hands_both (new.2 fun hn => hv hn.1) (old.1 ⟨hs, taken⟩)
      | false =>
        by_contra hv
        have hv : value.selects d = true := by simpa using hv
        refine not_hands_both (old.2 fun hn => ?_) (new.1 ⟨hv, taken⟩)
        rw [hs] at hn
        exact Bool.false_ne_true hn.1
    · exact Or.inr taken
  · rintro (rfl | refused)
    · exact h
    · intro d
      refine ⟨fun hn => absurd hn.2 refused, fun _ => (h d).2 fun hn => refused hn.2⟩

@[simp] theorem reloadAll_capStatus (accepts : Direction → Bool) (ds : List Direction) (s : Cube) :
    (reloadAll accepts ds s).capStatus = s.capStatus := by
  induction ds generalizing s with
  | nil => rfl
  | cons d ds ih =>
    unfold reloadAll
    split_ifs
    · exact ih _
    · rfl

@[simp] theorem reloadAll_filter (accepts : Direction → Bool) (ds : List Direction) (s : Cube) :
    (reloadAll accepts ds s).filter = s.filter := by
  induction ds generalizing s with
  | nil => rfl
  | cons d ds ih =>
    unfold reloadAll
    split_ifs
    · exact ih _
    · rfl

/-- A direction holds what it held, or is one of those loaded, and holds the filter code. -/
theorem loaded_reloadAll (accepts : Direction → Bool) (ds : List Direction) (s : Cube)
    (d : Direction) :
    (reloadAll accepts ds s).loaded d = s.loaded d ∨
      d ∈ ds ∧ (reloadAll accepts ds s).loaded d = s.filterCode := by
  induction ds generalizing s with
  | nil => exact Or.inl rfl
  | cons d' ds ih =>
    unfold reloadAll
    split_ifs
    · rcases ih { s with loaded := update s.loaded d' s.filterCode } with h | ⟨hd, h⟩
      · rw [h]
        by_cases hd : d = d'
        · rw [hd]
          exact Or.inr ⟨List.mem_cons_self, update_self ..⟩
        · exact Or.inl (update_of_ne hd ..)
      · exact Or.inr ⟨List.mem_cons_of_mem _ hd, h⟩
    · exact Or.inl rfl

/-- Where nothing fails, the directions hold the filter code. -/
theorem loaded_reloadAll_of_mem {accepts : Direction → Bool} {ds : List Direction} {d : Direction}
    (hc : s.filterCode.compiles = true) (ha : ∀ d ∈ ds, accepts d = true) (hd : d ∈ ds) :
    (reloadAll accepts ds s).loaded d = s.filterCode := by
  induction ds generalizing s with
  | nil => cases hd
  | cons d' ds ih =>
    unfold reloadAll
    rw [hc, ha d' List.mem_cons_self, Bool.and_self, if_pos rfl]
    rcases List.mem_cons.1 hd with rfl | hd
    · rcases loaded_reloadAll accepts ds
        { s with loaded := update s.loaded d s.filterCode } d with h | ⟨-, h⟩
      · rw [h]
        exact update_self ..
      · exact h
    · exact ih (s := { s with loaded := update s.loaded d' s.filterCode }) hc
        (fun d hd => ha d (List.mem_cons_of_mem _ hd)) hd

theorem reloadAll_of_refused {accepts : Direction → Bool} {d : Direction} {ds : List Direction}
    (h : (s.filterCode.compiles && accepts d) = false) : reloadAll accepts (d :: ds) s = s := by
  unfold reloadAll
  rw [h]
  rfl

theorem mem_reloaded {v : CapStatus} (h : v ≠ .off) {d : Direction} :
    d ∈ v.reloaded ↔ v.selects d = true := by
  cases v <;> cases d <;> first | decide | exact absurd rfl h

theorem selects_off (d : Direction) : CapStatus.selects .off d = false := by
  cases d <;> rfl

variable {f : Filter} {accepts : Direction → Bool} {d : Direction}

theorem matches_setFilter :
    (s.setFilter cubeType (some f) accepts).Matches pkt ↔ f.Matches pkt := by
  have latest : (s.setFilter cubeType (some f) accepts).filter = some f := reloadAll_filter ..
  unfold Cube.Matches
  rw [latest]
  exact ⟨fun ⟨g, hg, hm⟩ => Option.some.inj hg ▸ hm, fun hm => ⟨f, rfl, hm⟩⟩

/-- A direction that is not asked for takes nothing before. -/
theorem hands_of_not_selects (h : Honoured pkt s) (hd : s.capStatus.selects d = false) :
    Hands (s.loaded d) pkt 0 := by
  refine (h d).2 fun hn => ?_
  rw [hd] at hn
  exact Bool.false_ne_true hn.1

theorem hands_setFilter_off (h : Honoured pkt s) (hoff : s.capStatus = .off)
    (fine : (f.code cubeType).compiles = true → accepts .ingress = true →
      f.Kept pkt ∧ ¬ f.Matches pkt) :
    Hands ((s.setFilter cubeType (some f) accepts).loaded d) pkt 0 := by
  have old : Hands (s.loaded d) pkt 0 :=
    hands_of_not_selects h (by rw [hoff]; exact selects_off d)
  show Hands ((reloadAll accepts s.capStatus.reloaded
    { s with filter := some f, filterCode := f.code cubeType }).loaded d) pkt 0
  cases hl : (f.code cubeType).compiles && accepts .ingress with
  | false =>
    rw [show s.capStatus.reloaded = [.ingress, .egress] by rw [hoff]; rfl,
      reloadAll_of_refused hl]
    exact old
  | true =>
    obtain ⟨hc, ha⟩ := Bool.and_eq_true_iff.1 hl
    obtain ⟨kept, refused⟩ := fine hc ha
    rcases loaded_reloadAll accepts s.capStatus.reloaded
      { s with filter := some f, filterCode := f.code cubeType } d with he | ⟨-, he⟩
    · rw [he]
      exact old
    · rw [he]
      exact (hands_of_kept cubeType kept).2 refused

theorem loaded_setFilter_of_selects (hoff : s.capStatus ≠ .off)
    (hc : (f.code cubeType).compiles = true)
    (accepted : ∀ d, s.capStatus.selects d = true → accepts d = true)
    (hd : s.capStatus.selects d = true) :
    (s.setFilter cubeType (some f) accepts).loaded d = f.code cubeType :=
  loaded_reloadAll_of_mem (s := { s with filter := some f, filterCode := f.code cubeType }) hc
    (fun d hd => accepted d ((mem_reloaded hoff).1 hd)) ((mem_reloaded hoff).2 hd)

theorem loaded_setFilter_of_not_selects (hoff : s.capStatus ≠ .off)
    (hd : s.capStatus.selects d = false) :
    (s.setFilter cubeType (some f) accepts).loaded d = s.loaded d := by
  rcases loaded_reloadAll accepts s.capStatus.reloaded
    { s with filter := some f, filterCode := f.code cubeType } d with he | ⟨hmem, -⟩
  · exact he
  · rw [(mem_reloaded hoff).1 hmem] at hd
    cases hd

theorem honoured_handle (r : Request) (h : Honoured pkt s) (fine : Fine cubeType pkt s r) :
    Honoured pkt (s.handle cubeType r) := by
  cases r with
  | setCapture value => exact (honoured_setCapture_iff h value).2 fine
  | setFilter value accepts =>
    cases value with
    | none => exact h
    | some f =>
      show Honoured pkt (s.setFilter cubeType (some f) accepts)
      have mode : (s.setFilter cubeType (some f) accepts).capStatus = s.capStatus :=
        reloadAll_capStatus ..
      intro d
      rw [mode, matches_setFilter]
      unfold Fine at fine
      split_ifs at fine with hoff
      · refine ⟨fun hn => ?_, fun _ => hands_setFilter_off h hoff fine⟩
        rw [hoff, selects_off] at hn
        exact absurd hn.1 Bool.false_ne_true
      · obtain ⟨kept, accepted⟩ := fine
        cases hs : s.capStatus.selects d with
        | true =>
          obtain ⟨taken, refused⟩ := hands_of_kept cubeType kept
          rw [loaded_setFilter_of_selects hoff (compiles_of_kept cubeType kept) accepted hs]
          exact ⟨fun hn => taken hn.2, fun hn => refused fun hm => hn ⟨rfl, hm⟩⟩
        | false =>
          refine ⟨fun hn => absurd hn.1 Bool.false_ne_true, fun _ => ?_⟩
          rw [loaded_setFilter_of_not_selects hoff hs]
          exact hands_of_not_selects h hs

theorem honoured_new (pkt : Packet) (capture : CapStatus) : Honoured pkt (Cube.new capture) := by
  intro d
  refine ⟨?_, fun _ _ _ _ _ => rfl⟩
  rintro ⟨-, f, hf, -⟩
  cases hf

/-- In a run of fine requests, the packet is captured as the latest mode and the latest filter say
in every state. -/
theorem honoured_of_run (cubeType : CubeType) (pkt : Packet) (capture : CapStatus)
    (requests : List Request)
    (fine : Meets (Cube.handle cubeType) (Fine cubeType pkt) (Cube.new capture) requests) :
    Honoured pkt (run (Cube.handle cubeType) (Cube.new capture) requests) :=
  run_induction (fun _ r => honoured_handle r) (honoured_new pkt capture) fine

end Requests

def arpExpr : Filter := .expr ⟨arpFilter, by decide⟩

def chosenFirst : List Request :=
  [.setCapture .bidirectional, .setFilter (some .all) fun _ => true,
    .setFilter none fun _ => true, .setFilter (some arpExpr) fun _ => true]

theorem honoured_chosenFirst :
    Honoured arpPacket (run (Cube.handle .tc) (Cube.new .off) chosenFirst) := by
  refine honoured_of_run .tc arpPacket .off chosenFirst ⟨Or.inr ?_, ?_, trivial, ?_, trivial⟩
  · rintro ⟨f, hf, -⟩
    cases hf
  · exact ⟨trivial, fun _ _ => rfl⟩
  · exact ⟨(by decide +kernel : Kept (arpFilter.map Insn.whole) arpPacket), fun _ _ => rfl⟩

/-- The mode is turned off with a filter in place, and the packets still come. -/
theorem not_honoured_off :
    ¬ ∀ (cubeType : CubeType) (pkt : Packet) (capture : CapStatus) (requests : List Request),
      Honoured pkt (run (Cube.handle cubeType) (Cube.new capture) requests) := by
  intro h
  have off := h .tc arpPacket .ingress
    [.setFilter (some .all) fun _ => true, .setCapture .off] .ingress
  have none := off.2 (fun hn => Bool.false_ne_true hn.1) (fun _ => 0) 0 0 fun _ => 0
  exact absurd none (by decide)

end Polycube.Capture
