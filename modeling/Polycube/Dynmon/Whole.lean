import Polycube.Dynmon.Paths

/-!
# All or nothing

A configuration that is set on a path with one program either is loaded as a whole, or leaves the
default and the programs that were begun and are not counted.  So ingress leaves none, and egress
none as long as no second program has been begun.
-/

namespace Polycube.Dynmon

open Function Lib

variable {p : Path} {c : PathConfig} {o : Outcomes} {n : ℕ} {ok counts : Bool} {code : Code} {i : ℕ}
  {Q : Unit → Path → Prop} {E : String → Path → Prop}

/-! ### Programs -/

section Programs

@[simp] theorem wp_reload : wp (reload ok code i) Q E p ↔
    if p.programs i = .empty then E "ebpf does not exist" p
    else if ok = true then Q ⟨⟩ (p.put i (.loaded code))
    else E "failed to load ebpf program" p := by
  unfold reload
  rw [wp_bind, wp_get, wp_ite, wp_ite, wp_throw, wp_throw, wp_set]

@[simp] theorem wp_addProgram : wp (addProgram ok code i) Q E p ↔
    if p.programs i ≠ .empty then E "Program is not empty" p
    else if ok = true then Q ⟨⟩ (p.put i (.loaded code))
    else E "failed to load ebpf program" (p.put i .broken) := by
  unfold addProgram
  rw [wp_bind, wp_get, wp_ite, wp_ite, wp_throw, wp_set, wp_bind, wp_set, wp_throw]

@[simp] theorem wp_delProgram : wp (delProgram i) Q E p ↔
    if p.programs i = .empty then E "ebpf program does not exist" p
    else Q ⟨⟩ (p.put i .empty) := by
  unfold delProgram
  rw [wp_bind, wp_get, wp_ite, wp_throw, wp_set]

@[simp] theorem wp_setPivot : wp (setPivot ok i) Q E p ↔
    if ok = true then Q ⟨⟩ { p with pivot := i } else E "map update failed" p := by
  unfold setPivot
  rw [wp_ite, wp_modify, wp_throw]

@[simp] theorem wp_count : wp (count counts) Q E p ↔
    Q ⟨⟩ { p with progress := if counts then p.progress + 1 else p.progress } := Iff.rfl

@[simp] theorem wp_replacePathConfig : wp (replacePathConfig c) Q E p ↔
    if c.valid = true then Q ⟨⟩ { p with config := some c }
    else E "Path Config: missing code" { p with config := none } := by
  unfold replacePathConfig
  rw [wp_bind, wp_modify, wp_ite, wp_modify, wp_throw]

@[simp] theorem wp_clearSwapState : wp clearSwapState Q E p ↔
    Q ⟨⟩ { p with rewriting := .none, current := 1 } := Iff.rfl

@[simp] theorem wp_advance : wp advance Q E p ↔
    Q ⟨⟩ { p with current := p.current % 2 + 1 } := Iff.rfl

theorem valid_default : PathConfig.default.valid = true := by decide

/-- The path without the programs from 1 to `n`. -/
def cleared (n : ℕ) (p : Path) : Path :=
  { p with programs := fun i => if i ≠ 0 ∧ i ≤ n then .empty else p.programs i }

theorem wp_delPrograms (n : ℕ) (h : ∀ i, i ≠ 0 → i ≤ n → p.programs i ≠ .empty) :
    wp (delPrograms n) (fun _ p' => p' = cleared n p) (fun _ _ => False) p := by
  induction n with
  | zero =>
    have same : p.programs = fun i => if i ≠ 0 ∧ i ≤ 0 then .empty else p.programs i := by
      funext i
      rw [if_neg (by omega)]
    show p = { p with programs := _ }
    rw [← same]
  | succ n ih =>
    unfold delPrograms
    rw [wp_bind]
    refine wp_mono (ih fun i h0 hi => h i h0 (by omega)) (fun _ p' hp' => ?_) fun _ _ h => h
    subst hp'
    have there : (cleared n p).programs (n + 1) ≠ .empty := by
      show (if n + 1 ≠ 0 ∧ n + 1 ≤ n then Slot.empty else p.programs (n + 1)) ≠ .empty
      rw [if_neg (by omega)]
      exact h (n + 1) (by omega) (Nat.le_refl _)
    rw [wp_delProgram, if_neg there]
    unfold cleared Path.put
    congr 1
    funext i
    by_cases hi : i = n + 1
    · rw [hi, update_self, if_pos (by omega)]
    · rw [update_of_ne hi]
      exact if_congr (by omega) rfl rfl

end Programs

/-! ### Setting a configuration -/

section Set

theorem extra_put_zero {s : Slot} : Extra n (p.put 0 s) ↔ Extra n p :=
  forall₂_congr fun i h0 => by rw [Path.put_of_ne h0]

theorem Extra.put_succ (h : Extra n p) {s : Slot} (hs : s ≠ .empty) :
    Extra (n + 1) (p.put (n + 1) s) := by
  intro i h0
  by_cases hi : i = n + 1
  · rw [hi, Path.put_self]
    exact iff_of_true hs (Nat.le_refl _)
  · rw [Path.put_of_ne hi, h i h0]
    omega

theorem Extra.empty (h : Extra n p) (hi : n < i) : p.programs i = .empty := by
  by_contra hne
  have := (h i (by omega)).1 hne
  omega

structure Failed (counts begun : Bool) (p : Path) : Prop where
  first : p.programs 0 ≠ .empty
  extra : ∃ n, Extra n p ∧ p.progress = (if counts then n else 0) ∧ (n ≠ 0 ↔ begun = true)

theorem cleared_first (n : ℕ) (p : Path) : (cleared n p).programs 0 = p.programs 0 := by
  show (if 0 ≠ 0 ∧ 0 ≤ n then Slot.empty else p.programs 0) = _
  rw [if_neg (by omega)]

theorem Extra.cleared (h : Extra n p) : Extra 0 (cleared n p) := by
  intro i h0
  show (if i ≠ 0 ∧ i ≤ n then Slot.empty else p.programs i) ≠ .empty ↔ i ≤ 0
  split_ifs with hi
  · exact iff_of_false (fun h => h rfl) (by omega)
  · rw [h i h0]
    omega

theorem extra_cleared_zero : Extra n (cleared 0 p) ↔ Extra n p := by
  refine forall₂_congr fun i h0 => ?_
  show ((if i ≠ 0 ∧ i ≤ 0 then Slot.empty else p.programs i) ≠ .empty ↔ i ≤ n) ↔ _
  rw [if_neg (by omega)]

theorem loaded_ne_empty : Slot.loaded code ≠ .empty := fun h => by cases h

theorem broken_ne_empty : Slot.broken ≠ .empty := fun h => by cases h

theorem failed_zero (h0 : p.programs 0 ≠ .empty) (hx : Extra 0 p) (hp : p.progress = 0) :
    Failed counts false p :=
  ⟨h0, 0, hx, by rw [hp]; split_ifs <;> rfl, by simp⟩

theorem failed_succ (h0 : p.programs 0 ≠ .empty) (hx : Extra (n + 1) p)
    (hp : p.progress = if counts then n + 1 else 0) : Failed counts true p :=
  ⟨h0, n + 1, hx, hp, by simp⟩

theorem wp_addCounted (hx : Extra n p) (h0 : p.programs 0 ≠ .empty)
    (hp : p.progress = if counts then n else 0) :
    wp (addCounted counts ok code (n + 1))
      (fun _ p' => ok = true ∧ ∃ q : Path, p' = q.put (n + 1) (.loaded code) ∧
        q.programs = p.programs ∧ (q.rewriting = p.rewriting ∧ q.current = p.current) ∧
        Extra (n + 1) p' ∧
        p'.progress = if counts then n + 1 else 0)
      (fun _ p' => ok = false ∧ Failed counts true p') p := by
  have next : (if counts then p.progress + 1 else p.progress) = if counts then n + 1 else 0 := by
    cases counts <;> simp_all
  unfold addCounted
  rw [wp_bind, wp_count, wp_addProgram, if_neg (not_not.2 (hx.empty n.lt_succ_self))]
  have hx' : Extra n { p with progress := if counts then p.progress + 1 else p.progress } := hx
  by_cases h : ok = true
  · rw [if_pos h]
    exact ⟨h, _, rfl, rfl, ⟨rfl, rfl⟩, hx'.put_succ loaded_ne_empty, next⟩
  · rw [if_neg h]
    refine ⟨by simpa using h, failed_succ ?_ (hx'.put_succ broken_ne_empty) next⟩
    rw [Path.put_of_ne n.succ_ne_zero.symm]
    exact h0

theorem wp_loadPrograms {r : Rewriting} (h0 : p.programs 0 ≠ .empty) (hx : Extra 0 p)
    (hp : p.progress = 0) :
    wp (loadPrograms counts c o r)
      (fun _ p' => Holds c.getCode p' r ∧
        (p'.rewriting = p.rewriting ∧ p'.current = p.current) ∧
        (o.loads 0 && (!r.isIndexSwap || (o.loads 1 && o.loads 2 && o.pivot))) = true ∧
        Failed counts (r.isIndexSwap && o.loads 0) p')
      (fun _ p' => (o.loads 0 && (!r.isIndexSwap || (o.loads 1 && o.loads 2 && o.pivot))) = false ∧
        Failed counts (r.isIndexSwap && o.loads 0) p') p := by
  have one (code : Code) : Failed counts false (p.put 0 (.loaded code)) :=
    failed_zero (by simp [loaded_ne_empty]) (extra_put_zero.2 hx) hp
  cases r with
  | none =>
    unfold loadPrograms
    rw [wp_reload, if_neg h0]
    split_ifs with h
    · exact ⟨⟨p.put_self .., extra_put_zero.2 hx⟩, ⟨rfl, rfl⟩, by simp [h, Rewriting.isIndexSwap], one _⟩
    · exact ⟨by simp [h], failed_zero h0 hx hp⟩
  | programReload original swapped names =>
    unfold loadPrograms
    rw [wp_reload, if_neg h0]
    split_ifs with h
    · exact ⟨⟨Or.inl (p.put_self ..), extra_put_zero.2 hx⟩, ⟨rfl, rfl⟩,
        by simp [h, Rewriting.isIndexSwap], one _⟩
    · exact ⟨by simp [h], failed_zero h0 hx hp⟩
  | programIndexSwap master original swapped names globalNames =>
    unfold loadPrograms
    rw [wp_bind, wp_reload, if_neg h0]
    split_ifs with hl0
    · rw [wp_bind]
      have h0' : (p.put 0 (.loaded master)).programs 0 ≠ .empty := by simp [loaded_ne_empty]
      refine wp_mono (wp_addCounted (extra_put_zero.2 hx) h0' (by rw [p.put_progress, hp]; simp))
        ?_ fun _ p' h => ⟨by simp [h.1, Rewriting.isIndexSwap],
          by simpa [Rewriting.isIndexSwap, hl0] using h.2⟩
      rintro - p' ⟨hl1, q, rfl, hq, hr, hx1, hp1⟩
      have first : (q.put 1 (.loaded original)).programs 0 = .loaded master := by
        rw [Path.put_of_ne Nat.zero_ne_one, hq, p.put_self]
      rw [wp_bind]
      refine wp_mono (wp_addCounted hx1 (by rw [first]; exact loaded_ne_empty) hp1)
        ?_ fun _ p' h => ⟨by simp [h.1, Rewriting.isIndexSwap],
          by simpa [Rewriting.isIndexSwap, hl0] using h.2⟩
      rintro - p'' ⟨hl2, q', rfl, hq', hr', hx2, hp2⟩
      have first' : (q'.put 2 (.loaded swapped)).programs 0 = .loaded master := by
        rw [Path.put_of_ne (Nat.succ_ne_zero 1).symm, hq', first]
      have failed : Failed counts true (q'.put 2 (.loaded swapped)) :=
        failed_succ (by rw [first']; exact loaded_ne_empty) hx2 hp2
      rw [wp_setPivot]
      split_ifs with hpivot
      · have second : (q'.put 2 (.loaded swapped)).programs 2 = .loaded swapped := q'.put_self ..
        refine ⟨⟨⟨first', ?_, second, Or.inl rfl⟩, hx2⟩, ?_, ?_, ?_⟩
        · show (q'.put 2 (.loaded swapped)).programs 1 = _
          rw [Path.put_of_ne (by decide), hq', Path.put_self]
        · exact ⟨hr'.1.trans hr.1, hr'.2.trans hr.2⟩
        · simp [hl0, hl1, hl2, hpivot]
        · rw [hl0]
          exact ⟨failed.first, failed.extra⟩
      · exact ⟨by simp [hpivot, Rewriting.isIndexSwap],
          by simpa [Rewriting.isIndexSwap, hl0] using failed⟩
    · exact ⟨by simp [hl0], by simpa [hl0] using failed_zero h0 hx hp⟩

theorem load_eq {r : Rewriting} (hr : rewritten c o = some r) : succeeds c o =
    (o.loads 0 && (!r.isIndexSwap || (o.loads 1 && o.loads 2 && o.pivot)) && c.valid) := by
  unfold succeeds
  rw [hr]

theorem begins_eq {r : Rewriting} (hr : rewritten c o = some r) :
    begins c o = (r.isIndexSwap && o.loads 0) := by
  unfold begins
  rw [hr, Option.any_some]

theorem wp_load (h0 : p.programs 0 ≠ .empty) (hx : Extra 0 p) (hp : p.progress = 0) :
    wp (load counts c o)
      (fun _ p' => succeeds c o = true ∧ rewritten c o = some p'.rewriting ∧
        Configured (c, p'.rewriting) p')
      (fun _ p' => succeeds c o = false ∧ Failed counts (begins c o) p') p := by
  unfold load
  rw [wp_bind]
  unfold compile
  cases hr : rewritten c o with
  | none =>
    have hs : succeeds c o = false := by
      unfold succeeds
      rw [hr]
    have hb : begins c o = false := by
      unfold begins
      rw [hr]
      rfl
    rw [wp_throw, hb]
    exact ⟨hs, failed_zero h0 hx hp⟩
  | some r =>
    rw [load_eq hr, begins_eq hr, wp_modify, wp_bind, wp_get, wp_bind]
    refine wp_mono (wp_loadPrograms (p := { p with rewriting := r, current := 1 }) h0 hx hp)
      (fun _ p' hp' => ?_) fun _ p' hp' => ⟨by rw [hp'.1]; rfl, hp'.2⟩
    obtain ⟨holds, ⟨rewriting, current⟩, loads, failed⟩ := hp'
    rw [loads, wp_replacePathConfig]
    cases hv : c.valid with
    | true =>
      rw [← rewriting] at holds
      exact ⟨rfl, congrArg some rewriting.symm, rfl, rfl, .inl current, holds⟩
    | false => exact ⟨rfl, failed.first, failed.extra⟩

theorem wp_restore {begun : Bool} (h : Failed counts begun p) :
    wp (restore true)
      (fun _ p' => (p'.config = some .default ∧ p'.rewriting = .none ∧ p'.current = 1) ∧
        p'.programs 0 = .loaded defaultCode ∧
        ∃ n, Extra n p' ∧ (n = 0 ↔ counts = true ∨ begun = false))
      (fun _ _ => False) p := by
  obtain ⟨n, hx, hp, hn⟩ := h.extra
  unfold restore
  rw [wp_bind, wp_replacePathConfig, if_pos valid_default, wp_bind, wp_reload,
    if_neg h.first, if_pos rfl, wp_bind, wp_get, wp_bind]
  have hx : Extra n ({ p with config := some .default }.put 0 (.loaded defaultCode)) :=
    extra_put_zero.2 hx
  have first := ({ p with config := some .default } : Path).put_self 0 (.loaded defaultCode)
  have config : ({ p with config := some .default }.put 0 (.loaded defaultCode)).config =
      some .default := rfl
  have hp : ({ p with config := some .default }.put 0 (.loaded defaultCode)).progress =
      if counts then n else 0 := hp
  generalize ({ p with config := some .default } : Path).put 0 (.loaded defaultCode) = q at *
  refine wp_mono (wp_delPrograms _ fun i h0 hi => (hx i h0).2 ?_) (fun _ p' hp' => ?_)
    fun _ _ h => h
  · rw [hp] at hi
    split_ifs at hi <;> omega
  · subst hp'
    rw [wp_clearSwapState]
    refine ⟨⟨config, rfl, rfl⟩, (cleared_first q.progress q).trans first, ?_⟩
    cases hc : counts with
    | true =>
      rw [hc, if_pos rfl] at hp
      rw [hp]
      exact ⟨0, hx.cleared, by simp⟩
    | false =>
      rw [hc, if_neg Bool.false_ne_true] at hp
      rw [hp]
      exact ⟨n, extra_cleared_zero.2 hx, by cases begun <;> simp_all⟩

variable (counts) in
theorem wp_setPathConfig (h0 : p.programs 0 ≠ .empty) (hx : Extra 0 p)
    (hd : succeeds c o = false → o.default = true) :
    wp (setPathConfig counts c o)
      (fun accepted p' => accepted = succeeds c o ∧
        (accepted = true → rewritten c o = some p'.rewriting ∧ Configured (c, p'.rewriting) p') ∧
        (accepted = false → (p'.config = some .default ∧ p'.rewriting = .none ∧ p'.current = 1) ∧
          p'.programs 0 = .loaded defaultCode ∧
          ∃ n, Extra n p' ∧ (n = 0 ↔ counts = true ∨ begins c o = false)))
      (fun _ _ => False) p := by
  unfold setPathConfig
  rw [wp_bind, wp_modify, wp_tryCatch, wp_bind]
  refine wp_mono (wp_load h0 hx rfl) (fun _ p' h => ?_) fun _ p' h => ?_
  · rw [wp_pure]
    exact ⟨h.1.symm, fun _ => h.2, fun h => absurd h (by decide)⟩
  · rw [wp_bind, hd h.1]
    refine wp_mono (wp_restore h.2) (fun _ p' hp' => ?_) fun _ _ h => h
    rw [wp_pure]
    exact ⟨h.1.symm, fun h => absurd h (by decide), fun _ => hp'⟩

/-- Over a configuration that swaps indices, a second program cannot be begun. -/
theorem wp_load_over (h0 : p.programs 0 ≠ .empty) (h1 : p.programs 1 ≠ .empty)
    (h2 : p.programs 2 ≠ .empty) (hp : p.progress = 0) :
    wp (load counts c o)
      (fun _ p' => p'.programs 2 ≠ .empty ∧ p'.rewriting.isIndexSwap = false)
      (fun _ p' => p'.programs 0 ≠ .empty ∧ p'.programs 1 ≠ .empty ∧ p'.programs 2 ≠ .empty ∧
        p'.progress ≤ 1) p := by
  have old : p.programs 0 ≠ .empty ∧ p.programs 1 ≠ .empty ∧ p.programs 2 ≠ .empty ∧
      p.progress ≤ 1 := ⟨h0, h1, h2, by omega⟩
  -- what is loaded at index 0 leaves the others
  have put {q : Path} (hq : q.programs = p.programs) (hprog : q.progress ≤ 1) (code : Code) :
      (q.put 0 (.loaded code)).programs 0 ≠ .empty ∧ (q.put 0 (.loaded code)).programs 1 ≠ .empty ∧
        (q.put 0 (.loaded code)).programs 2 ≠ .empty ∧ (q.put 0 (.loaded code)).progress ≤ 1 := by
    rw [Path.put_self, Path.put_of_ne (by decide), Path.put_of_ne (by decide), hq]
    exact ⟨loaded_ne_empty, h1, h2, hprog⟩
  unfold load compile
  rw [wp_bind]
  cases rewritten c o with
  | none => exact old
  | some r =>
    rw [wp_modify, wp_bind, wp_get, wp_bind]
    cases r with
    | none =>
      show wp (reload _ _ _) _ _ _
      rw [wp_reload, if_neg h0]
      split_ifs
      · rw [wp_replacePathConfig]
        have := put (q := { p with rewriting := .none, current := 1 }) rfl old.2.2.2 c.getCode
        split_ifs
        · exact ⟨this.2.2.1, rfl⟩
        · exact this
      · exact old
    | programReload original swapped names =>
      show wp (reload _ _ _) _ _ _
      rw [wp_reload, if_neg h0]
      split_ifs
      · rw [wp_replacePathConfig]
        have := put (q := { p with rewriting := .programReload original swapped names, current := 1 })
          rfl old.2.2.2 ((Rewriting.programReload original swapped names).codeToLoad 1)
        split_ifs
        · exact ⟨this.2.2.1, rfl⟩
        · exact this
      · exact old
    | programIndexSwap master original swapped names globalNames =>
      unfold loadPrograms addCounted
      rw [wp_bind, wp_reload, if_neg h0]
      split_ifs
      · rw [wp_bind, wp_bind, wp_count, wp_addProgram]
        have := put (q := { p with
          rewriting := .programIndexSwap master original swapped names globalNames, current := 1 })
          rfl old.2.2.2 master
        rw [if_pos this.2.1]
        refine ⟨this.1, this.2.1, this.2.2.1, ?_⟩
        show (if counts then p.progress + 1 else p.progress) ≤ 1
        split_ifs <;> omega
      · exact old

/-- A configuration set over one that swaps indices leaves its third program. -/
theorem wp_setPathConfig_over (h0 : p.programs 0 ≠ .empty) (h1 : p.programs 1 ≠ .empty)
    (h2 : p.programs 2 ≠ .empty) (hd : o.default = true) :
    wp (setPathConfig counts c o)
      (fun _ p' => p'.programs 2 ≠ .empty ∧ p'.rewriting.isIndexSwap = false)
      (fun _ _ => False) p := by
  unfold setPathConfig
  rw [wp_bind, wp_modify, wp_tryCatch, wp_bind]
  refine wp_mono (wp_load_over (p := { p with progress := 0 }) h0 h1 h2 rfl)
    (fun _ p' h => ?_) fun _ p' h => ?_
  · rw [wp_pure]
    exact h
  · obtain ⟨h0, h1, h2, hp⟩ := h
    rw [wp_bind, hd]
    unfold restore
    rw [wp_bind, wp_replacePathConfig, if_pos valid_default, wp_bind, wp_reload, if_neg h0,
      if_pos rfl, wp_bind, wp_get, wp_bind]
    have one : (({ p' with config := some .default } : Path).put 0 (.loaded defaultCode)).programs 1 ≠
        .empty := by
      rw [Path.put_of_ne (by decide)]
      exact h1
    have two : (({ p' with config := some .default } : Path).put 0 (.loaded defaultCode)).programs 2 ≠
        .empty := by
      rw [Path.put_of_ne (by decide)]
      exact h2
    have count : (({ p' with config := some .default } : Path).put 0
        (.loaded defaultCode)).progress ≤ 1 := hp
    generalize ({ p' with config := some .default } : Path).put 0 (.loaded defaultCode) = q at *
    refine wp_mono (wp_delPrograms _ fun i hi hle => ?_) (fun _ p'' hp'' => ?_) fun _ _ h => h
    · rw [show i = 1 by omega]
      exact one
    · subst hp''
      rw [wp_clearSwapState, wp_pure]
      refine ⟨?_, rfl⟩
      show (if 2 ≠ 0 ∧ 2 ≤ q.progress then Slot.empty else q.programs 2) ≠ .empty
      rw [if_neg (by omega)]
      exact two

end Set

section Whole

variable {a : PathConfig × Rewriting} {accepted : Option (PathConfig × Rewriting)}

theorem Configured.first (h : Configured a p) : ∃ code, p.programs 0 = .loaded code := by
  have holds := h.holds
  generalize a.2 = r at holds
  cases r with
  | none => exact ⟨_, holds.1⟩
  | programReload original swapped names => rcases holds.1 with h | h <;> exact ⟨_, h⟩
  | programIndexSwap master original swapped names globalNames => exact ⟨_, holds.1.1⟩

theorem Configured.extra (h : Configured a p) :
    if p.rewriting.isIndexSwap = true then
      ∃ original swapped, p.programs 1 = .loaded original ∧ p.programs 2 = .loaded swapped ∧
        Extra 2 p
    else Extra 0 p := by
  have holds := h.holds
  rw [h.rewriting]
  generalize a.2 = r at holds
  cases r with
  | none => exact holds.2
  | programReload original swapped names => exact holds.2
  | programIndexSwap master original swapped names globalNames =>
    exact ⟨original, swapped, holds.1.2.1, holds.1.2.2.1, holds.2⟩

variable {maps : Maps}

theorem Configured.readable (h : Configured a p) (has : a.2.HasMaps maps a.1) :
    Readable maps p := by
  obtain ⟨c, r⟩ := a
  obtain ⟨config, rewriting, current, holds⟩ := h
  refine ⟨c, config, fun metric member => ?_⟩
  have maps' := has metric member
  rw [rewriting]
  cases r with
  | none => exact ⟨_, holds.1, maps'⟩
  | programReload original swapped names =>
    rcases current with one | two
    · rw [one]
      rcases holds.1 with first | first
      · exact ⟨_, first, maps'.1.1⟩
      · exact ⟨_, first, maps'.1.2⟩
    · rw [two]
      rcases holds.1 with first | first
      · exact ⟨_, first, maps'.2.1⟩
      · exact ⟨_, first, maps'.2.2⟩
  | programIndexSwap master original swapped names globalNames =>
    -- The program that is read is the one that the master does not call.
    rcases current with one | two
    · rw [one]
      exact ⟨_, holds.1.2.2.1, maps'.1⟩
    · rw [two]
      exact ⟨_, holds.1.2.1, maps'.2⟩

theorem hasMaps_default : Rewriting.HasMaps maps .default .none := by
  intro metric member
  cases member

theorem Stands.configured (h : Stands accepted p) : ∃ a, Configured a p := by
  rcases h with h | ⟨a, -, h⟩
  · exact ⟨_, h⟩
  · exact ⟨a, h⟩

theorem Configured.first_ne (h : Configured a p) : p.programs 0 ≠ .empty := by
  obtain ⟨code, h⟩ := h.first
  rw [h]
  exact loaded_ne_empty

/-- A program behind the first where no indices are swapped is one too many. -/
theorem not_stands_of_extra (hi : i ≠ 0) (h : p.programs i ≠ .empty)
    (hr : p.rewriting.isIndexSwap = false) : ¬ Stands accepted p := by
  intro whole
  obtain ⟨a, conf⟩ := whole.configured
  have extra := conf.extra
  rw [hr, if_neg Bool.false_ne_true] at extra
  exact h (extra.empty (Nat.pos_of_ne_zero hi))

variable (counts) in
/-- Setting a configuration keeps a path standing exactly if the one before does not swap indices and,
where something throws, the programs begun are counted. -/
theorem stands_setPathConfig_iff (h : Stands accepted p)
    (hd : p.rewriting.isIndexSwap = true ∨ succeeds c o = false → o.default = true) :
    wp (setPathConfig counts c o) (fun b p' =>
      Stands (if b then p'.config.map fun c => (c, p'.rewriting) else accepted) p' ↔
        p.rewriting.isIndexSwap = false ∧
          (succeeds c o = false → counts = false → begins c o = false)) (fun _ _ => False) p := by
  obtain ⟨a, conf⟩ := h.configured
  have extra := conf.extra
  split_ifs at extra with hr
  · obtain ⟨original, swapped, h1, h2, -⟩ := extra
    refine wp_mono (wp_setPathConfig_over conf.first_ne (by rw [h1]; exact loaded_ne_empty)
      (by rw [h2]; exact loaded_ne_empty) (hd (Or.inl hr))) (fun b p' hp' => ?_) fun _ _ h => h
    refine iff_of_false (not_stands_of_extra (by decide) hp'.1 hp'.2) fun h => ?_
    rw [hr] at h
    exact Bool.false_ne_true h.1.symm
  · have hr : p.rewriting.isIndexSwap = false := by simpa using hr
    refine wp_mono (wp_setPathConfig counts conf.first_ne extra fun h => hd (Or.inr h))
      (fun b p' hp' => ?_) fun _ _ h => h
    obtain ⟨hb, conf', default⟩ := hp'
    cases b with
    | true =>
      have conf' := (conf' rfl).2
      rw [if_pos rfl, conf'.config]
      refine iff_of_true (Or.inr ⟨_, rfl, conf'⟩) ⟨hr, fun h => ?_⟩
      rw [← hb] at h
      exact absurd h (by decide)
    | false =>
      obtain ⟨⟨config, rewriting, current⟩, first, n, hx, hn⟩ := default rfl
      constructor
      · intro stands
        refine ⟨hr, fun _ hc => ?_⟩
        by_contra hb
        have n0 : n ≠ 0 := fun h0 => by
          rcases hn.1 h0 with h | h
          · rw [hc] at h
            exact Bool.false_ne_true h
          · exact hb h
        exact not_stands_of_extra n0 ((hx n n0).2 (Nat.le_refl _)) (by rw [rewriting]; rfl) stands
      · rintro ⟨-, hc⟩
        have n0 : n = 0 := hn.2 (by
          cases counts with
          | true => exact Or.inl rfl
          | false => exact Or.inr (hc hb.symm rfl))
        rw [n0] at hx
        exact Or.inl ⟨config, rewriting, .inl current, first, hx⟩

theorem wp_resetPathConfig (h : Stands accepted p) :
    wp (resetPathConfig true) (fun b p' => b = false ∧ PassesThrough p') (fun _ _ => False) p := by
  obtain ⟨a, conf⟩ := h.configured
  have extra := conf.extra
  unfold resetPathConfig
  rw [wp_bind, wp_replacePathConfig, if_pos valid_default, wp_bind, wp_reload, if_neg conf.first_ne,
    if_pos rfl, wp_bind, wp_get, wp_bind]
  show wp (delSwapped p.rewriting) _ _ _
  unfold delSwapped
  split_ifs at extra ⊢ with hr
  · obtain ⟨original, swapped, h1, h2, hx⟩ := extra
    have h2' : (({ p with config := some .default } : Path).put 0
        (.loaded defaultCode)).programs 2 ≠ .empty := by
      rw [Path.put_of_ne (by decide)]
      show p.programs 2 ≠ _
      rw [h2]
      exact loaded_ne_empty
    have h1' : ((({ p with config := some .default } : Path).put 0
        (.loaded defaultCode)).put 2 .empty).programs 1 ≠ .empty := by
      rw [Path.put_of_ne (by decide), Path.put_of_ne (by decide)]
      show p.programs 1 ≠ _
      rw [h1]
      exact loaded_ne_empty
    rw [wp_bind, wp_delProgram, if_neg h2', wp_delProgram, if_neg h1', wp_bind, wp_clearSwapState,
      wp_pure]
    refine ⟨rfl, rfl, rfl, .inl rfl, ?_, fun i h0 => iff_of_false (fun h => h ?_) (by omega)⟩
    · show ((((p.put 0 (.loaded defaultCode)).put 2 .empty).put 1 .empty).programs 0) = _
      rw [Path.put_of_ne (by decide), Path.put_of_ne (by decide), Path.put_self]
      rfl
    · show ((((p.put 0 (.loaded defaultCode)).put 2 .empty).put 1 .empty).programs i) = _
      by_cases hi1 : i = 1
      · rw [hi1, Path.put_self]
      · rw [Path.put_of_ne hi1]
        by_cases hi2 : i = 2
        · rw [hi2, Path.put_self]
        · rw [Path.put_of_ne hi2, Path.put_of_ne h0]
          exact hx.empty (by omega)
  · rw [wp_pure, wp_bind, wp_clearSwapState, wp_pure]
    have first := ({ p with config := some .default } : Path).put_self 0 (.loaded defaultCode)
    exact ⟨rfl, rfl, rfl, .inl rfl, first, extra_put_zero (p := { p with
      config := some .default, rewriting := .none, current := 1 }).2 extra⟩

theorem Configured.triggerRead (h : Configured a p) (ok : Bool) :
    wp (triggerRead ok) (fun b p' => b = false ∧ Configured a p') (fun _ p' => Configured a p') p := by
  obtain ⟨c, r⟩ := a
  have h0 := h.first_ne
  obtain ⟨config, rewriting, current, holds⟩ := h
  have next : p.current % 2 + 1 = 1 ∨ p.current % 2 + 1 = 2 := by omega
  unfold Dynmon.triggerRead swapPrograms
  rw [wp_bind, wp_get, wp_bind, rewriting]
  cases r with
  | none => exact ⟨rfl, config, rewriting, current, holds⟩
  | programReload original swapped names =>
    rw [wp_bind, wp_advance, wp_reload, if_neg h0]
    split_ifs
    · refine ⟨rfl, config, rewriting, next, ?_, extra_put_zero.2 holds.2⟩
      rw [Path.put_self]
      unfold Rewriting.codeToLoad
      split_ifs
      · exact Or.inl rfl
      · exact Or.inr rfl
    · exact ⟨config, rewriting, next, holds⟩
  | programIndexSwap master original swapped names globalNames =>
    rw [wp_bind, wp_advance, wp_setPivot]
    obtain ⟨⟨hm, ho, hs, hpivot⟩, hx⟩ := holds
    split_ifs
    · exact ⟨rfl, config, rewriting, next, ⟨hm, ho, hs, next⟩, hx⟩
    · exact ⟨config, rewriting, next, ⟨hm, ho, hs, hpivot⟩, hx⟩

/-- A path stands, and what has been accepted has the maps of its metrics. -/
structure Sound (maps : Maps) (accepted : Option (PathConfig × Rewriting)) (p : Path) : Prop where
  stands : Stands accepted p
  has : ∀ a, accepted = some a → a.2.HasMaps maps a.1

theorem Sound.whole (h : Sound maps accepted p) : Whole maps accepted p := by
  refine ⟨h.stands, ?_⟩
  rcases h.stands with pass | ⟨a, same, conf⟩
  · exact Configured.readable pass hasMaps_default
  · exact conf.readable (h.has a same)

end Whole

/-! ### Runs -/

section Runs

variable {s : Dynmon} {op : Op} {d : Direction}

theorem step_path_of_ne (h : d ≠ op.direction) : (s.step op).1.path d = s.path d := by
  unfold Dynmon.step
  split <;> exact update_of_ne h ..

theorem step_accepted_of_ne (h : d ≠ op.direction) : (s.step op).1.accepted d = s.accepted d := by
  unfold Dynmon.step
  split
  · split_ifs
    · exact update_of_ne h ..
    · rfl
  · rfl

variable (op) in
theorem step_of_wp {W : Bool → Path → Prop} {V : String → Path → Prop}
    (h : wp op.exec W V (s.path op.direction)) :
    (∃ b p, W b p ∧ (s.step op).2 = false ∧ (s.step op).1.path op.direction = p ∧
      (s.step op).1.accepted op.direction =
        if b then p.config.map fun c => (c, p.rewriting) else s.accepted op.direction) ∨
    ∃ e p, V e p ∧ (s.step op).2 = true ∧ (s.step op).1.path op.direction = p ∧
      (s.step op).1.accepted = s.accepted := by
  unfold wp at h
  unfold Dynmon.step
  split at h
  · rename_i b p hrun
    rw [hrun]
    refine Or.inl ⟨b, p, h, rfl, update_self .., ?_⟩
    dsimp only
    split_ifs
    · exact update_self ..
    · rfl
  · rename_i e p hrun
    rw [hrun]
    exact Or.inr ⟨e, p, h, rfl, update_self .., rfl⟩

variable {maps : Maps}

def AllWhole (maps : Maps) (s : Dynmon) : Prop := ∀ d, Whole maps (s.accepted d) (s.path d)

def AllSound (maps : Maps) (s : Dynmon) : Prop := ∀ d, Sound maps (s.accepted d) (s.path d)

theorem allSound_start (maps : Maps) : AllSound maps .start := by
  refine fun d => ⟨Or.inl ⟨rfl, rfl, .inl rfl, rfl, fun i h0 => ?_⟩, fun a same => by cases same⟩
  show (if i = 0 then Slot.loaded defaultCode else .empty) ≠ .empty ↔ i ≤ 0
  rw [if_neg h0]
  exact iff_of_false (fun h => h rfl) (by omega)

theorem AllSound.step (h : AllSound maps s)
    (sound : Sound maps ((s.step op).1.accepted op.direction) ((s.step op).1.path op.direction)) :
    AllSound maps (s.step op).1 := by
  intro d
  by_cases hd : d = op.direction
  · rw [hd]
    exact sound
  · rw [step_path_of_ne hd, step_accepted_of_ne hd]
    exact h d

theorem sound_step_set (op : Op) (counts : Bool)
    (h : Sound maps (s.accepted op.direction) (s.path op.direction))
    (exec : op.exec = setPathConfig counts c o)
    (hr : (s.path op.direction).rewriting.isIndexSwap = false)
    (hd : succeeds c o = false → o.default = true ∧ (counts = false → begins c o = false))
    (has : succeeds c o = true → (rewritten c o).elim True (Rewriting.HasMaps maps c)) :
    Sound maps ((s.step op).1.accepted op.direction) ((s.step op).1.path op.direction) := by
  obtain ⟨a, conf⟩ := h.stands.configured
  have extra := conf.extra
  rw [hr, if_neg Bool.false_ne_true] at extra
  have default : succeeds c o = false → o.default = true := fun hs => (hd hs).1
  have step := wp_and (stands_setPathConfig_iff counts h.stands fun h => default (h.resolve_left
    (ne_true_of_eq_false hr))) (wp_setPathConfig counts conf.first_ne extra default)
  rw [← exec] at step
  rcases step_of_wp op step with ⟨b, p, ⟨stands, accepted, conf', -⟩, -, hp, ha⟩ | ⟨e, p, hf, -⟩
  · rw [hp, ha]
    refine ⟨stands.2 ⟨hr, fun hs hc => (hd hs).2 hc⟩, fun a same => ?_⟩
    cases b with
    | false => exact h.has a same
    | true =>
      obtain ⟨made, config⟩ := conf' rfl
      rw [if_pos rfl, config.config, Option.map_some, Option.some.injEq] at same
      have maps' := has accepted.symm
      rw [made] at maps'
      exact same ▸ maps'
  · exact hf.1.elim

theorem allSound_step (h : AllSound maps s) (fine : Fine maps s op) : AllSound maps (s.step op).1 := by
  refine h.step ?_
  cases op with
  | set d c o =>
    cases d with
    | ingress =>
      exact sound_step_set (.set .ingress c o) true (h _) rfl fine.1
        (fun hs => ⟨(fine.2.1 hs).1, fun h => absurd h.symm Bool.false_ne_true⟩) fine.2.2
    | egress =>
      exact sound_step_set (.set .egress c o) false (h _) rfl fine.1
        (fun hs => ⟨(fine.2.1 hs).1, fun _ => (fine.2.1 hs).2 rfl⟩) fine.2.2
  | reset d default =>
    have step := wp_resetPathConfig (h d).stands
    rw [← show default = true from fine] at step
    rcases step_of_wp (.reset d default) step with ⟨b, p, ⟨hb, pass⟩, -, hp, ha⟩ | ⟨e, p, hf, -⟩
    · rw [hb, if_neg Bool.false_ne_true] at ha
      rw [hp, ha]
      exact ⟨Or.inl pass, (h d).has⟩
    · exact hf.elim
  | read d ok =>
    -- the path stays configured with the same, and nothing is accepted
    have same (a : PathConfig × Rewriting) (conf : Configured a (s.path d)) :
        Configured a ((s.step (.read d ok)).1.path d) ∧
          (s.step (.read d ok)).1.accepted d = s.accepted d := by
      rcases step_of_wp (.read d ok) (conf.triggerRead ok) with
        ⟨b, p, ⟨hb, hc⟩, -, hp, ha⟩ | ⟨e, p, hc, -, hp, ha⟩
      · rw [hb, if_neg Bool.false_ne_true] at ha
        exact ⟨(congrArg (Configured a) hp).mpr hc, ha⟩
      · exact ⟨(congrArg (Configured a) hp).mpr hc, congrFun ha d⟩
    rcases (h d).stands with pass | ⟨a, ha, conf⟩
    · obtain ⟨pass', acc⟩ := same _ pass
      exact ⟨Or.inl pass', fun a ha => (h d).has a (acc.symm.trans ha)⟩
    · obtain ⟨conf', acc⟩ := same a conf
      exact ⟨Or.inr ⟨a, acc.trans ha, conf'⟩, fun a ha => (h d).has a (acc.symm.trans ha)⟩

theorem allSound_handle {ops : List Op} (h : AllSound maps s)
    (fine : Meets (fun s op => (s.step op).1) (Fine maps) s ops) : AllSound maps (s.handle ops) := by
  induction ops generalizing s with
  | nil => exact h
  | cons op ops ih =>
    have next := allSound_step h fine.1
    unfold Dynmon.handle
    split_ifs
    · exact next
    · exact ih next fine.2

/-- In every run of requests whose steps are fine, every path is in the default state or configured
with what was accepted last, and its metrics can be read; and a step on one path, whatever becomes
of it, leaves the other. -/
theorem allWhole_of_run (maps : Maps) (requests : List (List Op))
    (fine : Meets Dynmon.handle (Meets (fun s op => (s.step op).1) (Fine maps)) .start requests) :
    AllWhole maps (run Dynmon.handle .start requests) ∧
      ∀ s op d, d ≠ op.direction → (Dynmon.step s op).1.path d = s.path d := by
  have sound : AllSound maps (run Dynmon.handle .start requests) :=
    run_induction (fun _ _ => allSound_handle) (allSound_start maps) fine
  exact ⟨fun d => (sound d).whole, fun _ _ _ => step_path_of_ne⟩

end Runs

section Examples

def swapping : PathConfig :=
  ⟨some "counter", some "BPF_TABLE(..)", [⟨"packets", "PKTS", true, ["unit"]⟩]⟩

def swaps (loads : ℕ → Bool) : Outcomes :=
  ⟨.gives ("master", "original", "swapped", [], []), .fails, loads, true, true⟩

def counting : Maps := fun code => if code = "master" then ["INTERNAL_PROGRAM_INDEX"] else ["PKTS"]

/-- Both paths are configured, ingress a second time with a third program that does not load; then
the metrics of egress are read, and both are reset. -/
def someRequests : List (List Op) :=
  [setDataplaneConfig (some (true, swapping, swaps fun _ => true))
      (some (true, swapping, swaps fun _ => true)),
    setDataplaneConfig (some (true, swapping, swaps fun i => i ≠ 2)) none,
    [.read .egress true], resetDataplaneConfig true true]

theorem allWhole_someRequests :
    AllWhole counting (run Dynmon.handle .start someRequests) ∧
      ∀ s op d, d ≠ op.direction → (Dynmon.step s op).1.path d = s.path d :=
  allWhole_of_run counting someRequests (by decide +kernel)

/-- Egress is left with a second program where the third does not load. -/
theorem not_allWhole_egress :
    ¬ ∀ (maps : Maps) (requests : List (List Op)),
      AllWhole maps (run Dynmon.handle .start requests) := by
  intro h
  have whole := h counting [[.set .egress swapping (swaps fun i => i ≠ 2)]] .egress
  exact not_stands_of_extra (i := 1) (by decide) (by decide +kernel) (by decide +kernel) whole.1

end Examples

end Polycube.Dynmon
