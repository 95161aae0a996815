import Polycube.Pbforwarder.Control

/-!
# What a request leaves

`Runs` says that the programs run a rule under its number, `Silent` that they have no entry of it.
A request changes this for its own number only (`Leaves`): its rule runs with the new fields
(`Done`), or has no entry any more (`Undone`).
-/

namespace Polycube.Pbforwarder

open Function

open Lib

variable (ports : String → Option (BitVec 16))

structure Executes (s : State) (id : BitVec 32) (r : Rule) (rules : ℤ) (level : ℕ)
    (table : Table (BitVec 32) Entry) (e : Entry) : Prop where
  program : s.program = .matching rules level table
  entry : table id = some e
  shows : Shows ports r e
  numbered : id.toNat < rules.toNat
  matched : r.level ≤ level
  parsed : r.level ≤ s.parser
  next : r.level ≤ s.matchLevel
  counted : id < s.nrRules

def Runs (s : State) (id : BitVec 32) (r : Rule) : Prop :=
  ∃ rules level table e, Executes ports s id r rules level table e

def Silent (s : State) (id : BitVec 32) : Prop :=
  ∀ table, s.program.table = some table → table id = none

structure Sound (s : State) : Prop where
  low : 2 ≤ s.matchLevel
  high : s.matchLevel ≤ 4
  parser : s.parser ≤ 4
  program : ∀ rules level table, s.program = .matching rules level table → level ≤ 4
  count : 0 ≤ s.nrRules.toInt

structure Leaves (s s' : State) (id : BitVec 32) : Prop where
  runs : ∀ r, Runs ports s id r → Runs ports s' id r
  silent : Silent s id → Silent s' id

variable {ports}

theorem raise_le (o : Rules) {level : ℕ} (high : level ≤ 4) :
    level ≤ o.raise level ∧ o.raise level ≤ 4 := by
  unfold Rules.raise
  split_ifs <;> omega

theorem le_toNat_of_isSet {word : BitVec 32} {n : ℕ} (h : isSet word n = true) :
    2 ^ n ≤ word.toNat := Nat.ge_two_pow_of_testBit h

theorem raise_ge (o : Rules) {level : ℕ} (low : 2 ≤ level) :
    2 ≤ o.raise level ∧ (8 ≤ o.flags.toNat → 3 ≤ o.raise level) ∧
      (32 ≤ o.flags.toNat → 4 ≤ o.raise level) := by
  have top : 32 ≤ o.flags ↔ 32 ≤ o.flags.toNat := Iff.rfl
  have middle : 8 ≤ o.flags ↔ 8 ≤ o.flags.toNat := Iff.rfl
  have below : o.flags < 32 ↔ o.flags.toNat < 32 := Iff.rfl
  unfold Rules.raise
  split_ifs with h₁ h₂
  · rw [middle, below] at h₁
    omega
  · omega
  · rw [middle, below] at h₁
    rw [top] at h₂
    omega

theorem Means.level_le {r : Rule} {o : Rules} (h : Means r o) {level : ℕ} (low : 2 ≤ level) :
    r.level ≤ o.raise level := by
  obtain ⟨least, middle, top⟩ := raise_ge o low
  unfold Rule.level
  split_ifs with l4 l3
  · apply top
    rw [h.l4Proto.isSome, h.inPort.isSome] at l4
    rcases l4 with bit | bit
    · exact le_toNat_of_isSet bit
    · exact le_trans (by decide) (le_toNat_of_isSet bit)
  · apply middle
    rw [h.srcIp.isSome, h.dstIp.isSome] at l3
    rcases l3 with bit | bit
    · exact le_toNat_of_isSet bit
    · exact le_trans (by decide) (le_toNat_of_isSet bit)
  · exact least

/-- The programs of a state after another, which had the matcher of `rules`, `level` and `table`:
entries of other numbers are the same, and levels and counts do for the rules of then. -/
structure Follows (s : State) (rules : ℤ) (level : ℕ) (table : Table (BitVec 32) Entry)
    (id : BitVec 32) (s' : State) (rules' : ℤ) (level' : ℕ) (table' : Table (BitVec 32) Entry) :
    Prop where
  program : s'.program = .matching rules' level' table'
  entries : ∀ id', id' ≠ id → table' id' = table id'
  numbered : rules.toNat ≤ rules'.toNat ∨ s.nrRules.toNat ≤ rules'.toNat
  matched : level ≤ level' ∨ s.matchLevel ≤ level'
  top : level' ≤ 4
  parsed : s.parser ≤ s'.parser ∨ s.matchLevel ≤ s'.parser
  parser : s'.parser ≤ 4

variable {s s' : State} {rules rules' : ℤ} {level level' : ℕ}
  {table table' : Table (BitVec 32) Entry} {id : BitVec 32}

theorem Follows.leaves (h : Follows s rules level table id s' rules' level' table')
    (program : s.program = .matching rules level table) (next : s.matchLevel ≤ s'.matchLevel)
    (counted : s.nrRules.toNat ≤ s'.nrRules.toNat) {id' : BitVec 32} (other : id' ≠ id) :
    Leaves ports s s' id' where
  runs := by
    rintro r ⟨n, l, t, e, x⟩
    obtain ⟨rfl, rfl, rfl⟩ := Program.matching.inj (program.symm.trans x.program)
    have low := BitVec.lt_def.1 x.counted
    refine ⟨rules', level', table', e, h.program, (h.entries id' other).trans x.entry, x.shows, ?_,
      ?_, ?_, x.next.trans next, BitVec.lt_def.2 (lt_of_lt_of_le low counted)⟩
    · have := x.numbered
      have := h.numbered
      omega
    · have := x.matched
      have := x.next
      have := h.matched
      omega
    · have := x.parsed
      have := x.next
      have := h.parsed
      omega
  silent := by
    intro silent t ht
    rw [h.program] at ht
    obtain rfl := Option.some.inj ht
    rw [h.entries id' other]
    exact silent table (by rw [program]; rfl)

theorem Follows.sound (h : Follows s rules level table id s' rules' level' table')
    (low : 2 ≤ s'.matchLevel) (high : s'.matchLevel ≤ 4) (count : 0 ≤ s'.nrRules.toInt) :
    Sound s' where
  low := low
  high := high
  parser := h.parser
  program n l t program := by
    obtain ⟨rfl, rfl, rfl⟩ := Program.matching.inj (h.program.symm.trans program)
    exact h.top
  count := count

theorem toNat_toInt {x : BitVec 32} (h : 0 ≤ x.toInt) : x.toInt.toNat = x.toNat := by
  rw [BitVec.toInt_eq_toNat_cond] at h ⊢
  split_ifs at h ⊢ <;> omega

variable {ok : Unit → State → Prop} {err : Unit → State → Prop} {loads : Loads} {accepted : Bool}

theorem wp_reloadMatching : wp (reloadMatching accepted) ok err s ↔
    if accepted = true ∧ 0 ≤ s.nrRules.toInt then
      ok () { s with
        program := .matching s.nrRules.toInt s.matchLevel (s.program.table.getD fun _ => none) }
    else err () s := by
  unfold reloadMatching
  simp only [wp_bind, wp_get, wp_ite, wp_throw, wp_modify]

theorem wp_reloadParsing : wp (reloadParsing accepted) ok err s ↔
    if accepted = true then ok () { s with parser := s.matchLevel } else err () s := by
  unfold reloadParsing
  simp only [wp_ite, wp_throw, wp_modify]

theorem wp_reloadParsingSecond : wp (reloadParsingSecond accepted) ok err s ↔
    if accepted = true then ok () { s with program := .parsing s.matchLevel } else err () s := by
  unfold reloadParsingSecond
  simp only [wp_ite, wp_throw, wp_modify]

theorem wp_removeRule (program : s.program = .matching rules level table) :
    wp (removeRule id) ok err s ↔ if table id = none then err () s else
      ok () { s with program := .matching rules level (update table id none) } := by
  unfold removeRule
  simp only [wp_bind, wp_get, program, Program.table, Program.setTable, wp_ite, wp_throw,
    wp_modify]

theorem wp_setRule {o : Rules} {e : Entry} (program : s.program = .matching rules level table)
    (entry : o.toRule ports = some e) :
    wp (setRule ports accepted o) ok err s ↔ if accepted = true then
      ok () { s with program := .matching rules level (update table o.id (some e)) }
    else err () s := by
  unfold setRule
  simp only [wp_bind, wp_get, program, entry, Program.table, Program.setTable, wp_ite, wp_throw,
    wp_modify]

theorem wp_setRule_none {o : Rules} (h : s.program.table = none ∨ o.toRule ports = none) :
    wp (setRule ports accepted o) ok err s ↔ err () s := by
  unfold setRule
  rw [wp_bind, wp_get]
  rcases h with h | h
  · rw [h]
    exact Iff.rfl
  · rw [h]
    cases s.program.table <;> exact Iff.rfl

structure Undone (ports : String → Option (BitVec 16)) (s s' : State) (id : BitVec 32) : Prop where
  sound : Sound s'
  leaves : ∀ id', id' ≠ id → Leaves ports s s' id'
  same : s'.rules_ = s.rules_
  silent : Silent s' id

theorem rollBack_spec {t : State} (rules' : ℤ) (level' : ℕ) (sound : Sound s)
    (program : s.program = .matching rules level table)
    (follows : Follows s rules level table id t rules' level' table') (present : table' id ≠ none)
    (same : t.rules_ = s.rules_) (loads : Loads) :
    wp (rollBack loads s.matchLevel s.nrRules id) (fun _ s' => Undone ports s s' id)
      (fun _ s' => Undone ports s s' id) t := by
  have undone : ∀ {s' : State} {n : ℤ} {l : ℕ},
      Follows s rules level table id s' n l (update table' id none) →
      s'.matchLevel = s.matchLevel → s'.nrRules = s.nrRules → s'.rules_ = s.rules_ →
      Undone ports s s' id := by
    intro s' n l h hlevel hrules hsame
    refine ⟨h.sound ?_ ?_ ?_, fun id' other => h.leaves program ?_ ?_ other, hsame, ?_⟩
    · exact hlevel ▸ sound.low
    · exact hlevel ▸ sound.high
    · exact hrules ▸ sound.count
    · exact le_of_eq hlevel.symm
    · exact le_of_eq (congrArg BitVec.toNat hrules.symm)
    · intro t' ht'
      rw [h.program] at ht'
      obtain rfl := Option.some.inj ht'
      exact update_self _ _ _
  have entries : ∀ id', id' ≠ id → update table' id none id' = table id' :=
    fun id' other => (update_of_ne other _ _).trans (follows.entries id' other)
  have high := sound.high
  unfold rollBack
  rw [wp_bind, wp_removeRule follows.program, if_neg present]
  simp only [wp_bind, wp_get, wp_ite, wp_modify, wp_reloadParsing, wp_reloadMatching, wp_pure]
  split_ifs with changed parsing matching
  · exact undone ⟨rfl, entries, .inr (toNat_toInt matching.2).ge, .inr le_rfl, high, .inr le_rfl,
      high⟩ rfl rfl same
  · exact undone ⟨rfl, entries, follows.numbered, follows.matched, follows.top, .inr le_rfl, high⟩
      rfl rfl same
  · exact undone ⟨rfl, entries, follows.numbered, follows.matched, follows.top, follows.parsed,
      follows.parser⟩ rfl rfl same
  · rw [not_or, not_not, not_not] at changed
    exact undone ⟨rfl, entries, follows.numbered, follows.matched, follows.top, follows.parsed,
      follows.parser⟩ changed.1 changed.2 same

structure Written (ports : String → Option (BitVec 16)) (s : State) (loads : Loads) (o : Rules) :
    Prop where
  map : s.program.table.isSome
  readable : (o.toRule ports).isSome
  set : loads.set = true

structure Loaded (s : State) (loads : Loads) (o : Rules) : Prop where
  matching : loads.matching = true
  parsing : loads.parsing = true
  count : 0 ≤ (nrRulesWith s.nrRules o.id).toInt

structure Done (ports : String → Option (BitVec 16)) (s s' : State) (o : Rules) : Prop where
  sound : Sound s'
  leaves : ∀ id', id' ≠ o.id → Leaves ports s s' id'
  kept : s'.rules_ =
    if s.rules_ o.id = none then update s.rules_ o.id (some o) else s.rules_
  runs : ∀ r e, o.toRule ports = some e → Shows ports r e → r.level ≤ o.raise s.matchLevel →
    Runs ports s' o.id r

theorem nrRulesWith_spec {id : BitVec 32} (last : id ≠ BitVec.allOnes 32) :
    s.nrRules.toNat ≤ (nrRulesWith s.nrRules id).toNat ∧
      id.toNat < (nrRulesWith s.nrRules id).toNat := by
  have : id.toNat < 2 ^ 32 - 1 := by
    have low := id.isLt
    have : id.toNat ≠ 2 ^ 32 - 1 := fun h => last (BitVec.eq_of_toNat_eq h)
    omega
  unfold nrRulesWith
  split_ifs with h
  · rw [BitVec.le_def] at h
    rw [BitVec.toNat_add, show (1 : BitVec 32).toNat = 1 from rfl]
    omega
  · rw [BitVec.le_def] at h
    omega

theorem Program.shape (program : Program) : (∃ level, program = .parsing level) ∨
    ∃ rules level table, program = .matching rules level table := by
  cases program with
  | parsing level => exact .inl ⟨level, rfl⟩
  | matching rules level table => exact .inr ⟨rules, level, table, rfl⟩

/-- Nothing but the level has gone up. -/
theorem leaves_raise (s : State) {level : ℕ} (le : s.matchLevel ≤ level) (id : BitVec 32) :
    Leaves ports s { s with matchLevel := level } id where
  runs := by
    rintro r ⟨n, l, t, e, x⟩
    exact ⟨n, l, t, e, x.program, x.entry, x.shows, x.numbered, x.matched, x.parsed,
      x.next.trans le, x.counted⟩
  silent h := h

theorem updateRuleMapAndReload_spec (sound : Sound s) {o : Rules}
    (last : Written ports s loads o → o.id = BitVec.allOnes 32 → loads.matching = false) :
    wp (updateRuleMapAndReload ports loads o)
      (fun _ s' => Written ports s loads o ∧
        ((Loaded s loads o ∧ Done ports s s' o) ∨ (¬ Loaded s loads o ∧ Undone ports s s' o.id)))
      (fun _ s' => (Written ports s loads o ∧ ¬ Loaded s loads o ∧ Undone ports s s' o.id) ∨
        (¬ Written ports s loads o ∧ Sound s' ∧ s'.rules_ = s.rules_ ∧
          ∀ id, Leaves ports s s' id)) s := by
  obtain ⟨raised, high⟩ := raise_le o sound.high
  have low := sound.low.trans raised
  have nothing : Sound { s with matchLevel := o.raise s.matchLevel } ∧
      s.rules_ = s.rules_ ∧
      ∀ id, Leaves ports s { s with matchLevel := o.raise s.matchLevel } id :=
    ⟨⟨low, high, sound.parser, sound.program, sound.count⟩, rfl, leaves_raise s raised⟩
  unfold updateRuleMapAndReload
  simp only [wp_bind, wp_get, wp_modify]
  obtain ⟨l, program⟩ | ⟨rules, level, table, program⟩ := s.program.shape
  · rw [wp_setRule_none (s := { s with matchLevel := o.raise s.matchLevel })
      (.inl (congrArg Program.table program))]
    refine .inr ⟨fun written => ?_, nothing⟩
    have map := written.map
    rw [program] at map
    cases map
  · cases entry : o.toRule ports with
    | none =>
      rw [wp_setRule_none (.inr entry)]
      refine .inr ⟨fun written => ?_, nothing⟩
      have readable := written.readable
      rw [entry] at readable
      cases readable
    | some e =>
      rw [wp_setRule (s := { s with matchLevel := o.raise s.matchLevel }) program entry]
      by_cases set : loads.set = true
      swap
      · rw [if_neg set]
        exact .inr ⟨fun written => set written.set, nothing⟩
      rw [if_pos set]
      have written : Written ports s loads o :=
        ⟨by rw [program]; rfl, by rw [entry]; rfl, set⟩
      have present : update table o.id (some e) o.id ≠ none := by
        rw [update_self]
        exact Option.some_ne_none e
      have entries : ∀ id', id' ≠ o.id → update table o.id (some e) id' = table id' :=
        fun id' other => update_of_ne other _ _
      simp only [wp_tryCatch, wp_bind, wp_reloadMatching, wp_reloadParsing, insertRule, wp_modify]
      by_cases matching : loads.matching = true ∧ 0 ≤ (nrRulesWith s.nrRules o.id).toInt
      swap
      · -- the matcher does not load
        have failed : ¬ Loaded s loads o := fun loaded => matching ⟨loaded.matching, loaded.count⟩
        rw [if_neg matching]
        refine wp_mono ?_ (fun _ s' h => ⟨written, .inr ⟨failed, h⟩⟩)
          fun _ s' h => .inl ⟨written, failed, h⟩
        refine rollBack_spec rules level sound program ?_ present ?_ loads
        · exact ⟨rfl, entries, .inl le_rfl, .inl le_rfl, sound.program _ _ _ program, .inl le_rfl,
            sound.parser⟩
        · rfl
      rw [if_pos matching]
      have notLast : o.id ≠ BitVec.allOnes 32 := by
        intro h
        rw [last written h] at matching
        cases matching.1
      obtain ⟨counted, own⟩ := nrRulesWith_spec (s := s) notLast
      have number := toNat_toInt matching.2
      by_cases parsing : loads.parsing = true
      swap
      · -- the matcher loads, and the parser does not
        have failed : ¬ Loaded s loads o := fun loaded => parsing loaded.parsing
        rw [if_neg parsing]
        refine wp_mono ?_ (fun _ s' h => ⟨written, .inr ⟨failed, h⟩⟩)
          fun _ s' h => .inl ⟨written, failed, h⟩
        refine rollBack_spec (nrRulesWith s.nrRules o.id).toInt (o.raise s.matchLevel) sound
          program ?_ present ?_ loads
        · exact ⟨rfl, entries, .inr (counted.trans number.ge), .inr raised, high, .inl le_rfl,
            sound.parser⟩
        · rfl
      rw [if_pos parsing]
      refine ⟨written, .inl ⟨⟨matching.1, parsing, matching.2⟩, ?_⟩⟩
      have done : ∀ kept, kept = (if s.rules_ o.id = none
          then update s.rules_ o.id (some o) else s.rules_) → Done ports s
          { s with
            rules_ := kept
            matchLevel := o.raise s.matchLevel
            nrRules := nrRulesWith s.nrRules o.id
            parser := o.raise s.matchLevel
            program := .matching (nrRulesWith s.nrRules o.id).toInt (o.raise s.matchLevel)
              (update table o.id (some e)) } o := by
        intro kept hkept
        have follows : Follows s rules level table o.id
            { s with
              rules_ := kept
              matchLevel := o.raise s.matchLevel
              nrRules := nrRulesWith s.nrRules o.id
              parser := o.raise s.matchLevel
              program := .matching (nrRulesWith s.nrRules o.id).toInt (o.raise s.matchLevel)
                (update table o.id (some e)) } (nrRulesWith s.nrRules o.id).toInt
            (o.raise s.matchLevel) (update table o.id (some e)) :=
          ⟨rfl, entries, .inr (number ▸ counted), .inr raised, high, .inr raised, high⟩
        refine ⟨follows.sound low high matching.2,
          fun id' other => follows.leaves program raised counted other, hkept, ?_⟩
        intro r e' he' shows le
        obtain rfl : e = e' := Option.some.inj (entry.symm.trans he')
        exact ⟨_, _, _, e, rfl, update_self _ _ _, shows, number ▸ own, le, le, le,
          BitVec.lt_def.2 own⟩
      by_cases fresh : s.rules_ o.id = none
      · rw [if_pos fresh]
        exact done _ (if_pos fresh).symm
      · rw [if_neg fresh]
        exact done _ (if_neg fresh).symm

end Polycube.Pbforwarder
