import Mathlib
import Polycube.Iptables.Chains
import Polycube.Lib.Run
import Polycube.Lib.Shifting

/-!
# Rules and their counters

`replaceRule` deletes a rule, which moves the ones behind it up, and then writes the new rule at the
position.  The state here is one chain with its counters: `rules_` and `counters_`, whose loops are
there step by step, and what the loaded programs have counted and not been asked for.
-/

namespace Polycube.Iptables.Counted

open Lib

abbrev Count := ℕ × ℕ

/-- An object of `counters_`. -/
structure ChainStats where
  id : ℕ
  count : Count
  deriving DecidableEq

namespace ChainStats

def setId (id : ℕ) (c : ChainStats) : ChainStats := { c with id := id }

def add (id : ℕ) (count : Count) : Option ChainStats → ChainStats
  | none => ⟨id, count⟩
  | some c => { c with count := c.count + count }

end ChainStats

def setId (id : ℕ) (rule : ChainRule) : ChainRule := { rule with id := id }

/-- A chain.  The programs that are loaded have counters for the positions that are `readable`. -/
structure State where
  interactive : Bool
  rules : Rules
  counters : List (Option ChainStats)
  readable : ℕ → Bool
  slot : ℕ → Count

def State.init : State where
  interactive := true
  rules := []
  counters := []
  readable _ := true
  slot _ := 0

/-- An operation's outcome and the state after it; none where the behaviour is undefined. -/
abbrev Result := Option (Outcome × State)

def Result.andThen (r : Result) (f : State → Result) : Result :=
  match r with
  | some (.returns, s) => f s
  | r => r

/-! ### Operations -/

namespace State

variable (s : State)

/-- `counters_` gets a place for the counter, if it has none; the programs start again. -/
def store (id : ℕ) : State :=
  { s with
    counters := Shifting.put id (.add id (s.slot id) s.counters[id]?.join) s.counters
    slot := Function.update s.slot id 0 }

def getStats (id : ℕ) : Result :=
  if s.rules.length < id then some (.throws, s)
  else
    match s.rules[id]? with
    | none => none
    | some none => some (.throws, s)
    | some (some _) => if s.readable id then some (.returns, s.store id) else some (.throws, s)

/-- `getStats` for the rules of a list that are there. -/
def getStatsOf : Rules → State → Result
  | [], s => some (.returns, s)
  | none :: rules, s => getStatsOf rules s
  | some r :: rules, s => (s.getStats r.id).andThen (getStatsOf rules)

def getStatsList : Result := getStatsOf s.rules s

/-- The tables are computed from all rules.  `loading` is what positions the new programs have
counters for, or nothing when they cannot be loaded. -/
def updateChain (loading : Option (ℕ → Bool)) : Result :=
  if none ∈ s.rules then none
  else
    match loading with
    | none => some (.throws, s)
    | some readable => some (.returns, { s with readable := readable, slot := fun _ => 0 })

/-- What `updateChain` throws is caught. -/
def applyRules (loading : Option (ℕ → Bool)) : Result :=
  (s.updateChain loading).map fun r => (.returns, r.2)

/-- In every operation `rule` is none when the rule cannot be built from what was given. -/
def addRule (id : ℕ) (rule : Option ChainRule) (loading : Option (ℕ → Bool)) : Result :=
  match rule with
  | none => some (.throws, s)
  | some rule => s.getStatsList.andThen fun s =>
    let s := { s with rules := Shifting.put id (setId id rule) s.rules }
    if s.interactive then s.updateChain loading else some (.returns, s)

/-- The loop goes over the places of `rules_`, for both vectors. -/
def insertRule (id : ℕ) (rule : ChainRule) : Option State :=
  if s.counters.length < s.rules.length then none
  else some { s with
    rules := Shifting.insert setId id rule s.rules
    counters := (Shifting.makeRoom ChainStats.setId (s.rules.length + 1) id
      (s.counters ++ [none])).set id (some ⟨id, 0⟩) }

def insert (id : ℕ) (rule : Option ChainRule) (loading : Option (ℕ → Bool)) : Result :=
  if s.rules.length < id then some (.throws, s)
  else
    match rule with
    | none => some (.throws, s)
    | some rule => s.getStatsList.andThen fun s =>
      (s.insertRule id rule).bind fun s =>
        if s.interactive then s.updateChain loading else some (.returns, s)

def eraseRule (id : ℕ) : Option State :=
  if s.counters = [] then none
  else
    (Shifting.erase setId id s.rules).bind fun rules =>
      (Shifting.erase ChainStats.setId id s.counters).map fun counters =>
        { s with rules := rules, counters := counters }

def delRule (id : ℕ) (loading : Option (ℕ → Bool)) : Result :=
  if s.rules.length < id then some (.throws, s)
  else
    match s.rules[id]? with
    | none => none
    | some none => some (.throws, s)
    | some (some _) => s.getStatsList.andThen fun s =>
      (s.eraseRule id).bind fun s =>
        if s.interactive then s.applyRules loading else some (.returns, s)

def replaceRule (id : ℕ) (rule : Option ChainRule) (loadsDel loadsAdd : Option (ℕ → Bool)) :
    Result :=
  (s.delRule id loadsDel).andThen fun s => s.addRule id rule loadsAdd

def delRuleList (loading : Option (ℕ → Bool)) : Result :=
  let s := { s with rules := [], counters := [] }
  if s.interactive then s.applyRules loading else some (.returns, s)

def resetCounters (wiped : ℕ → Bool) (throws : Bool) : Result :=
  let s := { s with slot := fun k => if wiped k then 0 else s.slot k }
  if throws then some (.returns, s)
  else if none ∈ s.rules then none
  else some (.returns, { s with counters := [] })

end State

inductive Event
  | append (rule : Option ChainRule) (loading : Option (ℕ → Bool))
  | insert (id : ℕ) (rule : Option ChainRule) (loading : Option (ℕ → Bool))
  | addRule (id : ℕ) (rule : Option ChainRule) (loading : Option (ℕ → Bool))
  | delRule (id : ℕ) (loading : Option (ℕ → Bool))
  | replaceRule (id : ℕ) (rule : Option ChainRule) (loadsDel loadsAdd : Option (ℕ → Bool))
  | delRuleList (loading : Option (ℕ → Bool))
  | resetCounters (wiped : ℕ → Bool) (throws : Bool)
  | applyRules (loading : Option (ℕ → Bool))
  | getStats (id : ℕ)
  | getStatsList
  | setInteractive (value : Bool)
  | packet (id length : ℕ)

def Event.run (s : State) : Event → Result
  | .append rule loading => s.addRule s.rules.length rule loading
  | .insert id rule loading => s.insert id rule loading
  | .addRule id rule loading => s.addRule id rule loading
  | .delRule id loading => s.delRule id loading
  | .replaceRule id rule loadsDel loadsAdd => s.replaceRule id rule loadsDel loadsAdd
  | .delRuleList loading => s.delRuleList loading
  | .resetCounters wiped throws => s.resetCounters wiped throws
  | .applyRules loading => s.applyRules loading
  | .getStats id => s.getStats id
  | .getStatsList => s.getStatsList
  | .setInteractive value => some (.returns, { s with interactive := value })
  | .packet id length =>
    some (.returns, { s with slot := Function.update s.slot id (s.slot id + (1, length)) })

def step (s : Option State) (event : Event) : Option State :=
  s.bind fun s => (event.run s).map Prod.snd

namespace State

structure Kept (s : State) : Prop where
  placed : ∀ k (r : ChainRule), s.rules[k]? = some (some r) → r.id = k
  counters_le : s.counters.length ≤ s.rules.length

def total (s : State) (k : ℕ) : Count :=
  (s.counters[k]?.join.map ChainStats.count).getD 0 + s.slot k

def Drained (s : State) (k : ℕ) : Prop :=
  (∃ c, s.counters[k]? = some (some c)) ∧ s.slot k = 0

end State

structure Reads (s s' : State) : Prop where
  rules : s'.rules = s.rules
  interactive : s'.interactive = s.interactive
  readable : s'.readable = s.readable
  total : ∀ k, s'.total k = s.total k
  drained : ∀ k, s.Drained k → s'.Drained k

namespace Reads

variable {s s' s'' : State}

theorem refl (s : State) : Reads s s := ⟨rfl, rfl, rfl, fun _ => rfl, fun _ => id⟩

theorem trans (h : Reads s s') (h' : Reads s' s'') : Reads s s'' where
  rules := h'.rules.trans h.rules
  interactive := h'.interactive.trans h.interactive
  readable := h'.readable.trans h.readable
  total k := (h'.total k).trans (h.total k)
  drained k := h'.drained k ∘ h.drained k

end Reads

section Reading

variable {s : State} {id : ℕ}

theorem total_store (s : State) (id k : ℕ) : (s.store id).total k = s.total k := by
  unfold State.total State.store
  dsimp only
  by_cases e : k = id
  · subst e
    rw [Shifting.getElem?_put_self, Function.update_self, add_zero]
    cases s.counters[k]?.join with
    | none => exact (zero_add _).symm
    | some c => rfl
  · rw [Shifting.getElem?_join_put_of_ne e, Function.update_of_ne e]

theorem drained_store (s : State) (id : ℕ) : (s.store id).Drained id :=
  ⟨⟨_, Shifting.getElem?_put_self⟩, Function.update_self ..⟩

theorem Drained.store {k : ℕ} (h : s.Drained k) (id : ℕ) : (s.store id).Drained k := by
  by_cases e : k = id
  · exact e ▸ drained_store s id
  · obtain ⟨⟨c, hc⟩, empty⟩ := h
    refine ⟨⟨c, Shifting.getElem?_eq_some_some.2 ?_⟩, (Function.update_of_ne e ..).trans empty⟩
    exact (Shifting.getElem?_join_put_of_ne e).trans (Shifting.getElem?_eq_some_some.1 hc)

theorem store_kept (h : s.Kept) (hid : id < s.rules.length) : (s.store id).Kept where
  placed := h.placed
  counters_le := by
    have := h.counters_le
    show (Shifting.put _ _ _).length ≤ s.rules.length
    rw [Shifting.length_put]
    omega

theorem store_reads (s : State) (id : ℕ) : Reads s (s.store id) :=
  ⟨rfl, rfl, rfl, total_store s id, fun _ h => Drained.store h id⟩

theorem getStats_of_rule (s : State) {r : ChainRule} (hr : s.rules[id]? = some (some r)) :
    s.getStats id =
      if s.readable id then some (.returns, s.store id) else some (.throws, s) := by
  have hid : id < s.rules.length := (List.getElem?_eq_some_iff.1 hr).1
  unfold State.getStats
  rw [if_neg (by omega), hr]

/-- The loop stops at the first counter that cannot be read. -/
theorem getStatsOf_spec {rules : Rules} (h : s.Kept)
    (places : ∀ r, some r ∈ rules → s.rules[r.id]? = some (some r)) :
    ∃ outcome s', State.getStatsOf rules s = some (outcome, s') ∧
      (outcome = .returns ↔ ∀ r : ChainRule, some r ∈ rules → s.readable r.id = true) ∧
      s'.Kept ∧ Reads s s' ∧
      (outcome = .returns → ∀ r : ChainRule, some r ∈ rules → s'.Drained r.id) := by
  induction rules generalizing s with
  | nil =>
    exact ⟨.returns, s, rfl, iff_of_true rfl fun _ hr => absurd hr List.not_mem_nil, h, .refl s,
      fun _ _ hr => absurd hr List.not_mem_nil⟩
  | cons r rules ih =>
    cases r with
    | none =>
      obtain ⟨outcome, s', e, readable, kept, reads, drained⟩ := ih h fun r hr =>
        places r (by simp [hr])
      refine ⟨outcome, s', e, ?_, kept, reads, fun returns r hr => ?_⟩
      · simpa using readable
      · exact drained returns r (by simpa using hr)
    | some r =>
      have hr := places r (by simp)
      have hid : r.id < s.rules.length := (List.getElem?_eq_some_iff.1 hr).1
      unfold State.getStatsOf
      rw [getStats_of_rule s hr]
      by_cases readable : s.readable r.id = true
      · rw [if_pos readable]
        obtain ⟨outcome, s₂, e₂, readable₂, kept₂, reads₂, drained₂⟩ :=
          ih (store_kept h hid) fun r hr => places r (by simp [hr])
        refine ⟨outcome, s₂, e₂, ?_, kept₂, (store_reads s r.id).trans reads₂, fun returns q hq => ?_⟩
        · rw [readable₂]
          simp only [List.mem_cons, Option.some.injEq]
          constructor
          · rintro rest q (rfl | hq)
            · exact readable
            · exact rest q hq
          · exact fun all q hq => all q (Or.inr hq)
        · rcases List.mem_cons.1 hq with e | hq
          · rw [Option.some.inj e]
            exact reads₂.drained _ (drained_store s r.id)
          · exact drained₂ returns q hq
      · rw [if_neg readable]
        refine ⟨.throws, s, rfl, iff_of_false nofun fun all => ?_, h, .refl s, nofun⟩
        exact readable (all r (by simp))

theorem State.Kept.getElem?_of_mem (h : s.Kept) {r : ChainRule} (hr : some r ∈ s.rules) :
    s.rules[r.id]? = some (some r) := by
  obtain ⟨k, hk, e⟩ := List.getElem_of_mem hr
  have hk : s.rules[k]? = some (some r) := by
    rw [List.getElem?_eq_getElem hk, e]
  rwa [h.placed k r hk]

theorem getStatsList_spec (h : s.Kept) :
    ∃ outcome s', s.getStatsList = some (outcome, s') ∧
      (outcome = .returns ↔
        ∀ k r, s.rules[k]? = some (some r) → s.readable k = true) ∧
      s'.Kept ∧ Reads s s' ∧
      (outcome = .returns → ∀ k r, s.rules[k]? = some (some r) → s'.Drained k) := by
  obtain ⟨outcome, s', e, readable, kept, reads, drained⟩ :=
    getStatsOf_spec h fun r hr => h.getElem?_of_mem hr
  refine ⟨outcome, s', e, readable.trans ⟨fun all k r hr => ?_, fun all r hr => ?_⟩, kept, reads,
    fun returns k r hr => ?_⟩
  · rw [← h.placed k r hr]
    exact all r (List.mem_of_getElem? hr)
  · exact all _ r (h.getElem?_of_mem hr)
  · rw [← h.placed k r hr]
    exact drained returns r (List.mem_of_getElem? hr)

end Reading

/-! ### The invariant in every run -/

section Run

variable {s : State} {id : ℕ}

def Result.Kept (r : Result) : Prop := ∀ outcome s', r = some (outcome, s') → s'.Kept

theorem Result.kept_some {outcome : Outcome} (h : s.Kept) : Result.Kept (some (outcome, s)) := by
  rintro _ _ e
  cases e
  exact h

theorem kept_andThen (h : s.Kept) {f : State → Result}
    (keep : ∀ s₁, s₁.Kept → Reads s s₁ →
      (∀ k r, s.rules[k]? = some (some r) → s₁.Drained k) → (f s₁).Kept) :
    (s.getStatsList.andThen f).Kept := by
  obtain ⟨outcome, s₁, e, -, kept, reads, drained⟩ := getStatsList_spec h
  rw [e]
  cases outcome with
  | throws => exact Result.kept_some kept
  | returns => exact keep s₁ kept reads (drained rfl)

theorem updateChain_kept (h : s.Kept) (loading : Option (ℕ → Bool)) :
    (s.updateChain loading).Kept := by
  unfold State.updateChain
  split
  · exact nofun
  · cases loading with
    | none => exact Result.kept_some h
    | some readable => exact Result.kept_some ⟨h.placed, h.counters_le⟩

theorem applyRules_kept (h : s.Kept) (loading : Option (ℕ → Bool)) :
    (s.applyRules loading).Kept := by
  intro outcome s' e
  obtain ⟨⟨outcome', s₁⟩, e', e⟩ := Option.map_eq_some_iff.1 e
  cases e
  exact updateChain_kept h loading outcome' _ e'

theorem addRule_kept (h : s.Kept) (id : ℕ) (rule : Option ChainRule)
    (loading : Option (ℕ → Bool)) : (s.addRule id rule loading).Kept := by
  unfold State.addRule
  cases rule with
  | none => exact Result.kept_some h
  | some rule =>
    refine kept_andThen h fun s₁ kept _ _ => ?_
    have kept' : State.Kept { s₁ with rules := Shifting.put id (setId id rule) s₁.rules } := by
      refine ⟨fun k r hr => ?_, ?_⟩
      · dsimp only at hr
        by_cases e : k = id
        · subst e
          rw [Shifting.getElem?_put_self, Option.some.injEq, Option.some.injEq] at hr
          rw [← hr]
          rfl
        · apply kept.placed k r
          rw [Shifting.getElem?_eq_some_some] at hr ⊢
          rwa [Shifting.getElem?_join_put_of_ne e] at hr
      · have := kept.counters_le
        dsimp only
        rw [Shifting.length_put]
        omega
    dsimp only
    split
    · exact updateChain_kept kept' loading
    · exact Result.kept_some kept'

theorem insert_kept (h : s.Kept) (id : ℕ) (rule : Option ChainRule)
    (loading : Option (ℕ → Bool)) : (s.insert id rule loading).Kept := by
  unfold State.insert
  by_cases past : s.rules.length < id
  · rw [if_pos past]
    exact Result.kept_some h
  rw [if_neg past]
  cases rule with
  | none => exact Result.kept_some h
  | some rule =>
    refine kept_andThen h fun s₁ kept reads _ => ?_
    unfold State.insertRule
    split
    · exact nofun
    next enough =>
      have same : s₁.counters.length = s₁.rules.length := by
        have := kept.counters_le
        omega
      have hid : id ≤ s₁.rules.length := by
        rw [reads.rules]
        omega
      have kept' : State.Kept { s₁ with
          rules := Shifting.insert setId id rule s₁.rules
          counters := (Shifting.makeRoom ChainStats.setId (s₁.rules.length + 1) id
            (s₁.counters ++ [none])).set id (some ⟨id, 0⟩) } := by
        refine ⟨fun k r hr => ?_, ?_⟩
        · dsimp only at hr
          rw [Shifting.getElem?_insert setId hid] at hr
          split at hr
          · exact kept.placed k r hr
          split at hr
          next e =>
            rw [Option.some.injEq, Option.some.injEq] at hr
            rw [← hr]
            exact e.symm
          next =>
            obtain ⟨x, -, hr⟩ := Option.map_eq_some_iff.1 hr
            obtain ⟨r', -, rfl⟩ := Option.map_eq_some_iff.1 hr
            rfl
        · rw [Shifting.length_insert, ← same]
          show (Shifting.insert ChainStats.setId id ⟨id, 0⟩ s₁.counters).length ≤ _
          rw [Shifting.length_insert]
      rw [Option.bind_some]
      split
      · exact updateChain_kept kept' loading
      · exact Result.kept_some kept'

theorem eraseRule_kept (h : s.Kept) {s' : State} (e : s.eraseRule id = some s')
    (hid : id < s.rules.length) :
    s'.Kept ∧ s'.interactive = s.interactive ∧ s'.rules.length = s.rules.length - 1 := by
  unfold State.eraseRule at e
  split at e
  · cases e
  obtain ⟨rules, hrules, e⟩ := Option.bind_eq_some_iff.1 e
  obtain ⟨counters, hcounters, rfl⟩ := Option.map_eq_some_iff.1 e
  have length := Shifting.length_of_erase setId hrules
  refine ⟨⟨?_, ?_⟩, rfl, length⟩
  · intro k r hr
    dsimp only at hr
    rw [Shifting.getElem?_erase setId hid hrules] at hr
    split at hr
    · exact h.placed k r hr
    · obtain ⟨x, -, hr⟩ := Option.map_eq_some_iff.1 hr
      obtain ⟨r', -, rfl⟩ := Option.map_eq_some_iff.1 hr
      rfl
  · have := h.counters_le
    rw [length, Shifting.length_of_erase ChainStats.setId hcounters]
    omega

theorem delRule_kept (h : s.Kept) (id : ℕ) (loading : Option (ℕ → Bool)) :
    (s.delRule id loading).Kept := by
  unfold State.delRule
  split
  · exact Result.kept_some h
  split
  · exact nofun
  · exact Result.kept_some h
  next r hr =>
    refine kept_andThen h fun s₁ kept reads _ => ?_
    have hid : id < s₁.rules.length := by
      rw [reads.rules]
      exact (List.getElem?_eq_some_iff.1 hr).1
    cases e : s₁.eraseRule id with
    | none => exact nofun
    | some s₂ =>
      obtain ⟨kept₂, -, -⟩ := eraseRule_kept kept e hid
      rw [Option.bind_some]
      split
      · exact applyRules_kept kept₂ loading
      · exact Result.kept_some kept₂

theorem kept_of_nil {s : State} (rules : s.rules = []) (counters : s.counters = []) : s.Kept := by
  refine ⟨fun k r rule => ?_, ?_⟩
  · rw [rules, List.getElem?_nil] at rule
    cases rule
  · rw [counters, rules]
    exact le_rfl

theorem init_kept : State.init.Kept := kept_of_nil rfl rfl

theorem getStats_kept (h : s.Kept) (id : ℕ) : (s.getStats id).Kept := by
  by_cases rule : ∃ r, s.rules[id]? = some (some r)
  · obtain ⟨r, hr⟩ := rule
    rw [getStats_of_rule s hr]
    split
    · exact Result.kept_some (store_kept h (List.getElem?_eq_some_iff.1 hr).1)
    · exact Result.kept_some h
  · unfold State.getStats
    split
    · exact Result.kept_some h
    split
    · exact nofun
    · exact Result.kept_some h
    next r hr => exact absurd ⟨r, hr⟩ rule

theorem event_kept (h : s.Kept) (event : Event) : (event.run s).Kept := by
  cases event with
  | append rule loading => exact addRule_kept h _ rule loading
  | insert id rule loading => exact insert_kept h id rule loading
  | addRule id rule loading => exact addRule_kept h id rule loading
  | delRule id loading => exact delRule_kept h id loading
  | replaceRule id rule loadsDel loadsAdd =>
    have deleted := delRule_kept h id loadsDel
    show (State.replaceRule s id rule loadsDel loadsAdd).Kept
    unfold State.replaceRule
    cases e : s.delRule id loadsDel with
    | none => exact nofun
    | some r =>
      obtain ⟨outcome, s₁⟩ := r
      have kept := deleted outcome s₁ e
      cases outcome with
      | throws => exact Result.kept_some kept
      | returns => exact addRule_kept kept id rule loadsAdd
  | delRuleList loading =>
    have kept : State.Kept { s with rules := [], counters := [] } := kept_of_nil rfl rfl
    show (State.delRuleList s loading).Kept
    unfold State.delRuleList
    dsimp only
    split
    · exact applyRules_kept kept loading
    · exact Result.kept_some kept
  | resetCounters wiped throws =>
    show (State.resetCounters s wiped throws).Kept
    unfold State.resetCounters
    dsimp only
    split
    · exact Result.kept_some ⟨h.placed, h.counters_le⟩
    split
    · exact nofun
    · exact Result.kept_some ⟨h.placed, Nat.zero_le _⟩
  | applyRules loading => exact applyRules_kept h loading
  | getStats id => exact getStats_kept h id
  | getStatsList =>
    obtain ⟨outcome, s', e, -, kept, -⟩ := getStatsList_spec h
    show (State.getStatsList s).Kept
    rw [e]
    exact Result.kept_some kept
  | setInteractive value => exact Result.kept_some ⟨h.placed, h.counters_le⟩
  | packet id length => exact Result.kept_some ⟨h.placed, h.counters_le⟩

theorem kept_of_run {events : List Event} (h : run step (some .init) events = some s) :
    s.Kept := by
  have all : ∀ s : State, run step (some .init) events = some s → s.Kept := by
    refine run_invariant (P := fun s => ∀ s' : State, s = some s' → s'.Kept) ?_ events ?_
    · intro s event kept s' e
      obtain ⟨s₁, rfl, e⟩ := Option.bind_eq_some_iff.1 e
      obtain ⟨⟨outcome, s₂⟩, e₂, rfl⟩ := Option.map_eq_some_iff.1 e
      exact event_kept (kept s₁ rfl) event outcome s₂ e₂
    · rintro _ ⟨⟩
      exact init_kept
  exact all s h

end Run

/-! ### Replacement of a rule -/

structure PointUpdate (s : State) (id : ℕ) (rule : ChainRule) (s' : State) : Prop where
  length : s'.rules.length = s.rules.length
  here : s'.rules[id]? = some (some (setId id rule))
  others : ∀ k, k ≠ id → s'.rules[k]? = s.rules[k]?
  totals : ∀ k r, k ≠ id → s.rules[k]? = some (some r) → s'.total k = s.total k

/-- The rule is the last one, all counters can be read, and in interactive mode no position is
without a rule, the programs that the deletion loads have counters for the other positions, and
the addition can load its programs. -/
structure Replaceable (s : State) (id : ℕ) (loadsDel loadsAdd : Option (ℕ → Bool)) : Prop where
  last : id + 1 = s.rules.length
  readable : ∀ k r, s.rules[k]? = some (some r) → s.readable k = true
  filled : s.interactive = true → none ∉ s.rules
  reloaded : s.interactive = true → ∀ readable, loadsDel = some readable →
    ∀ k < id, readable k = true
  loads : s.interactive = true → loadsAdd.isSome = true

section Replacement

variable {s : State} {id : ℕ} {rule : ChainRule}

/-- What an operation does that asks for all counters and then goes on. -/
theorem andThen_returns {f : State → Result} (h : s.Kept) {s' : State}
    (e : s.getStatsList.andThen f = some (.returns, s')) :
    ∃ s₁, s₁.Kept ∧ Reads s s₁ ∧ (∀ k r, s.rules[k]? = some (some r) → s₁.Drained k) ∧
      (∀ k r, s.rules[k]? = some (some r) → s.readable k = true) ∧ f s₁ = some (.returns, s') := by
  obtain ⟨outcome, s₁, e₁, readable, kept, reads, drained⟩ := getStatsList_spec h
  rw [e₁] at e
  cases outcome with
  | throws => cases e
  | returns => exact ⟨s₁, kept, reads, drained rfl, readable.1 rfl, e⟩

theorem andThen_of_readable {f : State → Result} (h : s.Kept)
    (readable : ∀ k r, s.rules[k]? = some (some r) → s.readable k = true) :
    ∃ s₁, s₁.Kept ∧ Reads s s₁ ∧ (∀ k r, s.rules[k]? = some (some r) → s₁.Drained k) ∧
      s.getStatsList.andThen f = f s₁ := by
  obtain ⟨outcome, s₁, e₁, readable', kept, reads, drained⟩ := getStatsList_spec h
  obtain rfl := readable'.2 readable
  refine ⟨s₁, kept, reads, drained rfl, ?_⟩
  rw [e₁]
  rfl

/-- What `updateChain` leaves when it does not throw. -/
theorem updateChain_returns {s' : State} {loading : Option (ℕ → Bool)}
    (e : s.updateChain loading = some (.returns, s')) : none ∉ s.rules ∧
      ∃ readable, loading = some readable ∧
        s' = { s with readable := readable, slot := fun _ => 0 } := by
  unfold State.updateChain at e
  split at e
  · cases e
  next full =>
    cases loading with
    | none => cases e
    | some readable =>
      cases e
      exact ⟨full, readable, rfl, rfl⟩

/-- The addition of a rule behind the last one, when it does not throw. -/
theorem addRule_returns {s' : State} {loading : Option (ℕ → Bool)} (h : s.Kept)
    (e : s.addRule id (some rule) loading = some (.returns, s')) :
    s'.rules = Shifting.put id (setId id rule) s.rules ∧
      (∀ k r, s.rules[k]? = some (some r) → s.readable k = true) ∧
      (s.interactive = true → loading.isSome = true) := by
  obtain ⟨s₁, -, reads, -, readable, e⟩ := andThen_returns h e
  dsimp only at e
  split at e
  next on =>
    obtain ⟨-, programs, rfl, rfl⟩ := updateChain_returns e
    refine ⟨?_, readable, fun _ => rfl⟩
    rw [reads.rules]
  next off =>
    cases e
    rw [reads.interactive] at off
    refine ⟨?_, readable, fun on => absurd on off⟩
    rw [reads.rules]

theorem delRule_returns {s' : State} {loading : Option (ℕ → Bool)} (h : s.Kept)
    (e : s.delRule id loading = some (.returns, s')) :
    (∃ r, s.rules[id]? = some (some r)) ∧ s'.interactive = s.interactive ∧
      (∀ k, s'.rules[k]? =
        if k < id then s.rules[k]? else s.rules[k + 1]?.map (Option.map (setId k))) ∧
      s'.rules.length = s.rules.length - 1 ∧
      (∀ k r, s.rules[k]? = some (some r) → s.readable k = true) ∧
      (s.interactive = true → none ∉ s'.rules ∧
        ∀ readable, loading = some readable → s'.readable = readable) := by
  unfold State.delRule at e
  split at e
  · cases e
  split at e
  · cases e
  · cases e
  next r hr =>
    have hid : id < s.rules.length := (List.getElem?_eq_some_iff.1 hr).1
    obtain ⟨s₁, kept, reads, -, readable, e⟩ := andThen_returns h e
    obtain ⟨s₂, erased, e⟩ := Option.bind_eq_some_iff.1 e
    have hid₁ : id < s₁.rules.length := reads.rules.symm ▸ hid
    obtain ⟨-, interactive, length⟩ := eraseRule_kept kept erased hid₁
    have places : ∀ k, s₂.rules[k]? =
        if k < id then s.rules[k]? else s.rules[k + 1]?.map (Option.map (setId k)) := by
      intro k
      unfold State.eraseRule at erased
      split at erased
      · cases erased
      obtain ⟨rules, hrules, erased⟩ := Option.bind_eq_some_iff.1 erased
      obtain ⟨counters, -, rfl⟩ := Option.map_eq_some_iff.1 erased
      rw [← reads.rules]
      exact Shifting.getElem?_erase setId hid₁ hrules k
    rw [reads.rules] at length
    split at e
    next on =>
      obtain ⟨⟨outcome, s₃⟩, e₃, e⟩ := Option.map_eq_some_iff.1 e
      cases e
      unfold State.updateChain at e₃
      split at e₃
      · cases e₃
      next full =>
        cases loading with
        | none =>
          cases e₃
          exact ⟨⟨r, hr⟩, interactive.trans reads.interactive, places, length, readable,
            fun _ => ⟨full, nofun⟩⟩
        | some programs =>
          cases e₃
          refine ⟨⟨r, hr⟩, interactive.trans reads.interactive, places, length, readable,
            fun _ => ⟨full, fun _ e => ?_⟩⟩
          exact Option.some.inj e
    next off =>
      cases e
      rw [interactive, reads.interactive] at off
      exact ⟨⟨r, hr⟩, interactive.trans reads.interactive, places, length, readable,
        fun on => absurd on off⟩

theorem replaceable_of_pointUpdate (h : s.Kept) {loadsDel loadsAdd : Option (ℕ → Bool)}
    {s' : State}
    (e : s.replaceRule id (some rule) loadsDel loadsAdd = some (.returns, s'))
    (length : s'.rules.length = s.rules.length) : Replaceable s id loadsDel loadsAdd := by
  unfold State.replaceRule at e
  cases e₁ : s.delRule id loadsDel with
  | none =>
    rw [e₁] at e
    cases e
  | some r =>
    rw [e₁] at e
    obtain ⟨outcome, s₁⟩ := r
    cases outcome with
    | throws => cases e
    | returns =>
      have kept := delRule_kept h id loadsDel _ _ e₁
      obtain ⟨⟨old, hold⟩, interactive, places, length₁, readable, reloads⟩ :=
        delRule_returns h e₁
      have hid : id < s.rules.length := (List.getElem?_eq_some_iff.1 hold).1
      obtain ⟨rules, readable₁, loads⟩ := addRule_returns kept e
      -- the list is one shorter, and the new rule is put over the one that moved up
      have last : id + 1 = s.rules.length := by
        rw [rules, Shifting.length_put, length₁] at length
        omega
      refine ⟨last, readable, fun on full => ?_, fun on programs e k hk => ?_,
        fun on => loads (interactive.trans on)⟩
      · obtain ⟨k, hk, hnone⟩ := List.getElem_of_mem full
        have hnone : s.rules[k]? = some none := by
          rw [List.getElem?_eq_getElem hk, hnone]
        rcases Nat.lt_or_ge k id with below | here
        · apply (reloads on).1
          apply List.mem_of_getElem? (i := k)
          rw [places, if_pos below, hnone]
        · obtain rfl : k = id := by omega
          rw [hold] at hnone
          cases hnone
      · have same := places k
        rw [if_pos hk] at same
        cases hr : s.rules[k]? with
        | none =>
          rw [List.getElem?_eq_none_iff] at hr
          omega
        | some r =>
          rw [hr] at same
          cases r with
          | none => exact absurd (List.mem_of_getElem? same) (reloads on).1
          | some r =>
            rw [← (reloads on).2 programs e]
            exact readable₁ k r same

/-- The deletion of the last rule: the others stay with what was counted for them. -/
theorem delRule_last (h : s.Kept) {loading : Option (ℕ → Bool)} {old : ChainRule}
    (last : id + 1 = s.rules.length) (hold : s.rules[id]? = some (some old))
    (readable : ∀ k r, s.rules[k]? = some (some r) → s.readable k = true)
    (filled : s.interactive = true → none ∉ s.rules) :
    ∃ s', s.delRule id loading = some (.returns, s') ∧ s'.interactive = s.interactive ∧
      s'.rules = s.rules.take id ∧
      s'.readable = (if s.interactive then loading.getD s.readable else s.readable) ∧
      ∀ k r, k < id → s.rules[k]? = some (some r) → s'.total k = s.total k := by
  obtain ⟨s₁, kept, reads, drained, e⟩ :=
    @andThen_of_readable s (fun s => (s.eraseRule id).bind fun s =>
      if s.interactive then s.applyRules loading else some (.returns, s)) h readable
  have here := drained id old hold
  have last₁ : id + 1 = s₁.rules.length := reads.rules.symm ▸ last
  have length : s₁.counters.length = id + 1 := by
    have := kept.counters_le
    obtain ⟨⟨c, hc⟩, -⟩ := here
    have := (List.getElem?_eq_some_iff.1 hc).1
    omega
  obtain ⟨rules, hrules, rulesLength, rulePlaces⟩ := Shifting.erase_of_forall setId
    (show id < s₁.rules.length by omega) fun j hj hj' => by omega
  obtain ⟨counters, hcounters, -, counterPlaces⟩ := Shifting.erase_of_forall ChainStats.setId
    (show id < s₁.counters.length by omega) fun j hj hj' => by omega
  have taken : rules = s.rules.take id := by
    apply List.ext_getElem?
    intro k
    rw [rulePlaces, List.getElem?_take, reads.rules]
    split
    · rfl
    · rw [List.getElem?_eq_none (by omega)]
      rfl
  have erased : s₁.eraseRule id = some { s₁ with rules := rules, counters := counters } := by
    unfold State.eraseRule
    rw [if_neg, hrules, hcounters]
    · rfl
    · exact List.ne_nil_of_length_pos (by omega)
  have total : ∀ k, k < id →
      State.total { s₁ with rules := rules, counters := counters } k = s.total k := by
    intro k hk
    rw [← reads.total k]
    unfold State.total
    rw [counterPlaces, if_pos hk]
  have full : s.interactive = true → none ∉ rules := by
    intro on hnone
    rw [taken] at hnone
    exact filled on (List.mem_of_mem_take hnone)
  unfold State.delRule
  rw [if_neg (by omega), hold]
  rw [e, erased, Option.bind_some]
  by_cases on : s.interactive = true
  · rw [if_pos (reads.interactive.trans on)]
    unfold State.applyRules State.updateChain
    rw [if_neg (full on), if_pos on]
    cases loading with
    | none => exact ⟨_, rfl, reads.interactive, taken, reads.readable, fun k r hk _ => total k hk⟩
    | some programs =>
      refine ⟨_, rfl, reads.interactive, taken, rfl, fun k r hk hr => ?_⟩
      rw [← total k hk]
      unfold State.total
      rw [(drained k r hr).2]
  · rw [if_neg (by rwa [reads.interactive]), if_neg on]
    exact ⟨_, rfl, reads.interactive, taken, reads.readable, fun k r hk _ => total k hk⟩

theorem addRule_last (h : s.Kept) {loading : Option (ℕ → Bool)} (last : id = s.rules.length)
    (readable : ∀ k r, s.rules[k]? = some (some r) → s.readable k = true)
    (filled : s.interactive = true → none ∉ s.rules)
    (loads : s.interactive = true → loading.isSome = true) :
    ∃ s', s.addRule id (some rule) loading = some (.returns, s') ∧
      s'.rules = Shifting.put id (setId id rule) s.rules ∧
      ∀ k r, s.rules[k]? = some (some r) → s'.total k = s.total k := by
  obtain ⟨s₁, -, reads, drained, e⟩ :=
    @andThen_of_readable s (fun s =>
      let s := { s with rules := Shifting.put id (setId id rule) s.rules }
      if s.interactive then s.updateChain loading else some (.returns, s)) h readable
  have total : ∀ k,
      State.total { s₁ with rules := Shifting.put id (setId id rule) s₁.rules } k = s.total k :=
    reads.total
  unfold State.addRule
  dsimp only at e ⊢
  rw [e]
  by_cases on : s.interactive = true
  · obtain ⟨programs, rfl⟩ := Option.isSome_iff_exists.1 (loads on)
    have full : none ∉ Shifting.put id (setId id rule) s₁.rules := by
      intro hnone
      obtain ⟨k, hk⟩ := List.mem_iff_getElem?.1 hnone
      rw [Shifting.getElem?_put, reads.rules] at hk
      split at hk
      · cases hk
      split at hk
      · exact filled on (List.mem_of_getElem? hk)
      · rw [if_neg (by omega)] at hk
        cases hk
    rw [if_pos (reads.interactive.trans on)]
    unfold State.updateChain
    rw [if_neg full]
    refine ⟨_, rfl, ?_, fun k r hr => ?_⟩
    · rw [reads.rules]
    · rw [← total k]
      unfold State.total
      rw [(drained k r hr).2]
  · rw [if_neg (by rwa [reads.interactive])]
    refine ⟨_, rfl, ?_, fun k r _ => total k⟩
    rw [reads.rules]

theorem pointUpdate_of_replaceable (h : s.Kept) {loadsDel loadsAdd : Option (ℕ → Bool)}
    {old : ChainRule} (hold : s.rules[id]? = some (some old))
    (ok : Replaceable s id loadsDel loadsAdd) (rule : ChainRule) :
    ∃ s', s.replaceRule id (some rule) loadsDel loadsAdd = some (.returns, s') ∧
      PointUpdate s id rule s' := by
  obtain ⟨s₁, e₁, interactive, rules, readable, total⟩ :=
    @delRule_last _ _ h loadsDel old ok.last hold ok.readable ok.filled
  have kept := delRule_kept h id loadsDel _ _ e₁
  have length : s₁.rules.length = id := by
    have := ok.last
    rw [rules, List.length_take]
    omega
  have below : ∀ {k x}, s₁.rules[k]? = some x → k < id ∧ s.rules[k]? = some x := by
    intro k x hx
    rw [rules, List.getElem?_take] at hx
    split at hx
    next hk => exact ⟨hk, hx⟩
    next => cases hx
  obtain ⟨s₂, e₂, rules₂, total₂⟩ := @addRule_last s₁ id rule kept loadsAdd length.symm
    (by
      intro k r hr
      obtain ⟨hk, hr⟩ := below hr
      rw [readable]
      split
      next on =>
        cases loadsDel with
        | none => exact ok.readable k r hr
        | some programs => exact ok.reloaded on programs rfl k hk
      next => exact ok.readable k r hr)
    (by
      intro on hnone
      obtain ⟨k, hk⟩ := List.mem_iff_getElem?.1 hnone
      exact ok.filled (interactive ▸ on) (List.mem_of_getElem? (below hk).2))
    (fun on => ok.loads (interactive ▸ on))
  refine ⟨s₂, ?_, ?_, ?_, fun k hk => ?_, fun k r hk hr => ?_⟩
  · unfold State.replaceRule
    rw [e₁]
    exact e₂
  · rw [rules₂, Shifting.length_put, length]
    have := ok.last
    omega
  · rw [rules₂, Shifting.getElem?_put_self]
  · rw [rules₂, Shifting.getElem?_put, if_neg hk, length]
    have := ok.last
    split
    next inside => rw [rules, List.getElem?_take, if_pos inside]
    next past =>
      symm
      rw [List.getElem?_eq_none (by omega)]
  · have inside : k < id := by
      have := (List.getElem?_eq_some_iff.1 hr).1
      have := ok.last
      omega
    have hr₁ : s₁.rules[k]? = some (some r) := by
      rw [rules, List.getElem?_take, if_pos inside, hr]
    rw [total₂ k r hr₁, total k r inside hr]

/-- In every state that a chain can come to, the replacement of a rule is a point update exactly
when the rule is the last one and the counters and the programs allow it. -/
theorem replaceRule_pointUpdate_iff {events : List Event}
    (reached : run step (some .init) events = some s) {old : ChainRule}
    (valid : s.rules[id]? = some (some old)) (rule : ChainRule)
    (loadsDel loadsAdd : Option (ℕ → Bool)) :
    (∃ s', s.replaceRule id (some rule) loadsDel loadsAdd = some (.returns, s') ∧
      PointUpdate s id rule s') ↔ Replaceable s id loadsDel loadsAdd := by
  have kept := kept_of_run reached
  constructor
  · rintro ⟨s', e, update⟩
    exact replaceable_of_pointUpdate kept e update.length
  · exact fun ok => pointUpdate_of_replaceable kept valid ok rule

end Replacement

def someRule (action : Firewall.ActionEnum) : ChainRule :=
  ⟨0, none, none, none, some 80, some .tcp, none, none, none, none, action⟩

def twoRules : List Event :=
  [.append (some (someRule .drop)) (some fun _ => true),
   .append (some (someRule .accept)) (some fun _ => true), .packet 0 100]

/-- The second of two rules is replaced. -/
theorem replaceRule_second : ∃ s s', run step (some .init) twoRules = some s ∧
    s.replaceRule 1 (some (someRule .drop)) (some fun _ => true) (some fun _ => true) =
      some (.returns, s') ∧ PointUpdate s 1 (someRule .drop) s' := by
  obtain ⟨s, reached⟩ : ∃ s, run step (some .init) twoRules = some s := ⟨_, rfl⟩
  have rules : s.rules = [some (setId 0 (someRule .drop)), some (setId 1 (someRule .accept))] := by
    cases reached
    rfl
  have readable : s.readable = fun _ => true := by
    cases reached
    rfl
  have valid : s.rules[1]? = some (some (setId 1 (someRule .accept))) := by
    rw [rules]
    rfl
  obtain ⟨s', e, update⟩ := (replaceRule_pointUpdate_iff reached valid (someRule .drop)
    (some fun _ => true) (some fun _ => true)).2
      ⟨by rw [rules]; rfl, fun _ _ _ => by rw [readable], fun _ => by rw [rules]; decide,
        fun _ _ e _ _ => by rw [← Option.some.inj e], fun _ => rfl⟩
  exact ⟨s, s', reached, e, update⟩

/-- The first of two rules is replaced: the second one is gone. -/
theorem replaceRule_first : ∃ s s', run step (some .init) twoRules = some s ∧
    s.replaceRule 0 (some (someRule .accept)) (some fun _ => true) (some fun _ => true) =
      some (.returns, s') ∧ s.rules.length = 2 ∧
      s'.rules = [some (setId 0 (someRule .accept))] ∧
      ¬ PointUpdate s 0 (someRule .accept) s' := by
  refine ⟨_, _, rfl, rfl, rfl, rfl, fun update => ?_⟩
  have length := update.length
  revert length
  decide

end Polycube.Iptables.Counted
