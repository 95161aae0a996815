import Polycube.Firewall.Edits

/-!
# Ids and counters stay with their rules

Every operation that shifts the two vectors first asks for all counters (`getStatsList`), after
which both are full and the programs have nothing more to tell (`State.Ready`).  An edit of such a
state keeps every id and every counter at its rule, except that a rule put in the place of another
one takes over its counter.
-/

namespace Polycube.Firewall.Edits

open Lib
open Function (update_of_ne update_self update)

namespace State

def tagAt (s : State) (k : ℕ) : Option ℕ := s.rules[k]?.join.map Placed.tag

structure Aligned (s : State) : Prop where
  placed : ∀ k < s.rules.length, ∃ r, s.rules[k]? = some (some r) ∧ r.rule.id = k
  counter : ∀ k c, s.counters[k]? = some (some c) →
    c.id = k ∧ ∀ d ∈ c.packets, s.tagAt k = some d.owner

/-- So is what the programs have counted and not been asked for; a program that is not asked has
counted nothing. -/
structure Kept (s : State) : Prop extends s.Aligned where
  counters_le : s.counters.length ≤ s.rules.length
  slot : ∀ p k, ∀ d ∈ s.slot p k, s.tagAt k = some d.owner
  off : s.horusOn = false → ∀ k, s.loaded .horus k = none ∧ s.slot .horus k = []
  readable : s.readable = true
  unread : s.hasAction = false → ∀ p k, s.slot p k = []

def ReadableAt (s : State) (k : ℕ) : Prop :=
  s.hasAction = true → k < Prog.action.capacity ∧ (s.horusOn = true → k < Prog.horus.capacity)

/-- The maps of the programs have a counter for every rule. -/
def Readable (s : State) : Prop := ∀ k < s.rules.length, s.ReadableAt k

def Fetched (s : State) (k : ℕ) : Prop :=
  (∃ c, s.counters[k]? = some (some c)) ∧ ∀ p, s.slot p k = []

def Blank (s : State) (k : ℕ) : Prop :=
  (∀ c, s.counters[k]? = some (some c) → c.packets = []) ∧ ∀ p, s.slot p k = []

end State

structure Reads (s s' : State) : Prop where
  rules : s'.rules = s.rules
  fresh : s'.fresh = s.fresh
  hasAction : s'.hasAction = s.hasAction
  left : s'.left = s.left
  horusOn : s'.horusOn = s.horusOn
  fetched : ∀ k, s.Fetched k → s'.Fetched k
  blank : ∀ k, s.Blank k → s'.Blank k

namespace Reads

variable {s s' s'' : State}

theorem refl (s : State) : Reads s s := ⟨rfl, rfl, rfl, rfl, rfl, fun _ => id, fun _ => id⟩

theorem trans (h : Reads s s') (h' : Reads s' s'') : Reads s s'' where
  rules := h'.rules.trans h.rules
  fresh := h'.fresh.trans h.fresh
  hasAction := h'.hasAction.trans h.hasAction
  left := h'.left.trans h.left
  horusOn := h'.horusOn.trans h.horusOn
  fetched k := h'.fetched k ∘ h.fetched k
  blank k := h'.blank k ∘ h.blank k

theorem readableAt (h : Reads s s') (k : ℕ) : s'.ReadableAt k ↔ s.ReadableAt k := by
  unfold State.ReadableAt
  rw [h.hasAction, h.horusOn]

end Reads

section Reading

variable {s : State} {id : ℕ}

theorem slot_flush (s : State) (p q : Prog) (id k : ℕ) :
    (s.flush p id).slot q k = if q = p ∧ k = id then [] else s.slot q k := by
  unfold State.flush
  by_cases hq : q = p
  · subst hq
    by_cases hk : k = id
    · subst hk
      simp
    · simp [hk]
  · simp [hq]

theorem flush_reads (p : Prog) (id : ℕ) : Reads s (s.flush p id) where
  rules := rfl
  fresh := rfl
  hasAction := rfl
  left := rfl
  horusOn := rfl
  fetched k h := ⟨h.1, fun q => by rw [slot_flush, h.2 q, ite_self]⟩
  blank k h := ⟨h.1, fun q => by rw [slot_flush, h.2 q, ite_self]⟩

theorem flush_kept (h : s.Kept) (p : Prog) (id : ℕ) : (s.flush p id).Kept where
  placed := h.placed
  counter := h.counter
  counters_le := h.counters_le
  slot q k d hd := by
    rw [slot_flush] at hd
    split at hd
    · cases hd
    · exact h.slot q k d hd
  off on k := by
    refine ⟨(h.off on k).1, ?_⟩
    rw [slot_flush, (h.off on k).2, ite_self]
  readable := h.readable
  unread has q k := by rw [slot_flush, h.unread has q k, ite_self]

/-- What is fetched was counted at the position, and nothing is left there. -/
theorem fetchCounters_spec (h : s.Kept) (id : ℕ) :
    (s.fetchCounters id).2.Kept ∧ Reads s (s.fetchCounters id).2 ∧
      (s.fetchCounters id).2.counters = s.counters ∧
      ((s.fetchCounters id).1.isSome ↔ s.ReadableAt id) ∧
      ∀ packets, (s.fetchCounters id).1 = some packets →
        (∀ d ∈ packets, ∃ p, d ∈ s.slot p id) ∧ ∀ p, (s.fetchCounters id).2.slot p id = [] := by
  unfold State.fetchCounters State.ReadableAt
  rw [h.readable]
  cases has : s.hasAction with
  | false =>
    refine ⟨h, .refl s, rfl, by simp, fun packets e => ?_⟩
    cases e
    exact ⟨nofun, fun p => h.unread has p id⟩
  | true =>
    by_cases past : Prog.action.capacity ≤ id
    · simp only [Bool.not_true, Bool.false_eq_true, if_false, Bool.false_or, past, decide_true,
        if_true]
      exact ⟨h, .refl s, trivial, by simp [past], nofun⟩
    cases on : s.horusOn with
    | false =>
      simp only [Bool.not_true, Bool.false_eq_true, if_false, Bool.false_or, past, decide_false,
        Bool.not_false, if_true]
      refine ⟨flush_kept h _ _, flush_reads _ _, rfl, by simp; omega, fun packets e => ?_⟩
      cases e
      refine ⟨fun d hd => ⟨_, hd⟩, fun p => ?_⟩
      cases p with
      | action => simp [slot_flush]
      | horus =>
        rw [slot_flush, (h.off on id).2, ite_self]
    | true =>
      simp only [Bool.not_true, Bool.false_eq_true, if_false, Bool.false_or, past, decide_false]
      split
      next far =>
        exact ⟨flush_kept h _ _, flush_reads _ _, rfl, by simp; omega, nofun⟩
      next near =>
        refine ⟨flush_kept (flush_kept h _ _) _ _, (flush_reads _ _).trans (flush_reads _ _), rfl,
          by simp; omega, fun packets e => ?_⟩
        cases e
        refine ⟨fun d hd => ?_, fun p => ?_⟩
        · rcases List.mem_append.1 hd with hd | hd
          · exact ⟨_, hd⟩
          · exact ⟨_, hd⟩
        · cases p <;> simp [slot_flush]

/-- What was counted at a position and is not there any more is stored in its counter. -/
theorem store_spec (h : s.Kept) (hid : id < s.rules.length) {packets : List Decided}
    (owned : ∀ d ∈ packets, s.tagAt id = some d.owner) (done : ∀ p, s.slot p id = []) :
    (s.store id packets).Kept ∧ (s.store id packets).Fetched id ∧
      ∀ k, s.Fetched k → (s.store id packets).Fetched k := by
  have here : (s.store id packets).counters[id]? =
      some (some (.add id packets s.counters[id]?.join)) := Shifting.getElem?_put_self
  have fetched : (s.store id packets).Fetched id := ⟨⟨_, here⟩, done⟩
  refine ⟨⟨⟨h.placed, fun k c hc => ?_⟩, ?_, h.slot, h.off, h.readable, h.unread⟩,
    fetched, fun k hk => ?_⟩
  · by_cases e : k = id
    · subst e
      rw [here, Option.some.injEq, Option.some.injEq] at hc
      cases hold : s.counters[k]?.join with
      | none =>
        rw [← hc, hold]
        exact ⟨rfl, owned⟩
      | some old =>
        obtain ⟨number, decided⟩ := h.counter k old (Shifting.getElem?_eq_some_some.2 hold)
        rw [← hc, hold]
        refine ⟨number, fun d hd => ?_⟩
        rcases List.mem_append.1 hd with hd | hd
        · exact decided d hd
        · exact owned d hd
    · refine h.counter k c (Shifting.getElem?_eq_some_some.2 ?_)
      rw [← Shifting.getElem?_join_put_of_ne e]
      exact Shifting.getElem?_eq_some_some.1 hc
  · have := h.counters_le
    show (Shifting.put _ _ _).length ≤ s.rules.length
    rw [Shifting.length_put]
    omega
  · by_cases e : k = id
    · exact e ▸ fetched
    · obtain ⟨⟨c, hc⟩, empty⟩ := hk
      refine ⟨⟨c, Shifting.getElem?_eq_some_some.2 ?_⟩, empty⟩
      exact (Shifting.getElem?_join_put_of_ne e).trans (Shifting.getElem?_eq_some_some.1 hc)

theorem getStats_spec (h : s.Kept) (hid : id < s.rules.length) :
    ∃ outcome s', s.getStats id = some (outcome, s') ∧ (outcome = .returns ↔ s.ReadableAt id) ∧
      s'.Kept ∧ Reads s s' ∧ (outcome = .returns → s'.Fetched id) := by
  obtain ⟨r, hr, -⟩ := h.placed id hid
  obtain ⟨kept, reads, counters, readable, fetched⟩ := fetchCounters_spec h id
  unfold State.getStats
  rw [if_neg (by omega), hr]
  cases hf : s.fetchCounters id with
  | mk packets s₁ =>
    rw [hf] at kept reads counters readable fetched
    cases packets with
    | none =>
      refine ⟨.throws, s₁, rfl, iff_of_false nofun fun ok => ?_, kept, reads, nofun⟩
      exact absurd (readable.2 ok) (by simp)
    | some packets =>
      obtain ⟨counted, done⟩ := fetched packets rfl
      have owned : ∀ d ∈ packets, s₁.tagAt id = some d.owner := by
        intro d hd
        obtain ⟨p, hp⟩ := counted d hd
        unfold State.tagAt
        rw [reads.rules]
        exact h.slot p id d hp
      obtain ⟨kept', fetched', still⟩ := store_spec kept (reads.rules ▸ hid) owned done
      refine ⟨.returns, _, rfl, iff_of_true rfl (readable.1 rfl), kept',
        ⟨reads.rules, reads.fresh, reads.hasAction, reads.left, reads.horusOn,
          fun k hk => still k (reads.fetched k hk), fun k hk => ?_⟩, fun _ => fetched'⟩
      have blank := reads.blank k hk
      refine ⟨fun c hc => ?_, blank.2⟩
      by_cases e : k = id
      · subst e
        have nothing : packets = [] := by
          rw [List.eq_nil_iff_forall_not_mem]
          intro d hd
          obtain ⟨p, hp⟩ := counted d hd
          rw [hk.2 p] at hp
          cases hp
        have hc := (Shifting.getElem?_put_self.symm.trans hc)
        rw [Option.some.injEq, Option.some.injEq, nothing] at hc
        rw [← hc]
        cases hold : s₁.counters[k]?.join with
        | none => rfl
        | some old =>
          rw [counters] at hold
          exact (List.append_nil _).trans (hk.1 old (Shifting.getElem?_eq_some_some.2 hold))
      · have hc := Shifting.getElem?_eq_some_some.1 hc
        have counters : s₁.counters = s.counters := counters
        refine hk.1 c (Shifting.getElem?_eq_some_some.2 ?_)
        rw [← counters, ← hc]
        exact (Shifting.getElem?_join_put_of_ne e).symm

end Reading

section List

variable {s : State} {id : ℕ}

/-- The loop stops at the first counter that cannot be read. -/
theorem getStatsOf_spec {rules : List (Option Placed)} (h : s.Kept)
    (places : ∀ r ∈ rules, ∃ p, r = some p ∧ p.rule.id < s.rules.length) :
    ∃ outcome s', State.getStatsOf rules s = some (outcome, s') ∧
      (outcome = .returns ↔ ∀ p, some p ∈ rules → s.ReadableAt p.rule.id) ∧
      s'.Kept ∧ Reads s s' ∧
      (outcome = .returns → ∀ p, some p ∈ rules → s'.Fetched p.rule.id) := by
  induction rules generalizing s with
  | nil =>
    exact ⟨.returns, s, rfl, iff_of_true rfl fun _ hp => absurd hp List.not_mem_nil, h, .refl s,
      fun _ _ hp => absurd hp List.not_mem_nil⟩
  | cons r rules ih =>
    obtain ⟨p, rfl, hid⟩ := places r (by simp)
    obtain ⟨outcome, s₁, e, readable, kept, reads, fetched⟩ := getStats_spec h hid
    unfold State.getStatsOf
    rw [e]
    cases outcome with
    | throws =>
      refine ⟨.throws, s₁, rfl, iff_of_false nofun fun all => ?_, kept, reads, nofun⟩
      exact absurd (readable.2 (all p (by simp))) nofun
    | returns =>
      obtain ⟨outcome, s₂, e₂, readable₂, kept₂, reads₂, fetched₂⟩ := ih kept fun r hr => by
        obtain ⟨q, hq, hlt⟩ := places r (by simp [hr])
        exact ⟨q, hq, reads.rules ▸ hlt⟩
      refine ⟨outcome, s₂, e₂, ?_, kept₂, reads.trans reads₂, fun returns q hq => ?_⟩
      · rw [readable₂]
        simp only [reads.readableAt, List.mem_cons, Option.some.injEq]
        constructor
        · rintro rest q (rfl | hq)
          · exact readable.1 rfl
          · exact rest q hq
        · exact fun all q hq => all q (Or.inr hq)
      · rcases List.mem_cons.1 hq with e | hq
        · rw [Option.some.inj e]
          exact reads₂.fetched _ (fetched rfl)
        · exact fetched₂ returns q hq

structure State.Ready (s : State) : Prop extends s.Kept where
  length : s.counters.length = s.rules.length
  full : ∀ k < s.rules.length, ∃ c, s.counters[k]? = some (some c)
  empty : ∀ p k, s.slot p k = []

theorem State.Kept.mem_rules (h : s.Kept) {r : Option Placed} (hr : r ∈ s.rules) :
    ∃ p, r = some p ∧ p.rule.id < s.rules.length ∧ s.rules[p.rule.id]? = some (some p) := by
  obtain ⟨k, hk, rfl⟩ := List.getElem_of_mem hr
  obtain ⟨p, hp, hid⟩ := h.placed k hk
  refine ⟨p, ?_, hid ▸ hk, hid ▸ hp⟩
  rw [List.getElem?_eq_getElem hk] at hp
  exact Option.some.inj hp

theorem State.Kept.slot_of_length_le (h : s.Kept) {k : ℕ} (past : s.rules.length ≤ k) (p : Prog) :
    s.slot p k = [] := by
  rw [List.eq_nil_iff_forall_not_mem]
  intro d hd
  have owner := h.slot p k d hd
  unfold State.tagAt at owner
  rw [List.getElem?_eq_none past] at owner
  cases owner

theorem getStatsList_spec (h : s.Kept) :
    ∃ outcome s', s.getStatsList = some (outcome, s') ∧ (outcome = .returns ↔ s.Readable) ∧
      s'.Kept ∧ Reads s s' ∧ (outcome = .returns → s'.Ready) := by
  obtain ⟨outcome, s', e, readable, kept, reads, fetched⟩ := getStatsOf_spec h fun r hr => by
    obtain ⟨p, e, hlt, -⟩ := h.mem_rules hr
    exact ⟨p, e, hlt⟩
  refine ⟨outcome, s', e, readable.trans ⟨fun all k hk => ?_, fun all p hp => ?_⟩, kept, reads,
    fun returns => ?_⟩
  · obtain ⟨p, hp, rfl⟩ := h.placed k hk
    exact all p (List.mem_of_getElem? hp)
  · obtain ⟨q, e, hlt, -⟩ := h.mem_rules hp
    rw [Option.some.inj e]
    exact all _ hlt
  · have all : ∀ k < s'.rules.length, s'.Fetched k := by
      intro k hk
      obtain ⟨p, hp, rfl⟩ := kept.placed k hk
      rw [reads.rules] at hp
      exact fetched returns p (List.mem_of_getElem? hp)
    refine ⟨kept, le_antisymm kept.counters_le ?_, fun k hk => (all k hk).1, fun p k => ?_⟩
    · by_contra short
      obtain ⟨c, hc⟩ := (all s'.counters.length (by omega)).1
      rw [List.getElem?_eq_none le_rfl] at hc
      cases hc
    · rcases Nat.lt_or_ge k s'.rules.length with hk | hk
      · exact (all k hk).2 p
      · exact kept.slot_of_length_le hk p

end List

section Editing

variable {s : State} {id : ℕ} {rule : ChainRule}

theorem eraseRule_kept (h : s.Ready) (hid : id < s.rules.length) :
    ∃ s', s.eraseRule id = some s' ∧ s'.Kept ∧ s'.left = s.left ∧
      ∀ k, s'.rules[k]? = if k < id then s.rules[k]?
        else s.rules[k + 1]?.map (Option.map (Placed.setId k)) := by
  obtain ⟨rules, hrules, length, places⟩ := Shifting.erase_of_forall Placed.setId hid
    fun j _ hj => (h.placed j hj).imp fun _ => And.left
  obtain ⟨counters, hcounters, length', places'⟩ := Shifting.erase_of_forall ChainStats.setId
    (h.length.symm ▸ hid) fun j _ hj => h.full j (h.length ▸ hj)
  refine ⟨{ s with rules := rules, counters := counters }, ?_, ?_, rfl, places⟩
  · unfold State.eraseRule
    rw [if_neg, hrules, hcounters]
    · rfl
    · exact List.ne_nil_of_length_pos (by rw [h.length]; omega)
  constructor
  · constructor
    · intro k hk
      dsimp only at hk ⊢
      rw [places]
      by_cases below : k < id
      · rw [if_pos below]
        exact h.placed k (by omega)
      · obtain ⟨r, hr, -⟩ := h.placed (k + 1) (by omega)
        rw [if_neg below, hr]
        exact ⟨_, rfl, rfl⟩
    · intro k c hc
      dsimp only at hc
      rw [places'] at hc
      unfold State.tagAt
      rw [places]
      by_cases below : k < id
      · rw [if_pos below] at hc ⊢
        exact h.counter k c hc
      · rw [if_neg below] at hc ⊢
        obtain ⟨x, hx, hc⟩ := Option.map_eq_some_iff.1 hc
        obtain ⟨old, rfl, rfl⟩ := Option.map_eq_some_iff.1 hc
        have decided := (h.counter (k + 1) old hx).2
        refine ⟨rfl, fun d hd => ?_⟩
        rw [← decided d hd, State.tagAt]
        cases s.rules[k + 1]? with
        | none => rfl
        | some r => cases r <;> rfl
  · rw [length, length', h.length]
  · intro p k d hd
    rw [show s.slot p k = [] from h.empty p k] at hd
    cases hd
  · exact h.off
  · exact h.readable
  · exact h.unread

end Editing

section Between

variable {s : State}

theorem slot_load (s : State) (p q : Prog) (loaded : ℕ → Option ℕ) (k : ℕ) :
    (s.load p loaded).slot q k = if q = p then [] else s.slot q k := by
  unfold State.load
  by_cases hq : q = p
  · subst hq
    simp
  · simp [hq]

theorem slot_loadHorus (s : State) (on : Bool) (q : Prog) (k : ℕ) :
    (s.loadHorus on).slot q k = if q = .horus then [] else s.slot q k :=
  slot_load s .horus q (if on then s.ruleAt else fun _ => none) k

theorem slot_updateChain (s : State) (on misplaced : Bool) (q : Prog) (k : ℕ) :
    (s.updateChain (.all on misplaced)).2.slot q k = if q = .action then [] else (s.loadHorus on).slot q k :=
  slot_load (s.loadHorus on) .action q (s.loadHorus on).ruleAt k

theorem loadHorus_kept (h : s.Kept) (on : Bool) : (s.loadHorus on).Kept where
  placed := h.placed
  counter := h.counter
  counters_le := h.counters_le
  slot p k d hd := by
    rw [slot_loadHorus] at hd
    split at hd
    · cases hd
    · exact h.slot p k d hd
  off off k := by
    have off : on = false := off
    refine ⟨?_, (slot_loadHorus s on .horus k).trans (if_pos rfl)⟩
    show update s.loaded .horus _ .horus k = none
    rw [update_self, off]
    rfl
  readable := h.readable
  unread has p k := by
    rw [slot_loadHorus, h.unread has p k, ite_self]

theorem updateChain_kept (h : s.Kept) {loading : Loading}
    (free : loading.returns = true → s.left = false) : (s.updateChain loading).2.Kept := by
  cases loading with
  | nothing => exact h
  | horus on =>
    have h' := loadHorus_kept h on
    exact ⟨⟨h'.placed, h'.counter⟩, h'.counters_le, h'.slot, h'.off, h'.readable, h'.unread⟩
  | all on misplaced =>
    have h' := loadHorus_kept h on
    refine ⟨⟨h'.placed, h'.counter⟩, h'.counters_le, fun p k d hd => ?_, fun off k => ?_, ?_, nofun⟩
    · rw [slot_updateChain] at hd
      split at hd
      · cases hd
      · exact h'.slot p k d hd
    · refine ⟨(h'.off off k).1, ?_⟩
      rw [slot_updateChain, if_neg (by decide), (h'.off off k).2]
    · show (!(s.left && misplaced)) = true
      rw [free rfl]
      rfl

/-- An update that returns leaves nothing behind. -/
theorem left_updateChain {loading : Loading} (returns : (s.updateChain loading).1 = .returns) :
    (s.updateChain loading).2.left = s.left := by
  cases loading with
  | nothing => cases returns
  | horus on => cases returns
  | all on misplaced => rfl

theorem rules_updateChain (s : State) (loading : Loading) :
    (s.updateChain loading).2.rules = s.rules := by
  cases loading <;> rfl

end Between

/-! ### Operations -/

def State.contents (s : State) : List (Option (ℕ × ChainRule)) :=
  s.rules.map (Option.map Placed.content)

def State.newContent (s : State) (rule : ChainRule) : Option (ℕ × ChainRule) :=
  some (s.fresh, { rule with id := 0 })

def Op.expected (s : State) : Op → Option (List (Option (ℕ × ChainRule)))
  | .append rule _ _ => rule.map fun rule => s.contents ++ [s.newContent rule]
  | .insert id rule _ =>
    if id ≤ s.rules.length then rule.map fun rule => s.contents.insertIdx id (s.newContent rule)
    else none
  | .deletes rule _ => rule.bind fun c =>
    (s.rules.findIdx? fun r => r.any fun r => equal r.rule c).map s.contents.eraseIdx
  | .addRule id rule _ =>
    if id < s.rules.length then rule.map fun rule => s.contents.set id (s.newContent rule)
    else if id = s.rules.length then rule.map fun rule => s.contents ++ [s.newContent rule]
    else none
  | .delRule id _ => if id < s.rules.length then some (s.contents.eraseIdx id) else none
  | .resetCounters => some s.contents
  | .updateChain _ => some s.contents
  | .getStats id => if id < s.rules.length then some s.contents else none
  | .getStatsList => some s.contents

/-- An operation that is refused throws and changes nothing; one that is not leaves the list it is
expected to. -/
def Acted (s : State) (outcome : Outcome) (s' : State) :
    Option (List (Option (ℕ × ChainRule))) → Prop
  | none => outcome = .throws ∧ s' = s
  | some contents => s'.contents = contents

def Op.Acts (op : Op) (s : State) (outcome : Outcome) (s' : State) : Prop :=
  Acted s outcome s' (op.expected s)

def Op.loadings : Op → List Loading
  | .append _ loading again => [loading, again]
  | .insert _ _ loading | .deletes _ loading | .addRule _ _ loading | .delRule _ loading
  | .updateChain loading => [loading]
  | _ => []

def Op.edits : Op → Bool
  | .append _ _ _ | .insert _ _ _ | .deletes _ _ | .addRule _ _ _ | .delRule _ _ => true
  | _ => false

/-- A rule takes the place of another one only when nothing was counted for that one; and nobody asks
for the counters of the place after the last one. -/
def Op.Own (s : State) : Op → Prop
  | .addRule id rule _ => id < s.rules.length → rule.isSome = true → s.Blank id
  | .getStats id => id ≠ s.rules.length
  | _ => True

/-- What an operation must meet: an edit that is not refused finds a counter for every rule in the
maps, and an update returns only when no program of another one is in its slots. -/
structure Op.Ok (s : State) (op : Op) : Prop where
  own : op.Own s
  readable : op.edits = true → (op.expected s).isSome = true → s.Readable
  free : op.loadings.any Loading.returns = true → s.left = false

/-- What an event must meet.  A packet is decided by the rule that is still at its position, and
counted where the counters are read. -/
def Event.Ok (s : State) : Event → Prop
  | .call op => op.Ok s
  | .packet p k _ => ∀ owner ∈ s.loaded p k, s.tagAt k = some owner ∧ s.hasAction = true

section Operations

variable {s : State} {id : ℕ} {rule : ChainRule}

theorem contents_updateChain (s : State) (loading : Loading) :
    (s.updateChain loading).2.contents = s.contents := by
  unfold State.contents
  rw [rules_updateChain]

/-- An edit of a chain whose counters have all been asked for. -/
theorem edit_spec (h : s.Kept) (readable : s.Readable) (edit : State → Option State)
    {loading : Loading} (free : loading.returns = true → s.left = false)
    {contents : List (Option (ℕ × ChainRule))}
    (works : ∀ s₁, s₁.Ready → Reads s s₁ →
      ∃ s₂, edit s₁ = some s₂ ∧ s₂.Kept ∧ s₂.left = s₁.left ∧ s₂.contents = contents) :
    ∃ outcome s', s.getStatsList.andThen (fun s => (edit s).map fun s => s.updateChain loading) =
        some (outcome, s') ∧ s'.Kept ∧ (outcome = .returns → s'.left = s.left) ∧
      s'.contents = contents := by
  obtain ⟨outcome, s₁, e, read, kept, reads, ready⟩ := getStatsList_spec h
  obtain rfl := read.2 readable
  rw [e]
  obtain ⟨s₂, e₂, kept₂, left₂, contents₂⟩ := works s₁ (ready rfl) reads
  have left : s₂.left = s.left := left₂.trans reads.left
  refine ⟨(s₂.updateChain loading).1, (s₂.updateChain loading).2, ?_,
    updateChain_kept kept₂ fun returns => left.trans (free returns),
    fun returns => (left_updateChain returns).trans left,
    (contents_updateChain s₂ loading).trans contents₂⟩
  show (edit s₁).map _ = _
  rw [e₂]
  rfl

theorem Reads.contents {s' : State} (h : Reads s s') : s'.contents = s.contents := by
  unfold State.contents
  rw [h.rules]

end Operations

theorem init_kept : State.init.Kept where
  placed := nofun
  counter := nofun
  counters_le := le_rfl
  slot _ _ := nofun
  off _ _ := ⟨rfl, rfl⟩
  readable := rfl
  unread _ _ _ := rfl

instance (s : State) (k : ℕ) : Decidable (s.Blank k) :=
  decidable_of_iff ((∀ c ∈ s.counters[k]?.join, c.packets = []) ∧
      s.slot .action k = [] ∧ s.slot .horus k = []) <| by
    unfold State.Blank
    refine and_congr (forall_congr' fun c => imp_congr_left Shifting.getElem?_eq_some_some.symm) ?_
    exact ⟨fun h p => by cases p <;> simp [h.1, h.2], fun h => ⟨h _, h _⟩⟩

instance (s : State) (k : ℕ) : Decidable (s.ReadableAt k) := by
  unfold State.ReadableAt
  infer_instance

instance (s : State) : Decidable s.Readable := by
  unfold State.Readable
  infer_instance

instance (s : State) (op : Op) : Decidable (op.Own s) := by
  cases op <;> unfold Op.Own <;> infer_instance

instance (s : State) (op : Op) : Decidable (op.Ok s) :=
  decidable_of_iff (op.Own s ∧ (op.edits = true → (op.expected s).isSome = true → s.Readable) ∧
      (op.loadings.any Loading.returns = true → s.left = false))
    ⟨fun ⟨own, readable, free⟩ => ⟨own, readable, free⟩, fun ok => ⟨ok.own, ok.readable, ok.free⟩⟩

instance (s : State) (event : Event) : Decidable (event.Ok s) := by
  cases event <;> unfold Event.Ok <;> infer_instance

def someRule (action : ActionEnum) : ChainRule where
  id := 0
  ipSrc := none
  ipDst := none
  srcPort := none
  dstPort := some 80
  l4Proto := some .tcp
  tcpFlags := none
  conntrack := none
  action
  description := none

end Polycube.Firewall.Edits
