import Polycube.Pbforwarder.Reloads

/-!
# The current rules decide

A run of requests and packets, beside which the rules that are current are kept as they were asked
for.  As long as the steps meet `Fits`, every packet gets what the current rules say.
-/

namespace Polycube.Pbforwarder

open Function

open Lib

inductive Op
  | addRules (conf : RulesJsonObject) (loads : Loads)
  | updateRules (id : BitVec 32) (conf : RulesJsonObject) (loads : Loads)
  | setRules (id : BitVec 32) (s : Setter) (loads : Loads)
  | delRules (id : BitVec 32) (loads : Loads)
  | delRulesList (loads : Loads)
  | packet (cpu : ℕ) (inPort : BitVec 16) (f : Frame)

variable (ports : String → Option (BitVec 16))

def exec : Op → Work Unit
  | .addRules conf loads => addRules ports conf loads
  | .updateRules id conf loads => updateRules ports id conf loads
  | .setRules id s loads => setRules ports id s loads
  | .delRules id loads => delRules id loads
  | .delRulesList loads => delRulesList loads
  | .packet cpu inPort f =>
    modify fun s => { s with packet := update s.packet cpu (s.handle cpu inPort f).2 }

def current (rules : BitVec 32 → Option Rule) (s : State) (returned : Bool) :
    Op → BitVec 32 → Option Rule
  | .addRules conf _ =>
    if returned = true ∧ (s.rules_ conf.id).isSome
    then update rules conf.id (some (Rule.empty.setAll conf.setters)) else rules
  | .updateRules id conf _ =>
    if returned = true
    then update rules id ((rules id).map fun r => r.setAll conf.setters) else rules
  | .setRules id t _ =>
    if returned = true then update rules id ((rules id).map fun r => r.set t) else rules
  | .delRules id _ => update rules id none
  | .delRulesList _ => fun _ => none
  | .packet _ _ _ => rules

structure Forwarder where
  state : State
  rules : BitVec 32 → Option Rule

def Forwarder.start : Forwarder := ⟨State.start, fun _ => none⟩

def step (w : Forwarder) (op : Op) : Forwarder :=
  match (exec ports op).run w.state with
  | .ok _ s => ⟨s, current w.rules s true op⟩
  | .error _ s => ⟨s, current w.rules s false op⟩

def Right (w : Forwarder) : Op → Prop
  | .packet cpu inPort f => Decides ports w.rules f inPort (w.state.handle cpu inPort f).1
  | _ => True

def Loads.All (loads : Loads) : Prop :=
  loads.set = true ∧ loads.matching = true ∧ loads.parsing = true

structure FitsAdd (s : State) (conf : RulesJsonObject) (loads : Loads) : Prop where
  new : s.rules_ conf.id = none
  last : conf.id = BitVec.allOnes 32 → loads.matching = false
  valid : loads.matching = true → loads.parsing = true →
    (∀ t ∈ conf.setters, t.Valid) ∧ (Rule.empty.setAll conf.setters).Resolves ports

structure FitsUpdate (r : Rule) (conf : RulesJsonObject) (loads : Loads) : Prop where
  accepts : r.accepts conf.setters = true
  valid : ∀ t ∈ conf.setters, t.Valid
  resolves : (r.setAll conf.setters).Resolves ports
  loads : loads.All

/-- A setter that does not throw gets a port that is its own swap.  It changes nothing in an object
in which an update is going on, and goes through in others. -/
structure FitsSet (r : Rule) (o : Rules) (t : Setter) (loads : Loads) : Prop where
  swapped : t.htons = t
  valid : t.Valid
  unchanged : o.updating = true → r.set t = r
  resolves : o.updating = false → (r.set t).Resolves ports
  loads : o.updating = false → loads.All

def Fits (w : Forwarder) : Op → Prop
  | .addRules conf loads => conf.complete = true → conf.object.2 = true →
    Written ports w.state loads conf.object.1 → FitsAdd ports w.state conf loads
  | .updateRules id conf loads => ∀ r, w.rules id = some r → FitsUpdate ports r conf loads
  | .setRules id t loads => ∀ r, w.rules id = some r → ∀ o, w.state.rules_ id = some o →
    (!t.IsPort || r.l4Proto.isSome) = true → FitsSet ports r o t loads
  | .packet cpu inPort f =>
    Clear ports w.rules f inPort w.state.parser (w.state.packet cpu)
  | _ => True

def Agrees (s : State) (id : BitVec 32) : Option Rule → Prop
  | none => s.rules_ id = none ∧ Silent s id
  | some r => ∃ o, s.rules_ id = some o ∧ o.id = id ∧ Means r o ∧ Runs ports s id r

structure Inv (rules : BitVec 32 → Option Rule) (s : State) : Prop where
  sound : Sound s
  agrees : ∀ id, Agrees ports s id (rules id)

variable {ports} {rules : BitVec 32 → Option Rule} {s s' : State} {id : BitVec 32}

theorem inv_start : Inv ports Forwarder.start.rules Forwarder.start.state where
  sound := by
    refine ⟨le_rfl, by decide, by decide, fun n l t program => ?_, by decide⟩
    obtain ⟨-, rfl, -⟩ := Program.matching.inj program
    decide
  agrees id := by
    refine ⟨rfl, fun table htable => ?_⟩
    obtain rfl := Option.some.inj htable
    rfl

theorem Agrees.leaves {x : Option Rule} (h : Agrees ports s id x) (leaves : Leaves ports s s' id)
    (same : s'.rules_ id = s.rules_ id) : Agrees ports s' id x := by
  cases x with
  | none => exact ⟨same.trans h.1, leaves.silent h.2⟩
  | some r =>
    obtain ⟨o, ho, hid, means, runs⟩ := h
    exact ⟨o, same.trans ho, hid, means, leaves.runs r runs⟩

theorem Inv.update (inv : Inv ports rules s) (sound : Sound s')
    (leaves : ∀ id', id' ≠ id → Leaves ports s s' id')
    (same : ∀ id', id' ≠ id → s'.rules_ id' = s.rules_ id') {x : Option Rule}
    (own : Agrees ports s' id x) : Inv ports (update rules id x) s' where
  sound := sound
  agrees id' := by
    by_cases other : id' = id
    · subst other
      rw [update_self]
      exact own
    · rw [update_of_ne other]
      exact (inv.agrees id').leaves (leaves id' other) (same id' other)

theorem Inv.leaves (inv : Inv ports rules s) (sound : Sound s')
    (leaves : ∀ id, Leaves ports s s' id) (same : s'.rules_ = s.rules_) : Inv ports rules s' where
  sound := sound
  agrees id := (inv.agrees id).leaves (leaves id) (congrFun same id)

/-- The programs look neither at the objects nor at the memory of other packets. -/
theorem leaves_same (s : State) (objects : BitVec 32 → Option Rules) (packet : ℕ → PacketHeaders)
    (id : BitVec 32) : Leaves ports s { s with rules_ := objects, packet := packet } id where
  runs := by
    rintro r ⟨n, l, t, e, x⟩
    exact ⟨n, l, t, e, x.program, x.entry, x.shows, x.numbered, x.matched, x.parsed, x.next,
      x.counted⟩
  silent h := h

theorem Sound.same (h : Sound s) (objects : BitVec 32 → Option Rules)
    (packet : ℕ → PacketHeaders) : Sound { s with rules_ := objects, packet := packet } :=
  ⟨h.low, h.high, h.parser, h.program, h.count⟩

theorem Leaves.trans {s'' : State} (h : Leaves ports s s' id) (h' : Leaves ports s' s'' id) :
    Leaves ports s s'' id where
  runs r runs := h'.runs r (h.runs r runs)
  silent silent := h'.silent (h.silent silent)

theorem Inv.none_iff (inv : Inv ports rules s) (id : BitVec 32) :
    rules id = none ↔ s.rules_ id = none := by
  have agrees := inv.agrees id
  cases h : rules id with
  | none =>
    rw [h] at agrees
    simp [agrees.1]
  | some r =>
    rw [h] at agrees
    obtain ⟨o, ho, -⟩ := agrees
    simp [ho]

/-! ### Steps -/

variable {r : Rule} {o : Rules} {conf : RulesJsonObject} {loads : Loads}

theorem Means.withUpdating (h : Means r o) (updating : Bool) :
    Means r { o with updating := updating } :=
  ⟨h.srcMac, h.dstMac, h.vlan, h.srcIp, h.dstIp, h.l4Proto, h.srcPort, h.dstPort, h.inPort,
    h.action, h.outPort, h.vlanShort, h.ports, h.readable⟩

/-- The programs run a rule whose object means it and gets through. -/
theorem Done.runsRule {r : Rule} (done : Done ports s s' o) (sound : Sound s) (means : Means r o)
    (resolves : r.Resolves ports) : Runs ports s' o.id r := by
  obtain ⟨e, he, -, shows⟩ := means.toRule resolves
  exact done.runs r e he shows (means.level_le sound.low)

theorem inv_addRules (inv : Inv ports rules s)
    (fits : Fits ports ⟨s, rules⟩ (.addRules conf loads)) :
    wp (addRules ports conf loads)
      (fun _ s' => Inv ports (current rules s' true (.addRules conf loads)) s')
      (fun _ s' => Inv ports (current rules s' false (.addRules conf loads)) s') s := by
  obtain ⟨id, -⟩ := Rules.assign_id { Rules.create conf.id with updating := true }
    (conf.setters.map Setter.htons)
  have id : conf.object.1.id = conf.id := id
  have refused : ∀ s', current rules s' false (.addRules conf loads) = rules := by
    intro s'
    unfold current
    exact if_neg fun h => Bool.false_ne_true h.1
  have missing : ∀ s', s'.rules_ = s.rules_ → s.rules_ conf.id = none →
      current rules s' true (.addRules conf loads) = rules := by
    intro s' same new
    unfold current
    refine if_neg fun h => ?_
    rw [same, new] at h
    cases h.2
  unfold addRules
  by_cases complete : conf.complete = true
  swap
  · rw [if_neg complete, wp_throw, refused]
    exact inv
  by_cases assigned : conf.object.2 = true
  swap
  · rw [if_pos complete, if_neg assigned, wp_throw, refused]
    exact inv
  rw [if_pos complete, if_pos assigned]
  have fits := fits complete assigned
  have undone : Written ports s loads conf.object.1 → ∀ {s'},
      Undone ports s s' conf.object.1.id → Inv ports rules s' := by
    intro written s' undone
    have new := (fits written).new
    have absent := (inv.none_iff conf.id).2 new
    rw [id] at undone
    have inv' := inv.update (x := none) undone.sound undone.leaves
      (fun id' _ => congrFun undone.same id')
      ⟨(congrFun undone.same conf.id).trans new, undone.silent⟩
    rwa [← absent, update_eq_self] at inv'
  refine wp_mono (updateRuleMapAndReload_spec inv.sound fun written last =>
    (fits written).last (id ▸ last)) ?_ ?_
  · rintro _ s' ⟨written, ⟨loaded, done⟩ | ⟨-, failed⟩⟩
    · obtain ⟨new, -, valid⟩ := fits written
      obtain ⟨valid, resolves⟩ := valid loaded.matching loaded.parsing
      have means : Means (Rule.empty.setAll conf.setters) conf.object.1 :=
        ((means_create conf.id).withUpdating true).assign valid (Prod.ext rfl assigned)
      have kept := done.kept
      have runs := done.runsRule inv.sound means resolves
      have leaves := done.leaves
      rw [id] at kept runs leaves
      rw [if_pos new] at kept
      have own : s'.rules_ conf.id = some conf.object.1 := by
        rw [kept, update_self]
      have now : current rules s' true (.addRules conf loads) =
          update rules conf.id (some (Rule.empty.setAll conf.setters)) := by
        unfold current
        exact if_pos ⟨rfl, by rw [own]; rfl⟩
      rw [now]
      refine inv.update done.sound leaves (fun id' other => ?_) ⟨_, own, id, means, runs⟩
      rw [kept, update_of_ne other]
    · rw [missing s' failed.same (fits written).new]
      exact undone written failed
  · rintro _ s' (⟨written, -, failed⟩ | ⟨-, sound, same, leaves⟩)
    · rw [refused]
      exact undone written failed
    · rw [refused]
      exact inv.leaves sound leaves same

theorem inv_updated {r' : Rule} {kept : Rules} (inv : Inv ports rules s) (hr : rules id = some r)
    (hid : o.id = id) (keptId : kept.id = id) (means : Means r' o) (keptMeans : Means r' kept)
    (resolves : r'.Resolves ports) (all : loads.All) {err : Unit → State → Prop} :
    wp (updateRuleMapAndReload ports loads o)
      (fun _ s' => Inv ports (update rules id (some r')) s') err
      { s with rules_ := update s.rules_ id (some kept) } := by
  have agrees := inv.agrees id
  rw [hr] at agrees
  obtain ⟨-, -, -, -, ⟨n, l, table, e, x⟩⟩ := agrees
  have counted := BitVec.lt_def.1 x.counted
  have sound := inv.sound.same (update s.rules_ id (some kept)) s.packet
  obtain ⟨e', he', -⟩ := means.toRule resolves
  have written : Written ports { s with rules_ := update s.rules_ id (some kept) } loads
      o := ⟨by rw [x.program]; rfl, by rw [he']; rfl, all.1⟩
  have loaded : Loaded { s with rules_ := update s.rules_ id (some kept) } loads o := by
    refine ⟨all.2.1, all.2.2, ?_⟩
    show 0 ≤ (nrRulesWith s.nrRules o.id).toInt
    unfold nrRulesWith
    rw [hid, if_neg fun le => absurd (BitVec.le_def.1 le) (by omega)]
    exact inv.sound.count
  refine wp_mono (updateRuleMapAndReload_spec sound fun _ last => ?_) ?_ ?_
  · have : id.toNat = 2 ^ 32 - 1 := by rw [← hid, last]; rfl
    have := s.nrRules.isLt
    omega
  · rintro _ s' ⟨-, ⟨-, done⟩ | ⟨failed, -⟩⟩
    · have kept' := done.kept
      have runs := done.runsRule sound means resolves
      have leaves := done.leaves
      rw [hid] at kept' runs leaves
      have present : update s.rules_ id (some kept) id ≠ none := by
        rw [update_self]
        exact Option.some_ne_none kept
      rw [if_neg present] at kept'
      refine inv.update done.sound (fun id' other =>
        (leaves_same s _ s.packet id').trans (leaves id' other))
        (fun id' other => ?_) ⟨kept, ?_, keptId, keptMeans, runs⟩
      · rw [kept']
        exact update_of_ne other _ _
      · rw [kept']
        exact update_self _ _ _
    · exact absurd loaded failed
  · rintro _ s' (⟨-, failed, -⟩ | ⟨failed, -⟩)
    · exact absurd loaded failed
    · exact absurd written failed

theorem inv_updateRules (inv : Inv ports rules s)
    (fits : Fits ports ⟨s, rules⟩ (.updateRules id conf loads)) :
    wp (updateRules ports id conf loads)
      (fun _ s' => Inv ports (current rules s' true (.updateRules id conf loads)) s')
      (fun _ s' => Inv ports (current rules s' false (.updateRules id conf loads)) s') s := by
  unfold updateRules
  simp only [wp_bind, wp_get]
  have agrees := inv.agrees id
  cases hr : rules id with
  | none =>
    rw [hr] at agrees
    rw [agrees.1]
    exact inv
  | some r =>
    rw [hr] at agrees
    obtain ⟨o, ho, hid, means, -⟩ := agrees
    obtain ⟨accepts, valid, resolves, all⟩ := fits r hr
    have means := means.withUpdating true
    have assigned := means.assign_accepts valid accepts
    have done := means.assign valid (Prod.ext rfl assigned)
    have doneId := (Rules.assign_id { o with updating := true } (conf.setters.map Setter.htons)).1
    rw [ho]
    dsimp only
    unfold Rules.updated
    generalize Rules.assign { o with updating := true } (conf.setters.map Setter.htons) = d
      at assigned done doneId ⊢
    have now : ∀ s', current rules s' true (.updateRules id conf loads) =
        update rules id (some (r.setAll conf.setters)) := by
      intro s'
      show update rules id ((rules id).map fun r => r.setAll conf.setters) = _
      rw [hr]
      rfl
    simp only [wp_bind, writeRule, wp_modify, now]
    rw [if_pos assigned]
    refine inv_updated inv hr (doneId.trans hid) ?_ done ?_ resolves all
    · exact doneId.trans hid
    · exact done.withUpdating false

theorem Setter.run_htons_isSome (t : Setter) (o : Rules) :
    (t.htons.run o).isSome = (t.run o).isSome := by
  cases t with
  | srcPort value =>
    unfold Setter.htons Setter.run
    split_ifs <;> rfl
  | dstPort value =>
    unfold Setter.htons Setter.run
    split_ifs <;> rfl
  | _ => rfl

theorem inv_setRules {t : Setter} (inv : Inv ports rules s)
    (fits : Fits ports ⟨s, rules⟩ (.setRules id t loads)) :
    wp (setRules ports id t loads)
      (fun _ s' => Inv ports (current rules s' true (.setRules id t loads)) s')
      (fun _ s' => Inv ports (current rules s' false (.setRules id t loads)) s') s := by
  unfold setRules
  simp only [wp_bind, wp_get]
  have agrees := inv.agrees id
  cases hr : rules id with
  | none =>
    rw [hr] at agrees
    rw [agrees.1]
    exact inv
  | some r =>
    rw [hr] at agrees
    obtain ⟨o, ho, hid, means, runs⟩ := agrees
    have some? := (means.run_isSome t).symm.trans (t.run_htons_isSome o)
    rw [ho]
    dsimp only
    cases run : t.run o with
    | none => exact inv
    | some o' =>
      rw [run] at some?
      obtain ⟨swapped, valid, unchanged, resolves, all⟩ := fits r hr o ho some?
      have set := means.set valid (swapped.symm ▸ run)
      obtain ⟨sameId, sameUpdating⟩ := Setter.run_id run
      have now : ∀ s', current rules s' true (.setRules id t loads) =
          update rules id (some (r.set t)) := by
        intro s'
        show update rules id ((rules id).map fun r => r.set t) = _
        rw [hr]
        rfl
      simp only [wp_bind, writeRule, wp_modify, now]
      by_cases updating : o'.updating = true
      · rw [if_pos updating, wp_pure]
        rw [unchanged (sameUpdating ▸ updating)] at set ⊢
        refine inv.update (inv.sound.same _ s.packet) (fun id' _ => leaves_same s _ s.packet id')
          (fun id' other => update_of_ne other (some o') s.rules_) ?_
        exact ⟨o', update_self _ _ _, sameId.trans hid, set,
          (leaves_same s _ s.packet id).runs r runs⟩
      · rw [if_neg updating]
        rw [sameUpdating, Bool.not_eq_true] at updating
        exact inv_updated inv hr (sameId.trans hid) (sameId.trans hid) set set (resolves updating)
          (all updating)

theorem inv_delRules (inv : Inv ports rules s) :
    wp (delRules id loads)
      (fun _ s' => Inv ports (current rules s' true (.delRules id loads)) s')
      (fun _ s' => Inv ports (current rules s' false (.delRules id loads)) s') s := by
  show wp _ (fun _ s' => Inv ports (update rules id none) s')
    (fun _ s' => Inv ports (update rules id none) s') s
  unfold delRules
  simp only [wp_bind, wp_modify]
  have agrees := inv.agrees id
  -- without an entry, nothing but the object goes
  have erased : Silent s id → Inv ports (update rules id none)
      { s with rules_ := update s.rules_ id none } := fun silent =>
    inv.update (inv.sound.same _ s.packet) (fun id' _ => leaves_same s _ s.packet id')
      (fun id' other => update_of_ne other none s.rules_)
      ⟨update_self _ _ _, silent⟩
  obtain ⟨l, program⟩ | ⟨n, level, table, program⟩ := s.program.shape
  · have silent : Silent s id := fun table htable => by rw [program] at htable; cases htable
    unfold removeRule
    simp only [wp_bind, wp_get, program, Program.table, wp_throw]
    exact program ▸ erased silent
  · rw [wp_removeRule (s := { s with rules_ := update s.rules_ id none }) program]
    cases hr : rules id with
    | none =>
      rw [hr] at agrees
      rw [if_pos (agrees.2 table (congrArg Program.table program))]
      exact erased agrees.2
    | some r =>
      rw [hr] at agrees
      obtain ⟨o, ho, hid, means, ⟨n', level', table', e, x⟩⟩ := agrees
      obtain ⟨rfl, rfl, rfl⟩ := Program.matching.inj (program.symm.trans x.program)
      have counted := BitVec.lt_def.1 x.counted
      rw [if_neg fun none => by rw [x.entry] at none; cases none]
      simp only [wp_get, wp_bind, wp_ite, wp_pure]
      rw [if_neg fun same => absurd (congrArg BitVec.toNat same) (by omega)]
      have follows : Follows s n level table id
          { s with
            rules_ := update s.rules_ id none
            program := .matching n level (update table id none) } n level
          (update table id none) :=
        ⟨rfl, fun id' other => update_of_ne other _ _, .inl le_rfl, .inl le_rfl,
          inv.sound.program _ _ _ program, .inl le_rfl, inv.sound.parser⟩
      refine inv.update (follows.sound inv.sound.low inv.sound.high inv.sound.count)
        (fun id' other => follows.leaves program le_rfl le_rfl other)
        (fun id' other => update_of_ne other _ _)
        ⟨update_self _ _ _, fun t ht => ?_⟩
      obtain rfl := Option.some.inj ht
      exact update_self _ _ _

theorem inv_delRulesList (inv : Inv ports rules s) :
    wp (delRulesList loads)
      (fun _ s' => Inv ports (current rules s' true (.delRulesList loads)) s')
      (fun _ s' => Inv ports (current rules s' false (.delRulesList loads)) s') s := by
  show wp _ (fun _ s' => Inv ports (fun _ => none) s') (fun _ s' => Inv ports (fun _ => none) s') s
  have empty : ∀ {s'}, Sound s' → s'.rules_ = (fun _ => none) →
      (∀ table, s'.program.table = some table → table = fun _ => none) →
      Inv ports (fun _ => none) s' := by
    intro s' sound objects none
    refine ⟨sound, fun id => ⟨congrFun objects id, fun table htable => ?_⟩⟩
    rw [none table htable]
  unfold delRulesList
  simp only [wp_bind, wp_modify, wp_get]
  obtain ⟨l, program⟩ | ⟨n, level, table, program⟩ := s.program.shape
  · rw [program]
    refine empty ⟨inv.sound.low, inv.sound.high, inv.sound.parser, ?_, inv.sound.count⟩ rfl
      fun table htable => ?_
    · intro n' l' t' program'
      cases program'
    · cases htable
  · have high := inv.sound.program _ _ _ program
    have two : 2 ≤ 4 := by decide
    have zero : 0 ≤ (0 : BitVec 32).toInt := by decide
    rw [program]
    simp only [Program.table, Program.setTable, wp_bind, wp_modify, wp_reloadParsingSecond,
      wp_reloadMatching]
    split_ifs with parsing matching
    · refine empty ⟨le_rfl, two, inv.sound.parser, ?_, zero⟩ rfl fun table htable => ?_
      · intro n' l' t' program'
        obtain ⟨-, rfl, -⟩ := Program.matching.inj program'
        decide
      · exact (Option.some.inj htable).symm
    · refine empty ⟨le_rfl, two, inv.sound.parser, ?_, zero⟩ rfl fun table htable => ?_
      · intro n' l' t' program'
        cases program'
      · cases htable
    · refine empty ⟨le_rfl, two, inv.sound.parser, ?_, zero⟩ rfl fun table htable => ?_
      · intro n' l' t' program'
        obtain ⟨-, rfl, -⟩ := Program.matching.inj program'
        exact high
      · exact (Option.some.inj htable).symm

theorem inv_step {w : Forwarder} {op : Op} (inv : Inv ports w.rules w.state)
    (fits : Fits ports w op) : Inv ports (step ports w op).rules (step ports w op).state := by
  have done : wp (exec ports op) (fun _ s' => Inv ports (current w.rules s' true op) s')
      (fun _ s' => Inv ports (current w.rules s' false op) s') w.state := by
    cases op with
    | addRules conf loads => exact inv_addRules inv fits
    | updateRules id conf loads => exact inv_updateRules inv fits
    | setRules id t loads => exact inv_setRules inv fits
    | delRules id loads => exact inv_delRules inv
    | delRulesList loads => exact inv_delRulesList inv
    | packet cpu inPort f =>
      exact inv.leaves (inv.sound.same w.state.rules_ _)
        (fun id => leaves_same w.state w.state.rules_ _ id) rfl
  unfold wp at done
  unfold step
  cases hrun : (exec ports op).run w.state with
  | ok u s' =>
    rw [hrun] at done
    exact done
  | error u s' =>
    rw [hrun] at done
    exact done

/-- A packet that is not mistaken gets what the current rules say. -/
theorem right_of_inv {w : Forwarder} {op : Op} (inv : Inv ports w.rules w.state)
    (fits : Fits ports w op) : Right ports w op := by
  cases op with
  | packet cpu inPort f =>
    show Decides ports w.rules f inPort (w.state.handle cpu inPort f).1
    obtain ⟨cut, tagged, stale⟩ := fits
    unfold State.handle
    split_ifs with whole
    swap
    · exact decides_drop (cut (cut_of_parse (Bool.eq_false_iff.2 whole)))
    unfold Program.handle
    cases program : w.state.program with
    | parsing level =>
      refine .inr ⟨rfl, fun id r hr => ?_⟩
      have agrees := inv.agrees id
      rw [hr] at agrees
      obtain ⟨-, -, -, -, ⟨n, l, t, e, x⟩⟩ := agrees
      cases program.symm.trans x.program
    | matching n level table =>
      refine decides_matching (fun id r hr => ?_) fun id none => ?_
      · have agrees := inv.agrees id
        rw [hr] at agrees
        obtain ⟨-, -, -, -, ⟨n', l, t, e, x⟩⟩ := agrees
        obtain ⟨rfl, rfl, rfl⟩ := Program.matching.inj (program.symm.trans x.program)
        exact ⟨x.numbered, e, x.entry, x.shows, matches_iff x.shows x.parsed inv.sound.parser
          x.matched (inv.sound.program _ _ _ program) whole (fun some => tagged some id r hr)
          fun seen proto hproto => stale seen id r proto hr hproto⟩
      · have agrees := inv.agrees id
        rw [none] at agrees
        exact agrees.2 table (congrArg Program.table program)
  | _ => trivial

/-- In a run from an empty forwarder whose steps all meet the condition, every packet gets the
action of the current rule of the lowest number that matches it, or is dropped. -/
theorem right_of_run (ports : String → Option (BitVec 16)) (ops : List Op)
    (meets : Meets (step ports) (Fits ports) Forwarder.start ops) :
    Meets (step ports) (Right ports) Forwarder.start ops :=
  meets.imp (P := fun w => Inv ports w.rules w.state) (fun _ _ => inv_step)
    (fun _ _ => right_of_inv) inv_start

/-! ### Runs -/

section Decidable

variable (ports : String → Option (BitVec 16))

local instance forallSome {α : Type} (x : Option α) (p : α → Prop) [DecidablePred p] :
    Decidable (∀ a, x = some a → p a) :=
  inferInstanceAs (Decidable (∀ a ∈ x, p a))

instance (r : Rule) : Decidable (r.Resolves ports) :=
  inferInstanceAs (Decidable ((∀ name ∈ r.inPort, (ports name).isSome) ∧
    (r.action = .forward → ∃ name ∈ r.outPort, (ports name).isSome)))

instance (loads : Loads) : Decidable loads.All :=
  inferInstanceAs (Decidable (loads.set = true ∧ loads.matching = true ∧ loads.parsing = true))

instance (s : State) (conf : RulesJsonObject) (loads : Loads) :
    Decidable (FitsAdd ports s conf loads) :=
  decidable_of_iff (s.rules_ conf.id = none ∧
      (conf.id = BitVec.allOnes 32 → loads.matching = false) ∧
      (loads.matching = true → loads.parsing = true →
        (∀ t ∈ conf.setters, t.Valid) ∧ (Rule.empty.setAll conf.setters).Resolves ports))
    ⟨fun h => ⟨h.1, h.2.1, h.2.2⟩, fun h => ⟨h.new, h.last, h.valid⟩⟩

instance (s : State) (loads : Loads) (o : Rules) : Decidable (Written ports s loads o) :=
  decidable_of_iff (s.program.table.isSome ∧ (o.toRule ports).isSome ∧ loads.set = true)
    ⟨fun h => ⟨h.1, h.2.1, h.2.2⟩, fun h => ⟨h.map, h.readable, h.set⟩⟩

instance (r : Rule) (conf : RulesJsonObject) (loads : Loads) :
    Decidable (FitsUpdate ports r conf loads) :=
  decidable_of_iff (r.accepts conf.setters = true ∧ (∀ t ∈ conf.setters, t.Valid) ∧
      (r.setAll conf.setters).Resolves ports ∧ loads.All)
    ⟨fun h => ⟨h.1, h.2.1, h.2.2.1, h.2.2.2⟩, fun h => ⟨h.accepts, h.valid, h.resolves, h.loads⟩⟩

instance (r : Rule) (o : Rules) (t : Setter) (loads : Loads) :
    Decidable (FitsSet ports r o t loads) :=
  decidable_of_iff (t.htons = t ∧ t.Valid ∧ (o.updating = true → r.set t = r) ∧
      (o.updating = false → (r.set t).Resolves ports) ∧ (o.updating = false → loads.All))
    ⟨fun h => ⟨h.1, h.2.1, h.2.2.1, h.2.2.2.1, h.2.2.2.2⟩,
      fun h => ⟨h.swapped, h.valid, h.unchanged, h.resolves, h.loads⟩⟩

variable (w : Forwarder) (id : BitVec 32) (conf : RulesJsonObject) (t : Setter) (loads : Loads)

instance : Decidable (Fits ports w (.addRules conf loads)) :=
  inferInstanceAs (Decidable (conf.complete = true → conf.object.2 = true →
    Written ports w.state loads conf.object.1 → FitsAdd ports w.state conf loads))

instance : Decidable (Fits ports w (.updateRules id conf loads)) :=
  inferInstanceAs (Decidable (∀ r, w.rules id = some r → FitsUpdate ports r conf loads))

instance : Decidable (Fits ports w (.setRules id t loads)) :=
  inferInstanceAs (Decidable (∀ r, w.rules id = some r → ∀ o, w.state.rules_ id = some o →
    (!t.IsPort || r.l4Proto.isSome) = true → FitsSet ports r o t loads))

end Decidable

def twoPorts (name : String) : Option (BitVec 16) :=
  if name = "in" then some 1 else if name = "out" then some 2 else none

def allLoads : Loads := ⟨true, true, true, true, true⟩

def tcpTo (port : BitVec 16) : RulesJsonObject :=
  ⟨0, none, none, none, none, none, some .tcp, none, some port, none, some .slowpath, none⟩

def inToOut : RulesJsonObject :=
  ⟨1, none, none, none, none, none, none, none, none, some "in", some .forward, some "out"⟩

def segmentTo (port : BitVec 16) : Frame :=
  ⟨1, 2, none, .ip 0x0100000a 0x0200000a (.segment .tcp (some (1000, port)))⟩

def arp : Frame := ⟨1, 2, none, .other⟩

/-- Rules are added, updated, set and deleted between packets. -/
theorem right_someOps :
    Meets (step twoPorts) (Right twoPorts) Forwarder.start
      [.addRules (tcpTo 80) allLoads, .addRules inToOut allLoads, .packet 0 1 (segmentTo 80),
        .updateRules 0 (tcpTo 443) allLoads, .setRules 0 (.vlan 5) allLoads,
        .packet 0 1 (segmentTo 443), .packet 1 1 arp, .delRules 1 allLoads,
        .packet 1 1 arp, .delRulesList allLoads] := by
  have other : ∀ p : RulesL4ProtoEnum, (0 : BitVec 8) ≠ p.number.setWidth 8 := by
    rintro (_ | _) <;> decide
  refine right_of_run _ _ ⟨by decide +kernel, by decide +kernel, ?_, by decide +kernel,
    by decide +kernel, ?_, ?_, trivial, ?_, trivial, trivial⟩
  · refine ⟨fun h => h.2.elim, fun h => (by cases h), ?_⟩
    rintro (h | h) <;> cases h
  · refine ⟨fun h => h.2.elim, fun h => (by cases h), ?_⟩
    rintro (h | h) <;> cases h
  · refine ⟨fun h => h.2.elim, fun h => (by cases h), ?_⟩
    exact fun _ _ _ p _ _ same => absurd (Eq.trans (by decide +kernel) same) (other p)
  · refine ⟨fun h => h.2.elim, fun h => (by cases h), ?_⟩
    exact fun _ _ _ p _ _ same => absurd (Eq.trans (by decide +kernel) same) (other p)

/-- An ARP frame after a TCP segment on the same CPU goes to the controller, where no rule matches
it: the protocol is the one of the segment. -/
theorem not_right_arp :
    ¬ Meets (step twoPorts) (Right twoPorts) Forwarder.start
      [.addRules (tcpTo 80) allLoads, .packet 0 1 (segmentTo 80), .packet 0 1 arp] := by
  rintro ⟨-, -, right, -⟩
  have seen : ((step twoPorts (step twoPorts Forwarder.start (.addRules (tcpTo 80) allLoads))
      (.packet 0 1 (segmentTo 80))).state.handle 0 1 arp).1 = .slowpath := by
    decide +kernel
  have rules : ∀ id r, (step twoPorts (step twoPorts Forwarder.start
      (.addRules (tcpTo 80) allLoads)) (.packet 0 1 (segmentTo 80))).rules id = some r →
      r.l4Proto = some .tcp := by
    intro id r hr
    have only : (step twoPorts (step twoPorts Forwarder.start
        (.addRules (tcpTo 80) allLoads)) (.packet 0 1 (segmentTo 80))).rules =
        update (fun _ => none) 0 (some (Rule.empty.setAll (tcpTo 80).setters)) := rfl
    rw [only] at hr
    by_cases first : id = 0
    · subst first
      rw [update_self] at hr
      obtain rfl := Option.some.inj hr
      rfl
    · rw [update_of_ne first] at hr
      cases hr
  rcases right with ⟨id, r, hr, m, -⟩ | ⟨drop, -⟩
  · cases m.l4Proto .tcp (rules id r hr)
  · rw [seen] at drop
    cases drop

end Polycube.Pbforwarder
