import Polycube.Lib.Insertion
import Polycube.Lib.Run
import Polycube.Policies.Reactions

/-!
# The order of the policies of a firewall manager

Policies are enforced and ceased, and rules are stored and deleted when pods of their peers change.
The list of priorities has each enforced policy once: the parent with the smaller priority first,
then the one deployed later, then the smaller priority of its own.  From it comes where the rules of
a policy start in a chain.
-/

namespace Polycube.Policies

open Function

open Lib K8s

/-- `policyPriority` -/
structure PolicyPriority where
  policyName : String
  parentPriority : Int32
  priority : Int32
  timestamp : ℤ
  deriving DecidableEq

structure Enforcer where
  firewall : Firewall
  policyDirections : Table String PolicyDirection
  priorities : List PolicyPriority

def Enforcer.start : Enforcer := ⟨⟨[], fun _ _ => [], fun _ => none⟩, fun _ => none, []⟩

/-- `calculatePolicyOffset` -/
def calculatePolicyOffset (policy : ParsedPolicy) : List PolicyPriority → ℕ
  | [] => 0
  | currentPolicy :: base =>
    if policy.parentPolicy.priority < currentPolicy.parentPriority then 0
    else if policy.parentPolicy.priority = currentPolicy.parentPriority ∧
        currentPolicy.timestamp < policy.creationTime then 0
    else if policy.parentPolicy.priority = currentPolicy.parentPriority ∧
        policy.creationTime = currentPolicy.timestamp ∧
        policy.priority < currentPolicy.priority then 0
    else calculatePolicyOffset policy base + 1

def priorityOf (policy : ParsedPolicy) : PolicyPriority where
  policyName := policy.name
  parentPriority := policy.parentPolicy.priority
  priority := policy.priority
  timestamp := policy.creationTime

/-- `insertPriority` -/
def insertPriority (policy : ParsedPolicy) (offset : ℕ) (priorities : List PolicyPriority) :
    List PolicyPriority := priorities.insertIdx offset (priorityOf policy)

/-- `popPriority`: the last one with the name, if there is any. -/
def popPriority (policyName : String) (priorities : List PolicyPriority) : List PolicyPriority :=
  (priorities.reverse.eraseP fun p => p.policyName = policyName).reverse

/-- The loop of `calculateInsertionIDs`. -/
def skipRules (fw : Firewall) (policyName : String) : List PolicyPriority → ℕ × ℕ
  | [] => (0, 0)
  | currentPolicy :: priorities =>
    if currentPolicy.policyName = policyName then (0, 0)
    else
      ((fw.rules .ingress currentPolicy.policyName).length +
          (skipRules fw policyName priorities).1,
        (fw.rules .egress currentPolicy.policyName).length +
          (skipRules fw policyName priorities).2)

/-- `calculateInsertionIDs` -/
def calculateInsertionIDs (d : Enforcer) (policyName : String) : Int32 × Int32 :=
  (Int32.ofNat (skipRules d.firewall policyName d.priorities).1,
    Int32.ofNat (skipRules d.firewall policyName d.priorities).2)

def addTemplates (policy : ParsedPolicy) (actions : List (String × ParsedRules)) :
    List (String × ParsedRules) :=
  if policy.name ∈ actions.map Prod.fst then
    actions.map fun a => if a.1 = policy.name then
      (a.1, ⟨a.2.incoming ++ policy.templates.incoming, a.2.outgoing ++ policy.templates.outgoing⟩)
      else a
  else actions ++ [(policy.name, policy.templates)]

/-- `definePolicyActions`, without the subscription. -/
def definePolicyActions (policy : ParsedPolicy) (fw : Firewall) : Firewall :=
  if policy.peer.key = "" then fw
  else { fw with
    policyActions := update fw.policyActions policy.peer.key
      (some (addTemplates policy ((fw.policyActions policy.peer.key).getD []))) }

/-- `EnforcePolicy`.  The rules that go to the linked pods start at the ids that are calculated
behind it. -/
def enforcePolicy (policy : ParsedPolicy) (rules : ParsedRules) (d : Enforcer) : Enforcer :=
  if (d.policyDirections policy.name).isSome then d
  else
    { firewall := storeRules (definePolicyActions policy d.firewall) policy.name "" rules
      policyDirections := update d.policyDirections policy.name (some policy.direction)
      priorities := insertPriority policy (calculatePolicyOffset policy d.priorities)
        d.priorities }

/-- `deleteAllPolicyRules` -/
def deleteAllPolicyRules (policy : String) (fw : Firewall) : Firewall :=
  { fw with
    policies := fw.policies.filter fun p => p ≠ policy
    rules := fun side p => if p = policy then [] else fw.rules side p }

/-- `deletePolicyActions`; a key without actions goes. -/
def deletePolicyActions (policy : String) (fw : Firewall) : Firewall :=
  { fw with
    policyActions := fun key =>
      ((fw.policyActions key).map fun actions => actions.filter fun a => a.1 ≠ policy).filter
        fun actions => actions ≠ [] }

/-- `CeasePolicy` -/
def ceasePolicy (policyName : String) (d : Enforcer) : Enforcer :=
  if (d.policyDirections policyName).isSome then
    { firewall := deletePolicyActions policyName (deleteAllPolicyRules policyName d.firewall)
      policyDirections := update d.policyDirections policyName none
      priorities := popPriority policyName d.priorities }
  else d

inductive PolicyOp
  | enforce (policy : ParsedPolicy) (rules : ParsedRules)
  | cease (policyName : String)
  | react (order : List String) (s : Subscription) (pod : Peer)

variable (virtualIp : VirtualIp)

def Enforcer.step (d : Enforcer) : PolicyOp → Enforcer
  | .enforce policy rules => enforcePolicy policy rules d
  | .cease policyName => ceasePolicy policyName d
  | .react order s pod => { d with firewall := callback virtualIp d.firewall order s pod }

def enforcedBy (enforced : Table String ParsedPolicy) : PolicyOp → Table String ParsedPolicy
  | .enforce policy _ =>
    if (enforced policy.name).isSome then enforced
    else update enforced policy.name (some policy)
  | .cease policyName => update enforced policyName none
  | .react .. => enforced

def enforcedIn (ops : List PolicyOp) : Table String ParsedPolicy :=
  ops.foldl enforcedBy fun _ => none

def PolicyPriority.key (p : PolicyPriority) : ℤ ×ₗ ℤᵒᵈ ×ₗ ℤ :=
  toLex (p.parentPriority.toInt, toLex (OrderDual.toDual p.timestamp, p.priority.toInt))

structure Sorted (enforced : Table String ParsedPolicy) (priorities : List PolicyPriority) :
    Prop where
  once : (priorities.map PolicyPriority.policyName).Nodup
  same : ∀ p, p ∈ priorities ↔ ∃ policy, enforced policy.name = some policy ∧ priorityOf policy = p
  sorted : Ascending PolicyPriority.key priorities

def Firewall.stored (fw : Firewall) (side : Side) (priorities : List PolicyPriority) : ℕ :=
  (priorities.map fun p => (fw.rules side p.policyName).length).sum

/-- What holds behind a run: the list is in order, policies with different keys are in the same
order as behind any other run, and the ids are the number of the rules stored before, in 32 bits. -/
structure Precedence (ops : List PolicyOp) : Prop where
  sorted : Sorted (enforcedIn ops) (run (Enforcer.step virtualIp) Enforcer.start ops).priorities
  order : ∀ ops' p q, enforcedIn ops p.name = some p → enforcedIn ops q.name = some q →
    enforcedIn ops' p.name = some p → enforcedIn ops' q.name = some q →
    (priorityOf p).key ≠ (priorityOf q).key →
    (Before (run (Enforcer.step virtualIp) Enforcer.start ops).priorities (priorityOf p)
        (priorityOf q) ↔
      Before (run (Enforcer.step virtualIp) Enforcer.start ops').priorities (priorityOf p)
        (priorityOf q))
  ids : ∀ l₁ e l₂, (run (Enforcer.step virtualIp) Enforcer.start ops).priorities = l₁ ++ e :: l₂ →
    ∀ side, (match side with
      | .ingress => (calculateInsertionIDs (run (Enforcer.step virtualIp) Enforcer.start ops)
          e.policyName).1
      | .egress => (calculateInsertionIDs (run (Enforcer.step virtualIp) Enforcer.start ops)
          e.policyName).2) =
      Int32.ofNat ((run (Enforcer.step virtualIp) Enforcer.start ops).firewall.stored side l₁)

section

variable {policy : ParsedPolicy} {p c : PolicyPriority} {priorities : List PolicyPriority}
  {enforced : Table String ParsedPolicy} {d : Enforcer} {name : String}

theorem key_lt_iff : p.key < c.key ↔ p.parentPriority < c.parentPriority ∨
    p.parentPriority = c.parentPriority ∧ c.timestamp < p.timestamp ∨
    p.parentPriority = c.parentPriority ∧ p.timestamp = c.timestamp ∧ p.priority < c.priority := by
  unfold PolicyPriority.key
  rw [Prod.Lex.toLex_lt_toLex, Prod.Lex.toLex_lt_toLex, ← Int32.lt_iff_toInt_lt, Int32.toInt_inj,
    ← Int32.lt_iff_toInt_lt, OrderDual.toDual_lt_toDual, OrderDual.toDual_inj, and_or_left]

theorem calculatePolicyOffset_eq : calculatePolicyOffset policy priorities =
    placeOf PolicyPriority.key (priorityOf policy).key priorities := by
  induction priorities with
  | nil => rfl
  | cons c priorities ih =>
    have lt : (priorityOf policy).key < c.key ↔
        policy.parentPolicy.priority < c.parentPriority ∨
        policy.parentPolicy.priority = c.parentPriority ∧ c.timestamp < policy.creationTime ∨
        policy.parentPolicy.priority = c.parentPriority ∧ policy.creationTime = c.timestamp ∧
          policy.priority < c.priority := key_lt_iff
    unfold calculatePolicyOffset
    rw [placeOf_cons, ih]
    by_cases stop : (priorityOf policy).key < c.key
    · rw [if_neg (not_le.2 stop)]
      rcases lt.1 stop with parent | later | own
      · rw [if_pos parent]
      · rw [if_neg (by rw [later.1, Int32.lt_iff_toInt_lt]; exact lt_irrefl _), if_pos later]
      · rw [if_neg (by rw [own.1, Int32.lt_iff_toInt_lt]; exact lt_irrefl _),
          if_neg fun h => h.2.ne' own.2.1, if_pos own]
    · obtain ⟨parent, rest⟩ := not_or.1 (lt.not.1 stop)
      obtain ⟨later, own⟩ := not_or.1 rest
      rw [if_pos (not_lt.1 stop), if_neg parent, if_neg later, if_neg own]

/-! ### The list -/

structure Enforced (enforced : Table String ParsedPolicy) (d : Enforcer) : Prop
    extends Sorted enforced d.priorities where
  listed : ∀ name, (d.policyDirections name).isSome = (enforced name).isSome
  named : ∀ name p, enforced name = some p → p.name = name

theorem enforced_start : Enforced (fun _ => none) Enforcer.start := by
  refine ⟨⟨List.nodup_nil, fun p => ?_, List.Pairwise.nil⟩, fun _ => rfl, fun _ _ h => ?_⟩
  · exact iff_of_false List.not_mem_nil (by rintro ⟨_, h, -⟩; cases h)
  · cases h

theorem Enforced.mem_names (h : Enforced enforced d) :
    name ∈ d.priorities.map PolicyPriority.policyName ↔ (enforced name).isSome := by
  rw [List.mem_map]
  constructor
  · rintro ⟨p, hp, rfl⟩
    obtain ⟨policy, there, rfl⟩ := (h.same p).1 hp
    change (enforced policy.name).isSome
    rw [there]
    rfl
  · intro there
    obtain ⟨policy, there⟩ := Option.isSome_iff_exists.1 there
    have named := h.named name policy there
    exact ⟨priorityOf policy, (h.same _).2 ⟨policy, by rw [named, there], rfl⟩, named⟩

theorem enforced_enforcePolicy (h : Enforced enforced d) (policy : ParsedPolicy)
    (rules : ParsedRules) : Enforced (enforcedBy enforced (.enforce policy rules))
      (enforcePolicy policy rules d) := by
  change Enforced (if (enforced policy.name).isSome then enforced
    else update enforced policy.name (some policy)) _
  unfold enforcePolicy
  rw [h.listed]
  split_ifs with known
  · exact h
  have new : policy.name ∉ d.priorities.map PolicyPriority.policyName :=
    fun there => known (h.mem_names.1 there)
  have absent : enforced policy.name = none := Option.not_isSome_iff_eq_none.1 known
  have le : placeOf PolicyPriority.key (priorityOf policy).key d.priorities ≤
      d.priorities.length := placeOf_le
  unfold insertPriority
  rw [calculatePolicyOffset_eq]
  refine ⟨⟨?_, fun p => ?_, h.sorted.insertIdx _⟩, fun name => ?_, fun name p there => ?_⟩
  · rw [((List.perm_insertIdx _ _ le).map _).nodup_iff]
    exact List.nodup_cons.2 ⟨new, h.once⟩
  · rw [List.mem_insertIdx le, h.same]
    constructor
    · rintro (rfl | ⟨q, there, rfl⟩)
      · exact ⟨policy, update_self .., rfl⟩
      · refine ⟨q, ?_, rfl⟩
        rw [update_of_ne, there]
        intro same
        rw [same, absent] at there
        cases there
    · rintro ⟨q, there, rfl⟩
      rw [update_apply] at there
      split_ifs at there
      · rw [Option.some.inj there]
        exact .inl rfl
      · exact .inr ⟨q, there, rfl⟩
  · dsimp only
    rw [update_apply, update_apply]
    split_ifs
    · rfl
    · exact h.listed name
  · rw [update_apply] at there
    split_ifs at there with here
    · rw [← Option.some.inj there, here]
    · exact h.named name p there

theorem eraseP_eq_filter {l : List PolicyPriority}
    (once : (l.map PolicyPriority.policyName).Nodup) :
    (l.eraseP fun p => p.policyName = name) = l.filter fun p => p.policyName ≠ name := by
  induction l with
  | nil => rfl
  | cons p l ih =>
    rw [List.map_cons, List.nodup_cons] at once
    by_cases here : p.policyName = name
    · rw [List.eraseP_cons_of_pos (by simpa using here), List.filter_cons_of_neg (by simpa using here)]
      refine (List.filter_eq_self.2 fun q hq => ?_).symm
      have other : q.policyName ≠ name := by
        intro same
        exact once.1 (here.trans same.symm ▸ List.mem_map_of_mem hq)
      simpa using other
    · rw [List.eraseP_cons_of_neg (by simpa using here), List.filter_cons_of_pos (by simpa using here),
        ih once.2]

theorem popPriority_eq (once : (priorities.map PolicyPriority.policyName).Nodup) :
    popPriority name priorities = priorities.filter fun p => p.policyName ≠ name := by
  unfold popPriority
  rw [eraseP_eq_filter (by rwa [List.map_reverse, List.nodup_reverse]), List.filter_reverse,
    List.reverse_reverse]

theorem enforced_ceasePolicy (h : Enforced enforced d) (name : String) :
    Enforced (enforcedBy enforced (.cease name)) (ceasePolicy name d) := by
  change Enforced (update enforced name none) _
  unfold ceasePolicy
  rw [h.listed]
  split_ifs with known
  · rw [popPriority_eq h.once]
    refine ⟨⟨h.once.sublist (List.filter_sublist.map _), fun p => ?_, h.sorted.filter _⟩,
      fun name' => ?_, fun name' p there => ?_⟩
    · rw [List.mem_filter, h.same, decide_eq_true_iff]
      constructor
      · rintro ⟨⟨policy, there, rfl⟩, other⟩
        exact ⟨policy, (update_of_ne other ..).trans there, rfl⟩
      · rintro ⟨policy, there, rfl⟩
        rw [update_apply] at there
        split_ifs at there with here
        exact ⟨⟨policy, there, rfl⟩, here⟩
    · dsimp only
      rw [update_apply, update_apply]
      split_ifs
      · rfl
      · exact h.listed name'
    · rw [update_apply] at there
      split_ifs at there
      exact h.named name' p there
  · have absent : enforced name = none := Option.not_isSome_iff_eq_none.1 known
    rw [← absent, update_eq_self]
    exact h

theorem enforced_run (ops : List PolicyOp) :
    Enforced (enforcedIn ops) (run (Enforcer.step virtualIp) Enforcer.start ops) := by
  have kept : ∀ (ops : List PolicyOp) (enforced : Table String ParsedPolicy) (d : Enforcer),
      Enforced enforced d →
        Enforced (ops.foldl enforcedBy enforced) (run (Enforcer.step virtualIp) d ops) := by
    intro ops
    induction ops with
    | nil => exact fun _ _ h => h
    | cons op ops ih =>
      intro enforced d h
      refine ih _ _ ?_
      cases op with
      | enforce policy rules => exact enforced_enforcePolicy h policy rules
      | cease name => exact enforced_ceasePolicy h name
      | react order s pod => exact ⟨h.toSorted, h.listed, h.named⟩
  exact kept ops _ _ enforced_start

/-- The loop over the policies adds up the rules of those before. -/
theorem skipRules_append {fw : Firewall} {l₁ l₂ : List PolicyPriority}
    (once : ((l₁ ++ p :: l₂).map PolicyPriority.policyName).Nodup) :
    skipRules fw p.policyName (l₁ ++ p :: l₂) = (fw.stored .ingress l₁, fw.stored .egress l₁) := by
  induction l₁ with
  | nil =>
    unfold skipRules
    rw [List.nil_append]
    exact if_pos rfl
  | cons c l₁ ih =>
    rw [List.cons_append, List.map_cons, List.nodup_cons] at once
    have other : c.policyName ≠ p.policyName := by
      intro same
      exact once.1 (same ▸ List.mem_map_of_mem (List.mem_append_right _ List.mem_cons_self))
    rw [List.cons_append, skipRules, if_neg other, ih once.2]
    simp [Firewall.stored]

/-- The order of policies with different keys is that of the keys. -/
theorem Enforced.before_iff (h : Enforced enforced d) {p q : ParsedPolicy}
    (hp : enforced p.name = some p) (hq : enforced q.name = some q)
    (other : (priorityOf p).key ≠ (priorityOf q).key) :
    Before d.priorities (priorityOf p) (priorityOf q) ↔
      (priorityOf p).key < (priorityOf q).key :=
  h.sorted.before_iff ((h.same _).2 ⟨p, hp, rfl⟩) ((h.same _).2 ⟨q, hq, rfl⟩) other

/-- Precedence is well defined behind every run. -/
theorem precedence_of_run (ops : List PolicyOp) : Precedence virtualIp ops where
  sorted := (enforced_run virtualIp ops).toSorted
  order ops' p q hp hq hp' hq' other := by
    rw [(enforced_run virtualIp ops).before_iff hp hq other,
      (enforced_run virtualIp ops').before_iff hp' hq' other]
  ids l₁ e l₂ split side := by
    have once := (enforced_run virtualIp ops).once
    rw [split] at once
    unfold calculateInsertionIDs
    rw [split, skipRules_append once]
    cases side <;> rfl

end

def somePolicy (name : String) (priority : Int32) : ParsedPolicy where
  name := name
  parentPolicy := ⟨name, 5, "k8s"⟩
  priority := priority
  creationTime := 0
  direction := .incoming
  subject := ⟨none, "default"⟩
  peer := ⟨[], none, none, ""⟩
  templates := ⟨[], []⟩
  ports := []
  action := .forward

def someRule : ChainRule := ⟨"", "", none, 0, 0, "new", .forward, ""⟩

def twoPolicies (n : ℕ) : List PolicyOp :=
  [.enforce (somePolicy "p" 0) ⟨[], List.replicate n someRule⟩,
    .enforce (somePolicy "q" 1) ⟨[], []⟩]

theorem stored_twoPolicies (n : ℕ) :
    (run (Enforcer.step virtualIp) Enforcer.start (twoPolicies n)).firewall.stored .ingress
      [priorityOf (somePolicy "p" 0)] = n := by
  have rules : (run (Enforcer.step virtualIp) Enforcer.start (twoPolicies n)).firewall.rules
      .ingress "p" = [] ++ (List.replicate n someRule).map fun r => fill "p" "" r .ingress := rfl
  change ((run (Enforcer.step virtualIp) Enforcer.start (twoPolicies n)).firewall.rules
    .ingress "p").length + 0 = n
  rw [rules, List.nil_append, List.length_map, List.length_replicate, add_zero]

/-- With as many rules as there are numbers without a sign, the id behind them is negative. -/
theorem not_precedence_twoPolicies : ¬ ∀ (virtualIp : VirtualIp) ops l₁ e l₂,
    (run (Enforcer.step virtualIp) Enforcer.start ops).priorities = l₁ ++ e :: l₂ →
    (calculateInsertionIDs (run (Enforcer.step virtualIp) Enforcer.start ops)
      e.policyName).1.toInt =
      (run (Enforcer.step virtualIp) Enforcer.start ops).firewall.stored .ingress l₁ := by
  intro same
  have virtualIp : VirtualIp := fun _ => ⟨"v", by decide⟩
  have priorities : (run (Enforcer.step virtualIp) Enforcer.start
      (twoPolicies (2 ^ 31))).priorities =
        [priorityOf (somePolicy "p" 0)] ++ priorityOf (somePolicy "q" 1) :: [] := rfl
  have once := (enforced_run virtualIp (twoPolicies (2 ^ 31))).once
  have id := same virtualIp _ _ _ _ priorities
  rw [priorities] at once
  unfold calculateInsertionIDs at id
  rw [priorities, skipRules_append once, stored_twoPolicies] at id
  change (Int32.ofNat (2 ^ 31)).toInt = ((2 ^ 31 : ℕ) : ℤ) at id
  exact absurd id (by decide)

end Polycube.Policies
