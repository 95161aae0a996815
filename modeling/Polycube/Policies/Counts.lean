import Polycube.Policies.Convergence
import Polycube.Policies.Precedence

/-!
# Default actions and templates of the enforced policies

A firewall manager counts the policies of each direction.  The first one sets the default action of
a chain to drop, and when the last one is ceased it is forward again.  The templates are kept by the
key of a peer, with one subscription for each key.
-/

namespace Polycube.Policies

open Function

open Lib K8s

@[ext]
structure Counts where
  count : Side → ℕ
  defaultAction : Side → RuleAction

/-- `dirToChain`: incoming packets leave the firewall towards the pod. -/
def dirToChain : PolicyDirection → Side
  | .incoming => .egress
  | .outgoing => .ingress

/-- `increaseCount`, with whether the firewalls should be told. -/
def increaseCount (which : Side) (c : Counts) : Counts × Bool :=
  let count := c.count which + 1
  ({ count := update c.count which count
     defaultAction := if 0 < count then update c.defaultAction which .drop
       else c.defaultAction }, count = 1)

/-- `decreaseCount` -/
def decreaseCount (which : Side) (c : Counts) : Counts × Bool :=
  if c.count which = 0 then (c, true)
  else
    let count := c.count which - 1
    ({ count := update c.count which count
       defaultAction := if count = 0 then update c.defaultAction which .forward
         else c.defaultAction }, count = 0)

/-- The operation of `updateCounts`. -/
inductive CountOp
  | increase | decrease
  deriving DecidableEq

/-- `updateCounts`, with the default action that the firewalls of the linked pods are told. -/
def updateCounts (operation : CountOp) (which : Side) (c : Counts) :
    Counts × Option (Side × RuleAction) :=
  match operation with
  | .increase =>
    let (c, update) := increaseCount which c
    (c, if update then some (which, .drop) else none)
  | .decrease =>
    let (c, update) := decreaseCount which c
    (c, if update then some (which, .forward) else none)

@[ext]
structure FirewallManager where
  enforcer : Enforcer
  counts : Counts
  unsubscriptors : Table String (Option ObjectQuery × Option ObjectQuery)

/-- `StartFirewall` -/
def FirewallManager.start : FirewallManager :=
  ⟨Enforcer.start, ⟨fun _ => 0, fun _ => .forward⟩, fun _ => none⟩

/-- The subscription of `definePolicyActions`, for a key that has no actions yet. -/
def FirewallManager.subscribe (policy : ParsedPolicy) (accepted : Bool) (s : FirewallManager) :
    Table String (Option ObjectQuery × Option ObjectQuery) :=
  if policy.peer.key = "" ∨ (s.enforcer.firewall.policyActions policy.peer.key).isSome ∨ ¬ accepted
  then s.unsubscriptors
  else update s.unsubscriptors policy.peer.key
    (some (policy.peer.peer, policy.peer.nameSpace))

/-- `EnforcePolicy`; `accepted` says whether the controller of the pods accepts a subscription. -/
def FirewallManager.enforcePolicy (policy : ParsedPolicy) (rules : ParsedRules) (accepted : Bool)
    (s : FirewallManager) : FirewallManager :=
  if (s.enforcer.policyDirections policy.name).isSome then s
  else
    { enforcer := Policies.enforcePolicy policy rules s.enforcer
      counts := (updateCounts .increase (dirToChain policy.direction) s.counts).1
      unsubscriptors := s.subscribe policy accepted }

/-- The subscriptions that `deletePolicyActions` leaves: none for a key that it flags. -/
def FirewallManager.unsubscribe (policyName : String) (s : FirewallManager) :
    Table String (Option ObjectQuery × Option ObjectQuery) := fun key =>
  match s.enforcer.firewall.policyActions key with
  | none => s.unsubscriptors key
  | some actions =>
    if actions.filter (fun a => a.1 ≠ policyName) = [] then none else s.unsubscriptors key

/-- `CeasePolicy` -/
def FirewallManager.ceasePolicy (policyName : String) (s : FirewallManager) : FirewallManager :=
  match s.enforcer.policyDirections policyName with
  | none => s
  | some policyDir =>
    { enforcer := Policies.ceasePolicy policyName s.enforcer
      counts := (updateCounts .decrease (dirToChain policyDir) s.counts).1
      unsubscriptors := s.unsubscribe policyName }

inductive ManagerOp
  | enforce (policy : ParsedPolicy) (rules : ParsedRules) (accepted : Bool)
  | cease (policyName : String)
  | react (order : List String) (s : Subscription) (pod : Peer)

variable (virtualIp : VirtualIp)

def FirewallManager.step (s : FirewallManager) : ManagerOp → FirewallManager
  | .enforce policy rules accepted => s.enforcePolicy policy rules accepted
  | .cease policyName => s.ceasePolicy policyName
  | .react order sub pod =>
    { s with enforcer := { s.enforcer with
        firewall := callback virtualIp s.enforcer.firewall order sub pod } }

def ManagerOp.policyOp : ManagerOp → PolicyOp
  | .enforce policy rules _ => .enforce policy rules
  | .cease policyName => .cease policyName
  | .react order s pod => .react order s pod

def managerBehind (ops : List ManagerOp) : FirewallManager :=
  run (FirewallManager.step virtualIp) FirewallManager.start ops

def enforcedBehind (ops : List ManagerOp) : Table String ParsedPolicy :=
  enforcedIn (ops.map ManagerOp.policyOp)

def directed (enforced : Table String ParsedPolicy) (d : PolicyDirection) : Set String :=
  {name | ∃ p, enforced name = some p ∧ p.direction = d}

structure ActionsOf (enforced : Table String ParsedPolicy)
    (actions : Table String (List (String × ParsedRules))) : Prop where
  mem : ∀ key name rules, (name, rules) ∈ (actions key).getD [] ↔
    key ≠ "" ∧ ∃ p, enforced name = some p ∧ p.peer.key = key ∧ p.templates = rules
  once : ∀ key, (((actions key).getD []).map Prod.fst).Nodup
  nonempty : ∀ key, actions key ≠ some []

structure Accounted (ops : List ManagerOp) : Prop where
  count : ∀ d, (managerBehind virtualIp ops).counts.count (dirToChain d) =
    (directed (enforcedBehind ops) d).ncard
  drop : ∀ d, (managerBehind virtualIp ops).counts.defaultAction (dirToChain d) = .drop ↔
    (directed (enforcedBehind ops) d).Nonempty
  actions : ActionsOf (enforcedBehind ops)
    (managerBehind virtualIp ops).enforcer.firewall.policyActions
  restored : ∀ policy rules accepted, enforcedBehind ops policy.name = none →
    ((managerBehind virtualIp ops).enforcePolicy policy rules accepted).ceasePolicy policy.name =
      managerBehind virtualIp ops

attribute [ext] Firewall Enforcer

section

variable {enforced : Table String ParsedPolicy} {fw : Firewall} {policy : ParsedPolicy}
  {name : String}

theorem ActionsOf.notMem (h : ActionsOf enforced fw.policyActions) (new : enforced name = none)
    (key : String) : name ∉ ((fw.policyActions key).getD []).map Prod.fst := by
  intro mem
  obtain ⟨⟨name', rules⟩, there, rfl⟩ := List.mem_map.1 mem
  obtain ⟨-, p, known, -⟩ := (h.mem key _ rules).1 there
  rw [new] at known
  cases known

theorem addTemplates_of_new {actions : List (String × ParsedRules)}
    (new : policy.name ∉ actions.map Prod.fst) :
    addTemplates policy actions = actions ++ [(policy.name, policy.templates)] := if_neg new

theorem definePolicyActions_of_new (h : ActionsOf enforced fw.policyActions)
    (new : enforced policy.name = none) (key : String) :
    (definePolicyActions policy fw).policyActions key =
      if key = policy.peer.key ∧ key ≠ "" then
        some ((fw.policyActions key).getD [] ++ [(policy.name, policy.templates)])
      else fw.policyActions key := by
  unfold definePolicyActions
  split_ifs with nokey here here
  · exact absurd (here.1.trans nokey) here.2
  · rfl
  · rw [here.1]
    dsimp only
    rw [update_self, addTemplates_of_new (h.notMem new _)]
  · dsimp only
    rw [update_of_ne]
    rintro rfl
    exact here ⟨rfl, nokey⟩

theorem ActionsOf.define (h : ActionsOf enforced fw.policyActions)
    (new : enforced policy.name = none) :
    ActionsOf (update enforced policy.name (some policy))
      (definePolicyActions policy fw).policyActions := by
  refine ⟨fun key name rules => ?_, fun key => ?_, fun key => ?_⟩
  · rw [definePolicyActions_of_new h new]
    by_cases same : name = policy.name
    · rw [same, update_self]
      have old : (policy.name, rules) ∉ (fw.policyActions key).getD [] := fun mem =>
        h.notMem new key (List.mem_map.2 ⟨_, mem, rfl⟩)
      split_ifs with here
      · rw [Option.getD_some, List.mem_append, or_iff_right old, List.mem_singleton, Prod.mk.injEq]
        constructor
        · rintro ⟨-, rfl⟩
          exact ⟨here.2, policy, rfl, here.1.symm, rfl⟩
        · rintro ⟨-, p, found, -, rfl⟩
          rw [Option.some.inj found]
          exact ⟨rfl, rfl⟩
      · refine iff_of_false old ?_
        rintro ⟨ne, p, found, rfl, -⟩
        rw [← Option.some.inj found] at here ne
        exact here ⟨rfl, ne⟩
    · rw [update_of_ne same, ← h.mem]
      split_ifs
      · rw [Option.getD_some, List.mem_append, List.mem_singleton, Prod.mk.injEq]
        exact or_iff_left fun both => same both.1
      · exact Iff.rfl
  · rw [definePolicyActions_of_new h new]
    split_ifs
    · rw [Option.getD_some, List.map_append]
      refine List.nodup_append.2 ⟨h.once key, List.nodup_singleton _, fun a ha b hb same => ?_⟩
      rw [List.map_singleton, List.mem_singleton] at hb
      rw [same, hb] at ha
      exact h.notMem new key ha
    · exact h.once key
  · rw [definePolicyActions_of_new h new]
    split_ifs
    · simp
    · exact h.nonempty key

theorem deletePolicyActions_getD (key : String) :
    ((deletePolicyActions name fw).policyActions key).getD [] =
      ((fw.policyActions key).getD []).filter fun a => a.1 ≠ name := by
  unfold deletePolicyActions
  dsimp only
  cases fw.policyActions key with
  | none => rfl
  | some actions =>
    rw [Option.map_some, Option.getD_some, Option.filter_some]
    split_ifs with left
    · rfl
    · have empty : (actions.filter fun a => a.1 ≠ name) = [] :=
        of_not_not fun some => left (decide_eq_true some)
      rw [empty]
      rfl

theorem ActionsOf.delete (h : ActionsOf enforced fw.policyActions) :
    ActionsOf (update enforced name none) (deletePolicyActions name fw).policyActions := by
  refine ⟨fun key name' rules => ?_, fun key => ?_, fun key => ?_⟩
  · rw [deletePolicyActions_getD, List.mem_filter, decide_eq_true_iff, h.mem]
    by_cases same : name' = name
    · refine iff_of_false (fun both => both.2 same) ?_
      rintro ⟨-, p, found, -⟩
      rw [same, update_self] at found
      cases found
    · rw [update_of_ne same, and_iff_left same]
  · rw [deletePolicyActions_getD]
    exact (h.once key).sublist (List.filter_sublist.map _)
  · unfold deletePolicyActions
    intro empty
    have := (Option.filter_eq_some_iff.1 empty).2
    simp at this

/-- The templates that are deleted are those that have been defined. -/
theorem delete_define (h : ActionsOf enforced fw.policyActions)
    (new : enforced policy.name = none) (fw' : Firewall)
    (same : fw'.policyActions = (definePolicyActions policy fw).policyActions) :
    (deletePolicyActions policy.name fw').policyActions = fw.policyActions := by
  funext key
  have others : ((fw.policyActions key).getD []).filter (fun a => a.1 ≠ policy.name) =
      (fw.policyActions key).getD [] := by
    refine List.filter_eq_self.2 fun a ha => decide_eq_true ?_
    intro here
    exact h.notMem new key (List.mem_map.2 ⟨a, ha, here⟩)
  have left : ((deletePolicyActions policy.name fw').policyActions key).getD [] =
      (fw.policyActions key).getD [] := by
    rw [deletePolicyActions_getD, same, definePolicyActions_of_new h new]
    split_ifs
    · rw [Option.getD_some, List.filter_append, others]
      simp
    · exact others
  have nonempty : (deletePolicyActions policy.name fw').policyActions key ≠ some [] := by
    unfold deletePolicyActions
    intro empty
    have := (Option.filter_eq_some_iff.1 empty).2
    simp at this
  cases there : (deletePolicyActions policy.name fw').policyActions key with
  | none =>
    rw [there, Option.getD_none] at left
    cases old : fw.policyActions key with
    | none => rfl
    | some actions =>
      rw [old, Option.getD_some] at left
      rw [← left] at old
      exact absurd old (h.nonempty key)
  | some actions =>
    rw [there, Option.getD_some] at left
    cases old : fw.policyActions key with
    | none =>
      rw [old, Option.getD_none] at left
      rw [left] at there
      exact absurd there nonempty
    | some actions' =>
      rw [old, Option.getD_some] at left
      rw [left]

variable {c : Counts} {which : Side}

def Counts.Right (c : Counts) : Prop := ∀ which, c.defaultAction which = .drop ↔ 0 < c.count which

theorem increase_spec (right : c.Right) (which : Side) :
    (updateCounts .increase which c).1.count = update c.count which (c.count which + 1) ∧
    (updateCounts .increase which c).1.Right := by
  refine ⟨rfl, fun other => ?_⟩
  change (if 0 < c.count which + 1 then update c.defaultAction which .drop
    else c.defaultAction) other = .drop ↔
      0 < update c.count which (c.count which + 1) other
  rw [if_pos (Nat.succ_pos _)]
  by_cases same : other = which
  · rw [same, update_self, update_self]
    exact iff_of_true rfl (Nat.succ_pos _)
  · rw [update_of_ne same, update_of_ne same]
    exact right other

theorem decrease_spec (right : c.Right) (pos : 0 < c.count which) :
    (updateCounts .decrease which c).1.count = update c.count which (c.count which - 1) ∧
    (updateCounts .decrease which c).1.Right := by
  unfold updateCounts decreaseCount
  dsimp only
  rw [if_neg pos.ne']
  refine ⟨rfl, fun other => ?_⟩
  dsimp only
  by_cases same : other = which
  · rw [same, update_self]
    split_ifs with last
    · rw [update_self]
      exact iff_of_false nofun (by omega)
    · rw [right which]
      omega
  · rw [update_of_ne same]
    split_ifs
    · rw [update_of_ne same]
      exact right other
    · exact right other

theorem decrease_increase (right : c.Right) :
    (updateCounts .decrease which (updateCounts .increase which c).1).1 = c := by
  obtain ⟨count, right'⟩ := increase_spec right which
  have pos : 0 < (updateCounts .increase which c).1.count which := by
    rw [count, update_self]
    exact Nat.succ_pos _
  obtain ⟨count', right''⟩ := decrease_spec right' pos
  have counts : (updateCounts .decrease which (updateCounts .increase which c).1).1.count =
      c.count := by
    rw [count', count, update_self, update_idem, Nat.add_sub_cancel,
      update_eq_self]
  have actions : (updateCounts .decrease which (updateCounts .increase which c).1).1.defaultAction =
      c.defaultAction := by
    funext other
    have after := right'' other
    rw [counts, ← right other] at after
    revert after
    cases c.defaultAction other <;>
      cases (updateCounts .decrease which (updateCounts .increase which c).1).1.defaultAction other
        <;> simp
  exact Counts.ext counts actions

/-! ### The whole manager -/

structure FirewallManager.Inv (s : FirewallManager) (enforced : Table String ParsedPolicy) : Prop
    extends Enforced enforced s.enforcer where
  directions : ∀ name, s.enforcer.policyDirections name =
    (enforced name).map ParsedPolicy.direction
  finite : {name | (enforced name).isSome}.Finite
  count : ∀ d, s.counts.count (dirToChain d) = (directed enforced d).ncard
  right : s.counts.Right
  actions : ActionsOf enforced s.enforcer.firewall.policyActions
  policies : ∀ name, name ∈ s.enforcer.firewall.policies ↔ (enforced name).isSome
  rules : ∀ side name, enforced name = none → s.enforcer.firewall.rules side name = []
  subscribed : ∀ key, s.enforcer.firewall.policyActions key = none → s.unsubscriptors key = none

theorem FirewallManager.inv_start : FirewallManager.start.Inv (fun _ => none) where
  toEnforced := enforced_start
  directions _ := rfl
  finite := by simp
  count d := by
    have none : directed (fun _ => none) d = ∅ := by
      apply Set.eq_empty_of_forall_notMem
      rintro name ⟨p, found, -⟩
      cases found
    rw [none, Set.ncard_empty]
    rfl
  right which := iff_of_false nofun (lt_irrefl 0)
  actions := by
    refine ⟨fun key name rules => iff_of_false List.not_mem_nil ?_, fun _ => List.nodup_nil, nofun⟩
    rintro ⟨-, p, found, -⟩
    cases found
  policies name := iff_of_false List.not_mem_nil nofun
  rules _ _ _ := rfl
  subscribed _ _ := rfl

variable {s : FirewallManager} {d : PolicyDirection}

theorem dirToChain_injective : Function.Injective dirToChain := by
  intro d d' h
  cases d <;> cases d' <;> first | rfl | cases h

theorem directed_enforce (new : enforced policy.name = none) :
    directed (update enforced policy.name (some policy)) d =
      if d = policy.direction then insert policy.name (directed enforced d)
      else directed enforced d := by
  have known : ∀ name, (∃ p, update enforced policy.name (some policy) name = some p ∧
      p.direction = d) ↔ (name = policy.name ∧ policy.direction = d) ∨
        ∃ p, enforced name = some p ∧ p.direction = d := by
    intro name
    by_cases same : name = policy.name
    · rw [same, update_self, new]
      simp
    · rw [update_of_ne same]
      simp [same]
  apply Set.ext
  intro name
  split_ifs with here
  · rw [Set.mem_insert_iff]
    refine (known name).trans (or_congr_left (and_iff_left here.symm))
  · refine (known name).trans (or_iff_right fun both => here both.2.symm)

theorem directed_cease {p : ParsedPolicy} (found : enforced name = some p) :
    directed (update enforced name none) d =
      if d = p.direction then directed enforced d \ {name} else directed enforced d := by
  apply Set.ext
  intro name'
  have known : (∃ q, update enforced name none name' = some q ∧ q.direction = d) ↔
      name' ≠ name ∧ ∃ q, enforced name' = some q ∧ q.direction = d := by
    by_cases same : name' = name
    · rw [same, update_self]
      simp
    · rw [update_of_ne same, and_iff_right same]
  split_ifs with here
  · rw [Set.mem_sdiff, Set.mem_singleton_iff]
    exact known.trans and_comm
  · refine known.trans (and_iff_right_of_imp ?_)
    rintro ⟨q, found', rfl⟩ rfl
    rw [found] at found'
    exact here (congrArg ParsedPolicy.direction (Option.some.inj found').symm)

theorem FirewallManager.Inv.finite_directed (h : s.Inv enforced) (d : PolicyDirection) :
    (directed enforced d).Finite := by
  refine h.finite.subset ?_
  rintro name ⟨p, found, -⟩
  exact Option.isSome_iff_exists.2 ⟨p, found⟩

theorem definePolicyActions_frame (policy : ParsedPolicy) (fw : Firewall) :
    (definePolicyActions policy fw).rules = fw.rules ∧
      (definePolicyActions policy fw).policies = fw.policies := by
  unfold definePolicyActions
  split_ifs <;> exact ⟨rfl, rfl⟩

theorem mem_storeRules_policies {target : String} {rules : ParsedRules} (other : String) :
    other ∈ (storeRules fw name target rules).policies ↔ other = name ∨ other ∈ fw.policies := by
  unfold storeRules
  split_ifs with there
  · refine ⟨.inr, ?_⟩
    rintro (rfl | there')
    · exact there
    · exact there'
  · rw [List.mem_append, List.mem_singleton, or_comm]

theorem enforcePolicy_of_new {d : Enforcer} (new : d.policyDirections policy.name = none)
    (rules : ParsedRules) : enforcePolicy policy rules d =
      { firewall := storeRules (definePolicyActions policy d.firewall) policy.name "" rules
        policyDirections := update d.policyDirections policy.name (some policy.direction)
        priorities := insertPriority policy (calculatePolicyOffset policy d.priorities)
          d.priorities } := by
  unfold enforcePolicy
  rw [new]
  rfl

namespace FirewallManager

theorem Inv.new (h : s.Inv enforced) (new : enforced name = none) :
    s.enforcer.policyDirections name = none := by
  rw [h.directions, new]
  rfl

theorem enforcePolicy_eq (new : s.enforcer.policyDirections policy.name = none)
    (rules : ParsedRules) (accepted : Bool) : s.enforcePolicy policy rules accepted =
      { enforcer := Policies.enforcePolicy policy rules s.enforcer
        counts := (updateCounts .increase (dirToChain policy.direction) s.counts).1
        unsubscriptors := s.subscribe policy accepted } := by
  unfold FirewallManager.enforcePolicy
  rw [new]
  rfl

theorem ceasePolicy_eq (found : s.enforcer.policyDirections name = some d) :
    s.ceasePolicy name =
      { enforcer := Policies.ceasePolicy name s.enforcer
        counts := (updateCounts .decrease (dirToChain d) s.counts).1
        unsubscriptors := s.unsubscribe name } := by
  unfold FirewallManager.ceasePolicy
  rw [found]

theorem Inv.enforce (h : s.Inv enforced) (policy : ParsedPolicy) (rules : ParsedRules)
    (accepted : Bool) : (s.enforcePolicy policy rules accepted).Inv
      (enforcedBy enforced (.enforce policy rules)) := by
  by_cases known : (enforced policy.name).isSome
  · have same : s.enforcePolicy policy rules accepted = s := by
      unfold FirewallManager.enforcePolicy
      rw [h.listed, if_pos known]
    rw [same]
    unfold enforcedBy
    dsimp only
    rw [if_pos known]
    exact h
  have new : enforced policy.name = none := Option.not_isSome_iff_eq_none.1 known
  have absent := h.new new
  have enforced' := enforced_enforcePolicy h.toEnforced policy rules
  rw [enforcePolicy_eq absent]
  unfold enforcedBy at enforced' ⊢
  dsimp only at enforced' ⊢
  rw [if_neg known] at enforced' ⊢
  obtain ⟨count, right⟩ := increase_spec h.right (dirToChain policy.direction)
  refine ⟨enforced', fun name => ?_, ?_, fun d => ?_, right, ?_, fun name => ?_,
    fun side name other => ?_, fun key none => ?_⟩
  · dsimp only
    rw [enforcePolicy_of_new absent]
    dsimp only
    rw [update_apply, update_apply]
    split_ifs
    · rfl
    · exact h.directions name
  · refine (h.finite.insert policy.name).subset fun name there => ?_
    by_cases here : name = policy.name
    · exact .inl here
    · rw [Set.mem_ofPred_eq, update_of_ne here] at there
      exact .inr there
  · dsimp only
    rw [count, directed_enforce new]
    by_cases here : d = policy.direction
    · rw [here, update_self, if_pos rfl, h.count, Set.ncard_insert_of_notMem _
        (h.finite_directed _)]
      rintro ⟨p, found, -⟩
      rw [new] at found
      cases found
    · rw [if_neg here, update_of_ne (dirToChain_injective.ne here), h.count]
  · dsimp only
    rw [enforcePolicy_of_new absent]
    exact h.actions.define new
  · dsimp only
    rw [enforcePolicy_of_new absent]
    dsimp only
    rw [mem_storeRules_policies, (definePolicyActions_frame _ _).2, h.policies,
      update_apply]
    split_ifs with here
    · exact iff_of_true (.inl here) rfl
    · exact or_iff_right here
  · dsimp only
    rw [enforcePolicy_of_new absent]
    dsimp only
    have ne : name ≠ policy.name := by
      rintro rfl
      rw [update_self] at other
      cases other
    rw [update_of_ne ne] at other
    rw [storeRules_rules, (definePolicyActions_frame _ _).1, if_neg ne, List.append_nil]
    exact h.rules side name other
  · dsimp only at none ⊢
    rw [enforcePolicy_of_new absent] at none
    have none : (definePolicyActions policy s.enforcer.firewall).policyActions key = Option.none :=
      none
    rw [definePolicyActions_of_new h.actions new] at none
    split_ifs at none with here
    unfold FirewallManager.subscribe
    split_ifs with skipped
    · exact h.subscribed key none
    · rw [update_of_ne]
      · exact h.subscribed key none
      · rintro rfl
        exact here ⟨rfl, (not_or.1 skipped).1⟩

theorem Inv.cease (h : s.Inv enforced) (name : String) :
    (s.ceasePolicy name).Inv (enforcedBy enforced (.cease name)) := by
  have enforced' := enforced_ceasePolicy h.toEnforced name
  unfold enforcedBy at enforced' ⊢
  dsimp only at enforced' ⊢
  cases found : enforced name with
  | none =>
    have same : s.ceasePolicy name = s := by
      unfold FirewallManager.ceasePolicy
      rw [h.new found]
    rw [same, ← found, update_eq_self]
    exact h
  | some p =>
    have direction : s.enforcer.policyDirections name = some p.direction := by
      rw [h.directions, found]
      rfl
    have mine : name ∈ directed enforced p.direction := ⟨p, found, rfl⟩
    have pos : 0 < s.counts.count (dirToChain p.direction) := by
      rw [h.count]
      exact (Set.ncard_pos (h.finite_directed _)).2 ⟨name, mine⟩
    obtain ⟨count, right⟩ := decrease_spec h.right pos
    have ceased : Policies.ceasePolicy name s.enforcer =
        { firewall := deletePolicyActions name (deleteAllPolicyRules name s.enforcer.firewall)
          policyDirections := update s.enforcer.policyDirections name Option.none
          priorities := popPriority name s.enforcer.priorities } := by
      unfold Policies.ceasePolicy
      rw [direction]
      rfl
    rw [ceasePolicy_eq direction]
    refine ⟨enforced', fun other => ?_, ?_, fun d => ?_, right, ?_, fun other => ?_,
      fun side other none => ?_, fun key none => ?_⟩
    · dsimp only
      rw [ceased]
      dsimp only
      rw [update_apply, update_apply]
      split_ifs
      · rfl
      · exact h.directions other
    · refine h.finite.subset fun other there => ?_
      by_cases here : other = name
      · rw [Set.mem_ofPred_eq, here, update_self] at there
        cases there
      · rwa [Set.mem_ofPred_eq, update_of_ne here] at there
    · dsimp only
      rw [count, directed_cease found]
      by_cases here : d = p.direction
      · rw [here, update_self, if_pos rfl, h.count,
          Set.ncard_sdiff_singleton_of_mem mine]
      · rw [if_neg here, update_of_ne (dirToChain_injective.ne here), h.count]
    · dsimp only
      rw [ceased]
      have actions : ActionsOf enforced (deleteAllPolicyRules name
        s.enforcer.firewall).policyActions := h.actions
      exact actions.delete
    · dsimp only
      rw [ceased]
      change other ∈ s.enforcer.firewall.policies.filter (fun p => p ≠ name) ↔ _
      rw [List.mem_filter, decide_eq_true_iff, h.policies, update_apply]
      split_ifs with here
      · exact iff_of_false (fun both => both.2 here) nofun
      · exact and_iff_left here
    · dsimp only
      rw [ceased]
      change (if other = name then [] else s.enforcer.firewall.rules side other) = []
      split_ifs with here
      · rfl
      · rw [update_of_ne here] at none
        exact h.rules side other none
    · dsimp only at none ⊢
      rw [ceased] at none
      unfold FirewallManager.unsubscribe
      cases old : s.enforcer.firewall.policyActions key with
      | none => exact h.subscribed key old
      | some actions =>
        have none : ((s.enforcer.firewall.policyActions key).map fun actions =>
            actions.filter fun a => a.1 ≠ name).filter (fun actions => actions ≠ []) =
              Option.none := none
        rw [old, Option.map_some, Option.filter_eq_none_iff] at none
        have empty := none _ rfl
        rw [decide_eq_true_iff, not_not] at empty
        dsimp only
        rw [if_pos empty]

theorem Inv.react (h : s.Inv enforced) {fw : Firewall}
    (actions : fw.policyActions = s.enforcer.firewall.policyActions)
    (policies : ∀ name, name ∈ fw.policies ↔ name ∈ s.enforcer.firewall.policies)
    (rules : ∀ side name, name ∉ s.enforcer.firewall.policies →
      fw.rules side name = s.enforcer.firewall.rules side name) :
    ({ s with enforcer := { s.enforcer with firewall := fw } } : FirewallManager).Inv enforced where
  toEnforced := ⟨h.toSorted, h.listed, h.named⟩
  directions := h.directions
  finite := h.finite
  count := h.count
  right := h.right
  actions := by
    rw [actions]
    exact h.actions
  policies name := (policies name).trans (h.policies name)
  rules side name none := by
    have absent : name ∉ s.enforcer.firewall.policies := by
      rw [h.policies, none]
      exact nofun
    exact (rules side name absent).trans (h.rules side name none)
  subscribed key none := by
    dsimp only at none
    rw [actions] at none
    exact h.subscribed key none

end FirewallManager

variable {virtualIp} {ip : String}

theorem addAll_policies {actions : List (String × ParsedRules)}
    (listed : ∀ a ∈ actions, a.1 ∈ fw.policies) :
    (fw.addAll virtualIp ip actions).policies = fw.policies := by
  induction actions generalizing fw with
  | nil => rfl
  | cons action actions ih =>
    have there := listed action List.mem_cons_self
    have twice : ∀ v, (storeRules (storeRules fw action.1 ip action.2) action.1 v
        action.2).policies = fw.policies := by
      intro v
      have once : (storeRules fw action.1 ip action.2).policies = fw.policies := if_pos there
      have again : (storeRules (storeRules fw action.1 ip action.2) action.1 v
          action.2).policies = (storeRules fw action.1 ip action.2).policies := by
        refine if_pos ?_
        rw [once]
        exact there
      exact again.trans once
    unfold Firewall.addAll
    rw [ih, twice]
    intro a ha
    rw [twice]
    exact listed a (List.mem_cons_of_mem action ha)

variable (virtualIp) in
theorem callback_frame (order : List String) (sub : Subscription) (pod : Peer)
    (listed : ∀ actions, fw.policyActions sub.key = some actions →
      ∀ a ∈ actions, a.1 ∈ fw.policies) :
    (callback virtualIp fw order sub pod).policyActions = fw.policyActions ∧
      (callback virtualIp fw order sub pod).policies = fw.policies ∧
      ∀ side name, name ∉ fw.policies →
        (callback virtualIp fw order sub pod).rules side name = fw.rules side name := by
  have del : ∀ ip, (fw.del virtualIp order ip).policyActions = fw.policyActions ∧
      (fw.del virtualIp order ip).policies = fw.policies ∧
      ∀ side name, name ∉ fw.policies →
        (fw.del virtualIp order ip).rules side name = fw.rules side name := by
    refine fun ip => ⟨rfl, rfl, fun side name absent => ?_⟩
    exact deleteFrom_of_notMem _ (mt (mem_visited _ _ _).1 absent) _ _
  unfold callback reactToPod
  split_ifs
  · exact ⟨rfl, rfl, fun _ _ _ => rfl⟩
  · exact del _
  · unfold Firewall.upd
    cases there : fw.policyActions sub.key with
    | none => exact ⟨rfl, rfl, fun _ _ _ => rfl⟩
    | some actions =>
      cases actions with
      | nil => exact ⟨rfl, rfl, fun _ _ _ => rfl⟩
      | cons action actions =>
        have listed := listed _ there
        split_ifs
        · exact del _
        · refine ⟨addAll_policyActions .., addAll_policies listed, fun side name absent => ?_⟩
          have others : (action :: actions).filter (fun a => a.1 = name) = [] := by
            refine List.filter_eq_nil_iff.2 fun a ha here => absent ?_
            rw [← of_decide_eq_true here]
            exact listed a ha
          rw [addAll_rules, others, List.flatMap_nil, List.append_nil]
  · exact ⟨rfl, rfl, fun _ _ _ => rfl⟩

namespace FirewallManager

theorem Inv.mem_policies (h : s.Inv enforced) {key : String} {actions : List (String × ParsedRules)}
    (found : s.enforcer.firewall.policyActions key = some actions) :
    ∀ a ∈ actions, a.1 ∈ s.enforcer.firewall.policies := by
  rintro ⟨name, rules⟩ mem
  have there : (name, rules) ∈ (s.enforcer.firewall.policyActions key).getD [] := by
    rw [found]
    exact mem
  obtain ⟨-, p, known, -⟩ := (h.actions.mem key name rules).1 there
  refine (h.policies name).2 ?_
  rw [known]
  rfl

theorem Inv.step (h : s.Inv enforced) (op : ManagerOp) :
    (s.step virtualIp op).Inv (enforcedBy enforced op.policyOp) := by
  cases op with
  | enforce policy rules accepted => exact h.enforce policy rules accepted
  | cease name => exact h.cease name
  | react order sub pod =>
    obtain ⟨actions, policies, rules⟩ := callback_frame virtualIp order sub pod
      fun _ => h.mem_policies
    exact h.react actions (fun name => by rw [policies]) rules

variable (virtualIp) in
theorem inv_run (ops : List ManagerOp) :
    (managerBehind virtualIp ops).Inv (enforcedBehind ops) := by
  have kept : ∀ (ops : List ManagerOp) (enforced : Table String ParsedPolicy) (s : FirewallManager),
      s.Inv enforced → (run (FirewallManager.step virtualIp) s ops).Inv
        ((ops.map ManagerOp.policyOp).foldl enforcedBy enforced) := by
    intro ops
    induction ops with
    | nil => exact fun _ _ h => h
    | cons op ops ih => exact fun _ _ h => ih _ _ (h.step op)
  exact kept ops _ _ inv_start

end FirewallManager

theorem filter_insertIdx {α : Type*} {f : α → Bool} {x : α} (dropped : f x = false) (l : List α)
    (i : ℕ) : (l.insertIdx i x).filter f = l.filter f := by
  have neg : ¬ f x = true := by
    rw [dropped]
    decide
  induction l generalizing i with
  | nil =>
    cases i with
    | zero => exact List.filter_cons_of_neg neg
    | succ i => rfl
  | cons y l ih =>
    cases i with
    | zero => exact List.filter_cons_of_neg neg
    | succ i => rw [List.insertIdx_succ_cons, List.filter_cons, List.filter_cons, ih]

theorem popPriority_insertIdx (p : PolicyPriority) {priorities : List PolicyPriority} {i : ℕ}
    (le : i ≤ priorities.length) (once : (priorities.map PolicyPriority.policyName).Nodup)
    (new : p.policyName ∉ priorities.map PolicyPriority.policyName) :
    popPriority p.policyName (priorities.insertIdx i p) = priorities := by
  have nodup : ((priorities.insertIdx i p).map PolicyPriority.policyName).Nodup := by
    rw [((List.perm_insertIdx p priorities le).map _).nodup_iff]
    exact List.nodup_cons.2 ⟨new, once⟩
  rw [popPriority_eq nodup, filter_insertIdx (by simp)]
  refine List.filter_eq_self.2 fun q hq => decide_eq_true ?_
  intro same
  exact new (same ▸ List.mem_map_of_mem hq)

theorem delete_store (actions : ActionsOf enforced fw.policyActions)
    (new : enforced policy.name = none) (absent : policy.name ∉ fw.policies)
    (none : ∀ side, fw.rules side policy.name = []) (rules : ParsedRules) :
    deletePolicyActions policy.name (deleteAllPolicyRules policy.name
      (storeRules (definePolicyActions policy fw) policy.name "" rules)) = fw := by
  obtain ⟨sameRules, samePolicies⟩ := definePolicyActions_frame policy fw
  have policies : (storeRules (definePolicyActions policy fw) policy.name "" rules).policies =
      fw.policies ++ [policy.name] := by
    unfold storeRules
    rw [samePolicies, if_neg absent]
  have templates := delete_define actions new (deleteAllPolicyRules policy.name
    (storeRules (definePolicyActions policy fw) policy.name "" rules)) rfl
  refine Firewall.ext ?_ ?_ templates
  · change (storeRules (definePolicyActions policy fw) policy.name "" rules).policies.filter
      (fun p => p ≠ policy.name) = fw.policies
    rw [policies, List.filter_append, List.filter_cons_of_neg (by simp), List.filter_nil,
      List.append_nil]
    refine List.filter_eq_self.2 fun p hp => decide_eq_true ?_
    rintro rfl
    exact absent hp
  · funext side p
    change (if p = policy.name then [] else
      (storeRules (definePolicyActions policy fw) policy.name "" rules).rules side p) = _
    split_ifs with here
    · rw [here, none side]
    · rw [storeRules_rules, if_neg here, List.append_nil, sameRules]

namespace FirewallManager

theorem Inv.unsubscribe_subscribe (h : s.Inv enforced) (new : enforced policy.name = none)
    {accepted : Bool} {s' : FirewallManager} (subs : s'.unsubscriptors = s.subscribe policy accepted)
    (actions : s'.enforcer.firewall.policyActions =
      (definePolicyActions policy s.enforcer.firewall).policyActions) :
    s'.unsubscribe policy.name = s.unsubscriptors := by
  funext key
  have others : ((s.enforcer.firewall.policyActions key).getD []).filter
      (fun a => a.1 ≠ policy.name) = (s.enforcer.firewall.policyActions key).getD [] := by
    refine List.filter_eq_self.2 fun a ha => decide_eq_true ?_
    intro here
    exact h.actions.notMem new key (List.mem_map.2 ⟨a, ha, here⟩)
  unfold FirewallManager.unsubscribe
  rw [actions, definePolicyActions_of_new h.actions new, subs]
  unfold FirewallManager.subscribe
  by_cases here : key = policy.peer.key ∧ key ≠ ""
  · rw [if_pos here]
    dsimp only
    rw [List.filter_append, others, List.filter_cons_of_neg (by simp), List.filter_nil,
      List.append_nil]
    cases old : s.enforcer.firewall.policyActions key with
    | none => rw [Option.getD_none, if_pos rfl, h.subscribed key old]
    | some actions =>
      have some : actions ≠ [] := by
        rintro rfl
        exact h.actions.nonempty key old
      rw [Option.getD_some, if_neg some, ← here.1, old, if_pos (.inr (.inl rfl))]
  · have other : ∀ v, (if policy.peer.key = "" ∨
        (s.enforcer.firewall.policyActions policy.peer.key).isSome ∨ ¬ accepted then
          s.unsubscriptors else update s.unsubscriptors policy.peer.key v) key =
        s.unsubscriptors key := by
      intro v
      split_ifs with skipped
      · rfl
      · rw [update_of_ne]
        rintro rfl
        exact here ⟨rfl, (not_or.1 skipped).1⟩
    rw [if_neg here, other]
    cases old : s.enforcer.firewall.policyActions key with
    | none => rfl
    | some actions =>
      have some : actions ≠ [] := by
        rintro rfl
        exact h.actions.nonempty key old
      rw [old, Option.getD_some] at others
      dsimp only
      rw [others, if_neg some]

theorem Inv.restored (h : s.Inv enforced) (new : enforced policy.name = none)
    (rules : ParsedRules) (accepted : Bool) :
    (s.enforcePolicy policy rules accepted).ceasePolicy policy.name = s := by
  have absent := h.new new
  have after := enforcePolicy_of_new absent rules
  have found : (s.enforcePolicy policy rules accepted).enforcer.policyDirections policy.name =
      some policy.direction := by
    rw [enforcePolicy_eq absent, after]
    exact update_self ..
  rw [ceasePolicy_eq found, enforcePolicy_eq absent]
  have notListed : policy.name ∉ s.enforcer.firewall.policies := by
    rw [h.policies, new]
    exact nofun
  have notNamed : policy.name ∉ s.enforcer.priorities.map PolicyPriority.policyName := by
    rw [h.mem_names, new]
    exact nofun
  have offset : calculatePolicyOffset policy s.enforcer.priorities ≤ s.enforcer.priorities.length := by
    rw [calculatePolicyOffset_eq]
    exact placeOf_le
  refine FirewallManager.ext ?_ (decrease_increase h.right)
    (h.unsubscribe_subscribe new rfl (by dsimp only; rw [after]; rfl))
  unfold Policies.ceasePolicy
  rw [after]
  have known : (update s.enforcer.policyDirections policy.name (some policy.direction)
      policy.name).isSome := by
    rw [update_self]
    rfl
  refine (if_pos known).trans (Enforcer.ext ?_ ?_ ?_)
  · exact delete_store h.actions new notListed (fun side => h.rules side _ new) rules
  · rw [update_idem, ← absent, update_eq_self]
  · exact popPriority_insertIdx (priorityOf policy) offset h.once notNamed

end FirewallManager

end

/-- Behind every run the counts, the default actions and the templates are those of the enforced
policies. -/
theorem accounted_of_run (ops : List ManagerOp) : Accounted virtualIp ops := by
  have inv := FirewallManager.inv_run virtualIp ops
  refine ⟨inv.count, fun d => ?_, inv.actions, fun policy rules accepted new => inv.restored new _ _⟩
  rw [inv.right, inv.count]
  exact Set.ncard_pos (inv.finite_directed d)

/-- The chain that has the name of a direction, which is not the one that `dirToChain` chooses. -/
def chainNamed : PolicyDirection → Side
  | .incoming => .ingress
  | .outgoing => .egress

def inbound : ManagerOp := .enforce (somePolicy "p" 0) ⟨[], []⟩ true

/-- The chain with the name of the direction keeps its default action; and where the policy is
enforced already, to enforce it again does nothing, and to cease it takes it away. -/
theorem not_accounted_inbound :
    (¬ ∀ virtualIp ops d,
      (managerBehind virtualIp ops).counts.defaultAction (chainNamed d) = .drop ↔
        (directed (enforcedBehind ops) d).Nonempty) ∧
    ¬ ∀ virtualIp ops policy rules accepted,
      ((managerBehind virtualIp ops).enforcePolicy policy rules accepted).ceasePolicy policy.name =
        managerBehind virtualIp ops := by
  have virtualIp : VirtualIp := fun _ => ⟨"v", by decide⟩
  constructor
  · intro all
    have drop := (all virtualIp [inbound] .incoming).2 ⟨"p", somePolicy "p" 0, rfl, rfl⟩
    have forward : (managerBehind virtualIp [inbound]).counts.defaultAction .ingress = .forward :=
      rfl
    cases drop.symm.trans forward
  · intro all
    have same := all virtualIp [inbound] (somePolicy "p" 0) ⟨[], []⟩ true
    have zero : 0 = 1 := congrArg (fun s : FirewallManager => s.counts.count .egress) same
    exact absurd zero (by decide)

end Polycube.Policies
