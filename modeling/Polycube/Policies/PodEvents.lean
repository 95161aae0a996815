import Polycube.Policies.Convergence

/-!
# The rules a pod event touches

When a pod is deleted each policy should lose the rules of its address and keep the others, and when
it is updated each policy of the peer should have the rules for its address once.  The loop that
deletes carries what it keeps from one policy to the next, and the one that adds does not look at
what is stored.
-/

namespace Polycube.Policies

open Function

open Lib K8s

variable (virtualIp : VirtualIp)

def Subscription.names (s : Subscription) (fw : Firewall) : List String :=
  ((fw.policyActions s.key).getD []).map Prod.fst

/-- Each policy has the rules that the event leaves it: a deleted pod takes its own from every
policy, one that has left the peer takes them from the policies of the peer, and any other has the
rules that are generated for it once, whatever it had before. -/
def RightRules (fw : Firewall) (s : Subscription) (pod : Peer)
    (rules : Side → String → List ChainRule) : Prop :=
  if pod.podIP = "" then rules = fw.rules
  else if pod.terminating = true then
    ∀ side policy, rules side policy = fw.others virtualIp pod.podIP side policy
  else if leaves s.podQuery pod = true then
    ∀ side policy, rules side policy = if policy ∈ s.names fw then
      fw.others virtualIp pod.podIP side policy else fw.rules side policy
  else ∀ side policy r, (rules side policy).count r =
    if r ∈ s.rules virtualIp fw pod.podIP side policy
    then (s.rules virtualIp fw pod.podIP side policy).count r
    else (fw.rules side policy).count r

/-- The event leaves the right rules, and where the pod is not deleted, it changes nothing when it
comes once more.  Each time the maps are visited in some order. -/
structure OwnRules (fw : Firewall) (order order' : List String) (s : Subscription) (pod : Peer) :
    Prop where
  right : RightRules virtualIp fw s pod (reactToPod virtualIp fw order s pod).rules
  repeated : pod.terminating = false →
    (reactToPod virtualIp (reactToPod virtualIp fw order s pod) order' s pod).rules =
      (reactToPod virtualIp fw order s pod).rules

def LastKeeps (fw : Firewall) (order : List String) (ip : String) : Prop :=
  ∀ side, ∀ policy ∈ (visited order fw.policies).dropLast,
    fw.others virtualIp ip side policy = []

/-- When the right rules are left: a deletion finds other rules in the last policy only, and when
the pod has left the peer, it has no rules in policies of other peers; and nothing is stored yet of
what is added. -/
def Leaves (fw : Firewall) (order : List String) (s : Subscription) (pod : Peer) : Prop :=
  if pod.podIP = "" then True
  else if pod.terminating = true then LastKeeps virtualIp fw order pod.podIP
  else if s.names fw = [] then True
  else if leaves s.podQuery pod = true then
    LastKeeps virtualIp fw order pod.podIP ∧
      ∀ side, ∀ policy ∈ fw.policies, policy ∉ s.names fw →
        fw.others virtualIp pod.podIP side policy = fw.rules side policy
  else ∀ side policy, ∀ r ∈ s.rules virtualIp fw pod.podIP side policy, r ∉ fw.rules side policy

/-- When the event can come once more: nothing is added, and a deletion finds other rules in the
last policy only. -/
def Repeatable (fw : Firewall) (order : List String) (s : Subscription) (pod : Peer) : Prop :=
  if pod.podIP = "" ∨ pod.terminating = true ∨ s.names fw = [] then True
  else if leaves s.podQuery pod = true then LastKeeps virtualIp fw order pod.podIP
  else ∀ side policy, s.rules virtualIp fw pod.podIP side policy = []

section

variable {about : ChainRule → Bool} {names : List String} {rules : String → List ChainRule}

/-- What is carried spoils the rules of a policy unless it is empty. -/
theorem append_filter_eq_iff {kept l : List ChainRule} (others : ∀ r ∈ kept, about r = false)
    (mine : Prop) [Decidable mine] :
    (kept ++ l.filter fun r => !about r) = (if mine then l.filter fun r => !about r else l) ↔
      kept = [] ∧ (¬ mine → (l.filter fun r => !about r) = l) := by
  by_cases h : mine
  · rw [if_pos h, List.append_left_eq_self]
    exact (and_iff_left fun no => absurd h no).symm
  · rw [if_neg h]
    constructor
    · intro same
      have clean : (l.filter fun r => !about r) = l := by
        refine List.filter_eq_self.2 fun r hr => ?_
        rw [← same, List.mem_append] at hr
        rcases hr with hr | hr
        · rw [others r hr]
          rfl
        · exact (List.mem_filter.1 hr).2
      rw [clean, List.append_left_eq_self] at same
      exact ⟨same, fun _ => clean⟩
    · rintro ⟨rfl, clean⟩
      exact clean h

/-- The loop leaves each policy its own rules if what it carries stays empty up to the last one. -/
theorem deleteFrom_right_iff {policies : List String} (nodup : policies.Nodup)
    {kept : List ChainRule} (others : ∀ r ∈ kept, about r = false) :
    (∀ policy ∈ policies, deleteFrom about policies kept rules policy =
      if policy ∈ names then (rules policy).filter fun r => !about r else rules policy) ↔
    (policies ≠ [] → kept = []) ∧
      (∀ policy ∈ policies.dropLast, ((rules policy).filter fun r => !about r) = []) ∧
      ∀ policy ∈ policies, policy ∉ names →
        ((rules policy).filter fun r => !about r) = rules policy := by
  induction policies generalizing kept rules with
  | nil => simp
  | cons p ps ih =>
    obtain ⟨absent, nodup⟩ := List.nodup_cons.1 nodup
    have others' : ∀ r ∈ kept ++ (rules p).filter fun r => !about r, about r = false := by
      intro r hr
      rcases List.mem_append.1 hr with hr | hr
      · exact others r hr
      · simpa using (List.mem_filter.1 hr).2
    have head : deleteFrom about (p :: ps) kept rules p =
        kept ++ (rules p).filter fun r => !about r := by
      unfold deleteFrom
      rw [deleteFrom_of_notMem about absent, update_self]
    -- the other policies still have their rules when they are visited
    have same : ∀ q ∈ ps, update rules p
        (kept ++ (rules p).filter fun r => !about r) q = rules q := by
      intro q hq
      refine update_of_ne ?_ _ _
      rintro rfl
      exact absent hq
    have tail : (∀ q ∈ ps, deleteFrom about (p :: ps) kept rules q =
        if q ∈ names then (rules q).filter fun r => !about r else rules q) ↔
        (ps ≠ [] → kept ++ ((rules p).filter fun r => !about r) = []) ∧
          (∀ q ∈ ps.dropLast, ((rules q).filter fun r => !about r) = []) ∧
          ∀ q ∈ ps, q ∉ names → ((rules q).filter fun r => !about r) = rules q := by
      have rest := @ih (update rules p (kept ++ (rules p).filter fun r => !about r)) nodup
        _ others'
      refine Iff.trans (forall₂_congr fun q hq => ?_) (rest.trans (and_congr_right fun _ =>
        and_congr (forall₂_congr fun q hq => ?_) (forall₂_congr fun q hq => ?_)))
      · rw [same q hq]
        rfl
      · rw [same q (List.mem_of_mem_dropLast hq)]
      · rw [same q hq]
    rw [List.forall_mem_cons, head, append_filter_eq_iff others, tail, List.forall_mem_cons]
    cases ps with
    | nil => simp
    | cons q qs =>
      rw [List.dropLast_cons_cons, List.append_eq_nil_iff]
      constructor
      · rintro ⟨⟨none, first⟩, carried, keeps, rest⟩
        refine ⟨fun _ => none, List.forall_mem_cons.2 ⟨?_, keeps⟩, first, rest⟩
        exact (carried (List.cons_ne_nil _ _)).2
      · rintro ⟨none, keeps, first, rest⟩
        obtain ⟨here, keeps⟩ := List.forall_mem_cons.1 keeps
        have none := none (List.cons_ne_nil _ _)
        exact ⟨⟨none, first⟩, fun _ => ⟨none, here⟩, keeps, rest⟩

end

/-! ### One event -/

variable {virtualIp} {fw : Firewall} {order order' : List String} {ip : String} {s : Subscription}
  {pod : Peer}

theorem Firewall.Sound.rules_of_notMem (sound : fw.Sound) {policy : String}
    (absent : policy ∉ fw.policies) (side : Side) : fw.rules side policy = [] :=
  by_contra fun some => absent (sound.listed side policy some)

theorem others_of_nil {side : Side} {policy : String} (none : fw.rules side policy = []) :
    fw.others virtualIp ip side policy = [] := by
  unfold Firewall.others
  rw [none]
  rfl

/-- When a deletion leaves some policies the rules of other addresses and all others their own. -/
theorem del_right_iff (sound : fw.Sound) (names : List String) :
    (∀ side policy, (fw.del virtualIp order ip).rules side policy =
      if policy ∈ names then fw.others virtualIp ip side policy else fw.rules side policy) ↔
    LastKeeps virtualIp fw order ip ∧ ∀ side, ∀ policy ∈ fw.policies, policy ∉ names →
      fw.others virtualIp ip side policy = fw.rules side policy := by
  have perm := visited_perm sound.nodup order
  have nodup : (visited order fw.policies).Nodup := perm.nodup_iff.2 sound.nodup
  have oneSide : ∀ side, (∀ policy, (fw.del virtualIp order ip).rules side policy =
      if policy ∈ names then fw.others virtualIp ip side policy else fw.rules side policy) ↔
      (∀ policy ∈ (visited order fw.policies).dropLast, fw.others virtualIp ip side policy = []) ∧
        ∀ policy ∈ visited order fw.policies, policy ∉ names →
          fw.others virtualIp ip side policy = fw.rules side policy := by
    intro side
    refine Iff.trans ⟨fun all policy _ => all policy, fun all policy => ?_⟩
      ((deleteFrom_right_iff nodup (fun _ h => absurd h List.not_mem_nil)).trans (and_iff_right fun _ => rfl))
    by_cases there : policy ∈ visited order fw.policies
    · exact all policy there
    · have none := sound.rules_of_notMem (mt perm.mem_iff.2 there) side
      rw [none, others_of_nil none, ite_self]
      exact (deleteFrom_of_notMem _ there _ _).trans none
  unfold LastKeeps
  rw [← forall_and]
  refine forall_congr' fun side => (oneSide side).trans (and_congr_right fun _ => ?_)
  exact forall_congr' fun policy => imp_congr_left perm.mem_iff

theorem names_eq_nil_iff : s.names fw = [] ↔
    fw.policyActions s.key = none ∨ fw.policyActions s.key = some [] := by
  unfold Subscription.names
  rw [List.map_eq_nil_iff]
  cases fw.policyActions s.key with
  | none => simp
  | some actions => simp

theorem upd_of_names (none : s.names fw = []) : fw.upd virtualIp order s pod = fw := by
  unfold Firewall.upd
  rcases names_eq_nil_iff.1 none with none | nil
  · rw [none]
  · rw [nil]

theorem upd_of_leaves (some : s.names fw ≠ []) (left : leaves s.podQuery pod = true) :
    fw.upd virtualIp order s pod = fw.del virtualIp order pod.podIP := by
  unfold Firewall.upd
  rw [Ne, names_eq_nil_iff, not_or] at some
  cases there : fw.policyActions s.key with
  | none => exact absurd there some.1
  | some actions =>
    cases actions with
    | nil => exact absurd there some.2
    | cons action actions => exact if_pos left

variable (virtualIp fw order) in
theorem upd_of_stays (stays : ¬ leaves s.podQuery pod = true) :
    (fw.upd virtualIp order s pod).policyActions = fw.policyActions ∧
    ∀ side policy, (fw.upd virtualIp order s pod).rules side policy =
      fw.rules side policy ++ s.rules virtualIp fw pod.podIP side policy := by
  unfold Firewall.upd Subscription.rules
  cases fw.policyActions s.key with
  | none => exact ⟨rfl, fun side policy => (List.append_nil _).symm⟩
  | some actions =>
    cases actions with
    | nil => exact ⟨rfl, fun side policy => (List.append_nil _).symm⟩
    | cons action actions =>
      dsimp only
      rw [if_neg stays]
      exact ⟨addAll_policyActions .., addAll_rules fw _⟩

/-- Rules that are added are there once when they have not been there. -/
theorem count_append_iff {old new : List ChainRule} :
    (∀ r, (old ++ new).count r = if r ∈ new then new.count r else old.count r) ↔
      ∀ r ∈ new, r ∉ old := by
  refine forall_congr' fun r => ?_
  rw [List.count_append]
  by_cases here : r ∈ new
  · rw [if_pos here, ← List.count_eq_zero]
    simp only [here, true_imp_iff]
    omega
  · rw [if_neg here, List.count_eq_zero.2 here]
    exact iff_of_true rfl fun h => absurd h here

theorem rightRules_iff (sound : fw.Sound) :
    RightRules virtualIp fw s pod (reactToPod virtualIp fw order s pod).rules ↔
      Leaves virtualIp fw order s pod := by
  unfold RightRules Leaves reactToPod
  by_cases address : pod.podIP = ""
  · rw [if_pos address, if_pos address, if_pos address]
    exact iff_of_true rfl trivial
  rw [if_neg address, if_neg address, if_neg address]
  by_cases ends : pod.terminating = true
  · rw [if_pos ends, if_pos ends, if_pos ends]
    refine Iff.trans (forall₂_congr fun side policy => ?_)
      ((del_right_iff sound fw.policies).trans (and_iff_left fun _ _ here no => absurd here no))
    split_ifs with there
    · exact Iff.rfl
    · have none := sound.rules_of_notMem there side
      rw [none, others_of_nil none]
  rw [if_neg ends, if_neg ends, if_neg ends]
  by_cases left : leaves s.podQuery pod = true
  · rw [if_pos left]
    by_cases none : s.names fw = []
    · rw [if_pos none, upd_of_names none, none]
      exact iff_of_true (fun _ _ => rfl) trivial
    · rw [if_neg none, if_pos left, upd_of_leaves none left]
      exact del_right_iff sound _
  · rw [if_neg left, if_neg left]
    have added := (upd_of_stays virtualIp fw order left).2
    simp only [added, count_append_iff]
    split_ifs with none
    · refine iff_of_true (fun side policy r mem => ?_) trivial
      obtain ⟨a, ha, -⟩ := List.mem_flatMap.1 mem
      have nil := List.map_eq_nil_iff.1 none
      rw [nil] at ha
      exact absurd ha List.not_mem_nil
    · exact Iff.rfl

theorem rules_of_left (sound : fw.Sound) (last : LastKeeps virtualIp fw order ip)
    (others : ∀ side, ∀ policy ∈ fw.policies, policy ∉ s.names fw →
      fw.others virtualIp ip side policy = fw.rules side policy) (side : Side) (policy : String) :
    (fw.del virtualIp order ip).rules side policy = fw.others virtualIp ip side policy := by
  rw [(del_right_iff sound _).2 ⟨last, others⟩]
  split_ifs with mine
  · rfl
  · by_cases there : policy ∈ fw.policies
    · exact (others side policy there mine).symm
    · have none := sound.rules_of_notMem there side
      rw [none, others_of_nil none]

/-- When an event that has left the right rules changes nothing once more. -/
theorem repeated_iff (sound : fw.Sound) (right : Leaves virtualIp fw order s pod) :
    (pod.terminating = false →
      (reactToPod virtualIp (reactToPod virtualIp fw order s pod) order' s pod).rules =
        (reactToPod virtualIp fw order s pod).rules) ↔ Repeatable virtualIp fw order' s pod := by
  unfold Repeatable
  unfold Leaves at right
  unfold reactToPod
  by_cases address : pod.podIP = ""
  · rw [if_pos address, if_pos address, if_pos (.inl address)]
    exact iff_of_true (fun _ => rfl) trivial
  rw [if_neg address] at right
  by_cases ends : pod.terminating = true
  · refine iff_of_true (fun alive => absurd (ends.symm.trans alive) (by decide)) ?_
    rw [if_pos (.inr (.inl ends))]
    trivial
  rw [if_neg ends] at right
  have alive : pod.terminating = false := Bool.eq_false_iff.2 ends
  rw [if_neg address, if_neg address, if_neg ends, if_neg ends, forall_prop_of_true alive]
  by_cases none : s.names fw = []
  · rw [upd_of_names none, upd_of_names none, if_pos (.inr (.inr none))]
    exact iff_of_true rfl trivial
  rw [if_neg none] at right
  rw [if_neg (by simp [address, ends, none])]
  by_cases left : leaves s.podQuery pod = true
  · rw [if_pos left] at right ⊢
    have rules := rules_of_left sound right.1 right.2
    rw [upd_of_leaves none left]
    set after := fw.del virtualIp order pod.podIP with hafter
    have same : ∀ side policy, after.others virtualIp pod.podIP side policy =
        fw.others virtualIp pod.podIP side policy := by
      intro side policy
      have filtered := rules side policy
      unfold Firewall.others at filtered ⊢
      rw [filtered, List.filter_filter]
      simp
    have sound' : after.Sound := by
      refine ⟨sound.nodup, fun side policy some => sound.listed side policy fun nil => some ?_⟩
      rw [rules, others_of_nil nil]
    have names : s.names after ≠ [] := none
    rw [upd_of_leaves names left]
    have again := @del_right_iff virtualIp after order' pod.podIP sound' []
    have last : LastKeeps virtualIp after order' pod.podIP ↔
        LastKeeps virtualIp fw order' pod.podIP :=
      forall₂_congr fun side policy => by rw [same]; rfl
    rw [← last, ← and_iff_left (a := LastKeeps virtualIp after order' pod.podIP)
      (fun side policy _ _ => (same side policy).trans (rules side policy).symm), ← again]
    simp only [List.not_mem_nil, if_false]
    exact ⟨fun eq side policy => by rw [eq], fun eq => funext₂ eq⟩
  · rw [if_neg left]
    obtain ⟨actions, rules⟩ := upd_of_stays virtualIp fw order left
    obtain ⟨-, again⟩ := upd_of_stays virtualIp (fw.upd virtualIp order s pod) order' left
    have generated : ∀ side policy,
        s.rules virtualIp (fw.upd virtualIp order s pod) pod.podIP side policy =
          s.rules virtualIp fw pod.podIP side policy := by
      intro side policy
      unfold Subscription.rules
      rw [actions]
    constructor
    · intro eq side policy
      have two := again side policy
      rw [eq, generated] at two
      exact List.self_eq_append_right.1 two
    · intro nothing
      funext side policy
      rw [again, generated, nothing, List.append_nil]

/-- In every state, for every event, the rules of each policy are right and the event can come once
more under these conditions only. -/
theorem ownRules_iff (virtualIp : VirtualIp) (fw : Firewall) (sound : fw.Sound)
    (order order' : List String) (s : Subscription) (pod : Peer) :
    OwnRules virtualIp fw order order' s pod ↔
      Leaves virtualIp fw order s pod ∧ Repeatable virtualIp fw order' s pod := by
  constructor
  · rintro ⟨right, repeated⟩
    have leaves := (rightRules_iff sound).1 right
    exact ⟨leaves, (repeated_iff sound leaves).1 repeated⟩
  · rintro ⟨leaves, repeatable⟩
    exact ⟨(rightRules_iff sound).2 leaves, (repeated_iff sound leaves).2 repeatable⟩

def otherRule : ChainRule := ⟨"10.0.0.9", "10.0.0.9", some .tcp, 0, 80, "new", .forward, ""⟩

def someFirewall (policies : List String) : Firewall where
  policies := policies
  rules _ policy := if policy ∈ policies then [otherRule] else []
  policyActions key := if key = "web" then some [("p", someTemplates)] else none

theorem someFirewall_sound {policies : List String} (nodup : policies.Nodup) :
    (someFirewall policies).Sound := by
  refine ⟨nodup, fun side policy some => ?_⟩
  by_contra absent
  exact some (if_neg absent)

/-- The policy that is visited first has a rule of the pod only. -/
def ownFirewall : Firewall :=
  { someFirewall ["q"] with
    policies := ["p", "q"]
    rules := fun _ policy =>
      if policy = "p" then [{ otherRule with src := "10.0.0.5", dst := "10.0.0.5" }]
      else if policy = "q" then [otherRule] else [] }

theorem ownFirewall_sound : ownFirewall.Sound := by
  refine ⟨by decide, fun side policy some => ?_⟩
  by_contra absent
  have other : policy ≠ "p" ∧ policy ≠ "q" := by simpa [ownFirewall] using absent
  exact some ((if_neg other.1).trans (if_neg other.2))

/-- A deletion is right when the last policy alone has rules of other pods. -/
theorem ownRules_twoPolicies : OwnRules someVirtualIp ownFirewall [] []
    (someSubscription "web") { somePeer "web" with terminating := true } := by
  have leaves : Leaves someVirtualIp ownFirewall [] (someSubscription "web")
      { somePeer "web" with terminating := true } := by
    intro side policy first
    have p : policy = "p" := List.mem_singleton.1 first
    rw [p]
    cases side <;> decide +kernel
  exact (ownRules_iff _ _ ownFirewall_sound _ _ _ _).2 ⟨leaves, trivial⟩

/-- With two policies a deletion puts the rule of the first one into the list of the other, and an
update that is repeated stores its rules again. -/
theorem not_ownRules_twoPolicies :
    (¬ OwnRules someVirtualIp (someFirewall ["p", "q"]) [] [] (someSubscription "web")
      { somePeer "web" with terminating := true }) ∧
    ¬ OwnRules someVirtualIp (someFirewall ["p"]) [] [] (someSubscription "web")
      (somePeer "web") := by
  constructor
  · rintro ⟨right, -⟩
    have two := congrArg List.length (right .ingress "q")
    exact absurd two (by decide +kernel)
  · rintro ⟨-, repeated⟩
    have three := congrArg List.length (congrFun (congrFun (repeated rfl) .egress) "p")
    exact absurd three (by decide +kernel)

end Polycube.Policies
