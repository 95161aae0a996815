import Polycube.K8s.Parser
import Polycube.Lib.Run
import Polycube.Policies.Reactions

/-!
# How the policy manager reacts to namespaces that are relabelled

A parsed policy whose peer is in namespaces with some labels has a callback subscribed to the
updates of namespaces.  The callback takes what it tests from the variable of the loop that has
deployed the policy, which is one variable for all of the loop; and the subscription is stored
under the name of the parsed policy, and looked for under that of its parent when it should go.
-/

namespace Polycube.Policies

open Function

open Lib K8s

/-- A policy with what the parsers make of it.  Names in Kubernetes have no `#`. -/
structure SourcePolicy where
  name : String
  nameSpace : String
  provider : String
  ingress : List ParsedPolicy
  egress : List ParsedPolicy
  parsed : ∀ p ∈ ingress ++ egress, p.parentPolicy.name = name ∧
    p.parentPolicy.provider = provider ∧ p.subject.nameSpace = nameSpace ∧
    ∃ s, p.name = name ++ "#" ++ s
  plain : '#' ∉ name.toList

def SourcePolicy.id (P : SourcePolicy) : Bool × String × String :=
  (P.provider = "k8s", P.nameSpace, P.name)

def SourcePolicy.all (P : SourcePolicy) : List ParsedPolicy := P.ingress ++ P.egress

structure NsCallback where
  id : ℕ
  var : ℕ
  policy : ParsedPolicy

/-- The policies there are, the loop variables, the callbacks subscribed, and
`policyUnsubscriptors`, by the name of the parsed policy and by the labels. -/
structure NsManager where
  deployed : List SourcePolicy
  vars : ℕ → Option ParsedPolicy
  nextVar : ℕ
  subscribers : List NsCallback
  nextId : ℕ
  unsubscriptors : List ((String × String) × ℕ)
  crashed : Bool

def NsManager.start : NsManager := ⟨[], fun _ => none, 0, [], 0, [], false⟩

/-- `localFirewalls`, by the labels and the namespace of their pods. -/
abbrev Firewalls := List (Labels × String)

variable (firewalls : Firewalls)

def checkFwManager (policy : ParsedPolicy) (fw : Labels × String) : Bool :=
  fw.2 == policy.subject.nameSpace &&
    match policy.subject.query with
    | none => true
    | some q => areLabelsContained (queryLabels q) fw.1

def watched (policy : ParsedPolicy) : Option Labels :=
  if firewalls.any (checkFwManager policy) ∧ policy.peer.key ≠ "" then
    match policy.peer.nameSpace with
    | some (.labels l) => if l = [] then none else some l
    | _ => none
  else none

/-- `deployPolicyToFw` of the value of a variable.  `nsKey` are the labels imploded: their order is
not sorted, and may be another one each time. -/
def deployPolicyToFw (nsKey : ParsedPolicy → String) (var : ℕ) (m : NsManager)
    (policy : ParsedPolicy) : NsManager :=
  match watched firewalls policy with
  | none => m
  | some _ =>
    if (m.unsubscriptors.lookup (policy.name, nsKey policy)).isSome then m
    else
      { m with
        subscribers := m.subscribers ++ [⟨m.nextId, var, policy⟩]
        nextId := m.nextId + 1
        unsubscriptors := m.unsubscriptors ++ [((policy.name, nsKey policy), m.nextId)] }

def NsManager.assign (m : NsManager) (var : ℕ) (policy : ParsedPolicy) : NsManager :=
  { m with vars := update m.vars var (some policy) }

/-- `for _, in := range policies { manager.deployPolicyToFw(&in, "") }`, from a turn on. -/
def deployTurns (nsKey : ParsedPolicy → String) (var : ℕ) :
    List ParsedPolicy → NsManager → NsManager
  | [], m => m
  | policy :: policies, m =>
    deployTurns nsKey var policies
      (deployPolicyToFw firewalls nsKey var (m.assign var policy) policy)

def deployLoop (nsKey : ParsedPolicy → String) (policies : List ParsedPolicy) (m : NsManager) :
    NsManager :=
  deployTurns firewalls nsKey m.nextVar policies { m with nextVar := m.nextVar + 1 }

/-- `DeployK8sPolicy`, `DeployPcnPolicy` -/
def deployPolicy (nsKey : ParsedPolicy → String) (P : SourcePolicy) (m : NsManager) : NsManager :=
  deployLoop firewalls nsKey P.egress (deployLoop firewalls nsKey P.ingress m)

/-- `unsubFunc`: it looks under the name of the parent. -/
def unsubscribe (name : String) (m : NsManager) : NsManager :=
  { m with
    subscribers := m.subscribers.filter fun s =>
      !m.unsubscriptors.any fun e => e.1.1 == name && e.2 == s.id
    unsubscriptors := m.unsubscriptors.filter fun e => e.1.1 != name }

/-- `RemoveK8sPolicy`, `RemovePcnPolicy`: if a firewall enforces one of the parsed policies. -/
def removePolicy (P : SourcePolicy) (m : NsManager) : NsManager :=
  if P.all.any fun p => firewalls.any (checkFwManager p) then unsubscribe P.name m else m

def parentId (policy : ParsedPolicy) : Bool × String × String :=
  (policy.parentPolicy.provider = "k8s", policy.subject.nameSpace, policy.parentPolicy.name)

inductive Reaction
  /-- the variable has no query for namespaces, and its labels are read -/
  | crash
  | nothing
  | redeploy (id : Bool × String × String)
  deriving DecidableEq

/-- `strings.Split(policyName, "#")[0]` -/
def parentPolicyName (policyName : String) : String :=
  String.ofList (policyName.toList.takeWhile (· ≠ '#'))

/-- `handleNamespaceUpdate`, as it is called for the variable. -/
def handleNamespaceUpdate (policy : ParsedPolicy) (ns prev : Labels) : Reaction :=
  match policy.peer.nameSpace with
  | none => .crash
  | some q =>
    if areLabelsContained (queryLabels q) prev = areLabelsContained (queryLabels q) ns then .nothing
    else .redeploy (policy.parentPolicy.provider = "k8s", policy.subject.nameSpace,
      parentPolicyName policy.name)

def NsManager.find (m : NsManager) (id : Bool × String × String) : Option SourcePolicy :=
  m.deployed.find? fun P => P.id = id

def redeploy (nsKey : ParsedPolicy → String) (id : Bool × String × String) (m : NsManager) :
    NsManager :=
  match m.find id with
  | none => m
  | some P => deployPolicy firewalls nsKey P (removePolicy firewalls P m)

def react (nsKey : ParsedPolicy → String) (m : NsManager) : Reaction → NsManager
  | .crash => { m with crashed := true }
  | .nothing => m
  | .redeploy id => redeploy firewalls nsKey id m

def NsManager.reaction (m : NsManager) (s : NsCallback) (ns prev : Labels) : Reaction :=
  match m.vars s.var with
  | none => .nothing
  | some policy => handleNamespaceUpdate policy ns prev

def runCallback (ns prev : Labels) (m : NsManager) (call : NsCallback × (ParsedPolicy → String)) :
    NsManager :=
  react firewalls call.2 m (m.reaction call.1 ns prev)

/-- What happens in the cluster.  The callbacks of an update of a namespace run in threads of their
own: `order` says which is next, by its place, and how it goes through the labels. -/
inductive NsOp
  | deploy (P : SourcePolicy) (nsKey : ParsedPolicy → String)
  | remove (P : SourcePolicy)
  | relabel (ns prev : Labels) (order : List (ℕ × (ParsedPolicy → String)))

def NsManager.step (m : NsManager) : NsOp → NsManager
  | .deploy P nsKey => deployPolicy firewalls nsKey P { m with deployed := m.deployed ++ [P] }
  | .remove P =>
    removePolicy firewalls P { m with deployed := m.deployed.filter fun Q => Q.id ≠ P.id }
  | .relabel ns prev order =>
    (order.filterMap fun c => m.subscribers[c.1]?.map fun s => (s, c.2)).foldl
      (runCallback firewalls ns prev) m

def due (policy : ParsedPolicy) (ns prev : Labels) : Reaction :=
  match policy.peer.nameSpace with
  | some (.labels l) =>
    if areLabelsContained (some l) prev = areLabelsContained (some l) ns then .nothing
    else .redeploy (parentId policy)
  | _ => .nothing

structure Exact (m : NsManager) : Prop where
  own : ∀ s ∈ m.subscribers, ∀ ns prev, m.reaction s ns prev = due s.policy ns prev
  parent : ∀ s ∈ m.subscribers, ∃ P ∈ m.deployed, s.policy ∈ P.all ∧
    m.find (parentId s.policy) = some P
  concerned : ∀ P ∈ m.deployed, ∀ p ∈ P.all, (watched firewalls p).isSome →
    ∃ s ∈ m.subscribers, s.policy = p
  alive : m.crashed = false

def LastAgrees (policies : List ParsedPolicy) : Prop :=
  ∀ p ∈ policies, ∀ l, watched firewalls p = some l →
    ∃ q, policies.getLast? = some q ∧ ∃ l', q.peer.nameSpace = some (.labels l') ∧
      ∀ x, x ∈ l' ↔ x ∈ l

def KeysFree (nsKey : ParsedPolicy → String) (policies : List ParsedPolicy)
    (unsubscriptors : List ((String × String) × ℕ)) : Prop :=
  (∀ p ∈ policies, (watched firewalls p).isSome →
    unsubscriptors.lookup (p.name, nsKey p) = none) ∧
  ((policies.filter fun p => (watched firewalls p).isSome).map fun p => (p.name, nsKey p)).Nodup

/-- A policy is new, in its loops the last policy agrees with those that watch namespaces, and none
of these finds its key taken; and none that is removed has watched a namespace. -/
def FineNs (m : NsManager) : NsOp → Prop
  | .deploy P nsKey => (∀ Q ∈ m.deployed, Q.id ≠ P.id) ∧ LastAgrees firewalls P.ingress ∧
      LastAgrees firewalls P.egress ∧ KeysFree firewalls nsKey P.all m.unsubscriptors
  | .remove P => ∀ s ∈ m.subscribers, parentId s.policy ≠ P.id
  | .relabel _ _ _ => True

section Callbacks

variable {firewalls} {p q : ParsedPolicy} {P : SourcePolicy}

theorem parentPolicyName_of_plain {name s : String} (plain : '#' ∉ name.toList) :
    parentPolicyName (name ++ "#" ++ s) = name := by
  unfold parentPolicyName
  have taken : (name ++ "#" ++ s).toList.takeWhile (· ≠ '#') = name.toList := by
    rw [String.toList_append, String.toList_append, List.append_assoc,
      List.takeWhile_append_of_pos fun c hc => ?_]
    · simp
    · exact decide_eq_true (p := c ≠ '#') fun h => plain (h ▸ hc)
  rw [taken, String.ofList_toList]

theorem parentId_of_mem (hp : p ∈ P.all) : parentId p = P.id := by
  obtain ⟨hn, hpr, hs, -⟩ := P.parsed p hp
  unfold parentId SourcePolicy.id
  rw [hn, hpr, hs]

/-- A variable with the policy `q` does what the callback of `p` has to do. -/
structure Agrees (q p : ParsedPolicy) : Prop where
  provider : q.parentPolicy.provider = p.parentPolicy.provider
  nameSpace : q.subject.nameSpace = p.subject.nameSpace
  parent : parentPolicyName q.name = p.parentPolicy.name
  labels : ∃ l l', p.peer.nameSpace = some (.labels l) ∧ q.peer.nameSpace = some (.labels l') ∧
    ∀ x, x ∈ l' ↔ x ∈ l

/-- Labels are contained or not, whatever their order is. -/
theorem areLabelsContained_congr {l l' : Labels} (h : ∀ x, x ∈ l' ↔ x ∈ l) (labels : Labels) :
    areLabelsContained (some l') labels = areLabelsContained (some l) labels := by
  have empty : l' = [] ↔ l = [] := by
    rw [List.eq_nil_iff_forall_not_mem, List.eq_nil_iff_forall_not_mem]
    exact forall_congr' fun x => not_congr (h x)
  unfold areLabelsContained
  dsimp only
  rw [if_congr empty rfl rfl]
  split_ifs
  · rfl
  · rw [Bool.eq_iff_iff, List.all_eq_true, List.all_eq_true]
    exact forall_congr' fun x => by rw [h x]

theorem Agrees.handle (h : Agrees q p) (ns prev : Labels) :
    handleNamespaceUpdate q ns prev = due p ns prev := by
  obtain ⟨l, l', hp, hq, same⟩ := h.labels
  unfold handleNamespaceUpdate due
  rw [hp, hq]
  show (if areLabelsContained (some l') prev = areLabelsContained (some l') ns then _ else
    Reaction.redeploy (q.parentPolicy.provider = "k8s", q.subject.nameSpace,
      parentPolicyName q.name)) = _
  rw [areLabelsContained_congr same, areLabelsContained_congr same, h.provider, h.nameSpace,
    h.parent]
  rfl

theorem watched_labels {l : Labels} (h : watched firewalls p = some l) :
    p.peer.nameSpace = some (.labels l) := by
  unfold watched at h
  split at h
  · split at h
    · rename_i l' hq
      split_ifs at h
      rw [hq, Option.some.inj h]
    · cases h
  · cases h

theorem agrees_of_last {policies : List ParsedPolicy} (sub : policies ⊆ P.all)
    (last : LastAgrees firewalls policies) (hp : p ∈ policies)
    (hw : (watched firewalls p).isSome) : ∃ q, policies.getLast? = some q ∧ Agrees q p := by
  obtain ⟨l, hl⟩ := Option.isSome_iff_exists.1 hw
  obtain ⟨q, hq, l', hl', same⟩ := last p hp l hl
  obtain ⟨hn, hpr, hs, -⟩ := P.parsed p (sub hp)
  obtain ⟨-, hqpr, hqs, s, hqn⟩ := P.parsed q (sub (List.mem_of_getLast? hq))
  refine ⟨q, hq, hqpr.trans hpr.symm, hqs.trans hs.symm, ?_, l, l', watched_labels hl, hl', same⟩
  rw [hqn, parentPolicyName_of_plain P.plain, hn]

end Callbacks

/-! ### The policies of Kubernetes -/

section Kubernetes

variable {policy : NetworkPolicy} {d : PolicyDirection}

structure Based (policy : NetworkPolicy) (p : ParsedPolicy) : Prop where
  parent : p.parentPolicy.name = policy.name
  provider : p.parentPolicy.provider = "k8s"
  nameSpace : p.subject.nameSpace = policy.nameSpace

structure Named (policy : NetworkPolicy) (p : ParsedPolicy) : Prop extends Based policy p where
  name : ∃ s, p.name = policy.name ++ "#" ++ s

theorem reformatPolicyName_eq (d : PolicyDirection) (name : String) (n count : ℕ) :
    ∃ s, reformatPolicyName name d n count = name ++ "#" ++ s := by
  unfold reformatPolicyName
  cases d
  · exact ⟨toString n ++ ("i" ++ ("p" ++ toString count)), by simp only [String.append_assoc]⟩
  · exact ⟨toString n ++ ("e" ++ ("p" ++ toString count)), by simp only [String.append_assoc]⟩

structure NamedState (policy : NetworkPolicy) (st : PeerState) : Prop where
  policies : ∀ p ∈ st.policies, Named policy p
  newPolicy : Named policy st.newPolicy

theorem NamedState.parseIPBlock {st : PeerState} (h : NamedState policy st) (i : ℕ)
    (block : IPBlock) : NamedState policy (parseIPBlock policy d i st block) := by
  obtain ⟨all, base, name⟩ := h
  unfold K8s.parseIPBlock
  dsimp only
  split
  · refine ⟨all, ⟨base.parent, base.provider, base.nameSpace⟩, ?_⟩
    cases d
    · exact reformatPolicyName_eq .incoming policy.name i st.peerID
    · exact name
  · refine ⟨fun p hp => ?_, ⟨base.parent, base.provider, base.nameSpace⟩, ?_⟩
    · rcases List.mem_append.1 hp with hp | hp
      · exact all p hp
      · rw [List.mem_singleton.1 hp]
        exact ⟨⟨base.parent, base.provider, base.nameSpace⟩, name⟩
    · cases d
      · exact reformatPolicyName_eq .incoming policy.name i (st.peerID + 1)
      · exact name

theorem NamedState.parseSelectors {st : PeerState} (h : NamedState policy st)
    (p : NetworkPolicyPeer) : NamedState policy (parseSelectors policy st p) := by
  obtain ⟨all, base, name⟩ := h
  unfold K8s.parseSelectors
  split_ifs
  · split
    · exact ⟨all, ⟨base.parent, base.provider, base.nameSpace⟩, name⟩
    · exact ⟨all, base, name⟩
  · exact ⟨all, base, name⟩

theorem namedState_parsePeer {st : PeerState} (x : NetworkPolicyPeer × ℕ)
    (all : ∀ p ∈ st.policies, Named policy p) (base : Based policy st.newPolicy) :
    NamedState policy (parsePeer policy d st x) := by
  obtain ⟨peer, i⟩ := x
  have named : NamedState policy { st with newPolicy := { st.newPolicy with
      name := reformatPolicyName policy.name d i st.peerID } } :=
    ⟨all, ⟨base.parent, base.provider, base.nameSpace⟩, reformatPolicyName_eq ..⟩
  have added : ∀ {st : PeerState}, NamedState policy st → NamedState policy
      { st with policies := st.policies ++ [st.newPolicy], peerID := st.peerID + 1 } := by
    intro st h
    refine ⟨fun p hp => ?_, h.newPolicy⟩
    rcases List.mem_append.1 hp with hp | hp
    · exact h.policies p hp
    · rw [List.mem_singleton.1 hp]
      exact h.newPolicy
  unfold parsePeer
  dsimp only
  split
  · exact added (named.parseSelectors peer)
  · exact added ((named.parseIPBlock i _).parseSelectors peer)

theorem named_parsePeers {st : PeerState} (peers : List (NetworkPolicyPeer × ℕ))
    (all : ∀ p ∈ st.policies, Named policy p) (base : Based policy st.newPolicy) :
    ∀ p ∈ (peers.foldl (parsePeer policy d) st).policies, Named policy p := by
  induction peers generalizing st with
  | nil => exact all
  | cons x peers ih =>
    have named := namedState_parsePeer (d := d) x all base
    exact ih named.policies named.newPolicy.toBased

theorem based_ruleBase (ports : List ProtoPort) (peerID : ℕ) :
    Based policy (ruleBase policy d ports peerID) :=
  ⟨rfl, rfl, rfl⟩

theorem named_parseRule {st : List ParsedPolicy × ℕ} (rule : NetworkPolicyRule)
    (all : ∀ p ∈ st.1, Named policy p) : ∀ p ∈ (parseRule policy d st rule).1, Named policy p := by
  obtain ⟨policies, peerID⟩ := st
  unfold parseRule
  dsimp only
  split_ifs
  · exact all
  · split
    · intro p hp
      rcases List.mem_append.1 hp with hp | hp
      · exact all p hp
      · rw [List.mem_singleton.1 hp]
        exact ⟨⟨rfl, rfl, rfl⟩, reformatPolicyName_eq ..⟩
    · exact named_parsePeers _ all (based_ruleBase ..)

theorem named_parseRules (rules : List NetworkPolicyRule) :
    ∀ p ∈ parseRules policy d rules, Named policy p := by
  have fold : ∀ (st : List ParsedPolicy × ℕ), (∀ p ∈ st.1, Named policy p) →
      ∀ p ∈ (rules.foldl (parseRule policy d) st).1, Named policy p := by
    induction rules with
    | nil => exact fun _ all => all
    | cons rule rules ih => exact fun st all => ih _ (named_parseRule rule all)
  unfold parseRules
  split_ifs
  · intro p hp
    rw [List.mem_singleton.1 hp]
    exact ⟨⟨rfl, rfl, rfl⟩, reformatPolicyName_eq ..⟩
  · exact fold _ (by simp)

theorem named_parseK8s :
    ∀ p ∈ parseK8sIngress policy ++ parseK8sEgress policy, Named policy p := by
  intro p hp
  unfold parseK8sIngress parseK8sEgress at hp
  dsimp only at hp
  rcases List.mem_append.1 hp with hp | hp
  · split_ifs at hp
    · cases hp
    · exact named_parseRules _ p hp
  · split_ifs at hp
    · cases hp
    · exact named_parseRules _ p hp

def SourcePolicy.ofK8s (policy : NetworkPolicy) (plain : '#' ∉ policy.name.toList) :
    SourcePolicy where
  name := policy.name
  nameSpace := policy.nameSpace
  provider := "k8s"
  ingress := parseK8sIngress policy
  egress := parseK8sEgress policy
  parsed p hp :=
    have named := named_parseK8s p hp
    ⟨named.parent, named.provider, named.nameSpace, named.name⟩
  plain := plain

/-- A policy parsed from one of Kubernetes asks, when namespaces are relabelled, to redeploy that
one or nothing. -/
theorem redeploys_ofK8s (policy : NetworkPolicy) (plain : '#' ∉ policy.name.toList)
    {p : ParsedPolicy} (parsed : p ∈ parseK8sIngress policy ++ parseK8sEgress policy)
    (ns prev : Labels) {id : Bool × String × String}
    (asks : handleNamespaceUpdate p ns prev = .redeploy id) :
    id = (SourcePolicy.ofK8s policy plain).id := by
  obtain ⟨⟨-, provider, nameSpace⟩, s, name⟩ := named_parseK8s p parsed
  unfold handleNamespaceUpdate at asks
  split at asks
  · cases asks
  · split_ifs at asks
    obtain rfl := Reaction.redeploy.inj asks
    rw [provider, nameSpace, name, parentPolicyName_of_plain plain]
    rfl

def fromTeam : NetworkPolicy where
  name := "np"
  nameSpace := "default"
  creationTimestamp := 0
  spec := ⟨⟨[], none⟩, some [⟨[], some [⟨none, some ⟨[("team", "a")], none⟩, none⟩]⟩], none, none⟩

theorem redeploys_ofK8s_fromTeam :
    (true, "default", "np") = (SourcePolicy.ofK8s fromTeam (by decide)).id :=
  redeploys_ofK8s fromTeam (by decide) (List.mem_append_left _ (List.mem_of_mem_head? rfl))
    [("team", "a")] [] (by decide +kernel)

end Kubernetes

/-! ### Deploying -/

section Deploy

variable {firewalls} {nsKey : ParsedPolicy → String} {policies : List ParsedPolicy} {var : ℕ}
  {m m' : NsManager} {P : SourcePolicy}

variable (firewalls) in
structure Grows (nsKey : ParsedPolicy → String) (var : ℕ) (policies : List ParsedPolicy)
    (m m' : NsManager) : Prop where
  deployed : m'.deployed = m.deployed
  nextVar : m'.nextVar = m.nextVar
  crashed : m'.crashed = m.crashed
  others : ∀ v, v ≠ var → m'.vars v = m.vars v
  subscribers : ∃ new, m'.subscribers = m.subscribers ++ new ∧
    ∀ s ∈ new, s.var = var ∧ s.policy ∈ policies ∧ (watched firewalls s.policy).isSome
  unsubscriptors : ∃ new, m'.unsubscriptors = m.unsubscriptors ++ new ∧
    ∀ e ∈ new, ∃ p ∈ policies, (watched firewalls p).isSome ∧ e.1 = (p.name, nsKey p)

variable (firewalls nsKey var m) in
theorem grows_deployPolicyToFw (p : ParsedPolicy) :
    Grows firewalls nsKey var [p] m
      (deployPolicyToFw firewalls nsKey var (m.assign var p) p) := by
  have others : ∀ v, v ≠ var → (m.assign var p).vars v = m.vars v :=
    fun v hv => update_of_ne hv ..
  unfold deployPolicyToFw
  split
  · exact ⟨rfl, rfl, rfl, others, ⟨[], (List.append_nil _).symm, by simp⟩,
      ⟨[], (List.append_nil _).symm, by simp⟩⟩
  · rename_i l hw
    split_ifs
    · exact ⟨rfl, rfl, rfl, others, ⟨[], (List.append_nil _).symm, by simp⟩,
        ⟨[], (List.append_nil _).symm, by simp⟩⟩
    · refine ⟨rfl, rfl, rfl, others, ⟨_, rfl, ?_⟩, ⟨_, rfl, ?_⟩⟩
      · intro s hs
        rw [List.mem_singleton.1 hs]
        exact ⟨rfl, List.mem_singleton_self p, by rw [hw]; rfl⟩
      · intro e he
        rw [List.mem_singleton.1 he]
        exact ⟨p, List.mem_singleton_self p, by rw [hw]; rfl, rfl⟩

theorem Grows.trans {policies' : List ParsedPolicy} {m'' : NsManager}
    (h : Grows firewalls nsKey var policies m m')
    (h' : Grows firewalls nsKey var policies' m' m'') :
    Grows firewalls nsKey var (policies ++ policies') m m'' where
  deployed := h'.deployed.trans h.deployed
  nextVar := h'.nextVar.trans h.nextVar
  crashed := h'.crashed.trans h.crashed
  others v hv := (h'.others v hv).trans (h.others v hv)
  subscribers := by
    obtain ⟨new, hs, hn⟩ := h.subscribers
    obtain ⟨new', hs', hn'⟩ := h'.subscribers
    refine ⟨new ++ new', by rw [hs', hs, List.append_assoc], fun s hm => ?_⟩
    rcases List.mem_append.1 hm with hm | hm
    · obtain ⟨hv, hp, hw⟩ := hn s hm
      exact ⟨hv, List.mem_append_left _ hp, hw⟩
    · obtain ⟨hv, hp, hw⟩ := hn' s hm
      exact ⟨hv, List.mem_append_right _ hp, hw⟩
  unsubscriptors := by
    obtain ⟨new, hs, hn⟩ := h.unsubscriptors
    obtain ⟨new', hs', hn'⟩ := h'.unsubscriptors
    refine ⟨new ++ new', by rw [hs', hs, List.append_assoc], fun e hm => ?_⟩
    rcases List.mem_append.1 hm with hm | hm
    · obtain ⟨p, hp, hw⟩ := hn e hm
      exact ⟨p, List.mem_append_left _ hp, hw⟩
    · obtain ⟨p, hp, hw⟩ := hn' e hm
      exact ⟨p, List.mem_append_right _ hp, hw⟩

theorem grows_nil : Grows firewalls nsKey var [] m m :=
  ⟨rfl, rfl, rfl, fun _ _ => rfl, ⟨[], (List.append_nil _).symm, by simp⟩,
    ⟨[], (List.append_nil _).symm, by simp⟩⟩

variable (firewalls nsKey policies var m) in
theorem grows_deployTurns :
    Grows firewalls nsKey var policies m (deployTurns firewalls nsKey var policies m) := by
  induction policies generalizing m with
  | nil => exact grows_nil
  | cons p policies ih => exact (grows_deployPolicyToFw firewalls nsKey var m p).trans (ih _)

theorem Grows.mem (h : Grows firewalls nsKey var policies m m') {s : NsCallback}
    (hs : s ∈ m.subscribers) : s ∈ m'.subscribers := by
  obtain ⟨new, hn, -⟩ := h.subscribers
  rw [hn]
  exact List.mem_append_left _ hs

theorem vars_deployPolicyToFw (p : ParsedPolicy) :
    (deployPolicyToFw firewalls nsKey var m p).vars = m.vars := by
  unfold deployPolicyToFw
  split
  · rfl
  · split_ifs <;> rfl

theorem vars_assign (p : ParsedPolicy) : (m.assign var p).vars var = some p :=
  update_self ..

theorem vars_deployTurns :
    (deployTurns firewalls nsKey var policies m).vars var =
      policies.getLast?.or (m.vars var) := by
  induction policies generalizing m with
  | nil => rfl
  | cons p policies ih =>
    unfold deployTurns
    rw [ih, vars_deployPolicyToFw, vars_assign, List.getLast?_cons]
    cases policies.getLast? <;> rfl

/-- The keys of the policies after `qs`, once those of `qs` are stored. -/
theorem KeysFree.after {qs : List ParsedPolicy} {unsubscriptors new : List ((String × String) × ℕ)}
    (free : KeysFree firewalls nsKey (qs ++ policies) unsubscriptors)
    (stored : ∀ e ∈ new, ∃ q ∈ qs, (watched firewalls q).isSome ∧ e.1 = (q.name, nsKey q)) :
    KeysFree firewalls nsKey policies (unsubscriptors ++ new) := by
  obtain ⟨none, nodup⟩ := free
  rw [List.filter_append, List.map_append, List.nodup_append] at nodup
  refine ⟨fun p hp hw => ?_, nodup.2.1⟩
  rw [List.lookup_append, none p (List.mem_append_right _ hp) hw, Option.none_or,
    List.lookup_eq_none_iff]
  intro e he
  obtain ⟨q, hq, hqw, hk⟩ := stored e he
  refine bne_iff_ne.2 fun heq => ?_
  refine nodup.2.2 _ (List.mem_map_of_mem (List.mem_filter.2 ⟨hq, hqw⟩)) _
    (List.mem_map_of_mem (List.mem_filter.2 ⟨hp, hw⟩)) ?_
  rw [← hk, heq]

theorem KeysFree.before {qs : List ParsedPolicy} {unsubscriptors : List ((String × String) × ℕ)}
    (free : KeysFree firewalls nsKey (qs ++ policies) unsubscriptors) :
    KeysFree firewalls nsKey qs unsubscriptors := by
  obtain ⟨none, nodup⟩ := free
  rw [List.filter_append, List.map_append, List.nodup_append] at nodup
  exact ⟨fun q hq hw => none q (List.mem_append_left _ hq) hw, nodup.1⟩

theorem subscribed_deployTurns (free : KeysFree firewalls nsKey policies m.unsubscriptors)
    {p : ParsedPolicy} (hp : p ∈ policies) (hw : (watched firewalls p).isSome) :
    ∃ s ∈ (deployTurns firewalls nsKey var policies m).subscribers, s.policy = p := by
  induction policies generalizing m with
  | nil => cases hp
  | cons q policies ih =>
    unfold deployTurns
    rcases List.mem_cons.1 hp with rfl | hp
    · -- the callback of the first one stays
      have here : ∃ s ∈ (deployPolicyToFw firewalls nsKey var (m.assign var p) p).subscribers,
          s.policy = p := by
        obtain ⟨l, hl⟩ := Option.isSome_iff_exists.1 hw
        unfold deployPolicyToFw
        rw [hl]
        rw [if_neg]
        · exact ⟨_, List.mem_append_right _ (List.mem_singleton_self _), rfl⟩
        · rw [show (m.assign var p).unsubscriptors = m.unsubscriptors from rfl,
            free.1 p List.mem_cons_self hw]
          exact Bool.false_ne_true
      obtain ⟨s, hs, hsp⟩ := here
      exact ⟨s, (grows_deployTurns ..).mem hs, hsp⟩
    · -- the key of the first one is another one
      have free : KeysFree firewalls nsKey ([q] ++ policies) m.unsubscriptors := free
      obtain ⟨new, hn, stored⟩ :=
        (grows_deployPolicyToFw firewalls nsKey var m q).unsubscriptors
      refine ih ?_ hp
      rw [hn]
      exact free.after stored

end Deploy

/-! ### The invariant -/

section Invariant

variable {nsKey : ParsedPolicy → String} {policies : List ParsedPolicy} {m : NsManager}
  {P : SourcePolicy} {s : NsCallback}

structure NsInv (m : NsManager) : Prop where
  own : ∀ s ∈ m.subscribers, s.var < m.nextVar ∧
    ∃ q, m.vars s.var = some q ∧ Agrees q s.policy
  parent : ∀ s ∈ m.subscribers, ∃ P ∈ m.deployed, s.policy ∈ P.all
  ids : (m.deployed.map SourcePolicy.id).Nodup
  loops : ∀ P ∈ m.deployed, LastAgrees firewalls P.ingress ∧ LastAgrees firewalls P.egress
  names : ∀ e ∈ m.unsubscriptors, '#' ∈ e.1.1.toList
  alive : m.crashed = false

def Concerned (m : NsManager) : Prop :=
  ∀ P ∈ m.deployed, ∀ p ∈ P.all, (watched firewalls p).isSome → ∃ s ∈ m.subscribers, s.policy = p

variable {firewalls}

theorem SourcePolicy.hash_mem {p : ParsedPolicy} (hp : p ∈ P.all) : '#' ∈ p.name.toList := by
  obtain ⟨-, -, -, s, hs⟩ := P.parsed p hp
  rw [hs, String.toList_append, String.toList_append]
  exact List.mem_append_left _ (List.mem_append_right _ (by decide))

/-- A loop over policies of `P` whose last one agrees with them. -/
theorem inv_deployLoop (h : NsInv firewalls m) (hP : P ∈ m.deployed) (sub : policies ⊆ P.all)
    (last : LastAgrees firewalls policies) :
    NsInv firewalls (deployLoop firewalls nsKey policies m) := by
  have grows : Grows firewalls nsKey m.nextVar policies { m with nextVar := m.nextVar + 1 }
    (deployLoop firewalls nsKey policies m) :=
    grows_deployTurns ..
  have ends : (deployLoop firewalls nsKey policies m).vars m.nextVar =
    policies.getLast?.or (m.vars m.nextVar) := vars_deployTurns
  generalize deployLoop firewalls nsKey policies m = m' at grows ends
  obtain ⟨new, hs, hnew⟩ := grows.subscribers
  obtain ⟨keys, hu, hkeys⟩ := grows.unsubscriptors
  have hdeployed : m'.deployed = m.deployed := grows.deployed
  refine ⟨fun s hm => ?_, fun s hm => ?_, ?_, ?_, fun e he => ?_, grows.crashed.trans h.alive⟩
  · rw [show m'.nextVar = m.nextVar + 1 from grows.nextVar]
    rw [hs] at hm
    rcases List.mem_append.1 hm with hm | hm
    · -- the variables of the callbacks before are others
      obtain ⟨hv, q, hq, agrees⟩ := h.own s hm
      refine ⟨by omega, q, ?_, agrees⟩
      rw [grows.others _ (by omega)]
      exact hq
    · obtain ⟨hv, hp, hw⟩ := hnew s hm
      obtain ⟨q, hq, agrees⟩ := agrees_of_last sub last hp hw
      refine ⟨by omega, q, ?_, agrees⟩
      rw [hv, ends, hq]
      rfl
  · rw [hdeployed]
    rw [hs] at hm
    rcases List.mem_append.1 hm with hm | hm
    · exact h.parent s hm
    · exact ⟨P, hP, sub (hnew s hm).2.1⟩
  · rw [hdeployed]
    exact h.ids
  · rw [hdeployed]
    exact h.loops
  · rw [hu] at he
    rcases List.mem_append.1 he with he | he
    · exact h.names e he
    · obtain ⟨p, hp, -, hk⟩ := hkeys e he
      rw [hk]
      exact SourcePolicy.hash_mem (sub hp)

theorem deployed_deployLoop :
    (deployLoop firewalls nsKey policies m).deployed = m.deployed :=
  (grows_deployTurns ..).deployed

theorem mem_deployLoop (hs : s ∈ m.subscribers) :
    s ∈ (deployLoop firewalls nsKey policies m).subscribers :=
  (grows_deployTurns ..).mem hs

theorem subscribed_deployLoop (free : KeysFree firewalls nsKey policies m.unsubscriptors)
    {p : ParsedPolicy} (hp : p ∈ policies) (hw : (watched firewalls p).isSome) :
    ∃ s ∈ (deployLoop firewalls nsKey policies m).subscribers, s.policy = p :=
  subscribed_deployTurns (m := { m with nextVar := m.nextVar + 1 }) free hp hw

theorem deployed_deployPolicy : (deployPolicy firewalls nsKey P m).deployed = m.deployed := by
  unfold deployPolicy
  rw [deployed_deployLoop, deployed_deployLoop]

theorem mem_deployPolicy (hs : s ∈ m.subscribers) :
    s ∈ (deployPolicy firewalls nsKey P m).subscribers :=
  mem_deployLoop (mem_deployLoop hs)

theorem inv_deployPolicy (h : NsInv firewalls m) (hP : P ∈ m.deployed) :
    NsInv firewalls (deployPolicy firewalls nsKey P m) := by
  obtain ⟨ingress, egress⟩ := h.loops P hP
  refine inv_deployLoop (inv_deployLoop h hP (List.subset_append_left _ _) ingress) ?_
    (List.subset_append_right _ _) egress
  rw [deployed_deployLoop]
  exact hP

theorem subscribed_deployPolicy (free : KeysFree firewalls nsKey P.all m.unsubscriptors)
    {p : ParsedPolicy} (hp : p ∈ P.all) (hw : (watched firewalls p).isSome) :
    ∃ s ∈ (deployPolicy firewalls nsKey P m).subscribers, s.policy = p := by
  rcases List.mem_append.1 hp with hp | hp
  · have free : KeysFree firewalls nsKey P.ingress m.unsubscriptors := KeysFree.before free
    obtain ⟨s, hs, hsp⟩ := subscribed_deployLoop free hp hw
    exact ⟨s, mem_deployLoop hs, hsp⟩
  · refine subscribed_deployLoop ?_ hp hw
    obtain ⟨new, hn, stored⟩ := (grows_deployTurns firewalls nsKey P.ingress m.nextVar
      { m with nextVar := m.nextVar + 1 }).unsubscriptors
    show KeysFree firewalls nsKey P.egress (deployTurns ..).unsubscriptors
    rw [hn]
    exact KeysFree.after free stored

theorem removePolicy_eq_of_names (other : ∀ e ∈ m.unsubscriptors, e.1.1 ≠ P.name) :
    removePolicy firewalls P m = m := by
  unfold removePolicy
  split_ifs
  · have kept : ∀ i, (m.unsubscriptors.any fun e => e.1.1 == P.name && e.2 == i) = false := by
      intro i
      rw [List.any_eq_false]
      intro e he
      rw [beq_false_of_ne (other e he)]
      exact Bool.false_ne_true
    unfold unsubscribe
    rw [List.filter_eq_self.2 fun s _ => by rw [kept]; rfl,
      List.filter_eq_self.2 fun e he => bne_iff_ne.2 (other e he)]
  · rfl

theorem removePolicy_eq (h : NsInv firewalls m) (P : SourcePolicy) :
    removePolicy firewalls P m = m :=
  removePolicy_eq_of_names fun e he heq => P.plain (heq ▸ h.names e he)

theorem NsInv.find (h : NsInv firewalls m) (hP : P ∈ m.deployed) : m.find P.id = some P := by
  unfold NsManager.find
  cases found : m.deployed.find? fun Q => Q.id = P.id with
  | none => exact absurd (decide_eq_true rfl) (List.find?_eq_none.1 found P hP)
  | some Q =>
    have same : Q.id = P.id := by
      simpa using List.find?_some found
    rw [List.inj_on_of_nodup_map h.ids (List.mem_of_find?_eq_some found) hP same]

theorem NsInv.reaction (h : NsInv firewalls m) (hs : s ∈ m.subscribers) (ns prev : Labels) :
    m.reaction s ns prev = due s.policy ns prev := by
  obtain ⟨-, q, hq, agrees⟩ := h.own s hs
  unfold NsManager.reaction
  rw [hq]
  exact agrees.handle ns prev

theorem NsInv.exact (h : NsInv firewalls m) (all : Concerned firewalls m) :
    Exact firewalls m where
  own s hs ns prev := h.reaction hs ns prev
  parent s hs := by
    obtain ⟨P, hP, hp⟩ := h.parent s hs
    refine ⟨P, hP, hp, ?_⟩
    rw [parentId_of_mem hp]
    exact h.find hP
  concerned := all
  alive := h.alive

theorem runCallback_cases (nsKey : ParsedPolicy → String) (h : NsInv firewalls m)
    (hs : s ∈ m.subscribers) (ns prev : Labels) :
    runCallback firewalls ns prev m (s, nsKey) = m ∨
      ∃ P ∈ m.deployed, runCallback firewalls ns prev m (s, nsKey) =
        deployPolicy firewalls nsKey P m := by
  unfold runCallback
  rw [h.reaction hs]
  unfold due
  split
  · split_ifs
    · exact .inl rfl
    · obtain ⟨P, hP, hp⟩ := h.parent s hs
      refine .inr ⟨P, hP, ?_⟩
      show redeploy firewalls nsKey _ m = _
      unfold redeploy
      rw [parentId_of_mem hp, h.find hP]
      dsimp only
      rw [removePolicy_eq h P]
  · exact .inl rfl

end Invariant

section Runs

variable {firewalls} {m : NsManager}

theorem inv_callbacks {ns prev : Labels} {calls : List (NsCallback × (ParsedPolicy → String))}
    (h : NsInv firewalls m) (all : Concerned firewalls m)
    (subscribed : ∀ c ∈ calls, c.1 ∈ m.subscribers) :
    NsInv firewalls (calls.foldl (runCallback firewalls ns prev) m) ∧
      Concerned firewalls (calls.foldl (runCallback firewalls ns prev) m) := by
  induction calls generalizing m with
  | nil => exact ⟨h, all⟩
  | cons c calls ih =>
    obtain ⟨s, nsKey⟩ := c
    rw [List.foldl_cons]
    have rest : ∀ c ∈ calls, c.1 ∈ m.subscribers :=
      fun c hc => subscribed c (List.mem_cons_of_mem _ hc)
    rcases runCallback_cases nsKey h (subscribed (s, nsKey) List.mem_cons_self) ns prev
      with same | ⟨P, hP, redeployed⟩
    · rw [same]
      exact ih h all rest
    · rw [redeployed]
      refine ih (inv_deployPolicy h hP) (fun Q hQ p hp hw => ?_)
        fun c hc => mem_deployPolicy (rest c hc)
      rw [deployed_deployPolicy] at hQ
      obtain ⟨t, ht, htp⟩ := all Q hQ p hp hw
      exact ⟨t, mem_deployPolicy ht, htp⟩

theorem inv_step (op : NsOp) (h : NsInv firewalls m) (all : Concerned firewalls m)
    (fine : FineNs firewalls m op) :
    NsInv firewalls (m.step firewalls op) ∧ Concerned firewalls (m.step firewalls op) := by
  cases op with
  | deploy P nsKey =>
    obtain ⟨new, ingress, egress, free⟩ := fine
    have before : NsInv firewalls { m with deployed := m.deployed ++ [P] } := by
      refine ⟨h.own, fun s hs => ?_, ?_, fun Q hQ => ?_, h.names, h.alive⟩
      · obtain ⟨Q, hQ, hp⟩ := h.parent s hs
        exact ⟨Q, List.mem_append_left _ hQ, hp⟩
      · show ((m.deployed ++ [P]).map SourcePolicy.id).Nodup
        rw [List.map_append, List.nodup_append]
        refine ⟨h.ids, List.nodup_singleton _, fun i hi j hj => ?_⟩
        obtain ⟨Q, hQ, rfl⟩ := List.mem_map.1 hi
        rw [List.mem_singleton.1 hj]
        exact new Q hQ
      · rcases List.mem_append.1 hQ with hQ | hQ
        · exact h.loops Q hQ
        · rw [List.mem_singleton.1 hQ]
          exact ⟨ingress, egress⟩
    refine ⟨inv_deployPolicy before (List.mem_append_right _ (List.mem_singleton_self P)),
      fun Q hQ p hp hw => ?_⟩
    have hQ : Q ∈ m.deployed ++ [P] := by
      rw [show (m.step firewalls (.deploy P nsKey)).deployed = _ from deployed_deployPolicy] at hQ
      exact hQ
    rcases List.mem_append.1 hQ with hQ | hQ
    · obtain ⟨s, hs, hsp⟩ := all Q hQ p hp hw
      exact ⟨s, mem_deployPolicy hs, hsp⟩
    · rw [List.mem_singleton.1 hQ] at hp
      exact subscribed_deployPolicy (m := { m with deployed := m.deployed ++ [P] }) free hp hw
  | remove P =>
    have kept : NsInv firewalls
        { m with deployed := m.deployed.filter fun Q => Q.id ≠ P.id } := by
      refine ⟨h.own, fun s hs => ?_, ?_, fun Q hQ => h.loops Q (List.mem_filter.1 hQ).1, h.names,
        h.alive⟩
      · obtain ⟨Q, hQ, hp⟩ := h.parent s hs
        refine ⟨Q, List.mem_filter.2 ⟨hQ, decide_eq_true ?_⟩, hp⟩
        rw [← parentId_of_mem hp]
        exact fine s hs
      · exact h.ids.sublist (List.filter_sublist.map _)
    have same : m.step firewalls (.remove P) =
        { m with deployed := m.deployed.filter fun Q => Q.id ≠ P.id } := removePolicy_eq kept P
    rw [same]
    exact ⟨kept, fun Q hQ => all Q (List.mem_filter.1 hQ).1⟩
  | relabel ns prev order =>
    refine inv_callbacks h all fun c hc => ?_
    obtain ⟨o, -, ho⟩ := List.mem_filterMap.1 hc
    obtain ⟨s, hs, rfl⟩ := Option.map_eq_some_iff.1 ho
    exact List.mem_of_getElem? hs

/-- In every run whose steps are fine, each callback does what the one of its policy has to do, and
no callback is left of a policy that has been removed. -/
theorem exact_of_run (firewalls : Firewalls) (ops : List NsOp)
    (fine : Meets (NsManager.step firewalls) (FineNs firewalls) .start ops) :
    Exact firewalls (run (NsManager.step firewalls) .start ops) := by
  have start : NsInv firewalls .start ∧ Concerned firewalls .start :=
    ⟨⟨by simp [NsManager.start], by simp [NsManager.start], List.nodup_nil,
      by simp [NsManager.start], by simp [NsManager.start], rfl⟩,
      by simp [Concerned, NsManager.start]⟩
  obtain ⟨h, all⟩ := run_induction (P := fun m => NsInv firewalls m ∧ Concerned firewalls m)
    (fun m op h fine => inv_step op h.1 h.2 fine) start fine
  exact h.exact all

def nsPolicy (name : String) (label : String × String) : ParsedPolicy where
  name := name
  parentPolicy := ⟨"np", 5, "k8s"⟩
  priority := 0
  creationTime := 0
  direction := .incoming
  subject := ⟨none, "default"⟩
  peer := ⟨[], none, some (.labels [label]), "podName:|nsLabels"⟩
  templates := ⟨[], []⟩
  ports := []
  action := .forward

def oneNamespace : SourcePolicy where
  name := "np"
  nameSpace := "default"
  provider := "k8s"
  ingress := [nsPolicy "np#0ip0" ("team", "a")]
  egress := []
  parsed p hp := by
    rw [List.mem_singleton.1 hp]
    exact ⟨rfl, rfl, rfl, "0ip0", rfl⟩
  plain := by decide

def twoNamespaces : SourcePolicy where
  name := "np"
  nameSpace := "default"
  provider := "k8s"
  ingress := [nsPolicy "np#0ip0" ("team", "a"), nsPolicy "np#1ip1" ("team", "b")]
  egress := []
  parsed p hp := by
    rcases List.mem_pair.1 hp with rfl | rfl
    · exact ⟨rfl, rfl, rfl, "0ip0", rfl⟩
    · exact ⟨rfl, rfl, rfl, "1ip1", rfl⟩
  plain := by decide

def someLabels : List NsOp :=
  [.deploy oneNamespace fun _ => "team=a",
    .relabel [("team", "a")] [] [(0, fun _ => "team=a")],
    .relabel [] [("team", "a")] [(0, fun _ => "team=a")]]

theorem exact_someLabels :
    Exact [([], "default")] (run (NsManager.step [([], "default")]) .start someLabels) :=
  exact_of_run _ someLabels
    ⟨⟨by decide, fun p hp l hl => ⟨p, by rw [List.mem_singleton.1 hp]; rfl, l,
        watched_labels hl, fun _ => Iff.rfl⟩,
      fun p hp => absurd hp List.not_mem_nil, by decide +kernel, by decide +kernel⟩,
      trivial, trivial, trivial⟩

/-- A namespace comes to the first team, and the callback asks for the second one. -/
theorem not_exact_twoNamespaces :
    ¬ ∀ (firewalls : Firewalls) (ops : List NsOp),
      Exact firewalls (run (NsManager.step firewalls) .start ops) := by
  intro h
  have own := (h [([], "default")]
    [.deploy twoNamespaces fun p => if p.name = "np#0ip0" then "team=a" else "team=b"]).own
    ⟨0, 0, nsPolicy "np#0ip0" ("team", "a")⟩ (List.mem_of_mem_head? rfl) [("team", "a")] []
  revert own
  decide +kernel

end Runs

end Polycube.Policies
