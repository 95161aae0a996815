import Polycube.K8s.PcnParser
import Polycube.K8s.Semantics
import Polycube.Lib.Digits

/-!
# What the parsed policies of a Polycube policy say

`Translates` relates the parsed policies to the policy: the pods they protect, and for each rule,
in order, its peers, its ports and its action.  `translates_iff` says for which policies the two
parsers do that, and mirror each other.
-/

namespace Polycube.K8s

/-! ### What a faithful translation is -/

section

variable {Ip : Type*} (ρ : Reading Ip) (e : Endpoint Ip)

def PcnPolicy.AppliesTo (policy : PcnPolicy) (serv : Option Service) (pod : Pod) : Prop :=
  pod.nameSpace = policy.nameSpace ∧
    match serv with
    | some s => s.selector.labels ≠ [] ∧ labelsContained s.selector.labels pod.labels
    | none => policy.applyTo.any = some true ∨
        labelsContained policy.applyTo.withLabels.labels pod.labels

def ParsedPolicy.Protects (p : ParsedPolicy) (pod : Pod) : Prop :=
  pod.nameSpace = p.subject.nameSpace ∧ queryMatches p.subject.query pod.name pod.labels

def NamespaceSelector.Covers (s : NamespaceSelector) (pod : Pod) : Prop :=
  s.any = some true ∨
    if s.withNames ≠ [] then pod.nameSpace ∈ s.withNames
    else labelsContained s.withLabels.labels pod.nameSpaceLabels

/-- The other sides that a peer of a rule stands for: the world without addresses is everywhere,
and pods are looked for in the policy's own namespace if none is selected. -/
def PcnPeer.Covers (nameSpace : String) (p : PcnPeer) : Prop :=
  match p.peer with
  | .world => p.withIP = [] ∨ ∃ block ∈ p.withIP, ρ.inBlock block e.ip
  | .pod => ∃ pod, e.pod = some pod ∧
      (p.any = some true ∨ labelsContained p.withLabels.labels pod.labels) ∧
      match p.onNamespace with
      | none => pod.nameSpace = nameSpace
      | some s => s.Covers pod
  | .other _ => False

end

def ProtoPort.Takes (q : ProtoPort) (proto : Protocol) (sport dport : Int32) : Prop :=
  (q.protocol = none ∨ q.protocol = some proto) ∧ (q.sPort = 0 ∨ q.sPort = sport) ∧
    (q.dPort = 0 ∨ q.dPort = dport)

def ChainRule.takes (r : ChainRule) (proto : Protocol) (sport dport : Int32) : Bool :=
  (r.l4proto == none || r.l4proto == some proto) && (r.sport == 0 || r.sport == sport) &&
    (r.dport == 0 || r.dport == dport)

structure Says (p : PcnParsedPolicy) (d : PolicyDirection) (action : PolicyAction)
    (act : RuleAction) (ports : List ProtoPort) : Prop where
  direction : p.direction = d
  action : p.action = action
  templates : ∀ proto sport dport r,
    (p.templates.at d).find? (fun r => r.takes proto sport dport) = some r → r.action = act
  taken : ∀ proto sport dport,
    ((p.templates.at d).find? fun r => r.takes proto sport dport).isSome ↔
      ports = [] ∨ ∃ q ∈ ports, q.Takes proto sport dport

def ServicePort.Reads (port : ServicePort) (q : ProtoPort) : Prop :=
  q.protocol = some port.protocol ∧ q.sPort = 0 ∧ port.targetPort = .int q.dPort

def OfService (serv : Option Service) (ports : List ProtoPort) : Prop :=
  match serv with
  | none => ports = []
  | some s => List.Forall₂ ServicePort.Reads s.ports ports

def PcnRule.Ports (serv : Option Service) (rule : PcnRule) (ports : List ProtoPort) : Prop :=
  if rule.protocols = [] then OfService serv ports
  else List.Forall₂ (fun pp q => q = ⟨pp.protocol, pp.source, pp.destination⟩) rule.protocols ports

def RuleVerb.Allows (v : RuleVerb) : Prop := v ∈ [.forward, .allow, .pass, .permit]

section

variable (Ip : Type*) (policy : PcnPolicy) (serv : Option Service) (d : PolicyDirection)

def RestrictsAll (ps : List PcnParsedPolicy) (action : PolicyAction) (act : RuleAction) : Prop :=
  ∃ p ports, ps = [p] ∧ OfService serv ports ∧ Says p d action act ports

def OfRule (p : PcnParsedPolicy) (i : ℕ) : Prop :=
  ∃ n, p.name = reformatPolicyName policy.name d i n

structure InOrder (rules : List PcnRule) (ps : List PcnParsedPolicy) : Prop where
  order : ps.Pairwise fun p q => ∀ i j, OfRule policy d p i → OfRule policy d q j → i ≤ j
  rule : ∀ p ∈ ps, ∃ i < rules.length, OfRule policy d p i
  said : ∀ i rule, rules[i]? = some rule → ∀ p ∈ ps, OfRule policy d p i →
    ∃ act ports, (act = .forward ↔ rule.action.Allows) ∧ rule.Ports serv ports ∧
      p.ports = ports ∧ Says p d act.parsed act ports
  peers : ∀ i rule, rules[i]? = some rule → ∀ (ρ : Reading Ip) (e : Endpoint Ip),
    rule.peer.Covers ρ e policy.nameSpace ↔ ∃ p ∈ ps, OfRule policy d p i ∧ p.peer.covers ρ e

structure Translates (c : RuleContainer) (ps : List PcnParsedPolicy) : Prop where
  subject : ∀ p ∈ ps, ∀ pod, p.Protects pod ↔ policy.AppliesTo serv pod
  names : (ps.map fun p => p.name).Nodup
  content : if c.dropAll = some true then RestrictsAll serv d ps .dropAll .drop
    else if c.allowAll = some true then RestrictsAll serv d ps .forwardAll .forward
    else InOrder Ip policy serv d c.rules ps

end

def PolicyDirection.opposite : PolicyDirection → PolicyDirection
  | .incoming => .outgoing
  | .outgoing => .incoming

def PcnParsedPolicy.Mirrors (q p : PcnParsedPolicy) : Prop :=
  q.direction = p.direction.opposite ∧ q.templates = ⟨p.templates.outgoing, p.templates.incoming⟩ ∧
    q.action = p.action ∧ q.ports = p.ports ∧ q.peer = p.peer ∧ q.priority = p.priority ∧
    q.parentPolicy = p.parentPolicy ∧ q.creationTime = p.creationTime ∧ q.isService = p.isService ∧
    ∀ pod, q.Protects pod ↔ p.Protects pod

def MirroredAt (policy : PcnPolicy) (serv : Option Service) (c : RuleContainer) : Prop :=
  List.Forall₂ PcnParsedPolicy.Mirrors (parsePcnEgress { policy with egressRules := c } serv)
    (parsePcnIngress { policy with ingressRules := c } serv)

structure FaithfulPcn (Ip : Type*) (policy : PcnPolicy) (serv : Option Service) : Prop where
  ingress : Translates Ip policy serv .incoming policy.ingressRules (parsePcnIngress policy serv)
  egress : Translates Ip policy serv .outgoing policy.egressRules (parsePcnEgress policy serv)
  names : ∀ p ∈ parsePcnIngress policy serv, ∀ q ∈ parsePcnEgress policy serv, p.name ≠ q.name
  mirrored : MirroredAt policy serv policy.ingressRules ∧ MirroredAt policy serv policy.egressRules

def PcnPeer.Clear (nameSpace : String) (p : PcnPeer) : Prop :=
  match p.peer with
  | .world => p.withIP ≠ []
  | .pod => match p.onNamespace with
    | none => nameSpace ≠ ""
    | some s => s.any = some true ∨ "" ∉ s.withNames
  | .other _ => True

def ServicePort.Clear (port : ServicePort) : Prop :=
  (port.protocol = .tcp ∨ port.protocol = .udp) ∧ ∃ n, port.targetPort = .int n

def PcnRule.Peered (rule : PcnRule) : Prop := ∀ s, rule.peer.peer ≠ .other s

def RuleContainer.Restricts (c : RuleContainer) : Prop :=
  c.dropAll = some true ∨ c.allowAll = some true

def RuleContainer.Yields (c : RuleContainer) : Prop :=
  c.Restricts ∨ ∃ rule ∈ c.rules, rule.Peered

def RuleContainer.TakesPorts (c : RuleContainer) : Prop :=
  c.Restricts ∨ ∃ rule ∈ c.rules, rule.Peered ∧ rule.protocols = []

structure RuleContainer.Clear (nameSpace : String) (serv : Option Service) (c : RuleContainer) :
    Prop where
  peers : ¬ c.Restricts → ∀ rule ∈ c.rules, rule.peer.Clear nameSpace
  ports : c.TakesPorts → ∀ s, serv = some s → ∀ port ∈ s.ports, port.Clear

def PolicyTarget.Clear (serv : Option Service) (t : PolicyTarget) : Prop :=
  match serv with
  | some s => s.selector.labels ≠ []
  | none => t.any = some true ∨ t.withLabels.labels = []

structure PcnPolicy.Clear (policy : PcnPolicy) (serv : Option Service) : Prop where
  applyTo : policy.ingressRules.Yields ∨ policy.egressRules.Yields → policy.applyTo.Clear serv
  ingress : policy.ingressRules.Clear policy.nameSpace serv
  egress : policy.egressRules.Clear policy.nameSpace serv

/-- The direction, the rule and the number are read back from a name. -/
theorem reformatPolicyName_inj {name : String} {d d' : PolicyDirection} {i i' n n' : ℕ}
    (h : reformatPolicyName name d i n = reformatPolicyName name d' i' n') :
    d = d' ∧ i = i' ∧ n = n' := by
  have text : ∀ (d : PolicyDirection) (i n : ℕ), (reformatPolicyName name d i n).toList =
      (name.toList ++ ['#']) ++ (Nat.toDigits 10 i ++
        (match d with | .incoming => 'i' | .outgoing => 'e') :: 'p' :: Nat.toDigits 10 n) := by
    intro d i n
    unfold reformatPolicyName
    cases d <;> simp
  have same := congrArg String.toList h
  rw [text, text, List.append_cancel_left_eq] at same
  obtain ⟨rules, mark, rest⟩ := Lib.append_digits_inj Lib.isDigit_of_mem_digits
    Lib.isDigit_of_mem_digits (by cases d <;> rfl) (by cases d' <;> rfl) same
  refine ⟨?_, Lib.toDigits_injective rules, Lib.toDigits_injective (List.cons.inj rest).2⟩
  cases d <;> cases d' <;> first | rfl | exact absurd mark (by decide)

section

variable (policy : PcnPolicy) (base : PcnParsedPolicy) (ports : List ProtoPort)

def PcnPeer.expand (nameSpace : String) (p : PcnPeer) : List PolicyPeer :=
  match p.peer with
  | .world => [getPeersFromPcnWorld p.withIP]
  | .pod => getPeersFromPcnPodSelector p nameSpace
  | .other _ => []

def peerPolicy (i : ℕ) (newPolicy : PcnParsedPolicy) (x : PolicyPeer × ℕ) : PcnParsedPolicy :=
  { newPolicy with
    peer := x.1
    name := reformatPolicyName policy.name base.direction i x.2 }

def parseFrom : ℕ → ℕ → List PcnRule → List PcnParsedPolicy
  | _, _, [] => []
  | i, count, rule :: rules =>
    ((rule.peer.expand policy.nameSpace).zipIdx count).map
        (peerPolicy policy base i (pcnRuleBase base ports rule count)) ++
      parseFrom (i + 1) (count + (rule.peer.expand policy.nameSpace).length) rules

theorem foldl_addPcnPeer (i : ℕ) (newPolicy : PcnParsedPolicy) (peers : List PolicyPeer)
    (st : List PcnParsedPolicy × ℕ) :
    peers.foldl (addPcnPeer policy base i newPolicy) st =
      (st.1 ++ (peers.zipIdx st.2).map (peerPolicy policy base i newPolicy),
        st.2 + peers.length) := by
  induction peers generalizing st with
  | nil => simp
  | cons peer peers ih =>
    rw [List.foldl_cons, ih]
    simp [addPcnPeer, peerPolicy, add_assoc, add_comm 1]

theorem parsePcnRule_eq (st : List PcnParsedPolicy × ℕ) (rule : PcnRule) (i : ℕ) :
    parsePcnRule policy base ports st (rule, i) =
      (st.1 ++ ((rule.peer.expand policy.nameSpace).zipIdx st.2).map
        (peerPolicy policy base i (pcnRuleBase base ports rule st.2)),
        st.2 + (rule.peer.expand policy.nameSpace).length) := by
  unfold parsePcnRule PcnPeer.expand
  dsimp only
  cases rule.peer.peer with
  | world => rfl
  | pod => exact foldl_addPcnPeer policy base i _ _ st
  | other s => simp

theorem foldl_parsePcnRule (rules : List PcnRule) (i : ℕ) (st : List PcnParsedPolicy × ℕ) :
    ((rules.zipIdx i).foldl (parsePcnRule policy base ports) st).1 =
      st.1 ++ parseFrom policy base ports i st.2 rules := by
  induction rules generalizing i st with
  | nil => simp [parseFrom]
  | cons rule rules ih =>
    rw [List.zipIdx_cons, List.foldl_cons, ih, parsePcnRule_eq]
    simp [parseFrom]

theorem parseContainer_rules {c : RuleContainer} (h : ¬ c.Restricts) :
    parseContainer policy base ports c = parseFrom policy base ports 0 0 c.rules := by
  obtain ⟨drop, allow⟩ := not_or.1 h
  unfold parseContainer
  rw [if_neg drop, if_neg allow, foldl_parsePcnRule]
  rfl

variable {policy base ports}

theorem exists_rule_of_mem {i count : ℕ} {rules : List PcnRule} {p : PcnParsedPolicy}
    (hp : p ∈ parseFrom policy base ports i count rules) :
    ∃ j rule, rules[j]? = some rule ∧ ∃ peer ∈ rule.peer.expand policy.nameSpace, ∃ m n,
      count ≤ n ∧ p = peerPolicy policy base (i + j) (pcnRuleBase base ports rule m) (peer, n) := by
  induction rules generalizing i count with
  | nil => cases hp
  | cons rule rules ih =>
    rcases List.mem_append.1 hp with here | later
    · obtain ⟨⟨peer, n⟩, hx, rfl⟩ := List.mem_map.1 here
      exact ⟨0, rule, rfl, peer, List.fst_mem_of_mem_zipIdx hx, count, n,
        List.le_snd_of_mem_zipIdx hx, rfl⟩
    · obtain ⟨j, rule', there, peer, hpeer, m, n, le, rfl⟩ := ih later
      refine ⟨j + 1, rule', there, peer, hpeer, m, n, le_trans (Nat.le_add_right ..) le, ?_⟩
      rw [add_assoc, add_comm 1 j]

variable (policy base ports) in
theorem exists_mem_of_rule (i count : ℕ) {j : ℕ} {rules : List PcnRule} {rule : PcnRule}
    (hrule : rules[j]? = some rule) {peer : PolicyPeer}
    (hpeer : peer ∈ rule.peer.expand policy.nameSpace) :
    ∃ m n, peerPolicy policy base (i + j) (pcnRuleBase base ports rule m) (peer, n) ∈
      parseFrom policy base ports i count rules := by
  induction rules generalizing i count j with
  | nil => cases hrule
  | cons first rules ih =>
    cases j with
    | zero =>
      rw [List.getElem?_cons_zero, Option.some.injEq] at hrule
      obtain ⟨n, hn, rfl⟩ := List.mem_iff_getElem.1 hpeer
      refine ⟨count, count + n, List.mem_append_left _ (List.mem_map.2
        ⟨((rule.peer.expand policy.nameSpace)[n], count + n), ?_, ?_⟩)⟩
      · rw [hrule]
        exact List.mk_mem_zipIdx_iff_le_and_getElem?_sub.2 ⟨Nat.le_add_right .., by simp [hn]⟩
      · rw [hrule]
        rfl
    | succ j =>
      obtain ⟨m, n, mem⟩ := ih (i + 1)
        (count + (first.peer.expand policy.nameSpace).length) hrule
      refine ⟨m, n, List.mem_append_right _ ?_⟩
      rwa [add_assoc, add_comm 1 j] at mem

/-- The rules of the parsed policies are in order, and their numbers go up. -/
theorem pairwise_parseFrom (i count : ℕ) (rules : List PcnRule) :
    (parseFrom policy base ports i count rules).Pairwise fun p q => ∃ a b m n,
      a ≤ b ∧ m < n ∧ p.name = reformatPolicyName policy.name base.direction a m ∧
        q.name = reformatPolicyName policy.name base.direction b n := by
  induction rules generalizing i count with
  | nil => exact List.Pairwise.nil
  | cons rule rules ih =>
    refine List.pairwise_append.2 ⟨?_, ih _ _, ?_⟩
    · have numbers : ((rule.peer.expand policy.nameSpace).zipIdx count).Pairwise
          fun x y => x.2 < y.2 := by
        rw [← List.pairwise_map, List.zipIdx_map_snd]
        exact List.pairwise_lt_range'
      rw [List.pairwise_map]
      exact numbers.imp fun lt => ⟨i, i, _, _, le_rfl, lt, rfl, rfl⟩
    · intro p hp q hq
      obtain ⟨⟨peer, m⟩, hx, rfl⟩ := List.mem_map.1 hp
      obtain ⟨j, rule', -, peer', -, m', n, le, rfl⟩ := exists_rule_of_mem hq
      refine ⟨i, i + 1 + j, m, n, by omega, ?_, rfl, rfl⟩
      have lt := List.snd_lt_add_of_mem_zipIdx hx
      dsimp only at lt
      omega

end

section

variable {p : PcnParsedPolicy} {d : PolicyDirection} {act : RuleAction} {ports : List ProtoPort}

def anyPort (act : RuleAction) : ChainRule := ⟨"", "", none, 0, 0, connTrackNew, act, ""⟩

def ChainRule.withPort (r : ChainRule) (q : ProtoPort) : ChainRule :=
  { r with sport := q.sPort, dport := q.dPort, l4proto := q.protocol }

theorem templates_at : (buildRuleTemplates d act ports).at d =
    if ports = [] then [anyPort act] else ports.map (anyPort act).withPort := by
  have inserted : insertPorts [anyPort act] ports =
      if ports = [] then [anyPort act] else ports.map (anyPort act).withPort := by
    unfold insertPorts
    rw [List.flatMap_singleton]
    rfl
  cases d <;> exact inserted

theorem takes_withPort {q : ProtoPort} {proto : Protocol} {sport dport : Int32} :
    ((anyPort act).withPort q).takes proto sport dport = true ↔ q.Takes proto sport dport := by
  simp [ChainRule.takes, ChainRule.withPort, ProtoPort.Takes, and_assoc]

theorem says_templates {action : PolicyAction} (direction : p.direction = d)
    (same : p.action = action) (built : p.templates = buildRuleTemplates d act ports) :
    Says p d action act ports := by
  refine ⟨direction, same, fun proto sport dport r h => ?_, fun proto sport dport => ?_⟩
  · rw [built, templates_at] at h
    have mem := List.mem_of_find?_eq_some h
    split_ifs at mem
    · rw [List.mem_singleton.1 mem]
      rfl
    · obtain ⟨q, -, rfl⟩ := List.mem_map.1 mem
      rfl
  · rw [built, templates_at, List.find?_isSome]
    split_ifs with none
    · simp [none, anyPort, ChainRule.takes]
    · simp only [List.mem_map, exists_exists_and_eq_and, takes_withPort, none, false_or]

theorem allows_iff {v : RuleVerb} : convertPcnAction v = .forward ↔ v.Allows := by
  cases v <;> simp [convertPcnAction, RuleVerb.Allows]

theorem reads_iff {port : ServicePort} :
    port.Reads ⟨some (if port.protocol = .udp then .udp else .tcp), 0, port.targetPort.intVal⟩ ↔
      port.Clear := by
  unfold ServicePort.Reads ServicePort.Clear
  obtain ⟨protocol, target⟩ := port
  cases protocol <;> cases target <;> simp [IntOrString.intVal]

theorem ofService_iff {serv : Option Service} : OfService serv (servicePorts serv) ↔
    ∀ s, serv = some s → ∀ port ∈ s.ports, port.Clear := by
  rcases serv with _ | s
  · exact iff_of_true rfl fun s h => by cases h
  · simp only [OfService, servicePorts, convertServiceProtocols, List.forall₂_map_right_iff,
      List.forall₂_same, reads_iff, Option.some.injEq, forall_eq']

theorem known_of_says {serv : Option Service} {action : PolicyAction} {s : Service}
    {port : ServicePort} (hs : serv = some s) (hport : port ∈ s.ports)
    (built : p.templates = buildRuleTemplates d act (servicePorts serv))
    (read : OfService serv ports) (said : Says p d action act ports) : port.Clear := by
  rw [hs] at read
  obtain ⟨q, hq, protocol, sPort, target⟩ : ∃ q ∈ ports, port.Reads q := by
    obtain ⟨i, hi, rfl⟩ := List.mem_iff_getElem.1 hport
    have len := List.Forall₂.length_eq read
    exact ⟨ports[i], List.getElem_mem _, List.Forall₂.get read hi (len ▸ hi)⟩
  refine ⟨?_, q.dPort, target⟩
  have taken := (said.taken port.protocol q.sPort q.dPort).2
    (.inr ⟨q, hq, .inr protocol, .inr rfl, .inr rfl⟩)
  have some_port : servicePorts serv ≠ [] := by
    rw [hs]
    exact fun none => List.ne_nil_of_mem hport (List.map_eq_nil_iff.1 none)
  rw [built, templates_at, if_neg some_port, List.find?_isSome, hs] at taken
  obtain ⟨r, hr, takes⟩ := taken
  obtain ⟨q', hq', rfl⟩ := List.mem_map.1 hr
  obtain ⟨port', -, rfl⟩ := List.mem_map.1 hq'
  obtain ⟨known, -⟩ := takes_withPort.1 takes
  by_cases udp : port'.protocol = .udp
  · simp only [udp, if_true, Option.some.injEq, reduceCtorEq, false_or] at known
    exact .inr known.symm
  · simp only [udp, if_false, Option.some.injEq, reduceCtorEq, false_or] at known
    exact .inl known.symm

end

/-! ### Peers -/

section

variable {Ip : Type*} {ρ : Reading Ip} {e : Endpoint Ip} {nameSpace : String}

theorem labelsContained_self (m : LabelMap) : labelsContained m.labels m.labels = true := by
  obtain ⟨l, distinct⟩ := m
  unfold labelsContained
  rw [List.all_eq_true]
  intro x hx
  rw [beq_iff_eq]
  dsimp only at hx ⊢
  induction l with
  | nil => cases hx
  | cons y l ih =>
    rw [List.map_cons, List.nodup_cons] at distinct
    rw [List.lookup_cons]
    rcases List.mem_cons.1 hx with rfl | later
    · rw [beq_self_eq_true]
    · have other : x.1 ≠ y.1 := fun same => distinct.1 (same ▸ List.mem_map_of_mem later)
      rw [beq_false_of_ne other]
      exact ih distinct.2 later

theorem labelsContained_nil {l : Labels} : labelsContained l [] = true ↔ l = [] := by
  cases l <;> simp [labelsContained]

theorem queryMatches_pods {any : Option Bool} {l : Labels} {name : String} {labels : Labels} :
    queryMatches (if any = some true then none else buildQuery "" l) name labels = true ↔
      any = some true ∨ labelsContained l labels = true := by
  split_ifs with all
  · exact iff_of_true rfl (.inl all)
  · rw [queryMatches_labels, or_iff_right all]

theorem queryMatches_ns {name ns : String} {labels : Labels} :
    queryMatches (buildQuery name []) ns labels = true ↔ name = "" ∨ ns = name := by
  by_cases none : name = ""
  · rw [none]
    exact iff_of_true rfl (.inl rfl)
  · rw [queryMatches_name none, or_iff_right none, beq_iff_eq, eq_comm]

def PcnPeer.nsQueries (nameSpace : String) (p : PcnPeer) : List (Option ObjectQuery) :=
  match p.onNamespace with
  | none => [buildQuery nameSpace []]
  | some onNs => if onNs.any = some true then [none] else getNamespacesList onNs

theorem exists_expand_pod {p : PcnPeer} (pods : p.peer = .pod) :
    (∃ x ∈ p.expand nameSpace, x.covers ρ e = true) ↔ ∃ pod, e.pod = some pod ∧
      (p.any = some true ∨ labelsContained p.withLabels.labels pod.labels = true) ∧
      ∃ q ∈ p.nsQueries nameSpace, queryMatches q pod.nameSpace pod.nameSpaceLabels = true := by
  have expanded : ∃ key : Option ObjectQuery → String, p.expand nameSpace =
      (p.nsQueries nameSpace).map fun ns => ⟨[], if p.any = some true then none
        else buildQuery "" p.withLabels.labels, ns, key ns⟩ := by
    unfold PcnPeer.expand PcnPeer.nsQueries
    rw [pods]
    dsimp only
    unfold getPeersFromPcnPodSelector
    rcases p.onNamespace with _ | onNs
    · exact ⟨fun _ => _, rfl⟩
    · dsimp only
      split_ifs <;> exact ⟨fun ns => _ ++ "|" ++ buildObjectKey ns "ns", rfl⟩
  obtain ⟨key, expanded⟩ := expanded
  simp only [expanded, List.mem_map, exists_exists_and_eq_and]
  unfold PolicyPeer.covers
  rcases e.pod with _ | pod
  · simp
  · simp only [ne_eq, not_true_eq_false, if_false, Bool.and_eq_true, queryMatches_pods,
      Option.some.injEq, exists_eq_left']
    constructor
    · rintro ⟨q, hq, labels, ns⟩
      exact ⟨labels, q, hq, ns⟩
    · rintro ⟨labels, q, hq, ns⟩
      exact ⟨q, hq, labels, ns⟩

theorem exists_nsQueries {p : PcnPeer} (pod : Pod) :
    (∃ q ∈ p.nsQueries nameSpace, queryMatches q pod.nameSpace pod.nameSpaceLabels = true) ↔
      match p.onNamespace with
      | none => nameSpace = "" ∨ pod.nameSpace = nameSpace
      | some s => s.Covers pod ∨ s.any ≠ some true ∧ "" ∈ s.withNames := by
  unfold PcnPeer.nsQueries
  rcases p.onNamespace with _ | s
  · simp only [List.mem_singleton, exists_eq_left, queryMatches_ns]
  · unfold NamespaceSelector.Covers
    by_cases all : s.any = some true
    · simp [all, queryMatches]
    · unfold getNamespacesList
      by_cases names : s.withNames = []
      · simp [all, names, queryMatches_labels]
      · simp only [all, names, if_false, if_true, ne_eq, not_false_eq_true, List.mem_map,
          exists_exists_and_eq_and, queryMatches_ns, false_or, true_and]
        constructor
        · rintro ⟨n, hn, rfl | here⟩
          · exact .inr hn
          · exact .inl (here ▸ hn)
        · rintro (here | missing)
          · exact ⟨_, here, .inr rfl⟩
          · exact ⟨_, missing, .inl rfl⟩

theorem exists_expand_iff {p : PcnPeer} (clear : p.Clear nameSpace) :
    (∃ x ∈ p.expand nameSpace, x.covers ρ e = true) ↔ p.Covers ρ e nameSpace := by
  unfold PcnPeer.Clear at clear
  unfold PcnPeer.Covers
  cases kind : p.peer with
  | world =>
    rw [kind] at clear
    have some_ip : p.withIP ≠ [] := clear
    simp [PcnPeer.expand, kind, getPeersFromPcnWorld, PolicyPeer.covers, some_ip]
  | pod =>
    rw [kind] at clear
    rw [exists_expand_pod kind]
    refine exists_congr fun pod => and_congr_right fun _ => and_congr_right fun _ => ?_
    rw [exists_nsQueries]
    rcases selector : p.onNamespace with _ | s
    · rw [selector] at clear
      exact or_iff_right clear
    · rw [selector] at clear
      refine or_iff_left ?_
      rintro ⟨some_names, missing⟩
      exact clear.elim some_names fun named => named missing
  | other s => simp [PcnPeer.expand, kind]

theorem exists_notMem (names : List String) : ∃ name, name ∉ names :=
  (Infinite.exists_notMem_finset names.toFinset).imp fun _ h => by simpa using h

theorem clear_of_expand [Inhabited Ip] {p : PcnPeer}
    (same : ∀ (ρ : Reading Ip) (e : Endpoint Ip),
      p.Covers ρ e nameSpace ↔ ∃ x ∈ p.expand nameSpace, x.covers ρ e = true) :
    p.Clear nameSpace := by
  have ρ : Reading Ip := ⟨fun _ _ => false⟩
  unfold PcnPeer.Clear
  cases kind : p.peer with
  | world =>
    intro empty
    -- an address that no pod has
    have nowhere := (same ρ ⟨default, none⟩).1 (by
      unfold PcnPeer.Covers
      rw [kind]
      exact .inl empty)
    simp [PcnPeer.expand, kind, getPeersFromPcnWorld, PolicyPeer.covers, empty] at nowhere
  | pod =>
    -- a pod with the labels, in a namespace with any name
    have found : ∀ ns, (∃ q ∈ p.nsQueries nameSpace, queryMatches q ns [] = true) →
        match p.onNamespace with
        | none => ns = nameSpace
        | some s => s.Covers ⟨"", p.withLabels.labels, ns, []⟩ := by
      intro ns queries
      have covered := (same ρ ⟨default, some ⟨"", p.withLabels.labels, ns, []⟩⟩).2
        ((exists_expand_pod kind).2 ⟨_, rfl, .inr (labelsContained_self _), queries⟩)
      unfold PcnPeer.Covers at covered
      rw [kind] at covered
      obtain ⟨pod, here, -, covered⟩ := covered
      rw [← Option.some.inj here] at covered
      exact covered
    rcases selector : p.onNamespace with _ | s
    · rintro rfl
      obtain ⟨ns, other⟩ := exists_notMem [""]
      have covered := found ns ((exists_nsQueries ⟨"", [], ns, []⟩).2 (by
        rw [selector]
        exact .inl rfl))
      rw [selector] at covered
      exact other (List.mem_singleton.2 covered)
    · by_contra! unclear
      obtain ⟨some_names, missing⟩ := unclear
      obtain ⟨ns, other⟩ := exists_notMem s.withNames
      have covered := found ns ((exists_nsQueries ⟨"", [], ns, []⟩).2 (by
        rw [selector]
        exact .inr ⟨some_names, missing⟩))
      rw [selector] at covered
      have covered := covered.resolve_left some_names
      rw [if_pos (List.ne_nil_of_mem missing)] at covered
      exact other covered
  | other s => trivial

theorem expand_ne_nil {p : PcnPeer} : p.expand nameSpace ≠ [] ↔ ∀ s, p.peer ≠ .other s := by
  unfold PcnPeer.expand
  cases p.peer with
  | world => simp
  | pod =>
    simp only [ne_eq, reduceCtorEq, not_false_eq_true, implies_true, iff_true]
    unfold getPeersFromPcnPodSelector getNamespacesList
    rcases p.onNamespace with _ | s
    · simp
    · by_cases all : s.any = some true
      · simp [all]
      · by_cases names : s.withNames = []
        · simp [all, names]
        · simp [all, names]
  | other s => simp

end

section

variable {Ip : Type*} {policy : PcnPolicy} {serv : Option Service} {base : PcnParsedPolicy}
  {d : PolicyDirection} {c : RuleContainer} {ports : List ProtoPort}

theorem ofRule_peerPolicy (hd : base.direction = d) {i j : ℕ} {newPolicy : PcnParsedPolicy}
    {x : PolicyPeer × ℕ} : OfRule policy d (peerPolicy policy base j newPolicy x) i ↔ i = j := by
  rw [← hd]
  constructor
  · rintro ⟨n, h⟩
    exact (reformatPolicyName_inj h).2.1.symm
  · rintro rfl
    exact ⟨x.2, rfl⟩

variable (policy base ports) in
theorem exists_mem_of_peered {i : ℕ} {rules : List PcnRule} {rule : PcnRule}
    (hrule : rules[i]? = some rule) (peered : rule.Peered) :
    ∃ m n peer, peerPolicy policy base i (pcnRuleBase base ports rule m) (peer, n) ∈
      parseFrom policy base ports 0 0 rules := by
  obtain ⟨peer, hpeer⟩ := List.exists_mem_of_ne_nil _ (expand_ne_nil.2 peered)
  obtain ⟨m, n, mem⟩ := exists_mem_of_rule policy base ports 0 0 hrule hpeer
  rw [zero_add] at mem
  exact ⟨m, n, peer, mem⟩

theorem says_peerPolicy (hd : base.direction = d) (i m : ℕ) (rule : PcnRule)
    (x : PolicyPeer × ℕ) :
    Says (peerPolicy policy base i (pcnRuleBase base ports rule m) x) d
      (convertPcnAction rule.action).parsed (convertPcnAction rule.action)
      (if rule.protocols = [] then ports else parsePcnPorts rule.protocols) :=
  says_templates hd rfl (by rw [← hd]; rfl)

theorem ports_iff {rule : PcnRule} :
    rule.Ports serv (if rule.protocols = [] then servicePorts serv
      else parsePcnPorts rule.protocols) ↔
      (rule.protocols = [] → ∀ s, serv = some s → ∀ port ∈ s.ports, port.Clear) := by
  unfold PcnRule.Ports
  split_ifs with none
  · rw [ofService_iff]
    exact ⟨fun h _ => h, fun h => h none⟩
  · refine iff_of_true ?_ fun h => absurd h none
    unfold parsePcnPorts
    rw [List.forall₂_map_right_iff, List.forall₂_same]
    exact fun _ _ => rfl

theorem inOrder_iff [Inhabited Ip] (hd : base.direction = d) (rules : List PcnRule) :
    InOrder Ip policy serv d rules (parseFrom policy base (servicePorts serv) 0 0 rules) ↔
      (∀ rule ∈ rules, rule.peer.Clear policy.nameSpace) ∧
        ∀ rule ∈ rules, rule.Peered → rule.protocols = [] →
          ∀ s, serv = some s → ∀ port ∈ s.ports, port.Clear := by
  have peers : ∀ i rule, rules[i]? = some rule → ∀ (ρ : Reading Ip) (e : Endpoint Ip),
      (∃ p ∈ parseFrom policy base (servicePorts serv) 0 0 rules,
        OfRule policy d p i ∧ p.peer.covers ρ e = true) ↔
        ∃ x ∈ rule.peer.expand policy.nameSpace, x.covers ρ e = true := by
    intro i rule hrule ρ e
    constructor
    · rintro ⟨p, hp, ofRule, covers⟩
      obtain ⟨j, rule', hrule', peer, hpeer, m, n, -, rfl⟩ := exists_rule_of_mem hp
      rw [ofRule_peerPolicy hd, zero_add] at ofRule
      rw [ofRule, hrule', Option.some.injEq] at hrule
      exact ⟨peer, hrule ▸ hpeer, covers⟩
    · rintro ⟨peer, hpeer, covers⟩
      obtain ⟨m, n, mem⟩ := exists_mem_of_rule policy base (servicePorts serv) 0 0 hrule hpeer
      exact ⟨_, mem, (ofRule_peerPolicy hd).2 (zero_add i).symm, covers⟩
  constructor
  · intro inOrder
    constructor
    · intro rule mem
      obtain ⟨i, hi⟩ := List.mem_iff_getElem?.1 mem
      exact clear_of_expand fun (ρ : Reading Ip) (e : Endpoint Ip) =>
        (inOrder.peers i rule hi ρ e).trans (peers i rule hi ρ e)
    · intro rule mem peered none
      obtain ⟨i, hi⟩ := List.mem_iff_getElem?.1 mem
      obtain ⟨m, n, peer, mem⟩ := exists_mem_of_peered policy base (servicePorts serv) hi peered
      obtain ⟨act, ports, -, read, same, -⟩ :=
        inOrder.said i rule hi _ mem ((ofRule_peerPolicy hd).2 rfl)
      rw [← same] at read
      exact ports_iff.1 read none
  · rintro ⟨clear, known⟩
    refine ⟨?_, ?_, ?_, ?_⟩
    · refine (pairwise_parseFrom 0 0 rules).imp ?_
      rintro p q ⟨a, b, m, n, le, -, hp, hq⟩ i j ⟨m', hp'⟩ ⟨n', hq'⟩
      rw [hp] at hp'
      rw [hq] at hq'
      rw [← (reformatPolicyName_inj hp').2.1, ← (reformatPolicyName_inj hq').2.1]
      exact le
    · intro p hp
      obtain ⟨j, rule, hrule, peer, -, m, n, -, rfl⟩ := exists_rule_of_mem hp
      exact ⟨j, (List.getElem?_eq_some_iff.1 hrule).1,
        (ofRule_peerPolicy hd).2 (zero_add j).symm⟩
    · intro i rule hrule p hp ofRule
      obtain ⟨j, rule', hrule', peer, hpeer, m, n, -, rfl⟩ := exists_rule_of_mem hp
      rw [ofRule_peerPolicy hd, zero_add] at ofRule
      rw [ofRule, hrule', Option.some.injEq] at hrule
      rw [← hrule]
      have mem := List.mem_of_getElem? hrule'
      exact ⟨_, _, allows_iff, ports_iff.2 (known rule' mem
        (expand_ne_nil.1 (List.ne_nil_of_mem hpeer))), rfl, says_peerPolicy hd ..⟩
    · intro i rule hrule ρ e
      rw [peers i rule hrule, exists_expand_iff (clear rule (List.mem_of_getElem? hrule))]

theorem restrictsAll_iff (hd : base.direction = d) (action : PolicyAction) (act : RuleAction) :
    RestrictsAll serv d [restrictAll policy base (servicePorts serv) action act] action act ↔
      ∀ s, serv = some s → ∀ port ∈ s.ports, port.Clear := by
  have built : (restrictAll policy base (servicePorts serv) action act).templates =
      buildRuleTemplates d act (servicePorts serv) := by
    rw [← hd]
    rfl
  constructor
  · rintro ⟨p, ports, same, read, said⟩ s hs port hport
    rw [List.cons.injEq] at same
    rw [← same.1] at said
    exact known_of_says hs hport built read said
  · intro known
    exact ⟨_, _, rfl, ofService_iff.2 known, says_templates hd rfl built⟩

theorem names_parseContainer (hd : base.direction = d) :
    ((parseContainer policy base ports c).map fun p => p.name).Nodup ∧
      ∀ p ∈ parseContainer policy base ports c, ∃ i n,
        p.name = reformatPolicyName policy.name d i n := by
  by_cases restricts : c.Restricts
  · unfold parseContainer
    split_ifs with drop allow
    · exact ⟨List.nodup_singleton _, fun p hp => ⟨0, 0, by rw [List.mem_singleton.1 hp, ← hd]; rfl⟩⟩
    · exact ⟨List.nodup_singleton _, fun p hp => ⟨0, 0, by rw [List.mem_singleton.1 hp, ← hd]; rfl⟩⟩
    · exact absurd restricts (not_or.2 ⟨drop, allow⟩)
  · rw [parseContainer_rules policy base ports restricts]
    constructor
    · unfold List.Nodup
      rw [List.pairwise_map]
      refine (pairwise_parseFrom 0 0 c.rules).imp ?_
      rintro p q ⟨a, b, m, n, -, lt, hp, hq⟩ same
      rw [hp, hq] at same
      exact lt.ne (reformatPolicyName_inj same).2.2
    · intro p hp
      obtain ⟨j, rule, -, peer, -, m, n, -, rfl⟩ := exists_rule_of_mem hp
      exact ⟨0 + j, n, by rw [← hd]; rfl⟩

theorem subject_of_mem {p : PcnParsedPolicy} (hp : p ∈ parseContainer policy base ports c) :
    p.subject = base.subject := by
  by_cases restricts : c.Restricts
  · unfold parseContainer at hp
    split_ifs at hp with drop allow
    · rw [List.mem_singleton.1 hp]
      rfl
    · rw [List.mem_singleton.1 hp]
      rfl
    · exact absurd restricts (not_or.2 ⟨drop, allow⟩)
  · rw [parseContainer_rules policy base ports restricts] at hp
    obtain ⟨j, rule, -, peer, -, m, n, -, rfl⟩ := exists_rule_of_mem hp
    rfl

variable (policy base ports) in
theorem parseContainer_ne_nil : parseContainer policy base ports c ≠ [] ↔ c.Yields := by
  unfold RuleContainer.Yields
  by_cases restricts : c.Restricts
  · refine iff_of_true ?_ (.inl restricts)
    unfold parseContainer
    split_ifs with drop allow
    · exact List.cons_ne_nil _ _
    · exact List.cons_ne_nil _ _
    · exact absurd restricts (not_or.2 ⟨drop, allow⟩)
  · rw [parseContainer_rules policy base ports restricts, or_iff_right restricts]
    constructor
    · intro some_policy
      obtain ⟨p, hp⟩ := List.exists_mem_of_ne_nil _ some_policy
      obtain ⟨j, rule, hrule, peer, hpeer, -⟩ := exists_rule_of_mem hp
      exact ⟨rule, List.mem_of_getElem? hrule, expand_ne_nil.1 (List.ne_nil_of_mem hpeer)⟩
    · rintro ⟨rule, mem, peered⟩
      obtain ⟨i, hi⟩ := List.mem_iff_getElem?.1 mem
      obtain ⟨m, n, peer, there⟩ := exists_mem_of_peered policy base ports hi peered
      exact List.ne_nil_of_mem there

theorem translates_iff [Inhabited Ip] (hd : base.direction = d) :
    Translates Ip policy serv d c (parseContainer policy base (servicePorts serv) c) ↔
      (c.Yields → ∀ pod, base.Protects pod ↔ policy.AppliesTo serv pod) ∧
        c.Clear policy.nameSpace serv := by
  have subject : (∀ p ∈ parseContainer policy base (servicePorts serv) c,
      ∀ pod, p.Protects pod ↔ policy.AppliesTo serv pod) ↔
      (c.Yields → ∀ pod, base.Protects pod ↔ policy.AppliesTo serv pod) := by
    have same : ∀ p ∈ parseContainer policy base (servicePorts serv) c, ∀ pod,
        p.Protects pod ↔ base.Protects pod := by
      intro p hp pod
      unfold ParsedPolicy.Protects
      rw [subject_of_mem hp]
    rw [← parseContainer_ne_nil policy base (servicePorts serv)]
    constructor
    · intro right some_policy pod
      obtain ⟨p, hp⟩ := List.exists_mem_of_ne_nil _ some_policy
      exact (same p hp pod).symm.trans (right p hp pod)
    · intro right p hp pod
      exact (same p hp pod).trans (right (List.ne_nil_of_mem hp) pod)
  have content : (if c.dropAll = some true then
      RestrictsAll serv d (parseContainer policy base (servicePorts serv) c) .dropAll .drop
      else if c.allowAll = some true then
        RestrictsAll serv d (parseContainer policy base (servicePorts serv) c) .forwardAll .forward
      else InOrder Ip policy serv d c.rules (parseContainer policy base (servicePorts serv) c)) ↔
      c.Clear policy.nameSpace serv := by
    by_cases drop : c.dropAll = some true
    · have restricts : c.Restricts := .inl drop
      unfold parseContainer
      rw [if_pos drop, if_pos drop, restrictsAll_iff hd]
      exact ⟨fun known => ⟨fun h => absurd restricts h, fun _ => known⟩,
        fun clear => clear.ports (.inl restricts)⟩
    · by_cases allow : c.allowAll = some true
      · have restricts : c.Restricts := .inr allow
        unfold parseContainer
        rw [if_neg drop, if_pos allow, if_neg drop, if_pos allow, restrictsAll_iff hd]
        exact ⟨fun known => ⟨fun h => absurd restricts h, fun _ => known⟩,
          fun clear => clear.ports (.inl restricts)⟩
      · have free : ¬ c.Restricts := not_or.2 ⟨drop, allow⟩
        rw [if_neg drop, if_neg allow, parseContainer_rules policy base _ free, inOrder_iff hd]
        constructor
        · rintro ⟨peers, known⟩
          refine ⟨fun _ => peers, ?_⟩
          rintro (restricts | ⟨rule, mem, peered, none⟩)
          · exact absurd restricts free
          · exact known rule mem peered none
        · intro clear
          exact ⟨clear.peers free, fun rule mem peered none =>
            clear.ports (.inr ⟨rule, mem, peered, none⟩)⟩
  constructor
  · intro h
    exact ⟨subject.1 h.subject, content.1 h.content⟩
  · rintro ⟨right, clear⟩
    exact ⟨subject.2 right, (names_parseContainer hd).1, content.2 clear⟩

end

/-! ### The two parsers -/

section

variable {Ip : Type*} {policy : PcnPolicy} {serv : Option Service} {c : RuleContainer}

theorem parseContainer_unfilled {base : PcnParsedPolicy} {ports : List ProtoPort}
    (h : c.isFilled = false) : parseContainer policy base ports c = [] := by
  obtain ⟨⟨rules, drop⟩, allow⟩ : (c.rules = [] ∧ ¬c.dropAll = some true) ∧
      ¬c.allowAll = some true := by
    simpa [RuleContainer.isFilled] using h
  unfold parseContainer
  rw [if_neg drop, if_neg allow, rules]
  rfl

theorem parsePcnIngress_eq : parsePcnIngress policy serv =
    parseContainer policy (ingressBase policy serv) (servicePorts serv) policy.ingressRules := by
  unfold parsePcnIngress
  split_ifs with filled
  · rfl
  · exact (parseContainer_unfilled (Bool.eq_false_of_not_eq_true filled)).symm

theorem parsePcnEgress_eq : parsePcnEgress policy serv =
    parseContainer policy (egressBase policy serv) (servicePorts serv) policy.egressRules := by
  unfold parsePcnEgress
  split_ifs with filled
  · rfl
  · exact (parseContainer_unfilled (Bool.eq_false_of_not_eq_true filled)).symm

theorem ingressBase_protects : (∀ pod, (ingressBase policy serv).Protects pod ↔
    policy.AppliesTo serv pod) ↔ ∀ s, serv = some s → s.selector.labels ≠ [] := by
  rcases serv with _ | s
  · refine iff_of_true (fun pod => ?_) fun s h => by cases h
    exact and_congr_right fun _ => queryMatches_pods
  · have protects : ∀ pod : Pod, (ingressBase policy (some s)).Protects pod ↔
        pod.nameSpace = policy.nameSpace ∧ labelsContained s.selector.labels pod.labels = true := by
      intro pod
      rw [← queryMatches_labels _ pod.name]
      rfl
    simp only [protects, Option.some.injEq, forall_eq']
    constructor
    · intro right none
      -- a pod of the namespace, which no service selects
      have all := (right ⟨"", [], policy.nameSpace, []⟩).1 ⟨rfl, by rw [none]; rfl⟩
      exact all.2.1 none
    · intro some_label pod
      exact and_congr_right fun _ => (and_iff_right some_label).symm

theorem same_protects : (∀ pod, (egressBase policy serv).Protects pod ↔
    (ingressBase policy serv).Protects pod) ↔ (serv = none → policy.applyTo.any = some true ∨
      policy.applyTo.withLabels.labels = []) := by
  rcases serv with _ | s
  · have ingress : ∀ pod : Pod, (ingressBase policy none).Protects pod ↔
        policy.AppliesTo none pod := ingressBase_protects.2 fun s h => by cases h
    simp only [ingress, forall_const]
    constructor
    · intro same
      have all := ((same ⟨"", [], policy.nameSpace, []⟩).1 ⟨rfl, rfl⟩).2
      exact all.imp id labelsContained_nil.1
    · intro all pod
      refine and_congr_right fun _ => iff_of_true rfl (all.imp id fun none => ?_)
      rw [none]
      rfl
  · exact iff_of_true (fun pod => Iff.rfl) fun h => by cases h

theorem egressBase_protects : (∀ pod, (egressBase policy serv).Protects pod ↔
    policy.AppliesTo serv pod) ↔ policy.applyTo.Clear serv := by
  rcases serv with _ | s
  · have ingress : ∀ pod : Pod, (ingressBase policy none).Protects pod ↔
        policy.AppliesTo none pod := ingressBase_protects.2 fun s h => by cases h
    simp only [← ingress, same_protects, forall_const]
    rfl
  · have same : ∀ pod : Pod, (egressBase policy (some s)).Protects pod ↔
        (ingressBase policy (some s)).Protects pod := fun _ => Iff.rfl
    simp only [same, ingressBase_protects, Option.some.injEq, forall_eq']
    rfl

theorem forall₂_mirrors (same : ∀ pod, (egressBase policy serv).Protects pod ↔
    (ingressBase policy serv).Protects pod) (ports : List ProtoPort) :
    List.Forall₂ PcnParsedPolicy.Mirrors (parseContainer policy (egressBase policy serv) ports c)
      (parseContainer policy (ingressBase policy serv) ports c) := by
  have egress : (egressBase policy serv).direction = .outgoing := by cases serv <;> rfl
  have ingress : (ingressBase policy serv).direction = .incoming := by cases serv <;> rfl
  -- what the bases have alike, they have for any templates, action, ports, peer and priority
  have mirrors : ∀ (q p : PcnParsedPolicy) (act : RuleAction) (l : List ProtoPort),
      q.direction = .outgoing → p.direction = .incoming →
      q.templates = buildRuleTemplates .outgoing act l →
      p.templates = buildRuleTemplates .incoming act l →
      q.action = p.action → q.ports = p.ports → q.peer = p.peer → q.priority = p.priority →
      q.parentPolicy = p.parentPolicy → q.creationTime = p.creationTime →
      q.isService = p.isService → q.subject = (egressBase policy serv).subject →
      p.subject = (ingressBase policy serv).subject → q.Mirrors p := by
    intro q p act l hq hp tq tp action ports peer priority parent creation service sq sp
    refine ⟨?_, ?_, action, ports, peer, priority, parent, creation, service, fun pod => ?_⟩
    · rw [hq, hp]
      rfl
    · rw [tq, tp]
      rfl
    · have here := same pod
      unfold ParsedPolicy.Protects at here ⊢
      rw [sq, sp]
      exact here
  have restricts : ∀ action act,
      (restrictAll policy (egressBase policy serv) ports action act).Mirrors
        (restrictAll policy (ingressBase policy serv) ports action act) := by
    intro action act
    refine mirrors _ _ act ports egress ingress ?_ ?_ rfl ?_ ?_ ?_ ?_ ?_ ?_ rfl rfl
    · rw [← egress]
      rfl
    · rw [← ingress]
      rfl
    all_goals cases serv <;> rfl
  have rules : ∀ (rules : List PcnRule) (i count : ℕ), List.Forall₂ PcnParsedPolicy.Mirrors
      (parseFrom policy (egressBase policy serv) ports i count rules)
      (parseFrom policy (ingressBase policy serv) ports i count rules) := by
    intro rules
    induction rules with
    | nil => exact fun _ _ => .nil
    | cons rule rules ih =>
      intro i count
      refine List.rel_append ?_ (ih _ _)
      rw [List.forall₂_map_left_iff, List.forall₂_map_right_iff, List.forall₂_same]
      intro x _
      refine mirrors _ _ (convertPcnAction rule.action)
        (if rule.protocols = [] then ports else parsePcnPorts rule.protocols)
        egress ingress ?_ ?_ rfl rfl rfl rfl ?_ ?_ ?_ rfl rfl
      · rw [← egress]
        rfl
      · rw [← ingress]
        rfl
      all_goals cases serv <;> rfl
  by_cases drop : c.dropAll = some true
  · unfold parseContainer
    rw [if_pos drop, if_pos drop]
    exact .cons (restricts _ _) .nil
  · by_cases allow : c.allowAll = some true
    · unfold parseContainer
      rw [if_neg drop, if_pos allow, if_neg drop, if_pos allow]
      exact .cons (restricts _ _) .nil
    · have free : ¬ c.Restricts := not_or.2 ⟨drop, allow⟩
      rw [parseContainer_rules _ _ _ free, parseContainer_rules _ _ _ free]
      exact rules _ _ _

theorem mirroredAt_iff : MirroredAt policy serv c ↔ (c.Yields → serv = none →
    policy.applyTo.any = some true ∨ policy.applyTo.withLabels.labels = []) := by
  have egress : parsePcnEgress { policy with egressRules := c } serv =
      parseContainer policy (egressBase policy serv) (servicePorts serv) c := parsePcnEgress_eq
  have ingress : parsePcnIngress { policy with ingressRules := c } serv =
      parseContainer policy (ingressBase policy serv) (servicePorts serv) c := parsePcnIngress_eq
  unfold MirroredAt
  rw [egress, ingress]
  constructor
  · intro mirrored yields
    rw [← same_protects]
    obtain ⟨q, hq⟩ := List.exists_mem_of_ne_nil _
      ((parseContainer_ne_nil policy (egressBase policy serv) (servicePorts serv)).2 yields)
    obtain ⟨i, hi, rfl⟩ := List.mem_iff_getElem.1 hq
    have hi' := hi.trans_eq mirrored.length_eq
    obtain ⟨-, -, -, -, -, -, -, -, -, protects⟩ := List.Forall₂.get mirrored hi hi'
    intro pod
    have here := protects pod
    unfold ParsedPolicy.Protects at here ⊢
    rwa [List.get_eq_getElem, List.get_eq_getElem, subject_of_mem (List.getElem_mem hi),
      subject_of_mem (List.getElem_mem hi')] at here
  · intro clear
    by_cases yields : c.Yields
    · exact forall₂_mirrors (same_protects.2 (clear yields)) _
    · have noEgress := (parseContainer_ne_nil policy (egressBase policy serv)
        (servicePorts serv)).not.2 yields
      have noIngress := (parseContainer_ne_nil policy (ingressBase policy serv)
        (servicePorts serv)).not.2 yields
      rw [not_not.1 noEgress, not_not.1 noIngress]
      exact .nil

/-- The translation is faithful in both directions exactly for clear policies. -/
theorem faithfulPcn_iff [Inhabited Ip] (policy : PcnPolicy) (serv : Option Service) :
    FaithfulPcn Ip policy serv ↔ policy.Clear serv := by
  have ingress : Translates Ip policy serv .incoming policy.ingressRules
      (parsePcnIngress policy serv) ↔
        (policy.ingressRules.Yields → ∀ s, serv = some s → s.selector.labels ≠ []) ∧
          policy.ingressRules.Clear policy.nameSpace serv := by
    rw [parsePcnIngress_eq, translates_iff (by cases serv <;> rfl), ingressBase_protects]
  have egress : Translates Ip policy serv .outgoing policy.egressRules
      (parsePcnEgress policy serv) ↔ (policy.egressRules.Yields → policy.applyTo.Clear serv) ∧
        policy.egressRules.Clear policy.nameSpace serv := by
    rw [parsePcnEgress_eq, translates_iff (by cases serv <;> rfl), egressBase_protects]
  constructor
  · intro faithful
    obtain ⟨selects, clearIngress⟩ := ingress.1 faithful.ingress
    obtain ⟨clear, clearEgress⟩ := egress.1 faithful.egress
    refine ⟨?_, clearIngress, clearEgress⟩
    rintro (yields | yields)
    · have mirrored := mirroredAt_iff.1 faithful.mirrored.1 yields
      rcases serv with _ | s
      · exact mirrored rfl
      · exact selects yields s rfl
    · exact clear yields
  · rintro ⟨applyTo, clearIngress, clearEgress⟩
    have labels : policy.ingressRules.Yields ∨ policy.egressRules.Yields → serv = none →
        policy.applyTo.any = some true ∨ policy.applyTo.withLabels.labels = [] := by
      rintro yields rfl
      exact applyTo yields
    refine ⟨ingress.2 ⟨fun yields s hs => ?_, clearIngress⟩,
      egress.2 ⟨fun yields => applyTo (.inr yields), clearEgress⟩, ?_,
      mirroredAt_iff.2 fun yields => labels (.inl yields),
      mirroredAt_iff.2 fun yields => labels (.inr yields)⟩
    · have clear := applyTo (.inl yields)
      rw [hs] at clear
      exact clear
    · intro p hp q hq same
      rw [parsePcnIngress_eq] at hp
      rw [parsePcnEgress_eq] at hq
      obtain ⟨i, n, hp⟩ := (names_parseContainer (d := .incoming) (by cases serv <;> rfl)).2 p hp
      obtain ⟨j, m, hq⟩ := (names_parseContainer (d := .outgoing) (by cases serv <;> rfl)).2 q hq
      rw [hp, hq] at same
      cases (reformatPolicyName_inj same).1

end

def labelled : PcnPolicy where
  name := "p"
  nameSpace := "default"
  creationTimestamp := 0
  priority := 0
  applyTo := ⟨none, ⟨[("app", "web")], by decide⟩⟩
  ingressRules := ⟨none, none, []⟩
  egressRules := ⟨some true, none, []⟩
  preventDirectAccess := none

/-- All pods of the namespace are kept from going out. -/
theorem labelled_not_faithful : ¬ FaithfulPcn (BitVec 32) labelled none := by
  intro faithful
  have here := faithful.egress.subject _ List.mem_cons_self ⟨"db", [], "default", []⟩
  exact absurd (here.1 ⟨rfl, rfl⟩) (by
    rintro ⟨-, any | labels⟩
    · cases any
    · revert labels
      decide)

end Polycube.K8s
