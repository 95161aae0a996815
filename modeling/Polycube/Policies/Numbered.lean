import Polycube.K8s.PcnFaithful
import Polycube.K8s.Isolation
import Polycube.Policies.Precedence

/-!
# The numbers of the parsed policies

The parsers count the policies they make of a network policy.  The number is a part of the name,
by which a policy is enforced only once, and it is the priority, which puts the exceptions of an
address block before the block.
-/

namespace Polycube.Policies

open Lib K8s

def parsedRules (policy : NetworkPolicy) : PolicyDirection → List NetworkPolicyRule
  | .incoming =>
    let (rules, _, type) := parseK8sPolicyTypes policy.spec
    if type = .egress then [] else rules.getD []
  | .outgoing =>
    let (_, rules, type) := parseK8sPolicyTypes policy.spec
    if type = .ingress then [] else rules.getD []

def parsedPeers (r : NetworkPolicyRule) : List NetworkPolicyPeer :=
  if r.ports ≠ [] ∧ parseK8sPorts r.ports = [] then [] else r.peers.getD []

def exceptions (p : NetworkPolicyPeer) : List String := (p.ipBlock.map IPBlock.except).getD []

def exceptedPeers (policy : NetworkPolicy) (d : PolicyDirection) : List NetworkPolicyPeer :=
  ((parsedRules policy d).flatMap parsedPeers).filter fun p => exceptions p ≠ []

def dropped : List ParsedPolicy → List (ParsedPolicy × ParsedPolicy)
  | e :: p :: ps => if e.action = .drop then (e, p) :: dropped (p :: ps) else dropped (p :: ps)
  | _ => []

structure ComesFirst (p : NetworkPolicyPeer) (x : ParsedPolicy × ParsedPolicy) : Prop where
  exceptions : x.1.peer.ipBlock = exceptions p
  block : p.podSelector = none → p.namespaceSelector = none →
    x.2.peer.ipBlock = (p.ipBlock.map IPBlock.cidr).toList
  first : (priorityOf x.1).key < (priorityOf x.2).key

def parsedPolicies (policy : NetworkPolicy) : List ParsedPolicy :=
  parseK8s policy .incoming ++ parseK8s policy .outgoing

structure Deployable (policy : NetworkPolicy) : Prop where
  distinct : ((parsedPolicies policy).map ParsedPolicy.name).Nodup
  accepted : ∀ (rules : ParsedPolicy → ParsedRules) (d : Enforcer),
    (∀ p ∈ parsedPolicies policy, d.policyDirections p.name = none) →
    Meets (fun d p => enforcePolicy p (rules p) d) (fun d p => d.policyDirections p.name = none) d
      (parsedPolicies policy)
  ordered : ∀ d, List.Forall₂ ComesFirst (exceptedPeers policy d) (dropped (parseK8s policy d))

def policiesOf (p : NetworkPolicyPeer) : ℕ := if exceptions p = [] then 1 else 2

def policiesOfRule (r : NetworkPolicyRule) : ℕ :=
  if r.ports ≠ [] ∧ parseK8sPorts r.ports = [] then 0
  else match r.peers with
    | none => 1
    | some peers => (peers.map policiesOf).sum

def lastNumber (last k : ℕ) (p : NetworkPolicyPeer) : ℕ :=
  match p.ipBlock with
  | none => last
  | some _ => k + policiesOf p - 1

def numberPeers (last k : ℕ) : List NetworkPolicyPeer → List (NetworkPolicyPeer × ℕ × ℕ)
  | [] => []
  | p :: ps =>
    (if exceptions p = [] then [] else [(p, last, k + 1)]) ++
      numberPeers (lastNumber last k p) (k + policiesOf p) ps

def numberRules (k : ℕ) : List NetworkPolicyRule → List (NetworkPolicyPeer × ℕ × ℕ)
  | [] => []
  | r :: rs => numberPeers k k (parsedPeers r) ++ numberRules (k + policiesOfRule r) rs

def NoEgressExceptions (policy : NetworkPolicy) : Prop := exceptedPeers policy .outgoing = []

instance (policy : NetworkPolicy) : Decidable (NoEgressExceptions policy) :=
  inferInstanceAs (Decidable (exceptedPeers policy .outgoing = []))

def Counted (policy : NetworkPolicy) : Prop :=
  ∀ x ∈ numberRules 0 (parsedRules policy .incoming), Int32.ofNat x.2.1 < Int32.ofNat x.2.2

/-! ### What the loops add -/

section

variable {policy : NetworkPolicy} {d : PolicyDirection} {k k' k'' : ℕ}

def Numbered (policy : NetworkPolicy) (d : PolicyDirection) (k k' : ℕ) (ps : List ParsedPolicy) :
    Prop :=
  ∃ ns : List (ℕ × ℕ),
    ps.map ParsedPolicy.name = ns.map (fun n => reformatPolicyName policy.name d n.1 n.2) ∧
    (ns.map Prod.snd).Pairwise (· < ·) ∧ ∀ n ∈ ns.map Prod.snd, k ≤ n ∧ n < k'

structure Parsed (policy : NetworkPolicy) (d : PolicyDirection) (x : NetworkPolicyPeer × ℕ × ℕ)
    (y : ParsedPolicy × ParsedPolicy) : Prop where
  exceptions : y.1.peer.ipBlock = exceptions x.1
  block : x.1.podSelector = none → x.1.namespaceSelector = none →
    y.2.peer.ipBlock = (x.1.ipBlock.map IPBlock.cidr).toList
  parent : y.1.parentPolicy = y.2.parentPolicy
  time : y.1.creationTime = y.2.creationTime
  before : y.1.priority = Int32.ofNat x.2.1
  after : y.2.priority = Int32.ofNat x.2.2
  egress : d = .outgoing → y.1.name = y.2.name

structure Added (policy : NetworkPolicy) (d : PolicyDirection) (k k' : ℕ)
    (xs : List (NetworkPolicyPeer × ℕ × ℕ)) (ps : List ParsedPolicy) : Prop where
  le : k ≤ k'
  pairs : List.Forall₂ (Parsed policy d) xs (dropped ps)
  numbered : (d = .outgoing → xs = []) → Numbered policy d k k' ps
  closed : ∀ p ∈ ps.getLast?, p.action ≠ .drop

variable {ps : List ParsedPolicy}

theorem Numbered.append {qs : List ParsedPolicy} (hp : Numbered policy d k k' ps)
    (hq : Numbered policy d k' k'' qs) (le : k ≤ k') (le' : k' ≤ k'') :
    Numbered policy d k k'' (ps ++ qs) := by
  obtain ⟨ns, names, up, within⟩ := hp
  obtain ⟨ms, names', up', within'⟩ := hq
  refine ⟨ns ++ ms, by rw [List.map_append, List.map_append, names, names'], ?_, ?_⟩
  · rw [List.map_append, List.pairwise_append]
    refine ⟨up, up', fun n hn m hm => ?_⟩
    have small := (within n hn).2
    have large := (within' m hm).1
    omega
  · intro n hn
    rw [List.map_append, List.mem_append] at hn
    rcases hn with hn | hn
    · have := within n hn
      omega
    · have := within' n hn
      omega

theorem dropped_append (closed : ∀ p ∈ ps.getLast?, p.action ≠ .drop)
    (qs : List ParsedPolicy) : dropped (ps ++ qs) = dropped ps ++ dropped qs := by
  induction ps with
  | nil => rfl
  | cons e ps ih =>
    cases ps with
    | nil =>
      have kept : e.action ≠ .drop := closed e rfl
      cases qs with
      | nil => rfl
      | cons q qs =>
        change (if e.action = .drop then _ else dropped (q :: qs)) = _
        rw [if_neg kept]
        rfl
    | cons p ps =>
      have rest := ih (by simpa using closed)
      change (if e.action = .drop then (e, p) :: dropped (p :: ps ++ qs)
        else dropped (p :: ps ++ qs)) = (if e.action = .drop then (e, p) :: dropped (p :: ps)
        else dropped (p :: ps)) ++ dropped qs
      rw [rest]
      split_ifs <;> rfl

theorem Added.nil : Added policy d k k [] [] :=
  ⟨le_rfl, .nil, fun _ => ⟨[], rfl, .nil, by simp⟩, by simp⟩

theorem Added.append {xs ys : List (NetworkPolicyPeer × ℕ × ℕ)} {qs : List ParsedPolicy}
    (hp : Added policy d k k' xs ps) (hq : Added policy d k' k'' ys qs) :
    Added policy d k k'' (xs ++ ys) (ps ++ qs) := by
  refine ⟨hp.le.trans hq.le, ?_, fun none => ?_, fun p last => ?_⟩
  · rw [dropped_append hp.closed]
    exact List.rel_append hp.pairs hq.pairs
  · refine (hp.numbered fun out => ?_).append (hq.numbered fun out => ?_) hp.le hq.le
    · exact (List.append_eq_nil_iff.1 (none out)).1
    · exact (List.append_eq_nil_iff.1 (none out)).2
  · rw [List.getLast?_append] at last
    cases there : qs.getLast? with
    | none =>
      rw [there] at last
      exact hp.closed p last
    | some q =>
      rw [there] at last
      obtain rfl := Option.some.inj last
      exact hq.closed q there

theorem Added.one {p : ParsedPolicy} (i : ℕ) (name : p.name = reformatPolicyName policy.name d i k)
    (action : p.action ≠ .drop) : Added policy d k (k + 1) [] [p] := by
  refine ⟨Nat.le_succ k, .nil, fun _ => ⟨[(i, k)], by simp [name], by simp, by simp⟩, ?_⟩
  intro q last
  obtain rfl := Option.some.inj last
  exact action

theorem Added.two {x : NetworkPolicyPeer × ℕ × ℕ} {e p : ParsedPolicy} (i : ℕ)
    (name : e.name = reformatPolicyName policy.name d i k)
    (name' : d = .incoming → p.name = reformatPolicyName policy.name d i (k + 1))
    (drops : e.action = .drop) (action : p.action ≠ .drop) (parsed : Parsed policy d x (e, p)) :
    Added policy d k (k + 2) [x] [e, p] := by
  refine ⟨by omega, ?_, fun none => ?_, ?_⟩
  · have pair : dropped [e, p] = [(e, p)] := if_pos drops
    rw [pair]
    exact .cons parsed .nil
  · have incoming : d = .incoming := by
      cases d with
      | incoming => rfl
      | outgoing => cases none rfl
    exact ⟨[(i, k), (i, k + 1)], by simp [name, name' incoming], by simp, by simp⟩
  · intro q last
    obtain rfl := Option.some.inj last
    exact action

structure Building (last : ℕ) (p : ParsedPolicy) : Prop where
  action : p.action = .forward
  priority : p.priority = Int32.ofNat last

variable (policy) in
theorem parseSelectors_spec (st : PeerState) (p : NetworkPolicyPeer) : ∃ peer,
    parseSelectors policy st p = { st with newPolicy := { st.newPolicy with peer := peer } } ∧
    (p.podSelector = none → p.namespaceSelector = none → peer = st.newPolicy.peer) := by
  unfold parseSelectors
  split_ifs with selectors
  · have some : p.podSelector = none → p.namespaceSelector ≠ none := by
      intro pod ns
      rw [pod, ns] at selectors
      simp at selectors
    cases getPeersFromK8sSelectors p.podSelector p.namespaceSelector policy.nameSpace with
    | ok peer => exact ⟨peer, rfl, fun pod ns => absurd ns (some pod)⟩
    | error _ => exact ⟨st.newPolicy.peer, rfl, fun _ _ => rfl⟩
  · exact ⟨st.newPolicy.peer, rfl, fun _ _ => rfl⟩

variable (policy d)

theorem parsePeer_added {last : ℕ} {st : PeerState} (h : Building last st.newPolicy)
    (p : NetworkPolicyPeer) (i : ℕ) : ∃ ps,
    (parsePeer policy d st (p, i)).policies = st.policies ++ ps ∧
    (parsePeer policy d st (p, i)).peerID = st.peerID + policiesOf p ∧
    Building (lastNumber last st.peerID p) (parsePeer policy d st (p, i)).newPolicy ∧
    Added policy d st.peerID (st.peerID + policiesOf p)
      (if exceptions p = [] then [] else [(p, last, st.peerID + 1)]) ps := by
  set st₀ : PeerState := { st with newPolicy := { st.newPolicy with
    name := reformatPolicyName policy.name d i st.peerID } } with hst
  obtain ⟨pod, ns, ipBlock⟩ := p
  unfold parsePeer lastNumber policiesOf exceptions
  dsimp only
  rw [← hst]
  cases ipBlock with
  | none =>
    obtain ⟨peer, same, -⟩ := parseSelectors_spec policy st₀ ⟨pod, ns, none⟩
    dsimp only
    rw [same]
    refine ⟨_, rfl, rfl, ⟨h.action, h.priority⟩, .one i rfl ?_⟩
    dsimp only
    rw [h.action]
    decide
  | some block =>
    obtain ⟨peer, same, kept⟩ := parseSelectors_spec policy
      (parseIPBlock policy d i st₀ block) ⟨pod, ns, some block⟩
    dsimp only at kept ⊢
    rw [same, Option.map_some, Option.getD_some]
    unfold parseIPBlock getPeersFromIPBlock at kept ⊢
    dsimp only at kept ⊢
    by_cases none : block.except = []
    · rw [if_pos none, if_pos none, if_pos none]
      refine ⟨_, rfl, rfl, ⟨h.action, rfl⟩, .one i ?_ ?_⟩
      · cases d <;> rfl
      · dsimp only
        rw [h.action]
        decide
    · rw [if_neg none, if_neg none, if_neg none]
      refine ⟨_, List.append_assoc .., rfl, ⟨h.action, rfl⟩, .two i rfl ?_ rfl ?_ ?_⟩
      · rintro rfl
        rfl
      · dsimp only
        rw [h.action]
        decide
      · refine ⟨rfl, fun noPod noNs => ?_, rfl, rfl, h.priority, rfl, ?_⟩
        · dsimp only
          rw [kept noPod noNs]
          rfl
        · rintro rfl
          rfl

theorem foldl_parsePeer_added {last : ℕ} (peers : List NetworkPolicyPeer) (n : ℕ) {st : PeerState}
    (h : Building last st.newPolicy) : ∃ ps,
    ((peers.zipIdx n).foldl (parsePeer policy d) st).policies = st.policies ++ ps ∧
    ((peers.zipIdx n).foldl (parsePeer policy d) st).peerID =
      st.peerID + (peers.map policiesOf).sum ∧
    Added policy d st.peerID (st.peerID + (peers.map policiesOf).sum)
      (numberPeers last st.peerID peers) ps := by
  induction peers generalizing n last st with
  | nil => exact ⟨[], (List.append_nil _).symm, rfl, .nil⟩
  | cons p peers ih =>
    obtain ⟨ps, policies, id, building, added⟩ := parsePeer_added policy d h p n
    obtain ⟨qs, policies', id', added'⟩ := ih (n + 1) building
    rw [id] at id' added'
    rw [List.zipIdx_cons, List.foldl_cons, List.map_cons, List.sum_cons, ← Nat.add_assoc]
    refine ⟨ps ++ qs, ?_, id', added.append added'⟩
    rw [policies', policies, List.append_assoc]

theorem parseRule_added (st : List ParsedPolicy × ℕ) (r : NetworkPolicyRule) : ∃ ps,
    parseRule policy d st r = (st.1 ++ ps, st.2 + policiesOfRule r) ∧
    Added policy d st.2 (st.2 + policiesOfRule r) (numberPeers st.2 st.2 (parsedPeers r)) ps := by
  unfold parseRule policiesOfRule parsedPeers
  by_cases skipped : r.ports ≠ [] ∧ parseK8sPorts r.ports = []
  · dsimp only
    rw [if_pos skipped, if_pos skipped, if_pos skipped]
    exact ⟨[], by simp, .nil⟩
  · dsimp only
    rw [if_neg skipped, if_neg skipped, if_neg skipped]
    cases r.peers with
    | none => exact ⟨_, rfl, .one 0 rfl nofun⟩
    | some peers =>
      have building : Building st.2 (ruleBase policy d (parseK8sPorts r.ports) st.2) := ⟨rfl, rfl⟩
      obtain ⟨ps, policies, id, added⟩ := @foldl_parsePeer_added policy d st.2 peers 0
        ⟨st.1, ruleBase policy d (parseK8sPorts r.ports) st.2, st.2⟩ building
      exact ⟨ps, Prod.ext policies id, added⟩

def policiesOfRules (rules : List NetworkPolicyRule) : ℕ := (rules.map policiesOfRule).sum

theorem foldl_parseRule_added (rules : List NetworkPolicyRule) (st : List ParsedPolicy × ℕ) :
    ∃ ps, (rules.foldl (parseRule policy d) st).1 = st.1 ++ ps ∧
      Added policy d st.2 (st.2 + policiesOfRules rules) (numberRules st.2 rules) ps := by
  induction rules generalizing st with
  | nil => exact ⟨[], (List.append_nil _).symm, .nil⟩
  | cons r rules ih =>
    obtain ⟨ps, parsed, added⟩ := parseRule_added policy d st r
    obtain ⟨qs, parsed', added'⟩ := ih (parseRule policy d st r)
    rw [parsed] at parsed' added'
    refine ⟨ps ++ qs, ?_, ?_⟩
    · rw [List.foldl_cons, parsed, parsed', List.append_assoc]
    · unfold policiesOfRules
      rw [List.map_cons, List.sum_cons, ← Nat.add_assoc]
      exact added.append added'

theorem parseK8s_added :
    ∃ k, Added policy d 0 k (numberRules 0 (parsedRules policy d)) (parseK8s policy d) := by
  have rules : ∀ rules, ∃ k, Added policy d 0 k (numberRules 0 rules) (parseRules policy d rules)
      := by
    intro rules
    unfold parseRules
    by_cases none : rules = []
    · rw [if_pos none, none]
      exact ⟨1, .one 0 rfl nofun⟩
    · rw [if_neg none]
      obtain ⟨ps, parsed, added⟩ := foldl_parseRule_added policy d rules ([], 0)
      rw [parsed, List.nil_append]
      exact ⟨_, added⟩
  cases d with
  | incoming =>
    unfold parseK8s parseK8sIngress parsedRules
    dsimp only
    split_ifs
    · exact ⟨0, .nil⟩
    · exact rules _
  | outgoing =>
    unfold parseK8s parseK8sEgress parsedRules
    dsimp only
    split_ifs
    · exact ⟨0, .nil⟩
    · exact rules _

theorem map_numberPeers (last k : ℕ) (peers : List NetworkPolicyPeer) :
    (numberPeers last k peers).map Prod.fst = peers.filter fun p => exceptions p ≠ [] := by
  induction peers generalizing last k with
  | nil => rfl
  | cons p peers ih =>
    unfold numberPeers
    rw [List.map_append, ih]
    by_cases none : exceptions p = []
    · rw [if_pos none, List.filter_cons_of_neg (by simpa using none)]
      rfl
    · rw [if_neg none, List.filter_cons_of_pos (by simpa using none)]
      rfl

theorem map_numberRules (k : ℕ) (rules : List NetworkPolicyRule) :
    (numberRules k rules).map Prod.fst =
      (rules.flatMap parsedPeers).filter fun p => exceptions p ≠ [] := by
  induction rules generalizing k with
  | nil => rfl
  | cons r rules ih =>
    unfold numberRules
    rw [List.map_append, map_numberPeers, ih, List.flatMap_cons, List.filter_append]

theorem map_numbered :
    (numberRules 0 (parsedRules policy d)).map Prod.fst = exceptedPeers policy d :=
  map_numberRules 0 _

variable {policy d}

theorem Parsed.comesFirst_iff {x : NetworkPolicyPeer × ℕ × ℕ} {y : ParsedPolicy × ParsedPolicy}
    (h : Parsed policy d x y) :
    ComesFirst x.1 y ↔ Int32.ofNat x.2.1 < Int32.ofNat x.2.2 := by
  have key : (priorityOf y.1).key < (priorityOf y.2).key ↔
      Int32.ofNat x.2.1 < Int32.ofNat x.2.2 := by
    rw [key_lt_iff]
    unfold priorityOf
    rw [h.parent, h.time, h.before, h.after]
    simp
  exact ⟨fun comes => key.1 comes.first, fun lt => ⟨h.exceptions, h.block, key.2 lt⟩⟩

theorem comesFirst_iff {xs : List (NetworkPolicyPeer × ℕ × ℕ)}
    {ys : List (ParsedPolicy × ParsedPolicy)} (h : List.Forall₂ (Parsed policy d) xs ys) :
    List.Forall₂ ComesFirst (xs.map Prod.fst) ys ↔
      ∀ x ∈ xs, Int32.ofNat x.2.1 < Int32.ofNat x.2.2 := by
  induction h with
  | nil => simp
  | cons parsed _ ih =>
    rw [List.map_cons, List.forall₂_cons, parsed.comesFirst_iff, ih, List.forall_mem_cons]

theorem Numbered.nodup (h : Numbered policy d k k' ps) : (ps.map ParsedPolicy.name).Nodup := by
  obtain ⟨ns, names, up, -⟩ := h
  rw [names]
  refine List.Pairwise.map _ (R := fun a b : ℕ × ℕ => a.2 < b.2) ?_ (List.pairwise_map.1 up)
  intro a b lt same
  exact lt.ne (reformatPolicyName_inj same).2.2

theorem Numbered.of_mem (h : Numbered policy d k k' ps)
    {name : String} (mem : name ∈ ps.map ParsedPolicy.name) :
    ∃ i n, name = reformatPolicyName policy.name d i n := by
  obtain ⟨ns, names, -⟩ := h
  rw [names] at mem
  obtain ⟨n, -, rfl⟩ := List.mem_map.1 mem
  exact ⟨n.1, n.2, rfl⟩

theorem dropped_sublist {y : ParsedPolicy × ParsedPolicy}
    (h : y ∈ dropped ps) : [y.1, y.2].Sublist ps := by
  induction ps with
  | nil => cases h
  | cons e ps ih =>
    cases ps with
    | nil => cases h
    | cons p ps =>
      change y ∈ if e.action = .drop then (e, p) :: dropped (p :: ps) else dropped (p :: ps) at h
      split_ifs at h
      · rcases List.mem_cons.1 h with rfl | h
        · exact ((List.nil_sublist ps).cons_cons p).cons_cons e
        · exact (ih h).cons e
      · exact (ih h).cons e

/-- The names of both directions are distinct when no block that packets may go to has
exceptions. -/
theorem nodup_names_iff (policy : NetworkPolicy) :
    ((parsedPolicies policy).map ParsedPolicy.name).Nodup ↔ NoEgressExceptions policy := by
  obtain ⟨k, ingress⟩ := parseK8s_added policy .incoming
  obtain ⟨k', egress⟩ := parseK8s_added policy .outgoing
  unfold parsedPolicies NoEgressExceptions
  rw [← map_numbered, List.map_eq_nil_iff, List.map_append]
  constructor
  · intro nodup
    by_contra some
    -- an exception and its block have one name
    obtain ⟨x, xs, cons⟩ := List.exists_cons_of_ne_nil some
    have pairs := egress.pairs
    rw [cons, List.forall₂_cons_left_iff] at pairs
    obtain ⟨y, ys, parsed, -, there⟩ := pairs
    have hy : y ∈ dropped (parseK8s policy .outgoing) := there ▸ List.mem_cons_self
    have two := ((dropped_sublist hy).map ParsedPolicy.name).nodup
      (List.nodup_append.1 nodup).2.1
    rw [List.map_cons, List.map_cons, parsed.egress rfl] at two
    simp at two
  · intro none
    have ingress := ingress.numbered nofun
    have egress := egress.numbered fun _ => none
    refine List.nodup_append.2 ⟨ingress.nodup, egress.nodup, fun a ha b hb same => ?_⟩
    obtain ⟨i, n, rfl⟩ := ingress.of_mem ha
    obtain ⟨j, m, rfl⟩ := egress.of_mem hb
    cases (reformatPolicyName_inj same).1

theorem meets_enforcePolicy {rules : ParsedPolicy → ParsedRules}
    (distinct : (ps.map ParsedPolicy.name).Nodup) {d : Enforcer}
    (new : ∀ p ∈ ps, d.policyDirections p.name = none) :
    Meets (fun d p => enforcePolicy p (rules p) d) (fun d p => d.policyDirections p.name = none) d
      ps := by
  induction ps generalizing d with
  | nil => trivial
  | cons p ps ih =>
    rw [List.map_cons, List.nodup_cons] at distinct
    have here := new p List.mem_cons_self
    refine ⟨here, ih distinct.2 fun q hq => ?_⟩
    have other : q.name ≠ p.name := by
      intro same
      exact distinct.1 (same ▸ List.mem_map_of_mem hq)
    dsimp only
    unfold enforcePolicy
    rw [here, if_neg (by decide)]
    dsimp only
    rw [Function.update_of_ne other]
    exact new q (List.mem_cons_of_mem p hq)

end

/-- The parsed policies are distinct and the exceptions come first if and only if no block that
packets may go to has exceptions and the numbers do not leave 32 bits at an exception. -/
theorem deployable_iff (policy : NetworkPolicy) :
    Deployable policy ↔ NoEgressExceptions policy ∧ Counted policy := by
  have ordered : ∀ d, List.Forall₂ ComesFirst (exceptedPeers policy d)
      (dropped (parseK8s policy d)) ↔
      ∀ x ∈ numberRules 0 (parsedRules policy d), Int32.ofNat x.2.1 < Int32.ofNat x.2.2 := by
    intro d
    obtain ⟨k, added⟩ := parseK8s_added policy d
    rw [← map_numbered]
    exact comesFirst_iff added.pairs
  constructor
  · intro h
    exact ⟨(nodup_names_iff policy).1 h.distinct, (ordered .incoming).1 (h.ordered .incoming)⟩
  · rintro ⟨none, counted⟩
    have distinct := (nodup_names_iff policy).2 none
    refine ⟨distinct, fun rules d => meets_enforcePolicy distinct, fun d => (ordered d).2 ?_⟩
    cases d with
    | incoming => exact counted
    | outgoing =>
      have nil : numberRules 0 (parsedRules policy .outgoing) = [] := by
        rw [← List.map_eq_nil_iff, map_numbered]
        exact none
      rw [nil]
      simp

def allButOne : NetworkPolicy where
  name := "web"
  nameSpace := "default"
  creationTimestamp := 0
  spec :=
    { podSelector := ⟨[], none⟩
      ingress := none
      egress := some [⟨[], some [⟨none, none, some ⟨"10.0.0.0/24", ["10.0.0.1/32"]⟩⟩]⟩]
      policyTypes := some [.egress] }

theorem not_deployable_allButOne : ¬ ∀ policy, Deployable policy := by
  intro all
  have none := (nodup_names_iff allButOne).1 (all allButOne).distinct
  exact absurd none (by decide)

end Polycube.Policies
