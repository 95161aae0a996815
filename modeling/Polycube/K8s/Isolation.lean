import Polycube.K8s.Parser

/-!
# Isolation

A policy isolates a pod in a direction once one parsed policy of that direction is enforced.
`Isolates` says that a policy does so in every direction it selects, and `isolates_iff` when.
-/

namespace Polycube.K8s

def NetworkPolicySpec.types (spec : NetworkPolicySpec) : List PolicyType :=
  spec.policyTypes.getD []

def NetworkPolicySpec.rules (spec : NetworkPolicySpec) : PolicyDirection → List NetworkPolicyRule
  | .incoming => spec.ingress.getD []
  | .outgoing => spec.egress.getD []

def NetworkPolicySpec.Selects (spec : NetworkPolicySpec) : PolicyDirection → Prop
  | .incoming => spec.types = [] ∨ .ingress ∈ spec.types
  | .outgoing => (spec.types = [] ∧ spec.rules .outgoing ≠ []) ∨ .egress ∈ spec.types

def parseK8s (policy : NetworkPolicy) : PolicyDirection → List ParsedPolicy
  | .incoming => parseK8sIngress policy
  | .outgoing => parseK8sEgress policy

def Isolates (policy : NetworkPolicy) : Prop :=
  ∀ d, policy.spec.Selects d → parseK8s policy d ≠ []

def NetworkPolicyPort.Supported (p : NetworkPolicyPort) : Prop :=
  p.protocol = none ∨ p.protocol = some .tcp ∨ p.protocol = some .udp

def NetworkPolicyRule.Usable (r : NetworkPolicyRule) : Prop :=
  (r.ports = [] ∨ ∃ p ∈ r.ports, p.Supported) ∧ r.peers ≠ some []

/-! ### What the rules yield -/

theorem parseK8sPort_isSome_iff (p : NetworkPolicyPort) :
    (parseK8sPort p).isSome ↔ p.Supported := by
  unfold parseK8sPort NetworkPolicyPort.Supported
  rcases p.protocol with _ | proto
  · simp
  · cases proto <;> simp [parseProtocolAndPort]

theorem parseK8sPorts_eq_nil_iff (ports : List NetworkPolicyPort) :
    parseK8sPorts ports = [] ↔ ∀ p ∈ ports, ¬ p.Supported := by
  simp only [parseK8sPorts, List.filterMap_eq_nil_iff, ← parseK8sPort_isSome_iff,
    Option.not_isSome_iff_eq_none]

section

variable (policy : NetworkPolicy) (d : PolicyDirection)

@[simp] theorem parseSelectors_policies (st : PeerState) (p : NetworkPolicyPeer) :
    (parseSelectors policy st p).policies = st.policies := by
  unfold parseSelectors
  split_ifs
  · split <;> rfl
  · rfl

theorem length_parseIPBlock_le (i : ℕ) (st : PeerState) (block : IPBlock) :
    st.policies.length ≤ (parseIPBlock policy d i st block).policies.length := by
  unfold parseIPBlock getPeersFromIPBlock
  by_cases h : block.except = [] <;> simp [h]

theorem length_lt_parsePeer (st : PeerState) (x : NetworkPolicyPeer × ℕ) :
    st.policies.length < (parsePeer policy d st x).policies.length := by
  obtain ⟨p, i⟩ := x
  simp only [parsePeer, parseSelectors_policies, List.length_append, List.length_singleton]
  cases p.ipBlock with
  | none => exact Nat.lt_succ_self _
  | some block =>
    exact Nat.lt_succ_of_le (length_parseIPBlock_le policy d i
      { st with newPolicy := { st.newPolicy with
        name := reformatPolicyName policy.name d i st.peerID } } block)

theorem length_foldl_parsePeer (l : List (NetworkPolicyPeer × ℕ)) (st : PeerState) :
    st.policies.length + l.length ≤ (l.foldl (parsePeer policy d) st).policies.length := by
  induction l generalizing st with
  | nil => simp
  | cons x l ih =>
    have one := length_lt_parsePeer policy d st x
    have rest := ih (parsePeer policy d st x)
    simp only [List.foldl_cons, List.length_cons]
    omega

theorem parseRule_usable {r : NetworkPolicyRule} (h : r.Usable) (st : List ParsedPolicy × ℕ) :
    st.1.length < (parseRule policy d st r).1.length := by
  obtain ⟨hports, hpeers⟩ := h
  have kept : ¬ (r.ports ≠ [] ∧ parseK8sPorts r.ports = []) := by
    rintro ⟨hne, hnil⟩
    obtain ⟨p, hp, hsup⟩ := hports.resolve_left hne
    exact (parseK8sPorts_eq_nil_iff _).1 hnil p hp hsup
  simp only [parseRule, kept, if_false]
  match hr : r.peers with
  | none => simp
  | some peers =>
    have added := length_foldl_parsePeer policy d peers.zipIdx
      ⟨st.1, ruleBase policy d (parseK8sPorts r.ports) st.2, st.2⟩
    have some_peer : 0 < peers.length :=
      List.length_pos_iff.2 fun e => hpeers (by rw [hr, e])
    simp only [List.length_zipIdx] at added
    simp only [gt_iff_lt]
    omega

theorem parseRule_not_usable {r : NetworkPolicyRule} (h : ¬ r.Usable)
    (st : List ParsedPolicy × ℕ) : parseRule policy d st r = st := by
  unfold parseRule
  by_cases skipped : r.ports ≠ [] ∧ parseK8sPorts r.ports = []
  · simp only [skipped, ne_eq, not_false_eq_true, and_self, if_true]
  · have noPeers : r.peers = some [] := by
      by_contra hpeers
      refine h ⟨?_, hpeers⟩
      by_contra! hnone
      exact skipped ⟨hnone.1, (parseK8sPorts_eq_nil_iff _).2 hnone.2⟩
    simp only [skipped, if_false, noPeers, List.zipIdx_nil, List.foldl_nil]

theorem foldl_parseRule_ne_nil_iff (rules : List NetworkPolicyRule)
    (st : List ParsedPolicy × ℕ) :
    (rules.foldl (parseRule policy d) st).1 ≠ [] ↔ st.1 ≠ [] ∨ ∃ r ∈ rules, r.Usable := by
  induction rules generalizing st with
  | nil => simp
  | cons r rules ih =>
    rw [List.foldl_cons, ih]
    by_cases h : r.Usable
    · have grown : (parseRule policy d st r).1 ≠ [] :=
        List.ne_nil_of_length_pos (Nat.zero_lt_of_lt (parseRule_usable policy d h st))
      exact iff_of_true (.inl grown) (.inr ⟨r, List.mem_cons_self, h⟩)
    · rw [parseRule_not_usable policy d h st]
      simp [h]

theorem parseRules_ne_nil_iff (rules : List NetworkPolicyRule) :
    parseRules policy d rules ≠ [] ↔ rules = [] ∨ ∃ r ∈ rules, r.Usable := by
  unfold parseRules
  by_cases h : rules = []
  · simp [h]
  · simp [h, foldl_parseRule_ne_nil_iff]

end

section

variable (spec : NetworkPolicySpec)

theorem foldl_policyTypesStep (types : List PolicyType)
    (st : Option (List NetworkPolicyRule) × Option (List NetworkPolicyRule) × ParsedType) :
    let r := types.foldl (policyTypesStep spec) st
    r.1 = (if .ingress ∈ types then spec.ingress else st.1) ∧
    r.2.1 = (if .egress ∈ types then spec.egress else st.2.1) ∧
    (r.2.2 = .ingress → .ingress ∈ types ∨ st.2.2 = .ingress) ∧
    (r.2.2 = .egress → .egress ∈ types ∨ st.2.2 = .egress) ∧
    (r.2.2 = .unset → st.2.2 = .unset ∧ .ingress ∉ types ∧ .egress ∉ types) := by
  induction types generalizing st with
  | nil => simp
  | cons t types ih =>
    simp only [List.foldl_cons]
    obtain ⟨h₁, h₂, h₃, h₄, h₅⟩ := ih (policyTypesStep spec st t)
    rw [h₁, h₂]
    cases t with
    | ingress => simp_all [policyTypesStep]
    | egress => simp_all [policyTypesStep]
    | other s => simp_all [policyTypesStep]

/-- The types a policy names decide which rules are parsed.  When both directions are named and
one list of rules is nil, the direction named last takes it all. -/
theorem parseK8sPolicyTypes_cases :
    (spec.types = [] ∧ parseK8sPolicyTypes spec = (spec.ingress, none, .ingress)) ∨
    (.ingress ∈ spec.types ∧ .egress ∈ spec.types ∧ spec.ingress.isSome ∧ spec.egress.isSome ∧
      parseK8sPolicyTypes spec = (spec.ingress, spec.egress, .unset)) ∨
    (.ingress ∈ spec.types ∧ .egress ∈ spec.types ∧ ¬ (spec.ingress.isSome ∧ spec.egress.isSome) ∧
      (parseK8sPolicyTypes spec).2.2 ≠ .unset) ∨
    (.ingress ∈ spec.types ∧ .egress ∉ spec.types ∧
      parseK8sPolicyTypes spec = (spec.ingress, none, .ingress)) ∨
    (.ingress ∉ spec.types ∧ .egress ∈ spec.types ∧
      parseK8sPolicyTypes spec = (none, spec.egress, .egress)) ∨
    (spec.types ≠ [] ∧ .ingress ∉ spec.types ∧ .egress ∉ spec.types ∧
      parseK8sPolicyTypes spec = (none, none, .unset)) := by
  unfold parseK8sPolicyTypes
  rw [← NetworkPolicySpec.types]
  by_cases hnil : spec.types = []
  · exact .inl ⟨hnil, by simp [hnil]⟩
  refine .inr ?_
  obtain ⟨h₁, h₂, h₃, h₄, h₅⟩ := foldl_policyTypesStep spec spec.types (none, none, .unset)
  simp only [hnil, if_false]
  set r := spec.types.foldl (policyTypesStep spec) (none, none, .unset)
  have type_eq : r = (r.1, r.2.1, r.2.2) := rfl
  by_cases hi : .ingress ∈ spec.types <;> by_cases he : .egress ∈ spec.types
  · have named : r.2.2 ≠ .unset := fun h => (h₅ h).2.1 hi
    simp only [hi, he, if_true] at h₁ h₂
    rw [h₁, h₂]
    by_cases hsome : spec.ingress.isSome ∧ spec.egress.isSome
    · exact .inl ⟨hi, he, hsome.1, hsome.2, by simp [hsome]⟩
    · exact .inr (.inl ⟨hi, he, hsome, by simpa only [hsome, if_false] using named⟩)
  · have last : r.2.2 = .ingress := by
      cases h : r.2.2 with
      | ingress => rfl
      | egress => simpa [he] using h₄ h
      | unset => exact absurd hi (h₅ h).2.1
    simp only [hi, he, if_true, if_false] at h₁ h₂
    refine .inr (.inr (.inl ⟨hi, he, ?_⟩))
    rw [type_eq, h₁, h₂, last]
    simp
  · have last : r.2.2 = .egress := by
      cases h : r.2.2 with
      | ingress => simpa [hi] using h₃ h
      | egress => rfl
      | unset => exact absurd he (h₅ h).2.2
    simp only [hi, he, if_true, if_false] at h₁ h₂
    refine .inr (.inr (.inr (.inl ⟨hi, he, ?_⟩)))
    rw [type_eq, h₁, h₂, last]
    simp
  · have last : r.2.2 = .unset := by
      cases h : r.2.2 with
      | ingress => simpa [hi] using h₃ h
      | egress => simpa [he] using h₄ h
      | unset => rfl
    simp only [hi, he, if_false] at h₁ h₂
    refine .inr (.inr (.inr (.inr ⟨hnil, hi, he, ?_⟩)))
    rw [type_eq, h₁, h₂, last]
    simp

end

/-- What keeps the isolation of a policy: one without types has no egress rules, one that names
both directions has both lists, and the rules of a selected direction are none at all or have a
usable one among them. -/
def NetworkPolicySpec.Kept (spec : NetworkPolicySpec) : Prop :=
  (spec.types = [] → spec.rules .outgoing = []) ∧
  (.ingress ∈ spec.types → .egress ∈ spec.types → spec.ingress.isSome ∧ spec.egress.isSome) ∧
  ∀ d, spec.Selects d → spec.rules d = [] ∨ ∃ r ∈ spec.rules d, r.Usable

/-- A policy isolates in every direction it selects exactly when its isolation is kept. -/
theorem isolates_iff (policy : NetworkPolicy) : Isolates policy ↔ policy.spec.Kept := by
  have directions : ∀ P : PolicyDirection → Prop, (∀ d, P d) ↔ P .incoming ∧ P .outgoing :=
    fun P => ⟨fun h => ⟨h _, h _⟩, fun ⟨hi, ho⟩ d => by cases d <;> assumption⟩
  have mem_ne : ∀ t ∈ policy.spec.types, policy.spec.types ≠ [] :=
    fun t h e => List.not_mem_nil (e ▸ h)
  simp only [Isolates, NetworkPolicySpec.Kept, directions, parseK8s, parseK8sIngress,
    parseK8sEgress, NetworkPolicySpec.Selects]
  rcases parseK8sPolicyTypes_cases policy.spec with ⟨hnil, hp⟩ | ⟨hi, he, his, hes, hp⟩ |
    ⟨hi, he, hnone, hp⟩ | ⟨hi, he, hp⟩ | ⟨hi, he, hp⟩ | ⟨hne, hi, he, hp⟩
  · by_cases hegress : policy.spec.rules .outgoing = []
    · have noRules : policy.spec.egress.getD [] = [] := hegress
      simp [hnil, hp, parseRules_ne_nil_iff, NetworkPolicySpec.rules, noRules]
    · simp [hnil, hp, hegress]
  · simp [hi, he, mem_ne _ hi, his, hes, hp, parseRules_ne_nil_iff, NetworkPolicySpec.rules]
  · -- the direction that was not named last gets no policies
    refine iff_of_false ?_ fun h => hnone (h.2.1 hi he)
    rintro ⟨hingress, hegress⟩
    cases htype : (parseK8sPolicyTypes policy.spec).2.2 with
    | ingress => simp [he, htype] at hegress
    | egress => simp [hi, htype] at hingress
    | unset => exact hp htype
  · simp [hi, he, mem_ne _ hi, hp, parseRules_ne_nil_iff, NetworkPolicySpec.rules]
  · simp [hi, he, mem_ne _ he, hp, parseRules_ne_nil_iff, NetworkPolicySpec.rules]
  · simp [hi, he, hne]

def denyAll : NetworkPolicy where
  name := "deny-all"
  nameSpace := "default"
  creationTimestamp := 0
  spec := ⟨⟨[], none⟩, none, some [], some [.ingress, .egress]⟩

theorem denyAll_not_isolates : ¬ Isolates denyAll := fun h =>
  h .incoming (.inr (by decide)) (by decide)

end Polycube.K8s
