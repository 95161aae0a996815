import Polycube.K8s.Types

/-!
# Parsing a network policy

`parseK8sIngress` and `parseK8sEgress` split a policy into its parsed policies, one for each peer
and one more for the exceptions of an address block.  The loop over the peers of a rule carries
the policy under construction from one peer to the next (`PeerState`), as the source's
`newPolicy` does, and a counter over all rules numbers the results.
-/

namespace Polycube.K8s

/-- `defaultPriority`. -/
def defaultPriority : Int32 := 5

/-- `ConnTrackNew`. -/
def connTrackNew : String := "new"

/-- `strconv.Atoi` without its error: zero for what is no number, the nearest 64-bit number for
one that is too large. -/
def atoi (s : String) : Int :=
  let (neg, digits) := match s.toList with
    | '-' :: r => (true, r)
    | '+' :: r => (false, r)
    | r => (false, r)
  if digits = [] ∨ ¬ digits.all Char.isDigit then 0
  else
    let n : Int := digits.foldl (fun (n : Int) c => 10 * n + (c.toNat - '0'.toNat)) 0
    if neg then max (-n) (-2 ^ 63) else min n (2 ^ 63 - 1)

/-- `int32(port.IntValue())`. -/
def IntOrString.intValue : IntOrString → Int32
  | .int n => n
  | .str s => Int32.ofInt (atoi s)

/-- The third result of `ParseK8sPolicyTypes`: `unset` is the empty string. -/
inductive ParsedType
  | ingress | egress | unset
  deriving DecidableEq

def policyTypesStep (spec : NetworkPolicySpec)
    (r : Option (List NetworkPolicyRule) × Option (List NetworkPolicyRule) × ParsedType)
    (val : PolicyType) :
    Option (List NetworkPolicyRule) × Option (List NetworkPolicyRule) × ParsedType :=
  match val with
  | .ingress => (spec.ingress, r.2.1, .ingress)
  | .egress => (r.1, spec.egress, .egress)
  | .other _ => r

/-- `ParseK8sPolicyTypes`. -/
def parseK8sPolicyTypes (spec : NetworkPolicySpec) :
    Option (List NetworkPolicyRule) × Option (List NetworkPolicyRule) × ParsedType :=
  let policyTypes := spec.policyTypes.getD []
  if policyTypes = [] then (spec.ingress, none, .ingress)
  else
    let r := policyTypes.foldl (policyTypesStep spec) (none, none, .unset)
    if r.1.isSome ∧ r.2.1.isSome then (r.1, r.2.1, .unset) else r

/-- `parseProtocolAndPort`: whether the protocol is supported, the protocol and the port. -/
def parseProtocolAndPort (protocol : Protocol) (port : Option IntOrString) :
    Bool × Option Protocol × Int32 :=
  let port := (port.map IntOrString.intValue).getD 0
  match protocol with
  | .tcp => (true, some .tcp, port)
  | .udp => (true, some .udp, port)
  | .other _ => (false, none, 0)

/-- One port; `none` when its protocol is not supported. -/
def parseK8sPort (p : NetworkPolicyPort) : Option ProtoPort :=
  match p.protocol with
  | none => some ⟨none, 0, (p.port.map IntOrString.intValue).getD 0⟩
  | some protocol =>
    let (supported, proto, port) := parseProtocolAndPort protocol p.port
    if supported then some ⟨proto, 0, port⟩ else none

/-- `parseK8sPorts`. -/
def parseK8sPorts (ports : List NetworkPolicyPort) : List ProtoPort := ports.filterMap parseK8sPort

/-- `insertPorts`. -/
def insertPorts (rules : List ChainRule) (ports : List ProtoPort) : List ChainRule :=
  if ports = [] then rules
  else rules.flatMap fun r => ports.map fun p =>
    { r with sport := p.sPort, dport := p.dPort, l4proto := p.protocol }

/-- `BuildRuleTemplates`. -/
def buildRuleTemplates (direction : PolicyDirection) (action : RuleAction)
    (ports : List ProtoPort) : ParsedRules :=
  let rule : ChainRule := ⟨"", "", none, 0, 0, connTrackNew, action, ""⟩
  let rulesWithPorts := insertPorts [rule] ports
  match direction with
  | .incoming => ⟨rulesWithPorts, []⟩
  | .outgoing => ⟨[], rulesWithPorts⟩

/-- `BuildQuery`: no query asks for everything. -/
def buildQuery (name : String) (labels : Labels) : Option ObjectQuery :=
  if name = "" ∧ labels = [] then none
  else if name ≠ "" then some (.name name)
  else some (.labels labels)

/-- `ImplodeLabels`, with the pairs sorted. -/
def implodeLabels (labels : Labels) (sep : String) : String :=
  sep.intercalate ((labels.map fun p => p.1 ++ "=" ++ p.2).mergeSort (· ≤ ·))

/-- `BuildObjectKey`. -/
def buildObjectKey (obj : Option ObjectQuery) (peerType : String) : String :=
  match obj with
  | none => peerType ++ "Name:"
  | some (.name n) => peerType ++ "Name:" ++ n
  | some (.labels l) => peerType ++ "Labels:" ++ implodeLabels l ","

/-- `getPeersFromIPBlock`: the exceptions, if there are any, and the block. -/
def getPeersFromIPBlock (block : IPBlock) : Option PolicyPeer × PolicyPeer :=
  (if block.except = [] then none else some ⟨block.except, none, none, ""⟩,
    ⟨[block.cidr], none, none, ""⟩)

/-- `getPeersFromK8sSelectors`. -/
def getPeersFromK8sSelectors (podSelector namespaceSelector : Option LabelSelector)
    (nameSpace : String) : Except String PolicyPeer := do
  let queryPod ← match podSelector with
    | none => pure none
    | some s =>
      if s.matchExpressions.isSome then
        throw "MatchExpressions on pod selector is not supported yet"
      else pure (buildQuery "" s.matchLabels)
  let queryNs ← match namespaceSelector with
    | some s =>
      if s.matchExpressions.isSome then
        throw "MatchExpressions on namespace selector is not supported yet"
      else pure (buildQuery "" s.matchLabels)
    | none =>
      if nameSpace = "" then throw "Namespace name not provided"
      else pure (buildQuery nameSpace [])
  pure ⟨[], queryPod, queryNs,
    buildObjectKey queryPod "pod" ++ "|" ++ buildObjectKey queryNs "namespace"⟩

/-! ### The parsers -/

/-- `reformatPolicyName`. -/
def reformatPolicyName (name : String) (direction : PolicyDirection) (n count : Nat) : String :=
  name ++ "#" ++ toString n ++ (match direction with | .incoming => "i" | .outgoing => "e") ++
    "p" ++ toString count

/-- `getBasePolicyFromK8s`, with the direction the parsers set at once. -/
def getBasePolicyFromK8s (policy : NetworkPolicy) (direction : PolicyDirection) :
    ParsedPolicy where
  name := ""
  parentPolicy := ⟨policy.name, defaultPriority, "k8s"⟩
  priority := 0
  creationTime := policy.creationTimestamp
  direction := direction
  subject := ⟨if policy.spec.podSelector.matchLabels = [] then none
    else some (.labels policy.spec.podSelector.matchLabels), policy.nameSpace⟩
  peer := ⟨[], none, none, ""⟩
  templates := ⟨[], []⟩
  ports := []
  action := .forward

structure PeerState where
  policies : List ParsedPolicy
  newPolicy : ParsedPolicy
  peerID : Nat
  deriving DecidableEq

section

variable (policy : NetworkPolicy) (direction : PolicyDirection)

/-- The `IPBlock` part of a turn: the exceptions get a policy of their own, before the block.
Only the ingress parser renames the block's policy after that. -/
def parseIPBlock (i : Nat) (st : PeerState) (block : IPBlock) : PeerState :=
  let (exceptions, peer) := getPeersFromIPBlock block
  let st := match exceptions with
    | none => st
    | some exceptions =>
      { st with
        policies := st.policies ++ [{ st.newPolicy with
          action := .drop
          templates := buildRuleTemplates direction .drop st.newPolicy.ports
          peer := exceptions }]
        peerID := st.peerID + 1 }
  { st with newPolicy := { st.newPolicy with
      priority := Int32.ofNat st.peerID
      name := match direction with
        | .incoming => reformatPolicyName policy.name direction i st.peerID
        | .outgoing => st.newPolicy.name
      peer := peer } }

def parseSelectors (st : PeerState) (p : NetworkPolicyPeer) : PeerState :=
  if p.podSelector.isSome ∨ p.namespaceSelector.isSome then
    match getPeersFromK8sSelectors p.podSelector p.namespaceSelector policy.nameSpace with
    | .ok peer => { st with newPolicy := { st.newPolicy with peer := peer } }
    | .error _ => st
  else st

def parsePeer (st : PeerState) (x : NetworkPolicyPeer × Nat) : PeerState :=
  let (p, i) := x
  let st := { st with newPolicy := { st.newPolicy with
    name := reformatPolicyName policy.name direction i st.peerID } }
  let st := match p.ipBlock with
    | none => st
    | some block => parseIPBlock policy direction i st block
  let st := parseSelectors policy st p
  { st with policies := st.policies ++ [st.newPolicy], peerID := st.peerID + 1 }

def ruleBase (ports : List ProtoPort) (peerID : Nat) : ParsedPolicy :=
  { getBasePolicyFromK8s policy direction with
    ports := ports
    action := .forward
    templates := buildRuleTemplates direction .forward ports
    priority := Int32.ofNat peerID }

def parseRule (st : List ParsedPolicy × Nat) (rule : NetworkPolicyRule) :
    List ParsedPolicy × Nat :=
  let (policies, peerID) := st
  let generatedPorts := parseK8sPorts rule.ports
  -- only unsupported protocols: the rule is skipped, and the default drop takes care of it
  if rule.ports ≠ [] ∧ generatedPorts = [] then st
  else
    let newPolicy := ruleBase policy direction generatedPorts peerID
    match rule.peers with
    | none =>
      (policies ++ [{ newPolicy with
        name := reformatPolicyName policy.name direction 0 peerID
        action := .forwardAll }], peerID + 1)
    | some peers =>
      let r := peers.zipIdx.foldl (parsePeer policy direction) ⟨policies, newPolicy, peerID⟩
      (r.policies, r.peerID)

def parseRules (rules : List NetworkPolicyRule) : List ParsedPolicy :=
  if rules = [] then
    [{ getBasePolicyFromK8s policy direction with
      name := reformatPolicyName policy.name direction 0 0
      action := .dropAll }]
  else (rules.foldl (parseRule policy direction) ([], 0)).1

end

/-- `ParseK8sIngress`. -/
def parseK8sIngress (policy : NetworkPolicy) : List ParsedPolicy :=
  let (rules, _, type) := parseK8sPolicyTypes policy.spec
  if type = .egress then [] else parseRules policy .incoming (rules.getD [])

/-- `ParseK8sEgress`. -/
def parseK8sEgress (policy : NetworkPolicy) : List ParsedPolicy :=
  let (_, rules, type) := parseK8sPolicyTypes policy.spec
  if type = .ingress then [] else parseRules policy .outgoing (rules.getD [])

end Polycube.K8s
