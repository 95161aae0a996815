import Polycube.K8s.Parser

/-!
# Parsing a Polycube policy

`parsePcnIngress` and `parsePcnEgress` split a policy into its parsed policies, one for each peer
that a rule expands to.  Rules that name no protocols take the ports of the service the policy
applies to.  As for the other kind of policy, `From` and `To` are both `peer`.
-/

namespace Polycube.K8s

structure LabelMap where
  labels : Labels
  distinct : (labels.map Prod.fst).Nodup

/-! ### PolycubeNetworkPolicy -/

inductive PeerObject
  | pod | world
  | other (s : String)
  deriving DecidableEq

inductive RuleVerb
  | drop | block | forbid | prohibit
  | forward | allow | pass | permit
  | other (s : String)
  deriving DecidableEq

structure NamespaceSelector where
  withNames : List String
  withLabels : LabelMap
  any : Option Bool

structure PcnPeer where
  peer : PeerObject
  any : Option Bool
  withLabels : LabelMap
  withIP : List String
  onNamespace : Option NamespaceSelector

structure ProtocolContainer where
  source : Int32
  destination : Int32
  protocol : Option Protocol
  deriving DecidableEq

structure PcnRule where
  peer : PcnPeer
  protocols : List ProtocolContainer
  action : RuleVerb

structure RuleContainer where
  dropAll : Option Bool
  allowAll : Option Bool
  rules : List PcnRule

structure PolicyTarget where
  any : Option Bool
  withLabels : LabelMap

structure PcnPolicy where
  name : String
  nameSpace : String
  creationTimestamp : Int
  priority : Int
  applyTo : PolicyTarget
  ingressRules : RuleContainer
  egressRules : RuleContainer
  preventDirectAccess : Option Bool

structure ServicePort where
  protocol : Protocol
  targetPort : IntOrString
  deriving DecidableEq

structure Service where
  selector : LabelMap
  ports : List ServicePort

structure PcnParsedPolicy extends ParsedPolicy where
  preventDirectAccess : Bool
  isService : Bool
  deriving DecidableEq

def IntOrString.intVal : IntOrString → Int32
  | .int n => n
  | .str _ => 0

/-- `convertServiceProtocols`. -/
def convertServiceProtocols (servPorts : List ServicePort) : List ProtoPort :=
  servPorts.map fun port =>
    ⟨some (if port.protocol = .udp then .udp else .tcp), 0, port.targetPort.intVal⟩

/-- `parsePcnPorts`. -/
def parsePcnPorts (protoPorts : List ProtocolContainer) : List ProtoPort :=
  protoPorts.map fun pp => ⟨pp.protocol, pp.source, pp.destination⟩

/-- `convertPcnAction`. -/
def convertPcnAction : RuleVerb → RuleAction
  | .allow | .forward | .pass | .permit => .forward
  | _ => .drop

def RuleAction.parsed : RuleAction → PolicyAction
  | .forward => .forward
  | .drop => .drop

/-- `getNamespacesList`. -/
def getNamespacesList (onNs : NamespaceSelector) : List (Option ObjectQuery) :=
  if onNs.withNames ≠ [] then onNs.withNames.map fun ns => buildQuery ns []
  else [buildQuery "" onNs.withLabels.labels]

/-- `getPeersFromPcnWorld`. -/
def getPeersFromPcnWorld (ips : List String) : PolicyPeer := ⟨ips, none, none, ""⟩

/-- `getPeersFromPcnPodSelector`.  Peers of the policy's own namespace have the key of any. -/
def getPeersFromPcnPodSelector (peer : PcnPeer) (nameSpace : String) : List PolicyPeer :=
  let podQuery := if peer.any = some true then none else buildQuery "" peer.withLabels.labels
  let key := buildObjectKey podQuery "pod"
  match peer.onNamespace with
  | none => [⟨[], podQuery, buildQuery nameSpace [], key ++ "|" ++ buildObjectKey none "ns"⟩]
  | some onNs =>
    if onNs.any = some true then [⟨[], podQuery, none, key ++ "|" ++ buildObjectKey none "ns"⟩]
    else (getNamespacesList onNs).map fun ns =>
      ⟨[], podQuery, ns, key ++ "|" ++ buildObjectKey ns "ns"⟩

/-! ### The parsers -/

/-- `getBasePolicyFromPcn`, with the direction the parsers set at once. -/
def getBasePolicyFromPcn (policy : PcnPolicy) (direction : PolicyDirection) :
    PcnParsedPolicy where
  name := ""
  parentPolicy := ⟨policy.name,
    Int32.ofInt (if policy.priority = 0 then defaultPriority.toInt else policy.priority), "pcn"⟩
  priority := 0
  creationTime := policy.creationTimestamp
  direction := direction
  subject := ⟨none, policy.nameSpace⟩
  peer := ⟨[], none, none, ""⟩
  templates := ⟨[], []⟩
  ports := []
  action := .forward
  preventDirectAccess := false
  isService := false

/-- `pcnIngressIsFilled` and `pcnEgressIsFilled`. -/
def RuleContainer.isFilled (c : RuleContainer) : Bool :=
  !c.rules.isEmpty || c.dropAll = some true || c.allowAll = some true

def servicePorts (serv : Option Service) : List ProtoPort :=
  match serv with
  | none => []
  | some s => convertServiceProtocols s.ports

def PcnParsedPolicy.forService (s : Service) (p : PcnParsedPolicy) : PcnParsedPolicy :=
  { p with
    subject := { p.subject with query := buildQuery "" s.selector.labels }
    isService := true }

section

variable (policy : PcnPolicy) (base : PcnParsedPolicy) (ports : List ProtoPort)

def restrictAll (action : PolicyAction) (rule : RuleAction) : PcnParsedPolicy :=
  { base with
    name := reformatPolicyName policy.name base.direction 0 0
    action := action
    templates := buildRuleTemplates base.direction rule ports }

def pcnRuleBase (rule : PcnRule) (peerID : ℕ) : PcnParsedPolicy :=
  let generatedPorts := if rule.protocols = [] then ports else parsePcnPorts rule.protocols
  let action := convertPcnAction rule.action
  { base with
    ports := generatedPorts
    action := action.parsed
    templates := buildRuleTemplates base.direction action generatedPorts
    priority := Int32.ofNat peerID }

def addPcnPeer (i : ℕ) (newPolicy : PcnParsedPolicy) (st : List PcnParsedPolicy × ℕ)
    (peer : PolicyPeer) : List PcnParsedPolicy × ℕ :=
  (st.1 ++ [{ newPolicy with
    peer := peer
    name := reformatPolicyName policy.name base.direction i st.2 }], st.2 + 1)

/-- One turn of the loop over the rules: the policies so far and the counter. -/
def parsePcnRule (st : List PcnParsedPolicy × ℕ) (x : PcnRule × ℕ) :
    List PcnParsedPolicy × ℕ :=
  let (rule, i) := x
  let newPolicy := pcnRuleBase base ports rule st.2
  match rule.peer.peer with
  | .world => addPcnPeer policy base i newPolicy st (getPeersFromPcnWorld rule.peer.withIP)
  | .pod => (getPeersFromPcnPodSelector rule.peer policy.nameSpace).foldl
      (addPcnPeer policy base i newPolicy) st
  | .other _ => st

def parseContainer (c : RuleContainer) : List PcnParsedPolicy :=
  if c.dropAll = some true then [restrictAll policy base ports .dropAll .drop]
  else if c.allowAll = some true then [restrictAll policy base ports .forwardAll .forward]
  else (c.rules.zipIdx.foldl (parsePcnRule policy base ports) ([], 0)).1

end

def ingressBase (policy : PcnPolicy) (serv : Option Service) : PcnParsedPolicy :=
  let base := { getBasePolicyFromPcn policy .incoming with
    preventDirectAccess := policy.preventDirectAccess = some true }
  match serv with
  | some s => base.forService s
  | none => { base with
      subject := { base.subject with
        query := if policy.applyTo.any = some true then none
          else buildQuery "" policy.applyTo.withLabels.labels } }

/-- `ParsePcnIngress`. -/
def parsePcnIngress (policy : PcnPolicy) (serv : Option Service) : List PcnParsedPolicy :=
  if policy.ingressRules.isFilled = true then
    parseContainer policy (ingressBase policy serv) (servicePorts serv) policy.ingressRules
  else []

def egressBase (policy : PcnPolicy) (serv : Option Service) : PcnParsedPolicy :=
  match serv with
  | some s => (getBasePolicyFromPcn policy .outgoing).forService s
  | none => getBasePolicyFromPcn policy .outgoing

/-- `ParsePcnEgress`. -/
def parsePcnEgress (policy : PcnPolicy) (serv : Option Service) : List PcnParsedPolicy :=
  if policy.egressRules.isFilled = true then
    parseContainer policy (egressBase policy serv) (servicePorts serv) policy.egressRules
  else []

end Polycube.K8s
