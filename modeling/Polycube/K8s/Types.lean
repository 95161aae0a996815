import Mathlib

/-!
# Network policies and parsed policies

The part of a Kubernetes `NetworkPolicy` the parsers read, and the `ParsedPolicy` values they
return.  A Go pointer or slice that may be nil is an `Option`; a map of labels is the list of its
pairs.  `From` and `To`, the only difference between the two kinds of rules, are both `peers`.
-/

namespace Polycube.K8s

abbrev Labels := List (String × String)

inductive PolicyType
  | ingress | egress
  | other (s : String)
  deriving DecidableEq

inductive Protocol
  | tcp | udp
  | other (s : String)
  deriving DecidableEq

inductive IntOrString
  | int (n : Int32)
  | str (s : String)
  deriving DecidableEq

/-- Only whether there are any `matchExpressions` is looked at. -/
structure LabelSelector where
  matchLabels : Labels
  matchExpressions : Option (List String)
  deriving DecidableEq

structure IPBlock where
  cidr : String
  except : List String
  deriving DecidableEq

structure NetworkPolicyPeer where
  podSelector : Option LabelSelector
  namespaceSelector : Option LabelSelector
  ipBlock : Option IPBlock
  deriving DecidableEq

structure NetworkPolicyPort where
  protocol : Option Protocol
  port : Option IntOrString
  deriving DecidableEq

structure NetworkPolicyRule where
  ports : List NetworkPolicyPort
  peers : Option (List NetworkPolicyPeer)
  deriving DecidableEq

structure NetworkPolicySpec where
  podSelector : LabelSelector
  ingress : Option (List NetworkPolicyRule)
  egress : Option (List NetworkPolicyRule)
  policyTypes : Option (List PolicyType)
  deriving DecidableEq

structure NetworkPolicy where
  name : String
  nameSpace : String
  creationTimestamp : Int
  spec : NetworkPolicySpec
  deriving DecidableEq

/-! ### ParsedPolicy -/

/-- `PolicyIncoming` and `PolicyOutgoing`. -/
inductive PolicyDirection
  | incoming | outgoing
  deriving DecidableEq

inductive ObjectQuery
  | name (s : String)
  | labels (l : Labels)
  deriving DecidableEq

/-- `ActionForward` and `ActionDrop`. -/
inductive RuleAction
  | forward | drop
  deriving DecidableEq

inductive PolicyAction
  | forward | drop | forwardAll | dropAll
  deriving DecidableEq

/-- `k8sfirewall.ChainRule`; an empty protocol and a zero port are wildcards. -/
structure ChainRule where
  src : String
  dst : String
  l4proto : Option Protocol
  sport : Int32
  dport : Int32
  conntrack : String
  action : RuleAction
  description : String
  deriving DecidableEq

structure ParsedRules where
  incoming : List ChainRule
  outgoing : List ChainRule
  deriving DecidableEq

structure ProtoPort where
  protocol : Option Protocol
  sPort : Int32
  dPort : Int32
  deriving DecidableEq

structure ParentPolicy where
  name : String
  priority : Int32
  provider : String
  deriving DecidableEq

structure PolicySubject where
  query : Option ObjectQuery
  nameSpace : String
  deriving DecidableEq

structure PolicyPeer where
  ipBlock : List String
  peer : Option ObjectQuery
  nameSpace : Option ObjectQuery
  key : String
  deriving DecidableEq

structure ParsedPolicy where
  name : String
  parentPolicy : ParentPolicy
  priority : Int32
  creationTime : Int
  direction : PolicyDirection
  subject : PolicySubject
  peer : PolicyPeer
  templates : ParsedRules
  ports : List ProtoPort
  action : PolicyAction
  deriving DecidableEq

end Polycube.K8s
