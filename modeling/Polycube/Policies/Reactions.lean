import Polycube.K8s.Types
import Polycube.Lib.Table

/-!
# How a firewall manager reacts to pods

A firewall manager stores the rules of its policies by the name of the policy, and templates by the
key of a peer.  When a pod of the peer runs, the templates are filled with its addresses and stored;
when it goes away, the rules with its addresses are deleted.
-/

namespace Polycube.Policies

open Lib K8s

inductive Side
  | ingress | egress
  deriving DecidableEq

def Side.address : Side → ChainRule → String
  | .ingress, r => r.dst
  | .egress, r => r.src

def Side.setAddress (target : String) (r : ChainRule) : Side → ChainRule
  | .ingress => { r with dst := target }
  | .egress => { r with src := target }

def Side.templates (rules : ParsedRules) : Side → List ChainRule
  | .ingress => rules.outgoing
  | .egress => rules.incoming

/-- What is read of a pod: `DeletionTimestamp` says whether it is terminating. -/
structure Peer where
  nameSpace : String
  labels : Labels
  podIP : String
  running : Bool
  terminating : Bool
  deriving DecidableEq

structure Firewall where
  policies : List String
  rules : Side → String → List ChainRule
  policyActions : Table String (List (String × ParsedRules))

def fill (policy target : String) (r : ChainRule) (side : Side) : ChainRule :=
  if target = "" then { r with description := "policy=" ++ policy }
  else side.setAddress target { r with description := "policy=" ++ policy }

def storeRules (fw : Firewall) (policy target : String) (rules : ParsedRules) : Firewall :=
  { fw with
    policies := if policy ∈ fw.policies then fw.policies else fw.policies ++ [policy]
    rules := fun side p => if p = policy
      then fw.rules side p ++ (side.templates rules).map fun r => fill policy target r side
      else fw.rules side p }

/-- `GetPodVirtualIP` -/
abbrev VirtualIp := String → { ip : String // ip ≠ "" }

variable (virtualIp : VirtualIp)

def isAbout (ip : String) (side : Side) (r : ChainRule) : Bool :=
  side.address r = ip || side.address r = (virtualIp ip).val

def deleteFrom (about : ChainRule → Bool) :
    List String → List ChainRule → (String → List ChainRule) → String → List ChainRule
  | [], _, rules => rules
  | policy :: policies, rulesToKeep, rules =>
    deleteFrom about policies (rulesToKeep ++ (rules policy).filter fun r => !about r)
      (Function.update rules policy (rulesToKeep ++ (rules policy).filter fun r => !about r))

def visited (order policies : List String) : List String :=
  (order.filter fun p => policies.contains p).dedup ++ policies.filter fun p => !order.contains p

/-- `del` -/
def Firewall.del (fw : Firewall) (order : List String) (ip : String) : Firewall :=
  { fw with rules := fun side =>
      deleteFrom (isAbout virtualIp ip side) (visited order fw.policies) [] (fw.rules side) }

def Firewall.addAll (fw : Firewall) (ip : String) : List (String × ParsedRules) → Firewall
  | [] => fw
  | (policy, rules) :: actions => Firewall.addAll
      (storeRules (storeRules fw policy ip rules) policy (virtualIp ip).val rules) ip actions

/-- `AreLabelsContained`; labels that are nil are contained in all. -/
def areLabelsContained (needle : Option Labels) (haystack : Labels) : Bool :=
  match needle with
  | none => true
  | some needle =>
    if needle = [] then haystack.isEmpty
    else needle.all fun l => haystack.lookup l.1 = some l.2

def queryLabels : ObjectQuery → Option Labels
  | .name _ => none
  | .labels l => some l

/-- A subscription to the pods of a peer.  `BuildQuery` makes no query of empty labels. -/
structure Subscription where
  key : String
  podQuery : Option ObjectQuery
  nsQuery : Option ObjectQuery
  built : podQuery ≠ some (.labels [])

variable (meetsNamespace : String → Option ObjectQuery → Bool)

/-- The check of the labels in `podMeetsCriteria`. -/
def labelsMeet (podQuery : Option ObjectQuery) (labels : Labels) : Bool :=
  match podQuery.bind queryLabels with
  | none => true
  | some l => l.isEmpty || areLabelsContained (some l) labels

/-- `podMeetsCriteria`, for any phase and any node. -/
def podMeetsCriteria (s : Subscription) (pod : Peer) : Bool :=
  meetsNamespace pod.nameSpace s.nsQuery && labelsMeet s.podQuery pod.labels

def leaves (podQuery : Option ObjectQuery) (pod : Peer) : Bool :=
  match podQuery with
  | none => false
  | some q => !pod.labels.isEmpty && !areLabelsContained (queryLabels q) pod.labels

/-- `upd` -/
def Firewall.upd (fw : Firewall) (order : List String) (s : Subscription) (pod : Peer) :
    Firewall :=
  match fw.policyActions s.key with
  | none => fw
  | some [] => fw
  | some (action :: actions) =>
    if leaves s.podQuery pod = true then fw.del virtualIp order pod.podIP
    else fw.addAll virtualIp pod.podIP (action :: actions)

/-- `reactToPod` -/
def reactToPod (fw : Firewall) (order : List String) (s : Subscription) (pod : Peer) : Firewall :=
  if pod.podIP = "" then fw
  else if pod.terminating = true then fw.del virtualIp order pod.podIP
  else fw.upd virtualIp order s pod

def callback (fw : Firewall) (order : List String) (s : Subscription) (pod : Peer) : Firewall :=
  if pod.running = true then reactToPod virtualIp fw order s pod else fw

end Polycube.Policies
