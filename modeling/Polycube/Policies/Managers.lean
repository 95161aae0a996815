import Polycube.K8s.Parser
import Polycube.Lib.Run
import Polycube.Lib.Table

/-!
# The firewall managers of the network policy manager

Pods of a namespace with the same labels share a firewall manager.  One that has no pods left is
flagged, and a timer deletes it later.  The function of a timer that has expired waits for the lock,
and stopping the timer does not stop it.
-/

namespace Polycube.Policies

open Lib K8s

abbrev UID := String

structure Pod where
  labels : Labels
  running : Bool
  node : Bool
  deriving DecidableEq

abbrev Timer := ℕ × String

structure Manager where
  localFirewalls : Table String (List UID)
  flaggedForDeletion : Table String ℕ
  linkedPods : Table UID String
  running : List Timer
  waiting : List Timer
  timers : ℕ

def Manager.start : Manager := ⟨fun _ => none, fun _ => none, fun _ => none, [], [], 0⟩

def Manager.setFirewall (m : Manager) (fwKey : String) (pods : Option (List UID)) : Manager :=
  { m with localFirewalls := Function.update m.localFirewalls fwKey pods }

def Manager.setLinked (m : Manager) (uid : UID) (fwKey : Option String) : Manager :=
  { m with linkedPods := Function.update m.linkedPods uid fwKey }

/-- `time.AfterFunc` starts a timer, unless there is one. -/
def flagForDeletion (m : Manager) (fwKey : String) : Manager :=
  match m.flaggedForDeletion fwKey with
  | some _ => m
  | none => { m with
      flaggedForDeletion := Function.update m.flaggedForDeletion fwKey (some m.timers)
      running := m.running ++ [(m.timers, fwKey)]
      timers := m.timers + 1 }

def unflagForDeletion (m : Manager) (fwKey : String) : Manager :=
  match m.flaggedForDeletion fwKey with
  | none => m
  | some timer => { m with
      flaggedForDeletion := Function.update m.flaggedForDeletion fwKey none
      running := m.running.filter fun t => t.1 ≠ timer }

/-- `Unlink`, and the flag if no pod remains. -/
def unlink (m : Manager) (fwKey : String) (uid : UID) (pods : List UID) : Manager :=
  if pods.erase uid = [] then flagForDeletion (m.setFirewall fwKey (some (pods.erase uid))) fwKey
  else m.setFirewall fwKey (some (pods.erase uid))

variable (namespaces : UID → String)

def fwKey (uid : UID) (pod : Pod) : String :=
  namespaces uid ++ "|" ++ implodeLabels pod.labels ","

def leaveFirewall (m : Manager) (uid : UID) (pod prev : Pod) : Manager :=
  match m.linkedPods uid with
  | none => m
  | some linkedFw =>
    if linkedFw = fwKey namespaces uid pod then m
    else
      match m.localFirewalls (fwKey namespaces uid prev) with
      | none => m
      | some pods =>
        if uid ∈ pods then (unlink m (fwKey namespaces uid prev) uid pods).setLinked uid none
        else m

/-- `getOrCreateFirewallManager` -/
def getOrCreateFirewallManager (m : Manager) (uid : UID) (pod prev : Pod) : Manager :=
  match (leaveFirewall namespaces m uid pod prev).localFirewalls (fwKey namespaces uid pod) with
  | none => (leaveFirewall namespaces m uid pod prev).setFirewall (fwKey namespaces uid pod)
      (some [])
  | some _ => leaveFirewall namespaces m uid pod prev

/-- `Link`, which does nothing for a pod that is linked or whose firewall is not in order (`ok`). -/
def link (m : Manager) (fwKey : String) (uid : UID) (ok : Bool) : Manager :=
  match m.localFirewalls fwKey with
  | none => m
  | some pods =>
    if ok = true ∧ uid ∉ pods then
      unflagForDeletion ((m.setFirewall fwKey (some (pods ++ [uid]))).setLinked uid (some fwKey))
        fwKey
    else m

def checkNewPod (m : Manager) (uid : UID) (pod prev : Pod) (ok : Bool) : Manager :=
  if namespaces uid = "kube-system" then m
  else link (getOrCreateFirewallManager namespaces m uid pod prev) (fwKey namespaces uid pod) uid ok

def manageDeletedPod (m : Manager) (uid : UID) (pod : Pod) : Manager :=
  if namespaces uid = "kube-system" then m
  else
    match m.localFirewalls (fwKey namespaces uid pod) with
    | none => m.setLinked uid none
    | some pods =>
      if uid ∈ pods then (unlink m (fwKey namespaces uid pod) uid pods).setLinked uid none
      else m.setLinked uid none

/-- `deleteFirewallManager` destroys a manager, and panics if there is none. -/
def deleteFirewallManager (m : Manager) (fwKey : String) : Option Manager :=
  match m.localFirewalls fwKey with
  | none => none
  | some _ => some { m with
      localFirewalls := Function.update m.localFirewalls fwKey none
      flaggedForDeletion := Function.update m.flaggedForDeletion fwKey none }

/-! ### The events -/

inductive Life
  | unborn
  | alive (pod : Pod)
  | dead
  deriving DecidableEq

def Life.pod : Life → Option Pod
  | .alive pod => some pod
  | _ => none

inductive Call
  | checkNewPod (uid : UID) (pod prev : Pod)
  | manageDeletedPod (uid : UID) (pod : Pod)
  deriving DecidableEq

def Call.uid : Call → UID
  | .checkNewPod uid _ _ => uid
  | .manageDeletedPod uid _ => uid

/-- An event that the worker has not taken yet: an update with the new object and the old one, or a
deletion with the last one. -/
inductive Queued
  | update (uid : UID) (pod prev : Pod)
  | delete (uid : UID) (pod : Pod)
  deriving DecidableEq

def Queued.pod : Queued → UID × Pod
  | .update uid pod _ => (uid, pod)
  | .delete uid pod => (uid, pod)

/-- The informer's cache has the pods by their namespaces and names. -/
structure Cluster where
  manager : Manager
  life : UID → Life
  cache : Table String (UID × Pod)
  queue : List Queued
  calls : List Call

def Cluster.start : Cluster := ⟨Manager.start, fun _ => .unborn, fun _ => none, [], []⟩

/-- `podMeetsCriteria` of the update subscription. -/
def Pod.meetsCriteria (pod : Pod) : Prop := pod.node = true ∧ pod.running = true

instance (pod : Pod) : Decidable pod.meetsCriteria :=
  inferInstanceAs (Decidable (pod.node = true ∧ pod.running = true))

/-- A pod is created or updated; a pod ends; the worker takes an event; a waiting handler gets the
lock; a timer expires; a function of an expired timer gets the lock. -/
inductive Op
  | update (uid : UID) (pod : Pod)
  | terminate (uid : UID)
  | process
  | handle (n : ℕ) (ok : Bool)
  | expire (n : ℕ)
  | collect (n : ℕ)
  deriving DecidableEq

def onUpdate (uid : UID) (pod prev : Pod) : List Call :=
  if pod.meetsCriteria ∨ prev.meetsCriteria then [.checkNewPod uid pod prev] else []

def onDelete (uid : UID) (pod : Pod) : List Call :=
  if pod.node = true then [.manageDeletedPod uid pod] else []

/-- The goroutines that an event starts with the pod that it sees. -/
def Queued.calls (seen : UID × Pod) : Queued → List Call
  | .update _ _ prev => onUpdate seen.1 seen.2 prev
  | .delete _ _ => onDelete seen.1 seen.2

variable (names : UID → String)

/-- A name is free again when its pod has ended. -/
def Cluster.update (c : Cluster) (uid : UID) (pod : Pod) : Cluster :=
  match c.life uid with
  | .unborn =>
    if (c.cache (names uid)).isSome = true then c
    else { c with
      life := Function.update c.life uid (.alive pod)
      cache := Function.update c.cache (names uid) (some (uid, pod)) }
  | .alive prev => { c with
      life := Function.update c.life uid (.alive pod)
      cache := Function.update c.cache (names uid) (some (uid, pod))
      queue := c.queue ++ [.update uid pod prev] }
  | .dead => c

def Cluster.terminate (c : Cluster) (uid : UID) : Cluster :=
  match c.life uid with
  | .alive pod => { c with
      life := Function.update c.life uid .dead
      cache := Function.update c.cache (names uid) none
      queue := c.queue ++ [.delete uid pod] }
  | _ => c

/-- The pod that has the name of the event's by now, or else the event's own. -/
def Cluster.retrievePodFromCache (c : Cluster) (e : Queued) : UID × Pod :=
  (c.cache (names e.pod.1)).getD e.pod

def Cluster.process (c : Cluster) : Cluster :=
  match c.queue with
  | [] => c
  | e :: queue => { c with
      queue, calls := c.calls ++ e.calls (c.retrievePodFromCache names e) }

def Manager.handle (m : Manager) (ok : Bool) : Call → Manager
  | .checkNewPod uid pod prev => checkNewPod namespaces m uid pod prev ok
  | .manageDeletedPod uid pod => manageDeletedPod namespaces m uid pod

def Cluster.handle (c : Cluster) (n : ℕ) (ok : Bool) : Cluster :=
  match c.calls[n]? with
  | none => c
  | some call =>
    { c with manager := c.manager.handle namespaces ok call, calls := c.calls.eraseIdx n }

def Manager.expire (m : Manager) (n : ℕ) : Manager :=
  match m.running[n]? with
  | none => m
  | some t => { m with running := m.running.eraseIdx n, waiting := m.waiting ++ [t] }

def Manager.collect (m : Manager) (n : ℕ) : Option Manager :=
  match m.waiting[n]? with
  | none => some m
  | some t => deleteFirewallManager { m with waiting := m.waiting.eraseIdx n } t.2

def Cluster.exec (c : Cluster) : Op → Option Cluster
  | .update uid pod => some (c.update names uid pod)
  | .terminate uid => some (c.terminate names uid)
  | .process => some (c.process names)
  | .handle n ok => some (c.handle namespaces n ok)
  | .expire n => some { c with manager := c.manager.expire n }
  | .collect n => (c.manager.collect n).map fun manager => { c with manager }

end Polycube.Policies
