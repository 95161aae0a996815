import Polycube.Firewall.Rules

/-!
# Chains

The rules of the three chains, the operations that edit them, and the bookkeeping of the accept
ESTABLISHED optimization.  A place of a chain can be without a rule, and the loops over the rules
then follow a null pointer: an operation that does so has no result here.
-/

namespace Polycube.Iptables

open Function

open Polycube.Firewall (IpAddr L4Proto TcpFlags ConntrackstatusEnum ActionEnum)

inductive ChainNameEnum
  | input | forward | output
  deriving DecidableEq

structure ChainRule where
  id : ℕ
  ipSrc : Option IpAddr
  ipDst : Option IpAddr
  srcPort : Option (BitVec 16)
  dstPort : Option (BitVec 16)
  l4Proto : Option L4Proto
  tcpFlags : Option TcpFlags
  inIface : Option String
  outIface : Option String
  conntrack : Option ConntrackstatusEnum
  action : ActionEnum
  deriving DecidableEq

instance : LawfulBEq (Option ChainRule) := inferInstance

def ChainRule.equal (rule cmp : ChainRule) : Bool := { rule with id := cmp.id } = cmp

abbrev Rules := List (Option ChainRule)

/-- `conntrack ESTABLISHED -> ACCEPT` -/
def acceptEstablished : ChainRule :=
  ⟨0, none, none, none, none, none, none, none, none, some .established, .accept⟩

def acceptEstablishedOptimizationFound (rules : Rules) : Bool :=
  match rules with
  | some rule :: _ => rule.equal acceptEstablished
  | _ => false

inductive ConntrackModes
  | disabled | on | off
  deriving DecidableEq

/-- The chains, what the cube keeps of the optimization, and the modes that the two programs
`ConntrackLabel` were compiled with.  A chain is `pending` when it was edited in batch mode and the
rules have not been applied since. -/
structure State where
  interactive : Bool
  rules : ChainNameEnum → Rules
  acceptEstablishedEnabled : ChainNameEnum → Bool
  conntrackMode : ChainNameEnum → ConntrackModes
  labelIngress : ChainNameEnum → ConntrackModes
  labelEgress : ChainNameEnum → ConntrackModes
  pending : ChainNameEnum → Bool

def State.init : State where
  interactive := true
  rules _ := []
  acceptEstablishedEnabled _ := false
  conntrackMode _ := .off
  labelIngress _ := .off
  labelEgress _ := .off
  pending _ := false

def State.loadedMode (s : State) : ChainNameEnum → ConntrackModes
  | .input => s.labelIngress .input
  | .forward => s.labelIngress .forward
  | .output => s.labelEgress .output

def State.reloadIngress (s : State) : State := { s with labelIngress := s.conntrackMode }

def State.reloadEgress (s : State) : State := { s with labelEgress := s.conntrackMode }

def State.setAcceptEstablished (s : State) (name : ChainNameEnum) (enabled : Bool) : State :=
  { s with
    acceptEstablishedEnabled := update s.acceptEstablishedEnabled name enabled
    conntrackMode := update s.conntrackMode name (if enabled then .on else .off) }

def State.enableAcceptEstablished (s : State) (name : ChainNameEnum) : State :=
  if s.acceptEstablishedEnabled name then s
  else
    match name with
    | .input | .forward => (s.setAcceptEstablished name true).reloadIngress
    | .output => (s.setAcceptEstablished name true).reloadEgress

/-- One case of the switch.  The key of the `OUTPUT` case is that of the program for packets that
come in: the two programs have the same index. -/
def State.disableCase (s : State) (name : ChainNameEnum) : State :=
  if s.acceptEstablishedEnabled name then (s.setAcceptEstablished name false).reloadIngress else s

def State.disableAcceptEstablished (s : State) : ChainNameEnum → State
  | .input => ((s.disableCase .input).disableCase .forward).disableCase .output
  | .forward => (s.disableCase .forward).disableCase .output
  | .output => s.disableCase .output

def State.applyAcceptEstablishedOptimization (s : State) (name : ChainNameEnum) : State :=
  { (if acceptEstablishedOptimizationFound (s.rules name) then s.enableAcceptEstablished name
      else s.disableAcceptEstablished name) with
    pending := update s.pending name false }

/-! ### Operations -/

inductive Outcome
  | returns | throws
  deriving DecidableEq

/-- An operation's outcome and the state after it; none where the behaviour is undefined. -/
abbrev Result := Option (Outcome × State)

/-- The tables are computed from all rules; whether they can be loaded depends on the kernel. -/
def State.updateChain (s : State) (name : ChainNameEnum) (loads : Bool) : Option Outcome :=
  if none ∈ s.rules name then none else some (if loads then .returns else .throws)

def State.setRules (s : State) (name : ChainNameEnum) (rules : Rules) : State :=
  { s with
    rules := update s.rules name rules
    pending := if s.interactive then s.pending else update s.pending name true }

def renumber (id : ℕ) (rules : Rules) : Rules :=
  rules.zipIdx.map fun e => if id ≤ e.2 then e.1.map fun rule => { rule with id := e.2 } else e.1

/-- `rules_` after `addRule` -/
def overwrite (rules : Rules) (id : ℕ) (rule : ChainRule) : Rules :=
  (rules ++ List.replicate (id + 1 - rules.length) none).set id (some rule)

/-- `rules_` after `insert` -/
def insertAt (rules : Rules) (id : ℕ) (rule : ChainRule) : Rules :=
  renumber id (rules.insertIdx id (some rule))

/-- `rules_` after `delRule` -/
def eraseAt (rules : Rules) (id : ℕ) : Rules := renumber id (rules.eraseIdx id)

def State.applyRules (s : State) (name : ChainNameEnum) (loads : Bool) : Result :=
  (s.updateChain name loads).map fun _ => (.returns, s.applyAcceptEstablishedOptimization name)

/-- In every operation `rule` is none when the rule cannot be built from what was given. -/
def State.addRule (s : State) (name : ChainNameEnum) (id : ℕ) (rule : Option ChainRule)
    (loads : Bool) : Result :=
  match rule with
  | none => some (.throws, s)
  | some rule =>
    let s := s.setRules name (overwrite (s.rules name) id rule)
    if s.interactive then (s.updateChain name loads).map fun outcome => (outcome, s)
    else some (.returns, s)

def State.append (s : State) (name : ChainNameEnum) (rule : Option ChainRule) (loads : Bool) :
    Result :=
  let id := (s.rules name).length
  (s.addRule name id (rule.map fun rule => { rule with id := id }) loads).map fun (outcome, s) =>
    match outcome with
    | .throws => (.throws, s)
    | .returns =>
      (.returns, if s.interactive then s.applyAcceptEstablishedOptimization name else s)

def State.insert (s : State) (name : ChainNameEnum) (id : ℕ) (rule : Option ChainRule)
    (loads : Bool) : Result :=
  if (s.rules name).length < id then some (.throws, s)
  else
    match rule with
    | none => some (.throws, s)
    | some rule =>
      let s := s.setRules name (insertAt (s.rules name) id rule)
      if s.interactive then
        (s.updateChain name loads).map fun outcome =>
          match outcome with
          | .throws => (.throws, s)
          | .returns => (.returns, s.applyAcceptEstablishedOptimization name)
      else some (.returns, s)

def State.delRule (s : State) (name : ChainNameEnum) (id : ℕ) (loads : Bool) : Result :=
  if (s.rules name).length < id then some (.throws, s)
  else
    match (s.rules name)[id]? with
    | none => none
    | some none => some (.throws, s)
    | some (some _) =>
      if none ∈ (s.rules name).drop (id + 1) then none
      else
        let s := s.setRules name (eraseAt (s.rules name) id)
        if s.interactive then s.applyRules name loads else some (.returns, s)

def State.delRuleList (s : State) (name : ChainNameEnum) (loads : Bool) : Result :=
  let s := s.setRules name []
  if s.interactive then s.applyRules name loads else some (.returns, s)

def State.replaceRule (s : State) (name : ChainNameEnum) (id newId : ℕ) (rule : Option ChainRule)
    (loadsDel loadsAdd : Bool) : Result :=
  match s.delRule name id loadsDel with
  | none => none
  | some (.throws, s) => some (.throws, s)
  | some (.returns, s) => s.addRule name newId rule loadsAdd

/-- Delete the first rule that is equal to the one that was given.  The rule is built for each
comparison, and what the deletion throws becomes an exception of its own. -/
def State.deletes (s : State) (name : ChainNameEnum) (rule : Option ChainRule) (loads : Bool) :
    Result :=
  match rule with
  | none =>
    if (s.rules name).any Option.isSome then some (.throws, s)
    else some (.returns, s.applyAcceptEstablishedOptimization name)
  | some c =>
    match (s.rules name).findIdx? fun r => r.any fun r => r.equal c with
    | some i => s.delRule name i loads
    | none => some (.returns, s.applyAcceptEstablishedOptimization name)

inductive Op
  | append (rule : Option ChainRule)
  | insert (id : ℕ) (rule : Option ChainRule)
  | deletes (rule : Option ChainRule)
  | addRule (id : ℕ) (rule : Option ChainRule)
  | replaceRule (id newId : ℕ) (rule : Option ChainRule) (loadsDel : Bool)
  | delRule (id : ℕ)
  | delRuleList
  | applyRules
  deriving DecidableEq

/-- An operation on a chain, with what loading the chain's programs comes to, or a change of the
mode of the cube. -/
inductive Event
  | edit (name : ChainNameEnum) (op : Op) (loads : Bool)
  | setInteractive (value : Bool)
  deriving DecidableEq

def Op.run (op : Op) (s : State) (name : ChainNameEnum) (loads : Bool) : Result :=
  match op with
  | .append rule => s.append name rule loads
  | .insert id rule => s.insert name id rule loads
  | .deletes rule => s.deletes name rule loads
  | .addRule id rule => s.addRule name id rule loads
  | .replaceRule id newId rule loadsDel => s.replaceRule name id newId rule loadsDel loads
  | .delRule id => s.delRule name id loads
  | .delRuleList => s.delRuleList name loads
  | .applyRules => s.applyRules name loads

def Event.next (s : State) : Event → Option State
  | .edit name op loads => (op.run s name loads).map Prod.snd
  | .setInteractive value => some { s with interactive := value }

def step (s : Option State) (event : Event) : Option State := s.bind event.next

end Polycube.Iptables
