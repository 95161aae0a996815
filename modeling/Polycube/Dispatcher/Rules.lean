import Mathlib.Data.List.AList
import Polycube.Dispatcher.Datapath
import Polycube.Lib.Run

/-!
# Node port rules

The control plane keeps the node port rules in a map of its own and in the program's table.  An
operation may be refused by the kernel at each of its writes, and a removal fails when there is no
entry; the exception leaves what was done before.  Two operations go on where nothing is defined any
more: an update of a rule that does not exist, and the deletion of all rules, whose loop stands on
an element that it has erased.
-/

namespace Polycube.Dispatcher

open Lib

def isSpace (c : Char) : Bool :=
  c == ' ' || (9 ≤ c.toNat && c.toNat ≤ 13)

def number (digits : List Char) : ℕ :=
  digits.foldl (fun n c => 10 * n + (c.toNat - '0'.toNat)) 0

/-- `%hu` of `sscanf`: the number, cut to 16 bits, and the text after it.  A number beyond 64 bits
counts as the largest one, and a minus negates. -/
def scanHu (text : List Char) : Option (BitVec 16 × List Char) :=
  let text := text.dropWhile isSpace
  let (minus, text) := match text with
    | '-' :: rest => (true, rest)
    | '+' :: rest => (false, rest)
    | rest => (false, rest)
  let digits := text.takeWhile Char.isDigit
  if digits.isEmpty then none
  else
    let n := number digits
    let value := if n < 2 ^ 64 then
        if minus then -BitVec.ofNat 16 n else BitVec.ofNat 16 n
      else BitVec.allOnes 16
    some (value, text.dropWhile Char.isDigit)

/-- `sscanf` with `%hu-%hu`; none if it does not read both numbers. -/
def scanRange (value : String) : Option (BitVec 16 × BitVec 16) :=
  match scanHu value.toList with
  | some (low, '-' :: rest) => (scanHu rest).map fun high => (low, high.1)
  | _ => none

/-! ### The control plane -/

inductive L4Proto
  | tcp | udp | icmp
  deriving DecidableEq

def L4Proto.toInt : L4Proto → BitVec 8
  | .tcp => 6
  | .udp => 17
  | .icmp => 1

structure NodeportKey where
  port : BitVec 16
  proto : L4Proto
  deriving DecidableEq

def NodeportKey.ntKey (key : NodeportKey) : NtK := ⟨bswap16 key.port, key.proto.toInt⟩

abbrev RuleMap := AList fun _ : NodeportKey => ExternalTrafficPolicyType

structure Control where
  nodeportRange : String
  nodeportRangeTuple : BitVec 16 × BitVec 16
  nodePortRuleMap : RuleMap
  nprTable : Table NtK ExternalTrafficPolicyType

def Control.init : Control where
  nodeportRange := "30000-32767"
  nodeportRangeTuple := (30000, 32767)
  nodePortRuleMap := ∅
  nprTable _ := none

/-- How an operation ends; `undefined` is undefined behaviour. -/
inductive Outcome
  | done
  | threw (message : String)
  | undefined
  deriving DecidableEq

def nprSet (accepts : Bool) (t : Table NtK ExternalTrafficPolicyType) (k : NtK)
    (policy : ExternalTrafficPolicyType) : Option (Table NtK ExternalTrafficPolicyType) :=
  if accepts then some (Function.update t k (some policy)) else none

def nprRemove (accepts : Bool) (t : Table NtK ExternalTrafficPolicyType) (k : NtK) :
    Option (Table NtK ExternalTrafficPolicyType) :=
  if accepts ∧ (t k).isSome then some (Function.update t k none) else none

section

variable (kernel : ℕ → Bool)

/-- The loop of `setNodeportRange`: rules out of the range are removed.  `n` counts the writes, and
the kernel accepts the n-th one or not. -/
def flushRules (low high : BitVec 16) : ℕ → List NodeportKey → Control → Bool × Control
  | _, [], s => (true, s)
  | n, key :: keys, s =>
    if key.port < low ∨ high < key.port then
      match nprRemove (kernel n) s.nprTable key.ntKey with
      | none => (false, s)
      | some nprTable => flushRules low high (n + 1) keys
          { s with nprTable := nprTable, nodePortRuleMap := s.nodePortRuleMap.erase key }
    else flushRules low high n keys s

/-- `order` is the order in which the elements of the map come. -/
def setNodeportRange (order : List NodeportKey → List NodeportKey) (value : String) (s : Control) :
    Outcome × Control :=
  if s.nodeportRange = value then (.done, s)
  else
    match scanRange value with
    | none => (.threw "Failed to parse NodePort port range", s)
    | some (low, high) =>
      if high ≤ low then (.threw "Invalid NodePort port range", s)
      else
        match flushRules kernel low high 0 (order s.nodePortRuleMap.keys) s with
        | (false, s) => (.threw "Failed to flush out-of-range NodePort rules", s)
        | (true, s) => (.done, { s with nodeportRangeTuple := (low, high), nodeportRange := value })

/-- The rule has the policy `CLUSTER` when none is set, the table what an unset one reads as. -/
def addNodeportRule (unset : ExternalTrafficPolicyType) (key : NodeportKey)
    (policy : Option ExternalTrafficPolicyType) (s : Control) : Outcome × Control :=
  if key.port < s.nodeportRangeTuple.1 ∨ s.nodeportRangeTuple.2 < key.port then
    (.threw "The NodePort rule port is not contained in the valid range", s)
  else if key ∈ s.nodePortRuleMap then (.threw "The NodePort rule already exists", s)
  else if key.proto = .icmp then (.threw "NodePort rule protocol cannot be ICMP", s)
  else
    let rules := s.nodePortRuleMap.insert key (policy.getD .cluster)
    match nprSet (kernel 0) s.nprTable key.ntKey (policy.getD unset) with
    | none =>
      (.threw "Failed to store NodePort rule in kernel map",
        { s with nodePortRuleMap := rules.erase key })
    | some nprTable => (.done, { s with nodePortRuleMap := rules, nprTable := nprTable })

/-- The loop of `updateNodeportRuleList`.  A rule that does not exist is looked up all the same:
its exception is made but not thrown. -/
def updateRules : ℕ → List (NodeportKey × Option ExternalTrafficPolicyType) → Control →
    Outcome × Control
  | _, [], s => (.done, s)
  | n, (key, policy) :: confs, s =>
    if key ∈ s.nodePortRuleMap then
      match policy with
      | none => updateRules n confs s
      | some policy =>
        match nprSet (kernel n) s.nprTable key.ntKey policy with
        | none => (.threw "Failed to update NodePort rule", s)
        | some nprTable => updateRules (n + 1) confs
            { s with nprTable := nprTable, nodePortRuleMap := s.nodePortRuleMap.insert key policy }
    else (.undefined, s)

def updateNodeportRuleList (confs : List (NodeportKey × Option ExternalTrafficPolicyType))
    (s : Control) : Outcome × Control :=
  updateRules kernel 0 confs s

def delNodeportRule (key : NodeportKey) (s : Control) : Outcome × Control :=
  match nprRemove (kernel 0) s.nprTable key.ntKey with
  | none => (.threw "Failed to delete NodePort rule", s)
  | some nprTable =>
    (.done, { s with nprTable := nprTable, nodePortRuleMap := s.nodePortRuleMap.erase key })

def delNodeportRuleList (order : List NodeportKey → List NodeportKey) (s : Control) :
    Outcome × Control :=
  match order s.nodePortRuleMap.keys with
  | [] => (.done, s)
  | key :: _ =>
    match delNodeportRule kernel key s with
    | (.done, s) => (.undefined, s)
    | result => result

end

inductive Op
  | setNodeportRange (value : String)
  | addNodeportRule (key : NodeportKey) (policy : Option ExternalTrafficPolicyType)
  | updateNodeportRuleList (confs : List (NodeportKey × Option ExternalTrafficPolicyType))
  | delNodeportRule (key : NodeportKey)
  | delNodeportRuleList
  deriving DecidableEq

variable (order : List NodeportKey → List NodeportKey) (unset : ExternalTrafficPolicyType)

def Op.apply (kernel : ℕ → Bool) (s : Control) : Op → Outcome × Control
  | .setNodeportRange value => Dispatcher.setNodeportRange kernel order value s
  | .addNodeportRule key policy => Dispatcher.addNodeportRule kernel unset key policy s
  | .updateNodeportRuleList confs => Dispatcher.updateNodeportRuleList kernel confs s
  | .delNodeportRule key => Dispatcher.delNodeportRule kernel key s
  | .delNodeportRuleList => Dispatcher.delNodeportRuleList kernel order s

def control (s : Control) (event : Op × (ℕ → Bool)) : Control :=
  (event.1.apply order unset event.2 s).2

def Mirrors (rules : RuleMap) (t : Table NtK ExternalTrafficPolicyType) : Prop :=
  ∀ k policy, t k = some policy ↔
    ∃ key : NodeportKey, key.ntKey = k ∧ rules.lookup key = some policy

structure Control.Consistent (s : Control) : Prop where
  mirrors : Mirrors s.nodePortRuleMap s.nprTable
  inRange : ∀ key ∈ s.nodePortRuleMap,
    s.nodeportRangeTuple.1 ≤ key.port ∧ key.port ≤ s.nodeportRangeTuple.2

/-- An operation on a state ends in a defined way, and if it fails everything is as it was. -/
def Clean (s : Control) (result : Outcome × Control) : Prop :=
  result.1 ≠ .undefined ∧ ∀ message, result.1 = .threw message → result.2 = s

def Control.outOfRange (s : Control) (low high : BitVec 16) : ℕ :=
  s.nodePortRuleMap.keys.countP fun key => key.port < low ∨ high < key.port

/-- What an operation needs to be clean.  The kernel accepts all writes of a list or refuses the
first one; the rules that are updated exist, up to a write that is refused; a rule that is added has
its policy; and there is no rule to delete, or the first deletion is refused. -/
def Op.Safe (s : Control) (event : Op × (ℕ → Bool)) : Prop :=
  match event.1 with
  | .setNodeportRange value => s.nodeportRange ≠ value →
      ∀ low high, scanRange value = some (low, high) → low < high →
        event.2 0 = false ∨ ∀ n < s.outOfRange low high, event.2 n = true
  | .addNodeportRule _ policy => policy ≠ none
  | .updateNodeportRuleList confs =>
      ((∀ conf ∈ confs, conf.1 ∈ s.nodePortRuleMap) ∧
        ∀ n < confs.countP fun conf => conf.2 ≠ none, event.2 n = true) ∨
      event.2 0 = false ∧ ∃ before conf after, confs = before ++ conf :: after ∧
        (∀ b ∈ before, b.1 ∈ s.nodePortRuleMap ∧ b.2 = none) ∧
        conf.1 ∈ s.nodePortRuleMap ∧ conf.2 ≠ none
  | .delNodeportRule _ => True
  | .delNodeportRuleList => s.nodePortRuleMap = ∅ ∨ event.2 0 = false

end Polycube.Dispatcher
