import Polycube.Natting.RuleEntries

/-!
# The stores of rules

The rules of a kind stand in a vector, of pointers that a failed deletion leaves null, and each has
an entry in a table of the programs.  A rule is looked for by its id and moved by its position.
Masquerade is one entry in the table of the SNAT rules.
-/

namespace Polycube.Natting

open Lib

/-- How an operation stops: with an exception, or in a way that is not defined, because it goes
through a null pointer, over the end of the vector or behind the end of a text. -/
inductive Stop
  | throws
  | crashes
  deriving DecidableEq

/-- `throw std::runtime_error("There is no rule " + id)`: the number is added to the pointer to the
text of 17 characters. -/
def noRule (id : ℕ) : Stop := if 17 < id then .crashes else .throws

structure Rules (E K V : Type) where
  entries : List (Option E)
  table : Table K V

abbrev Work (E K V : Type) := EStateM Stop (Rules E K V)

namespace Kind

variable {C E U S K V : Type} [DecidableEq K] (k : Kind C E U S K V)

/-- The entry under an id and its position, counted from `i`. -/
def getEntry (id : ℕ) : ℕ → List (Option E) → Work E K V (ℕ × E)
  | _, [] => throw (noRule id)
  | _, none :: _ => throw .crashes
  | i, some it :: l => if k.id it = id then pure (i, it) else getEntry id (i + 1) l

def call (m : Method E Unit) (at_ : ℕ × E) : Work E K V Unit :=
  match m.run at_.2 with
  | .ok _ e => modify fun r => { r with entries := r.entries.set at_.1 (some e) }
  | .error _ e => do
    modify fun r => { r with entries := r.entries.set at_.1 (some e) }
    throw .throws

/-- The entry of the table is written; the kernel may refuse. -/
def injectToDatapath (refused : Bool) (e : E) : Work E K V Unit :=
  if refused = true then throw .throws
  else modify fun r => { r with table := Function.update r.table (k.key e) (some (k.value e)) }

def removeFromDatapath (e : E) : Work E K V Unit := do
  let r ← get
  if r.table (k.key e) = none then throw .throws
  else modify fun r => { r with table := Function.update r.table (k.key e) none }

def checkDuplicates (e : E) : List (Option E) → Work E K V Unit
  | [] => pure ()
  | none :: _ => throw .crashes
  | some it :: l => if k.same it e = true then throw .throws else checkDuplicates e l

def addEntry (conf : C) (refused : Bool) : Work E K V Unit :=
  match k.create conf with
  | none => throw .throws
  | some e => do
    let r ← get
    k.checkDuplicates e r.entries
    modify fun r => { r with entries := r.entries ++ [some e] }
    k.injectToDatapath refused e

def append (conf : C) (refused : Bool) : Work E K V Unit := do
  let r ← get
  k.addEntry (k.withId r.entries.length conf) refused

def addEntryList : List (C × Bool) → Work E K V Unit
  | [] => pure ()
  | (conf, refused) :: l => do
    k.addEntry conf refused
    addEntryList l

def removeId (id : ℕ) : List (Option E) → Work E K V Unit
  | [] => pure ()
  | none :: _ => throw .crashes
  | some it :: l => if k.id it = id then k.removeFromDatapath it else removeId id l

/-- The entries behind a position, moved one place to the front: they get their positions as ids,
through pointers that must not be null. -/
def renumber : ℕ → List (Option E) → Option (List (Option E))
  | _, [] => some []
  | _, none :: _ => none
  | i, some e :: l => (renumber (i + 1) l).map (some (k.setId i e) :: ·)

/-- The loop over the positions from `id` to the one before the last, and `resize`.  The bound of
the loop is unsigned: of an empty vector it is passed at every position. -/
def moveUp (id : ℕ) : Work E K V Unit := do
  let r ← get
  if r.entries = [] then throw .crashes
  else if id < r.entries.length then
    match k.renumber id (r.entries.drop (id + 1)) with
    | none => throw .crashes
    | some l => modify fun r => { r with entries := r.entries.take id ++ l }
  else modify fun r => { r with entries := r.entries.dropLast }

def delEntry (id : ℕ) : Work E K V Unit := do
  let r ← get
  if r.entries.length < id then throw (noRule id)
  else do
    k.removeId id r.entries
    k.moveUp id

/-- The loop of `delEntryList`, over the entries from position `i`. -/
def removeAll : ℕ → List (Option E) → Work E K V Unit
  | _, [] => pure ()
  | _, none :: _ => throw .crashes
  | i, some e :: l => do
    k.removeFromDatapath e
    modify fun r => { r with entries := r.entries.set i none }
    removeAll (i + 1) l

def delEntryList : Work E K V Unit := do
  let r ← get
  k.removeAll 0 r.entries
  modify fun r => { r with entries := [] }

def replaceEntry (id : ℕ) (conf : C) (refused : Bool) : Work E K V Unit := do
  k.delEntry id
  k.addEntry conf refused

def edit (id : ℕ) (m : Method E Unit) : Work E K V Unit := do
  let r ← get
  let at_ ← k.getEntry id 0 r.entries
  call m at_

def updateList : List (ℕ × U) → Work E K V Unit
  | [] => pure ()
  | (id, u) :: l => do
    k.edit id (k.update u)
    updateList l

end Kind

inductive RuleOp (C U S : Type)
  | append (conf : C) (refused : Bool)
  | addEntry (conf : C) (refused : Bool)
  | addEntryList (l : List (C × Bool))
  | replaceEntry (id : ℕ) (conf : C) (refused : Bool)
  | update (l : List (ℕ × U))
  | set (id : ℕ) (s : S)
  | delEntry (id : ℕ)
  | delEntryList

def Kind.exec {C E U S K V : Type} [DecidableEq K] (k : Kind C E U S K V) :
    RuleOp C U S → Work E K V Unit
  | .append conf refused => k.append conf refused
  | .addEntry conf refused => k.addEntry conf refused
  | .addEntryList l => k.addEntryList l
  | .replaceEntry id conf refused => k.replaceEntry id conf refused
  | .update l => k.updateList l
  | .set id s => k.edit id (k.set s)
  | .delEntry id => k.delEntry id
  | .delEntryList => k.delEntryList

/-- The rules of the translator, its address as `ip_string_to_nbo_uint` reads it, and the tables of
the programs. -/
structure Store where
  snat : List (Option RuleSnatEntry)
  dnat : List (Option RuleDnatEntry)
  portForwarding : List (Option RulePortForwardingEntry)
  enabled : Bool
  externalIp : Option (BitVec 32)
  smRules : Lpm 32 SmV
  dpRules : Lpm 56 DpV

namespace Store

def snatRules (s : Store) : Rules RuleSnatEntry (ℕ × BitVec 32) SmV := ⟨s.snat, s.smRules⟩

def setSnatRules (s : Store) (r : Rules RuleSnatEntry (ℕ × BitVec 32) SmV) : Store :=
  { s with snat := r.entries, smRules := r.table }

def dnatRules (s : Store) : Rules RuleDnatEntry (ℕ × BitVec 56) DpV := ⟨s.dnat, s.dpRules⟩

def setDnatRules (s : Store) (r : Rules RuleDnatEntry (ℕ × BitVec 56) DpV) : Store :=
  { s with dnat := r.entries, dpRules := r.table }

def portForwardingRules (s : Store) : Rules RulePortForwardingEntry (ℕ × BitVec 56) DpV :=
  ⟨s.portForwarding, s.dpRules⟩

def setPortForwardingRules (s : Store) (r : Rules RulePortForwardingEntry (ℕ × BitVec 56) DpV) :
    Store :=
  { s with portForwarding := r.entries, dpRules := r.table }

/-! ### Masquerade -/

theorem masquerade_isSource : OriginatingRule.masquerade.isSource = true := rfl

/-- The entry of masquerade is written; the kernel may refuse. -/
def inject (ip : BitVec 32) (refused : Bool) (s : Store) : Bool × Store :=
  if refused = true then (false, s)
  else (true, { s with smRules := s.smRules.set 0 0 ⟨ip, .masquerade, masquerade_isSource⟩ })

def enabledIf (value : Bool) (injected : Bool × Store) : Bool × Store :=
  if injected.1 = true then (true, { injected.2 with enabled := value }) else (false, injected.2)

def enable (refused : Bool) (s : Store) : Bool × Store :=
  if s.enabled = true then (true, s)
  else match s.externalIp with
    | none => (false, s)
    | some ip => enabledIf true (s.inject ip refused)

def disable (refused : Bool) (s : Store) : Bool × Store :=
  if s.enabled = true then enabledIf false (s.inject 0 refused) else (true, s)

def setEnabled (value refused : Bool) (s : Store) : Store :=
  { (if value = true then s.enable refused else s.disable refused).2 with enabled := value }

/-- `update` of masquerade. -/
def updateMasquerade (value : Option Bool) (refused : Bool) (s : Store) : Store :=
  s.setEnabled (value.getD false) refused

/-- A new object for masquerade; `unset` is what its member happens to hold. -/
def addMasquerade (unset : Bool) (value : Option Bool) (refused : Bool) (s : Store) : Store :=
  { s with enabled := unset }.updateMasquerade value refused

def delMasquerade (refused : Bool) (s : Store) : Store := (s.disable refused).2

def replaceMasquerade (unset : Bool) (value : Option Bool) (undeleted refused : Bool) (s : Store) :
    Store :=
  (s.delMasquerade undeleted).addMasquerade unset value refused

def parentIp (value : Option (BitVec 32)) (refused : Bool) : EStateM Stop Store Unit := do
  modify fun s => { s with externalIp := value }
  let s ← get
  if s.enabled = true then
    match value with
    | none => throw .throws
    | some ip => set (s.inject ip refused).2
  else pure ()

end Store

def on {R : Type} (part : Store → R) (setPart : Store → R → Store) (m : EStateM Stop R Unit) :
    EStateM Stop Store Unit := fun s =>
  match m.run (part s) with
  | .ok _ r => .ok () (setPart s r)
  | .error stop r => .error stop (setPart s r)

inductive Op
  | snat (op : RuleOp SnatConf SnatUpdate SnatSetter)
  | dnat (op : RuleOp DnatConf DnatUpdate DnatSetter)
  | portForwarding (op : RuleOp PortForwardingConf PortForwardingUpdate PortForwardingSetter)
  | enable (refused : Bool)
  | disable (refused : Bool)
  | setEnabled (value refused : Bool)
  | updateMasquerade (value : Option Bool) (refused : Bool)
  | addMasquerade (unset : Bool) (value : Option Bool) (refused : Bool)
  | replaceMasquerade (unset : Bool) (value : Option Bool) (undeleted refused : Bool)
  | parentIp (value : Option (BitVec 32)) (refused : Bool)

def exec : Op → EStateM Stop Store Unit
  | .snat op => on Store.snatRules Store.setSnatRules (ruleSnat.exec op)
  | .dnat op => on Store.dnatRules Store.setDnatRules (ruleDnat.exec op)
  | .portForwarding op =>
    on Store.portForwardingRules Store.setPortForwardingRules (rulePortForwarding.exec op)
  | .enable refused => modify fun s => (s.enable refused).2
  | .disable refused => modify fun s => (s.disable refused).2
  | .setEnabled value refused => modify fun s => s.setEnabled value refused
  | .updateMasquerade value refused => modify fun s => s.updateMasquerade value refused
  | .addMasquerade unset value refused => modify fun s => s.addMasquerade unset value refused
  | .replaceMasquerade unset value undeleted refused =>
    modify fun s => s.replaceMasquerade unset value undeleted refused
  | .parentIp value refused => Store.parentIp value refused

def stepStore (s : Option Store) (op : Op) : Option Store :=
  s.bind fun s => match (exec op).run s with
    | .ok _ s' => some s'
    | .error .throws s' => some s'
    | .error .crashes _ => none

def Store.start : Store where
  snat := []
  dnat := []
  portForwarding := []
  enabled := false
  externalIp := none
  smRules := fun _ => none
  dpRules := fun _ => none

end Polycube.Natting
