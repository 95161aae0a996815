import Polycube.Lib.Throwing
import Polycube.Natting.Datapath

/-!
# The rules of the address translator

The entries the control plane keeps of SNAT, DNAT and port forwarding rules, how their fields are
set, and what a rule has in the tables of the programs.  The three kinds are kept by the same code
over entries of their own: `Kind` is what differs.
-/

namespace Polycube.Natting

open Lib

/-- An address as it is given: what stands before the slash, if it is an address, and what stands
behind it, which may not be a number. -/
structure IpText where
  ip : Option (BitVec 32)
  netmask : Option (Option ℤ)
  deriving DecidableEq

/-- `IpAddr` -/
structure IpAddr where
  ip : BitVec 32
  netmask : BitVec 8
  deriving DecidableEq

/-- `ntohl(0xffffffff << (32 - netmask))`.  The processor takes the distance modulo 32. -/
def netmaskBits (netmask : BitVec 8) : BitVec 32 :=
  bswap32 (0xffffffff#32 <<< ((32 - netmask.toNat) % 32))

/-- `fromString`, or nothing if it throws. -/
def IpText.fromString (t : IpText) : Option IpAddr := do
  let netmask ← match t.netmask with
    | none => some 32#8
    | some n => n.map fun n => BitVec.ofInt 8 n
  if netmask > 32 then none else
  let ip ← t.ip
  return ⟨ip &&& netmaskBits netmask, netmask⟩

/-! ### Entries -/

structure RuleSnatEntry where
  id : ℕ
  internalIp : BitVec 32
  internalNetmask : BitVec 8
  externalIp : BitVec 32
  deriving DecidableEq

structure RuleDnatEntry where
  id : ℕ
  externalIp : BitVec 32
  internalIp : BitVec 32
  deriving DecidableEq

inductive ProtoEnum
  | tcp | udp | all
  deriving DecidableEq

structure RulePortForwardingEntry where
  id : ℕ
  externalIp : BitVec 32
  externalPort : BitVec 16
  proto : ProtoEnum
  internalIp : BitVec 32
  internalPort : BitVec 16
  deriving DecidableEq

structure SnatConf where
  id : ℕ
  internalNet : IpText
  externalIp : IpText

structure DnatConf where
  id : ℕ
  externalIp : IpText
  internalIp : IpText

structure PortForwardingConf where
  id : ℕ
  externalIp : IpText
  externalPort : BitVec 16
  proto : Option String
  internalIp : IpText
  internalPort : BitVec 16

structure SnatUpdate where
  internalNet : Option IpText
  externalIp : Option IpText

structure DnatUpdate where
  externalIp : Option IpText
  internalIp : Option IpText

structure PortForwardingUpdate where
  externalIp : Option IpText
  externalPort : Option (BitVec 16)
  proto : Option String
  internalIp : Option IpText
  internalPort : Option (BitVec 16)

abbrev Method (E : Type) := EStateM Unit E

def whenSet {E A : Type} (set : A → Method E Unit) : Option A → Method E Unit
  | none => pure ()
  | some a => set a

def setIp {E : Type} (assign : IpAddr → E → E) (value : IpText) : Method E Unit :=
  match value.fromString with
  | none => throw ()
  | some addr => modify (assign addr)

def leaves {E : Type} (m : Method E Unit) (e : E) : E :=
  match m.run e with
  | .ok _ e' => e'
  | .error _ e' => e'

/-- A method, however it ends, leaves what `f` reads. -/
def Keeps {E A : Type} (f : E → A) (m : Method E Unit) : Prop := ∀ e, f (leaves m e) = f e

namespace Keeps

variable {E A B : Type} {f : E → A}

theorem pure : Keeps f (pure ()) := fun _ => rfl

theorem seq {m m' : Method E Unit} (h : Keeps f m) (h' : Keeps f m') :
    Keeps f (m >>= fun _ => m') := by
  intro e
  have first := h e
  unfold leaves at first ⊢
  rw [EStateM.run_bind]
  cases hm : m.run e with
  | ok u e' =>
    rw [hm] at first
    exact (h' e').trans first
  | error u e' =>
    rw [hm] at first
    exact first

theorem modify {g : E → E} (h : ∀ e, f (g e) = f e) : Keeps f (modify g) := h

theorem whenSet {set : B → Method E Unit} (h : ∀ b, Keeps f (set b)) (o : Option B) :
    Keeps f (whenSet set o) := by
  cases o with
  | none => exact pure
  | some b => exact h b

theorem setIp {assign : IpAddr → E → E} (h : ∀ addr e, f (assign addr e) = f e) (value : IpText) :
    Keeps f (setIp assign value) := by
  unfold Natting.setIp
  cases value.fromString with
  | none => exact fun _ => rfl
  | some addr => exact modify (h addr)

end Keeps

namespace RuleSnatEntry

def setInternalNet : IpText → Method RuleSnatEntry Unit :=
  setIp fun addr e => { e with internalIp := addr.ip, internalNetmask := addr.netmask }

def setExternalIp : IpText → Method RuleSnatEntry Unit :=
  setIp fun addr e => { e with externalIp := addr.ip }

theorem keeps_setInternalNet (value : IpText) : Keeps id (setInternalNet value) := by
  unfold setInternalNet
  refine Keeps.setIp ?_ value
  exact fun _ _ => rfl

theorem keeps_setExternalIp (value : IpText) : Keeps id (setExternalIp value) := by
  unfold setExternalIp
  refine Keeps.setIp ?_ value
  exact fun _ _ => rfl

def update (conf : SnatUpdate) : Method RuleSnatEntry Unit := do
  whenSet setInternalNet conf.internalNet
  whenSet setExternalIp conf.externalIp

theorem keeps_update (conf : SnatUpdate) : Keeps id (update conf) :=
  (Keeps.whenSet keeps_setInternalNet _).seq (Keeps.whenSet keeps_setExternalIp _)

def create (conf : SnatConf) : Option RuleSnatEntry := do
  let internal ← conf.internalNet.fromString
  let external ← conf.externalIp.fromString
  return ⟨conf.id, internal.ip, internal.netmask, external.ip⟩

end RuleSnatEntry

namespace RuleDnatEntry

def setExternalIp : IpText → Method RuleDnatEntry Unit :=
  setIp fun addr e => { e with externalIp := addr.ip }

def setInternalIp : IpText → Method RuleDnatEntry Unit :=
  setIp fun addr e => { e with internalIp := addr.ip }

theorem keeps_setExternalIp (value : IpText) : Keeps id (setExternalIp value) := by
  unfold setExternalIp
  refine Keeps.setIp ?_ value
  exact fun _ _ => rfl

theorem keeps_setInternalIp (value : IpText) : Keeps id (setInternalIp value) := by
  unfold setInternalIp
  refine Keeps.setIp ?_ value
  exact fun _ _ => rfl

def update (conf : DnatUpdate) : Method RuleDnatEntry Unit := do
  whenSet setExternalIp conf.externalIp
  whenSet setInternalIp conf.internalIp

theorem keeps_update (conf : DnatUpdate) : Keeps id (update conf) :=
  (Keeps.whenSet keeps_setExternalIp _).seq (Keeps.whenSet keeps_setInternalIp _)

def create (conf : DnatConf) : Option RuleDnatEntry := do
  let external ← conf.externalIp.fromString
  let internal ← conf.internalIp.fromString
  return ⟨conf.id, external.ip, internal.ip⟩

end RuleDnatEntry

namespace RulePortForwardingEntry

def setExternalIp : IpText → Method RulePortForwardingEntry Unit :=
  setIp fun addr e => { e with externalIp := addr.ip }

def setExternalPort (value : BitVec 16) : Method RulePortForwardingEntry Unit :=
  modify fun e => { e with externalPort := value }

def protoOf (value : String) : Option ProtoEnum :=
  if value.toLower = "tcp" then some .tcp
  else if value.toLower = "udp" then some .udp
  else if value.toLower = "all" ∨ value.toLower = "" then some .all
  else none

def setProto (value : String) : Method RulePortForwardingEntry Unit :=
  match protoOf value with
  | none => throw ()
  | some proto => modify fun e => { e with proto := proto }

def updateProto : Option String → Method RulePortForwardingEntry Unit
  | some value => setProto value
  | none => modify fun e => { e with proto := .all }

def setInternalIp : IpText → Method RulePortForwardingEntry Unit :=
  setIp fun addr e => { e with internalIp := addr.ip }

def setInternalPort (value : BitVec 16) : Method RulePortForwardingEntry Unit :=
  modify fun e => { e with internalPort := value }

theorem keeps_setExternalIp (value : IpText) : Keeps id (setExternalIp value) := by
  unfold setExternalIp
  refine Keeps.setIp ?_ value
  exact fun _ _ => rfl

theorem keeps_setInternalIp (value : IpText) : Keeps id (setInternalIp value) := by
  unfold setInternalIp
  refine Keeps.setIp ?_ value
  exact fun _ _ => rfl

theorem keeps_setExternalPort (value : BitVec 16) : Keeps id (setExternalPort value) :=
  fun _ => rfl

theorem keeps_setInternalPort (value : BitVec 16) : Keeps id (setInternalPort value) :=
  fun _ => rfl

theorem keeps_setProto (value : String) : Keeps id (setProto value) := by
  unfold setProto
  cases protoOf value with
  | none => exact fun _ => rfl
  | some proto => exact Keeps.modify fun _ => rfl

theorem keeps_updateProto (value : Option String) : Keeps id (updateProto value) := by
  cases value with
  | none => exact Keeps.modify fun _ => rfl
  | some value => exact keeps_setProto value

def update (conf : PortForwardingUpdate) : Method RulePortForwardingEntry Unit := do
  whenSet setExternalIp conf.externalIp
  whenSet setExternalPort conf.externalPort
  updateProto conf.proto
  whenSet setInternalIp conf.internalIp
  whenSet setInternalPort conf.internalPort

theorem keeps_update (conf : PortForwardingUpdate) : Keeps id (update conf) :=
  (Keeps.whenSet keeps_setExternalIp _).seq
    ((Keeps.whenSet keeps_setExternalPort _).seq
      ((keeps_updateProto _).seq ((Keeps.whenSet keeps_setInternalIp _).seq
        (Keeps.whenSet keeps_setInternalPort _))))

def create (conf : PortForwardingConf) : Option RulePortForwardingEntry := do
  let external ← conf.externalIp.fromString
  let proto ← protoOf (conf.proto.getD "all")
  let internal ← conf.internalIp.fromString
  return ⟨conf.id, external.ip, conf.externalPort, proto, internal.ip, conf.internalPort⟩

end RulePortForwardingEntry

inductive SnatSetter
  | internalNet (value : IpText)
  | externalIp (value : IpText)

inductive DnatSetter
  | externalIp (value : IpText)
  | internalIp (value : IpText)

inductive PortForwardingSetter
  | externalIp (value : IpText)
  | externalPort (value : BitVec 16)
  | proto (value : String)
  | internalIp (value : IpText)
  | internalPort (value : BitVec 16)

def SnatSetter.run : SnatSetter → Method RuleSnatEntry Unit
  | .internalNet value => RuleSnatEntry.setInternalNet value
  | .externalIp value => RuleSnatEntry.setExternalIp value

def DnatSetter.run : DnatSetter → Method RuleDnatEntry Unit
  | .externalIp value => RuleDnatEntry.setExternalIp value
  | .internalIp value => RuleDnatEntry.setInternalIp value

def PortForwardingSetter.run : PortForwardingSetter → Method RulePortForwardingEntry Unit
  | .externalIp value => RulePortForwardingEntry.setExternalIp value
  | .externalPort value => RulePortForwardingEntry.setExternalPort value
  | .proto value => RulePortForwardingEntry.setProto value
  | .internalIp value => RulePortForwardingEntry.setInternalIp value
  | .internalPort value => RulePortForwardingEntry.setInternalPort value

/-- What a kind of rules has of its own: entries `E`, made of configurations `C`, updated by `U` and
set by `S`, and what an entry has in the table. -/
structure Kind (C E U S K V : Type) where
  confId : C → ℕ
  withId : ℕ → C → C
  id : E → ℕ
  setId : ℕ → E → E
  /-- The constructor, which may throw. -/
  create : C → Option E
  update : U → Method E Unit
  set : S → Method E Unit
  /-- The check for duplicates. -/
  same : E → E → Bool
  key : E → K
  value : E → V
  confId_withId : ∀ n c, confId (withId n c) = n
  id_setId : ∀ n e, id (setId n e) = n
  key_setId : ∀ n e, key (setId n e) = key e
  value_setId : ∀ n e, value (setId n e) = value e
  setId_setId : ∀ m n e, setId m (setId n e) = setId m e
  id_create : ∀ c e, create c = some e → id e = confId c
  id_update : ∀ u, Keeps id (update u)
  id_set : ∀ s, Keeps id (set s)

def ruleSnat :
    Kind SnatConf RuleSnatEntry SnatUpdate SnatSetter (ℕ × BitVec 32) SmV where
  confId := SnatConf.id
  withId n c := { c with id := n }
  id := RuleSnatEntry.id
  setId n e := { e with id := n }
  create := RuleSnatEntry.create
  update := RuleSnatEntry.update
  set := SnatSetter.run
  same it e := it.internalIp = e.internalIp ∧ it.internalNetmask = e.internalNetmask
  key e := Lpm.key e.internalNetmask.toNat (bswap32 e.internalIp)
  value e := ⟨e.externalIp, .snat, rfl⟩
  confId_withId _ _ := rfl
  id_setId _ _ := rfl
  key_setId _ _ := rfl
  value_setId _ _ := rfl
  setId_setId _ _ _ := rfl
  id_create c e h := by
    unfold RuleSnatEntry.create at h
    cases hi : c.internalNet.fromString with
    | none => simp [hi] at h
    | some internal =>
      cases he : c.externalIp.fromString with
      | none => simp [hi, he] at h
      | some external =>
        simp only [hi, he, Option.bind_eq_bind, Option.bind_some, Option.pure_def,
          Option.some.injEq] at h
        rw [← h]
  id_update := RuleSnatEntry.keeps_update
  id_set s := by
    cases s with
    | internalNet value => exact RuleSnatEntry.keeps_setInternalNet value
    | externalIp value => exact RuleSnatEntry.keeps_setExternalIp value

def ruleDnat :
    Kind DnatConf RuleDnatEntry DnatUpdate DnatSetter (ℕ × BitVec 56) DpV where
  confId := DnatConf.id
  withId n c := { c with id := n }
  id := RuleDnatEntry.id
  setId n e := { e with id := n }
  create := RuleDnatEntry.create
  update := RuleDnatEntry.update
  set := DnatSetter.run
  same it e := it.externalIp = e.externalIp
  key e := Lpm.key 32 (dpBits e.externalIp 0 0)
  value e := ⟨e.internalIp, 0, .dnat, rfl⟩
  confId_withId _ _ := rfl
  id_setId _ _ := rfl
  key_setId _ _ := rfl
  value_setId _ _ := rfl
  setId_setId _ _ _ := rfl
  id_create c e h := by
    unfold RuleDnatEntry.create at h
    cases he : c.externalIp.fromString with
    | none => simp [he] at h
    | some external =>
      cases hi : c.internalIp.fromString with
      | none => simp [hi, he] at h
      | some internal =>
        simp only [hi, he, Option.bind_eq_bind, Option.bind_some, Option.pure_def,
          Option.some.injEq] at h
        rw [← h]
  id_update := RuleDnatEntry.keeps_update
  id_set s := by
    cases s with
    | externalIp value => exact RuleDnatEntry.keeps_setExternalIp value
    | internalIp value => exact RuleDnatEntry.keeps_setInternalIp value

deriving instance DecidableEq for SmV, DpV

def ProtoEnum.mask : ProtoEnum → ℕ
  | .all => 48
  | .tcp => 56
  | .udp => 56

def ProtoEnum.number : ProtoEnum → BitVec 8
  | .all => 0
  | .tcp => 6
  | .udp => 17

def rulePortForwarding : Kind PortForwardingConf RulePortForwardingEntry PortForwardingUpdate
    PortForwardingSetter (ℕ × BitVec 56) DpV where
  confId := PortForwardingConf.id
  withId n c := { c with id := n }
  id := RulePortForwardingEntry.id
  setId n e := { e with id := n }
  create := RulePortForwardingEntry.create
  update := RulePortForwardingEntry.update
  set := PortForwardingSetter.run
  same it e :=
    it.externalIp = e.externalIp ∧ it.externalPort = e.externalPort ∧ it.proto = e.proto
  key e := Lpm.key e.proto.mask (dpBits e.externalIp (bswap16 e.externalPort) e.proto.number)
  value e := ⟨e.internalIp, bswap16 e.internalPort, .portforwarding, rfl⟩
  confId_withId _ _ := rfl
  id_setId _ _ := rfl
  key_setId _ _ := rfl
  value_setId _ _ := rfl
  setId_setId _ _ _ := rfl
  id_create c e h := by
    unfold RulePortForwardingEntry.create at h
    cases he : c.externalIp.fromString with
    | none => simp [he] at h
    | some external =>
      cases hp : RulePortForwardingEntry.protoOf (c.proto.getD "all") with
      | none => simp [he, hp] at h
      | some proto =>
        cases hi : c.internalIp.fromString with
        | none => simp [he, hp, hi] at h
        | some internal =>
          simp only [he, hp, hi, Option.bind_eq_bind, Option.bind_some, Option.pure_def,
            Option.some.injEq] at h
          rw [← h]
  id_update := RulePortForwardingEntry.keeps_update
  id_set s := by
    cases s with
    | externalIp value => exact RulePortForwardingEntry.keeps_setExternalIp value
    | externalPort value => exact RulePortForwardingEntry.keeps_setExternalPort value
    | proto value => exact RulePortForwardingEntry.keeps_setProto value
    | internalIp value => exact RulePortForwardingEntry.keeps_setInternalIp value
    | internalPort value => exact RulePortForwardingEntry.keeps_setInternalPort value

end Polycube.Natting
