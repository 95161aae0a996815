import Polycube.Router.Follows

/-!
# The router over whole runs

`InStep` says that the datapath follows the control plane.  It is kept by every event that is
`Allowed` (`step_inStep`), and so by every run of such events (`run_inStep`).
-/

namespace Polycube

open Function Lib

namespace Router

variable {own : BitVec 32 → BitVec 32 → Prop} {s : Router}

structure InStep (s : Router) : Prop where
  follows : Follows (Own s) s
  wellFormed : WellFormed s

def OwnElsewhere (s : Router) (name : String) (ip index : BitVec 32) : Prop :=
  ∃ name' port, name' ≠ name ∧ s.ports name' = some port ∧ port.index = index ∧
    ∃ a ∈ port.addresses, a.ip = ip

variable {name : String} {port : Port}

theorem own_iff (h : s.ports name = some port) (ip j : BitVec 32) :
    Own s ip j ↔ OwnElsewhere s name ip j ∨ (j = port.index ∧ ∃ a ∈ port.addresses, a.ip = ip) := by
  constructor
  · rintro ⟨name', port', hasPort, index, owns⟩
    by_cases same : name' = name
    · subst same
      obtain rfl : port' = port := Option.some.inj (hasPort.symm.trans h)
      exact Or.inr ⟨index.symm, owns⟩
    · exact Or.inl ⟨name', port', same, hasPort, index, owns⟩
  · rintro (⟨name', port', -, hasPort, index, owns⟩ | ⟨index, owns⟩)
    · exact ⟨name', port', hasPort, index, owns⟩
    · exact ⟨name, port, h, index.symm, owns⟩

@[simp] theorem setPort_self (s : Router) (name : String) (port : Port) :
    (s.setPort name port).ports name = some port := update_self _ _ _

theorem setPort_of_ne (s : Router) {name' : String} (port : Port) (h : name' ≠ name) :
    (s.setPort name port).ports name' = s.ports name' := update_of_ne h _ _

theorem ownElsewhere_setPort (s : Router) (name : String) (port : Port) (ip j : BitVec 32) :
    OwnElsewhere (s.setPort name port) name ip j ↔ OwnElsewhere s name ip j := by
  constructor
  · rintro ⟨name', port', other, hasPort, rest⟩
    rw [setPort_of_ne s port other] at hasPort
    exact ⟨name', port', other, hasPort, rest⟩
  · rintro ⟨name', port', other, hasPort, rest⟩
    rw [← setPort_of_ne s port other] at hasPort
    exact ⟨name', port', other, hasPort, rest⟩

theorem own_setPort (s : Router) (name : String) (port : Port) (ip j : BitVec 32) :
    Own (s.setPort name port) ip j ↔
      OwnElsewhere s name ip j ∨ (j = port.index ∧ ∃ a ∈ port.addresses, a.ip = ip) := by
  rw [own_iff (setPort_self s name port), ownElsewhere_setPort]

/-- Routes only know the names and indices of the ports. -/
theorem Follows.setPort (h : Follows own s) (wf : WellFormed s) (name : String) (port : Port)
    (same : ∀ old, s.ports name = some old → old.index = port.index) :
    Follows own (s.setPort name port) ∧ WellFormed (s.setPort name port) := by
  refine ⟨⟨h.address, fun k free => ?_⟩, ⟨fun r hr => ?_, wf.cost⟩⟩
  · rcases h.served k free with ⟨r, v, chosen, found, old, hasPort, rfl⟩ | ⟨noRoute, none⟩
    · refine Or.inl ⟨r, _, chosen, found, ?_⟩
      by_cases here : r.iface = name
      · refine ⟨port, by rw [here, setPort_self], ?_⟩
        rw [same old (here ▸ hasPort)]
      · exact ⟨old, by rw [setPort_of_ne s port here, hasPort], rfl⟩
    · exact Or.inr ⟨noRoute, none⟩
  · by_cases here : r.iface = name
    · rw [here, setPort_self]
      exact Option.some_ne_none port
    · rw [setPort_of_ne s port here]
      exact wf.iface r hr

theorem addSecondary_index (port : Port) (a : Cidr) :
    (port.addSecondary a).index = port.index := by
  unfold Port.addSecondary
  split_ifs <;> rfl

theorem addSecondary_ip (port : Port) (a : Cidr) : (port.addSecondary a).ip = port.ip := by
  unfold Port.addSecondary
  split_ifs <;> rfl

theorem mem_addSecondary (port : Port) (a b : Cidr) :
    b ∈ (port.addSecondary a).secondaryIps ↔ b = a ∨ b ∈ port.secondaryIps := by
  unfold Port.addSecondary
  split_ifs with known
  · constructor
    · exact Or.inr
    · rintro (rfl | old)
      · exact known
      · exact old
  · exact List.mem_orderedInsert _

def AllAddable (name : String) :
    (BitVec 32 → BitVec 32 → Prop) → List Cidr → Port → Router → Prop
  | _, [], _, _ => True
  | own, a :: as, port, s =>
    port.secondaryIps.length < maxSecondaryAddresses ∧ AddableLocal own s a port.index ∧
      AllAddable name (fun ip j => own ip j ∨ (ip = a.ip ∧ j = port.index)) as
        (port.addSecondary a) (addLocalRoute a name port.index s)

theorem addLocalRoute_setPort (a : Cidr) (name name' : String) (index : BitVec 32) (port : Port)
    (s : Router) : addLocalRoute a name index (s.setPort name' port) =
      (addLocalRoute a name index s).setPort name' port := by
  rw [addLocalRoute_eq, addLocalRoute_eq, show (s.setPort name' port).routes = s.routes from rfl]
  split_ifs <;> rfl

theorem setPort_setPort (s : Router) (name : String) (port port' : Port) :
    (s.setPort name port).setPort name port' = s.setPort name port' := by
  simp only [setPort, update_idem]

variable {a : Cidr}

theorem AddableLocal.setPort {index : BitVec 32} (h : AddableLocal own s a index)
    (same : port.index = index) :
    AddableLocal own (s.setPort name port) a port.index := by
  refine ⟨fun j owns => (h.1 j owns).trans same.symm, fun len l hl isLoc net port' hasPort => ?_⟩
  by_cases here : l.iface = name
  · rw [here, setPort_self] at hasPort
    rw [Option.some.inj hasPort]
  · rw [setPort_of_ne s port here] at hasPort
    rw [h.2 len l hl isLoc net port' hasPort, same]

/-- The port is put in place first: adding addresses does not look at it. -/
theorem Follows.createSecondaryips {q : Port} {as : List Cidr}
    (h : Follows own (s.setPort name q)) (wf : WellFormed (s.setPort name q))
    (index : q.index = port.index) (ok : AllAddable name own as port s) :
    ∃ port' s', createSecondaryips name as port s = ((port', s'), .ok ()) ∧
      Follows (fun ip j => own ip j ∨ (j = q.index ∧ ∃ a ∈ as, a.ip = ip)) (s'.setPort name q) ∧
      WellFormed (s'.setPort name q) ∧ port'.index = q.index ∧ port'.ip = port.ip ∧
      (∀ b, b ∈ port'.secondaryIps ↔ b ∈ as ∨ b ∈ port.secondaryIps) ∧ s'.ports = s.ports := by
  induction as generalizing own port s with
  | nil =>
    refine ⟨port, s, rfl, h.congr fun ip j => ?_, wf, index.symm, rfl, fun b => ?_, rfl⟩
    · simp
    · simp
  | cons a as ih =>
    obtain ⟨room, addable, rest⟩ := ok
    have added := h.addLocalRoute wf (setPort_self s name q) (addable.setPort index)
    rw [addLocalRoute_setPort, index] at added
    obtain ⟨port', s', run, h', wf', index', ip', mem, ports⟩ :=
      ih added.1 added.2 (index.trans (addSecondary_index port a).symm) rest
    refine ⟨port', s', ?_, h'.congr fun ip j => ?_, wf', index',
      ip'.trans (addSecondary_ip port a), fun b => ?_, ports.trans (addLocalRoute_ports _ _ _ _)⟩
    · unfold Router.createSecondaryips createSecondaryip
      rw [if_neg (by omega)]
      exact run
    · rw [index]
      simp only [List.mem_cons, exists_eq_or_imp]
      tauto
    · rw [mem, mem_addSecondary, List.mem_cons]
      tauto

/-! ### Events of ports -/

def PortAddable (s : Router) (name : String) (index : BitVec 32) (ip : Option Cidr)
    (secondaryIps : List Cidr) : Prop :=
  match ip with
  | none => AllAddable name (Own s) secondaryIps ⟨index, none, []⟩ s
  | some address => AddableLocal (Own s) s address index ∧
      AllAddable name (fun i j => Own s i j ∨ (i = address.ip ∧ j = index)) secondaryIps
        ⟨index, some address, []⟩ (addLocalRoute address name index s)

theorem InStep.addPorts (h : InStep s) {index : BitVec 32} {ip : Option Cidr}
    {secondaryIps : List Cidr}
    (ok : s.ports name = none → PortAddable s name index ip secondaryIps) :
    InStep (addPorts name index ip secondaryIps s).1 := by
  unfold Router.addPorts
  cases fresh : s.ports name with
  | some port => exact h
  | none =>
    have ok := ok fresh
    set q : Port := ⟨index, ip, []⟩ with hq
    have noPort : ∀ old, s.ports name = some old → old.index = q.index :=
      fun old found => absurd (fresh.symm.trans found) (by simp)
    obtain ⟨hq', wfq⟩ := h.follows.setPort h.wellFormed name q noPort
    have elsewhere : ∀ i j, Own s i j ↔ OwnElsewhere s name i j := by
      intro i j
      constructor
      · rintro ⟨name', port', found, rest⟩
        refine ⟨name', port', ?_, found, rest⟩
        rintro rfl
        exact absurd (fresh.symm.trans found) (by simp)
      · rintro ⟨name', port', -, found, rest⟩
        exact ⟨name', port', found, rest⟩
    -- the primary address
    obtain ⟨own₁, s₁, first, h₁, wf₁, rest, ports₁, own₁_iff⟩ :
        ∃ own₁ s₁, addPrimary name index ip s = s₁ ∧ Follows own₁ (s₁.setPort name q) ∧
          WellFormed (s₁.setPort name q) ∧ AllAddable name own₁ secondaryIps q s₁ ∧ s₁.ports = s.ports ∧
          ∀ i j, own₁ i j ↔ Own s i j ∨ (j = index ∧ ∃ a ∈ ip.toList, a.ip = i) := by
      cases ip with
      | none => exact ⟨Own s, s, rfl, hq', wfq, ok, rfl, fun i j => by simp⟩
      | some address =>
        have added := hq'.addLocalRoute wfq (setPort_self s name q) (ok.1.setPort rfl)
        rw [addLocalRoute_setPort] at added
        refine ⟨_, _, rfl, added.1, added.2, ok.2, addLocalRoute_ports _ _ _ _, fun i j => ?_⟩
        simp only [Option.toList_some, List.mem_singleton, exists_eq_left, hq]
        tauto
    obtain ⟨port', s', run, h', wf', index', ip', mem, ports'⟩ :=
      h₁.createSecondaryips wf₁ rfl rest
    rw [first, run]
    have same : ∀ old, (s'.setPort name q).ports name = some old → old.index = port'.index := by
      intro old found
      rw [setPort_self] at found
      rw [← Option.some.inj found, index']
    obtain ⟨h'', wf''⟩ := h'.setPort wf' name port' same
    rw [setPort_setPort] at h'' wf''
    refine ⟨h''.congr fun i j => ?_, wf''⟩
    have ports : s'.ports = s.ports := ports'.trans ports₁
    have elsewhere' : OwnElsewhere s' name i j ↔ OwnElsewhere s name i j := by
      unfold OwnElsewhere
      rw [ports]
    rw [own_setPort, elsewhere', own₁_iff, elsewhere, index']
    simp only [Port.addresses, ip', List.mem_append, mem, hq, List.not_mem_nil, or_false, or_and_right,
      exists_or, and_or_left, or_assoc]

theorem own_of_ports {s s' : Router} (h : s'.ports = s.ports) (i j : BitVec 32) :
    Own s' i j ↔ Own s i j := by
  unfold Own
  rw [h]

theorem own_taken_off {port' : Port}
    (hasPort : s.ports name = some port) (index : port'.index = port.index)
    (addresses : ∀ b, b ∈ port.addresses ↔ b = a ∨ b ∈ port'.addresses)
    (sole : ∀ j, ¬ Own (s.setPort name port') a.ip j) (i j : BitVec 32) :
    (Own s i j ∧ i ≠ a.ip) ↔ Own (s.setPort name port') i j := by
  rw [own_iff hasPort, own_setPort]
  constructor
  · rintro ⟨elsewhere | ⟨hj, b, hb, hi⟩, off⟩
    · exact Or.inl elsewhere
    · rcases (addresses b).1 hb with rfl | other
      · exact absurd hi.symm off
      · exact Or.inr ⟨hj.trans index.symm, b, other, hi⟩
  · intro owns
    refine ⟨?_, ?_⟩
    · rcases owns with elsewhere | ⟨hj, b, hb, hi⟩
      · exact Or.inl elsewhere
      · exact Or.inr ⟨hj.trans index, b, (addresses b).2 (Or.inr hb), hi⟩
    · rintro rfl
      exact sole j ((own_setPort s name port' a.ip j).2 owns)

def IpSettable (s : Router) (name : String) (port : Port) (newIp : Cidr) : Prop :=
  let bare := s.setPort name { port with ip := none }
  match port.ip with
  | none => AddableLocal (Own s) s newIp port.index
  | some old => Removable (Own s) s old name ∧ (∀ j, ¬ Own bare old.ip j) ∧
      AddableLocal (Own bare) (removeLocalRoute old name s).1 newIp port.index

theorem InStep.setIp (h : InStep s) {newIp : Cidr} (hasPort : s.ports name = some port)
    (ok : port.ip ≠ some newIp → IpSettable s name port newIp) :
    InStep (doSetIp name port newIp s).1 := by
  unfold doSetIp
  by_cases known : port.ip = some newIp
  · rw [if_pos known]
    exact h
  · rw [if_neg known]
    have ok := ok known
    set bare := s.setPort name { port with ip := none } with hbare
    -- without the old address
    obtain ⟨s₁, removed, h₁, wf₁, addable, ports₁⟩ :
        ∃ s₁, removePrimary name port s = (s₁, .ok ()) ∧ Follows (Own bare) s₁ ∧
          WellFormed s₁ ∧ AddableLocal (Own bare) s₁ newIp port.index ∧ s₁.ports = s.ports := by
      unfold IpSettable at ok
      unfold removePrimary
      cases old : port.ip with
      | none =>
        have same : ({ port with ip := none } : Port) = port := by rw [← old]
        have put : s.setPort name port = s := by
          unfold setPort
          rw [← hasPort, update_eq_self]
        rw [old] at ok
        rw [hbare, same, put]
        exact ⟨s, rfl, h.follows, h.wellFormed, ok, rfl⟩
      | some old' =>
        rw [old] at ok
        obtain ⟨removable, sole, addable⟩ := ok
        have owned : ∃ j, Own s old'.ip j :=
          ⟨port.index, name, port, hasPort, rfl, old', by simp [Port.addresses, old], rfl⟩
        obtain ⟨s₁, run, h₁, wf₁, ports₁⟩ :=
          h.follows.removeLocalRoute h.wellFormed owned removable
        rw [run] at addable
        refine ⟨s₁, run, h₁.congr fun i j => ?_, wf₁, addable, ports₁⟩
        have index : ({ port with ip := none } : Port).index = port.index := rfl
        refine (own_taken_off hasPort index (fun b => ?_) sole i j).symm
        simp [Port.addresses, old]
    rw [removed]
    simp only [Outcome.andThen]
    have hasPort₁ : s₁.ports name = some port := by rw [ports₁, hasPort]
    obtain ⟨h₂, wf₂⟩ := h₁.addLocalRoute wf₁ hasPort₁ addable
    set s₂ := addLocalRoute newIp name port.index s₁
    have ports₂ : s₂.ports = s.ports := (addLocalRoute_ports _ _ _ _).trans ports₁
    obtain ⟨h₃, wf₃⟩ := h₂.setPort wf₂ name { port with ip := some newIp }
      (fun old found => by
        rw [ports₂, hasPort] at found
        rw [← Option.some.inj found])
    refine ⟨h₃.congr fun i j => ?_, wf₃⟩
    have elsewhere : OwnElsewhere s₂ name i j ↔ OwnElsewhere s name i j := by
      unfold OwnElsewhere
      rw [ports₂]
    rw [own_setPort, elsewhere, own_setPort]
    simp only [Port.addresses, Option.toList_some, Option.toList_none, List.nil_append,
      List.singleton_append, List.mem_cons, exists_eq_or_imp, @eq_comm _ i newIp.ip]
    grind

theorem InStep.addSecondaryip (h : InStep s) (hasPort : s.ports name = some port)
    (ok : port.ip ≠ none → port.secondaryIps.length < maxSecondaryAddresses →
      AddableLocal (Own s) s a port.index) :
    InStep (addSecondaryip name port a s).1 := by
  unfold Router.addSecondaryip
  cases ip : port.ip with
  | none => exact h
  | some address =>
    simp only [createSecondaryip]
    by_cases full : port.secondaryIps.length ≥ maxSecondaryAddresses
    · rw [if_pos full]
      exact h
    · rw [if_neg full]
      have addable := ok (by simp [ip]) (by omega)
      obtain ⟨h₁, wf₁⟩ := h.follows.addLocalRoute h.wellFormed hasPort addable
      have ports₁ := addLocalRoute_ports a name port.index s
      obtain ⟨h₂, wf₂⟩ := h₁.setPort wf₁ name (port.addSecondary a)
        (fun old found => by
          rw [ports₁, hasPort] at found
          rw [← Option.some.inj found, addSecondary_index])
      refine ⟨h₂.congr fun i j => ?_, wf₂⟩
      have elsewhere : OwnElsewhere (addLocalRoute a name port.index s) name i j ↔
          OwnElsewhere s name i j := by
        unfold OwnElsewhere
        rw [ports₁]
      rw [own_setPort, elsewhere, own_iff hasPort, addSecondary_index]
      simp only [Port.addresses, addSecondary_ip, List.mem_append, mem_addSecondary, or_and_right,
        exists_or, exists_eq_left, @eq_comm _ i a.ip]
      grind

def SecondaryRemovable (s : Router) (name : String) (port : Port) (a : Cidr) : Prop :=
  let bare := s.setPort name { port with secondaryIps := port.secondaryIps.erase a }
  Removable (Own s) bare a name ∧ ∀ j, ¬ Own bare a.ip j

theorem InStep.delSecondaryip (h : InStep s)
    (hasPort : s.ports name = some port) (known : a ∈ port.secondaryIps)
    (ok : SecondaryRemovable s name port a) :
    ∃ s', delSecondaryip name port a s = (s', .ok ()) ∧ InStep s' ∧
      s'.ports name = some { port with secondaryIps := port.secondaryIps.erase a } := by
  obtain ⟨removable, sole⟩ := ok
  set port' : Port := { port with secondaryIps := port.secondaryIps.erase a } with hport'
  obtain ⟨h₁, wf₁⟩ := h.follows.setPort h.wellFormed name port'
    (fun old found => by
      rw [hasPort] at found
      rw [← Option.some.inj found])
  have owned : ∃ j, Own s a.ip j :=
    ⟨port.index, name, port, hasPort, rfl, a, by simp [Port.addresses, known], rfl⟩
  obtain ⟨s₂, run, h₂, wf₂, ports₂⟩ := h₁.removeLocalRoute wf₁ owned removable
  refine ⟨s₂, ?_, ⟨h₂.congr fun i j => ?_, wf₂⟩, ?_⟩
  · unfold Router.delSecondaryip
    rw [if_pos known]
    exact run
  · rw [own_of_ports ports₂]
    have index : port'.index = port.index := rfl
    refine (own_taken_off hasPort index (fun b => ?_) sole i j).symm
    simp only [Port.addresses, hport', List.mem_append]
    by_cases same : b = a
    · simp [same, known]
    · simp [same, List.mem_erase_of_ne same]
  · rw [ports₂, setPort_self]

def AllSecondaryRemovable (name : String) : List Cidr → Router → Prop
  | [], _ => True
  | a :: as, s => ∀ port, s.ports name = some port →
      SecondaryRemovable s name port a ∧
        AllSecondaryRemovable name as (delSecondaryip name port a s).1

theorem InStep.delSecondaryips {as : List Cidr} (h : InStep s)
    (hasPort : s.ports name = some port) (all : port.secondaryIps = as)
    (ok : AllSecondaryRemovable name as s) :
    ∃ s', delSecondaryips name as s = (s', .ok ()) ∧ InStep s' ∧
      s'.ports name = some { port with secondaryIps := [] } := by
  induction as generalizing s port with
  | nil => exact ⟨s, rfl, h, by rw [hasPort, ← all]⟩
  | cons a as ih =>
    obtain ⟨removable, rest⟩ := ok port hasPort
    have known : a ∈ port.secondaryIps := by simp [all]
    obtain ⟨s₁, run, h₁, hasPort₁⟩ := h.delSecondaryip hasPort known removable
    rw [run] at rest
    have left : port.secondaryIps.erase a = as := by rw [all, List.erase_cons_head]
    obtain ⟨s₂, run₂, h₂, hasPort₂⟩ := ih h₁ hasPort₁ left rest
    refine ⟨s₂, ?_, h₂, hasPort₂⟩
    unfold Router.delSecondaryips
    simp only [hasPort, run, Outcome.andThen]
    exact run₂

def PortRemovable (s : Router) (name : String) (port : Port) : Prop :=
  AllSecondaryRemovable name port.secondaryIps s ∧
    let s₁ := (delSecondaryips name port.secondaryIps s).1
    (∀ address, port.ip = some address →
      Removable (Own s₁) s₁ address name ∧ ∀ j, ¬ OwnElsewhere s₁ name address.ip j) ∧
    ∀ r ∈ (removePrimary name port s₁).1.routes, r.iface ≠ name

theorem InStep.delPorts (h : InStep s)
    (hasPort : s.ports name = some port) (ok : PortRemovable s name port) :
    InStep (delPorts name port s).1 := by
  obtain ⟨secondary, primary, unused⟩ := ok
  obtain ⟨s₁, run₁, h₁, hasPort₁⟩ := h.delSecondaryips hasPort rfl secondary
  rw [run₁] at primary unused
  -- only addresses of other ports are left
  obtain ⟨s₂, run₂, h₂, wf₂, ports₂⟩ : ∃ s₂, removePrimary name port s₁ = (s₂, .ok ()) ∧
      Follows (OwnElsewhere s₁ name) s₂ ∧ WellFormed s₂ ∧ s₂.ports = s₁.ports := by
    unfold removePrimary
    cases ip : port.ip with
    | none =>
      refine ⟨s₁, rfl, h₁.follows.congr fun i j => ?_, h₁.wellFormed, rfl⟩
      rw [own_iff hasPort₁]
      simp [Port.addresses, ip]
    | some address =>
      obtain ⟨removable, sole⟩ := primary address ip
      have owned : ∃ j, Own s₁ address.ip j :=
        ⟨port.index, name, _, hasPort₁, rfl, address, by simp [Port.addresses, ip], rfl⟩
      obtain ⟨s₂, run₂, h₂, wf₂, ports₂⟩ :=
        h₁.follows.removeLocalRoute h₁.wellFormed owned removable
      refine ⟨s₂, run₂, h₂.congr fun i j => ?_, wf₂, ports₂⟩
      rw [own_iff hasPort₁]
      constructor
      · intro elsewhere
        refine ⟨Or.inl elsewhere, ?_⟩
        rintro rfl
        exact sole j elsewhere
      · rintro ⟨elsewhere | ⟨-, b, hb, hi⟩, off⟩
        · exact elsewhere
        · obtain rfl : b = address := by simpa [Port.addresses, ip] using hb
          exact absurd hi.symm off
  rw [run₂] at unused
  unfold Router.delPorts
  rw [run₁]
  simp only [Outcome.andThen, run₂]
  set s₃ : Router := { s₂ with ports := update s₂.ports name none } with hs₃
  have kept : ∀ r ∈ s₂.routes, s₃.ports r.iface = s₂.ports r.iface :=
    fun r hr => update_of_ne (unused r hr) _ _
  have follows₃ : Follows (OwnElsewhere s₁ name) s₃ :=
    ⟨h₂.address, fun k free => (h₂.served k free).congr (fun _ _ => Iff.rfl) rfl kept⟩
  refine ⟨follows₃.congr fun i j => ?_, ⟨fun r hr => ?_, wf₂.cost⟩⟩
  · have ports₃ : ∀ name', name' ≠ name → s₃.ports name' = s₁.ports name' := by
      intro name' other
      rw [hs₃, ← ports₂]
      exact update_of_ne other _ _
    constructor
    · rintro ⟨name', port', found, rest⟩
      have other : name' ≠ name := by
        rintro rfl
        rw [show s₃.ports name' = none from update_self _ _ _] at found
        exact absurd found (by simp)
      exact ⟨name', port', other, (ports₃ name' other).symm.trans found, rest⟩
    · rintro ⟨name', port', other, found, rest⟩
      exact ⟨name', port', (ports₃ name' other).trans found, rest⟩
  · rw [kept r hr]
    exact wf₂.iface r hr

/-! ### All static routes at once -/

theorem netmask_swapped_le_iff (c : Cidr) : (bswap32 c.netmask).toNat ≤ 32 ↔ c.len = 0 := by
  have all : ∀ len : Fin 33, (bswap32 (Cidr.netmask ⟨0, len⟩)).toNat ≤ 32 ↔ len = 0 := by decide
  exact all c.len

theorem netmask_swapped_of_len {c : Cidr} (h : c.len = 0) : (bswap32 c.netmask).toNat = 0 := by
  have zero : (bswap32 (Cidr.netmask ⟨0, 0⟩)).toNat = 0 := by decide
  unfold Cidr.netmask at zero ⊢
  rw [h]
  exact zero

def DropsEntry (s : Router) (r : Route) : Prop :=
  r.network.len = 0 ∧ ∃ v, s.routingTable r.network.key = some v ∧ v.nexthop = r.nexthop.hop

theorem dropStatic_of_len {r : Route} (len : r.network.len = 0) (s : Router) :
    dropStatic r s =
      match s.routingTable r.network.key with
      | none => s.without r
      | some value =>
        if value.nexthop = r.nexthop.hop then ((s.without r).removeKey r.network.key).1
        else s.without r := by
  have key : Lpm.key 0 r.network.ip = r.network.key := by
    unfold Cidr.key
    rw [len]
    rfl
  unfold dropStatic
  simp only [netmask_swapped_of_len len, Nat.zero_le, if_true, Lpm.lookupFrom, key]
  rfl

theorem dropStatic_of_len_ne {r : Route} (len : r.network.len ≠ 0) (s : Router) :
    dropStatic r s = s.without r :=
  if_neg fun short => len ((netmask_swapped_le_iff _).1 short)

theorem dropStatic_spec (r : Route) (s : Router) :
    (dropStatic r s).routes = (s.without r).routes ∧ (dropStatic r s).ports = s.ports ∧
      (DropsEntry s r → (dropStatic r s).routingTable =
        update s.routingTable r.network.key none) ∧
      (¬ DropsEntry s r → (dropStatic r s).routingTable = s.routingTable) := by
  by_cases len : r.network.len = 0
  · rw [dropStatic_of_len len]
    cases found : s.routingTable r.network.key with
    | none =>
      refine ⟨rfl, rfl, ?_, fun _ => rfl⟩
      rintro ⟨-, v, some, -⟩
      exact absurd (found.symm.trans some) (by simp)
    | some v =>
      by_cases hop : v.nexthop = r.nexthop.hop
      · have dropped : DropsEntry s r := ⟨len, v, found, hop⟩
        simp only [if_pos hop]
        rw [removeKey_of_some (s := s.without r) found]
        exact ⟨rfl, rfl, fun _ => rfl, fun not => absurd dropped not⟩
      · have kept : ¬ DropsEntry s r := by
          rintro ⟨-, v', found', hop'⟩
          rw [← Option.some.inj (found.symm.trans found')] at hop'
          exact hop hop'
        rw [show (match some v with
          | none => s.without r
          | some value =>
            if value.nexthop = r.nexthop.hop then ((s.without r).removeKey r.network.key).1
            else s.without r) = s.without r from if_neg hop]
        exact ⟨rfl, rfl, fun dropped => absurd dropped kept, fun _ => rfl⟩
  · rw [dropStatic_of_len_ne len]
    exact ⟨rfl, rfl, fun dropped => absurd dropped.1 len, fun _ => rfl⟩

/-- What is left when the routes of a list are dropped.  An entry goes with the first of them that
has its next hop. -/
theorem foldl_dropStatic (rs : List Route) (s : Router) :
    let t := rs.foldl (fun s r => dropStatic r s) s
    t.ports = s.ports ∧
      (∀ r', r' ∈ t.routes ↔ r' ∈ s.routes ∧
        ∀ r ∈ rs, ¬ (r'.network = r.network ∧ r'.nexthop = r.nexthop)) ∧
      ∀ k, (t.routingTable k = s.routingTable k ∧
          ∀ r ∈ rs, r.network.key = k → ¬ DropsEntry s r) ∨
        (t.routingTable k = none ∧ ∃ r ∈ rs, r.network.key = k ∧ DropsEntry s r) := by
  induction rs generalizing s with
  | nil => simp
  | cons r rs ih =>
    obtain ⟨routes₁, ports₁, drops, keeps⟩ := dropStatic_spec r s
    obtain ⟨ports, routes, table⟩ := ih (dropStatic r s)
    refine ⟨ports.trans ports₁, fun r' => ?_, fun k => ?_⟩
    · rw [List.foldl_cons, routes, routes₁, mem_without_routes]
      simp only [List.mem_cons, forall_eq_or_imp, and_assoc]
    · by_cases here : r.network.key = k ∧ DropsEntry s r
      · obtain ⟨rfl, dropped⟩ := here
        right
        refine ⟨?_, r, by simp, rfl, dropped⟩
        have gone : (dropStatic r s).routingTable r.network.key = none := by
          rw [drops dropped]
          exact update_self _ _ _
        rcases table r.network.key with ⟨same, -⟩ | ⟨none, -⟩
        · exact same.trans gone
        · exact none
      · -- the entry is as before this route
        have same : (dropStatic r s).routingTable k = s.routingTable k := by
          by_cases dropped : DropsEntry s r
          · have off : k ≠ r.network.key := fun e => here ⟨e.symm, dropped⟩
            rw [drops dropped]
            exact update_of_ne off _ _
          · rw [keeps dropped]
        have drops_iff : ∀ r' : Route, r'.network.key = k →
            (DropsEntry (dropStatic r s) r' ↔ DropsEntry s r') := by
          rintro r' rfl
          unfold DropsEntry
          rw [same]
        rcases table k with ⟨kept, others⟩ | ⟨none, r', hr', key, dropped⟩
        · left
          refine ⟨kept.trans same, fun r' hr' key => ?_⟩
          rcases List.mem_cons.1 hr' with rfl | old
          · exact fun dropped => here ⟨key, dropped⟩
          · exact fun dropped => others r' old key ((drops_iff r' key).2 dropped)
        · right
          exact ⟨none, r', by simp [hr'], key, (drops_iff r' key).1 dropped⟩

/-- All static routes may be removed at once when each is for an address of the router, for a
local network, or for the whole address space (`0.0.0.0/0`), where its entry is found. -/
def StaticRemovable (s : Router) : Prop :=
  ∀ r ∈ s.routes, r.nexthop ≠ .loc → Owned (Own s) r.network.key ∨
    ((∃ l ∈ s.routes, l.network.key = r.network.key ∧ l.nexthop = .loc) ∧
      ¬ (r.network.len = 0 ∧ r.nexthop.hop = 0)) ∨
    (r.network.len = 0 ∧ ∀ l ∈ s.routes, l.network.key = r.network.key → l.nexthop ≠ .loc)

theorem InStep.removeAllRoutes (h : InStep s) (ok : StaticRemovable s) :
    InStep (removeAllRoutes s).1 := by
  unfold Router.removeAllRoutes
  by_cases nothing : s.routes = []
  · rw [if_pos nothing]
    exact h
  rw [if_neg nothing]
  set statics := s.routes.filter fun r => r.nexthop ≠ .loc with hstatics
  have mem_statics : ∀ r, r ∈ statics ↔ r ∈ s.routes ∧ r.nexthop ≠ .loc := by
    intro r
    simp [hstatics]
  obtain ⟨ports, routes, table⟩ := foldl_dropStatic statics s
  set t := statics.foldl (fun s r => dropStatic r s) s
  have mem_routes : ∀ r, r ∈ t.routes ↔ r ∈ s.routes ∧ r.nexthop = .loc := by
    intro r
    rw [routes]
    refine and_congr_right fun hr => ⟨fun apart => ?_, fun isLoc r' hr' same => ?_⟩
    · by_contra static
      exact apart r ((mem_statics r).2 ⟨hr, static⟩) ⟨rfl, rfl⟩
    · exact ((mem_statics r').1 hr').2 (same.2 ▸ isLoc)
  have wf : WellFormed t := by
    refine ⟨fun r hr => ?_, fun r hr => h.wellFormed.cost r ((mem_routes r).1 hr).1⟩
    rw [ports]
    exact h.wellFormed.iface r ((mem_routes r).1 hr).1
  have follows : Follows (Own s) t := by
    refine ⟨fun ip j owns => ?_, fun k free => ?_⟩
    · rcases table (Lpm.key 32 ip) with ⟨same, -⟩ | ⟨-, r, -, key, zero, -⟩
      · rw [same]
        exact h.follows.address ip j owns
      · have len : r.network.len.val = 32 := congrArg Prod.fst key
        rw [zero] at len
        exact absurd len (by decide)
    · rcases h.follows.served k free with ⟨c, v, chosen, found, entry⟩ | ⟨noRoute, none⟩
      · by_cases isLoc : c.nexthop = .loc
        · -- the network is local, and its entry is none of a static route
          left
          refine ⟨c, v, ⟨(mem_routes c).2 ⟨chosen.mem, isLoc⟩, chosen.key, Or.inl isLoc⟩, ?_, ?_⟩
          · rcases table k with ⟨same, -⟩ | ⟨-, r, hr, key, zero, v', found', hop⟩
            · rw [same, found]
            · exfalso
              obtain ⟨hr, static⟩ := (mem_statics r).1 hr
              rw [key, found] at found'
              obtain ⟨port, -, rfl⟩ := entry
              rw [← Option.some.inj found', isLoc] at hop
              rcases ok r hr static with owned | ⟨-, apart⟩ | ⟨-, noLocal⟩
              · exact free (key ▸ owned)
              · exact apart ⟨zero, hop.symm⟩
              · exact noLocal c chosen.mem (by rw [chosen.key, key]) isLoc
          · obtain ⟨port, hasPort, rfl⟩ := entry
            exact ⟨port, by rw [ports, hasPort], rfl⟩
        · -- the network has static routes only, the chosen one among those dropped
          right
          have least := chosen.least.resolve_left isLoc
          refine ⟨fun r hr key => ?_, ?_⟩
          · obtain ⟨hr, loc⟩ := (mem_routes r).1 hr
            exact (least r hr key).1 loc
          · rcases table k with ⟨-, kept⟩ | ⟨none, -⟩
            · exfalso
              refine kept c ((mem_statics c).2 ⟨chosen.mem, isLoc⟩) chosen.key ?_
              rcases ok c chosen.mem isLoc with owned | ⟨⟨l, hl, key, loc⟩, -⟩ | ⟨zero, -⟩
              · exact absurd (chosen.key ▸ owned) free
              · exact absurd loc (least l hl (key.trans chosen.key)).1
              · obtain ⟨port, -, rfl⟩ := entry
                exact ⟨zero, _, by rw [chosen.key, found], rfl⟩
            · exact none
      · right
        refine ⟨fun r hr => noRoute r ((mem_routes r).1 hr).1, ?_⟩
        rcases table k with ⟨same, -⟩ | ⟨none, -⟩
        · rw [same, none]
        · exact none
  exact ⟨follows.congr (own_of_ports ports), wf⟩

def Allowed (s : Router) : Event → Prop
  | .addRoute conf => Addable (Own s) s conf
  | .delRoute network nexthop => ∀ r ∈ s.routes, r.network = network → r.nexthop = .ip nexthop →
      Erasable (Own s) s r
  | .removeAllRoutes => StaticRemovable s
  | .addPorts name index ip secondaryIps =>
      s.ports name = none → PortAddable s name index ip secondaryIps
  | .setIp name ip => ∀ port, s.ports name = some port → port.ip ≠ some ip →
      IpSettable s name port ip
  | .addSecondaryip name address => ∀ port, s.ports name = some port → port.ip ≠ none →
      port.secondaryIps.length < maxSecondaryAddresses →
      AddableLocal (Own s) s address port.index
  | .delSecondaryip name address => ∀ port, s.ports name = some port →
      address ∈ port.secondaryIps → SecondaryRemovable s name port address
  | .delPorts name => ∀ port, s.ports name = some port → PortRemovable s name port

theorem InStep.delRoute (h : InStep s) {network : Cidr} {nexthop : BitVec 32}
    (ok : Allowed s (.delRoute network nexthop)) : InStep (delRoute network nexthop s).1 := by
  unfold Router.delRoute
  cases found : s.routes.find? fun r => r.network == network && r.nexthop == .ip nexthop with
  | none => exact h
  | some r =>
    have hr := List.mem_of_find?_eq_some found
    have same : r.network = network ∧ r.nexthop = .ip nexthop := by
      simpa using List.find?_some found
    obtain ⟨s', run, h', wf', ports', -⟩ :=
      h.follows.eraseRoute h.wellFormed (ok r hr same.1 same.2)
    simp only [run]
    exact ⟨h'.congr (own_of_ports ports'), wf'⟩

theorem inStep_onPort (h : InStep s) (name : String) (f : Port → Router → Outcome)
    (ok : ∀ port, s.ports name = some port → InStep (f port s).1) :
    InStep (onPort name f s).1 := by
  unfold onPort getPort
  cases found : s.ports name with
  | none => exact h
  | some port => exact ok port found

theorem step_inStep (h : InStep s) {e : Event} (ok : Allowed s e) : InStep (step s e) := by
  unfold step
  cases e with
  | addRoute conf =>
    obtain ⟨h', wf', ports'⟩ := h.follows.addRoute h.wellFormed ok
    exact ⟨h'.congr (own_of_ports ports'), wf'⟩
  | delRoute network nexthop => exact h.delRoute ok
  | removeAllRoutes => exact h.removeAllRoutes ok
  | addPorts name index ip secondaryIps => exact h.addPorts ok
  | setIp name ip =>
    exact inStep_onPort h name _ fun port hasPort => h.setIp hasPort (ok port hasPort)
  | addSecondaryip name address =>
    exact inStep_onPort h name _ fun port hasPort => h.addSecondaryip hasPort (ok port hasPort)
  | delSecondaryip name address =>
    refine inStep_onPort h name _ fun port hasPort => ?_
    by_cases known : address ∈ port.secondaryIps
    · obtain ⟨s', run, h', -⟩ := h.delSecondaryip hasPort known (ok port hasPort known)
      rw [run]
      exact h'
    · unfold Router.delSecondaryip
      rw [if_neg known]
      exact h
  | delPorts name =>
    exact inStep_onPort h name _ fun port hasPort => h.delPorts hasPort (ok port hasPort)

theorem init_inStep : InStep init := by
  refine ⟨⟨?_, fun k _ => Or.inr ⟨?_, rfl⟩⟩, ⟨?_, ?_⟩⟩
  · rintro ip index ⟨name, port, found, -⟩
    exact absurd found (by simp [init])
  all_goals exact fun r hr => absurd hr (by simp [init])

end Router

end Polycube
