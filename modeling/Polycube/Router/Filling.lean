import Polycube.Router.Failures
import Polycube.Router.Steps

/-!
# The routes of a router

The events of a router act on the bounded table.  An event that finds a place for every entry does
what it does to an unbounded table, and a route that finds none is refused; but an address that
throws behind its first entry leaves that, and a new address of a port that finds no place leaves
the port without the old one.
-/

namespace Polycube.Router

open Function Lib

namespace Filled

open Attempt

def addPrimary (name : String) (index : BitVec 32) (ip : Option Cidr) : Change := fun s =>
  match ip with
  | none => (s, .ok ())
  | some address => s.addLocalRoute address name index

/-- The secondary addresses of a port under construction, which then gets its place. -/
def createSecondaryips (name : String) : List Cidr → Port → Change
  | [], port => fun s => (s.setPort name port, .ok ())
  | address :: addresses, port => fun s =>
    if port.secondaryIps.length ≥ maxSecondaryAddresses then
      (s, .error "Maximum number of secondary IPs on the port")
    else
      (s.addLocalRoute address name port.index).andThen
        (createSecondaryips name addresses (port.addSecondary address))

/-- `addPorts`, with the constructor of the port. -/
def addPorts (name : String) (index : BitVec 32) (ip : Option Cidr) (secondaryIps : List Cidr) :
    Change := fun s =>
  match s.ports name with
  | some _ => (s, .error "Port already exists")
  | none => (s.addPrimary name index ip).andThen (createSecondaryips name secondaryIps ⟨index, ip, []⟩)

def delSecondaryips (name : String) : List Cidr → Change
  | [], s => (s, .ok ())
  | address :: addresses, s =>
    match s.ports name with
    | none => (s, .ok ())
    | some port => (s.delSecondaryip name port address).andThen (delSecondaryips name addresses)

/-- `delPorts` -/
def delPorts (name : String) (port : Port) : Change := fun s =>
  ((s.delSecondaryips name port.secondaryIps).andThen (removePrimary name port)).andThen fun s =>
    ({ s with ports := update s.ports name none }, .ok ())

def change : Event → Change
  | .addRoute conf => Filled.addRoute conf
  | .delRoute network nexthop => Filled.delRoute network nexthop
  | .removeAllRoutes => Filled.removeAllRoutes
  | .addPorts name index ip secondaryIps => Filled.addPorts name index ip secondaryIps
  | .setIp name ip => onPort name fun port => doSetIp name port ip
  | .addSecondaryip name address => onPort name fun port => Filled.addSecondaryip name port address
  | .delSecondaryip name address => onPort name fun port => Filled.delSecondaryip name port address
  | .delPorts name => onPort name fun port => Filled.delPorts name port

def next (s : Filled) (e : Event) : Filled := (change e s).1

/-- There is a place for the entries of an address. -/
def Takes (address : Cidr) (s : Filled) : Prop :=
  s.Room (Lpm.key 32 address.ip) ∧ (address.len ≠ 32 → (Insert.insert address.network.key
    (Insert.insert (Lpm.key 32 address.ip) s.routingTable.keys)).card ≤ routingTableDim)

instance (address : Cidr) (s : Filled) : Decidable (s.Takes address) :=
  inferInstanceAs (Decidable (_ ∧ (_ → _)))

def AllTake (name : String) (index : BitVec 32) : List Cidr → Filled → Prop
  | [], _ => True
  | a :: as, s => s.Takes a ∧ AllTake name index as (s.addLocalRoute a name index).1

/-- An address that finds a place for its first entry finds one for the second; those of a port
under construction find all theirs, and so does the address of a port that has lost another. -/
def Places (s : Filled) : Event → Prop
  | .addPorts name index ip secondaryIps => s.ports name = none →
    ∀ a as, ip.toList ++ secondaryIps = a :: as → s.Room (Lpm.key 32 a.ip) →
      AllTake name index (a :: as) s
  | .setIp name ip => ∀ port, s.ports name = some port → port.ip ≠ some ip →
    (port.ip = none → s.Room (Lpm.key 32 ip.ip)) → (s.removePrimary name port).1.Takes ip
  | .addSecondaryip name address => ∀ port, s.ports name = some port → port.ip ≠ none →
    port.secondaryIps.length < maxSecondaryAddresses → s.Room (Lpm.key 32 address.ip) →
      s.Takes address
  | _ => True

/-! ### The unbounded table -/

theorem agrees_addPrimary (s : Filled) (name : String) (index : BitVec 32) (ip : Option Cidr) :
    Agrees (s.addPrimary name index ip) (Router.addPrimary name index ip s.toRouter, .ok ()) := by
  unfold addPrimary Router.addPrimary
  cases ip with
  | none => exact .inr rfl
  | some address => exact agrees_addLocalRoute s address name index

/-- The rest of the constructor of a port over an unbounded table. -/
def created (name : String) (addresses : List Cidr) (port : Port) (s : Router) : Outcome :=
  match Router.createSecondaryips name addresses port s with
  | ((port, s), .ok ()) => (s.setPort name port, .ok ())
  | ((_, s), .error e) => (s, .error e)

theorem agrees_createSecondaryips (name : String) (addresses : List Cidr) (port : Port)
    (s : Filled) :
    Agrees (s.createSecondaryips name addresses port) (created name addresses port s.toRouter) := by
  induction addresses generalizing port s with
  | nil => exact .inr rfl
  | cons a as ih =>
    unfold created Router.createSecondaryips createSecondaryip
    rw [createSecondaryips]
    split_ifs
    · exact .inr rfl
    · exact (agrees_addLocalRoute s a name port.index).andThen
        (g := created name as (port.addSecondary a)) fun t => ih _ t

theorem agrees_addPorts (s : Filled) (name : String) (index : BitVec 32) (ip : Option Cidr)
    (secondaryIps : List Cidr) : Agrees (s.addPorts name index ip secondaryIps)
      (Router.addPorts name index ip secondaryIps s.toRouter) := by
  unfold addPorts Router.addPorts
  rw [show s.toRouter.ports name = s.ports name from rfl]
  cases s.ports name with
  | some port => exact .inr rfl
  | none =>
    exact (agrees_addPrimary s name index ip).andThen (g := created name secondaryIps ⟨index, ip, []⟩)
      fun t => agrees_createSecondaryips name secondaryIps _ t

theorem agrees_delSecondaryips (name : String) (addresses : List Cidr) (s : Filled) :
    Agrees (s.delSecondaryips name addresses)
      (Router.delSecondaryips name addresses s.toRouter) := by
  induction addresses generalizing s with
  | nil => exact .inr rfl
  | cons a as ih =>
    rw [delSecondaryips, Router.delSecondaryips, show s.toRouter.ports name = s.ports name from rfl]
    cases s.ports name with
    | none => exact .inr rfl
    | some port => exact (agrees_delSecondaryip s name port a).andThen ih

theorem agrees_removePrimary (s : Filled) (name : String) (port : Port) :
    Agrees (s.removePrimary name port) (Router.removePrimary name port s.toRouter) := by
  unfold removePrimary Router.removePrimary
  cases port.ip with
  | none => exact .inr rfl
  | some address => exact agrees_removeLocalRoute s address name

theorem agrees_delPorts (s : Filled) (name : String) (port : Port) :
    Agrees (s.delPorts name port) (Router.delPorts name port s.toRouter) := by
  refine Agrees.andThen (Agrees.andThen (agrees_delSecondaryips name _ s) fun t => ?_) fun t => ?_
  · exact agrees_removePrimary t name port
  · exact .inr rfl

theorem agrees_change (e : Event) (s : Filled) : Agrees (change e s) (e.outcome s.toRouter) := by
  cases e with
  | addRoute conf => exact agrees_addRoute s conf
  | delRoute network nexthop => exact agrees_delRoute s network nexthop
  | removeAllRoutes => exact agrees_removeAllRoutes s
  | addPorts name index ip secondaryIps => exact agrees_addPorts s name index ip secondaryIps
  | setIp name ip => exact agrees_onPort s name fun port => agrees_doSetIp s name port ip
  | addSecondaryip name address =>
    exact agrees_onPort s name fun port => agrees_addSecondaryip s name port address
  | delSecondaryip name address =>
    exact agrees_onPort s name fun port => agrees_delSecondaryip s name port address
  | delPorts name => exact agrees_onPort s name fun port => agrees_delPorts s name port

/-! ### Changes that find a place -/

section

variable {s : Filled} {a : Attempt Filled String} {o : Outcome} {own : BitVec 32 → BitVec 32 → Prop}
  {name : String} {port : Port}

theorem Agrees.exact (h : Agrees a o) (returns : a.Returns) : a.1.toRouter = o.1 ∧ o.2 = .ok () := by
  rcases h with full | rfl
  · rw [show a.2 = .ok () from returns] at full
    cases full
  · exact ⟨rfl, returns⟩

theorem removeKey_ne (s : Filled) (k : ℕ × BitVec 32) :
    (s.removeKey k).2 ≠ .error tableSetError := by
  unfold removeKey
  split
  · exact fun same => absurd (Except.error.inj same) (by decide)
  · nofun

/-- To erase a route whose network has an entry needs no new place. -/
theorem returns_eraseRoute {r : Route} (there : s.routingTable.entry r.network.key ≠ none)
    (ok : (Router.eraseRoute r s.toRouter).2 = .ok ()) : (s.eraseRoute r).Returns := by
  have room : (s.without r).Room r.network.key := by
    show (Insert.insert r.network.key s.routingTable.keys).card ≤ routingTableDim
    rw [Finset.insert_eq_of_mem ((s.routingTable.mem_keys _).2 there)]
    exact s.routingTable.card_le
  unfold eraseRoute Router.eraseRoute at *
  rw [returns_findNewActiveNexthop_iff]
  unfold Router.findNewActiveNexthop at ok
  unfold Replaceable
  have same : s.toRouter.without r = (s.without r).toRouter := rfl
  rw [same] at ok
  cases looked : (s.without r).toRouter.routingTable.lookupFrom r.network.ip r.network.len.val with
  | none =>
    rw [looked] at ok
    cases ok
  | some value =>
    refine ⟨value, rfl, fun acts => ?_⟩
    rw [looked] at ok
    dsimp only at ok
    rw [if_pos acts, show (if hasLocal r.network (s.without r).toRouter.routes = true then some 0
      else (leastCost r.network (s.without r).toRouter.routes none).1) =
        newNexthop r.network (s.without r).routes from rfl] at ok
    cases left : newNexthop r.network (s.without r).routes with
    | none => exact there
    | some nexthop =>
      rw [left] at ok
      dsimp only at ok ⊢
      cases searched : searchPort (s.without r).toRouter nexthop with
      | error e =>
        rw [searched] at ok
        cases ok
      | ok port => exact ⟨⟨port, rfl⟩, room⟩

theorem returns_eraseRoutes {rs : List Route} (h : Follows own s.toRouter)
    (wf : WellFormed s.toRouter) (ok : AllErasable own rs s.toRouter) :
    (s.eraseRoutes rs).Returns := by
  induction rs generalizing s with
  | nil => exact returns_ok
  | cons r rs ih =>
    obtain ⟨s₁, run, h₁, wf₁, -⟩ := h.eraseRoute wf ok.1
    obtain ⟨v, found, -⟩ := ok.1
    have there : s.routingTable.entry r.network.key ≠ none := by
      intro none
      cases none.symm.trans found
    have first := returns_eraseRoute there (congrArg Prod.snd run)
    have exact := (agrees_eraseRoute s r).exact first
    have rest := ok.2
    rw [← exact.1] at rest
    have same : (s.eraseRoute r).1.toRouter = s₁ := exact.1.trans (congrArg Prod.fst run)
    rw [eraseRoutes, returns_andThen_iff]
    exact ⟨first, ih (same ▸ h₁) (same ▸ wf₁) rest⟩

theorem returns_removeLocalRoute {address : Cidr} (h : Follows own s.toRouter)
    (wf : WellFormed s.toRouter) (owned : ∃ index, own address.ip index)
    (ok : Router.Removable own s.toRouter address name) :
    (s.removeLocalRoute address name).Returns := by
  obtain ⟨s', run, -⟩ := h.removeLocalRoute wf owned ok
  obtain ⟨first, second, -⟩ := ok
  obtain ⟨s₁, run₁, h₁, wf₁, -⟩ := h.eraseRoutes wf first
  have returns₁ := returns_eraseRoutes h wf first
  have exact₁ := (agrees_eraseRoutes _ s).exact returns₁
  have same : (s.eraseRoutes (localOf address name s.routes)).1.toRouter = s₁ :=
    exact₁.1.trans (congrArg Prod.fst run₁)
  have erased : ((s.eraseRoutes (localOf address name s.routes)).andThen fun s =>
      s.eraseRoutes (routesVia address s.routes)).Returns := by
    rw [returns_andThen_iff]
    rw [← exact₁.1] at second
    exact ⟨returns₁, returns_eraseRoutes (same ▸ h₁) (same ▸ wf₁) second⟩
  have whole := agrees_removeLocalRoute s address name
  have removes : s.removeLocalRoute address name =
      ((s.eraseRoutes (localOf address name s.routes)).andThen fun s =>
        s.eraseRoutes (routesVia address s.routes)).1.removeKey (Lpm.key 32 address.ip) :=
    andThen_of_returns erased
  rcases whole with full | exact
  · rw [removes] at full
    exact absurd full (removeKey_ne _ _)
  · exact (congrArg Prod.snd exact).trans (congrArg Prod.snd run)

theorem returns_addLocalRoute {address : Cidr} (takes : s.Takes address) (name : String)
    (index : BitVec 32) : (s.addLocalRoute address name index).Returns :=
  (returns_addLocalRoute_iff address name index).2 takes

/-- An address that finds no place for its first entry changes nothing. -/
theorem addLocalRoute_of_full {address : Cidr} (full : ¬ s.Room (Lpm.key 32 address.ip))
    (name : String) (index : BitVec 32) :
    s.addLocalRoute address name index = (s, .error tableSetError) := by
  have first : s.set (Lpm.key 32 address.ip) ⟨index, 0, .localInterface⟩ =
      (s, .error tableSetError) := by
    rcases set_cases s (Lpm.key 32 address.ip) ⟨index, 0, .localInterface⟩ with ⟨room, -⟩ | ⟨-, e⟩
    · exact absurd room full
    · exact e
  unfold addLocalRoute
  rw [first]
  rfl

theorem createSecondaryips_ne {as : List Cidr} (takes : AllTake name port.index as s) :
    (s.createSecondaryips name as port).2 ≠ .error tableSetError := by
  induction as generalizing port s with
  | nil => nofun
  | cons a as ih =>
    rw [createSecondaryips]
    split_ifs
    · exact fun same => absurd (Except.error.inj same) (by decide)
    · dsimp only
      rw [andThen_of_returns (returns_addLocalRoute takes.1 name port.index)]
      exact ih ((addSecondary_index port a).symm ▸ takes.2)

theorem returns_delSecondaryip (h : InStep s.toRouter) {a : Cidr} (hasPort : s.ports name = some port)
    (known : a ∈ port.secondaryIps) (ok : SecondaryRemovable s.toRouter name port a) :
    (s.delSecondaryip name port a).Returns := by
  have hasPort : s.toRouter.ports name = some port := hasPort
  obtain ⟨h₁, wf₁⟩ := h.follows.setPort h.wellFormed name
    { port with secondaryIps := port.secondaryIps.erase a }
    (fun old found => by
      rw [hasPort] at found
      rw [← Option.some.inj found])
  have owned : ∃ j, Own s.toRouter a.ip j :=
    ⟨port.index, name, port, hasPort, rfl, a, by simp [Port.addresses, known], rfl⟩
  unfold delSecondaryip
  rw [if_pos known]
  exact returns_removeLocalRoute (s := s.setPort name _) h₁ wf₁ owned ok.1

theorem returns_delSecondaryips {as : List Cidr} (h : InStep s.toRouter)
    (hasPort : s.ports name = some port) (all : port.secondaryIps = as)
    (ok : AllSecondaryRemovable name as s.toRouter) : (s.delSecondaryips name as).Returns := by
  induction as generalizing s port with
  | nil => exact returns_ok
  | cons a as ih =>
    obtain ⟨removable, rest⟩ := ok port hasPort
    have known : a ∈ port.secondaryIps := by simp [all]
    obtain ⟨s₁, run, h₁, hasPort₁⟩ := h.delSecondaryip hasPort known removable
    have first := returns_delSecondaryip h hasPort known removable
    have exact := (agrees_delSecondaryip s name port a).exact first
    have same : (s.delSecondaryip name port a).1.toRouter = s₁ :=
      exact.1.trans (congrArg Prod.fst run)
    rw [← exact.1] at rest
    rw [delSecondaryips, hasPort]
    dsimp only
    rw [returns_andThen_iff]
    refine ⟨first, ih (same ▸ h₁) (?_ : _ = some { port with secondaryIps := as }) rfl rest⟩
    have left : port.secondaryIps.erase a = as := by rw [all, List.erase_cons_head]
    rw [← left, ← hasPort₁, ← same]
    rfl

theorem returns_delPorts (h : InStep s.toRouter) (hasPort : s.ports name = some port)
    (ok : PortRemovable s.toRouter name port) : (s.delPorts name port).Returns := by
  obtain ⟨secondary, primary, -⟩ := ok
  obtain ⟨s₁, run₁, h₁, hasPort₁⟩ := h.delSecondaryips hasPort rfl secondary
  have first := returns_delSecondaryips h hasPort rfl secondary
  have exact := (agrees_delSecondaryips name _ s).exact first
  have same : (s.delSecondaryips name port.secondaryIps).1.toRouter = s₁ :=
    exact.1.trans (congrArg Prod.fst run₁)
  rw [← exact.1] at primary
  unfold delPorts
  rw [returns_andThen_iff, returns_andThen_iff]
  refine ⟨⟨first, ?_⟩, returns_ok⟩
  unfold removePrimary
  cases hip : port.ip with
  | none => exact returns_ok
  | some address =>
    have owned : ∃ j, Own s₁ address.ip j :=
      ⟨port.index, name, _, hasPort₁, rfl, address, by simp [Port.addresses, hip], rfl⟩
    rw [← same] at h₁ owned
    exact returns_removeLocalRoute h₁.follows h₁.wellFormed owned (primary address hip).1

/-! ### Events -/

variable {e : Event}

/-- An event does what it does to an unbounded table, or nothing. -/
def Does (s : Filled) (e : Event) : Prop :=
  (next s e).toRouter = Router.step s.toRouter e ∨ (next s e).toRouter = s.toRouter

theorem does_of_ne (fits : (change e s).2 ≠ .error tableSetError) : s.Does e :=
  .inl (congrArg Prod.fst ((agrees_change e s).resolve_left fits))

theorem does_of_returns (returns : (change e s).Returns) : s.Does e :=
  .inl ((agrees_change e s).exact returns).1

theorem does_of_same {r : Except String Unit} (same : change e s = (s, r)) : s.Does e :=
  .inr (congrArg (fun a => a.1.toRouter) same)

/-- An event of a port that is not there ends before it does anything. -/
theorem does_onPort {f : Port → Change} (onPort : change e = Filled.onPort name f)
    (known : ∀ port, s.ports name = some port → change e s = f port s → s.Does e) : s.Does e := by
  have whole : change e s = Filled.onPort name f s := congrFun onPort s
  unfold Filled.onPort getPort at whole
  cases found : s.ports name with
  | none =>
    rw [show s.toRouter.ports name = none from found] at whole
    exact does_of_same whole
  | some port =>
    rw [show s.toRouter.ports name = some port from found] at whole
    exact known port found whole

theorem does_delRoute (h : InStep s.toRouter) {network : Cidr} {nexthop : BitVec 32}
    (ok : Allowed s.toRouter (.delRoute network nexthop)) : s.Does (.delRoute network nexthop) := by
  have whole : change (.delRoute network nexthop) s = s.delRoute network nexthop := rfl
  unfold delRoute at whole
  cases found : s.routes.find? fun r => r.network == network && r.nexthop == .ip nexthop with
  | none =>
    rw [found] at whole
    exact does_of_same whole
  | some r =>
    rw [found] at whole
    have same : r.network = network ∧ r.nexthop = .ip nexthop := by
      simpa using List.find?_some found
    have erasable := ok r (List.mem_of_find?_eq_some found) same.1 same.2
    obtain ⟨s', run, -⟩ := h.follows.eraseRoute h.wellFormed erasable
    obtain ⟨v, there, -⟩ := erasable
    have returns : (s.eraseRoute r).Returns := returns_eraseRoute
      (fun none => by cases none.symm.trans there) (congrArg Prod.snd run)
    exact does_of_returns (whole ▸ returns)

theorem does_addPorts {index : BitVec 32} {ip : Option Cidr} {secondaryIps : List Cidr}
    (places : s.Places (.addPorts name index ip secondaryIps)) :
    s.Does (.addPorts name index ip secondaryIps) := by
  have whole : change (.addPorts name index ip secondaryIps) s =
    s.addPorts name index ip secondaryIps := rfl
  unfold addPorts at whole
  cases fresh : s.ports name with
  | some port =>
    rw [fresh] at whole
    exact does_of_same whole
  | none =>
    rw [fresh] at whole
    have places := places fresh
    unfold addPrimary at whole
    cases ip with
    | none =>
      have whole : change (.addPorts name index none secondaryIps) s =
        s.createSecondaryips name secondaryIps ⟨index, none, []⟩ := whole
      cases secondaryIps with
      | nil => exact does_of_returns (whole ▸ returns_ok)
      | cons a as =>
        by_cases room : s.Room (Lpm.key 32 a.ip)
        · exact does_of_ne (whole ▸ createSecondaryips_ne (places a as rfl room))
        · rw [createSecondaryips] at whole
          dsimp only at whole
          rw [if_neg (by decide), addLocalRoute_of_full room] at whole
          exact does_of_same whole
    | some a =>
      dsimp only at whole
      by_cases room : s.Room (Lpm.key 32 a.ip)
      · obtain ⟨takes, rest⟩ := places a secondaryIps rfl room
        rw [andThen_of_returns (returns_addLocalRoute takes name index)] at whole
        exact does_of_ne (whole ▸ createSecondaryips_ne rest)
      · rw [addLocalRoute_of_full room] at whole
        exact does_of_same whole

theorem does_setIp (h : InStep s.toRouter) {ip : Cidr} (ok : Allowed s.toRouter (.setIp name ip))
    (places : s.Places (.setIp name ip)) : s.Does (.setIp name ip) := by
  refine does_onPort rfl fun port found whole => ?_
  unfold doSetIp at whole
  by_cases known : port.ip = some ip
  · rw [if_pos known] at whole
    exact does_of_same whole
  rw [if_neg known] at whole
  have places := places port found known
  have put {t : Filled} (takes : t.Takes ip) :
      ((t.addLocalRoute ip name port.index).andThen fun t =>
        (t.setPort name { port with ip := some ip }, .ok ())).Returns := by
    rw [andThen_of_returns (returns_addLocalRoute takes name port.index)]
    exact returns_ok
  have settable := ok port found known
  unfold IpSettable at settable
  unfold removePrimary at whole places
  cases old : port.ip with
  | none =>
    rw [old] at whole places
    by_cases room : s.Room (Lpm.key 32 ip.ip)
    · exact does_of_returns (whole ▸ put (places fun _ => room))
    · have whole : change (.setIp name ip) s = (s.addLocalRoute ip name port.index).andThen _ := whole
      rw [addLocalRoute_of_full room] at whole
      exact does_of_same whole
  | some address =>
    rw [old] at whole places settable
    have owned : ∃ j, Own s.toRouter address.ip j :=
      ⟨port.index, name, port, found, rfl, address, by simp [Port.addresses, old], rfl⟩
    have removes := returns_removeLocalRoute h.follows h.wellFormed owned settable.1
    dsimp only at whole
    rw [andThen_of_returns removes] at whole
    exact does_of_returns (whole ▸ put (places fun none => by cases none))

theorem does_addSecondaryip {address : Cidr} (places : s.Places (.addSecondaryip name address)) :
    s.Does (.addSecondaryip name address) := by
  refine does_onPort rfl fun port found whole => ?_
  unfold addSecondaryip at whole
  cases ip : port.ip with
  | none =>
    rw [ip] at whole
    exact does_of_same whole
  | some own =>
    rw [ip] at whole
    dsimp only at whole
    by_cases many : port.secondaryIps.length ≥ maxSecondaryAddresses
    · rw [if_pos many] at whole
      exact does_of_same whole
    rw [if_neg many] at whole
    by_cases room : s.Room (Lpm.key 32 address.ip)
    · have takes := places port found (ip ▸ Option.some_ne_none own) (Nat.not_le.1 many) room
      rw [andThen_of_returns (returns_addLocalRoute takes name port.index)] at whole
      exact does_of_returns (whole ▸ returns_ok)
    · rw [addLocalRoute_of_full room] at whole
      exact does_of_same whole

theorem does_of_places (h : InStep s.toRouter) (ok : Allowed s.toRouter e) (places : s.Places e) :
    s.Does e := by
  cases e with
  | addRoute conf =>
    by_cases full : (s.addRoute conf).2 = .error tableSetError
    · exact .inr (undone_addRoute conf _ full)
    · exact does_of_ne full
  | delRoute network nexthop => exact does_delRoute h ok
  | removeAllRoutes =>
    refine does_of_ne fun full => ?_
    have full : s.removeAllRoutes.2 = .error tableSetError := full
    unfold removeAllRoutes at full
    split_ifs at full
    exact absurd (Except.error.inj full) (by decide)
  | addPorts name index ip secondaryIps => exact does_addPorts places
  | setIp name ip => exact does_setIp h ok places
  | addSecondaryip name address => exact does_addSecondaryip places
  | delSecondaryip name address =>
    refine does_onPort rfl fun port found whole => ?_
    by_cases known : address ∈ port.secondaryIps
    · exact does_of_returns (whole ▸ returns_delSecondaryip h found known (ok port found known))
    · unfold delSecondaryip at whole
      rw [if_neg known] at whole
      exact does_of_same whole
  | delPorts name =>
    exact does_onPort rfl fun port found whole =>
      does_of_returns (whole ▸ returns_delPorts h found (ok port found))

end

def Kept (s : Filled) (e : Event) : Prop := Allowed s.toRouter e ∧ s.Places e

/-- In a run of allowed events whose entries find a place the datapath follows the control plane. -/
theorem run_inStep {events : List Event} (kept : Meets next Kept noPorts events) :
    InStep (run next noPorts events).toRouter := by
  refine run_induction (P := fun s : Filled => InStep s.toRouter) (fun s e h kept => ?_) init_inStep kept
  rcases does_of_places h kept.1 kept.2 with same | same
  · rw [same]
    exact step_inStep h kept.1
  · rw [same]
    exact h

/-! ### A router with one port

`eth0` has the address `10.0.0.1/24`, and there are routes to `20.0.0.0/16`. -/

def eth0 : Event := .addPorts "eth0" 1 (some ⟨0x0A000001#32, 24⟩) []

def target : Cidr := ⟨0x14000000#32, 16⟩

def via (nexthop pathcost : BitVec 32) : Event := .addRoute ⟨target, nexthop, none, pathcost, true⟩

theorem not_owned_target (own : BitVec 32 → BitVec 32 → Prop) : ¬ Owned own target.key := by
  rintro ⟨ip, index, -, key⟩
  exact key32_ne (by decide) ip key

theorem places_eth0 : noPorts.Places eth0 := by
  rintro - a as addresses -
  obtain ⟨rfl, rfl⟩ := List.cons.inj addresses
  exact ⟨by decide, trivial⟩

/-- A better route takes the place of the first one, which is then removed. -/
theorem run_inStep_better :
    InStep (run next noPorts [eth0, via 0x0A000002#32 5, via 0x0A000003#32 2,
      .delRoute target 0x0A000002#32]).toRouter := by
  refine run_inStep ⟨⟨fun _ => ⟨⟨?_, fun _ l hl => absurd hl List.not_mem_nil⟩, trivial⟩, places_eth0⟩,
    ⟨?_, trivial⟩, ⟨?_, trivial⟩, ⟨?_, trivial⟩, trivial⟩
  · rintro j ⟨name, port, found, -⟩
    cases found
  · exact fun _ => ⟨rfl, by decide, not_owned_target _, Or.inr (by decide)⟩
  · exact fun _ => ⟨rfl, by decide, not_owned_target _, Or.inr (by decide)⟩
  · intro r hr net hop
    refine ⟨⟨1, 0x0A000003#32, .noLocalInterface⟩, ?_, ?_⟩
    · rw [net]
      decide
    · rw [net, hop, if_neg (by decide)]
      exact Or.inr ⟨by simp, Or.inr (by decide)⟩

/-- Removing the only route of a network leaves its entry. -/
theorem removed_not_inStep : ¬ ∀ events, InStep (run next noPorts events).toRouter := by
  intro all
  have inStep := all [eth0, via 0x0A000002#32 5, .delRoute target 0x0A000002#32]
  rcases inStep.follows.served target.key (not_owned_target _) with
    ⟨r, v, chosen, -⟩ | ⟨-, none⟩
  · have noRoute : ∀ r ∈ (run next noPorts
        [eth0, via 0x0A000002#32 5, .delRoute target 0x0A000002#32]).routes,
        r.network.key ≠ target.key := by decide
    exact noRoute r chosen.mem chosen.key
  · exact absurd none (by decide)

end Filled

end Polycube.Router
