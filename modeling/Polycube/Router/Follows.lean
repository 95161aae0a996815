import Polycube.Router.Routes

/-!
# The datapath follows the control plane

`Follows` says that the prefix table has, for every network, what the control plane would choose,
and nothing else.  This module is about the functions of the router one by one: when each of them
keeps the datapath in step.
-/

namespace Polycube

open Function Lib

namespace Router

def Port.addresses (port : Port) : List Cidr := port.ip.toList ++ port.secondaryIps

def Own (s : Router) (ip index : BitVec 32) : Prop :=
  ∃ name port, s.ports name = some port ∧ port.index = index ∧ ∃ a ∈ port.addresses, a.ip = ip

def Owned (own : BitVec 32 → BitVec 32 → Prop) (k : ℕ × BitVec 32) : Prop :=
  ∃ ip index, own ip index ∧ Lpm.key 32 ip = k

structure Chosen (routes : List Route) (k : ℕ × BitVec 32) (r : Route) : Prop where
  mem : r ∈ routes
  key : r.network.key = k
  least : r.nexthop = .loc ∨ ∀ r' ∈ routes, r'.network.key = k →
    r'.nexthop ≠ .loc ∧ r.pathcost.toNat ≤ r'.pathcost.toNat

def EntryOf (s : Router) (r : Route) (v : RtV) : Prop :=
  ∃ port, s.ports r.iface = some port ∧ v = ⟨port.index, r.nexthop.hop, .noLocalInterface⟩

def Served (s : Router) (k : ℕ × BitVec 32) : Prop :=
  (∃ r v, Chosen s.routes k r ∧ s.routingTable k = some v ∧ EntryOf s r v) ∨
    ((∀ r ∈ s.routes, r.network.key ≠ k) ∧ s.routingTable k = none)

structure Follows (own : BitVec 32 → BitVec 32 → Prop) (s : Router) : Prop where
  address : ∀ ip index, own ip index →
    s.routingTable (Lpm.key 32 ip) = some ⟨index, 0, .localInterface⟩
  served : ∀ k, ¬ Owned own k → Served s k

structure WellFormed (s : Router) : Prop where
  iface : ∀ r ∈ s.routes, s.ports r.iface ≠ none
  cost : ∀ r ∈ s.routes, r.pathcostIsSet = true ∧ r.pathcost.toNat < int32Max

variable {own : BitVec 32 → BitVec 32 → Prop} {s : Router}

theorem key32_ne {c : Cidr} (h : c.len ≠ 32) (ip : BitVec 32) : Lpm.key 32 ip ≠ c.key := by
  intro same
  have len : 32 = c.len.val := congrArg Prod.fst same
  exact h (Fin.ext len.symm)

theorem key32_injective : Function.Injective (Lpm.key 32 : BitVec 32 → ℕ × BitVec 32) := by
  intro a b same
  have bits : a >>> (32 - 32) = b >>> (32 - 32) := congrArg Prod.snd same
  simpa using bits

theorem Follows.congr {own' : BitVec 32 → BitVec 32 → Prop} (h : Follows own s)
    (same : ∀ ip index, own' ip index ↔ own ip index) : Follows own' s := by
  obtain rfl : own' = own := by
    funext ip index
    exact propext (same ip index)
  exact h

theorem leastCost_spec (network : Cidr) (routes : List Route) (nexthop : Option (BitVec 32))
    (cost : ∀ r ∈ routes, r.pathcostIsSet = true ∧ r.pathcost.toNat < int32Max) :
    (leastCost network routes nexthop = (nexthop, int32Max) ∧
      ∀ r ∈ routes, r.network ≠ network) ∨
    ∃ r ∈ routes, r.network = network ∧
      leastCost network routes nexthop = (some r.nexthop.hop, r.pathcost.toNat) ∧
      ∀ r' ∈ routes, r'.network = network → r.pathcost.toNat ≤ r'.pathcost.toNat := by
  induction routes using List.reverseRecOn with
  | nil => exact Or.inl ⟨rfl, fun r hr => absurd hr (List.not_mem_nil)⟩
  | append_singleton routes r ih =>
    have last := cost r (by simp)
    have ih := ih fun r' hr' => cost r' (by simp [hr'])
    have unfold : leastCost network (routes ++ [r]) nexthop =
        if r.network = network ∧ r.pathcostIsSet ∧
            r.pathcost.toNat < (leastCost network routes nexthop).2 then
          (some r.nexthop.hop, r.pathcost.toNat)
        else leastCost network routes nexthop := by
      rw [leastCost, List.foldl_append]
      rfl
    by_cases here : r.network = network
    · rcases ih with ⟨none, others⟩ | ⟨b, hb, bNet, found, least⟩
      · right
        refine ⟨r, by simp, here, ?_, fun r' hr' net => ?_⟩
        · rw [unfold, none, if_pos ⟨here, last⟩]
        · rcases List.mem_append.1 hr' with old | new
          · exact absurd net (others r' old)
          · rw [List.mem_singleton.1 new]
      · right
        by_cases better : r.pathcost.toNat < b.pathcost.toNat
        · refine ⟨r, by simp, here, ?_, fun r' hr' net => ?_⟩
          · rw [unfold, found, if_pos ⟨here, last.1, better⟩]
          · rcases List.mem_append.1 hr' with old | new
            · have := least r' old net
              omega
            · rw [List.mem_singleton.1 new]
        · refine ⟨b, by simp [hb], bNet, ?_, fun r' hr' net => ?_⟩
          · rw [unfold, found, if_neg fun h => better h.2.2]
          · rcases List.mem_append.1 hr' with old | new
            · exact least r' old net
            · rw [List.mem_singleton.1 new]
              omega
    · rw [unfold, if_neg fun h => here h.1]
      rcases ih with ⟨none, others⟩ | ⟨b, hb, bNet, found, least⟩
      · refine Or.inl ⟨none, fun r' hr' => ?_⟩
        rcases List.mem_append.1 hr' with old | new
        · exact others r' old
        · rw [List.mem_singleton.1 new]
          exact here
      · refine Or.inr ⟨b, by simp [hb], bNet, found, fun r' hr' net => ?_⟩
        rcases List.mem_append.1 hr' with old | new
        · exact least r' old net
        · rw [List.mem_singleton.1 new] at net
          exact absurd net here

theorem hasLocal_iff (network : Cidr) (routes : List Route) :
    hasLocal network routes = true ↔ ∃ r ∈ routes, r.network = network ∧ r.nexthop = .loc := by
  simp [hasLocal]

theorem exists_chosen {routes : List Route} {k : ℕ × BitVec 32}
    (h : ∃ r ∈ routes, r.network.key = k) : ∃ r, Chosen routes k r := by
  by_cases loc : ∃ r ∈ routes, r.network.key = k ∧ r.nexthop = .loc
  · obtain ⟨r, hr, key, isLoc⟩ := loc
    exact ⟨r, hr, key, Or.inl isLoc⟩
  · obtain ⟨r₀, hr₀, key₀⟩ := h
    have nonempty : (routes.toFinset.filter fun r => r.network.key = k).Nonempty :=
      ⟨r₀, by simp [hr₀, key₀]⟩
    obtain ⟨r, hr, least⟩ := Finset.exists_min_image _ (fun r => r.pathcost.toNat) nonempty
    simp only [Finset.mem_filter, List.mem_toFinset] at hr least
    refine ⟨r, hr.1, hr.2, Or.inr fun r' hr' key' => ⟨fun isLoc => ?_, least r' ⟨hr', key'⟩⟩⟩
    exact loc ⟨r', hr', key', isLoc⟩

/-! ### Entries -/

section

variable {k : ℕ × BitVec 32} {v : RtV}

@[simp] theorem set_routes (s : Router) : (s.set k v).routes = s.routes := rfl
@[simp] theorem set_ports (s : Router) : (s.set k v).ports = s.ports := rfl

theorem set_self (s : Router) : (s.set k v).routingTable k = some v :=
  update_self _ _ _

theorem set_of_ne (s : Router) {k' : ℕ × BitVec 32} (h : k' ≠ k) :
    (s.set k v).routingTable k' = s.routingTable k' :=
  update_of_ne h _ _

theorem WellFormed.set (h : WellFormed s) : WellFormed (s.set k v) := ⟨h.iface, h.cost⟩

theorem removeKey_of_some {v : RtV} (h : s.routingTable k = some v) :
    s.removeKey k = ({ s with routingTable := update s.routingTable k none }, .ok ()) := by
  rw [removeKey, h]

@[simp] theorem insert_ports (s : Router) (r : Route) : (s.insert r).ports = s.ports := rfl
@[simp] theorem insert_routingTable (s : Router) (r : Route) :
    (s.insert r).routingTable = s.routingTable := rfl

theorem mem_insert_routes (s : Router) (r r' : Route) :
    r' ∈ (s.insert r).routes ↔ r' = r ∨ r' ∈ s.routes := by
  unfold insert
  exact List.mem_orderedInsert Route.Before

theorem WellFormed.insert (h : WellFormed s) {r : Route} (iface : s.ports r.iface ≠ none)
    (cost : r.pathcostIsSet = true ∧ r.pathcost.toNat < int32Max) : WellFormed (s.insert r) where
  iface r' hr' := by
    rcases (mem_insert_routes s r r').1 hr' with rfl | old
    · exact iface
    · exact h.iface r' old
  cost r' hr' := by
    rcases (mem_insert_routes s r r').1 hr' with rfl | old
    · exact cost
    · exact h.cost r' old

/-- An entry of a network is what a lookup limited to its length finds. -/
theorem lookupFrom_of_some {t : Lpm 32 RtV} {c : Cidr} (h : t c.key = some v) :
    t.lookupFrom c.ip c.len.val = some v := by
  rw [Lpm.lookupFrom_eq_some_iff]
  exact ⟨c.len.val, le_rfl, h, fun m less more => absurd more (by omega)⟩

end

def Accepted (s : Router) (conf : RouteConf) (iface : String) (port : Port) : Prop :=
  hasRoute conf.network (.ip conf.nexthop) s.routes = false ∧
    (conf.iface = some iface ∨ (conf.iface = none ∧ searchInterface s conf.nexthop = .ok iface)) ∧
    s.ports iface = some port

/-- A route may be added when it has a cost below `INT32_MAX` and is for no address of the router,
and when the network is local or the route is better than all others for the network. -/
def Addable (own : BitVec 32 → BitVec 32 → Prop) (s : Router) (conf : RouteConf) : Prop :=
  (∃ iface port, Accepted s conf iface port) →
    conf.pathcostIsSet = true ∧ conf.pathcost.toNat < int32Max ∧ ¬ Owned own conf.network.key ∧
      (hasLocal conf.network s.routes = true ∨ ∀ r ∈ s.routes, r.network.key = conf.network.key →
        r.nexthop ≠ .loc ∧ conf.pathcost.toNat < r.pathcost.toNat)

theorem addRoute_cases (s : Router) (conf : RouteConf) :
    (addRoute conf s).1 = s ∨ ∃ iface port, Accepted s conf iface port ∧
      addRoute conf s =
        (addActiveNexthop conf.network conf.nexthop conf.pathcost port.index s).andThen fun s =>
          (s.insert ⟨conf.network, .ip conf.nexthop, iface, conf.pathcost, conf.pathcostIsSet⟩,
            .ok ()) := by
  unfold addRoute
  cases known : hasRoute conf.network (.ip conf.nexthop) s.routes with
  | true => exact Or.inl rfl
  | false =>
    simp only [Bool.false_eq_true, if_false]
    split
    · exact Or.inl rfl
    · rename_i iface found
      have given : conf.iface = some iface ∨
          (conf.iface = none ∧ searchInterface s conf.nexthop = .ok iface) := by
        cases given : conf.iface with
        | none =>
          rw [given] at found
          exact Or.inr ⟨rfl, found⟩
        | some iface' =>
          rw [given] at found
          cases found
          exact Or.inl rfl
      unfold getPort
      cases found : s.ports iface with
      | none => exact Or.inl rfl
      | some port => exact Or.inr ⟨iface, port, ⟨known, given, found⟩, rfl⟩

/-- Networks that a change of others leaves alone are served as before. -/
theorem Served.congr {s' : Router} {k : ℕ × BitVec 32} (h : Served s k)
    (routes : ∀ r : Route, r.network.key = k → (r ∈ s'.routes ↔ r ∈ s.routes))
    (table : s'.routingTable k = s.routingTable k)
    (ports : ∀ r ∈ s.routes, s'.ports r.iface = s.ports r.iface) : Served s' k := by
  rcases h with ⟨r, v, chosen, found, entry⟩ | ⟨noRoute, none⟩
  · left
    refine ⟨r, v, ⟨(routes r chosen.key).2 chosen.mem, chosen.key, ?_⟩, table.trans found, ?_⟩
    · refine chosen.least.imp_right fun least r' hr' key' => ?_
      exact least r' ((routes r' key').1 hr') key'
    · obtain ⟨port, hport, rfl⟩ := entry
      exact ⟨port, (ports r chosen.mem).trans hport, rfl⟩
  · right
    refine ⟨fun r hr key => ?_, table.trans none⟩
    exact noRoute r ((routes r key).1 hr) key

theorem toInt_lt_of_toNat_lt {c : BitVec 32} {n : ℕ} (cost : c.toNat < int32Max)
    (h : c.toNat < n) : c.toInt < n := by
  rw [BitVec.toInt_eq_toNat_cond, int32Max] at *
  split_ifs <;> omega

theorem addActiveNexthop_of_better {conf : RouteConf} {index : BitVec 32} (wf : WellFormed s)
    (cost : conf.pathcost.toNat < int32Max)
    (better : ∀ r ∈ s.routes, r.network.key = conf.network.key →
      r.nexthop ≠ .loc ∧ conf.pathcost.toNat < r.pathcost.toNat) :
    addActiveNexthop conf.network conf.nexthop conf.pathcost index s =
      (s.set conf.network.key ⟨index, conf.nexthop, .noLocalInterface⟩, .ok ()) := by
  have noLocal : ¬ hasLocal conf.network s.routes = true := by
    rw [hasLocal_iff]
    rintro ⟨r, hr, net, loc⟩
    exact (better r hr (by rw [net])).1 loc
  unfold addActiveNexthop
  rw [if_neg noLocal]
  rcases leastCost_spec conf.network s.routes (some conf.nexthop) wf.cost with
    ⟨none, -⟩ | ⟨r, hr, net, found, -⟩
  · simp only [none, if_pos (toInt_lt_of_toNat_lt cost cost)]
  · have less := (better r hr (by rw [net])).2
    simp only [found, if_pos (toInt_lt_of_toNat_lt cost less)]

theorem Follows.addRoute (h : Follows own s) (wf : WellFormed s) {conf : RouteConf}
    (ok : Addable own s conf) :
    Follows own (addRoute conf s).1 ∧ WellFormed (Router.addRoute conf s).1 ∧
      (Router.addRoute conf s).1.ports = s.ports := by
  rcases addRoute_cases s conf with same | ⟨iface, port, accepted, added⟩
  · rw [same]
    exact ⟨h, wf, rfl⟩
  · obtain ⟨costIsSet, cost, notOwned, best⟩ := ok ⟨iface, port, accepted⟩
    set r : Route :=
      ⟨conf.network, .ip conf.nexthop, iface, conf.pathcost, conf.pathcostIsSet⟩ with hr
    have hasPort : s.ports r.iface = some port := accepted.2.2
    have others : ∀ (t : Router) k, k ≠ conf.network.key → ∀ r' : Route, r'.network.key = k →
        (r' ∈ (t.insert r).routes ↔ r' ∈ t.routes) := by
      intro t k off r' key
      rw [mem_insert_routes]
      refine or_iff_right ?_
      rintro rfl
      exact off key.symm
    by_cases loc : hasLocal conf.network s.routes = true
    · -- the network is local: only the control plane changes
      have run : Router.addRoute conf s = (s.insert r, .ok ()) := by
        rw [added, addActiveNexthop, if_pos loc]
        rfl
      rw [run]
      refine ⟨⟨h.address, fun k free => ?_⟩, wf.insert (by simp [hasPort]) ⟨costIsSet, cost⟩, rfl⟩
      by_cases here : k = conf.network.key
      · obtain ⟨l, hl, net, isLoc⟩ := (hasLocal_iff _ _).1 loc
        rcases h.served k free with ⟨c, v, chosen, found, entry⟩ | ⟨noRoute, -⟩
        · have chosenLoc : c.nexthop = .loc := by
            rcases chosen.least with cLoc | least
            · exact cLoc
            · exact absurd isLoc (least l hl (by rw [net, here])).1
          exact Or.inl ⟨c, v, ⟨(mem_insert_routes _ _ _).2 (Or.inr chosen.mem), chosen.key,
            Or.inl chosenLoc⟩, found, entry⟩
        · exact absurd (by rw [net, here]) (noRoute l hl)
      · exact (h.served k free).congr (others s k here) rfl fun _ _ => rfl
    · have better := best.resolve_left loc
      have run : Router.addRoute conf s =
          ((s.set conf.network.key ⟨port.index, conf.nexthop, .noLocalInterface⟩).insert r,
            .ok ()) := by
        rw [added, addActiveNexthop_of_better wf cost better]
        rfl
      rw [run]
      refine ⟨⟨fun ip index owns => ?_, fun k free => ?_⟩, wf.set.insert (by simp [hasPort])
        ⟨costIsSet, cost⟩, rfl⟩
      · have off : Lpm.key 32 ip ≠ conf.network.key := fun same =>
          notOwned ⟨ip, index, owns, same⟩
        rw [insert_routingTable, set_of_ne s off]
        exact h.address ip index owns
      · by_cases here : k = conf.network.key
        · subst here
          refine Or.inl ⟨r, _, ⟨(mem_insert_routes _ _ _).2 (Or.inl rfl), rfl, Or.inr ?_⟩,
            set_self s, port, hasPort, rfl⟩
          intro r' hr' key
          rcases (mem_insert_routes _ _ _).1 hr' with rfl | old
          · exact ⟨by simp [hr], le_rfl⟩
          · exact ⟨(better r' old key).1, (better r' old key).2.le⟩
        · exact (h.served k free).congr (others _ k here) (set_of_ne s here) fun _ _ => rfl

/-! ### Erasing a route -/

theorem mem_without_routes (s : Router) (r r' : Route) :
    r' ∈ (s.without r).routes ↔
      r' ∈ s.routes ∧ ¬ (r'.network = r.network ∧ r'.nexthop = r.nexthop) := by
  simp only [without, List.mem_filter, decide_eq_true_eq]

theorem WellFormed.without (h : WellFormed s) (r : Route) : WellFormed (s.without r) where
  iface r' hr' := h.iface r' ((mem_without_routes s r r').1 hr').1
  cost r' hr' := h.cost r' ((mem_without_routes s r r').1 hr').1

theorem mem_without_of_key {r r' : Route} {k : ℕ × BitVec 32} (off : k ≠ r.network.key)
    (key : r'.network.key = k) : r' ∈ (s.without r).routes ↔ r' ∈ s.routes := by
  rw [mem_without_routes]
  refine and_iff_left ?_
  rintro ⟨net, -⟩
  exact off (by rw [← key, net])

/-- A route may be erased when its entry has the network for a next hop, and for each route that
is then best the search finds the route's own port; or, if the entry has another next hop, when it
is not the entry of this route. -/
def Erasable (own : BitVec 32 → BitVec 32 → Prop) (s : Router) (r : Route) : Prop :=
  ∃ v, s.routingTable r.network.key = some v ∧
    if v.nexthop = r.network.ip then
      ¬ Owned own r.network.key ∧ ∀ c, Chosen (s.without r).routes r.network.key c →
        c.network = r.network ∧ ∃ port found, s.ports c.iface = some port ∧
          searchPort (s.without r) c.nexthop.hop = .ok found ∧ found.index = port.index
    else
      Owned own r.network.key ∨ (r.nexthop ≠ .loc ∧
        ((∃ l ∈ s.routes, l.network.key = r.network.key ∧ l.nexthop = .loc) ∨
          v.nexthop ≠ r.nexthop.hop))

/-- What `find_new_active_nexthop` takes instead, when the routes are those left. -/
def newNexthop (network : Cidr) (routes : List Route) : Option (BitVec 32) :=
  if hasLocal network routes then some 0 else (leastCost network routes none).1

theorem newNexthop_cases {network : Cidr} {routes : List Route}
    (cost : ∀ r ∈ routes, r.pathcostIsSet = true ∧ r.pathcost.toNat < int32Max)
    (spelled : ∀ c, Chosen routes network.key c → c.network = network) :
    (newNexthop network routes = none ∧ ∀ r ∈ routes, r.network.key ≠ network.key) ∨
      ∃ c, Chosen routes network.key c ∧ newNexthop network routes = some c.nexthop.hop := by
  unfold newNexthop
  by_cases loc : hasLocal network routes = true
  · obtain ⟨l, hl, net, isLoc⟩ := (hasLocal_iff _ _).1 loc
    refine Or.inr ⟨l, ⟨hl, by rw [net], Or.inl isLoc⟩, ?_⟩
    rw [if_pos loc, isLoc]
    rfl
  · rw [if_neg loc]
    rcases leastCost_spec network routes none cost with ⟨none, others⟩ | ⟨b, hb, net, found, least⟩
    · left
      refine ⟨by rw [none], fun r hr key => ?_⟩
      obtain ⟨c, chosen⟩ := exists_chosen ⟨r, hr, key⟩
      exact others c chosen.mem (spelled c chosen)
    · right
      obtain ⟨c, chosen⟩ := exists_chosen ⟨b, hb, by rw [net]⟩
      have cNet := spelled c chosen
      rcases chosen.least with isLoc | cLeast
      · exact absurd ((hasLocal_iff _ _).2 ⟨c, chosen.mem, cNet, isLoc⟩) loc
      · refine ⟨b, ⟨hb, by rw [net], Or.inr fun r' hr' key' => ?_⟩, by rw [found]⟩
        have cb := least c chosen.mem cNet
        have cr := cLeast r' hr' key'
        exact ⟨cr.1, cb.trans cr.2⟩

theorem Follows.eraseRoute (h : Follows own s) (wf : WellFormed s) {r : Route}
    (ok : Erasable own s r) :
    ∃ s', Router.eraseRoute r s = (s', .ok ()) ∧ Follows own s' ∧ WellFormed s' ∧
      s'.ports = s.ports ∧ s'.routes = (s.without r).routes := by
  obtain ⟨v, found, ok⟩ := ok
  have looked : (s.without r).routingTable.lookupFrom r.network.ip r.network.len.val = some v :=
    lookupFrom_of_some found
  have elsewhere : ∀ k, k ≠ r.network.key → ∀ t : Router, t.routes = (s.without r).routes →
      t.ports = s.ports → t.routingTable k = s.routingTable k → Served s k → Served t k := by
    intro k off t routes ports table served
    refine served.congr (fun r' key => ?_) table fun _ _ => by rw [ports]
    rw [routes]
    exact mem_without_of_key off key
  unfold Router.eraseRoute findNewActiveNexthop
  rw [looked]
  by_cases acts : v.nexthop = r.network.ip
  · rw [if_pos acts] at ok
    obtain ⟨notOwned, best⟩ := ok
    have owns : ∀ ip index, own ip index → Lpm.key 32 ip ≠ r.network.key :=
      fun ip index owns same => notOwned ⟨ip, index, owns, same⟩
    simp only [if_pos acts]
    rw [show (if hasLocal r.network (s.without r).routes = true then some 0
      else (leastCost r.network (s.without r).routes none).1) =
        newNexthop r.network (s.without r).routes from rfl]
    rcases newNexthop_cases (wf.without r).cost fun c hc => (best c hc).1 with
      ⟨none, noRoute⟩ | ⟨c, chosen, hop⟩
    · rw [none]
      simp only [removeKey_of_some (s := s.without r) found]
      refine ⟨_, rfl, ⟨fun ip index own' => ?_, fun k free => ?_⟩,
        ⟨(wf.without r).iface, (wf.without r).cost⟩, rfl, rfl⟩
      · exact (update_of_ne (owns ip index own') _ _).trans (h.address ip index own')
      · by_cases here : k = r.network.key
        · subst here
          exact Or.inr ⟨noRoute, update_self _ _ _⟩
        · exact elsewhere k here _ rfl rfl (update_of_ne here _ _) (h.served k free)
    · obtain ⟨-, port, target, hasPort, searched, same⟩ := best c chosen
      simp only [hop, searched]
      refine ⟨_, rfl, ⟨fun ip index own' => ?_, fun k free => ?_⟩, (wf.without r).set, rfl, rfl⟩
      · exact (set_of_ne _ (owns ip index own')).trans (h.address ip index own')
      · by_cases here : k = r.network.key
        · subst here
          exact Or.inl ⟨c, _, chosen, set_self _, port, hasPort, by rw [same]⟩
        · exact elsewhere k here _ rfl rfl (set_of_ne _ here) (h.served k free)
  · rw [if_neg acts] at ok
    simp only [if_neg acts]
    refine ⟨_, rfl, ⟨h.address, fun k free => ?_⟩, wf.without r, rfl, rfl⟩
    by_cases here : k = r.network.key
    · subst here
      obtain ⟨notLoc, kept⟩ := ok.resolve_left free
      rcases h.served _ free with ⟨c, v', chosen, found', entry⟩ | ⟨-, none⟩
      · obtain rfl : v' = v := Option.some.inj (found'.symm.trans found)
        have other : c.nexthop ≠ r.nexthop := by
          rcases kept with ⟨l, hl, key, isLoc⟩ | apart
          · rcases chosen.least with cLoc | least
            · exact fun same => notLoc (same ▸ cLoc)
            · exact absurd isLoc (least l hl key).1
          · obtain ⟨port, -, rfl⟩ := entry
            exact fun same => apart (by rw [← same])
        refine Or.inl ⟨c, v', ⟨(mem_without_routes s r c).2 ⟨chosen.mem, fun h => other h.2⟩,
          chosen.key, ?_⟩, found', entry⟩
        refine chosen.least.imp_right fun least r' hr' => ?_
        exact least r' ((mem_without_routes s r r').1 hr').1
      · rw [none] at found
        exact absurd found (by simp)
    · exact elsewhere k here _ rfl rfl rfl (h.served k free)

def AllErasable (own : BitVec 32 → BitVec 32 → Prop) : List Route → Router → Prop
  | [], _ => True
  | r :: rs, s => Erasable own s r ∧ AllErasable own rs (eraseRoute r s).1

theorem Follows.eraseRoutes {rs : List Route} (h : Follows own s) (wf : WellFormed s)
    (ok : AllErasable own rs s) :
    ∃ s', Router.eraseRoutes rs s = (s', .ok ()) ∧ Follows own s' ∧ WellFormed s' ∧
      s'.ports = s.ports := by
  induction rs generalizing s with
  | nil => exact ⟨s, rfl, h, wf, rfl⟩
  | cons r rs ih =>
    obtain ⟨s₁, run, h₁, wf₁, ports₁, -⟩ := h.eraseRoute wf ok.1
    have rest : AllErasable own rs s₁ := by
      have := ok.2
      rwa [run] at this
    obtain ⟨s₂, run₂, h₂, wf₂, ports₂⟩ := ih h₁ wf₁ rest
    refine ⟨s₂, ?_, h₂, wf₂, ports₂.trans ports₁⟩
    rw [Router.eraseRoutes, run]
    exact run₂

def AddableLocal (own : BitVec 32 → BitVec 32 → Prop) (s : Router) (address : Cidr)
    (index : BitVec 32) : Prop :=
  (∀ j, own address.ip j → j = index) ∧
    (address.len ≠ 32 → ∀ l ∈ s.routes, l.nexthop = .loc → l.network = address.network →
      ∀ port, s.ports l.iface = some port → port.index = index)

theorem addLocalRoute_eq (address : Cidr) (name : String) (index : BitVec 32) (s : Router) :
    addLocalRoute address name index s =
      if address.len ≠ 32 then
        if hasRoute address.network .loc s.routes then
          (s.set (Lpm.key 32 address.ip) ⟨index, 0, .localInterface⟩).set address.network.key
            ⟨index, 0, .noLocalInterface⟩
        else
          ((s.set (Lpm.key 32 address.ip) ⟨index, 0, .localInterface⟩).set address.network.key
            ⟨index, 0, .noLocalInterface⟩).insert ⟨address.network, .loc, name, 0, true⟩
      else s.set (Lpm.key 32 address.ip) ⟨index, 0, .localInterface⟩ := rfl

theorem addLocalRoute_ports (address : Cidr) (name : String) (index : BitVec 32) (s : Router) :
    (addLocalRoute address name index s).ports = s.ports := by
  rw [addLocalRoute_eq]
  split_ifs <;> rfl

theorem Follows.addLocalRoute (h : Follows own s) (wf : WellFormed s) {address : Cidr}
    {name : String} {port : Port} (hasPort : s.ports name = some port)
    (ok : AddableLocal own s address port.index) :
    Follows (fun ip j => own ip j ∨ (ip = address.ip ∧ j = port.index))
      (addLocalRoute address name port.index s) ∧
    WellFormed (Router.addLocalRoute address name port.index s) := by
  set own' : BitVec 32 → BitVec 32 → Prop :=
    fun ip j => own ip j ∨ (ip = address.ip ∧ j = port.index) with hown
  set s₁ := s.set (Lpm.key 32 address.ip) ⟨port.index, 0, .localInterface⟩ with hs₁
  -- the address itself
  have address₁ : ∀ ip j, own' ip j →
      s₁.routingTable (Lpm.key 32 ip) = some ⟨j, 0, .localInterface⟩ := by
    intro ip j owns
    by_cases here : ip = address.ip
    · have same : j = port.index := by
        rcases owns with old | ⟨-, new⟩
        · exact ok.1 j (here ▸ old)
        · exact new
      rw [here, same]
      exact set_self s
    · have old : own ip j := owns.resolve_right fun new => here new.1
      rw [set_of_ne s fun same => here (key32_injective same)]
      exact h.address ip j old
  have free₁ : ∀ k, ¬ Owned own' k → k ≠ Lpm.key 32 address.ip ∧ ¬ Owned own k := by
    refine fun k free => ⟨?_, ?_⟩
    · rintro rfl
      exact free ⟨address.ip, port.index, Or.inr ⟨rfl, rfl⟩, rfl⟩
    · rintro ⟨ip, j, owns, key⟩
      exact free ⟨ip, j, Or.inl owns, key⟩
  have served₁ : ∀ k, ¬ Owned own' k → Served s₁ k := by
    intro k free
    obtain ⟨off, free⟩ := free₁ k free
    exact (h.served k free).congr (fun _ _ => Iff.rfl) (set_of_ne s off) fun _ _ => rfl
  rw [addLocalRoute_eq]
  by_cases len : address.len ≠ 32
  · have lenNet : address.network.len ≠ 32 := len
    set v : RtV := ⟨port.index, 0, .noLocalInterface⟩ with hv
    set s₂ := s₁.set address.network.key v with hs₂
    have address₂ : ∀ ip j, own' ip j →
        s₂.routingTable (Lpm.key 32 ip) = some ⟨j, 0, .localInterface⟩ := by
      intro ip j owns
      rw [set_of_ne s₁ (key32_ne lenNet ip)]
      exact address₁ ip j owns
    rw [if_pos len]
    by_cases known : hasRoute address.network .loc s.routes = true
    · rw [if_pos known]
      refine ⟨⟨address₂, fun k free => ?_⟩, wf.set.set⟩
      by_cases here : k = address.network.key
      · subst here
        obtain ⟨l, hl, net, isLoc⟩ : ∃ l ∈ s.routes, l.network = address.network ∧
            l.nexthop = .loc := by simpa [hasRoute] using known
        cases hasPort' : s.ports l.iface with
        | none => exact absurd hasPort' (wf.iface l hl)
        | some port' =>
          have same := ok.2 len l hl isLoc net port' hasPort'
          refine Or.inl ⟨l, v, ⟨hl, by rw [net], Or.inl isLoc⟩, set_self s₁, port', hasPort', ?_⟩
          rw [isLoc, same]
          rfl
      · exact (served₁ k free).congr (fun _ _ => Iff.rfl) (set_of_ne s₁ here) fun _ _ => rfl
    · rw [if_neg known]
      set r : Route := ⟨address.network, .loc, name, 0, true⟩ with hr
      have cost : r.pathcostIsSet = true ∧ r.pathcost.toNat < int32Max :=
        ⟨rfl, show (0#32).toNat < int32Max by decide⟩
      refine ⟨⟨address₂, fun k free => ?_⟩, wf.set.set.insert (by simp [hr, hasPort]) cost⟩
      by_cases here : k = address.network.key
      · subst here
        exact Or.inl ⟨r, v, ⟨(mem_insert_routes _ _ _).2 (Or.inl rfl), rfl, Or.inl rfl⟩,
          set_self s₁, port, hasPort, rfl⟩
      · refine (served₁ k free).congr (fun r' key => ?_) (set_of_ne s₁ here) fun _ _ => rfl
        rw [mem_insert_routes]
        refine or_iff_right ?_
        rintro rfl
        exact here key.symm
  · rw [if_neg len]
    exact ⟨⟨address₁, served₁⟩, wf.set⟩

/-- An address may be removed when the routes that go with it may, and no route is left for the
address itself. -/
def Removable (own : BitVec 32 → BitVec 32 → Prop) (s : Router) (address : Cidr) (name : String) :
    Prop :=
  AllErasable own (localOf address name s.routes) s ∧
    let s₁ := (eraseRoutes (localOf address name s.routes) s).1
    AllErasable own (routesVia address s₁.routes) s₁ ∧
      let s₂ := (eraseRoutes (routesVia address s₁.routes) s₁).1
      ∀ r ∈ s₂.routes, r.network.key ≠ Lpm.key 32 address.ip

theorem Follows.removeLocalRoute (h : Follows own s) (wf : WellFormed s) {address : Cidr}
    {name : String} (owned : ∃ index, own address.ip index)
    (ok : Removable own s address name) :
    ∃ s', Router.removeLocalRoute address name s = (s', .ok ()) ∧
      Follows (fun ip j => own ip j ∧ ip ≠ address.ip) s' ∧ WellFormed s' ∧
      s'.ports = s.ports := by
  obtain ⟨first, second, noRoute⟩ := ok
  obtain ⟨s₁, run₁, h₁, wf₁, ports₁⟩ := h.eraseRoutes wf first
  rw [run₁] at second noRoute
  obtain ⟨s₂, run₂, h₂, wf₂, ports₂⟩ := h₁.eraseRoutes wf₁ second
  rw [run₂] at noRoute
  obtain ⟨index, owns⟩ := owned
  have found := h₂.address _ _ owns
  set s₃ : Router :=
    { s₂ with routingTable := update s₂.routingTable (Lpm.key 32 address.ip) none }
  refine ⟨s₃, ?_, ⟨?_, ?_⟩, ⟨wf₂.iface, wf₂.cost⟩, ports₂.trans ports₁⟩
  · unfold Router.removeLocalRoute
    rw [run₁]
    simp only [Outcome.andThen, run₂]
    exact removeKey_of_some found
  · rintro ip j ⟨own', off⟩
    have apart : Lpm.key 32 ip ≠ Lpm.key 32 address.ip := fun same => off (key32_injective same)
    exact (update_of_ne apart _ _).trans (h₂.address ip j own')
  · intro k free
    by_cases here : k = Lpm.key 32 address.ip
    · subst here
      exact Or.inr ⟨noRoute, update_self _ _ _⟩
    · have free₂ : ¬ Owned own k := by
        rintro ⟨ip, j, own', key⟩
        refine free ⟨ip, j, ⟨own', ?_⟩, key⟩
        rintro rfl
        exact here key.symm
      exact (h₂.served k free₂).congr (fun _ _ => Iff.rfl) (update_of_ne here _ _)
        fun _ _ => rfl

end Router

end Polycube
