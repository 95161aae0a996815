import Polycube.Router.Capacity

/-!
# Failed changes

A change that ends in an exception leaves the routes and the routing table as they were, if nothing
was done before.  `delRoute` and the functions that remove an address erase routes first and look
for other next hops then, and a local route is two stores.
-/

namespace Polycube.Router

open Function Lib

namespace Filled

open Attempt

def view (s : Filled) : List Route × Lpm 32 RtV := (s.routes, s.routingTable.entry)

def AsItWas (r : Request) (s : Filled) : Prop := (r.change s).Undone view s

def Room (s : Filled) (k : ℕ × BitVec 32) : Prop :=
  (Insert.insert k s.routingTable.keys).card ≤ routingTableDim

instance (s : Filled) (k : ℕ × BitVec 32) : Decidable (s.Room k) :=
  inferInstanceAs (Decidable (_ ≤ _))

/-- A next hop instead of a route that was erased is found, or the entry is not the route's. -/
def Replaceable (network : Cidr) (s : Filled) : Prop :=
  ∃ value, s.toRouter.routingTable.lookupFrom network.ip network.len.val = some value ∧
    (value.nexthop = network.ip →
      match newNexthop network s.routes with
      | none => s.routingTable.entry network.key ≠ none
      | some nexthop => (∃ port, searchPort s.toRouter nexthop = .ok port) ∧ s.Room network.key)

def AllReplaceable : List Route → Filled → Prop
  | [], _ => True
  | r :: rs, s => (s.without r).Replaceable r.network ∧ AllReplaceable rs (s.eraseRoute r).1

def NoRoutes (address : Cidr) (name : String) (s : Filled) : Prop :=
  localOf address name s.routes = [] ∧ routesVia address s.routes = []

def Removable (address : Cidr) (name : String) (s : Filled) : Prop :=
  let t := (s.eraseRoutes (localOf address name s.routes)).1
  AllReplaceable (localOf address name s.routes) s ∧
    AllReplaceable (routesVia address t.routes) t ∧
      (t.eraseRoutes (routesVia address t.routes)).1.routingTable.entry
        (Lpm.key 32 address.ip) ≠ none

def localEntry (index : BitVec 32) : RtV := ⟨index, 0, .localInterface⟩

def LocalFits (address : Cidr) (index : BitVec 32) (s : Filled) : Prop :=
  s.Room (Lpm.key 32 address.ip) → address.len ≠ 32 →
    s.routingTable.entry (Lpm.key 32 address.ip) = some (localEntry index) ∨
      (Insert.insert address.network.key
        (Insert.insert (Lpm.key 32 address.ip) s.routingTable.keys)).card ≤ routingTableDim

variable {s : Filled}

theorem set_cases (s : Filled) (k : ℕ × BitVec 32) (v : RtV) :
    (s.Room k ∧ ∃ table, table.entry = update s.routingTable.entry k (some v) ∧
        table.keys = Insert.insert k s.routingTable.keys ∧
          s.set k v = ({ s with routingTable := table }, .ok ())) ∨
      (¬ s.Room k ∧ s.set k v = (s, .error tableSetError)) := by
  unfold set
  by_cases room : s.Room k
  · left
    cases h : s.routingTable.set k v with
    | none =>
      have card : (Insert.insert k s.routingTable.keys).card ≤ routingTableDim := room
      rw [Bounded.set, dif_pos card] at h
      cases h
    | some table =>
      exact ⟨room, table, Bounded.entry_of_set h, Bounded.keys_of_set h, rfl⟩
  · right
    have full : s.routingTable.set k v = none := dif_neg room
    rw [full]
    exact ⟨room, rfl⟩

theorem returns_set_iff (k : ℕ × BitVec 32) (v : RtV) : (s.set k v).Returns ↔ s.Room k := by
  rcases set_cases s k v with ⟨room, table, -, -, e⟩ | ⟨full, e⟩
  · rw [e]
    exact iff_of_true rfl room
  · rw [e]
    exact iff_of_false not_returns_error full

theorem returns_removeKey_iff (k : ℕ × BitVec 32) :
    (s.removeKey k).Returns ↔ s.routingTable.entry k ≠ none := by
  rw [← s.routingTable.mem_keys]
  unfold removeKey Bounded.remove
  by_cases there : k ∈ s.routingTable.keys
  · rw [if_pos there]
    exact iff_of_true rfl there
  · rw [if_neg there]
    exact iff_of_false not_returns_error there

theorem removeKey_of_returns {k : ℕ × BitVec 32} (h : (s.removeKey k).Returns) :
    (s.removeKey k).1.routingTable.entry = update s.routingTable.entry k none ∧
      (s.removeKey k).1.routingTable.keys.card < routingTableDim := by
  have there := (s.routingTable.mem_keys k).2 ((returns_removeKey_iff k).1 h)
  have fewer : (s.routingTable.keys.erase k).card < routingTableDim :=
    lt_of_lt_of_le (Finset.card_erase_lt_of_mem there) s.routingTable.card_le
  unfold removeKey Bounded.remove
  rw [if_pos there]
  exact ⟨rfl, fewer⟩

theorem removeKey_of_not_returns {k : ℕ × BitVec 32} (h : ¬ (s.removeKey k).Returns) :
    (s.removeKey k).1 = s := by
  unfold removeKey at h ⊢
  cases e : s.routingTable.remove k with
  | none => rfl
  | some table =>
    rw [e] at h
    exact absurd rfl h

theorem routes_set (s : Filled) (k : ℕ × BitVec 32) (v : RtV) :
    (s.set k v).1.routes = s.routes := by
  unfold set
  split <;> rfl

theorem routes_removeKey (s : Filled) (k : ℕ × BitVec 32) :
    (s.removeKey k).1.routes = s.routes := by
  unfold removeKey
  split <;> rfl

theorem returns_findNewActiveNexthop_iff (network : Cidr) :
    (s.findNewActiveNexthop network).Returns ↔ s.Replaceable network := by
  unfold findNewActiveNexthop Replaceable
  cases s.toRouter.routingTable.lookupFrom network.ip network.len.val with
  | none => exact iff_of_false not_returns_error (by rintro ⟨value, ⟨⟩, -⟩)
  | some value =>
    simp only [Option.some.injEq, exists_eq_left']
    by_cases acts : value.nexthop = network.ip
    · rw [if_pos acts, forall_prop_of_true acts]
      cases newNexthop network s.routes with
      | none => exact returns_removeKey_iff _
      | some nexthop =>
        dsimp only
        cases searchPort s.toRouter nexthop with
        | error e => exact iff_of_false not_returns_error (by rintro ⟨⟨port, ⟨⟩⟩, -⟩)
        | ok port =>
          rw [and_iff_right ⟨port, rfl⟩]
          exact returns_set_iff _ _
    · rw [if_neg acts]
      exact iff_of_true rfl fun same => absurd same acts

theorem routes_findNewActiveNexthop (s : Filled) (network : Cidr) :
    (s.findNewActiveNexthop network).1.routes = s.routes := by
  unfold findNewActiveNexthop
  split
  · rfl
  · split_ifs
    · split
      · exact routes_removeKey _ _
      · split
        · rfl
        · exact routes_set _ _ _
    · rfl

theorem routes_eraseRoute (r : Route) (s : Filled) :
    (s.eraseRoute r).1.routes = (s.without r).routes := routes_findNewActiveNexthop _ _

variable {r : Route} {τ : Type} {shown : Filled → τ}

theorem length_eraseRoute_lt (h : r ∈ s.routes) :
    (s.eraseRoute r).1.routes.length < s.routes.length := by
  rw [routes_eraseRoute]
  unfold without
  refine List.length_filter_lt_length_iff_exists.2 ⟨r, h, ?_⟩
  simp

theorem length_eraseRoute_le (r : Route) (s : Filled) :
    (s.eraseRoute r).1.routes.length ≤ s.routes.length := by
  rw [routes_eraseRoute]
  exact List.length_filter_le _ _

theorem returns_eraseRoutes_iff (rs : List Route) (s : Filled) :
    (s.eraseRoutes rs).Returns ↔ AllReplaceable rs s := by
  induction rs generalizing s with
  | nil => exact iff_of_true rfl trivial
  | cons r rs ih =>
    unfold eraseRoutes AllReplaceable
    rw [returns_andThen_iff, ih]
    exact and_congr_left' (returns_findNewActiveNexthop_iff _)

theorem length_eraseRoutes_le (rs : List Route) (s : Filled) :
    (s.eraseRoutes rs).1.routes.length ≤ s.routes.length := by
  induction rs generalizing s with
  | nil => exact le_rfl
  | cons r rs ih =>
    unfold eraseRoutes
    by_cases h : (s.eraseRoute r).Returns
    · rw [andThen_of_returns h]
      exact (ih _).trans (length_eraseRoute_le r s)
    · rw [andThen_of_not_returns h]
      exact length_eraseRoute_le r s

theorem length_eraseRoutes_lt (rs : List Route) (h : r ∈ s.routes) :
    (s.eraseRoutes (r :: rs)).1.routes.length < s.routes.length := by
  unfold eraseRoutes
  by_cases returns : (s.eraseRoute r).Returns
  · rw [andThen_of_returns returns]
    exact lt_of_le_of_lt (length_eraseRoutes_le rs _) (length_eraseRoute_lt h)
  · rw [andThen_of_not_returns returns]
    exact length_eraseRoute_lt h

theorem undone_set (k : ℕ × BitVec 32) (v : RtV) : (s.set k v).Undone shown s := by
  rcases set_cases s k v with ⟨-, table, -, -, e⟩ | ⟨-, e⟩
  · rw [e]
    exact undone_of_returns returns_ok
  · rw [e]
    exact undone_of_view rfl

theorem undone_addActiveNexthop (network : Cidr) (nexthop cost portId : BitVec 32) :
    (s.addActiveNexthop network nexthop cost portId).Undone shown s := by
  unfold addActiveNexthop
  dsimp only
  split_ifs
  · exact undone_of_view rfl
  · exact undone_set _ _
  · split
    · exact undone_of_view rfl
    · exact undone_set _ _

theorem undone_addRoute (conf : RouteConf) : (s.addRoute conf).Undone shown s := by
  unfold addRoute
  split_ifs
  · exact undone_of_view rfl
  · dsimp only
    split
    · exact undone_of_view rfl
    · split
      · exact undone_of_view rfl
      · rw [undone_andThen_iff]
        exact ⟨undone_addActiveNexthop _ _ _ _, fun _ => undone_of_returns returns_ok⟩

theorem undone_removeAllRoutes : s.removeAllRoutes.Undone view s := by
  unfold removeAllRoutes
  split_ifs
  · exact undone_of_view rfl
  · exact undone_of_returns returns_ok

theorem undone_delRoute_iff (network : Cidr) (nexthop : BitVec 32) :
    (s.delRoute network nexthop).Undone view s ↔
      ∀ r, (s.routes.find? fun r => r.network == network && r.nexthop == .ip nexthop) = some r →
        (s.without r).Replaceable r.network := by
  unfold delRoute
  cases found : s.routes.find? fun r => r.network == network && r.nexthop == .ip nexthop with
  | none => exact iff_of_true (undone_of_view rfl) (by rintro r ⟨⟩)
  | some r =>
    have there : r ∈ s.routes := List.mem_of_find?_eq_some found
    simp only [Option.some.injEq, forall_eq']
    rw [← returns_findNewActiveNexthop_iff]
    refine ⟨fun undone => ?_, undone_of_returns⟩
    by_contra throws
    have same := (undone_iff_of_not_returns throws).1 undone
    have fewer := length_eraseRoute_lt there
    rw [show (s.eraseRoute r).1.routes = s.routes from congrArg Prod.fst same] at fewer
    exact lt_irrefl _ fewer

theorem returns_removeLocalRoute_iff (address : Cidr) (name : String) :
    (s.removeLocalRoute address name).Returns ↔ s.Removable address name := by
  unfold removeLocalRoute Removable
  rw [returns_andThen_iff, returns_andThen_iff, returns_eraseRoutes_iff, returns_eraseRoutes_iff,
    and_assoc]
  refine and_congr_right fun first => and_congr_right fun second => ?_
  rw [andThen_of_returns ((returns_eraseRoutes_iff _ _).2 first)]
  exact returns_removeKey_iff _

theorem eraseRoutes_eq_nil {rs : List Route} (sub : ∀ r ∈ rs, r ∈ s.routes)
    (same : s.routes.length ≤ (s.eraseRoutes rs).1.routes.length) : rs = [] := by
  cases rs with
  | nil => rfl
  | cons r rs =>
    have fewer := length_eraseRoutes_lt rs (sub r List.mem_cons_self)
    exact absurd same (not_le_of_gt fewer)

variable {address : Cidr} {name : String}

theorem mem_of_mem_localOf {routes : List Route}
    (h : r ∈ localOf address name routes) : r ∈ routes := by
  unfold localOf at h
  exact List.mem_of_find?_eq_some (Option.mem_toList.1 h)

theorem length_andThen_le {a : Attempt Filled String} {f : Change}
    (h : ∀ t, (f t).1.routes.length ≤ t.routes.length) :
    (a.andThen f).1.routes.length ≤ a.1.routes.length := by
  by_cases returns : a.Returns
  · rw [andThen_of_returns returns]
    exact h _
  · rw [andThen_of_not_returns returns]

theorem noRoutes_of_length (address : Cidr) (name : String)
    (same : s.routes.length ≤ (s.removeLocalRoute address name).1.routes.length) :
    s.NoRoutes address name := by
  have both := same.trans (length_andThen_le fun t =>
    (congrArg List.length (routes_removeKey t (Lpm.key 32 address.ip))).le)
  have first : localOf address name s.routes = [] :=
    eraseRoutes_eq_nil (fun r => mem_of_mem_localOf)
      (both.trans (length_andThen_le fun t => length_eraseRoutes_le _ t))
  rw [first] at both
  exact ⟨first, eraseRoutes_eq_nil (fun r hr => List.mem_of_mem_filter hr) both⟩

theorem removeLocalRoute_of_noRoutes (h : s.NoRoutes address name) :
    s.removeLocalRoute address name = s.removeKey (Lpm.key 32 address.ip) := by
  obtain ⟨first, second⟩ := h
  unfold removeLocalRoute
  rw [first]
  show (s.eraseRoutes (routesVia address s.routes)).andThen _ = _
  rw [second]
  rfl

/-- A local route is removed as a whole or not at all if there is no exception or nothing to erase
before it. -/
theorem undone_removeLocalRoute_iff (address : Cidr) (name : String) :
    (s.removeLocalRoute address name).Undone view s ↔
      s.Removable address name ∨ s.NoRoutes address name := by
  rw [← returns_removeLocalRoute_iff]
  by_cases h : (s.removeLocalRoute address name).Returns
  · exact iff_of_true (undone_of_returns h) (.inl h)
  rw [or_iff_right h, undone_iff_of_not_returns h]
  constructor
  · intro same
    apply noRoutes_of_length
    rw [show (s.removeLocalRoute address name).1.routes = s.routes from congrArg Prod.fst same]
  · intro none
    rw [removeLocalRoute_of_noRoutes none] at h ⊢
    rw [removeKey_of_not_returns h]

theorem returns_addLocalRoute_iff (address : Cidr) (name : String) (index : BitVec 32) :
    (s.addLocalRoute address name index).Returns ↔ s.Room (Lpm.key 32 address.ip) ∧
      (address.len ≠ 32 → (Insert.insert address.network.key
        (Insert.insert (Lpm.key 32 address.ip) s.routingTable.keys)).card ≤ routingTableDim) := by
  unfold addLocalRoute
  rw [returns_andThen_iff, returns_set_iff]
  refine and_congr_right fun room => ?_
  rcases set_cases s (Lpm.key 32 address.ip) ⟨index, 0, .localInterface⟩ with
    ⟨-, table, -, keys, e⟩ | ⟨full, -⟩
  · rw [e]
    split_ifs with len
    · rw [returns_andThen_iff, returns_set_iff, forall_prop_of_true len, ← keys]
      refine and_iff_left ?_
      split_ifs <;> exact returns_ok
    · exact iff_of_true returns_ok fun h => absurd h len
  · exact absurd room full

theorem view_addLocalRoute {index : BitVec 32}
    (h : ¬ (s.addLocalRoute address name index).Returns) :
    view (s.addLocalRoute address name index).1 = (s.routes,
      if (s.Room (Lpm.key 32 address.ip)) then
        update s.routingTable.entry (Lpm.key 32 address.ip) (some (localEntry index))
      else s.routingTable.entry) := by
  unfold addLocalRoute at h ⊢
  rcases set_cases s (Lpm.key 32 address.ip) ⟨index, 0, .localInterface⟩ with
    ⟨room, table, entry, -, e⟩ | ⟨full, e⟩
  · rw [e] at h ⊢
    rw [andThen_of_returns returns_ok] at h ⊢
    dsimp only at h ⊢
    rw [if_pos room]
    split_ifs at h ⊢ with len
    · rcases set_cases { s with routingTable := table } address.network.key
          ⟨index, 0, .noLocalInterface⟩ with ⟨-, table', -, -, e'⟩ | ⟨-, e'⟩
      · rw [e', andThen_of_returns returns_ok] at h
        split_ifs at h <;> exact absurd returns_ok h
      · rw [e', andThen_of_not_returns not_returns_error]
        exact Prod.ext rfl entry
    · exact absurd returns_ok h
  · rw [e, andThen_of_not_returns not_returns_error, if_neg full]
    rfl

/-- The second store of a local route may find no place when the first one has. -/
theorem undone_addLocalRoute_iff (address : Cidr) (name : String) (index : BitVec 32) :
    (s.addLocalRoute address name index).Undone view s ↔ s.LocalFits address index := by
  have returns := returns_addLocalRoute_iff (s := s) address name index
  by_cases h : (s.addLocalRoute address name index).Returns
  · have fits := returns.1 h
    exact iff_of_true (undone_of_returns h) fun _ len => .inr (fits.2 len)
  rw [undone_iff_of_not_returns h, view_addLocalRoute h]
  rw [returns] at h
  unfold LocalFits view
  rw [Prod.mk.injEq, and_iff_right rfl]
  by_cases room : s.Room (Lpm.key 32 address.ip)
  · rw [if_pos room, forall_prop_of_true room, update_eq_self_iff, eq_comm]
    constructor
    · exact fun there _ => .inl there
    · intro fits
      by_contra changes
      exact h ⟨room, fun len => (fits len).resolve_left changes⟩
  · rw [if_neg room]
    exact iff_of_true rfl fun h => absurd h room

/-! ### Ports -/

def IpFits (name : String) (port : Port) (newIp : Cidr) (s : Filled) : Prop :=
  port.ip = some newIp ∨
    match port.ip with
    | none => s.LocalFits newIp port.index
    | some old =>
      (s.Removable old name ∨ s.NoRoutes old name) ∧
        (s.Removable old name →
          (newIp.len ≠ 32 → (Insert.insert newIp.network.key (Insert.insert (Lpm.key 32 newIp.ip)
            (s.removeLocalRoute old name).1.routingTable.keys)).card ≤ routingTableDim) ∨
          (s.NoRoutes old name ∧ newIp.ip = old.ip ∧
            s.routingTable.entry (Lpm.key 32 old.ip) = some (localEntry port.index)))

def Safe (s : Filled) : Request → Prop
  | .addRoute _ => True
  | .delRoute network nexthop =>
    ∀ r, (s.routes.find? fun r => r.network == network && r.nexthop == .ip nexthop) = some r →
      (s.without r).Replaceable r.network
  | .removeAllRoutes => True
  | .addLocalRoute address _ index => s.LocalFits address index
  | .removeLocalRoute address name => s.Removable address name ∨ s.NoRoutes address name
  | .setIp name ip => ∀ port, s.ports name = some port → s.IpFits name port ip
  | .addSecondaryip name address => ∀ port, s.ports name = some port → port.ip ≠ none →
    port.secondaryIps.length < maxSecondaryAddresses → s.LocalFits address port.index
  | .delSecondaryip name address => ∀ port, s.ports name = some port →
    address ∈ port.secondaryIps →
      let t := s.setPort name { port with secondaryIps := port.secondaryIps.erase address }
      t.Removable address name ∨ t.NoRoutes address name

theorem undone_setPort_iff {a : Attempt Filled String} {port : Port} :
    (a.andThen fun t => (t.setPort name port, .ok ())).Undone view s ↔ a.Undone view s := by
  rw [undone_andThen_iff]
  exact and_iff_left fun _ => undone_of_returns returns_ok

/-- When an address was removed there is a place for another one. -/
theorem room_of_removable {old : Cidr} (h : s.Removable old name)
    (k : ℕ × BitVec 32) : (s.removeLocalRoute old name).1.Room k := by
  have returns := (returns_removeLocalRoute_iff old name).2 h
  unfold removeLocalRoute at returns ⊢
  obtain ⟨first, last⟩ := returns_andThen_iff.1 returns
  rw [andThen_of_returns first]
  exact (Finset.card_insert_le _ _).trans (removeKey_of_returns last).2

/-- An address in place of another one: what is left of it without a place for its network. -/
theorem undone_addAfter_iff {old : Cidr} (removable : s.Removable old name)
    (newIp : Cidr) (index : BitVec 32) :
    ((s.removeLocalRoute old name).1.addLocalRoute newIp name index).Undone view s ↔
      (newIp.len ≠ 32 → (Insert.insert newIp.network.key (Insert.insert (Lpm.key 32 newIp.ip)
        (s.removeLocalRoute old name).1.routingTable.keys)).card ≤ routingTableDim) ∨
      (s.NoRoutes old name ∧ newIp.ip = old.ip ∧
        s.routingTable.entry (Lpm.key 32 old.ip) = some (localEntry index)) := by
  have room := room_of_removable removable (Lpm.key 32 newIp.ip)
  have returns := returns_addLocalRoute_iff (s := (s.removeLocalRoute old name).1) newIp name index
  rw [and_iff_right room] at returns
  by_cases h : ((s.removeLocalRoute old name).1.addLocalRoute newIp name index).Returns
  · exact iff_of_true (undone_of_returns h) (.inl (returns.1 h))
  rw [undone_iff_of_not_returns h, view_addLocalRoute h, if_pos room, ← returns, or_iff_right h]
  unfold view
  rw [Prod.mk.injEq]
  have removed : s.NoRoutes old name →
      (s.removeLocalRoute old name).1.routingTable.entry =
        update s.routingTable.entry (Lpm.key 32 old.ip) none ∧
      s.routingTable.entry (Lpm.key 32 old.ip) ≠ none := by
    intro none
    have whole := (returns_removeLocalRoute_iff old name).2 removable
    rw [removeLocalRoute_of_noRoutes none] at whole ⊢
    exact ⟨(removeKey_of_returns whole).1, (returns_removeKey_iff _).1 whole⟩
  constructor
  · rintro ⟨routes, entries⟩
    have none := noRoutes_of_length (s := s) old name (by rw [routes])
    obtain ⟨entry, there⟩ := removed none
    rw [entry] at entries
    by_cases same : newIp.ip = old.ip
    · rw [same, update_idem, update_eq_self_iff] at entries
      exact ⟨none, same, entries.symm⟩
    · have other : Lpm.key 32 old.ip ≠ Lpm.key 32 newIp.ip :=
        fun e => same (key32_injective e).symm
      have gone := congrFun entries (Lpm.key 32 old.ip)
      rw [update_of_ne other, update_self] at gone
      exact absurd gone.symm there
  · rintro ⟨none, same, there⟩
    rw [(removed none).1, same, update_idem, ← there, update_eq_self,
      removeLocalRoute_of_noRoutes none]
    exact ⟨routes_removeKey _ _, rfl⟩

theorem undone_doSetIp_iff (name : String) (port : Port) (newIp : Cidr) :
    (s.doSetIp name port newIp).Undone view s ↔ s.IpFits name port newIp := by
  unfold doSetIp IpFits
  by_cases same : port.ip = some newIp
  · rw [if_pos same]
    exact iff_of_true (undone_of_view rfl) (.inl same)
  rw [if_neg same, or_iff_right same]
  unfold removePrimary
  cases port.ip with
  | none =>
    rw [andThen_of_returns returns_ok, undone_setPort_iff]
    exact undone_addLocalRoute_iff newIp name port.index
  | some old =>
    rw [undone_andThen_iff, undone_removeLocalRoute_iff, returns_removeLocalRoute_iff]
    refine and_congr_right fun _ => forall_congr' fun removable => ?_
    rw [undone_setPort_iff]
    exact undone_addAfter_iff removable newIp port.index

theorem undone_addSecondaryip_iff (name : String) (port : Port) (address : Cidr) :
    (s.addSecondaryip name port address).Undone view s ↔
      (port.ip ≠ none → port.secondaryIps.length < maxSecondaryAddresses →
        s.LocalFits address port.index) := by
  unfold addSecondaryip
  cases port.ip with
  | none => exact iff_of_true (undone_of_view rfl) fun h => absurd rfl h
  | some ip =>
    rw [forall_prop_of_true (by rintro ⟨⟩)]
    split_ifs with full
    · exact iff_of_true (undone_of_view rfl) fun room => absurd full (not_le_of_gt room)
    · rw [forall_prop_of_true (not_le.1 full), undone_setPort_iff]
      exact undone_addLocalRoute_iff address name port.index

theorem undone_delSecondaryip_iff (name : String) (port : Port) (address : Cidr) :
    (s.delSecondaryip name port address).Undone view s ↔ (address ∈ port.secondaryIps →
      let t := s.setPort name { port with secondaryIps := port.secondaryIps.erase address }
      t.Removable address name ∨ t.NoRoutes address name) := by
  unfold delSecondaryip
  split_ifs with there
  · rw [forall_prop_of_true there]
    exact undone_removeLocalRoute_iff (s := s.setPort name _) address name
  · exact iff_of_true (undone_of_view rfl) fun h => absurd h there

theorem undone_onPort_iff {f : Port → Change} :
    (s.onPort name f).Undone view s ↔
      ∀ port, s.ports name = some port → (f port s).Undone view s := by
  unfold onPort
  cases h : s.ports name with
  | none =>
    have missing : getPort s.toRouter name = .error "Port does not exist" := by
      unfold getPort
      rw [show s.toRouter.ports name = none from h]
    rw [missing]
    exact iff_of_true (undone_of_view rfl) (by rintro port ⟨⟩)
  | some port =>
    have there : getPort s.toRouter name = .ok port := by
      unfold getPort
      rw [show s.toRouter.ports name = some port from h]
    rw [there]
    simp only [Option.some.injEq, forall_eq']

/-- A request that throws leaves the routes and the routing table as they were if and only if it
adds a static route, removes all of them, or meets the condition on what it erases or stores
first. -/
theorem asItWas_iff (r : Request) (s : Filled) : AsItWas r s ↔ Safe s r := by
  unfold AsItWas
  cases r with
  | addRoute conf => exact iff_of_true (undone_addRoute conf) trivial
  | delRoute network nexthop => exact undone_delRoute_iff network nexthop
  | removeAllRoutes => exact iff_of_true undone_removeAllRoutes trivial
  | addLocalRoute address name index => exact undone_addLocalRoute_iff address name index
  | removeLocalRoute address name => exact undone_removeLocalRoute_iff address name
  | setIp name ip =>
    exact undone_onPort_iff.trans (forall₂_congr fun port _ => undone_doSetIp_iff name port ip)
  | addSecondaryip name address =>
    exact undone_onPort_iff.trans
      (forall₂_congr fun port _ => undone_addSecondaryip_iff name port address)
  | delSecondaryip name address =>
    exact undone_onPort_iff.trans
      (forall₂_congr fun port _ => undone_delSecondaryip_iff name port address)

def onePort : Filled where
  routes := []
  ports := fun name => if name = "eth0" then some ⟨1, some ⟨0x0A000001, 24⟩, []⟩ else none
  routingTable := Bounded.empty

def host : Cidr := ⟨0x0A000002, 32⟩

def twoRoutes : Filled :=
  (((onePort.addLocalRoute ⟨0x0A000001, 24⟩ "eth0" 1).1.addRoute
    ⟨host, 0xC0A80909, some "eth0", 5, true⟩).1.addRoute ⟨host, 0x0A000002, none, 1, true⟩).1

theorem not_asItWas_delRoute : ¬ AsItWas (.delRoute host 0x0A000002) twoRoutes := by
  intro undone
  have found : (twoRoutes.routes.find? fun r =>
      r.network == host && r.nexthop == .ip 0x0A000002) =
        some ⟨host, .ip 0x0A000002, "eth0", 1, true⟩ := by rfl
  obtain ⟨value, looked, other⟩ := (undone_delRoute_iff host 0x0A000002).1 undone _ found
  have active : (some value : Option RtV) = some ⟨1, 0x0A000002, .noLocalInterface⟩ := by
    rw [← looked]
    rfl
  obtain rfl := Option.some.inj active
  obtain ⟨⟨port, reached⟩, -⟩ := other rfl
  cases reached

end Filled

end Polycube.Router
