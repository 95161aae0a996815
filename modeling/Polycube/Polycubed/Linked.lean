import Polycube.Lib.Run
import Polycube.Polycubed.Peers

/-!
# Links follow the peer strings

Two ports are to be linked exactly when each names the other.  `Inv` is what makes it so: links are
mutual, a linked port names its partner, and two ports that name each other are linked.  An
operation whose calls return keeps it exactly when what `portsToPorts` remembers of the other port is
still what that port asks for, and when one that fails finds its port without a link.
-/

namespace Polycube.Polycubed

open Function Lib

/-! ### Paths -/

theorem lastColon_eq {cs cube port : List Char} (h : lastColon cs = some (cube, port)) :
    cs = cube ++ ':' :: port := by
  induction cs generalizing cube with
  | nil => cases h
  | cons c cs ih =>
    rw [lastColon] at h
    cases hrest : lastColon cs with
    | some r =>
      simp only [hrest, Option.some.injEq, Prod.mk.injEq] at h
      obtain ⟨rfl, rfl⟩ := h
      rw [ih hrest, List.cons_append]
    | none =>
      simp only [hrest, Option.ite_none_right_eq_some, Option.some.injEq, Prod.mk.injEq] at h
      obtain ⟨⟨rfl, -⟩, rfl, rfl⟩ := h
      rfl

theorem path_of_parse {peer cube port : String} (h : parsePeerName peer = some (cube, port)) :
    (PortId.mk cube port).path = peer := by
  unfold parsePeerName at h
  split_ifs at h with white
  cases hlast : lastColon peer.toList with
  | none => simp [hlast] at h
  | some r =>
    simp only [hlast, Option.ite_none_left_eq_some, Option.some.injEq, Prod.mk.injEq] at h
    obtain ⟨-, rfl, rfl⟩ := h
    apply String.toList_inj.1
    simp [PortId.path, lastColon_eq hlast]

theorem colon_mem_path (p : PortId) : ':' ∈ p.path.toList := by
  simp [PortId.path]

theorem path_ne_empty (p : PortId) : p.path ≠ "" := by
  intro h
  have := colon_mem_path p
  simp [h] at this

namespace Topology

variable {t : Topology} {p q : PortId} {name : String}

theorem iface_ne_path (h : t.availableIfaces name = true) : name ≠ p.path := by
  rintro rfl
  exact t.iface_no_colon _ h (colon_mem_path p)

theorem availableIfaces_path : t.availableIfaces p.path = false :=
  Bool.eq_false_iff.2 fun h => t.iface_ne_path h rfl

theorem path_inj' (hp : (t.portType p).isSome) (hq : (t.portType q).isSome)
    (h : p.path = q.path) : p = q := t.path_inj p q hp hq h

theorem getPort_eq_ok {cube port noCube : String} (h : t.getPort cube port noCube = .ok p) :
    p = ⟨cube, port⟩ ∧ (t.portType p).isSome := by
  unfold getPort at h
  cases hcube : t.cubes cube with
  | none => simp [hcube] at h
  | some c =>
    cases c with
    | transparent => simp [hcube] at h
    | standard ports =>
      cases hport : ports port with
      | none => simp [hcube, hport] at h
      | some type =>
        simp only [hcube, hport, Except.ok.injEq] at h
        refine ⟨h.symm, ?_⟩
        rw [← h, portType]
        simp [hcube, Cube.port, hport]

theorem getPort_ok_congr {cube port noCube : String} (noCube' : String)
    (h : t.getPort cube port noCube = .ok p) : t.getPort cube port noCube' = .ok p := by
  unfold getPort at h ⊢
  cases hcube : t.cubes cube with
  | none => simp [hcube] at h
  | some c =>
    rw [hcube] at h
    cases c <;> exact h

theorem findPort_eq_ok (h : t.findPort name = .ok p) :
    p.path = name ∧ (t.portType p).isSome := by
  unfold findPort at h
  cases hparse : parsePeerName name with
  | none => simp [hparse] at h
  | some r =>
    rw [hparse] at h
    obtain ⟨rfl, hp⟩ := getPort_eq_ok h
    exact ⟨path_of_parse hparse, hp⟩

end Topology

@[simp] def PeerIface.name : PeerIface → String
  | .port p => p.path
  | .iface name => name

namespace Peers

/-! ### The invariant -/

structure Inv (t : Topology) (s : Peers) : Prop where
  symm : ∀ a b, s.link a = some b → s.link b = some a
  names : ∀ p e, s.link (.port p) = some e → s.peer p = e.name
  iface : ∀ x e, s.link (.iface x) = some e →
    t.availableIfaces x = true ∧ x ≠ "" ∧ ∃ p, e = .port p
  linked : ∀ p q, (t.portType p).isSome → (t.portType q).isSome → s.peer p = q.path →
    s.peer q = p.path → s.link (.port p) = some (.port q)
  known : ∀ p, s.peer p ≠ "" → (t.portType p).isSome

variable {t : Topology} {s : Peers} {p q : PortId} {name : String} {e : PeerIface}

theorem Inv.fresh : Inv t fresh where
  symm _ _ h := by cases h
  names _ _ h := by cases h
  iface _ _ h := by cases h
  linked _ q _ _ h _ := absurd h.symm (path_ne_empty q)
  known _ h := absurd rfl h

theorem Inv.name_ne_empty (inv : Inv t s) (h : s.link (.port p) = some e) : e.name ≠ "" := by
  cases e with
  | port q => exact path_ne_empty q
  | iface x => exact (inv.iface x _ (inv.symm _ _ h)).2.1

theorem Inv.link_of_peer_empty (inv : Inv t s) (h : s.peer p = "") :
    s.link (.port p) = none := by
  rw [Option.eq_none_iff_forall_ne_some]
  intro e he
  exact inv.name_ne_empty he ((inv.names p e he).symm.trans h)

/-! ### Links when no call throws -/

def cleared (s : Peers) (p : PortId) : Peers :=
  match s.link (.port p) with
  | none => s
  | some old => { s with link := update (update s.link (.port p) none) old none }

def joined (s : Peers) (a b : PeerIface) : Peers :=
  { s with link := update (update s.link a (some b)) b (some a) }

theorem clear_quiet (s : Peers) (p : PortId) : s.clear .quiet p = .returned (s.cleared p) := by
  unfold clear cleared
  cases s.link (.port p) <;> rfl

theorem onIface_none (s : Peers) (p : PortId) : s.onIface p none = none := by
  unfold onIface
  split <;> rfl

theorem setPortPeer_quiet (p : PortId) (name : String) (s : Peers) : setPortPeer t .quiet p name s =
    if name = "" then .returned (s.cleared p)
    else if t.availableIfaces name then
      if ((s.cleared p).link (.iface name)).isSome then .threw "Iface already in use" (s.cleared p)
      else .returned ((s.cleared p).joined (.port p) (.iface name))
    else
      match t.findPort name with
      | .error err => .threw err (s.cleared p)
      | .ok q =>
        if t.portType p ≠ t.portType q then
          .threw "It is not possible to connect TC and XDP ports" (s.cleared p)
        else if ((s.cleared p).emplace p.path name).portsToPorts name = some p.path then
          if q = p then .hangs
          else .returned (((s.cleared p).emplace p.path name).joined (.port p) (.port q))
        else .returned ((s.cleared p).emplace p.path name) := by
  rw [setPortPeer, clear_quiet]
  rfl

theorem joined_link (a b : PeerIface) : (s.joined a b).link =
    update (update s.link a (some b)) b (some a) := rfl

theorem cleared_of_none (h : s.link (.port p) = none) : s.cleared p = s := by
  rw [cleared, h]

@[simp] theorem cleared_peer : (s.cleared p).peer = s.peer := by
  unfold cleared
  cases s.link (.port p) <;> rfl

@[simp] theorem cleared_portsToPorts : (s.cleared p).portsToPorts = s.portsToPorts := by
  unfold cleared
  cases s.link (.port p) <;> rfl

theorem Inv.cleared_link (inv : Inv t s) (a : PeerIface) :
    (s.cleared p).link a =
      if a = .port p ∨ s.link a = some (.port p) then none else s.link a := by
  unfold cleared
  cases hp : s.link (.port p) with
  | none =>
    split_ifs with h
    · rcases h with rfl | h
      · exact hp
      · rw [inv.symm _ _ h] at hp
        cases hp
    · rfl
  | some old =>
    dsimp only
    by_cases hold : a = old
    · rw [hold, update_self, if_pos (.inr (inv.symm _ _ hp))]
    · rw [update_of_ne hold]
      by_cases hap : a = .port p
      · rw [hap, update_self, if_pos (.inl rfl)]
      · rw [update_of_ne hap, if_neg]
        rintro (h | h)
        · exact hap h
        · rw [inv.symm _ _ h] at hp
          exact hold (Option.some.inj hp)

theorem Inv.cleared_eq_some_iff (inv : Inv t s) {a b : PeerIface} :
    (s.cleared p).link a = some b ↔ s.link a = some b ∧ a ≠ .port p ∧ b ≠ .port p := by
  rw [inv.cleared_link]
  split_ifs with h
  · refine iff_of_false (by simp) ?_
    rintro ⟨hb, ha, hbp⟩
    rcases h with h | h
    · exact ha h
    · exact hbp (Option.some.inj (hb.symm.trans h))
  · rw [not_or] at h
    refine ⟨fun hb => ⟨hb, h.1, ?_⟩, fun hb => hb.1⟩
    rintro rfl
    exact h.2 hb

/-- A port that takes its link down and asks for one that does not ask for it. -/
theorem Inv.release (inv : Inv t s) (name : String) (hp : (t.portType p).isSome)
    (free : ∀ q, (t.portType q).isSome → name = q.path → q ≠ p ∧ s.peer q ≠ p.path)
    (m : Table String String) :
    Inv t ⟨update s.peer p name, (s.cleared p).link, m⟩ where
  symm a b h := by
    obtain ⟨hab, ha, hb⟩ := inv.cleared_eq_some_iff.1 h
    exact inv.cleared_eq_some_iff.2 ⟨inv.symm _ _ hab, hb, ha⟩
  names r e h := by
    obtain ⟨hre, hr, -⟩ := inv.cleared_eq_some_iff.1 h
    have other : r ≠ p := fun e => hr (congrArg _ e)
    simpa only [update_of_ne other] using inv.names r e hre
  iface x e h := inv.iface x e (inv.cleared_eq_some_iff.1 h).1
  linked a b ha hb hab hba := by
    by_cases hap : a = p
    · subst hap
      simp only [update_self] at hab
      obtain ⟨hne, hpeer⟩ := free b hb hab
      exact absurd (by simpa only [update_of_ne hne] using hba) hpeer
    · by_cases hbp : b = p
      · subst hbp
        simp only [update_self] at hba
        exact absurd (by simpa only [update_of_ne hap] using hab) (free a ha hba).2
      · simp only [update_of_ne hap, update_of_ne hbp] at hab hba
        exact inv.cleared_eq_some_iff.2 ⟨inv.linked a b ha hb hab hba,
          fun e => hap (PeerIface.port.inj e), fun e => hbp (PeerIface.port.inj e)⟩
  known r h := by
    by_cases hr : r = p
    · exact hr ▸ hp
    · exact inv.known r (by simpa only [update_of_ne hr] using h)

theorem Inv.relink (inv : Inv t s) (hp : (t.portType p).isSome) (hne : e ≠ .port p)
    (hfree : (s.cleared p).link e = none)
    (hport : ∀ q, e = .port q → (t.portType q).isSome ∧ s.peer q = p.path)
    (hiface : ∀ x, e = .iface x → t.availableIfaces x = true ∧ x ≠ "") (m : Table String String) :
    Inv t ⟨update s.peer p e.name, ((s.cleared p).joined (.port p) e).link, m⟩ := by
  have self : ((s.cleared p).joined (.port p) e).link (.port p) = some e := by
    rw [joined_link, update_of_ne hne.symm, update_self]
  have partner : ((s.cleared p).joined (.port p) e).link e = some (.port p) := by
    rw [joined_link, update_self]
  have other : ∀ a, a ≠ .port p → a ≠ e →
      ((s.cleared p).joined (.port p) e).link a = (s.cleared p).link a := by
    intro a ha hae
    rw [joined_link, update_of_ne hae, update_of_ne ha]
  -- the links of the others are theirs among themselves
  have among : ∀ a b, a ≠ .port p → a ≠ e →
      (((s.cleared p).joined (.port p) e).link a = some b ↔
        s.link a = some b ∧ b ≠ .port p ∧ b ≠ e) := by
    intro a b ha hae
    rw [other a ha hae, inv.cleared_eq_some_iff]
    refine ⟨fun ⟨hab, _, hb⟩ => ⟨hab, hb, ?_⟩, fun ⟨hab, hb, _⟩ => ⟨hab, ha, hb⟩⟩
    rintro rfl
    rw [inv.cleared_eq_some_iff.2 ⟨inv.symm _ _ hab, hb, ha⟩] at hfree
    cases hfree
  constructor
  · intro a b h
    by_cases ha : a = .port p
    · subst ha
      obtain rfl := Option.some.inj (self.symm.trans h)
      exact partner
    · by_cases hae : a = e
      · subst hae
        obtain rfl := Option.some.inj (partner.symm.trans h)
        exact self
      · obtain ⟨hab, hb, hbe⟩ := (among a b ha hae).1 h
        exact (among b a hb hbe).2 ⟨inv.symm _ _ hab, ha, hae⟩
  · intro r f h
    by_cases hr : r = p
    · subst hr
      obtain rfl := Option.some.inj (self.symm.trans h)
      exact update_self _ _ _
    · have hr' : PeerIface.port r ≠ .port p := fun h => hr (PeerIface.port.inj h)
      dsimp only
      rw [update_of_ne hr]
      by_cases hre : PeerIface.port r = e
      · subst hre
        obtain rfl := Option.some.inj (partner.symm.trans h)
        exact (hport r rfl).2
      · exact inv.names r f ((among _ f hr' hre).1 h).1
  · intro x f h
    by_cases hx : PeerIface.iface x = e
    · subst hx
      obtain rfl := Option.some.inj (partner.symm.trans h)
      exact ⟨(hiface x rfl).1, (hiface x rfl).2, p, rfl⟩
    · exact inv.iface x f ((among _ f (by simp) hx).1 h).1
  · intro a b ha hb hab hba
    dsimp only at hab hba ⊢
    by_cases hap : a = p
    · subst hap
      rw [update_self] at hab
      -- what the port asks for is the port at the other end
      cases e with
      | iface x => exact absurd hab (t.iface_ne_path (hiface x rfl).1)
      | port q =>
        obtain rfl := t.path_inj' (hport q rfl).1 hb hab
        exact self
    · rw [update_of_ne hap] at hab
      by_cases hbp : b = p
      · subst hbp
        rw [update_self] at hba
        cases e with
        | iface x => exact absurd hba (t.iface_ne_path (hiface x rfl).1)
        | port q =>
          obtain rfl := t.path_inj' (hport q rfl).1 ha hba
          exact partner
      · rw [update_of_ne hbp] at hba
        have linked := inv.linked a b ha hb hab hba
        have hap' : PeerIface.port a ≠ .port p := fun h => hap (PeerIface.port.inj h)
        have hbp' : PeerIface.port b ≠ .port p := fun h => hbp (PeerIface.port.inj h)
        have hae : PeerIface.port a ≠ e := by
          rintro rfl
          exact hbp (t.path_inj' hb hp (hab.symm.trans (hport a rfl).2))
        have hbe : PeerIface.port b ≠ e := by
          rintro rfl
          exact hap (t.path_inj' ha hp (hba.symm.trans (hport b rfl).2))
        exact (among _ _ hap' hae).2 ⟨linked, hbp', hbe⟩
  · intro r h
    by_cases hr : r = p
    · exact hr ▸ hp
    · exact inv.known r (by simpa only [update_of_ne hr] using h)

end Peers

def Linked (t : Topology) (s : Peers) : Prop :=
  ∀ p q, (t.portType p).isSome → (t.portType q).isSome →
    (s.link (.port p) = some (.port q) ∧ s.link (.port q) = some (.port p) ↔
      s.peer p = q.path ∧ s.peer q = p.path)

def Kept (s s' : Peers) : Prop :=
  s'.peer = s.peer ∧ ∀ p, s'.link (.port p) = s.link (.port p)

/-- The operation ends; the links follow the peer strings, and one that throws has not changed a
port. -/
def Result.Good (t : Topology) (s : Peers) : Result → Prop
  | .returned s' => Linked t s'
  | .threw _ s' => Kept s s' ∧ Linked t s'
  | .hangs => False

/-- Setting the peer of a port is safe: it does nothing, or what would fail finds no link, or the
port it asks for is another one, which is remembered to ask for this one exactly when it does. -/
def Settles (t : Topology) (s : Peers) (p : PortId) (peer : String) : Prop :=
  s.peer p = peer ∨ peer = "" ∨
    if t.availableIfaces peer then
      s.link (.iface peer) = none ∨ s.link (.port p) = none
    else
      match t.findPort peer with
      | .error _ => s.link (.port p) = none
      | .ok q =>
        if t.portType p ≠ t.portType q then s.link (.port p) = none
        else q ≠ p ∧ (s.portsToPorts peer = some p.path ↔ s.peer q = p.path)

/-- Connecting two ports without peers is safe when they are two, and the first has never asked for
another port. -/
def Joins (t : Topology) (s : Peers) (peer₁ peer₂ : String) : Prop :=
  ∀ p q, t.findPort peer₁ = .ok p → t.findPort peer₂ = .ok q → s.peer p = "" → s.peer q = "" →
    t.portType p = t.portType q →
      p ≠ q ∧ (s.portsToPorts peer₁ = none ∨ s.portsToPorts peer₁ = some peer₂)

/-- The calls of an operation return.  One that is not made counts as one that does. -/
def PeerOp.Quiet : PeerOp → Prop
  | .setPeer _ _ o => o = .quiet
  | .connect _ _ o₁ o₂ | .disconnect _ _ o₁ o₂ => o₁ = .quiet ∧ o₂ = .quiet

/-- The first call may throw: nothing has been changed then. -/
def Safe (t : Topology) (s : Peers) : PeerOp → Prop
  | .setPeer p peer o => (t.portType p).isSome →
      (s.peer p ≠ peer ∧ s.onIface p o.unsubscribe ≠ none) ∨ (o = .quiet ∧ Settles t s p peer)
  | .connect peer₁ peer₂ o₁ o₂ => (o₁ = .quiet ∧ o₂ = .quiet) ∧ Joins t s peer₁ peer₂
  | .disconnect _ _ o₁ o₂ => o₁ = .quiet ∧ o₂ = .quiet

namespace Peers

variable {t : Topology} {s : Peers} {p q : PortId} {name : String}

theorem Inv.toLinked (inv : Inv t s) : Linked t s := by
  intro p q hp hq
  constructor
  · rintro ⟨hpq, hqp⟩
    exact ⟨inv.names p _ hpq, inv.names q _ hqp⟩
  · rintro ⟨hpq, hqp⟩
    exact ⟨inv.linked p q hp hq hpq hqp, inv.linked q p hq hp hqp hpq⟩

/-! ### Setting the peer of a port -/

def Fine (t : Topology) (s : Peers) (r : Result) : Prop :=
  r.Good t s ∧ match r with
    | .returned s' | .threw _ s' => Inv t s'
    | .hangs => True

theorem Inv.returned {s' : Peers} (inv : Inv t s') : Fine t s (.returned s') :=
  ⟨inv.toLinked, inv⟩

theorem Inv.threw (inv : Inv t s) (err : String) : Fine t s (.threw err s) :=
  ⟨⟨⟨rfl, fun _ => rfl⟩, inv.toLinked⟩, inv⟩

/-- An operation that throws after the link is down is good only if there was none. -/
theorem Inv.threw_cleared_iff (inv : Inv t s) (err : String) :
    (s.link (.port p) = none → Fine t s (.threw err (s.cleared p))) ∧
      (Result.Good t s (.threw err (s.cleared p)) → s.link (.port p) = none) := by
  constructor
  · intro h
    rw [cleared_of_none h]
    exact inv.threw err
  · rintro ⟨⟨-, kept⟩, -⟩
    rw [← kept p, inv.cleared_link, if_pos (.inl rfl)]

theorem setPeer_eq (h : s.peer p ≠ name) : setPeer t .quiet p name s =
    (setPortPeer t .quiet p name s).andThen fun s' =>
      .returned { s' with peer := update s'.peer p name } := by
  rw [setPeer, if_neg h]
  simp only [Calls.quiet, onIface_none]
  rfl

/-- Asking for no peer only takes the link down. -/
theorem setPeer_empty (inv : Inv t s) (hp : (t.portType p).isSome) :
    ∃ s', setPeer t .quiet p "" s = .returned s' ∧ Inv t s' := by
  by_cases h : s.peer p = ""
  · exact ⟨s, if_pos h, inv⟩
  · refine ⟨{ s.cleared p with peer := update s.peer p "" }, ?_, ?_⟩
    · rw [setPeer_eq h, setPortPeer_quiet, if_pos rfl]
      simp [Result.andThen]
    · exact inv.release _ hp (fun q _ hq => absurd hq.symm (path_ne_empty q)) _

theorem setPeer_iface (inv : Inv t s) (hp : (t.portType p).isSome) (h : s.peer p ≠ name)
    (hempty : name ≠ "") (up : t.availableIfaces name = true) :
    (s.link (.iface name) = none ∨ s.link (.port p) = none →
        Fine t s (setPeer t .quiet p name s)) ∧
      ((setPeer t .quiet p name s).Good t s →
        s.link (.iface name) = none ∨ s.link (.port p) = none) := by
  -- the port is not linked to this interface, whose name it would have
  have same : (s.cleared p).link (.iface name) = s.link (.iface name) := by
    rw [inv.cleared_link, if_neg]
    rintro (e | e)
    · cases e
    · exact h (inv.names p _ (inv.symm _ _ e))
  rw [setPeer_eq h, setPortPeer_quiet, if_neg hempty, if_pos up, same]
  by_cases used : (s.link (.iface name)).isSome
  · rw [if_pos used]
    have some := Option.isSome_iff_ne_none.1 used
    obtain ⟨safe, good⟩ := inv.threw_cleared_iff (p := p) "Iface already in use"
    exact ⟨fun hor => safe (hor.resolve_left some), fun hgood => .inr (good hgood)⟩
  · rw [if_neg used]
    have free : s.link (.iface name) = none := Option.not_isSome_iff_eq_none.1 used
    refine ⟨fun _ => Inv.returned ?_, fun _ => .inl free⟩
    have relinked := inv.relink (e := .iface name) hp (by simp) (same.trans free)
      (fun q e => by cases e) (fun x e => by cases e; exact ⟨up, hempty⟩)
      ((s.cleared p).joined (.port p) (.iface name)).portsToPorts
    simpa [joined] using relinked

theorem setPeer_port (hfind : t.findPort name = .ok q) (h : s.peer p ≠ name)
    (htype : t.portType p = t.portType q) (hne : q ≠ p)
    (hp : (t.portType p).isSome) : setPeer t .quiet p name s =
      .returned ⟨update s.peer p name,
        if s.portsToPorts name = some p.path then
          ((s.cleared p).joined (.port p) (.port q)).link
        else (s.cleared p).link,
        update s.portsToPorts p.path ((s.portsToPorts p.path).or (some name))⟩ := by
  obtain ⟨hpath, hq⟩ := t.findPort_eq_ok hfind
  have hempty : name ≠ "" := hpath ▸ path_ne_empty q
  have notIface : ¬ t.availableIfaces name = true := by
    rw [← hpath, t.availableIfaces_path]
    decide
  have other : name ≠ p.path := fun e => hne (t.path_inj' hq hp (hpath.trans e))
  rw [setPeer_eq h, setPortPeer_quiet, if_neg hempty, if_neg notIface, hfind]
  simp only [htype, ne_eq, not_true_eq_false, if_false, if_neg hne]
  have remembered : ((s.cleared p).emplace p.path name).portsToPorts name = s.portsToPorts name := by
    simp only [emplace, update_of_ne other, cleared_portsToPorts]
  rw [remembered]
  by_cases hmap : s.portsToPorts name = some p.path
  · rw [if_pos hmap, if_pos hmap]
    simp [Result.andThen, joined, emplace]
  · rw [if_neg hmap, if_neg hmap]
    simp [Result.andThen, emplace]

theorem setPeer_self (inv : Inv t s) (hfind : t.findPort name = .ok p) (h : s.peer p ≠ name) :
    ¬ (setPeer t .quiet p name s).Good t s := by
  obtain ⟨hpath, hp⟩ := t.findPort_eq_ok hfind
  have hempty : name ≠ "" := hpath ▸ path_ne_empty p
  have notIface : ¬ t.availableIfaces name = true := by
    rw [← hpath, t.availableIfaces_path]
    decide
  rw [setPeer_eq h, setPortPeer_quiet, if_neg hempty, if_neg notIface, hfind]
  simp only [ne_eq, not_true_eq_false, if_false, if_true]
  split_ifs with hmap
  · exact id
  · intro good
    have linked := (good p p hp hp).2 (by simp [hpath])
    have down : (s.cleared p).link (.port p) = none := by
      rw [inv.cleared_link, if_pos (.inl rfl)]
    have up := linked.1
    simp only [emplace, down] at up
    cases up

theorem setPeer_port_iff (inv : Inv t s) (hp : (t.portType p).isSome)
    (hfind : t.findPort name = .ok q) (h : s.peer p ≠ name)
    (htype : t.portType p = t.portType q) (hne : q ≠ p) :
    ((s.portsToPorts name = some p.path ↔ s.peer q = p.path) →
        Fine t s (setPeer t .quiet p name s)) ∧
      ((setPeer t .quiet p name s).Good t s →
        (s.portsToPorts name = some p.path ↔ s.peer q = p.path)) := by
  obtain ⟨rfl, hq⟩ := t.findPort_eq_ok hfind
  rw [setPeer_port hfind h htype hne hp]
  have hne' : PeerIface.port q ≠ .port p := fun e => hne (PeerIface.port.inj e)
  constructor
  · intro agree
    refine Inv.returned ?_
    by_cases hmap : s.portsToPorts q.path = some p.path
    · rw [if_pos hmap]
      have asks := agree.1 hmap
      -- the port that asks for this one has no link: it would name its partner
      have free : (s.cleared p).link (.port q) = none := by
        rw [Option.eq_none_iff_forall_ne_some]
        intro e he
        obtain ⟨hqe, -, hep⟩ := inv.cleared_eq_some_iff.1 he
        have named := (inv.names q e hqe).symm.trans asks
        cases e with
        | iface x =>
          exact t.iface_ne_path (inv.iface x _ (inv.symm _ _ hqe)).1 named
        | port r =>
          have hr : (t.portType r).isSome := inv.known r (by
            rw [inv.names r _ (inv.symm _ _ hqe)]
            exact path_ne_empty q)
          exact hep (congrArg _ (t.path_inj' hr hp named))
      refine inv.relink (e := .port q) hp hne' free (fun r e => ?_) (fun x e => by cases e) _
      obtain rfl := PeerIface.port.inj e
      exact ⟨hq, asks⟩
    · rw [if_neg hmap]
      refine inv.release _ hp (fun r hr hrq => ?_) _
      obtain rfl := t.path_inj' hq hr hrq
      exact ⟨hne, fun asks => hmap (agree.2 asks)⟩
  · intro good
    have due := good p q hp hq
    dsimp only at due
    rw [update_self, update_of_ne hne] at due
    constructor
    · intro hmap
      rw [if_pos hmap, joined_link, update_of_ne hne'.symm, update_self,
        update_self] at due
      exact (due.1 ⟨rfl, rfl⟩).2
    · intro asks
      by_contra hmap
      rw [if_neg hmap] at due
      have up := (due.2 ⟨rfl, asks⟩).1
      rw [inv.cleared_link, if_pos (.inl rfl)] at up
      cases up

theorem setPeer_mismatch (hfind : t.findPort name = .ok q) (h : s.peer p ≠ name)
    (htype : t.portType p ≠ t.portType q) : setPeer t .quiet p name s =
      .threw "It is not possible to connect TC and XDP ports" (s.cleared p) := by
  obtain ⟨rfl, hq⟩ := t.findPort_eq_ok hfind
  have notIface : ¬ t.availableIfaces q.path = true := by
    rw [t.availableIfaces_path]
    decide
  rw [setPeer_eq h, setPortPeer_quiet, if_neg (path_ne_empty q), if_neg notIface, hfind]
  simp only [if_pos htype, ne_eq]
  rfl

theorem peer_of_setPeer {s' : Peers} (h : setPeer t .quiet p name s = .returned s') :
    s'.peer p = name := by
  by_cases same : s.peer p = name
  · rw [setPeer, if_pos same] at h
    obtain rfl := Result.returned.inj h
    exact same
  · rw [setPeer_eq same] at h
    cases hset : setPortPeer t .quiet p name s with
    | returned s₁ =>
      rw [hset] at h
      obtain rfl := Result.returned.inj h
      exact update_self _ _ _
    | threw err s₁ => simp [hset, Result.andThen] at h
    | hangs => simp [hset, Result.andThen] at h

theorem setPeer_iff (name : String) (inv : Inv t s) (hp : (t.portType p).isSome) :
    (Settles t s p name → Fine t s (setPeer t .quiet p name s)) ∧
      ((setPeer t .quiet p name s).Good t s → Settles t s p name) := by
  by_cases h : s.peer p = name
  · exact ⟨fun _ => by rw [setPeer, if_pos h]; exact inv.returned, fun _ => .inl h⟩
  by_cases hempty : name = ""
  · subst hempty
    obtain ⟨s', hs', inv'⟩ := setPeer_empty inv hp
    exact ⟨fun _ => by rw [hs']; exact inv'.returned, fun _ => .inr (.inl rfl)⟩
  unfold Settles
  simp only [h, hempty, false_or]
  by_cases up : t.availableIfaces name = true
  · rw [if_pos up]
    exact setPeer_iface inv hp h hempty up
  rw [if_neg up]
  cases hfind : t.findPort name with
  | error err =>
    have failed : setPeer t .quiet p name s = .threw err (s.cleared p) := by
      rw [setPeer_eq h, setPortPeer_quiet, if_neg hempty, if_neg up, hfind]
      rfl
    rw [failed]
    exact inv.threw_cleared_iff err
  | ok q =>
    dsimp only
    by_cases htype : t.portType p = t.portType q
    · rw [if_neg (not_not.2 htype)]
      by_cases hne : q = p
      · subst hne
        exact ⟨fun hs => absurd rfl hs.1, fun good => absurd good (setPeer_self inv hfind h)⟩
      · obtain ⟨safe, good⟩ := setPeer_port_iff inv hp hfind h htype hne
        exact ⟨fun hs => safe hs.2, fun hg => ⟨hne, good hg⟩⟩
    · rw [if_pos htype]
      rw [setPeer_mismatch hfind h htype]
      exact inv.threw_cleared_iff _

/-! ### Connecting and disconnecting -/

theorem andThen_returned (r : Result) : r.andThen .returned = r := by
  cases r <;> rfl

/-- What a name is to `connect` and `disconnect`: no port at all, an error, or a port. -/
theorem name_cases (t : Topology) (name : String) :
    (parsePeerName name = none ∧ (∀ s, getPortPeer t s name = .ok "") ∧
      (∀ peer s, tryToSetPeer t .quiet name peer s = .returned s) ∧
      ∃ err, t.findPort name = .error err) ∨
    (∃ err, (∀ s, getPortPeer t s name = .error err) ∧ ∀ p, t.findPort name ≠ .ok p) ∨
    ∃ p, (t.portType p).isSome ∧ p.path = name ∧ t.findPort name = .ok p ∧
      (parsePeerName name).isNone = false ∧
      (∀ s, getPortPeer t s name = .ok (s.peer p)) ∧
      ∀ peer s, tryToSetPeer t .quiet name peer s = setPeer t .quiet p peer s := by
  cases hparse : parsePeerName name with
  | none =>
    exact .inl ⟨rfl, fun s => by simp [getPortPeer, hparse],
      fun peer s => by simp [tryToSetPeer, hparse], _, by rw [Topology.findPort, hparse]⟩
  | some r =>
    cases hport : t.getPort r.1 r.2 "Cube does not exist" with
    | error err =>
      refine .inr (.inl ⟨err, fun s => by simp [getPortPeer, hparse, hport], fun p hp => ?_⟩)
      rw [Topology.findPort, hparse] at hp
      have found := t.getPort_ok_congr "Cube does not exist" hp
      rw [hport] at found
      cases found
    | ok p =>
      obtain ⟨rfl, hp⟩ := t.getPort_eq_ok hport
      refine .inr (.inr ⟨_, hp, path_of_parse hparse, ?_, rfl,
        fun s => by simp [getPortPeer, hparse, hport],
        fun peer s => by
          simp only [tryToSetPeer, hparse, hport]
          exact andThen_returned _⟩)
      simp only [Topology.findPort, hparse]
      exact t.getPort_ok_congr _ hport

/-- A port without a peer takes any answer but that of a port. -/
theorem settles_of_error (inv : Inv t s) (hpeer : s.peer p = "") {err : String}
    (hfind : t.findPort name = .error err) : Settles t s p name := by
  have down := inv.link_of_peer_empty hpeer
  refine .inr (.inr ?_)
  split_ifs
  · exact .inr down
  · rw [hfind]
    exact down

theorem connect_ports (inv : Inv t s) (hp : (t.portType p).isSome) (hq : (t.portType q).isSome)
    (hpf : t.findPort p.path = .ok p) (hqf : t.findPort q.path = .ok q) (hne : p ≠ q)
    (hpeer : s.peer p = "") (hqeer : s.peer q = "") (htype : t.portType p = t.portType q) :
    (setPeer t .quiet p q.path s).andThen (setPeer t .quiet q p.path) = .returned
      ⟨update (update s.peer p q.path) q p.path,
        if s.portsToPorts p.path = none ∨ s.portsToPorts p.path = some q.path then
          (s.joined (.port q) (.port p)).link
        else s.link,
        update (update s.portsToPorts p.path
            ((s.portsToPorts p.path).or (some q.path))) q.path
          ((s.portsToPorts q.path).or (some p.path))⟩ := by
  have paths : q.path ≠ p.path := fun e => hne (t.path_inj' hq hp e).symm
  have ends : PeerIface.port q ≠ .port p := fun e => hne (PeerIface.port.inj e).symm
  have pDown := inv.link_of_peer_empty hpeer
  have qDown := inv.link_of_peer_empty hqeer
  rw [setPeer_port hqf (by rw [hpeer]; exact (path_ne_empty q).symm) htype (Ne.symm hne) hp,
    cleared_of_none pDown]
  unfold Result.andThen
  dsimp only
  generalize hs₁ : Peers.mk (update s.peer p q.path) _ _ = s₁
  have peer₁ : s₁.peer q ≠ p.path := by
    rw [← hs₁]
    simp only [update_of_ne (Ne.symm hne), hqeer]
    exact (path_ne_empty p).symm
  -- whatever the first has made of the links, the second takes it down
  have cleared : (s₁.cleared q).link = s.link := by
    funext a
    rw [← hs₁]
    unfold cleared
    dsimp only
    split_ifs with hmap
    · rw [joined_link, update_self]
      dsimp only
      by_cases ha : a = .port p
      · rw [ha, update_self, pDown]
      · by_cases hb : a = .port q
        · rw [hb, update_of_ne ends, update_self, qDown]
        · rw [update_of_ne ha, update_of_ne hb, update_of_ne hb,
            update_of_ne ha]
    · rw [qDown]
  have remembered : s₁.portsToPorts p.path = some q.path ↔
      s.portsToPorts p.path = none ∨ s.portsToPorts p.path = some q.path := by
    rw [← hs₁]
    simp only [update_self]
    cases s.portsToPorts p.path <;> simp
  rw [setPeer_port hpf peer₁ htype.symm hne hq]
  simp only [remembered, joined_link, cleared]
  rw [← hs₁]
  simp only [update_of_ne paths]

theorem connect_ports_iff (inv : Inv t s) (hp : (t.portType p).isSome)
    (hq : (t.portType q).isSome) (hpf : t.findPort p.path = .ok p)
    (hqf : t.findPort q.path = .ok q) (hpeer : s.peer p = "") (hqeer : s.peer q = "")
    (htype : t.portType p = t.portType q) (hne : p ≠ q) :
    (s.portsToPorts p.path = none ∨ s.portsToPorts p.path = some q.path →
        Fine t s ((setPeer t .quiet p q.path s).andThen (setPeer t .quiet q p.path))) ∧
      (((setPeer t .quiet p q.path s).andThen (setPeer t .quiet q p.path)).Good t s →
        s.portsToPorts p.path = none ∨ s.portsToPorts p.path = some q.path) := by
  have pDown := inv.link_of_peer_empty hpeer
  have qDown := inv.link_of_peer_empty hqeer
  have ends : PeerIface.port p ≠ .port q := fun e => hne (PeerIface.port.inj e)
  rw [connect_ports inv hp hq hpf hqf hne hpeer hqeer htype]
  constructor
  · intro first
    rw [if_pos first]
    refine Inv.returned ?_
    -- the first port asks, then the second is linked to it
    have asked := inv.release q.path hp (fun r hr hrq => ?_) s.portsToPorts
    · rw [cleared_of_none pDown] at asked
      have answered := asked.relink (e := .port p) hq ends ?_ (fun r e => ?_)
        (fun x e => by cases e) (update (update s.portsToPorts p.path
          ((s.portsToPorts p.path).or (some q.path))) q.path
            ((s.portsToPorts q.path).or (some p.path)))
      · rwa [joined_link, cleared_of_none (by exact qDown)] at answered
      · rw [cleared_of_none (by exact qDown)]
        exact pDown
      · obtain rfl := PeerIface.port.inj e
        exact ⟨hp, update_self _ _ _⟩
    · obtain rfl := t.path_inj' hq hr hrq
      exact ⟨hne.symm, by rw [hqeer]; exact (path_ne_empty p).symm⟩
  · intro good
    by_contra other
    rw [if_neg other] at good
    have up := ((good p q hp hq).2 (by simp [update_of_ne hne])).1
    dsimp only at up
    rw [pDown] at up
    cases up

theorem connect_self (inv : Inv t s) (hpf : t.findPort p.path = .ok p) (hpeer : s.peer p = "") :
    ¬ ((setPeer t .quiet p p.path s).andThen (setPeer t .quiet p p.path)).Good t s := by
  have bad := setPeer_self inv hpf (by rw [hpeer]; exact (path_ne_empty p).symm)
  cases hset : setPeer t .quiet p p.path s with
  | returned s' =>
    have again : setPeer t .quiet p p.path s' = .returned s' := if_pos (peer_of_setPeer hset)
    rw [hset] at bad
    rwa [Result.andThen, again]
  | threw err s' =>
    rw [hset] at bad
    exact bad
  | hangs =>
    rw [hset] at bad
    exact bad

theorem connect_iff (inv : Inv t s) (peer₁ peer₂ : String) :
    (Joins t s peer₁ peer₂ → Fine t s (connectPeers t .quiet .quiet peer₁ peer₂ s)) ∧
      ((connectPeers t .quiet .quiet peer₁ peer₂ s).Good t s →
        Joins t s peer₁ peer₂) := by
  rcases name_cases t peer₁ with ⟨parse₁, get₁, try₁, err₁, find₁⟩ | ⟨err₁, get₁, find₁⟩ |
    ⟨p, hp, rfl, find₁, parse₁, get₁, try₁⟩
  · -- not a port, so only the second can change
    refine ⟨fun _ => ?_, fun _ p _ hfind => by rw [find₁] at hfind; cases hfind⟩
    rw [connectPeers, get₁]
    simp only [ne_eq, not_true_eq_false, if_false]
    rcases name_cases t peer₂ with ⟨parse₂, get₂, try₂, -⟩ | ⟨err₂, get₂, -⟩ |
      ⟨q, hq, rfl, find₂, parse₂, get₂, try₂⟩
    · simp only [get₂, try₁, try₂, parse₁, parse₂, Result.andThen, Option.isNone_none, and_self,
        if_true, not_true_eq_false, if_false]
      exact inv.threw _
    · rw [get₂]
      exact inv.threw _
    · simp only [get₂, try₁, try₂, parse₂, Result.andThen, Bool.false_eq_true, and_false, if_false]
      split_ifs with hpeer
      · have fine := (setPeer_iff _ inv hq).1 (settles_of_error inv hpeer find₁)
        cases hset : setPeer t .quiet q peer₁ s <;> rwa [hset] at fine
      · exact inv.threw _
  · refine ⟨fun _ => ?_, fun _ p _ hfind => absurd hfind (find₁ p)⟩
    rw [connectPeers, get₁]
    exact inv.threw _
  · rw [connectPeers, get₁]
    dsimp only
    by_cases hpeer : s.peer p = ""
    · rw [if_neg (not_not.2 hpeer)]
      rcases name_cases t peer₂ with ⟨parse₂, get₂, try₂, err₂, find₂⟩ | ⟨err₂, get₂, find₂⟩ |
        ⟨q, hq, rfl, find₂, parse₂, get₂, try₂⟩
      · refine ⟨fun _ => ?_, fun _ _ q _ hfind => by rw [find₂] at hfind; cases hfind⟩
        simp only [get₂, try₁, try₂, parse₁, Result.andThen, Bool.false_eq_true, false_and, if_false,
          ne_eq, not_true_eq_false]
        have fine := (setPeer_iff _ inv hp).1 (settles_of_error inv hpeer find₂)
        cases hset : setPeer t .quiet p peer₂ s <;> rwa [hset] at fine
      · refine ⟨fun _ => ?_, fun _ _ q _ hfind => absurd hfind (find₂ q)⟩
        rw [get₂]
        exact inv.threw _
      · rw [get₂]
        dsimp only
        by_cases hqeer : s.peer q = ""
        · rw [if_neg (not_not.2 hqeer), try₁]
          simp only [try₂, parse₁, Bool.false_eq_true, false_and, if_false, andThen_returned]
          have safe : Joins t s p.path q.path ↔ (t.portType p = t.portType q →
              p ≠ q ∧ (s.portsToPorts p.path = none ∨ s.portsToPorts p.path = some q.path)) := by
            refine ⟨fun h => h p q find₁ find₂ hpeer hqeer, fun h p' q' hp' hq' _ _ => ?_⟩
            obtain rfl := Except.ok.inj (find₁.symm.trans hp')
            obtain rfl := Except.ok.inj (find₂.symm.trans hq')
            exact h
          rw [safe]
          by_cases htype : t.portType p = t.portType q
          · by_cases hne : p = q
            · subst hne
              exact ⟨fun h => absurd rfl (h htype).1,
                fun good => absurd good (connect_self inv find₁ hpeer)⟩
            · obtain ⟨fine, good⟩ :=
                connect_ports_iff inv hp hq find₁ find₂ hpeer hqeer htype hne
              exact ⟨fun h => fine (h htype).2, fun h _ => ⟨hne, good h⟩⟩
          · refine ⟨fun _ => ?_, fun _ h => absurd h htype⟩
            rw [setPeer_mismatch find₂ (by rw [hpeer]; exact (path_ne_empty q).symm) htype,
              cleared_of_none (inv.link_of_peer_empty hpeer)]
            exact inv.threw _
        · rw [if_pos hqeer]
          refine ⟨fun _ => inv.threw _, fun _ p' q' _ hq' _ h => absurd ?_ hqeer⟩
          rw [find₂] at hq'
          rwa [Except.ok.inj hq']
    · rw [if_pos hpeer]
      refine ⟨fun _ => inv.threw _, fun _ p' q' hp' _ h _ => absurd ?_ hpeer⟩
      rw [find₁] at hp'
      rwa [Except.ok.inj hp']

theorem tryToSetPeer_empty (inv : Inv t s) {name peer : String}
    (h : getPortPeer t s name = .ok peer) :
    ∃ s', tryToSetPeer t .quiet name "" s = .returned s' ∧ Inv t s' := by
  rcases name_cases t name with ⟨-, -, try₁, -⟩ | ⟨err, get, -⟩ | ⟨p, hp, -, -, -, -, try₁⟩
  · exact ⟨s, try₁ "" s, inv⟩
  · rw [get s] at h
    cases h
  · rw [try₁]
    exact setPeer_empty inv hp

/-- Whether a name has a peer to ask for is the same in all states. -/
theorem getPortPeer_ok {name peer : String} (h : getPortPeer t s name = .ok peer) (s' : Peers) :
    ∃ peer', getPortPeer t s' name = .ok peer' := by
  rcases name_cases t name with ⟨-, get, -⟩ | ⟨err, get, -⟩ | ⟨p, -, -, -, -, get, -⟩
  · exact ⟨_, get s'⟩
  · rw [get s] at h
    cases h
  · exact ⟨_, get s'⟩

theorem disconnect_fine (inv : Inv t s) (peer₁ peer₂ : String) :
    Fine t s (disconnectPeers t .quiet .quiet peer₁ peer₂ s) := by
  unfold disconnectPeers
  cases get₁ : getPortPeer t s peer₁ with
  | error err => exact inv.threw err
  | ok ret₁ =>
    dsimp only
    cases get₂ : getPortPeer t s peer₂ with
    | error err => exact inv.threw err
    | ok ret₂ =>
      dsimp only
      split_ifs
      · exact inv.threw _
      · obtain ⟨s₁, hs₁, inv₁⟩ := tryToSetPeer_empty inv get₁
        obtain ⟨_, get₂'⟩ := getPortPeer_ok get₂ s₁
        obtain ⟨s₂, hs₂, inv₂⟩ := tryToSetPeer_empty inv₁ get₂'
        rw [hs₁, Result.andThen, hs₂]
        exact inv₂.returned

theorem exec_fine (inv : Inv t s) (op : PeerOp) (safe : Safe t s op) : Fine t s (s.exec t op) := by
  cases op with
  | setPeer p peer o =>
    rw [exec]
    split_ifs with hp
    · rcases safe hp with ⟨name, unsubscribe⟩ | ⟨rfl, settles⟩
      · obtain ⟨err, herr⟩ := Option.ne_none_iff_exists'.1 unsubscribe
        have threw : setPeer t o p peer s = .threw err s := by
          rw [setPeer, if_neg name, herr]
          rfl
        rw [threw]
        exact inv.threw err
      · exact (setPeer_iff peer inv hp).1 settles
    · exact inv.threw _
  | connect peer₁ peer₂ o₁ o₂ =>
    obtain ⟨⟨rfl, rfl⟩, joins⟩ := safe
    exact (connect_iff inv peer₁ peer₂).1 joins
  | disconnect peer₁ peer₂ o₁ o₂ =>
    obtain ⟨rfl, rfl⟩ := safe
    exact disconnect_fine inv peer₁ peer₂

theorem safe_of_good (inv : Inv t s) (op : PeerOp) (quiet : op.Quiet)
    (good : (s.exec t op).Good t s) : Safe t s op := by
  cases op with
  | setPeer p peer o =>
    obtain rfl : o = .quiet := quiet
    intro hp
    rw [exec, if_pos hp] at good
    exact .inr ⟨rfl, (setPeer_iff peer inv hp).2 good⟩
  | connect peer₁ peer₂ o₁ o₂ =>
    obtain ⟨rfl, rfl⟩ := quiet
    exact ⟨⟨rfl, rfl⟩, (connect_iff inv peer₁ peer₂).2 good⟩
  | disconnect peer₁ peer₂ o₁ o₂ => exact quiet

theorem step_inv (inv : Inv t s) (op : PeerOp) (safe : Safe t s op) : Inv t (s.step t op) := by
  have kept := (exec_fine inv op safe).2
  unfold step
  cases hexec : s.exec t op with
  | returned s' =>
    rw [hexec] at kept
    exact kept
  | threw err s' =>
    rw [hexec] at kept
    exact kept
  | hangs => exact inv

/-- In a run of safe operations every operation keeps links and peer strings together, and changes
no port when it throws.  When all calls return, the operations of a run do so only if they are
safe. -/
theorem good_of_safe (t : Topology) (ops : List PeerOp) :
    (Meets (step t) (Safe t) fresh ops →
      Meets (step t) (fun s op => (s.exec t op).Good t s) fresh ops) ∧
    (Meets (step t) (fun s op => op.Quiet ∧ (s.exec t op).Good t s) fresh ops ↔
      Meets (step t) (fun s op => op.Quiet ∧ Safe t s op) fresh ops) := by
  refine ⟨Meets.imp (fun _ op inv safe => step_inv inv op safe)
      (fun _ op inv safe => (exec_fine inv op safe).1) Inv.fresh,
    meets_congr (fun _ op inv => and_congr_right fun quiet => ?_)
      (fun _ op inv safe => step_inv inv op safe.2) Inv.fresh⟩
  exact ⟨safe_of_good inv op quiet, fun safe => (exec_fine inv op safe).1⟩

/-- The port of a cube `left` and that of a cube `right`. -/
def twoCubes : Topology where
  cubes cube :=
    if cube = "left" ∨ cube = "right" then
      some (.standard fun port => if port = "p" then some .tc else none)
    else none
  availableIfaces _ := false
  iface_no_colon _ h := by cases h
  path_inj p q hp hq h := by
    obtain ⟨c, n⟩ := p
    obtain ⟨c', n'⟩ := q
    have known : ∀ cube port : String, ((if cube = "left" ∨ cube = "right" then
        some (Cube.standard fun port => if port = "p" then some PortType.tc else none)
        else none).bind (·.port port)).isSome → (cube = "left" ∨ cube = "right") ∧ port = "p" := by
      intro cube port
      split_ifs with hc
      · simp only [Option.bind_some, Cube.port]
        split_ifs with hn
        · exact fun _ => ⟨hc, hn⟩
        · exact fun h => absurd h (by decide)
      · simp
    obtain ⟨hc, rfl⟩ := known c n hp
    obtain ⟨hc', rfl⟩ := known c' n' hq
    rcases hc with rfl | rfl <;> rcases hc' with rfl | rfl
    · rfl
    · exact absurd h (by decide)
    · exact absurd h (by decide)
    · rfl

/-- The left port asks for the right one and gives it up; then the right one asks for it, and is
linked. -/
theorem given_up_not_good :
    ¬ Meets (step twoCubes) (fun s op => (s.exec twoCubes op).Good twoCubes s) fresh
      [.setPeer ⟨"left", "p"⟩ "right:p" .quiet, .setPeer ⟨"left", "p"⟩ "" .quiet,
        .setPeer ⟨"right", "p"⟩ "left:p" .quiet] := by
  rintro ⟨-, -, good, -⟩
  have named := (good ⟨"left", "p"⟩ ⟨"right", "p"⟩ rfl rfl).1 ⟨rfl, rfl⟩
  exact absurd named.1 (by decide)

end Peers

end Polycube.Polycubed
