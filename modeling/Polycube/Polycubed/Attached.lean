import Polycube.Polycubed.Attachment
import Polycube.Polycubed.ChainRuns

/-!
# Transparent cubes and their parents

A transparent cube points to a parent exactly when the parent has it in its list, and has callbacks
for its parameters there and nowhere else.  Runs keep this as long as no step fails behind a change
that it has made, and no cube with parameters leaves a parent that lives on.
-/

namespace Polycube.Polycubed.Attachment

open Function

open Lib

inductive Op
  | createCube (name : String) (type : PortType) (serviceName : String)
  | destroyCube (name : String) (relink : Option Failure)
  | createPeer (t : Target) (type : PortType)
  | destroyPeer (t : Target)
  | link (t : Target) (linked : Bool)
  | release (t : Target)
  | subscribe (name parameter : String) (notify : String → Option String)
  | unsubscribe (name parameter : String)
  | attach (name : String) (t : Target) (pos other : String) (o : Outside)
  | detach (name : String) (t : Target) (o : Outside)

def exec : Op → Core Unit
  | .createCube name type serviceName => createCube name type serviceName
  | .destroyCube name relink => destroyCube name relink
  | .createPeer t type => createPeer t type
  | .destroyPeer t => destroyPeer t
  | .link t linked => link t linked
  | .release t => modify (Daemon.release t)
  | .subscribe name parameter notify => subscribeParentParameter name parameter notify
  | .unsubscribe name parameter => unsubscribeParentParameter name parameter
  | .attach name t pos other o => attach name t pos other o
  | .detach name t o => detach name t o

def step (s : Option Daemon) (op : Op) : Option Daemon :=
  s.bind fun s =>
    match (exec op).run s with
    | .ok _ s' => some s'
    | .error (.thrown _) s' => some s'
    | .error .undefined _ => none

structure Consistent (s : Daemon) : Prop where
  parent : ∀ x c r, s.cube x = some c →
    (c.parent = some r ↔ ∃ p, s.peer r = some p ∧ x ∈ p.cubes)
  alive : ∀ t p, s.peers t = some p → s.Alive p.cubes
  once : ∀ t p, s.peers t = some p → p.cubes.Nodup ∧
    ∀ t' p', s.peers t' = some p' → ∀ x ∈ p.cubes, x ∈ p'.cubes → t' = t
  subscribed : ∀ x c, s.cube x = some c → ∀ k, s.callbacks (k, c.uuid) = true ↔
    ∃ r q, c.parent = some r ∧ q ∈ c.subscriptionList ∧ slot r.target q = k

structure SameAttachment (s s' : Daemon) : Prop where
  parents : ∀ name, (s'.cubes name).map TransparentCube.parent =
    (s.cubes name).map TransparentCube.parent
  lists : ∀ t, (s'.peers t).map (fun p => (p.number, p.cubes)) =
    (s.peers t).map fun p => (p.number, p.cubes)

def Daemon.FailsClean (s : Daemon) (op : Op) : Prop :=
  ∀ message s', (exec op).run s = .error (.thrown message) s' → SameAttachment s s'

def Daemon.Reaches (s : Daemon) (type : PortType) (construct : Option String) : Target → Prop
  | .port path => ∃ p ∈ s.peers (.port path), p.type = type
  | .iface e => (s.peers (.iface e)).isNone → construct = none

def Daemon.listOf (s : Daemon) (t : Target) : List CubeRef :=
  ((s.peers t).map PeerIface.cubes).getD []

def Allows (placed refused : Prop) : Placing → Prop
  | .at _ => placed
  | .throws _ => refused
  | .undefined => False

/-- What attaching must meet when it gets as far as the list: no later step throws, and all
parameters are those of the parent; where no place is found, the interface is there already. -/
def Daemon.FitsAttach (s : Daemon) (c : TransparentCube) (t : Target) (pos other : String)
    (o : Outside) : Prop :=
  Allows
    (o.relink = none ∧ o.attached = none ∧
      (∀ q ∈ c.subscriptionList, available t q = true ∧ o.notify q = none) ∧
      recording t o.record = none)
    (s.peers t ≠ none) (place s c.serviceName pos other (s.listOf t))

def Target.isIface : Target → Bool
  | .port _ => false
  | .iface _ => true

def PeerIface.Last (t : Target) (p : PeerIface) : Prop :=
  t.isIface = true ∧ p.linked = false ∧ p.cubes.length = 1

/-- What a step must meet.  Nothing throws behind a change; a cube with parameters leaves only a
parent that is destroyed, if that is an interface, and no port with such a cube is destroyed; an
interface has the parameter that is subscribed to, and no two parameters are one in capitals. -/
def Daemon.Fits (s : Daemon) : Op → Prop
  | .attach name t pos other o => ∀ c, s.cubes name = some c → c.parent = none →
    s.Reaches c.type o.construct t → s.FitsAttach c t pos other o
  | .detach name t o => ∀ c, s.cubes name = some c → ∀ p, s.peers t = some p →
    name ∈ p.cubes.map CubeRef.name →
    o.relink = none ∧ recording t o.record = none ∧ (c.subscriptionList = [] ∨ p.Last t)
  | .destroyCube name relink => ∀ c, s.cubes name = some c → c.parent ≠ none → relink = none
  | .destroyPeer (.port path) => ∀ p, s.peers (.port path) = some p →
    ∀ x ∈ p.cubes, ∀ c, s.cube x = some c → c.subscriptionList = []
  | .subscribe name parameter _ => ∀ c, s.cubes name = some c → ∀ r, c.parent = some r →
    available r.target parameter = true
  | .unsubscribe name parameter => ∀ c, s.cubes name = some c → ∀ r, c.parent = some r →
    ∀ q ∈ c.subscriptionList, slot r.target q = slot r.target parameter → q = parameter
  | _ => True

def FitsIn (s : Option Daemon) (op : Op) : Prop := ∀ t, s = some t → t.Fits op

/-! ### The invariant -/

def Daemon.Lists (s : Daemon) (r : PeerRef) (x : CubeRef) : Prop :=
  ∃ p, s.peer r = some p ∧ x ∈ p.cubes

structure Settled (s : Daemon) (name : String) (c : TransparentCube) : Prop where
  parent : ∀ r, c.parent = some r ↔ s.Lists r ⟨name, c.uuid⟩
  parameters : c.subscriptionList.Nodup
  known : ∀ r, c.parent = some r → ∀ q ∈ c.subscriptionList, available r.target q = true
  subscribed : ∀ k, s.callbacks (k, c.uuid) = true ↔
    ∃ r q, c.parent = some r ∧ q ∈ c.subscriptionList ∧ slot r.target q = k

structure Inv (s : Daemon) : Prop where
  settled : ∀ name c, s.cubes name = some c → Settled s name c
  alive : ∀ r x, s.Lists r x → (s.cube x).isSome
  nodup : ∀ t p, s.peers t = some p → p.cubes.Nodup
  distinct : ∀ name name' c c', s.cubes name = some c → s.cubes name' = some c' →
    c.uuid = c'.uuid → name = name'
  uuids : ∀ name c, s.cubes name = some c → c.uuid < s.next
  callers : ∀ k uuid, s.callbacks (k, uuid) = true → uuid < s.next

variable {s s' : Daemon} {name : String} {t : Target} {c : TransparentCube} {p : PeerIface}
  {r : PeerRef} {x : CubeRef}

theorem cube_eq_some : s.cube x = some c ↔ s.cubes x.name = some c ∧ c.uuid = x.uuid := by
  simp [Daemon.cube, Option.filter_eq_some_iff]

theorem peer_eq_some : s.peer r = some p ↔ s.peers r.target = some p ∧ p.number = r.number := by
  simp [Daemon.peer, Option.filter_eq_some_iff]

theorem lists_iff (hp : s.peers r.target = some p) :
    s.Lists r x ↔ p.number = r.number ∧ x ∈ p.cubes := by
  unfold Daemon.Lists
  simp only [peer_eq_some, hp, Option.some.injEq]
  constructor
  · rintro ⟨q, ⟨rfl, number⟩, hx⟩
    exact ⟨number, hx⟩
  · rintro ⟨number, hx⟩
    exact ⟨p, ⟨rfl, number⟩, hx⟩

theorem not_lists (hp : s.peers r.target = none) : ¬s.Lists r x := by
  rintro ⟨p, h, -⟩
  rw [peer_eq_some, hp] at h
  cases h.1

theorem lists_of_mem (hp : s.peers t = some p) (hx : x ∈ p.cubes) : s.Lists ⟨t, p.number⟩ x :=
  (lists_iff hp).2 ⟨rfl, hx⟩

theorem lists_congr (same : s'.peers r.target = s.peers r.target) :
    s'.Lists r x ↔ s.Lists r x := by
  unfold Daemon.Lists Daemon.peer
  rw [same]

theorem inv_start : Inv Daemon.start := by
  constructor <;> simp [Daemon.start, Daemon.Lists, Daemon.peer]

theorem Inv.points (inv : Inv s) (h : s.cube x = some c) : c.parent = some r ↔ s.Lists r x := by
  obtain ⟨here, uuid⟩ := cube_eq_some.1 h
  rw [(inv.settled x.name c here).parent r, uuid]

theorem Inv.consistent (inv : Inv s) : Consistent s where
  parent _ _ _ h := inv.points h
  alive t p hp x hx := inv.alive _ _ (lists_of_mem hp hx)
  once t p hp := by
    refine ⟨inv.nodup t p hp, fun t' p' hp' x hx hx' => ?_⟩
    have here := lists_of_mem hp hx
    obtain ⟨c, h⟩ := Option.isSome_iff_exists.1 (inv.alive _ _ here)
    have parent := (inv.points h).2 here
    have parent' := (inv.points h).2 (lists_of_mem hp' hx')
    rw [parent, Option.some.injEq, PeerRef.mk.injEq] at parent'
    exact parent'.1.symm
  subscribed x c h := (inv.settled x.name c (cube_eq_some.1 h).1).subscribed

/-! #### Cubes and peers are created -/

theorem inv_createCube (inv : Inv s) (free : s.cubes name = none) (type : PortType)
    (serviceName : String) : Inv (s.createCube name type serviceName) := by
  have cubes : ∀ name', (s.createCube name type serviceName).cubes name' =
      if name' = name then some ⟨s.next, type, serviceName, none, []⟩ else s.cubes name' :=
    fun name' => update_apply s.cubes name _ name'
  have fresh : ∀ k, s.callbacks (k, s.next) ≠ true := fun k h => (inv.callers k _ h).false
  have unlisted : ∀ r x, s.Lists r x → x.name ≠ name := by
    intro r x h same
    have there := inv.alive r x h
    rw [Daemon.cube, same, free] at there
    cases there
  constructor
  · intro name' c h
    rw [cubes] at h
    split_ifs at h with same
    · rw [← Option.some.inj h, same]
      exact ⟨fun r => iff_of_false (by simp) fun h => unlisted r _ h rfl, List.nodup_nil,
        by simp, fun k => iff_of_false (fresh k) (by simp)⟩
    · exact ⟨(inv.settled name' c h).parent, (inv.settled name' c h).parameters,
        (inv.settled name' c h).known, (inv.settled name' c h).subscribed⟩
  · intro r x h
    have there := inv.alive r x h
    rw [Daemon.cube, cubes, if_neg (unlisted r x h)]
    exact there
  · exact inv.nodup
  · intro name₁ name₂ c₁ c₂ h₁ h₂ same
    rw [cubes] at h₁ h₂
    split_ifs at h₁ h₂ with at₁ at₂ at₂
    · rw [at₁, at₂]
    · rw [← Option.some.inj h₁] at same
      exact absurd same (inv.uuids name₂ c₂ h₂).ne'
    · rw [← Option.some.inj h₂] at same
      exact absurd same (inv.uuids name₁ c₁ h₁).ne
    · exact inv.distinct name₁ name₂ c₁ c₂ h₁ h₂ same
  · intro name' c h
    rw [cubes] at h
    split_ifs at h with same
    · rw [← Option.some.inj h]
      exact Nat.lt_succ_self _
    · exact (inv.uuids name' c h).trans (Nat.lt_succ_self _)
  · exact fun k uuid h => (inv.callers k uuid h).trans (Nat.lt_succ_self _)

theorem inv_lists (inv : Inv s) (same : ∀ r x, s'.Lists r x ↔ s.Lists r x)
    (nodup : ∀ t p, s'.peers t = some p → p.cubes.Nodup) (cubes : s'.cubes = s.cubes)
    (callbacks : s'.callbacks = s.callbacks) (next : s.next ≤ s'.next) : Inv s' where
  settled name c h := by
    rw [cubes] at h
    have settled := inv.settled name c h
    refine ⟨fun r => (settled.parent r).trans (same r _).symm, settled.parameters,
      settled.known, ?_⟩
    rw [callbacks]
    exact settled.subscribed
  alive r x h := by
    rw [Daemon.cube, cubes]
    exact inv.alive r x ((same r x).1 h)
  nodup := nodup
  distinct := cubes ▸ inv.distinct
  uuids name c h := (inv.uuids name c (cubes ▸ h)).trans_le next
  callers k uuid h := (inv.callers k uuid (callbacks ▸ h)).trans_le next

theorem nodup_setPeer (inv : Inv s) {p : PeerIface} (nodup : p.cubes.Nodup) (t' : Target)
    (p' : PeerIface) (h : (s.setPeer t (some p)).peers t' = some p') : p'.cubes.Nodup := by
  rw [Daemon.peers_setPeer, update_apply] at h
  split_ifs at h with here
  · rwa [← Option.some.inj h]
  · exact inv.nodup t' p' h

theorem inv_createPeer (inv : Inv s) (free : s.peers t = none) (type : PortType) :
    Inv (s.createPeer t type) := by
  refine inv_lists inv (fun r x => ?_) (nodup_setPeer inv List.nodup_nil) rfl rfl (Nat.le_succ _)
  by_cases here : r.target = t
  · have new : (s.createPeer t type).peers r.target = some ⟨s.next, type, [], false⟩ := by
      rw [here]
      exact update_self ..
    refine iff_of_false ?_ (not_lists (here ▸ free))
    rw [lists_iff new]
    simp
  · exact lists_congr (update_of_ne here ..)

theorem inv_link (inv : Inv s) (hp : s.peers t = some p) (linked : Bool) :
    Inv (s.setPeer t (some { p with linked := linked })) := by
  refine inv_lists inv (fun r x => ?_) (nodup_setPeer inv (inv.nodup t p hp)) rfl rfl le_rfl
  by_cases here : r.target = t
  · have new : (s.setPeer t (some { p with linked := linked })).peers r.target =
        some { p with linked := linked } := by
      rw [here]
      exact update_self ..
    rw [lists_iff new, lists_iff (here ▸ hp)]
  · exact lists_congr (update_of_ne here ..)

/-! #### A cube changes -/

theorem Inv.change (inv : Inv s) (hc : s.cubes name = some c)
    (others : ∀ name', name' ≠ name → s'.cubes name' = s.cubes name')
    (mine : ∀ c', s'.cubes name = some c' → c'.uuid = c.uuid ∧ Settled s' name c')
    (gone : s'.cubes name = none → ∀ r, ¬s'.Lists r ⟨name, c.uuid⟩)
    (lists : ∀ r x, x ≠ ⟨name, c.uuid⟩ → (s'.Lists r x ↔ s.Lists r x))
    (nodup : ∀ t p, s'.peers t = some p → p.cubes.Nodup)
    (kept : ∀ name' c', name' ≠ name → s.cubes name' = some c' →
      ∀ k, s'.callbacks (k, c'.uuid) = s.callbacks (k, c'.uuid))
    (callers : ∀ k uuid, s'.callbacks (k, uuid) = true →
      s.callbacks (k, uuid) = true ∨ uuid = c.uuid)
    (next : s'.next = s.next) : Inv s' := by
  -- a cube after the change is there before, with the same uuid
  have back : ∀ name' c', s'.cubes name' = some c' →
      ∃ c₀, s.cubes name' = some c₀ ∧ c₀.uuid = c'.uuid := by
    intro name' c' h
    by_cases same : name' = name
    · rw [same] at h ⊢
      exact ⟨c, hc, (mine c' h).1.symm⟩
    · exact ⟨c', others name' same ▸ h, rfl⟩
  constructor
  · intro name' c' h
    by_cases same : name' = name
    · rw [same] at h ⊢
      exact (mine c' h).2
    · have before := others name' same ▸ h
      have settled := inv.settled name' c' before
      refine ⟨fun r => (settled.parent r).trans (lists r _ fun eq => same ?_).symm,
        settled.parameters, settled.known, fun k => ?_⟩
      · exact congrArg CubeRef.name eq
      · rw [kept name' c' same before]
        exact settled.subscribed k
  · intro r x h
    by_cases same : x = ⟨name, c.uuid⟩
    · rw [same] at h ⊢
      rcases here : s'.cubes name with _ | c'
      · exact absurd h (gone here r)
      · rw [cube_eq_some.2 ⟨here, (mine c' here).1⟩]
        rfl
    · have there := inv.alive r x ((lists r x same).1 h)
      obtain ⟨c₀, h₀⟩ := Option.isSome_iff_exists.1 there
      obtain ⟨h₀, uuid⟩ := cube_eq_some.1 h₀
      have other : x.name ≠ name := by
        intro eq
        rw [eq, hc, Option.some.injEq] at h₀
        refine same ?_
        rw [h₀, ← eq, uuid]
      rw [Daemon.cube, others x.name other]
      exact there
  · exact nodup
  · intro name₁ name₂ c₁ c₂ h₁ h₂ same
    obtain ⟨b₁, h₁, e₁⟩ := back name₁ c₁ h₁
    obtain ⟨b₂, h₂, e₂⟩ := back name₂ c₂ h₂
    exact inv.distinct name₁ name₂ b₁ b₂ h₁ h₂ (by rw [e₁, e₂, same])
  · intro name' c' h
    obtain ⟨c₀, h₀, uuid⟩ := back name' c' h
    rw [← uuid, next]
    exact inv.uuids name' c₀ h₀
  · intro k uuid h
    rw [next]
    rcases callers k uuid h with before | rfl
    · exact inv.callers k uuid before
    · exact inv.uuids name c hc

/-! #### A cube gets a parent -/

def Daemon.subscribeTo (t : Target) (caller : ℕ) (parameters : List String) (s : Daemon) : Daemon :=
  parameters.foldl (fun s q => s.setCallback (slot t q) caller true) s

section

variable {caller : ℕ} {parameters : List String}

theorem subscribeTo_frame (s : Daemon) (t : Target) (caller : ℕ) (parameters : List String) :
    (s.subscribeTo t caller parameters).cubes = s.cubes ∧
      (s.subscribeTo t caller parameters).peers = s.peers ∧
      (s.subscribeTo t caller parameters).next = s.next := by
  induction parameters generalizing s with
  | nil => exact ⟨rfl, rfl, rfl⟩
  | cons q parameters ih => exact ih (s.setCallback (slot t q) caller true)

theorem callbacks_setCallback {k k' : Slot} {uuid : ℕ} {present : Bool} :
    (s.setCallback k' caller present).callbacks (k, uuid) =
      if k = k' ∧ uuid = caller then present else s.callbacks (k, uuid) := by
  simp only [Daemon.setCallback, update_apply, Prod.mk.injEq]

theorem callbacks_subscribeTo {k : Slot} {uuid : ℕ} :
    (s.subscribeTo t caller parameters).callbacks (k, uuid) = true ↔
      s.callbacks (k, uuid) = true ∨ uuid = caller ∧ ∃ q ∈ parameters, slot t q = k := by
  induction parameters generalizing s with
  | nil => simp [Daemon.subscribeTo]
  | cons q parameters ih =>
    have next := ih (s := s.setCallback (slot t q) caller true)
    unfold Daemon.subscribeTo at next ⊢
    rw [List.foldl_cons, next, callbacks_setCallback]
    split_ifs with here
    · simp [here.1, here.2]
    · simp only [List.mem_cons, exists_eq_or_imp]
      constructor
      · rintro (h | ⟨h, later⟩)
        · exact .inl h
        · exact .inr ⟨h, .inr later⟩
      · rintro (h | ⟨h, now | later⟩)
        · exact .inl h
        · exact absurd ⟨now.symm, h⟩ here
        · exact .inr ⟨h, later⟩

theorem subscribeAll_run {notify : String → Option String}
    (fits : ∀ q ∈ parameters, available t q = true ∧ notify q = none) :
    (subscribeAll t caller notify parameters).run s =
      .ok () (s.subscribeTo t caller parameters) := by
  induction parameters generalizing s with
  | nil => rfl
  | cons q parameters ih =>
    obtain ⟨known, returns⟩ := fits q List.mem_cons_self
    have rest := ih (s := s.setCallback (slot t q) caller true)
      fun q' hq' => fits q' (List.mem_cons_of_mem q hq')
    have first : (subscribeParameter t caller notify q).run s =
        .ok () (s.setCallback (slot t q) caller true) := by
      unfold subscribeParameter
      rw [known, returns]
      rfl
    unfold subscribeAll
    rw [EStateM.run_bind, first]
    exact rest

end

def Daemon.attached (name : String) (c : TransparentCube) (t : Target) (p : PeerIface) (i : ℕ)
    (parameters : List String) (s : Daemon) : Daemon :=
  ((s.setPeer t (some { p with cubes := p.cubes.insertIdx i ⟨name, c.uuid⟩ })).setCube name
    (some { c with parent := some ⟨t, p.number⟩ })).subscribeTo t c.uuid parameters

theorem inv_attached (inv : Inv s) (hc : s.cubes name = some c) (free : c.parent = none)
    (hp : s.peers t = some p) {i : ℕ} (le : i ≤ p.cubes.length) {parameters : List String}
    (all : parameters.Perm c.subscriptionList)
    (known : ∀ q ∈ c.subscriptionList, available t q = true) :
    Inv (s.attached name c t p i parameters) := by
  obtain ⟨cubes, peers, next⟩ := subscribeTo_frame
    ((s.setPeer t (some { p with cubes := p.cubes.insertIdx i ⟨name, c.uuid⟩ })).setCube name
      (some { c with parent := some ⟨t, p.number⟩ })) t c.uuid parameters
  have settled := inv.settled name c hc
  have unlisted : ∀ r, ¬s.Lists r ⟨name, c.uuid⟩ := by
    intro r h
    rw [← settled.parent, free] at h
    cases h
  have new : (⟨name, c.uuid⟩ : CubeRef) ∉ p.cubes := fun h => unlisted _ (lists_of_mem hp h)
  have lists : ∀ r x, (s.attached name c t p i parameters).Lists r x ↔
      r = ⟨t, p.number⟩ ∧ x = ⟨name, c.uuid⟩ ∨ s.Lists r x := by
    intro r x
    by_cases here : r.target = t
    · have there : (s.attached name c t p i parameters).peers r.target =
          some { p with cubes := p.cubes.insertIdx i ⟨name, c.uuid⟩ } := by
        rw [Daemon.attached, peers, here]
        exact update_self ..
      rw [lists_iff there, lists_iff (here ▸ hp), List.mem_insertIdx le, and_or_left]
      refine or_congr_left (and_congr_left' ?_)
      rw [← here]
      exact ⟨fun h => by rw [h], fun h => by rw [h]⟩
    · rw [lists_congr (s := s)]
      · exact (or_iff_right fun h => here (congrArg PeerRef.target h.1)).symm
      · rw [Daemon.attached, peers]
        exact update_of_ne here ..
  have callbacks : ∀ k uuid, (s.attached name c t p i parameters).callbacks (k, uuid) = true ↔
      s.callbacks (k, uuid) = true ∨ uuid = c.uuid ∧ ∃ q ∈ parameters, slot t q = k :=
    fun k uuid => callbacks_subscribeTo
  refine inv.change hc (fun name' other => ?_) (fun c' h => ?_) (fun h => ?_) (fun r x other => ?_)
    ?_ (fun name' c' other h k => ?_) (fun k uuid h => ?_) next
  · rw [Daemon.attached, cubes]
    exact update_of_ne other ..
  · rw [Daemon.attached, cubes, Daemon.cubes_setCube, update_self, Option.some.injEq] at h
    rw [← h]
    refine ⟨rfl, fun r => ?_, settled.parameters, fun r parent => ?_, fun k => ?_⟩
    · rw [lists, or_iff_left (unlisted r), Option.some.injEq]
      exact ⟨fun h => ⟨h.symm, rfl⟩, fun h => h.1.symm⟩
    · rw [← Option.some.inj parent]
      exact known
    · have before : ¬s.callbacks (k, c.uuid) = true := by
        rw [settled.subscribed, free]
        simp
      rw [callbacks, or_iff_right before]
      simp [all.mem_iff]
  · rw [Daemon.attached, cubes, Daemon.cubes_setCube, update_self] at h
    cases h
  · rw [lists, or_iff_right fun h => other h.2]
  · rw [Daemon.attached, peers, Daemon.peers_setCube]
    refine nodup_setPeer inv ?_
    exact (List.perm_insertIdx _ _ le).nodup_iff.2 (List.nodup_cons.2 ⟨new, inv.nodup t p hp⟩)
  · rw [Bool.eq_iff_iff, callbacks]
    refine or_iff_left fun same => other ?_
    exact inv.distinct name' name c' c h hc same.1
  · exact ((callbacks k uuid).1 h).imp_right And.left

def Untouched (s : Daemon) (e : Failure) (s' : Daemon) : Prop := (∃ m, e = .thrown m) ∧ s' = s

theorem place_congr (cubes : s'.cubes = s.cubes) (serviceName pos other : String)
    (l : List CubeRef) : place s' serviceName pos other l = place s serviceName pos other l := by
  have services : s'.serviceName = s.serviceName := by
    funext x
    unfold Daemon.serviceName Daemon.cube
    rw [cubes]
  unfold place
  rw [services]

variable {pos other : String}

theorem place_le {serviceName : String} {l : List CubeRef} {i : ℕ}
    (h : place s serviceName pos other l = .at i) : i ≤ l.length := by
  have le := Chains.placeCube_le h
  split_ifs at le
  · rwa [List.length_map] at le
  · rwa [List.length_map] at le

def Reached (s : Daemon) (t : Target) (type : PortType) (s₁ : Daemon) : Prop :=
  s₁ = s ∧ s.peers t ≠ none ∨ s₁ = s.createPeer t type ∧ s.peers t = none ∧ t.isIface = true

theorem wp_reach (s : Daemon) (name : String) (type : PortType) (construct : Option String)
    (t : Target) :
    wp (reach name type construct t)
      (fun _ s₁ => s.Reaches type construct t ∧ Reached s t type s₁) (Untouched s) s := by
  cases t with
  | port path =>
    unfold reach
    rw [wp_bind, wp_get, wp_bind]
    rcases hp : s.peers (.port path) with _ | p
    · exact ⟨⟨_, rfl⟩, rfl⟩
    · rw [found_some, wp_pure, wp_refuse]
      split_ifs with other
      · exact ⟨⟨_, rfl⟩, rfl⟩
      · refine ⟨⟨p, hp, not_not.1 other⟩, .inl ⟨rfl, ?_⟩⟩
        rw [hp]
        exact Option.some_ne_none p
  | iface e =>
    unfold reach
    rw [wp_bind, wp_get, wp_ite]
    rcases hp : s.peers (.iface e) with _ | p
    · rw [if_pos Option.isNone_none, wp_bind]
      rcases construct with _ | message
      · rw [raise_none, wp_pure, wp_modify]
        exact ⟨fun _ => rfl, .inr ⟨rfl, hp, rfl⟩⟩
      · exact ⟨⟨_, rfl⟩, rfl⟩
    · refine ⟨fun none => ?_, .inl ⟨rfl, ?_⟩⟩
      · rw [hp] at none
        exact absurd none Bool.false_ne_true
      · rw [hp]
        exact Option.some_ne_none p

def Outside.Quiet (o : Outside) (c : TransparentCube) (t : Target) : Prop :=
  o.relink = none ∧ o.attached = none ∧
    ∀ q ∈ c.subscriptionList, available t q = true ∧ o.notify q = none

def Attaches (s : Daemon) (name : String) (t : Target) (pos other : String) (o : Outside) (i : ℕ)
    (s' : Daemon) : Prop :=
  ∃ c p s₁, s.cubes name = some c ∧ c.parent = none ∧ s.Reaches c.type o.construct t ∧
    Reached s t c.type s₁ ∧ s₁.peers t = some p ∧ p.cubes = s.listOf t ∧
    place s c.serviceName pos other (s.listOf t) = .at i ∧
    s' = s₁.attached name c t p i (o.walk.keys c.subscriptionList)

def Unplaced (s : Daemon) (name : String) (t : Target) (pos other : String) (o : Outside)
    (e : Failure) (s' : Daemon) : Prop :=
  (∃ m, e = .thrown m) ∧ (s' = s ∨ s.peers t = none ∧ ∃ c, s.cubes name = some c ∧
    c.parent = none ∧ s.Reaches c.type o.construct t ∧ Reached s t c.type s' ∧
    ∃ m, place s c.serviceName pos other (s.listOf t) = .throws m)

variable {o : Outside}

theorem wp_attachTo (alive : ∀ p, s.peers t = some p → s.Alive p.cubes)
    (fits : ∀ c, s.cubes name = some c → c.parent = none → s.Reaches c.type o.construct t →
      Allows (o.Quiet c t) True (place s c.serviceName pos other (s.listOf t))) :
    wp (attachTo name t pos other o) (Attaches s name t pos other o) (Unplaced s name t pos other o) s := by
  have untouched : ∀ e s', Untouched s e s' → Unplaced s name t pos other o e s' :=
    fun _ _ h => ⟨h.1, .inl h.2⟩
  unfold attachTo
  rw [wp_bind, wp_get, wp_bind]
  rcases hc : s.cubes name with _ | c
  · exact untouched _ _ ⟨⟨_, rfl⟩, rfl⟩
  rw [found_some, wp_pure, wp_bind, wp_refuse]
  rcases free : c.parent with _ | r
  · rw [if_neg (by simp), wp_bind]
    refine wp_mono (wp_reach s name c.type o.construct t) ?_ untouched
    rintro ⟨⟩ s₁ ⟨reaches, reached⟩
    have fits := fits c hc free reaches
    obtain ⟨p, hp, list, cubes, alive₁⟩ : ∃ p, s₁.peers t = some p ∧ p.cubes = s.listOf t ∧
        s₁.cubes = s.cubes ∧ s₁.Alive p.cubes := by
      rcases reached with ⟨rfl, there⟩ | ⟨rfl, absent, -⟩
      · obtain ⟨p, hp⟩ := Option.ne_none_iff_exists'.1 there
        exact ⟨p, hp, by simp [Daemon.listOf, hp], rfl, alive p hp⟩
      · exact ⟨_, update_self .., by simp [Daemon.listOf, absent], rfl,
          fun x hx => absurd hx List.not_mem_nil⟩
    unfold addCube
    simp only [wp_bind, wp_get, hp, found_some, wp_pure, wp_refuse, if_neg (not_not.2 alive₁)]
    rw [← list, ← place_congr cubes] at fits
    rcases placed : place s₁ c.serviceName pos other p.cubes with i | message | _
    · rw [placed] at fits
      obtain ⟨relink, attached, parameters⟩ := fits
      unfold setParent
      simp only [position_at, wp_pure, wp_bind, wp_modify, relink, updateIndexes_none,
        raise_none, Daemon.peers_setPeer, update_self, found_some, attached]
      unfold wp
      rw [subscribeAll_run fun q hq => parameters q ((o.walk.perm _).mem_iff.1 hq)]
      rw [list, place_congr cubes] at placed
      exact ⟨c, p, s₁, hc, free, reaches, reached, hp, list, placed, rfl⟩
    · rw [position_throws, wp_throw]
      refine ⟨⟨_, rfl⟩, ?_⟩
      rcases reached with ⟨rfl, -⟩ | ⟨new, absent, iface⟩
      · exact .inl rfl
      · rw [list, place_congr cubes] at placed
        exact .inr ⟨absent, c, hc, free, reaches, .inr ⟨new, absent, iface⟩, message, placed⟩
    · rw [placed] at fits
      exact fits.elim
  · exact untouched _ _ ⟨⟨_, rfl⟩, rfl⟩

theorem wp_attach (inv : Inv s) (fits : s.Fits (.attach name t pos other o)) :
    wp (attach name t pos other o) (fun _ s' => Inv s') (Untouched s) s := by
  unfold attach
  rw [wp_bind]
  refine wp_mono (wp_attachTo (fun p hp x hx => inv.alive _ _ (lists_of_mem hp hx))
    fun c hc free reaches => ?_) ?_ ?_
  · have fits := fits c hc free reaches
    unfold Daemon.FitsAttach at fits
    revert fits
    cases place s c.serviceName pos other (s.listOf t) with
    | «at» i => exact fun fits => ⟨fits.1, fits.2.1, fits.2.2.1⟩
    | throws message => exact fun _ => trivial
    | undefined => exact False.elim
  · rintro i s' ⟨c, p, s₁, hc, free, reaches, reached, hp, list, placed, rfl⟩
    have fits := fits c hc free reaches
    unfold Daemon.FitsAttach at fits
    rw [placed] at fits
    obtain ⟨-, -, parameters, recorded⟩ := fits
    rw [recorded, raise_none, wp_pure]
    have le := place_le placed
    rw [← list] at le
    have known : ∀ q ∈ c.subscriptionList, available t q = true := fun q hq => (parameters q hq).1
    rcases reached with ⟨rfl, -⟩ | ⟨rfl, absent, -⟩
    · exact inv_attached inv hc free hp le (o.walk.perm _) known
    · exact inv_attached (inv_createPeer inv absent c.type) hc free hp le (o.walk.perm _) known
  · rintro e s' ⟨thrown, rfl | ⟨absent, c, hc, free, reaches, -, m, placed⟩⟩
    · exact ⟨thrown, rfl⟩
    · have fits := fits c hc free reaches
      unfold Daemon.FitsAttach at fits
      rw [placed] at fits
      exact absurd absent fits

/-! #### A cube leaves its parent -/

theorem Inv.mem_of_name (inv : Inv s) (hc : s.cubes name = some c) (hp : s.peers t = some p)
    (hx : x ∈ p.cubes) : x.name = name ↔ x = ⟨name, c.uuid⟩ := by
  refine ⟨fun same => ?_, fun h => by rw [h]⟩
  obtain ⟨c', h'⟩ := Option.isSome_iff_exists.1 (inv.alive _ x (lists_of_mem hp hx))
  obtain ⟨h', uuid⟩ := cube_eq_some.1 h'
  rw [same, hc, Option.some.injEq] at h'
  rw [h', uuid, ← same]

theorem eraseP_eq_erase {l : List CubeRef} {q : CubeRef → Bool}
    (h : ∀ y ∈ l, q y = true ↔ y = x) : l.eraseP q = l.erase x := by
  rw [List.erase_eq_eraseP]
  induction l with
  | nil => rfl
  | cons y l ih =>
    have rest := ih fun z hz => h z (List.mem_cons_of_mem y hz)
    have same : q y = (x == y) := by
      rw [Bool.eq_iff_iff, h y List.mem_cons_self, beq_iff_eq, eq_comm]
    rw [List.eraseP_cons, List.eraseP_cons, rest, same]

theorem eraseP_name (inv : Inv s) (hc : s.cubes name = some c) (hp : s.peers t = some p) :
    p.cubes.eraseP (fun x => x.name = name) = p.cubes.erase ⟨name, c.uuid⟩ :=
  eraseP_eq_erase fun _ hx => by rw [decide_eq_true_iff, inv.mem_of_name hc hp hx]

theorem keptBy_slot {t' : Target} {q : String} :
    (slot t q).keptBy t' = true ↔ t = t' ∧ t.isIface = true := by
  cases t <;> cases t' <;> simp [slot, Slot.keptBy, Target.isIface]

structure Left (s : Daemon) (x : CubeRef) (s' : Daemon) : Prop where
  lists : ∀ r y, s'.Lists r y ↔ s.Lists r y ∧ y ≠ x
  nodup : ∀ t p, s'.peers t = some p → p.cubes.Nodup

theorem left_erase (inv : Inv s) (hp : s.peers t = some p) (hx : x ∈ p.cubes) :
    Left s x (s.setPeer t (some { p with cubes := p.cubes.erase x })) where
  lists r y := by
    by_cases here : r.target = t
    · have there : (s.setPeer t (some { p with cubes := p.cubes.erase x })).peers r.target =
          some { p with cubes := p.cubes.erase x } := by
        rw [here]
        exact update_self ..
      rw [lists_iff there, lists_iff (here ▸ hp), (inv.nodup t p hp).mem_erase_iff]
      tauto
    · rw [lists_congr (s := s) (update_of_ne here ..)]
      refine (and_iff_left_of_imp fun h => ?_).symm
      rintro rfl
      obtain ⟨c, hc⟩ := Option.isSome_iff_exists.1 (inv.alive r y h)
      have parent := (inv.points hc).2 h
      rw [(inv.points hc).2 (lists_of_mem hp hx), Option.some.injEq] at parent
      exact here (congrArg PeerRef.target parent).symm
  nodup := nodup_setPeer inv ((inv.nodup t p hp).erase x)

theorem release_cases (s : Daemon) (t : Target) : s.release t = s ∨
    ∃ p, s.peers t = some p ∧ p.cubes = [] ∧ p.linked = false ∧ t.isIface = true ∧
      s.release t = (s.setPeer t none).forget t := by
  cases t with
  | port path => exact .inl rfl
  | iface e =>
    unfold Daemon.release
    rcases hp : s.peers (.iface e) with _ | p
    · exact .inl rfl
    · by_cases unused : p.cubes = [] ∧ p.linked = false
      · exact .inr ⟨p, rfl, unused.1, unused.2, rfl, if_pos unused⟩
      · exact .inl (if_neg unused)

theorem release_frame : (s.release t).cubes = s.cubes ∧ (s.release t).next = s.next := by
  rcases release_cases s t with h | ⟨p, -, -, -, -, h⟩
  · rw [h]
    exact ⟨rfl, rfl⟩
  · rw [h]
    exact ⟨rfl, rfl⟩

theorem lists_release : (s.release t).Lists r x ↔ s.Lists r x := by
  rcases release_cases s t with h | ⟨p, hp, empty, -, -, h⟩
  · rw [h]
  · rw [h]
    by_cases here : r.target = t
    · refine iff_of_false (not_lists ?_) ?_
      · rw [here]
        exact update_self ..
      · rw [lists_iff (here ▸ hp), empty]
        simp
    · exact lists_congr (update_of_ne here ..)

theorem nodup_release (nodup : ∀ t p, s.peers t = some p → p.cubes.Nodup) (t' : Target)
    (p' : PeerIface) (h : (s.release t).peers t' = some p') : p'.cubes.Nodup := by
  rcases release_cases s t with eq | ⟨p, hp, empty, -, -, eq⟩
  · exact nodup t' p' (eq ▸ h)
  · rw [eq] at h
    change update s.peers t none t' = some p' at h
    rw [update_apply] at h
    split_ifs at h
    exact nodup t' p' h

variable {k : Slot}

theorem callbacks_release {uuid : ℕ}
    (attached : s.callbacks (k, uuid) = true → ∀ p, s.peers t = some p → p.cubes = [] →
      k.keptBy t = false) :
    (s.release t).callbacks (k, uuid) = s.callbacks (k, uuid) := by
  rcases release_cases s t with h | ⟨p, hp, empty, -, -, h⟩
  · rw [h]
  · rw [h]
    change (s.callbacks (k, uuid) && !k.keptBy t) = s.callbacks (k, uuid)
    cases registered : s.callbacks (k, uuid)
    · rfl
    · rw [attached registered p hp empty]
      rfl

theorem callbacks_release_le {uuid : ℕ}
    (h : (s.release t).callbacks (k, uuid) = true) : s.callbacks (k, uuid) = true := by
  rcases release_cases s t with eq | ⟨p, -, -, -, -, eq⟩
  · exact eq ▸ h
  · rw [eq] at h
    exact (Bool.and_eq_true_iff.1 h).1

theorem callbacks_removed {u : ℕ} (hp : s.peers t = some p) (empty : p.cubes = [])
    (unlinked : p.linked = false) (kept : k.keptBy t = true) :
    (s.release t).callbacks (k, u) = false := by
  cases t with
  | port path => cases k <;> cases kept
  | iface e =>
    have removed : s.release (.iface e) = (s.setPeer (.iface e) none).forget (.iface e) := by
      unfold Daemon.release
      rw [hp]
      exact if_pos ⟨empty, unlinked⟩
    rw [removed]
    change (s.callbacks (k, u) && !k.keptBy (.iface e)) = false
    rw [kept, Bool.not_true, Bool.and_false]

theorem Inv.keptBy (inv : Inv s) (hc : s.cubes name = some c)
    (h : s.callbacks (k, c.uuid) = true) (kept : k.keptBy t = true) (hp : s.peers t = some p) :
    (⟨name, c.uuid⟩ : CubeRef) ∈ p.cubes := by
  have settled := inv.settled name c hc
  obtain ⟨r, q, parent, -, rfl⟩ := (settled.subscribed k).1 h
  have here := (keptBy_slot.1 kept).1
  exact ((lists_iff (here ▸ hp)).1 ((settled.parent r).1 parent)).2

theorem inv_release (inv : Inv s) (t : Target) : Inv (s.release t) where
  settled name c h := by
    rw [release_frame.1] at h
    have settled := inv.settled name c h
    refine ⟨fun r => (settled.parent r).trans lists_release.symm, settled.parameters,
      settled.known, fun k => ?_⟩
    rw [callbacks_release, settled.subscribed]
    intro registered p hp empty
    by_contra kept
    have there := inv.keptBy h registered (Bool.eq_true_of_not_eq_false kept) hp
    rw [empty] at there
    cases there
  alive r x h := by
    rw [Daemon.cube, release_frame.1]
    exact inv.alive r x (lists_release.1 h)
  nodup := nodup_release inv.nodup
  distinct := by
    rw [release_frame.1]
    exact inv.distinct
  uuids := by
    rw [release_frame.1, release_frame.2]
    exact inv.uuids
  callers k uuid h := by
    rw [release_frame.2]
    exact inv.callers k uuid (callbacks_release_le h)

def Daemon.detached (name : String) (c : TransparentCube) (t : Target) (p : PeerIface)
    (s : Daemon) : Daemon :=
  ((s.setPeer t (some { p with cubes := p.cubes.erase ⟨name, c.uuid⟩ })).release t).setCube name
    (some { c with parent := none })

theorem inv_detached (inv : Inv s) (hc : s.cubes name = some c) (hp : s.peers t = some p)
    (hx : (⟨name, c.uuid⟩ : CubeRef) ∈ p.cubes) (fits : c.subscriptionList = [] ∨ p.Last t) :
    Inv (s.detached name c t p) := by
  have left := left_erase inv hp hx
  have there : (s.setPeer t (some { p with cubes := p.cubes.erase ⟨name, c.uuid⟩ })).peers t =
      some { p with cubes := p.cubes.erase ⟨name, c.uuid⟩ } := update_self ..
  have lists : ∀ r x, (s.detached name c t p).Lists r x ↔ s.Lists r x ∧ x ≠ ⟨name, c.uuid⟩ :=
    fun r x => lists_release.trans (left.lists r x)
  have settled := inv.settled name c hc
  refine inv.change hc (fun name' other => ?_) (fun c' h => ?_) (fun h => ?_) (fun r x other => ?_)
    (nodup_release left.nodup) (fun name' c' other h k => ?_) (fun k uuid h => ?_) ?_
  · unfold Daemon.detached
    rw [Daemon.cubes_setCube, update_of_ne other, release_frame.1]
    rfl
  · unfold Daemon.detached at h
    rw [Daemon.cubes_setCube, update_self, Option.some.injEq] at h
    rw [← h]
    refine ⟨rfl, fun r => iff_of_false (by simp) fun h => ((lists r _).1 h).2 rfl,
      settled.parameters, by simp, fun k => iff_of_false (fun registered => ?_) (by simp)⟩
    obtain ⟨r, q, parent, hq, slot⟩ :=
      (settled.subscribed k).1 (callbacks_release_le (s := s.setPeer t _) registered)
    rcases fits with none | ⟨iface, unlinked, last⟩
    · rw [none] at hq
      cases hq
    · -- the interface is removed, and its callbacks with it
      have empty : p.cubes.erase ⟨name, c.uuid⟩ = [] := by
        rw [← List.length_eq_zero_iff, List.length_erase_of_mem hx, last]
      have target : r.target = t := by
        rw [(settled.parent _).2 (lists_of_mem hp hx), Option.some.injEq] at parent
        rw [← parent]
      have kept : k.keptBy t = true := slot ▸ keptBy_slot.2 ⟨target, target ▸ iface⟩
      have gone := callbacks_removed (k := k) (u := c.uuid) there empty unlinked kept
      exact Bool.false_ne_true (gone.symm.trans registered)
  · unfold Daemon.detached at h
    rw [Daemon.cubes_setCube, update_self] at h
    cases h
  · rw [lists, and_iff_left other]
  · refine callbacks_release fun registered q hq empty => ?_
    rw [there, Option.some.injEq] at hq
    rw [← hq] at empty
    by_contra kept
    have mine := inv.keptBy h registered (Bool.eq_true_of_not_eq_false kept) hp
    have rest : (⟨name', c'.uuid⟩ : CubeRef) ∈ p.cubes.erase ⟨name, c.uuid⟩ := by
      rw [(inv.nodup t p hp).mem_erase_iff]
      exact ⟨fun eq => other (congrArg CubeRef.name eq), mine⟩
    exact List.ne_nil_of_mem rest empty
  · exact .inl (callbacks_release_le (s := s.setPeer t _) h)
  · exact release_frame.2

variable {relink : Option Failure}

theorem wp_removeCube {ok : Unit → Daemon → Prop}
    {err : Failure → Daemon → Prop} (inv : Inv s) (hc : s.cubes name = some c)
    (hp : s.peers t = some p) (hx : (⟨name, c.uuid⟩ : CubeRef) ∈ p.cubes)
    (relinked : relink = none) :
    wp (removeCube name t relink) ok err s ↔
      ok () (s.setPeer t (some { p with cubes := p.cubes.erase ⟨name, c.uuid⟩ })) := by
  have alive : s.Alive p.cubes := fun x hx => inv.alive _ _ (lists_of_mem hp hx)
  have named : name ∈ p.cubes.map CubeRef.name := List.mem_map.2 ⟨_, hx, rfl⟩
  unfold removeCube
  simp only [wp_bind, wp_get, hp, found_some, wp_pure, wp_refuse, if_neg (not_not.2 alive),
    if_neg (not_not.2 named), wp_modify, relinked, updateIndexes_none]
  rw [← eraseP_name inv hc hp]

def Detaches (s : Daemon) (name : String) (t : Target) (s' : Daemon) : Prop :=
  ∃ c p, s.cubes name = some c ∧ s.peers t = some p ∧ name ∈ p.cubes.map CubeRef.name ∧
    s' = ((s.setPeer t (some { p with cubes := p.cubes.eraseP fun x => x.name = name })).release
      t).setCube name (some { c with parent := none })

theorem wp_detachFrom (alive : ∀ p, s.peers t = some p → s.Alive p.cubes)
    (fits : ∀ c, s.cubes name = some c → ∀ p, s.peers t = some p →
      name ∈ p.cubes.map CubeRef.name → relink = none) :
    wp (detachFrom name t relink) (fun _ => Detaches s name t) (Untouched s) s := by
  unfold detachFrom
  rw [wp_bind, wp_get, wp_bind]
  rcases hc : s.cubes name with _ | c
  · exact ⟨⟨_, rfl⟩, rfl⟩
  rw [found_some, wp_pure, wp_bind]
  rcases hp : s.peers t with _ | p
  · cases t <;> exact ⟨⟨_, rfl⟩, rfl⟩
  unfold removeCube
  simp only [wp_bind, wp_get, hp, found_some, wp_pure, wp_refuse, if_neg (not_not.2 (alive p hp))]
  by_cases named : name ∈ p.cubes.map CubeRef.name
  · simp only [if_neg (not_not.2 named), wp_modify, fits c hc p hp named]
    exact ⟨c, p, hc, hp, named, rfl⟩
  · rw [if_pos named]
    exact ⟨⟨_, rfl⟩, rfl⟩

theorem wp_detach (inv : Inv s) (fits : s.Fits (.detach name t o)) :
    wp (detach name t o) (fun _ s' => Inv s') (Untouched s) s := by
  unfold detach
  rw [wp_bind]
  refine wp_mono (wp_detachFrom (fun p hp x hx => inv.alive _ _ (lists_of_mem hp hx))
    fun c hc p hp named => (fits c hc p hp named).1) ?_ fun _ _ h => h
  rintro ⟨⟩ s' ⟨c, p, hc, hp, named, rfl⟩
  obtain ⟨-, recorded, leaves⟩ := fits c hc p hp named
  have hx : (⟨name, c.uuid⟩ : CubeRef) ∈ p.cubes := by
    obtain ⟨x, hx, same⟩ := List.mem_map.1 named
    rwa [← (inv.mem_of_name hc hp hx).1 same]
  rw [recorded, raise_none, wp_pure, eraseP_name inv hc hp]
  exact inv_detached inv hc hp hx leaves

theorem inv_gone (inv : Inv s) (hc : s.cubes name = some c) (left : Left s ⟨name, c.uuid⟩ s')
    (cubes : s'.cubes = s.cubes) (callbacks : s'.callbacks = s.callbacks)
    (next : s'.next = s.next) : Inv (s'.setCube name none) := by
  refine inv.change hc (fun name' other => ?_) (fun c' h => ?_) (fun _ r h => ?_)
    (fun r x other => ?_) left.nodup (fun name' c' _ _ k => ?_) (fun k uuid h => ?_) next
  · rw [Daemon.cubes_setCube, update_of_ne other, cubes]
  · rw [Daemon.cubes_setCube, update_self] at h
    cases h
  · exact ((left.lists r _).1 h).2 rfl
  · exact (left.lists r x).trans (and_iff_left other)
  · rw [Daemon.callbacks_setCube, callbacks]
  · exact .inl (callbacks ▸ h)

theorem wp_destroyCube (inv : Inv s) (fits : s.Fits (.destroyCube name relink)) :
    wp (destroyCube name relink) (fun _ s' => Inv s') (Untouched s) s := by
  unfold destroyCube
  rw [wp_bind, wp_get, wp_bind]
  rcases hc : s.cubes name with _ | c
  · exact ⟨⟨_, rfl⟩, rfl⟩
  rw [found_some, wp_pure, wp_bind]
  have settled := inv.settled name c hc
  rcases parent : c.parent with _ | r
  · have left : Left s ⟨name, c.uuid⟩ s := by
      refine ⟨fun r x => (and_iff_left_of_imp ?_).symm, inv.nodup⟩
      rintro listed rfl
      rw [← settled.parent, parent] at listed
      cases listed
    exact inv_gone inv hc left rfl rfl rfl
  · obtain ⟨p, hp, hx⟩ := (settled.parent r).1 parent
    unfold atParent
    rw [wp_bind, wp_get, wp_bind, hp, found_some, wp_pure, wp_tryCatch]
    obtain ⟨hp, -⟩ := peer_eq_some.1 hp
    rw [wp_removeCube inv hc hp hx (fits c hc (by rw [parent]; exact Option.some_ne_none r)),
      wp_modify]
    exact inv_gone inv hc (left_erase inv hp hx) rfl rfl rfl

/-! #### A parent is destroyed -/

def Daemon.without (t : Target) (p : PeerIface) (s : Daemon) : Daemon :=
  ((s.orphan (p.cubes.map CubeRef.name)).setPeer t none).forget t

theorem cubes_without {c' : TransparentCube} :
    (s.without t p).cubes name = some c' ↔ ∃ c, s.cubes name = some c ∧
      c' = if name ∈ p.cubes.map CubeRef.name then { c with parent := none } else c := by
  change (s.cubes name).map _ = some c' ↔ _
  rw [Option.map_eq_some_iff]
  simp only [eq_comm]

theorem lists_without : (s.without t p).Lists r x ↔ s.Lists r x ∧ r.target ≠ t := by
  by_cases here : r.target = t
  · refine iff_of_false (not_lists ?_) fun h => h.2 here
    rw [here]
    exact update_self ..
  · rw [and_iff_left here]
    exact lists_congr (update_of_ne here ..)

theorem inv_without (inv : Inv s) (hp : s.peers t = some p)
    (fits : t.isIface = true ∨ ∀ x ∈ p.cubes, ∀ c, s.cube x = some c → c.subscriptionList = []) :
    Inv (s.without t p) := by
  have uuid : ∀ {name c'}, (s.without t p).cubes name = some c' →
      ∃ c, s.cubes name = some c ∧ c.uuid = c'.uuid := by
    intro name c' h
    obtain ⟨c, hc, rfl⟩ := cubes_without.1 h
    refine ⟨c, hc, ?_⟩
    split_ifs <;> rfl
  have callbacks : ∀ k uuid, (s.without t p).callbacks (k, uuid) =
      (s.callbacks (k, uuid) && !k.keptBy t) := fun _ _ => rfl
  constructor
  · intro name c' h
    obtain ⟨c, hc, rfl⟩ := cubes_without.1 h
    have settled := inv.settled name c hc
    have listed : name ∈ p.cubes.map CubeRef.name ↔ (⟨name, c.uuid⟩ : CubeRef) ∈ p.cubes := by
      constructor
      · intro named
        obtain ⟨x, hx, same⟩ := List.mem_map.1 named
        rwa [← (inv.mem_of_name hc hp hx).1 same]
      · exact fun hx => List.mem_map.2 ⟨_, hx, rfl⟩
    split_ifs with here
    · have parent := (settled.parent _).2 (lists_of_mem hp (listed.1 here))
      refine ⟨fun r => iff_of_false (by simp) fun h => ?_, settled.parameters, by simp,
        fun k => iff_of_false (fun registered => ?_) (by simp)⟩
      · obtain ⟨lists, other⟩ := lists_without.1 h
        have same := (settled.parent r).2 lists
        rw [parent, Option.some.injEq] at same
        exact other (congrArg PeerRef.target same).symm
      · rw [callbacks, Bool.and_eq_true, Bool.not_eq_true'] at registered
        obtain ⟨r, q, there, hq, slot⟩ := (settled.subscribed k).1 registered.1
        rw [parent, Option.some.injEq] at there
        rcases fits with iface | none
        · have kept : k.keptBy t = true := by
            rw [← slot, ← there]
            exact keptBy_slot.2 ⟨rfl, iface⟩
          exact Bool.false_ne_true (registered.2.symm.trans kept)
        · rw [none _ (listed.1 here) c (cube_eq_some.2 ⟨hc, rfl⟩)] at hq
          cases hq
    · refine ⟨fun r => ?_, settled.parameters, settled.known, fun k => ?_⟩
      · rw [lists_without, settled.parent]
        refine (and_iff_left_of_imp fun lists same => here (listed.2 ?_)).symm
        exact ((lists_iff (same ▸ hp)).1 lists).2
      · rw [callbacks, ← settled.subscribed, Bool.and_eq_true]
        refine and_iff_left_of_imp fun registered => ?_
        rw [Bool.not_eq_true']
        by_contra kept
        exact here (listed.2 (inv.keptBy hc registered (Bool.eq_true_of_not_eq_false kept) hp))
  · intro r x h
    obtain ⟨c, hc⟩ := Option.isSome_iff_exists.1 (inv.alive r x (lists_without.1 h).1)
    obtain ⟨hc, same⟩ := cube_eq_some.1 hc
    rw [Option.isSome_iff_exists]
    refine ⟨_, cube_eq_some.2 ⟨cubes_without.2 ⟨c, hc, rfl⟩, ?_⟩⟩
    split_ifs <;> exact same
  · intro t' p' h
    change update s.peers t none t' = some p' at h
    rw [update_apply] at h
    split_ifs at h
    exact inv.nodup t' p' h
  · intro name₁ name₂ c₁ c₂ h₁ h₂ same
    obtain ⟨b₁, h₁, e₁⟩ := uuid h₁
    obtain ⟨b₂, h₂, e₂⟩ := uuid h₂
    exact inv.distinct name₁ name₂ b₁ b₂ h₁ h₂ (by rw [e₁, e₂, same])
  · intro name c' h
    obtain ⟨c, hc, same⟩ := uuid h
    rw [← same]
    exact inv.uuids name c hc
  · intro k uuid h
    rw [callbacks, Bool.and_eq_true] at h
    exact inv.callers k uuid h.1

theorem wp_destroyPeer (inv : Inv s) (fits : s.Fits (.destroyPeer t)) :
    wp (destroyPeer t) (fun _ s' => Inv s') (Untouched s) s := by
  unfold destroyPeer
  rw [wp_bind, wp_get, wp_bind]
  rcases hp : s.peers t with _ | p
  · cases t <;> exact ⟨⟨_, rfl⟩, rfl⟩
  have alive : s.Alive p.cubes := fun x hx => inv.alive _ _ (lists_of_mem hp hx)
  rw [found_some, wp_pure, wp_bind, wp_refuse, if_neg (not_not.2 alive), wp_modify]
  refine inv_without inv hp ?_
  cases t with
  | port path => exact .inr fun x hx c hc => fits p hp x hx c hc
  | iface e => exact .inl rfl

/-! #### A cube has other parameters -/

theorem inv_parameters (inv : Inv s) (hc : s.cubes name = some c) {l : List String}
    (nodup : l.Nodup) (known : ∀ r, c.parent = some r → ∀ q ∈ l, available r.target q = true)
    (cubes : s'.cubes = update s.cubes name (some (c.withParameters l)))
    (peers : s'.peers = s.peers) (next : s'.next = s.next)
    (others : ∀ k uuid, uuid ≠ c.uuid → s'.callbacks (k, uuid) = s.callbacks (k, uuid))
    (mine : ∀ k, s'.callbacks (k, c.uuid) = true ↔
      ∃ r q, c.parent = some r ∧ q ∈ l ∧ slot r.target q = k) : Inv s' := by
  have lists : ∀ r x, s'.Lists r x ↔ s.Lists r x := fun r x =>
    lists_congr (congrFun peers r.target)
  have settled := inv.settled name c hc
  refine inv.change hc (fun name' other => ?_) (fun c' h => ?_) (fun h => ?_)
    (fun r x _ => lists r x) (peers ▸ inv.nodup) (fun name' c' other h k => ?_)
    (fun k uuid h => ?_) next
  · rw [cubes, update_of_ne other]
  · rw [cubes, update_self, Option.some.injEq] at h
    rw [← h]
    exact ⟨rfl, fun r => (settled.parent r).trans (lists r _).symm, nodup, known, mine⟩
  · rw [cubes, update_self] at h
    cases h
  · exact others k c'.uuid fun same => other (inv.distinct name' name c' c h hc same)
  · by_cases same : uuid = c.uuid
    · exact .inr same
    · exact .inl (others k uuid same ▸ h)

theorem SameAttachment.refl (s : Daemon) : SameAttachment s s := ⟨fun _ => rfl, fun _ => rfl⟩

theorem sameAttachment_parameters (hc : s.cubes name = some c) {l : List String}
    (cubes : s'.cubes = update s.cubes name (some (c.withParameters l)))
    (peers : s'.peers = s.peers) : SameAttachment s s' := by
  refine ⟨fun name' => ?_, fun t => by rw [peers]⟩
  rw [cubes, update_apply]
  split_ifs with same
  · rw [same, hc]
    rfl
  · rfl

def Throws (s : Daemon) (e : Failure) (s' : Daemon) : Prop :=
  (∃ m, e = .thrown m) ∧ SameAttachment s s' ∧ Inv s'

theorem Untouched.throws (inv : Inv s) {e : Failure} (h : Untouched s e s') : Throws s e s' :=
  ⟨h.1, h.2 ▸ SameAttachment.refl s, h.2 ▸ inv⟩

theorem wp_subscribe {parameter : String} {notify : String → Option String} (inv : Inv s)
    (fits : s.Fits (.subscribe name parameter notify)) :
    wp (subscribeParentParameter name parameter notify) (fun _ s' => Inv s') (Throws s) s := by
  unfold subscribeParentParameter
  rw [wp_bind, wp_get, wp_bind]
  rcases hc : s.cubes name with _ | c
  · exact Untouched.throws inv ⟨⟨_, rfl⟩, rfl⟩
  rw [found_some, wp_pure, wp_bind, wp_modify]
  have settled := inv.settled name c hc
  have nodup : (c.subscriptionList.insert parameter).Nodup := settled.parameters.insert
  rcases parent : c.parent with _ | r
  · refine inv_parameters inv hc nodup (by simp [parent]) rfl rfl rfl (fun _ _ _ => rfl) fun k => ?_
    rw [Daemon.callbacks_setCube, settled.subscribed, parent]
    simp
  · obtain ⟨p, hp, -⟩ := (settled.parent r).1 parent
    have known := fits c hc r parent
    have inv' : Inv ((s.setCube name (some
        (c.withParameters (c.subscriptionList.insert parameter)))).setCallback
          (slot r.target parameter) c.uuid true) := by
      refine inv_parameters inv hc nodup (fun r' parent' q hq => ?_) rfl rfl rfl
        (fun k uuid other => ?_) fun k => ?_
      · rw [parent, Option.some.injEq] at parent'
        rw [← parent']
        rcases List.mem_insert_iff.1 hq with rfl | hq
        · exact known
        · exact settled.known r parent q hq
      · rw [callbacks_setCallback, if_neg fun h => other h.2]
        rfl
      · rw [callbacks_setCallback, Daemon.callbacks_setCube]
        split_ifs with here
        · exact iff_of_true rfl ⟨r, parameter, parent, List.mem_insert_self, here.1.symm⟩
        · rw [settled.subscribed]
          constructor
          · rintro ⟨r', q, parent', hq, at'⟩
            exact ⟨r', q, parent', List.mem_insert_of_mem hq, at'⟩
          · rintro ⟨r', q, parent', hq, at'⟩
            rcases List.mem_insert_iff.1 hq with rfl | hq
            · rw [parent, Option.some.injEq] at parent'
              exact absurd ⟨by rw [← at', parent'], rfl⟩ here
            · exact ⟨r', q, parent', hq, at'⟩
    have there : (s.setCube name (some
        (c.withParameters (c.subscriptionList.insert parameter)))).peer r = some p := hp
    unfold atParent subscribeParameter
    simp only [wp_bind, wp_get, there, found_some, wp_pure, wp_refuse, known, Bool.true_eq_false, if_false,
      wp_modify]
    cases notify parameter with
    | none => exact inv'
    | some message => exact ⟨⟨_, rfl⟩, sameAttachment_parameters hc rfl rfl, inv'⟩

theorem wp_unsubscribe {parameter : String} (inv : Inv s)
    (fits : s.Fits (.unsubscribe name parameter)) :
    wp (unsubscribeParentParameter name parameter) (fun _ s' => Inv s') (Throws s) s := by
  unfold unsubscribeParentParameter
  rw [wp_bind, wp_get, wp_bind]
  rcases hc : s.cubes name with _ | c
  · exact Untouched.throws inv ⟨⟨_, rfl⟩, rfl⟩
  rw [found_some, wp_pure, wp_bind, wp_modify]
  have settled := inv.settled name c hc
  have nodup : (c.subscriptionList.erase parameter).Nodup := settled.parameters.erase parameter
  have known : ∀ r, c.parent = some r → ∀ q ∈ c.subscriptionList.erase parameter,
      available r.target q = true :=
    fun r parent q hq => settled.known r parent q (List.mem_of_mem_erase hq)
  rcases parent : c.parent with _ | r
  · refine inv_parameters inv hc nodup known rfl rfl rfl (fun _ _ _ => rfl) fun k => ?_
    rw [Daemon.callbacks_setCube, settled.subscribed, parent]
    simp
  · obtain ⟨p, hp, -⟩ := (settled.parent r).1 parent
    have fits := fits c hc r parent
    -- without a callback for the parameter, it is none of the cube's
    have inv₁ : parameter ∉ c.subscriptionList → Inv (s.setCube name
        (some (c.withParameters (c.subscriptionList.erase parameter)))) := by
      intro absent
      refine inv_parameters inv hc nodup known rfl rfl rfl (fun _ _ _ => rfl) fun k => ?_
      rw [Daemon.callbacks_setCube, settled.subscribed, List.erase_of_not_mem absent]
    have throws : ∀ message, parameter ∉ c.subscriptionList → Throws s (.thrown message)
        (s.setCube name (some (c.withParameters (c.subscriptionList.erase parameter)))) :=
      fun message absent => ⟨⟨_, rfl⟩, sameAttachment_parameters hc rfl rfl, inv₁ absent⟩
    have there : (s.setCube name (some
        (c.withParameters (c.subscriptionList.erase parameter)))).peer r = some p := hp
    unfold atParent unsubscribeParameter
    simp only [wp_bind, wp_get, there, found_some, wp_pure, wp_refuse, wp_modify]
    split_ifs with unknown unregistered
    · refine throws _ fun mem => ?_
      rw [settled.known r parent parameter mem] at unknown
      cases unknown
    · refine throws _ fun mem => ?_
      have registered := (settled.subscribed _).2 ⟨r, parameter, parent, mem, rfl⟩
      exact Bool.false_ne_true (unregistered.symm.trans registered)
    · refine inv_parameters inv hc nodup known rfl rfl rfl (fun k uuid other => ?_) fun k => ?_
      · rw [callbacks_setCallback, if_neg fun h => other h.2]
        rfl
      · rw [callbacks_setCallback]
        split_ifs with here
        · refine iff_of_false not_false ?_
          rintro ⟨r', q, parent', hq, at'⟩
          rw [parent, Option.some.injEq] at parent'
          rw [← parent', here.1] at at'
          rw [settled.parameters.mem_erase_iff] at hq
          exact hq.1 (fits q hq.2 at')
        · rw [Daemon.callbacks_setCube, settled.subscribed]
          constructor
          · rintro ⟨r', q, parent', hq, at'⟩
            refine ⟨r', q, parent', settled.parameters.mem_erase_iff.2 ⟨?_, hq⟩, at'⟩
            rintro rfl
            rw [parent, Option.some.injEq] at parent'
            exact here ⟨by rw [← at', parent'], rfl⟩
          · rintro ⟨r', q, parent', hq, at'⟩
            exact ⟨r', q, parent', List.mem_of_mem_erase hq, at'⟩

theorem wp_exec {op : Op} (inv : Inv s) (fits : s.Fits op) :
    wp (exec op) (fun _ s' => Inv s') (Throws s) s := by
  have clean : ∀ {x : Core Unit}, wp x (fun _ s' => Inv s') (Untouched s) s →
      wp x (fun _ s' => Inv s') (Throws s) s :=
    fun h => wp_mono h (fun _ _ inv => inv) fun _ _ untouched => untouched.throws inv
  cases op with
  | createCube name type serviceName =>
    refine clean ?_
    unfold exec createCube
    rw [wp_bind, wp_get, wp_bind, wp_refuse]
    split_ifs with taken
    · exact ⟨⟨_, rfl⟩, rfl⟩
    · exact inv_createCube inv (Option.not_isSome_iff_eq_none.1 taken) type serviceName
  | destroyCube name relink => exact clean (wp_destroyCube inv fits)
  | createPeer t type =>
    refine clean ?_
    unfold exec createPeer
    rw [wp_bind, wp_get, wp_bind, wp_refuse]
    split_ifs with taken
    · exact ⟨⟨_, rfl⟩, rfl⟩
    · exact inv_createPeer inv (Option.not_isSome_iff_eq_none.1 taken) type
  | destroyPeer t => exact clean (wp_destroyPeer inv fits)
  | link t linked =>
    refine clean ?_
    unfold exec link
    rw [wp_bind, wp_get, wp_bind]
    rcases hp : s.peers t with _ | p
    · cases t <;> exact ⟨⟨_, rfl⟩, rfl⟩
    · exact inv_link inv hp linked
  | release t => exact inv_release inv t
  | subscribe name parameter notify => exact wp_subscribe inv fits
  | unsubscribe name parameter => exact wp_unsubscribe inv fits
  | attach name t pos other o => exact clean (wp_attach inv fits)
  | detach name t o => exact clean (wp_detach inv fits)

theorem step_spec {op : Op} (inv : Inv s) (fits : s.Fits op) :
    (∃ s', step (some s) op = some s' ∧ Inv s') ∧ s.FailsClean op := by
  have spec := wp_exec inv fits
  unfold step Daemon.FailsClean
  unfold wp at spec
  rw [Option.bind_some]
  rcases h : (exec op).run s with ⟨⟨⟩, s'⟩ | ⟨e, s'⟩
  · rw [h] at spec
    refine ⟨⟨s', rfl, spec⟩, fun message s'' eq => ?_⟩
    cases eq
  · rw [h] at spec
    obtain ⟨⟨m, rfl⟩, same, inv'⟩ := spec
    refine ⟨⟨s', rfl, inv'⟩, fun message s'' eq => ?_⟩
    cases eq
    exact same

/-- Runs whose steps meet the condition are defined and keep everything consistent; and a request
that throws behind such a run changes nothing of the attachment, if it meets the condition. -/
theorem attached_of_run {ops : List Op} (fits : Meets step FitsIn (some Daemon.start) ops) :
    ∃ s, run step (some Daemon.start) ops = some s ∧ Consistent s ∧
      ∀ op, s.Fits op → s.FailsClean op := by
  have kept : ∃ s, run step (some Daemon.start) ops = some s ∧ Inv s := by
    refine run_induction (P := fun s => ∃ t, s = some t ∧ Inv t) ?_ ⟨_, rfl, inv_start⟩ fits
    rintro _ op ⟨s, rfl, inv⟩ fits
    exact (step_spec inv (fits s rfl)).1
  obtain ⟨s, here, inv⟩ := kept
  exact ⟨s, here, inv.consistent, fun op fits => (step_spec inv fits).2⟩

/-! ### Examples of runs -/

instance (placed refused : Prop) [Decidable placed] [Decidable refused] :
    ∀ at', Decidable (Allows placed refused at')
  | .at _ => inferInstanceAs (Decidable placed)
  | .throws _ => inferInstanceAs (Decidable refused)
  | .undefined => inferInstanceAs (Decidable False)

instance (s : Daemon) (c : TransparentCube) (t : Target) (pos other : String) (o : Outside) :
    Decidable (s.FitsAttach c t pos other o) := by
  unfold Daemon.FitsAttach
  infer_instance

instance (s : Daemon) (type : PortType) (construct : Option String) :
    ∀ t, Decidable (s.Reaches type construct t)
  | .port path => inferInstanceAs (Decidable (∃ p ∈ s.peers (.port path), p.type = type))
  | .iface e => inferInstanceAs (Decidable ((s.peers (.iface e)).isNone → construct = none))

instance (t : Target) (p : PeerIface) : Decidable (p.Last t) :=
  inferInstanceAs (Decidable (t.isIface = true ∧ p.linked = false ∧ p.cubes.length = 1))

instance (s : Daemon) : ∀ op, Decidable (s.Fits op)
  | .attach name t pos other o => decidable_of_iff (∀ c ∈ s.cubes name, c.parent = none →
      s.Reaches c.type o.construct t → s.FitsAttach c t pos other o) Iff.rfl
  | .detach name t o => decidable_of_iff (∀ c ∈ s.cubes name, ∀ p ∈ s.peers t,
      name ∈ p.cubes.map CubeRef.name → o.relink = none ∧ recording t o.record = none ∧
        (c.subscriptionList = [] ∨ p.Last t)) Iff.rfl
  | .destroyCube name relink => decidable_of_iff (∀ c ∈ s.cubes name,
      c.parent ≠ none → relink = none) Iff.rfl
  | .destroyPeer (.port path) => decidable_of_iff (∀ p ∈ s.peers (.port path),
      ∀ x ∈ p.cubes, ∀ c ∈ s.cube x, c.subscriptionList = []) Iff.rfl
  | .destroyPeer (.iface _) => inferInstanceAs (Decidable True)
  | .subscribe name parameter _ => decidable_of_iff (∀ c ∈ s.cubes name, ∀ r ∈ c.parent,
      available r.target parameter = true) Iff.rfl
  | .unsubscribe name parameter => decidable_of_iff (∀ c ∈ s.cubes name, ∀ r ∈ c.parent,
      ∀ q ∈ c.subscriptionList, slot r.target q = slot r.target parameter → q = parameter) Iff.rfl
  | .createCube .. | .createPeer .. | .link .. | .release _ => inferInstanceAs (Decidable True)

instance (s : Option Daemon) (op : Op) : Decidable (FitsIn s op) :=
  decidable_of_iff (∀ t ∈ s, t.Fits op) Iff.rfl

theorem walk_refl (l : List String) : (id l).Perm l := List.Perm.refl l

def quiet : Outside := ⟨none, none, none, fun _ => none, ⟨id, walk_refl⟩, none⟩

def someOps : List Op :=
  [.createCube "nat0" .tc "nat", .subscribe "nat0" "ip" fun _ => none,
    .createPeer (.port "r1:p") .tc, .attach "nat0" (.iface "eth0") "auto" "" quiet,
    .attach "nat0" (.port "r1:p") "first" "" quiet, .detach "nat0" (.iface "eth0") quiet,
    .attach "nat0" (.port "r1:p") "last" "" quiet, .detach "nat0" (.iface "eth0") quiet,
    .destroyCube "nat0" none]

theorem attached_someOps : ∃ s, run step (some Daemon.start) someOps = some s ∧ Consistent s ∧
    ∀ op, s.Fits op → s.FailsClean op :=
  attached_of_run (by decide +kernel)

def leftOps : List Op :=
  [.createCube "nat0" .tc "nat", .subscribe "nat0" "ip" fun _ => none,
    .createPeer (.port "r1:p") .tc, .attach "nat0" (.port "r1:p") "first" "" quiet,
    .detach "nat0" (.port "r1:p") quiet]

/-- The cube is still called back by the port. -/
theorem not_attached_detach : ¬∀ ops s, run step (some Daemon.start) ops = some s →
    Consistent s := by
  intro consistent
  have left : ∃ s c, run step (some Daemon.start) leftOps = some s ∧
      s.cube ⟨"nat0", 0⟩ = some c ∧ c.parent = none ∧
      s.callbacks (slot (.port "r1:p") "ip", 0) = true := ⟨_, _, rfl, rfl, rfl, rfl⟩
  obtain ⟨s, c, here, hc, parent, registered⟩ := left
  have subscribed := (consistent leftOps s here).subscribed _ c hc (slot (.port "r1:p") "ip")
  rw [(cube_eq_some.1 hc).2, parent] at subscribed
  obtain ⟨r, q, h, -⟩ := subscribed.1 registered
  cases h

end Polycube.Polycubed.Attachment
