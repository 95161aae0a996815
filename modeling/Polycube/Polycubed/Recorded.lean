import Polycube.Polycubed.Attached
import Polycube.Polycubed.Linked
import Polycube.Polycubed.Records

/-!
# The saved configuration is that of the cubes

Each port has a record with its peer and with the names of its transparent cubes, in the order of
the list.  A request keeps this as long as nothing fails behind a change, and a port that gets a
peer has none in its record, not even an empty one.
-/

namespace Polycube.Polycubed.Records

open Function

open Lib Attachment

def Saved.names (s : Saved) (p : PortId) : List String :=
  if parsePeerName p.path = some (p.cube, p.name) then
    (s.daemon.listOf (.port p.path)).map CubeRef.name
  else []

structure Right (s : Saved) : Prop where
  recorded : ∀ p peer, s.ports p = some peer → ∃ conf, s.recordOf p.cube p.name = .ok conf ∧
    conf.peer.getD "" = peer ∧ conf.tcubes.getD [] = s.names p
  kept : s.missed = false

def Saved.recordedPeer (s : Saved) (cube port : String) : Option String :=
  match s.recordOf cube port with
  | .ok conf => conf.peer
  | .error _ => none

/-- What setting the peer of a port must meet, if it is not set already: it does not hang; and a port
that gets a peer has none in its record, and its subscriptions at the peer do not fail. -/
def Saved.FitsPeer (s : Saved) (peer₁ peer₂ : String) (o : Linked) : Prop :=
  ∀ id, parsePeerName peer₁ = some id → ∀ old, s.ports ⟨id.1, id.2⟩ = some old → old ≠ peer₂ →
    o.link ≠ some .undefined ∧ (o.link = none → peer₂ ≠ "" →
      o.subscribe = none ∧ s.recordedPeer id.1 id.2 = none)

def Saved.Free (s : Saved) (peer : String) : Prop :=
  ∀ id, parsePeerName peer = some id → s.ports ⟨id.1, id.2⟩ = some ""

def Saved.Spares (s : Saved) (name : String) (body : List PortConf) : Prop :=
  recordName name = name ∨ body = [] ∧ s.standard (recordName name) = false

/-- What a step must meet.  No step fails behind a change to a list or a peer, and no position is
undefined; a creation that fails has no transparent cubes in its body. -/
def Saved.Fits (s : Saved) : Op → Prop
  | .createCube name _ body valid created o => s.exists name = false → valid = true →
    if created = true ∧ ((body.getD []).map PortConf.name).Nodup then
      s.Spares name (body.getD []) ∧ ∀ x ∈ tCubes name (body.getD []),
        ∀ c, s.daemon.cubes x.2 = some c → c.parent = none → (o x.2).Quiet c (targetOf x.1)
    else ((body.getD []).any fun conf => conf.tcubes.isSome) = false
  | .createTransparentCube name _ _ _ valid created => s.exists name = false → valid = true →
    created = true → s.Spares name []
  | .connect peer₁ peer₂ o₁ o₂ => s.Free peer₁ → s.Free peer₂ →
    s.FitsPeer peer₁ peer₂ o₁ ∧ s.FitsPeer peer₂ peer₁ o₂
  | .disconnect peer₁ peer₂ o₁ o₂ => s.FitsPeer peer₁ "" o₁ ∧ s.FitsPeer peer₂ "" o₂
  | .attach name portName pos other o => ∀ c, s.daemon.cubes name = some c → c.parent = none →
    s.daemon.Reaches c.type o.construct (targetOf portName) →
      Allows (o.Quiet c (targetOf portName)) True
        (place s.daemon c.serviceName pos other (s.daemon.listOf (targetOf portName)))
  | .detach name portName relink => ∀ c, s.daemon.cubes name = some c →
    ∀ p, s.daemon.peers (targetOf portName) = some p → name ∈ p.cubes.map CubeRef.name →
      relink = none

def FitsIn (s : Option Saved) (op : Op) : Prop := ∀ t, s = some t → t.Fits op

/-! ### The invariant -/

structure Inv (s : Saved) : Prop extends Right s where
  owned : ∀ p, s.ports p ≠ none → s.standard p.cube = true
  targets : ∀ path, s.daemon.peers (.port path) ≠ none →
    ∃ p : PortId, parsePeerName path = some (p.cube, p.name) ∧ s.ports p ≠ none
  alive : ∀ t, s.daemon.Alive (s.daemon.listOf t)

variable {s s' : Saved} {cube port : String} {conf : PortConf} {p : PortId}

theorem inv_start : Inv start where
  recorded _ _ h := by cases h
  kept := rfl
  owned _ h := absurd rfl h
  targets _ h := absurd rfl h
  alive _ _ h := absurd h List.not_mem_nil

@[simp] theorem wp_onDaemon {α : Type} {x : Core α} {ok : α → Saved → Prop}
    {err : Failure → Saved → Prop} :
    wp (onDaemon x) ok err s ↔ wp x (fun a d => ok a { s with daemon := d })
      (fun e d => err e { s with daemon := d }) s.daemon := by
  unfold wp
  cases h : x.run s.daemon with
  | ok a d =>
    have run : (onDaemon x).run s = .ok a { s with daemon := d } := by
      change onDaemon x s = _
      unfold onDaemon
      rw [h]
    rw [run]
  | error e d =>
    have run : (onDaemon x).run s = .error e { s with daemon := d } := by
      change onDaemon x s = _
      unfold onDaemon
      rw [h]
    rw [run]

section

variable {α : Type} {a : α} {e : Failure} {ok : Unit → Saved → Prop}
  {err : Failure → Saved → Prop}

@[simp] theorem fails_some : fails (some e) = throw e := rfl

@[simp] theorem fails_none : fails none = pure () := rfl

theorem wp_reject {c : Prop} [Decidable c] :
    wp (reject c e) ok err s ↔ if c then err e s else ok () s := by
  unfold reject
  rw [wp_ite]
  rfl

theorem wp_onRecord {patch : PortConf → Except Failure PortConf} {conf' : PortConf}
    (h : s.recordOf cube port = .ok conf) (patched : patch conf = .ok conf') :
    wp (onRecord cube port patch) ok err s ↔ ok () (s.setRecord cube port conf') := by
  have run : (onRecord cube port patch).run s = .ok () (s.setRecord cube port conf') := by
    change onRecord cube port patch s = _
    have both : (s.recordOf cube port).bind patch = .ok conf' := by
      rw [h]
      exact patched
    unfold onRecord
    rw [both]
  unfold wp
  rw [run]

end

/-! #### Records -/

theorem recordOf_eq_ok : s.recordOf cube port = .ok conf ↔
    ∃ l, s.config cube = some (some l) ∧ findKey PortConf.name port l = some conf := by
  unfold Saved.recordOf
  rcases s.config cube with _ | _ | l
  · simp
  · simp
  · rcases h : findKey PortConf.name port l with _ | c
    · simp [h]
    · simp [h]

theorem recordOf_setRecord (h : s.recordOf cube port = .ok conf) (conf' : PortConf) :
    (∃ c, (s.setRecord cube port conf').recordOf cube port = .ok c ∧ c.peer = conf'.peer ∧
      c.tcubes = conf'.tcubes) ∧
    ∀ q : PortId, q ≠ ⟨cube, port⟩ →
      (s.setRecord cube port conf').recordOf q.cube q.name = s.recordOf q.cube q.name := by
  obtain ⟨l, hl, found⟩ := recordOf_eq_ok.1 h
  have config : (s.setRecord cube port conf').config cube = some (some
      (modifyKey PortConf.name port conf'.inPlaceOf l)) := by
    unfold Saved.setRecord
    simp [hl]
  constructor
  · refine ⟨conf'.inPlaceOf conf, recordOf_eq_ok.2 ⟨_, config, ?_⟩, rfl, rfl⟩
    rw [findKey_modifyKey (f := conf'.inPlaceOf) fun _ => rfl, if_pos rfl,
      found]
    rfl
  · intro q other
    by_cases same : q.cube = cube
    · have name : q.name ≠ port := fun eq => other (PortId.mk.injEq .. ▸ ⟨same, eq⟩)
      unfold Saved.recordOf
      rw [same, config, hl]
      dsimp only
      rw [findKey_modifyKey (f := conf'.inPlaceOf) (fun _ => rfl),
        if_neg name]
    · unfold Saved.recordOf Saved.setRecord
      dsimp only
      rw [update_of_ne same]

structure RightBut (p : PortId) (s : Saved) : Prop where
  recorded : ∀ q, q ≠ p → ∀ peer, s.ports q = some peer → ∃ conf,
    s.recordOf q.cube q.name = .ok conf ∧ conf.peer.getD "" = peer ∧
      conf.tcubes.getD [] = s.names q
  kept : s.missed = false
  owned : ∀ q, s.ports q ≠ none → s.standard q.cube = true
  targets : ∀ path, s.daemon.peers (.port path) ≠ none →
    ∃ q : PortId, parsePeerName path = some (q.cube, q.name) ∧ s.ports q ≠ none
  alive : ∀ t, s.daemon.Alive (s.daemon.listOf t)

theorem RightBut.patch (but : RightBut p s) (h : s.recordOf p.cube p.name = .ok conf)
    {conf' : PortConf} (own : ∀ peer, s.ports p = some peer →
      conf'.peer.getD "" = peer ∧ conf'.tcubes.getD [] = s.names p) :
    Inv (s.setRecord p.cube p.name conf') where
  recorded q peer hq := by
    obtain ⟨⟨c, hc, peerEq, tcubes⟩, others⟩ := recordOf_setRecord h conf'
    by_cases here : q = p
    · rw [here] at hq ⊢
      obtain ⟨right, list⟩ := own peer hq
      exact ⟨c, hc, peerEq ▸ right, tcubes ▸ list⟩
    · rw [others q here]
      exact but.recorded q here peer hq
  kept := but.kept
  owned := but.owned
  targets := but.targets
  alive := but.alive

/-! #### Peers -/

def Throws (e : Failure) (s : Saved) : Prop := (∃ m, e = .thrown m) ∧ Inv s

theorem Inv.but_withPeer (inv : Inv s) {old : String} (hp : s.ports p = some old) (peer : String) :
    RightBut p (s.withPeer p peer) where
  recorded q other peer' hq := by
    unfold Saved.withPeer at hq
    dsimp only at hq
    rw [update_of_ne other] at hq
    exact inv.recorded q peer' hq
  kept := inv.kept
  owned q hq := by
    by_cases here : q = p
    · rw [here]
      exact inv.owned p (by rw [hp]; exact Option.some_ne_none old)
    · unfold Saved.withPeer at hq
      dsimp only at hq
      rw [update_of_ne here] at hq
      exact inv.owned q hq
  targets path h := by
    obtain ⟨q, parsed, there⟩ := inv.targets path h
    refine ⟨q, parsed, ?_⟩
    unfold Saved.withPeer
    dsimp only
    rw [update_apply]
    split_ifs
    · exact Option.some_ne_none peer
    · exact there
  alive := inv.alive

structure PeerSet (p : PortId) (peer : String) (s s' : Saved) : Prop where
  peer : s'.ports p = some peer
  others : ∀ q, q ≠ p → s'.ports q = s.ports q ∧
    s'.recordOf q.cube q.name = s.recordOf q.cube q.name

theorem wp_getPort (cube port : String) :
    wp (getPort cube port) (fun old s' => s' = s ∧ s.ports ⟨cube, port⟩ = some old)
      (fun e s' => (∃ m, e = .thrown m) ∧ s' = s) s := by
  unfold getPort
  rw [wp_bind, wp_get, wp_bind, wp_reject]
  split_ifs
  · exact ⟨⟨_, rfl⟩, rfl⟩
  rw [wp_bind, wp_reject]
  split_ifs
  · exact ⟨⟨_, rfl⟩, rfl⟩
  rcases h : s.ports ⟨cube, port⟩ with _ | old
  · exact ⟨⟨_, rfl⟩, rfl⟩
  · exact ⟨rfl, rfl⟩

theorem wp_getPortPeer (peer : String) :
    wp (getPortPeer peer)
      (fun ret s' => s' = s ∧ ∀ id, parsePeerName peer = some id →
        s.ports ⟨id.1, id.2⟩ = some ret)
      (fun e s' => (∃ m, e = .thrown m) ∧ s' = s) s := by
  unfold getPortPeer
  rcases h : parsePeerName peer with _ | ⟨cube, port⟩
  · exact ⟨rfl, fun id h => by cases h⟩
  · refine wp_mono (wp_getPort cube port) ?_ fun _ _ h => h
    rintro old s' ⟨rfl, there⟩
    refine ⟨rfl, fun id h => ?_⟩
    rw [← Option.some.inj h]
    exact there

variable {peer₁ peer₂ : String}

theorem wp_tryToSetPeer {o : Linked} (inv : Inv s) (fits : s.FitsPeer peer₁ peer₂ o) :
    wp (tryToSetPeer peer₁ peer₂ o) (fun _ s' => Inv s' ∧ (parsePeerName peer₁ = none → s' = s) ∧
        ∀ id, parsePeerName peer₁ = some id → PeerSet ⟨id.1, id.2⟩ peer₂ s s')
      Throws s := by
  unfold tryToSetPeer
  rcases parsed : parsePeerName peer₁ with _ | ⟨cube, port⟩
  · exact ⟨inv, fun _ => rfl, fun id h => by cases h⟩
  rw [wp_bind]
  refine wp_mono (wp_getPort cube port) ?_ fun e s' h => ⟨h.1, h.2 ▸ inv⟩
  rintro old s' ⟨same, hp⟩
  rw [same]
  obtain ⟨conf, record, recordedPeer, list⟩ := inv.recorded ⟨cube, port⟩ old hp
  -- the patched record has the peer, if it had none or this one
  have set : conf.peer.getD peer₂ = peer₂ ∨ peer₂ = "" →
      Inv ((s.withPeer ⟨cube, port⟩ peer₂).setRecord cube port
        { conf with peer := if peer₂ = "" then none else some (conf.peer.getD peer₂) }) := by
    intro right
    refine (inv.but_withPeer hp peer₂).patch (p := ⟨cube, port⟩) record fun peer h => ?_
    unfold Saved.withPeer at h
    dsimp only at h
    rw [update_self, Option.some.injEq] at h
    refine ⟨?_, list⟩
    split_ifs with none
    · exact none.symm.trans h
    · rcases right with right | empty
      · exact right.trans h
      · exact absurd empty none
  have frame : PeerSet ⟨cube, port⟩ peer₂ s ((s.withPeer ⟨cube, port⟩ peer₂).setRecord cube port
      { conf with peer := if peer₂ = "" then none else some (conf.peer.getD peer₂) }) := by
    refine ⟨update_self .., fun q other => ⟨update_of_ne other .., ?_⟩⟩
    exact (recordOf_setRecord (s := s.withPeer ⟨cube, port⟩ peer₂) record _).2 q other
  have same : ∀ id, some (cube, port) = some id → (⟨id.1, id.2⟩ : PortId) = ⟨cube, port⟩ := by
    intro id h
    rw [← Option.some.inj h]
  have patched : patchPeer peer₂ conf =
    .ok { conf with peer := if peer₂ = "" then none else some (conf.peer.getD peer₂) } := rfl
  have record₀ : s.recordOf cube port = .ok conf := record
  have record₁ : (s.withPeer ⟨cube, port⟩ peer₂).recordOf cube port = .ok conf := record
  unfold setPeer updatePortPeer
  by_cases already : old = peer₂
  · have unchanged : s.withPeer ⟨cube, port⟩ peer₂ = s := by
      unfold Saved.withPeer
      rw [← already, ← hp, update_eq_self]
    rw [unchanged] at set frame
    rw [if_pos already, wp_bind, wp_pure, wp_bind, wp_onRecord record₀ patched, wp_pure]
    refine ⟨set ?_, fun h => absurd h (Option.some_ne_none _), fun id h => same id h ▸ frame⟩
    rw [already] at recordedPeer
    by_cases empty : peer₂ = ""
    · exact .inr empty
    · left
      rcases here : conf.peer with _ | peer
      · rfl
      · rw [here] at recordedPeer
        exact recordedPeer
  · obtain ⟨defined, quiet⟩ := fits _ parsed old hp already
    rw [if_neg already, wp_bind, wp_bind]
    rcases link : o.link with _ | e
    · have subscribed : (if peer₂ = "" then none else o.subscribe) = none := by
        split_ifs with empty
        · rfl
        · exact (quiet link empty).1
      rw [fails_none, wp_pure, wp_bind, wp_modify, subscribed, fails_none, wp_pure, wp_bind,
        wp_onRecord record₁ patched, wp_pure]
      refine ⟨set ?_, fun h => absurd h (Option.some_ne_none _), fun id h => same id h ▸ frame⟩
      by_cases empty : peer₂ = ""
      · exact .inr empty
      · have none := (quiet link empty).2
        unfold Saved.recordedPeer at none
        dsimp only at none
        rw [record] at none
        dsimp only at none
        rw [none]
        exact .inl rfl
    · rw [fails_some, wp_throw]
      cases e with
      | thrown m => exact ⟨⟨m, rfl⟩, inv⟩
      | undefined => exact absurd link defined

/-- What has been asked of the second port still holds when the first has a peer. -/
theorem fitsPeer_after {peer peer' : String} {o : Linked}
    (fits : s.FitsPeer peer₂ peer' o) (own : peer₁ = peer₂ → peer = peer')
    (unset : parsePeerName peer₁ = none → s' = s)
    (set : ∀ id, parsePeerName peer₁ = some id → PeerSet ⟨id.1, id.2⟩ peer s s') :
    s'.FitsPeer peer₂ peer' o := by
  rcases parsed₁ : parsePeerName peer₁ with _ | id₁
  · rw [unset parsed₁]
    exact fits
  intro id parsed old hp other
  have set := set id₁ parsed₁
  have elsewhere : (⟨id.1, id.2⟩ : PortId) ≠ ⟨id₁.1, id₁.2⟩ := by
    intro same
    rw [same, set.peer, Option.some.injEq] at hp
    refine other (hp.symm.trans (own ?_))
    rw [← path_of_parse parsed₁, ← path_of_parse parsed, same]
  obtain ⟨ports, record⟩ := set.others _ elsewhere
  have recorded : s'.recordedPeer id.1 id.2 = s.recordedPeer id.1 id.2 := by
    unfold Saved.recordedPeer
    rw [record]
  rw [recorded]
  exact fits id parsed old (ports ▸ hp) other

theorem wp_connect {o₁ o₂ : Linked} (inv : Inv s) (fits : s.Fits (.connect peer₁ peer₂ o₁ o₂)) :
    wp (connect peer₁ peer₂ o₁ o₂) (fun _ s' => Inv s') Throws s := by
  have refused : ∀ e s', (∃ m, e = Failure.thrown m) ∧ s' = s → Throws e s' :=
    fun e s' h => ⟨h.1, h.2 ▸ inv⟩
  unfold connect
  rw [wp_bind]
  refine wp_mono (wp_getPortPeer peer₁) ?_ refused
  rintro ret₁ s₁ ⟨same, free₁⟩
  rw [same, wp_bind, wp_reject]
  split_ifs with taken
  · exact ⟨⟨_, rfl⟩, inv⟩
  rw [not_not.1 taken] at free₁
  rw [wp_bind]
  refine wp_mono (wp_getPortPeer peer₂) ?_ refused
  rintro ret₂ s₂ ⟨same, free₂⟩
  rw [same, wp_bind, wp_reject]
  split_ifs with taken
  · exact ⟨⟨_, rfl⟩, inv⟩
  rw [not_not.1 taken] at free₂
  obtain ⟨fits₁, fits₂⟩ := fits free₁ free₂
  rw [wp_bind]
  refine wp_mono (wp_tryToSetPeer inv fits₁) ?_ fun _ _ h => h
  rintro set₁ s₃ ⟨inv₃, unset, set⟩
  rw [wp_bind]
  refine wp_mono (wp_tryToSetPeer inv₃ (fitsPeer_after fits₂ Eq.symm unset set)) ?_ fun _ _ h => h
  rintro set₂ s₄ ⟨inv₄, -, -⟩
  rw [wp_reject]
  split_ifs
  · exact ⟨⟨_, rfl⟩, inv₄⟩
  · exact inv₄

theorem wp_disconnect {o₁ o₂ : Linked} (inv : Inv s)
    (fits : s.Fits (.disconnect peer₁ peer₂ o₁ o₂)) :
    wp (disconnect peer₁ peer₂ o₁ o₂) (fun _ s' => Inv s') Throws s := by
  have refused : ∀ e s', (∃ m, e = Failure.thrown m) ∧ s' = s → Throws e s' :=
    fun e s' h => ⟨h.1, h.2 ▸ inv⟩
  have throws : Throws (notConnected peer₁ peer₂) s := ⟨⟨_, rfl⟩, inv⟩
  unfold disconnect
  rw [wp_bind]
  refine wp_mono (wp_getPortPeer peer₁) ?_ refused
  rintro ret₁ s₁ ⟨same, -⟩
  rw [same, wp_bind]
  refine wp_mono (wp_getPortPeer peer₂) ?_ refused
  rintro ret₂ s₂ ⟨same, -⟩
  rw [same, wp_bind, wp_reject]
  split_ifs
  · exact throws
  rw [wp_bind, wp_reject]
  split_ifs
  · exact throws
  rw [wp_bind, wp_reject]
  split_ifs
  · exact throws
  rw [wp_bind]
  refine wp_mono (wp_tryToSetPeer inv fits.1) ?_ fun _ _ h => h
  rintro set₁ s₃ ⟨inv₃, unset, set⟩
  rw [wp_bind]
  refine wp_mono (wp_tryToSetPeer inv₃ (fitsPeer_after fits.2 (fun _ => rfl) unset set)) ?_
    fun _ _ h => h
  rintro set₂ s₄ ⟨inv₄, -, -⟩
  exact inv₄

/-! #### Lists of cubes -/

section

variable {d d' : Daemon} {t : Target} {l : List CubeRef} {name : String}

structure Changes (t : Target) (l : List CubeRef) (d d' : Daemon) : Prop where
  list : d'.listOf t = l
  others : ∀ t', t' ≠ t → d'.listOf t' = d.listOf t'
  ports : ∀ path, d'.peers (.port path) ≠ none → d.peers (.port path) ≠ none
  cubes : ∀ x, (d.cube x).isSome → (d'.cube x).isSome

theorem listOf_eq_nil (h : d.peers t = none) : d.listOf t = [] := by
  unfold Daemon.listOf
  rw [h]
  rfl

theorem listOf_congr (h : d'.peers t = d.peers t) : d'.listOf t = d.listOf t := by
  unfold Daemon.listOf
  rw [h]

theorem changes_createPeer (absent : d.peers t = none) (iface : t.isIface = true)
    (type : PortType) : Changes t [] d (d.createPeer t type) where
  list := by
    unfold Daemon.listOf Daemon.createPeer
    simp
  others t' other := listOf_congr (update_of_ne other ..)
  ports path h := by
    have other : Target.port path ≠ t := by
      rintro rfl
      cases iface
    unfold Daemon.createPeer at h
    dsimp only at h
    rwa [Daemon.peers_setPeer, update_of_ne other] at h
  cubes _ h := h

/-- A cube changes, but stays the same one. -/
theorem cube_setCube {c : Attachment.TransparentCube} (hc : d.cubes name = some c)
    (c' : Attachment.TransparentCube) (uuid : c'.uuid = c.uuid) (x : CubeRef)
    (h : (d.cube x).isSome) : ((d.setCube name (some c')).cube x).isSome := by
  unfold Daemon.cube at h ⊢
  rw [Daemon.cubes_setCube, update_apply]
  split_ifs with here
  · rw [here, hc] at h
    simpa [Option.filter, uuid] using h
  · exact h

theorem changes_attached {p : Attachment.PeerIface} {c : Attachment.TransparentCube} {i : ℕ}
    {parameters : List String} (hc : d.cubes name = some c) (hp : d.peers t = some p) :
    Changes t (p.cubes.insertIdx i ⟨name, c.uuid⟩) d (d.attached name c t p i parameters) := by
  obtain ⟨cubes, peers, -⟩ := subscribeTo_frame
    ((d.setPeer t (some { p with cubes := p.cubes.insertIdx i ⟨name, c.uuid⟩ })).setCube name
      (some { c with parent := some ⟨t, p.number⟩ })) t c.uuid parameters
  refine ⟨?_, fun t' other => listOf_congr ?_, fun path h => ?_, fun x h => ?_⟩
  · unfold Daemon.listOf Daemon.attached
    rw [peers, Daemon.peers_setCube, Daemon.peers_setPeer, update_self]
    rfl
  · unfold Daemon.attached
    rw [peers, Daemon.peers_setCube, Daemon.peers_setPeer, update_of_ne other]
  · unfold Daemon.attached at h
    rw [peers, Daemon.peers_setCube, Daemon.peers_setPeer, update_apply] at h
    split_ifs at h with here
    · rw [here, hp]
      exact Option.some_ne_none p
    · exact h
  · unfold Daemon.attached Daemon.cube
    rw [cubes]
    exact cube_setCube (d := d.setPeer t (some { p with
      cubes := p.cubes.insertIdx i ⟨name, c.uuid⟩ })) hc
      { c with parent := some ⟨t, p.number⟩ } rfl x h

theorem Changes.trans {l' : List CubeRef} {d'' : Daemon} (h : Changes t l d d')
    (h' : Changes t l' d' d'') : Changes t l' d d'' where
  list := h'.list
  others t' other := (h'.others t' other).trans (h.others t' other)
  ports path there := h.ports path (h'.ports path there)
  cubes x there := h'.cubes x (h.cubes x there)

theorem changes_of_attaches {pos other : String} {o : Outside} {i : ℕ}
    (h : Attaches d name t pos other o i d') : ∃ c, d.cubes name = some c ∧
      i ≤ (d.listOf t).length ∧ Changes t ((d.listOf t).insertIdx i ⟨name, c.uuid⟩) d d' := by
  obtain ⟨c, p, d₁, hc, -, -, reached, hp, list, placed, rfl⟩ := h
  refine ⟨c, hc, place_le placed, ?_⟩
  rw [← list]
  rcases reached with ⟨rfl, -⟩ | ⟨rfl, absent, iface⟩
  · exact changes_attached hc hp
  · exact (changes_createPeer absent iface c.type).trans (changes_attached hc hp)

theorem changes_of_detaches (h : Detaches d name t d') :
    name ∈ (d.listOf t).map CubeRef.name ∧ d.peers t ≠ none ∧
      Changes t ((d.listOf t).eraseP fun x => x.name = name) d d' := by
  obtain ⟨c, p, hc, hp, named, rfl⟩ := h
  have list : d.listOf t = p.cubes := by
    unfold Daemon.listOf
    rw [hp]
    rfl
  rw [list]
  refine ⟨named, by rw [hp]; exact Option.some_ne_none p, ?_⟩
  have cubes : ∀ x, (d.cube x).isSome →
      ((((d.setPeer t (some { p with cubes := p.cubes.eraseP fun x => x.name = name })).release
        t).setCube name (some { c with parent := none })).cube x).isSome := by
    intro x h
    refine cube_setCube (c := c) ?_ { c with parent := none } rfl x ?_
    · rw [release_frame.1]
      exact hc
    · unfold Daemon.cube
      rw [release_frame.1]
      exact h
  rcases release_cases (d.setPeer t (some
    { p with cubes := p.cubes.eraseP fun x => x.name = name })) t with
    same | ⟨q, hq, empty, -, iface, same⟩
  · rw [same] at cubes ⊢
    refine ⟨?_, fun t' other => listOf_congr (update_of_ne other ..), fun path h => ?_,
      cubes⟩
    · unfold Daemon.listOf
      rw [Daemon.peers_setCube, Daemon.peers_setPeer, update_self]
      rfl
    · rw [Daemon.peers_setCube, Daemon.peers_setPeer, update_apply] at h
      split_ifs at h with here
      · rw [here, hp]
        exact Option.some_ne_none p
      · exact h
  · rw [same] at cubes ⊢
    rw [Daemon.peers_setPeer, update_self, Option.some.injEq] at hq
    rw [← hq] at empty
    have peers : ((((d.setPeer t (some { p with
        cubes := p.cubes.eraseP fun x => x.name = name })).setPeer t none).forget t).setCube name
        (some { c with parent := none })).peers = update (update d.peers t
          (some { p with cubes := p.cubes.eraseP fun x => x.name = name })) t none := rfl
    refine ⟨(listOf_eq_nil ?_).trans empty.symm, fun t' other => listOf_congr ?_, fun path h => ?_,
      cubes⟩
    · rw [peers, update_self]
    · rw [peers, update_of_ne other, update_of_ne other]
    · have other : Target.port path ≠ t := by
        rintro rfl
        cases iface
      rwa [peers, update_of_ne other, update_of_ne other] at h

end

/-! #### Attached cubes -/

section

variable {t : Target} {l : List CubeRef} {d : Daemon} {name portName : String}

theorem names_eq (h : parsePeerName portName = some (cube, port)) :
    s.names ⟨cube, port⟩ = (s.daemon.listOf (.port portName)).map CubeRef.name := by
  unfold Saved.names
  rw [path_of_parse h]
  exact if_pos h

theorem Changes.names (h : Changes t l s.daemon d) (other : t ≠ .port p.path) :
    Saved.names { s with daemon := d } p = s.names p := by
  unfold Saved.names
  rw [h.others _ other.symm]

theorem Inv.alive_changed (inv : Inv s) (h : Changes t l s.daemon d) (alive : s.daemon.Alive l)
    (t' : Target) : d.Alive (d.listOf t') := by
  intro x hx
  refine h.cubes x ?_
  by_cases here : t' = t
  · rw [here, h.list] at hx
    exact alive x hx
  · rw [h.others t' here] at hx
    exact inv.alive t' x hx

theorem Inv.changes (inv : Inv s) (h : Changes t l s.daemon d) (alive : s.daemon.Alive l)
    (iface : t.isIface = true) : Inv { s with daemon := d } where
  recorded p peer hp := by
    obtain ⟨conf, record, right, list⟩ := inv.recorded p peer hp
    refine ⟨conf, record, right, list.trans (h.names ?_).symm⟩
    rintro rfl
    cases iface
  kept := inv.kept
  owned := inv.owned
  targets path there := inv.targets path (h.ports path there)
  alive := inv.alive_changed h alive

theorem Inv.changesBut (inv : Inv s) (parsed : parsePeerName portName = some (cube, port))
    (h : Changes (.port portName) l s.daemon d) (alive : s.daemon.Alive l) :
    RightBut ⟨cube, port⟩ { s with daemon := d } where
  recorded q other peer hq := by
    obtain ⟨conf, record, right, list⟩ := inv.recorded q peer hq
    refine ⟨conf, record, right, list.trans ?_⟩
    by_cases same : portName = q.path
    · -- a port that cannot be named by this path
      have no : parsePeerName q.path ≠ some (q.cube, q.name) := by
        rw [← same, parsed]
        intro eq
        cases eq
        exact other rfl
      unfold Saved.names
      rw [if_neg no, if_neg no]
    · exact (h.names fun eq => same (Target.port.inj eq)).symm
  kept := inv.kept
  owned := inv.owned
  targets path there := inv.targets path (h.ports path there)
  alive := inv.alive_changed h alive

theorem Inv.record_of_target (inv : Inv s) (parsed : parsePeerName portName = some (cube, port))
    (there : s.daemon.peers (.port portName) ≠ none) :
    ∃ peer conf, s.ports ⟨cube, port⟩ = some peer ∧ s.recordOf cube port = .ok conf ∧
      conf.peer.getD "" = peer ∧
      conf.tcubes.getD [] = (s.daemon.listOf (.port portName)).map CubeRef.name := by
  obtain ⟨q, parsed', hq⟩ := inv.targets portName there
  rw [parsed] at parsed'
  cases parsed'
  obtain ⟨peer, hp⟩ := Option.ne_none_iff_exists'.1 hq
  obtain ⟨conf, record, right, list⟩ := inv.recorded q peer hp
  exact ⟨peer, conf, hp, record, right, list.trans (names_eq parsed)⟩

theorem targetOf_iface (h : parsePeerName portName = none) : targetOf portName = .iface portName := by
  unfold targetOf
  rw [h]
  rfl

theorem targetOf_port (h : parsePeerName portName = some (cube, port)) :
    targetOf portName = .port portName := by
  unfold targetOf
  rw [h]
  rfl

theorem insertTCube_spec (conf : PortConf) (tCube : String) (i : ℕ)
    (le : i ≤ (conf.tcubes.getD []).length) :
    ∃ conf', insertTCube tCube i conf = .ok conf' ∧ conf'.peer = conf.peer ∧
      conf'.tcubes.getD [] = (conf.tcubes.getD []).insertIdx i tCube := by
  unfold insertTCube
  rcases list : conf.tcubes with _ | l
  · rw [list] at le
    have zero : i = 0 := Nat.le_zero.1 le
    rw [zero]
    exact ⟨_, rfl, rfl, rfl⟩
  · rw [list] at le
    dsimp only
    rw [if_pos (show i ≤ l.length from le)]
    exact ⟨_, rfl, rfl, rfl⟩

theorem eraseTCube_spec (conf : PortConf) (tCube : String)
    (mem : tCube ∈ conf.tcubes.getD []) :
    ∃ conf', eraseTCube tCube conf = .ok conf' ∧ conf'.peer = conf.peer ∧
      conf'.tcubes.getD [] = (conf.tcubes.getD []).erase tCube := by
  unfold eraseTCube
  rcases list : conf.tcubes with _ | l
  · rw [list] at mem
    exact absurd mem List.not_mem_nil
  · rw [list] at mem
    have mem : tCube ∈ l := mem
    dsimp only
    rw [if_pos mem]
    refine ⟨_, rfl, rfl, ?_⟩
    dsimp only
    split_ifs with last
    · exact last.symm
    · rfl

theorem map_eraseP_name (l : List CubeRef) :
    (l.eraseP fun x => x.name = name).map CubeRef.name = (l.map CubeRef.name).erase name := by
  induction l with
  | nil => rfl
  | cons x l ih =>
    rw [List.map_cons, List.erase_cons, List.eraseP_cons]
    by_cases here : x.name = name
    · simp [here]
    · simp [here, ih]

def Orphans (d d' : Daemon) : Prop :=
  ∀ name c, d'.cubes name = some c → c.parent = none → d.cubes name = some c

theorem orphans_attached {p : Attachment.PeerIface} {c : Attachment.TransparentCube} {i : ℕ}
    {parameters : List String} : Orphans d (d.attached name c t p i parameters) := by
  obtain ⟨cubes, -, -⟩ := subscribeTo_frame
    ((d.setPeer t (some { p with cubes := p.cubes.insertIdx i ⟨name, c.uuid⟩ })).setCube name
      (some { c with parent := some ⟨t, p.number⟩ })) t c.uuid parameters
  intro name' c' h free
  unfold Daemon.attached at h
  rw [cubes, Daemon.cubes_setCube, update_apply] at h
  split_ifs at h
  · rw [← Option.some.inj h] at free
    cases free
  · exact h

theorem wp_attach {pos other : String} {o : Outside} (inv : Inv s)
    (fits : s.Fits (.attach name portName pos other o)) :
    wp (attach name portName pos other o) (fun _ s' => Inv s' ∧ Orphans s.daemon s'.daemon)
      Throws s := by
  unfold attach
  rw [wp_bind, wp_onDaemon]
  refine wp_mono (wp_attachTo (fun p hp => ?_) fits) ?_ ?_
  · have alive := inv.alive (targetOf portName)
    unfold Daemon.listOf at alive
    rwa [hp] at alive
  · intro i d attaches
    obtain ⟨c, hc, le, changes⟩ := changes_of_attaches attaches
    have orphans : Orphans s.daemon d := by
      obtain ⟨c, p, d₁, -, -, -, reached, -, -, -, rfl⟩ := attaches
      rcases reached with ⟨rfl, -⟩ | ⟨rfl, -, -⟩
      · exact orphans_attached
      · exact orphans_attached (d := s.daemon.createPeer (targetOf portName) c.type)
    have alive : s.daemon.Alive ((s.daemon.listOf (targetOf portName)).insertIdx i
        ⟨name, c.uuid⟩) := by
      intro x hx
      rcases (List.mem_insertIdx le).1 hx with rfl | old
      · rw [cube_eq_some.2 ⟨hc, rfl⟩]
        rfl
      · exact inv.alive _ x old
    rcases parsed : parsePeerName portName with _ | ⟨cube, port⟩
    · exact ⟨inv.changes changes alive (by rw [targetOf_iface parsed]; rfl), orphans⟩
    rw [targetOf_port parsed] at attaches changes alive le
    have there : s.daemon.peers (.port portName) ≠ none := by
      obtain ⟨c, p, d₁, -, -, ⟨q, hq, -⟩, -⟩ := attaches
      rw [Option.mem_def.1 hq]
      exact Option.some_ne_none q
    obtain ⟨peer, conf, hp, record, right, list⟩ := inv.record_of_target parsed there
    obtain ⟨conf', patched, samePeer, inserted⟩ := insertTCube_spec conf name i
      (by rwa [list, List.length_map])
    have but := inv.changesBut parsed changes alive
    have record : Saved.recordOf { s with daemon := d } cube port = .ok conf := record
    unfold recordAttached
    rw [wp_onRecord record patched]
    refine ⟨but.patch (p := ⟨cube, port⟩) record fun peer' hp' => ?_, orphans⟩
    have hp' : s.ports ⟨cube, port⟩ = some peer' := hp'
    rw [hp, Option.some.injEq] at hp'
    rw [samePeer, inserted, list, names_eq parsed, changes.list, List.map_insertIdx]
    exact ⟨right.trans hp', rfl⟩
  · rintro e d ⟨thrown, rfl | ⟨absent, c, -, -, -, reached, -⟩⟩
    · exact ⟨thrown, inv⟩
    · rcases reached with ⟨rfl, -⟩ | ⟨rfl, -, iface⟩
      · exact ⟨thrown, inv⟩
      · exact ⟨thrown, inv.changes (changes_createPeer absent iface c.type)
          (fun x hx => absurd hx List.not_mem_nil) iface⟩

theorem wp_detach {relink : Option Failure} (inv : Inv s)
    (fits : s.Fits (.detach name portName relink)) :
    wp (detach name portName relink) (fun _ s' => Inv s') Throws s := by
  unfold detach
  rw [wp_bind, wp_onDaemon]
  refine wp_mono (wp_detachFrom (fun p hp => ?_) fits) ?_ ?_
  · have alive := inv.alive (targetOf portName)
    unfold Daemon.listOf at alive
    rwa [hp] at alive
  · rintro ⟨⟩ d detaches
    obtain ⟨named, there, changes⟩ := changes_of_detaches detaches
    have alive : s.daemon.Alive ((s.daemon.listOf (targetOf portName)).eraseP
        fun x => x.name = name) := fun x hx => inv.alive _ x (List.mem_of_mem_eraseP hx)
    rcases parsed : parsePeerName portName with _ | ⟨cube, port⟩
    · exact inv.changes changes alive (by rw [targetOf_iface parsed]; rfl)
    rw [targetOf_port parsed] at named there changes alive
    obtain ⟨peer, conf, hp, record, right, list⟩ := inv.record_of_target parsed there
    obtain ⟨conf', patched, samePeer, erased⟩ := eraseTCube_spec conf name
      (by rwa [list])
    have but := inv.changesBut parsed changes alive
    have record : Saved.recordOf { s with daemon := d } cube port = .ok conf := record
    unfold recordDetached
    rw [wp_onRecord record patched]
    refine but.patch (p := ⟨cube, port⟩) record fun peer' hp' => ?_
    have hp' : s.ports ⟨cube, port⟩ = some peer' := hp'
    rw [hp, Option.some.injEq] at hp'
    rw [samePeer, erased, list, names_eq parsed, changes.list, map_eraseP_name]
    exact ⟨right.trans hp', rfl⟩
  · rintro e d ⟨thrown, rfl⟩
    exact ⟨thrown, inv⟩

end

/-! #### Creation -/

section

variable {name : String} {type : PortType} {body : Option (List PortConf)}

theorem cubes_addPorts (l : List PortConf) (d : Daemon) :
    (l.foldl (addPort name type) d).cubes = d.cubes := by
  induction l generalizing d with
  | nil => rfl
  | cons conf l ih =>
    rw [List.foldl_cons, ih]
    unfold addPort
    split_ifs <;> rfl

/-- A target behind the creation of ports is one of them, without cubes, or as before. -/
theorem peers_addPorts (name : String) (type : PortType) (l : List PortConf) (d : Daemon) (t : Target) :
    (l.foldl (addPort name type) d).peers t = d.peers t ∨
      ∃ conf ∈ l, t = .port (PortId.path ⟨name, conf.name⟩) ∧
        parsePeerName (PortId.path ⟨name, conf.name⟩) = some (name, conf.name) ∧
        ∃ q, (l.foldl (addPort name type) d).peers t = some q ∧ q.cubes = [] := by
  induction l generalizing d with
  | nil => exact .inl rfl
  | cons conf l ih =>
    rw [List.foldl_cons]
    rcases ih (addPort name type d conf) with same | ⟨conf', mem, h⟩
    · rw [same]
      unfold addPort
      split_ifs with parsed
      · by_cases here : t = .port (PortId.path ⟨name, conf.name⟩)
        · refine .inr ⟨conf, List.mem_cons_self, here, parsed, ⟨d.next, type, [], false⟩, ?_, rfl⟩
          rw [here]
          exact update_self ..
        · exact .inl (update_of_ne here ..)
      · exact .inl rfl
    · exact .inr ⟨conf', List.mem_cons_of_mem conf mem, h⟩

theorem inv_addCube (inv : Inv s) (new : s.exists name = false)
    (spares : s.Spares name (body.getD [])) : Inv (s.addCube name type body) := by
  have unused : s.standard name = false := (Bool.or_eq_false_iff.1 new).1
  have noPort : ∀ p : PortId, p.cube = name → s.ports p = none := by
    intro p here
    by_contra there
    have standard := inv.owned p there
    rw [here, unused] at standard
    cases standard
  have lists : ∀ t, (s.addCube name type body).daemon.listOf t = s.daemon.listOf t := by
    intro t
    rcases peers_addPorts name type (body.getD []) s.daemon t with
      same | ⟨conf, -, rfl, parsed, q, hq, empty⟩
    · exact listOf_congr same
    · have absent : s.daemon.peers (.port (PortId.path ⟨name, conf.name⟩)) = none := by
        by_contra there
        obtain ⟨q, parsed', hq⟩ := inv.targets _ there
        rw [parsed, Option.some.injEq, Prod.mk.injEq] at parsed'
        exact hq (noPort q parsed'.1.symm)
      rw [listOf_eq_nil absent]
      have there : (s.addCube name type body).daemon.peers
          (.port (PortId.path ⟨name, conf.name⟩)) = some q := hq
      unfold Daemon.listOf
      rw [there]
      exact empty
  have names : ∀ p, (s.addCube name type body).names p = s.names p := by
    intro p
    unfold Saved.names
    rw [lists]
  have ports : ∀ p, (s.addCube name type body).ports p = if p.cube = name then
      (findKey PortConf.name p.name (body.getD [])).map fun conf => conf.peer.getD ""
      else s.ports p := fun _ => rfl
  have config : (s.addCube name type body).config = update s.config (recordName name)
      (some (body.map (List.map fun conf => { conf with tcubes := none }))) := rfl
  constructor
  · constructor
    · intro p peer hp
      rw [ports] at hp
      split_ifs at hp with here
      · obtain ⟨conf, found, rfl⟩ := Option.map_eq_some_iff.1 hp
        rcases body with _ | l
        · cases found
        rcases spares with same | ⟨empty, -⟩
        · refine ⟨{ conf with tcubes := none }, recordOf_eq_ok.2
            ⟨l.map fun conf => { conf with tcubes := none }, ?_, ?_⟩, rfl, ?_⟩
          · rw [config, here, same, update_self]
            rfl
          · unfold findKey at found ⊢
            rw [List.find?_map]
            exact Option.map_eq_some_iff.2 ⟨conf, found, rfl⟩
          · rw [names]
            unfold Saved.names
            split_ifs with parsed
            · have absent : s.daemon.peers (.port p.path) = none := by
                by_contra there
                obtain ⟨q, parsed', hq⟩ := inv.targets _ there
                rw [parsed, Option.some.injEq, Prod.mk.injEq] at parsed'
                exact hq (noPort q (parsed'.1.symm.trans here))
              rw [listOf_eq_nil absent]
              rfl
            · rfl
        · rw [empty] at found
          cases found
      · have standard := inv.owned p (by rw [hp]; exact Option.some_ne_none peer)
        have other : p.cube ≠ recordName name := by
          rcases spares with same | ⟨-, nobody⟩
          · rwa [same]
          · intro eq
            rw [eq, nobody] at standard
            cases standard
        obtain ⟨conf, record, right, list⟩ := inv.recorded p peer hp
        refine ⟨conf, ?_, right, list.trans (names p).symm⟩
        rw [← record]
        unfold Saved.recordOf
        rw [config, update_of_ne other]
    · exact inv.kept
  · intro p hp
    change update s.standard name true p.cube = true
    rw [update_apply]
    split_ifs with here
    · rfl
    · rw [ports, if_neg here] at hp
      exact inv.owned p hp
  · intro path there
    rcases peers_addPorts name type (body.getD []) s.daemon (.port path) with
      same | ⟨conf, mem, path, parsed, -⟩
    · have before : s.daemon.peers (.port path) ≠ none := fun absent => there (same.trans absent)
      obtain ⟨q, parsed, hq⟩ := inv.targets path before
      refine ⟨q, parsed, ?_⟩
      rw [ports, if_neg fun here => hq (noPort q here)]
      exact hq
    · refine ⟨⟨name, conf.name⟩, by rw [Target.port.inj path]; exact parsed, ?_⟩
      rw [ports, if_pos rfl, Ne, Option.map_eq_none_iff, findKey_eq_none_iff, not_not]
      exact List.mem_map_of_mem mem
  · intro t x hx
    rw [lists] at hx
    have there := inv.alive t x hx
    unfold Daemon.cube at there ⊢
    change (Option.filter _ (((body.getD []).foldl (addPort name type) s.daemon).cubes
      x.name)).isSome
    rw [cubes_addPorts]
    exact there

theorem inv_addTransparentCube (inv : Inv s) (new : s.exists name = false)
    (spares : s.Spares name []) (serviceName : String) (parameters : List String) :
    Inv (s.addTransparentCube name type serviceName parameters) := by
  have free : s.daemon.cubes name = none :=
    Option.isSome_eq_false_iff.1 (Bool.or_eq_false_iff.1 new).2 |> Option.isNone_iff_eq_none.1
  have config : (s.addTransparentCube name type serviceName parameters).config =
      update s.config (recordName name) (some none) := rfl
  constructor
  · constructor
    · intro p peer hp
      have hp : s.ports p = some peer := hp
      have standard := inv.owned p (by rw [hp]; exact Option.some_ne_none peer)
      have other : p.cube ≠ recordName name := by
        intro eq
        rcases spares with same | ⟨-, nobody⟩
        · rw [eq, same, (Bool.or_eq_false_iff.1 new).1] at standard
          cases standard
        · rw [eq, nobody] at standard
          cases standard
      obtain ⟨conf, record, right, list⟩ := inv.recorded p peer hp
      refine ⟨conf, ?_, right, list⟩
      rw [← record]
      unfold Saved.recordOf
      rw [config, update_of_ne other]
    · exact inv.kept
  · exact inv.owned
  · exact inv.targets
  · intro t x hx
    have there := inv.alive t x hx
    have other : x.name ≠ name := by
      intro eq
      rw [Daemon.cube, eq, free] at there
      cases there
    change (Option.filter _ (update s.daemon.cubes name _ x.name)).isSome
    rw [update_of_ne other]
    exact there

theorem place_last (d : Daemon) (serviceName : String) (l : List CubeRef) :
    place d serviceName "last" "" l = .at l.length := by
  unfold place Chains.placeCube
  simp

theorem wp_attachAll {o : String → Outside} {l : List (String × String)} (inv : Inv s)
    (fits : ∀ x ∈ l, ∀ c, s.daemon.cubes x.2 = some c → c.parent = none →
      (o x.2).Quiet c (targetOf x.1)) :
    wp (attachAll o l) (fun _ s' => Inv s') Throws s := by
  induction l generalizing s with
  | nil => exact inv
  | cons x l ih =>
    obtain ⟨path, tCube⟩ := x
    unfold attachAll
    rw [wp_bind]
    refine wp_mono (wp_attach inv fun c hc free _ => ?_) ?_ fun _ _ h => h
    · rw [place_last]
      exact fits _ List.mem_cons_self c hc free
    · rintro ⟨⟩ s' ⟨inv', orphans⟩
      refine ih inv' fun x hx c hc free => ?_
      exact fits x (List.mem_cons_of_mem _ hx) c (orphans x.2 c hc free) free

theorem wp_createCube {valid created : Bool} {o : String → Outside} (inv : Inv s)
    (fits : s.Fits (.createCube name type body valid created o)) :
    wp (createCube name type body valid created o) (fun _ s' => Inv s') Throws s := by
  unfold createCube
  rw [wp_bind, wp_get, wp_ite]
  by_cases ignored : s.exists name = true ∨ valid = false
  · rw [if_pos ignored]
    exact inv
  obtain ⟨new, right⟩ := not_or.1 ignored
  have new := Bool.eq_false_of_not_eq_true new
  have fits := fits new (Bool.eq_true_of_not_eq_false right)
  rw [if_neg ignored, wp_ite]
  split_ifs with done
  · rw [if_pos done] at fits
    rw [wp_bind, wp_modify]
    refine wp_attachAll (inv_addCube inv new fits.1) fun x hx c hc free => ?_
    refine fits.2 x hx c ?_ free
    have same : (s.addCube name type body).daemon.cubes = s.daemon.cubes := cubes_addPorts _ _
    rwa [same] at hc
  · rw [if_neg done] at fits
    rw [wp_reject, if_neg (by rw [fits]; exact Bool.false_ne_true)]
    exact inv

end

theorem wp_exec {op : Op} (inv : Inv s) (fits : s.Fits op) :
    wp (exec op) (fun _ s' => Inv s') Throws s := by
  cases op with
  | createCube name type body valid created o => exact wp_createCube inv fits
  | createTransparentCube name type serviceName parameters valid created =>
    unfold exec createTransparentCube
    rw [wp_bind, wp_get, wp_ite]
    split_ifs with ignored
    · exact inv
    · obtain ⟨new, right, done⟩ : ¬s.exists name = true ∧ ¬valid = false ∧ ¬created = false := by
        simpa [not_or] using ignored
      have new := Bool.eq_false_of_not_eq_true new
      exact inv_addTransparentCube inv new (fits new (Bool.eq_true_of_not_eq_false right)
        (Bool.eq_true_of_not_eq_false done)) serviceName parameters
  | connect peer₁ peer₂ o₁ o₂ => exact wp_connect inv fits
  | disconnect peer₁ peer₂ o₁ o₂ => exact wp_disconnect inv fits
  | attach name portName pos other o =>
    exact wp_mono (wp_attach inv fits) (fun _ _ h => h.1) fun _ _ h => h
  | detach name portName relink => exact wp_detach inv fits

theorem step_spec {op : Op} (inv : Inv s) (fits : s.Fits op) :
    ∃ s', step (some s) op = some s' ∧ Inv s' := by
  have spec := wp_exec inv fits
  unfold step
  unfold wp at spec
  rw [Option.bind_some]
  rcases h : (exec op).run s with ⟨⟨⟩, s'⟩ | ⟨e, s'⟩
  · rw [h] at spec
    exact ⟨s', rfl, spec⟩
  · rw [h] at spec
    obtain ⟨⟨m, rfl⟩, inv'⟩ := spec
    exact ⟨s', rfl, inv'⟩

/-- Runs whose steps meet the condition are defined, and leave the records of all ports right. -/
theorem saved_of_run {ops : List Op} (fits : Meets step FitsIn (some start) ops) :
    ∃ s, run step (some start) ops = some s ∧ Right s := by
  have kept : ∃ s, run step (some start) ops = some s ∧ Inv s := by
    refine run_induction (P := fun s => ∃ t, s = some t ∧ Inv t) ?_ ⟨_, rfl, inv_start⟩ fits
    rintro _ op ⟨s, rfl, inv⟩ fits
    exact step_spec inv (fits s rfl)
  obtain ⟨s, here, inv⟩ := kept
  exact ⟨s, here, inv.toRight⟩

/-! ### Examples of runs -/

instance (o : Outside) (c : Attachment.TransparentCube) (t : Target) : Decidable (o.Quiet c t) :=
  inferInstanceAs (Decidable (o.relink = none ∧ o.attached = none ∧
    ∀ q ∈ c.subscriptionList, available t q = true ∧ o.notify q = none))

instance (s : Saved) (peer₁ peer₂ : String) (o : Linked) : Decidable (s.FitsPeer peer₁ peer₂ o) :=
  decidable_of_iff (∀ id ∈ parsePeerName peer₁, ∀ old ∈ s.ports ⟨id.1, id.2⟩, old ≠ peer₂ →
    o.link ≠ some .undefined ∧ (o.link = none → peer₂ ≠ "" →
      o.subscribe = none ∧ s.recordedPeer id.1 id.2 = none)) Iff.rfl

instance (s : Saved) (peer : String) : Decidable (s.Free peer) :=
  decidable_of_iff (∀ id ∈ parsePeerName peer, s.ports ⟨id.1, id.2⟩ = some "") Iff.rfl

instance (s : Saved) (name : String) (body : List PortConf) : Decidable (s.Spares name body) :=
  inferInstanceAs (Decidable (recordName name = name ∨
    body = [] ∧ s.standard (recordName name) = false))

instance (s : Saved) : ∀ op, Decidable (s.Fits op)
  | .createCube name _ body valid created o => decidable_of_iff (s.exists name = false →
      valid = true → if created = true ∧ ((body.getD []).map PortConf.name).Nodup then
        s.Spares name (body.getD []) ∧ ∀ x ∈ tCubes name (body.getD []),
          ∀ c ∈ s.daemon.cubes x.2, c.parent = none → (o x.2).Quiet c (targetOf x.1)
      else ((body.getD []).any fun conf => conf.tcubes.isSome) = false) Iff.rfl
  | .createTransparentCube name _ _ _ valid created => inferInstanceAs (Decidable
      (s.exists name = false → valid = true → created = true → s.Spares name []))
  | .connect peer₁ peer₂ o₁ o₂ => inferInstanceAs (Decidable (s.Free peer₁ → s.Free peer₂ →
      s.FitsPeer peer₁ peer₂ o₁ ∧ s.FitsPeer peer₂ peer₁ o₂))
  | .disconnect peer₁ peer₂ o₁ o₂ => inferInstanceAs (Decidable
      (s.FitsPeer peer₁ "" o₁ ∧ s.FitsPeer peer₂ "" o₂))
  | .attach name portName pos other o => decidable_of_iff (∀ c ∈ s.daemon.cubes name,
      c.parent = none → s.daemon.Reaches c.type o.construct (targetOf portName) →
        Allows (o.Quiet c (targetOf portName)) True
          (place s.daemon c.serviceName pos other (s.daemon.listOf (targetOf portName)))) Iff.rfl
  | .detach name portName relink => decidable_of_iff (∀ c ∈ s.daemon.cubes name,
      ∀ p ∈ s.daemon.peers (targetOf portName), name ∈ p.cubes.map CubeRef.name →
        relink = none) Iff.rfl

instance (s : Option Saved) (op : Op) : Decidable (FitsIn s op) :=
  decidable_of_iff (∀ t ∈ s, t.Fits op) Iff.rfl

def made : Linked := ⟨none, none⟩

def someOps : List Op :=
  [.createCube "r1" .tc (some [⟨"p", none, none⟩]) true true fun _ => quiet,
    .createCube "r2" .tc (some [⟨"p", none, none⟩]) true true fun _ => quiet,
    .createTransparentCube "nat0" .tc "nat" ["ip"] true true,
    .createTransparentCube "fw0" .tc "firewall" [] true true,
    .connect "r1:p" "r2:p" made made, .attach "nat0" "r1:p" "auto" "" quiet,
    .createCube "r3" .tc (some [⟨"p", some "eth0", some ["fw0"]⟩]) true true fun _ => quiet,
    .disconnect "r1:p" "r2:p" made made, .attach "nat0" "r3:p" "first" "" quiet,
    .detach "nat0" "r1:p" none, .connect "eth1" "r1:p" made made]

theorem saved_someOps : ∃ s, run step (some start) someOps = some s ∧ Right s :=
  saved_of_run (by decide +kernel)

def emptyOps : List Op :=
  [.createCube "r1" .tc (some [⟨"p", some "", none⟩]) true true fun _ => quiet,
    .createCube "r2" .tc (some [⟨"p", none, none⟩]) true true fun _ => quiet,
    .connect "r1:p" "r2:p" made made]

/-- Its record still has the empty peer. -/
theorem not_recorded_connect : ¬∀ ops s, run step (some start) ops = some s → Right s := by
  intro right
  have left : (run step (some start) emptyOps).map (fun s =>
      (s.ports ⟨"r1", "p"⟩, s.recordedPeer "r1" "p")) = some (some "r2:p", some "") := by
    decide +kernel
  obtain ⟨s, here, ends⟩ := Option.map_eq_some_iff.1 left
  rw [Prod.mk.injEq] at ends
  obtain ⟨conf, record, peer, -⟩ := (right emptyOps s here).recorded _ _ ends.1
  have empty : s.recordedPeer "r1" "p" = conf.peer := by
    unfold Saved.recordedPeer
    dsimp only at record
    rw [record]
  rw [← empty, ends.2] at peer
  exact absurd peer (by decide)

end Polycube.Polycubed.Records
