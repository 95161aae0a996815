import Mathlib.Data.List.Perm.Basic
import Mathlib.Data.List.Range
import Polycube.Lbdsr.Pool

/-!
# Sessions stay with their backends

The slots hold the addresses of the pool as long as the ids of the pool are 1 to its number.  Then
every session gets a backend of the pool, and it stays there until it is evicted.
-/

namespace Polycube.Lbdsr

open Function

open Lib

structure InStep (s : State) : Prop where
  count : s.slot 0 = some (BitVec.ofNat 64 s.pools_.length)
  slots : (s.pools_.map fun e => e.2.map (BitVec.setWidth 64)).Perm
    ((List.range s.pools_.length).map fun i => s.slot (BitVec.ofNat 32 (i + 1)))

def Balanced (fe : Frontend) (s : State) (key : SessionsKey) (v : Verdict) (s' : State) : Prop :=
  match s.sessions key with
  | some mac => v = .redirect fe.backendPort (mac.setWidth 48) ∧ s' = s
  | none => v ≠ .divideByZero ∧ (s.pools_ ≠ [] → ∃ id mac, (id, some mac) ∈ s.pools_ ∧
      v = .redirect fe.backendPort mac ∧
      s' = { s with sessions := update s.sessions key (some (mac.setWidth 64)) })

variable (jhash : SessionsKey → BitVec 32) (fe : Frontend)

/-- A step from a state to another as it should be: what is read does not change, frames are
balanced, and no session goes away but by eviction. -/
def Does (s s' : State) : Op → Prop
  | .getPool _ => s' = s
  | .getPoolList => s' = s
  | .frame f => (fe.key f = none → s' = s) ∧
    ∀ key, fe.key f = some key → Balanced fe s key (handleRx jhash fe s f).1 s'
  | .evict key => ∀ key', key' ≠ key → s'.sessions key' = s.sessions key'
  | _ => s'.sessions = s.sessions

def Right (s : Option State) (op : Op) : Prop :=
  ∃ t t', s = some t ∧ step jhash fe s op = some t' ∧ InStep t' ∧ Does jhash fe t t' op

structure Numbered (l : List Backend) : Prop where
  ids : (l.map Prod.fst).Perm ((List.range l.length).map fun i => BitVec.ofNat 32 (i + 1))
  room : l.length < 5

instance (l : List Backend) : Decidable (Numbered l) :=
  decidable_of_iff ((l.map Prod.fst).Perm ((List.range l.length).map fun i =>
    BitVec.ofNat 32 (i + 1)) ∧ l.length < 5) ⟨fun h => ⟨h.1, h.2⟩, fun h => ⟨h.ids, h.room⟩⟩

/-- What a step must meet: an address that is one and ids that stay 1 to the number of the pool;
only entries that are there are read and updated, and only entries that are not there are deleted;
and while the pool is empty, no new session comes. -/
def State.Fits (s : State) : Op → Prop
  | .addPool id mac => mac.isSome ∧ Numbered (assign id mac s.pools_)
  | .replacePool id newId mac =>
    mac.isSome ∧ Numbered (assign newId mac (eraseKey Prod.fst id s.pools_))
  | .updatePool id mac => mac.isSome ∧ id ∈ s.pools_.map Prod.fst
  | .getPool id => id ∈ s.pools_.map Prod.fst
  | .delPool id => id ∉ s.pools_.map Prod.fst
  | .delPoolList => s.pools_ = []
  | .frame f => ∀ key, fe.key f = some key → s.sessions key = none → s.pools_ ≠ []
  | _ => True

instance (s : State) : ∀ op, Decidable (s.Fits fe op)
  | .addPool id mac =>
    inferInstanceAs (Decidable (mac.isSome ∧ Numbered (assign id mac s.pools_)))
  | .replacePool id newId mac => inferInstanceAs
      (Decidable (mac.isSome ∧ Numbered (assign newId mac (eraseKey Prod.fst id s.pools_))))
  | .updatePool id mac =>
    inferInstanceAs (Decidable (mac.isSome ∧ id ∈ s.pools_.map Prod.fst))
  | .getPool id => inferInstanceAs (Decidable (id ∈ s.pools_.map Prod.fst))
  | .getPoolList => inferInstanceAs (Decidable True)
  | .delPool id => inferInstanceAs (Decidable (id ∉ s.pools_.map Prod.fst))
  | .delPoolList => inferInstanceAs (Decidable (s.pools_ = []))
  | .frame f => inferInstanceAs
      (Decidable (∀ key ∈ fe.key f, s.sessions key = none → s.pools_ ≠ []))
  | .evict _ => inferInstanceAs (Decidable True)

def FitsIn (s : Option State) (op : Op) : Prop := ∀ t, s = some t → t.Fits fe op

instance (s : Option State) (op : Op) : Decidable (FitsIn fe s op) :=
  decidable_of_iff (∀ t ∈ s, t.Fits fe op) Iff.rfl

structure Inv (s : State) : Prop where
  numbered : Numbered s.pools_
  count : s.config 0 = BitVec.ofNat 64 s.pools_.length
  held : ∀ e ∈ s.pools_, ∃ mac, e.2 = some mac ∧ s.config e.1 = mac.setWidth 64

variable {jhash fe} {s s' : State}

theorem inv_start : Inv State.start where
  numbered := ⟨List.Perm.refl _, by decide⟩
  count := rfl
  held e he := absurd he List.not_mem_nil

variable {l : List Backend}

theorem Numbered.nodup (h : Numbered l) : (l.map Prod.fst).Nodup := by
  refine h.ids.nodup_iff.2 (List.Nodup.map_on ?_ List.nodup_range)
  intro i hi j hj same
  have room := h.room
  rw [List.mem_range] at hi hj
  have same := congrArg BitVec.toNat same
  rw [BitVec.toNat_ofNat, BitVec.toNat_ofNat] at same
  omega

theorem Numbered.mem_iff (h : Numbered l) (id : BitVec 32) :
    id ∈ l.map Prod.fst ↔ 1 ≤ id.toNat ∧ id.toNat ≤ l.length := by
  have room := h.room
  rw [h.ids.mem_iff, List.mem_map]
  constructor
  · rintro ⟨i, hi, rfl⟩
    rw [List.mem_range] at hi
    rw [BitVec.toNat_ofNat]
    omega
  · rintro ⟨low, high⟩
    refine ⟨id.toNat - 1, List.mem_range.2 (by omega), ?_⟩
    rw [Nat.sub_add_cancel low, BitVec.ofNat_toNat, BitVec.setWidth_eq]

theorem Inv.inStep (inv : Inv s) : InStep s where
  count := by
    unfold State.slot
    rw [if_pos (by decide), inv.count]
  slots := by
    have held : s.pools_.map (fun e => e.2.map (BitVec.setWidth 64)) =
        (s.pools_.map Prod.fst).map fun id => s.slot id := by
      rw [List.map_map]
      refine List.map_congr_left fun e he => ?_
      obtain ⟨mac, hmac, hconfig⟩ := inv.held e he
      have low := (inv.numbered.mem_iff e.1).1 (List.mem_map_of_mem he)
      have room := inv.numbered.room
      show _ = s.slot e.1
      unfold State.slot
      rw [if_pos (by omega), hmac, hconfig]
      rfl
    rw [held]
    have perm := inv.numbered.ids.map fun id => s.slot id
    rwa [List.map_map (l := List.range _)] at perm

/-! ### The pool -/

theorem mem_map_assign (id : BitVec 32) (mac : Option (BitVec 48)) (l : List Backend) :
    id ∈ (assign id mac l).map Prod.fst := by
  unfold assign
  split
  · rename_i e he
    have mem := List.mem_of_find?_eq_some he
    have key : e.1 = id := by simpa using List.find?_some he
    refine List.mem_map.2 ⟨(id, mac), ?_, rfl⟩
    exact List.mem_map.2 ⟨e, mem, if_pos key⟩
  · simp

variable {id : BitVec 32}

theorem mem_assign {mac : Option (BitVec 48)} {e : Backend}
    (he : e ∈ assign id mac l) : e = (id, mac) ∨ (e ∈ l ∧ e.1 ≠ id) := by
  unfold assign at he
  split at he
  · obtain ⟨x, hx, rfl⟩ := List.mem_map.1 he
    by_cases here : x.1 = id
    · exact .inl (if_pos here)
    · rw [if_neg here]
      exact .inr ⟨hx, here⟩
  · rename_i none
    rcases List.mem_append.1 he with he | he
    · refine .inr ⟨he, fun here => ?_⟩
      exact findKey_eq_none_iff.1 none (here ▸ List.mem_map_of_mem he)
    · exact .inl (List.mem_singleton.1 he)

theorem assign_same {mac : Option (BitVec 48)}
    (distinct : (l.map Prod.fst).Nodup) (h : findKey Prod.fst id l = some (id, mac)) :
    assign id mac l = l := by
  unfold assign
  rw [h]
  refine (List.map_congr_left fun e he => ?_).trans (List.map_id l)
  split_ifs with here
  · have found := (findKey_eq_some_iff distinct).2 ⟨he, here⟩
    exact Option.some.inj (h.symm.trans found)
  · rfl

variable {ok : Unit → State → Prop} {err : Unit → State → Prop}

/-- An entry with an address, under an id that keeps the pool numbered. -/
theorem addPool_spec {mac : BitVec 48} {t : State}
    (numbered : Numbered (assign id (some mac) t.pools_))
    (held : ∀ e ∈ t.pools_, e.1 ≠ id → ∃ mac, e.2 = some mac ∧ t.config e.1 = mac.setWidth 64)
    (nonzero : ∀ e ∈ t.pools_, e.1 ≠ 0) :
    wp (addPool id (some mac)) (fun _ s' => Inv s' ∧ s'.pools_ = assign id (some mac) t.pools_ ∧
      s'.sessions = t.sessions ∧ s'.config = update (update t.config 0
        (BitVec.ofNat 64 (assign id (some mac) t.pools_).length)) id (mac.setWidth 64))
      (fun _ _ => False) t := by
  have low := (numbered.mem_iff id).1 (mem_map_assign id (some mac) t.pools_)
  have room := numbered.room
  have notZero : id ≠ 0 := by
    rintro rfl
    exact absurd low.1 (by decide)
  unfold addPool
  simp only [wp_bind, wp_modify, wp_get, setConfig, wp_ite]
  rw [if_pos (by decide), if_pos (by omega)]
  refine ⟨⟨numbered, ?_, fun e he => ?_⟩, trivial, trivial, trivial⟩
  · show update (update t.config 0 _) id _ 0 = _
    rw [update_of_ne notZero.symm, update_self]
  · show ∃ mac', e.2 = some mac' ∧ update (update t.config 0 _) id _ e.1 = _
    rcases mem_assign he with rfl | ⟨he, other⟩
    · exact ⟨mac, rfl, update_self _ _ _⟩
    · rw [update_of_ne other, update_of_ne (nonzero e he)]
      exact held e he other

theorem Inv.nonzero (inv : Inv s) {e : Backend} (he : e ∈ s.pools_) : e.1 ≠ 0 := by
  intro zero
  have low := (inv.numbered.mem_iff e.1).1 (List.mem_map_of_mem he)
  rw [zero] at low
  exact absurd low.1 (by decide)

theorem getPool_spec (inv : Inv s) (there : id ∈ s.pools_.map Prod.fst) :
    wp (getPool id) (fun _ s' => s' = s) (fun _ _ => False) s := by
  obtain ⟨e, he, rfl⟩ := List.mem_map.1 there
  obtain ⟨mac, hmac, hconfig⟩ := inv.held e he
  have distinct := inv.numbered.nodup
  have found := (findKey_eq_some_iff distinct).2 ⟨he, rfl⟩
  have entry : e = (e.1, some mac) := Prod.ext rfl hmac
  have same := assign_same distinct (found.trans (congrArg some entry))
  unfold getPool
  rw [wp_bind, wp_get, found]
  dsimp only
  rw [hmac]
  refine wp_mono (addPool_spec (same.symm ▸ inv.numbered) (fun x hx _ => inv.held x hx)
    fun x hx => inv.nonzero hx) ?_ fun _ _ h => h
  rintro _ s' ⟨-, pools, sessions, config⟩
  rw [same] at pools config
  rw [← inv.count, update_eq_self, ← hconfig, update_eq_self] at config
  obtain ⟨p, c, q⟩ := s'
  subst pools config sessions
  rfl

theorem getPools_spec (inv : Inv s) {ids : List (BitVec 32)}
    (there : ∀ id ∈ ids, id ∈ s.pools_.map Prod.fst) :
    wp (getPools ids) (fun _ s' => s' = s) (fun _ _ => False) s := by
  induction ids with
  | nil => exact rfl
  | cons id ids ih =>
    unfold getPools
    rw [wp_bind]
    refine wp_mono (getPool_spec inv (there id List.mem_cons_self)) ?_ fun _ _ h => h
    rintro _ s' rfl
    exact ih fun id' h => there id' (List.mem_cons_of_mem id h)

theorem replacePool_spec (inv : Inv s) {newId : BitVec 32} {mac : BitVec 48}
    (numbered : Numbered (assign newId (some mac) (eraseKey Prod.fst id s.pools_))) :
    wp (replacePool id newId (some mac)) (fun _ s' => Inv s' ∧ s'.sessions = s.sessions)
      (fun _ _ => False) s := by
  unfold replacePool delPool
  rw [wp_bind, wp_modify]
  have kept : ∀ e ∈ eraseKey Prod.fst id s.pools_, e ∈ s.pools_ :=
    fun e he => List.mem_of_mem_filter he
  refine wp_mono (addPool_spec numbered (fun e he _ => inv.held e (kept e he))
    fun e he => inv.nonzero (kept e he)) ?_ fun _ _ h => h
  rintro _ s' ⟨inv', -, sessions, -⟩
  exact ⟨inv', sessions⟩

theorem numbered_replace (inv : Inv s) (mac : BitVec 48) (there : id ∈ s.pools_.map Prod.fst) :
    Numbered (assign id (some mac) (eraseKey Prod.fst id s.pools_)) := by
  have distinct := inv.numbered.nodup
  have absent : findKey Prod.fst id (eraseKey Prod.fst id s.pools_) = none := by
    rw [findKey_eraseKey, if_pos rfl]
  unfold assign
  rw [absent]
  have keys : (eraseKey Prod.fst id s.pools_).map Prod.fst =
      (s.pools_.map Prod.fst).filter fun k => k ≠ id := by
    unfold eraseKey
    rw [List.filter_map]
    rfl
  have perm : ((eraseKey Prod.fst id s.pools_ ++ [(id, some mac)]).map Prod.fst).Perm
      (s.pools_.map Prod.fst) := by
    rw [List.map_append, keys]
    refine (List.perm_ext_iff_of_nodup ?_ distinct).2 fun k => ?_
    · refine List.nodup_append'.2 ⟨distinct.filter _, List.nodup_singleton _, ?_⟩
      intro k hk hid
      obtain rfl := List.mem_singleton.1 hid
      simpa using List.of_mem_filter hk
    · by_cases here : k = id
      · subst here
        simpa using there
      · simp [here]
  have length := perm.length_eq
  rw [List.length_map, List.length_map] at length
  exact ⟨by rw [length]; exact perm.trans inv.numbered.ids, by rw [length]; exact inv.numbered.room⟩

theorem Inv.slot_of_hash (inv : Inv s) (nonempty : s.pools_ ≠ []) (hash : BitVec 32) :
    ∃ id mac, (id, some mac) ∈ s.pools_ ∧
      s.slot ((hash.setWidth 64 % s.config 0 + 1).setWidth 32) = some (mac.setWidth 64) := by
  have room := inv.numbered.room
  have some := List.length_pos_iff.2 nonempty
  have id : ((hash.setWidth 64 % s.config 0 + 1).setWidth 32).toNat =
      hash.toNat % s.pools_.length + 1 := by
    have low := Nat.mod_lt hash.toNat some
    have hash_lt := hash.isLt
    rw [inv.count, BitVec.toNat_setWidth, BitVec.toNat_add, BitVec.toNat_umod,
      BitVec.toNat_setWidth, BitVec.toNat_ofNat, Nat.mod_eq_of_lt (by omega : hash.toNat < 2 ^ 64),
      Nat.mod_eq_of_lt (by omega : s.pools_.length < 2 ^ 64),
      show (1 : BitVec 64).toNat = 1 from rfl]
    omega
  have low := Nat.mod_lt hash.toNat some
  obtain ⟨e, he, hid⟩ := List.mem_map.1 ((inv.numbered.mem_iff
    ((hash.setWidth 64 % s.config 0 + 1).setWidth 32)).2 ⟨by omega, by omega⟩)
  obtain ⟨mac, hmac, hconfig⟩ := inv.held e he
  refine ⟨e.1, mac, hmac ▸ he, ?_⟩
  unfold State.slot
  rw [← hid, if_pos (by rw [hid, id]; omega), hconfig]

theorem balanced_of_inv (inv : Inv s) {f : Frame} {key : SessionsKey} (hkey : fe.key f = some key)
    (fits : s.sessions key = none → s.pools_ ≠ []) :
    Balanced fe s key (handleRx jhash fe s f).1 (handleRx jhash fe s f).2 := by
  unfold handleRx Balanced
  rw [hkey]
  dsimp only
  unfold getSessionsValue
  cases hsession : s.sessions key with
  | some mac => exact ⟨rfl, rfl⟩
  | none =>
    have nonempty := fits hsession
    obtain ⟨id, mac, mem, slot⟩ := inv.slot_of_hash nonempty (jhash key)
    have some := List.length_pos_iff.2 nonempty
    have room := inv.numbered.room
    have count : s.config 0 ≠ 0 := by
      rw [inv.count]
      intro zero
      have zero := congrArg BitVec.toNat zero
      rw [BitVec.toNat_ofNat, show (0 : BitVec 64).toNat = 0 from rfl] at zero
      omega
    have back : (mac.setWidth 64).setWidth 48 = mac := by simp
    dsimp only
    rw [if_neg count, slot]
    dsimp only
    rw [back]
    refine ⟨fun h => (by cases h), fun _ => ⟨id, mac, mem, rfl, rfl⟩⟩

theorem Inv.withSessions (inv : Inv s) (sessions : SessionsKey → Option (BitVec 64)) :
    Inv { s with sessions := sessions } :=
  ⟨inv.numbered, inv.count, inv.held⟩

theorem handleRx_state (jhash : SessionsKey → BitVec 32) (fe : Frontend) (s : State) (f : Frame) :
    ∃ sessions, (handleRx jhash fe s f).2 = { s with sessions := sessions } := by
  unfold handleRx getSessionsValue
  split
  · split
    · exact ⟨s.sessions, rfl⟩
    · split_ifs
      · exact ⟨s.sessions, rfl⟩
      · split
        · exact ⟨s.sessions, rfl⟩
        · exact ⟨_, rfl⟩
  · exact ⟨s.sessions, rfl⟩

theorem inv_stepOne (jhash : SessionsKey → BitVec 32) (inv : Inv s) {op : Op}
    (fits : s.Fits fe op) : ∃ s', stepOne jhash fe s op = some s' ∧ Inv s' ∧ Right jhash fe (some s) op := by
  have of_wp : ∀ {P : State → Prop}, op ≠ .delPoolList →
      wp (exec jhash fe op) (fun _ s' => P s') (fun _ _ => False) s →
      ∃ s', stepOne jhash fe s op = some s' ∧ P s' := by
    intro P other h
    unfold wp at h
    unfold stepOne
    cases hrun : (exec jhash fe op).run s with
    | ok u s' =>
      rw [hrun] at h
      refine ⟨s', ?_, h⟩
      cases op <;> first | exact absurd rfl other | rfl
    | error u s' =>
      rw [hrun] at h
      exact h.elim
  have right : ∀ {s'}, stepOne jhash fe s op = some s' → InStep s' → Does jhash fe s s' op →
      Right jhash fe (some s) op := fun hs' inStep does => ⟨s, _, rfl, hs', inStep, does⟩
  cases op with
  | addPool id mac =>
    obtain ⟨valid, numbered⟩ := fits
    obtain ⟨mac, rfl⟩ := Option.isSome_iff_exists.1 valid
    obtain ⟨s', hs', inv', -, sessions, -⟩ := of_wp (fun h => by cases h)
      (addPool_spec numbered (fun e he _ => inv.held e he) fun e he => inv.nonzero he)
    exact ⟨s', hs', inv', right hs' inv'.inStep sessions⟩
  | replacePool id newId mac =>
    obtain ⟨valid, numbered⟩ := fits
    obtain ⟨mac, rfl⟩ := Option.isSome_iff_exists.1 valid
    obtain ⟨s', hs', inv', sessions⟩ := of_wp (fun h => by cases h) (replacePool_spec inv numbered)
    exact ⟨s', hs', inv', right hs' inv'.inStep sessions⟩
  | updatePool id mac =>
    obtain ⟨valid, there⟩ := fits
    obtain ⟨mac, rfl⟩ := Option.isSome_iff_exists.1 valid
    have done : wp (updatePool id (some mac))
        (fun _ s' => Inv s' ∧ s'.sessions = s.sessions) (fun _ _ => False) s := by
      unfold updatePool
      rw [wp_bind]
      refine wp_mono (getPool_spec inv there) ?_ fun _ _ h => h
      rintro _ s' rfl
      exact replacePool_spec inv (numbered_replace inv mac there)
    obtain ⟨s', hs', inv', sessions⟩ := of_wp (fun h => by cases h) done
    exact ⟨s', hs', inv', right hs' inv'.inStep sessions⟩
  | getPool id =>
    obtain ⟨s', hs', rfl⟩ := of_wp (fun h => by cases h) (getPool_spec inv fits)
    exact ⟨s', hs', inv, right hs' inv.inStep rfl⟩
  | getPoolList =>
    have done : wp getPoolList (fun _ s' => s' = s) (fun _ _ => False) s := by
      unfold getPoolList
      rw [wp_bind, wp_get]
      exact getPools_spec inv fun id h => h
    obtain ⟨s', hs', rfl⟩ := of_wp (fun h => by cases h) done
    exact ⟨s', hs', inv, right hs' inv.inStep rfl⟩
  | delPool id =>
    have same : eraseKey Prod.fst id s.pools_ = s.pools_ := by
      refine List.filter_eq_self.2 fun e he => ?_
      exact decide_eq_true fun here => fits (here ▸ List.mem_map_of_mem he)
    have done : wp (delPool id) (fun _ s' => s' = s) (fun _ _ => False) s := by
      unfold delPool
      rw [wp_modify, same]
    obtain ⟨s', hs', rfl⟩ := of_wp (fun h => by cases h) done
    exact ⟨s', hs', inv, right hs' inv.inStep rfl⟩
  | delPoolList =>
    have stays : stepOne jhash fe s .delPoolList = some s := if_pos fits
    exact ⟨s, stays, inv, right stays inv.inStep rfl⟩
  | frame f =>
    obtain ⟨sessions, hs⟩ := handleRx_state jhash fe s f
    have inv' : Inv (handleRx jhash fe s f).2 := by
      rw [hs]
      exact inv.withSessions sessions
    refine ⟨_, rfl, inv', right rfl inv'.inStep ⟨fun none => ?_, fun key hkey =>
      balanced_of_inv inv hkey (fits key hkey)⟩⟩
    show (handleRx jhash fe s f).2 = s
    unfold handleRx
    rw [none]
  | evict key =>
    have inv' := inv.withSessions (update s.sessions key none)
    exact ⟨_, rfl, inv', right rfl inv'.inStep fun key' other => update_of_ne other _ _⟩

/-- In a run whose steps all meet the condition the pool and the slots are in step, what is read
does not change, and every session gets a backend of the pool and keeps it. -/
theorem balanced_of_run (jhash : SessionsKey → BitVec 32) (fe : Frontend) (ops : List Op)
    (meets : Meets (step jhash fe) (FitsIn fe) (some State.start) ops) :
    Meets (step jhash fe) (Right jhash fe) (some State.start) ops := by
  refine meets.imp (P := fun s => ∃ t, s = some t ∧ Inv t) ?_ ?_ ⟨_, rfl, inv_start⟩
  · rintro _ op ⟨s, rfl, inv⟩ fits
    obtain ⟨s', hs', inv', -⟩ := inv_stepOne jhash inv (fits s rfl)
    exact ⟨s', hs', inv'⟩
  · rintro _ op ⟨s, rfl, inv⟩ fits
    obtain ⟨s', -, -, right⟩ := inv_stepOne jhash inv (fits s rfl)
    exact right

def someFrontend : Frontend := ⟨1, 2, 0x6400000a, 0xccbbaa010101⟩

def someFrame : Frame := ⟨1, 0xccbbaa010101, .ip 0x0100000a 0x6400000a (.tcp 1000 80)⟩

/-- Backends are added, read, replaced and updated, and a session is balanced. -/
theorem balanced_someOps :
    Meets (step (fun _ => 7) someFrontend) (Right (fun _ => 7) someFrontend) (some State.start)
      [.addPool 1 (some 0xa), .addPool 2 (some 0xb), .frame someFrame, .getPoolList,
        .replacePool 2 2 (some 0xc), .updatePool 1 (some 0xd), .frame someFrame, .delPool 7] :=
  balanced_of_run _ _ _ (by decide +kernel)

/-- The backend that is deleted is still counted. -/
theorem not_balanced_delPool :
    ¬ Meets (step (fun _ => 7) someFrontend) (Right (fun _ => 7) someFrontend) (some State.start)
      [.addPool 1 (some 0xa), .delPool 1] := by
  rintro ⟨-, ⟨t, t', -, ht', inStep, -⟩, -⟩
  have left : (step (fun _ => 7) someFrontend (step (fun _ => 7) someFrontend (some State.start)
      (.addPool 1 (some 0xa))) (.delPool 1)).all fun s =>
        s.pools_.isEmpty && s.slot 0 == some 1 := by
    decide +kernel
  rw [ht', Option.all_some, Bool.and_eq_true, List.isEmpty_iff, beq_iff_eq] at left
  have count := inStep.count
  rw [left.1, left.2] at count
  exact absurd count (by decide)

end Polycube.Lbdsr
