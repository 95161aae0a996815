import Polycube.Policies.Managers

/-!
# The lifetime of firewall managers

Handlers of a pod that run in the order of its events, and with the pods of these events, move it
from the manager of its last state to that of the next.  As long as no pod is linked to a manager
whose deletion waits for the lock, flags, timers and empty managers are the same thing.
-/

namespace Polycube.Policies

open Function

open Lib K8s

variable (namespaces names : UID → String)

structure Watched where
  cluster : Cluster
  stayed : ℕ → Bool

def Watched.start : Watched := ⟨Cluster.start, fun _ => true⟩

def Manager.pending (m : Manager) : List Timer := m.running ++ m.waiting

def watch (stayed : ℕ → Bool) (m : Manager) (timer : ℕ) : Bool :=
  stayed timer && m.pending.all fun t => t.1 ≠ timer || m.localFirewalls t.2 = some []

def watchedStep (w : Option Watched) (op : Op) : Option Watched :=
  w.bind fun w => (w.cluster.exec namespaces names op).map fun c => ⟨c, watch w.stayed c.manager⟩

/-- The handlers that wait, and those that the events in the queue are about to start. -/
def Cluster.ahead (c : Cluster) : List Call := c.calls ++ c.queue.flatMap fun e => e.calls e.pod

structure Linked (c : Cluster) : Prop where
  same : ∀ uid key, c.manager.linkedPods uid = some key ↔
    ∃ pods, c.manager.localFirewalls key = some pods ∧ uid ∈ pods
  current : ∀ uid key, c.manager.linkedPods uid = some key → (∀ call ∈ c.ahead, call.uid ≠ uid) →
    ∃ pod, c.life uid = .alive pod ∧ fwKey namespaces uid pod = key

def Removes (w : Watched) (m' : Manager) (op : Op) : Prop :=
  ∀ key pods, w.cluster.manager.localFirewalls key = some pods → m'.localFirewalls key = none →
    pods = [] ∧ ∃ n timer, op = .collect n ∧ w.cluster.manager.waiting[n]? = some (timer, key) ∧
      w.stayed timer = true

def Right (w : Option Watched) (op : Op) : Prop :=
  ∃ t t', w = some t ∧ watchedStep namespaces names w op = some t' ∧ Linked namespaces t'.cluster ∧
    Removes t t'.cluster.manager op

def Call.links : Call → Option String
  | .checkNewPod uid pod _ =>
    if namespaces uid = "kube-system" then none else some (fwKey namespaces uid pod)
  | .manageDeletedPod _ _ => none

/-- What a step must meet: a pod stays on its node, and a change of its labels is seen by the
subscription; an event finds its own pod in the cache, or none; handlers of a pod run in the order of
its events; and no pod is linked to a manager while the deletion of the manager waits for the
lock. -/
def Cluster.Fits (c : Cluster) : Op → Prop
  | .update uid pod => ∀ prev, (c.life uid).pod = some prev →
    (prev.node = true → pod.node = true) ∧
    (fwKey namespaces uid pod ≠ fwKey namespaces uid prev →
      pod.meetsCriteria ∨ prev.meetsCriteria)
  | .process => ∀ e, c.queue.head? = some e → c.retrievePodFromCache names e = e.pod
  | .handle n ok => ∀ call, c.calls[n]? = some call →
    (∀ before ∈ c.calls.take n, before.uid ≠ call.uid) ∧
    ∀ key, call.links namespaces = some key → ok = true → ∀ t ∈ c.manager.waiting, t.2 ≠ key
  | _ => True

def FitsIn (w : Option Watched) (op : Op) : Prop :=
  ∀ t, w = some t → t.cluster.Fits namespaces names op

/-! ### Managers and timers -/

structure Sound (m : Manager) : Prop where
  linked : ∀ uid key, m.linkedPods uid = some key ↔
    ∃ pods, m.localFirewalls key = some pods ∧ uid ∈ pods
  nodup : ∀ key pods, m.localFirewalls key = some pods → pods.Nodup
  empty : ∀ key timer, m.flaggedForDeletion key = some timer → m.localFirewalls key = some []
  flagged : ∀ t ∈ m.pending, m.flaggedForDeletion t.2 = some t.1
  numbered : ∀ t ∈ m.pending, t.1 < m.timers
  distinct : (m.pending.map Prod.fst).Nodup

variable {namespaces names} {m : Manager} {key : String} {uid : UID} {pods : List UID}

theorem sound_start : Sound Manager.start where
  linked _ _ := ⟨fun h => (by cases h), fun ⟨_, h, _⟩ => (by cases h)⟩
  nodup _ _ h := by cases h
  empty _ _ h := by cases h
  flagged _ h := absurd h List.not_mem_nil
  numbered _ h := absurd h List.not_mem_nil
  distinct := List.nodup_nil

theorem Sound.watch (sound : Sound m) : watch (fun _ => true) m = fun _ => true := by
  funext timer
  unfold Policies.watch
  rw [Bool.true_and, List.all_eq_true]
  intro t ht
  rw [decide_eq_true (sound.empty _ _ (sound.flagged t ht)), Bool.or_true]

theorem Sound.perm {running waiting : List Timer} (sound : Sound m)
    (perm : (running ++ waiting).Perm m.pending) : Sound { m with running, waiting } where
  linked := sound.linked
  nodup := sound.nodup
  empty := sound.empty
  flagged t ht := sound.flagged t (perm.mem_iff.1 ht)
  numbered t ht := sound.numbered t (perm.mem_iff.1 ht)
  distinct := (perm.map Prod.fst).nodup_iff.2 sound.distinct

theorem Sound.flag (sound : Sound m) (none : m.localFirewalls key = some []) :
    Sound (flagForDeletion m key) := by
  unfold flagForDeletion
  cases flag : m.flaggedForDeletion key with
  | some _ => exact sound
  | none =>
    have old : ∀ t ∈ m.pending, t.2 ≠ key := by
      intro t ht same
      have := sound.flagged t ht
      rw [same, flag] at this
      cases this
    have mem : ∀ t, t ∈ m.running ++ [(m.timers, key)] ++ m.waiting →
        t = (m.timers, key) ∨ t ∈ m.pending := by
      intro t ht
      unfold Manager.pending
      rw [List.append_assoc, List.mem_append, List.mem_append, List.mem_singleton] at ht
      rw [List.mem_append]
      tauto
    refine ⟨sound.linked, sound.nodup, fun k timer h => ?_, fun t ht => ?_, fun t ht => ?_, ?_⟩
    · dsimp only at h ⊢
      by_cases here : k = key
      · rw [here]
        exact none
      · rw [update_of_ne here] at h
        exact sound.empty k timer h
    · dsimp only
      rcases mem t ht with rfl | ht
      · exact update_self _ _ _
      · rw [update_of_ne (old t ht)]
        exact sound.flagged t ht
    · rcases mem t ht with rfl | ht
      · exact Nat.lt_succ_self _
      · exact Nat.lt_succ_of_lt (sound.numbered t ht)
    · have perm : (m.running ++ [(m.timers, key)] ++ m.waiting).Perm
          ((m.timers, key) :: m.pending) := by
        rw [List.append_assoc]
        exact List.perm_middle
      refine (perm.map Prod.fst).nodup_iff.2 (List.nodup_cons.2 ⟨?_, sound.distinct⟩)
      intro h
      obtain ⟨t, ht, same⟩ := List.mem_map.1 h
      exact absurd (sound.numbered t ht) (by rw [same]; exact Nat.lt_irrefl _)

theorem Sound.unflag (sound : Sound m) (runs : ∀ t ∈ m.waiting, t.2 ≠ key) :
    Sound (unflagForDeletion m key) ∧ (unflagForDeletion m key).flaggedForDeletion key = none := by
  unfold unflagForDeletion
  cases flag : m.flaggedForDeletion key with
  | none => exact ⟨sound, flag⟩
  | some timer =>
    have sub : (m.running.filter (fun t => t.1 ≠ timer) ++ m.waiting).Sublist m.pending :=
      (List.filter_sublist).append (List.Sublist.refl _)
    refine ⟨⟨sound.linked, sound.nodup, fun k timer' h => ?_, fun t ht => ?_,
      fun t ht => sound.numbered t (sub.subset ht), (sub.map _).nodup sound.distinct⟩,
      update_self _ _ _⟩
    · dsimp only at h ⊢
      by_cases here : k = key
      · rw [here, update_self] at h
        cases h
      · rw [update_of_ne here] at h
        exact sound.empty k timer' h
    · dsimp only
      have old := sound.flagged t (sub.subset ht)
      have other : t.2 ≠ key := by
        intro same
        rcases List.mem_append.1 ht with ht | ht
        · rw [same, flag] at old
          exact absurd (Option.some.inj old).symm (of_decide_eq_true (List.mem_filter.1 ht).2)
        · exact runs t ht same
      rw [update_of_ne other]
      exact old

@[simp] theorem setFirewall_self (m : Manager) (key : String) (p : Option (List UID)) :
    (m.setFirewall key p).localFirewalls key = p := update_self _ _ _

theorem setFirewall_of_ne {k : String} (h : k ≠ key) (m : Manager) (p : Option (List UID)) :
    (m.setFirewall key p).localFirewalls k = m.localFirewalls k := update_of_ne h _ _

@[simp] theorem setLinked_self (m : Manager) (uid : UID) (k : Option String) :
    (m.setLinked uid k).linkedPods uid = k := update_self _ _ _

theorem setLinked_of_ne {u : UID} (h : u ≠ uid) (m : Manager) (k : Option String) :
    (m.setLinked uid k).linkedPods u = m.linkedPods u := update_of_ne h _ _

theorem Sound.create (sound : Sound m) (absent : m.localFirewalls key = none) :
    Sound (m.setFirewall key (some [])) where
  linked u k := by
    rw [show (m.setFirewall key (some [])).linkedPods u = m.linkedPods u from rfl, sound.linked]
    by_cases here : k = key
    · rw [here, setFirewall_self, absent]
      constructor
      · rintro ⟨pods, h, -⟩
        cases h
      · rintro ⟨pods, h, there⟩
        rw [← Option.some.inj h] at there
        exact absurd there List.not_mem_nil
    · rw [setFirewall_of_ne here]
  nodup k pods h := by
    by_cases here : k = key
    · rw [here, setFirewall_self] at h
      rw [← Option.some.inj h]
      exact List.nodup_nil
    · rw [setFirewall_of_ne here] at h
      exact sound.nodup k pods h
  empty k timer h := by
    by_cases here : k = key
    · rw [here, setFirewall_self]
    · rw [setFirewall_of_ne here]
      exact sound.empty k timer h
  flagged := sound.flagged
  numbered := sound.numbered
  distinct := sound.distinct

/-- A manager gets other pods, which differ by one that is linked to no other manager. -/
theorem Sound.relink (sound : Sound m) (there : m.localFirewalls key = some pods)
    {pods' : List UID} {link : Option String} (own : link = if uid ∈ pods' then some key else none)
    (others : ∀ u, u ≠ uid → (u ∈ pods' ↔ u ∈ pods))
    (only : ∀ k, m.linkedPods uid = some k → k = key) (nodup : pods'.Nodup)
    (flagged : ∀ timer, m.flaggedForDeletion key = some timer → pods' = []) :
    Sound ((m.setFirewall key (some pods')).setLinked uid link) where
  linked u k := by
    show ((m.setLinked uid link).linkedPods u = some k) ↔
      ∃ l, (m.setFirewall key (some pods')).localFirewalls k = some l ∧ u ∈ l
    by_cases here : k = key
    · subst here
      rw [setFirewall_self]
      simp only [Option.some.injEq, exists_eq_left']
      by_cases same : u = uid
      · rw [same, setLinked_self, own]
        split_ifs with mem <;> simp [mem]
      · rw [setLinked_of_ne same, sound.linked, there, others u same]
        simp
    · rw [setFirewall_of_ne here]
      by_cases same : u = uid
      · rw [same, setLinked_self, ← sound.linked, own]
        refine iff_of_false (fun h => ?_) fun h => here (only k h)
        split_ifs at h
        exact here (Option.some.inj h).symm
      · rw [setLinked_of_ne same, sound.linked]
  nodup k l h := by
    by_cases here : k = key
    · rw [here] at h
      rw [← Option.some.inj ((setFirewall_self m key _).symm.trans h)]
      exact nodup
    · exact sound.nodup k l ((setFirewall_of_ne here m _).symm.trans h)
  empty k timer h := by
    by_cases here : k = key
    · rw [here] at h ⊢
      rw [← flagged timer h]
      exact setFirewall_self m key _
    · exact (setFirewall_of_ne here m _).trans (sound.empty k timer h)
  flagged := sound.flagged
  numbered := sound.numbered
  distinct := sound.distinct

theorem Sound.join (sound : Sound m) (there : m.localFirewalls key = some pods)
    (free : m.linkedPods uid = none) (unflagged : m.flaggedForDeletion key = none) :
    Sound ((m.setFirewall key (some (pods ++ [uid]))).setLinked uid (some key)) := by
  have new : uid ∉ pods := by
    intro mem
    have := (sound.linked uid key).2 ⟨pods, there, mem⟩
    rw [free] at this
    cases this
  refine sound.relink there (by simp) (fun u other => by simp [other]) (fun k h => ?_) ?_ ?_
  · rw [free] at h
    cases h
  · exact List.nodup_append'.2 ⟨sound.nodup key pods there, List.nodup_singleton _, by simpa⟩
  · intro timer h
    rw [unflagged] at h
    cases h

theorem Sound.leave (sound : Sound m) (there : m.localFirewalls key = some pods)
    (mem : uid ∈ pods) :
    Sound ((m.setFirewall key (some (pods.erase uid))).setLinked uid none) := by
  have nodup := sound.nodup key pods there
  have linked := (sound.linked uid key).2 ⟨pods, there, mem⟩
  refine sound.relink there (by rw [if_neg nodup.not_mem_erase])
    (fun u other => List.mem_erase_of_ne other) (fun k h => ?_) (nodup.erase uid) ?_
  · exact Option.some.inj (h.symm.trans linked)
  · intro timer h
    have none := there.symm.trans (sound.empty key timer h)
    rw [Option.some.inj none] at mem
    exact absurd mem List.not_mem_nil

theorem flagForDeletion_setLinked (m : Manager) (key : String) (uid : UID) (k : Option String) :
    (flagForDeletion m key).setLinked uid k = flagForDeletion (m.setLinked uid k) key := by
  unfold flagForDeletion
  rw [show (m.setLinked uid k).flaggedForDeletion key = m.flaggedForDeletion key from rfl]
  cases m.flaggedForDeletion key <;> rfl

theorem Sound.unlink (sound : Sound m) (there : m.localFirewalls key = some pods)
    (mem : uid ∈ pods) : Sound ((unlink m key uid pods).setLinked uid none) := by
  have left := sound.leave there mem
  unfold Policies.unlink
  split_ifs with last
  · rw [flagForDeletion_setLinked]
    refine left.flag ?_
    rw [last]
    exact setFirewall_self m key _
  · exact left

theorem Sound.collect (sound : Sound m) {n : ℕ} {t : Timer} (ht : m.waiting[n]? = some t) :
    ∃ m', m.collect n = some m' ∧ Sound m' ∧ m.localFirewalls t.2 = some [] ∧
      m'.linkedPods = m.linkedPods ∧ ∀ key, key ≠ t.2 →
        m'.localFirewalls key = m.localFirewalls key := by
  have mem : t ∈ m.pending := List.mem_append_right _ (List.mem_of_getElem? ht)
  have flag := sound.flagged t mem
  have empty := sound.empty _ _ flag
  have perm : (t :: (m.running ++ m.waiting.eraseIdx n)).Perm m.pending := by
    obtain ⟨lt, rfl⟩ := List.getElem?_eq_some_iff.1 ht
    exact List.perm_middle.symm.trans
      ((List.getElem_cons_eraseIdx_perm lt).append_left m.running)
  have distinct := (perm.map Prod.fst).nodup_iff.2 sound.distinct
  rw [List.map_cons, List.nodup_cons] at distinct
  unfold Manager.collect deleteFirewallManager
  rw [ht]
  dsimp only
  rw [empty]
  refine ⟨_, rfl, ⟨fun uid key => ?_, fun key pods h => ?_, fun key timer h => ?_, fun t' h => ?_,
    fun t' h => ?_, distinct.2⟩, rfl, rfl, fun key here => update_of_ne here _ _⟩
  · dsimp only
    rw [sound.linked]
    by_cases here : key = t.2
    · rw [here, update_self, empty]
      constructor
      · rintro ⟨pods, h, hu⟩
        rw [← Option.some.inj h] at hu
        exact absurd hu List.not_mem_nil
      · rintro ⟨pods, h, -⟩
        cases h
    · rw [update_of_ne here]
  · dsimp only at h
    by_cases here : key = t.2
    · rw [here, update_self] at h
      cases h
    · rw [update_of_ne here] at h
      exact sound.nodup key pods h
  · dsimp only at h ⊢
    by_cases here : key = t.2
    · rw [here, update_self] at h
      cases h
    · rw [update_of_ne here] at h ⊢
      exact sound.empty key timer h
  · have old := sound.flagged t' (perm.mem_iff.1 (List.mem_cons_of_mem t h))
    have other : t'.2 ≠ t.2 := by
      intro same
      rw [same, flag] at old
      exact distinct.1 (List.mem_map.2 ⟨t', h, (Option.some.inj old).symm⟩)
    dsimp only
    rw [update_of_ne other]
    exact old
  · exact sound.numbered t' (perm.mem_iff.1 (List.mem_cons_of_mem t h))

theorem Sound.expire (sound : Sound m) (n : ℕ) : Sound (m.expire n) := by
  unfold Manager.expire
  cases ht : m.running[n]? with
  | none => exact sound
  | some t =>
    refine sound.perm ?_
    obtain ⟨lt, rfl⟩ := List.getElem?_eq_some_iff.1 ht
    rw [← List.append_assoc]
    refine (List.perm_append_singleton _ _).trans ?_
    exact (List.getElem_cons_eraseIdx_perm lt).append_right m.waiting

/-! ### Handlers -/

structure Handles (uid : UID) (m m' : Manager) : Prop where
  sound : Sound m'
  others : ∀ u, u ≠ uid → m'.linkedPods u = m.linkedPods u
  kept : ∀ key, m'.localFirewalls key = none → m.localFirewalls key = none
  waiting : m'.waiting = m.waiting

theorem Handles.refl (sound : Sound m) : Handles uid m m :=
  ⟨sound, fun _ _ => rfl, fun _ h => h, rfl⟩

theorem Handles.trans {m' m'' : Manager} (h : Handles uid m m') (h' : Handles uid m' m'') :
    Handles uid m m'' :=
  ⟨h'.sound, fun u hu => (h'.others u hu).trans (h.others u hu),
    fun key hk => h.kept key (h'.kept key hk), h'.waiting.trans h.waiting⟩

theorem flagForDeletion_frame (m : Manager) (key : String) :
    (flagForDeletion m key).localFirewalls = m.localFirewalls ∧
      (flagForDeletion m key).linkedPods = m.linkedPods ∧
      (flagForDeletion m key).waiting = m.waiting := by
  unfold flagForDeletion
  cases m.flaggedForDeletion key <;> exact ⟨rfl, rfl, rfl⟩

theorem unflagForDeletion_frame (m : Manager) (key : String) :
    (unflagForDeletion m key).localFirewalls = m.localFirewalls ∧
      (unflagForDeletion m key).linkedPods = m.linkedPods ∧
      (unflagForDeletion m key).waiting = m.waiting := by
  unfold unflagForDeletion
  cases m.flaggedForDeletion key <;> exact ⟨rfl, rfl, rfl⟩

theorem kept_setFirewall {p : List UID} {k : String}
    (h : (m.setFirewall key (some p)).localFirewalls k = none) : m.localFirewalls k = none := by
  by_cases here : k = key
  · rw [here, setFirewall_self] at h
    cases h
  · rwa [setFirewall_of_ne here] at h

theorem Sound.handles_unlink (sound : Sound m) (there : m.localFirewalls key = some pods)
    (mem : uid ∈ pods) : Handles uid m ((Policies.unlink m key uid pods).setLinked uid none) := by
  have frame : (Policies.unlink m key uid pods).localFirewalls =
        (m.setFirewall key (some (pods.erase uid))).localFirewalls ∧
      (Policies.unlink m key uid pods).linkedPods = m.linkedPods ∧
      (Policies.unlink m key uid pods).waiting = m.waiting := by
    unfold Policies.unlink
    split_ifs
    · exact flagForDeletion_frame _ _
    · exact ⟨rfl, rfl, rfl⟩
  refine ⟨sound.unlink there mem, fun u hu => ?_, fun k h => ?_, frame.2.2⟩
  · rw [setLinked_of_ne hu, frame.2.1]
  · have gone : (m.setFirewall key (some (pods.erase uid))).localFirewalls k = none := by
      rw [← frame.1]
      exact h
    exact kept_setFirewall gone

variable {prev : Pod}

theorem leaveFirewall_spec (sound : Sound m) (pod : Pod)
    (last : ∀ k, m.linkedPods uid = some k → k = fwKey namespaces uid prev) :
    Handles uid m (leaveFirewall namespaces m uid pod prev) ∧
      ((leaveFirewall namespaces m uid pod prev).linkedPods uid = none ∨
        (leaveFirewall namespaces m uid pod prev).linkedPods uid =
          some (fwKey namespaces uid pod)) := by
  unfold leaveFirewall
  cases linked : m.linkedPods uid with
  | none => exact ⟨Handles.refl sound, .inl linked⟩
  | some k =>
    dsimp only
    by_cases same : k = fwKey namespaces uid pod
    · rw [if_pos same, ← same]
      exact ⟨Handles.refl sound, .inr linked⟩
    · rw [if_neg same]
      obtain rfl := last k linked
      obtain ⟨pods, there, mem⟩ := (sound.linked uid _).1 linked
      rw [there]
      dsimp only
      rw [if_pos mem]
      exact ⟨sound.handles_unlink there mem, .inl (setLinked_self _ _ _)⟩

theorem getOrCreateFirewallManager_spec (sound : Sound m) (pod : Pod)
    (last : ∀ k, m.linkedPods uid = some k → k = fwKey namespaces uid prev) :
    Handles uid m (getOrCreateFirewallManager namespaces m uid pod prev) ∧
      ((getOrCreateFirewallManager namespaces m uid pod prev).linkedPods uid = none ∨
        (getOrCreateFirewallManager namespaces m uid pod prev).linkedPods uid =
          some (fwKey namespaces uid pod)) := by
  obtain ⟨left, linked⟩ := leaveFirewall_spec sound pod last
  unfold getOrCreateFirewallManager
  cases there : (leaveFirewall namespaces m uid pod prev).localFirewalls
      (fwKey namespaces uid pod) with
  | none =>
    refine ⟨left.trans ⟨left.sound.create there, fun _ _ => rfl, fun k h => ?_, rfl⟩, linked⟩
    exact kept_setFirewall h
  | some pods => exact ⟨left, linked⟩

variable {ok : Bool}

theorem link_spec (sound : Sound m) (free : m.linkedPods uid = none ∨ m.linkedPods uid = some key)
    (runs : ok = true → ∀ t ∈ m.waiting, t.2 ≠ key) :
    Handles uid m (link m key uid ok) ∧
      ((link m key uid ok).linkedPods uid = none ∨ (link m key uid ok).linkedPods uid = some key) := by
  unfold link
  cases there : m.localFirewalls key with
  | none => exact ⟨Handles.refl sound, free⟩
  | some pods =>
    dsimp only
    by_cases inserted : ok = true ∧ uid ∉ pods
    swap
    · rw [if_neg inserted]
      exact ⟨Handles.refl sound, free⟩
    rw [if_pos inserted]
    have unlinked : m.linkedPods uid = none := by
      refine free.resolve_right fun linked => ?_
      obtain ⟨pods', there', mem⟩ := (sound.linked uid key).1 linked
      rw [Option.some.inj (there.symm.trans there')] at inserted
      exact inserted.2 mem
    obtain ⟨unflagged, noFlag⟩ := sound.unflag (runs inserted.1)
    have frame := unflagForDeletion_frame m key
    have commute : unflagForDeletion ((m.setFirewall key (some (pods ++ [uid]))).setLinked uid
        (some key)) key =
        ((unflagForDeletion m key).setFirewall key (some (pods ++ [uid]))).setLinked uid
          (some key) := by
      unfold unflagForDeletion
      rw [show ((m.setFirewall key (some (pods ++ [uid]))).setLinked uid
        (some key)).flaggedForDeletion key = m.flaggedForDeletion key from rfl]
      cases m.flaggedForDeletion key <;> rfl
    rw [commute]
    refine ⟨⟨?_, fun u hu => ?_, fun k h => ?_, frame.2.2⟩, .inr (setLinked_self _ _ _)⟩
    · refine unflagged.join ?_ ?_ noFlag
      · rw [frame.1]
        exact there
      · rw [frame.2.1]
        exact unlinked
    · rw [setLinked_of_ne hu]
      exact congrFun frame.2.1 u
    · have := kept_setFirewall h
      rwa [frame.1] at this

variable {pod : Pod}

theorem checkNewPod_spec (sound : Sound m) (other : namespaces uid ≠ "kube-system")
    (last : ∀ k, m.linkedPods uid = some k → k = fwKey namespaces uid prev)
    (runs : ok = true → ∀ t ∈ m.waiting, t.2 ≠ fwKey namespaces uid pod) :
    Handles uid m (checkNewPod namespaces m uid pod prev ok) ∧
      ∀ k, (checkNewPod namespaces m uid pod prev ok).linkedPods uid = some k →
        k = fwKey namespaces uid pod := by
  obtain ⟨got, free⟩ := getOrCreateFirewallManager_spec sound pod last
  unfold checkNewPod
  rw [if_neg other]
  rw [← got.waiting] at runs
  obtain ⟨linked, place⟩ := link_spec got.sound free runs
  refine ⟨got.trans linked, fun k h => ?_⟩
  rcases place with none | here
  · rw [none] at h
    cases h
  · exact Option.some.inj (h.symm.trans here)

theorem manageDeletedPod_spec (sound : Sound m) (other : namespaces uid ≠ "kube-system")
    (last : ∀ k, m.linkedPods uid = some k → k = fwKey namespaces uid pod) :
    Handles uid m (manageDeletedPod namespaces m uid pod) ∧
      (manageDeletedPod namespaces m uid pod).linkedPods uid = none := by
  have unlinked (absent : ∀ pods, m.localFirewalls (fwKey namespaces uid pod) = some pods →
      uid ∉ pods) : Handles uid m (m.setLinked uid none) := by
    have free : m.linkedPods uid = none := by
      by_contra linked
      obtain ⟨k, hk⟩ := Option.ne_none_iff_exists'.1 linked
      obtain rfl := last k hk
      obtain ⟨pods, there, mem⟩ := (sound.linked uid _).1 hk
      exact absent pods there mem
    have same : m.setLinked uid none = m := by
      unfold Manager.setLinked
      rw [← free, update_eq_self]
    rw [same]
    exact Handles.refl sound
  unfold manageDeletedPod
  rw [if_neg other]
  cases there : m.localFirewalls (fwKey namespaces uid pod) with
  | none =>
    refine ⟨unlinked fun pods h => ?_, setLinked_self _ _ _⟩
    rw [there] at h
    cases h
  | some pods =>
    dsimp only
    by_cases mem : uid ∈ pods
    · rw [if_pos mem]
      exact ⟨sound.handles_unlink there mem, setLinked_self _ _ _⟩
    · rw [if_neg mem]
      refine ⟨unlinked fun pods' h => ?_, setLinked_self _ _ _⟩
      rw [← Option.some.inj (there.symm.trans h)]
      exact mem

/-! ### The handlers of a pod -/

def Chain (namespaces : UID → String) (uid : UID) : List Call → Life → String → Prop
  | [], life, key => ∃ pod, life = .alive pod ∧ fwKey namespaces uid pod = key ∧ pod.node = true
  | .checkNewPod _ pod prev :: calls, life, key =>
    fwKey namespaces uid prev = key ∧ Chain namespaces uid calls life (fwKey namespaces uid pod)
  | .manageDeletedPod _ pod :: calls, life, key =>
    fwKey namespaces uid pod = key ∧ calls = [] ∧ life = .dead

def callsOf (calls : List Call) (uid : UID) : List Call := calls.filter fun call => call.uid = uid

variable {calls : List Call}

theorem Chain.update (chain : Chain namespaces uid calls (.alive prev) key)
    (node : prev.node = true → pod.node = true)
    (seen : fwKey namespaces uid pod ≠ fwKey namespaces uid prev →
      pod.meetsCriteria ∨ prev.meetsCriteria) :
    Chain namespaces uid (calls ++ onUpdate uid pod prev) (.alive pod) key := by
  induction calls generalizing key with
  | nil =>
    obtain ⟨pod', same, rfl, here⟩ := chain
    obtain rfl := Life.alive.inj same
    unfold onUpdate
    split_ifs with meets
    · exact ⟨rfl, pod, rfl, rfl, node here⟩
    · exact ⟨pod, rfl, by_contra fun changed => meets (seen changed), node here⟩
  | cons call calls ih =>
    cases call with
    | checkNewPod _ pod' prev' => exact ⟨chain.1, ih chain.2⟩
    | manageDeletedPod _ pod' => cases chain.2.2

theorem Chain.terminate (chain : Chain namespaces uid calls (.alive pod) key) :
    Chain namespaces uid (calls ++ onDelete uid pod) .dead key := by
  induction calls generalizing key with
  | nil =>
    obtain ⟨pod', same, rfl, here⟩ := chain
    obtain rfl := Life.alive.inj same
    unfold onDelete
    rw [if_pos here]
    exact ⟨rfl, rfl, rfl⟩
  | cons call calls ih =>
    cases call with
    | checkNewPod _ pod' prev' => exact ⟨chain.1, ih chain.2⟩
    | manageDeletedPod _ pod' => cases chain.2.2

/-- Nothing waits for a pod that has not been created. -/
theorem Chain.born (chain : Chain namespaces uid calls .unborn key) : False := by
  induction calls generalizing key with
  | nil =>
    obtain ⟨pod, same, -⟩ := chain
    cases same
  | cons call calls ih =>
    cases call with
    | checkNewPod _ pod prev => exact ih chain.2
    | manageDeletedPod _ pod => cases chain.2.2

def Tracked (namespaces : UID → String) (m : Manager) (calls : List Call) (life : Life)
    (uid : UID) : Prop :=
  calls ≠ [] ∨ m.linkedPods uid ≠ none →
    ∃ key, Chain namespaces uid calls life key ∧ ∀ k, m.linkedPods uid = some k → k = key

variable (namespaces) in
structure Inv (c : Cluster) : Prop where
  sound : Sound c.manager
  tracked : ∀ uid, Tracked namespaces c.manager (callsOf c.ahead uid) (c.life uid) uid
  system : ∀ uid k, c.manager.linkedPods uid = some k → namespaces uid ≠ "kube-system"

theorem inv_start : Inv namespaces Cluster.start where
  sound := sound_start
  tracked _ h := (h.elim (fun h => h rfl) fun h => h rfl).elim
  system _ _ h := by cases h

variable {c : Cluster}

theorem callsOf_append (calls calls' : List Call) (uid : UID) :
    callsOf (calls ++ calls') uid = callsOf calls uid ++ callsOf calls' uid :=
  List.filter_append _ _

theorem callsOf_onUpdate (uid u : UID) (pod prev : Pod) :
    callsOf (onUpdate uid pod prev) u = if u = uid then onUpdate uid pod prev else [] := by
  unfold onUpdate callsOf
  split_ifs with meets same same
  · rw [same]
    exact List.filter_cons_of_pos (decide_eq_true rfl)
  · exact List.filter_cons_of_neg fun h => same (of_decide_eq_true h).symm
  · rfl
  · rfl

theorem callsOf_onDelete (uid u : UID) (pod : Pod) :
    callsOf (onDelete uid pod) u = if u = uid then onDelete uid pod else [] := by
  unfold onDelete callsOf
  split_ifs with here same same
  · rw [same]
    exact List.filter_cons_of_pos (decide_eq_true rfl)
  · exact List.filter_cons_of_neg fun h => same (of_decide_eq_true h).symm
  · rfl
  · rfl

theorem ahead_append (c : Cluster) (life : UID → Life) (cache : Table String (UID × Pod))
    (e : Queued) : Cluster.ahead { c with life, cache, queue := c.queue ++ [e] } =
      c.ahead ++ e.calls e.pod := by
  unfold Cluster.ahead
  rw [List.flatMap_append, List.flatMap_singleton, List.append_assoc]

/-- An event of a pod is queued: its handlers go on where those before them end. -/
theorem Inv.queued (inv : Inv namespaces c) {e : Queued} {prev life : Life}
    {cache : Table String (UID × Pod)} {calls : List Call} (was : c.life uid = prev)
    (mine : ∀ u, callsOf (e.calls e.pod) u = if u = uid then calls else [])
    (goesOn : ∀ {before key}, Chain namespaces uid before prev key →
      Chain namespaces uid (before ++ calls) life key)
    (begins : calls ≠ [] → ∃ key, Chain namespaces uid calls life key) :
    Inv namespaces
      { c with life := update c.life uid life, cache, queue := c.queue ++ [e] } := by
  refine ⟨inv.sound, fun u h => ?_, inv.system⟩
  dsimp only at h ⊢
  rw [ahead_append, callsOf_append, mine] at h ⊢
  have old := inv.tracked u
  by_cases same : u = uid
  · subst same
    rw [if_pos rfl] at h ⊢
    rw [update_self]
    rw [was] at old
    by_cases tracked : callsOf c.ahead u ≠ [] ∨ c.manager.linkedPods u ≠ none
    · obtain ⟨key, chain, linked⟩ := old tracked
      exact ⟨key, goesOn chain, linked⟩
    · obtain ⟨noCalls, unlinked⟩ := not_or.1 tracked
      rw [not_not.1 noCalls, List.nil_append] at h ⊢
      obtain ⟨key, chain⟩ := begins (h.resolve_right unlinked)
      refine ⟨key, chain, fun k hk => absurd hk ?_⟩
      rw [not_not.1 unlinked]
      exact Option.some_ne_none k ∘ Eq.symm
  · rw [if_neg same, List.append_nil] at h ⊢
    rw [update_of_ne same]
    exact old h

theorem Inv.update (inv : Inv namespaces c)
    (fits : c.Fits namespaces names (.update uid pod)) :
    Inv namespaces (c.update names uid pod) := by
  unfold Cluster.update
  cases life : c.life uid with
  | dead => exact inv
  | unborn =>
    dsimp only
    split_ifs with taken
    · exact inv
    refine ⟨inv.sound, fun u h => ?_, inv.system⟩
    dsimp only at h ⊢
    obtain ⟨key, chain, linked⟩ := inv.tracked u h
    by_cases same : u = uid
    · rw [same, life] at chain
      exact chain.born.elim
    · rw [update_of_ne same]
      exact ⟨key, chain, linked⟩
  | alive prev =>
    obtain ⟨node, seen⟩ := fits prev (by rw [life]; rfl)
    refine inv.queued life (fun u => callsOf_onUpdate uid u pod prev)
      (fun chain => chain.update node seen) fun meets => ⟨fwKey namespaces uid prev, ?_⟩
    unfold onUpdate at meets ⊢
    split_ifs with criteria
    · refine ⟨rfl, pod, rfl, rfl, ?_⟩
      exact criteria.elim (fun h => h.1) fun h => node h.1
    · rw [if_neg criteria] at meets
      exact absurd rfl meets

theorem Inv.terminate (inv : Inv namespaces c) (uid : UID) :
    Inv namespaces (c.terminate names uid) := by
  unfold Cluster.terminate
  cases life : c.life uid with
  | unborn => exact inv
  | dead => exact inv
  | alive pod =>
    refine inv.queued life (fun u => callsOf_onDelete uid u pod) Chain.terminate
      fun deleted => ⟨fwKey namespaces uid pod, ?_⟩
    unfold onDelete at deleted ⊢
    split_ifs with here
    · exact ⟨rfl, rfl, rfl⟩
    · rw [if_neg here] at deleted
      exact absurd rfl deleted

theorem Inv.process (inv : Inv namespaces c) (fits : c.Fits namespaces names .process) :
    Inv namespaces (c.process names) := by
  have same : (c.process names).ahead = c.ahead := by
    unfold Cluster.process
    cases waiting : c.queue with
    | nil => rfl
    | cons e queue =>
      dsimp only
      rw [fits e (by rw [waiting]; rfl)]
      unfold Cluster.ahead
      rw [waiting, List.flatMap_cons, List.append_assoc]
  have frame : (c.process names).manager = c.manager ∧ (c.process names).life = c.life := by
    unfold Cluster.process
    cases c.queue <;> exact ⟨rfl, rfl⟩
  constructor
  · rw [frame.1]
    exact inv.sound
  · rw [same, frame.1, frame.2]
    exact inv.tracked
  · rw [frame.1]
    exact inv.system

/-- The first handler of a pod is taken out of those that wait. -/
theorem callsOf_eraseIdx {n : ℕ} {call : Call} (h : calls[n]? = some call)
    (first : ∀ before ∈ calls.take n, before.uid ≠ call.uid) :
    callsOf calls call.uid = call :: callsOf (calls.eraseIdx n) call.uid ∧
      ∀ u, u ≠ call.uid → callsOf (calls.eraseIdx n) u = callsOf calls u := by
  obtain ⟨lt, same⟩ := List.getElem?_eq_some_iff.1 h
  have split : calls.take n ++ call :: calls.drop (n + 1) = calls := by
    rw [← same, List.getElem_cons_drop, List.take_append_drop]
  have before : callsOf (calls.take n) call.uid = [] :=
    List.filter_eq_nil_iff.2 fun before hb => by simpa using first before hb
  have all (u : UID) : callsOf calls u =
      callsOf (calls.take n) u ++ callsOf (call :: calls.drop (n + 1)) u := by
    rw [← callsOf_append, split]
  rw [List.eraseIdx_eq_take_drop_succ]
  refine ⟨?_, fun u hu => ?_⟩
  · rw [all, callsOf_append, before, List.nil_append, List.nil_append]
    exact List.filter_cons_of_pos (decide_eq_true rfl)
  · rw [all, callsOf_append]
    congr 1
    exact (List.filter_cons_of_neg fun h => hu (of_decide_eq_true h).symm).symm

/-- What a handler of a chain leaves: it is the last step of its pod. -/
theorem handle_spec {call : Call} {life : Life}
    (sound : Sound m) (system : ∀ k, m.linkedPods call.uid = some k →
      namespaces call.uid ≠ "kube-system")
    (chain : Chain namespaces call.uid (call :: calls) life key)
    (linked : ∀ k, m.linkedPods call.uid = some k → k = key)
    (runs : ∀ key, call.links namespaces = some key → ok = true →
      ∀ t ∈ m.waiting, t.2 ≠ key) :
    Handles call.uid m (m.handle namespaces ok call) ∧
      Tracked namespaces (m.handle namespaces ok call) calls life call.uid ∧
      ∀ k, (m.handle namespaces ok call).linkedPods call.uid = some k →
        namespaces call.uid ≠ "kube-system" := by
  cases call with
  | checkNewPod uid pod prev =>
    obtain ⟨rfl, rest⟩ := chain
    by_cases kube : namespaces uid = "kube-system"
    · have same : m.handle namespaces ok (.checkNewPod uid pod prev) = m := if_pos kube
      rw [same]
      refine ⟨Handles.refl sound, fun _ => ⟨_, rest, fun k hk => ?_⟩, system⟩
      exact absurd kube (system k hk)
    · obtain ⟨handles, now⟩ := checkNewPod_spec sound kube linked (runs _ (if_neg kube))
      exact ⟨handles, fun _ => ⟨_, rest, now⟩, fun _ _ => kube⟩
  | manageDeletedPod uid pod =>
    obtain ⟨rfl, rfl, rfl⟩ := chain
    by_cases kube : namespaces uid = "kube-system"
    · have same : m.handle namespaces ok (.manageDeletedPod uid pod) = m := if_pos kube
      rw [same]
      refine ⟨Handles.refl sound, fun h => ?_, system⟩
      obtain ⟨k, hk⟩ := Option.ne_none_iff_exists'.1 (h.resolve_left fun h => h rfl)
      exact absurd kube (system k hk)
    · obtain ⟨handles, gone⟩ := manageDeletedPod_spec sound kube linked
      exact ⟨handles, fun h => absurd gone (h.resolve_left fun h => h rfl), fun _ _ => kube⟩

theorem Inv.handle (inv : Inv namespaces c) {n : ℕ} (fits : c.Fits namespaces names (.handle n ok)) :
    Inv namespaces (c.handle namespaces n ok) ∧ ∀ key,
      (c.handle namespaces n ok).manager.localFirewalls key = none →
        c.manager.localFirewalls key = none := by
  unfold Cluster.handle
  cases call : c.calls[n]? with
  | none => exact ⟨inv, fun _ h => h⟩
  | some call' =>
    obtain ⟨first, runs⟩ := fits call' call
    obtain ⟨lt, -⟩ := List.getElem?_eq_some_iff.1 call
    have there : c.ahead[n]? = some call' := by
      unfold Cluster.ahead
      rw [List.getElem?_append_left lt, call]
    have first' : ∀ before ∈ c.ahead.take n, before.uid ≠ call'.uid := by
      unfold Cluster.ahead
      rw [List.take_append_of_le_length lt.le]
      exact first
    have ahead : Cluster.ahead { c with
        manager := c.manager.handle namespaces ok call', calls := c.calls.eraseIdx n } =
        c.ahead.eraseIdx n := by
      unfold Cluster.ahead
      rw [List.eraseIdx_append_of_lt_length lt]
    obtain ⟨this, others⟩ := callsOf_eraseIdx there first'
    have tracked := inv.tracked call'.uid
    rw [this] at tracked
    obtain ⟨key, chain, linked⟩ := tracked (.inl (List.cons_ne_nil _ _))
    obtain ⟨handles, now, system⟩ :=
      handle_spec inv.sound (inv.system call'.uid) chain linked runs
    refine ⟨⟨handles.sound, fun u => ?_, fun u k h => ?_⟩, handles.kept⟩
    · rw [ahead]
      by_cases same : u = call'.uid
      · rw [same]
        exact now
      · unfold Tracked
        rw [others u same, handles.others u same]
        exact inv.tracked u
    · by_cases same : u = call'.uid
      · rw [same] at h ⊢
        exact system k h
      · rw [handles.others u same] at h
        exact inv.system u k h

theorem Inv.timers (inv : Inv namespaces c) {m' : Manager} (sound : Sound m')
    (linked : m'.linkedPods = c.manager.linkedPods) :
    Inv namespaces { c with manager := m' } := by
  refine ⟨sound, fun uid => ?_, fun uid k h => ?_⟩
  · unfold Tracked
    rw [linked]
    exact inv.tracked uid
  · dsimp only at h
    rw [linked] at h
    exact inv.system uid k h

theorem Inv.linked (inv : Inv namespaces c) : Linked namespaces c where
  same := inv.sound.linked
  current uid key h none := by
    have linked := inv.tracked uid
    have empty : callsOf c.ahead uid = [] :=
      List.filter_eq_nil_iff.2 fun call hc => by simpa using none call hc
    rw [empty] at linked
    obtain ⟨key', ⟨pod, life, rfl, -⟩, same⟩ := linked (.inr (by rw [h]; exact Option.some_ne_none _))
    exact ⟨pod, life, (same key h).symm⟩

def Kept (namespaces : UID → String) (w : Option Watched) : Prop :=
  ∃ t, w = some t ∧ Inv namespaces t.cluster ∧ t.stayed = fun _ => true

theorem step_spec {w : Option Watched} (kept : Kept namespaces w) {op : Op}
    (fits : FitsIn namespaces names w op) :
    ∃ t t', w = some t ∧ watchedStep namespaces names w op = some t' ∧ Inv namespaces t'.cluster ∧
      t'.stayed = (fun _ => true) ∧ Removes t t'.cluster.manager op := by
  obtain ⟨t, rfl, inv, stayed⟩ := kept
  have fits := fits t rfl
  have done : ∀ c', t.cluster.exec namespaces names op = some c' → Inv namespaces c' →
      Removes t c'.manager op →
      ∃ t₁ t', some t = some t₁ ∧ watchedStep namespaces names (some t) op = some t' ∧
        Inv namespaces t'.cluster ∧ t'.stayed = (fun _ => true) ∧
          Removes t₁ t'.cluster.manager op := by
    intro c' hc inv' removes
    refine ⟨t, ⟨c', watch t.stayed c'.manager⟩, rfl, ?_, inv', ?_, removes⟩
    · show (t.cluster.exec namespaces names op).map _ = _
      rw [hc]
      rfl
    · rw [stayed]
      exact inv'.sound.watch
  have keeps : ∀ m' : Manager,
      (∀ key, m'.localFirewalls key = none → t.cluster.manager.localFirewalls key = none) →
      Removes t m' op := by
    intro m' kept key pods there gone
    rw [kept key gone] at there
    cases there
  cases op with
  | update uid pod =>
    refine done _ rfl (inv.update fits) (keeps _ fun key h => ?_)
    unfold Cluster.update at h
    split at h
    · split_ifs at h <;> exact h
    · exact h
    · exact h
  | terminate uid =>
    refine done _ rfl (inv.terminate uid) (keeps _ fun key h => ?_)
    unfold Cluster.terminate at h
    split at h <;> exact h
  | process =>
    refine done _ rfl (inv.process fits) (keeps _ fun key h => ?_)
    unfold Cluster.process at h
    split at h <;> exact h
  | handle n ok =>
    obtain ⟨inv', kept⟩ := inv.handle fits
    exact done _ rfl inv' (keeps _ kept)
  | expire n =>
    have frame : (t.cluster.manager.expire n).linkedPods = t.cluster.manager.linkedPods ∧
        (t.cluster.manager.expire n).localFirewalls = t.cluster.manager.localFirewalls := by
      unfold Manager.expire
      cases t.cluster.manager.running[n]? <;> exact ⟨rfl, rfl⟩
    refine done _ rfl (inv.timers (inv.sound.expire n) frame.1) (keeps _ fun key h => ?_)
    rw [← frame.2]
    exact h
  | collect n =>
    cases there : t.cluster.manager.waiting[n]? with
    | none =>
      have same : t.cluster.manager.collect n = some t.cluster.manager := by
        unfold Manager.collect
        rw [there]
      refine done t.cluster ?_ inv (keeps _ fun _ h => h)
      show (t.cluster.manager.collect n).map _ = _
      rw [same]
      rfl
    | some timer =>
      obtain ⟨m', run, sound, empty, linked, others⟩ := inv.sound.collect there
      refine done { t.cluster with manager := m' } ?_ (inv.timers sound linked) ?_
      · show (t.cluster.manager.collect n).map _ = _
        rw [run]
        rfl
      · intro key pods was gone
        by_cases here : key = timer.2
        · rw [here] at was
          rw [empty] at was
          refine ⟨(Option.some.inj was).symm, n, timer.1, rfl, ?_, by rw [stayed]⟩
          rw [here]
          exact there
        · rw [show m'.localFirewalls key = t.cluster.manager.localFirewalls key from
            others key here, was] at gone
          cases gone

/-- In every run whose steps meet the condition, the deletion never panics, removes only managers
that have stayed without pods, and pods are linked to the managers of their labels. -/
theorem lifetime_of_run (namespaces names : UID → String) (ops : List Op)
    (fits : Meets (watchedStep namespaces names) (FitsIn namespaces names) (some Watched.start)
      ops) :
    Meets (watchedStep namespaces names) (Right namespaces names) (some Watched.start) ops := by
  refine Meets.imp (P := Kept namespaces) ?_ ?_ ⟨Watched.start, rfl, inv_start, rfl⟩ fits
  · intro w op kept fits
    obtain ⟨t, t', -, run, inv, stayed, -⟩ := step_spec kept fits
    exact ⟨t', run, inv, stayed⟩
  · intro w op kept fits
    obtain ⟨t, t', here, run, inv, -, removes⟩ := step_spec kept fits
    exact ⟨t, t', here, run, inv.linked, removes⟩

instance (c : Cluster) : ∀ op, Decidable (c.Fits namespaces names op)
  | .update uid pod => decidable_of_iff (∀ prev ∈ (c.life uid).pod,
      (prev.node = true → pod.node = true) ∧
        (fwKey namespaces uid pod ≠ fwKey namespaces uid prev →
          pod.meetsCriteria ∨ prev.meetsCriteria)) Iff.rfl
  | .process => decidable_of_iff
      (∀ e ∈ c.queue.head?, c.retrievePodFromCache names e = e.pod) Iff.rfl
  | .handle n ok => decidable_of_iff (∀ call ∈ c.calls[n]?,
      (∀ before ∈ c.calls.take n, before.uid ≠ call.uid) ∧
        ∀ key ∈ call.links namespaces, ok = true → ∀ t ∈ c.manager.waiting, t.2 ≠ key) Iff.rfl
  | .terminate _ => inferInstanceAs (Decidable True)
  | .expire _ => inferInstanceAs (Decidable True)
  | .collect _ => inferInstanceAs (Decidable True)

instance (w : Option Watched) (op : Op) : Decidable (FitsIn namespaces names w op) :=
  decidable_of_iff (∀ t ∈ w, t.cluster.Fits namespaces names op) Iff.rfl

def someNamespaces (_ : UID) : String := "default"

def someNames (_ : UID) : String := "default/web-0"

def somePod (app : String) : Pod := ⟨[("app", app)], true, true⟩

/-- A pod starts, gets other labels and ends, the first manager is deleted, and a new pod gets the
name. -/
def someOps : List Op :=
  [.update "a" { somePod "web" with running := false }, .update "a" (somePod "web"), .process,
    .handle 0 true, .update "a" (somePod "db"), .process, .handle 0 true, .expire 0,
    .terminate "a", .process, .collect 0, .update "b" (somePod "db"), .handle 0 true]

theorem lifetime_someOps :
    Meets (watchedStep someNamespaces someNames) (Right someNamespaces someNames)
      (some Watched.start) someOps :=
  lifetime_of_run someNamespaces someNames someOps (by decide +kernel)

/-- A pod ends, the timer of its manager expires, and another pod with its labels starts. -/
def lateOps : List Op :=
  [.update "a" { somePod "web" with running := false }, .update "a" (somePod "web"), .process,
    .handle 0 true, .terminate "a", .process, .handle 0 true, .expire 0,
    .update "b" { somePod "web" with running := false }, .update "b" (somePod "web"), .process,
    .handle 0 true]

/-- The function of the timer, which has been stopped too late, deletes the manager with its pod. -/
theorem not_lifetime_collect :
    ¬ Meets (watchedStep someNamespaces someNames) (Right someNamespaces someNames)
      (some Watched.start) (lateOps ++ [.collect 0]) := by
  rintro ⟨-, -, -, -, -, -, -, -, -, -, -, -, ⟨t, t', here, after, -, removes⟩, -⟩
  have there : ∀ t ∈ run (watchedStep someNamespaces someNames) (some Watched.start) lateOps,
      t.cluster.manager.localFirewalls "default|app=web" = some ["b"] := by decide +kernel
  have gone : ∀ t ∈ run (watchedStep someNamespaces someNames) (some Watched.start)
      (lateOps ++ [.collect 0]),
      t.cluster.manager.localFirewalls "default|app=web" = none := by decide +kernel
  obtain ⟨empty, -⟩ := removes _ _ (there t here) (gone t' after)
  cases empty

end Polycube.Policies
