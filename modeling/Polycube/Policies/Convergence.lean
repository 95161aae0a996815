import Polycube.Lib.Run
import Polycube.Policies.Reactions

/-!
# The rules of a pod converge

Each update of a pod waits in a queue until the worker starts a handler for every subscription that
the pod meets, or has met before.  The handlers get the pod that the cache has by then.  When that is
the pod of the update, and the handlers run in the order of the updates, those that delete before
those that add, the rules that are stored for the pod in the end are those of the subscriptions that
it meets.
-/

namespace Polycube.Policies

open Function

open Lib K8s

structure Event where
  pod : Peer
  handlers : List Subscription

/-- An update in the queue has the new object and the old one. -/
structure System where
  firewall : Firewall
  cache : Option Peer
  queue : List (Peer × Peer)
  events : List Event

inductive PodOp
  | update (pod : Peer)
  | delete
  | process
  | handle (event handler : ℕ) (order : List String)

variable (virtualIp : VirtualIp) (meetsNamespace : String → Option ObjectQuery → Bool)
  (subs : List Subscription)

def started (pod prev : Peer) : List Subscription :=
  subs.filter fun s => podMeetsCriteria meetsNamespace s pod || podMeetsCriteria meetsNamespace s prev

/-- `UpdateFunc`, or `AddFunc`, whose event no firewall manager subscribes to. -/
def System.update (c : System) (pod : Peer) : System :=
  match c.cache with
  | none => { c with cache := some pod }
  | some prev => { c with cache := some pod, queue := c.queue ++ [(pod, prev)] }

/-- `retrievePodFromCache`, which falls back to the object of the event. -/
def System.retrievePodFromCache (c : System) (pod : Peer) : Peer := c.cache.getD pod

/-- `process`, with the goroutines that the dispatcher starts -/
def System.process (c : System) : System :=
  match c.queue with
  | [] => c
  | (pod, prev) :: queue => { c with
      queue
      events := c.events ++ [⟨c.retrievePodFromCache pod,
        started meetsNamespace subs (c.retrievePodFromCache pod) prev⟩] }

def System.handle (c : System) (event handler : ℕ) (order : List String) : System :=
  match c.events[event]? with
  | none => c
  | some e =>
    match e.handlers[handler]? with
    | none => c
    | some s => { c with
        firewall := callback virtualIp c.firewall order s e.pod
        events := c.events.set event ⟨e.pod, e.handlers.eraseIdx handler⟩ }

def System.step (c : System) : PodOp → System
  | .update pod => c.update pod
  | .delete => { c with cache := none }
  | .process => c.process meetsNamespace subs
  | .handle event handler order => c.handle virtualIp event handler order

def Peer.live (pod : Peer) : Bool := pod.running && !pod.terminating && pod.podIP ≠ ""

def determined (pod : Peer) : List Subscription :=
  if pod.live = true then subs.filter fun s => podMeetsCriteria meetsNamespace s pod else []

def rulesFor (ip : String) (side : Side) (policy : String) (rules : ParsedRules) :
    List ChainRule :=
  ((side.templates rules).map fun r => fill policy ip r side) ++
    (side.templates rules).map fun r => fill policy (virtualIp ip).val r side

def Subscription.rules (s : Subscription) (fw : Firewall) (ip : String) (side : Side)
    (policy : String) : List ChainRule :=
  (((fw.policyActions s.key).getD []).filter fun a => a.1 = policy).flatMap fun a =>
    rulesFor virtualIp ip side policy a.2

def Stores (ip : String) (present : List Subscription) (fw : Firewall) : Prop :=
  ∀ side policy, ((fw.rules side policy).filter fun r => isAbout virtualIp ip side r).Perm
    (present.flatMap fun s => s.rules virtualIp fw ip side policy)

def Firewall.others (fw : Firewall) (ip : String) (side : Side) (policy : String) :
    List ChainRule :=
  (fw.rules side policy).filter fun r => !isAbout virtualIp ip side r

structure Start (ip : String) where
  firewall : Firewall
  nodup : firewall.policies.Nodup
  listed : ∀ side policy, firewall.rules side policy ≠ [] → policy ∈ firewall.policies
  actions : ∀ s ∈ subs, ∃ action actions, firewall.policyActions s.key = some (action :: actions)
  clean : ∀ side policy, ∀ r ∈ firewall.rules side policy, isAbout virtualIp ip side r = false

structure Settled (ip : String) (fw : Firewall) (c : System) : Prop where
  settled : c.queue = [] → (∀ e ∈ c.events, e.handlers = []) →
    Stores virtualIp ip ((c.cache.map (determined meetsNamespace subs)).getD []) c.firewall
  others : c.firewall.others virtualIp ip = fw.others virtualIp ip

def deletes (s : Subscription) (pod : Peer) : Bool := pod.terminating || leaves s.podQuery pod

/-- What an update must meet: the pod keeps its address; a pod with rules runs, and terminates or
leaves some subscription; and it leaves the subscriptions that it does not meet any more by its
labels. -/
def FitsUpdate (ip : String) (pod prev : Peer) : Prop :=
  (pod.podIP = "" ∨ pod.podIP = ip) ∧
  (determined meetsNamespace subs prev ≠ [] → pod.running = true ∧ pod.podIP ≠ "" ∧
    (pod.terminating = true ∨ ∃ s ∈ subs, podMeetsCriteria meetsNamespace s prev = true ∧
      podMeetsCriteria meetsNamespace s pod = false)) ∧
  (pod.live = true → ∀ s ∈ subs, podMeetsCriteria meetsNamespace s prev = true →
    podMeetsCriteria meetsNamespace s pod = false → leaves s.podQuery pod = true)

def Firewall.Plain (fw : Firewall) (ip : String) : Prop :=
  fw.policies.length ≤ 1 ∨ ∀ policy ∈ fw.policies, fw.others virtualIp ip .ingress policy = [] ∧
    fw.others virtualIp ip .egress policy = []

/-- What a handler must meet: the updates before have been handled; one that adds runs after those
of its update that delete; and one that deletes finds rules of one policy, or keeps none. -/
def FitsHandler (ip : String) (c : System) (event : ℕ) (e : Event) (s : Subscription) : Prop :=
  (∀ before ∈ c.events.take event, before.handlers = []) ∧
  (if deletes s e.pod = true then c.firewall.Plain virtualIp ip
    else ∀ s' ∈ e.handlers, deletes s' e.pod = false)

/-- The pod is created and deleted while it has no rules, and the cache still has the pod of an
update, or none, when the worker takes the update from the queue. -/
def System.Fits (ip : String) (c : System) : PodOp → Prop
  | .update pod => (c.cache = none → determined meetsNamespace subs pod = []) ∧
    ∀ prev, c.cache = some prev → FitsUpdate meetsNamespace subs ip pod prev
  | .delete => ∀ prev, c.cache = some prev → determined meetsNamespace subs prev = []
  | .process => ∀ e, c.queue.head? = some e → c.retrievePodFromCache e.1 = e.1
  | .handle event handler _ => ∀ e, c.events[event]? = some e →
    ∀ s, e.handlers[handler]? = some s → FitsHandler virtualIp ip c event e s

instance (ip : String) (pod prev : Peer) :
    Decidable (FitsUpdate meetsNamespace subs ip pod prev) := by
  unfold FitsUpdate
  infer_instance

instance (fw : Firewall) (ip : String) : Decidable (fw.Plain virtualIp ip) := by
  unfold Firewall.Plain
  infer_instance

instance (ip : String) (c : System) (event : ℕ) (e : Event) (s : Subscription) :
    Decidable (FitsHandler virtualIp ip c event e s) := by
  unfold FitsHandler
  infer_instance

instance System.decidableFits (ip : String) (c : System) :
    ∀ op, Decidable (c.Fits virtualIp meetsNamespace subs ip op)
  | .update pod => decidable_of_iff
      ((c.cache.isNone → determined meetsNamespace subs pod = []) ∧
        ∀ prev ∈ c.cache, FitsUpdate meetsNamespace subs ip pod prev)
      (and_congr_left' (by rw [Option.isNone_iff_eq_none]))
  | .delete => decidable_of_iff
      (∀ prev ∈ c.cache, determined meetsNamespace subs prev = []) Iff.rfl
  | .process => decidable_of_iff
      (∀ e ∈ c.queue.head?, c.retrievePodFromCache e.1 = e.1) Iff.rfl
  | .handle event handler _ => decidable_of_iff (∀ e ∈ c.events[event]?,
      ∀ s ∈ e.handlers[handler]?, FitsHandler virtualIp ip c event e s) Iff.rfl

/-! ### Rules of a firewall manager -/

variable {virtualIp meetsNamespace subs} {fw : Firewall} {ip : String} {order : List String}

theorem deleteFrom_of_none (about : ChainRule → Bool) (policies : List String)
    (rules : String → List ChainRule)
    (none : ∀ p ∈ policies, (rules p).filter (fun r => !about r) = []) (policy : String) :
    deleteFrom about policies [] rules policy = if policy ∈ policies then [] else rules policy := by
  induction policies generalizing rules with
  | nil => rfl
  | cons p ps ih =>
    have here := none p List.mem_cons_self
    unfold deleteFrom
    rw [here, List.append_nil, ih]
    · by_cases same : policy = p
      · rw [same, update_self, if_pos List.mem_cons_self, ite_self]
      · rw [update_of_ne same]
        exact if_congr (by rw [List.mem_cons, or_iff_right same]) rfl rfl
    · intro q hq
      by_cases same : q = p
      · rw [same, update_self]
        rfl
      · rw [update_of_ne same]
        exact none q (List.mem_cons_of_mem p hq)

theorem deleteFrom_of_notMem (about : ChainRule → Bool) {policies : List String} {policy : String}
    (absent : policy ∉ policies) (kept : List ChainRule) (rules : String → List ChainRule) :
    deleteFrom about policies kept rules policy = rules policy := by
  induction policies generalizing kept rules with
  | nil => rfl
  | cons p policies ih =>
    obtain ⟨other, absent⟩ := not_or.1 (mt List.mem_cons.2 absent)
    unfold deleteFrom
    rw [ih absent, update_of_ne other]

theorem mem_visited (order policies : List String) (policy : String) :
    policy ∈ visited order policies ↔ policy ∈ policies := by
  unfold visited
  rw [List.mem_append, List.mem_dedup, List.mem_filter, List.mem_filter]
  simp only [Bool.not_eq_true', List.contains_eq_mem, decide_eq_true_iff, decide_eq_false_iff_not]
  tauto

theorem visited_perm {policies : List String} (nodup : policies.Nodup) (order : List String) :
    (visited order policies).Perm policies := by
  refine (List.perm_ext_iff_of_nodup ?_ nodup).2 (mem_visited order policies)
  unfold visited
  refine List.nodup_append'.2 ⟨List.nodup_dedup _, nodup.filter _, fun p hp hp' => ?_⟩
  rw [List.mem_dedup, List.mem_filter] at hp
  have := (List.mem_filter.1 hp').2
  simp only [List.contains_eq_mem, Bool.not_eq_true', decide_eq_false_iff_not] at this
  exact this hp.1

structure Firewall.Sound (fw : Firewall) : Prop where
  nodup : fw.policies.Nodup
  listed : ∀ side policy, fw.rules side policy ≠ [] → policy ∈ fw.policies

theorem Firewall.Sound.del (sound : fw.Sound) (plain : fw.Plain virtualIp ip)
    (order : List String) (side : Side) (policy : String) :
    (fw.del virtualIp order ip).rules side policy = fw.others virtualIp ip side policy := by
  unfold Firewall.del
  dsimp only
  have absent : policy ∉ fw.policies → fw.rules side policy = [] :=
    fun h => by_contra fun some => h (sound.listed side policy some)
  have others : fw.others virtualIp ip side policy =
      (fw.rules side policy).filter fun r => !isAbout virtualIp ip side r := rfl
  have perm := visited_perm sound.nodup order
  rcases plain with single | empty
  · cases policies : fw.policies with
    | nil =>
      rw [policies] at perm absent
      rw [List.perm_nil.1 perm, others, absent List.not_mem_nil]
      exact absent List.not_mem_nil
    | cons p ps =>
      rw [policies, List.length_cons] at single
      obtain rfl : ps = [] := List.length_eq_zero_iff.1 (by omega)
      rw [policies] at perm absent
      rw [List.perm_singleton.1 perm]
      unfold deleteFrom deleteFrom
      by_cases here : policy = p
      · rw [here, update_self]
        rfl
      · rw [update_of_ne here, others,
          absent fun h => here (List.mem_singleton.1 h)]
        rfl
  · have none : ∀ p ∈ fw.policies, fw.others virtualIp ip side p = [] := by
      intro p hp
      cases side with
      | ingress => exact (empty p hp).1
      | egress => exact (empty p hp).2
    rw [deleteFrom_of_none]
    · split_ifs with mem
      · exact (none policy (perm.mem_iff.1 mem)).symm
      · rw [others, absent fun h => mem (perm.mem_iff.2 h)]
        rfl
    · exact fun p hp => none p (perm.mem_iff.1 hp)

theorem isAbout_fill {policy target : String} {r : ChainRule} {side : Side} (nonempty : target ≠ "")
    (mine : target = ip ∨ target = (virtualIp ip).val) :
    isAbout virtualIp ip side (fill policy target r side) = true := by
  have address : side.address (fill policy target r side) = target := by
    unfold fill
    rw [if_neg nonempty]
    cases side <;> rfl
  unfold isAbout
  rw [address, Bool.or_eq_true, decide_eq_true_iff, decide_eq_true_iff]
  exact mine

theorem isAbout_rulesFor {policy : String} {rules : ParsedRules} {side : Side} {r : ChainRule}
    (nonempty : ip ≠ "") (h : r ∈ rulesFor virtualIp ip side policy rules) :
    isAbout virtualIp ip side r = true := by
  rcases List.mem_append.1 h with h | h
  · obtain ⟨r', -, rfl⟩ := List.mem_map.1 h
    exact isAbout_fill nonempty (.inl rfl)
  · obtain ⟨r', -, rfl⟩ := List.mem_map.1 h
    exact isAbout_fill (virtualIp ip).2 (.inr rfl)

theorem storeRules_rules (fw : Firewall) (policy target : String) (rules : ParsedRules)
    (side : Side) (p : String) :
    (storeRules fw policy target rules).rules side p = fw.rules side p ++
      if p = policy then (side.templates rules).map fun r => fill policy target r side else [] := by
  unfold storeRules
  dsimp only
  split_ifs
  · rfl
  · exact (List.append_nil _).symm

theorem addAll_rules (fw : Firewall) (actions : List (String × ParsedRules)) (side : Side)
    (policy : String) :
    (fw.addAll virtualIp ip actions).rules side policy = fw.rules side policy ++
      (actions.filter fun a => a.1 = policy).flatMap fun a =>
        rulesFor virtualIp ip side policy a.2 := by
  induction actions generalizing fw with
  | nil => exact (List.append_nil _).symm
  | cons action actions ih =>
    obtain ⟨p, rules⟩ := action
    unfold Firewall.addAll
    rw [ih, storeRules_rules, storeRules_rules]
    by_cases here : policy = p
    · subst here
      rw [if_pos rfl, if_pos rfl, List.filter_cons_of_pos (by exact decide_eq_true rfl),
        List.flatMap_cons]
      simp only [rulesFor, List.append_assoc]
    · rw [if_neg here, if_neg here, List.filter_cons_of_neg fun h =>
        here (of_decide_eq_true h).symm, List.append_nil, List.append_nil]

theorem storeRules_sound (sound : fw.Sound) (policy target : String) (rules : ParsedRules) :
    (storeRules fw policy target rules).Sound := by
  have policies : ∀ p, p ∈ (storeRules fw policy target rules).policies ↔
      p ∈ fw.policies ∨ p = policy := by
    intro p
    unfold storeRules
    split_ifs with there
    · refine ⟨.inl, fun h => h.elim id ?_⟩
      rintro rfl
      exact there
    · rw [List.mem_append, List.mem_singleton]
  refine ⟨?_, fun side p some => (policies p).2 ?_⟩
  · unfold storeRules
    split_ifs with there
    · exact sound.nodup
    · refine List.nodup_append'.2 ⟨sound.nodup, List.nodup_singleton _, fun p hp hp' => ?_⟩
      rw [List.mem_singleton.1 hp'] at hp
      exact there hp
  · rw [storeRules_rules] at some
    by_cases here : p = policy
    · exact .inr here
    · rw [if_neg here, List.append_nil] at some
      exact .inl (sound.listed side p some)

theorem addAll_sound (sound : fw.Sound) (actions : List (String × ParsedRules)) :
    (fw.addAll virtualIp ip actions).Sound := by
  induction actions generalizing fw with
  | nil => exact sound
  | cons action actions ih =>
    exact ih (storeRules_sound (storeRules_sound sound _ _ _) _ _ _)

theorem addAll_policyActions (virtualIp : VirtualIp) (ip : String) (fw : Firewall)
    (actions : List (String × ParsedRules)) :
    (fw.addAll virtualIp ip actions).policyActions = fw.policyActions := by
  induction actions generalizing fw with
  | nil => rfl
  | cons action actions ih => exact ih _

def present (s : Subscription) (pod : Peer) (before : List Subscription) : List Subscription :=
  if pod.running = true ∧ pod.podIP ≠ "" then
    if deletes s pod = true then [] else before ++ [s]
  else before

structure Holds (virtualIp : VirtualIp) (ip : String) (before : List Subscription)
    (start fw : Firewall) : Prop where
  sound : fw.Sound
  actions : fw.policyActions = start.policyActions
  stores : Stores virtualIp ip before fw
  others : fw.others virtualIp ip = start.others virtualIp ip

variable {start : Firewall} {s : Subscription} {pod : Peer} {before : List Subscription}

theorem Holds.del (h : Holds virtualIp ip before start fw) (plain : fw.Plain virtualIp ip) :
    Holds virtualIp ip [] start (fw.del virtualIp order ip) := by
  have rules := h.sound.del plain order
  have sub : ∀ side policy, (fw.del virtualIp order ip).rules side policy ≠ [] →
      fw.rules side policy ≠ [] := by
    intro side policy some none
    rw [rules] at some
    unfold Firewall.others at some
    rw [none] at some
    exact some rfl
  refine ⟨⟨h.sound.nodup, fun side policy some => h.sound.listed side policy (sub side policy some)⟩,
    h.actions, fun side policy => ?_, ?_⟩
  · rw [rules]
    unfold Firewall.others
    rw [List.filter_filter]
    refine List.Perm.of_eq (List.filter_eq_nil_iff.2 fun r _ => ?_)
    cases isAbout virtualIp ip side r <;> decide
  · rw [← h.others]
    funext side policy
    show ((fw.del virtualIp order ip).rules side policy).filter _ = _
    rw [rules]
    unfold Firewall.others
    rw [List.filter_filter]
    refine List.filter_congr fun r _ => ?_
    cases isAbout virtualIp ip side r <;> rfl

theorem Holds.add (h : Holds virtualIp ip before start fw) (nonempty : ip ≠ "") :
    Holds virtualIp ip (before ++ [s]) start
      (fw.addAll virtualIp ip ((fw.policyActions s.key).getD [])) := by
  have mine : ∀ side policy, ∀ r ∈ s.rules virtualIp fw ip side policy,
      isAbout virtualIp ip side r = true := by
    intro side policy r hr
    obtain ⟨a, -, hr⟩ := List.mem_flatMap.1 hr
    exact isAbout_rulesFor nonempty hr
  have rules : ∀ side policy, (fw.addAll virtualIp ip
      ((fw.policyActions s.key).getD [])).rules side policy =
        fw.rules side policy ++ s.rules virtualIp fw ip side policy :=
    fun side policy => addAll_rules fw _ side policy
  have kept := addAll_policyActions virtualIp ip fw
    ((fw.policyActions s.key).getD [])
  refine ⟨addAll_sound h.sound _, kept.trans h.actions, fun side policy => ?_, ?_⟩
  · rw [rules, List.filter_append, List.filter_eq_self.2 (mine side policy), List.flatMap_append,
      List.flatMap_singleton]
    have same : ∀ s' : Subscription, s'.rules virtualIp (fw.addAll virtualIp ip
        ((fw.policyActions s.key).getD [])) ip side policy =
        s'.rules virtualIp fw ip side policy := by
      intro s'
      unfold Subscription.rules
      rw [kept]
    simp only [same]
    exact (h.stores side policy).append_right _
  · rw [← h.others]
    funext side policy
    show ((fw.addAll virtualIp ip _).rules side policy).filter _ = _
    rw [rules, List.filter_append]
    have none : (s.rules virtualIp fw ip side policy).filter
        (fun r => !isAbout virtualIp ip side r) = [] := by
      refine List.filter_eq_nil_iff.2 fun r hr => ?_
      rw [mine side policy r hr]
      decide
    rw [none, List.append_nil]
    rfl

theorem Holds.callback (h : Holds virtualIp ip before start fw)
    (address : pod.podIP = "" ∨ pod.podIP = ip)
    (actions : ∃ action actions, fw.policyActions s.key = some (action :: actions))
    (plain : deletes s pod = true → fw.Plain virtualIp ip) :
    Holds virtualIp ip (present s pod before) start (callback virtualIp fw order s pod) := by
  obtain ⟨action, rest, actions⟩ := actions
  unfold Policies.callback reactToPod present
  by_cases running : pod.running = true
  swap
  · rw [if_neg running, if_neg fun h => running h.1]
    exact h
  rw [if_pos running]
  by_cases addressless : pod.podIP = ""
  · rw [if_pos addressless, if_neg fun h => h.2 addressless]
    exact h
  rw [if_neg addressless, if_pos ⟨running, addressless⟩]
  have here := address.resolve_left addressless
  unfold deletes at plain ⊢
  rw [here]
  by_cases terminating : pod.terminating = true
  · rw [terminating] at plain ⊢
    rw [if_pos rfl, Bool.true_or, if_pos rfl]
    exact h.del (plain rfl)
  · rw [Bool.not_eq_true] at terminating
    rw [terminating] at plain ⊢
    rw [Bool.false_or] at plain ⊢
    rw [if_neg Bool.false_ne_true]
    unfold Firewall.upd
    rw [actions]
    dsimp only
    by_cases gone : leaves s.podQuery pod = true
    · rw [if_pos gone, if_pos gone, here]
      exact h.del (plain gone)
    · rw [if_neg gone, if_neg gone, here]
      have added := h.add (s := s) (here ▸ addressless)
      rw [actions] at added
      exact added

/-! ### Updates that wait -/

def Event.adds (e : Event) : List Subscription := e.handlers.filter fun s => !deletes s e.pod

/-- The subscriptions whose rules are stored before the handlers of an update are such that those of
its state are stored after. -/
def Stage (meetsNamespace : String → Option ObjectQuery → Bool) (subs : List Subscription)
    (before : List Subscription) (e : Event) : Prop :=
  if e.pod.live = true then
    if ∃ s ∈ e.handlers, deletes s e.pod = true
      then e.adds.Perm (determined meetsNamespace subs e.pod)
      else (before ++ e.adds).Perm (determined meetsNamespace subs e.pod)
  else before = [] ∨ e.pod.running = true ∧ e.pod.podIP ≠ "" ∧ e.handlers ≠ []

def Ready (meetsNamespace : String → Option ObjectQuery → Bool) (subs : List Subscription) :
    List Subscription → List Event → Option Peer → Prop
  | before, [], pod => before.Perm ((pod.map (determined meetsNamespace subs)).getD [])
  | before, e :: es, pod => Stage meetsNamespace subs before e ∧
    Ready meetsNamespace subs (determined meetsNamespace subs e.pod) es pod

variable {before' : List Subscription} {e : Event} {es : List Event} {last : Option Peer}

theorem Stage.perm (h : Stage meetsNamespace subs before e) (perm : before.Perm before') :
    Stage meetsNamespace subs before' e := by
  unfold Stage at h ⊢
  split_ifs at h ⊢ with live some
  · exact h
  · exact (perm.symm.append_right _).trans h
  · refine h.imp_left fun empty => ?_
    rw [empty] at perm
    exact List.nil_perm.1 perm

theorem Ready.perm (h : Ready meetsNamespace subs before es last) (perm : before.Perm before') :
    Ready meetsNamespace subs before' es last := by
  cases es with
  | nil => exact perm.symm.trans h
  | cons e es => exact ⟨h.1.perm perm, h.2⟩

theorem Ready.congr_last (h : Ready meetsNamespace subs before es last) {last' : Option Peer}
    (same : (last'.map (determined meetsNamespace subs)).getD [] =
      (last.map (determined meetsNamespace subs)).getD []) :
    Ready meetsNamespace subs before es last' := by
  induction es generalizing before with
  | nil =>
    show before.Perm _
    rw [same]
    exact h
  | cons e es ih => exact ⟨h.1, ih h.2⟩

theorem Ready.append {pod prev : Peer}
    (h : Ready meetsNamespace subs before es (some prev)) {handlers : List Subscription}
    (stage : Stage meetsNamespace subs (determined meetsNamespace subs prev) ⟨pod, handlers⟩) :
    Ready meetsNamespace subs before (es ++ [⟨pod, handlers⟩]) (some pod) := by
  induction es generalizing before with
  | nil => exact ⟨stage.perm h.symm, List.Perm.refl _⟩
  | cons e es ih => exact ⟨h.1, ih h.2⟩

def Event.done (e : Event) : Bool := e.handlers.isEmpty

theorem Stage.done (h : Stage meetsNamespace subs before e) (done : e.done = true) :
    before.Perm (determined meetsNamespace subs e.pod) := by
  have empty : e.handlers = [] := List.isEmpty_iff.1 done
  unfold Stage Event.adds at h
  rw [empty] at h
  split_ifs at h with live some
  · obtain ⟨s, hs, -⟩ := some
    exact absurd hs List.not_mem_nil
  · rwa [List.filter_nil, List.append_nil] at h
  · unfold determined
    rw [if_neg live, h.resolve_right fun h => h.2.2 rfl]

theorem Ready.dropWhile (h : Ready meetsNamespace subs before es last) :
    Ready meetsNamespace subs before (es.dropWhile Event.done) last := by
  induction es generalizing before with
  | nil => exact h
  | cons e es ih =>
    by_cases done : e.done = true
    · rw [List.dropWhile_cons_of_pos done]
      exact ih (h.2.perm (h.1.done done).symm)
    · rw [List.dropWhile_cons_of_neg done]
      exact h

theorem Stage.handle {handler : ℕ} (h : Stage meetsNamespace subs before e)
    (there : e.handlers[handler]? = some s)
    (first : deletes s e.pod = false → ∀ s' ∈ e.handlers, deletes s' e.pod = false) :
    Stage meetsNamespace subs (present s e.pod before) ⟨e.pod, e.handlers.eraseIdx handler⟩ := by
  have perm : (s :: e.handlers.eraseIdx handler).Perm e.handlers := by
    obtain ⟨lt, rfl⟩ := List.getElem?_eq_some_iff.1 there
    exact List.getElem_cons_eraseIdx_perm lt
  have adds := perm.filter fun s => !deletes s e.pod
  unfold Stage Event.adds at h ⊢
  by_cases live : e.pod.live = true
  · rw [if_pos live] at h ⊢
    have acts : e.pod.running = true ∧ e.pod.podIP ≠ "" := by
      unfold Peer.live at live
      rw [Bool.and_eq_true, Bool.and_eq_true, decide_eq_true_iff] at live
      exact ⟨live.1.1, live.2⟩
    by_cases removes : deletes s e.pod = true
    · have none : present s e.pod before = [] := by
        unfold present
        rw [if_pos acts, if_pos removes]
      rw [if_pos ⟨s, List.mem_of_getElem? there, removes⟩] at h
      rw [List.filter_cons_of_neg (by rw [removes]; decide)] at adds
      rw [none, List.nil_append, ite_self]
      exact adds.trans h
    · have added : present s e.pod before = before ++ [s] := by
        unfold present
        rw [if_pos acts, if_neg removes]
      have none := first (Bool.eq_false_iff.2 removes)
      have rest : ∀ s' ∈ e.handlers.eraseIdx handler, deletes s' e.pod = false :=
        fun s' hs => none s' (List.mem_of_mem_eraseIdx hs)
      rw [if_neg] at h ⊢
      · rw [List.filter_cons_of_pos (by rw [Bool.eq_false_iff.2 removes]; rfl)] at adds
        rw [added, List.append_assoc]
        exact (adds.append_left before).trans h
      · rintro ⟨s', hs, removes'⟩
        rw [rest s' hs] at removes'
        cases removes'
      · rintro ⟨s', hs, removes'⟩
        rw [none s' hs] at removes'
        cases removes'
  · rw [if_neg live] at h ⊢
    left
    unfold present
    by_cases acts : e.pod.running = true ∧ e.pod.podIP ≠ ""
    · have terminating : e.pod.terminating = true := by
        simpa [Peer.live, acts.1, acts.2] using live
      rw [if_pos acts]
      refine if_pos ?_
      unfold deletes
      rw [terminating, Bool.true_or]
    · rw [if_neg acts]
      exact h.resolve_right fun h => acts ⟨h.1, h.2.1⟩

theorem mem_started {pod prev : Peer} {s : Subscription} :
    s ∈ started meetsNamespace subs pod prev ↔ s ∈ subs ∧
      (podMeetsCriteria meetsNamespace s pod = true ∨
        podMeetsCriteria meetsNamespace s prev = true) := by
  unfold started
  rw [List.mem_filter, Bool.or_eq_true]

theorem leaves_of_meets (s : Subscription) {pod : Peer}
    (meets : podMeetsCriteria meetsNamespace s pod = true) : leaves s.podQuery pod = false := by
  unfold podMeetsCriteria at meets
  have labels := (Bool.and_eq_true_iff.1 meets).2
  have built := s.built
  unfold leaves
  unfold labelsMeet at labels
  cases query : s.podQuery with
  | none => rfl
  | some q =>
    rw [query] at labels built
    cases q with
    | name n =>
      show (!pod.labels.isEmpty && !areLabelsContained none pod.labels) = false
      exact Bool.and_false _
    | labels l =>
      have nonempty : l.isEmpty = false := by
        cases l with
        | nil => exact absurd rfl built
        | cons _ _ => rfl
      have contained : areLabelsContained (some l) pod.labels = true := by
        have := labels
        dsimp only [Option.bind_some, queryLabels] at this
        rwa [nonempty, Bool.false_or] at this
      show (!pod.labels.isEmpty && !areLabelsContained (some l) pod.labels) = false
      rw [contained]
      exact Bool.and_false _

theorem stage_update {pod prev : Peer} (fits : FitsUpdate meetsNamespace subs ip pod prev) :
    Stage meetsNamespace subs (determined meetsNamespace subs prev)
      ⟨pod, started meetsNamespace subs pod prev⟩ := by
  obtain ⟨-, changes, by_labels⟩ := fits
  unfold Stage
  dsimp only
  by_cases live : pod.live = true
  · rw [if_pos live]
    have terminating : pod.terminating = false := by
      unfold Peer.live at live
      rw [Bool.and_eq_true, Bool.and_eq_true, Bool.not_eq_true'] at live
      exact live.1.2
    have removes : ∀ s, deletes s pod = leaves s.podQuery pod := by
      intro s
      unfold deletes
      rw [terminating, Bool.false_or]
    have adds : (⟨pod, started meetsNamespace subs pod prev⟩ : Event).adds =
        determined meetsNamespace subs pod := by
      unfold Event.adds started determined
      rw [if_pos live, List.filter_filter]
      refine List.filter_congr fun s hs => ?_
      dsimp only
      rw [removes]
      cases meets : podMeetsCriteria meetsNamespace s pod with
      | true =>
        rw [leaves_of_meets s meets]
        rfl
      | false =>
        cases before : podMeetsCriteria meetsNamespace s prev with
        | false => exact Bool.and_false _
        | true =>
          rw [by_labels live s hs before meets]
          rfl
    rw [adds]
    split_ifs with some
    · exact List.Perm.refl _
    · have none : determined meetsNamespace subs prev = [] := by
        by_contra nonempty
        obtain ⟨-, -, change⟩ := changes nonempty
        rw [terminating] at change
        obtain ⟨s, hs, before, after⟩ := change.resolve_left Bool.false_ne_true
        refine some ⟨s, mem_started.2 ⟨hs, .inr before⟩, ?_⟩
        rw [removes]
        exact by_labels live s hs before after
      rw [none, List.nil_append]
  · rw [if_neg live]
    by_cases empty : determined meetsNamespace subs prev = []
    · exact .inl empty
    · obtain ⟨running, address, -⟩ := changes empty
      refine .inr ⟨running, address, fun none => empty ?_⟩
      refine List.eq_nil_iff_forall_not_mem.2 fun s hs => ?_
      have there : s ∈ started meetsNamespace subs pod prev := by
        unfold determined at hs
        split_ifs at hs
        · obtain ⟨mem, meets⟩ := List.mem_filter.1 hs
          exact mem_started.2 ⟨mem, .inr meets⟩
        · exact absurd hs List.not_mem_nil
      rw [none] at there
      exact List.not_mem_nil there

/-- The events with handlers, and those that the queue will start as long as the cache keeps up. -/
def System.ahead (meetsNamespace : String → Option ObjectQuery → Bool) (subs : List Subscription)
    (c : System) : List Event :=
  c.events ++ c.queue.map fun e => ⟨e.1, started meetsNamespace subs e.1 e.2⟩

structure Converging (virtualIp : VirtualIp)
    (meetsNamespace : String → Option ObjectQuery → Bool) (subs : List Subscription)
    (ip : String) (start : Firewall) (c : System) : Prop where
  holds : ∃ before, Holds virtualIp ip before start c.firewall ∧
    Ready meetsNamespace subs before ((c.ahead meetsNamespace subs).dropWhile Event.done) c.cache
  addresses : ∀ e ∈ c.ahead meetsNamespace subs, e.pod.podIP = "" ∨ e.pod.podIP = ip
  subs : ∀ e ∈ c.ahead meetsNamespace subs, ∀ s ∈ e.handlers, s ∈ subs

variable {c : System} (began : Start virtualIp subs ip)

theorem converging_start :
    Converging virtualIp meetsNamespace subs ip began.firewall ⟨began.firewall, none, [], []⟩ where
  holds := by
    refine ⟨[], ⟨⟨began.nodup, began.listed⟩, rfl, fun side policy => ?_, rfl⟩, List.Perm.refl _⟩
    refine List.Perm.of_eq (List.filter_eq_nil_iff.2 fun r hr => ?_)
    rw [began.clean side policy r hr]
    decide
  addresses e he := absurd he List.not_mem_nil
  subs e he := absurd he List.not_mem_nil

theorem Converging.update (h : Converging virtualIp meetsNamespace subs ip start c) {pod : Peer}
    (fits : c.Fits virtualIp meetsNamespace subs ip (.update pod)) :
    Converging virtualIp meetsNamespace subs ip start (c.update pod) := by
  obtain ⟨before, holds, ready⟩ := h.holds
  obtain ⟨created, updated⟩ := fits
  unfold System.update
  cases last : c.cache with
  | none =>
    rw [last] at ready
    exact ⟨⟨before, holds, ready.congr_last (created last)⟩, h.addresses, h.subs⟩
  | some prev =>
    rw [last] at ready
    have fits := updated prev last
    have stage := stage_update fits
    have ahead : System.ahead meetsNamespace subs
        { c with cache := some pod, queue := c.queue ++ [(pod, prev)] } =
        c.ahead meetsNamespace subs ++ [⟨pod, started meetsNamespace subs pod prev⟩] := by
      unfold System.ahead
      rw [List.map_append, ← List.append_assoc]
      rfl
    dsimp only
    refine ⟨⟨before, holds, ?_⟩, fun e he => ?_, fun e he => ?_⟩
    · rw [ahead]
      have more := (ready.append stage).dropWhile
      rwa [List.dropWhile_append, List.dropWhile_idempotent, ← List.dropWhile_append] at more
    · rw [ahead] at he
      rcases List.mem_append.1 he with he | he
      · exact h.addresses e he
      · rw [List.mem_singleton.1 he]
        exact fits.1
    · rw [ahead] at he
      rcases List.mem_append.1 he with he | he
      · exact h.subs e he
      · rw [List.mem_singleton.1 he]
        exact fun s hs => (mem_started.1 hs).1

theorem Converging.delete (h : Converging virtualIp meetsNamespace subs ip start c)
    (fits : c.Fits virtualIp meetsNamespace subs ip .delete) :
    Converging virtualIp meetsNamespace subs ip start { c with cache := none } := by
  obtain ⟨before, holds, ready⟩ := h.holds
  refine ⟨⟨before, holds, ready.congr_last ?_⟩, h.addresses, h.subs⟩
  cases last : c.cache with
  | none => rfl
  | some prev => exact (fits prev last).symm

theorem ahead_process (fits : c.Fits virtualIp meetsNamespace subs ip .process) :
    (c.process meetsNamespace subs).ahead meetsNamespace subs = c.ahead meetsNamespace subs := by
  unfold System.process
  cases waiting : c.queue with
  | nil => rfl
  | cons e queue =>
    dsimp only
    rw [fits e (by rw [waiting]; rfl)]
    unfold System.ahead
    rw [waiting, List.map_cons, List.append_assoc]
    rfl

theorem Converging.process (h : Converging virtualIp meetsNamespace subs ip start c)
    (fits : c.Fits virtualIp meetsNamespace subs ip .process) :
    Converging virtualIp meetsNamespace subs ip start (c.process meetsNamespace subs) := by
  have frame : (c.process meetsNamespace subs).firewall = c.firewall ∧
      (c.process meetsNamespace subs).cache = c.cache := by
    unfold System.process
    cases c.queue <;> exact ⟨rfl, rfl⟩
  have ahead := ahead_process fits
  constructor
  · rw [ahead, frame.1, frame.2]
    exact h.holds
  · rw [ahead]
    exact h.addresses
  · rw [ahead]
    exact h.subs

theorem dropWhile_split {event : ℕ} (there : es[event]? = some e)
    (first : ∀ before ∈ es.take event, before.handlers = []) (waits : e.handlers ≠ []) (e' : Event) :
    es.dropWhile Event.done = e :: es.drop (event + 1) ∧
      (es.set event e').dropWhile Event.done = (e' :: es.drop (event + 1)).dropWhile Event.done := by
  obtain ⟨lt, same⟩ := List.getElem?_eq_some_iff.1 there
  have done : ∀ x ∈ es.take event, x.done = true := fun x hx => List.isEmpty_iff.2 (first x hx)
  have split : es = es.take event ++ e :: es.drop (event + 1) := by
    rw [← same, List.getElem_cons_drop, List.take_append_drop]
  refine ⟨?_, ?_⟩
  · conv_lhs => rw [split]
    rw [List.dropWhile_append_of_pos done, List.dropWhile_cons_of_neg]
    exact fun h => waits (List.isEmpty_iff.1 h)
  · rw [List.set_eq_take_append_cons_drop, if_pos lt, List.dropWhile_append_of_pos done]

theorem Converging.handle (h : Converging virtualIp meetsNamespace subs ip began.firewall c)
    {event handler : ℕ}
    (fits : c.Fits virtualIp meetsNamespace subs ip (.handle event handler order)) :
    Converging virtualIp meetsNamespace subs ip began.firewall
      (c.handle virtualIp event handler order) := by
  unfold System.handle
  cases there : c.events[event]? with
  | none => exact h
  | some e =>
    dsimp only
    cases this : e.handlers[handler]? with
    | none => exact h
    | some s =>
      obtain ⟨before, holds, ready⟩ := h.holds
      obtain ⟨first, ordered⟩ := fits e there s this
      obtain ⟨lt, -⟩ := List.getElem?_eq_some_iff.1 there
      have there' : (c.ahead meetsNamespace subs)[event]? = some e := by
        unfold System.ahead
        rw [List.getElem?_append_left lt, there]
      have first' : ∀ before ∈ (c.ahead meetsNamespace subs).take event, before.handlers = [] := by
        unfold System.ahead
        rw [List.take_append_of_le_length lt.le]
        exact first
      have ahead : System.ahead meetsNamespace subs { c with
          firewall := callback virtualIp c.firewall order s e.pod
          events := c.events.set event ⟨e.pod, e.handlers.eraseIdx handler⟩ } =
          (c.ahead meetsNamespace subs).set event ⟨e.pod, e.handlers.eraseIdx handler⟩ := by
        unfold System.ahead
        rw [List.set_append_left event _ lt]
      have mem := List.mem_of_getElem? there'
      have waits : e.handlers ≠ [] := List.ne_nil_of_mem (List.mem_of_getElem? this)
      obtain ⟨now, after⟩ :=
        dropWhile_split there' first' waits ⟨e.pod, e.handlers.eraseIdx handler⟩
      rw [now] at ready
      have actions := began.actions s (h.subs e mem s (List.mem_of_getElem? this))
      rw [← holds.actions] at actions
      have changed : ∀ x ∈ (c.ahead meetsNamespace subs).set event
          ⟨e.pod, e.handlers.eraseIdx handler⟩,
          ∃ y ∈ c.ahead meetsNamespace subs, x.pod = y.pod ∧ ∀ s ∈ x.handlers, s ∈ y.handlers := by
        intro x hx
        rcases List.mem_or_eq_of_mem_set hx with hx | rfl
        · exact ⟨x, hx, rfl, fun _ hs => hs⟩
        · exact ⟨e, mem, rfl, fun s hs => List.mem_of_mem_eraseIdx hs⟩
      refine ⟨⟨present s e.pod before, ?_, ?_⟩, fun x hx => ?_, fun x hx s hs => ?_⟩
      · refine holds.callback (h.addresses e mem) actions fun removes => ?_
        rwa [if_pos removes] at ordered
      · rw [ahead, after]
        have stage := ready.1.handle this fun keeps => by
          rwa [if_neg (by rw [keeps]; exact Bool.false_ne_true)] at ordered
        have both : Ready meetsNamespace subs (present s e.pod before)
            (⟨e.pod, e.handlers.eraseIdx handler⟩ ::
              (c.ahead meetsNamespace subs).drop (event + 1)) c.cache :=
          ⟨stage, ready.2⟩
        exact both.dropWhile
      · rw [ahead] at hx
        obtain ⟨y, hy, same, -⟩ := changed x hx
        rw [same]
        exact h.addresses y hy
      · rw [ahead] at hx
        obtain ⟨y, hy, -, sub⟩ := changed x hx
        exact h.subs y hy s (sub s hs)

theorem Converging.step (h : Converging virtualIp meetsNamespace subs ip began.firewall c)
    {op : PodOp} (fits : c.Fits virtualIp meetsNamespace subs ip op) :
    Converging virtualIp meetsNamespace subs ip began.firewall
      (c.step virtualIp meetsNamespace subs op) := by
  cases op with
  | update pod => exact h.update fits
  | delete => exact h.delete fits
  | process => exact h.process fits
  | handle event handler order => exact h.handle began fits

theorem Converging.settled (h : Converging virtualIp meetsNamespace subs ip start c) :
    Settled virtualIp meetsNamespace subs ip start c := by
  obtain ⟨before, holds, ready⟩ := h.holds
  refine ⟨fun started handled side policy => (holds.stores side policy).trans ?_, holds.others⟩
  have done : (c.ahead meetsNamespace subs).dropWhile Event.done = [] := by
    unfold System.ahead
    rw [started, List.map_nil, List.append_nil]
    exact List.dropWhile_eq_nil_iff.2 fun e he => List.isEmpty_iff.2 (handled e he)
  rw [done] at ready
  exact List.Perm.flatMap_right _ ready

/-- In every run whose steps meet the condition, the rules that are stored for the pod once all its
handlers have run are those that its state determines. -/
theorem settled_of_run (virtualIp : VirtualIp)
    (meetsNamespace : String → Option ObjectQuery → Bool) (subs : List Subscription) (ip : String)
    (began : Start virtualIp subs ip) (ops : List PodOp)
    (fits : Meets (System.step virtualIp meetsNamespace subs)
      (fun c op => c.Fits virtualIp meetsNamespace subs ip op) ⟨began.firewall, none, [], []⟩ ops) :
    Meets (System.step virtualIp meetsNamespace subs) (fun c op =>
      Settled virtualIp meetsNamespace subs ip began.firewall
        (c.step virtualIp meetsNamespace subs op)) ⟨began.firewall, none, [], []⟩ ops :=
  Meets.imp (P := Converging virtualIp meetsNamespace subs ip began.firewall)
    (fun _ _ h fits => h.step began fits) (fun _ _ h fits => (h.step began fits).settled)
    (converging_start began) fits

def someVirtualIp (ip : String) : { ip : String // ip ≠ "" } :=
  if ip = "10.0.0.5" then ⟨"10.10.0.5", by decide⟩ else ⟨"10.10.0.1", by decide⟩

def someSubscription (app : String) : Subscription :=
  ⟨app, some (.labels [("app", app)]), none, fun h => (by cases h)⟩

def someSubs : List Subscription := [someSubscription "web", someSubscription "db"]

def someTemplates : ParsedRules := ⟨[⟨"", "", some .tcp, 0, 80, "new", .forward, ""⟩], []⟩

def someStart : Start someVirtualIp someSubs "10.0.0.5" where
  firewall := ⟨["p", "q"], fun _ _ => [], fun key => if key = "web" then some [("p", someTemplates)]
    else if key = "db" then some [("q", someTemplates)] else none⟩
  nodup := by decide
  listed _ _ h := absurd rfl h
  actions s hs := by
    rcases List.mem_cons.1 hs with rfl | hs
    · exact ⟨_, _, rfl⟩
    · rw [List.mem_singleton.1 hs]
      exact ⟨_, _, rfl⟩
  clean _ _ _ h := absurd h List.not_mem_nil

def somePeer (app : String) : Peer := ⟨"default", [("app", app)], "10.0.0.5", true, false⟩

def somePodOps : List PodOp :=
  [.update { somePeer "web" with podIP := "", running := false }, .update (somePeer "web"),
    .process, .update (somePeer "db"), .handle 0 0 [], .process, .handle 1 0 [], .handle 1 0 [],
    .update { somePeer "db" with terminating := true }, .delete, .process, .handle 2 0 ["q"]]

theorem settled_somePodOps :
    Meets (System.step someVirtualIp (fun _ _ => true) someSubs) (fun c op =>
      Settled someVirtualIp (fun _ _ => true) someSubs "10.0.0.5" someStart.firewall
        (c.step someVirtualIp (fun _ _ => true) someSubs op)) ⟨someStart.firewall, none, [], []⟩
      somePodOps :=
  settled_of_run someVirtualIp (fun _ _ => true) someSubs "10.0.0.5" someStart somePodOps
    (by decide +kernel)

def swappedOps : List PodOp :=
  [.update { somePeer "web" with podIP := "", running := false }, .update (somePeer "web"),
    .process, .update { somePeer "web" with terminating := true }, .process, .handle 1 0 []]

/-- Its rules stay. -/
theorem not_settled_swapped :
    ¬ Meets (System.step someVirtualIp (fun _ _ => true) someSubs) (fun c op =>
      Settled someVirtualIp (fun _ _ => true) someSubs "10.0.0.5" someStart.firewall
        (c.step someVirtualIp (fun _ _ => true) someSubs op)) ⟨someStart.firewall, none, [], []⟩
      (swappedOps ++ [.handle 0 0 []]) := by
  rintro ⟨-, -, -, -, -, -, ⟨settled, -⟩, -⟩
  have rules := settled (by decide +kernel) (by decide +kernel) .egress "p"
  have stored : ((run (System.step someVirtualIp (fun _ _ => true) someSubs)
      ⟨someStart.firewall, none, [], []⟩ (swappedOps ++ [.handle 0 0 []])).firewall.rules .egress
        "p").filter (fun r => isAbout someVirtualIp "10.0.0.5" .egress r) ≠ [] := by
    decide +kernel
  exact stored (List.perm_nil.1 rules)

end Polycube.Policies
