import Polycube.Lbrp.Services
import Polycube.Lib.ConsistentOrder
import Polycube.Lib.Digits

/-!
# The consistent array of a set of backends

The backends of a service come one after another, each with a column for the rows there are then.
The array of the finished set is filled with all backends of a weight, reads inside the columns and
is the same for every order, when the columns are long enough for all of them and the slots that are
left over go round evenly (`arrayRight_iff`).
-/

namespace Polycube.Lbrp

open Lib

section Adding

variable {P : Pool} {draw : BitVec 32 → Draw} {confs : List BackendConf}

def Pool.empty (vip : BitVec 32) (vport : BitVec 16) (proto : ServiceProto) : Pool :=
  ⟨vip, vport, proto, [], []⟩

def Pool.withBackends (P : Pool) (draw : BitVec 32 → Draw) (confs : List BackendConf) : Pool :=
  confs.foldl (fun P conf => P.withBackend conf (draw conf.ip)) P

def weights (confs : List BackendConf) : List (BitVec 32 × ℕ) :=
  confs.map fun conf => (conf.ip, conf.weight.getD 1)

theorem strictTotal_ipBefore : StrictTotal ipBefore :=
  .of_lt dotted_injective fun _ _ => Iff.rfl

theorem withBackends_append (conf : BackendConf) :
    P.withBackends draw (confs ++ [conf]) =
      (P.withBackends draw confs).withBackend conf (draw conf.ip) := by
  unfold Pool.withBackends
  rw [List.foldl_append]
  rfl

theorem backends_withBackends (vip : BitVec 32) (vport : BitVec 16) (proto : ServiceProto) :
    (((Pool.empty vip vport proto).withBackends draw confs).backends).Perm
      (confs.map PoolBackend.ofConf) := by
  induction confs using List.reverseRecOn with
  | nil => exact .refl _
  | append_singleton confs conf ih =>
    rw [withBackends_append, List.map_append, List.map_singleton]
    refine ((draw conf.ip).order_perm _).trans ?_
    exact (ih.cons _).trans (List.perm_append_singleton _ _).symm

theorem weights_withBackends (vip : BitVec 32) (vport : BitVec 16) (proto : ServiceProto) :
    ((((Pool.empty vip vport proto).withBackends draw confs).backends).map
      fun b => (b.ip, b.weight)).Perm (weights confs) := by
  have perm := (@backends_withBackends draw confs vip vport proto).map fun b => (b.ip, b.weight)
  rwa [List.map_map] at perm

theorem rows_withBackends (vip : BitVec 32) (vport : BitVec 16) (proto : ServiceProto) :
    ((Pool.empty vip vport proto).withBackends draw confs).rows =
      max initialBackendSize confs.length * backendReplicas := by
  unfold Pool.rows
  rw [(backends_withBackends vip vport proto).length_eq, List.length_map]

theorem matrix_append (vip : BitVec 32) (vport : BitVec 16) (proto : ServiceProto)
    (conf : BackendConf) :
    ((Pool.empty vip vport proto).withBackends draw (confs ++ [conf])).matrix =
      setColumn ipBefore ((Pool.empty vip vport proto).withBackends draw confs).matrix conf.ip
        (some ((draw conf.ip).shuffle
          (max initialBackendSize (confs.length + 1) * backendReplicas))) := by
  have rows := @rows_withBackends draw (confs ++ [conf]) vip vport proto
  rw [List.length_append, List.length_singleton] at rows
  rw [← rows, withBackends_append]
  rfl

/-- As long as there are not more backends than at first, all columns are for the same rows. -/
theorem matrix_of_few (vip : BitVec 32) (vport : BitVec 16) (proto : ServiceProto)
    (few : confs.length ≤ initialBackendSize) :
    ((Pool.empty vip vport proto).withBackends draw confs).matrix =
      setColumns ipBefore
        (fun ip => (draw ip).shuffle (initialBackendSize * backendReplicas))
        (confs.map (·.ip)) := by
  induction confs using List.reverseRecOn with
  | nil => rfl
  | append_singleton confs conf ih =>
    rw [List.length_append, List.length_singleton] at few
    rw [matrix_append, ih (by omega), Nat.max_eq_left few, List.map_append, List.map_singleton,
      setColumns_append]

theorem short_matrix (vip : BitVec 32) (vport : BitVec 16) (proto : ServiceProto)
    (plain : ∀ ip n, (draw ip).shuffle n = List.range n) {rows : ℕ}
    (more : max initialBackendSize confs.length * backendReplicas + 2 ≤ rows) :
    ∀ c ∈ ((Pool.empty vip vport proto).withBackends draw confs).matrix, Short rows c ∧
      c.1 ∈ confs.map (·.ip) := by
  induction confs using List.reverseRecOn with
  | nil => exact fun c hc => absurd hc List.not_mem_nil
  | append_singleton confs conf ih =>
    rw [List.length_append, List.length_singleton] at more
    intro c hc
    rw [matrix_append, mem_setColumn] at hc
    rw [List.map_append]
    rcases hc with rfl | ⟨hc, -⟩
    · exact ⟨⟨_, congrArg some (plain _ _), more⟩, by simp⟩
    · obtain ⟨short, mem⟩ := ih (by unfold backendReplicas at more ⊢; omega) c hc
      exact ⟨short, List.mem_append_left _ mem⟩

end Adding

/-! ### The array -/

section Array

variable {share : ℕ → ℕ → ℕ → ℕ} {confs confs' : List BackendConf} {draw : BitVec 32 → Draw}

/-- Whatever was shuffled, the array is found with reads inside the vectors, has no free slot and
exactly the backends of a weight; and it is the same array for every order in which the backends
come and are iterated. -/
def ArrayRight (share : ℕ → ℕ → ℕ → ℕ) (confs : List BackendConf) : Prop :=
  ∀ (vip : BitVec 32) (vport : BitVec 16) (proto : ServiceProto) (shuffled : BitVec 32 → Draw),
    ∃ l : List (BitVec 32),
      l.length = max initialBackendSize confs.length * backendReplicas ∧
      (∀ ip, ip ∈ l ↔ ∃ conf ∈ confs, conf.ip = ip ∧ conf.weight.getD 1 ≠ 0) ∧
      ∀ confs', confs'.Perm confs → ∀ draw : BitVec 32 → Draw,
        (∀ ip, (draw ip).shuffle = (shuffled ip).shuffle) →
        getConsistentArray share ((Pool.empty vip vport proto).withBackends draw confs') =
          some (l.map some)

def SharedEvenly (share : ℕ → ℕ → ℕ → ℕ) (confs : List BackendConf) : Prop :=
  (weighted (weights confs)).length ∣
    leftover share (initialBackendSize * backendReplicas) (weights confs)

instance SharedEvenly.decidable : Decidable (SharedEvenly share confs) :=
  inferInstanceAs (Decidable (_ ∣ _))

theorem nodup_weights (nodup : (confs.map (·.ip)).Nodup) :
    ((weights confs).map Prod.fst).Nodup := by
  unfold weights
  rwa [List.map_map]

theorem mem_weighted_weights {ip : BitVec 32} : ip ∈ weighted (weights confs) ↔
    ∃ conf ∈ confs, conf.ip = ip ∧ conf.weight.getD 1 ≠ 0 := by
  rw [mem_weighted]
  constructor
  · rintro ⟨w, hw, ne⟩
    obtain ⟨conf, hconf, e⟩ := List.mem_map.1 hw
    cases e
    exact ⟨conf, hconf, rfl, ne⟩
  · rintro ⟨conf, hconf, rfl, ne⟩
    exact ⟨_, List.mem_map.2 ⟨conf, hconf, rfl⟩, ne⟩

theorem columns_of_few (vip : BitVec 32) (vport : BitVec 16) (proto : ServiceProto)
    (nodup : (confs.map (·.ip)).Nodup) (few : confs.length ≤ initialBackendSize) :
    Columns (initialBackendSize * backendReplicas) (confs.map (·.ip))
      ((Pool.empty vip vport proto).withBackends draw confs).matrix := by
  rw [matrix_of_few _ _ _ few]
  exact columns_setColumns strictTotal_ipBefore nodup fun ip => (draw ip).shuffle_perm _

theorem arrayRight_of_even (nodup : (confs.map (·.ip)).Nodup)
    (any : ∃ conf ∈ confs, conf.weight.getD 1 ≠ 0) (few : confs.length ≤ initialBackendSize)
    (even : SharedEvenly share confs) : ArrayRight share confs := by
  intro vip vport proto shuffled
  have columns := @columns_of_few confs shuffled vip vport proto nodup few
  have fst : (weights confs).map Prod.fst = confs.map (·.ip) := List.map_map
  have some_weighted : weighted (weights confs) ≠ [] := by
    obtain ⟨conf, hconf, ne⟩ := any
    exact List.ne_nil_of_mem (mem_weighted_weights.2 ⟨conf, hconf, rfl, ne⟩)
  obtain ⟨q, l, hq, hl, length, mem⟩ := @Columns.array_weighted _ _ _ _ (weights confs) share
    (by rwa [fst]) (nodup_weights nodup) some_weighted (by
      unfold weights
      rw [List.length_map]
      unfold initialBackendSize backendReplicas at *
      omega)
  refine ⟨l, ?_, fun ip => (mem ip).trans mem_weighted_weights, fun confs' perm draw same => ?_⟩
  · rw [length, Nat.max_eq_left few]
  · have few' : confs'.length ≤ initialBackendSize := by rwa [perm.length_eq]
    have matrix : ((Pool.empty vip vport proto).withBackends draw confs').matrix =
        ((Pool.empty vip vport proto).withBackends shuffled confs).matrix := by
      rw [matrix_of_few _ _ _ few, matrix_of_few _ _ _ few',
        setColumns_perm strictTotal_ipBefore nodup (perm.map _)]
      congr 1
      funext ip
      rw [same]
    unfold getConsistentArray slotArrayChecked
    rw [rows_withBackends, Nat.max_eq_left few', matrix,
      weightBackend_perm (nodup_weights nodup) some_weighted even
        ((weights_withBackends vip vport proto).trans (perm.map _)), hq, Option.bind_some,
      consistentArrayChecked_of_perm columns.perm, hl]

theorem range_perm (n : ℕ) : (List.range n).Perm (List.range n) := .refl _

def orderedDraw (order : List PoolBackend → List PoolBackend)
    (order_perm : ∀ backends, (order backends).Perm backends) : Draw where
  shuffle := List.range
  shuffle_perm := range_perm
  order := order
  order_perm := order_perm

theorem few_of_arrayRight (nodup : (confs.map (·.ip)).Nodup) (right : ArrayRight share confs) :
    confs.length ≤ initialBackendSize := by
  by_contra many
  rw [Nat.not_le] at many
  obtain ⟨confs₀, conf, rfl⟩ : ∃ confs₀ conf, confs = confs₀ ++ [conf] := by
    refine ⟨confs.dropLast, confs.getLast (List.ne_nil_of_length_pos (by omega)), ?_⟩
    rw [List.dropLast_concat_getLast]
  rw [List.length_append, List.length_singleton] at many
  rw [List.map_append, List.map_singleton, List.nodup_append_comm, List.singleton_append,
    List.nodup_cons] at nodup
  let draw : BitVec 32 → Draw := fun _ => orderedDraw id fun _ => .refl _
  obtain ⟨l, -, -, array⟩ := right 0 0 .tcp draw
  have array := array _ (.refl _) draw fun _ => rfl
  have rows := @rows_withBackends draw (confs₀ ++ [conf]) 0 0 .tcp
  rw [List.length_append, List.length_singleton] at rows
  have ten : max initialBackendSize (confs₀.length + 1) = confs₀.length + 1 :=
    Nat.max_eq_right (by omega)
  rw [ten] at rows
  have short := @short_matrix draw confs₀ 0 0 .tcp (fun _ _ => rfl)
    ((confs₀.length + 1) * backendReplicas) (by
      unfold initialBackendSize backendReplicas at *
      omega)
  have others : ((Pool.empty 0 0 .tcp).withBackends draw confs₀).matrix ≠ [] := by
    obtain ⟨first, rest, e⟩ : ∃ first rest, confs₀ = rest ++ [first] := by
      have ne : confs₀ ≠ [] := List.ne_nil_of_length_pos (by
        unfold initialBackendSize at many
        omega)
      exact ⟨confs₀.getLast ne, confs₀.dropLast, (List.dropLast_concat_getLast ne).symm⟩
    rw [e, matrix_append]
    exact List.ne_nil_of_mem (mem_setColumn.2 (Or.inl rfl))
  unfold getConsistentArray slotArrayChecked at array
  rw [rows, matrix_append, ten] at array
  obtain ⟨q, -, array⟩ := Option.bind_eq_some_iff.1 array
  have free := not_full_of_setColumn (z := conf.ip) (by unfold backendReplicas; omega)
    (fun c hc => ⟨(short c hc).1, fun e => nodup.1 (e ▸ (short c hc).2)⟩) others array
  simp at free

variable {backends : List PoolBackend} {b : PoolBackend}

theorem filter_ip (nodup : (backends.map (·.ip)).Nodup)
    (hb : b ∈ backends) : backends.filter (fun c => c.ip = b.ip) = [b] := by
  induction backends with
  | nil => cases hb
  | cons c backends ih =>
    rw [List.map_cons, List.nodup_cons] at nodup
    rcases List.mem_cons.1 hb with rfl | hb
    · rw [List.filter_cons_of_pos (by simp), List.filter_eq_nil_iff.2]
      intro d hd e
      exact nodup.1 (List.mem_map.2 ⟨d, hd, of_decide_eq_true e⟩)
    · rw [List.filter_cons_of_neg, ih nodup.2 hb]
      simp only [decide_eq_true_eq]
      exact fun e => nodup.1 (List.mem_map.2 ⟨b, hb, e.symm⟩)

def firstOrder (ip : BitVec 32) (backends : List PoolBackend) : List PoolBackend :=
  backends.filter (fun b => b.ip = ip) ++ backends.filter fun b => !decide (b.ip = ip)

def lastOrder (ip : BitVec 32) (backends : List PoolBackend) : List PoolBackend :=
  backends.filter (fun b => !decide (b.ip = ip)) ++ backends.filter fun b => b.ip = ip

theorem firstOrder_perm (ip : BitVec 32) (backends : List PoolBackend) :
    (firstOrder ip backends).Perm backends :=
  List.filter_append_perm (fun b : PoolBackend => decide (b.ip = ip)) backends

theorem lastOrder_perm (ip : BitVec 32) (backends : List PoolBackend) :
    (lastOrder ip backends).Perm backends :=
  List.perm_append_comm.trans (firstOrder_perm ip backends)

theorem weighted_alone (nodup : (backends.map (·.ip)).Nodup)
    (hb : b ∈ backends) (ne : b.weight ≠ 0) :
    weighted ((backends.filter fun c => c.ip = b.ip).map fun c => (c.ip, c.weight)) = [b.ip] := by
  rw [filter_ip nodup hb]
  exact weighted_cons ne

theorem weighted_firstOrder (nodup : (backends.map (·.ip)).Nodup)
    (hb : b ∈ backends) (ne : b.weight ≠ 0) :
    ∃ rest, weighted ((firstOrder b.ip backends).map fun c => (c.ip, c.weight)) = b.ip :: rest := by
  unfold firstOrder
  rw [List.map_append, weighted_append, weighted_alone nodup hb ne]
  exact ⟨_, rfl⟩

theorem weighted_lastOrder (nodup : (backends.map (·.ip)).Nodup)
    (hb : b ∈ backends) (ne : b.weight ≠ 0) :
    ∃ rest, weighted ((lastOrder b.ip backends).map fun c => (c.ip, c.weight)) =
      rest ++ [b.ip] := by
  unfold lastOrder
  rw [List.map_append, weighted_append, weighted_alone nodup hb ne]
  exact ⟨_, rfl⟩

theorem exists_order (order : List PoolBackend → List PoolBackend)
    (order_perm : ∀ backends, (order backends).Perm backends) (some_conf : confs ≠ []) :
    ∃ backends : List PoolBackend, backends.Perm (confs.map PoolBackend.ofConf) ∧
      ((Pool.empty 0 0 .tcp).withBackends (fun _ => orderedDraw order order_perm) confs).backends =
        order backends := by
  obtain ⟨confs₀, last, rfl⟩ : ∃ confs₀ last, confs = confs₀ ++ [last] :=
    ⟨_, _, (List.dropLast_concat_getLast some_conf).symm⟩
  refine ⟨PoolBackend.ofConf last :: ((Pool.empty 0 0 .tcp).withBackends
    (fun _ => orderedDraw order order_perm) confs₀).backends, ?_, ?_⟩
  · rw [List.map_append, List.map_singleton]
    exact ((backends_withBackends 0 0 .tcp).cons _).trans (List.perm_append_singleton _ _).symm
  · rw [withBackends_append]
    rfl

theorem even_of_arrayRight (nodup : (confs.map (·.ip)).Nodup)
    (any : ∃ conf ∈ confs, conf.weight.getD 1 ≠ 0) (few : confs.length ≤ initialBackendSize)
    (right : ArrayRight share confs) : SharedEvenly share confs := by
  by_contra odd
  obtain ⟨conf, hconf, ne⟩ := any
  let first : BitVec 32 → Draw := fun _ =>
    orderedDraw (firstOrder conf.ip) (firstOrder_perm conf.ip)
  let last : BitVec 32 → Draw := fun _ => orderedDraw (lastOrder conf.ip) (lastOrder_perm conf.ip)
  obtain ⟨l, -, -, array⟩ := right 0 0 .tcp first
  have array₁ := array _ (.refl _) first fun _ => rfl
  have array₂ := array _ (.refl _) last fun _ => rfl
  have columns := @columns_of_few confs first 0 0 .tcp nodup few
  have matrix : ((Pool.empty 0 0 .tcp).withBackends last confs).matrix =
      ((Pool.empty 0 0 .tcp).withBackends first confs).matrix := by
    rw [matrix_of_few _ _ _ few, matrix_of_few _ _ _ few]
    rfl
  have perm₁ := @weights_withBackends first confs 0 0 .tcp
  have perm₂ := @weights_withBackends last confs 0 0 .tcp
  unfold getConsistentArray at array₁ array₂
  rw [rows_withBackends, Nat.max_eq_left few, slotArrayChecked_of_perm _ columns.perm] at array₁
  rw [rows_withBackends, Nat.max_eq_left few, matrix,
    slotArrayChecked_of_perm _ columns.perm] at array₂
  have ips : ∀ {backends : List PoolBackend}, backends.Perm (confs.map PoolBackend.ofConf) →
      (backends.map (·.ip)).Nodup ∧ PoolBackend.ofConf conf ∈ backends := by
    intro backends perm
    refine ⟨(perm.map _).nodup_iff.2 ?_, perm.mem_iff.2 (List.mem_map_of_mem hconf)⟩
    rwa [List.map_map]
  obtain ⟨backends₁, perm, order₁⟩ := @exists_order confs (firstOrder conf.ip)
    (firstOrder_perm conf.ip) (List.ne_nil_of_mem hconf)
  obtain ⟨rest, hfirst⟩ := weighted_firstOrder (ips perm).1 (ips perm).2 ne
  obtain ⟨backends₂, perm, order₂⟩ := @exists_order confs (lastOrder conf.ip)
    (lastOrder_perm conf.ip) (List.ne_nil_of_mem hconf)
  obtain ⟨rest', hlast⟩ := weighted_lastOrder (ips perm).1 (ips perm).2 ne
  have nodup₁ := (perm₁.map Prod.fst).nodup_iff.2 (nodup_weights nodup)
  have length₁ : (((Pool.empty 0 0 .tcp).withBackends first confs).backends.map
      fun b => (b.ip, b.weight)).length ≤ initialBackendSize * backendReplicas := by
    rw [perm₁.length_eq]
    unfold weights initialBackendSize backendReplicas at *
    rw [List.length_map]
    omega
  refine slotArray_ne ⟨columns.nodup, columns.perm, fun x hx => columns.column x ?_⟩ nodup₁ length₁
    (perm₂.trans perm₁.symm) ?_ (order₁ ▸ hfirst) (order₂ ▸ hlast) (array₂.trans array₁.symm)
  · have hx := (perm₁.map Prod.fst).mem_iff.1 hx
    unfold weights at hx
    rwa [List.map_map] at hx
  · rw [leftover_perm perm₁, (weighted_perm perm₁).length_eq]
    exact odd

/-- A set of backends gets its array as it should exactly when there are columns for all of them
and the slots that are left over go round evenly. -/
theorem arrayRight_iff (nodup : (confs.map (·.ip)).Nodup)
    (any : ∃ conf ∈ confs, conf.weight.getD 1 ≠ 0) :
    ArrayRight share confs ↔ confs.length ≤ initialBackendSize ∧ SharedEvenly share confs := by
  constructor
  · intro right
    have few := few_of_arrayRight nodup right
    exact ⟨few, even_of_arrayRight nodup any few right⟩
  · exact fun ⟨few, even⟩ => arrayRight_of_even nodup any few even

end Array

end Polycube.Lbrp
