import Polycube.K8switch.Services
import Polycube.Lbrp.Arrays

/-!
# The consistent array of a set of backends

The services of this switch keep their backends in order, so the array does not depend on the order
in which they come; what it shares with the load balancer are columns that are too short for more
backends than there are at first (`arrayRight_iff`).
-/

namespace Polycube.K8switch

open Lib

section Adding

variable {P : Pool} {shuffle : BackendKey → Shuffle} {confs : List BackendConf}

def Pool.empty (vip : BitVec 32) (vport : BitVec 16) (proto : ServiceProto) : Pool :=
  ⟨vip, vport, proto, [], [], false⟩

def Pool.withColumns (P : Pool) (shuffle : BackendKey → Shuffle) (confs : List BackendConf) :
    Pool :=
  confs.foldl (fun P conf => P.withColumn conf (shuffle conf.key)) P

def weights (confs : List BackendConf) : List (BackendKey × ℕ) :=
  confs.map fun conf => (conf.key, conf.weight.getD 1)

theorem strictTotal_keyBefore : StrictTotal keyBefore := by
  refine .of_lt (f := fun k : BackendKey => toLex (dotted k.1, k.2.toNat)) ?_ fun a b => ?_
  · intro a b h
    have h := Prod.mk.inj (toLex.injective h)
    exact Prod.ext (dotted_injective h.1) (BitVec.eq_of_toNat_eq h.2)
  · rw [Prod.Lex.toLex_lt_toLex]
    rfl

theorem withColumns_append (conf : BackendConf) :
    P.withColumns shuffle (confs ++ [conf]) =
      (P.withColumns shuffle confs).withColumn conf (shuffle conf.key) := by
  unfold Pool.withColumns
  rw [List.foldl_append]
  rfl

theorem backends_withColumns (vip : BitVec 32) (vport : BitVec 16) (proto : ServiceProto) :
    ((Pool.empty vip vport proto).withColumns shuffle confs).backends =
      insertAll keyBefore (weights confs) := by
  induction confs using List.reverseRecOn with
  | nil => rfl
  | append_singleton confs conf ih =>
    unfold weights at ih ⊢
    rw [List.map_append, List.map_singleton, insertAll_append, ← ih, withColumns_append]
    rfl

theorem fst_weights (confs : List BackendConf) :
    (weights confs).map Prod.fst = confs.map (·.key) := List.map_map

theorem insertAll_weights (nodup : (confs.map (·.key)).Nodup) :
    (insertAll keyBefore (weights confs)).Perm (weights confs) :=
  (insertAll_spec strictTotal_keyBefore (by rwa [fst_weights])).2

theorem rows_withColumns (vip : BitVec 32) (vport : BitVec 16) (proto : ServiceProto)
    (nodup : (confs.map (·.key)).Nodup) :
    ((Pool.empty vip vport proto).withColumns shuffle confs).rows =
      max initialBackendSize confs.length * backendReplicas := by
  have length := (insertAll_weights nodup).length_eq
  unfold weights at length
  rw [List.length_map] at length
  unfold Pool.rows
  rw [backends_withColumns]
  unfold weights
  rw [length]

theorem matrix_append (vip : BitVec 32) (vport : BitVec 16) (proto : ServiceProto)
    {conf : BackendConf} (nodup : ((confs ++ [conf]).map (·.key)).Nodup) :
    ((Pool.empty vip vport proto).withColumns shuffle (confs ++ [conf])).matrix =
      setColumn keyBefore ((Pool.empty vip vport proto).withColumns shuffle confs).matrix conf.key
        (some ((shuffle conf.key).nums
          (max initialBackendSize (confs.length + 1) * backendReplicas))) := by
  have rows := @rows_withColumns shuffle _ vip vport proto nodup
  rw [List.length_append, List.length_singleton] at rows
  rw [← rows, withColumns_append]
  rfl

theorem nodup_of_append {conf : BackendConf} (nodup : ((confs ++ [conf]).map (·.key)).Nodup) :
    conf.key ∉ confs.map (·.key) ∧ (confs.map (·.key)).Nodup := by
  rw [List.map_append, List.map_singleton, List.nodup_append_comm, List.singleton_append,
    List.nodup_cons] at nodup
  exact nodup

/-- As long as there are not more backends than at first, all columns are for the same rows. -/
theorem matrix_of_few (vip : BitVec 32) (vport : BitVec 16) (proto : ServiceProto)
    (nodup : (confs.map (·.key)).Nodup) (few : confs.length ≤ initialBackendSize) :
    ((Pool.empty vip vport proto).withColumns shuffle confs).matrix =
      setColumns keyBefore
        (fun key => (shuffle key).nums (initialBackendSize * backendReplicas))
        (confs.map (·.key)) := by
  induction confs using List.reverseRecOn with
  | nil => rfl
  | append_singleton confs conf ih =>
    rw [List.length_append, List.length_singleton] at few
    rw [matrix_append _ _ _ nodup, ih (nodup_of_append nodup).2 (by omega), Nat.max_eq_left few,
      List.map_append, List.map_singleton, setColumns_append]

theorem short_matrix (vip : BitVec 32) (vport : BitVec 16) (proto : ServiceProto)
    (nodup : (confs.map (·.key)).Nodup) (plain : ∀ key n, (shuffle key).nums n = List.range n)
    {rows : ℕ} (more : max initialBackendSize confs.length * backendReplicas + 2 ≤ rows) :
    ∀ c ∈ ((Pool.empty vip vport proto).withColumns shuffle confs).matrix, Short rows c ∧
      c.1 ∈ confs.map (·.key) := by
  induction confs using List.reverseRecOn with
  | nil => exact fun c hc => absurd hc List.not_mem_nil
  | append_singleton confs conf ih =>
    rw [List.length_append, List.length_singleton] at more
    intro c hc
    rw [matrix_append _ _ _ nodup, mem_setColumn] at hc
    rw [List.map_append]
    rcases hc with rfl | ⟨hc, -⟩
    · exact ⟨⟨_, congrArg some (plain _ _), more⟩, by simp⟩
    · obtain ⟨short, mem⟩ := ih (nodup_of_append nodup).2
        (by unfold backendReplicas at more ⊢; omega) c hc
      exact ⟨short, List.mem_append_left _ mem⟩

end Adding

/-! ### The array -/

section Array

variable {share : ℕ → ℕ → ℕ → ℕ} {confs : List BackendConf}

/-- Whatever was shuffled, the array is found with reads inside the vectors, has no free slot and
exactly the backends of a weight; and it is the same array for every order in which the backends
come. -/
def ArrayRight (share : ℕ → ℕ → ℕ → ℕ) (confs : List BackendConf) : Prop :=
  ∀ (vip : BitVec 32) (vport : BitVec 16) (proto : ServiceProto) (shuffle : BackendKey → Shuffle),
    ∃ l : List BackendKey,
      l.length = max initialBackendSize confs.length * backendReplicas ∧
      (∀ key, key ∈ l ↔ ∃ conf ∈ confs, conf.key = key ∧ conf.weight.getD 1 ≠ 0) ∧
      ∀ confs', confs'.Perm confs →
        getConsistentArray share ((Pool.empty vip vport proto).withColumns shuffle confs') =
          some (l.map some)

theorem mem_weighted_weights {key : BackendKey} : key ∈ weighted (weights confs) ↔
    ∃ conf ∈ confs, conf.key = key ∧ conf.weight.getD 1 ≠ 0 := by
  rw [mem_weighted]
  constructor
  · rintro ⟨w, hw, ne⟩
    obtain ⟨conf, hconf, e⟩ := List.mem_map.1 hw
    cases e
    exact ⟨conf, hconf, rfl, ne⟩
  · rintro ⟨conf, hconf, rfl, ne⟩
    exact ⟨_, List.mem_map.2 ⟨conf, hconf, rfl⟩, ne⟩

theorem arrayRight_of_few (nodup : (confs.map (·.key)).Nodup)
    (any : ∃ conf ∈ confs, conf.weight.getD 1 ≠ 0) (few : confs.length ≤ initialBackendSize) :
    ArrayRight share confs := by
  intro vip vport proto shuffle
  have perm := insertAll_weights nodup
  have keys := (perm.map Prod.fst).trans (.of_eq (fst_weights confs))
  have columns : Columns (initialBackendSize * backendReplicas)
      ((insertAll keyBefore (weights confs)).map Prod.fst)
      ((Pool.empty vip vport proto).withColumns shuffle confs).matrix := by
    rw [matrix_of_few _ _ _ nodup few]
    have drawn := columns_setColumns strictTotal_keyBefore nodup fun key =>
      (shuffle key).perm (initialBackendSize * backendReplicas)
    exact ⟨drawn.nodup, drawn.perm, fun x hx => drawn.column x (keys.mem_iff.1 hx)⟩
  have some_weighted : weighted (insertAll keyBefore (weights confs)) ≠ [] := by
    obtain ⟨conf, hconf, ne⟩ := any
    exact List.ne_nil_of_mem ((weighted_perm perm).mem_iff.2
      (mem_weighted_weights.2 ⟨conf, hconf, rfl, ne⟩))
  obtain ⟨q, l, hq, hl, length, mem⟩ := @Columns.array_weighted _ _ _ _ _ share columns
    (keys.nodup_iff.2 nodup) some_weighted (by
      rw [perm.length_eq]
      unfold weights initialBackendSize backendReplicas at *
      rw [List.length_map]
      omega)
  refine ⟨l, ?_, fun key => ?_, fun confs' permC => ?_⟩
  · rw [length, Nat.max_eq_left few]
  · rw [mem, (weighted_perm perm).mem_iff, mem_weighted_weights]
  · have few' : confs'.length ≤ initialBackendSize := by rwa [permC.length_eq]
    have nodup' : (confs'.map (·.key)).Nodup := (permC.map _).nodup_iff.2 nodup
    have matrix : ((Pool.empty vip vport proto).withColumns shuffle confs').matrix =
        ((Pool.empty vip vport proto).withColumns shuffle confs).matrix := by
      rw [matrix_of_few _ _ _ nodup few, matrix_of_few _ _ _ nodup' few',
        setColumns_perm strictTotal_keyBefore nodup (permC.map _)]
    have backends : insertAll keyBefore (weights confs') = insertAll keyBefore (weights confs) :=
      insertAll_perm strictTotal_keyBefore (by rwa [fst_weights]) (permC.map _)
    unfold getConsistentArray slotArrayChecked
    rw [rows_withColumns _ _ _ nodup', Nat.max_eq_left few', matrix, backends_withColumns,
      backends, hq, Option.bind_some, consistentArrayChecked_of_perm columns.perm, hl]

theorem few_of_arrayRight (nodup : (confs.map (·.key)).Nodup) (right : ArrayRight share confs) :
    confs.length ≤ initialBackendSize := by
  by_contra many
  rw [Nat.not_le] at many
  obtain ⟨confs₀, conf, rfl⟩ : ∃ confs₀ conf, confs = confs₀ ++ [conf] :=
    ⟨_, _, (List.dropLast_concat_getLast (List.ne_nil_of_length_pos (by omega))).symm⟩
  obtain ⟨new, nodup₀⟩ := nodup_of_append nodup
  rw [List.length_append, List.length_singleton] at many
  let shuffle : BackendKey → Shuffle := fun _ => ⟨List.range, fun _ => .refl _⟩
  obtain ⟨l, -, -, array⟩ := right 0 0 .tcp shuffle
  have array := array _ (.refl _)
  have rows := @rows_withColumns shuffle _ 0 0 .tcp nodup
  rw [List.length_append, List.length_singleton] at rows
  have ten : max initialBackendSize (confs₀.length + 1) = confs₀.length + 1 :=
    Nat.max_eq_right (by omega)
  rw [ten] at rows
  have short := @short_matrix shuffle confs₀ 0 0 .tcp nodup₀ (fun _ _ => rfl)
    ((confs₀.length + 1) * backendReplicas) (by
      unfold initialBackendSize backendReplicas at *
      omega)
  have others : ((Pool.empty 0 0 .tcp).withColumns shuffle confs₀).matrix ≠ [] := by
    have ne : confs₀ ≠ [] := List.ne_nil_of_length_pos (by
      unfold initialBackendSize at many
      omega)
    rw [← List.dropLast_concat_getLast ne] at nodup₀ ⊢
    rw [matrix_append _ _ _ nodup₀]
    exact List.ne_nil_of_mem (mem_setColumn.2 (Or.inl rfl))
  unfold getConsistentArray slotArrayChecked at array
  rw [rows, matrix_append _ _ _ nodup, ten] at array
  obtain ⟨q, -, array⟩ := Option.bind_eq_some_iff.1 array
  have free := not_full_of_setColumn (z := conf.key) (by unfold backendReplicas; omega)
    (fun c hc => ⟨(short c hc).1, fun e => new (e ▸ (short c hc).2)⟩) others array
  simp at free

theorem arrayRight_iff (nodup : (confs.map (·.key)).Nodup)
    (any : ∃ conf ∈ confs, conf.weight.getD 1 ≠ 0) :
    ArrayRight share confs ↔ confs.length ≤ initialBackendSize :=
  ⟨few_of_arrayRight nodup, arrayRight_of_few nodup any⟩

/-- When a set of backends gets its array as it should, in the load balancer and in the switch: the
columns are long enough for all of them; and in the load balancer, where they are iterated in the
order of a hash map, the slots that are left over go round evenly. -/
theorem arraysRight_iff (share : ℕ → ℕ → ℕ → ℕ) :
    (∀ confs : List Lbrp.BackendConf, (confs.map (·.ip)).Nodup →
      (∃ conf ∈ confs, conf.weight.getD 1 ≠ 0) →
      (Lbrp.ArrayRight share confs ↔
        confs.length ≤ Lbrp.initialBackendSize ∧ Lbrp.SharedEvenly share confs)) ∧
    ∀ confs : List BackendConf, (confs.map (·.key)).Nodup →
      (∃ conf ∈ confs, conf.weight.getD 1 ≠ 0) →
      (ArrayRight share confs ↔ confs.length ≤ initialBackendSize) :=
  ⟨fun _ => Lbrp.arrayRight_iff, fun _ => arrayRight_iff⟩

def exactShare (rows sum weight : ℕ) : ℕ := weight * rows / sum

def someBackends (n : ℕ) : List BackendConf :=
  (List.range n).map fun i => ⟨(BitVec.ofNat 32 i, 80), none⟩

def someLbrpBackends (n : ℕ) : List Lbrp.BackendConf :=
  (List.range n).map fun i => ⟨BitVec.ofNat 32 i, 80, none⟩

theorem arraysRight_some :
    Lbrp.ArrayRight exactShare (someLbrpBackends 3) ∧ ArrayRight exactShare (someBackends 4) := by
  constructor
  · exact ((arraysRight_iff exactShare).1 _ (by decide) ⟨⟨0, 80, none⟩, by decide⟩).2
      ⟨by decide, by decide⟩
  · exact ((arraysRight_iff exactShare).2 _ (by decide) ⟨⟨(0, 80), none⟩, by decide⟩).2 (by decide)

/-- Eleven backends are too many, and for four backends the order matters in the load balancer. -/
theorem not_arraysRight_some :
    ((someBackends 11).map (·.key)).Nodup ∧ ¬ ArrayRight exactShare (someBackends 11) ∧
      ((someLbrpBackends 4).map (·.ip)).Nodup ∧
      ¬ Lbrp.ArrayRight exactShare (someLbrpBackends 4) := by
  have nodup : ((someBackends 11).map (·.key)).Nodup := by decide
  have nodup' : ((someLbrpBackends 4).map (·.ip)).Nodup := by decide
  refine ⟨nodup, fun right => ?_, nodup', fun right => ?_⟩
  · exact absurd (few_of_arrayRight nodup right) (by decide)
  · have even := Lbrp.even_of_arrayRight nodup' ⟨⟨0, 80, none⟩, by decide⟩ (by decide) right
    revert even
    decide

end Array

end Polycube.K8switch
