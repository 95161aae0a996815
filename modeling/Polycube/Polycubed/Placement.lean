import Polycube.Polycubed.ChainRuns

/-!
# Where a cube is put

`add_cube` puts a cube in the list of a port or an interface where a keyword says.  The index of the
other cube is looked for in one loop; that it has been found is tested with another variable.
-/

namespace Polycube.Polycubed

open Lib

namespace Chains

variable {c : Programs} {s s' : Chains} {x : ChainEnd} {p : PortRef} {e : String} {i : Index}

end Chains

namespace Placement

open Chains

/-- How `add_cube` ends, with the list that it leaves. -/
inductive Added
  | returned (cubes : List String) (index : ℕ)
  | threw (message : String) (cubes : List String)
  | undefined
  deriving DecidableEq

/-- `add_cube`, of the list.  `relink` is what `update_indexes` throws: it loads programs. -/
def addCube (c : Programs) (cube position other : String) (relink : Option String)
    (cubes : List String) : Added :=
  match placeCube c cube position other cubes with
  | .throws message => .threw message cubes
  | .undefined => .undefined
  | .at index =>
    match relink with
    | some message => .threw message (cubes.insertIdx index cube)
    | none => .returned (cubes.insertIdx index cube) index

/-! ### What is asked for -/

inductive Keyword
  | auto | first | last | before | after
  deriving DecidableEq

def Keyword.text : Keyword → String
  | auto => "auto"
  | first => "first"
  | last => "last"
  | before => "before"
  | after => "after"

def Keyword.beside : Keyword → Bool
  | before | after => true
  | _ => false

section

variable (c : Programs) (cube other : String) (cubes : List String)

def rank (service : String) : Option ℕ :=
  if service ∈ positions then some (positions.idxOf service) else none

def Ranked (cubes : List String) : Prop :=
  (cubes.filterMap fun cube => rank (c.serviceName cube)).Pairwise (· ≤ ·)

def HasPlace : Prop :=
  ∃ l₁ l₂, cubes = l₁ ++ l₂ ∧
    (∀ a ∈ l₁, comparePosition (c.serviceName cube) (c.serviceName a) = some .gt) ∧
      ∀ a ∈ l₂, comparePosition (c.serviceName cube) (c.serviceName a) = some .lt

def Asked (cubes' : List String) : Keyword → Prop
  | .auto => (∃ l₁ l₂, cubes = l₁ ++ l₂ ∧ cubes' = l₁ ++ cube :: l₂) ∧ Ranked c cubes'
  | .first => cubes' = cube :: cubes
  | .last => cubes' = cubes ++ [cube]
  | .before => ∃ l₁ l₂, cubes = l₁ ++ other :: l₂ ∧ cubes' = l₁ ++ cube :: other :: l₂
  | .after => ∃ l₁ l₂, cubes = l₁ ++ other :: l₂ ∧ cubes' = l₁ ++ other :: cube :: l₂

/-- What is no reason for an index: the other cube is not attached, it is missing, or the automatic
order has no place. -/
def Refusable (k : Keyword) : Prop :=
  (other ≠ "" ∧ other ∉ cubes) ∨ (other = "" ∧ k.beside = true) ∨
    (k = .auto ∧ ¬ HasPlace c cube cubes)

def InsertsWhereAsked (k : Keyword) (relink : Option String) : Prop :=
  match addCube c cube k.text other relink cubes with
  | .returned cubes' _ => Asked c cube other cubes cubes' k
  | .threw _ cubes' => cubes' = cubes ∧ Refusable c cube other cubes k
  | .undefined => False

/-- The other cube of `before` and `after` is attached, or nothing is and it is refused. -/
def Names (k : Keyword) : Prop :=
  k.beside = true → other ≠ "" ∧ (cubes = [] ∨ other ∈ cubes)

def Refused (k : Keyword) : Prop :=
  (other ≠ "" ∧ cubes = []) ∨ (k = .auto ∧ ¬ HasPlace c cube cubes)

end

variable {c : Programs} {cube other service service' : String} {cubes : List String}

/-! ### The automatic order -/

/-- Two services have an order when one is `nat` and the other is `ddosmitigator`. -/
theorem comparePosition_eq_some_iff {o : Ordering} : comparePosition service service' = some o ↔
    service = "nat" ∧ service' = "ddosmitigator" ∧ o = .lt ∨
      service = "ddosmitigator" ∧ service' = "nat" ∧ o = .gt := by
  unfold comparePosition positions
  constructor
  · intro h
    obtain ⟨⟨mem, mem', other⟩, order⟩ := Option.ite_none_right_eq_some.1 h
    simp only [List.mem_cons, List.not_mem_nil, or_false] at mem mem'
    rcases mem with rfl | rfl <;> rcases mem' with rfl | rfl
    · exact absurd rfl other
    · exact .inl ⟨rfl, rfl, (Option.some.inj order).symm⟩
    · exact .inr ⟨rfl, rfl, (Option.some.inj order).symm⟩
    · exact absurd rfl other
  · rintro (⟨rfl, rfl, rfl⟩ | ⟨rfl, rfl, rfl⟩) <;> decide

/-- The cubes that a service has an order with are all on one side of it. -/
theorem one_side (known : ∀ a ∈ cubes, comparePosition service (c.serviceName a) ≠ none) :
    (∀ a ∈ cubes, comparePosition service (c.serviceName a) = some .lt) ∨
      ∀ a ∈ cubes, comparePosition service (c.serviceName a) = some .gt := by
  by_cases nat : service = "nat"
  · refine .inl fun a ha => ?_
    obtain ⟨o, ho⟩ := Option.ne_none_iff_exists'.1 (known a ha)
    rcases comparePosition_eq_some_iff.1 ho with ⟨-, -, rfl⟩ | ⟨ddos, -, -⟩
    · exact ho
    · rw [nat] at ddos
      exact absurd ddos (by decide)
  · refine .inr fun a ha => ?_
    obtain ⟨o, ho⟩ := Option.ne_none_iff_exists'.1 (known a ha)
    rcases comparePosition_eq_some_iff.1 ho with ⟨is, -, -⟩ | ⟨-, -, rfl⟩
    · exact absurd is nat
    · exact ho

theorem hasPlace_iff : HasPlace c cube cubes ↔
    ∀ a ∈ cubes, comparePosition (c.serviceName cube) (c.serviceName a) ≠ none := by
  constructor
  · rintro ⟨l₁, l₂, rfl, left, right⟩ a ha
    rcases List.mem_append.1 ha with ha | ha
    · simp [left a ha]
    · simp [right a ha]
  · intro known
    rcases one_side known with right | left
    · exact ⟨[], cubes, rfl, List.forall_mem_nil _, right⟩
    · exact ⟨cubes, [], (List.append_nil _).symm, left, List.forall_mem_nil _⟩

theorem autoFront_lt {i index : ℕ}
    (h : ∀ a ∈ cubes, comparePosition service (c.serviceName a) = some .lt) :
    autoFront c service cubes i index = (index, true) := by
  induction cubes generalizing i with
  | nil => rfl
  | cons a cubes ih =>
    rw [autoFront, h a List.mem_cons_self]
    exact ih fun b hb => h b (List.mem_cons_of_mem _ hb)

theorem autoFront_gt {i : ℕ}
    (h : ∀ a ∈ cubes, comparePosition service (c.serviceName a) = some .gt) :
    autoFront c service cubes i i = (i + cubes.length, true) := by
  induction cubes generalizing i with
  | nil => rfl
  | cons a cubes ih =>
    rw [autoFront, h a List.mem_cons_self, List.length_cons]
    rw [ih fun b hb => h b (List.mem_cons_of_mem _ hb), Nat.add_right_comm, Nat.add_assoc]

/-- A cube without an order ends the first loop, and the second one with an exception. -/
theorem autoFront_unknown {i index : ℕ}
    (h : ∃ a ∈ cubes, comparePosition service (c.serviceName a) = none) :
    (autoFront c service cubes i index).2 = false := by
  induction cubes generalizing i index with
  | nil =>
    obtain ⟨a, ha, -⟩ := h
    cases ha
  | cons a cubes ih =>
    rw [autoFront]
    cases compared : comparePosition service (c.serviceName a) with
    | none => rfl
    | some o =>
      have later : ∃ b ∈ cubes, comparePosition service (c.serviceName b) = none := by
        obtain ⟨b, hb, none⟩ := h
        rcases List.mem_cons.1 hb with rfl | hb
        · rw [compared] at none
          cases none
        · exact ⟨b, hb, none⟩
      cases o <;> exact ih later

theorem autoBack_unknown {index : ℕ}
    (h : ∃ a ∈ cubes, comparePosition service (c.serviceName a) = none) :
    autoBack c service cubes index = none := by
  induction cubes generalizing index with
  | nil =>
    obtain ⟨a, ha, -⟩ := h
    cases ha
  | cons a cubes ih =>
    rw [autoBack]
    cases compared : comparePosition service (c.serviceName a) with
    | none => rfl
    | some o =>
      have later : ∃ b ∈ cubes, comparePosition service (c.serviceName b) = none := by
        obtain ⟨b, hb, none⟩ := h
        rcases List.mem_cons.1 hb with rfl | hb
        · rw [compared] at none
          cases none
        · exact ⟨b, hb, none⟩
      cases o <;> exact ih later

theorem rank_nat : rank "nat" = some 0 := by decide

theorem rank_ddosmitigator : rank "ddosmitigator" = some 1 := by decide

/-- Ranks that do not decrease: equal ones behind one that is not larger. -/
theorem ranked_of {l₁ l₂ : List String} {r₁ r₂ : ℕ} (le : r₁ ≤ r₂)
    (left : ∀ a ∈ l₁, rank (c.serviceName a) = some r₁)
    (right : ∀ a ∈ l₂, rank (c.serviceName a) = some r₂) : Ranked c (l₁ ++ l₂) := by
  have only : ∀ {l : List String} {r : ℕ}, (∀ a ∈ l, rank (c.serviceName a) = some r) →
      ∀ n ∈ l.filterMap fun a => rank (c.serviceName a), n = r := by
    intro l r h n hn
    obtain ⟨a, ha, rank⟩ := List.mem_filterMap.1 hn
    rw [h a ha] at rank
    exact (Option.some.inj rank).symm
  unfold Ranked
  rw [List.filterMap_append, List.pairwise_append]
  refine ⟨List.pairwise_of_forall_mem_list fun a ha b hb => ?_,
    List.pairwise_of_forall_mem_list fun a ha b hb => ?_, fun a ha b hb => ?_⟩
  · rw [only left a ha, only left b hb]
  · rw [only right a ha, only right b hb]
  · rw [only left a ha, only right b hb]
    exact le

theorem ranked_singleton (a : String) : Ranked c [a] := by
  unfold Ranked
  rw [List.filterMap_cons]
  split
  · exact List.Pairwise.nil
  · exact List.pairwise_singleton _ _

theorem ranked_cons
    (h : ∀ a ∈ cubes, comparePosition (c.serviceName cube) (c.serviceName a) = some .lt) :
    Ranked c (cube :: cubes) := by
  cases cubes with
  | nil => exact ranked_singleton cube
  | cons b cubes =>
    have ddos : ∀ a ∈ b :: cubes, c.serviceName cube = "nat" ∧ c.serviceName a = "ddosmitigator" := by
      intro a ha
      rcases comparePosition_eq_some_iff.1 (h a ha) with ⟨nat, ddos, -⟩ | ⟨-, -, gt⟩
      · exact ⟨nat, ddos⟩
      · cases gt
    refine @ranked_of _ [cube] _ _ _ (Nat.zero_le 1) (fun a ha => ?_) fun a ha => ?_
    · rw [List.mem_singleton.1 ha, (ddos b List.mem_cons_self).1, rank_nat]
    · rw [(ddos a ha).2, rank_ddosmitigator]

theorem ranked_concat
    (h : ∀ a ∈ cubes, comparePosition (c.serviceName cube) (c.serviceName a) = some .gt) :
    Ranked c (cubes ++ [cube]) := by
  cases cubes with
  | nil => exact ranked_singleton cube
  | cons b cubes =>
    have nats : ∀ a ∈ b :: cubes, c.serviceName cube = "ddosmitigator" ∧ c.serviceName a = "nat" := by
      intro a ha
      rcases comparePosition_eq_some_iff.1 (h a ha) with ⟨-, -, lt⟩ | ⟨ddos, nat, -⟩
      · cases lt
      · exact ⟨ddos, nat⟩
    refine ranked_of (Nat.zero_le 1) (fun a ha => ?_) fun a ha => ?_
    · rw [(nats a ha).2, rank_nat]
    · rw [List.mem_singleton.1 ha, (nats b List.mem_cons_self).1, rank_ddosmitigator]

/-! ### The place of each keyword -/

theorem placeCube_absent (position : String) (absent : other ≠ "" ∧ cubes = []) :
    placeCube c cube position other cubes = .throws "Cube doesn't exist" := if_pos absent

section

variable (there : ¬(other ≠ "" ∧ cubes = []))
include there

theorem placeCube_auto_of_not (none : ¬ HasPlace c cube cubes) :
    placeCube c cube "auto" other cubes = .throws "Impossible to determine auto position" := by
  have unknown : ∃ a ∈ cubes, comparePosition (c.serviceName cube) (c.serviceName a) = .none := by
    rw [hasPlace_iff] at none
    push Not at none
    exact none
  have front : (autoFront c (c.serviceName cube) cubes 0 0).2 = false := autoFront_unknown unknown
  have back : ∀ index, autoBack c (c.serviceName cube) cubes.reverse index = .none := by
    obtain ⟨a, ha, compared⟩ := unknown
    exact fun index => autoBack_unknown ⟨a, List.mem_reverse.2 ha, compared⟩
  unfold placeCube
  rw [if_neg there, if_pos rfl]
  cases reached : autoFront c (c.serviceName cube) cubes 0 0 with
  | mk index found =>
    rw [reached] at front
    obtain rfl : found = false := front
    simp only [back]

/-- Where there is a place the cube is put there, and what has a rank is in order. -/
theorem placeCube_auto (place : HasPlace c cube cubes) :
    ∃ i, placeCube c cube "auto" other cubes = .at i ∧
      Asked c cube other cubes (cubes.insertIdx i cube) .auto := by
  unfold placeCube
  rw [if_neg there, if_pos rfl]
  rcases one_side (hasPlace_iff.1 place) with lt | gt
  · rw [autoFront_lt lt]
    refine ⟨0, rfl, ⟨[], cubes, rfl, rfl⟩, ?_⟩
    exact ranked_cons lt
  · rw [autoFront_gt gt, Nat.zero_add]
    refine ⟨cubes.length, rfl, ?_⟩
    rw [List.insertIdx_length_self]
    exact ⟨⟨cubes, [], (List.append_nil _).symm, rfl⟩, ranked_concat gt⟩

theorem placeCube_first : placeCube c cube "first" other cubes = .at 0 := by
  unfold placeCube
  rw [if_neg there, if_neg (by decide), if_pos rfl]

theorem placeCube_last : placeCube c cube "last" other cubes = .at cubes.length := by
  unfold placeCube
  rw [if_neg there, if_neg (by decide), if_neg (by decide), if_pos rfl]

theorem placeCube_before : placeCube c cube "before" other cubes =
    if other = "" then .undefined else .at (cubes.idxOf other) := by
  unfold placeCube
  rw [if_neg there, if_neg (by decide), if_neg (by decide), if_neg (by decide), if_pos rfl]

theorem placeCube_after : placeCube c cube "after" other cubes =
    if other = "" ∨ other ∉ cubes then .undefined else .at (cubes.idxOf other + 1) := by
  unfold placeCube
  rw [if_neg there, if_neg (by decide), if_neg (by decide), if_neg (by decide),
    if_neg (by decide), if_pos rfl]

end

theorem split_idxOf (h : other ∈ cubes) : ∃ l₁ l₂, cubes = l₁ ++ other :: l₂ ∧
    cubes.idxOf other = l₁.length := by
  obtain ⟨l₁, l₂, rfl, new⟩ := List.eq_append_cons_of_mem h
  refine ⟨l₁, l₂, rfl, ?_⟩
  rw [List.idxOf_append, if_neg new, List.idxOf_cons_self, Nat.zero_add]

theorem insertIdx_split (l₁ l₂ : List String) (a : String) :
    (l₁ ++ l₂).insertIdx l₁.length a = l₁ ++ a :: l₂ := by
  induction l₁ with
  | nil => rfl
  | cons b l₁ ih => rw [List.cons_append, List.length_cons, List.insertIdx_succ_cons, ih,
      List.cons_append]

variable {k : Keyword} {relink : Option String}

/-- A cube that has been put somewhere has to be where it was asked for, and the chains have to be
linked without an exception. -/
theorem inserts_of_at {i : ℕ} (placed : placeCube c cube k.text other cubes = .at i) :
    InsertsWhereAsked c cube other cubes k relink ↔
      Asked c cube other cubes (cubes.insertIdx i cube) k ∧ relink = none := by
  unfold InsertsWhereAsked addCube
  rw [placed]
  cases relink with
  | none => exact ⟨fun asked => ⟨asked, rfl⟩, And.left⟩
  | some message =>
    refine iff_of_false (fun h => ?_) fun h => by cases h.2
    have longer := congrArg List.length h.1
    rw [List.length_insertIdx_of_le_length (placeCube_le placed)] at longer
    omega

theorem not_inserts_of_undefined (placed : placeCube c cube k.text other cubes = .undefined) :
    ¬ InsertsWhereAsked c cube other cubes k relink := by
  unfold InsertsWhereAsked addCube
  rw [placed]
  exact id

theorem inserts_of_throws {message : String}
    (placed : placeCube c cube k.text other cubes = .throws message) :
    InsertsWhereAsked c cube other cubes k relink ↔ Refusable c cube other cubes k := by
  unfold InsertsWhereAsked addCube
  rw [placed]
  exact and_iff_right rfl

/-- A cube is put where asked, or refused without a change, if and only if the other cube that
`before` and `after` need is attached (or nothing is), and what is not refused can be linked. -/
theorem insertsWhereAsked_iff (c : Programs) (cube other : String) (cubes : List String)
    (k : Keyword) (relink : Option String) : InsertsWhereAsked c cube other cubes k relink ↔
      Names other cubes k ∧ (relink = none ∨ Refused c cube other cubes k) := by
  by_cases absent : other ≠ "" ∧ cubes = []
  · rw [inserts_of_throws (placeCube_absent k.text absent)]
    refine iff_of_true (.inl ⟨absent.1, ?_⟩) ⟨fun _ => ⟨absent.1, .inl absent.2⟩, .inr (.inl absent)⟩
    rw [absent.2]
    exact List.not_mem_nil
  have unrefused : k ≠ .auto → ¬ Refused c cube other cubes k := by
    rintro other (refused | refused)
    · exact absent refused
    · exact other refused.1
  have named : k.beside = false → Names other cubes k := by
    intro alone beside
    rw [alone] at beside
    cases beside
  -- the other cube that there is, for the two keywords that need one
  have names_iff : k.beside = true → other ≠ "" → (Names other cubes k ↔ other ∈ cubes) := by
    intro beside nonempty
    have some : cubes ≠ [] := fun none => absent ⟨nonempty, none⟩
    exact ⟨fun names => (names beside).2.resolve_left some, fun mem _ => ⟨nonempty, .inr mem⟩⟩
  cases k with
  | auto =>
    rw [and_iff_right (named rfl)]
    by_cases place : HasPlace c cube cubes
    · obtain ⟨i, placed, asked⟩ := @placeCube_auto _ _ other _ absent place
      rw [inserts_of_at placed, and_iff_right asked, or_iff_left]
      rintro (refused | refused)
      · exact absent refused
      · exact refused.2 place
    · rw [inserts_of_throws (placeCube_auto_of_not absent place)]
      exact iff_of_true (.inr (.inr ⟨rfl, place⟩)) (.inr (.inr ⟨rfl, place⟩))
  | first =>
    rw [inserts_of_at (placeCube_first absent), and_iff_right (named rfl),
      or_iff_left (unrefused (by decide))]
    exact and_iff_right rfl
  | last =>
    rw [inserts_of_at (placeCube_last absent), and_iff_right (named rfl),
      or_iff_left (unrefused (by decide)), List.insertIdx_length_self]
    exact and_iff_right rfl
  | before =>
    rw [or_iff_left (unrefused (by decide))]
    have placed : placeCube c cube Keyword.before.text other cubes =
        if other = "" then .undefined else .at (cubes.idxOf other) := placeCube_before absent
    by_cases empty : other = ""
    · rw [if_pos empty] at placed
      exact iff_of_false (not_inserts_of_undefined placed) fun h => (h.1 rfl).1 empty
    rw [if_neg empty] at placed
    rw [inserts_of_at placed, names_iff rfl empty]
    refine and_congr_left' ⟨?_, fun mem => ?_⟩
    · rintro ⟨l₁, l₂, rfl, -⟩
      simp
    · obtain ⟨l₁, l₂, rfl, index⟩ := split_idxOf mem
      exact ⟨l₁, l₂, rfl, by rw [index, insertIdx_split]⟩
  | after =>
    rw [or_iff_left (unrefused (by decide))]
    have placed : placeCube c cube Keyword.after.text other cubes =
        if other = "" ∨ other ∉ cubes then .undefined else .at (cubes.idxOf other + 1) :=
      placeCube_after absent
    by_cases empty : other = ""
    · rw [if_pos (.inl empty)] at placed
      exact iff_of_false (not_inserts_of_undefined placed) fun h => (h.1 rfl).1 empty
    by_cases mem : other ∈ cubes
    · rw [if_neg (not_or.2 ⟨empty, not_not.2 mem⟩)] at placed
      rw [inserts_of_at placed, names_iff rfl empty]
      refine and_congr_left' (iff_of_true ?_ mem)
      obtain ⟨l₁, l₂, rfl, index⟩ := split_idxOf mem
      refine ⟨l₁, l₂, rfl, ?_⟩
      have split := insertIdx_split (l₁ ++ [other]) l₂ cube
      rw [List.length_append, List.length_singleton, List.append_assoc, List.append_assoc] at split
      rw [index]
      exact split
    · rw [if_pos (.inr mem)] at placed
      exact iff_of_false (not_inserts_of_undefined placed) fun h =>
        mem ((names_iff rfl empty).1 h.1)

/-- `before` a cube that is not attached puts the cube at the end of a list that is not empty. -/
theorem not_insertsWhereAsked_before : ¬ ∀ c cube other cubes k relink,
    InsertsWhereAsked c cube other cubes k relink := by
  intro all
  have asked := all ⟨fun _ _ => 0, fun _ => .tc, id, fun _ => "", fun _ => 0, fun _ _ => by decide⟩
    "nat0" "gone" ["ddos0"] .before none
  obtain ⟨l₁, l₂, split, -⟩ := asked
  have mem : "gone" ∈ ["ddos0"] := by
    rw [split]
    simp
  revert mem
  decide

end Placement

end Polycube.Polycubed
