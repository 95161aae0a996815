import Mathlib

/-!
# Regular expressions that backtrack

A regular expression with greedy and lazy repetitions, groups and references back to them is matched
by trying its ways in order, each with what comes after it: the first way with which all the rest
succeeds is the match.  A replacement goes through a text from left to right and replaces every
match that it comes to.
-/

namespace Polycube.Lib

open Function

variable {α β : Type}

inductive Regex (α : Type)
  | empty
  | one (p : α → Bool)
  | seq (r s : Regex α)
  | alt (r s : Regex α)
  | star (greedy : Bool) (r : Regex α)
  | group (n : ℕ) (r : Regex α)
  /-- what a group has matched, once more -/
  | back (n : ℕ)

namespace Regex

abbrev Place (α : Type) := List α × (ℕ → List α)

def guarded (s : Place α) (k : Place α → Option β) (s' : Place α) : Option β :=
  if s'.1.length < s.1.length then k s' else none

theorem guarded_congr {s : Place α} {k k' : Place α → Option β}
    (same : ∀ s' : Place α, s'.1.length < s.1.length → k s' = k' s') :
    guarded s k = guarded s k' := by
  funext s'
  unfold guarded
  split_ifs with less
  · exact same s' less
  · rfl

theorem guarded_nil {s : Place α} (nil : s.1.length = 0) (k : Place α → Option β) :
    guarded s k = fun _ => none := by
  funext s'
  exact if_neg (by omega)

theorem guarded_tail (k : Place α → Option β) (g : ℕ → List α) (c : α) (t : List α) :
    guarded (c :: t, g) k (t, g) = k (t, g) := if_pos (Nat.lt_succ_self _)

/-- `fuel` is the number of repetitions that may still come. -/
def repeated (body : (Place α → Option β) → Place α → Option β) (greedy : Bool)
    (k : Place α → Option β) : ℕ → Place α → Option β
  | 0, s => k s
  | fuel + 1, s =>
    let again := body (guarded s (repeated body greedy k fuel)) s
    if greedy then again.or (k s) else (k s).or again

variable [DecidableEq α]

/-- The first way to match with which `k` succeeds. -/
def first : Regex α → (Place α → Option β) → Place α → Option β
  | empty, k, s => k s
  | one p, k, (c :: t, g) => if p c then k (t, g) else none
  | one _, _, ([], _) => none
  | seq r r', k, s => first r (first r' k) s
  | alt r r', k, s => (first r k s).or (first r' k s)
  | star greedy r, k, s => repeated (first r) greedy k s.1.length s
  | group n r, k, s => first r (fun s' =>
      k (s'.1, update s'.2 n (s.1.take (s.1.length - s'.1.length)))) s
  | back n, k, s => if s.2 n <+: s.1 then k (s.1.drop (s.2 n).length, s.2) else none

def match? (r : Regex α) (t : List α) : Option (Place α) := r.first some (t, fun _ => [])

def lit (cs : List α) : Regex α := cs.foldr (fun c r => seq (one (· = c)) r) empty

def plus (greedy : Bool) (r : Regex α) : Regex α := seq r (star greedy r)

/-- At most `n` times, as many as can be. -/
def upTo (r : Regex α) : ℕ → Regex α
  | 0 => empty
  | n + 1 => alt (seq r (upTo r n)) empty

/-! ### Ways -/

section Ways

variable (k : Place α → Option β) (g : ℕ → List α) (t : List α) (c : α)

@[simp] theorem first_seq (r r' : Regex α) (s : Place α) :
    (seq r r').first k s = r.first (r'.first k) s := rfl

@[simp] theorem first_alt (r r' : Regex α) (s : Place α) :
    (alt r r').first k s = (r.first k s).or (r'.first k s) := rfl

@[simp] theorem first_one (p : α → Bool) :
    (one p).first k (c :: t, g) = if p c then k (t, g) else none := rfl

theorem first_group (n : ℕ) (r : Regex α) (s : Place α) :
    (group n r).first k s = r.first (fun s' =>
      k (s'.1, update s'.2 n (s.1.take (s.1.length - s'.1.length)))) s := rfl

theorem first_none (r : Regex α) (s : Place α) :
    r.first (fun _ => (none : Option β)) s = none := by
  induction r generalizing s with
  | empty => rfl
  | one p =>
    obtain ⟨_ | ⟨c, t⟩, g⟩ := s
    · rfl
    · rw [first_one, ite_self]
  | seq r r' ih ih' =>
    rw [first_seq, funext ih', ih]
  | alt r r' ih ih' =>
    rw [first_alt, ih, ih']
    rfl
  | star greedy r ih =>
    show repeated (first r) greedy _ s.1.length s = none
    generalize s.1.length = fuel
    induction fuel generalizing s with
    | zero => rfl
    | succ fuel again =>
      have none_left : guarded s (repeated (first r) greedy (fun _ => (none : Option β)) fuel) =
          fun _ => none := by
        funext s'
        unfold guarded
        rw [again, ite_self]
      unfold repeated
      rw [none_left, ih]
      cases greedy <;> rfl
  | group n r ih => exact ih s
  | back n =>
    show (if _ then none else none) = none
    rw [ite_self]

theorem repeated_fuel (r : Regex α) (greedy : Bool) {fuel : ℕ} {s : Place α}
    (enough : s.1.length ≤ fuel) :
    repeated (first r) greedy k fuel s = repeated (first r) greedy k s.1.length s := by
  induction fuel using Nat.strongRecOn generalizing s with
  | ind fuel ih =>
    cases fuel with
    | zero => rw [Nat.le_zero.1 enough]
    | succ fuel =>
      cases length : s.1.length with
      | zero =>
        unfold repeated
        rw [guarded_nil length, first_none]
        cases greedy
        · exact Option.or_none
        · rfl
      | succ n =>
        have same : guarded s (repeated (first r) greedy k fuel) =
            guarded s (repeated (first r) greedy k n) := by
          refine guarded_congr fun s' less => ?_
          rw [ih fuel (by omega) (by omega), ih n (by omega) (by omega)]
        unfold repeated
        rw [same]

theorem first_star (greedy : Bool) (r : Regex α) (s : Place α) :
    (star greedy r).first k s =
      if greedy then (r.first (guarded s ((star greedy r).first k)) s).or (k s)
      else (k s).or (r.first (guarded s ((star greedy r).first k)) s) := by
  show repeated (first r) greedy k s.1.length s = _
  cases length : s.1.length with
  | zero =>
    rw [guarded_nil length, first_none]
    cases greedy
    · exact Option.or_none.symm
    · rfl
  | succ n =>
    have same : guarded s (repeated (first r) greedy k n) =
        guarded s ((star greedy r).first k) := by
      refine guarded_congr fun s' less => ?_
      exact repeated_fuel k r greedy (by omega)
    unfold repeated
    rw [same]

@[simp] theorem first_lit_append (cs : List α) :
    (lit cs).first k (cs ++ t, g) = k (t, g) := by
  induction cs with
  | nil => rfl
  | cons c cs ih =>
    show (if decide (c = c) = true then (lit cs).first k (cs ++ t, g) else none) = _
    rw [if_pos (decide_eq_true rfl), ih]

theorem first_lit_none {cs : List α} {t : List α} (other : ¬ cs <+: t) :
    (lit cs).first k (t, g) = none := by
  induction cs generalizing t with
  | nil => exact absurd List.nil_prefix other
  | cons c cs ih =>
    cases t with
    | nil => rfl
    | cons d t =>
      show (if decide (d = c) = true then (lit cs).first k (t, g) else none) = _
      split_ifs with same
      · refine ih fun tail => other ?_
        rw [of_decide_eq_true same]
        exact List.cons_prefix_cons.2 ⟨rfl, tail⟩
      · rfl

theorem first_star_one (greedy : Bool) {p : α → Bool} (h : p c = true) :
    (star greedy (one p)).first k (c :: t, g) =
      if greedy then ((star greedy (one p)).first k (t, g)).or (k (c :: t, g))
      else (k (c :: t, g)).or ((star greedy (one p)).first k (t, g)) := by
  rw [first_star, first_one, if_pos h, guarded_tail]

theorem first_greedy {p : α → Bool} {x : List α} (all : ∀ c ∈ x, p c = true) {b : β}
    (stop : ∀ c ∈ t.head?, p c = false) (rest : k (t, g) = some b) :
    (star true (one p)).first k (x ++ t, g) = some b := by
  induction x with
  | nil =>
    rw [List.nil_append, first_star]
    cases t with
    | nil => exact rest
    | cons c t =>
      have ends : ¬ p c = true := by
        rw [stop c rfl]
        decide
      rw [if_pos rfl, first_one, if_neg ends]
      exact rest
  | cons c x ih =>
    rw [List.cons_append, first_star_one k g _ c true (all c List.mem_cons_self), if_pos rfl,
      ih fun c mem => all c (List.mem_cons_of_mem _ mem)]
    rfl

theorem first_lazy {p : α → Bool} {x : List α} (all : ∀ c ∈ x, p c = true) {b : β}
    (early : ∀ y z, x = y ++ z → z ≠ [] → k (z ++ t, g) = none) (rest : k (t, g) = some b) :
    (star false (one p)).first k (x ++ t, g) = some b := by
  induction x with
  | nil =>
    rw [List.nil_append, first_star, rest]
    rfl
  | cons c x ih =>
    have now : k (c :: (x ++ t), g) = none := early [] (c :: x) rfl (List.cons_ne_nil c x)
    rw [List.cons_append, first_star_one k g _ c false (all c List.mem_cons_self)]
    refine (congrArg (Option.or · _) now).trans ?_
    refine ih (fun c mem => all c (List.mem_cons_of_mem _ mem)) fun y z split ne => ?_
    exact early (c :: y) z (by rw [split]; rfl) ne

end Ways

/-! ### What a match is made of -/

inductive Takes : Regex α → Place α → Place α → Prop
  | empty (s) : Takes empty s s
  | one {p c} (t g) (h : p c = true) : Takes (one p) (c :: t, g) (t, g)
  | seq {r r' s s' s''} (head : Takes r s s') (tail : Takes r' s' s'') : Takes (seq r r') s s''
  | left {r r' s s'} (h : Takes r s s') : Takes (alt r r') s s'
  | right {r r' s s'} (h : Takes r' s s') : Takes (alt r r') s s'
  | done (greedy r s) : Takes (star greedy r) s s
  | again {greedy r s s' s''} (head : Takes r s s') (tail : Takes (star greedy r) s' s'') :
    Takes (star greedy r) s s''
  | group {n r s s'} (h : Takes r s s') : Takes (group n r) s
      (s'.1, update s'.2 n (s.1.take (s.1.length - s'.1.length)))
  | back {n s} (h : s.2 n <+: s.1) : Takes (back n) s (s.1.drop (s.2 n).length, s.2)

theorem takes_of_first {r : Regex α} {k : Place α → Option β} {s : Place α} {b : β}
    (h : r.first k s = some b) : ∃ s', Takes r s s' ∧ k s' = some b := by
  induction r generalizing k s b with
  | empty => exact ⟨s, .empty s, h⟩
  | one p =>
    obtain ⟨_ | ⟨c, t⟩, g⟩ := s
    · cases h
    · rw [first_one] at h
      split_ifs at h with ok
      exact ⟨(t, g), .one t g ok, h⟩
  | seq r r' ih ih' =>
    obtain ⟨s', head, h⟩ := ih h
    obtain ⟨s'', tail, h⟩ := ih' h
    exact ⟨s'', .seq head tail, h⟩
  | alt r r' ih ih' =>
    rcases Option.or_eq_some_iff.1 h with h | ⟨-, h⟩
    · obtain ⟨s', h, rest⟩ := ih h
      exact ⟨s', .left h, rest⟩
    · obtain ⟨s', h, rest⟩ := ih' h
      exact ⟨s', .right h, rest⟩
  | star greedy r ih =>
    replace h : repeated (first r) greedy k s.1.length s = some b := h
    generalize s.1.length = fuel at h
    induction fuel generalizing s with
    | zero => exact ⟨s, .done greedy r s, h⟩
    | succ fuel more =>
      have split : (first r) (guarded s (repeated (first r) greedy k fuel)) s = some b ∨
          k s = some b := by
        unfold repeated at h
        cases greedy
        · exact (Option.or_eq_some_iff.1 h).elim .inr fun h => .inl h.2
        · exact (Option.or_eq_some_iff.1 h).elim .inl fun h => .inr h.2
      rcases split with h | h
      · obtain ⟨s', head, h⟩ := ih h
        unfold guarded at h
        split_ifs at h
        obtain ⟨s'', tail, h⟩ := more h
        exact ⟨s'', .again head tail, h⟩
      · exact ⟨s, .done greedy r s, h⟩
  | group n r ih =>
    obtain ⟨s', taken, h⟩ := ih h
    exact ⟨_, .group taken, h⟩
  | back n =>
    unfold first at h
    split_ifs at h with same
    exact ⟨_, .back same, h⟩

theorem first_eq_none {r : Regex α} {k : Place α → Option β} {s : Place α}
    (h : ∀ s', Takes r s s' → k s' = none) : r.first k s = none := by
  by_contra found
  obtain ⟨b, found⟩ := Option.ne_none_iff_exists'.1 found
  obtain ⟨s', taken, some⟩ := takes_of_first found
  rw [h s' taken] at some
  cases some

theorem takes_lit {cs : List α} {s s' : Place α} (h : Takes (lit cs) s s') :
    s.1 = cs ++ s'.1 := by
  induction cs generalizing s with
  | nil =>
    cases h
    rfl
  | cons c cs ih =>
    cases h with
    | seq head tail =>
      cases head with
      | one t g same =>
        rw [List.cons_append, ← ih tail, of_decide_eq_true same]

section Parts

omit [DecidableEq α]

variable {r r' : Regex α} {s s' : Place α} {greedy : Bool} {p : α → Bool}

theorem takes_seq (h : Takes (seq r r') s s') : ∃ s₁, Takes r s s₁ ∧ Takes r' s₁ s' := by
  cases h with
  | seq head tail => exact ⟨_, head, tail⟩

theorem takes_alt (h : Takes (alt r r') s s') : Takes r s s' ∨ Takes r' s s' := by
  cases h with
  | left h => exact .inl h
  | right h => exact .inr h

theorem takes_group {n : ℕ} (h : Takes (group n r) s s') :
    ∃ s₁, Takes r s s₁ ∧ s'.1 = s₁.1 ∧ s'.2 n = s.1.take (s.1.length - s₁.1.length) := by
  cases h with
  | group h => exact ⟨_, h, rfl, update_self ..⟩

theorem takes_back {n : ℕ} (h : Takes (back n) s s') : s.1 = s.2 n ++ s'.1 := by
  cases h with
  | back h => exact (List.prefix_iff_eq_append.1 h).symm

theorem takes_one (h : Takes (one p) s s') : ∃ c, p c = true ∧ s.1 = c :: s'.1 ∧ s'.2 = s.2 := by
  cases h with
  | one t g ok => exact ⟨_, ok, rfl, rfl⟩

theorem takes_star_one (h : Takes (star greedy (one p)) s s') :
    ∃ x, (∀ c ∈ x, p c = true) ∧ s.1 = x ++ s'.1 ∧ s'.2 = s.2 := by
  generalize e : star greedy (one p) = r at h
  induction h with
  | done greedy r s => exact ⟨[], fun c mem => absurd mem List.not_mem_nil, rfl, rfl⟩
  | again head tail _ ih =>
    cases e
    cases head with
    | one t g ok =>
      obtain ⟨x, all, rest, same⟩ := ih rfl
      refine ⟨_ :: x, fun c mem => ?_, congrArg _ rest, same⟩
      rcases List.mem_cons.1 mem with rfl | mem
      · exact ok
      · exact all c mem
  | _ => cases e

theorem takes_plus_one (h : Takes (plus greedy (one p)) s s') :
    ∃ x, (∀ c ∈ x, p c = true) ∧ x ≠ [] ∧ s.1 = x ++ s'.1 := by
  obtain ⟨s₁, head, tail⟩ := takes_seq h
  obtain ⟨c, ok, split, -⟩ := takes_one head
  obtain ⟨x, all, more, -⟩ := takes_star_one tail
  refine ⟨c :: x, fun d mem => ?_, List.cons_ne_nil c x, by rw [split, more]; rfl⟩
  rcases List.mem_cons.1 mem with rfl | mem
  · exact ok
  · exact all d mem

theorem takes_upTo {n : ℕ} (h : Takes (upTo (one p) n) s s') :
    ∃ x, (∀ c ∈ x, p c = true) ∧ x.length ≤ n ∧ s.1 = x ++ s'.1 := by
  induction n generalizing s with
  | zero =>
    cases h
    exact ⟨[], fun c mem => absurd mem List.not_mem_nil, Nat.le_refl 0, rfl⟩
  | succ n ih =>
    rcases takes_alt h with h | h
    · obtain ⟨_, head, tail⟩ := takes_seq h
      obtain ⟨c, ok, split, -⟩ := takes_one head
      obtain ⟨x, all, short, more⟩ := ih tail
      refine ⟨c :: x, fun d mem => ?_, Nat.succ_le_succ short, by rw [split, more]; rfl⟩
      rcases List.mem_cons.1 mem with rfl | mem
      · exact ok
      · exact all d mem
    · cases h
      exact ⟨[], fun c mem => absurd mem List.not_mem_nil, Nat.zero_le _, rfl⟩

end Parts

/-- `fuel` is the number of characters that may still come; a match of nothing is passed over. -/
def replaced (r : Regex α) (f : (ℕ → List α) → List α) : ℕ → List α → List α
  | fuel + 1, c :: t =>
    match r.match? (c :: t) with
    | some (t', g) =>
      if t'.length ≤ t.length then f g ++ replaced r f fuel t' else c :: replaced r f fuel t
    | none => c :: replaced r f fuel t
  | _, _ => []

/-- Every match is replaced by what `f` makes of its groups. -/
def replace (r : Regex α) (f : (ℕ → List α) → List α) (t : List α) : List α :=
  replaced r f t.length t

section Replace

variable {r : Regex α} {f : (ℕ → List α) → List α}

theorem replaced_fuel {fuel : ℕ} {t : List α} (enough : t.length ≤ fuel) :
    replaced r f fuel t = replace r f t := by
  induction fuel using Nat.strongRecOn generalizing t with
  | ind fuel ih =>
    cases t with
    | nil =>
      cases fuel <;> rfl
    | cons c t =>
      cases fuel with
      | zero => cases enough
      | succ fuel =>
        have enough : t.length ≤ fuel := Nat.le_of_succ_le_succ enough
        show replaced r f (fuel + 1) (c :: t) = replaced r f (t.length + 1) (c :: t)
        unfold replaced
        cases r.match? (c :: t) with
        | none =>
          dsimp only
          rw [ih fuel (by omega) enough]
          rfl
        | some s' =>
          dsimp only
          split_ifs with less
          · rw [ih fuel (by omega) (Nat.le_trans less enough), ih t.length (by omega) less]
          · rw [ih fuel (by omega) enough]
            rfl

theorem replace_skip {c : α} {t : List α} (h : r.match? (c :: t) = none) :
    replace r f (c :: t) = c :: replace r f t := by
  show replaced r f (t.length + 1) (c :: t) = _
  unfold replaced
  rw [h]
  rfl

theorem replace_match {c : α} {t t' : List α} {g : ℕ → List α}
    (h : r.match? (c :: t) = some (t', g)) (less : t'.length ≤ t.length) :
    replace r f (c :: t) = f g ++ replace r f t' := by
  show replaced r f (t.length + 1) (c :: t) = _
  unfold replaced
  rw [h]
  dsimp only
  rw [if_pos less, replaced_fuel less]

theorem replace_taken {x t : List α} {g : ℕ → List α} (h : r.match? (x ++ t) = some (t, g))
    (some : x ≠ []) : replace r f (x ++ t) = f g ++ replace r f t := by
  cases x with
  | nil => exact absurd rfl some
  | cons c x =>
    refine replace_match h ?_
    show t.length ≤ (x ++ t).length
    rw [List.length_append]
    omega

theorem replace_skips {x t : List α}
    (h : ∀ y z, x = y ++ z → z ≠ [] → r.match? (z ++ t) = none) :
    replace r f (x ++ t) = x ++ replace r f t := by
  induction x with
  | nil => rfl
  | cons c x ih =>
    have here : r.match? (c :: (x ++ t)) = none := h [] (c :: x) rfl (List.cons_ne_nil c x)
    rw [List.cons_append, replace_skip here,
      ih fun y z split ne => h (c :: y) z (by rw [split]; rfl) ne]
    rfl

end Replace

end Regex

end Polycube.Lib
