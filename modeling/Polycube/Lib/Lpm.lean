import Mathlib.Data.BitVec
import Polycube.Lib.Table

/-!
# Prefix tables

A prefix table (`lpm_trie`) has entries for prefixes: a length and the first bits of an address.
A lookup takes the entry of the longest prefix of the address that has one.
-/

namespace Polycube.Lib

variable {w : ℕ} {α : Type*}

/-- The first `n` bits of an address. -/
def topBits (n : ℕ) (a : BitVec w) : BitVec w := a >>> (w - n)

/-- Addresses with the same first bits have the same first bits up to any earlier one. -/
theorem topBits_eq_of_le {m n : ℕ} {a b : BitVec w} (hnm : n ≤ m) (hm : m ≤ w)
    (h : topBits m a = topBits m b) : topBits n a = topBits n b := by
  unfold topBits at *
  have split : w - n = (w - m) + (m - n) := by omega
  rw [split, BitVec.shiftRight_add, BitVec.shiftRight_add, h]

theorem topBits_eq_iff {n : ℕ} {a b : BitVec w} :
    topBits n a = topBits n b ↔ ∀ j, w - n ≤ j → a.getLsbD j = b.getLsbD j := by
  unfold topBits
  constructor
  · intro h j hj
    have := congrArg (fun x => x.getLsbD (j - (w - n))) h
    simpa [BitVec.getLsbD_ushiftRight, Nat.add_sub_cancel' hj] using this
  · intro h
    apply BitVec.eq_of_getLsbD_eq
    intro i _
    rw [BitVec.getLsbD_ushiftRight, BitVec.getLsbD_ushiftRight]
    exact h _ (Nat.le_add_right _ _)

@[simp] theorem topBits_zero (a : BitVec w) : topBits 0 a = 0#w := by
  unfold topBits
  exact BitVec.ushiftRight_eq_zero (by omega)

abbrev Lpm (w : ℕ) (α : Type*) := Table (ℕ × BitVec w) α

namespace Lpm

def key (len : ℕ) (net : BitVec w) : ℕ × BitVec w := (len, topBits len net)

theorem key_eq_key_iff {m n : ℕ} {a b : BitVec w} :
    key m a = key n b ↔ m = n ∧ topBits m a = topBits n b :=
  Prod.mk.injEq _ _ _ _ ▸ Iff.rfl

def set (t : Lpm w α) (len : ℕ) (net : BitVec w) (v : α) : Lpm w α :=
  Function.update t (key len net) (some v)

/-- The longest prefix of at most `n` bits. -/
def lookupFrom (t : Lpm w α) (a : BitVec w) : ℕ → Option α
  | 0 => t (key 0 a)
  | n + 1 => (t (key (n + 1) a)).or (lookupFrom t a n)

def lookup (t : Lpm w α) (a : BitVec w) : Option α := lookupFrom t a w

theorem lookupFrom_eq_some_iff (t : Lpm w α) (a : BitVec w) (n : ℕ) (v : α) :
    t.lookupFrom a n = some v ↔
      ∃ k ≤ n, t (key k a) = some v ∧ ∀ m, k < m → m ≤ n → t (key m a) = none := by
  induction n with
  | zero =>
    constructor
    · exact fun h => ⟨0, le_rfl, h, fun m hm h0 => absurd h0 (by omega)⟩
    · rintro ⟨k, hk, h, -⟩
      obtain rfl : k = 0 := by omega
      exact h
  | succ n ih =>
    rw [lookupFrom, Option.or_eq_some_iff]
    constructor
    · rintro (h | ⟨hnone, h⟩)
      · exact ⟨n + 1, le_rfl, h, fun m hm hn => absurd hn (by omega)⟩
      · obtain ⟨k, hk, hv, longer⟩ := ih.1 h
        refine ⟨k, by omega, hv, fun m hm hn => ?_⟩
        rcases Nat.lt_or_ge n m with hlast | hle
        · obtain rfl : m = n + 1 := by omega
          exact hnone
        · exact longer m hm hle
    · rintro ⟨k, hk, hv, longer⟩
      rcases Nat.lt_or_ge n k with hlast | hle
      · obtain rfl : k = n + 1 := by omega
        exact Or.inl hv
      · refine Or.inr ⟨longer (n + 1) (by omega) le_rfl, ih.2 ⟨k, hle, hv, fun m hm hn => ?_⟩⟩
        exact longer m hm (by omega)

theorem lookup_eq_some_iff (t : Lpm w α) (a : BitVec w) (v : α) :
    t.lookup a = some v ↔
      ∃ k ≤ w, t (key k a) = some v ∧ ∀ m, k < m → m ≤ w → t (key m a) = none :=
  lookupFrom_eq_some_iff t a w v

/-- An entry of a prefix of the address is enough for a lookup to find one. -/
theorem lookup_isSome {t : Lpm w α} {a : BitVec w} {k : ℕ} (hk : k ≤ w) {v : α}
    (h : t (key k a) = some v) : (t.lookup a).isSome := by
  have from_ : ∀ n, k ≤ n → (lookupFrom t a n).isSome := by
    intro n hn
    induction n with
    | zero =>
      obtain rfl : k = 0 := by omega
      rw [lookupFrom, h]
      rfl
    | succ n ih =>
      rw [lookupFrom, Option.isSome_or, Bool.or_eq_true]
      rcases Nat.lt_or_ge n k with hlast | hle
      · obtain rfl : k = n + 1 := by omega
        exact Or.inl (by rw [h]; rfl)
      · exact Or.inr (ih hle)
  exact from_ w hk

theorem exists_of_lookup_eq_some {t : Lpm w α} {a : BitVec w} {v : α}
    (h : t.lookup a = some v) : ∃ k, t k = some v := by
  obtain ⟨k, -, hv, -⟩ := (lookup_eq_some_iff t a v).1 h
  exact ⟨key k a, hv⟩

end Lpm

end Polycube.Lib
