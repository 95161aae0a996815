import Polycube.Firewall.Classification

/-!
# The first bit that is set

`BitScan` multiplies the bits of a word up to the lowest one that is set by a de Bruijn number; the
six highest bits of the product are the key of that bit in `index64`.
-/

namespace Polycube.Firewall

open Lib

theorem exists_lowestBit {bits : BitVec 64} (h : bits ≠ 0) : ∃ k, LowestBit bits k := by
  have set : ∃ k, bits.getLsbD k = true := by
    by_contra none
    simp only [not_exists, Bool.not_eq_true] at none
    apply h
    apply BitVec.eq_of_getLsbD_eq
    intro i _
    simpa using none i
  refine ⟨Nat.find set, Nat.find_spec set, fun j hj => ?_⟩
  simpa using Nat.find_min set hj

theorem lowestBit_matchingResult {bits : BitVec 64} (h : bits ≠ 0) :
    LowestBit bits (matchingResult bits) := by
  obtain ⟨k, hk⟩ := exists_lowestBit h
  rwa [matchingResult_eq hk]

/-- The result is the number of the first bit that is set, of 63 in a word, or none is set. -/
def FirstBit (n : ℕ) (v : BitVector) : Exit → Prop
  | .nextHop v' => ∃ i < n, ∃ k, (∀ j < i, v.word j = 0) ∧ LowestBit (v.word i) k ∧
      v' = v.setWord 0 (BitVec.ofNat 64 (i * 63 + k))
  | .defaultAction => ∀ i < n, v.word i = 0
  | _ => False

/-- The table has the lowest bit of every word, and the search finds the first bit of the vector, or
ends with the default action exactly when there is none. -/
theorem bitScan_finds (n : ℕ) (v : BitVector) :
    FirstBit n v (rxBitScan n v) ∧
      ∀ bits : BitVec 64, bits = 0 ∨ LowestBit bits (matchingResult bits) := by
  refine ⟨?_, fun bits => or_iff_not_imp_left.2 lowestBit_matchingResult⟩
  unfold rxBitScan Words.scan
  cases first : (List.range n).find? fun i => v.word i != 0 with
  | none =>
    intro i hi
    simpa using List.find?_eq_none.1 first i (List.mem_range.2 hi)
  | some i =>
    obtain ⟨set, mem, zeros⟩ := List.find?_range_eq_some.1 first
    have set : v.word i ≠ 0 := by simpa using set
    refine ⟨i, List.mem_range.1 mem, matchingResult (v.word i), fun j hj => ?_,
      lowestBit_matchingResult set, ?_⟩
    · simpa using zeros j hj
    · rw [Nat.add_comm]
      rfl

end Polycube.Firewall
