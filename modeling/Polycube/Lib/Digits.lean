import Mathlib.Data.List.Basic
import Mathlib.Data.Nat.Basic
import Polycube.Lib.Bytes

/-!
# Decimal numbers in texts

A text that starts with a number in decimals and goes on with something else is read back.
-/

namespace Polycube.Lib

theorem append_digits_inj {l l' r r' : List Char} {c c' : Char}
    (hl : ∀ x ∈ l, x.isDigit = true) (hl' : ∀ x ∈ l', x.isDigit = true)
    (hc : c.isDigit = false) (hc' : c'.isDigit = false) (h : l ++ c :: r = l' ++ c' :: r') :
    l = l' ∧ c = c' ∧ r = r' := by
  induction l generalizing l' with
  | nil =>
    cases l' with
    | nil =>
      rw [List.nil_append, List.nil_append, List.cons.injEq] at h
      exact ⟨rfl, h⟩
    | cons x l' =>
      rw [List.nil_append, List.cons_append, List.cons.injEq] at h
      rw [h.1, hl' x List.mem_cons_self] at hc
      cases hc
  | cons x l ih =>
    cases l' with
    | nil =>
      rw [List.nil_append, List.cons_append, List.cons.injEq] at h
      rw [← h.1, hl x List.mem_cons_self] at hc'
      cases hc'
    | cons x' l' =>
      rw [List.cons_append, List.cons_append, List.cons.injEq] at h
      obtain ⟨rfl, h⟩ := h
      obtain ⟨rfl, rest⟩ := ih (fun y hy => hl y (List.mem_cons_of_mem x hy))
        (fun y hy => hl' y (List.mem_cons_of_mem x hy)) h
      exact ⟨rfl, rest⟩

theorem isDigit_of_mem_digits {n : ℕ} : ∀ c ∈ Nat.toDigits 10 n, c.isDigit = true :=
  fun _ h => Nat.isDigit_of_mem_toDigits (by decide) (by decide) h

theorem toDigits_injective : Function.Injective (Nat.toDigits 10) :=
  Function.LeftInverse.injective (g := fun l => Nat.ofDigitChars 10 l 0) fun _ =>
    Nat.ofDigitChars_ten_toDigits

theorem dotted_injective : Function.Injective dotted := by
  intro a b h
  have dot : ('.' : Char).isDigit = false := rfl
  unfold dotted at h
  simp only [List.append_assoc, List.singleton_append] at h
  obtain ⟨h₀, -, h⟩ := append_digits_inj isDigit_of_mem_digits isDigit_of_mem_digits dot dot h
  obtain ⟨h₁, -, h⟩ := append_digits_inj isDigit_of_mem_digits isDigit_of_mem_digits dot dot h
  obtain ⟨h₂, -, h₃⟩ := append_digits_inj isDigit_of_mem_digits isDigit_of_mem_digits dot dot h
  have h₀ := toDigits_injective h₀
  have h₁ := toDigits_injective h₁
  have h₂ := toDigits_injective h₂
  have h₃ := toDigits_injective h₃
  apply BitVec.eq_of_toNat_eq
  have ha := a.isLt
  have hb := b.isLt
  simp only [Nat.reducePow, Nat.div_one] at h₀ h₁ h₂ h₃ ha hb
  omega

end Polycube.Lib
