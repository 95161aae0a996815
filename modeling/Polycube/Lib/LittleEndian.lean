import Polycube.Lib.Bytes

/-!
# Numbers in memory

A little-endian host keeps a number of `n` bytes with its lowest byte first.  `leBytes n` are the
bytes of a number and `ofLe` is the number that bytes mean; `take?` cuts a number of bytes off a
buffer, and is the step of a reader.
-/

namespace Polycube.Lib

/-- The `n` bytes of a number, modulo `256 ^ n`, the lowest first. -/
def leBytes : ℕ → ℕ → Buffer
  | 0, _ => []
  | n + 1, v => BitVec.ofNat 8 v :: leBytes n (v / 256)

def ofLe : Buffer → ℕ
  | [] => 0
  | b :: bs => b.toNat + 256 * ofLe bs

@[simp] theorem length_leBytes (n v : ℕ) : (leBytes n v).length = n := by
  induction n generalizing v with
  | zero => rfl
  | succ n ih => exact congrArg (· + 1) (ih (v / 256))

theorem ofLe_leBytes (n v : ℕ) : ofLe (leBytes n v) = v % 256 ^ n := by
  induction n generalizing v with
  | zero => exact (Nat.mod_one v).symm
  | succ n ih =>
    unfold leBytes ofLe
    have pow : 256 ^ (n + 1) = 256 * 256 ^ n := Nat.pow_succ'
    rw [ih, BitVec.toNat_ofNat, pow]
    exact Nat.mod_mul.symm

theorem ofLe_leBytes_of_lt {n v : ℕ} (h : v < 256 ^ n) : ofLe (leBytes n v) = v :=
  (ofLe_leBytes n v).trans (Nat.mod_eq_of_lt h)

/-- The first `n` bytes of a buffer and the rest, if it has as many. -/
def take? (n : ℕ) (bs : Buffer) : Option (Buffer × Buffer) :=
  if bs.length < n then none else some (bs.take n, bs.drop n)

theorem take?_append {n : ℕ} {bs : Buffer} (h : bs.length = n) (rest : Buffer) :
    take? n (bs ++ rest) = some (bs, rest) := by
  subst h
  unfold take?
  rw [if_neg (by rw [List.length_append]; omega), List.take_left, List.drop_left]

/-- A number of `n` bytes at the front of a buffer. -/
def readLe (n : ℕ) (bs : Buffer) : Option (ℕ × Buffer) :=
  (take? n bs).map fun r => (ofLe r.1, r.2)

theorem readLe_append {n v : ℕ} (h : v < 256 ^ n) (rest : Buffer) :
    readLe n (leBytes n v ++ rest) = some (v, rest) := by
  unfold readLe
  rw [take?_append (length_leBytes n v), Option.map_some, ofLe_leBytes_of_lt h]

end Polycube.Lib
