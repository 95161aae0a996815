import Mathlib.Data.BitVec

/-!
# Moving an address to another network

A mask splits an address in the bits of its network and those of its host.  `moveHost` keeps the
host and replaces the network, and moving back undoes it for the addresses of the old network.
-/

namespace Polycube.Lib

variable {n : ℕ} {mask net old x : BitVec n} {i : ℕ}

def moveHost (mask net x : BitVec n) : BitVec n := x &&& ~~~mask ||| net

theorem mask_of_net (h : net &&& ~~~mask = 0#n) (hi : i < n) (bit : net.getLsbD i = true) :
    mask.getLsbD i = true := by
  have := congrArg (fun y => y.getLsbD i) h
  simpa [BitVec.getLsbD_and, BitVec.getLsbD_not, hi, bit] using this

theorem mask_of_host (h : x &&& mask = 0#n) (bit : x.getLsbD i = true) :
    mask.getLsbD i = false := by
  have := congrArg (fun y => y.getLsbD i) h
  simpa [BitVec.getLsbD_and, bit] using this

theorem getLsbD_moveHost (hi : i < n) : (moveHost mask net x).getLsbD i =
    (x.getLsbD i && !mask.getLsbD i || net.getLsbD i) := by
  rw [moveHost, BitVec.getLsbD_or, BitVec.getLsbD_and, BitVec.getLsbD_not, decide_eq_true hi,
    Bool.true_and]

theorem moveHost_and_mask (h : net &&& ~~~mask = 0#n) : moveHost mask net x &&& mask = net := by
  apply BitVec.eq_of_getLsbD_eq
  intro i hi
  have inMask := mask_of_net h hi
  rw [BitVec.getLsbD_and, getLsbD_moveHost hi]
  revert inMask
  cases net.getLsbD i <;> cases mask.getLsbD i <;> cases x.getLsbD i <;> decide

theorem moveHost_and_not_mask (h : net &&& ~~~mask = 0#n) :
    moveHost mask net x &&& ~~~mask = x &&& ~~~mask := by
  apply BitVec.eq_of_getLsbD_eq
  intro i hi
  have inMask := mask_of_net h hi
  rw [BitVec.getLsbD_and, getLsbD_moveHost hi, BitVec.getLsbD_and, BitVec.getLsbD_not,
    decide_eq_true hi]
  revert inMask
  cases net.getLsbD i <;> cases mask.getLsbD i <;> cases x.getLsbD i <;> decide

theorem moveHost_self (h : x &&& mask = net) : moveHost mask net x = x := by
  apply BitVec.eq_of_getLsbD_eq
  intro i hi
  rw [getLsbD_moveHost hi, ← h, BitVec.getLsbD_and]
  cases mask.getLsbD i <;> cases x.getLsbD i <;> rfl

theorem moveHost_moveHost (h : net &&& ~~~mask = 0#n) :
    moveHost mask old (moveHost mask net x) = moveHost mask old x := by
  rw [moveHost, moveHost_and_not_mask h, moveHost]

theorem add_eq_moveHost (h : net &&& ~~~mask = 0#n) (hx : x &&& mask = 0#n) :
    net + x = moveHost mask net x := by
  have apart : net &&& x = 0#n := by
    apply BitVec.eq_of_getLsbD_eq
    intro i hi
    have inMask := mask_of_net h hi
    have noMask := mask_of_host (i := i) hx
    rw [BitVec.getLsbD_and, BitVec.getLsbD_zero]
    revert inMask noMask
    cases net.getLsbD i <;> cases mask.getLsbD i <;> cases x.getLsbD i <;> decide
  rw [BitVec.add_eq_or_of_and_eq_zero _ _ apart]
  apply BitVec.eq_of_getLsbD_eq
  intro i hi
  have noMask := mask_of_host (i := i) hx
  rw [BitVec.getLsbD_or, getLsbD_moveHost hi]
  revert noMask
  cases net.getLsbD i <;> cases mask.getLsbD i <;> cases x.getLsbD i <;> decide

end Polycube.Lib
