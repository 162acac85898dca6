import Mathlib.Algebra.Order.Floor.Div
import Mathlib.Tactic.Linarith
import Mathlib.Tactic.Ring

/-!
# Constant products, in whole units

A pool holds `x` of one token and `y` of another. Who brings `i` of the first gets what leaves the
product of the two at least what it was, rounded down; who wants `o` of the second brings what does
so, rounded up.

## What is proved

* `amountIn_le_iff` — the two are adjoint: what must be brought for `o` is the least amount that gets
  `o` out.
* `le_amountOut_iff_kept` — what is got out is the most that keeps the product.
* `le_of_kept` — where the product is kept, the pool has not lost in both tokens.

Everything else about runs of trades follows from these, since a kept product says nothing about
how many trades there were.
-/

namespace PumpSwapBot.Library.ConstantProduct

variable {i o x y x' y' : ℕ}

/-- What `i` brought to `x` gets out of `y`. -/
def amountOut (i x y : ℕ) : ℕ := y * i / (x + i)

/-- What must be brought to `x` to get `o` out of `y`. -/
def amountIn (o x y : ℕ) : ℕ := (x * o) ⌈/⌉ (y - o)

theorem le_amountOut_iff (hx : 0 < x) : o ≤ amountOut i x y ↔ o * (x + i) ≤ y * i :=
  Nat.le_div_iff_mul_le (Nat.add_pos_left hx i)

theorem amountOut_le (i x y : ℕ) : amountOut i x y ≤ y := by
  refine Nat.div_le_of_le_mul ?_
  rw [Nat.mul_comm]
  exact Nat.mul_le_mul_right y (Nat.le_add_left i x)

/-- **The two are adjoint.** -/
theorem amountIn_le_iff (hx : 0 < x) (ho : o < y) : amountIn o x y ≤ i ↔ o ≤ amountOut i x y := by
  obtain ⟨r, rfl⟩ : ∃ r, y = o + r := ⟨y - o, by omega⟩
  rw [amountIn, ceilDiv_le_iff_le_mul (by omega), le_amountOut_iff hx, Nat.add_sub_cancel_left]
  constructor <;> intro h <;> nlinarith

theorem le_amountOut_amountIn (hx : 0 < x) (ho : o < y) : o ≤ amountOut (amountIn o x y) x y :=
  (amountIn_le_iff hx ho).mp le_rfl

/-- **What is got out is the most that keeps the product.** -/
theorem le_amountOut_iff_kept (hx : 0 < x) (ho : o ≤ y) : o ≤ amountOut i x y ↔ x * y ≤ (x + i) * (y - o) := by
  obtain ⟨r, rfl⟩ : ∃ r, y = o + r := ⟨y - o, by omega⟩
  rw [le_amountOut_iff hx, Nat.add_sub_cancel_left]
  constructor <;> intro h <;> nlinarith

theorem amountOut_kept (hx : 0 < x) : x * y ≤ (x + i) * (y - amountOut i x y) :=
  (le_amountOut_iff_kept hx (amountOut_le i x y)).mp le_rfl

/-- **Where the product is kept, the pool has not lost in both tokens.** -/
theorem le_of_kept (hx : 0 < x) (h : x * y ≤ x' * y') (hle : x' ≤ x) : y ≤ y' := by
  refine Nat.le_of_mul_le_mul_left ?_ hx
  exact h.trans (Nat.mul_le_mul_right y' hle)

end PumpSwapBot.Library.ConstantProduct
