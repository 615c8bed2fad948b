import Mathlib.Tactic

/-!
# Arithmetic on `unsigned int`

Sums, differences and products that wrap around at `2 ^ 32`, on natural numbers.  Each comes with
the condition under which it is the exact one.
-/

namespace Word32

def add32 (a b : ℕ) : ℕ := (a + b) % 2 ^ 32

def sub32 (a b : ℕ) : ℕ := (a + 2 ^ 32 - b) % 2 ^ 32

def mul32 (a b : ℕ) : ℕ := a * b % 2 ^ 32

variable {a b v : ℕ}

lemma add32_lt (a b : ℕ) : add32 a b < 2 ^ 32 := Nat.mod_lt _ (by decide)

lemma add32_eq (h : a + b < 2 ^ 32) : add32 a b = a + b := Nat.mod_eq_of_lt h

lemma mul32_eq (h : a * b < 2 ^ 32) : mul32 a b = a * b := Nat.mod_eq_of_lt h

/-- A difference is exact when nothing is borrowed. -/
lemma sub32_eq (h : a = v + b) (hlt : a < 2 ^ 32) : sub32 a b = v := by
  unfold sub32
  omega

lemma sub32_of_le (h : b ≤ a) (hlt : a < 2 ^ 32) : sub32 a b = a - b :=
  sub32_eq (Nat.sub_add_cancel h).symm hlt

end Word32
