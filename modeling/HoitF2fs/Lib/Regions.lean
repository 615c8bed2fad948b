import Mathlib.Tactic
import Mathlib.Data.List.Chain
import Mathlib.Order.Interval.Set.Defs

/-!
# Regions laid out one behind the other

A region is a run of consecutive addresses.  Regions that follow each other without a gap are in
order and pairwise apart, also those that are not neighbours.

* `pairwise_before_of_abuts`, `pairwise_apart_of_abuts` — what a list without gaps gives.
* `le_iff_carry_le`, `eq_iff_carry_eq` — **what a comparison of low words says about the values**:
  as much as the carries allow.
-/

namespace Regions

structure Region where
  start : ℕ
  len : ℕ

namespace Region

def stop (r : Region) : ℕ := r.start + r.len

def addresses (r : Region) : Set ℕ := Set.Ico r.start r.stop

/-- `s` begins where `r` ends. -/
def Abuts (r s : Region) : Prop := r.stop = s.start

/-- `s` begins no earlier than `r` ends. -/
def Before (r s : Region) : Prop := r.stop ≤ s.start

/-- No address is in both. -/
def Apart (r s : Region) : Prop := ∀ x ∈ r.addresses, x ∉ s.addresses

variable {r s t : Region}

lemma start_le_stop (r : Region) : r.start ≤ r.stop := Nat.le_add_right _ _

lemma Abuts.before (h : r.Abuts s) : r.Before s := le_of_eq h

lemma Before.trans (hrs : r.Before s) (hst : s.Before t) : r.Before t :=
  calc r.stop ≤ s.start := hrs
    _ ≤ s.stop := s.start_le_stop
    _ ≤ t.start := hst

instance : Trans Before Before Before := ⟨Before.trans⟩

lemma Before.apart (h : r.Before s) : r.Apart s := by
  rintro x ⟨-, hr⟩ ⟨hs, -⟩
  exact absurd (lt_of_lt_of_le hr (le_trans h hs)) (lt_irrefl x)

end Region

variable {l : List Region}

theorem pairwise_before_of_abuts (h : l.IsChain Region.Abuts) : l.Pairwise Region.Before :=
  List.isChain_iff_pairwise.mp (h.imp fun _ _ => Region.Abuts.before)

theorem pairwise_apart_of_abuts (h : l.IsChain Region.Abuts) : l.Pairwise Region.Apart :=
  (pairwise_before_of_abuts h).imp Region.Before.apart

/-! ## Low words and carries -/

variable {w x y : ℕ}

/-- Two values with low words in this order are in this order iff their carries are. -/
lemma le_iff_carry_le (hlow : x % w ≤ y % w) : x ≤ y ↔ x / w ≤ y / w := by
  constructor
  · exact fun h => Nat.div_le_div_right h
  · intro h
    calc x = w * (x / w) + x % w := (Nat.div_add_mod x w).symm
      _ ≤ w * (y / w) + y % w := add_le_add (Nat.mul_le_mul_left w h) hlow
      _ = y := Nat.div_add_mod y w

/-- A value is its low word iff nothing is carried. -/
lemma eq_iff_carry_eq (hw : 0 < w) (hlow : x % w = y) : x = y ↔ x / w = 0 := by
  rw [Nat.div_eq_zero_iff]
  constructor
  · rintro rfl
    exact Or.inr (hlow ▸ Nat.mod_lt x hw)
  · rintro (hzero | hlt)
    · exact absurd hzero hw.ne'
    · rw [← hlow, Nat.mod_eq_of_lt hlt]

end Regions
