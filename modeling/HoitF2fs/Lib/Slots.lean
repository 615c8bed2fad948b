import Mathlib.Tactic

/-!
# Emptying slots

A loop goes through some slots of an array and empties each, and something is accounted for what was
in it.  What a slot has is measured in a commutative monoid, in which an empty slot is nothing.

* `total` — what the first slots of an array have together.
* `emptied` — the array with a range of its slots empty.
* `Ledger` — an account of what happens between two states; accounts of two steps add up.
* `foldl_emptied` — **what such a loop accounts for is what the slots have lost**.
* `sum_range_mul` — slots that are numbered by two digits.
-/

namespace Slots

variable {β M σ : Type*} [AddCommMonoid M] {f : β → M} {n ofs k i : ℕ} {c : ℕ → β} {e : β}

def total (f : β → M) (n : ℕ) (c : ℕ → β) : M := ∑ i ∈ Finset.range n, f (c i)

/-- `k` slots from `ofs` on are empty. -/
def emptied (e : β) (ofs k : ℕ) (c : ℕ → β) : ℕ → β :=
  fun i => if ofs ≤ i ∧ i < ofs + k then e else c i

lemma emptied_zero : emptied e ofs 0 c = c := by
  funext i
  unfold emptied
  rw [if_neg (by omega)]

/-- Emptying the first slot, and then the others. -/
lemma emptied_succ : emptied e (ofs + 1) k (Function.update c ofs e) = emptied e ofs (k + 1) c := by
  funext i
  unfold emptied
  by_cases hi : i = ofs
  · rw [hi, if_neg (by omega), if_pos (by omega), Function.update_self]
  · rw [Function.update_of_ne hi]
    have hiff : (ofs + 1 ≤ i ∧ i < ofs + 1 + k) ↔ (ofs ≤ i ∧ i < ofs + (k + 1)) := by omega
    simp only [hiff]

/-- One slot gets something else. -/
lemma total_update (hi : i < n) (x : β) :
    total f n c + f x = total f n (Function.update c i x) + f (c i) := by
  have hmem : i ∈ Finset.range n := Finset.mem_range.mpr hi
  have hrest : ∑ j ∈ (Finset.range n).erase i, f (Function.update c i x j)
      = ∑ j ∈ (Finset.range n).erase i, f (c j) :=
    Finset.sum_congr rfl fun j hj => by rw [Function.update_of_ne (Finset.ne_of_mem_erase hj)]
  unfold total
  rw [← Finset.add_sum_erase _ _ hmem, ← Finset.add_sum_erase _ _ hmem, hrest,
    Function.update_self]
  abel

lemma total_empty (he : f e = 0) (h : ∀ i < n, c i = e) : total f n c = 0 :=
  Finset.sum_eq_zero fun i hi => by rw [h i (Finset.mem_range.mp hi), he]

/-- `R m s s'`: from `s` to `s'` there is `m` on the account. -/
structure Ledger (R : M → σ → σ → Prop) : Prop where
  zero : ∀ s, R 0 s s
  add : ∀ {a b s s' s''}, R a s s' → R b s' s'' → R (a + b) s s''

/-- **A loop that empties slots.** -/
theorem foldl_emptied {R : M → σ → σ → Prop} {body : (ℕ → β) × σ → ℕ → (ℕ → β) × σ}
    (hR : Ledger R) (he : f e = 0)
    (hbody : ∀ x i, (body x i).1 = Function.update x.1 i e ∧ R (f (x.1 i)) x.2 (body x i).2)
    (hn : ofs + k ≤ n) (s : σ) :
    ((List.range' ofs k).foldl body (c, s)).1 = emptied e ofs k c ∧
      ∃ m, R m s ((List.range' ofs k).foldl body (c, s)).2 ∧
        total f n c = m + total f n (emptied e ofs k c) := by
  induction k generalizing ofs c s with
  | zero =>
      rw [emptied_zero]
      exact ⟨rfl, 0, hR.zero s, (zero_add _).symm⟩
  | succ k ih =>
      obtain ⟨hc, hs⟩ := hbody (c, s) ofs
      obtain ⟨h₁, m, hm, htotal⟩ := ih (c := Function.update c ofs e)
        (show ofs + 1 + k ≤ n by omega) (body (c, s) ofs).2
      have hstart : body (c, s) ofs = (Function.update c ofs e, (body (c, s) ofs).2) :=
        Prod.ext hc rfl
      rw [emptied_succ] at h₁ htotal
      rw [List.range'_succ, List.foldl_cons, hstart]
      refine ⟨h₁, f (c ofs) + m, hR.add hs hm, ?_⟩
      have hone := total_update (f := f) (c := c) (show ofs < n by omega) e
      rw [he, add_zero, htotal] at hone
      rw [hone]
      abel

/-- The number of a slot is that of its row, and its place in the row. -/
lemma sum_range_mul (g : ℕ → M) (n k : ℕ) :
    ∑ i ∈ Finset.range (n * k), g i
      = ∑ q ∈ Finset.range n, ∑ r ∈ Finset.range k, g (k * q + r) := by
  induction n with
  | zero => rw [Nat.zero_mul, Finset.sum_range_zero, Finset.sum_range_zero]
  | succ n ih =>
      rw [Nat.succ_mul, Finset.sum_range_add, ih, Finset.sum_range_succ, Nat.mul_comm k n]

end Slots
