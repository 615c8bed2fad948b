import Mathlib.Tactic

/-!
# Words made of bytes, and the first bit of a word

* `ofBytes shift str n` — a word made of the first `n` bytes of `str`, each of them shifted to its
  place.  The shifts say which end of the word the bytes begin at.
* `leadingZeros m word` — the number of zeros in front of the first bit of a word of `2 ^ m` bits,
  by bisection.  `leadingZeros_spec` says that **the first bit comes right behind them**.
-/

namespace WordBits

/-! ## Words made of bytes -/

section Bytes

variable {w : ℕ} {shift : ℕ → ℕ} {str : ℕ → BitVec 8}

/-- The bytes below `n`, each at its place. -/
def ofBytes (w : ℕ) (shift : ℕ → ℕ) (str : ℕ → BitVec 8) (n : ℕ) : BitVec w :=
  (List.range n).foldl (fun tmp idx => tmp ||| (str idx).setWidth w <<< shift idx) 0#w

lemma ofBytes_succ (n : ℕ) :
    ofBytes w shift str (n + 1) = ofBytes w shift str n ||| (str n).setWidth w <<< shift n := by
  simp [ofBytes, List.range_succ]

/-- A bit of the word is a bit of some byte. -/
lemma getLsbD_ofBytes {n j : ℕ} (hj : j < w) :
    (ofBytes w shift str n).getLsbD j = true ↔
      ∃ idx < n, shift idx ≤ j ∧ (str idx).getLsbD (j - shift idx) = true := by
  induction n with
  | zero => simp [ofBytes]
  | succ n ih =>
      simp only [ofBytes_succ, BitVec.getLsbD_or, Bool.or_eq_true, ih, BitVec.getLsbD_shiftLeft,
        BitVec.getLsbD_setWidth, hj, decide_true, Bool.true_and, Bool.and_eq_true,
        Bool.not_eq_true',
        decide_eq_false_iff_not, not_lt, decide_eq_true_eq]
      constructor
      · rintro (⟨idx, hidx, hbit⟩ | ⟨hle, -, hbit⟩)
        · exact ⟨idx, by omega, hbit⟩
        · exact ⟨n, by omega, hle, hbit⟩
      · rintro ⟨idx, hidx, hle, hbit⟩
        rcases Nat.lt_succ_iff_lt_or_eq.mp hidx with hlt | rfl
        · exact Or.inl ⟨idx, hlt, hle, hbit⟩
        · exact Or.inr ⟨hle, by omega, hbit⟩

/-- Where the bytes lie side by side, a bit of the word is a bit of one byte. -/
lemma getLsbD_ofBytes_of_apart {n idx k : ℕ} (hidx : idx < n) (hk : k < 8) (hw : shift idx + k < w)
    (hapart : ∀ i < n, i ≠ idx → shift i + 8 ≤ shift idx ∨ shift idx + 8 ≤ shift i) :
    (ofBytes w shift str n).getLsbD (shift idx + k) = (str idx).getLsbD k := by
  rw [Bool.eq_iff_iff, getLsbD_ofBytes hw]
  constructor
  · rintro ⟨i, hi, hle, hbit⟩
    have hlt : shift idx + k - shift i < 8 := BitVec.lt_of_getLsbD hbit
    obtain rfl : i = idx := by
      by_contra hne
      rcases hapart i hi hne with h | h <;> omega
    simpa using hbit
  · intro hbit
    exact ⟨idx, hidx, by omega, by simpa using hbit⟩

end Bytes

/-! ## The first bit -/

section Leading

variable {w : ℕ}

/-- One step of the bisection: if the upper one of two halves of `k` bits is empty, these are `k`
zeros more; otherwise it is the half to look in. -/
def halveStep (x : BitVec w × ℕ) (k : ℕ) : BitVec w × ℕ :=
  if x.1 &&& BitVec.ofNat w ((2 ^ k - 1) <<< k) = 0#w then (x.1, x.2 + k) else (x.1 >>> k, x.2)

/-- The halves of `2 ^ m` bits, their halves, and so on. -/
def halves : ℕ → List ℕ
  | 0 => []
  | m + 1 => 2 ^ m :: halves m

def leadingZeros (m : ℕ) (word : BitVec w) : ℕ := ((halves m).foldl halveStep (word, 0)).2

/-- The bisection has come to the `j` bits `x.1`, behind `x.2` zeros. -/
structure Bisected (word : BitVec w) (j : ℕ) (x : BitVec w × ℕ) : Prop where
  pos : 0 < x.1.toNat
  lt : x.1.toNat < 2 ^ j
  le : x.2 + j ≤ w
  lower : x.1.toNat * 2 ^ (w - (x.2 + j)) ≤ word.toNat
  upper : word.toNat < (x.1.toNat + 1) * 2 ^ (w - (x.2 + j))

/-- The upper half is empty iff the number is small. -/
lemma and_upper_eq_zero {x : BitVec w} {k : ℕ} (hx : x.toNat < 2 ^ (k + k)) (hw : k + k ≤ w) :
    x &&& BitVec.ofNat w ((2 ^ k - 1) <<< k) = 0#w ↔ x.toNat < 2 ^ k := by
  have hhigh : ∀ i, k + k ≤ i → x.toNat.testBit i = false := fun i hi =>
    Nat.testBit_lt_two_pow (lt_of_lt_of_le hx (Nat.pow_le_pow_right (by omega) hi))
  have hmask : ∀ i < w, (BitVec.ofNat w ((2 ^ k - 1) <<< k)).getLsbD i
      = (decide (k ≤ i) && decide (i < k + k)) := by
    intro i hi
    simp only [BitVec.getLsbD_ofNat, hi, decide_true, Bool.true_and, Nat.testBit_shiftLeft,
      Nat.testBit_two_pow_sub_one, ge_iff_le]
    rw [Bool.eq_iff_iff]
    simp only [Bool.and_eq_true, decide_eq_true_eq]
    omega
  constructor
  · intro h0
    refine Nat.lt_pow_two_of_testBit _ fun i hi => ?_
    by_cases hik : k + k ≤ i
    · exact hhigh i hik
    · have hbit := congrArg (fun y => y.getLsbD i) h0
      simp only [BitVec.getLsbD_and, BitVec.getLsbD_zero, hmask i (by omega)] at hbit
      simpa [hi, not_le.mp hik, BitVec.getLsbD] using hbit
  · intro hlt
    refine BitVec.eq_of_getLsbD_eq fun i hi => ?_
    simp only [BitVec.getLsbD_and, BitVec.getLsbD_zero, hmask i hi]
    by_cases hik : k ≤ i
    · have hbit : x.getLsbD i = false :=
        Nat.testBit_lt_two_pow (lt_of_lt_of_le hlt (Nat.pow_le_pow_right (by omega) hik))
      simp [hbit]
    · simp [hik]

lemma Bisected.step {word : BitVec w} {x : BitVec w × ℕ} {k : ℕ}
    (h : Bisected word (k + k) x) : Bisected word k (halveStep x k) := by
  have hw : k + k ≤ w := by
    have hle := h.le
    omega
  unfold halveStep
  by_cases hlow : x.1.toNat < 2 ^ k
  · rw [if_pos ((and_upper_eq_zero h.lt hw).mpr hlow)]
    have hassoc : x.2 + k + k = x.2 + (k + k) := by omega
    exact ⟨h.pos, hlow, by rw [hassoc]; exact h.le, by rw [hassoc]; exact h.lower,
      by rw [hassoc]; exact h.upper⟩
  · rw [if_neg fun h0 => hlow ((and_upper_eq_zero h.lt hw).mp h0)]
    have hle := h.le
    -- one place more for each bit that is shifted out
    have hshift : 2 ^ (w - (x.2 + k)) = 2 ^ k * 2 ^ (w - (x.2 + (k + k))) := by
      rw [← Nat.pow_add]
      congr 1
      omega
    have hdiv : (x.1 >>> k).toNat = x.1.toNat / 2 ^ k := by
      rw [BitVec.toNat_ushiftRight, Nat.shiftRight_eq_div_pow]
    have hpos : 0 < 2 ^ k := by positivity
    refine ⟨?_, ?_, by omega, ?_, ?_⟩
    · rw [hdiv]
      exact Nat.div_pos (not_lt.mp hlow) hpos
    · rw [hdiv]
      exact Nat.div_lt_of_lt_mul (by rw [← Nat.pow_add]; exact h.lt)
    · simp only [hdiv, hshift]
      calc x.1.toNat / 2 ^ k * (2 ^ k * 2 ^ (w - (x.2 + (k + k))))
          = x.1.toNat / 2 ^ k * 2 ^ k * 2 ^ (w - (x.2 + (k + k))) := by rw [Nat.mul_assoc]
        _ ≤ x.1.toNat * 2 ^ (w - (x.2 + (k + k))) :=
          Nat.mul_le_mul_right _ (Nat.div_mul_le_self _ _)
        _ ≤ word.toNat := h.lower
    · simp only [hdiv, hshift]
      calc word.toNat < (x.1.toNat + 1) * 2 ^ (w - (x.2 + (k + k))) := h.upper
        _ ≤ (x.1.toNat / 2 ^ k + 1) * 2 ^ k * 2 ^ (w - (x.2 + (k + k))) := by
          refine Nat.mul_le_mul_right _ ?_
          exact Nat.lt_mul_of_div_lt (Nat.lt_succ_self _) hpos
        _ = (x.1.toNat / 2 ^ k + 1) * (2 ^ k * 2 ^ (w - (x.2 + (k + k)))) := by
          rw [Nat.mul_assoc]

lemma Bisected.halves {word : BitVec w} (m : ℕ) {x : BitVec w × ℕ}
    (h : Bisected word (2 ^ m) x) : Bisected word 1 ((halves m).foldl halveStep x) := by
  induction m generalizing x with
  | zero => exact h
  | succ m ih =>
      have h' : Bisected word (2 ^ m + 2 ^ m) x := by
        rwa [← Nat.two_mul, ← Nat.pow_succ']
      exact ih h'.step

/-- **The first bit of a word comes right behind its leading zeros.** -/
theorem leadingZeros_spec {m : ℕ} {word : BitVec (2 ^ m)} (hne : word ≠ 0#(2 ^ m)) :
    leadingZeros m word < 2 ^ m ∧ word.getMsbD (leadingZeros m word) = true ∧
      ∀ i < leadingZeros m word, word.getMsbD i = false := by
  have hpos : 0 < word.toNat := by
    refine Nat.pos_of_ne_zero fun h0 => hne ?_
    exact BitVec.eq_of_toNat_eq h0
  have hstart : Bisected word (2 ^ m) (word, 0) := by
    refine ⟨hpos, word.isLt, by simp, by simp, by simp⟩
  have h := hstart.halves m
  unfold leadingZeros
  generalize (WordBits.halves m).foldl halveStep (word, 0) = x at h
  -- one bit is left, and it is set
  have hone : x.1.toNat = 1 := by
    have hp := h.pos
    have hl := h.lt
    omega
  have hle := h.le
  have hlower := h.lower
  have hupper := h.upper
  rw [hone] at hlower hupper
  have hbits : 2 ^ m - 1 - x.2 = 2 ^ m - (x.2 + 1) := by omega
  have hdouble : (1 + 1) * 2 ^ (2 ^ m - (x.2 + 1)) = 2 ^ (2 ^ m - (x.2 + 1) + 1) := by
    rw [Nat.pow_succ']
  refine ⟨by omega, ?_, fun i hi => ?_⟩
  · rw [BitVec.getMsbD, hbits]
    have hbit : word.toNat.testBit (2 ^ m - (x.2 + 1)) = true :=
      Nat.testBit_of_two_pow_le_and_two_pow_add_one_gt (by omega) (by omega)
    simp [BitVec.getLsbD, hbit]
    omega
  · have hzero : word.toNat.testBit (2 ^ m - 1 - i) = false := by
      refine Nat.testBit_lt_two_pow (lt_of_lt_of_le hupper ?_)
      rw [hdouble]
      exact Nat.pow_le_pow_right (by omega) (by omega)
    simp [BitVec.getMsbD, BitVec.getLsbD, hzero]

end Leading

end WordBits
