import Mathlib.Tactic

/-!
# Copying the marked blocks of an area, run by run

A loop copies from `src` to `dst` the blocks that a bitmap marks.  It looks for the next marked
block, extends the run while the following blocks are marked, reads the run into a buffer, writes
the buffer out, and goes on after the run.  The block that ended the run is not tested again.

The loop is cut into steps of one bit test, one block read or one block write, because the
bitmap and both areas may be changed by others between any two of them.  One transfer takes at
most `cap` blocks: **the rest of a longer run is not copied**.

* `Copy` — position and buffer.  `Copy.Passed c b` — the loop will not look at block `b` again.
* `Copy.staged c dst b` — the content that block `b` of the destination has, or will have once
  the buffer is written.
* `Copied R src dst c` — every block that is passed and of interest (`R`) is staged with the
  content of the source.

`copied_step` is the step lemma: the loop itself keeps `Copied`, as long as it tests every block
of interest as marked and no run exceeds `cap`.  What others change is up to the user.
-/

namespace RunCopy

variable {α : Type*}

/-- Where the loop stands: looking for a run, extending it, reading or writing its `k`-th block. -/
inductive CopyPc where
  | seek (pos : ℕ)
  | extend (st pos : ℕ)
  | read (st pos k : ℕ)
  | write (st pos k : ℕ)
  | done
deriving DecidableEq

/-- The loop: its position and the buffer, indexed from the start of the run. -/
structure Copy (α : Type*) where
  pc : CopyPc
  buf : ℕ → α

/-- One step of the loop over an area of `size` blocks; the second component is the destination
after the step. -/
def copyStep (size cap : ℕ) (marked : ℕ → Bool) (src dst : ℕ → α) (c : Copy α) :
    Copy α × (ℕ → α) :=
  match c.pc with
  | .seek pos =>
      if pos < size then
        if marked pos then ({ c with pc := .extend pos (pos + 1) }, dst)
        else ({ c with pc := .seek (pos + 1) }, dst)
      else ({ c with pc := .done }, dst)
  | .extend st pos =>
      if pos < size ∧ marked pos = true then ({ c with pc := .extend st (pos + 1) }, dst)
      else ({ c with pc := .read st pos 0 }, dst)
  | .read st pos k =>
      if k < min (pos - st) cap then
        ({ pc := .read st pos (k + 1), buf := Function.update c.buf k (src (st + k)) }, dst)
      else ({ c with pc := .write st pos 0 }, dst)
  | .write st pos k =>
      if k < min (pos - st) cap then
        ({ c with pc := .write st pos (k + 1) }, Function.update dst (st + k) (c.buf k))
      else ({ c with pc := .seek (pos + 1) }, dst)
  | .done => (c, dst)

/-- The blocks the loop will not look at again.  While a run is transferred, the unmarked block
that ended it is one of them. -/
def CopyPc.Passed : CopyPc → ℕ → Prop
  | .seek pos, b => b < pos
  | .extend st _, b => b < st
  | .read st pos k, b => b < st + k ∨ b = pos
  | .write _ pos _, b => b ≤ pos
  | .done, _ => True

instance (pc : CopyPc) (b : ℕ) : Decidable (pc.Passed b) :=
  match pc with
  | .seek pos => inferInstanceAs (Decidable (b < pos))
  | .extend st _ => inferInstanceAs (Decidable (b < st))
  | .read st pos k => inferInstanceAs (Decidable (b < st + k ∨ b = pos))
  | .write _ pos _ => inferInstanceAs (Decidable (b ≤ pos))
  | .done => inferInstanceAs (Decidable True)

/-- What block `b` of the destination will hold when the buffer has been written. -/
def Copy.staged (c : Copy α) (dst : ℕ → α) (b : ℕ) : α :=
  match c.pc with
  | .read st _ k => if st ≤ b ∧ b < st + k then c.buf (b - st) else dst b
  | .write st pos k => if st + k ≤ b ∧ b < pos then c.buf (b - st) else dst b
  | _ => dst b

/-- The positions make sense, and the run that is being transferred fits. -/
def CopyPc.Wf (cap : ℕ) : CopyPc → Prop
  | .extend st pos => st < pos
  | .read st pos k => st < pos ∧ k ≤ pos - st ∧ pos - st ≤ cap
  | .write st pos k => st < pos ∧ k ≤ pos - st ∧ pos - st ≤ cap
  | _ => True

/-- If the next step closes a run, the run is not longer than one transfer. -/
def CopyPc.RunFits (size cap : ℕ) (marked : ℕ → Bool) : CopyPc → Prop
  | .extend st pos => pos < size ∧ marked pos = true ∨ pos - st ≤ cap
  | _ => True

instance (size cap : ℕ) (marked : ℕ → Bool) (pc : CopyPc) :
    Decidable (pc.RunFits size cap marked) :=
  match pc with
  | .seek _ => inferInstanceAs (Decidable True)
  | .extend st pos =>
      inferInstanceAs (Decidable (pos < size ∧ marked pos = true ∨ pos - st ≤ cap))
  | .read _ _ _ => inferInstanceAs (Decidable True)
  | .write _ _ _ => inferInstanceAs (Decidable True)
  | .done => inferInstanceAs (Decidable True)

/-- **The copy invariant**: what is passed and of interest is staged as it is in the source. -/
def Copied (size : ℕ) (R : ℕ → Prop) (src dst : ℕ → α) (c : Copy α) : Prop :=
  ∀ b < size, c.pc.Passed b → R b → c.staged dst b = src b

/-- **The loop keeps its invariant**, if every block of interest is marked. -/
theorem copied_step {size cap : ℕ} {marked : ℕ → Bool} {R : ℕ → Prop} {src dst : ℕ → α}
    {c : Copy α} (hR : ∀ b < size, R b → marked b = true) (hwf : c.pc.Wf cap)
    (hfit : c.pc.RunFits size cap marked) (h : Copied size R src dst c) :
    (copyStep size cap marked src dst c).1.pc.Wf cap ∧
      Copied size R src (copyStep size cap marked src dst c).2
        (copyStep size cap marked src dst c).1 := by
  obtain ⟨pc, buf⟩ := c
  cases pc with
  | seek pos =>
      simp only [copyStep]
      split
      · split
        · exact ⟨Nat.lt_succ_self pos, h⟩
        · rename_i hunmarked
          refine ⟨trivial, ?_⟩
          intro b hb hp hr
          rcases Nat.lt_succ_iff_lt_or_eq.mp hp with hlt | rfl
          · exact h b hb hlt hr
          · exact absurd (hR b hb hr) hunmarked
      · rename_i hend
        refine ⟨trivial, ?_⟩
        intro b hb _ hr
        exact h b hb (show b < pos by omega) hr
  | extend st pos =>
      have hlt : st < pos := hwf
      simp only [copyStep]
      split
      · exact ⟨show st < pos + 1 by omega, h⟩
      · rename_i hclose
        have hlen : pos - st ≤ cap := by
          rcases hfit with hopen | hlen
          · exact absurd hopen hclose
          · exact hlen
        refine ⟨⟨hlt, Nat.zero_le _, hlen⟩, ?_⟩
        intro b hb hp hr
        have hdst : Copy.staged ⟨CopyPc.read st pos 0, buf⟩ dst b = dst b := by
          simp only [Copy.staged]
          rw [if_neg (by omega)]
        rw [hdst]
        rcases hp with hlt | rfl
        · exact h b hb (show b < st by omega) hr
        · exact absurd ⟨hb, hR b hb hr⟩ hclose
  | read st pos k =>
      obtain ⟨hlt, hk, hlen⟩ := hwf
      have hmin : min (pos - st) cap = pos - st := Nat.min_eq_left hlen
      simp only [copyStep, hmin]
      split
      · rename_i hmore
        refine ⟨⟨hlt, by omega, hlen⟩, ?_⟩
        intro b hb hp hr
        rcases Nat.lt_trichotomy b (st + k) with hbk | rfl | hbk
        · have hold := h b hb (Or.inl hbk) hr
          simp only [Copy.staged] at hold ⊢
          rw [← hold]
          by_cases hst : st ≤ b
          · rw [if_pos ⟨hst, by omega⟩, if_pos ⟨hst, hbk⟩, Function.update_of_ne (by omega)]
          · rw [if_neg (by omega), if_neg (by omega)]
        · simp only [Copy.staged]
          rw [if_pos ⟨by omega, by omega⟩, Nat.add_sub_cancel_left, Function.update_self]
        · have hbpos : b = pos := by
            rcases hp with hp | hp
            · omega
            · exact hp
          have hold := h b hb (Or.inr hbpos) hr
          simp only [Copy.staged] at hold ⊢
          rw [if_neg (by omega)] at hold ⊢
          exact hold
      · rename_i hdone
        have hke : k = pos - st := by omega
        refine ⟨⟨hlt, Nat.zero_le _, hlen⟩, ?_⟩
        intro b hb hp hr
        have hold := h b hb (by rcases Nat.lt_or_eq_of_le hp with hp | hp
                                · exact Or.inl (by omega)
                                · exact Or.inr hp) hr
        simp only [Copy.staged] at hold ⊢
        rw [← hold]
        by_cases hin : st ≤ b ∧ b < pos
        · rw [if_pos ⟨by omega, by omega⟩, if_pos ⟨by omega, by omega⟩]
        · rw [if_neg (by omega), if_neg (by omega)]
  | write st pos k =>
      obtain ⟨hlt, hk, hlen⟩ := hwf
      have hmin : min (pos - st) cap = pos - st := Nat.min_eq_left hlen
      simp only [copyStep, hmin]
      split
      · rename_i hmore
        refine ⟨⟨hlt, by omega, hlen⟩, ?_⟩
        intro b hb hp hr
        have hold := h b hb hp hr
        simp only [Copy.staged] at hold ⊢
        rw [← hold]
        rcases Nat.lt_trichotomy b (st + k) with hbk | rfl | hbk
        · rw [if_neg (by omega), if_neg (by omega), Function.update_of_ne (by omega)]
        · rw [if_neg (by omega), if_pos ⟨by omega, by omega⟩, Function.update_self,
            Nat.add_sub_cancel_left]
        · by_cases hin : b < pos
          · rw [if_pos ⟨by omega, hin⟩, if_pos ⟨by omega, hin⟩]
          · rw [if_neg (by omega), if_neg (by omega), Function.update_of_ne (by omega)]
      · rename_i hdone
        refine ⟨trivial, ?_⟩
        intro b hb hp hr
        have hold := h b hb (Nat.lt_succ_iff.mp hp) hr
        simp only [Copy.staged] at hold ⊢
        rw [if_neg (by omega)] at hold
        exact hold
  | done => exact ⟨trivial, h⟩

/-- What is staged for a block is in the buffer or in the destination. -/
lemma staged_cases (c : Copy α) (b : ℕ) :
    (∃ y, ∀ dst, c.staged dst b = y) ∨ ∀ dst : ℕ → α, c.staged dst b = dst b := by
  obtain ⟨pc, buf⟩ := c
  cases pc with
  | read st pos k =>
      by_cases hin : st ≤ b ∧ b < st + k
      · exact Or.inl ⟨buf (b - st), fun dst => by simp [Copy.staged, hin]⟩
      · exact Or.inr fun dst => by simp only [Copy.staged, if_neg hin]
  | write st pos k =>
      by_cases hin : st + k ≤ b ∧ b < pos
      · exact Or.inl ⟨buf (b - st), fun dst => by simp [Copy.staged, hin]⟩
      · exact Or.inr fun dst => by simp only [Copy.staged, if_neg hin]
  | _ => exact Or.inr fun dst => rfl

lemma staged_congr (c : Copy α) {dst dst' : ℕ → α} {b : ℕ} (h : dst' b = dst b) :
    c.staged dst' b = c.staged dst b := by
  rcases staged_cases c b with ⟨y, hy⟩ | hdst
  · rw [hy, hy]
  · rw [hdst, hdst, h]

/-- **The rule for changes by others.**  At each block that is passed and of interest afterwards
nothing has changed, or only the source has, to what is staged, or only the destination has, to
what is in the source. -/
lemma Copied.external {size : ℕ} {R R' : ℕ → Prop} {src src' dst dst' : ℕ → α} {c : Copy α}
    (h : Copied size R src dst c)
    (hchange : ∀ b < size, c.pc.Passed b → R' b →
      (R b ∧ src' b = src b ∧ dst' b = dst b) ∨
      (dst' b = dst b ∧ c.staged dst b = src' b) ∨
      (R b ∧ src' b = src b ∧ dst' b = src b)) :
    Copied size R' src' dst' c := by
  intro b hb hp hr
  rcases hchange b hb hp hr with ⟨hR, hsrc, hdst⟩ | ⟨hdst, hstaged⟩ | ⟨hR, hsrc, hdst⟩
  · rw [staged_congr c hdst, hsrc]
    exact h b hb hp hR
  · rw [staged_congr c hdst]
    exact hstaged
  · have hold := h b hb hp hR
    rcases staged_cases c b with ⟨y, hy⟩ | hall
    · rw [hy] at hold
      rw [hy, hsrc, hold]
    · rw [hall, hdst, hsrc]

/-- At the end everything of interest has been copied. -/
lemma copied_done {size : ℕ} {R : ℕ → Prop} {src dst : ℕ → α} {c : Copy α}
    (h : Copied size R src dst c) (hdone : c.pc = .done) : ∀ b < size, R b → dst b = src b := by
  intro b hb hr
  have hcopied := h b hb (by rw [hdone]; trivial) hr
  simpa only [Copy.staged, hdone] using hcopied

/-- A loop that has not started has passed nothing. -/
lemma copied_start {size : ℕ} {R : ℕ → Prop} {src dst : ℕ → α} (buf : ℕ → α) :
    Copied size R src dst ⟨.seek 0, buf⟩ :=
  fun b _ hp _ => absurd hp (Nat.not_lt_zero b)

end RunCopy
