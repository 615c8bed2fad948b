import Mathlib.Logic.Function.Basic
import Mathlib.Tactic

/-!
# Moving what slots hold

A row of slots is emptied into another one, slot by slot from the front.  The rows may overlap, as
long as **no slot is written before it has been read** (`Rows.ahead`).

* `Step` — a slot that holds something is moved.  One that is empty empties its destination, or leaves
  it alone; which of the two is allowed may depend on the slot.
* `Run` — the first `n` slots.  `Run.moved` says what the slots hold in the end.
-/

namespace SlotMove

variable {σ V : Type*}

/-- The slots that are read, and those they are moved to. -/
structure Rows (σ : Type*) where
  source : ℕ → σ
  dest : ℕ → σ
  len : ℕ
  source_inj : Function.Injective source
  dest_inj : Function.Injective dest
  ahead : ∀ j k, j ≤ k → k < len → dest j ≠ source k

section Runs

variable [DecidableEq σ]

/-- What is done for slot `i`. -/
inductive Step (r : Rows σ) (mayCut mayKeep : ℕ → Prop) (i : ℕ) (h : σ → Option V) :
    (σ → Option V) → Prop where
  | move (hfull : h (r.source i) ≠ none) :
      Step r mayCut mayKeep i h
        (Function.update (Function.update h (r.source i) none) (r.dest i) (h (r.source i)))
  | cut (hempty : h (r.source i) = none) (hcut : mayCut i) :
      Step r mayCut mayKeep i h (Function.update h (r.dest i) none)
  | keep (hempty : h (r.source i) = none) (hkeep : mayKeep i) : Step r mayCut mayKeep i h h

inductive Run (r : Rows σ) (mayCut mayKeep : ℕ → Prop) (h : σ → Option V) :
    ℕ → (σ → Option V) → Prop where
  | start : Run r mayCut mayKeep h 0 h
  | step {n : ℕ} {h' h'' : σ → Option V} (hrun : Run r mayCut mayKeep h n h')
      (hstep : Step r mayCut mayKeep n h' h'') : Run r mayCut mayKeep h (n + 1) h''

end Runs

/-- **What the slots hold after the first `n` have been moved.** -/
structure Moved (r : Rows σ) (mayCut mayKeep : ℕ → Prop) (h : σ → Option V) (n : ℕ)
    (h' : σ → Option V) : Prop where
  moved : ∀ k < n, h (r.source k) ≠ none → h' (r.dest k) = h (r.source k)
  emptied : ∀ k < n, h (r.source k) = none → ¬ mayKeep k → h' (r.dest k) = none
  kept : ∀ k < n, h (r.source k) = none → ¬ mayCut k → (∀ j < n, r.dest k ≠ r.source j) →
    h' (r.dest k) = h (r.dest k)
  source : ∀ k < n, (∀ j < n, h (r.source j) ≠ none → r.source k ≠ r.dest j) →
    h' (r.source k) = none
  frame : ∀ x, (∀ k < n, x ≠ r.source k ∧ x ≠ r.dest k) → h' x = h x

variable {r : Rows σ} {mayCut mayKeep : ℕ → Prop} {h h' h'' : σ → Option V} {n k j : ℕ}

/-- A slot that has not been reached has not been written. -/
lemma Moved.untouched (hm : Moved r mayCut mayKeep h n h') (hnk : n ≤ k) (hk : k < r.len) :
    h' (r.source k) = h (r.source k) := by
  refine hm.frame _ fun j hj => ⟨fun heq => ?_, fun heq => ?_⟩
  · have := r.source_inj heq
    omega
  · exact r.ahead j k (by omega) hk heq.symm

/-- One slot more. -/
lemma Moved.extend (hm : Moved r mayCut mayKeep h n h') (hlen : n < r.len)
    (hframe : ∀ x, x ≠ r.source n → x ≠ r.dest n → h'' x = h' x)
    (hsource : h'' (r.source n) = none)
    (hfull : h (r.source n) ≠ none → h'' (r.dest n) = h (r.source n))
    (hempty : h (r.source n) = none →
      h'' (r.dest n) = none ∧ mayCut n ∨ h'' (r.dest n) = h' (r.dest n) ∧ mayKeep n) :
    Moved r mayCut mayKeep h (n + 1) h'' := by
  -- the destinations that have been written before
  have hbefore : ∀ k < n, h'' (r.dest k) = h' (r.dest k) := by
    intro k hk
    refine hframe _ (r.ahead k n (by omega) hlen) fun heq => ?_
    have := r.dest_inj heq
    omega
  refine ⟨fun k hk hf => ?_, fun k hk hnone hnot => ?_, fun k hk hnone hnot hne => ?_,
    fun k hk hne => ?_, fun x hx => ?_⟩
  · rcases Nat.lt_succ_iff_lt_or_eq.mp hk with hlt | rfl
    · rw [hbefore k hlt]
      exact hm.moved k hlt hf
    · exact hfull hf
  · rcases Nat.lt_succ_iff_lt_or_eq.mp hk with hlt | rfl
    · rw [hbefore k hlt]
      exact hm.emptied k hlt hnone hnot
    · rcases hempty hnone with ⟨hcut, -⟩ | ⟨-, hkeep⟩
      · exact hcut
      · exact absurd hkeep hnot
  · rcases Nat.lt_succ_iff_lt_or_eq.mp hk with hlt | rfl
    · rw [hbefore k hlt]
      exact hm.kept k hlt hnone hnot fun j hj => hne j (by omega)
    · rcases hempty hnone with ⟨-, hcut⟩ | ⟨hsame, -⟩
      · exact absurd hcut hnot
      · rw [hsame]
        refine hm.frame _ fun j hj => ⟨hne j (by omega), fun heq => ?_⟩
        have := r.dest_inj heq
        omega
  · rcases Nat.lt_succ_iff_lt_or_eq.mp hk with hlt | rfl
    · have hgone : h' (r.source k) = none := hm.source k hlt fun j hj => hne j (by omega)
      by_cases hdest : r.source k = r.dest n
      · -- the destination of an empty slot
        have hnone : h (r.source n) = none := by
          by_contra hf
          exact hne n (Nat.lt_succ_self n) hf hdest
        rw [hdest] at hgone ⊢
        rcases hempty hnone with ⟨hcut, -⟩ | ⟨hsame, -⟩
        · exact hcut
        · exact hsame.trans hgone
      · rw [hframe _ (fun heq => by have := r.source_inj heq; omega) hdest, hgone]
    · exact hsource
  · obtain ⟨hs, hd⟩ := hx n (Nat.lt_succ_self n)
    rw [hframe x hs hd]
    exact hm.frame x fun k hk => hx k (by omega)

/-- **A run moves every slot.** -/
theorem Run.moved [DecidableEq σ] (hrun : Run r mayCut mayKeep h n h') (hlen : n ≤ r.len) :
    Moved r mayCut mayKeep h n h' := by
  induction hrun with
  | start =>
      exact ⟨fun k hk => absurd hk (Nat.not_lt_zero k), fun k hk => absurd hk (Nat.not_lt_zero k),
        fun k hk => absurd hk (Nat.not_lt_zero k), fun k hk => absurd hk (Nat.not_lt_zero k),
        fun x _ => rfl⟩
  | @step n h' h'' hrun hstep ih =>
      have hm := ih (by omega)
      have hsame := hm.untouched le_rfl hlen
      have hne := r.ahead n n le_rfl hlen
      cases hstep with
      | move hfull =>
          refine hm.extend hlen (fun x hs hd => ?_) ?_ (fun _ => ?_) fun hnone => ?_
          · rw [Function.update_of_ne hd, Function.update_of_ne hs]
          · rw [Function.update_of_ne hne.symm, Function.update_self]
          · rw [Function.update_self, hsame]
          · exact absurd (hsame.trans hnone) hfull
      | cut hempty hcut =>
          refine hm.extend hlen (fun x hs hd => Function.update_of_ne hd _ _) ?_ (fun hf => ?_)
            fun _ => Or.inl ⟨Function.update_self _ _ _, hcut⟩
          · rw [Function.update_of_ne hne.symm, hempty]
          · exact absurd (hsame.symm.trans hempty) hf
      | keep hempty hkeep =>
          exact hm.extend hlen (fun x _ _ => rfl) hempty
            (fun hf => absurd (hsame.symm.trans hempty) hf) fun _ => Or.inr ⟨rfl, hkeep⟩

end SlotMove
