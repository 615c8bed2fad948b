import Mathlib.Tactic

/-!
# Going through a bitmap run by run

A loop looks for the next set bit, goes on to the next clear one, does something with the bits in
between, steps over the clear bit **without testing it again**, and starts over.

* `scan` — `while (pos < size && p pos) pos++`.
* `forRuns` — the whole loop, with the body as a parameter.
* `runs` — the same loop when the body only notes where it stands.  `forRuns_eq` says that any
  body is applied to exactly these runs, in this order.
* `IsRun` — the runs a bitmap has, as a property.

The loop finds what there is: each run it visits is one (`isRun_of_mem_runs`), two of them are
apart (`runs_pairwise`), and each set bit lies in one (`exists_mem_runs`).
-/

namespace Runs

variable {p map : ℕ → Bool} {size pos : ℕ}

/-! ## The inner loops -/

/-- `while (pos < size && p pos) pos++`: where it ends. -/
def scan (p : ℕ → Bool) (size pos : ℕ) : ℕ :=
  if pos < size ∧ p pos = true then scan p size (pos + 1) else pos
termination_by size - pos

lemma le_scan : pos ≤ scan p size pos := by
  fun_induction scan p size pos with
  | case1 pos h ih => exact Nat.le_of_succ_le ih
  | case2 pos h => exact le_rfl

lemma scan_le (h : pos ≤ size) : scan p size pos ≤ size := by
  fun_induction scan p size pos with
  | case1 pos hp ih => exact ih hp.1
  | case2 pos hp => exact h

/-- The loop steps over positions that pass. -/
lemma scan_pass {j : ℕ} (h1 : pos ≤ j) (h2 : j < scan p size pos) : j < size ∧ p j = true := by
  fun_induction scan p size pos with
  | case1 pos hp ih =>
      rcases Nat.eq_or_lt_of_le h1 with rfl | hlt
      · exact hp
      · exact ih hlt h2
  | case2 pos hp => omega

/-- It stops at one that does not. -/
lemma scan_stop (h : scan p size pos < size) : p (scan p size pos) = false := by
  fun_induction scan p size pos with
  | case1 pos hp ih => exact ih h
  | case2 pos hp =>
      by_contra hb
      exact hp ⟨h, by simpa using hb⟩

/-! ## The loop -/

/-- The start of the next run: the first loop. -/
def runStart (map : ℕ → Bool) (size pos : ℕ) : ℕ := scan (fun i => !map i) size pos

/-- The end of the run that starts at `st`: the second loop, which starts one further on. -/
def runEnd (map : ℕ → Bool) (size st : ℕ) : ℕ := scan map size (st + 1)

/-- The loop from `pos` on. -/
def forRuns {σ : Type*} (body : σ → ℕ → ℕ → σ) (map : ℕ → Bool) (size pos : ℕ) (s : σ) : σ :=
  let st := runStart map size pos
  if size ≤ st then s
  else
    let en := runEnd map size st
    forRuns body map size (en + 1) (body s st en)
termination_by size - pos
decreasing_by
  have hst : pos ≤ runStart map size pos := le_scan
  have hen : runStart map size pos + 1 ≤ runEnd map size (runStart map size pos) := le_scan
  omega

/-- The runs the loop visits from `pos` on. -/
def runs (map : ℕ → Bool) (size pos : ℕ) : List (ℕ × ℕ) :=
  let st := runStart map size pos
  if size ≤ st then []
  else
    let en := runEnd map size st
    (st, en) :: runs map size (en + 1)
termination_by size - pos
decreasing_by
  have hst : pos ≤ runStart map size pos := le_scan
  have hen : runStart map size pos + 1 ≤ runEnd map size (runStart map size pos) := le_scan
  omega

/-- **Any body is applied to the runs, one after the other.** -/
theorem forRuns_eq {σ : Type*} (body : σ → ℕ → ℕ → σ) (map : ℕ → Bool) (size pos : ℕ) (s : σ) :
    forRuns body map size pos s = (runs map size pos).foldl (fun s r => body s r.1 r.2) s := by
  fun_induction forRuns body map size pos s with
  | case1 pos s st hend => rw [runs, if_pos hend, List.foldl_nil]
  | case2 pos s st hst en ih =>
      rw [runs, if_neg hst, List.foldl_cons]
      exact ih

/-! ## What it visits -/

/-- `[a, b)` is a maximal run of set bits below `size`. -/
structure IsRun (map : ℕ → Bool) (size a b : ℕ) : Prop where
  nonempty : a < b
  inside : b ≤ size
  all : ∀ j, a ≤ j → j < b → map j = true
  left : 0 < a → map (a - 1) = false
  right : b < size → map b = false

/-- The run that is found from `pos` on, if nothing before `pos` is part of it. -/
lemma isRun_next (hpos : 0 < pos → pos < size → map (pos - 1) = false)
    (hst : runStart map size pos < size) :
    IsRun map size (runStart map size pos) (runEnd map size (runStart map size pos)) := by
  have hset : map (runStart map size pos) = true := by
    have hstop : (!map (runStart map size pos)) = false := scan_stop hst
    simpa using hstop
  refine ⟨le_scan, scan_le hst, ?_, ?_, scan_stop⟩
  · intro j h1 h2
    rcases Nat.eq_or_lt_of_le h1 with rfl | hlt
    · exact hset
    · exact (scan_pass hlt h2).2
  · intro h0
    have hle : pos ≤ runStart map size pos := le_scan
    rcases Nat.eq_or_lt_of_le hle with heq | hlt
    · rw [← heq] at h0 hst ⊢
      exact hpos h0 hst
    · have hskip := scan_pass (p := fun i => !map i) (j := runStart map size pos - 1)
        (Nat.le_sub_one_of_lt hlt) (Nat.sub_one_lt_of_lt hlt)
      simpa using hskip.2

/-- Behind a run that has ended, the next one may start. -/
lemma clear_before_next {st : ℕ} : 0 < runEnd map size st + 1 → runEnd map size st + 1 < size →
    map (runEnd map size st + 1 - 1) = false := by
  intro _ hlt
  rw [Nat.add_sub_cancel]
  exact scan_stop (Nat.lt_of_succ_lt hlt)

/-- Each run that is visited lies behind `pos`, and it is a run. -/
lemma mem_runs {r : ℕ × ℕ} (hpos : 0 < pos → pos < size → map (pos - 1) = false)
    (hr : r ∈ runs map size pos) : pos ≤ r.1 ∧ IsRun map size r.1 r.2 := by
  fun_induction runs map size pos with
  | case1 pos st hend => exact absurd hr List.not_mem_nil
  | case2 pos st hst en ih =>
      have hle : pos ≤ st := le_scan
      have hen : st + 1 ≤ en := le_scan
      rcases List.mem_cons.mp hr with rfl | hr
      · exact ⟨hle, isRun_next hpos (Nat.not_le.mp hst)⟩
      · obtain ⟨hafter, hrun⟩ := ih clear_before_next hr
        exact ⟨by omega, hrun⟩

lemma isRun_of_mem_runs {r : ℕ × ℕ} (hr : r ∈ runs map size 0) : IsRun map size r.1 r.2 :=
  (mem_runs (fun h => absurd h (lt_irrefl 0)) hr).2

/-- Each run ends before the next one starts, with a clear bit in between. -/
lemma runs_pairwise (map : ℕ → Bool) (size pos : ℕ)
    (hpos : 0 < pos → pos < size → map (pos - 1) = false) :
    (runs map size pos).Pairwise fun r r' => r.2 < r'.1 := by
  fun_induction runs map size pos with
  | case1 pos st hend => exact List.Pairwise.nil
  | case2 pos st hst en ih =>
      rw [List.pairwise_cons]
      refine ⟨fun r hr => ?_, ih clear_before_next⟩
      exact (mem_runs clear_before_next hr).1

/-- Each set bit behind `pos` lies in a run that is visited. -/
lemma exists_mem_runs {j : ℕ} (hpos : pos ≤ j) (hj : j < size) (hset : map j = true) :
    ∃ r ∈ runs map size pos, r.1 ≤ j ∧ j < r.2 := by
  fun_induction runs map size pos with
  | case1 pos st hend =>
      have hskip := scan_pass (p := fun i => !map i) hpos (Nat.lt_of_lt_of_le hj hend)
      rw [hset] at hskip
      exact absurd hskip.2 (by simp)
  | case2 pos st hst en ih =>
      have hbefore : ¬ j < st := by
        intro hlt
        have hskip := scan_pass (p := fun i => !map i) hpos hlt
        rw [hset] at hskip
        exact absurd hskip.2 (by simp)
      by_cases hin : j < en
      · exact ⟨(st, en), List.mem_cons_self, Nat.not_lt.mp hbefore, hin⟩
      · have hne : j ≠ en := by
          rintro rfl
          have hclear : map en = false := scan_stop hj
          rw [hclear] at hset
          exact absurd hset (by simp)
        obtain ⟨r, hr, hjr⟩ := ih (by omega)
        exact ⟨r, List.mem_cons_of_mem _ hr, hjr⟩

/-- There are at most half as many runs as bits. -/
lemma runs_length_le (map : ℕ → Bool) (size pos : ℕ) :
    2 * (runs map size pos).length ≤ size + 1 - pos := by
  fun_induction runs map size pos with
  | case1 pos st hend =>
      rw [List.length_nil]
      omega
  | case2 pos st hst en ih =>
      have hle : pos ≤ st := le_scan
      have hen : st + 1 ≤ en := le_scan
      rw [List.length_cons]
      omega

/-- Two runs that share a bit are the same run. -/
lemma IsRun.eq_of_common {a b a' b' j : ℕ} (h : IsRun map size a b) (h' : IsRun map size a' b')
    (hj : a ≤ j ∧ j < b) (hj' : a' ≤ j ∧ j < b') : a = a' ∧ b = b' := by
  -- where one started later than the other, the bit before its start would be set
  have hstart : ∀ {a b a' b' : ℕ}, IsRun map size a b → IsRun map size a' b' →
      a ≤ j ∧ j < b → a' ≤ j ∧ j < b' → a ≤ a' := by
    intro a b a' b' h h' hj hj'
    by_contra hlt
    have hclear := h.left (by omega)
    rw [h'.all (a - 1) (by omega) (by omega)] at hclear
    exact absurd hclear (by simp)
  have hend : ∀ {a b a' b' : ℕ}, IsRun map size a b → IsRun map size a' b' →
      a ≤ j ∧ j < b → a' ≤ j ∧ j < b' → b ≤ b' := by
    intro a b a' b' h h' hj hj'
    by_contra hlt
    have hclear := h'.right (by have := h.inside; omega)
    rw [h.all b' (by omega) (by omega)] at hclear
    exact absurd hclear (by simp)
  exact ⟨le_antisymm (hstart h h' hj hj') (hstart h' h hj' hj),
    le_antisymm (hend h h' hj hj') (hend h' h hj' hj)⟩

end Runs
