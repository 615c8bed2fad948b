import Mathlib.Tactic

/-!
# Loops that stop at the first error

A loop over a list whose body may fail is `List.foldlM` in `Except`.  If it fails, it is some step
that failed (`exists_step_of_error`); if it does not, and its state carries nothing, all steps went
well (`step_of_ok`).
-/

namespace ExceptLoop

variable {ε σ α : Type*} {l : List α}

/-- **An error of a loop is an error of one of its steps.** -/
theorem exists_step_of_error {f : σ → α → Except ε σ} {s : σ} {e : ε}
    (h : l.foldlM f s = .error e) : ∃ a ∈ l, ∃ t, f t a = .error e := by
  induction l generalizing s with
  | nil => exact absurd h nofun
  | cons a l ih =>
      rw [List.foldlM_cons] at h
      cases hstep : f s a with
      | error e' =>
          rw [hstep] at h
          obtain rfl : e' = e := Except.error.inj h
          exact ⟨a, List.mem_cons_self, s, hstep⟩
      | ok t =>
          rw [hstep] at h
          obtain ⟨b, hb, u, hu⟩ := ih h
          exact ⟨b, List.mem_cons_of_mem a hb, u, hu⟩

theorem step_of_ok {g : α → Except ε Unit} (h : l.foldlM (fun _ a => g a) () = .ok ()) :
    ∀ a ∈ l, g a = .ok () := by
  induction l with
  | nil => exact fun a ha => absurd ha List.not_mem_nil
  | cons b l ih =>
      rw [List.foldlM_cons] at h
      cases hstep : g b with
      | error e =>
          rw [hstep] at h
          exact absurd h nofun
      | ok u =>
          rw [hstep] at h
          intro a ha
          rcases List.mem_cons.mp ha with rfl | ha
          · exact hstep
          · exact ih h a ha

end ExceptLoop
