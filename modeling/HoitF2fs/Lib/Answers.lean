import Mathlib.Data.Option.Basic

/-!
# Systems that answer

A system takes requests one after the other, and gives an answer to each.  Another system, a relation
that need not be deterministic, says which answers are right.

* `run` — the answers to a list of requests.
* `Permits` — a run of the other system with these requests and answers.
* `answers` — the answers that are given, as far as they come.
* `ProperAlong` — each request meets a condition on the state of the other system, in whatever state
  these answers leave it; `Proper` says so for all answers that the other system permits.
* `run_refines` — a relation between the states that each step keeps leads from a run to a run with
  the same answers.
-/

namespace Answers

variable {σ τ ι ο : Type*}

/-- The answers to a list of requests; `none` as soon as there is none. -/
def run (step : σ → ι → Option (ο × σ)) : σ → List ι → Option (List ο × σ)
  | s, [] => some ([], s)
  | s, a :: as => (step s a).bind fun x => (run step x.2 as).map fun y => (x.1 :: y.1, y.2)

def answers (step : σ → ι → Option (ο × σ)) : σ → List ι → List ο
  | _, [] => []
  | s, a :: as =>
      match step s a with
      | none => []
      | some x => x.1 :: answers step x.2 as

/-- The other system permits these answers. -/
inductive Permits (astep : τ → ι → ο → τ → Prop) : τ → List ι → List ο → τ → Prop
  | nil (t : τ) : Permits astep t [] [] t
  | cons {t t' t'' : τ} {a : ι} {as : List ι} {o : ο} {os : List ο} (head : astep t a o t')
      (tail : Permits astep t' as os t'') : Permits astep t (a :: as) (o :: os) t''

/-- Each request meets the condition, along these answers. -/
def ProperAlong (astep : τ → ι → ο → τ → Prop) (good : τ → ι → Prop) : τ → List ι → List ο → Prop
  | _, [], _ => True
  | t, a :: _, [] => good t a
  | t, a :: as, o :: os => good t a ∧ ∀ t', astep t a o t' → ProperAlong astep good t' as os

/-- Each request meets the condition. -/
def Proper (astep : τ → ι → ο → τ → Prop) (good : τ → ι → Prop) : τ → List ι → Prop
  | _, [] => True
  | t, a :: as => good t a ∧ ∀ o t', astep t a o t' → Proper astep good t' as

variable {step : σ → ι → Option (ο × σ)} {astep : τ → ι → ο → τ → Prop} {good : τ → ι → Prop}

lemma Proper.mono {good' : τ → ι → Prop} (h : ∀ t a, good t a → good' t a) {as : List ι} {t : τ}
    (hproper : Proper astep good t as) : Proper astep good' t as := by
  induction as generalizing t with
  | nil => trivial
  | cons a as ih => exact ⟨h t a hproper.1, fun o t' ht => ih (hproper.2 o t' ht)⟩

/-- What holds whatever is answered holds along the answers that are given. -/
lemma Proper.along {as : List ι} {t : τ} (hproper : Proper astep good t as) (os : List ο) :
    ProperAlong astep good t as os := by
  induction as generalizing t os with
  | nil => trivial
  | cons a as ih =>
      cases os with
      | nil => exact hproper.1
      | cons o os => exact ⟨hproper.1, fun t' ht => ih (hproper.2 o t' ht) os⟩

lemma ProperAlong.head {a : ι} {as : List ι} {os : List ο} {t : τ}
    (h : ProperAlong astep good t (a :: as) os) : good t a := by
  cases os with
  | nil => exact h
  | cons o os => exact h.1

/-- **Every run is one that the other system permits**, and there is one. -/
theorem run_refines_along {R : σ → τ → Prop}
    (hstep : ∀ s t a, R s t → good t a →
      ∃ o s' t', step s a = some (o, s') ∧ astep t a o t' ∧ R s' t')
    {s : σ} {t : τ} {as : List ι} (h : R s t)
    (hgood : ProperAlong astep good t as (answers step s as)) :
    ∃ os s' t', run step s as = some (os, s') ∧ Permits astep t as os t' ∧ R s' t' := by
  induction as generalizing s t with
  | nil => exact ⟨[], s, t, rfl, .nil t, h⟩
  | cons a as ih =>
      obtain ⟨o, s', t', hs, ht, hR⟩ := hstep s t a h hgood.head
      rw [answers, hs] at hgood
      obtain ⟨os, s'', t'', hruns, hperm, hR'⟩ := ih hR (hgood.2 t' ht)
      refine ⟨o :: os, s'', t'', ?_, .cons ht hperm, hR'⟩
      rw [run, hs, Option.bind_some, hruns, Option.map_some]

/-- The same, if the requests are proper whatever is answered. -/
theorem run_refines {R : σ → τ → Prop}
    (hstep : ∀ s t a, R s t → good t a →
      ∃ o s' t', step s a = some (o, s') ∧ astep t a o t' ∧ R s' t')
    {s : σ} {t : τ} {as : List ι} (h : R s t) (hgood : Proper astep good t as) :
    ∃ os s' t', run step s as = some (os, s') ∧ Permits astep t as os t' ∧ R s' t' :=
  run_refines_along hstep h (hgood.along _)

end Answers
