import Mathlib.Tactic

/-!
# Runs of a labelled transition function

A system is given by `step : σ → ι → Option σ`: in state `s` the label `a` — which names the
party that moves and every choice it makes — is either disabled (`none`) or leads to one next
state.  An interleaving is then just a list of labels, and `exec` runs it.

Three ways of speaking about a whole run are used everywhere.

* `exec step s as = some s'` — the run `as` is possible from `s` and ends in `s'`.
* `Throughout step P s as` — `P` holds in *every* state the run visits.
* `StepsMeet step good s as` — every step of the run, looked at in the state *before* it, meets
  the condition `good`.

`exec_preserves` and `throughout_of_stepsMeet` are the invariant rules.
`throughout_iff_stepsMeet` is the exact version: when a condition on the state before a step
decides whether that step keeps a property, the property holds throughout a run **iff** all of
its steps meet the condition.  `throughout_iff_stepsMeet_of_inv` is the same for a property that
needs an invariant of its own.

`exec_since` tells what the last state looks like from the labels alone: `P` holds at the end iff
some label brought it about, or it held at the start, and no label since has spoilt it.

`execUntil` is a loop that returns at the first label for which `stop` holds; it runs the labels
before that one (`execUntil_eq`).
-/

namespace Transition

variable {σ ι : Type*} {step : σ → ι → Option σ}

/-- Run a list of labels; `none` as soon as one of them is disabled. -/
def exec (step : σ → ι → Option σ) : σ → List ι → Option σ
  | s, [] => some s
  | s, a :: as => (step s a).bind fun s' => exec step s' as

/-- Run a list of labels up to the first one that stops the loop. -/
def execUntil (step : σ → ι → Option σ) (stop : ι → Bool) : σ → List ι → Option σ
  | s, [] => some s
  | s, a :: as => if stop a then some s else (step s a).bind fun s' => execUntil step stop s' as

/-- `P` holds in every state the run visits, the first and the last included. -/
def Throughout (step : σ → ι → Option σ) (P : σ → Prop) : σ → List ι → Prop
  | s, [] => P s
  | s, a :: as => P s ∧ ∀ s', step s a = some s' → Throughout step P s' as

/-- Every step of the run meets `good`, a condition on the state before it and on its label. -/
def StepsMeet (step : σ → ι → Option σ) (good : σ → ι → Prop) : σ → List ι → Prop
  | _, [] => True
  | s, a :: as => good s a ∧ ∀ s', step s a = some s' → StepsMeet step good s' as

instance stepsMeetDecidable (good : σ → ι → Prop) [∀ s a, Decidable (good s a)] :
    ∀ (s : σ) (as : List ι), Decidable (StepsMeet step good s as)
  | _, [] => isTrue trivial
  | s, a :: as =>
      match hs : step s a with
      | none => decidable_of_iff (good s a) (by simp [StepsMeet, hs])
      | some s' =>
          have := stepsMeetDecidable good s' as
          decidable_of_iff (good s a ∧ StepsMeet step good s' as) (by simp [StepsMeet, hs])

@[simp] lemma exec_nil (s : σ) : exec step s [] = some s := rfl

lemma exec_cons {s s'' : σ} {a : ι} {as : List ι} :
    exec step s (a :: as) = some s''
      ↔ ∃ s', step s a = some s' ∧ exec step s' as = some s'' := by
  simp [exec, Option.bind_eq_some_iff]

/-- A run in two parts. -/
lemma exec_append_eq_bind (s : σ) (as bs : List ι) :
    exec step s (as ++ bs) = (exec step s as).bind fun s' => exec step s' bs := by
  induction as generalizing s with
  | nil => rfl
  | cons a as ih =>
      rw [List.cons_append, exec, exec, Option.bind_assoc]
      congr 1
      funext s'
      exact ih s'

lemma exec_append {s s'' : σ} {as bs : List ι} :
    exec step s (as ++ bs) = some s''
      ↔ ∃ s', exec step s as = some s' ∧ exec step s' bs = some s'' := by
  rw [exec_append_eq_bind, Option.bind_eq_some_iff]

lemma exec_map {κ : Type*} (f : κ → ι) (s : σ) (ks : List κ) :
    exec step s (ks.map f) = exec (fun s k => step s (f k)) s ks := by
  induction ks generalizing s with
  | nil => rfl
  | cons k ks ih =>
      rw [List.map_cons, exec, exec]
      congr 1
      funext s'
      exact ih s'

/-- A system that carries more than another one, and steps as it does, runs as it does. -/
lemma exec_project {τ : Type*} {step' : τ → ι → Option τ} {f : τ → σ}
    (h : ∀ t a, (step' t a).map f = step (f t) a) (t : τ) (as : List ι) :
    (exec step' t as).map f = exec step (f t) as := by
  induction as generalizing t with
  | nil => rfl
  | cons a as ih =>
      rw [exec, exec, ← h, Option.map_bind, Option.bind_map]
      congr 1
      funext t'
      exact ih t'

/-- A loop that may stop runs the labels before the first one that stops it. -/
lemma execUntil_eq (stop : ι → Bool) :
    ∀ (as : List ι) (s : σ),
      execUntil step stop s as = exec step s (as.takeWhile fun a => !stop a)
  | [], s => rfl
  | a :: as, s => by
      cases ha : stop a with
      | true => simp [execUntil, ha]
      | false =>
          simp only [execUntil, ha, List.takeWhile_cons, Bool.not_false, if_true, exec,
            Bool.false_eq_true, if_false]
          congr 1
          funext s'
          exact execUntil_eq stop as s'

/-- Which labels such a loop gets to, when they come in the order `r`: those up to which none
stops it. -/
lemma mem_takeWhile_iff {r : ι → ι → Prop} [Std.Asymm r] {p : ι → Bool} {i : ι} :
    ∀ {as : List ι}, as.Pairwise r →
      (i ∈ as.takeWhile p ↔ i ∈ as ∧ ∀ j ∈ as, r j i ∨ j = i → p j = true)
  | [], _ => by simp
  | a :: as, hr => by
      obtain ⟨hhead, htail⟩ := List.pairwise_cons.mp hr
      rw [List.takeWhile_cons]
      cases ha : p a with
      | false =>
          simp only [Bool.false_eq_true, if_false, List.not_mem_nil, false_iff, not_and]
          intro hi hall
          have hle : r a i ∨ a = i := by
            rcases List.mem_cons.mp hi with rfl | hi
            · exact Or.inr rfl
            · exact Or.inl (hhead i hi)
          rw [hall a List.mem_cons_self hle] at ha
          exact absurd ha (by simp)
      | true =>
          rw [if_pos rfl, List.mem_cons, List.mem_cons, mem_takeWhile_iff htail,
            List.forall_mem_cons]
          constructor
          · rintro (rfl | ⟨hi, hall⟩)
            · refine ⟨Or.inl rfl, fun _ => ha, fun j hj hle => ?_⟩
              rcases hle with hlt | rfl
              · exact absurd hlt (Std.Asymm.asymm _ _ (hhead j hj))
              · exact ha
            · exact ⟨Or.inr hi, fun _ => ha, hall⟩
          · rintro ⟨rfl | hi, -, hall⟩
            · exact Or.inl rfl
            · exact Or.inr ⟨hi, hall⟩

/-! ## Invariant rules -/

/-- **An invariant kept by every step holds after every run.** -/
theorem exec_preserves {I : σ → Prop}
    (hstep : ∀ s a s', I s → step s a = some s' → I s') :
    ∀ {as : List ι} {s s' : σ}, I s → exec step s as = some s' → I s'
  | [], s, s', hs, h => by
      simp only [exec_nil, Option.some.injEq] at h
      exact h ▸ hs
  | a :: as, s, s'', hs, h => by
      obtain ⟨s', h1, h2⟩ := exec_cons.mp h
      exact exec_preserves hstep (hstep s a s' hs h1) h2

/-- What holds throughout a run holds at its end. -/
lemma Throughout.last {P : σ → Prop} :
    ∀ {as : List ι} {s s' : σ}, Throughout step P s as → exec step s as = some s' → P s'
  | [], s, s', hP, h => by
      simp only [exec_nil, Option.some.injEq] at h
      exact h ▸ hP
  | a :: as, s, s'', hP, h => by
      obtain ⟨s', h1, h2⟩ := exec_cons.mp h
      exact Throughout.last (hP.2 s' h1) h2

lemma Throughout.mono {P Q : σ → Prop} (hPQ : ∀ s, P s → Q s) :
    ∀ {as : List ι} {s : σ}, Throughout step P s as → Throughout step Q s as
  | [], s, h => hPQ s h
  | _ :: _, s, h => ⟨hPQ s h.1, fun s' hs' => Throughout.mono hPQ (h.2 s' hs')⟩

/-- **Invariants of the runs whose steps all meet a condition.** -/
theorem throughout_of_stepsMeet {I : σ → Prop} {good : σ → ι → Prop}
    (hstep : ∀ s a s', I s → good s a → step s a = some s' → I s') :
    ∀ {as : List ι} {s : σ}, I s → StepsMeet step good s as → Throughout step I s as
  | [], _, hs, _ => hs
  | a :: _, s, hs, hg =>
      ⟨hs, fun s' hs' => throughout_of_stepsMeet hstep (hstep s a s' hs hg.1 hs') (hg.2 s' hs')⟩

lemma stepsMeet_append {good : σ → ι → Prop} :
    ∀ {as bs : List ι} {s : σ}, StepsMeet step good s as →
      (∀ s', exec step s as = some s' → StepsMeet step good s' bs) →
      StepsMeet step good s (as ++ bs)
  | [], _, s, _, hbs => hbs s rfl
  | _ :: _, _, _, has, hbs =>
      ⟨has.1, fun s' hs' => stepsMeet_append (has.2 s' hs') fun s'' hs'' =>
        hbs s'' (exec_cons.mpr ⟨s', hs', hs''⟩)⟩

/-- **The exact rule.**  Let `I` imply `Q`, let every step that meets `good` keep `I`, and let no
other step from a state of `I` keep `Q`.  Then `Q` holds throughout a run iff every step of the run
meets `good`. -/
theorem throughout_iff_stepsMeet_of_inv {I Q : σ → Prop} {good : σ → ι → Prop}
    (hI : ∀ s, I s → Q s) (hgood : ∀ s a s', I s → good s a → step s a = some s' → I s')
    (hbad : ∀ s a s', I s → step s a = some s' → Q s' → good s a) :
    ∀ {as : List ι} {s s'' : σ}, I s → exec step s as = some s'' →
      (Throughout step Q s as ↔ StepsMeet step good s as)
  | [], s, _, hi, _ => by simp [Throughout, StepsMeet, hI s hi]
  | a :: as, s, s'', hi, h => by
      obtain ⟨s', h1, h2⟩ := exec_cons.mp h
      constructor
      · rintro ⟨-, hall⟩
        have hq' : Q s' := by
          cases as with
          | nil => exact hall s' h1
          | cons b bs => exact (hall s' h1).1
        have hg := hbad s a s' hi h1 hq'
        refine ⟨hg, fun t ht => ?_⟩
        obtain rfl : s' = t := by simpa [h1] using ht
        exact (throughout_iff_stepsMeet_of_inv hI hgood hbad (hgood s a s' hi hg h1) h2).mp
          (hall s' h1)
      · exact fun hmeet => (throughout_of_stepsMeet hgood hi hmeet).mono hI

/-- The exact rule with an invariant `J` of the whole system, where `good` decides, in the states
that satisfy `J` and `Q`, whether a step keeps `Q`. -/
theorem throughout_iff_stepsMeet {J Q : σ → Prop} {good : σ → ι → Prop}
    (hJ : ∀ s a s', J s → step s a = some s' → J s')
    (hQ : ∀ s a s', J s → Q s → step s a = some s' → (Q s' ↔ good s a))
    {as : List ι} {s s'' : σ} (hj : J s) (hq : Q s) (h : exec step s as = some s'') :
    Throughout step Q s as ↔ StepsMeet step good s as :=
  throughout_iff_stepsMeet_of_inv (I := fun s => J s ∧ Q s) (fun _ hi => hi.2)
    (fun s a s' hi hg hs => ⟨hJ s a s' hi.1 hs, (hQ s a s' hi.1 hi.2 hs).mpr hg⟩)
    (fun s a s' hi hs hq' => (hQ s a s' hi.1 hi.2 hs).mp hq') ⟨hj, hq⟩ h

/-! ## Since -/

/-- Some label of the run did `w`, or `p` held before it, and every label since did `k`. -/
def Since (w k : ι → Prop) (p : Prop) (as : List ι) : Prop :=
  (∃ pre a post, as = pre ++ a :: post ∧ w a ∧ ∀ b ∈ post, k b) ∨ (p ∧ ∀ b ∈ as, k b)

@[simp] lemma since_nil {w k : ι → Prop} {p : Prop} : Since w k p [] ↔ p := by
  simp [Since]

lemma since_cons {w k : ι → Prop} {p : Prop} {a : ι} {as : List ι} :
    Since w k p (a :: as) ↔ Since w k (w a ∨ (p ∧ k a)) as := by
  constructor
  · rintro (⟨pre, b, post, heq, hw, hk⟩ | ⟨hp, hk⟩)
    · cases pre with
      | nil =>
          obtain ⟨rfl, rfl⟩ := List.cons_eq_cons.mp heq
          exact Or.inr ⟨Or.inl hw, hk⟩
      | cons c pre =>
          obtain ⟨-, rfl⟩ := List.cons_eq_cons.mp heq
          exact Or.inl ⟨pre, b, post, rfl, hw, hk⟩
    · obtain ⟨hka, hk⟩ := List.forall_mem_cons.mp hk
      exact Or.inr ⟨Or.inr ⟨hp, hka⟩, hk⟩
  · rintro (⟨pre, b, post, rfl, hw, hk⟩ | ⟨hw | ⟨hp, hka⟩, hk⟩)
    · exact Or.inl ⟨a :: pre, b, post, rfl, hw, hk⟩
    · exact Or.inl ⟨[], a, as, rfl, hw, hk⟩
    · exact Or.inr ⟨hp, List.forall_mem_cons.mpr ⟨hka, hk⟩⟩

/-- **Reading the end of a run off its labels.** -/
theorem exec_since {P : σ → Prop} {good : σ → ι → Prop} {w k : ι → Prop}
    (hstep : ∀ s a s', good s a → step s a = some s' → (P s' ↔ w a ∨ (P s ∧ k a))) :
    ∀ {as : List ι} {s s' : σ}, StepsMeet step good s as → exec step s as = some s' →
      (P s' ↔ Since w k (P s) as)
  | [], s, s', _, h => by
      obtain rfl := Option.some.inj h
      rw [since_nil]
  | a :: as, s, s'', hg, h => by
      obtain ⟨s', h1, h2⟩ := exec_cons.mp h
      rw [exec_since hstep (hg.2 s' h1) h2, since_cons, hstep s a s' hg.1 h1]

end Transition
