import Mathlib.Data.Set.Insert
import Mathlib.Logic.Function.Basic
import Mathlib.Logic.Relation

/-!
# Going up in a forest

Each object has a parent, and one goes up until one meets an object where one stops: a root, or a
part of the forest that has been taken off.

* `Up` — from an object one gets to another, without passing one of those where one stops.
* `Up.more_stops` — with more of them, one gets to one of them all the more.
* `Up.attach` — **a part is put back**, below an object from where one does not get to it.
-/

namespace GoUp

variable {N : Type*} {parent parent' : N → Option N} {stop stop' : Set N} {c d i r r' : N}

def Up (parent : N → Option N) (stop : Set N) : N → N → Prop :=
  Relation.ReflTransGen fun c p => c ∉ stop ∧ parent c = some p

lemma Up.of_stop (h : Up parent stop c r) (hc : c ∈ stop) : r = c := by
  rcases Relation.ReflTransGen.cases_head h with rfl | ⟨p, hstep, -⟩
  · rfl
  · exact absurd hc hstep.1

/-- What is not passed may have another parent. -/
lemma Up.congr (h : Up parent stop c r) (hparent : ∀ c ∉ stop, parent' c = parent c) :
    Up parent' stop c r :=
  Relation.ReflTransGen.mono
    (fun c _ hstep => ⟨hstep.1, (hparent c hstep.1).trans hstep.2⟩) _ _ h

/-- Objects may have lost their parents. -/
lemma Up.of_less (h : Up parent' stop c r) (hless : ∀ c p, parent' c = some p → parent c = some p) :
    Up parent stop c r :=
  Relation.ReflTransGen.mono (fun c p hstep => ⟨hstep.1, hless c p hstep.2⟩) _ _ h

lemma Up.more_stops (h : Up parent stop c r) (hr : r ∈ stop) (hsub : stop ⊆ stop') :
    ∃ r' ∈ stop', Up parent stop' c r' := by
  induction h using Relation.ReflTransGen.head_induction_on with
  | refl => exact ⟨r, hsub hr, .refl⟩
  | @head a b hstep _ ih =>
      obtain ⟨r', hr', hup⟩ := ih
      by_cases ha : a ∈ stop'
      · exact ⟨a, ha, .refl⟩
      · exact ⟨r', hr', .head ⟨ha, hstep.2⟩ hup⟩

lemma Up.fewer_stops (h : Up parent stop c r) (hsub : stop' ⊆ stop) : Up parent stop' c r :=
  Relation.ReflTransGen.mono (fun _ _ hstep => ⟨fun hc => hstep.1 (hsub hc), hstep.2⟩) _ _ h

/-- One does not come to an object that has nothing below it. -/
lemma Up.ne_of_no_child (h : Up parent stop c r) (hc : c ≠ i)
    (hno : ∀ a ∉ stop, parent a ≠ some i) : r ≠ i := by
  rcases Relation.ReflTransGen.cases_tail h with rfl | ⟨a, -, hstep⟩
  · exact hc
  · rintro rfl
    exact hno a hstep.1 hstep.2

/-- One does not get from an object to one whose parent it is. -/
lemma Up.no_cycle (h : Up parent stop d r) (hr : r ∈ stop) (hi : i ∉ stop)
    (hparent : parent i = some d) : ¬ Up parent stop d i := by
  induction h using Relation.ReflTransGen.head_induction_on generalizing i with
  | refl => exact fun hup => hi (hup.of_stop hr ▸ hr)
  | @head a b hstep _ ih =>
      intro hup
      rcases Relation.ReflTransGen.cases_head hup with rfl | ⟨b', hstep', hup'⟩
      · obtain rfl := Option.some.inj (hstep.2.symm.trans hparent)
        exact ih hi hparent .refl
      · obtain rfl := Option.some.inj (hstep.2.symm.trans hstep'.2)
        exact ih hstep.1 hstep.2 (hup'.tail ⟨hi, hparent⟩)

/-- The way to another part is as it was. -/
lemma Up.attach_other [DecidableEq N] (h : Up parent stop c r) (hi : i ∈ stop) (d : N) :
    Up (Function.update parent i (some d)) (stop \ {i}) c r := by
  refine Relation.ReflTransGen.mono (fun a b hstep => ?_) _ _ h
  have hne : a ≠ i := fun heq => hstep.1 (heq ▸ hi)
  exact ⟨fun ha => hstep.1 ha.1, (Function.update_of_ne hne ..).trans hstep.2⟩

/-- **A part is put back.** -/
lemma Up.attach [DecidableEq N] (h : Up parent stop c r) (hr : r ∈ stop) (hi : i ∈ stop)
    (hd : Up parent stop d r') (hr' : r' ∈ stop) (hne : r' ≠ i) :
    ∃ s ∈ stop \ {i}, Up (Function.update parent i (some d)) (stop \ {i}) c s := by
  have hup := h.attach_other hi d
  by_cases hri : r = i
  · subst hri
    refine ⟨r', ⟨hr', hne⟩, hup.trans (.head ⟨fun hin => hin.2 rfl, Function.update_self ..⟩ ?_)⟩
    exact hd.attach_other hi d
  · exact ⟨r, ⟨hr, hri⟩, hup⟩

end GoUp
