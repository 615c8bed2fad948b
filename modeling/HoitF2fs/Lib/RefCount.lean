import Mathlib.Data.Set.Card

/-!
# Counting references

A table of references leads from some keys to objects.  How many lead to an object changes with each
entry of the table that is changed.

* `count` — the number of references to an object, in a table with finitely many.
* `ind` — whether one reference leads to an object, as a number.
* `count_update` — **what a change of one entry does to all counts**, as an equation between sums
  that linear arithmetic can use.
-/

namespace RefCount

variable {A B : Type*}

/-- There are finitely many references. -/
def Finite (f : A → Option B) : Prop := {a | f a ≠ none}.Finite

noncomputable def count (f : A → Option B) (b : B) : ℕ := {a | f a = some b}.ncard

/-- 1 if the reference leads to the object. -/
def ind [DecidableEq B] (o : Option B) (b : B) : ℕ := if o = some b then 1 else 0

variable {f : A → Option B} {a : A} {b : B}

lemma Finite.refs (h : Finite f) (b : B) : {a | f a = some b}.Finite :=
  h.subset fun a ha => by
    rw [Set.mem_ofPred_eq] at ha ⊢
    rw [ha]
    exact Option.some_ne_none b

lemma Finite.update [DecidableEq A] (h : Finite f) (a : A) (o : Option B) :
    Finite (Function.update f a o) := by
  refine (Set.Finite.insert a h).subset fun x hx => ?_
  by_cases hxa : x = a
  · exact Or.inl hxa
  · rw [Set.mem_ofPred_eq, Function.update_of_ne hxa] at hx
    exact Or.inr hx

lemma count_eq_zero (hno : ∀ a, f a ≠ some b) : count f b = 0 := by
  have hempty : {a | f a = some b} = ∅ := Set.eq_empty_of_forall_notMem hno
  rw [count, hempty, Set.ncard_empty]

section

variable [DecidableEq B]

@[simp] lemma ind_none (b : B) : ind none b = 0 := rfl

@[simp] lemma ind_self (b : B) : ind (some b) b = 1 := if_pos rfl

lemma ind_of_ne {b' : B} (h : b' ≠ b) : ind (some b') b = 0 :=
  if_neg fun heq => h (Option.some.inj heq)

variable [DecidableEq A]

/-- The references without that of one key. -/
lemma count_clear (h : Finite f) (a : A) (b : B) :
    count f b = count (Function.update f a none) b + ind (f a) b := by
  have hset : {x | Function.update f a none x = some b} = {x | f x = some b} \ {a} := by
    ext x
    by_cases hx : x = a
    · simp [hx]
    · simp [hx]
  unfold count ind
  rw [hset]
  split_ifs with ha
  · exact (Set.ncard_sdiff_singleton_add_one (show a ∈ {x | f x = some b} from ha) (h.refs b)).symm
  · rw [Set.sdiff_singleton_eq_self (show a ∉ {x | f x = some b} from ha), Nat.add_zero]

/-- **One entry is changed.** -/
theorem count_update (h : Finite f) (a : A) (o : Option B) (b : B) :
    count (Function.update f a o) b + ind (f a) b = count f b + ind o b := by
  have hold := count_clear h a b
  have hnew := count_clear (h.update a o) a b
  rw [Function.update_idem, Function.update_self] at hnew
  omega

/-- What a reference leads to is counted. -/
lemma count_ne_zero (h : Finite f) (ha : f a = some b) : count f b ≠ 0 := by
  have hcount := count_clear h a b
  rw [ha, ind_self] at hcount
  omega

lemma count_eq_zero_iff (h : Finite f) : count f b = 0 ↔ ∀ a, f a ≠ some b :=
  ⟨fun h0 _ ha => count_ne_zero h ha h0, count_eq_zero⟩

end

end RefCount
