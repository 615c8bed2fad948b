import Mathlib.Logic.Function.Basic

/-!
# A map that is kept in places

A table keeps entries in places, each with a key and a value.  It stands for a map if no two places
have entries with the same key, and the map has just the keys and values of the entries.

* `Represents` — the table stands for a map.
* `Represents.lookup`, `Represents.absent` — what finding an entry, and finding none, says about the
  map.
* `Represents.insert`, `Represents.erase`, `Represents.replace` — a new entry in some place, an entry
  taken away, and one in place of another.
-/

namespace Places

variable {P E K V : Type*}

/-- The entries `held` in places stand for the map `m`. -/
structure Represents (held : P → E → Prop) (key : E → K) (val : E → V) (m : K → Option V) :
    Prop where
  sound : ∀ p e, held p e → m (key e) = some (val e)
  complete : ∀ k v, m k = some v → ∃ p e, held p e ∧ key e = k
  unique : ∀ p e p' e', held p e → held p' e' → key e = key e' → p = p'

namespace Represents

variable {held held' : P → E → Prop} {key : E → K} {val : E → V} {m : K → Option V}
  {p : P} {e : E} {k : K}

/-- What is found under a key is what the map has. -/
lemma lookup (h : Represents held key val m) (he : held p e) (hk : key e = k) :
    m k = some (val e) :=
  hk ▸ h.sound p e he

/-- A key without an entry is not in the map. -/
lemma absent (h : Represents held key val m) (hno : ∀ p e, held p e → key e ≠ k) :
    m k = none := by
  cases hm : m k with
  | none => rfl
  | some v =>
      obtain ⟨p, e, he, hk⟩ := h.complete k v hm
      exact absurd hk (hno p e he)

lemma ne_key (h : Represents held key val m) (hm : m k = none) (he : held p e) : key e ≠ k := by
  intro hk
  rw [h.lookup he hk] at hm
  exact Option.some_ne_none _ hm

/-- The same entries stand for the same map. -/
lemma congr (h : Represents held key val m) (hsame : ∀ q x, held' q x ↔ held q x) :
    Represents held' key val m where
  sound p e he := h.sound p e ((hsame p e).mp he)
  complete k v hm := by
    obtain ⟨p, e, he, hk⟩ := h.complete k v hm
    exact ⟨p, e, (hsame p e).mpr he, hk⟩
  unique p e p' e' he he' := h.unique p e p' e' ((hsame p e).mp he) ((hsame p' e').mp he')

variable [DecidableEq K]

/-- A new entry for a key that had none. -/
lemma insert (h : Represents held key val m) (hnew : m (key e) = none)
    (hheld : ∀ q x, held' q x ↔ held q x ∨ q = p ∧ x = e) :
    Represents held' key val (Function.update m (key e) (some (val e))) where
  sound q x hx := by
    rcases (hheld q x).mp hx with hx | ⟨-, rfl⟩
    · rw [Function.update_of_ne (h.ne_key hnew hx)]
      exact h.sound q x hx
    · exact Function.update_self ..
  complete k v hm := by
    by_cases hk : k = key e
    · exact ⟨p, e, (hheld p e).mpr (Or.inr ⟨rfl, rfl⟩), hk.symm⟩
    · rw [Function.update_of_ne hk] at hm
      obtain ⟨q, x, hx, hxk⟩ := h.complete k v hm
      exact ⟨q, x, (hheld q x).mpr (Or.inl hx), hxk⟩
  unique q x q' x' hx hx' hk := by
    rcases (hheld q x).mp hx with hx | ⟨rfl, rfl⟩ <;>
      rcases (hheld q' x').mp hx' with hx' | ⟨rfl, rfl⟩
    · exact h.unique q x q' x' hx hx' hk
    · exact absurd hk (h.ne_key hnew hx)
    · exact absurd hk.symm (h.ne_key hnew hx')
    · rfl

/-- The only entry of a place is taken away. -/
lemma erase (h : Represents held key val m) (hp : held p e) (hone : ∀ x, held p x → x = e)
    (hheld : ∀ q x, held' q x ↔ held q x ∧ q ≠ p) :
    Represents held' key val (Function.update m (key e) none) where
  sound q x hx := by
    obtain ⟨hx, hne⟩ := (hheld q x).mp hx
    rw [Function.update_of_ne fun hk => hne (h.unique q x p e hx hp hk)]
    exact h.sound q x hx
  complete k v hm := by
    by_cases hk : k = key e
    · rw [hk, Function.update_self] at hm
      exact absurd hm.symm (Option.some_ne_none v)
    · rw [Function.update_of_ne hk] at hm
      obtain ⟨q, x, hx, hxk⟩ := h.complete k v hm
      refine ⟨q, x, (hheld q x).mpr ⟨hx, ?_⟩, hxk⟩
      rintro rfl
      rw [← hone x hx, hxk] at hk
      exact hk rfl
  unique q x q' x' hx hx' := h.unique q x q' x' ((hheld q x).mp hx).1 ((hheld q' x').mp hx').1

/-- The only entry of a place makes way for one with the same key. -/
lemma replace {b : E} (h : Represents held key val m) (hp : held p e)
    (hone : ∀ x, held p x → x = e) (hk : key b = key e)
    (hheld : ∀ q x, held' q x ↔ q ≠ p ∧ held q x ∨ q = p ∧ x = b) :
    Represents held' key val (Function.update m (key e) (some (val b))) := by
  have herase : Represents (fun q x => held q x ∧ q ≠ p) key val (Function.update m (key e) none) :=
    h.erase hp hone fun _ _ => Iff.rfl
  have hinsert : Represents held' key val
      (Function.update (Function.update m (key e) none) (key b) (some (val b))) :=
    herase.insert (p := p) (by rw [hk]; exact Function.update_self ..)
      (fun q x => by rw [hheld, and_comm])
  rwa [hk, Function.update_idem] at hinsert

end Represents

end Places
