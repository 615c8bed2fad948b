import Mathlib.Tactic

/-!
# Journals

A journal is a short table of key–value pairs in the order in which the keys came in.  It is
searched from the front; a new value replaces the old one of its key in place, and a key that is
not there yet goes to the end.

`get_put_self` and `get_put_of_ne` say that it is a map, `keys_put` and `length_put_le` what a new
value costs.
-/

namespace Journal

variable {K V : Type*} [DecidableEq K]

def get : List (K × V) → K → Option V
  | [], _ => none
  | (k', v) :: j, k => if k' = k then some v else get j k

def put : List (K × V) → K → V → List (K × V)
  | [], k, v => [(k, v)]
  | (k', w) :: j, k, v => if k' = k then (k, v) :: j else (k', w) :: put j k v

def keys (j : List (K × V)) : List K := j.map Prod.fst

variable {j : List (K × V)} {k k' : K} {v w : V}

@[simp] lemma get_nil : get ([] : List (K × V)) k = none := rfl

@[simp] lemma get_put_self : get (put j k v) k = some v := by
  induction j with
  | nil => simp [put, get]
  | cons x j ih =>
      rw [put]
      split_ifs with h
      · simp [get]
      · simpa [get, h] using ih

lemma get_put_of_ne (hne : k' ≠ k) : get (put j k v) k' = get j k' := by
  induction j with
  | nil => simp [put, get, hne.symm]
  | cons x j ih =>
      rw [put]
      split_ifs with h
      · simp [get, hne.symm, h]
      · simp [get, ih]

lemma mem_keys_iff : k ∈ keys j ↔ (get j k).isSome = true := by
  induction j with
  | nil => simp [keys]
  | cons x j ih =>
      by_cases h : x.1 = k
      · simp [keys, get, h]
      · have h' : ¬ k = x.1 := fun heq => h heq.symm
        simpa [keys, get, h, h'] using ih

lemma get_eq_none_iff : get j k = none ↔ k ∉ keys j := by
  rw [mem_keys_iff]
  cases get j k <;> simp

lemma get_of_mem (hnd : (keys j).Nodup) (h : (k, v) ∈ j) : get j k = some v := by
  induction j with
  | nil => simp at h
  | cons x j ih =>
      obtain ⟨hx, hnd⟩ := List.nodup_cons.mp hnd
      rcases List.mem_cons.mp h with rfl | h
      · simp [get]
      · have hne : x.1 ≠ k := by
          rintro rfl
          exact hx (List.mem_map.mpr ⟨(x.1, v), h, rfl⟩)
        rw [get, if_neg hne, ih hnd h]

/-- A known key keeps its place, a new one goes to the end. -/
lemma keys_put : keys (put j k v) = if k ∈ keys j then keys j else keys j ++ [k] := by
  induction j with
  | nil => simp [put, keys]
  | cons x j ih =>
      rw [put]
      by_cases h : x.1 = k
      · simp [keys, h]
      · have h' : ¬ k = x.1 := fun heq => h heq.symm
        rw [if_neg h]
        simp only [keys, List.map_cons, List.mem_cons, h', false_or] at ih ⊢
        rw [ih]
        split_ifs with hm
        · simp [hm]
        · simp [hm]

lemma nodup_put (hnd : (keys j).Nodup) : (keys (put j k v)).Nodup := by
  rw [keys_put]
  split_ifs with h
  · exact hnd
  · exact List.nodup_append.mpr ⟨hnd, by simp, by
      rintro a ha b hb rfl
      rw [List.mem_singleton] at hb
      exact h (hb ▸ ha)⟩

lemma mem_keys_put : k' ∈ keys (put j k v) ↔ k' = k ∨ k' ∈ keys j := by
  rw [keys_put]
  split_ifs with h
  · constructor
    · exact Or.inr
    · rintro (rfl | h')
      · exact h
      · exact h'
  · simp [or_comm]

omit [DecidableEq K] in
@[simp] lemma length_keys : (keys j).length = j.length := by simp [keys]

lemma length_put_le : (put j k v).length ≤ j.length + 1 := by
  rw [← length_keys, keys_put]
  split_ifs <;> simp

/-- Every entry is the new one or an old one. -/
lemma mem_put (h : (k', w) ∈ put j k v) : (k' = k ∧ w = v) ∨ (k', w) ∈ j := by
  induction j with
  | nil => simpa [put] using h
  | cons x j ih =>
      rw [put] at h
      split_ifs at h with hx
      · rcases List.mem_cons.mp h with heq | h
        · exact Or.inl (Prod.mk.inj heq)
        · exact Or.inr (List.mem_cons_of_mem x h)
      · rcases List.mem_cons.mp h with heq | h
        · exact Or.inr (heq ▸ List.mem_cons_self)
        · rcases ih h with hnew | hold
          · exact Or.inl hnew
          · exact Or.inr (List.mem_cons_of_mem x hold)

end Journal
