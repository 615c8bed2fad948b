import HoitF2fs.Lib.ByteStore
import Mathlib.Data.List.GetD

/-!
# Lists of bytes in an area

An area `Has` a list of bytes at an offset when the list stands there, and it `Holds` the list when
everything after it is zero.  What the block operations of C do to such an area is then an operation
on the list:

* `Holds.skip` — what comes after a part of the list is held further on.
* `Holds.remove` — a part is taken out with `memmove`, and what is left over at the end is cleared.
* `Holds.append` — new bytes are stored at the end.
* `Has.read` — a part is read back.
-/

namespace ByteStore

/-- `memcpy`, and `memmove` when the two areas are the same. -/
def memcpy (a : Area) (dst : ℕ) (b : Area) (src n : ℕ) : Area :=
  Patch.apply a { off := dst, len := n, byte := fun k => b (src + k) }

/-- `memset` with zero. -/
def clear (a : Area) (dst n : ℕ) : Area :=
  Patch.apply a { off := dst, len := n, byte := fun _ => 0 }

/-- A list of bytes is stored. -/
def storeList (a : Area) (dst : ℕ) (l : List Byte) : Area :=
  Patch.apply a { off := dst, len := l.length, byte := fun k => l.getD k 0 }

/-- The bytes from `off` on. -/
def slice (a : Area) (off n : ℕ) : List Byte := (List.range n).map fun k => a (off + k)

/-- The list stands at `off`. -/
def Has (a : Area) (off : ℕ) (l : List Byte) : Prop := ∀ k < l.length, a (off + k) = l.getD k 0

/-- The list stands at `off`, and there are only zeros after it. -/
def Holds (a : Area) (off : ℕ) (l : List Byte) : Prop := ∀ k, a (off + k) = l.getD k 0

variable {a b : Area} {dst src n off x : ℕ} {l l₁ l₂ l₃ : List Byte}

lemma memcpy_in (h : dst ≤ x) (hx : x < dst + n) : memcpy a dst b src n x = b (src + (x - dst)) :=
  Patch.apply_of_covers ⟨h, hx⟩

lemma memcpy_out (h : x < dst ∨ dst + n ≤ x) : memcpy a dst b src n x = a x :=
  Patch.apply_of_not_covers fun hc => by
    obtain ⟨h1, h2⟩ := hc
    simp only at h1 h2
    omega

lemma clear_in (h : dst ≤ x) (hx : x < dst + n) : clear a dst n x = 0 :=
  Patch.apply_of_covers ⟨h, hx⟩

lemma clear_out (h : x < dst ∨ dst + n ≤ x) : clear a dst n x = a x :=
  Patch.apply_of_not_covers fun hc => by
    obtain ⟨h1, h2⟩ := hc
    simp only at h1 h2
    omega

lemma storeList_in (h : dst ≤ x) (hx : x < dst + l.length) :
    storeList a dst l x = l.getD (x - dst) 0 :=
  Patch.apply_of_covers ⟨h, hx⟩

lemma storeList_out (h : x < dst ∨ dst + l.length ≤ x) : storeList a dst l x = a x :=
  Patch.apply_of_not_covers fun hc => by
    obtain ⟨h1, h2⟩ := hc
    simp only at h1 h2
    omega

@[simp] lemma length_slice : (slice a off n).length = n := by simp [slice]

namespace Has

lemma congr (h : Has a off l) (heq : ∀ x, off ≤ x → x < off + l.length → b x = a x) : Has b off l :=
  fun k hk => (heq (off + k) (Nat.le_add_right off k) (Nat.add_lt_add_left hk off)).trans (h k hk)

lemma left (h : Has a off (l₁ ++ l₂)) : Has a off l₁ := by
  intro k hk
  rw [h k (by rw [List.length_append]; omega), List.getD_append _ _ _ _ hk]

lemma right (h : Has a off (l₁ ++ l₂)) : Has a (off + l₁.length) l₂ := by
  intro k hk
  rw [Nat.add_assoc, h _ (by rw [List.length_append]; omega),
    List.getD_append_right _ _ _ _ (Nat.le_add_right _ _), Nat.add_sub_cancel_left]

lemma read (h : Has a off l) : slice a off l.length = l := by
  refine List.ext_getElem (by simp) fun k hk hk' => ?_
  simp only [slice, List.getElem_map, List.getElem_range]
  rw [h k hk', List.getD_eq_getElem _ _ hk']

end Has

namespace Holds

lemma congr (h : Holds a off l) (heq : ∀ x, off ≤ x → b x = a x) : Holds b off l :=
  fun k => (heq (off + k) (Nat.le_add_right off k)).trans (h k)

/-- There are zeros after the list. -/
lemma zero (h : Holds a off l) (hx : off + l.length ≤ x) : a x = 0 := by
  obtain ⟨k, rfl⟩ := Nat.exists_eq_add_of_le (Nat.le_of_add_right_le hx)
  rw [h k, List.getD_eq_default _ _ (by omega)]

lemma skip (h : Holds a off (l₁ ++ l₂)) : Holds a (off + l₁.length) l₂ := by
  intro k
  rw [Nat.add_assoc, h, List.getD_append_right _ _ _ _ (Nat.le_add_right _ _),
    Nat.add_sub_cancel_left]

lemma has (h : Holds a off (l₁ ++ l₂)) : Has a off l₁ := by
  intro k hk
  rw [h, List.getD_append _ _ _ _ hk]

/-- Zeros at the end are there already. -/
lemma pad (h : Holds a off l) (n : ℕ) : Holds a off (l ++ List.replicate n 0) := by
  intro k
  rw [h]
  by_cases hk : k < l.length
  · rw [List.getD_append _ _ _ _ hk]
  · rw [List.getD_eq_default _ _ (by omega), List.getD_append_right _ _ _ _ (by omega),
      List.getD_eq_getElem?_getD, List.getElem?_getD_replicate_default_eq]

/-- **A part of the list is taken out.** -/
lemma remove (h : Holds a off (l₁ ++ l₂ ++ l₃)) :
    Holds (clear (memcpy a (off + l₁.length) a (off + l₁.length + l₂.length) l₃.length)
      (off + l₁.length + l₃.length) l₂.length) off (l₁ ++ l₃) := by
  have hthird : Holds a (off + l₁.length + l₂.length) l₃ := by
    have hskip := h.skip
    rwa [List.length_append, ← Nat.add_assoc] at hskip
  intro k
  by_cases h1 : k < l₁.length
  · rw [clear_out (by omega), memcpy_out (by omega), List.getD_append _ _ _ _ h1]
    rw [List.append_assoc] at h
    exact h.has k h1
  by_cases h2 : k < l₁.length + l₃.length
  · rw [clear_out (by omega), memcpy_in (by omega) (by omega),
      List.getD_append_right _ _ _ _ (by omega), ← hthird]
    congr 1
    omega
  rw [List.getD_eq_default _ _ (by rw [List.length_append]; omega)]
  by_cases h3 : k < l₁.length + l₃.length + l₂.length
  · exact clear_in (by omega) (by omega)
  · rw [clear_out (by omega), memcpy_out (by omega)]
    exact h.zero (by simp only [List.length_append]; omega)

/-- **New bytes at the end.** -/
lemma append (h : Holds a off l₁) (l₂ : List Byte) :
    Holds (storeList a (off + l₁.length) l₂) off (l₁ ++ l₂) := by
  intro k
  by_cases h1 : k < l₁.length
  · rw [storeList_out (by omega), h, List.getD_append _ _ _ _ h1]
  rw [List.getD_append_right _ _ _ _ (by omega)]
  by_cases h2 : k < l₁.length + l₂.length
  · rw [storeList_in (by omega) (by omega)]
    congr 1
    omega
  · rw [storeList_out (by omega), List.getD_eq_default _ _ (by omega)]
    exact h.zero (by omega)

end Holds

end ByteStore
