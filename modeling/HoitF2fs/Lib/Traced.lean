import Mathlib.Data.List.Range

/-!
# Computations and what they touch

A computation over a memory of which only the first `size` positions are there, with the positions
that it has touched.

* `Traced.pure`, `Traced.bind`, `Traced.touch` — how computations are put together.
* `Traced.Ends` — a computation comes to a result with some property and stays inside;
  `Ends.bind` is the rule for two after another, and `Ends.left`, `Ends.right` take them apart.
-/

/-- What a computation comes to, if it comes to anything, and what it has touched. -/
structure Traced (α : Type) where
  result : Option α
  tested : List ℕ

namespace Traced

variable {α β : Type} {size size' off len : ℕ} {post : α → Prop} {post' : β → Prop}

def pure (a : α) : Traced α := ⟨some a, []⟩

def bind (x : Traced α) (f : α → Traced β) : Traced β :=
  match x.result with
  | none => ⟨none, x.tested⟩
  | some a => ⟨(f a).result, x.tested ++ (f a).tested⟩

/-- `len` positions from `off` on. -/
def touch (off len : ℕ) : Traced Unit := ⟨some (), List.range' off len⟩

/-- The computation comes to a result with the property, and stays inside. -/
structure Ends (size : ℕ) (post : α → Prop) (x : Traced α) : Prop where
  result : ∃ a, x.result = some a ∧ post a
  inside : ∀ i ∈ x.tested, i < size

/-! ## The rules -/

lemma Ends.pure {a : α} (h : post a) : (pure a).Ends size post where
  result := ⟨a, rfl, h⟩
  inside := by simp [Traced.pure]

lemma Ends.bind {x : Traced α} {f : α → Traced β} (hx : x.Ends size post)
    (hf : ∀ a, post a → (f a).Ends size post') : (x.bind f).Ends size post' := by
  obtain ⟨⟨a, ha, hpost⟩, hin⟩ := hx
  obtain ⟨⟨b, hb, hpost'⟩, hin'⟩ := hf a hpost
  simp only [Traced.bind, ha]
  refine ⟨⟨b, hb, hpost'⟩, fun i hi => ?_⟩
  rcases List.mem_append.mp hi with hi | hi
  · exact hin i hi
  · exact hin' i hi

/-- What comes first only fixes a value. -/
lemma Ends.pure_bind {a : α} {f : α → Traced β} (h : (f a).Ends size post') :
    ((Traced.pure a).bind f).Ends size post' where
  result := h.result
  inside := h.inside

lemma Ends.touch (h : off + len ≤ size) : (touch off len).Ends size fun _ => True where
  result := ⟨(), rfl, trivial⟩
  inside := by
    intro i hi
    have hlt := (List.mem_range'_1.mp hi).2
    omega

lemma Ends.mono {x : Traced α} {post' : α → Prop} (hx : x.Ends size post) (hsize : size ≤ size')
    (hpost : ∀ a, post a → post' a) : x.Ends size' post' where
  result := hx.result.imp fun a ha => ⟨ha.1, hpost a ha.2⟩
  inside := fun i hi => (hx.inside i hi).trans_le hsize

/-- What is known of a result, together with where it comes from. -/
lemma Ends.self {x : Traced α} (hx : x.Ends size post) :
    x.Ends size fun a => post a ∧ x.result = some a where
  result := hx.result.imp fun _ ha => ⟨ha.1, ha.2, ha.1⟩
  inside := hx.inside

/-- Of two computations that stay inside, the first one does. -/
lemma Ends.left {x : Traced α} {f : α → Traced β} (h : (x.bind f).Ends size post') :
    ∃ a, x.result = some a ∧ x.Ends size fun b => b = a := by
  obtain ⟨⟨b, hb, -⟩, hin⟩ := h
  cases hx : x.result with
  | none => simp [Traced.bind, hx] at hb
  | some a =>
      refine ⟨a, rfl, ⟨a, hx, rfl⟩, fun i hi => hin i ?_⟩
      simp only [Traced.bind, hx]
      exact List.mem_append_left _ hi

/-- And so does the second one. -/
lemma Ends.right {x : Traced α} {f : α → Traced β} (h : (x.bind f).Ends size post') {a : α}
    (hx : x.result = some a) : (f a).Ends size post' := by
  obtain ⟨⟨b, hb, hpost⟩, hin⟩ := h
  simp only [Traced.bind, hx] at hb hin
  exact ⟨⟨b, hb, hpost⟩, fun i hi => hin i (List.mem_append_right _ hi)⟩

lemma Ends.touch_le {post : Unit → Prop} (h : (Traced.touch off len).Ends size post)
    (hlen : 0 < len) : off + len ≤ size := by
  have hlast := h.inside (off + len - 1) (List.mem_range'_1.mpr ⟨by omega, by omega⟩)
  omega

/-- What a computation comes to when it is composed. -/
lemma bind_result {x : Traced α} {f : α → Traced β} {b : β} (h : (x.bind f).result = some b) :
    ∃ a, x.result = some a ∧ (f a).result = some b := by
  cases hx : x.result with
  | none => simp [Traced.bind, hx] at h
  | some a => exact ⟨a, rfl, by simpa [Traced.bind, hx] using h⟩

end Traced
