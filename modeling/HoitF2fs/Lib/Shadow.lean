import Mathlib.Tactic

/-!
# Shadow pages

Every page has two copies on a device, and one bit of a version map says which of the two is
current.  `addr v p` is the address of copy `v` of page `p`.

* `readCurrent` reads the copy that the version map selects.
* `writeNext` flips the bit of a page and writes the copy that the flipped bit selects.
* `writeAll` does this for a list of pages.
* `writeCurrent` changes the current copy of a page.

`writeAll_read` says what is read back afterwards.
-/

namespace Shadow

variable {P : Type*} (addr : Bool → ℕ → ℕ)

/-- The two copies of the pages below `n` are at pairwise different addresses. -/
def Separate (n : ℕ) : Prop :=
  ∀ {v w : Bool} {p q : ℕ}, p < n → q < n → addr v p = addr w q → v = w ∧ p = q

structure Pages (P : Type*) where
  ver : ℕ → Bool
  dev : ℕ → P

/-- Page `p` as the version map `ver` selects it. -/
def readWith (ver : ℕ → Bool) (dev : ℕ → P) (p : ℕ) : P := dev (addr (ver p) p)

def readCurrent (x : Pages P) (p : ℕ) : P := readWith addr x.ver x.dev p

/-- Write `c` to the copy of page `p` that is not current, and make it current. -/
def writeNext (x : Pages P) (p : ℕ) (c : P) : Pages P where
  ver := Function.update x.ver p (!x.ver p)
  dev := Function.update x.dev (addr (!x.ver p) p) c

/-- Write `c` to the current copy of page `p`. -/
def writeCurrent (x : Pages P) (p : ℕ) (c : P) : Pages P :=
  { x with dev := Function.update x.dev (addr (x.ver p) p) c }

def writeAll (c : ℕ → P) (x : Pages P) (ps : List ℕ) : Pages P :=
  ps.foldl (fun x p => writeNext addr x p (c p)) x

section

variable {addr} {n : ℕ} {c : ℕ → P} {x : Pages P} {ps : List ℕ} {p q : ℕ}

@[simp] lemma writeAll_nil : writeAll addr c x [] = x := rfl

@[simp] lemma writeAll_cons :
    writeAll addr c x (p :: ps) = writeAll addr c (writeNext addr x p (c p)) ps := rfl

/-- The bits of the written pages are flipped, the others are not. -/
lemma writeAll_ver (hnd : ps.Nodup) (q : ℕ) :
    (writeAll addr c x ps).ver q = if q ∈ ps then !x.ver q else x.ver q := by
  induction ps generalizing x with
  | nil => simp
  | cons p ps ih =>
      obtain ⟨hp, hnd⟩ := List.nodup_cons.mp hnd
      rw [writeAll_cons, ih hnd]
      by_cases hq : q = p
      · subst hq
        simp [writeNext, hp]
      · simp [writeNext, hq]

/-- An address that no write is sent to keeps its contents. -/
lemma writeAll_dev_of_ne (hnd : ps.Nodup) {b : ℕ} (hb : ∀ p ∈ ps, addr (!x.ver p) p ≠ b) :
    (writeAll addr c x ps).dev b = x.dev b := by
  induction ps generalizing x with
  | nil => rfl
  | cons p ps ih =>
      obtain ⟨hp, hnd⟩ := List.nodup_cons.mp hnd
      rw [writeAll_cons, ih hnd]
      · exact Function.update_of_ne (hb p List.mem_cons_self).symm _ _
      · intro q hq
        have hqp : q ≠ p := fun h => hp (h ▸ hq)
        have hver : (writeNext addr x p (c p)).ver q = x.ver q := Function.update_of_ne hqp _ _
        rw [hver]
        exact hb q (List.mem_cons_of_mem p hq)

/-- **Reading back**: the written pages hold what was written, the others what they held. -/
lemma writeAll_read (hsep : Separate addr n) (hnd : ps.Nodup) (hps : ∀ p ∈ ps, p < n)
    (hq : q < n) :
    readCurrent addr (writeAll addr c x ps) q = if q ∈ ps then c q else readCurrent addr x q := by
  induction ps generalizing x with
  | nil => simp
  | cons p ps ih =>
      obtain ⟨hp, hnd⟩ := List.nodup_cons.mp hnd
      have hpn := hps p List.mem_cons_self
      rw [writeAll_cons, ih hnd fun r hr => hps r (List.mem_cons_of_mem p hr)]
      by_cases hqp : q = p
      · subst hqp
        simp [hp, readCurrent, readWith, writeNext]
      · have hne : addr (x.ver q) q ≠ addr (!x.ver p) p := fun h => hqp (hsep hq hpn h).2
        simp [hqp, readCurrent, readWith, writeNext, hne]

lemma writeNext_read (hsep : Separate addr n) {d : P} (hp : p < n) (hq : q < n) :
    readCurrent addr (writeNext addr x p d) q = if q = p then d else readCurrent addr x q := by
  have hread := writeAll_read (c := fun _ => d) (x := x) hsep (List.nodup_singleton p)
    (by simpa using hp) hq
  simpa using hread

lemma writeCurrent_read (hsep : Separate addr n) {d : P} (hp : p < n) (hq : q < n) :
    readCurrent addr (writeCurrent addr x p d) q = if q = p then d else readCurrent addr x q := by
  by_cases hqp : q = p
  · subst hqp
    simp [readCurrent, readWith, writeCurrent]
  · have hne : addr (x.ver q) q ≠ addr (x.ver p) p := fun h => hqp (hsep hq hp h).2
    simp [hqp, readCurrent, readWith, writeCurrent, hne]

end

end Shadow
