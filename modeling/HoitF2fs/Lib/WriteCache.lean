import Mathlib.Tactic

/-!
# Devices with volatile write caches

A completed write sits in the cache of its device until the device is flushed.  What is durable is
then a matter of history: of the order in which writes were completed and devices flushed.

* `Event` — a write is submitted, a write is completed, a device is flushed, or somebody makes a
  promise about what is durable.
* `FlushedSince` — every completed write of a kind has been followed by a flush of its device.
* `inFlight`, `unflushed` — the writes that are not yet completed, and the completed ones that their
  device may still lose.  `flushedSince_iff` says `FlushedSince` with these.
* `Promises` — every promise was true when it was made.

Histories have their **newest event first**.
-/

namespace WriteCache

variable {W D M : Type*}

/-- What happens to writes `W` on devices `D`, with promises `M`. -/
inductive Event (W D M : Type*) where
  | submitted (w : W)
  | completed (w : W)
  | flushed (d : D)
  | promised (m : M)
deriving DecidableEq

/-- The writes that have been submitted and not been completed. -/
def inFlight [DecidableEq W] : List (Event W D M) → List W
  | [] => []
  | .submitted w :: log => w :: inFlight log
  | .completed w :: log => (inFlight log).erase w
  | _ :: log => inFlight log

section Unflushed

variable (dev : W → D) [DecidableEq D]

/-- Each completed write for which `p` holds came before a flush of its device. -/
def FlushedSince (p : W → Prop) (log : List (Event W D M)) : Prop :=
  ∀ newer w older, log = newer ++ .completed w :: older → p w → .flushed (dev w) ∈ newer

/-- The completed writes whose device has not been flushed since. -/
def unflushed : List (Event W D M) → List W
  | [] => []
  | .completed w :: log => w :: unflushed log
  | .flushed d :: log => (unflushed log).filter fun w => dev w ≠ d
  | _ :: log => unflushed log

variable {dev}

@[simp] lemma unflushed_submitted (w : W) (log : List (Event W D M)) :
    unflushed dev (.submitted w :: log) = unflushed dev log := rfl

@[simp] lemma unflushed_promised (m : M) (log : List (Event W D M)) :
    unflushed dev (.promised m :: log) = unflushed dev log := rfl

/-- **A write is unflushed iff its device has seen no flush since it was completed.** -/
theorem mem_unflushed_iff {w : W} {log : List (Event W D M)} :
    w ∈ unflushed dev log
      ↔ ∃ newer older, log = newer ++ .completed w :: older ∧ .flushed (dev w) ∉ newer := by
  induction log with
  | nil => simp [unflushed]
  | cons e log ih =>
      -- An event that is neither the completion nor the flush is one more newer event.
      have hmore : (∃ newer older, e :: log = newer ++ .completed w :: older
            ∧ .flushed (dev w) ∉ newer)
          ↔ e = .completed w ∨ (w ∈ unflushed dev log ∧ e ≠ .flushed (dev w)) := by
        rw [ih]
        constructor
        · rintro ⟨newer, older, heq, hnot⟩
          cases newer with
          | nil => exact Or.inl (List.cons_eq_cons.mp heq).1
          | cons x newer =>
              obtain ⟨rfl, hlog⟩ := List.cons_eq_cons.mp heq
              rw [List.mem_cons, not_or] at hnot
              exact Or.inr ⟨⟨newer, older, hlog, hnot.2⟩, Ne.symm hnot.1⟩
        · rintro (rfl | ⟨⟨newer, older, rfl, hnot⟩, hne⟩)
          · exact ⟨[], log, rfl, List.not_mem_nil⟩
          · refine ⟨e :: newer, older, rfl, ?_⟩
            rw [List.mem_cons, not_or]
            exact ⟨Ne.symm hne, hnot⟩
      rw [hmore]
      cases e with
      | submitted v => simp
      | completed v => simp [unflushed, eq_comm]
      | flushed d =>
          have hother : (dev w ≠ d) ↔ Event.flushed (W := W) (M := M) d ≠ .flushed (dev w) := by
            rw [ne_comm, ne_eq, ne_eq, Event.flushed.injEq]
          rw [unflushed, List.mem_filter, decide_eq_true_eq, hother]
          simp
      | promised m => simp

theorem flushedSince_iff {p : W → Prop} {log : List (Event W D M)} :
    FlushedSince dev p log ↔ ∀ w ∈ unflushed dev log, ¬ p w := by
  constructor
  · intro h w hw hp
    obtain ⟨newer, older, heq, hnot⟩ := mem_unflushed_iff.mp hw
    exact hnot (h newer w older heq hp)
  · intro h newer w older heq hp
    by_contra hnot
    exact h w (mem_unflushed_iff.mpr ⟨newer, older, heq, hnot⟩) hp

/-! ## Several devices flushed -/

lemma mem_unflushed_flushes {w : W} {log : List (Event W D M)} :
    ∀ {ds : List D},
      w ∈ unflushed dev (ds.map .flushed ++ log) ↔ w ∈ unflushed dev log ∧ dev w ∉ ds
  | [] => by simp
  | d :: ds => by
      rw [List.map_cons, List.cons_append, unflushed, List.mem_filter,
        @mem_unflushed_flushes w log ds, List.mem_cons, not_or]
      simp only [decide_eq_true_eq]
      tauto

/-- Flushes make up for the writes on their devices, and for no others. -/
lemma flushedSince_flushes {p : W → Prop} {log : List (Event W D M)} {ds : List D} :
    FlushedSince dev p (ds.map .flushed ++ log)
      ↔ ∀ w ∈ unflushed dev log, p w → dev w ∈ ds := by
  rw [flushedSince_iff]
  constructor
  · intro h w hw hp
    by_contra hnot
    exact h w (mem_unflushed_flushes.mpr ⟨hw, hnot⟩) hp
  · intro h w hw hp
    obtain ⟨hw, hnot⟩ := mem_unflushed_flushes.mp hw
    exact hnot (h w hw hp)

end Unflushed

lemma inFlight_flushes [DecidableEq W] {log : List (Event W D M)} :
    ∀ ds : List D, inFlight (ds.map .flushed ++ log) = inFlight log
  | [] => rfl
  | _ :: ds => inFlight_flushes ds

/-! ## Promises -/

/-- Every promise of the history was true of the history before it. -/
def Promises (holds : M → List (Event W D M) → Prop) : List (Event W D M) → Prop
  | [] => True
  | .promised m :: log => holds m log ∧ Promises holds log
  | _ :: log => Promises holds log

variable {holds : M → List (Event W D M) → Prop} {log : List (Event W D M)}

@[simp] lemma promises_submitted (w : W) :
    Promises holds (.submitted w :: log) ↔ Promises holds log := Iff.rfl

@[simp] lemma promises_completed (w : W) :
    Promises holds (.completed w :: log) ↔ Promises holds log := Iff.rfl

lemma promises_submits : ∀ ws : List W,
    Promises holds (ws.map .submitted ++ log) ↔ Promises holds log
  | [] => Iff.rfl
  | _ :: ws => promises_submits ws

lemma promises_flushes : ∀ ds : List D,
    Promises holds (ds.map .flushed ++ log) ↔ Promises holds log
  | [] => Iff.rfl
  | _ :: ds => promises_flushes ds

/-- Promises made together, when none of them bears on the truth of another. -/
lemma promises_promises (hsame : ∀ m n log, holds m (.promised n :: log) ↔ holds m log) :
    ∀ ms : List M,
      Promises holds (ms.map .promised ++ log) ↔ (∀ m ∈ ms, holds m log) ∧ Promises holds log
  | [] => by simp
  | m :: ms => by
      have hthrough : ∀ ns : List M, holds m (ns.map .promised ++ log) ↔ holds m log := by
        intro ns
        induction ns with
        | nil => rfl
        | cons n ns ih => rw [List.map_cons, List.cons_append, hsame, ih]
      rw [List.map_cons, List.cons_append, Promises, hthrough, promises_promises hsame ms,
        List.forall_mem_cons, and_assoc]

end WriteCache
