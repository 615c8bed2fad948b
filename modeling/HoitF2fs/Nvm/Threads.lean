import HoitF2fs.Lib.Transition
import HoitF2fs.Nvm.Accounting

/-!
# Interleavings of the segment layer

Any number of threads run `new_curseg` and `hot_to_nvm`, step by step, while other contexts free
SSD segments (`__set_test_and_free`), drop mappings (`do_garbage_collect`, `cold_to_ssd`) and set
the double flag (`set_double`).

What one step is follows the locks.  A critical section of a spin lock is **one** step.  Between
two critical sections, and at every read that is made without a lock, the thread can be
interrupted, and what it has read so far is part of its program counter `Pc`:

* `nvm_allocate_segment` reads `cur_alloc_nvm_segoff` before it takes `segment_map_lock`;
* `new_curseg` creates its mapping after it has dropped `segment_map_lock`;
* `get_min_k` reads the table without any lock, and `hot_to_nvm` acts on the result much later;
* `hot_to_nvm` re-checks and creates its mapping under `segmap_lock`, in two steps because
  `create_mapping` takes `mpt_lock` of its own.

Two results come out of it.  `accounting_throughout`: the accounting holds in every state of
every run.  `bijection_iff_fresh_mapping`: the bijection holds throughout a run **iff** each
`create_mapping` of the run finds the SSD segment unmapped and in use — which the re-check of
`hot_to_nvm` does not establish, as `bijection_broken` shows.
-/

namespace Hoit

open Bitmap Transition

variable (g : Geometry)

/-! ## Program counters -/

/-- Who called `nvm_allocate_segment`: `new_curseg`, which wants a mapping, or `hot_to_nvm` with
the segments it has still to move. -/
inductive Job where
  | curseg
  | hot (todo : List ℕ)
deriving DecidableEq

/-- Where a thread stands.  `bug` is a failed assertion, `hung` the endless search. -/
inductive Pc where
  | idle
  | newCurseg (s : ℕ)
  | scanning (heap : List ℕ)
  | hotLoop (todo : List ℕ)
  | allocating (s start : ℕ) (job : Job)
  | mapping (s n : ℕ)
  | copying (s n : ℕ) (todo : List ℕ)
  | rechecked (s n : ℕ) (todo : List ℕ)
  | releasing (n : ℕ) (todo : List ℕ)
  | bug
  | hung
deriving DecidableEq

/-- The NVM segment a thread holds: allocated, not yet mapped or released. -/
def Pc.held : Pc → Option ℕ
  | .mapping _ n => some n
  | .copying _ n _ => some n
  | .rechecked _ n _ => some n
  | .releasing n _ => some n
  | _ => none

/-- The SSD segments a thread is going to use. -/
def Pc.segments : Pc → List ℕ
  | .newCurseg s => [s]
  | .scanning heap => heap
  | .hotLoop todo => todo
  | .allocating s _ .curseg => [s]
  | .allocating s _ (.hot todo) => s :: todo
  | .mapping s _ => [s]
  | .copying s _ todo => s :: todo
  | .rechecked s _ todo => s :: todo
  | .releasing _ todo => todo
  | _ => []

/-- Memory, the holder of `segmap_lock` while it is held across steps, and the threads. -/
structure SegState where
  nsbi : NvmSbInfo
  freeI : FreeSegmapInfo
  segmapLock : Option ℕ
  pc : ℕ → Pc

def SegState.held (x : SegState) (t : ℕ) : Option ℕ := (x.pc t).held

def SegState.goto (x : SegState) (t : ℕ) (p : Pc) : SegState :=
  { x with pc := Function.update x.pc t p }

/-! ## Steps -/

/-- The labels.  A number `t` is the thread that moves; `free`, `unset` and `double` are complete
critical sections of any other context. -/
inductive SegStep where
  /-- `get_new_segment` in `new_curseg`: a free segment is marked in use. -/
  | pick (t s : ℕ)
  /-- `hot_to_nvm` starts to look for hot segments. -/
  | startScan (t : ℕ)
  /-- `get_min_k` sees that segment `s` is unmapped and puts it into the heap. -/
  | scan (t s : ℕ)
  /-- The heap is complete; which candidates stayed in it depends on the LFU counts. -/
  | endScan (t : ℕ) (todo : List ℕ)
  /-- The next segment is skipped (`sec_usage_check`, `nvm_alloc`), or nothing is left to do. -/
  | skip (t : ℕ)
  /-- `nvm_allocate_segment` is entered: `cur_alloc_nvm_segoff` is read. -/
  | enter (t : ℕ)
  /-- The critical section of `nvm_allocate_segment`. -/
  | lockAlloc (t : ℕ)
  /-- `do_hot_to_nvm` is done, `segmap_lock` is taken and the two tests are made. -/
  | recheck (t : ℕ)
  /-- `create_mapping`. -/
  | create (t : ℕ)
  /-- The release of `hot_to_nvm`. -/
  | release (t : ℕ)
  /-- `__set_test_and_free` of segment `s`. -/
  | free (s : ℕ)
  /-- `unset_mapping` of segment `s`, by garbage collection or cold migration. -/
  | unset (s : ℕ)
  /-- `set_double` of segment `s`, by cold migration. -/
  | double (s : ℕ)
deriving DecidableEq

/-- Where `nvm_allocate_segment` returns to with segment `n`. -/
def Job.return (s n : ℕ) : Job → Pc
  | .curseg => .mapping s n
  | .hot todo => .copying s n todo

/-- The SSD segment, the NVM segment, the flags and the continuation of the `create_mapping` a
thread is about to make. -/
def Pc.pending : Pc → Option (ℕ × ℕ × BitVec 32 × Pc)
  | .mapping s n => some (s, n, rwMap ||| rwRedirect, .idle)
  | .rechecked s n todo => some (s, n, rwMap ||| rwRedirect ||| rwDouble, .hotLoop todo)
  | _ => none

def segStep (x : SegState) : SegStep → Option SegState
  | .pick t s =>
      if x.pc t = .idle ∧ x.segmapLock = none ∧ s < g.segmentCountMain ∧
          x.freeI.freeSegmap s = false then
        some { x with
          nsbi := (setInuse g x.nsbi x.freeI s).1
          freeI := (setInuse g x.nsbi x.freeI s).2
          pc := Function.update x.pc t (.newCurseg s) }
      else none
  | .startScan t => if x.pc t = .idle then some (x.goto t (.scanning [])) else none
  | .scan t s =>
      match x.pc t with
      | .scanning heap =>
          if s < g.segmentCountMain ∧ getMapFlag x.nsbi.mpt (g.ssdIndex s) = false then
            some (x.goto t (.scanning (s :: heap)))
          else none
      | _ => none
  | .endScan t todo =>
      match x.pc t with
      | .scanning heap => if todo ⊆ heap then some (x.goto t (.hotLoop todo)) else none
      | _ => none
  | .skip t =>
      match x.pc t with
      | .newCurseg _ => some (x.goto t .idle)
      | .hotLoop (_ :: todo) => some (x.goto t (.hotLoop todo))
      | .hotLoop [] => some (x.goto t .idle)
      | _ => none
  | .enter t =>
      match x.pc t with
      | .newCurseg s => some (x.goto t (.allocating s x.nsbi.curAllocNvmSegoff .curseg))
      | .hotLoop (s :: todo) =>
          some (x.goto t (.allocating s x.nsbi.curAllocNvmSegoff (.hot todo)))
      | _ => none
  | .lockAlloc t =>
      match x.pc t with
      | .allocating s start job =>
          match nvmAllocateSegmentLocked g x.nsbi start with
          -- `new_curseg` ignores the failure, `hot_to_nvm` stops
          | .noSpace => some (x.goto t .idle)
          | .bugOn => some (x.goto t .bug)
          | .hang => some (x.goto t .hung)
          | .ok nsbi n => some { x with nsbi, pc := Function.update x.pc t (job.return s n) }
      | _ => none
  | .recheck t =>
      match x.pc t with
      | .copying s n todo =>
          if x.segmapLock = none then
            if x.freeI.freeSegmap s then
              if getMapFlag x.nsbi.mpt n then some (x.goto t (.releasing n []))
              else some { x.goto t (.rechecked s n todo) with segmapLock := some t }
            else some (x.goto t (.releasing n todo))
          else none
      | _ => none
  | .create t =>
      match (x.pc t).pending with
      | some (s, n, flag, next) =>
          some { x with
            nsbi := createMapping g x.nsbi s n flag
            segmapLock := if x.segmapLock = some t then none else x.segmapLock
            pc := Function.update x.pc t next }
      | none => none
  | .release t =>
      match x.pc t with
      | .releasing n todo =>
          some { x with
            nsbi := releaseSegment x.nsbi n
            pc := Function.update x.pc t (.hotLoop todo) }
      | _ => none
  | .free s =>
      if x.segmapLock = none ∧ s < g.segmentCountMain then
        some { x with
          nsbi := (setTestAndFree g x.nsbi x.freeI s).1
          freeI := (setTestAndFree g x.nsbi x.freeI s).2 }
      else none
  | .unset s =>
      if s < g.segmentCountMain then some { x with nsbi := unsetMapping g x.nsbi s } else none
  | .double s =>
      if s < g.segmentCountMain then some { x with nsbi := setDouble g x.nsbi s } else none

/-- The state after a first mount: an empty table, every NVM segment free, and whatever SSD
segments the file system already uses. -/
def mountState (freeI : FreeSegmapInfo) : SegState where
  nsbi :=
    { mpt := fun _ => 0#32
      mptDirtyMap := fun _ => false
      nvmFlag := 0#16
      segmentMap := fun _ => false
      ckptSegmentMap := fun _ => false
      mainSegmentFreeNums := g.mainSegmentNums
      curAllocNvmSegoff := 0
      nowLfuCounter := 0
      lfuCount := fun _ _ => -1 }
  freeI := freeI
  segmapLock := none
  pc := fun _ => .idle

/-! ## What one step can do -/

/-- The condition of the exact theorem: a `create_mapping` that is about to run finds the SSD
segment unmapped and in use.  Other steps are unconstrained. -/
def MappingFresh (x : SegState) : SegStep → Prop
  | .create t => ∀ s n flag next, (x.pc t).pending = some (s, n, flag, next) →
      getMapFlag x.nsbi.mpt (g.ssdIndex s) = false ∧ x.freeI.freeSegmap s = true
  | _ => True

/-- **Everything a step can do** to the table, the bitmap, the counter, the free segments and the
held segments. -/
inductive SegEffect (g : Geometry) (x : SegState) (a : SegStep) (x' : SegState) : Prop
  /-- Nothing, except that SSD segments may have come into use. -/
  | quiet (hgood : MappingFresh g x a) (hmpt : x'.nsbi.mpt = x.nsbi.mpt)
      (hmap : x'.nsbi.segmentMap = x.nsbi.segmentMap)
      (hfree : x'.nsbi.mainSegmentFreeNums = x.nsbi.mainSegmentFreeNums)
      (hckpt : x'.nsbi.ckptSegmentMap = x.nsbi.ckptSegmentMap) (hheld : x'.held = x.held)
      (hinuse : ∀ s, x'.freeI.freeSegmap s = false → x.freeI.freeSegmap s = false)
  /-- A thread allocates a segment and holds it. -/
  | took (t n start : ℕ) (hgood : MappingFresh g x a) (hnone : x.held t = none)
      (hal : nvmAllocateSegmentLocked g x.nsbi start = .ok x'.nsbi n)
      (hheld : x'.held = Function.update x.held t (some n)) (hfreeI : x'.freeI = x.freeI)
  /-- A thread maps the segment it holds. -/
  | mapped (t s n : ℕ) (flag : BitVec 32) (hflag : IsMapFlag flag)
      (hgood : MappingFresh g x a ↔
        getMapFlag x.nsbi.mpt (g.ssdIndex s) = false ∧ x.freeI.freeSegmap s = true)
      (hsome : x.held t = some n) (hs : s < g.segmentCountMain)
      (hnsbi : x'.nsbi = createMapping g x.nsbi s n flag)
      (hheld : x'.held = Function.update x.held t none) (hfreeI : x'.freeI = x.freeI)
  /-- A thread releases the segment it holds. -/
  | gave (t n : ℕ) (hgood : MappingFresh g x a) (hsome : x.held t = some n)
      (hnsbi : x'.nsbi = releaseSegment x.nsbi n)
      (hheld : x'.held = Function.update x.held t none) (hfreeI : x'.freeI = x.freeI)
  /-- A mapping is dropped, and its SSD segment may have been freed. -/
  | dropped (s : ℕ) (hgood : MappingFresh g x a) (hs : s < g.segmentCountMain)
      (hmpt : x'.nsbi.mpt = (unsetMapping g x.nsbi s).mpt)
      (hmap : x'.nsbi.segmentMap = (unsetMapping g x.nsbi s).segmentMap)
      (hfree : x'.nsbi.mainSegmentFreeNums = (unsetMapping g x.nsbi s).mainSegmentFreeNums)
      (hckpt : x'.nsbi.ckptSegmentMap = x.nsbi.ckptSegmentMap) (hheld : x'.held = x.held)
      (hfreeI : ∀ s', x'.freeI.freeSegmap s' = false → s' = s ∨ x.freeI.freeSegmap s' = false)
  /-- A pair is marked as double. -/
  | doubled (s : ℕ) (hgood : MappingFresh g x a) (hs : s < g.segmentCountMain)
      (hnsbi : x'.nsbi = setDouble g x.nsbi s) (hheld : x'.held = x.held)
      (hfreeI : x'.freeI = x.freeI)

variable {g}

lemma held_goto (x : SegState) (t : ℕ) (p : Pc) :
    (x.goto t p).held = Function.update x.held t p.held := by
  funext t'
  rcases eq_or_ne t' t with rfl | hne
  · simp [SegState.held, SegState.goto]
  · simp [SegState.held, SegState.goto, hne]

lemma held_goto_same {x : SegState} {t : ℕ} {p q : Pc} (hp : x.pc t = p)
    (hq : q.held = p.held) : (x.goto t q).held = x.held := by
  have ht : x.held t = p.held := by rw [SegState.held, hp]
  rw [held_goto, hq, ← ht, Function.update_eq_self]

/-- Moving between two points that hold the same segment is quiet. -/
lemma quiet_goto {x : SegState} {a : SegStep} {t : ℕ} {p q : Pc} (hgood : MappingFresh g x a)
    (hp : x.pc t = p) (hq : q.held = p.held) : SegEffect g x a (x.goto t q) :=
  .quiet hgood rfl rfl rfl rfl (held_goto_same hp hq) (fun _ hs => hs)

/-- What the pending `create_mapping` of a thread is made of. -/
lemma pending_spec {p next : Pc} {s n : ℕ} {flag : BitVec 32}
    (h : p.pending = some (s, n, flag, next)) :
    p.held = some n ∧ s ∈ p.segments ∧ IsMapFlag flag ∧ next.held = none ∧
      next.segments ⊆ p.segments ∧ next ≠ .bug ∧ next ≠ .hung := by
  cases p with
  | mapping s' n' =>
      simp only [Pc.pending, Option.some.injEq, Prod.mk.injEq] at h
      obtain ⟨rfl, rfl, rfl, rfl⟩ := h
      exact ⟨rfl, by simp [Pc.segments], by decide, rfl, by simp [Pc.segments], by simp,
        by simp⟩
  | rechecked s' n' todo =>
      simp only [Pc.pending, Option.some.injEq, Prod.mk.injEq] at h
      obtain ⟨rfl, rfl, rfl, rfl⟩ := h
      exact ⟨rfl, by simp [Pc.segments], by decide, rfl, by simp [Pc.segments], by simp,
        by simp⟩
  | _ => simp [Pc.pending] at h

lemma setTestAndFree_eq_unset (g : Geometry) (nsbi : NvmSbInfo) (freeI : FreeSegmapInfo) (s : ℕ) :
    (setTestAndFree g nsbi freeI s).1.mpt = (unsetMapping g nsbi s).mpt ∧
      (setTestAndFree g nsbi freeI s).1.segmentMap = (unsetMapping g nsbi s).segmentMap ∧
      (setTestAndFree g nsbi freeI s).1.mainSegmentFreeNums
        = (unsetMapping g nsbi s).mainSegmentFreeNums ∧
      (setTestAndFree g nsbi freeI s).1.ckptSegmentMap = nsbi.ckptSegmentMap := by
  simp only [setTestAndFree]
  split
  · exact ⟨rfl, rfl, rfl, unsetMapping_ckptSegmentMap nsbi s⟩
  · rename_i h
    rw [unsetMapping_of_unmapped (Bool.not_eq_true _ ▸ h)]
    exact ⟨rfl, rfl, rfl, rfl⟩

/-- The SSD segments a thread works on are segments of the MAIN area, and it has run neither into
an assertion nor into the endless search. -/
def Pc.Ok (g : Geometry) (p : Pc) : Prop :=
  (∀ s ∈ p.segments, s < g.segmentCountMain) ∧ p ≠ .bug ∧ p ≠ .hung

/-- **The inversion lemma**: the case split over the labels is made here, once. -/
theorem segStep_effect {x x' : SegState} {a : SegStep} (hok : ∀ t, (x.pc t).Ok g)
    (h : segStep g x a = some x') : SegEffect g x a x' := by
  cases a with
  | pick t s =>
      simp only [segStep] at h
      split at h
      · rename_i hc
        obtain rfl := Option.some.inj h
        refine .quiet trivial rfl rfl rfl rfl ?_ ?_
        · have hq : (Pc.newCurseg s).held = Pc.idle.held := rfl
          exact held_goto_same hc.1 hq
        · intro s' hs'
          have hne : s' ≠ s := by
            rintro rfl
            simp [setInuse] at hs'
          simpa [setInuse, hne] using hs'
      · exact absurd h (by simp)
  | startScan t =>
      simp only [segStep] at h
      split at h
      · rename_i hidle
        obtain rfl := Option.some.inj h
        exact quiet_goto trivial hidle rfl
      · exact absurd h (by simp)
  | scan t s =>
      simp only [segStep] at h
      split at h
      · rename_i heap hp
        split at h
        · obtain rfl := Option.some.inj h
          exact quiet_goto trivial hp rfl
        · exact absurd h (by simp)
      · exact absurd h (by simp)
  | endScan t todo =>
      simp only [segStep] at h
      split at h
      · rename_i heap hp
        split at h
        · obtain rfl := Option.some.inj h
          exact quiet_goto trivial hp rfl
        · exact absurd h (by simp)
      · exact absurd h (by simp)
  | skip t =>
      simp only [segStep] at h
      split at h
      · rename_i s hp
        obtain rfl := Option.some.inj h
        exact quiet_goto trivial hp rfl
      · rename_i s todo hp
        obtain rfl := Option.some.inj h
        exact quiet_goto trivial hp rfl
      · rename_i hp
        obtain rfl := Option.some.inj h
        exact quiet_goto trivial hp rfl
      · exact absurd h (by simp)
  | enter t =>
      simp only [segStep] at h
      split at h
      · rename_i s hp
        obtain rfl := Option.some.inj h
        exact quiet_goto trivial hp rfl
      · rename_i s todo hp
        obtain rfl := Option.some.inj h
        exact quiet_goto trivial hp rfl
      · exact absurd h (by simp)
  | lockAlloc t =>
      simp only [segStep] at h
      split at h
      · rename_i s start job hp
        split at h
        · obtain rfl := Option.some.inj h
          exact quiet_goto trivial hp rfl
        · obtain rfl := Option.some.inj h
          exact quiet_goto trivial hp rfl
        · obtain rfl := Option.some.inj h
          exact quiet_goto trivial hp rfl
        · rename_i nsbi n hal
          obtain rfl := Option.some.inj h
          refine .took t n start trivial (by rw [SegState.held, hp]; rfl) hal ?_ rfl
          have hret : (job.return s n).held = some n := by cases job <;> rfl
          rw [← hret]
          exact held_goto x t (job.return s n)
      · exact absurd h (by simp)
  | recheck t =>
      simp only [segStep] at h
      split at h
      · rename_i s n todo hp
        split at h
        · split at h
          · split at h
            · obtain rfl := Option.some.inj h
              exact quiet_goto trivial hp rfl
            · obtain rfl := Option.some.inj h
              have hq : (Pc.rechecked s n todo).held = (Pc.copying s n todo).held := rfl
              exact .quiet trivial rfl rfl rfl rfl (held_goto_same hp hq) (fun _ hs => hs)
          · obtain rfl := Option.some.inj h
            exact quiet_goto trivial hp rfl
        · exact absurd h (by simp)
      · exact absurd h (by simp)
  | create t =>
      simp only [segStep] at h
      split at h
      · rename_i s n flag next hp
        obtain rfl := Option.some.inj h
        obtain ⟨hheld, hmem, hflag, hnext, -⟩ := pending_spec hp
        refine .mapped t s n flag hflag ?_ hheld ((hok t).1 s hmem) rfl ?_ rfl
        · constructor
          · intro hfresh
            exact hfresh s n flag next hp
          · intro hcond s' n' flag' next' hp'
            rw [hp] at hp'
            simp only [Option.some.injEq, Prod.mk.injEq] at hp'
            obtain ⟨rfl, -, -, -⟩ := hp'
            exact hcond
        · rw [← hnext]
          exact held_goto x t next
      · exact absurd h (by simp)
  | release t =>
      simp only [segStep] at h
      split at h
      · rename_i n todo hp
        obtain rfl := Option.some.inj h
        exact .gave t n trivial (by rw [SegState.held, hp]; rfl) rfl
          (held_goto x t (Pc.hotLoop todo)) rfl
      · exact absurd h (by simp)
  | free s =>
      simp only [segStep] at h
      split at h
      · rename_i hc
        obtain rfl := Option.some.inj h
        obtain ⟨hmpt, hmap, hfree, hckpt⟩ := setTestAndFree_eq_unset g x.nsbi x.freeI s
        refine .dropped s trivial hc.2 hmpt hmap hfree hckpt rfl ?_
        intro s' hs'
        rcases eq_or_ne s' s with rfl | hne
        · exact Or.inl rfl
        · right
          simp only [setTestAndFree, clearFreeSegmap_freeSegmap, Function.update_of_ne hne] at hs'
          exact hs'
      · exact absurd h (by simp)
  | unset s =>
      simp only [segStep] at h
      split at h
      · rename_i hc
        obtain rfl := Option.some.inj h
        exact .dropped s trivial hc rfl rfl rfl (unsetMapping_ckptSegmentMap x.nsbi s) rfl
          (fun s' hs' => Or.inr hs')
      · exact absurd h (by simp)
  | double s =>
      simp only [segStep] at h
      split at h
      · rename_i hc
        obtain rfl := Option.some.inj h
        exact .doubled s trivial hc rfl rfl rfl
      · exact absurd h (by simp)

/-! ## The accounting, over every run -/

/-- The invariant of every interleaving. -/
structure SegInv (g : Geometry) (x : SegState) : Prop where
  accounted : Accounted g x.nsbi x.held
  ok : ∀ t, (x.pc t).Ok g

/-- The effect of a step keeps the accounting. -/
lemma SegEffect.accounted {x x' : SegState} {a : SegStep} (he : SegEffect g x a x')
    (h : Accounted g x.nsbi x.held) : Accounted g x'.nsbi x'.held := by
  cases he with
  | quiet _ hmpt hmap hfree _ hheld _ =>
      rw [hheld]
      exact h.congr hmpt hmap hfree
  | took t n start _ hnone hal hheld _ =>
      rw [hheld]
      exact h.allocate hnone hal
  | mapped t s n flag hflag _ hsome hs hnsbi hheld _ =>
      rw [hheld, hnsbi]
      exact h.create hflag hsome hs
  | gave t n _ hsome hnsbi hheld _ =>
      rw [hheld, hnsbi]
      exact h.release hsome
  | dropped s _ hs hmpt hmap hfree _ hheld _ =>
      rw [hheld]
      exact (h.unset hs).congr hmpt hmap hfree
  | doubled s _ _ hnsbi hheld _ =>
      rw [hheld, hnsbi]
      exact h.double s

lemma ok_update {pc : ℕ → Pc} (h : ∀ t, (pc t).Ok g) (t : ℕ) {p : Pc} (hp : p.Ok g) :
    ∀ t', (Function.update pc t p t').Ok g := by
  intro t'
  rcases eq_or_ne t' t with rfl | hne
  · rw [Function.update_self]
    exact hp
  · rw [Function.update_of_ne hne]
    exact h t'

/-- A thread that goes on with fewer segments is still fine. -/
lemma ok_of_subset {p q : Pc} (hp : p.Ok g) (hsub : q.segments ⊆ p.segments) (hbug : q ≠ .bug)
    (hhung : q ≠ .hung) : q.Ok g :=
  ⟨fun s hs => hp.1 s (hsub hs), hbug, hhung⟩

lemma segStep_ok {x x' : SegState} {a : SegStep} (h : SegInv g x)
    (hstep : segStep g x a = some x') : ∀ t, (x'.pc t).Ok g := by
  cases a with
  | pick t s =>
      simp only [segStep] at hstep
      split at hstep
      · rename_i hc
        obtain rfl := Option.some.inj hstep
        refine ok_update h.ok t ⟨?_, by simp, by simp⟩
        simpa [Pc.segments] using hc.2.2.1
      · exact absurd hstep (by simp)
  | startScan t =>
      simp only [segStep] at hstep
      split at hstep
      · obtain rfl := Option.some.inj hstep
        exact ok_update h.ok t ⟨by simp [Pc.segments], by simp, by simp⟩
      · exact absurd hstep (by simp)
  | scan t s =>
      simp only [segStep] at hstep
      split at hstep
      · rename_i heap hp
        have hheap := h.ok t
        rw [hp] at hheap
        split at hstep
        · rename_i hc
          obtain rfl := Option.some.inj hstep
          refine ok_update h.ok t ⟨?_, by simp, by simp⟩
          intro s' hs'
          rcases List.mem_cons.mp hs' with rfl | hs'
          · exact hc.1
          · exact hheap.1 s' hs'
        · exact absurd hstep (by simp)
      · exact absurd hstep (by simp)
  | endScan t todo =>
      simp only [segStep] at hstep
      split at hstep
      · rename_i heap hp
        have hheap := h.ok t
        rw [hp] at hheap
        split at hstep
        · rename_i hsub
          obtain rfl := Option.some.inj hstep
          exact ok_update h.ok t (ok_of_subset hheap hsub (by simp) (by simp))
        · exact absurd hstep (by simp)
      · exact absurd hstep (by simp)
  | skip t =>
      simp only [segStep] at hstep
      have hok := h.ok t
      split at hstep
      · obtain rfl := Option.some.inj hstep
        exact ok_update h.ok t ⟨by simp [Pc.segments], by simp, by simp⟩
      · rename_i s todo hp
        rw [hp] at hok
        obtain rfl := Option.some.inj hstep
        exact ok_update h.ok t
          (ok_of_subset hok (List.subset_cons_self s todo) (by simp) (by simp))
      · obtain rfl := Option.some.inj hstep
        exact ok_update h.ok t ⟨by simp [Pc.segments], by simp, by simp⟩
      · exact absurd hstep (by simp)
  | enter t =>
      simp only [segStep] at hstep
      have hok := h.ok t
      split at hstep
      · rename_i s hp
        rw [hp] at hok
        obtain rfl := Option.some.inj hstep
        exact ok_update h.ok t (ok_of_subset hok (List.Subset.refl _) (by simp) (by simp))
      · rename_i s todo hp
        rw [hp] at hok
        obtain rfl := Option.some.inj hstep
        exact ok_update h.ok t (ok_of_subset hok (List.Subset.refl _) (by simp) (by simp))
      · exact absurd hstep (by simp)
  | lockAlloc t =>
      simp only [segStep] at hstep
      have hok := h.ok t
      split at hstep
      · rename_i s start job hp
        rw [hp] at hok
        -- the counter counts the clear bits, so neither the assertion nor the loop is a danger
        rcases nvmAllocateSegmentLocked_total g start h.accounted.free with hal | ⟨nsbi, n, hal⟩
        · rw [hal] at hstep
          obtain rfl := Option.some.inj hstep
          exact ok_update h.ok t ⟨by simp [Pc.segments], by simp, by simp⟩
        · rw [hal] at hstep
          obtain rfl := Option.some.inj hstep
          cases job with
          | curseg =>
              exact ok_update h.ok t
                (ok_of_subset hok (List.Subset.refl _) (by simp [Job.return])
                  (by simp [Job.return]))
          | hot todo =>
              exact ok_update h.ok t
                (ok_of_subset hok (List.Subset.refl _) (by simp [Job.return])
                  (by simp [Job.return]))
      · exact absurd hstep (by simp)
  | recheck t =>
      simp only [segStep] at hstep
      have hok := h.ok t
      split at hstep
      · rename_i s n todo hp
        rw [hp] at hok
        split at hstep
        · split at hstep
          · split at hstep
            · obtain rfl := Option.some.inj hstep
              exact ok_update h.ok t (ok_of_subset hok (List.nil_subset _) (by simp) (by simp))
            · obtain rfl := Option.some.inj hstep
              exact ok_update h.ok t (ok_of_subset hok (List.Subset.refl _) (by simp) (by simp))
          · obtain rfl := Option.some.inj hstep
            exact ok_update h.ok t
              (ok_of_subset hok (List.subset_cons_self s todo) (by simp) (by simp))
        · exact absurd hstep (by simp)
      · exact absurd hstep (by simp)
  | create t =>
      simp only [segStep] at hstep
      split at hstep
      · rename_i s n flag next hp
        obtain rfl := Option.some.inj hstep
        obtain ⟨-, -, -, -, hsub, hbug, hhung⟩ := pending_spec hp
        exact ok_update h.ok t (ok_of_subset (h.ok t) hsub hbug hhung)
      · exact absurd hstep (by simp)
  | release t =>
      simp only [segStep] at hstep
      have hok := h.ok t
      split at hstep
      · rename_i n todo hp
        rw [hp] at hok
        obtain rfl := Option.some.inj hstep
        exact ok_update h.ok t (ok_of_subset hok (List.Subset.refl _) (by simp) (by simp))
      · exact absurd hstep (by simp)
  | free s =>
      simp only [segStep] at hstep
      split at hstep
      · obtain rfl := Option.some.inj hstep
        exact h.ok
      · exact absurd hstep (by simp)
  | unset s =>
      simp only [segStep] at hstep
      split at hstep
      · obtain rfl := Option.some.inj hstep
        exact h.ok
      · exact absurd hstep (by simp)
  | double s =>
      simp only [segStep] at hstep
      split at hstep
      · obtain rfl := Option.some.inj hstep
        exact h.ok
      · exact absurd hstep (by simp)

/-- **One step keeps the invariant.** -/
theorem segInv_step {x x' : SegState} {a : SegStep} (h : SegInv g x)
    (hstep : segStep g x a = some x') : SegInv g x' :=
  ⟨(segStep_effect h.ok hstep).accounted h.accounted, segStep_ok h hstep⟩

lemma getMapFlag_mountState (freeI : FreeSegmapInfo) (i : ℕ) :
    getMapFlag (mountState g freeI).nsbi.mpt i = false :=
  getMapFlag_of_zero rfl

lemma segInv_mountState (freeI : FreeSegmapInfo) : SegInv g (mountState g freeI) := by
  have hflag : ∀ i, getMapFlag (mountState g freeI).nsbi.mpt i ≠ true := by
    intro i
    rw [getMapFlag_mountState]
    simp
  have hheld : ∀ t n, (mountState g freeI).held t ≠ some n := by
    intro t n hc
    exact absurd hc (by simp [SegState.held, mountState, Pc.held])
  refine ⟨⟨?_, ?_, ?_, ?_, ?_, ?_, ?_⟩, ?_⟩
  · simp [mountState, zeroBits]
  · intro n _
    refine iff_of_false (by simp [mountState]) ?_
    rintro (hc | ⟨t, hc⟩)
    · exact hflag n hc
    · exact hheld t n hc
  · exact fun t n hc => absurd hc (hheld t n)
  · exact fun t _ n hc => absurd hc (hheld t n)
  · exact fun s _ n hc => absurd hc.1 (hflag _)
  · exact fun s _ s' _ n hc => absurd hc.1 (hflag _)
  · exact fun n _ s hc => absurd hc.1 (hflag _)
  · exact fun t => ⟨by simp [mountState, Pc.segments], by simp [mountState], by simp [mountState]⟩

lemma segInv_reachable {freeI : FreeSegmapInfo} {as : List SegStep} {x : SegState}
    (h : exec (segStep g) (mountState g freeI) as = some x) : SegInv g x :=
  exec_preserves (fun _ _ _ hs hstep => segInv_step hs hstep) (segInv_mountState freeI) h

/-- **NVM segments are accounted for in every state of every run.**  The counter counts the clear
bits and never exceeds the number of segments; no allocation that could start now runs into the
assertion or searches for ever, and no thread has; a mapped segment has its bit set, a set bit
belongs to a mapped segment or to exactly one thread that still holds it, and outside that window
the bit is set iff the entry is mapped. -/
theorem accounting_throughout (freeI : FreeSegmapInfo) {as : List SegStep} {x : SegState}
    (h : exec (segStep g) (mountState g freeI) as = some x) :
    x.nsbi.mainSegmentFreeNums = zeroBits x.nsbi.segmentMap g.mainSegmentNums ∧
    x.nsbi.mainSegmentFreeNums ≤ g.mainSegmentNums ∧
    (∀ start, nvmAllocateSegmentLocked g x.nsbi start ≠ .bugOn ∧
      nvmAllocateSegmentLocked g x.nsbi start ≠ .hang) ∧
    (∀ t, x.pc t ≠ .bug ∧ x.pc t ≠ .hung) ∧
    (∀ n < g.mainSegmentNums, getMapFlag x.nsbi.mpt n = true → x.nsbi.segmentMap n = true) ∧
    (∀ n < g.mainSegmentNums, x.nsbi.segmentMap n = true →
      getMapFlag x.nsbi.mpt n = true ∨ ∃! t, x.held t = some n) ∧
    (∀ n < g.mainSegmentNums, (∀ t, x.held t ≠ some n) →
      (x.nsbi.segmentMap n = true ↔ getMapFlag x.nsbi.mpt n = true)) := by
  have hinv := segInv_reachable h
  have hacc := hinv.accounted
  refine ⟨hacc.free, hacc.freeNums_le, ?_, fun t => (hinv.ok t).2, ?_, ?_, ?_⟩
  · intro start
    rcases nvmAllocateSegmentLocked_total g start hacc.free with hal | ⟨nsbi, n, hal⟩
    · rw [hal]
      exact ⟨by simp, by simp⟩
    · rw [hal]
      exact ⟨by simp, by simp⟩
  · intro n hn hmapped
    exact (hacc.bit n hn).mpr (Or.inl hmapped)
  · intro n hn hbit
    rcases (hacc.bit n hn).mp hbit with hmapped | ⟨t, ht⟩
    · exact Or.inl hmapped
    · exact Or.inr ⟨t, ht, fun t' ht' => hacc.heldOnce t' t n ht' ht⟩
  · intro n hn hout
    rw [hacc.bit n hn]
    constructor
    · rintro (hmapped | ⟨t, ht⟩)
      · exact hmapped
      · exact absurd ht (hout t)
    · exact Or.inl

/-! ### A small device

Four NVM and four SSD segments, one segment to a section; SSD segment 0 is in use at mount. -/

def smallGeometry : Geometry where
  mainSegmentNums := 4
  segmentCountMain := 4
  segsPerSec := 1
  nvm_lt := Geometry.four_fit
  ssd_lt := Geometry.four_fit
  segsPerSec_pos := Nat.one_pos

def smallFreeI : FreeSegmapInfo where
  freeSegmap := fun s => s == 0
  freeSecmap := fun s => s == 0
  freeSegments := 3#32
  freeSections := 3#32

/-- `hot_to_nvm` (thread 1) selects SSD segment 0 and copies it to NVM segment 0.  Meanwhile the
segment is freed, and `new_curseg` (thread 2) picks it again and maps it to NVM segment 1.  The
re-check of thread 1 sees a segment in use and an unmapped NVM segment, and passes. -/
def remapRun : List SegStep :=
  [.startScan 1, .scan 1 0, .endScan 1 [0], .enter 1, .lockAlloc 1,
    .free 0, .pick 2 0, .enter 2, .lockAlloc 2, .create 2, .recheck 1, .create 1]

theorem accounting_throughout_remapRun :
    ∃ x, exec (segStep smallGeometry) (mountState smallGeometry smallFreeI) remapRun = some x ∧
      x.nsbi.mainSegmentFreeNums = zeroBits x.nsbi.segmentMap smallGeometry.mainSegmentNums := by
  have hrun : (exec (segStep smallGeometry) (mountState smallGeometry smallFreeI)
      remapRun).isSome = true := by decide +kernel
  obtain ⟨x, hx⟩ := Option.isSome_iff_exists.mp hrun
  exact ⟨x, hx, (accounting_throughout smallFreeI hx).1⟩

/-! ## The bijection, over the runs whose mappings are fresh -/

/-- A step keeps the bijection **iff** it is not a `create_mapping` of a segment that is mapped or
free by then. -/
lemma SegEffect.mptBijection_iff {x x' : SegState} {a : SegStep} (he : SegEffect g x a x')
    (hacc : Accounted g x.nsbi x.held) (h : MptBijection g x.nsbi x.freeI) :
    MptBijection g x'.nsbi x'.freeI ↔ MappingFresh g x a := by
  cases he with
  | quiet hgood hmpt _ _ _ _ hinuse => exact iff_of_true (h.congr hmpt hinuse) hgood
  | took t n start hgood _ hal _ hfreeI =>
      obtain ⟨-, -, -, hnsbi⟩ := nvmAllocateSegmentLocked_ok g hal
      rw [hnsbi, hfreeI]
      exact iff_of_true (h.congr rfl fun _ hs => hs) hgood
  | mapped t s n flag hflag hgood hsome hs hnsbi _ hfreeI =>
      rw [hnsbi, hfreeI, hgood]
      exact h.create_iff hacc hflag hsome hs
  | gave t n hgood _ hnsbi _ hfreeI =>
      rw [hnsbi, hfreeI]
      exact iff_of_true (h.congr rfl fun _ hs => hs) hgood
  | dropped s hgood hs hmpt _ _ _ _ hfreeI =>
      exact iff_of_true ((h.unset hs hfreeI).congr hmpt fun _ hs => hs) hgood
  | doubled s hgood hs hnsbi _ hfreeI =>
      rw [hnsbi, hfreeI]
      exact iff_of_true (h.double hs) hgood

lemma mptBijection_mountState (freeI : FreeSegmapInfo) :
    MptBijection g (mountState g freeI).nsbi (mountState g freeI).freeI := by
  have hflag : ∀ i, getMapFlag (mountState g freeI).nsbi.mpt i ≠ true := by
    intro i
    rw [getMapFlag_mountState]
    simp
  refine ⟨?_, ?_, ?_, ?_, ?_, ?_⟩
  · exact fun n _ s _ => iff_of_false (fun hc => hflag _ hc.1) (fun hc => hflag _ hc.1)
  · exact fun n _ s hc => absurd hc.1 (hflag _)
  · exact fun s _ n hc => absurd hc.1 (hflag _)
  · exact fun n _ s hc => absurd hc.1 (hflag _)
  · exact fun s _ s' _ n hc => absurd hc.1 (hflag _)
  · exact fun s _ _ => getMapFlag_mountState freeI _

/-- **The table stays a bijection exactly in the runs whose mappings are fresh**: in which every
`create_mapping`, of `new_curseg` or of `hot_to_nvm`, finds its SSD segment unmapped and in
use. -/
theorem bijection_iff_fresh_mapping (freeI : FreeSegmapInfo) {as : List SegStep} {x : SegState}
    (h : exec (segStep g) (mountState g freeI) as = some x) :
    Throughout (segStep g) (fun y => MptBijection g y.nsbi y.freeI) (mountState g freeI) as ↔
      StepsMeet (segStep g) (MappingFresh g) (mountState g freeI) as :=
  throughout_iff_stepsMeet (fun _ _ _ hs hstep => segInv_step hs hstep)
    (fun _ _ _ hs hq hstep =>
      (segStep_effect hs.ok hstep).mptBijection_iff hs.accounted hq)
    (segInv_mountState freeI) (mptBijection_mountState freeI) h

theorem bijection_iff_fresh_mapping_remapRun :
    (exec (segStep smallGeometry) (mountState smallGeometry smallFreeI) remapRun).isSome = true ∧
      (Throughout (segStep smallGeometry)
          (fun y => MptBijection smallGeometry y.nsbi y.freeI)
          (mountState smallGeometry smallFreeI) remapRun ↔
        StepsMeet (segStep smallGeometry) (MappingFresh smallGeometry)
          (mountState smallGeometry smallFreeI) remapRun) := by
  have hrun : (exec (segStep smallGeometry) (mountState smallGeometry smallFreeI)
      remapRun).isSome = true := by decide +kernel
  obtain ⟨x, hx⟩ := Option.isSome_iff_exists.mp hrun
  exact ⟨hrun, bijection_iff_fresh_mapping smallFreeI hx⟩

/-- **The bijection can break**: after `remapRun`, NVM entry 1 is mapped to SSD segment 0 while
the entry of SSD segment 0 leads to NVM segment 0. -/
theorem bijection_broken :
    ¬ ∀ (g : Geometry) (freeI : FreeSegmapInfo) (as : List SegStep) (x : SegState),
      exec (segStep g) (mountState g freeI) as = some x → MptBijection g x.nsbi x.freeI := by
  intro hall
  have hreads : (exec (segStep smallGeometry) (mountState smallGeometry smallFreeI) remapRun).map
      (fun x => (getMapFlag x.nsbi.mpt 1, getMptValue x.nsbi.mpt 1,
        getMptValue x.nsbi.mpt (smallGeometry.ssdIndex 0))) = some (true, 0, 0) := by
    decide +kernel
  obtain ⟨x, hx, hreads⟩ := Option.map_eq_some_iff.mp hreads
  simp only [Prod.mk.injEq] at hreads
  obtain ⟨hmapped, hvalue, hback⟩ := hreads
  have hbij := hall smallGeometry smallFreeI remapRun x hx
  have hssd := (hbij.inverse 1 (by decide) 0 (by decide)).mp ⟨hmapped, hvalue⟩
  rw [SsdMaps, hback] at hssd
  exact absurd hssd.2 (by decide)

end Hoit
