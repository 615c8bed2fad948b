import HoitF2fs.Lib.RunCopy
import HoitF2fs.Nvm.Redirect
import HoitF2fs.Nvm.Threads

/-!
# Hot migration against concurrent writes

One SSD segment `s`, selected by `hot_to_nvm`, is moved to NVM while writes to its blocks go on.

* A write is **routed when it is submitted** — `nvm_redirect_bio` looks at the table then — and
  reaches its device later.
* `do_hot_to_nvm` copies the runs of blocks that are set in `cur_valid_map`, without a lock.
  The loop is the one of `HoitF2fs.Lib.RunCopy`; a bio takes at most `cap` pages, and a page that
  `bio_add_page` refuses is dropped after `f2fs_bug_on`.
* `create_mapping` flips the route of later writes.

`last b` is the content written last to block `b` since it became valid.  The property is
`NoLostUpdate`: once the mapping exists, a redirected read of a valid block returns it.

The code does not guarantee it (`hot_migration_loses_update`).  It does in every run whose steps
meet `UpdateSafe`: a write that goes to the SSD arrives **before the copy has passed its block**
(or brings what the copy has already), and no run of valid blocks exceeds one bio.
-/

namespace Hoit

open RunCopy Transition

/-- A write on its way: block offset, content, and the location its routing chose. -/
structure Write (α : Type*) where
  blk : ℕ
  content : α
  loc : Location

/-- Where `hot_to_nvm` stands with the segment. -/
inductive HotPhase (α : Type*) where
  | selected (buf : ℕ → α)
  | copying (n : ℕ) (c : Copy α)
  | mapped (n : ℕ)
  | released

structure HotState (α : Type*) where
  nsbi : NvmSbInfo
  content : Location → α
  curValidMap : ℕ → Bool
  last : ℕ → Option α
  inflight : List (Write α)
  phase : HotPhase α

inductive HotStep (α : Type*) where
  /-- `nvm_allocate_segment(sbi, s, 0)`, with the search position read before. -/
  | allocate (start : ℕ)
  /-- One bit test, block read or block write of `do_hot_to_nvm`. -/
  | copy
  /-- The re-check passes and the mapping is created. -/
  | create
  /-- The re-check fails and the NVM segment is released. -/
  | abandon
  | submit (b : ℕ) (v : α)
  | land (i : ℕ)
  /-- Block `b` is allocated: its bit is set before its first write arrives. -/
  | validate (b : ℕ)
  | invalidate (b : ℕ)

variable {α : Type*} (g : Geometry) (s cap : ℕ)

/-- One step of the loop of `do_hot_to_nvm`, from SSD segment `s` to NVM segment `n`. -/
def doHotToNvmStep (x : HotState α) (n : ℕ) (c : Copy α) : Copy α × (ℕ → α) :=
  copyStep blocksPerSeg cap x.curValidMap (fun b => x.content ⟨.ssd, s, b⟩)
    (fun b => x.content ⟨.nvm, n, b⟩) c

def hotStep (x : HotState α) : HotStep α → Option (HotState α)
  | .allocate start =>
      match x.phase with
      | .selected buf =>
          match nvmAllocateSegmentLocked g x.nsbi start with
          | .ok nsbi n => some { x with nsbi, phase := .copying n ⟨.seek 0, buf⟩ }
          | _ => none
      | _ => none
  | .copy =>
      match x.phase with
      | .copying n c =>
          if c.pc = .done then none
          else
            some { x with
              content := setSeg x.content .nvm n (doHotToNvmStep s cap x n c).2
              phase := .copying n (doHotToNvmStep s cap x n c).1 }
      | _ => none
  | .create =>
      match x.phase with
      | .copying n c =>
          if c.pc = .done then
            some { x with
              nsbi := createMapping g x.nsbi s n (rwMap ||| rwRedirect ||| rwDouble)
              phase := .mapped n }
          else none
      | _ => none
  | .abandon =>
      match x.phase with
      | .copying n c =>
          if c.pc = .done then
            some { x with nsbi := releaseSegment x.nsbi n, phase := .released }
          else none
      | _ => none
  | .submit b v =>
      if b < blocksPerSeg then
        some { x with inflight := x.inflight ++ [⟨b, v, resolve g x.nsbi.mpt s b⟩] }
      else none
  | .land i =>
      match x.inflight[i]? with
      | some w =>
          some { x with
            content := Function.update x.content w.loc w.content
            last := Function.update x.last w.blk (some w.content)
            inflight := x.inflight.eraseIdx i }
      | none => none
  | .validate b =>
      some { x with
        curValidMap := Function.update x.curValidMap b true
        last := Function.update x.last b none }
  | .invalidate b => some { x with curValidMap := Function.update x.curValidMap b false }

/-- The segment has just been selected: it is not redirected, and what was written last to its
valid blocks is on the SSD. -/
structure HotInit (x : HotState α) : Prop where
  inMain : s < g.segmentCountMain
  direct : getRedirectFlag x.nsbi.mpt (g.ssdIndex s) = false
  noWrites : x.inflight = []
  selected : ∃ buf, x.phase = .selected buf
  onSsd : ∀ b < blocksPerSeg, x.curValidMap b = true → ∀ v, x.last b = some v →
    x.content ⟨.ssd, s, b⟩ = v

/-- **No update is lost**: once mapped, a redirected read of a valid block returns what was
written to it last. -/
def NoLostUpdate (x : HotState α) : Prop :=
  ∀ n, x.phase = .mapped n → ∀ b < blocksPerSeg, x.curValidMap b = true →
    ∀ v, x.last b = some v → x.content (resolve g x.nsbi.mpt s b) = v

/-- Whether `v`, arriving on the SSD at the valid block `b`, still reaches NVM. -/
def ArrivalSafe (x : HotState α) (b : ℕ) (v : α) : Prop :=
  match x.phase with
  | .copying n c => c.pc.Passed b → c.staged (fun b => x.content ⟨.nvm, n, b⟩) b = v
  | .mapped n => x.content ⟨.nvm, n, b⟩ = v
  | _ => True

/-- The condition on a step.  A write that lands on the SSD lands before the copy has passed its
block, or brings what the copy has there, or hits an invalid block; a run that is about to be
read fits into one bio. -/
def UpdateSafe (x : HotState α) : HotStep α → Prop
  | .copy =>
      match x.phase with
      | .copying _ c => c.pc.RunFits blocksPerSeg cap x.curValidMap
      | _ => True
  | .land i =>
      match x.inflight[i]? with
      | some w => w.loc.dev = .ssd → x.curValidMap w.blk = true → ArrivalSafe x w.blk w.content
      | none => True
  | _ => True

/-! ## The invariant -/

variable {g s cap}

/-- A block that a read may ask for: valid, and written since it became valid. -/
def Written (x : HotState α) (b : ℕ) : Prop := x.curValidMap b = true ∧ ∃ v, x.last b = some v

/-- Before the mapping exists: every write goes to the SSD, which holds what was written last. -/
structure Unmapped (g : Geometry) (s : ℕ) (x : HotState α) : Prop where
  direct : getRedirectFlag x.nsbi.mpt (g.ssdIndex s) = false
  toSsd : ∀ w ∈ x.inflight, w.loc = ⟨.ssd, s, w.blk⟩
  onSsd : ∀ b < blocksPerSeg, x.curValidMap b = true → ∀ v, x.last b = some v →
    x.content ⟨.ssd, s, b⟩ = v

/-- Once it exists: NVM holds what was written last, and late writes to the SSD may be under
way. -/
structure Mapped (g : Geometry) (s n : ℕ) (x : HotState α) : Prop where
  redirected : ∀ b, resolve g x.nsbi.mpt s b = ⟨.nvm, n, b⟩
  toEither : ∀ w ∈ x.inflight, w.loc = ⟨.ssd, s, w.blk⟩ ∨ w.loc = ⟨.nvm, n, w.blk⟩
  onNvm : ∀ b < blocksPerSeg, x.curValidMap b = true → ∀ v, x.last b = some v →
    x.content ⟨.nvm, n, b⟩ = v

/-- The invariant of the runs that meet `UpdateSafe`. -/
structure HotInv (g : Geometry) (s cap : ℕ) (x : HotState α) : Prop where
  inMain : s < g.segmentCountMain
  unmapped : (∀ n, x.phase ≠ .mapped n) → Unmapped g s x
  copying : ∀ n c, x.phase = .copying n c → n < g.mainSegmentNums ∧ c.pc.Wf cap ∧
    Copied blocksPerSeg (Written x) (fun b => x.content ⟨.ssd, s, b⟩)
      (fun b => x.content ⟨.nvm, n, b⟩) c
  mapped : ∀ n, x.phase = .mapped n → Mapped g s n x

lemma resolve_direct {mpt : Mpt} (h : getRedirectFlag mpt (g.ssdIndex s) = false) (b : ℕ) :
    resolve g mpt s b = ⟨.ssd, s, b⟩ := by
  simp [resolve, h]

lemma HotInv.noLostUpdate {x : HotState α} (h : HotInv g s cap x) : NoLostUpdate g s x := by
  intro n hn b hb hv v hl
  rw [(h.mapped n hn).redirected]
  exact (h.mapped n hn).onNvm b hb hv v hl

lemma hotInv_init {x : HotState α} (h : HotInit g s x) : HotInv g s cap x := by
  obtain ⟨buf, hphase⟩ := h.selected
  refine ⟨h.inMain, fun _ => ⟨h.direct, ?_, h.onSsd⟩, ?_, ?_⟩
  · intro w hw
    rw [h.noWrites] at hw
    exact absurd hw (by simp)
  · intro n c hc
    rw [hphase] at hc
    exact absurd hc (by simp)
  · intro n hc
    rw [hphase] at hc
    exact absurd hc (by simp)

/-! ### Steps of the copy -/

lemma hotInv_allocate {x x' : HotState α} {start : ℕ} (h : HotInv g s cap x)
    (hstep : hotStep g s cap x (.allocate start) = some x') : HotInv g s cap x' := by
  simp only [hotStep] at hstep
  split at hstep
  · rename_i buf hphase
    have hun := h.unmapped (by simp [hphase])
    split at hstep
    · rename_i nsbi n hal
      obtain rfl := Option.some.inj hstep
      obtain ⟨hn, -, -, hnsbi⟩ := nvmAllocateSegmentLocked_ok g hal
      have hmpt : nsbi.mpt = x.nsbi.mpt := by rw [hnsbi]
      refine ⟨h.inMain, fun _ => ⟨?_, hun.toSsd, hun.onSsd⟩, ?_, by simp⟩
      · show getRedirectFlag nsbi.mpt (g.ssdIndex s) = false
        rw [hmpt]
        exact hun.direct
      · intro m c hc
        obtain ⟨rfl, rfl⟩ := HotPhase.copying.inj hc
        exact ⟨hn, trivial, copied_start buf⟩
    · exact absurd hstep (by simp)
  · exact absurd hstep (by simp)

lemma hotInv_copy {x x' : HotState α} (h : HotInv g s cap x) (hgood : UpdateSafe cap x .copy)
    (hstep : hotStep g s cap x .copy = some x') : HotInv g s cap x' := by
  simp only [hotStep] at hstep
  split at hstep
  · rename_i n c hphase
    simp only [UpdateSafe, hphase] at hgood
    have hun := h.unmapped (by simp [hphase])
    obtain ⟨hn, hwf, hcopied⟩ := h.copying n c hphase
    split at hstep
    · exact absurd hstep (by simp)
    · obtain rfl := Option.some.inj hstep
      have hssd : ∀ b, setSeg x.content .nvm n (doHotToNvmStep s cap x n c).2 ⟨.ssd, s, b⟩
          = x.content ⟨.ssd, s, b⟩ := by
        intro b
        exact setSeg_of_ne (by simp)
      obtain ⟨hwf', hcopied'⟩ := copied_step (fun b _ hw => hw.1) hwf hgood hcopied
      refine ⟨h.inMain, fun _ => ⟨hun.direct, hun.toSsd, ?_⟩, ?_, by simp⟩
      · intro b hb hv v hl
        exact (hssd b).trans (hun.onSsd b hb hv v hl)
      · intro m c' hc
        obtain ⟨rfl, rfl⟩ := HotPhase.copying.inj hc
        refine ⟨hn, hwf', ?_⟩
        simp only [hssd, setSeg_same]
        exact hcopied'
  · exact absurd hstep (by simp)

/-- The mapping is created when the copy is complete: NVM then holds what the SSD holds. -/
lemma hotInv_create {x x' : HotState α} (h : HotInv g s cap x)
    (hstep : hotStep g s cap x .create = some x') : HotInv g s cap x' := by
  simp only [hotStep] at hstep
  split at hstep
  · rename_i n c hphase
    have hun := h.unmapped (by simp [hphase])
    obtain ⟨hn, -, hcopied⟩ := h.copying n c hphase
    split at hstep
    · rename_i hdone
      obtain rfl := Option.some.inj hstep
      obtain ⟨hmaps, hflags⟩ : SsdMaps g (createMapping g x.nsbi s n
          (rwMap ||| rwRedirect ||| rwDouble)).mpt s n ∧ _ := createMapping_ssd (by decide) hn
      have hredirect := (flags_of_entryFlags hflags).2.1
      refine ⟨h.inMain, fun hc => absurd rfl (hc n), by simp, ?_⟩
      intro m hc
      obtain rfl := HotPhase.mapped.inj hc
      refine ⟨?_, ?_, ?_⟩
      · intro b
        show resolve g (createMapping g x.nsbi s n (rwMap ||| rwRedirect ||| rwDouble)).mpt s b
          = ⟨.nvm, n, b⟩
        rw [resolve, hredirect, hmaps.2]
        rfl
      · intro w hw
        exact Or.inl (hun.toSsd w hw)
      · intro b hb hv v hl
        have hcopy := copied_done hcopied hdone b hb ⟨hv, v, hl⟩
        exact hcopy.trans (hun.onSsd b hb hv v hl)
    · exact absurd hstep (by simp)
  · exact absurd hstep (by simp)

lemma hotInv_abandon {x x' : HotState α} (h : HotInv g s cap x)
    (hstep : hotStep g s cap x .abandon = some x') : HotInv g s cap x' := by
  simp only [hotStep] at hstep
  split at hstep
  · rename_i n c hphase
    have hun := h.unmapped (by simp [hphase])
    split at hstep
    · obtain rfl := Option.some.inj hstep
      exact ⟨h.inMain, fun _ => ⟨hun.direct, hun.toSsd, hun.onSsd⟩, by simp, by simp⟩
    · exact absurd hstep (by simp)
  · exact absurd hstep (by simp)

/-! ### Steps of the writers -/

lemma hotInv_submit {x x' : HotState α} {b : ℕ} {v : α} (h : HotInv g s cap x)
    (hstep : hotStep g s cap x (.submit b v) = some x') : HotInv g s cap x' := by
  simp only [hotStep] at hstep
  split at hstep
  · obtain rfl := Option.some.inj hstep
    refine ⟨h.inMain, ?_, h.copying, ?_⟩
    · intro hn
      have hun := h.unmapped hn
      refine ⟨hun.direct, ?_, hun.onSsd⟩
      intro w hw
      rcases List.mem_append.mp hw with hw | hw
      · exact hun.toSsd w hw
      · obtain rfl := List.mem_singleton.mp hw
        exact resolve_direct hun.direct b
    · intro n hn
      have hm := h.mapped n hn
      refine ⟨hm.redirected, ?_, hm.onNvm⟩
      intro w hw
      rcases List.mem_append.mp hw with hw | hw
      · exact hm.toEither w hw
      · obtain rfl := List.mem_singleton.mp hw
        exact Or.inr (hm.redirected b)
  · exact absurd hstep (by simp)

/-- A write that arrives: on the SSD before the mapping exists, on either device after. -/
lemma hotInv_land {x x' : HotState α} {i : ℕ} (h : HotInv g s cap x)
    (hgood : UpdateSafe cap x (.land i)) (hstep : hotStep g s cap x (.land i) = some x') :
    HotInv g s cap x' := by
  simp only [hotStep] at hstep
  split at hstep
  · rename_i w hw
    obtain rfl := Option.some.inj hstep
    simp only [UpdateSafe, hw] at hgood
    have hmem : w ∈ x.inflight := List.mem_of_getElem? hw
    have hlast : ∀ b v, Function.update x.last w.blk (some w.content) b = some v →
        (b = w.blk ∧ v = w.content) ∨ (b ≠ w.blk ∧ x.last b = some v) := by
      intro b v hv
      rcases eq_or_ne b w.blk with rfl | hne
      · rw [Function.update_self] at hv
        exact Or.inl ⟨rfl, (Option.some.inj hv).symm⟩
      · rw [Function.update_of_ne hne] at hv
        exact Or.inr ⟨hne, hv⟩
    refine ⟨h.inMain, ?_, ?_, ?_⟩
    · intro hn
      have hun := h.unmapped hn
      refine ⟨hun.direct, fun u hu => hun.toSsd u (List.mem_of_mem_eraseIdx hu), ?_⟩
      intro b hb hv v hl
      show Function.update x.content w.loc w.content ⟨.ssd, s, b⟩ = v
      rw [hun.toSsd w hmem]
      rcases hlast b v hl with ⟨rfl, rfl⟩ | ⟨hne, hl⟩
      · exact Function.update_self _ _ _
      · rw [Function.update_of_ne (by simpa using hne)]
        exact hun.onSsd b hb hv v hl
    · intro n c hc
      have hun := h.unmapped (by intro m hm; rw [hc] at hm; exact absurd hm (by simp))
      obtain ⟨hn, hwf, hcopied⟩ := h.copying n c hc
      refine ⟨hn, hwf, ?_⟩
      have hloc := hun.toSsd w hmem
      refine hcopied.external ?_
      rintro b hb hp ⟨hv, v, hl⟩
      have hnvm : Function.update x.content w.loc w.content ⟨.nvm, n, b⟩
          = x.content ⟨.nvm, n, b⟩ := by
        rw [hloc, Function.update_of_ne (by simp)]
      rcases hlast b v hl with ⟨rfl, rfl⟩ | ⟨hne, hl⟩
      · -- the block has been passed: the condition says that the copy has this content already
        have hssd : Function.update x.content w.loc w.content ⟨.ssd, s, w.blk⟩ = w.content := by
          rw [hloc, Function.update_self]
        have harrival := hgood (by rw [hloc]) hv
        rw [ArrivalSafe, show x.phase = .copying n c from hc] at harrival
        exact Or.inr (Or.inl ⟨hnvm, (harrival hp).trans hssd.symm⟩)
      · have hssd : Function.update x.content w.loc w.content ⟨.ssd, s, b⟩
            = x.content ⟨.ssd, s, b⟩ := by
          rw [hloc, Function.update_of_ne (by simpa using hne)]
        exact Or.inl ⟨⟨hv, v, hl⟩, hssd, hnvm⟩
    · intro n hn
      have hm := h.mapped n hn
      refine ⟨hm.redirected, fun u hu => hm.toEither u (List.mem_of_mem_eraseIdx hu), ?_⟩
      intro b hb hv v hl
      show Function.update x.content w.loc w.content ⟨.nvm, n, b⟩ = v
      rcases hm.toEither w hmem with hloc | hloc
      · rw [hloc, Function.update_of_ne (by simp)]
        rcases hlast b v hl with ⟨rfl, rfl⟩ | ⟨-, hl⟩
        · have harrival := hgood (by rw [hloc]) hv
          rw [ArrivalSafe, show x.phase = .mapped n from hn] at harrival
          exact harrival
        · exact hm.onNvm b hb hv v hl
      · rw [hloc]
        rcases hlast b v hl with ⟨rfl, rfl⟩ | ⟨hne, hl⟩
        · exact Function.update_self _ _ _
        · rw [Function.update_of_ne (by simpa using hne)]
          exact hm.onNvm b hb hv v hl
  · exact absurd hstep (by simp)

/-- Steps that only make fewer blocks readable keep the invariant. -/
lemma hotInv_restrict {x : HotState α} (h : HotInv g s cap x) {valid : ℕ → Bool}
    {last : ℕ → Option α} (hsub : ∀ b v, valid b = true → last b = some v →
      x.curValidMap b = true ∧ x.last b = some v) :
    HotInv g s cap { x with curValidMap := valid, last := last } := by
  refine ⟨h.inMain, ?_, ?_, ?_⟩
  · intro hn
    have hun := h.unmapped hn
    refine ⟨hun.direct, hun.toSsd, ?_⟩
    intro b hb hv v hl
    obtain ⟨hv', hl'⟩ := hsub b v hv hl
    exact hun.onSsd b hb hv' v hl'
  · intro n c hc
    obtain ⟨hn, hwf, hcopied⟩ := h.copying n c hc
    refine ⟨hn, hwf, ?_⟩
    rintro b hb hp ⟨hv, v, hl⟩
    obtain ⟨hv', hl'⟩ := hsub b v hv hl
    exact hcopied b hb hp ⟨hv', v, hl'⟩
  · intro n hn
    have hm := h.mapped n hn
    refine ⟨hm.redirected, hm.toEither, ?_⟩
    intro b hb hv v hl
    obtain ⟨hv', hl'⟩ := hsub b v hv hl
    exact hm.onNvm b hb hv' v hl'

/-- **One step that meets the condition keeps the invariant.** -/
lemma hotInv_step {x x' : HotState α} {a : HotStep α} (h : HotInv g s cap x)
    (hgood : UpdateSafe cap x a) (hstep : hotStep g s cap x a = some x') : HotInv g s cap x' := by
  cases a with
  | allocate start => exact hotInv_allocate h hstep
  | copy => exact hotInv_copy h hgood hstep
  | create => exact hotInv_create h hstep
  | abandon => exact hotInv_abandon h hstep
  | submit b v => exact hotInv_submit h hstep
  | land i => exact hotInv_land h hgood hstep
  | validate b =>
      obtain rfl := Option.some.inj hstep
      refine hotInv_restrict h ?_
      intro b' v hv hl
      have hne : b' ≠ b := by
        rintro rfl
        rw [Function.update_self] at hl
        exact absurd hl (by simp)
      rw [Function.update_of_ne hne] at hv hl
      exact ⟨hv, hl⟩
  | invalidate b =>
      obtain rfl := Option.some.inj hstep
      refine hotInv_restrict h ?_
      intro b' v hv hl
      have hne : b' ≠ b := by
        rintro rfl
        rw [Function.update_self] at hv
        exact absurd hv (by simp)
      rw [Function.update_of_ne hne] at hv
      exact ⟨hv, hl⟩

/-- **Hot migration loses no update in the runs that meet `UpdateSafe`**: for every interleaving
of writes with the steps of `hot_to_nvm`, in every state that is reached. -/
theorem hot_migration_keeps_updates {x : HotState α} (hinit : HotInit g s x)
    {as : List (HotStep α)} (h : StepsMeet (hotStep g s cap) (UpdateSafe cap) x as) :
    Throughout (hotStep g s cap) (NoLostUpdate g s) x as :=
  Throughout.mono (fun _ hi => hi.noLostUpdate)
    (throughout_of_stepsMeet (fun _ _ _ hi hg hs => hotInv_step hi hg hs) (hotInv_init hinit) h)

/-! ### A segment with one valid block -/

instance [DecidableEq α] (x : HotState α) (b : ℕ) (v : α) : Decidable (ArrivalSafe x b v) :=
  match x with
  | ⟨_, content, _, _, _, .copying n c⟩ =>
      inferInstanceAs (Decidable (c.pc.Passed b →
        c.staged (fun b => content ⟨.nvm, n, b⟩) b = v))
  | ⟨_, content, _, _, _, .mapped n⟩ => inferInstanceAs (Decidable (content ⟨.nvm, n, b⟩ = v))
  | ⟨_, _, _, _, _, .selected _⟩ => inferInstanceAs (Decidable True)
  | ⟨_, _, _, _, _, .released⟩ => inferInstanceAs (Decidable True)

instance [DecidableEq α] (x : HotState α) (a : HotStep α) : Decidable (UpdateSafe cap x a) :=
  match a with
  | .copy =>
      match x with
      | ⟨_, _, valid, _, _, .copying _ c⟩ =>
          inferInstanceAs (Decidable (c.pc.RunFits blocksPerSeg cap valid))
      | ⟨_, _, _, _, _, .selected _⟩ => inferInstanceAs (Decidable True)
      | ⟨_, _, _, _, _, .mapped _⟩ => inferInstanceAs (Decidable True)
      | ⟨_, _, _, _, _, .released⟩ => inferInstanceAs (Decidable True)
  | .land i =>
      match h : x.inflight[i]? with
      | some w =>
          decidable_of_iff (w.loc.dev = .ssd → x.curValidMap w.blk = true →
            ArrivalSafe x w.blk w.content) (by simp [UpdateSafe, h])
      | none => isTrue (by simp [UpdateSafe, h])
  | .allocate _ => isTrue trivial
  | .create => isTrue trivial
  | .abandon => isTrue trivial
  | .submit _ _ => isTrue trivial
  | .validate _ => isTrue trivial
  | .invalidate _ => isTrue trivial

/-- Block 0 of SSD segment 0 is valid and holds 1; everything else holds 0. -/
def hotStart : HotState ℕ where
  nsbi := (mountState smallGeometry smallFreeI).nsbi
  content := fun x => if x = ⟨.ssd, 0, 0⟩ then 1 else 0
  curValidMap := fun b => b == 0
  last := fun b => if b = 0 then some 1 else none
  inflight := []
  phase := .selected fun _ => 0

lemma hotStart_init : HotInit smallGeometry 0 hotStart where
  inMain := by decide
  direct := by decide
  noWrites := rfl
  selected := ⟨_, rfl⟩
  onSsd := by
    intro b _ hv v hl
    have hb : b = 0 := by simpa [hotStart] using hv
    subst hb
    simpa [hotStart] using hl

/-- A write arrives before the copy has read its block, another one after the mapping. -/
def updateBeforeCopy : List (HotStep ℕ) :=
  [.allocate 0, .copy, .submit 0 2, .land 0] ++ List.replicate 516 .copy
    ++ [.create, .submit 0 3, .land 0]

/-- A write arrives on the SSD right after the copy has read its block. -/
def updateAfterRead : List (HotStep ℕ) :=
  [.allocate 0, .copy, .copy, .copy, .submit 0 2, .land 0] ++ List.replicate 514 .copy
    ++ [.create]

theorem hot_migration_keeps_updates_updateBeforeCopy :
    (exec (hotStep smallGeometry 0 256) hotStart updateBeforeCopy).isSome = true ∧
      Throughout (hotStep smallGeometry 0 256) (NoLostUpdate smallGeometry 0) hotStart
        updateBeforeCopy :=
  ⟨by decide +kernel, hot_migration_keeps_updates hotStart_init (by decide +kernel)⟩

/-- **An update can be lost**: it reached the SSD after the copy had read the block, and the
mapping then leads to the old content. -/
theorem hot_migration_loses_update :
    ¬ ∀ (g : Geometry) (s cap : ℕ) (x : HotState ℕ) (as : List (HotStep ℕ)) (x' : HotState ℕ),
      HotInit g s x → exec (hotStep g s cap) x as = some x' → NoLostUpdate g s x' := by
  intro hall
  have hreads : (exec (hotStep smallGeometry 0 256) hotStart updateAfterRead).map
      (fun x => (match x.phase with | .mapped n => some n | _ => none, x.curValidMap 0, x.last 0,
        x.content (resolve smallGeometry x.nsbi.mpt 0 0))) = some (some 0, true, some 2, 1) := by
    decide +kernel
  obtain ⟨x, hx, hreads⟩ := Option.map_eq_some_iff.mp hreads
  simp only [Prod.mk.injEq] at hreads
  obtain ⟨hphase, hvalid, hlast, hread⟩ := hreads
  have hmapped : x.phase = .mapped 0 := by
    cases hp : x.phase with
    | mapped n =>
        rw [hp] at hphase
        rw [Option.some.inj hphase]
    | _ => simp [hp] at hphase
  have hkeep := hall smallGeometry 0 256 hotStart updateAfterRead x hotStart_init hx 0 hmapped 0
    (by decide) hvalid 2 hlast
  rw [hread] at hkeep
  exact absurd hkeep (by decide)

end Hoit
