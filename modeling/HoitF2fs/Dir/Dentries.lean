import HoitF2fs.Lib.Bitmap
import HoitF2fs.Lib.ByteList

/-!
# Dentry blocks

A dentry block has a bitmap of its slots, an array of directory entries and one of file names, a
slot of eight bytes for each entry; a longer name goes on in the slots behind.  The dentry area of
an inline directory has the same parts at other offsets.

* `DentryPtr`, `makeDentryPtrBlock`, `makeDentryPtrInline` — the block, from its bytes.
* `f2fsFindTargetDentry`, `f2fsFillDentries`, `f2fsAddInlineEntries` — the three loops over a
  block.  Each also returns the names that it hands on, as slices of the file name array.
* `HandledInBounds` — what one wants of the three on a block of any content: they end, and no name
  that is handed on is longer than a name may be or runs out of the array.

**What the loops check.**  A name length of zero, which would stop them in their place, and nothing
else: `handled_in_bounds_iff` says that the block itself must have no entry whose name is too long
or leaves the array.
-/

namespace Hoit.Dir

open Bitmap ByteStore

/-! ## The block -/

/-- `F2FS_SLOT_LEN`. -/
def slotLen : ℕ := 8

/-- `F2FS_NAME_LEN`. -/
def f2fsNameLen : ℕ := 255

/-- `GET_DENTRY_SLOTS`. -/
def getDentrySlots (nameLen : ℕ) : ℕ := (nameLen + slotLen - 1) / slotLen

/-- `struct f2fs_dir_entry`. -/
structure DirEntry where
  hashCode : ℕ
  ino : ℕ
  nameLen : ℕ
  fileType : ℕ
deriving DecidableEq

/-- `SIZE_OF_DIR_ENTRY`. -/
def sizeOfDirEntry : ℕ := 11

/-- `struct f2fs_dentry_ptr`. -/
structure DentryPtr where
  max : ℕ
  bitmap : ℕ → Bool
  dentry : ℕ → DirEntry
  /-- The bytes of the array, slot after slot. -/
  filename : Area

/-- A name as it stands in the file name array. -/
structure NameSlice where
  slot : ℕ
  len : ℕ
deriving DecidableEq

def DentryPtr.name (d : DentryPtr) (r : NameSlice) : List Byte :=
  slice d.filename (slotLen * r.slot) r.len

/-- The name of the entry in a slot. -/
def DentryPtr.nameSlice (d : DentryPtr) (i : ℕ) : NameSlice := ⟨i, (d.dentry i).nameLen⟩

/-- A dentry block or area, with its reserved bytes behind the bitmap. -/
def DentryPtr.ofBytes (max bitmapSize reservedSize : ℕ) (t : Area) : DentryPtr where
  max := max
  bitmap := fun i => (t (i / 8)).getLsbD (i % 8)
  dentry := fun i =>
    let de := bitmapSize + reservedSize + sizeOfDirEntry * i
    ⟨getLe t de 4, getLe t (de + 4) 4, getLe t (de + 8) 2, getLe t (de + 10) 1⟩
  filename := fun k => t (bitmapSize + reservedSize + sizeOfDirEntry * max + k)

/-- `NR_DENTRY_IN_BLOCK`. -/
def nrDentryInBlock : ℕ := 214

/-- `make_dentry_ptr_block`, with `SIZE_OF_DENTRY_BITMAP` and `SIZE_OF_RESERVED`. -/
def makeDentryPtrBlock (t : Area) : DentryPtr := .ofBytes nrDentryInBlock 27 3 t

/-- `NR_INLINE_DENTRY`. -/
def nrInlineDentry (maxInlineData : ℕ) : ℕ :=
  maxInlineData * 8 / ((sizeOfDirEntry + slotLen) * 8 + 1)

/-- `make_dentry_ptr_inline`. -/
def makeDentryPtrInline (maxInlineData : ℕ) (t : Area) : DentryPtr :=
  let entryCnt := nrInlineDentry maxInlineData
  let bitmapSize := (entryCnt + 8 - 1) / 8
  let reservedSize := maxInlineData - ((sizeOfDirEntry + slotLen) * entryCnt + bitmapSize)
  .ofBytes entryCnt bitmapSize reservedSize t

/-! ## `f2fs_find_target_dentry` -/

structure FindResult where
  /-- The slot of the entry. -/
  de : Option ℕ
  /-- `*max_slots`, if the caller wants it. -/
  maxSlots : Option ℕ
  compared : List NameSlice

/-- `if (max_slots && max_len > *max_slots) *max_slots = max_len`. -/
def bumpMaxSlots (maxSlots : Option ℕ) (maxLen : ℕ) : Option ℕ := maxSlots.map (max · maxLen)

/-- The loop; `none` if it takes more rounds than `fuel`. -/
def findLoop (d : DentryPtr) (namehash : ℕ) (matchName : List Byte → Bool) :
    ℕ → ℕ → ℕ → Option ℕ → Option FindResult
  | 0, _, _, _ => none
  | fuel + 1, bitPos, maxLen, maxSlots =>
      if bitPos < d.max then
        if !d.bitmap bitPos then
          findLoop d namehash matchName fuel (bitPos + 1) (maxLen + 1) maxSlots
        else
          let de := d.dentry bitPos
          if de.nameLen = 0 then findLoop d namehash matchName fuel (bitPos + 1) maxLen maxSlots
          else
            let compared := if de.hashCode = namehash then [d.nameSlice bitPos] else []
            if de.hashCode = namehash ∧ matchName (d.name (d.nameSlice bitPos)) = true then
              some ⟨some bitPos, bumpMaxSlots maxSlots maxLen, compared⟩
            else
              (findLoop d namehash matchName fuel (bitPos + getDentrySlots de.nameLen) 0
                (bumpMaxSlots maxSlots maxLen)).map fun r =>
                  { r with compared := compared ++ r.compared }
      else some ⟨none, bumpMaxSlots maxSlots maxLen, []⟩

/-- `f2fs_find_target_dentry`; `matchName` is `fscrypt_match_name` for the name that is looked
up. -/
def f2fsFindTargetDentry (d : DentryPtr) (namehash : ℕ) (matchName : List Byte → Bool)
    (wantsMaxSlots : Bool) : Option FindResult :=
  findLoop d namehash matchName (d.max + 1) 0 0 (if wantsMaxSlots then some 0 else none)

/-! ## `f2fs_fill_dentries` -/

/-- `struct dir_context`, with the number of entries that the consumer still takes. -/
structure DirContext where
  pos : ℕ
  room : ℕ
deriving DecidableEq

/-- What `dir_emit` hands to the consumer. -/
structure Emit where
  /-- A ghost: where the entry stands in its block. -/
  slot : ℕ
  name : List Byte
  ino : ℕ
  dType : ℕ
deriving DecidableEq

/-- `f2fs_get_de_type`, with `f2fs_filetype_table`. -/
def f2fsGetDeType (de : DirEntry) : ℕ :=
  if de.fileType < 8 then [0, 8, 4, 2, 6, 1, 12, 10].getD de.fileType 0 else 0

inductive FillRet where
  | done
  /-- 1: the consumer has had enough. -/
  | full
  | failed
deriving DecidableEq

structure FillResult where
  ret : FillRet
  ctx : DirContext
  emitted : List Emit
  /-- The names that were decrypted or given to `dir_emit`. -/
  named : List NameSlice

/-- One entry has been given out, before the rest. -/
def FillResult.cons (e : Emit) (r : NameSlice) (x : FillResult) : FillResult :=
  { x with emitted := e :: x.emitted, named := r :: x.named }

/-- The loop.  `diskToUsr` is `fscrypt_fname_disk_to_usr`, or the identity if the directory is not
encrypted. -/
def fillLoop (d : DentryPtr) (startPos : ℕ) (diskToUsr : ℕ → List Byte → Option (List Byte)) :
    ℕ → ℕ → DirContext → Option FillResult
  | 0, _, _ => none
  | fuel + 1, bitPos, ctx =>
      if bitPos < d.max then
        let bitPos := findNextBit d.bitmap d.max bitPos
        if bitPos ≥ d.max then some ⟨.done, ctx, [], []⟩
        else
          let de := d.dentry bitPos
          if de.nameLen = 0 then
            fillLoop d startPos diskToUsr fuel (bitPos + 1)
              { ctx with pos := (startPos + (bitPos + 1)) % 2 ^ 32 }
          else
            match diskToUsr de.hashCode (d.name (d.nameSlice bitPos)) with
            | none => some ⟨.failed, ctx, [], [d.nameSlice bitPos]⟩
            | some name =>
                if ctx.room = 0 then some ⟨.full, ctx, [], [d.nameSlice bitPos]⟩
                else
                  let next := bitPos + getDentrySlots de.nameLen
                  (fillLoop d startPos diskToUsr fuel next
                    ⟨(startPos + next) % 2 ^ 32, ctx.room - 1⟩).map
                      (FillResult.cons ⟨bitPos, name, de.ino, f2fsGetDeType de⟩ (d.nameSlice bitPos))
      else some ⟨.done, ctx, [], []⟩

/-- `f2fs_fill_dentries`; `start_pos`, and with it every new position, is an `unsigned int`. -/
def f2fsFillDentries (ctx : DirContext) (d : DentryPtr) (startPos : ℕ)
    (diskToUsr : ℕ → List Byte → Option (List Byte)) : Option FillResult :=
  fillLoop d startPos diskToUsr (d.max + 1) (ctx.pos % d.max) ctx

/-! ## `f2fs_add_inline_entries` -/

structure AddResult where
  ok : Bool
  inserted : List NameSlice

/-- The loop; `addRegularEntry` is `f2fs_add_regular_entry`. -/
def addLoop (d : DentryPtr) (addRegularEntry : List Byte → ℕ → ℕ → Bool) :
    ℕ → ℕ → Option AddResult
  | 0, _ => none
  | fuel + 1, bitPos =>
      if bitPos < d.max then
        if !d.bitmap bitPos then addLoop d addRegularEntry fuel (bitPos + 1)
        else
          let de := d.dentry bitPos
          if de.nameLen = 0 then addLoop d addRegularEntry fuel (bitPos + 1)
          else if addRegularEntry (d.name (d.nameSlice bitPos)) de.ino (f2fsGetDeType de) then
            (addLoop d addRegularEntry fuel (bitPos + getDentrySlots de.nameLen)).map fun r =>
              { r with inserted := d.nameSlice bitPos :: r.inserted }
          else some ⟨false, [d.nameSlice bitPos]⟩
      else some ⟨true, []⟩

def f2fsAddInlineEntries (d : DentryPtr) (addRegularEntry : List Byte → ℕ → ℕ → Bool) :
    Option AddResult :=
  addLoop d addRegularEntry (d.max + 1) 0

/-! ## What they should do with any block -/

/-- The name lies in the file name array, and is no longer than a name may be. -/
def NameSlice.InBounds (d : DentryPtr) (r : NameSlice) : Prop :=
  slotLen * r.slot + r.len ≤ slotLen * d.max ∧ r.len ≤ f2fsNameLen

/-- The loop ends, and the names are in bounds. -/
def EndsInBounds {α : Type} (d : DentryPtr) (names : α → List NameSlice) (run : Option α) : Prop :=
  ∃ x, run = some x ∧ ∀ r ∈ names x, r.InBounds d

/-- **Any block is handled in bounds**, whatever is looked up and wherever the listing goes on. -/
structure HandledInBounds (d : DentryPtr) : Prop where
  find : ∀ (namehash : ℕ) (matchName : List Byte → Bool) (wantsMaxSlots : Bool),
    EndsInBounds d FindResult.compared (f2fsFindTargetDentry d namehash matchName wantsMaxSlots)
  fill : ∀ (ctx : DirContext) (startPos : ℕ) (diskToUsr : ℕ → List Byte → Option (List Byte)),
    EndsInBounds d FillResult.named (f2fsFillDentries ctx d startPos diskToUsr)
  add : ∀ addRegularEntry : List Byte → ℕ → ℕ → Bool,
    EndsInBounds d AddResult.inserted (f2fsAddInlineEntries d addRegularEntry)

/-- The entry of a slot: the bit is set, and it is not the continuation of a name. -/
def DentryPtr.HasEntry (d : DentryPtr) (i : ℕ) : Prop :=
  i < d.max ∧ d.bitmap i = true ∧ (d.dentry i).nameLen ≠ 0

instance (d : DentryPtr) : DecidablePred d.HasEntry := fun _ => inferInstanceAs (Decidable (_ ∧ _))

/-- The names that the block has are in bounds. -/
def NamesFit (d : DentryPtr) : Prop := ∀ i, d.HasEntry i → (d.nameSlice i).InBounds d

/-! ## The loops end, at entries of the block -/

section

variable {d : DentryPtr}

/-- The loop ends, and the names it hands on are names of the block. -/
def EndsOnEntries {α : Type} (d : DentryPtr) (names : α → List NameSlice) (run : Option α) : Prop :=
  ∃ x, run = some x ∧ ∀ r ∈ names x, ∃ i, d.HasEntry i ∧ r = d.nameSlice i

lemma EndsOnEntries.inBounds {α : Type} {names : α → List NameSlice} {run : Option α}
    (h : EndsOnEntries d names run) (hfit : NamesFit d) : EndsInBounds d names run := by
  obtain ⟨x, hx, hnames⟩ := h
  refine ⟨x, hx, fun r hr => ?_⟩
  obtain ⟨i, hi, rfl⟩ := hnames r hr
  exact hfit i hi

/-- An entry takes a slot at least, so each round gets on. -/
lemma getDentrySlots_pos {n : ℕ} (h : n ≠ 0) : 0 < getDentrySlots n :=
  Nat.div_pos (by unfold slotLen; omega) (by decide)

lemma findLoop_ends {namehash : ℕ} {matchName : List Byte → Bool} {fuel bitPos maxLen : ℕ}
    {maxSlots : Option ℕ} (h : d.max - bitPos < fuel) :
    EndsOnEntries d FindResult.compared
      (findLoop d namehash matchName fuel bitPos maxLen maxSlots) := by
  induction fuel generalizing bitPos maxLen maxSlots with
  | zero => simp at h
  | succ fuel ih =>
      unfold findLoop
      by_cases hlt : bitPos < d.max
      · rw [if_pos hlt]
        cases hbit : d.bitmap bitPos with
        | false =>
            rw [Bool.not_false, if_pos rfl]
            exact ih (by omega)
        | true =>
            rw [Bool.not_true, if_neg Bool.false_ne_true]
            by_cases hlen : (d.dentry bitPos).nameLen = 0
            · simp only [hlen, if_true]
              exact ih (by omega)
            · have hpos := getDentrySlots_pos hlen
              have hcompared : ∀ r ∈ (if (d.dentry bitPos).hashCode = namehash then
                  [d.nameSlice bitPos] else []), ∃ i, d.HasEntry i ∧ r = d.nameSlice i := by
                intro r hr
                split_ifs at hr
                · exact ⟨bitPos, ⟨hlt, hbit, hlen⟩, List.mem_singleton.mp hr⟩
                · simp at hr
              simp only [hlen, if_false]
              generalize (if (d.dentry bitPos).hashCode = namehash then [d.nameSlice bitPos]
                else []) = compared at hcompared
              split_ifs with hmatch
              · exact ⟨_, rfl, hcompared⟩
              · obtain ⟨x, hx, hnames⟩ :=
                  @ih (bitPos + getDentrySlots (d.dentry bitPos).nameLen) 0
                    (bumpMaxSlots maxSlots maxLen) (by omega)
                rw [hx]
                refine ⟨_, rfl, fun r hr => ?_⟩
                rcases List.mem_append.mp hr with hr | hr
                · exact hcompared r hr
                · exact hnames r hr
      · rw [if_neg hlt]
        exact ⟨_, rfl, by simp⟩

lemma fillLoop_ends {startPos : ℕ} {diskToUsr : ℕ → List Byte → Option (List Byte)}
    {fuel bitPos : ℕ} {ctx : DirContext} (h : d.max - bitPos < fuel) :
    EndsOnEntries d FillResult.named (fillLoop d startPos diskToUsr fuel bitPos ctx) := by
  induction fuel generalizing bitPos ctx with
  | zero => simp at h
  | succ fuel ih =>
      unfold fillLoop
      by_cases hlt : bitPos < d.max
      · rw [if_pos hlt]
        simp only []
        by_cases hend : findNextBit d.bitmap d.max bitPos ≥ d.max
        · rw [if_pos hend]
          exact ⟨_, rfl, by simp⟩
        · rw [if_neg hend]
          have hnext := le_findNextBit (not_le.mp hend)
          have hbit := findNextBit_set (not_le.mp hend)
          generalize findNextBit d.bitmap d.max bitPos = i at *
          by_cases hlen : (d.dentry i).nameLen = 0
          · simp only [hlen, if_true]
            exact ih (by omega)
          · have hentry : d.HasEntry i := ⟨not_le.mp hend, hbit, hlen⟩
            have hpos := getDentrySlots_pos hlen
            have hone : ∀ r ∈ [d.nameSlice i], ∃ j, d.HasEntry j ∧ r = d.nameSlice j := fun r hr =>
              ⟨i, hentry, List.mem_singleton.mp hr⟩
            rw [if_neg hlen]
            cases diskToUsr (d.dentry i).hashCode (d.name (d.nameSlice i)) with
            | none => exact ⟨_, rfl, hone⟩
            | some name =>
                simp only []
                split_ifs with hroom
                · exact ⟨_, rfl, hone⟩
                · obtain ⟨x, hx, hnames⟩ := @ih (i + getDentrySlots (d.dentry i).nameLen)
                    ⟨(startPos + (i + getDentrySlots (d.dentry i).nameLen)) % 2 ^ 32,
                      ctx.room - 1⟩ (by omega)
                  rw [hx]
                  refine ⟨_, rfl, fun r hr => ?_⟩
                  rcases List.mem_cons.mp hr with rfl | hr
                  · exact ⟨i, hentry, rfl⟩
                  · exact hnames r hr
      · rw [if_neg hlt]
        exact ⟨_, rfl, by simp⟩

lemma addLoop_ends {addRegularEntry : List Byte → ℕ → ℕ → Bool} {fuel bitPos : ℕ}
    (h : d.max - bitPos < fuel) :
    EndsOnEntries d AddResult.inserted (addLoop d addRegularEntry fuel bitPos) := by
  induction fuel generalizing bitPos with
  | zero => simp at h
  | succ fuel ih =>
      unfold addLoop
      by_cases hlt : bitPos < d.max
      · rw [if_pos hlt]
        cases hbit : d.bitmap bitPos with
        | false =>
            rw [Bool.not_false, if_pos rfl]
            exact ih (by omega)
        | true =>
            rw [Bool.not_true, if_neg Bool.false_ne_true]
            by_cases hlen : (d.dentry bitPos).nameLen = 0
            · simp only [hlen, if_true]
              exact ih (by omega)
            · have hentry : d.HasEntry bitPos := ⟨hlt, hbit, hlen⟩
              have hpos := getDentrySlots_pos hlen
              simp only [hlen, if_false]
              split_ifs with hadd
              · obtain ⟨x, hx, hnames⟩ :=
                  @ih (bitPos + getDentrySlots (d.dentry bitPos).nameLen) (by omega)
                rw [hx]
                refine ⟨_, rfl, fun r hr => ?_⟩
                rcases List.mem_cons.mp hr with rfl | hr
                · exact ⟨bitPos, hentry, rfl⟩
                · exact hnames r hr
              · exact ⟨_, rfl, fun r hr => ⟨bitPos, hentry, List.mem_singleton.mp hr⟩⟩
      · rw [if_neg hlt]
        exact ⟨_, rfl, by simp⟩

/-- A listing that goes on at an entry gives it to the consumer. -/
lemma fillDentries_at {i : ℕ} (h : d.HasEntry i) :
    ∃ x, f2fsFillDentries ⟨i, 0⟩ d 0 (fun _ name => some name) = some x ∧
      d.nameSlice i ∈ x.named := by
  obtain ⟨hlt, hbit, hlen⟩ := h
  have hfind : findNextBit d.bitmap d.max i = i := findNextBit_of_set hlt hbit
  unfold f2fsFillDentries fillLoop
  simp only [Nat.mod_eq_of_lt hlt, hlt, if_true, hfind]
  rw [if_neg (by omega), if_neg hlen]
  exact ⟨_, rfl, by simp⟩

end

/-- **A block is handled in bounds iff no entry of it has a name that is too long or leaves the
array.** -/
theorem handled_in_bounds_iff (d : DentryPtr) : HandledInBounds d ↔ NamesFit d := by
  constructor
  · intro h i hi
    obtain ⟨x, hx, hmem⟩ := fillDentries_at hi
    obtain ⟨x', hx', hnames⟩ := h.fill ⟨i, 0⟩ 0 fun _ name => some name
    obtain rfl := Option.some.inj (hx.symm.trans hx')
    exact hnames _ hmem
  · intro hfit
    refine ⟨fun _ _ _ => ?_, fun _ _ _ => ?_, fun _ => ?_⟩
    · exact (findLoop_ends (by omega)).inBounds hfit
    · exact (fillLoop_ends (by omega)).inBounds hfit
    · exact (addLoop_ends (by omega)).inBounds hfit

/-- A dentry block in which the last slot is in use, with a name of 65535 bytes. -/
def lastSlotTooLong : Area := fun x =>
  if x = 26 then 0x20 else if x = 30 + 11 * 213 + 8 ∨ x = 30 + 11 * 213 + 9 then 0xff else 0

/-- **A corrupted length is believed**: the listing of that block hands on 65535 bytes from its last
eight. -/
theorem last_slot_too_long : ¬ ∀ t : Area, HandledInBounds (makeDentryPtrBlock t) := by
  intro hall
  have hentry : (makeDentryPtrBlock lastSlotTooLong).HasEntry 213 := by decide +kernel
  obtain ⟨x, hx, hmem⟩ := fillDentries_at hentry
  obtain ⟨x', hx', hnames⟩ := (hall lastSlotTooLong).fill ⟨213, 0⟩ 0 fun _ name => some name
  obtain rfl := Option.some.inj (hx.symm.trans hx')
  have hlong : ((makeDentryPtrBlock lastSlotTooLong).nameSlice 213).len = 65535 := by
    decide +kernel
  have hle := (hnames _ hmem).2
  rw [hlong] at hle
  exact absurd hle (by decide)

end Hoit.Dir
