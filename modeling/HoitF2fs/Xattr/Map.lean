import HoitF2fs.Xattr.Entries
import Mathlib.Data.List.TakeWhile

/-!
# Extended attributes are a map

* `stored` — the bytes of the two areas, one after the other.
* `XattrOk` — the list that stands there: its entries are the attributes that were set last.
* `lookupAllXattrs_spec` — **the split search is right**, unless the inline area ends before the word
  after the header.
* `setxattr_spec` — a call that fails changes nothing, and a call that succeeds leaves a list again.
* `xattr_map_iff` — for which sizes of the inline area all runs are right.

An inline area of at most 24 bytes has no room for the first word of the list.  The search in the
inline area looks at that word all the same, finds the zeros of the buffer, and takes them for the end
of the list: the block is never read.
-/

namespace Hoit.Xattr

open Transition ByteStore

variable {a b : Area} {e index n hsize : ℕ} {name : List Byte} {r : XattrEntry} {env : XattrEnv}
  {rs ss : List XattrEntry} {s s' : XattrInode} {x : XattrState} {er : Errno}

/-! ## Reading -/

/-- The bytes that are stored for an inode. -/
def stored (n : ℕ) (s : XattrInode) : Area := fun x =>
  if x < n then s.inlineArea x
  else
    match s.xattrNode with
    | some node => if x < n + validXattrBlockSize then node (x - n) else 0
    | none => 0

/-- A read fails because of the environment. -/
def XattrEnv.ReadFails (env : XattrEnv) (er : Errno) : Prop :=
  (env.noMem = true ∧ er = .ENOMEM) ∨
    (env.ipage = false ∧ ∃ k, env.readInodePage = some k ∧ er = .io k) ∨
      ∃ k, env.readXattrPage = some k ∧ er = .io k

lemma readInline_ok (h : readInline n s env = .ok a) (x : ℕ) :
    a x = if x < n then s.inlineArea x else 0 := by
  unfold readInline readInlineXattr at h
  by_cases hn : 0 < n
  · rw [if_pos hn] at h
    split at h
    · simp at h
    · obtain rfl := Except.ok.inj h
      by_cases hx : x < n
      · rw [memcpy_in (Nat.zero_le x) (by omega), if_pos hx, Nat.zero_add, Nat.sub_zero]
      · rw [memcpy_out (by omega), if_neg hx]
  · rw [if_neg hn] at h
    obtain rfl := Except.ok.inj h
    rw [if_neg (by omega)]

lemma readInline_error (h : readInline n s env = .error er) : env.ReadFails er := by
  unfold readInline readInlineXattr at h
  split_ifs at h with hn hip
  split at h
  · next k hk =>
      obtain rfl := Except.error.inj h
      exact Or.inr (Or.inl ⟨by simpa using hip, k, hk, rfl⟩)
  · simp at h

lemma readNode_ok (ha : ∀ x, a x = if x < n then s.inlineArea x else 0)
    (h : readNode n s env a = .ok b) : b = stored n s := by
  funext x
  unfold readNode readXattrBlock at h
  unfold stored
  cases hnode : s.xattrNode with
  | none =>
      simp only [hnode] at h
      obtain rfl := Except.ok.inj h
      exact ha x
  | some node =>
      simp only [hnode] at h
      split at h
      · simp at h
      · obtain rfl := Except.ok.inj h
        by_cases hx : x < n
        · rw [memcpy_out (Or.inl hx), ha, if_pos hx, if_pos hx]
        rw [if_neg hx]
        by_cases hx' : x < n + validXattrBlockSize
        · simp only [if_pos hx']
          rw [memcpy_in (by omega) hx', Nat.zero_add]
        · simp only [if_neg hx']
          rw [memcpy_out (by omega), ha, if_neg hx]

lemma readNode_error (h : readNode n s env a = .error er) : env.ReadFails er := by
  unfold readNode readXattrBlock at h
  split at h
  · split at h
    · next k hk =>
        obtain rfl := Except.error.inj h
        exact Or.inr (Or.inr ⟨k, hk, rfl⟩)
    · simp at h
  · simp at h

/-- **The buffer has what is stored**, behind the header. -/
lemma readAllXattrs_ok (h : readAllXattrs n s env = .ok a) (x : ℕ) (hx : headerSize ≤ x) :
    a x = stored n s x := by
  unfold readAllXattrs at h
  split_ifs at h
  split at h
  · simp at h
  · next a₁ hinline =>
      split at h
      · simp at h
      · next a₂ hnode =>
          obtain rfl := readNode_ok (readInline_ok hinline) hnode
          split_ifs at h
          · rw [← Except.ok.inj h]
          · obtain rfl := Except.ok.inj h
            have h24 : (24 : ℕ) ≤ x := hx
            rw [Patch.apply_of_not_covers, Patch.apply_of_not_covers]
            · exact fun hc => absurd hc.2 (by simp only [putLe_off, putLe_len]; omega)
            · exact fun hc => absurd hc.2 (by simp only [putLe_off, putLe_len]; omega)

lemma readAllXattrs_error (h : readAllXattrs n s env = .error er) : env.ReadFails er := by
  unfold readAllXattrs at h
  split_ifs at h with hmem
  · exact Or.inl ⟨hmem, (Except.error.inj h).symm⟩
  · split at h
    · next hinline =>
        obtain rfl := Except.error.inj h
        exact readInline_error hinline
    · split at h
      · next hnode =>
          obtain rfl := Except.error.inj h
          exact readNode_error hnode
      · split_ifs at h

/-! ## The invariant -/

/-- **The list that is stored.** -/
structure XattrOk (n : ℕ) (x : XattrState) (rs : List XattrEntry) : Prop where
  fits : ∀ r ∈ rs, r.Fits
  nodup : (rs.map fun r => (r.index, r.name)).Nodup
  attrs : ∀ index name v, x.attrs index name = some v ↔ ⟨index, name, v⟩ ∈ rs
  holds : Holds (stored n x.inode) headerSize (listBytes rs)
  room : headerSize + (listBytes rs).length ≤ n + validXattrBlockSize

lemma XattrOk.fuel (h : XattrOk n x rs) : rs.length ≤ txattrSize n := by
  have hlen := length_le_listBytes rs
  have hroom := h.room
  unfold txattrSize
  omega

/-- The entry that is looked for stands at `e`, or the list ends there. -/
def FoundAt (a : Area) (e : ℕ) : List XattrEntry → Prop
  | [] => isXattrLastEntry a e = true
  | r :: _ => EntryAt a e r

lemma foundAt (hfits : ∀ r ∈ rs, r.Fits) (h : Holds a e (listBytes rs)) : FoundAt a e rs := by
  cases rs with
  | nil => exact isXattrLastEntry_of_holds h
  | cons r rs => exact entryAt (hfits r List.mem_cons_self) (Holds.has h)

/-- Where the entry stands that is looked for. -/
def position (index : ℕ) (name : List Byte) (rs : List XattrEntry) : ℕ :=
  headerSize + (listBytes (entriesBefore index name rs)).length

lemma mem_of_mem_entriesFrom (h : r ∈ entriesFrom index name rs) : r ∈ rs :=
  (List.dropWhile_sublist _).subset h

/-- From its position on, the list goes on with the entry. -/
lemma holds_entriesFrom (index : ℕ) (name : List Byte) (h : Holds a headerSize (listBytes rs)) :
    Holds a (position index name rs) (listBytes (entriesFrom index name rs)) := by
  rw [← entriesBefore_append_entriesFrom index name rs, listBytes_append] at h
  exact h.skip

/-- **The search of the whole list.** -/
lemma findXattr_spec (index : ℕ) (name : List Byte) (h : XattrOk n x rs)
    (ha : ∀ y, headerSize ≤ y → a y = stored n x.inode y) :
    findXattr n a 0 index name = position index name rs ∧
      FoundAt a (position index name rs) (entriesFrom index name rs) := by
  have hholds : Holds a headerSize (listBytes rs) := h.holds.congr fun y hy => ha y hy
  constructor
  · rw [findXattr, xattrFirstEntry, Nat.zero_add, findXattrFrom_eq h.fits hholds h.fuel, position]
  · exact foundAt (fun r hr => h.fits r (mem_of_mem_entriesFrom hr)) (holds_entriesFrom index name hholds)

/-! ## The split search -/

/-- What a lookup gives: the entry, or that there is none, unless the areas cannot be read. -/
def LookupRight (n : ℕ) (s : XattrInode) (env : XattrEnv) (index : ℕ) (name : List Byte)
    (rs : List XattrEntry) : Except Errno (ℕ × Area) → Prop
  | .ok (e, a) => e = position index name rs ∧
      ∃ r rest, entriesFrom index name rs = r :: rest ∧ EntryAt a e r ∧ Has a e r.bytes
  | .error er =>
      (er = .ENODATA ∧ entriesFrom index name rs = []) ∨ readAllXattrs n s env = .error er

/-- The end of a lookup, in a buffer that has the entry or the end of the list at its position. -/
lemma checkLast_right (hfits : ∀ r ∈ rs, r.Fits)
    (hnil : entriesFrom index name rs = [] → isXattrLastEntry a (position index name rs) = true)
    (hhas : ∀ r ∈ (entriesFrom index name rs).head?, Has a (position index name rs) r.bytes) :
    LookupRight n s env index name rs (checkLast a (position index name rs)) := by
  unfold checkLast
  cases hfrom : entriesFrom index name rs with
  | nil =>
      rw [if_pos (hnil hfrom)]
      exact Or.inl ⟨rfl, hfrom⟩
  | cons r rest =>
      rw [hfrom] at hhas
      have hentry := entryAt (hfits r (mem_of_mem_entriesFrom (hfrom ▸ List.mem_cons_self)))
        (hhas r rfl)
      rw [if_neg (by simp [hentry.notLast])]
      exact ⟨rfl, r, rest, hfrom, hentry, hhas r rfl⟩

/-- **The second part of a lookup**, from an entry that the first part has come to. -/
lemma lookupRest_right {txattr : Area} (h : XattrOk n x (rs ++ ss))
    (hrs : ∀ r ∈ rs, ¬ r.Is index name) (hmem : ¬ env.noMem = true)
    (hinline : readInline n x.inode env = .ok txattr) :
    LookupRight n x.inode env index name (rs ++ ss)
      (lookupRest n x.inode env index name txattr (listBytes rs).length) := by
  unfold lookupRest
  cases hnode : readNode n x.inode env txattr with
  | error er =>
      refine Or.inr ?_
      simp only [readAllXattrs, if_neg hmem, hinline, hnode]
  | ok a =>
      obtain rfl := readNode_ok (readInline_ok hinline) hnode
      have hskip : Holds (stored n x.inode) (headerSize + (listBytes rs).length) (listBytes ss) := by
        have hholds := h.holds
        rw [listBytes_append] at hholds
        exact hholds.skip
      have hfuel : ss.length ≤ txattrSize n := by
        have hle := h.fuel
        rw [List.length_append] at hle
        omega
      have hbefore : entriesBefore index name (rs ++ ss) = rs ++ entriesBefore index name ss :=
        List.takeWhile_append_of_pos fun r hr => by simpa using hrs r hr
      have hfind : findXattr n (stored n x.inode) (listBytes rs).length index name
          = position index name (rs ++ ss) := by
        rw [findXattr, xattrFirstEntry, Nat.add_comm, findXattrFrom_eq
          (fun r hr => h.fits r (List.mem_append_right _ hr)) hskip hfuel, position, hbefore,
          listBytes_append, List.length_append, Nat.add_assoc]
      dsimp only
      rw [hfind]
      have hrest := holds_entriesFrom index name h.holds
      refine checkLast_right h.fits (fun hnil => ?_) fun r hr => ?_
      · rw [hnil] at hrest
        exact isXattrLastEntry_of_holds hrest
      · obtain ⟨rest, hcons⟩ := List.head?_eq_some_iff.mp hr
        rw [hcons] at hrest
        exact Holds.has hrest

/-- **A lookup finds the entry**, if there is no inline area or the first word of the list is in it. -/
lemma lookupAllXattrs_right (env : XattrEnv) (index : ℕ) (name : List Byte) (h : XattrOk n x rs)
    (hn : n = 0 ∨ 28 ≤ n) :
    LookupRight n x.inode env index name rs (lookupAllXattrs n x.inode env index name) := by
  unfold lookupAllXattrs
  by_cases hnone : x.inode.xattrNode.isNone = true ∧ n = 0
  · -- Neither an inline area nor a block: nothing is stored.
    rw [if_pos hnone]
    obtain ⟨hnode, rfl⟩ := hnone
    have hempty : rs = [] := by
      by_contra hrs
      obtain ⟨r, rest, rfl⟩ := List.exists_cons_of_ne_nil hrs
      have hr := h.fits r List.mem_cons_self
      have hidx := (entryAt hr (Holds.has h.holds)).index
      rw [Option.isNone_iff_eq_none] at hnode
      have hzero : eNameIndex (stored 0 x.inode) headerSize = 0 := by
        simp [eNameIndex, stored, hnode]
      exact absurd hr.pos (by omega)
    exact Or.inl ⟨rfl, by rw [hempty]; rfl⟩
  rw [if_neg hnone]
  by_cases hmem : env.noMem = true
  · rw [if_pos hmem]
    exact Or.inr (by rw [readAllXattrs, if_pos hmem])
  rw [if_neg hmem]
  cases hinline : readInline n x.inode env with
  | error er => exact Or.inr (by simp only [readAllXattrs, if_neg hmem, hinline])
  | ok txattr =>
      have ha := readInline_ok hinline
      dsimp only
      by_cases hpos : 0 < n
      · rw [if_pos hpos]
        have hab : ∀ y < n, txattr y = stored n x.inode y := by
          intro y hy
          rw [ha, if_pos hy, stored, if_pos hy]
        have hspec := findInlineXattrFrom_spec index name hab h.fits h.holds
          (show headerSize + 4 ≤ n by unfold headerSize; omega) h.fuel
        unfold findInlineXattr xattrFirstEntry
        rw [Nat.zero_add]
        cases hfind : findInlineXattrFrom n txattr index name (txattrSize n) headerSize with
        | entry xe =>
            rw [hfind] at hspec
            obtain ⟨rfl, hword, hentry⟩ := hspec
            have hrest := holds_entriesFrom index name h.holds
            refine checkLast_right h.fits (fun hnil => ?_) fun r hr => ?_
            · rw [hnil] at hrest
              have hlast := isXattrLastEntry_of_holds hrest
              rwa [isXattrLastEntry, getLe_congr (b := stored n x.inode) fun k hk => hab _ ?_]
              unfold position
              omega
            · have hroom := hentry r hr
              obtain ⟨rest, hcons⟩ := List.head?_eq_some_iff.mp hr
              rw [hcons] at hrest
              refine (Holds.has hrest).congr fun y _ hy => hab y ?_
              rw [r.length_bytes, position] at hy
              omega
        | past last =>
            rw [hfind] at hspec
            obtain ⟨before, after, rfl, hbefore, rfl⟩ := hspec
            dsimp only
            rw [Nat.add_sub_cancel_left]
            exact lookupRest_right h hbefore hmem hinline
      · rw [if_neg hpos]
        show LookupRight n x.inode env index name ([] ++ rs)
          (lookupRest n x.inode env index name txattr (listBytes []).length)
        exact lookupRest_right h (by simp) hmem hinline

/-- The entry that is found has the value that was set last. -/
lemma XattrOk.attrs_cons {rest : List XattrEntry} (h : XattrOk n x rs)
    (hfrom : entriesFrom index name rs = r :: rest) : x.attrs index name = some r.value := by
  obtain ⟨rfl, rfl⟩ : r.Is index name := by
    have hhead := List.head?_dropWhile_not (fun r => !decide (r.Is index name)) rs
    rw [show rs.dropWhile _ = r :: rest from hfrom] at hhead
    simpa using hhead
  rw [h.attrs]
  exact mem_of_mem_entriesFrom (hfrom ▸ List.mem_cons_self)

lemma XattrOk.attrs_nil (h : XattrOk n x rs) (hfrom : entriesFrom index name rs = []) :
    x.attrs index name = none := by
  cases hattr : x.attrs index name with
  | none => rfl
  | some v =>
      have hnot := List.dropWhile_eq_nil_iff.mp hfrom _ ((h.attrs index name v).mp hattr)
      simp [XattrEntry.Is] at hnot

/-! ## Writing -/

/-- **What a write leaves**: the buffer, if there are only zeros behind the list, or everything as it
was. -/
def WriteRight (n : ℕ) (s : XattrInode) (hsize : ℕ) (a : Area) : XattrInode × Option Errno → Prop
  | (s', none) =>
      (∀ y, hsize ≤ y → a y = 0) → hsize ≤ n + validXattrBlockSize → stored n s' = a
  | (s', some _) => s' = s

lemma writeAllXattrs_right (n : ℕ) (s : XattrInode) (env : XattrEnv) (hsize : ℕ) (a : Area) :
    WriteRight n s hsize a (writeAllXattrs n s env hsize a) := by
  unfold writeAllXattrs
  by_cases hnid : n < hsize ∧ s.xattrNode.isNone = true ∧ env.noNid = true
  · rw [if_pos hnid]
    exact rfl
  rw [if_neg hnid]
  cases (if 0 < n ∧ env.ipage = false then env.writeInodePage else none) with
  | some k => rfl
  | none =>
      dsimp only
      by_cases hsmall : 0 < n ∧ hsize ≤ n
      · rw [if_pos hsmall]
        unfold f2fsTruncateXattrNode
        have hwrite : ∀ s₁ : XattrInode, s₁.xattrNode = none →
            WriteRight n s hsize a
              ({ s₁ with inlineArea := memcpy s₁.inlineArea 0 a 0 n }, none) := by
          intro s₁ hs₁ hzero _
          funext y
          simp only [stored, hs₁]
          by_cases hy : y < n
          · rw [if_pos hy, memcpy_in (Nat.zero_le y) (by omega), Nat.zero_add, Nat.sub_zero]
          · rw [if_neg hy, hzero y (by omega)]
        by_cases hnode : s.xattrNode.isNone = true
        · rw [if_pos hnode]
          exact hwrite s (Option.isNone_iff_eq_none.mp hnode)
        · rw [if_neg hnode]
          cases env.truncateXattrPage with
          | some k => rfl
          | none => exact hwrite { s with xattrNode := none } rfl
      · rw [if_neg hsmall]
        cases env.writeXattrPage with
        | some k => rfl
        | none =>
            intro hzero _
            funext y
            simp only [stored]
            by_cases hy : y < n
            · rw [if_pos hy, if_pos (by omega), memcpy_in (Nat.zero_le y) (by omega), Nat.zero_add,
                Nat.sub_zero]
            rw [if_neg hy]
            by_cases hy' : y < n + validXattrBlockSize
            · rw [if_pos hy', memcpy_in (Nat.zero_le _) (by omega)]
              congr 1
              omega
            · rw [if_neg hy', hzero y (by omega)]

/-! ## Setting -/

/-- The entries that stay when the one that is looked for is removed. -/
def kept (index : ℕ) (name : List Byte) (rs : List XattrEntry) : List XattrEntry :=
  rs.filter fun r => !decide (r.Is index name)

/-- The list after a call that has set or removed an attribute. -/
def entriesAfter (index : ℕ) (name : List Byte) (value : Option (List Byte))
    (rs : List XattrEntry) : List XattrEntry :=
  kept index name rs ++ value.toList.map fun v => ⟨index, name, v⟩

lemma mem_kept : r ∈ kept index name rs ↔ r ∈ rs ∧ ¬ r.Is index name := by
  simp [kept]

/-- Only the first entry can have the index and the name. -/
lemma kept_eq (index : ℕ) (name : List Byte)
    (hnodup : (rs.map fun r => (r.index, r.name)).Nodup) :
    kept index name rs = entriesBefore index name rs ++ (entriesFrom index name rs).tail := by
  induction rs with
  | nil => rfl
  | cons r rs ih =>
      obtain ⟨hnotin, hrest⟩ := List.nodup_cons.mp hnodup
      by_cases his : r.Is index name
      · rw [entriesBefore_cons_of_is his, entriesFrom_cons_of_is his, List.nil_append, List.tail_cons]
        have hnone : ∀ r' ∈ rs, ¬ r'.Is index name := by
          rintro r' hr' ⟨hi, hn⟩
          exact hnotin (List.mem_map.mpr ⟨r', hr', Prod.ext (hi.trans his.1.symm)
            (hn.trans his.2.symm)⟩)
        simp only [kept, List.filter_cons, his, decide_true, Bool.not_true, Bool.false_eq_true,
          if_false]
        exact List.filter_eq_self.mpr fun r' hr' => by simpa using hnone r' hr'
      · rw [entriesBefore_cons_of_not his, entriesFrom_cons_of_not his, List.cons_append, ← ih hrest]
        simp [kept, his]

/-- What is set last is what stands in the list. -/
lemma XattrOk.set (h : XattrOk n x rs) {value : Option (List Byte)}
    (hfits : ∀ v ∈ value, XattrEntry.Fits ⟨index, name, v⟩)
    (hholds : Holds (stored n s') headerSize (listBytes (entriesAfter index name value rs)))
    (hroom : headerSize + (listBytes (entriesAfter index name value rs)).length
      ≤ n + validXattrBlockSize) :
    XattrOk n ⟨s', Function.update x.attrs index (Function.update (x.attrs index) name value)⟩
      (entriesAfter index name value rs) := by
  refine ⟨fun r hr => ?_, ?_, fun i nm v => ?_, hholds, hroom⟩
  · rcases List.mem_append.mp hr with hr | hr
    · exact h.fits r (mem_kept.mp hr).1
    · obtain ⟨v, hv, rfl⟩ := List.mem_map.mp hr
      exact hfits v (Option.mem_toList.mp hv)
  · rw [entriesAfter, List.map_append, List.nodup_append]
    refine ⟨h.nodup.sublist (List.filter_sublist.map _), ?_, ?_⟩
    · cases value <;> simp
    · intro p hp q hq
      obtain ⟨r, hr, rfl⟩ := List.mem_map.mp hp
      obtain ⟨r', hr', rfl⟩ := List.mem_map.mp hq
      obtain ⟨v, -, rfl⟩ := List.mem_map.mp hr'
      intro heq
      obtain ⟨hi, hn⟩ := Prod.mk.inj heq
      exact (mem_kept.mp hr).2 ⟨hi, hn⟩
  · by_cases hkey : i = index ∧ nm = name
    · obtain ⟨rfl, rfl⟩ := hkey
      simp only [Function.update_self, entriesAfter, List.mem_append, mem_kept]
      cases value with
      | none => simp [XattrEntry.Is]
      | some v' => simp [XattrEntry.Is, eq_comm]
    · have hattrs : Function.update x.attrs index (Function.update (x.attrs index) name value) i nm
          = x.attrs i nm := by
        by_cases hi : i = index
        · subst hi
          rw [Function.update_self, Function.update_of_ne fun hnm => hkey ⟨rfl, hnm⟩]
        · rw [Function.update_of_ne hi]
      show Function.update x.attrs index _ i nm = some v ↔ _
      rw [hattrs, h.attrs, entriesAfter, List.mem_append, mem_kept]
      constructor
      · intro hmem
        exact Or.inl ⟨hmem, hkey⟩
      · rintro (⟨hmem, -⟩ | hmem)
        · exact hmem
        · obtain ⟨v', -, heq⟩ := List.mem_map.mp hmem
          injection heq with hi hn
          exact absurd ⟨hi.symm, hn.symm⟩ hkey

/-- The entry that was found is a part of the list. -/
lemma entrySize_le (h : XattrOk n x rs) (ha : ∀ y, headerSize ≤ y → a y = stored n x.inode y)
    (hfound : isXattrLastEntry a (position index name rs) = false) :
    entrySize a (position index name rs) ≤ (listBytes rs).length := by
  obtain ⟨-, hat⟩ := findXattr_spec index name h ha
  have hsplit := entriesBefore_append_entriesFrom index name rs
  cases hfrom : entriesFrom index name rs with
  | nil =>
      rw [hfrom] at hat
      exact absurd (hat.symm.trans hfound) (by simp)
  | cons r rest =>
      rw [hfrom] at hat hsplit
      rw [hat.toHeader.entrySize, ← hsplit, listBytes_append, listBytes_cons, List.length_append,
        List.length_append, r.length_bytes]
      omega

/-- The list without the old entry, and where it ends. -/
lemma removed (index : ℕ) (name : List Byte) (h : XattrOk n x rs)
    (ha : ∀ y, headerSize ≤ y → a y = stored n x.inode y) :
    let here := position index name rs
    let last := headerSize + (listBytes rs).length
    let oldsize := entrySize a here
    let found := !isXattrLastEntry a here
    (if found then last - oldsize else last) = headerSize + (listBytes (kept index name rs)).length ∧
      Holds (if found then
        clear (memcpy a here a (xattrNextEntry a here) (last - xattrNextEntry a here))
          (last - oldsize) oldsize else a) headerSize (listBytes (kept index name rs)) := by
  intro here last oldsize found
  obtain ⟨-, hat⟩ := findXattr_spec index name h ha
  have hholds : Holds a headerSize (listBytes rs) := h.holds.congr fun y hy => ha y hy
  have hsplit := entriesBefore_append_entriesFrom index name rs
  have hkept := kept_eq index name h.nodup
  cases hfrom : entriesFrom index name rs with
  | nil =>
      have hfound : found = false := by
        rw [hfrom] at hat
        have hlast : isXattrLastEntry a here = true := hat
        simp only [found, hlast, Bool.not_true]
      rw [hfrom, List.append_nil] at hsplit
      rw [hfrom, List.tail_nil, List.append_nil, hsplit] at hkept
      rw [hfound, if_neg Bool.false_ne_true, if_neg Bool.false_ne_true, hkept]
      exact ⟨rfl, hholds⟩
  | cons r rest =>
      rw [hfrom] at hat hsplit hkept
      rw [List.tail_cons] at hkept
      have hhead : Header a here r := hat.toHeader
      have hfound : found = true := by simp [found, hhead.notLast]
      have hlen : (listBytes rs).length
          = (listBytes (entriesBefore index name rs)).length + (r.size + (listBytes rest).length) := by
        rw [← hsplit, listBytes_append, List.length_append, listBytes_cons, List.length_append,
          r.length_bytes, hsplit]
      rw [hfound, if_pos rfl, if_pos rfl, hhead.next, show oldsize = r.size from hhead.entrySize, hkept,
        listBytes_append, List.length_append]
      constructor
      · simp only [last, hlen]
        omega
      · rw [← hsplit, listBytes_append, listBytes_cons, ← List.append_assoc] at hholds
        have hremove := hholds.remove
        have hrest : last - (here + r.size) = (listBytes rest).length := by
          simp only [last, here, position, hlen]
          omega
        have hend : last - r.size = headerSize + (listBytes (entriesBefore index name rs)).length
            + (listBytes rest).length := by
          simp only [last, hlen]
          omega
        rw [hrest, hend]
        rw [r.length_bytes] at hremove
        exact hremove

lemma listBytes_entriesAfter_none (index : ℕ) (name : List Byte) (rs : List XattrEntry) :
    listBytes (entriesAfter index name none rs) = listBytes (kept index name rs) := by
  simp [entriesAfter]

lemma listBytes_entriesAfter_some (index : ℕ) (name v : List Byte) (rs : List XattrEntry) :
    listBytes (entriesAfter index name (some v) rs)
      = listBytes (kept index name rs) ++ XattrEntry.bytes ⟨index, name, v⟩ := by
  simp [entriesAfter]

/-- **The old entry is removed, and the new one is written behind the others.** -/
lemma replaceXattr_ok (h : XattrOk n x rs) (ha : ∀ y, headerSize ≤ y → a y = stored n x.inode y)
    {value : Option (List Byte)}
    (hroom : headerSize + (listBytes (entriesAfter index name value rs)).length
      ≤ n + validXattrBlockSize)
    (hset : replaceXattr n x.inode env index name value a (position index name rs)
      (headerSize + (listBytes rs).length) (!isXattrLastEntry a (position index name rs))
        = (s', none)) :
    Holds (stored n s') headerSize (listBytes (entriesAfter index name value rs)) := by
  obtain ⟨hend, hholds⟩ := removed index name h ha
  unfold replaceXattr at hset
  simp only [hend] at hset
  have hright : ∀ {a₂ : Area} {hsize : ℕ} (l : List Byte), Holds a₂ headerSize l →
      hsize = headerSize + l.length → hsize ≤ n + validXattrBlockSize →
      writeAllXattrs n x.inode env hsize a₂ = (s', none) → Holds (stored n s') headerSize l := by
    rintro a₂ _ l hl rfl hle hwrite
    have hstored := writeAllXattrs_right n x.inode env (headerSize + l.length) a₂
    rw [hwrite] at hstored
    rw [hstored (fun y hy => hl.zero hy) hle]
    exact hl
  cases value with
  | none =>
      rw [listBytes_entriesAfter_none] at hroom ⊢
      exact hright _ hholds rfl hroom hset
  | some v =>
      set r : XattrEntry := ⟨index, name, v⟩ with hr
      rw [listBytes_entriesAfter_some, ← hr] at hroom ⊢
      have hnew := (hholds.append (newEntry index name v)).pad
        (r.size - (4 + r.name.length + r.value.length))
      rw [List.append_assoc] at hnew
      refine hright _ hnew ?_ (le_trans (le_of_eq ?_) hroom) hset
      · rw [List.length_append, ← Nat.add_assoc]
        exact congrArg _ r.length_bytes.symm
      · rw [List.length_append, ← Nat.add_assoc]
        exact congrArg _ r.length_bytes.symm

lemma minOffset_eq (hn : 4 ∣ n) : minOffset n = n + validXattrBlockSize := by
  obtain ⟨k, rfl⟩ := hn
  unfold minOffset xattrAlign validXattrBlockSize
  omega

/-- **A call that succeeds leaves a list again.** -/
lemma setxattrIn_ok (hn : 4 ∣ n) (h : XattrOk n x rs)
    (ha : ∀ y, headerSize ≤ y → a y = stored n x.inode y) {value : Option (List Byte)}
    {create replace : Bool} (hfits : ∀ v ∈ value, XattrEntry.Fits ⟨index, name, v⟩)
    (hset : setxattrIn n x.inode env index name value create replace a = (s', none)) :
    ∃ rs', XattrOk n
      ⟨s', Function.update x.attrs index (Function.update (x.attrs index) name value)⟩ rs' := by
  obtain ⟨hpos, hat⟩ := findXattr_spec index name h ha
  have hholds : Holds a headerSize (listBytes rs) := h.holds.congr fun y hy => ha y hy
  have hlast : lastXattrFrom a (txattrSize n) (position index name rs)
      = headerSize + (listBytes rs).length := by
    have hfuel := h.fuel
    have hsplit := entriesBefore_append_entriesFrom index name rs
    rw [← hsplit, List.length_append] at hfuel
    rw [lastXattrFrom_eq (fun r hr => h.fits r (mem_of_mem_entriesFrom hr))
      (holds_entriesFrom index name hholds) (by omega), position, Nat.add_assoc,
      ← List.length_append, ← listBytes_append, hsplit]
  unfold setxattrIn at hset
  simp only [hpos, hlast] at hset
  generalize hfree : (minOffset n : ℤ) - ((headerSize + (listBytes rs).length : ℕ) : ℤ)
    + ((if !isXattrLastEntry a (position index name rs) then
        entrySize a (position index name rs) else 0 : ℕ) : ℤ) = free at hset
  split at hset
  · simp at hset
  split at hset
  · -- The attribute has this value already.
    next hsame =>
      obtain ⟨rfl, -⟩ := Prod.mk.inj hset
      simp only [Bool.and_eq_true, Bool.not_eq_true', Option.any_eq_true, beq_iff_eq] at hsame
      obtain ⟨hfound, v, rfl, -, hvalue⟩ := hsame
      refine ⟨rs, ?_⟩
      have hattr : x.attrs index name = some v := by
        cases hfrom : entriesFrom index name rs with
        | nil =>
            rw [hfrom] at hat
            exact absurd (hat.symm.trans hfound) (by simp)
        | cons r rest =>
            rw [hfrom] at hat
            rw [h.attrs_cons hfrom, ← hvalue, hat.value]
      rw [← hattr, Function.update_eq_self, Function.update_eq_self]
      exact h
  split at hset
  · simp at hset
  split at hset
  · simp at hset
  next hspace =>
    obtain ⟨hend, -⟩ := removed index name h ha
    have hroom : headerSize + (listBytes (entriesAfter index name value rs)).length
        ≤ n + validXattrBlockSize := by
      have hle := h.room
      cases value with
      | none =>
          rw [listBytes_entriesAfter_none, ← hend]
          split_ifs <;> omega
      | some v =>
          rw [listBytes_entriesAfter_some, List.length_append, ← Nat.add_assoc, ← hend,
            XattrEntry.length_bytes]
          simp only [Option.isSome_some, Bool.true_and, decide_eq_true_eq, not_lt, Option.getD_some]
            at hspace
          rw [minOffset_eq hn] at hfree
          have hsize : xattrAlign (4 + name.length + v.length) = XattrEntry.size ⟨index, name, v⟩ := rfl
          rw [hsize] at hspace
          split_ifs at hfree ⊢ with hfound
          · have hpart := entrySize_le h ha (by simpa using hfound)
            omega
          · omega
    exact ⟨_, h.set hfits (replaceXattr_ok h ha hroom hset) hroom⟩

lemma SetCall.run_ok (hn : 4 ∣ n) (hmax : maxValueLen n < 65536) {c : SetCall} (h : XattrOk n x rs)
    (hpos : 0 < c.index) (hlt : c.index < 256) (hname : c.name = some name)
    (hrun : c.run n x.inode = (s', none)) :
    ∃ rs', XattrOk n
      ⟨s', Function.update x.attrs c.index (Function.update (x.attrs c.index) name c.value)⟩ rs' := by
  unfold SetCall.run f2fsSetxattr at hrun
  split at hrun
  · simp at hrun
  unfold setxattr at hrun
  rw [hname] at hrun
  dsimp only at hrun
  split_ifs at hrun with hlen hsize
  · simp at hrun
  · simp at hrun
  · cases hread : readAllXattrs n x.inode c.env with
    | error er => simp [hread] at hrun
    | ok a =>
        rw [hread] at hrun
        refine setxattrIn_ok hn h (readAllXattrs_ok hread) (fun v hv => ?_) hrun
        rw [hv, Option.getD_some] at hsize
        exact ⟨hpos, hlt, not_lt.mp hlen, lt_of_le_of_lt (not_lt.mp hsize) hmax⟩

/-- A call that fails leaves everything as it was. -/
def FailsClean (s : XattrInode) : XattrInode × Option Errno → Prop
  | (_, none) => True
  | (s', some _) => s' = s

lemma writeAllXattrs_clean : FailsClean s (writeAllXattrs n s env hsize a) := by
  have hright := writeAllXattrs_right n s env hsize a
  revert hright
  cases writeAllXattrs n s env hsize a with
  | mk s' res =>
      cases res with
      | none => exact fun _ => trivial
      | some er => exact id

lemma setxattrIn_clean {value : Option (List Byte)} {create replace : Bool} :
    FailsClean s (setxattrIn n s env index name value create replace a) := by
  have hreplace : ∀ here last found,
      FailsClean s (replaceXattr n s env index name value a here last found) := by
    intro here last found
    unfold replaceXattr
    cases value with
    | none => exact writeAllXattrs_clean
    | some v => exact writeAllXattrs_clean
  unfold setxattrIn
  extract_lets here found size last newsize free
  by_cases hexist : (found && create) = true
  · rw [if_pos hexist]
    exact rfl
  rw [if_neg hexist]
  split
  · trivial
  by_cases hnodata : (!found && replace) = true
  · rw [if_pos hnodata]
    exact rfl
  rw [if_neg hnodata]
  by_cases hspace : (value.isSome && decide (free < newsize)) = true
  · rw [if_pos hspace]
    exact rfl
  rw [if_neg hspace]
  exact hreplace _ _ _

/-- **A call that fails changes nothing**, whatever is stored. -/
lemma SetCall.run_clean (n : ℕ) (c : SetCall) (s : XattrInode) : FailsClean s (c.run n s) := by
  unfold SetCall.run f2fsSetxattr
  cases c.env.dquot with
  | some er => exact rfl
  | none =>
      dsimp only
      unfold setxattr
      cases c.name with
      | none => exact rfl
      | some name =>
          dsimp only
          by_cases hlen : f2fsNameLen < name.length
          · rw [if_pos hlen]
            exact rfl
          rw [if_neg hlen]
          by_cases hsize : maxValueLen n < (c.value.getD []).length
          · rw [if_pos hsize]
            exact rfl
          rw [if_neg hsize]
          cases readAllXattrs n s c.env with
          | error er => exact rfl
          | ok a => exact setxattrIn_clean

/-! ## Listing -/

/-- The name of an attribute as it is listed, if its handler lets it be seen. -/
def XattrEntry.shown (cfg : XattrConfig) (r : XattrEntry) : Option (List Byte) :=
  ((f2fsXattrHandler cfg r.index).filter XattrHandler.list).map fun handler =>
    prefixBytes handler.prefixOrName ++ r.name ++ [0]

/-- **What is listed**: every name that may be seen, once. -/
def shownNames (cfg : XattrConfig) (rs : List XattrEntry) : List Byte :=
  (rs.filterMap (XattrEntry.shown cfg)).flatten

/-- A list that does not fit into the buffer is an error. -/
def listResult (names : List Byte) : Option ℕ → Except Errno (ℕ × List Byte)
  | none => .ok (names.length, [])
  | some bufferSize =>
      if bufferSize < names.length then .error .ERANGE else .ok (names.length, names)

lemma shownNames_cons_none {cfg : XattrConfig} (h : r.shown cfg = none) :
    shownNames cfg (r :: rs) = shownNames cfg rs := by
  simp [shownNames, h]

lemma shownNames_cons_some {cfg : XattrConfig} {l : List Byte} (h : r.shown cfg = some l) :
    shownNames cfg (r :: rs) = l ++ shownNames cfg rs := by
  simp [shownNames, h]

lemma listXattrFrom_eq {cfg : XattrConfig} {buffer : Bool} {fuel total : ℕ} {out : List Byte} {rest : ℤ}
    (hfits : ∀ r ∈ rs, r.Fits) (h : Holds a e (listBytes rs)) (hfuel : rs.length ≤ fuel)
    (hrest : buffer = true → 0 ≤ rest) :
    listXattrFrom cfg a buffer fuel e total out rest
      = if buffer = true ∧ rest < (shownNames cfg rs).length then .error .ERANGE
        else .ok (total + (shownNames cfg rs).length, if buffer then out ++ shownNames cfg rs else out) := by
  induction rs generalizing e fuel total out rest with
  | nil =>
      have hend : listXattrFrom cfg a buffer fuel e total out rest = .ok (total, out) := by
        cases fuel with
        | zero => rfl
        | succ fuel => rw [listXattrFrom, if_pos (isXattrLastEntry_of_holds h)]
      have hnot : ¬ (buffer = true ∧ rest < ((shownNames cfg []).length : ℤ)) := by
        rintro ⟨hb, hlt⟩
        exact absurd hlt (not_lt.mpr (hrest hb))
      rw [hend, if_neg hnot]
      simp [shownNames]
  | cons r rs ih =>
      obtain ⟨hr, hrs⟩ := List.forall_mem_cons.mp hfits
      cases fuel with
      | zero => simp at hfuel
      | succ fuel =>
          have hentry := entryAt hr (Holds.has h)
          have hskip := Holds.skip h
          rw [r.length_bytes] at hskip
          rw [listXattrFrom, if_neg (by simp [hentry.notLast]), hentry.index, hentry.next,
            hentry.nameLen, hentry.name]
          cases hhandler : (f2fsXattrHandler cfg r.index).filter XattrHandler.list with
          | none =>
              have hshown : r.shown cfg = none := by rw [XattrEntry.shown, hhandler]; rfl
              rw [shownNames_cons_none hshown]
              exact ih hrs hskip (Nat.le_of_succ_le_succ hfuel) hrest
          | some handler =>
              set l := prefixBytes handler.prefixOrName ++ r.name ++ [0] with hl
              have hshown : r.shown cfg = some l := by rw [XattrEntry.shown, hhandler]; rfl
              have hlen : (prefixBytes handler.prefixOrName).length + r.name.length + 1 = l.length := by
                simp [hl, Nat.add_assoc]
              rw [shownNames_cons_some hshown, List.length_append]
              simp only [hlen]
              by_cases hfull : buffer = true ∧ rest < (l.length : ℤ)
              · rw [if_pos hfull, if_pos ⟨hfull.1, by push_cast; omega⟩]
              · rw [if_neg hfull, ih hrs hskip (Nat.le_of_succ_le_succ hfuel) fun hb => by
                  have hge : ¬ rest < (l.length : ℤ) := fun hlt => hfull ⟨hb, hlt⟩
                  omega]
                have hiff : rest - (l.length : ℤ) < ((shownNames cfg rs).length : ℤ)
                    ↔ rest < ((l.length + (shownNames cfg rs).length : ℕ) : ℤ) := by
                  push_cast
                  omega
                simp only [hiff, Nat.add_assoc]
                cases buffer <;> simp [hl]

lemma f2fsListxattr_eq (h : XattrOk n x rs) (env : XattrEnv) (cfg : XattrConfig)
    (buffer : Option ℕ) :
    f2fsListxattr n x.inode env cfg buffer = listResult (shownNames cfg rs) buffer ∨
      ∃ er, { env with ipage := false }.ReadFails er ∧
        f2fsListxattr n x.inode env cfg buffer = .error er := by
  unfold f2fsListxattr
  cases hread : readAllXattrs n x.inode { env with ipage := false } with
  | error er => exact Or.inr ⟨er, readAllXattrs_error hread, rfl⟩
  | ok a =>
      have hholds : Holds a headerSize (listBytes rs) :=
        h.holds.congr fun y hy => readAllXattrs_ok hread y hy
      left
      dsimp only
      rw [xattrFirstEntry, Nat.zero_add, listXattrFrom_eq h.fits hholds h.fuel (by simp)]
      cases buffer with
      | none => simp [listResult]
      | some bufferSize => simp [listResult]

/-! ## All runs -/

/-- What is promised of a call: the index is one byte and not zero. -/
def XattrCallersRight (_ : XattrState) (c : SetCall) : Prop := 0 < c.index ∧ c.index < 256

/-- What a lookup of an attribute gives. -/
def getResult : Option (List Byte) → Option ℕ → Except Errno (ℕ × List Byte)
  | none, _ => .error .ENODATA
  | some v, none => .ok (v.length, [])
  | some v, some bufferSize => if bufferSize < v.length then .error .ERANGE else .ok (v.length, v)

/-- **The attributes are a map.**  Only a page that cannot be read, or no memory, is in the way of a
lookup or of a listing. -/
structure XattrRight (n : ℕ) (x : XattrState) : Prop where
  /-- **A lookup gives the value that was set last.** -/
  get : ∀ env index name buffer, name.length ≤ f2fsNameLen →
    f2fsGetxattr n x.inode env index (some name) buffer = getResult (x.attrs index name) buffer ∨
      ∃ er, env.ReadFails er ∧ f2fsGetxattr n x.inode env index (some name) buffer = .error er
  /-- **A listing has every attribute once.** -/
  list : ∃ rs : List XattrEntry, (rs.map fun r => (r.index, r.name)).Nodup ∧
    (∀ index name v, x.attrs index name = some v ↔ ⟨index, name, v⟩ ∈ rs) ∧
    ∀ env cfg buffer, f2fsListxattr n x.inode env cfg buffer = listResult (shownNames cfg rs) buffer ∨
      ∃ er, { env with ipage := false }.ReadFails er ∧
        f2fsListxattr n x.inode env cfg buffer = .error er
  /-- **The split search is the search of the whole list.** -/
  split : ∀ env index name a, readAllXattrs n x.inode env = .ok a →
    let e := findXattr n a 0 index name
    (isXattrLastEntry a e = true ∧ lookupAllXattrs n x.inode env index name = .error .ENODATA) ∨
      (isXattrLastEntry a e = false ∧ ∃ b, lookupAllXattrs n x.inode env index name = .ok (e, b) ∧
        ∀ y, e ≤ y → y < xattrNextEntry a e → b y = a y)
  /-- The list and the word that ends it are in the buffer. -/
  fits : ∀ env a, readAllXattrs n x.inode env = .ok a →
    isXattrLastEntry a (lastXattrFrom a (txattrSize n) (xattrFirstEntry 0)) = true ∧
      lastXattrFrom a (txattrSize n) (xattrFirstEntry 0) + 4
        ≤ n + validXattrBlockSize + xattrPaddingSize
  /-- **A call that fails changes nothing.** -/
  failed : ∀ c : SetCall, (c.run n x.inode).2 ≠ none → (c.run n x.inode).1 = x.inode

lemma XattrOk.get (h : XattrOk n x rs) (hn : n = 0 ∨ 28 ≤ n) (env : XattrEnv) (buffer : Option ℕ)
    (hlen : name.length ≤ f2fsNameLen) :
    f2fsGetxattr n x.inode env index (some name) buffer = getResult (x.attrs index name) buffer ∨
      ∃ er, env.ReadFails er ∧
        f2fsGetxattr n x.inode env index (some name) buffer = .error er := by
  unfold f2fsGetxattr
  dsimp only
  rw [if_neg (not_lt.mpr hlen)]
  have hlookup := lookupAllXattrs_right env index name h hn
  cases hl : lookupAllXattrs n x.inode env index name with
  | error er =>
      rw [hl] at hlookup
      rcases hlookup with ⟨rfl, hnil⟩ | hfails
      · rw [h.attrs_nil hnil]
        exact Or.inl rfl
      · exact Or.inr ⟨er, readAllXattrs_error hfails, rfl⟩
  | ok p =>
      rw [hl] at hlookup
      obtain ⟨-, r, rest, hfrom, hentry, -⟩ := hlookup
      rw [h.attrs_cons hfrom]
      dsimp only
      rw [hentry.valueSize, hentry.value]
      cases buffer with
      | none => exact Or.inl rfl
      | some bufferSize => exact Or.inl rfl

lemma XattrOk.right (h : XattrOk n x rs) (hn : n = 0 ∨ 28 ≤ n) : XattrRight n x where
  get env index name buffer hlen := h.get hn env buffer hlen
  list := ⟨rs, h.nodup, h.attrs, fun env cfg buffer => f2fsListxattr_eq h env cfg buffer⟩
  split env index name a hread := by
    obtain ⟨hpos, hat⟩ := findXattr_spec index name h (readAllXattrs_ok hread)
    have hlookup := lookupAllXattrs_right env index name h hn
    rw [hpos]
    cases hl : lookupAllXattrs n x.inode env index name with
    | error er =>
        rw [hl] at hlookup
        rcases hlookup with ⟨rfl, hnil⟩ | hfails
        · rw [hnil] at hat
          exact Or.inl ⟨hat, rfl⟩
        · rw [hread] at hfails
          exact absurd hfails (by simp)
    | ok p =>
        rw [hl] at hlookup
        obtain ⟨he, r, rest, hfrom, -, hhas⟩ := hlookup
        rw [hfrom] at hat
        refine Or.inr ⟨hat.notLast, p.2, by rw [← he], fun y hle hlt => ?_⟩
        rw [hat.toHeader.next] at hlt
        have hbytes := holds_entriesFrom index name h.holds
        rw [hfrom] at hbytes
        obtain ⟨k, rfl⟩ := Nat.exists_eq_add_of_le hle
        have hk : k < r.bytes.length := by
          rw [r.length_bytes]
          omega
        rw [readAllXattrs_ok hread _ (le_trans (Nat.le_add_right _ _) hle), Holds.has hbytes k hk,
          ← hhas k hk, he]
  fits env a hread := by
    have hholds : Holds a headerSize (listBytes rs) :=
      h.holds.congr fun y hy => readAllXattrs_ok hread y hy
    rw [xattrFirstEntry, Nat.zero_add, lastXattrFrom_eq h.fits hholds h.fuel]
    refine ⟨isXattrLastEntry_of_holds ?_, Nat.add_le_add_right h.room 4⟩
    rw [← List.append_nil (listBytes rs)] at hholds
    exact hholds.skip
  failed c hfail := by
    have hclean := c.run_clean n x.inode
    cases hrun : c.run n x.inode with
    | mk s' res =>
        rw [hrun] at hclean hfail
        cases res with
        | none => exact absurd rfl hfail
        | some er => exact hclean

/-- One call keeps the invariant, however wide the inline area is. -/
lemma XattrOk.step (hn : 4 ∣ n) (hmax : maxValueLen n < 65536) {c : SetCall} {x' : XattrState}
    (h : XattrOk n x rs) (hg : XattrCallersRight x c) (hstep : xattrStep n x c = some x') :
    ∃ rs', XattrOk n x' rs' := by
  unfold xattrStep at hstep
  have hclean := c.run_clean n x.inode
  cases hrun : c.run n x.inode with
  | mk s' res =>
      rw [hrun] at hstep hclean
      cases res with
      | some er =>
          obtain rfl : s' = x.inode := hclean
          obtain rfl : x = x' := by simpa using hstep
          exact ⟨rs, h⟩
      | none =>
          cases hname : c.name with
          | none =>
              unfold SetCall.run f2fsSetxattr setxattr at hrun
              rw [hname] at hrun
              split at hrun <;> simp at hrun
          | some name =>
              rw [hname] at hstep
              obtain rfl := Option.some.inj hstep
              exact SetCall.run_ok hn hmax h hg.1 hg.2 hname hrun

lemma xattrOk_new (n : ℕ) : XattrOk n newInode [] where
  fits := by simp
  nodup := List.nodup_nil
  attrs := by simp [newInode]
  holds := by
    intro k
    simp [stored, newInode]
  room := by simp [headerSize, validXattrBlockSize]

/-- Nothing goes wrong. -/
def calmEnv : XattrEnv := ⟨false, none, false, none, none, false, none, none, none⟩

/-- `user.a` is set to one byte. -/
def setOne : SetCall := ⟨calmEnv, 1, some [97], some [1], false, false⟩

/-- An inline area without room for the first word hides all attributes. -/
lemma narrow_hides : ∀ k ∈ List.range' 1 6,
    (xattrStep (4 * k) newInode setOne).map (fun x => x.attrs 1 [97]) = some (some [1]) ∧
      (xattrStep (4 * k) newInode setOne).map
        (fun x => f2fsGetxattr (4 * k) x.inode calmEnv 1 (some [97]) none)
          = some (.error .ENODATA) := by
  decide +kernel

lemma narrow_fails {k : ℕ} (hk : k ∈ List.range' 1 6) :
    ¬ ∀ cs, StepsMeet (xattrStep (4 * k)) XattrCallersRight newInode cs →
      Throughout (xattrStep (4 * k)) (XattrRight (4 * k)) newInode cs := by
  intro hall
  obtain ⟨hattr, hget⟩ := narrow_hides k hk
  obtain ⟨x, hx, hattr⟩ := Option.map_eq_some_iff.mp hattr
  rw [hx, Option.map_some, Option.some.injEq] at hget
  have hright := (hall [setOne] ⟨⟨by decide, by decide⟩, fun _ _ => trivial⟩).2 x hx
  rcases hright.get calmEnv 1 [97] none (by decide) with hfound | ⟨er, hfails, -⟩
  · rw [hget, hattr] at hfound
    simp [getResult] at hfound
  · simp [XattrEnv.ReadFails, calmEnv] at hfails

/-- **All runs are right iff the first word of the list can be in the inline area, or there is no
inline area.**  `k` is `i_inline_xattr_size`, in words; an inode has 923 of them. -/
theorem xattr_map_iff (k : ℕ) (hk : k ≤ 923) :
    (∀ cs, StepsMeet (xattrStep (4 * k)) XattrCallersRight newInode cs →
      Throughout (xattrStep (4 * k)) (XattrRight (4 * k)) newInode cs) ↔ k = 0 ∨ 7 ≤ k := by
  constructor
  · intro hall
    by_contra hnarrow
    exact narrow_fails (List.mem_range'_1.mpr (by omega)) hall
  · intro hwide cs hmeet
    have hmax : maxValueLen (4 * k) < 65536 := by
      rw [maxValueLen, minOffset_eq (Dvd.intro k rfl)]
      simp only [validXattrBlockSize, headerSize]
      omega
    have hinv : Throughout (xattrStep (4 * k)) (fun x => ∃ rs, XattrOk (4 * k) x rs) newInode cs :=
      throughout_of_stepsMeet (fun x c x' ⟨rs, h⟩ hg hs => h.step (Dvd.intro k rfl) hmax hg hs)
        ⟨[], xattrOk_new (4 * k)⟩ hmeet
    exact hinv.mono fun x ⟨rs, h⟩ => h.right (by omega)

/-- An inline area of the default size. -/
theorem xattr_map_default :
    50 ≤ 923 ∧ ∀ cs, StepsMeet (xattrStep (4 * 50)) XattrCallersRight newInode cs →
      Throughout (xattrStep (4 * 50)) (XattrRight (4 * 50)) newInode cs :=
  ⟨by decide, (xattr_map_iff 50 (by decide)).mpr (by decide)⟩

/-- **With an inline area of 24 bytes an attribute is set and not found.** -/
theorem narrow_inline_area_hides :
    ¬ ∀ cs, StepsMeet (xattrStep (4 * 6)) XattrCallersRight newInode cs →
      Throughout (xattrStep (4 * 6)) (XattrRight (4 * 6)) newInode cs :=
  narrow_fails (by decide)

end Hoit.Xattr
