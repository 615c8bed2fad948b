import HoitF2fs.Xattr.Xattr

/-!
# The list of entries

* `XattrEntry.bytes` — an entry as it is stored.  `header` and `Has.entry` read it back.
* `findXattrFrom_spec` — **the search finds the entry with the index and the name**, and otherwise the
  end of the list.
* `findInlineXattrFrom_spec` — the search in the inline area, when only the bytes below its end are
  there: it gives what the search of the whole list gives, or stops at an entry from which the search
  can go on.
-/

namespace Hoit.Xattr

open ByteStore

structure XattrEntry where
  index : ℕ
  name : List Byte
  value : List Byte
deriving DecidableEq

namespace XattrEntry

/-- The fields of the entry are wide enough. -/
structure Fits (r : XattrEntry) : Prop where
  pos : 0 < r.index
  index : r.index < 256
  name : r.name.length ≤ f2fsNameLen
  value : r.value.length < 65536

def size (r : XattrEntry) : ℕ := xattrAlign (4 + r.name.length + r.value.length)

/-- The entry is filled up with zeros. -/
def bytes (r : XattrEntry) : List Byte :=
  newEntry r.index r.name r.value ++ List.replicate (r.size - (4 + r.name.length + r.value.length)) 0

def Is (r : XattrEntry) (index : ℕ) (name : List Byte) : Prop := r.index = index ∧ r.name = name

instance (r : XattrEntry) (index : ℕ) (name : List Byte) : Decidable (r.Is index name) :=
  inferInstanceAs (Decidable (_ ∧ _))

end XattrEntry

/-- The bytes of a list of entries. -/
def listBytes (rs : List XattrEntry) : List Byte := rs.flatMap XattrEntry.bytes

variable {a b : Area} {e index inlineSize fuel : ℕ} {name : List Byte} {r : XattrEntry}
  {rs ss : List XattrEntry} {l : List Byte}

lemma le_xattrAlign (n : ℕ) : n ≤ xattrAlign n := by
  unfold xattrAlign
  omega

@[simp] lemma length_newEntry (r : XattrEntry) :
    (newEntry r.index r.name r.value).length = 4 + r.name.length + r.value.length := by
  simp [newEntry]
  omega

@[simp] lemma XattrEntry.length_bytes (r : XattrEntry) : r.bytes.length = r.size := by
  have hle := le_xattrAlign (4 + r.name.length + r.value.length)
  rw [XattrEntry.bytes, List.length_append, length_newEntry, List.length_replicate, XattrEntry.size]
  omega

lemma XattrEntry.four_le_size (r : XattrEntry) : 4 ≤ r.size :=
  le_trans (by omega) (le_xattrAlign (4 + r.name.length + r.value.length))

@[simp] lemma listBytes_nil : listBytes [] = [] := rfl

@[simp] lemma listBytes_cons (r : XattrEntry) (rs : List XattrEntry) :
    listBytes (r :: rs) = r.bytes ++ listBytes rs := rfl

@[simp] lemma listBytes_append (rs ss : List XattrEntry) :
    listBytes (rs ++ ss) = listBytes rs ++ listBytes ss := List.flatMap_append

/-- There is room for an entry in every four bytes. -/
lemma length_le_listBytes (rs : List XattrEntry) : 4 * rs.length ≤ (listBytes rs).length := by
  induction rs with
  | nil => simp
  | cons r rs ih =>
      have hsize := r.four_le_size
      rw [listBytes_cons, List.length_append, XattrEntry.length_bytes, List.length_cons]
      omega

/-! ## One entry -/

/-- What the first four bytes of an entry say. -/
structure Header (a : Area) (e : ℕ) (r : XattrEntry) : Prop where
  index : eNameIndex a e = r.index
  nameLen : eNameLen a e = r.name.length
  valueSize : eValueSize a e = r.value.length
  notLast : isXattrLastEntry a e = false

lemma header (hr : r.Fits) (h : ∀ k < 4, a (e + k) = r.bytes.getD k 0) : Header a e r := by
  have hname := hr.name
  have hbyte : ∀ n : ℕ, n < 256 → (BitVec.ofNat 8 n).toNat = n := fun n hn => by
    rw [BitVec.toNat_ofNat, Nat.mod_eq_of_lt hn]
  have h0 : a e = BitVec.ofNat 8 r.index := h 0 (by omega)
  have h1 : a (e + 1) = BitVec.ofNat 8 r.name.length := h 1 (by omega)
  have hvalue : getLe a (e + 2) 2 = r.value.length := by
    refine (getLe_of_bytes (fun k hk => ?_)).trans (Nat.mod_eq_of_lt hr.value)
    rw [Nat.add_assoc, h (2 + k) (by omega)]
    interval_cases k <;> rfl
  have hindex : (a e).toNat = r.index := by rw [h0, hbyte _ hr.index]
  refine ⟨hindex, ?_, hvalue, ?_⟩
  · rw [eNameLen, h1, hbyte _ (lt_of_le_of_lt hname (by decide))]
  · have hpos := hr.pos
    rw [isXattrLastEntry, getLe, hindex, beq_eq_false_iff_ne]
    omega

lemma Header.entrySize (h : Header a e r) : entrySize a e = r.size := by
  rw [Xattr.entrySize, h.nameLen, h.valueSize, XattrEntry.size]

lemma Header.next (h : Header a e r) : xattrNextEntry a e = e + r.size := by
  rw [xattrNextEntry, h.entrySize]

/-- **An entry is read back.** -/
structure EntryAt (a : Area) (e : ℕ) (r : XattrEntry) : Prop extends Header a e r where
  name : eName a e = r.name
  value : eValue a e = r.value

lemma entryAt (hr : r.Fits) (h : Has a e r.bytes) : EntryAt a e r := by
  have hhead : Header a e r :=
    header hr fun k hk => h k (lt_of_lt_of_le hk (r.length_bytes ▸ r.four_le_size))
  have hname : Has a (e + 4) r.name := h.left.left.right
  have hvalue : Has a (e + 4 + r.name.length) r.value := by
    have hright := h.left.right
    rwa [List.length_append, List.length_cons, List.length_cons, List.length_cons, List.length_cons,
      List.length_nil, ← Nat.add_assoc] at hright
  refine ⟨hhead, ?_, ?_⟩
  · rw [eName, hhead.nameLen, hname.read]
  · rw [eValue, hhead.nameLen, hhead.valueSize, hvalue.read]

lemma EntryAt.entryIs_eq (h : EntryAt a e r) : entryIs a e index name = decide (r.Is index name) := by
  rw [entryIs, h.index, h.nameLen, h.name, Bool.eq_iff_iff, decide_eq_true_iff, XattrEntry.Is]
  simp only [Bool.and_eq_true, beq_iff_eq]
  constructor
  · rintro ⟨⟨hi, -⟩, hn⟩
    exact ⟨hi, hn⟩
  · rintro ⟨hi, hn⟩
    exact ⟨⟨hi, hn ▸ rfl⟩, hn⟩

lemma isXattrLastEntry_of_holds (h : Holds a e []) : isXattrLastEntry a e = true := by
  have hzero : getLe a e 4 = 0 % 256 ^ 4 :=
    getLe_of_bytes fun k _ => (h k).trans (by simp [leByte])
  rw [isXattrLastEntry, hzero]
  rfl

/-! ## The searches -/

/-- The entries before the one that is looked for. -/
def entriesBefore (index : ℕ) (name : List Byte) (rs : List XattrEntry) : List XattrEntry :=
  rs.takeWhile fun r => !decide (r.Is index name)

/-- The entry that is looked for, and those after it. -/
def entriesFrom (index : ℕ) (name : List Byte) (rs : List XattrEntry) : List XattrEntry :=
  rs.dropWhile fun r => !decide (r.Is index name)

lemma entriesBefore_append_entriesFrom (index : ℕ) (name : List Byte) (rs : List XattrEntry) :
    entriesBefore index name rs ++ entriesFrom index name rs = rs := List.takeWhile_append_dropWhile

lemma entriesBefore_cons_of_is (h : r.Is index name) : entriesBefore index name (r :: rs) = [] := by
  simp [entriesBefore, h]

lemma entriesBefore_cons_of_not (h : ¬ r.Is index name) :
    entriesBefore index name (r :: rs) = r :: entriesBefore index name rs := by
  simp [entriesBefore, h]

lemma entriesFrom_cons_of_is (h : r.Is index name) : entriesFrom index name (r :: rs) = r :: rs := by
  simp [entriesFrom, h]

lemma entriesFrom_cons_of_not (h : ¬ r.Is index name) :
    entriesFrom index name (r :: rs) = entriesFrom index name rs := by
  simp [entriesFrom, h]

/-- **The search.** -/
lemma findXattrFrom_eq (hfits : ∀ r ∈ rs, r.Fits) (h : Holds a e (listBytes rs))
    (hfuel : rs.length ≤ fuel) :
    findXattrFrom a index name fuel e = e + (listBytes (entriesBefore index name rs)).length := by
  induction rs generalizing e fuel with
  | nil =>
      cases fuel with
      | zero => rfl
      | succ fuel =>
          rw [findXattrFrom, if_pos (isXattrLastEntry_of_holds h)]
          rfl
  | cons r rs ih =>
      obtain ⟨hr, hrs⟩ := List.forall_mem_cons.mp hfits
      cases fuel with
      | zero => simp at hfuel
      | succ fuel =>
          have hentry := entryAt hr (Holds.has h)
          rw [findXattrFrom, if_neg (by simp [hentry.notLast]), hentry.entryIs_eq]
          by_cases his : r.Is index name
          · rw [if_pos (by simpa using his), entriesBefore_cons_of_is his]
            rfl
          · have hskip := Holds.skip h
            rw [r.length_bytes] at hskip
            rw [if_neg (by simpa using his), hentry.next, ih hrs hskip (Nat.le_of_succ_le_succ hfuel),
              entriesBefore_cons_of_not his, listBytes_cons, List.length_append, r.length_bytes,
              Nat.add_assoc]

/-- **The end of the list.** -/
lemma lastXattrFrom_eq (hfits : ∀ r ∈ rs, r.Fits) (h : Holds a e (listBytes rs))
    (hfuel : rs.length ≤ fuel) : lastXattrFrom a fuel e = e + (listBytes rs).length := by
  induction rs generalizing e fuel with
  | nil =>
      cases fuel with
      | zero => rfl
      | succ fuel =>
          rw [lastXattrFrom, if_pos (isXattrLastEntry_of_holds h)]
          rfl
  | cons r rs ih =>
      obtain ⟨hr, hrs⟩ := List.forall_mem_cons.mp hfits
      cases fuel with
      | zero => simp at hfuel
      | succ fuel =>
          have hentry := entryAt hr (Holds.has h)
          have hskip := Holds.skip h
          rw [r.length_bytes] at hskip
          rw [lastXattrFrom, if_neg (by simp [hentry.notLast]), hentry.next,
            ih hrs hskip (Nat.le_of_succ_le_succ hfuel), listBytes_cons, List.length_append,
            r.length_bytes, Nat.add_assoc]

/-- What the search in the inline area may give, for a list that begins at `e`. -/
def InlineFound (inlineSize e index : ℕ) (name : List Byte) (rs : List XattrEntry) :
    InlineEntry → Prop
  | .entry x =>
      x = e + (listBytes (entriesBefore index name rs)).length ∧ x + 4 ≤ inlineSize ∧
        ∀ r ∈ (entriesFrom index name rs).head?, x + r.size + 4 ≤ inlineSize
  | .past last =>
      ∃ before after, rs = before ++ after ∧ (∀ r ∈ before, ¬ r.Is index name) ∧
        last = e + (listBytes before).length

/-- **The search in the inline area**, of which only the bytes below its end are there: an entry that
reaches the end is left to the search of the whole list. -/
lemma findInlineXattrFrom_spec (index : ℕ) (name : List Byte) (hab : ∀ x < inlineSize, b x = a x)
    (hfits : ∀ r ∈ rs, r.Fits) (h : Holds a e (listBytes rs)) (he : e + 4 ≤ inlineSize)
    (hfuel : rs.length ≤ fuel) :
    InlineFound inlineSize e index name rs
      (findInlineXattrFrom inlineSize b index name fuel e) := by
  induction rs generalizing e fuel with
  | nil =>
      have hfound : InlineFound inlineSize e index name [] (.entry e) := ⟨rfl, he, by simp [entriesFrom]⟩
      cases fuel with
      | zero => exact hfound
      | succ fuel =>
          have hlast : isXattrLastEntry b e = true := by
            rw [isXattrLastEntry, getLe_congr (b := a) fun k hk => hab (e + k) (by omega)]
            exact isXattrLastEntry_of_holds h
          rw [findInlineXattrFrom, if_pos hlast]
          exact hfound
  | cons r rs ih =>
      obtain ⟨hr, hrs⟩ := List.forall_mem_cons.mp hfits
      cases fuel with
      | zero => simp at hfuel
      | succ fuel =>
          have hhas : Has a e r.bytes := Holds.has h
          have hhead : Header b e r := by
            refine header hr fun k hk => ?_
            rw [hab _ (by omega)]
            exact hhas k (lt_of_lt_of_le hk (r.length_bytes ▸ r.four_le_size))
          rw [findInlineXattrFrom, if_neg (by simp [hhead.notLast]), hhead.next]
          by_cases hpast : inlineSize < e + r.size + 4
          · rw [if_pos (Or.inr hpast)]
            exact ⟨[], r :: rs, rfl, by simp, rfl⟩
          rw [if_neg (by omega)]
          have hentry : EntryAt b e r := entryAt hr (hhas.congr fun x _ hx => hab x (by
            rw [r.length_bytes] at hx
            omega))
          rw [hentry.entryIs_eq]
          by_cases his : r.Is index name
          · rw [if_pos (by simpa using his)]
            refine ⟨by rw [entriesBefore_cons_of_is his]; rfl, he, ?_⟩
            rw [entriesFrom_cons_of_is his]
            rintro _ ⟨⟩
            omega
          · rw [if_neg (by simpa using his)]
            have hskip := Holds.skip h
            rw [r.length_bytes] at hskip
            have hrest := ih hrs hskip (by omega) (Nat.le_of_succ_le_succ hfuel)
            cases hfind : findInlineXattrFrom inlineSize b index name fuel (e + r.size) with
            | entry x =>
                rw [hfind] at hrest
                obtain ⟨hx, hx4, hxr⟩ := hrest
                refine ⟨?_, hx4, by rwa [entriesFrom_cons_of_not his]⟩
                rw [hx, entriesBefore_cons_of_not his, listBytes_cons, List.length_append,
                  r.length_bytes, Nat.add_assoc]
            | past last =>
                rw [hfind] at hrest
                obtain ⟨before, after, rfl, hbefore, rfl⟩ := hrest
                refine ⟨r :: before, after, rfl, List.forall_mem_cons.mpr ⟨his, hbefore⟩, ?_⟩
                rw [listBytes_cons, List.length_append, r.length_bytes, Nat.add_assoc]

end Hoit.Xattr
