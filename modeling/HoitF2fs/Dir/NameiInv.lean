import HoitF2fs.Dir.LinkCounts

/-!
# The directories and their names

* `DirsInv` — each directory stands for the names that the file system has in it.
* `Fs.At` — the entry of a name is in this place.  A call finds places that it uses later, and what
  happens in between must leave the entries there.
* `withEntry_found`, `DirsInv.setLink`, `DirsInv.deleteEntry`, `addLink_spec` — what the parts of a
  call do to the names, and to the other places.
-/

namespace Hoit.Namei

open Dir NodePath ByteStore

variable {lay : AddrLayout}

/-- The directories that have names, at least `.`. -/
def Names.live (names : Names) : Set ℕ := {d | names (d, dot) ≠ none}

/-- The names in a directory, with what else is in their entries. -/
def dirMap (iMode : ℕ → ℕ) (names : Names) (d : ℕ) (name : List Byte) : Option (ℕ × ℕ) :=
  (names (d, name)).map fun i => (i, f2fsTypeByMode (iMode i))

structure DirsInv (lay : AddrLayout) (live : Set ℕ) (names : Names) (fs : Fs) : Prop where
  inv : ∀ d ∈ live, DirInv lay (fs.dir d)
  isMap : ∀ d ∈ live, (fs.dir d).IsMap (dirMap fs.iMode names d)
  hasDots : ∀ d ∈ live, (fs.dir d).HasDots

/-- The entry of the name is in this place. -/
def Fs.At (fs : Fs) (d : ℕ) (name : List Byte) (p : ℕ × ℕ) : Prop :=
  ∃ e, (fs.dir d).Held p e ∧ e.name = name

/-- Nothing but what lookups remember has changed. -/
structure SameDirs (fs fs' : Fs) : Prop where
  inodes : fs'.toInodes = fs.toInodes
  same : ∀ d, SameTable (fs.dir d) (fs'.dir d)

variable {fs fs' : Fs} {d d' i inode : ℕ} {name name' : List Byte} {p p' : ℕ × ℕ} {names : Names}
  {live : Set ℕ} {o : Option ℕ}

lemma Shape.live_eq {root : ℕ} {iMode : ℕ → ℕ} {inodes : Finset ℕ} {loose : Set ℕ}
    (h : Shape root iMode inodes live loose names) : names.live = live := by
  ext c
  constructor
  · intro hc
    by_contra hdead
    exact hc (h.dead c dot hdead)
  · intro hc
    show names (c, dot) ≠ none
    rw [h.self c hc]
    exact Option.some_ne_none c

lemma SameDirs.refl (fs : Fs) : SameDirs fs fs := ⟨rfl, fun d => SameTable.refl (fs.dir d)⟩

lemma SameDirs.trans {fs'' : Fs} (h : SameDirs fs fs') (h' : SameDirs fs' fs'') :
    SameDirs fs fs'' :=
  ⟨h'.inodes.trans h.inodes, fun d => (h.same d).trans (h'.same d)⟩

lemma SameDirs.at (h : SameDirs fs fs') (hat : fs.At d name p) : fs'.At d name p := by
  obtain ⟨e, he, hname⟩ := hat
  exact ⟨e, ((h.same d).held p e).mpr he, hname⟩

lemma setDir_self (fs : Fs) (d : ℕ) (dir : DirInode) : (fs.setDir d dir).dir d = dir :=
  Function.update_self ..

lemma setDir_of_ne (fs : Fs) (dir : DirInode) (h : d' ≠ d) :
    (fs.setDir d dir).dir d' = fs.dir d' :=
  Function.update_of_ne h ..

@[simp] lemma setDir_toInodes (fs : Fs) (d : ℕ) (dir : DirInode) :
    (fs.setDir d dir).toInodes = fs.toInodes := rfl

/-! ## Changes of one directory -/

lemma dirMap_update_self (iMode : ℕ → ℕ) (names : Names) (d : ℕ) (name : List Byte)
    (o : Option ℕ) : dirMap iMode (Function.update names (d, name) o) d
      = Function.update (dirMap iMode names d) name
        (o.map fun i => (i, f2fsTypeByMode (iMode i))) := by
  funext n
  unfold dirMap
  by_cases h : n = name
  · rw [h, Function.update_self, Function.update_self]
  · rw [Function.update_of_ne h, Function.update_of_ne fun heq => h (congrArg Prod.snd heq)]

lemma dirMap_update_of_ne (iMode : ℕ → ℕ) (names : Names) (h : d' ≠ d) (name : List Byte)
    (o : Option ℕ) :
    dirMap iMode (Function.update names (d, name) o) d' = dirMap iMode names d' := by
  funext n
  unfold dirMap
  rw [Function.update_of_ne fun heq => h (congrArg Prod.fst heq)]

namespace DirsInv

/-- The inodes change, but not those with names. -/
lemma congr_inodes (h : DirsInv lay live names fs) (hdir : ∀ d ∈ live, fs'.dir d = fs.dir d)
    (hmode : ∀ x i, names x = some i → fs'.iMode i = fs.iMode i) :
    DirsInv lay live names fs' where
  inv d hd := hdir d hd ▸ h.inv d hd
  isMap d hd := by
    have hmap : dirMap fs'.iMode names d = dirMap fs.iMode names d := by
      funext n
      unfold dirMap
      cases hn : names (d, n) with
      | none => rfl
      | some i => rw [Option.map_some, Option.map_some, hmode _ i hn]
    rw [hdir d hd, hmap]
    exact h.isMap d hd
  hasDots d hd := hdir d hd ▸ h.hasDots d hd

/-- The names change, but not those in the directories that are there. -/
lemma congr_names {live' : Set ℕ} {names' : Names} (h : DirsInv lay live names fs)
    (hsub : live' ⊆ live) (hnames : ∀ c ∈ live', ∀ n, names' (c, n) = names (c, n)) :
    DirsInv lay live' names' fs where
  inv c hc := h.inv c (hsub hc)
  isMap c hc := by
    have hmap : dirMap fs.iMode names' c = dirMap fs.iMode names c := by
      funext n
      unfold dirMap
      rw [hnames c hc n]
    rw [hmap]
    exact h.isMap c (hsub hc)
  hasDots c hc := h.hasDots c (hsub hc)

lemma setDir {dir : DirInode} (h : DirsInv lay live names fs) (hinv : DirInv lay dir)
    (hmap : dir.IsMap (Function.update (dirMap fs.iMode names d) name
      (o.map fun i => (i, f2fsTypeByMode (fs.iMode i))))) (hdots : dir.HasDots) :
    DirsInv lay live (Function.update names (d, name) o) (fs.setDir d dir) where
  inv c hc := by
    by_cases hcd : c = d
    · rwa [hcd, setDir_self]
    · rw [setDir_of_ne fs dir hcd]
      exact h.inv c hc
  isMap c hc := by
    by_cases hcd : c = d
    · rwa [hcd, setDir_self, setDir_toInodes, dirMap_update_self]
    · rw [setDir_of_ne fs dir hcd, setDir_toInodes, dirMap_update_of_ne _ _ hcd]
      exact h.isMap c hc
  hasDots c hc := by
    by_cases hcd : c = d
    · rwa [hcd, setDir_self]
    · rw [setDir_of_ne fs dir hcd]
      exact h.hasDots c hc

/-- The same names, whatever lookups remember. -/
lemma setDir_same {dir : DirInode} (h : DirsInv lay live names fs) (hsame : SameTable (fs.dir d) dir)
    (hinv : DirInv lay dir) : DirsInv lay live names (fs.setDir d dir) where
  inv c hc := by
    by_cases hcd : c = d
    · rwa [hcd, setDir_self]
    · rw [setDir_of_ne fs dir hcd]
      exact h.inv c hc
  isMap c hc := by
    by_cases hcd : c = d
    · rw [hcd, setDir_self]
      exact hsame.isMap (h.isMap d (hcd ▸ hc))
    · rw [setDir_of_ne fs dir hcd]
      exact h.isMap c hc
  hasDots c hc := by
    by_cases hcd : c = d
    · rw [hcd, setDir_self]
      exact hsame.hasDots (h.hasDots d (hcd ▸ hc))
    · rw [setDir_of_ne fs dir hcd]
      exact h.hasDots c hc

end DirsInv

lemma SameDirs.setDir {dir : DirInode} (hsame : SameTable (fs.dir d) dir) :
    SameDirs fs (fs.setDir d dir) where
  inodes := rfl
  same c := by
    by_cases hcd : c = d
    · rw [hcd, setDir_self]
      exact hsame
    · rw [setDir_of_ne fs dir hcd]
      exact SameTable.refl _

/-! ## Lookups -/

/-- **A name that is there is found.** -/
lemma withEntry_found (h : DirsInv lay live names fs) (d : ℕ) (name : List Byte) (hd : d ∈ live)
    (hx : names (d, name) = some i) (absent : ℤ) (f : ℕ × ℕ → Fs → Outcome) :
    ∃ p fs', fs.withEntry lay d name absent f = f p fs' ∧ SameDirs fs fs' ∧
      DirsInv lay live names fs' ∧ fs'.At d name p := by
  obtain ⟨r, dir', hr, hsame, hinv', hcases⟩ := find_cases (h.inv d hd) (h.isMap d hd) name
  have hv : dirMap fs.iMode names d name = some (i, f2fsTypeByMode (fs.iMode i)) := by
    unfold dirMap
    rw [hx, Option.map_some]
  rcases hcases with ⟨p, e, hde, he, hname, -⟩ | ⟨-, hnone, -⟩
  · refine ⟨p, fs.setDir d dir', ?_, SameDirs.setDir hsame, h.setDir_same hsame hinv', e, ?_, hname⟩
    · unfold Fs.withEntry
      rw [hr, Option.bind_some, hde]
    · rwa [setDir_self]
  · rw [hv] at hnone
    exact absurd hnone (Option.some_ne_none _)

/-- `..` is looked up if it is wanted. -/
lemma withParent_found (h : DirsInv lay live names fs) (wanted : Bool)
    (hwanted : wanted = true → d ∈ live ∧ ∃ i, names (d, dotdot) = some i)
    (f : Option (ℕ × ℕ) → Fs → Outcome) :
    ∃ q fs', fs.withParent lay wanted d f = f q fs' ∧ SameDirs fs fs' ∧
      DirsInv lay live names fs' ∧ q.isSome = wanted ∧ ∀ p, q = some p → fs'.At d dotdot p := by
  unfold Fs.withParent
  cases wanted with
  | false =>
      exact ⟨none, fs, rfl, SameDirs.refl fs, h, rfl, fun p hp => absurd hp.symm (by simp)⟩
  | true =>
      obtain ⟨hd, i, hi⟩ := hwanted rfl
      obtain ⟨p, fs', hfound, hsame, hinv, hat⟩ :=
        withEntry_found h d dotdot hd hi 0 fun p fs => f (some p) fs
      refine ⟨some p, fs', hfound, hsame, hinv, rfl, fun p' hp' => ?_⟩
      rwa [← Option.some.inj hp']

/-! ## Changes of an entry -/

/-- The other entries are where they were. -/
def KeepsOthers (d : ℕ) (name : List Byte) (fs fs' : Fs) : Prop :=
  ∀ c n q, (c, n) ≠ (d, name) → fs.At c n q → fs'.At c n q

lemma keepsOthers_setDir {dir : DirInode} {e : Entry} (he : (fs.dir d).Held p e)
    (hname : e.name = name) (hheld : ∀ q x, q ≠ p → (fs.dir d).Held q x → dir.Held q x) :
    KeepsOthers d name fs (fs.setDir d dir) := by
  rintro c n q hne ⟨x, hx, hn⟩
  refine ⟨x, ?_, hn⟩
  by_cases hcd : c = d
  · subst hcd
    rw [setDir_self]
    refine hheld q x ?_ hx
    rintro rfl
    rw [hx.unique he] at hname
    exact hne (by rw [← hn, hname])
  · rwa [setDir_of_ne fs dir hcd]

/-- **`f2fs_set_link`.** -/
lemma DirsInv.setLink (h : DirsInv lay live names fs) (hd : d ∈ live) (hat : fs.At d name p)
    (inode : ℕ) : DirsInv lay live (Function.update names (d, name) (some inode))
        (fs.setLink d p inode) ∧ KeepsOthers d name fs (fs.setLink d p inode) := by
  obtain ⟨e, he, hname⟩ := hat
  obtain ⟨hinv, hheld⟩ := f2fsSetLink_spec (h.inv d hd) he inode (fs.iMode inode)
  have hmap := (h.isMap d hd).replace (b := { e with
    ino := inode
    fileType := f2fsTypeByMode (fs.iMode inode) }) he (fun x hx => he.unique hx) rfl hheld
  rw [hname] at hmap
  refine ⟨h.setDir hinv hmap ?_, keepsOthers_setDir he hname fun q x hq hx => ?_⟩
  · exact (h.hasDots d hd).of_link (b := { e with
      ino := inode
      fileType := f2fsTypeByMode (fs.iMode inode) }) he rfl hheld
  · exact (hheld q x).mpr (Or.inl ⟨hq, hx⟩)

/-- **`f2fs_delete_entry`.** -/
lemma DirsInv.deleteEntry (h : DirsInv lay live names fs) (hd : d ∈ live) (hname : IsName name)
    (hat : fs.At d name p) (env : DirEnv) :
    DirsInv lay live (Function.update names (d, name) none) (fs.deleteEntry env d p) ∧
      KeepsOthers d name fs (fs.deleteEntry env d p) := by
  obtain ⟨e, he, hen⟩ := hat
  obtain ⟨hinv, hheld⟩ := f2fsDeleteEntry_spec (h.inv d hd) he env
  have hmap := (h.isMap d hd).erase he (fun x hx => he.unique hx) hheld
  rw [hen] at hmap
  refine ⟨h.setDir hinv hmap ?_, keepsOthers_setDir he hen fun q x hq hx => ?_⟩
  · exact (h.hasDots d hd).of_delete he (hen ▸ hname.1) (hen ▸ hname.2) hheld
  · exact (hheld q x).mpr ⟨hx, hq⟩

/-! ## New entries -/

/-- Why an entry is not added. -/
def AddErr (names : Names) (a : AddEnv) (d : ℕ) (name : List Byte) (e : ℤ) : Prop :=
  (e = eexist ∧ a.sameTask = false ∧ names (d, name) ≠ none) ∨
    names (d, name) = none ∧ a.env.Gives e

lemma AddErr.ne_zero {a : AddEnv} {e : ℤ} (h : AddErr names a d name e) : e ≠ 0 := by
  rcases h with ⟨rfl, -, -⟩ | ⟨-, hgives⟩
  · decide
  · exact hgives.neg.1.ne

/-- A name that may be added, and the check is left out only for one that is not there. -/
structure NewName (names : Names) (a : AddEnv) (d : ℕ) (name : List Byte) : Prop where
  isName : IsName name
  ne : name ≠ []
  short : name.length ≤ f2fsNameLen
  free : a.sameTask = true → names (d, name) = none

/-- The directories after the entry has been added, or has not. -/
structure Linked (lay : AddrLayout) (live : Set ℕ) (names : Names) (fs : Fs) (a : AddEnv) (d : ℕ)
    (name : List Byte) (inode : ℕ) (e : ℤ) (fs' : Fs) : Prop where
  inodes : fs'.toInodes = fs.toInodes
  failed : e ≠ 0 → AddErr names a d name e ∧ DirsInv lay live names fs'
  added : e = 0 → names (d, name) = none ∧
    DirsInv lay live (Function.update names (d, name) (some inode)) fs'
  other : ∀ c ≠ d, fs'.dir c = fs.dir c
  kept : (fs.dir d).inlineDentry = none ∨ (fs'.dir d).inlineDentry ≠ none →
    ∀ n q, fs.At d n q → fs'.At d n q

/-- **`f2fs_add_link`**, up to what it does to the inodes. -/
lemma addLink_spec (h : DirsInv lay live names fs) (hd : d ∈ live) {a : AddEnv}
    (hname : NewName names a d name) (inode : ℕ) (isNew incLink : Bool) :
    ∃ e fs', Linked lay live names fs a d name inode e fs' ∧
      fs.addLink lay a d name inode isNew incLink = some (e,
        if e = 0 then
          { fs'.f2fsInitInodeMetadata a d inode isNew incLink with
            toInodes := (fs'.f2fsInitInodeMetadata a d inode isNew incLink).f2fsUpdateParentMetadata
              d inode isNew }
        else fs') := by
  have hfree : a.sameTask = true → dirMap fs.iMode names d name = none := fun hsame => by
    unfold dirMap
    rw [hname.free hsame, Option.map_none]
  obtain ⟨e, dir', hadd, hadded⟩ := f2fsDoAddLink_spec a.env a.dst inode (fs.iMode inode)
    (h.inv d hd) (h.isMap d hd) hname.ne hname.short hfree
  have hdots := hadded.hasDots (h.hasDots d hd)
  have hnone : dirMap fs.iMode names d name = none ↔ names (d, name) = none := by
    unfold dirMap
    rw [Option.map_eq_none_iff]
  refine ⟨e, fs.setDir d dir', ⟨rfl, fun he => ?_, fun he => ?_,
    fun c hc => setDir_of_ne fs dir' hc, fun hin n q hat => ?_⟩, ?_⟩
  · obtain ⟨hm, hwhy⟩ := hadded.failed he
    refine ⟨hwhy.imp (fun hex => ⟨hex.1, hex.2.1, fun hno => hex.2.2 (hnone.mpr hno)⟩)
      fun hgives => ⟨hnone.mp hgives.1, hgives.2⟩, ?_⟩
    have hmap : Function.update (dirMap fs.iMode names d) name ((names (d, name)).map
        fun i => (i, f2fsTypeByMode (fs.iMode i))) = dirMap fs.iMode names d :=
      Function.update_eq_self name _
    have hsame : DirsInv lay live (Function.update names (d, name) (names (d, name)))
        (fs.setDir d dir') := h.setDir hadded.inv (by rw [hmap]; exact hm) hdots
    rwa [Function.update_eq_self] at hsame
  · obtain ⟨hno, hm⟩ := hadded.added he
    exact ⟨hnone.mp hno, h.setDir (o := some inode) hadded.inv hm hdots⟩
  · obtain ⟨x, hx, hn⟩ := hat
    rw [setDir_self] at hin
    exact ⟨x, by rw [setDir_self]; exact hadded.kept hin q x hx, hn⟩
  · unfold Fs.addLink
    rw [hadd, Option.map_some]
    dsimp only
    split_ifs with he
    · rw [he]
    · rfl

end Hoit.Namei
