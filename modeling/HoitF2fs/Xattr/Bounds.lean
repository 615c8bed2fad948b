import HoitF2fs.Lib.Traced
import HoitF2fs.Xattr.Map

/-!
# Where the extended attribute calls read

The entries of the list are found one from the other, by lengths that are stored on the device, and
the list ends with a word of zeros.  Of the four walks along it only the one through the inline area
compares a position with the size of anything.

**The model.**  The calls of `HoitF2fs.Xattr.Xattr` once more, with the bytes of the buffer that
they touch.
* `forEachXattr` — `list_for_each_xattr`.
* `f2fsGetxattr`, `f2fsListxattr`, `f2fsSetxattr` — the calls; `f2fsGetxattr_result`,
  `f2fsListxattr_result` and `f2fsSetxattr_result` say that they are the same calls.
* `ListEnds` — the list has a last word, and it is inside of the buffer; `StoredListEnds` — so it is
  with the list that is stored.
* `calls_inside_iff` — **the calls stay inside of their buffers iff the stored list ends there.**

**What goes wrong.**  An entry whose value is said to be longer than the buffer leads out of it
(`long_value_runs_out`).  The buffer of a lookup has no room for a node block when there is none, so
that there the list has to end in the inline area.
-/

namespace Hoit.Xattr.Bounds

open ByteStore Traced

/-! ## The walks -/

/-- `list_for_each_xattr` from `entry` on.  The body returns its variables and whether it goes on.
All of the fixed part of an entry is read together with the word that is compared with 0. -/
def forEachXattr {σ : Type} (a : Area) (body : σ → ℕ → Traced (σ × Bool)) :
    (fuel : ℕ) → σ → ℕ → Traced (σ × ℕ)
  | 0, _, _ => ⟨none, []⟩
  | fuel + 1, x, entry =>
      (touch entry 4).bind fun _ =>
        if isXattrLastEntry a entry then .pure (x, entry)
        else
          (body x entry).bind fun y =>
            if y.2 then forEachXattr a body fuel y.1 (xattrNextEntry a entry)
            else .pure (y.1, entry)

/-- The three tests in the body of a search. -/
def sameName (a : Area) (index : ℕ) (name : List Byte) (entry : ℕ) : Traced Bool :=
  if eNameIndex a entry == index && eNameLen a entry == name.length then
    (touch (entry + 4) name.length).bind fun _ => .pure (eName a entry == name)
  else .pure false

/-- `__find_xattr`, from `entry` on. -/
def findXattr (a : Area) (index : ℕ) (name : List Byte) (fuel entry : ℕ) : Traced ℕ :=
  (forEachXattr a (fun _ e => (sameName a index name e).bind fun same => .pure ((), !same)) fuel ()
    entry).bind fun x => .pure x.2

/-- The loop of `__find_inline_xattr`: whether it has come past the inline area, and the entry. -/
def inlineWalk (inlineSize : ℕ) (a : Area) (index : ℕ) (name : List Byte) (fuel entry : ℕ) :
    Traced (Bool × ℕ) :=
  forEachXattr a
    (fun _ e =>
      if inlineSize < e + 4 ∨ inlineSize < xattrNextEntry a e + 4 then .pure (true, false)
      else (sameName a index name e).bind fun same => .pure (false, !same))
    fuel false entry

/-- `__find_inline_xattr`. -/
def findInlineXattr (inlineSize : ℕ) (a : Area) (index : ℕ) (name : List Byte) :
    Traced InlineEntry :=
  (inlineWalk inlineSize a index name (txattrSize inlineSize) (xattrFirstEntry 0)).bind fun x =>
    .pure (if x.1 then .past x.2 else .entry x.2)

/-- The loop that looks for the end of the list. -/
def lastXattr (a : Area) (fuel last : ℕ) : Traced ℕ :=
  (forEachXattr a (fun _ _ => .pure ((), true)) fuel () last).bind fun x => .pure x.2

/-- The body of the loop of `f2fs_listxattr`. -/
def listBody (cfg : XattrConfig) (a : Area) (buffer : Bool)
    (x : Except Errno (ℕ × List Byte × ℤ)) (entry : ℕ) :
    Traced (Except Errno (ℕ × List Byte × ℤ) × Bool) :=
  match x, (f2fsXattrHandler cfg (eNameIndex a entry)).filter XattrHandler.list with
  | .error e, _ => .pure (.error e, false)
  | .ok x, none => .pure (.ok x, true)
  | .ok (total, out, rest), some handler =>
      let pfx := prefixBytes handler.prefixOrName
      let size := pfx.length + eNameLen a entry + 1
      if buffer ∧ rest < size then .pure (.error .ERANGE, false)
      else
        (touch (entry + 4) (if buffer then eNameLen a entry else 0)).bind fun _ =>
          .pure (.ok (total + size, if buffer then out ++ (pfx ++ eName a entry ++ [0]) else out,
            rest - size), true)

/-! ## The calls -/

/-- What is copied of the node block. -/
def nodeSize (s : XattrInode) : ℕ := if s.xattrNode.isSome then validXattrBlockSize else 0

/-- The second part of `lookup_all_xattrs`. -/
def lookupRest (inlineSize : ℕ) (s : XattrInode) (env : XattrEnv) (index : ℕ) (name : List Byte)
    (txattr : Area) (curAddr : ℕ) : Traced (Except Errno (ℕ × Area)) :=
  match readNode inlineSize s env txattr with
  | .error e => .pure (.error e)
  | .ok a =>
      (touch inlineSize (nodeSize s)).bind fun _ =>
        (findXattr a index name (txattrSize inlineSize) (xattrFirstEntry curAddr)).bind fun xe =>
          (touch xe 4).bind fun _ => .pure (checkLast a xe)

/-- `lookup_all_xattrs`. -/
def lookupAllXattrs (inlineSize : ℕ) (s : XattrInode) (env : XattrEnv) (index : ℕ)
    (name : List Byte) : Traced (Except Errno (ℕ × Area)) :=
  if s.xattrNode.isNone ∧ inlineSize = 0 then .pure (.error .ENODATA)
  else if env.noMem then .pure (.error .ENOMEM)
  else
    match readInline inlineSize s env with
    | .error e => .pure (.error e)
    | .ok txattr =>
        if 0 < inlineSize then
          (touch 0 inlineSize).bind fun _ =>
            (findInlineXattr inlineSize txattr index name).bind fun x =>
              match x with
              | .entry xe => (touch xe 4).bind fun _ => .pure (checkLast txattr xe)
              | .past lastAddr =>
                  lookupRest inlineSize s env index name txattr (lastAddr - headerSize)
        else lookupRest inlineSize s env index name txattr 0

/-- What `lookup_all_xattrs` allocates. -/
def lookupSize (inlineSize : ℕ) (s : XattrInode) : ℕ := inlineSize + nodeSize s + xattrPaddingSize

/-- `read_all_xattrs`, in a buffer of `txattrSize inlineSize` bytes. -/
def readAllXattrs (inlineSize : ℕ) (s : XattrInode) (env : XattrEnv) :
    Traced (Except Errno Area) :=
  (touch 0 inlineSize).bind fun _ => (touch inlineSize (nodeSize s)).bind fun _ =>
    (touch 0 8).bind fun _ => .pure (Xattr.readAllXattrs inlineSize s env)

/-- `f2fs_getxattr`. -/
def f2fsGetxattr (inlineSize : ℕ) (s : XattrInode) (env : XattrEnv) (index : ℕ)
    (name : Option (List Byte)) (buffer : Option ℕ) : Traced (Except Errno (ℕ × List Byte)) :=
  match name with
  | none => .pure (.error .EINVAL)
  | some name =>
      if f2fsNameLen < name.length then .pure (.error .ERANGE)
      else
        (lookupAllXattrs inlineSize s env index name).bind fun r =>
          match r, buffer with
          | .error e, _ => .pure (.error e)
          | .ok (entry, a), none => .pure (.ok (eValueSize a entry, []))
          | .ok (entry, a), some bufferSize =>
              if bufferSize < eValueSize a entry then .pure (.error .ERANGE)
              else
                (touch (entry + 4 + eNameLen a entry) (eValueSize a entry)).bind fun _ =>
                  .pure (.ok (eValueSize a entry, eValue a entry))

/-- `f2fs_listxattr`. -/
def f2fsListxattr (inlineSize : ℕ) (s : XattrInode) (env : XattrEnv) (cfg : XattrConfig)
    (buffer : Option ℕ) : Traced (Except Errno (ℕ × List Byte)) :=
  (readAllXattrs inlineSize s { env with ipage := false }).bind fun r =>
    match r with
    | .error e => .pure (.error e)
    | .ok a =>
        (forEachXattr a (listBody cfg a buffer.isSome) (txattrSize inlineSize)
          (.ok (0, [], (buffer.getD 0 : ℕ))) (xattrFirstEntry 0)).bind fun x =>
            .pure (x.1.map fun y => (y.1, y.2.1))

/-- `f2fs_xattr_value_same`, if there is a value. -/
def valueSame (a : Area) (here : ℕ) (value : Option (List Byte)) : Traced Bool :=
  match value with
  | none => .pure false
  | some v =>
      if eValueSize a here == v.length then
        (touch (here + 4 + eNameLen a here) v.length).bind fun _ => .pure (eValue a here == v)
      else .pure false

/-- The last parts of `__f2fs_setxattr`: `memmove`, `memset`, the new entry, and the copies back. -/
def replaceXattr (inlineSize : ℕ) (s : XattrInode) (env : XattrEnv) (index : ℕ) (name : List Byte)
    (value : Option (List Byte)) (a : Area) (here last : ℕ) (found : Bool) :
    Traced (XattrInode × Option Errno) :=
  let next := xattrNextEntry a here
  let oldsize := if found then entrySize a here else 0
  let newLast := last - oldsize
  let newLen := value.elim 0 fun v => 4 + name.length + v.length
  (if found then
    (touch next (last - next)).bind fun _ => (touch here (last - next)).bind fun _ =>
      touch newLast oldsize
  else .pure ()).bind fun _ => (touch newLast newLen).bind fun _ =>
    (touch 0 inlineSize).bind fun _ => (touch inlineSize validXattrBlockSize).bind fun _ =>
      .pure (Xattr.replaceXattr inlineSize s env index name value a here last found)

/-- `__f2fs_setxattr`, in the buffer. -/
def setxattrIn (inlineSize : ℕ) (s : XattrInode) (env : XattrEnv) (index : ℕ) (name : List Byte)
    (value : Option (List Byte)) (create replace : Bool) (a : Area) :
    Traced (XattrInode × Option Errno) :=
  (findXattr a index name (txattrSize inlineSize) (xattrFirstEntry 0)).bind fun here =>
    (touch here 4).bind fun _ =>
      let found := !isXattrLastEntry a here
      let size := (value.getD []).length
      if found && create then .pure (s, some .EEXIST)
      else
        (if found then valueSame a here value else .pure false).bind fun same =>
          if same then .pure (s, none)
          else if !found && replace then .pure (s, some .ENODATA)
          else
            (lastXattr a (txattrSize inlineSize) here).bind fun last =>
              let newsize := xattrAlign (4 + name.length + size)
              let free : ℤ :=
                (minOffset inlineSize : ℤ) - last + if found then entrySize a here else 0
              if value.isSome && decide (free < newsize) then .pure (s, some .E2BIG)
              else replaceXattr inlineSize s env index name value a here last found

/-- `__f2fs_setxattr`, and `f2fs_setxattr` around it. -/
def f2fsSetxattr (inlineSize : ℕ) (s : XattrInode) (env : XattrEnv) (index : ℕ)
    (name : Option (List Byte)) (value : Option (List Byte)) (create replace : Bool) :
    Traced (XattrInode × Option Errno) :=
  match env.dquot, name with
  | some e, _ => .pure (s, some e)
  | none, none => .pure (s, some .EINVAL)
  | none, some name =>
      if f2fsNameLen < name.length then .pure (s, some .ERANGE)
      else if maxValueLen inlineSize < (value.getD []).length then .pure (s, some .E2BIG)
      else
        (readAllXattrs inlineSize s env).bind fun r =>
          match r with
          | .error e => .pure (s, some e)
          | .ok a => setxattrIn inlineSize s env index name value create replace a

section

variable {a b : Area} {e index n fuel size : ℕ} {name : List Byte} {env : XattrEnv}
  {s : XattrInode} {cfg : XattrConfig} {value : Option (List Byte)} {create replace : Bool}

/-! ## They are the same calls -/

lemma pure_result {α : Type} {x y : α} (h : (Traced.pure x).result = some y) : x = y :=
  Option.some.inj h

lemma sameName_result {same : Bool} (h : (sameName a index name e).result = some same) :
    entryIs a e index name = same := by
  unfold sameName at h
  unfold entryIs
  cases hhead : eNameIndex a e == index && eNameLen a e == name.length with
  | true =>
      rw [hhead, if_pos rfl] at h
      obtain ⟨-, -, h⟩ := bind_result h
      rw [Bool.true_and]
      exact pure_result h
  | false =>
      rw [hhead, if_neg Bool.false_ne_true] at h
      rw [Bool.false_and]
      exact pure_result h

/-- **What a walk comes to**, for a function that does what its body says. -/
lemma forEachXattr_result {σ : Type} {body : σ → ℕ → Traced (σ × Bool)}
    {P : ℕ → σ → ℕ → σ × ℕ → Prop}
    (hlast : ∀ fuel x e, isXattrLastEntry a e = true → P (fuel + 1) x e (x, e))
    (hstop : ∀ fuel x e y, isXattrLastEntry a e = false → (body x e).result = some (y, false) →
      P (fuel + 1) x e (y, e))
    (hnext : ∀ fuel x e y r, isXattrLastEntry a e = false → (body x e).result = some (y, true) →
      P fuel y (xattrNextEntry a e) r → P (fuel + 1) x e r)
    {x : σ} {r : σ × ℕ} (h : (forEachXattr a body fuel x e).result = some r) : P fuel x e r := by
  induction fuel generalizing x e with
  | zero => exact absurd h (by simp [forEachXattr])
  | succ fuel ih =>
      rw [forEachXattr] at h
      obtain ⟨-, -, h⟩ := bind_result h
      cases hl : isXattrLastEntry a e with
      | true =>
          rw [hl, if_pos rfl] at h
          obtain rfl := pure_result h
          exact hlast fuel x e hl
      | false =>
          rw [hl, if_neg Bool.false_ne_true] at h
          obtain ⟨⟨y, go⟩, hbody, h⟩ := bind_result h
          cases go with
          | true => exact hnext fuel x e y r hl hbody (ih h)
          | false =>
              obtain rfl := pure_result h
              exact hstop fuel x e y hl hbody

lemma findXattr_result {xe : ℕ} (h : (findXattr a index name fuel e).result = some xe) :
    findXattrFrom a index name fuel e = xe := by
  obtain ⟨r, hwalk, h⟩ := bind_result h
  obtain rfl := pure_result h
  refine forEachXattr_result (P := fun fuel _ e r => findXattrFrom a index name fuel e = r.2)
    ?_ ?_ ?_ hwalk
  · rintro fuel x e hl
    rw [findXattrFrom, if_pos hl]
  · rintro fuel x e y hl hbody
    obtain ⟨same, hsame, hbody⟩ := bind_result hbody
    obtain rfl : same = true := by simpa using (congrArg Prod.snd (pure_result hbody))
    rw [findXattrFrom, hl, if_neg Bool.false_ne_true, sameName_result hsame, if_pos rfl]
  · rintro fuel x e y r hl hbody ih
    obtain ⟨same, hsame, hbody⟩ := bind_result hbody
    obtain rfl : same = false := by simpa using (congrArg Prod.snd (pure_result hbody))
    rw [findXattrFrom, hl, if_neg Bool.false_ne_true, sameName_result hsame,
      if_neg Bool.false_ne_true]
    exact ih

lemma findInlineXattr_result {x : InlineEntry}
    (h : (findInlineXattr n a index name).result = some x) :
    Xattr.findInlineXattr n a index name = x := by
  obtain ⟨r, hwalk, h⟩ := bind_result h
  obtain rfl := pure_result h
  refine forEachXattr_result (P := fun fuel past e r => past = false →
    findInlineXattrFrom n a index name fuel e = if r.1 then .past r.2 else .entry r.2)
    ?_ ?_ ?_ hwalk rfl
  · rintro fuel x e hl rfl
    rw [findInlineXattrFrom, if_pos hl, if_neg Bool.false_ne_true]
  · rintro fuel x e y hl hbody -
    rw [findInlineXattrFrom, hl, if_neg Bool.false_ne_true]
    by_cases hpast : n < e + 4 ∨ n < xattrNextEntry a e + 4
    · rw [if_pos hpast] at hbody ⊢
      obtain rfl : true = y := congrArg Prod.fst (pure_result hbody)
      rw [if_pos rfl]
    · rw [if_neg hpast] at hbody ⊢
      obtain ⟨same, hsame, hbody⟩ := bind_result hbody
      obtain ⟨rfl, hgo⟩ := Prod.mk.inj (pure_result hbody)
      obtain rfl : same = true := by simpa using hgo
      rw [sameName_result hsame, if_pos rfl, if_neg Bool.false_ne_true]
  · rintro fuel x e y r hl hbody ih -
    rw [findInlineXattrFrom, hl, if_neg Bool.false_ne_true]
    by_cases hpast : n < e + 4 ∨ n < xattrNextEntry a e + 4
    · rw [if_pos hpast] at hbody
      exact absurd (congrArg Prod.snd (pure_result hbody)) (by simp)
    · rw [if_neg hpast] at hbody ⊢
      obtain ⟨same, hsame, hbody⟩ := bind_result hbody
      obtain ⟨rfl, hgo⟩ := Prod.mk.inj (pure_result hbody)
      obtain rfl : same = false := by simpa using hgo
      rw [sameName_result hsame, if_neg Bool.false_ne_true]
      exact ih rfl

lemma lastXattr_result {last : ℕ} (h : (lastXattr a fuel e).result = some last) :
    lastXattrFrom a fuel e = last := by
  obtain ⟨r, hwalk, h⟩ := bind_result h
  obtain rfl := pure_result h
  refine forEachXattr_result (P := fun fuel _ e r => lastXattrFrom a fuel e = r.2) ?_ ?_ ?_ hwalk
  · rintro fuel x e hl
    rw [lastXattrFrom, if_pos hl]
  · rintro fuel x e y hl hbody
    exact absurd (congrArg Prod.snd (pure_result hbody)) (by simp)
  · rintro fuel x e y r hl hbody ih
    rw [lastXattrFrom, hl, if_neg Bool.false_ne_true]
    exact ih

lemma lookupRest_result {curAddr : ℕ} {r : Except Errno (ℕ × Area)}
    (h : (lookupRest n s env index name a curAddr).result = some r) :
    Xattr.lookupRest n s env index name a curAddr = r := by
  unfold lookupRest at h
  unfold Xattr.lookupRest
  cases hread : readNode n s env a with
  | error er =>
      rw [hread] at h
      exact pure_result h
  | ok a =>
      rw [hread] at h
      obtain ⟨-, -, h⟩ := bind_result h
      obtain ⟨xe, hfind, h⟩ := bind_result h
      obtain ⟨-, -, h⟩ := bind_result h
      simp only [Xattr.findXattr, findXattr_result hfind]
      exact pure_result h

lemma lookupAllXattrs_result {r : Except Errno (ℕ × Area)}
    (h : (lookupAllXattrs n s env index name).result = some r) :
    Xattr.lookupAllXattrs n s env index name = r := by
  unfold lookupAllXattrs at h
  unfold Xattr.lookupAllXattrs
  by_cases hnone : s.xattrNode.isNone ∧ n = 0
  · rw [if_pos hnone] at h ⊢
    exact pure_result h
  rw [if_neg hnone] at h ⊢
  by_cases hmem : env.noMem = true
  · rw [if_pos hmem] at h ⊢
    exact pure_result h
  rw [if_neg hmem] at h ⊢
  cases hread : readInline n s env with
  | error er =>
      rw [hread] at h
      exact pure_result h
  | ok txattr =>
      rw [hread] at h
      simp only at h ⊢
      by_cases hn : 0 < n
      · rw [if_pos hn] at h ⊢
        obtain ⟨-, -, h⟩ := bind_result h
        obtain ⟨x, hfind, h⟩ := bind_result h
        rw [findInlineXattr_result hfind]
        cases x with
        | entry xe =>
            obtain ⟨-, -, h⟩ := bind_result h
            exact pure_result h
        | past last => exact lookupRest_result h
      · rw [if_neg hn] at h ⊢
        exact lookupRest_result h

theorem f2fsGetxattr_result {o : Option (List Byte)} {buffer : Option ℕ}
    {r : Except Errno (ℕ × List Byte)}
    (h : (f2fsGetxattr n s env index o buffer).result = some r) :
    Xattr.f2fsGetxattr n s env index o buffer = r := by
  unfold f2fsGetxattr at h
  unfold Xattr.f2fsGetxattr
  cases o with
  | none => exact pure_result h
  | some name =>
      simp only at h ⊢
      split_ifs at h ⊢ with hlen
      · exact pure_result h
      · obtain ⟨x, hlookup, h⟩ := bind_result h
        rw [lookupAllXattrs_result hlookup]
        cases x with
        | error er => exact pure_result h
        | ok p =>
            cases buffer with
            | none => exact pure_result h
            | some k =>
                simp only at h ⊢
                split_ifs at h ⊢ with hk
                · exact pure_result h
                · obtain ⟨-, -, h⟩ := bind_result h
                  exact pure_result h

/-- The loop of `f2fs_listxattr`. -/
lemma listWalk_result {buffer : Bool} {total : ℕ} {out : List Byte} {rest : ℤ}
    {r : Except Errno (ℕ × List Byte × ℤ) × ℕ}
    (h : (forEachXattr a (listBody cfg a buffer) fuel (.ok (total, out, rest)) e).result = some r) :
    listXattrFrom cfg a buffer fuel e total out rest = r.1.map fun y => (y.1, y.2.1) := by
  refine forEachXattr_result (P := fun fuel x e r => ∀ total out rest, x = .ok (total, out, rest) →
    listXattrFrom cfg a buffer fuel e total out rest = r.1.map fun y => (y.1, y.2.1))
    ?_ ?_ ?_ h total out rest rfl
  · rintro fuel _ e hl total out rest rfl
    rw [listXattrFrom, if_pos hl]
    rfl
  · rintro fuel _ e y hl hbody total out rest rfl
    rw [listXattrFrom, hl, if_neg Bool.false_ne_true]
    unfold listBody at hbody
    cases hh : (f2fsXattrHandler cfg (eNameIndex a e)).filter XattrHandler.list with
    | none =>
        rw [hh] at hbody
        exact absurd (congrArg Prod.snd (pure_result hbody)) (by simp)
    | some handler =>
        rw [hh] at hbody
        simp only at hbody ⊢
        split_ifs at hbody ⊢ with hrest
        · obtain ⟨rfl, -⟩ := Prod.mk.inj (pure_result hbody)
          rfl
        all_goals
          obtain ⟨-, -, hbody⟩ := bind_result hbody
          exact absurd (congrArg Prod.snd (pure_result hbody)) (by simp)
  · rintro fuel _ e y r hl hbody ih total out rest rfl
    rw [listXattrFrom, hl, if_neg Bool.false_ne_true]
    unfold listBody at hbody
    cases hh : (f2fsXattrHandler cfg (eNameIndex a e)).filter XattrHandler.list with
    | none =>
        rw [hh] at hbody
        exact ih total out rest (congrArg Prod.fst (pure_result hbody)).symm
    | some handler =>
        rw [hh] at hbody
        simp only at hbody ⊢
        split_ifs at hbody ⊢ with hrest
        · exact absurd (congrArg Prod.snd (pure_result hbody)) (by simp)
        all_goals
          obtain ⟨-, -, hbody⟩ := bind_result hbody
          exact ih _ _ _ (congrArg Prod.fst (pure_result hbody)).symm

lemma readAllXattrs_result {r : Except Errno Area}
    (h : (readAllXattrs n s env).result = some r) : Xattr.readAllXattrs n s env = r := by
  obtain ⟨-, -, h⟩ := bind_result h
  obtain ⟨-, -, h⟩ := bind_result h
  obtain ⟨-, -, h⟩ := bind_result h
  exact pure_result h

theorem f2fsListxattr_result {buffer : Option ℕ} {r : Except Errno (ℕ × List Byte)}
    (h : (f2fsListxattr n s env cfg buffer).result = some r) :
    Xattr.f2fsListxattr n s env cfg buffer = r := by
  obtain ⟨x, hread, h⟩ := bind_result h
  unfold Xattr.f2fsListxattr
  rw [readAllXattrs_result hread]
  cases x with
  | error er => exact pure_result h
  | ok a =>
      obtain ⟨y, hwalk, h⟩ := bind_result h
      exact (listWalk_result hwalk).trans (pure_result h)

lemma valueSame_result {same : Bool} (h : (valueSame a e value).result = some same) :
    (value.any fun v => eValueSize a e == (value.getD []).length && eValue a e == v) = same := by
  unfold valueSame at h
  cases value with
  | none => exact pure_result h
  | some v =>
      simp only [Option.any_some, Option.getD_some]
      simp only at h
      cases hsize : eValueSize a e == v.length with
      | true =>
          rw [hsize, if_pos rfl] at h
          obtain ⟨-, -, h⟩ := bind_result h
          rw [Bool.true_and]
          exact pure_result h
      | false =>
          rw [hsize, if_neg Bool.false_ne_true] at h
          rw [Bool.false_and]
          exact pure_result h

lemma replaceXattr_result {here last : ℕ} {found : Bool} {r : XattrInode × Option Errno}
    (h : (replaceXattr n s env index name value a here last found).result = some r) :
    Xattr.replaceXattr n s env index name value a here last found = r := by
  unfold replaceXattr at h
  simp only at h
  obtain ⟨-, -, h⟩ := bind_result h
  obtain ⟨-, -, h⟩ := bind_result h
  obtain ⟨-, -, h⟩ := bind_result h
  obtain ⟨-, -, h⟩ := bind_result h
  exact pure_result h

lemma setxattrIn_result {r : XattrInode × Option Errno}
    (h : (setxattrIn n s env index name value create replace a).result = some r) :
    Xattr.setxattrIn n s env index name value create replace a = r := by
  obtain ⟨here, hfind, h⟩ := bind_result h
  obtain ⟨-, -, h⟩ := bind_result h
  simp only [Xattr.setxattrIn, Xattr.findXattr, findXattr_result hfind]
  simp only at h
  generalize (!isXattrLastEntry a here) = found at h ⊢
  -- what follows when the value is not there already
  have hrest : ∀ (h : (if !found && replace then Traced.pure (s, some Errno.ENODATA)
        else
          (lastXattr a (txattrSize n) here).bind fun last =>
            if value.isSome && decide ((minOffset n : ℤ) - last
                + (if found then entrySize a here else 0 : ℕ)
                  < xattrAlign (4 + name.length + (value.getD []).length))
            then .pure (s, some .E2BIG)
            else replaceXattr n s env index name value a here last found).result = some r),
      (if !found && replace then (s, some Errno.ENODATA)
        else if value.isSome && decide ((minOffset n : ℤ) - lastXattrFrom a (txattrSize n) here
                + (if found then entrySize a here else 0 : ℕ)
                  < xattrAlign (4 + name.length + (value.getD []).length))
            then (s, some .E2BIG)
            else Xattr.replaceXattr n s env index name value a here
              (lastXattrFrom a (txattrSize n) here) found) = r := by
    intro h
    by_cases hreplace : (!found && replace) = true
    · rw [if_pos hreplace] at h ⊢
      exact pure_result h
    · rw [if_neg hreplace] at h ⊢
      obtain ⟨last, hlast, h⟩ := bind_result h
      rw [lastXattr_result hlast]
      generalize (value.isSome && decide ((minOffset n : ℤ) - last
        + (if found then entrySize a here else 0 : ℕ)
          < xattrAlign (4 + name.length + (value.getD []).length))) = full at h ⊢
      cases full with
      | true => exact pure_result h
      | false => exact replaceXattr_result h
  by_cases hcreate : (found && create) = true
  · rw [if_pos hcreate] at h ⊢
    exact pure_result h
  · rw [if_neg hcreate] at h ⊢
    obtain ⟨same, hsame, h⟩ := bind_result h
    have heq : (found && value.any fun v =>
        eValueSize a here == (value.getD []).length && eValue a here == v) = same := by
      cases found with
      | false => exact pure_result hsame
      | true => exact valueSame_result hsame
    rw [heq]
    cases same with
    | true => exact pure_result h
    | false => exact hrest h

theorem f2fsSetxattr_result {o : Option (List Byte)} {r : XattrInode × Option Errno}
    (h : (f2fsSetxattr n s env index o value create replace).result = some r) :
    Xattr.f2fsSetxattr n s env index o value create replace = r := by
  unfold f2fsSetxattr at h
  unfold Xattr.f2fsSetxattr
  cases hq : env.dquot with
  | some er =>
      rw [hq] at h
      exact pure_result h
  | none =>
      rw [hq] at h
      cases o with
      | none => exact pure_result h
      | some name =>
          simp only [setxattr] at h ⊢
          split_ifs at h ⊢ with hlen hsize
          · exact pure_result h
          · exact pure_result h
          · obtain ⟨x, hread, h⟩ := bind_result h
            rw [readAllXattrs_result hread]
            cases x with
            | error er => exact pure_result h
            | ok a => exact setxattrIn_result h

/-! ## A list that ends -/

/-- The list from an entry on has a last word, inside of the buffer. -/
inductive ListEnds (a : Area) (size : ℕ) : ℕ → Prop
  | last {e : ℕ} (hlast : isXattrLastEntry a e = true) (hin : e + 4 ≤ size) : ListEnds a size e
  | next {e : ℕ} (hlast : isXattrLastEntry a e = false)
      (hnext : ListEnds a size (xattrNextEntry a e)) : ListEnds a size e

lemma entry_le (a : Area) (e : ℕ) :
    e + 4 + eNameLen a e + eValueSize a e ≤ xattrNextEntry a e := by
  have hle := le_xattrAlign (4 + eNameLen a e + eValueSize a e)
  unfold xattrNextEntry entrySize
  omega

namespace ListEnds

lemma inside (h : ListEnds a size e) : e + 4 ≤ size := by
  induction h with
  | last _ hin => exact hin
  | @next e _ _ ih =>
      have hle := entry_le a e
      omega

lemma tail (h : ListEnds a size e) (hlast : isXattrLastEntry a e = false) :
    ListEnds a size (xattrNextEntry a e) := by
  cases h with
  | last hl => exact absurd hl (by simp [hlast])
  | next _ h => exact h

lemma mono {size' : ℕ} (h : ListEnds a size e) (hle : size ≤ size') : ListEnds a size' e := by
  induction h with
  | last hl hin => exact .last hl (hin.trans hle)
  | next hl _ ih => exact .next hl ih

end ListEnds

lemma isXattrLastEntry_congr (h : ∀ k < 4, a (e + k) = b (e + k)) :
    isXattrLastEntry a e = isXattrLastEntry b e := by
  rw [isXattrLastEntry, isXattrLastEntry, getLe_congr h]

lemma xattrNextEntry_congr (h : ∀ k < 4, a (e + k) = b (e + k)) :
    xattrNextEntry a e = xattrNextEntry b e := by
  have hlen : eNameLen a e = eNameLen b e := congrArg BitVec.toNat (h 1 (by decide))
  have hvalue : eValueSize a e = eValueSize b e := getLe_congr fun k hk => by
    rw [Nat.add_assoc]
    exact h (2 + k) (by omega)
  rw [xattrNextEntry, xattrNextEntry, entrySize, entrySize, hlen, hvalue]

/-- What a list comes to depends on the bytes from it on. -/
lemma ListEnds.congr (h : ListEnds a size e) (hab : ∀ x, e ≤ x → a x = b x) :
    ListEnds b size e := by
  induction h with
  | last hl hin =>
      refine .last ?_ hin
      rw [← isXattrLastEntry_congr fun k _ => hab _ (Nat.le_add_right _ _)]
      exact hl
  | @next e hl _ ih =>
      have hle := entry_le a e
      have hsame : ∀ k < 4, a (e + k) = b (e + k) := fun k _ => hab _ (Nat.le_add_right _ _)
      refine .next ((isXattrLastEntry_congr hsame).symm.trans hl) ?_
      rw [← xattrNextEntry_congr hsame]
      exact ih fun x hx => hab x (by omega)

/-! ## Walks along a list that ends -/

/-- **A walk along a list that ends stays inside**, if its body stays in the entry. -/
lemma forEachXattr_ends {σ : Type} {body : σ → ℕ → Traced (σ × Bool)}
    (hbody : ∀ x e, xattrNextEntry a e + 4 ≤ size → (body x e).Ends size fun _ => True)
    (h : ListEnds a size e) (hfuel : size ≤ e + fuel) (x : σ) :
    (forEachXattr a body fuel x e).Ends size fun r => ListEnds a size r.2 := by
  induction fuel generalizing x e with
  | zero =>
      have hin := h.inside
      omega
  | succ fuel ih =>
      refine (Ends.touch h.inside).bind fun _ _ => ?_
      cases hl : isXattrLastEntry a e with
      | true => exact Ends.pure h
      | false =>
          have htail := h.tail hl
          have hle := entry_le a e
          refine (hbody x e htail.inside).bind fun y _ => ?_
          cases hy : y.2 with
          | true => exact ih htail (by omega) y.1
          | false => exact Ends.pure h

lemma sameName_ends (hin : xattrNextEntry a e + 4 ≤ size) :
    (sameName a index name e).Ends size fun _ => True := by
  have hle := entry_le a e
  unfold sameName
  split_ifs with hhead
  · simp only [Bool.and_eq_true, beq_iff_eq] at hhead
    exact (Ends.touch (by omega)).bind fun _ _ => Ends.pure trivial
  · exact Ends.pure trivial

lemma findXattr_ends (h : ListEnds a size e) (hfuel : size ≤ e + fuel) :
    (findXattr a index name fuel e).Ends size fun xe => ListEnds a size xe := by
  refine (forEachXattr_ends (fun _ e hin => ?_) h hfuel ()).bind fun r hr => Ends.pure hr
  exact (sameName_ends hin).bind fun _ _ => Ends.pure trivial

/-- The end of the list is not before the entry behind the first. -/
lemma lastXattr_ends (h : ListEnds a size e) (hfuel : size ≤ e + fuel) :
    (lastXattr a fuel e).Ends size fun last => ListEnds a size last ∧
      (isXattrLastEntry a e = false → xattrNextEntry a e ≤ last) := by
  have hwalk : (forEachXattr a (fun _ _ => .pure ((), true)) fuel () e).Ends size
      fun r => ListEnds a size r.2 :=
    forEachXattr_ends (fun _ _ _ => Ends.pure trivial) h hfuel ()
  refine hwalk.self.bind fun r hr => Ends.pure ⟨hr.1, ?_⟩
  have hpos := forEachXattr_result
    (P := fun _ _ e r => e ≤ r.2 ∧ (isXattrLastEntry a e = false → xattrNextEntry a e ≤ r.2))
    (fun _ _ e hl => ⟨le_refl e, fun hl' => absurd hl (by simp [hl'])⟩)
    (fun _ _ _ _ _ hbody => absurd (congrArg Prod.snd (pure_result hbody)) (by simp))
    (fun _ _ e _ r _ _ ih => by
      have hle := entry_le a e
      exact ⟨by omega, fun _ => ih.1⟩) hr.2
  exact hpos.2

/-- **The walk through the inline area** is the beginning of the walk along the whole list. -/
lemma inlineWalk_ends (hab : ∀ x < n, a x = b x) (hsize : n + 4 ≤ size) (h : ListEnds b size e)
    (hfuel : n ≤ e + fuel) (hpos : 0 < fuel) :
    (inlineWalk n a index name fuel e).Ends size fun r => e ≤ r.2 ∧
      (r.1 = true → ListEnds b size r.2) ∧ (r.1 = false → r.2 + 4 ≤ size ∧
        (isXattrLastEntry a r.2 = false → xattrNextEntry a r.2 + 4 ≤ n)) := by
  unfold inlineWalk
  induction fuel generalizing e with
  | zero => exact absurd hpos (lt_irrefl 0)
  | succ fuel ih =>
      have hin := h.inside
      rw [forEachXattr]
      refine (Ends.touch hin).bind fun _ _ => ?_
      cases hl : isXattrLastEntry a e with
      | true =>
          exact Ends.pure ⟨le_refl e, fun hf => absurd hf (by simp), fun _ => ⟨hin, by simp [hl]⟩⟩
      | false =>
          rw [if_neg Bool.false_ne_true]
          by_cases hpast : n < e + 4 ∨ n < xattrNextEntry a e + 4
          · rw [if_pos hpast]
            exact Ends.pure ⟨le_refl e, fun _ => h, fun hf => absurd hf (by simp)⟩
          · have hle := entry_le a e
            have hfit : xattrNextEntry a e + 4 ≤ n := by omega
            have hsame : ∀ k < 4, a (e + k) = b (e + k) := fun k hk => hab _ (by omega)
            have htail : ListEnds b size (xattrNextEntry a e) := by
              rw [xattrNextEntry_congr hsame]
              exact h.tail ((isXattrLastEntry_congr hsame).symm.trans hl)
            rw [if_neg hpast]
            have hname : ((sameName a index name e).bind fun same =>
                Traced.pure (false, !same)).Ends size fun y => y.1 = false :=
              (sameName_ends (by omega)).bind fun same _ => Ends.pure rfl
            refine hname.bind ?_
            rintro ⟨past, go⟩ rfl
            cases go with
            | true =>
                refine (ih htail (by omega) (by omega)).mono (le_refl _) ?_
                exact fun r hr => ⟨by omega, hr.2⟩
            | false =>
                exact Ends.pure ⟨le_refl e, fun hf => absurd hf (by simp), fun _ => ⟨hin, fun _ => hfit⟩⟩

/-! ## The calls stay inside -/

/-- Where the stored list has to end, and that it does. -/
def StoredListEnds (n : ℕ) (s : XattrInode) : Prop :=
  (s.xattrNode = none ∧ n = 0) ∨ ListEnds (stored n s) (lookupSize n s) headerSize

/-- What a lookup finds is inside. -/
def FoundInside (size : ℕ) (r : Except Errno (ℕ × Area)) : Prop :=
  ∀ xe a, r = .ok (xe, a) → xattrNextEntry a xe ≤ size

lemma checkLast_inside {xe : ℕ} (h : isXattrLastEntry a xe = false → xattrNextEntry a xe ≤ size) :
    FoundInside size (checkLast a xe) := by
  intro xe' a' heq
  unfold checkLast at heq
  split_ifs at heq with hl
  obtain ⟨rfl, rfl⟩ := Prod.mk.inj (Except.ok.inj heq)
  exact h (by simpa using hl)

lemma lookupSize_le (n : ℕ) (s : XattrInode) : lookupSize n s ≤ txattrSize n := by
  unfold lookupSize nodeSize txattrSize
  split_ifs <;> omega

lemma lookupRest_ends {curAddr : ℕ} (ha : ∀ x, a x = if x < n then s.inlineArea x else 0)
    (h : ListEnds (stored n s) (lookupSize n s) (xattrFirstEntry curAddr)) :
    (lookupRest n s env index name a curAddr).Ends (lookupSize n s)
      (FoundInside (lookupSize n s)) := by
  have hle := lookupSize_le n s
  unfold lookupRest
  cases hread : readNode n s env a with
  | error er => exact Ends.pure (by rintro xe a ⟨⟩)
  | ok a' =>
      obtain rfl := readNode_ok ha hread
      refine (Ends.touch (by simp only [lookupSize]; omega)).bind fun _ _ => ?_
      refine (findXattr_ends h (by omega)).bind fun xe hxe => ?_
      refine (Ends.touch hxe.inside).bind fun _ _ => Ends.pure (checkLast_inside fun hl => ?_)
      have htail := (hxe.tail hl).inside
      omega

lemma lookupAllXattrs_ends (h : StoredListEnds n s) :
    (lookupAllXattrs n s env index name).Ends (lookupSize n s)
      (FoundInside (lookupSize n s)) := by
  unfold lookupAllXattrs
  by_cases hnone : s.xattrNode.isNone ∧ n = 0
  · rw [if_pos hnone]
    exact Ends.pure (by rintro xe a ⟨⟩)
  rw [if_neg hnone]
  have hlist : ListEnds (stored n s) (lookupSize n s) headerSize := by
    refine h.resolve_left fun h0 => hnone ⟨?_, h0.2⟩
    rw [h0.1]
    rfl
  by_cases hmem : env.noMem = true
  · rw [if_pos hmem]
    exact Ends.pure (by rintro xe a ⟨⟩)
  rw [if_neg hmem]
  cases hread : readInline n s env with
  | error er => exact Ends.pure (by rintro xe a ⟨⟩)
  | ok a =>
      have ha := readInline_ok hread
      have hfirst : xattrFirstEntry 0 = headerSize := Nat.zero_add _
      have hroom : n + 4 ≤ lookupSize n s := by
        simp only [lookupSize, xattrPaddingSize]
        omega
      by_cases hn : 0 < n
      · simp only [if_pos hn]
        refine (Ends.touch (by omega)).bind fun _ _ => ?_
        have hab : ∀ x < n, a x = stored n s x := fun x hx => by
          rw [ha, if_pos hx, stored, if_pos hx]
        have hfuel : n ≤ xattrFirstEntry 0 + txattrSize n := by
          simp only [txattrSize]
          omega
        have hpos : 0 < txattrSize n := by
          simp only [txattrSize, xattrPaddingSize]
          omega
        have hwalk : (inlineWalk n a index name (txattrSize n) (xattrFirstEntry 0)).Ends
            (lookupSize n s) _ := inlineWalk_ends hab hroom (hfirst ▸ hlist) hfuel hpos
        have hfound : (findInlineXattr n a index name).Ends (lookupSize n s) fun x =>
            ∃ r : Bool × ℕ, x = (if r.1 then InlineEntry.past r.2 else InlineEntry.entry r.2) ∧
              headerSize ≤ r.2 ∧ (r.1 = true → ListEnds (stored n s) (lookupSize n s) r.2) ∧
              (r.1 = false → r.2 + 4 ≤ lookupSize n s ∧
                (isXattrLastEntry a r.2 = false → xattrNextEntry a r.2 + 4 ≤ n)) :=
          hwalk.bind fun r hr => Ends.pure ⟨r, rfl, hfirst ▸ hr.1, hr.2⟩
        refine hfound.bind ?_
        rintro _ ⟨⟨past, e⟩, rfl, hstart, hpast, hentry⟩
        cases past with
        | true =>
            refine lookupRest_ends ha ?_
            rw [xattrFirstEntry, Nat.sub_add_cancel hstart]
            exact hpast rfl
        | false =>
            obtain ⟨hin, hnext⟩ := hentry rfl
            refine (Ends.touch hin).bind fun _ _ => Ends.pure (checkLast_inside fun hl => ?_)
            have hle := hnext hl
            omega
      · simp only [if_neg hn]
        exact lookupRest_ends ha (hfirst ▸ hlist)

/-- The buffer that has both areas in it. -/
lemma StoredListEnds.buffer (h : StoredListEnds n s)
    (hread : Xattr.readAllXattrs n s env = .ok a) : ListEnds a (txattrSize n) headerSize := by
  have hab : ∀ x, headerSize ≤ x → stored n s x = a x :=
    fun x hx => (readAllXattrs_ok hread x hx).symm
  rcases h with ⟨hnone, rfl⟩ | h
  · refine ListEnds.congr (.last ?_ (by decide)) hab
    have hzero : getLe (stored 0 s) headerSize 4 = getLe (fun _ => 0) headerSize 4 :=
      getLe_congr fun k _ => by simp [stored, hnone]
    rw [isXattrLastEntry, hzero]
    decide
  · exact (h.mono (lookupSize_le n s)).congr hab

lemma readAllXattrs_ends (n : ℕ) (s : XattrInode) (env : XattrEnv) :
    (readAllXattrs n s env).Ends (txattrSize n) fun r => r = Xattr.readAllXattrs n s env := by
  have hnode : nodeSize s ≤ validXattrBlockSize := by
    unfold nodeSize
    split_ifs <;> simp
  unfold readAllXattrs txattrSize xattrPaddingSize
  refine (Ends.touch (by omega)).bind fun _ _ => (Ends.touch (by omega)).bind fun _ _ => ?_
  refine (Ends.touch ?_).bind fun _ _ => Ends.pure rfl
  simp only [validXattrBlockSize]
  omega

theorem f2fsGetxattr_inside (h : StoredListEnds n s) (env : XattrEnv) (index : ℕ)
    (o : Option (List Byte)) (buffer : Option ℕ) :
    (f2fsGetxattr n s env index o buffer).Ends (lookupSize n s) fun _ => True := by
  unfold f2fsGetxattr
  cases o with
  | none => exact Ends.pure trivial
  | some name =>
      simp only
      split_ifs with hlen
      · exact Ends.pure trivial
      · refine (lookupAllXattrs_ends h).bind fun r hr => ?_
        cases r with
        | error er => exact Ends.pure trivial
        | ok p =>
            have hin := hr p.1 p.2 rfl
            have hle := entry_le p.2 p.1
            cases buffer with
            | none => exact Ends.pure trivial
            | some k =>
                simp only
                split_ifs with hk
                · exact Ends.pure trivial
                · exact (Ends.touch (by omega)).bind fun _ _ => Ends.pure trivial

lemma listBody_ends {buffer : Bool} (x : Except Errno (ℕ × List Byte × ℤ))
    (hin : xattrNextEntry a e + 4 ≤ size) :
    (listBody cfg a buffer x e).Ends size fun _ => True := by
  have hle := entry_le a e
  unfold listBody
  cases x with
  | error er => exact Ends.pure trivial
  | ok p =>
      cases (f2fsXattrHandler cfg (eNameIndex a e)).filter XattrHandler.list with
      | none => exact Ends.pure trivial
      | some handler =>
          simp only
          have htouch : (touch (e + 4) (if buffer then eNameLen a e else 0)).Ends size
              fun _ => True := by
            refine Ends.touch ?_
            split_ifs <;> omega
          split
          · exact Ends.pure trivial
          · exact htouch.bind fun _ _ => Ends.pure trivial

theorem f2fsListxattr_inside (h : StoredListEnds n s) (env : XattrEnv) (cfg : XattrConfig)
    (buffer : Option ℕ) :
    (f2fsListxattr n s env cfg buffer).Ends (txattrSize n) fun _ => True := by
  refine (readAllXattrs_ends n s _).bind fun r hr => ?_
  cases r with
  | error er => exact Ends.pure trivial
  | ok a =>
      have hlist := h.buffer hr.symm
      refine (forEachXattr_ends (fun x e hin => listBody_ends x hin) ?_ (by omega) _).bind
        fun _ _ => Ends.pure trivial
      rw [xattrFirstEntry, Nat.zero_add]
      exact hlist

lemma valueSame_ends (hin : xattrNextEntry a e ≤ size) :
    (valueSame a e value).Ends size fun _ => True := by
  have hle := entry_le a e
  unfold valueSame
  cases value with
  | none => exact Ends.pure trivial
  | some v =>
      simp only
      split_ifs with hsize
      · have heq : eValueSize a e = v.length := by simpa using hsize
        exact (Ends.touch (by omega)).bind fun _ _ => Ends.pure trivial
      · exact Ends.pure trivial

lemma xattrAlign_le (k : ℕ) : xattrAlign k ≤ k + 3 := by
  unfold xattrAlign
  omega

/-- **The edit stays inside**: what is moved, what is cleared and what is written. -/
lemma replaceXattr_ends {here last : ℕ} {found : Bool} (hhere : here + 4 ≤ txattrSize n)
    (hlast : last + 4 ≤ txattrSize n) (hfound : found = true → xattrNextEntry a here ≤ last)
    (hfree : value.isSome = true →
      (xattrAlign (4 + name.length + (value.getD []).length) : ℤ)
        ≤ (minOffset n : ℤ) - last + (if found then entrySize a here else 0 : ℕ)) :
    (replaceXattr n s env index name value a here last found).Ends (txattrSize n)
      fun _ => True := by
  have hmin : minOffset n ≤ n + validXattrBlockSize + 3 := xattrAlign_le _
  have hnext : xattrNextEntry a here = here + entrySize a here := rfl
  have hroom : txattrSize n = n + validXattrBlockSize + 4 := rfl
  have hnew : last - (if found then entrySize a here else 0)
      + value.elim 0 (fun v => 4 + name.length + v.length) ≤ txattrSize n := by
    cases value with
    | none =>
        simp only [Option.elim_none]
        omega
    | some v =>
        have hle := le_xattrAlign (4 + name.length + v.length)
        have hfree' := hfree rfl
        rw [Option.getD_some] at hfree'
        simp only [Option.elim_some]
        cases found with
        | true =>
            have hafter := hfound rfl
            simp only [if_true] at hfree' ⊢
            omega
        | false =>
            simp only [Bool.false_eq_true, if_false] at hfree' ⊢
            omega
  have hmove : found = true → ((touch (xattrNextEntry a here) (last - xattrNextEntry a here)).bind
      fun _ => (touch here (last - xattrNextEntry a here)).bind
        fun _ => touch (last - entrySize a here) (entrySize a here)).Ends (txattrSize n)
      fun _ => True := by
    intro hf
    have hafter := hfound hf
    refine (Ends.touch (by omega)).bind fun _ _ => (Ends.touch (by omega)).bind fun _ _ => ?_
    exact Ends.touch (by omega)
  have hcopy : ((touch 0 n).bind fun _ => (touch n validXattrBlockSize).bind fun _ =>
      Traced.pure (Xattr.replaceXattr n s env index name value a here last found)).Ends
      (txattrSize n) fun _ => True :=
    (Ends.touch (by omega)).bind fun _ _ => (Ends.touch (by omega)).bind fun _ _ =>
      Ends.pure trivial
  unfold replaceXattr
  cases found with
  | true =>
      exact (hmove rfl).bind fun _ _ => (Ends.touch hnew).bind fun _ _ => hcopy
  | false => exact Ends.pure_bind ((Ends.touch hnew).bind fun _ _ => hcopy)

lemma setxattrIn_ends (hlist : ListEnds a (txattrSize n) headerSize) :
    (setxattrIn n s env index name value create replace a).Ends (txattrSize n) fun _ => True := by
  have hfirst : xattrFirstEntry 0 = headerSize := Nat.zero_add _
  refine (findXattr_ends (hfirst ▸ hlist) (by omega)).bind fun here hhere => ?_
  refine (Ends.touch hhere.inside).bind fun _ _ => ?_
  simp only
  by_cases hcreate : (!isXattrLastEntry a here && create) = true
  · rw [if_pos hcreate]
    exact Ends.pure trivial
  rw [if_neg hcreate]
  have hsame : (if !isXattrLastEntry a here then valueSame a here value
      else Traced.pure false).Ends (txattrSize n) fun _ => True := by
    cases hl : isXattrLastEntry a here with
    | true => exact Ends.pure trivial
    | false =>
        have hin := (hhere.tail hl).inside
        exact valueSame_ends (by omega)
  refine hsame.bind fun same _ => ?_
  by_cases hs : same = true
  · rw [if_pos hs]
    exact Ends.pure trivial
  rw [if_neg hs]
  by_cases hreplace : (!!isXattrLastEntry a here && replace) = true
  · rw [if_pos hreplace]
    exact Ends.pure trivial
  rw [if_neg hreplace]
  refine (lastXattr_ends hhere (by omega)).bind fun last hlast => ?_
  by_cases hfull : (value.isSome && decide ((minOffset n : ℤ) - last
      + (if !isXattrLastEntry a here then entrySize a here else 0 : ℕ)
        < xattrAlign (4 + name.length + (value.getD []).length))) = true
  · rw [if_pos hfull]
    exact Ends.pure trivial
  rw [if_neg hfull]
  refine replaceXattr_ends hhere.inside hlast.1.inside ?_ ?_
  · intro hfound
    exact hlast.2 (by simpa using hfound)
  · intro hvalue
    rw [hvalue, Bool.true_and, decide_eq_true_eq] at hfull
    exact not_lt.mp hfull

theorem f2fsSetxattr_inside (h : StoredListEnds n s) (env : XattrEnv) (index : ℕ)
    (o value : Option (List Byte)) (create replace : Bool) :
    (f2fsSetxattr n s env index o value create replace).Ends (txattrSize n) fun _ => True := by
  unfold f2fsSetxattr
  cases env.dquot with
  | some er => exact Ends.pure trivial
  | none =>
      cases o with
      | none => exact Ends.pure trivial
      | some name =>
          simp only
          split_ifs with hlen hsize
          · exact Ends.pure trivial
          · exact Ends.pure trivial
          · refine (readAllXattrs_ends n s env).bind fun r hr => ?_
            cases r with
            | error er => exact Ends.pure trivial
            | ok a => exact setxattrIn_ends (h.buffer hr.symm)

/-! ## A list that does not end -/

/-- **A walk that goes on to the end and stays inside has come to the end.** -/
lemma listEnds_of_forEachXattr {σ : Type} {body : σ → ℕ → Traced (σ × Bool)} (I : σ → Prop)
    (hbody : ∀ x e r, I x → (body x e).result = some r → r.2 = true ∧ I r.1) {x : σ} (hx : I x)
    {post : σ × ℕ → Prop} (h : (forEachXattr a body fuel x e).Ends size post) :
    ListEnds a size e := by
  induction fuel generalizing x e with
  | zero =>
      obtain ⟨⟨r, hr, -⟩, -⟩ := h
      exact absurd hr (by simp [forEachXattr])
  | succ fuel ih =>
      rw [forEachXattr] at h
      obtain ⟨_, -, hword⟩ := h.left
      have hrest := h.right rfl
      have hin := hword.touch_le (by decide)
      cases hl : isXattrLastEntry a e with
      | true => exact .last hl hin
      | false =>
          rw [hl, if_neg Bool.false_ne_true] at hrest
          obtain ⟨y, hy, -⟩ := hrest.left
          have hgo := hbody x e y hx hy
          have hnext := hrest.right hy
          rw [if_pos hgo.1] at hnext
          exact .next hl (ih hgo.2 hnext)

/-- No entry has this index. -/
def strangeIndex : ℕ := 256

lemma sameName_strange {same : Bool}
    (h : (sameName a strangeIndex name e).result = some same) : same = false := by
  have hne : (eNameIndex a e == strangeIndex) = false :=
    beq_false_of_ne (Nat.ne_of_lt (a e).isLt)
  rw [sameName, hne, Bool.false_and, if_neg Bool.false_ne_true] at h
  exact (pure_result h).symm

lemma listEnds_of_findXattr {post : ℕ → Prop}
    (h : (findXattr a strangeIndex name fuel e).Ends size post) : ListEnds a size e := by
  obtain ⟨_, -, hwalk⟩ := h.left
  refine listEnds_of_forEachXattr (fun _ => True) (fun x e r _ hr => ⟨?_, trivial⟩) trivial hwalk
  obtain ⟨same, hsame, hr⟩ := bind_result hr
  rw [← pure_result hr, sameName_strange hsame]
  rfl

lemma listEnds_of_inlineWalk
    (h : (inlineWalk n a strangeIndex name fuel e).Ends size
      fun r => r.1 = true → ListEnds a size r.2) : ListEnds a size e := by
  unfold inlineWalk at h
  induction fuel generalizing e with
  | zero =>
      obtain ⟨⟨r, hr, -⟩, -⟩ := h
      exact absurd hr (by simp [forEachXattr])
  | succ fuel ih =>
      rw [forEachXattr] at h
      obtain ⟨_, -, hword⟩ := h.left
      have hrest := h.right rfl
      have hin := hword.touch_le (by decide)
      cases hl : isXattrLastEntry a e with
      | true => exact .last hl hin
      | false =>
          rw [hl, if_neg Bool.false_ne_true] at hrest
          by_cases hpast : n < e + 4 ∨ n < xattrNextEntry a e + 4
          · rw [if_pos hpast] at hrest
            obtain ⟨r, hr, hpost⟩ := (hrest.right rfl).result
            obtain rfl := pure_result hr
            exact hpost rfl
          · rw [if_neg hpast] at hrest
            obtain ⟨y, hy, -⟩ := hrest.left
            have hnext := hrest.right hy
            obtain ⟨same, hsame, hr⟩ := bind_result hy
            obtain rfl := pure_result hr
            rw [sameName_strange hsame] at hnext
            exact .next hl (ih hnext)

/-- The walk does not go back. -/
lemma le_of_inlineWalk {r : Bool × ℕ}
    (h : (inlineWalk n a index name fuel e).result = some r) : e ≤ r.2 := by
  refine forEachXattr_result (P := fun _ _ e r => e ≤ r.2) (fun _ _ e _ => le_refl e)
    (fun _ _ e _ _ _ => le_refl e) (fun _ _ e _ r _ _ ih => ?_) h
  have hle := entry_le a e
  omega

/-- With one area, a lookup that stays inside has found the end of the list. -/
lemma listEnds_of_lookup {post : Except Errno (ℕ × Area) → Prop} (hnone : s.xattrNode = none)
    (hn : 0 < n)
    (h : (lookupAllXattrs n s calmEnv strangeIndex name).Ends size post) :
    ListEnds (stored n s) size headerSize := by
  have hread : readInline n s calmEnv = .ok (memcpy (fun _ => 0) 0 s.inlineArea 0 n) := by
    simp [readInline, readInlineXattr, calmEnv, hn]
  have hstored : memcpy (fun _ => 0) 0 s.inlineArea 0 n = stored n s := by
    have hnode : readNode n s calmEnv (memcpy (fun _ => 0) 0 s.inlineArea 0 n)
        = .ok (memcpy (fun _ => 0) 0 s.inlineArea 0 n) := by
      simp [readNode, hnone]
    exact readNode_ok (readInline_ok hread) hnode
  have hempty : ¬ (s.xattrNode.isNone ∧ n = 0) := by
    rintro ⟨-, h0⟩
    omega
  have hmem : ¬ calmEnv.noMem = true := by decide
  rw [lookupAllXattrs, if_neg hempty, if_neg hmem, hread, hstored] at h
  simp only [if_pos hn] at h
  have hrest := h.right rfl
  obtain ⟨x, hx, hfind⟩ := hrest.left
  have hlookup := hrest.right hx
  obtain ⟨r, hr, hwalk⟩ := hfind.left
  have hle := le_of_inlineWalk hr
  rw [xattrFirstEntry, Nat.zero_add] at hle
  obtain ⟨r', hr', hx⟩ := bind_result hx
  obtain rfl : r = r' := Option.some.inj (hr.symm.trans hr')
  rw [← pure_result hx] at hlookup
  have hlist : ListEnds (stored n s) size (xattrFirstEntry 0) := by
    refine listEnds_of_inlineWalk (hwalk.mono (le_refl _) ?_)
    rintro _ rfl hpast
    rw [hpast, if_pos rfl] at hlookup
    simp only [lookupRest, readNode, hnone] at hlookup
    obtain ⟨_, -, hsearch⟩ := (hlookup.right rfl).left
    have hend := listEnds_of_findXattr hsearch
    rwa [xattrFirstEntry, Nat.sub_add_cancel hle] at hend
  rwa [xattrFirstEntry, Nat.zero_add] at hlist

/-- With both areas, a call that lists the attributes has found the end of the list. -/
lemma listEnds_of_listxattr {post : Except Errno (ℕ × List Byte) → Prop}
    (h : (f2fsListxattr n s calmEnv cfg none).Ends (txattrSize n) post) :
    ListEnds (stored n s) (txattrSize n) headerSize := by
  obtain ⟨r, hr, -⟩ := h.left
  have hrest := h.right hr
  have hread := readAllXattrs_result hr
  cases r with
  | error er =>
      have hfail := readAllXattrs_error hread
      simp [XattrEnv.ReadFails, calmEnv] at hfail
  | ok a =>
      obtain ⟨_, -, hwalk⟩ := hrest.left
      have hlist : ListEnds a (txattrSize n) (xattrFirstEntry 0) := by
        refine listEnds_of_forEachXattr (fun x => ∃ p, x = Except.ok p) ?_ ⟨_, rfl⟩ hwalk
        rintro _ e y ⟨⟨total, out, rest⟩, rfl⟩ hy
        unfold listBody at hy
        cases hh : (f2fsXattrHandler cfg (eNameIndex a e)).filter XattrHandler.list with
        | none =>
            rw [hh] at hy
            rw [← pure_result hy]
            exact ⟨rfl, _, rfl⟩
        | some handler =>
            rw [hh] at hy
            simp only [Option.isSome_none, Bool.false_eq_true, false_and, if_false] at hy
            obtain ⟨-, -, hy⟩ := bind_result hy
            rw [← pure_result hy]
            exact ⟨rfl, _, rfl⟩
      rw [xattrFirstEntry, Nat.zero_add] at hlist
      exact hlist.congr fun x hx => readAllXattrs_ok hread x hx

/-! ## When the calls stay inside -/

/-- A call, with its arguments. -/
inductive XattrCall where
  | get (index : ℕ) (name : Option (List Byte)) (buffer : Option ℕ)
  | list (cfg : XattrConfig) (buffer : Option ℕ)
  | set (index : ℕ) (name value : Option (List Byte)) (create replace : Bool)

/-- The call comes to an end, and touches no byte outside of what it has allocated. -/
def XattrCall.Inside (n : ℕ) (s : XattrInode) (env : XattrEnv) : XattrCall → Prop
  | .get index name buffer =>
      (f2fsGetxattr n s env index name buffer).Ends (lookupSize n s) fun _ => True
  | .list cfg buffer => (f2fsListxattr n s env cfg buffer).Ends (txattrSize n) fun _ => True
  | .set index name value create replace =>
      (f2fsSetxattr n s env index name value create replace).Ends (txattrSize n) fun _ => True

/-- **All calls stay inside of their buffers iff the stored list ends inside.** -/
theorem calls_inside_iff (n : ℕ) (s : XattrInode) :
    (∀ env (c : XattrCall), c.Inside n s env) ↔ StoredListEnds n s := by
  constructor
  · intro h
    cases hnode : s.xattrNode with
    | none =>
        by_cases hn : n = 0
        · exact Or.inl ⟨hnode, hn⟩
        · obtain ⟨_, -, hlookup⟩ := (h calmEnv (.get strangeIndex (some []) none)).left
          exact Or.inr (listEnds_of_lookup hnode (Nat.pos_of_ne_zero hn) hlookup)
    | some node =>
        have hsize : lookupSize n s = txattrSize n := by
          simp [lookupSize, nodeSize, hnode, txattrSize]
        have hlist := listEnds_of_listxattr
          (h calmEnv (.list ⟨false, false, false, false, false⟩ none))
        exact Or.inr (hsize ▸ hlist)
  · rintro h env (⟨index, name, buffer⟩ | ⟨cfg, buffer⟩ | ⟨index, name, value, create, replace⟩)
    · exact f2fsGetxattr_inside h env index name buffer
    · exact f2fsListxattr_inside h env cfg buffer
    · exact f2fsSetxattr_inside h env index name value create replace

end

/-- An entry of the inline area whose value is said to have 65535 bytes, and an empty block. -/
def damaged : XattrInode where
  inlineArea := storeList (fun _ => 0) headerSize [1, 1, 255, 255, 97]
  xattrNode := some fun _ => 0

/-- The second entry would begin at 65564, in a buffer of 4276 bytes. -/
theorem long_value_runs_out : ¬ ∀ n s env (c : XattrCall), c.Inside n s env := by
  intro h
  have hlist := listEnds_of_listxattr
    (h 200 damaged calmEnv (.list ⟨false, false, true, false, false⟩ none))
  have hin := (hlist.tail (by decide +kernel)).inside
  have hnext : xattrNextEntry (stored 200 damaged) headerSize = 65564 := by decide +kernel
  rw [hnext] at hin
  exact absurd hin (by decide)

end Hoit.Xattr.Bounds
