import HoitF2fs.Lib.Bitmap
import HoitF2fs.Segment.FlushMerge

/-!
# Each caller has its own barrier

A queued call returns with the result of a flush that started after its command was queued.

* `Places` — the commands that are not yet completed are each in one place: on the list, or in the
  hands of one party.  Nothing here is about flushes.
* `FlushInv` — the invariant, with the times of flushes and commands, and the counter.
* `work` — what is left to do.  **Every step but a new call takes away from it**, so a run without
  new calls comes to an end (`work_lt`).
* `flush_barrier_throughout` — runs.

**What goes wrong.**  The thread exits when it is told to, without a look at the list
(`Stranded`); a caller that acts for the thread may take a list that its own command has left
already, and then neither waits for it nor counts itself out; the thread may take a list that is no
longer there.  With one zoned device `submit_flush_wait` looks at the inode of one command only.
`FlushCondition` excludes these; `merged_flush_fails` shows the first two.
-/

namespace Hoit.FlushMerge

open Transition

variable {ndevs : ℕ} {s s' : FlushState} {c x : ℕ} {p : Party}

/-! ## Commands in places -/

/-- The commands `isOpen` are each in one place. -/
structure Places (issue : List ℕ) (hands : Party → List ℕ) (isOpen : ℕ → Prop) : Prop where
  nodup : issue.Nodup
  handsNodup : ∀ p, (hands p).Nodup
  apart : ∀ p, ∀ c ∈ hands p, c ∉ issue
  same : ∀ p q c, c ∈ hands p → c ∈ hands q → p = q
  iff : ∀ c, (c ∈ issue ∨ ∃ p, c ∈ hands p) ↔ isOpen c

namespace Places

variable {issue : List ℕ} {hands hands' : Party → List ℕ} {isOpen isOpen' : ℕ → Prop}

lemma congr (h : Places issue hands isOpen) (hh : ∀ p, hands' p = hands p)
    (ho : ∀ c, isOpen' c ↔ isOpen c) : Places issue hands' isOpen' := by
  obtain rfl : hands' = hands := funext hh
  exact { h with iff := fun c => (h.iff c).trans (ho c).symm }

/-- A command is put on the list. -/
lemma push (h : Places issue hands isOpen) (hc : ¬isOpen c) (hh : ∀ p, hands' p = hands p)
    (ho : ∀ d, isOpen' d ↔ d = c ∨ isOpen d) : Places (c :: issue) hands' isOpen' := by
  obtain rfl : hands' = hands := funext hh
  have hnot : c ∉ issue := fun hmem => hc ((h.iff c).mp (Or.inl hmem))
  refine ⟨List.nodup_cons.mpr ⟨hnot, h.nodup⟩, h.handsNodup, fun p d hd hmem => ?_, h.same,
    fun d => ?_⟩
  · rcases List.mem_cons.mp hmem with rfl | hmem
    · exact hc ((h.iff d).mp (Or.inr ⟨p, hd⟩))
    · exact h.apart p d hd hmem
  · rw [List.mem_cons, ho, ← h.iff d, or_assoc]

/-- A party with empty hands takes the whole list, in some order. -/
lemma take {cmds : List ℕ} (h : Places issue hands isOpen) (hp : hands p = [])
    (hperm : cmds.Perm issue) (hown : hands' p = cmds) (hh : ∀ q, q ≠ p → hands' q = hands q) :
    Places [] hands' isOpen := by
  have hmem : ∀ q d, d ∈ hands' q ↔ (q = p ∧ d ∈ issue) ∨ (q ≠ p ∧ d ∈ hands q) := by
    intro q d
    by_cases hq : q = p
    · simp [hq, hown, hperm.mem_iff]
    · simp [hq, hh q hq]
  refine ⟨List.nodup_nil, fun q => ?_, fun q d _ => List.not_mem_nil, fun q r d hq hr => ?_,
    fun d => ?_⟩
  · by_cases hq : q = p
    · rw [hq, hown]
      exact hperm.nodup_iff.mpr h.nodup
    · rw [hh q hq]
      exact h.handsNodup q
  · rcases (hmem q d).mp hq with ⟨hqp, hd⟩ | ⟨hqp, hd⟩ <;>
      rcases (hmem r d).mp hr with ⟨hrp, hd'⟩ | ⟨hrp, hd'⟩
    · rw [hqp, hrp]
    · exact absurd hd (h.apart r d hd')
    · exact absurd hd' (h.apart q d hd)
    · exact h.same q r d hd hd'
  · rw [← h.iff d]
    simp only [List.not_mem_nil, false_or, hmem]
    constructor
    · rintro ⟨q, ⟨-, hd⟩ | ⟨-, hd⟩⟩
      · exact Or.inl hd
      · exact Or.inr ⟨q, hd⟩
    · rintro (hd | ⟨q, hd⟩)
      · exact ⟨p, Or.inl ⟨rfl, hd⟩⟩
      · refine ⟨q, Or.inr ⟨?_, hd⟩⟩
        rintro rfl
        simp [hp] at hd

/-- A party is done with the first command in its hands. -/
lemma pop {cmds : List ℕ} (h : Places issue hands isOpen) (hp : hands p = c :: cmds)
    (hown : hands' p = cmds) (hh : ∀ q, q ≠ p → hands' q = hands q)
    (ho : ∀ d, isOpen' d ↔ d ≠ c ∧ isOpen d) : Places issue hands' isOpen' := by
  have hnd := h.handsNodup p
  rw [hp, List.nodup_cons] at hnd
  have hmem : ∀ q d, d ∈ hands' q ↔ d ≠ c ∧ d ∈ hands q := by
    intro q d
    by_cases hq : q = p
    · subst hq
      rw [hown, hp, List.mem_cons]
      constructor
      · intro hd
        refine ⟨?_, Or.inr hd⟩
        rintro rfl
        exact hnd.1 hd
      · rintro ⟨hne, hd⟩
        exact hd.resolve_left hne
    · rw [hh q hq]
      refine ⟨fun hd => ⟨?_, hd⟩, And.right⟩
      rintro rfl
      exact hq (h.same q p d hd (by simp [hp]))
  refine ⟨h.nodup, fun q => ?_, fun q d hd => h.apart q d ((hmem q d).mp hd).2,
    fun q r d hq hr => h.same q r d ((hmem q d).mp hq).2 ((hmem r d).mp hr).2, fun d => ?_⟩
  · by_cases hq : q = p
    · rw [hq, hown]
      exact hnd.2
    · rw [hh q hq]
      exact h.handsNodup q
  · rw [ho, ← h.iff d]
    simp only [hmem]
    constructor
    · rintro (hd | ⟨q, hne, hd⟩)
      · refine ⟨?_, Or.inl hd⟩
        rintro rfl
        exact h.apart p d (by simp [hp]) hd
      · exact ⟨hne, Or.inr ⟨q, hd⟩⟩
    · rintro ⟨hne, hd | ⟨q, hd⟩⟩
      · exact Or.inl hd
      · exact Or.inr ⟨q, hne, hd⟩

end Places

/-- `n` is the number of the calls with the property. -/
def CountedBy (owes : ℕ → Prop) (n : ℤ) : Prop :=
  ∃ P : Finset ℕ, (∀ c, c ∈ P ↔ owes c) ∧ n = P.card

lemma CountedBy.congr {owes owes' : ℕ → Prop} {n : ℤ} (h : CountedBy owes n)
    (ho : ∀ c, owes' c ↔ owes c) : CountedBy owes' n := by
  obtain ⟨P, hP, hn⟩ := h
  exact ⟨P, fun c => (hP c).trans (ho c).symm, hn⟩

lemma CountedBy.add {owes owes' : ℕ → Prop} {n : ℤ} (h : CountedBy owes n) (hc : ¬owes c)
    (ho : ∀ d, owes' d ↔ d = c ∨ owes d) : CountedBy owes' (n + 1) := by
  obtain ⟨P, hP, rfl⟩ := h
  refine ⟨insert c P, fun d => ?_, ?_⟩
  · rw [Finset.mem_insert, hP, ho]
  · rw [Finset.card_insert_of_notMem fun hmem => hc ((hP c).mp hmem)]
    push_cast
    ring

lemma CountedBy.sub {owes owes' : ℕ → Prop} {n : ℤ} (h : CountedBy owes n) (hc : owes c)
    (ho : ∀ d, owes' d ↔ d ≠ c ∧ owes d) : CountedBy owes' (n - 1) := by
  obtain ⟨P, hP, rfl⟩ := h
  refine ⟨P.erase c, fun d => ?_, ?_⟩
  · rw [Finset.mem_erase, hP, ho]
  · have hmem := (hP c).mpr hc
    rw [Finset.card_erase_of_mem hmem, Nat.cast_sub (Finset.card_pos.mpr ⟨c, hmem⟩)]
    rfl

lemma CountedBy.zero {owes : ℕ → Prop} {n : ℤ} (h : CountedBy owes n) (hnone : ∀ c, ¬owes c) :
    n = 0 := by
  obtain ⟨P, hP, rfl⟩ := h
  have hempty : P = ∅ := Finset.eq_empty_of_forall_notMem fun c hc => hnone c ((hP c).mp hc)
  simp [hempty]

/-! ## The invariant -/

/-- The commands that a party has in its hands. -/
def FlushState.hands (s : FlushState) (p : Party) : List ℕ := (s.batch p).elim [] Batch.cmds

/-- Queued and not yet completed. -/
def FlushCmd.Open (k : FlushCmd) : Prop := k.enqueuedAt ≠ none ∧ k.served = []

/-- Counted in `issing_flush`. -/
def Owes (v : Caller) (k : FlushCmd) : Prop :=
  match v with
  | .idle | .returned _ => False
  | .dispatching _ => k.served = []
  | _ => True

/-- The command was queued before the time given. -/
def FlushCmd.Before (k : FlushCmd) (time : ℕ) : Prop := ∀ t ∈ k.enqueuedAt, t < time

/-- The flush of a batch is over by then, if it says so. -/
def Batch.EndedBy (now : ℕ) : Batch → Prop
  | .flushing _ _ _ => True
  | .completing _ fl => fl.finishedAt < now

/-- Where a call stands agrees with its command. -/
def CallerOk (now c : ℕ) (v : Caller) (k : FlushCmd) : Prop :=
  match v with
  | .idle | .counted => k.enqueuedAt = none ∧ k.served = []
  | .alone startedAt _ => k.enqueuedAt = none ∧ k.served = [] ∧ k.enteredAt ≤ startedAt
  | .queued | .acting | .waiting => k.enqueuedAt ≠ none
  | .dispatching b => k.enqueuedAt ≠ none ∧ (c ∈ b.cmds ∨ k.served ≠ [])
  | .returned r =>
      (k.enqueuedAt = none → k.served = [] ∧
        ∃ fl, r = some fl ∧ k.enteredAt ≤ fl.startedAt ∧ fl.finishedAt < now) ∧
      (k.enqueuedAt ≠ none → k.served ≠ [] ∧ r = k.served.getLast?)

/-- A caller that will take the list, and has its command there. -/
def WillTake (s : FlushState) : Prop :=
  ∃ c ∈ s.issueList, s.pc c = .queued ∨ s.pc c = .acting

structure FlushInv (s : FlushState) : Prop where
  places : Places s.issueList s.hands fun c => (s.cmd c).Open
  issueBefore : ∀ c ∈ s.issueList, (s.cmd c).Before s.now
  batches : ∀ p b, s.batch p = some b → b.device = true ∧ b.EndedBy s.now ∧
    ∀ c ∈ b.cmds, (s.cmd c).Before b.startedAt
  served : ∀ c, ∀ fl ∈ (s.cmd c).served, fl.device = true ∧ fl.finishedAt < s.now ∧
    (s.cmd c).Before fl.startedAt
  once : ∀ c, (s.cmd c).served.length ≤ 1
  callers : ∀ c, CallerOk s.now c (s.pc c) (s.cmd c)
  count : CountedBy (fun c => Owes (s.pc c) (s.cmd c)) s.issing
  /-- **Nobody is stranded.** -/
  taken : s.life = .absent → s.issueList ≠ [] → WillTake s
  gone : s.life = .absent → s.thread = .checking
  sound : s.thread ≠ .oops
  entered : ∀ c, s.pc c ≠ .idle → c ∈ s.entered

lemma CallerOk.mono {now now' : ℕ} {v : Caller} {k : FlushCmd} (h : CallerOk now c v k)
    (hle : now ≤ now') : CallerOk now' c v k := by
  cases v with
  | returned r =>
      refine ⟨fun hq => ?_, h.2⟩
      obtain ⟨hs, fl, hr, h1, h2⟩ := h.1 hq
      exact ⟨hs, fl, hr, h1, h2.trans_le hle⟩
  | _ => exact h

lemma Batch.EndedBy.mono {now now' : ℕ} {b : Batch} (h : b.EndedBy now) (hle : now ≤ now') :
    b.EndedBy now' := by
  cases b with
  | flushing cmds startedAt out => trivial
  | completing cmds fl => exact Nat.lt_of_lt_of_le h hle

lemma FlushInv.servedLater (h : FlushInv s) :
    ∀ d, ∀ fl ∈ (s.cmd d).served, fl.device = true ∧ fl.finishedAt < s.now + 1 ∧
      (s.cmd d).Before fl.startedAt := by
  intro d fl hfl
  obtain ⟨h1, h2, h3⟩ := h.served d fl hfl
  exact ⟨h1, h2.trans (Nat.lt_succ_self _), h3⟩

lemma FlushInv.issueBeforeLater (h : FlushInv s) :
    ∀ d ∈ s.issueList, (s.cmd d).Before (s.now + 1) :=
  fun d hd t ht => (h.issueBefore d hd t ht).trans (Nat.lt_succ_self _)

lemma FlushInv.batchesLater {b : Batch} (h : FlushInv s) (hb : s.batch p = some b) :
    b.device = true ∧ b.EndedBy (s.now + 1) ∧ ∀ d ∈ b.cmds, (s.cmd d).Before b.startedAt := by
  obtain ⟨h1, h2, h3⟩ := h.batches p b hb
  exact ⟨h1, h2.mono (Nat.le_succ _), h3⟩

/-! ## Steps -/

lemma batch_setPc_self (s : FlushState) (c : ℕ) (v : Caller) :
    (s.setPc c v).batch (.caller c) = v.batch := by
  simp [FlushState.batch, FlushState.setPc]

lemma batch_setPc_of_ne (s : FlushState) (v : Caller) (hp : p ≠ .caller c) :
    (s.setPc c v).batch p = s.batch p := by
  cases p with
  | thread => rfl
  | caller d =>
      have hd : d ≠ c := fun heq => hp (heq ▸ rfl)
      simp [FlushState.batch, FlushState.setPc, hd]

lemma batch_setBatch_self (s : FlushState) (p : Party) (b : Batch) :
    (s.setBatch p b).batch p = some b := by
  cases p with
  | thread => rfl
  | caller c => exact batch_setPc_self s c _

lemma batch_setBatch_of_ne (s : FlushState) (b : Batch) {q : Party} (hq : q ≠ p) :
    (s.setBatch p b).batch q = s.batch q := by
  cases p with
  | thread =>
      cases q with
      | thread => exact absurd rfl hq
      | caller d => rfl
  | caller c => exact batch_setPc_of_ne s _ hq

/-- Whoever was counted still is, but for the call that moves. -/
lemma owes_update {pc : ℕ → Caller} {cmd : ℕ → FlushCmd} {v : Caller} {n : ℤ}
    (h : CountedBy (fun d => Owes (pc d) (cmd d)) n) :
    (Owes (pc c) (cmd c) → Owes v (cmd c) →
      CountedBy (fun d => Owes (Function.update pc c v d) (cmd d)) n) ∧
    (Owes (pc c) (cmd c) → ¬Owes v (cmd c) →
      CountedBy (fun d => Owes (Function.update pc c v d) (cmd d)) (n - 1)) ∧
    (¬Owes (pc c) (cmd c) → ¬Owes v (cmd c) →
      CountedBy (fun d => Owes (Function.update pc c v d) (cmd d)) n) := by
  refine ⟨fun h1 h2 => h.congr fun d => ?_, fun h1 h2 => h.sub h1 fun d => ?_,
    fun h1 h2 => h.congr fun d => ?_⟩ <;>
    by_cases hd : d = c
  · subst hd
    simp [h1, h2]
  · simp [hd]
  · subst hd
    simp [h2]
  · simp [hd]
  · subst hd
    simp [h1, h2]
  · simp [hd]

/-- **A call moves on** with nothing in its hands. -/
lemma FlushInv.movePc {v : Caller} {i : ℤ} (h : FlushInv s) (hu : s.hands (.caller c) = [])
    (hv : v.batch = none) (hok : CallerOk (s.now + 1) c v (s.cmd c))
    (hcount : CountedBy (fun d => Owes (Function.update s.pc c v d) (s.cmd d)) i)
    (htaken : s.life = .absent → s.issueList ≠ [] → WillTake (s.setPc c v))
    (hidle : s.pc c ≠ .idle) :
    FlushInv { s.setPc c v with issing := i, now := s.now + 1 } where
  places := by
    refine h.places.congr (fun p => ?_) fun d => Iff.rfl
    change ((s.setPc c v).batch p).elim [] Batch.cmds = _
    by_cases hp : p = .caller c
    · subst hp
      rw [batch_setPc_self, hv, hu]
      rfl
    · rw [batch_setPc_of_ne s v hp]
      rfl
  issueBefore := h.issueBeforeLater
  batches := by
    intro p b hb
    change (s.setPc c v).batch p = some b at hb
    by_cases hp : p = .caller c
    · subst hp
      rw [batch_setPc_self, hv] at hb
      exact absurd hb (by simp)
    · rw [batch_setPc_of_ne s v hp] at hb
      exact h.batchesLater hb
  served := h.servedLater
  once := h.once
  callers := by
    intro d
    change CallerOk (s.now + 1) d (Function.update s.pc c v d) (s.cmd d)
    by_cases hd : d = c
    · subst hd
      rw [Function.update_self]
      exact hok
    · rw [Function.update_of_ne hd]
      exact (h.callers d).mono (Nat.le_succ _)
  count := hcount
  taken := htaken
  gone := h.gone
  sound := h.sound
  entered := by
    intro d hd
    change Function.update s.pc c v d ≠ .idle at hd
    by_cases hdc : d = c
    · exact hdc ▸ h.entered c hidle
    · rw [Function.update_of_ne hdc] at hd
      exact h.entered d hd

lemma hands_of_pc {v : Caller} (h : s.pc c = v) (hv : v.batch = none) :
    s.hands (.caller c) = [] := by
  simp [FlushState.hands, FlushState.batch, h, hv]

/-- A caller other than the one that moves will still take the list. -/
lemma WillTake.setPc {v : Caller} (h : WillTake s)
    (hc : s.pc c ≠ .queued ∧ s.pc c ≠ .acting ∨ v = .queued ∨ v = .acting) :
    WillTake (s.setPc c v) := by
  obtain ⟨d, hd, hpc⟩ := h
  refine ⟨d, hd, ?_⟩
  change Function.update s.pc c v d = _ ∨ Function.update s.pc c v d = _
  by_cases hdc : d = c
  · subst hdc
    rw [Function.update_self]
    rcases hc with hc | hc
    · exact absurd hpc (by simp [hc])
    · exact hc
  · rw [Function.update_of_ne hdc]
    exact hpc

lemma FlushInv.aloneEnd {startedAt : ℕ} {out : Bool × ℤ} (h : FlushInv s)
    (hpc : s.pc c = .alone startedAt out) :
    FlushInv { s.setPc c (.returned (some ⟨startedAt, s.now, out.1, out.2⟩)) with
      issing := s.issing - 1, now := s.now + 1 } := by
  have hok := h.callers c
  rw [hpc] at hok
  refine h.movePc (hands_of_pc hpc rfl) rfl ⟨fun _ => ?_, fun hq => absurd hok.1 hq⟩
    ((owes_update h.count).2.1 (by rw [hpc]; trivial) id)
    (fun ha hl => (h.taken ha hl).setPc (Or.inl (by simp [hpc]))) (by simp [hpc])
  exact ⟨hok.2.1, _, rfl, hok.2.2, Nat.lt_succ_self _⟩

lemma FlushInv.look (h : FlushInv s) (hpc : s.pc c = .queued) :
    FlushInv { s.setPc c (if s.life = .present then .waiting else .acting) with
      now := s.now + 1 } := by
  have hok := h.callers c
  rw [hpc] at hok
  have howes : Owes (s.pc c) (s.cmd c) := by
    rw [hpc]
    trivial
  split_ifs with hlife
  · exact h.movePc (hands_of_pc hpc rfl) rfl hok ((owes_update h.count).1 howes trivial)
      (fun ha => absurd (ha.symm.trans hlife) (by decide)) (by simp [hpc])
  · exact h.movePc (hands_of_pc hpc rfl) rfl hok ((owes_update h.count).1 howes trivial)
      (fun ha hl => (h.taken ha hl).setPc (Or.inr (Or.inr rfl))) (by simp [hpc])

lemma FlushInv.takeNothing (h : FlushInv s) (hpc : s.pc c = .acting) (hlist : s.issueList = []) :
    FlushInv { s.setPc c .waiting with now := s.now + 1 } := by
  have hok := h.callers c
  rw [hpc] at hok
  exact h.movePc (hands_of_pc hpc rfl) rfl hok
    ((owes_update h.count).1 (by rw [hpc]; trivial) trivial) (fun _ hl => absurd hlist hl)
    (by simp [hpc])

lemma FlushInv.wakeUp (h : FlushInv s) (hpc : s.pc c = .waiting) (hdone : (s.cmd c).served ≠ []) :
    FlushInv { s.setPc c (.returned (s.cmd c).served.getLast?) with
      issing := s.issing - 1, now := s.now + 1 } := by
  have hok := h.callers c
  rw [hpc] at hok
  exact h.movePc (hands_of_pc hpc rfl) rfl ⟨fun hq => absurd hq hok, fun _ => ⟨hdone, rfl⟩⟩
    ((owes_update h.count).2.1 (by rw [hpc]; trivial) id)
    (fun ha hl => (h.taken ha hl).setPc (Or.inl (by simp [hpc]))) (by simp [hpc])

/-- A caller leaves with its own command completed, as it was among those in its hands. -/
lemma FlushInv.leave {fl : Flush} (h : FlushInv s)
    (hpc : s.pc c = .dispatching (.completing [] fl)) :
    FlushInv { s.setPc c (.returned (s.cmd c).served.getLast?) with now := s.now + 1 } := by
  have hok := h.callers c
  rw [hpc] at hok
  have hdone : (s.cmd c).served ≠ [] := hok.2.resolve_left (by simp [Batch.cmds])
  have hhands : s.hands (.caller c) = [] := by
    simp [FlushState.hands, FlushState.batch, hpc, Caller.batch, Batch.cmds]
  exact h.movePc hhands rfl ⟨fun hq => absurd hq hok.1, fun _ => ⟨hdone, rfl⟩⟩
    ((owes_update h.count).2.2 (by rw [hpc]; exact hdone) id)
    (fun ha hl => (h.taken ha hl).setPc (Or.inl (by simp [hpc]))) (by simp [hpc])

lemma mem_hands {b : Batch} (hb : s.batch p = some b) : x ∈ s.hands p ↔ x ∈ b.cmds := by
  simp [FlushState.hands, hb]

lemma FlushInv.open_of_mem {b : Batch} (h : FlushInv s) (hb : s.batch p = some b)
    (hx : x ∈ b.cmds) : (s.cmd x).Open :=
  (h.places.iff x).mp (Or.inr ⟨p, (mem_hands hb).mpr hx⟩)

lemma FlushInv.enter {ino : ℕ} {v : Caller} (h : FlushInv s) (hpc : s.pc c = .idle)
    (hv : v = .counted ∨ ∃ out, v = .alone s.now out) :
    FlushInv { s with
      issing := s.issing + 1
      entered := insert c s.entered
      cmd := Function.update s.cmd c ⟨ino, s.now, none, []⟩
      pc := Function.update s.pc c v
      now := s.now + 1 } := by
  have hok := h.callers c
  rw [hpc] at hok
  have hnone : v.batch = none := by
    rcases hv with rfl | ⟨out, rfl⟩ <;> rfl
  -- The command is not open, so nobody has it.
  have hclosed : ¬(s.cmd c).Open := fun ho => ho.1 hok.1
  have hne : ∀ d, (s.cmd d).Open → d ≠ c := by
    rintro d ho rfl
    exact hclosed ho
  have hbatch : ∀ q, (s.setPc c v).batch q = s.batch q := by
    intro q
    by_cases hq : q = .caller c
    · subst hq
      rw [batch_setPc_self, hnone]
      simp [FlushState.batch, hpc, Caller.batch]
    · exact batch_setPc_of_ne s v hq
  have hsame : ∀ d, d ≠ c → Function.update s.cmd c ⟨ino, s.now, none, []⟩ d = s.cmd d :=
    fun d hd => Function.update_of_ne hd _ _
  refine ⟨?_, ?_, ?_, ?_, ?_, ?_, ?_, ?_, h.gone, h.sound, ?_⟩
  · refine h.places.congr (fun q => ?_) fun d => ?_
    · change ((s.setPc c v).batch q).elim [] Batch.cmds = _
      rw [hbatch]
      rfl
    · by_cases hd : d = c
      · subst hd
        simp [FlushCmd.Open, hok.1]
      · simp only [hsame d hd]
  · intro d hd
    have hdc := hne d ((h.places.iff d).mp (Or.inl hd))
    simp only [hsame d hdc]
    exact fun t ht => (h.issueBefore d hd t ht).trans (Nat.lt_succ_self _)
  · intro q b hb
    change (s.setPc c v).batch q = some b at hb
    rw [hbatch] at hb
    obtain ⟨h1, h2, h3⟩ := h.batchesLater hb
    refine ⟨h1, h2, fun d hd => ?_⟩
    simp only [hsame d (hne d (h.open_of_mem hb hd))]
    exact h3 d hd
  · intro d fl hfl
    by_cases hd : d = c
    · subst hd
      simp at hfl
    · simp only [hsame d hd] at hfl ⊢
      exact h.servedLater d fl hfl
  · intro d
    by_cases hd : d = c
    · subst hd
      simp
    · simp only [hsame d hd]
      exact h.once d
  · intro d
    by_cases hd : d = c
    · subst hd
      rcases hv with rfl | ⟨out, rfl⟩ <;> simp [CallerOk]
    · simp only [hsame d hd, Function.update_of_ne hd]
      exact (h.callers d).mono (Nat.le_succ _)
  · refine h.count.add (c := c) (by simp [hpc, Owes]) fun d => ?_
    by_cases hd : d = c
    · subst hd
      rcases hv with rfl | ⟨out, rfl⟩ <;> simp [Owes]
    · simp [hd]
  · intro ha hl
    exact (h.taken ha hl).setPc (Or.inl (by simp [hpc]))
  · intro d hd
    by_cases hdc : d = c
    · simp [hdc]
    · simp only [Function.update_of_ne hdc] at hd
      exact Finset.mem_insert_of_mem (h.entered d hd)

lemma FlushInv.enqueue (h : FlushInv s) (hpc : s.pc c = .counted) :
    FlushInv { s.setPc c .queued with
      issueList := c :: s.issueList
      cmd := Function.update s.cmd c { s.cmd c with enqueuedAt := some s.now }
      now := s.now + 1 } := by
  have hok := h.callers c
  rw [hpc] at hok
  have hclosed : ¬(s.cmd c).Open := fun ho => ho.1 hok.1
  have hne : ∀ d, (s.cmd d).Open → d ≠ c := by
    rintro d ho rfl
    exact hclosed ho
  have hbatch : ∀ q, (s.setPc c .queued).batch q = s.batch q := by
    intro q
    by_cases hq : q = .caller c
    · subst hq
      rw [batch_setPc_self]
      simp [FlushState.batch, hpc, Caller.batch]
    · exact batch_setPc_of_ne s _ hq
  have hsame : ∀ d, d ≠ c →
      Function.update s.cmd c { s.cmd c with enqueuedAt := some s.now } d = s.cmd d :=
    fun d hd => Function.update_of_ne hd _ _
  refine ⟨?_, ?_, ?_, ?_, ?_, ?_, ?_, ?_, h.gone, h.sound, ?_⟩
  · refine h.places.push hclosed (fun q => ?_) fun d => ?_
    · change ((s.setPc c .queued).batch q).elim [] Batch.cmds = _
      rw [hbatch]
      rfl
    · by_cases hd : d = c
      · subst hd
        simp [FlushCmd.Open, hok.2]
      · simp only [hsame d hd, hd, false_or]
  · intro d hd
    rcases List.mem_cons.mp hd with rfl | hd
    · intro t ht
      simp only [Function.update_self, Option.mem_def, Option.some.injEq] at ht
      exact ht ▸ Nat.lt_succ_self _
    · simp only [hsame d (hne d ((h.places.iff d).mp (Or.inl hd)))]
      exact fun t ht => (h.issueBefore d hd t ht).trans (Nat.lt_succ_self _)
  · intro q b hb
    change (s.setPc c .queued).batch q = some b at hb
    rw [hbatch] at hb
    obtain ⟨h1, h2, h3⟩ := h.batchesLater hb
    refine ⟨h1, h2, fun d hd => ?_⟩
    simp only [hsame d (hne d (h.open_of_mem hb hd))]
    exact h3 d hd
  · intro d fl hfl
    by_cases hd : d = c
    · subst hd
      simp [hok.2] at hfl
    · simp only [hsame d hd] at hfl ⊢
      exact h.servedLater d fl hfl
  · intro d
    by_cases hd : d = c
    · subst hd
      simp [hok.2]
    · simp only [hsame d hd]
      exact h.once d
  · intro d
    change CallerOk (s.now + 1) d (Function.update s.pc c .queued d) _
    by_cases hd : d = c
    · subst hd
      simp [CallerOk]
    · simp only [hsame d hd, Function.update_of_ne hd]
      exact (h.callers d).mono (Nat.le_succ _)
  · refine h.count.congr fun d => ?_
    change Owes (Function.update s.pc c .queued d) _ ↔ _
    by_cases hd : d = c
    · subst hd
      simp [hpc, Owes]
    · simp [hd]
  · intro _ _
    exact ⟨c, List.mem_cons_self, Or.inl (Function.update_self _ _ _)⟩
  · intro d hd
    change Function.update s.pc c .queued d ≠ .idle at hd
    by_cases hdc : d = c
    · exact hdc ▸ h.entered c (by simp [hpc])
    · rw [Function.update_of_ne hdc] at hd
      exact h.entered d hd

lemma setBatch_pc (s : FlushState) (p : Party) (b : Batch) (d : ℕ) :
    (s.setBatch p b).pc d = if p = .caller d then .dispatching b else s.pc d := by
  cases p with
  | thread => simp [FlushState.setBatch]
  | caller c =>
      by_cases hd : d = c
      · subst hd
        simp [FlushState.setBatch, FlushState.setPc]
      · have hne : Party.caller c ≠ .caller d := fun heq => hd (Party.caller.inj heq).symm
        simp [FlushState.setBatch, FlushState.setPc, hd, hne]

/-- A party that is there and has called. -/
def FlushState.Running (s : FlushState) : Party → Prop
  | .thread => s.life ≠ .absent
  | .caller c => s.pc c ≠ .idle ∧ s.pc c ≠ .queued

/-- **What a party has in its hands changes.** -/
lemma FlushInv.withBatch {b : Batch} {L : List ℕ} {K : ℕ → FlushCmd} {i : ℤ} (h : FlushInv s)
    (hrun : s.Running p)
    (hplaces : Places L (fun q => if q = p then b.cmds else s.hands q) fun d => (K d).Open)
    (hissue : ∀ d ∈ L, d ∈ s.issueList)
    (hqueued : ∀ d, (K d).enqueuedAt = (s.cmd d).enqueuedAt)
    (hbatch : b.device = true ∧ b.EndedBy (s.now + 1) ∧ ∀ d ∈ b.cmds, (s.cmd d).Before b.startedAt)
    (hserved : ∀ d, ∀ fl ∈ (K d).served, fl.device = true ∧ fl.finishedAt < s.now + 1 ∧
      (s.cmd d).Before fl.startedAt)
    (honce : ∀ d, (K d).served.length ≤ 1)
    (hcallers : ∀ d, CallerOk (s.now + 1) d
      (if p = .caller d then .dispatching b else s.pc d) (K d))
    (hcount : CountedBy
      (fun d => Owes (if p = .caller d then .dispatching b else s.pc d) (K d)) i)
    (hacting : ∀ c, p = .caller c → s.pc c = .acting → L = []) (hL : L = [] ∨ L = s.issueList) :
    FlushInv { s.setBatch p b with issueList := L, cmd := K, issing := i, now := s.now + 1 } := by
  have hbefore : ∀ d time, (s.cmd d).Before time → (K d).Before time := by
    intro d time hd
    rw [FlushCmd.Before, hqueued]
    exact hd
  refine ⟨?_, ?_, ?_, ?_, honce, ?_, ?_, ?_, ?_, ?_, ?_⟩
  · refine hplaces.congr (fun q => ?_) fun d => Iff.rfl
    change ((s.setBatch p b).batch q).elim [] Batch.cmds = _
    by_cases hq : q = p
    · subst hq
      rw [batch_setBatch_self, if_pos rfl]
      rfl
    · rw [batch_setBatch_of_ne s b hq, if_neg hq]
      rfl
  · exact fun d hd => hbefore d _ fun t ht =>
      (h.issueBefore d (hissue d hd) t ht).trans (Nat.lt_succ_self _)
  · intro q b' hb'
    change (s.setBatch p b).batch q = some b' at hb'
    by_cases hq : q = p
    · subst hq
      rw [batch_setBatch_self] at hb'
      obtain rfl := Option.some.inj hb'
      exact ⟨hbatch.1, hbatch.2.1, fun d hd => hbefore d _ (hbatch.2.2 d hd)⟩
    · rw [batch_setBatch_of_ne s b hq] at hb'
      obtain ⟨h1, h2, h3⟩ := h.batchesLater hb'
      exact ⟨h1, h2, fun d hd => hbefore d _ (h3 d hd)⟩
  · intro d fl hfl
    obtain ⟨h1, h2, h3⟩ := hserved d fl hfl
    exact ⟨h1, h2, hbefore d _ h3⟩
  · intro d
    change CallerOk _ d ((s.setBatch p b).pc d) (K d)
    rw [setBatch_pc]
    exact hcallers d
  · refine hcount.congr fun d => ?_
    change Owes ((s.setBatch p b).pc d) (K d) ↔ _
    rw [setBatch_pc]
  · intro ha hl
    have ha' : s.life = .absent := by
      cases p <;> exact ha
    change L ≠ [] at hl
    have hLs := hL.resolve_left hl
    obtain ⟨d, hd, hpc⟩ := h.taken ha' (hLs ▸ hl)
    refine ⟨d, hLs ▸ hd, ?_⟩
    change (s.setBatch p b).pc d = _ ∨ (s.setBatch p b).pc d = _
    have hne : p ≠ .caller d := by
      rintro rfl
      rcases hpc with hpc | hpc
      · exact hrun.2 hpc
      · exact hl (hacting d rfl hpc)
    rw [setBatch_pc, if_neg hne]
    exact hpc
  · intro ha
    cases p with
    | thread => exact absurd ha hrun
    | caller c => exact h.gone ha
  · cases p with
    | thread => simp [FlushState.setBatch]
    | caller c => exact h.sound
  · intro d hd
    change (s.setBatch p b).pc d ≠ .idle at hd
    rw [setBatch_pc] at hd
    split_ifs at hd with hpd
    · subst hpd
      exact h.entered d hrun.1
    · cases p <;> exact h.entered d hd

/-- The list changes hands, and a flush starts. -/
lemma FlushInv.take {cmds : List ℕ} {out : Bool × ℤ} (h : FlushInv s) (hrun : s.Running p)
    (hp : s.hands p = []) (hperm : cmds.Perm s.issueList) (hout : out.1 = true)
    (hown : ∀ c, p = .caller c → s.pc c = .acting ∧ c ∈ s.issueList) :
    FlushInv { s.take p cmds out with now := s.now + 1 } := by
  have hopen : ∀ d ∈ s.issueList, (s.cmd d).Open := fun d hd => (h.places.iff d).mp (Or.inl hd)
  have hmain := h.withBatch (p := p) (b := .flushing cmds s.now out) (L := []) (K := s.cmd)
    (i := s.issing) hrun (h.places.take hp hperm (if_pos rfl) fun q hq => if_neg hq) (by simp)
    (fun _ => rfl) ⟨hout, trivial, fun d hd => h.issueBefore d (hperm.mem_iff.mp hd)⟩
    h.servedLater h.once ?_ ?_ (fun _ _ _ => rfl) (Or.inl rfl)
  · cases p <;> exact hmain
  · intro d
    split_ifs with hd
    · obtain ⟨-, hmem⟩ := hown d hd
      exact ⟨(hopen d hmem).1, Or.inl (hperm.mem_iff.mpr hmem)⟩
    · exact (h.callers d).mono (Nat.le_succ _)
  · refine h.count.congr fun d => ?_
    split_ifs with hd
    · obtain ⟨hpc, hmem⟩ := hown d hd
      simp [Owes, hpc, (hopen d hmem).2]
    · exact Iff.rfl

lemma running_of_batch {b : Batch} (h : FlushInv s) (hb : s.batch p = some b) : s.Running p := by
  cases p with
  | thread =>
      intro ha
      simp [FlushState.batch, h.gone ha, Thread.batch] at hb
  | caller c =>
      constructor <;>
      · intro hpc
        simp [FlushState.batch, hpc, Caller.batch] at hb

lemma pc_of_batch {b : Batch} (hb : s.batch (.caller c) = some b) : s.pc c = .dispatching b := by
  cases hpc : s.pc c with
  | dispatching b' =>
      simp only [FlushState.batch, hpc, Caller.batch, Option.some.injEq] at hb
      rw [hb]
  | _ => simp [FlushState.batch, hpc, Caller.batch] at hb

lemma FlushInv.flushEnd {cmds : List ℕ} {startedAt : ℕ} {out : Bool × ℤ} (h : FlushInv s)
    (hb : s.batch p = some (.flushing cmds startedAt out)) :
    FlushInv { s.setBatch p (.completing cmds ⟨startedAt, s.now, out.1, out.2⟩) with
      now := s.now + 1 } := by
  obtain ⟨h1, -, h3⟩ := h.batches p _ hb
  have hmain := h.withBatch (p := p) (b := .completing cmds ⟨startedAt, s.now, out.1, out.2⟩)
    (L := s.issueList) (K := s.cmd) (i := s.issing) (running_of_batch h hb)
    (h.places.congr (fun q => ?_) fun _ => Iff.rfl) (fun _ hd => hd) (fun _ => rfl)
    ⟨h1, Nat.lt_succ_self _, h3⟩
    h.servedLater h.once ?_ ?_ ?_ (Or.inr rfl)
  · cases p <;> exact hmain
  · split_ifs with hq
    · subst hq
      simp [FlushState.hands, hb, Batch.cmds]
    · rfl
  · intro d
    split_ifs with hd
    · subst hd
      have hok := h.callers d
      rw [pc_of_batch hb] at hok
      exact hok
    · exact (h.callers d).mono (Nat.le_succ _)
  · refine h.count.congr fun d => ?_
    split_ifs with hd
    · subst hd
      rw [pc_of_batch hb]
      exact Iff.rfl
    · exact Iff.rfl
  · rintro c rfl hpc
    rw [pc_of_batch hb] at hpc
    exact absurd hpc (by simp)

/-- A result does not change where a call stands. -/
lemma CallerOk.serve {now : ℕ} {v : Caller} {k : FlushCmd} {fl : Flush} (h : CallerOk now c v k)
    (ho : k.Open) : CallerOk now c v { k with served := k.served ++ [fl] } := by
  cases v with
  | idle => exact absurd h.1 ho.1
  | counted => exact absurd h.1 ho.1
  | alone startedAt out => exact absurd h.1 ho.1
  | queued => exact h
  | acting => exact h
  | waiting => exact h
  | dispatching b => exact ⟨h.1, Or.inr (by simp)⟩
  | returned r => exact absurd ho.2 (h.2 ho.1).1

lemma FlushInv.complete {cmds : List ℕ} {fl : Flush} (h : FlushInv s)
    (hb : s.batch p = some (.completing (x :: cmds) fl)) :
    FlushInv { (s.serve p x fl).setBatch p (.completing cmds fl) with now := s.now + 1 } := by
  obtain ⟨h1, h2, h3⟩ := h.batches p _ hb
  have hx : (s.cmd x).Open := h.open_of_mem hb (by simp [Batch.cmds])
  have hhands : s.hands p = x :: cmds := by simp [FlushState.hands, hb, Batch.cmds]
  set K := Function.update s.cmd x { s.cmd x with served := (s.cmd x).served ++ [fl] } with hK
  have hself : K x = { s.cmd x with served := (s.cmd x).served ++ [fl] } :=
    Function.update_self _ _ _
  have hother : ∀ d, d ≠ x → K d = s.cmd d := fun d hd => Function.update_of_ne hd _ _
  -- A caller with its command in other hands has nothing in its own.
  have hpcx : p ≠ .caller x → ∀ b, s.pc x ≠ .dispatching b := by
    intro hp b hpc
    have hok := h.callers x
    rw [hpc] at hok
    have hmem : x ∈ s.hands (.caller x) := by
      rw [mem_hands (b := b) (by simp [FlushState.batch, hpc, Caller.batch])]
      exact hok.2.resolve_right fun hs => hs hx.2
    exact hp (h.places.same p (.caller x) x (by simp [hhands]) hmem)
  have hmain := h.withBatch (p := p) (b := .completing cmds fl) (L := s.issueList) (K := K)
    (i := if p = .caller x then s.issing - 1 else s.issing) (running_of_batch h hb)
    (h.places.pop hhands (if_pos rfl) (fun q hq => if_neg hq) fun d => ?_) (fun _ hd => hd) ?_
    ⟨h1, Nat.lt_succ_of_lt h2, fun d hd => h3 d (List.mem_cons_of_mem x hd)⟩ ?_ ?_ ?_ ?_ ?_
    (Or.inr rfl)
  · cases p <;> exact hmain
  · by_cases hd : d = x
    · subst hd
      simp [hself, FlushCmd.Open]
    · simp [hother d hd, hd]
  · intro d
    by_cases hd : d = x
    · subst hd
      rw [hself]
    · rw [hother d hd]
  · intro d fl' hfl
    by_cases hd : d = x
    · subst hd
      rw [hself, hx.2] at hfl
      obtain rfl : fl' = fl := by simpa using hfl
      exact ⟨h1, Nat.lt_succ_of_lt h2, h3 d (by simp [Batch.cmds])⟩
    · rw [hother d hd] at hfl
      exact h.servedLater d fl' hfl
  · intro d
    by_cases hd : d = x
    · subst hd
      simp [hself, hx.2]
    · rw [hother d hd]
      exact h.once d
  · intro d
    split_ifs with hp
    · subst hp
      have hok := h.callers d
      rw [pc_of_batch hb] at hok
      by_cases hd : d = x
      · subst hd
        rw [hself]
        exact ⟨hok.1, Or.inr (by simp)⟩
      · rw [hother d hd]
        refine ⟨hok.1, hok.2.imp_left fun hmem => ?_⟩
        exact (List.mem_cons.mp hmem).resolve_left hd
    · have hok := (h.callers d).mono (Nat.le_succ s.now)
      by_cases hd : d = x
      · subst hd
        rw [hself]
        exact hok.serve hx
      · rw [hother d hd]
        exact hok
  · split_ifs with hpx
    · subst hpx
      refine h.count.sub (c := x) (by rw [pc_of_batch hb]; exact hx.2) fun d => ?_
      by_cases hd : d = x
      · subst hd
        simp [hself, Owes]
      · have hne : Party.caller x ≠ .caller d := fun heq => hd (Party.caller.inj heq).symm
        simp [hother d hd, hd, hne]
    · refine h.count.congr fun d => ?_
      by_cases hd : d = x
      · subst hd
        rw [if_neg hpx, hself]
        have hnot := hpcx hpx
        have hok := h.callers d
        cases hpc : s.pc d with
        | dispatching b => exact absurd hpc (hnot b)
        | _ => exact Iff.rfl
      · rw [hother d hd]
        split_ifs with hpd
        · subst hpd
          rw [pc_of_batch hb]
          exact Iff.rfl
        · exact Iff.rfl
  · rintro c rfl hpc
    rw [pc_of_batch hb] at hpc
    exact absurd hpc (by simp)

/-- The thread moves on with nothing in its hands. -/
lemma FlushInv.moveThread {th : Thread} (h : FlushInv s) (hu : s.hands .thread = [])
    (hth : th.batch = none) (hne : th ≠ .oops) (hgone : s.life = .absent → th = .checking) :
    FlushInv { s with thread := th, now := s.now + 1 } := by
  have hbatch : ∀ q, q ≠ .thread →
      FlushState.batch { s with thread := th, now := s.now + 1 } q = s.batch q := by
    intro q hq
    cases q with
    | thread => exact absurd rfl hq
    | caller d => rfl
  refine ⟨?_, h.issueBeforeLater, ?_,
    h.servedLater, h.once, fun d => (h.callers d).mono (Nat.le_succ _), h.count,
    h.taken, hgone, hne, h.entered⟩
  · refine h.places.congr (fun q => ?_) fun _ => Iff.rfl
    by_cases hq : q = .thread
    · subst hq
      rw [hu]
      simp [FlushState.hands, FlushState.batch, hth]
    · rw [FlushState.hands, hbatch q hq]
      rfl
  · intro q b hb
    by_cases hq : q = .thread
    · subst hq
      simp [FlushState.batch, hth] at hb
    · rw [hbatch q hq] at hb
      exact h.batchesLater hb

lemma FlushInv.moveLife {l : Life} (h : FlushInv s)
    (htaken : l = .absent → s.issueList ≠ [] → WillTake s)
    (hgone : l = .absent → s.thread = .checking) :
    FlushInv { s with life := l, now := s.now + 1 } := by
  refine ⟨h.places, h.issueBeforeLater,
    fun q b hb => ?_,
    h.servedLater, h.once, fun d => (h.callers d).mono (Nat.le_succ _), h.count,
    htaken, hgone, h.sound, h.entered⟩
  have hb' : s.batch q = some b := by
    cases q <;> exact hb
  exact h.batchesLater hb'

/-! ## The condition -/

/-- Some device is flushed for this inode. -/
def Flushes (ndevs : ℕ) (e : FlushEnv) (ino : ℕ) : Prop :=
  ndevs = 0 ∨ ∃ i < ndevs, e.dirty ino i = true

instance (e : FlushEnv) (ino : ℕ) : Decidable (Flushes ndevs e ino) :=
  inferInstanceAs (Decidable (_ ∨ _))

lemma submitFlushWait_device {e : FlushEnv} {ino : ℕ} (h : Flushes ndevs e ino) :
    (submitFlushWait ndevs e ino).1 = true := by
  have hfold : ∀ (devs : List ℕ) (x : Bool × ℤ), (x.2 ≠ 0 → x.1 = true) →
      (x.1 = true ∨ ∃ i ∈ devs, e.dirty ino i = true) →
      (devs.foldl (fun x i => if x.2 ≠ 0 ∨ e.dirty ino i = false then x else (true, e.result i))
        x).1 = true := by
    intro devs
    induction devs with
    | nil => exact fun x _ hx => hx.resolve_right (by simp)
    | cons i devs ih =>
        intro x herr hx
        rw [List.foldl_cons]
        by_cases hskip : x.2 ≠ 0 ∨ e.dirty ino i = false
        · rw [if_pos hskip]
          refine ih x herr ?_
          rcases hskip with hret | hclean
          · exact Or.inl (herr hret)
          · refine hx.imp_right ?_
            rintro ⟨j, hj, hdirty⟩
            rcases List.mem_cons.mp hj with rfl | hj
            · simp [hclean] at hdirty
            · exact ⟨j, hj, hdirty⟩
        · rw [if_neg hskip]
          exact ih _ (fun _ => rfl) (Or.inl rfl)
  rcases h with rfl | ⟨i, hi, hdirty⟩
  · rfl
  · have hne : ndevs ≠ 0 := by omega
    rw [submitFlushWait, if_neg hne]
    exact hfold _ _ (by simp) (Or.inr ⟨i, List.mem_range.mpr hi, hdirty⟩)

/-- **The condition**: whoever takes a list finds one there that its own command is on, if it has
one, and that the flush is for; the thread exits only if nobody is left waiting on the list. -/
def FlushCondition (ndevs : ℕ) (s : FlushState) : FlushLabel → Prop
  | .take c e => s.issueList = [] ∨ (c ∈ s.issueList ∧ Flushes ndevs e (s.cmd c).ino)
  | .threadTake e => ∃ c ∈ s.issueList.getLast?, Flushes ndevs e (s.cmd c).ino
  | .threadCheck => s.life = .stopping → s.thread = .checking → s.issueList = [] ∨ WillTake s
  | _ => True

lemma FlushInv.threadTake {e : FlushEnv} {d : ℕ} {cmds : List ℕ} (h : FlushInv s)
    (hth : s.thread = .taking) (hrev : s.issueList.reverse = d :: cmds)
    (hc : FlushCondition ndevs s (.threadTake e)) :
    FlushInv { s.take .thread (d :: cmds) (submitFlushWait ndevs e (s.cmd d).ino) with
      now := s.now + 1 } := by
  obtain ⟨c, hlast, hflush⟩ := hc
  have hd : c = d := by
    rw [Option.mem_def, List.getLast?_eq_head?_reverse, hrev] at hlast
    simpa using hlast.symm
  subst hd
  refine h.take ?_ (by simp [FlushState.hands, FlushState.batch, hth, Thread.batch]) ?_
    (submitFlushWait_device hflush) (by simp)
  · intro ha
    simp [h.gone ha] at hth
  · rw [← hrev]
    exact List.reverse_perm _

/-- **Every step that meets the condition keeps the invariant.** -/
lemma FlushInv.step {a : FlushLabel} (h : FlushInv s) (hc : FlushCondition ndevs s a)
    (hstep : flushStep ndevs s a = some s') : FlushInv s' := by
  obtain ⟨s₁, hm, rfl⟩ := Option.map_eq_some_iff.mp hstep
  have hidle : ∀ {th : Thread}, s.thread = th → th.batch = none → s.hands .thread = [] := by
    intro th hth hb
    simp [FlushState.hands, FlushState.batch, hth, hb]
  cases flushMove_moved hm with
  | enter ino e hpc =>
      refine h.enter hpc ?_
      split_ifs
      · exact Or.inr ⟨_, rfl⟩
      · exact Or.inl rfl
  | aloneEnd hpc => exact h.aloneEnd hpc
  | enqueue hpc => exact h.enqueue hpc
  | look hpc => exact h.look hpc
  | takeNothing e hpc hlist => exact h.takeNothing hpc hlist
  | take e hpc hlist =>
      obtain ⟨hmem, hflush⟩ := hc.resolve_left hlist
      refine h.take ?_ (hands_of_pc hpc rfl) (List.Perm.refl _) (submitFlushWait_device hflush) ?_
      · simp [FlushState.Running, hpc]
      · rintro d hd
        obtain rfl := Party.caller.inj hd
        exact ⟨hpc, hmem⟩
  | leave hpc => exact h.leave hpc
  | wakeUp hpc hdone => exact h.wakeUp hpc hdone
  | flushEnd hb => exact h.flushEnd hb
  | complete hb => exact h.complete hb
  | threadExit hlife hth =>
      exact h.moveLife (fun _ hl => (hc hlife hth).resolve_left hl) fun _ => hth
  | threadGo hth habsent _ =>
      exact h.moveThread (hidle hth rfl) rfl (by simp) fun ha => absurd ha habsent
  | threadLook hth =>
      refine h.moveThread (hidle hth rfl) ?_ ?_ fun ha => ?_
      · split_ifs <;> rfl
      · split_ifs <;> simp
      · simp [h.gone ha] at hth
  | threadOops e hth hlist =>
      obtain ⟨c, hlast, -⟩ := hc
      simp [hlist] at hlast
  | threadTake e hth hrev => exact h.threadTake hth hrev hc
  | threadSleep hth =>
      refine h.moveThread ?_ rfl (by simp) fun ha => ?_
      · simp [FlushState.hands, FlushState.batch, hth, Thread.batch, Batch.cmds]
      · simp [h.gone ha] at hth
  | threadWake hth _ => exact h.moveThread (hidle hth rfl) rfl (by simp) fun _ => rfl
  | run hlife =>
      have hmove := h.moveLife (l := .starting) (by simp) (by simp)
      rw [h.gone hlife] at hmove
      exact hmove
  | publish _ => exact h.moveLife (by simp) (by simp)
  | clear _ => exact h.moveLife (by simp) (by simp)
  | stop _ => exact h.moveLife (by simp) (by simp)

/-! ## What is left to do -/

def Batch.work : Batch → ℕ
  | flushing cmds _ _ => cmds.length + 2
  | completing cmds _ => cmds.length + 1

def Caller.work : Caller → ℕ
  | idle | returned _ => 0
  | alone _ _ | waiting => 1
  | counted => 21
  | queued => 8
  | acting => 7
  | dispatching b => b.work + 1

/-- The thread goes to sleep before it exits, and a list wakes it up. -/
def threadWork (life : Life) (issueList : List ℕ) : Thread → ℕ
  | .checking => if life = .absent then 0 else if life = .stopping then 1 else 3
  | .looking => if life = .stopping then 4 else 2
  | .taking => if life = .stopping then 3 else 1
  | .dispatching b => b.work + 5
  | .sleeping => if life = .stopping then 2 else if issueList = [] then 0 else 4
  | .oops => 0

def work (s : FlushState) : ℕ :=
  ∑ c ∈ s.entered, (s.pc c).work + 8 * s.issueList.length + threadWork s.life s.issueList s.thread

/-- Every call that was made is known. -/
def EnteredAll (s : FlushState) : Prop := ∀ c, s.pc c ≠ .idle → c ∈ s.entered

lemma work_setPc {E : Finset ℕ} (pc : ℕ → Caller) (v : Caller) (hc : c ∈ E) :
    ∑ d ∈ E, (Function.update pc c v d).work + (pc c).work = ∑ d ∈ E, (pc d).work + v.work := by
  have hsum := Bitmap.sum_add_of_eq_off (fun d => (pc d).work)
    (fun d => (Function.update pc c v d).work) hc fun d hd => by rw [Function.update_of_ne hd]
  rw [Function.update_self] at hsum
  omega

lemma threadWork_nil (life : Life) (l : List ℕ) (th : Thread) :
    threadWork life [] th ≤ threadWork life l th := by
  cases th with
  | sleeping =>
      simp only [threadWork]
      split_ifs <;> omega
  | _ => exact le_rfl

lemma threadWork_cons (life : Life) (l : List ℕ) (th : Thread) :
    threadWork life (c :: l) th ≤ threadWork life l th + 4 := by
  cases th with
  | sleeping =>
      simp only [threadWork]
      split_ifs <;> omega
  | _ => exact Nat.le_add_right _ _

lemma work_setBatch {b : Batch} (b' : Batch) (hent : EnteredAll s) (hb : s.batch p = some b)
    (hlt : b'.work < b.work) : work (s.setBatch p b') < work s := by
  cases p with
  | thread =>
      have hth : s.thread = .dispatching b := by
        cases h : s.thread <;> simp_all [FlushState.batch, Thread.batch]
      simp only [work, FlushState.setBatch, hth, threadWork]
      omega
  | caller c =>
      have hpc := pc_of_batch hb
      have hsum := work_setPc s.pc (.dispatching b') (hent c (by simp [hpc]))
      rw [hpc] at hsum
      simp only [work, FlushState.setBatch, FlushState.setPc, Caller.work] at hsum ⊢
      omega

/-- **Every step inside takes away from what is left to do.** -/
lemma work_lt {a : FlushLabel} (hent : EnteredAll s) (ha : a.Inside)
    (hm : flushMove ndevs s a = some s') : work s' < work s := by
  have hmem : ∀ {d : ℕ} {v : Caller}, s.pc d = v → v ≠ .idle → d ∈ s.entered := by
    intro d v hpc hv
    exact hent d (hpc ▸ hv)
  cases flushMove_moved hm with
  | enter ino e hpc => exact ha.elim
  | run hlife => exact ha.elim
  | publish hlife => exact ha.elim
  | clear hlife => exact ha.elim
  | stop hlife => exact ha.elim
  | @aloneEnd c startedAt out hpc =>
      have hsum := work_setPc s.pc (.returned (some ⟨startedAt, s.now, out.1, out.2⟩))
        (hmem hpc (by simp))
      rw [hpc] at hsum
      simp only [work, FlushState.setPc, Caller.work] at hsum ⊢
      omega
  | @enqueue c hpc =>
      have hsum := work_setPc s.pc .queued (hmem hpc (by simp))
      have hth := threadWork_cons (c := c) s.life s.issueList s.thread
      rw [hpc] at hsum
      simp only [work, FlushState.setPc, Caller.work, List.length_cons] at hsum ⊢
      omega
  | @look c hpc =>
      have hsum := work_setPc s.pc (if s.life = .present then .waiting else .acting)
        (hmem hpc (by simp))
      have hlt : (if s.life = .present then Caller.waiting else .acting).work < 8 := by
        split_ifs <;> decide
      rw [hpc] at hsum
      simp only [work, FlushState.setPc] at hsum ⊢
      simp only [show Caller.queued.work = 8 from rfl] at hsum
      omega
  | @takeNothing c e hpc hlist =>
      have hsum := work_setPc s.pc .waiting (hmem hpc (by simp))
      rw [hpc] at hsum
      simp only [work, FlushState.setPc, Caller.work] at hsum ⊢
      omega
  | @take c e hpc hlist =>
      have hsum := work_setPc s.pc
        (.dispatching (.flushing s.issueList s.now (submitFlushWait ndevs e (s.cmd c).ino)))
        (hmem hpc (by simp))
      have hth := threadWork_nil s.life s.issueList s.thread
      have hpos := List.length_pos_of_ne_nil hlist
      rw [hpc] at hsum
      simp only [work, FlushState.take, FlushState.setBatch, FlushState.setPc, Caller.work,
        Batch.work, List.length_nil] at hsum ⊢
      omega
  | @leave c fl hpc =>
      have hsum := work_setPc s.pc (.returned (s.cmd c).served.getLast?)
        (hmem hpc (by simp))
      rw [hpc] at hsum
      simp only [work, FlushState.setPc, Caller.work, Batch.work] at hsum ⊢
      omega
  | @wakeUp c hpc hdone =>
      have hsum := work_setPc s.pc (.returned (s.cmd c).served.getLast?)
        (hmem hpc (by simp))
      rw [hpc] at hsum
      simp only [work, FlushState.setPc, Caller.work] at hsum ⊢
      omega
  | flushEnd hb => exact work_setBatch _ hent hb (by simp [Batch.work])
  | @complete p c cmds fl hb =>
      have hlt := work_setBatch (.completing cmds fl) hent hb (by simp [Batch.work])
      cases p <;> exact hlt
  | threadExit hlife hth => simp [work, hth, threadWork, hlife]
  | threadGo hth habsent hstop => simp [work, hth, threadWork, habsent, hstop]
  | threadLook hth =>
      simp only [work, hth, threadWork]
      split_ifs <;> simp_all
  | threadOops e hth hlist =>
      simp only [work, hth, threadWork]
      split_ifs <;> omega
  | @threadTake c cmds e hth hrev =>
      have hlen : s.issueList.length = cmds.length + 1 := by
        rw [← List.length_reverse, hrev, List.length_cons]
      simp only [work, FlushState.take, FlushState.setBatch, hth, threadWork, Batch.work,
        List.length_nil, List.length_cons, hlen]
      split_ifs <;> omega
  | threadSleep hth =>
      simp only [work, hth, threadWork, Batch.work]
      split_ifs <;> simp
  | threadWake hth hwake =>
      simp only [work, hth, threadWork]
      split_ifs <;> simp_all

lemma EnteredAll.move {a : FlushLabel} (h : EnteredAll s) (hm : flushMove ndevs s a = some s') :
    EnteredAll s' := by
  have hset : ∀ {d : ℕ} {v : Caller} {E : Finset ℕ}, s.pc d ≠ .idle ∨ d ∈ E → s.entered ⊆ E →
      ∀ c, Function.update s.pc d v c ≠ .idle → c ∈ E := by
    intro d v E hd hE c hc
    by_cases hcd : c = d
    · subst hcd
      exact hd.elim (fun hpc => hE (h c hpc)) id
    · rw [Function.update_of_ne hcd] at hc
      exact hE (h c hc)
  have hbatch : ∀ {p : Party} {b : Batch} (b' : Batch), s.batch p = some b →
      EnteredAll (s.setBatch p b') := by
    intro p b b' hb
    cases p with
    | thread => exact h
    | caller c => exact hset (Or.inl (by simp [pc_of_batch hb])) subset_rfl
  cases flushMove_moved hm with
  | enter ino e hpc => exact hset (Or.inr (Finset.mem_insert_self _ _)) (Finset.subset_insert _ _)
  | aloneEnd hpc => exact hset (Or.inl (by simp [hpc])) subset_rfl
  | enqueue hpc => exact hset (Or.inl (by simp [hpc])) subset_rfl
  | look hpc => exact hset (Or.inl (by simp [hpc])) subset_rfl
  | takeNothing e hpc hlist => exact hset (Or.inl (by simp [hpc])) subset_rfl
  | take e hpc hlist => exact hset (Or.inl (by simp [hpc])) subset_rfl
  | leave hpc => exact hset (Or.inl (by simp [hpc])) subset_rfl
  | wakeUp hpc hdone => exact hset (Or.inl (by simp [hpc])) subset_rfl
  | flushEnd hb => exact hbatch _ hb
  | @complete p c cmds fl hb =>
      have hall := hbatch (.completing cmds fl) hb
      cases p <;> exact hall
  | _ => exact h

/-- **A run without new calls comes to an end.** -/
lemma run_length_le {as : List FlushLabel} (hent : EnteredAll s) (hin : ∀ a ∈ as, a.Inside)
    (hrun : (exec (flushStep ndevs) s as).isSome = true) : as.length ≤ work s := by
  induction as generalizing s with
  | nil => exact Nat.zero_le _
  | cons a as ih =>
      obtain ⟨s', hs'⟩ := Option.isSome_iff_exists.mp hrun
      obtain ⟨s₁, hstep, hrest⟩ := exec_cons.mp hs'
      obtain ⟨s₂, hm, rfl⟩ := Option.map_eq_some_iff.mp hstep
      have hlt : work s₂ < work s := work_lt hent (hin a List.mem_cons_self) hm
      have hent₂ : EnteredAll s₂ := hent.move hm
      have hle : as.length ≤ work s₂ :=
        ih (s := { s₂ with now := s.now + 1 }) hent₂
          (fun b hb => hin b (List.mem_cons_of_mem a hb)) (by rw [hrest]; rfl)
      rw [List.length_cons]
      omega

/-! ## Runs -/

/-- A call that has not returned. -/
def Pending (s : FlushState) (c : ℕ) : Prop := s.pc c ≠ .idle ∧ ∀ r, s.pc c ≠ .returned r

/-- **What merging is to give each caller.** -/
structure FlushRight (ndevs : ℕ) (s : FlushState) : Prop where
  /-- A queued call returns with the result of the one flush that completed its command, which
  started after the command was queued and has reached the device. -/
  barrier : ∀ c r, s.pc c = .returned r → ∀ t ∈ (s.cmd c).enqueuedAt, ∃ fl, r = some fl ∧
    (s.cmd c).served = [fl] ∧ t < fl.startedAt ∧ fl.finishedAt < s.now ∧ fl.device = true
  /-- The others return from a flush of their own. -/
  alone : ∀ c r, s.pc c = .returned r → (s.cmd c).enqueuedAt = none → ∃ fl, r = some fl ∧
    (s.cmd c).enteredAt ≤ fl.startedAt ∧ fl.finishedAt < s.now
  once : ∀ c, (s.cmd c).served.length ≤ 1
  counter : (∀ c, ¬Pending s c) → s.issing = 0
  /-- While a call is pending something can be done for it, and not forever. -/
  moves : ∀ c, Pending s c → ∃ a : FlushLabel, a.Inside ∧ (flushStep ndevs s a).isSome = true
  settles : ∃ n, ∀ as : List FlushLabel, (∀ a ∈ as, a.Inside) →
    (exec (flushStep ndevs) s as).isSome = true → as.length ≤ n

/-- Whoever has something in its hands can go on. -/
lemma moves_of_batch {b : Batch} (hb : s.batch p = some b) :
    ∃ a : FlushLabel, a.Inside ∧ (flushStep ndevs s a).isSome = true := by
  cases b with
  | flushing cmds startedAt out =>
      exact ⟨.flushEnd p, trivial, by simp [flushStep, flushMove, hb]⟩
  | completing cmds fl =>
      cases cmds with
      | cons d cmds => exact ⟨.complete p, trivial, by simp [flushStep, flushMove, hb]⟩
      | nil =>
          cases p with
          | thread =>
              have hth : s.thread = .dispatching (.completing [] fl) := by
                cases h : s.thread <;> simp_all [FlushState.batch, Thread.batch]
              exact ⟨.threadSleep, trivial, by simp [flushStep, flushMove, hth]⟩
          | caller c =>
              exact ⟨.leave c, trivial, by simp [flushStep, flushMove, pc_of_batch hb]⟩

/-- The list is not forgotten: the thread comes to it, or a caller will take it. -/
lemma FlushInv.moves_of_list (h : FlushInv s) (hl : s.issueList ≠ []) :
    ∃ a : FlushLabel, a.Inside ∧ (flushStep ndevs s a).isSome = true := by
  by_cases hlife : s.life = .absent
  · obtain ⟨d, -, hpc | hpc⟩ := h.taken hlife hl
    · exact ⟨.look d, trivial, by simp [flushStep, flushMove, hpc]⟩
    · exact ⟨.take d ⟨fun _ _ => false, fun _ => 0⟩, trivial, by
        simp [flushStep, flushMove, hpc, hl]⟩
  · cases hth : s.thread with
    | checking =>
        refine ⟨.threadCheck, trivial, ?_⟩
        cases hs : s.life <;> simp_all [flushStep, flushMove]
    | looking => exact ⟨.threadLook, trivial, by simp [flushStep, flushMove, hth]⟩
    | taking =>
        refine ⟨.threadTake ⟨fun _ _ => false, fun _ => 0⟩, trivial, ?_⟩
        cases hr : s.issueList.reverse <;> simp [flushStep, flushMove, hth, hr]
    | dispatching b =>
        exact moves_of_batch (p := .thread) (b := b) (by simp [FlushState.batch, hth, Thread.batch])
    | sleeping => exact ⟨.threadWake, trivial, by simp [flushStep, flushMove, hth, hl]⟩
    | oops => exact absurd hth h.sound

lemma FlushInv.moves (h : FlushInv s) (hc : Pending s c) :
    ∃ a : FlushLabel, a.Inside ∧ (flushStep ndevs s a).isSome = true := by
  have hok := h.callers c
  cases hpc : s.pc c with
  | idle => exact absurd hpc hc.1
  | returned r => exact absurd hpc (hc.2 r)
  | alone startedAt out => exact ⟨.aloneEnd c, trivial, by simp [flushStep, flushMove, hpc]⟩
  | counted => exact ⟨.enqueue c, trivial, by simp [flushStep, flushMove, hpc]⟩
  | queued => exact ⟨.look c, trivial, by simp [flushStep, flushMove, hpc]⟩
  | acting =>
      refine ⟨.take c ⟨fun _ _ => false, fun _ => 0⟩, trivial, ?_⟩
      by_cases hl : s.issueList = [] <;> simp [flushStep, flushMove, hpc, hl]
  | dispatching b =>
      exact moves_of_batch (p := .caller c) (b := b) (by simp [FlushState.batch, hpc, Caller.batch])
  | waiting =>
      rw [hpc] at hok
      by_cases hdone : (s.cmd c).served = []
      · -- Its command is on the list or in somebody's hands.
        rcases (h.places.iff c).mpr ⟨hok, hdone⟩ with hmem | ⟨p, hmem⟩
        · exact h.moves_of_list (List.ne_nil_of_mem hmem)
        · cases hb : s.batch p with
          | none => simp [FlushState.hands, hb] at hmem
          | some b => exact moves_of_batch hb
      · exact ⟨.wakeUp c, trivial, by simp [flushStep, flushMove, hpc, hdone]⟩

lemma FlushInv.right (h : FlushInv s) : FlushRight ndevs s where
  barrier := by
    intro c r hpc t ht
    have hok := h.callers c
    rw [hpc] at hok
    have hq : (s.cmd c).enqueuedAt ≠ none := by
      rw [Option.mem_def.mp ht]
      simp
    obtain ⟨hdone, hr⟩ := hok.2 hq
    have hlen := h.once c
    obtain ⟨fl, hfl⟩ : ∃ fl, (s.cmd c).served = [fl] :=
      List.length_eq_one_iff.mp (le_antisymm hlen (List.length_pos_of_ne_nil hdone))
    obtain ⟨h1, h2, h3⟩ := h.served c fl (by simp [hfl])
    exact ⟨fl, by simp [hr, hfl], hfl, h3 t ht, h2, h1⟩
  alone := by
    intro c r hpc hq
    have hok := h.callers c
    rw [hpc] at hok
    exact (hok.1 hq).2
  once := h.once
  counter := by
    intro hnone
    refine h.count.zero fun c howes => hnone c ?_
    constructor
    · intro hpc
      rw [hpc] at howes
      exact howes
    · intro r hpc
      rw [hpc] at howes
      exact howes
  moves := fun _ hc => h.moves hc
  settles := ⟨work s, fun _ hin hrun => run_length_le h.entered hin hrun⟩

lemma mountedFlush_inv : FlushInv mountedFlush where
  places := ⟨by simp [mountedFlush], fun p => by cases p <;> exact List.nodup_nil,
    fun p c hc => by cases p <;> exact absurd hc List.not_mem_nil,
    fun p q c hc _ => by cases p <;> exact absurd hc List.not_mem_nil,
    fun c => ⟨fun hc => by
      rcases hc with hc | ⟨p, hc⟩
      · exact absurd hc List.not_mem_nil
      · cases p <;> exact absurd hc List.not_mem_nil, fun hc => absurd rfl hc.1⟩⟩
  issueBefore := by simp [mountedFlush]
  batches := by
    intro p b hb
    cases p <;> exact absurd hb (by simp [FlushState.batch, mountedFlush, Caller.batch, Thread.batch])
  served := by simp [mountedFlush]
  once := by simp [mountedFlush]
  callers := fun c => ⟨rfl, rfl⟩
  count := ⟨∅, fun c => by simp [mountedFlush, Owes], rfl⟩
  taken := by simp [mountedFlush]
  gone := by simp [mountedFlush]
  sound := by simp [mountedFlush]
  entered := by simp [mountedFlush]

/-- **Each caller has its own barrier**, in every run from a mount whose steps meet the condition. -/
theorem flush_barrier_throughout {steps : List FlushLabel}
    (hc : StepsMeet (flushStep ndevs) (FlushCondition ndevs) mountedFlush steps) :
    Throughout (flushStep ndevs) (FlushRight ndevs) mountedFlush steps :=
  (throughout_of_stepsMeet (fun _ _ _ hs hg hstep => hs.step hg hstep) mountedFlush_inv hc).mono
    fun _ hs => hs.right

instance (s : FlushState) : Decidable (WillTake s) := inferInstanceAs (Decidable (∃ c ∈ _, _))

instance (s : FlushState) : ∀ a, Decidable (FlushCondition ndevs s a)
  | .take .. => inferInstanceAs (Decidable (_ ∨ _ ∧ _))
  | .threadTake _ => inferInstanceAs (Decidable (∃ c ∈ s.issueList.getLast?, _))
  | .threadCheck => inferInstanceAs (Decidable (_ → _))
  | .enter .. | .aloneEnd _ | .enqueue _ | .look _ | .leave _ | .wakeUp _ | .flushEnd _
  | .complete _ | .threadLook | .threadSleep | .threadWake | .run | .publish | .clear | .stop =>
      inferInstanceAs (Decidable True)

/-- A device that is always dirty and never fails. -/
def plainFlush : FlushEnv := ⟨fun _ _ => true, fun _ => 0⟩

/-- One caller flushes alone, two are merged by the thread, and a third acts for it when it has
gone. -/
def mergedCalls : List FlushLabel :=
  [.enter 0 10 plainFlush, .enter 1 11 plainFlush, .enter 2 12 plainFlush, .enqueue 1, .enqueue 2,
    .look 2, .threadCheck, .threadLook, .threadTake plainFlush, .look 1, .flushEnd .thread,
    .complete .thread, .wakeUp 1, .clear, .stop, .complete .thread, .threadSleep, .threadWake,
    .threadCheck, .enter 3 13 plainFlush, .enqueue 3, .look 3, .take 3 plainFlush,
    .flushEnd (.caller 3), .complete (.caller 3), .leave 3, .wakeUp 2, .aloneEnd 0]

theorem flush_barrier_mergedCalls :
    ∃ s, exec (flushStep 0) mountedFlush mergedCalls = some s ∧ FlushRight 0 s := by
  have hsome : (exec (flushStep 0) mountedFlush mergedCalls).isSome = true := by decide +kernel
  obtain ⟨s, hs⟩ := Option.isSome_iff_exists.mp hsome
  have hc : StepsMeet (flushStep 0) (FlushCondition 0) mountedFlush mergedCalls := by
    decide +kernel
  exact ⟨s, hs, (flush_barrier_throughout hc).last hs⟩

/-! ## A waiter that is left alone -/

/-- Some wait for a result, and there is nobody to give it. -/
structure Stranded (s : FlushState) : Prop where
  callers : ∀ c, s.pc c = .idle ∨ (∃ r, s.pc c = .returned r) ∨
    (s.pc c = .waiting ∧ (s.cmd c).served = [])
  absent : s.life = .absent
  thread : s.thread = .checking

lemma Stranded.stuck {a : FlushLabel} (h : Stranded s) (ha : a.Inside) :
    flushMove ndevs s a = none := by
  have hbatch : ∀ p, s.batch p = none := by
    intro p
    cases p with
    | thread => simp [FlushState.batch, h.thread, Thread.batch]
    | caller c =>
        rcases h.callers c with hpc | ⟨r, hpc⟩ | ⟨hpc, -⟩ <;>
          simp [FlushState.batch, hpc, Caller.batch]
  cases hm : flushMove ndevs s a with
  | none => rfl
  | some s' =>
      have hno : ∀ {c : ℕ} {v : Caller}, s.pc c = v → v ≠ .idle → (∀ r, v ≠ .returned r) →
          v ≠ .waiting → False := by
        intro c v hpc h1 h2 h3
        rcases h.callers c with hpc' | ⟨r, hpc'⟩ | ⟨hpc', -⟩
        · exact h1 (hpc.symm.trans hpc')
        · exact h2 r (hpc.symm.trans hpc')
        · exact h3 (hpc.symm.trans hpc')
      cases flushMove_moved hm with
      | enter ino e hpc => exact ha.elim
      | run hlife => exact ha.elim
      | publish hlife => exact ha.elim
      | clear hlife => exact ha.elim
      | stop hlife => exact ha.elim
      | aloneEnd hpc => exact (hno hpc (by simp) (by simp) (by simp)).elim
      | enqueue hpc => exact (hno hpc (by simp) (by simp) (by simp)).elim
      | look hpc => exact (hno hpc (by simp) (by simp) (by simp)).elim
      | takeNothing e hpc hlist => exact (hno hpc (by simp) (by simp) (by simp)).elim
      | take e hpc hlist => exact (hno hpc (by simp) (by simp) (by simp)).elim
      | leave hpc => exact (hno hpc (by simp) (by simp) (by simp)).elim
      | @wakeUp c hpc hdone =>
          rcases h.callers c with hpc' | ⟨r, hpc'⟩ | ⟨-, hopen⟩
          · simp [hpc] at hpc'
          · simp [hpc] at hpc'
          · exact absurd hopen hdone
      | flushEnd hb => simp [hbatch] at hb
      | complete hb => simp [hbatch] at hb
      | threadExit hlife hth => simp [h.absent] at hlife
      | threadGo hth habsent hstop => exact absurd h.absent habsent
      | threadLook hth => simp [h.thread] at hth
      | threadOops e hth hlist => simp [h.thread] at hth
      | threadTake e hth hrev => simp [h.thread] at hth
      | threadSleep hth => simp [h.thread] at hth
      | threadWake hth hwake => simp [h.thread] at hth

/-- A caller sees the thread and waits for it; the thread is stopped. -/
def strandedCalls : List FlushLabel :=
  [.threadCheck, .threadLook, .enter 0 10 plainFlush, .enter 1 11 plainFlush, .enqueue 1, .look 1,
    .clear, .stop, .threadWake, .threadCheck, .aloneEnd 0]

/-- There is no thread.  Caller 2 takes the command of caller 1, which then takes that of caller
3. -/
def missedCalls : List FlushLabel :=
  [.clear, .stop, .threadCheck, .enter 0 10 plainFlush, .enter 1 11 plainFlush,
    .enter 2 12 plainFlush, .enter 3 13 plainFlush, .enqueue 1, .enqueue 2, .look 1, .look 2,
    .take 2 plainFlush, .enqueue 3, .take 1 plainFlush, .flushEnd (.caller 1),
    .complete (.caller 1), .leave 1]

/-- **A caller waits forever**, as the thread has exited with its command on the list; and **a caller
returns with no result**, as it has completed the commands of others and not its own. -/
theorem merged_flush_fails :
    (∃ s, exec (flushStep 0) mountedFlush strandedCalls = some s ∧ Stranded s ∧ Pending s 1 ∧
      ¬FlushRight 0 s) ∧
    ∃ s, exec (flushStep 0) mountedFlush missedCalls = some s ∧ s.pc 1 = .returned none ∧
      ¬FlushRight 0 s := by
  constructor
  · have hrun : ((exec (flushStep 0) mountedFlush strandedCalls).map fun s =>
        ((s.entered, s.pc 0, s.pc 1), decide ((s.cmd 1).served = [] ∧ s.life = .absent ∧
          s.thread = .checking)))
        = some (({0, 1}, .returned (some ⟨2, 10, true, 0⟩), .waiting), true) := by
      decide +kernel
    obtain ⟨s, hs, heq⟩ := Option.map_eq_some_iff.mp hrun
    simp only [Prod.mk.injEq, decide_eq_true_eq] at heq
    obtain ⟨⟨hent, h0, h1⟩, hopen, hlife, hth⟩ := heq
    have hall : EnteredAll s := by
      refine exec_preserves (I := EnteredAll) (fun s a s' h hstep => ?_) mountedFlush_inv.entered hs
      obtain ⟨s₁, hm, rfl⟩ := Option.map_eq_some_iff.mp hstep
      have hmove : EnteredAll s₁ := h.move hm
      exact hmove
    have hstranded : Stranded s := by
      refine ⟨fun c => ?_, hlife, hth⟩
      by_cases hidle : s.pc c = .idle
      · exact Or.inl hidle
      · have hmem := hall c hidle
        rw [hent] at hmem
        simp only [Finset.mem_insert, Finset.mem_singleton] at hmem
        rcases hmem with rfl | rfl
        · exact Or.inr (Or.inl ⟨_, h0⟩)
        · exact Or.inr (Or.inr ⟨h1, hopen⟩)
    have hpending : Pending s 1 := by simp [Pending, h1]
    refine ⟨s, hs, hstranded, hpending, fun h => ?_⟩
    obtain ⟨a, ha, hsome⟩ := h.moves 1 hpending
    simp [flushStep, hstranded.stuck ha] at hsome
  · have hrun : ((exec (flushStep 0) mountedFlush missedCalls).map fun s =>
        (s.pc 1, (s.cmd 1).enqueuedAt)) = some (.returned none, some 7) := by decide +kernel
    obtain ⟨s, hs, heq⟩ := Option.map_eq_some_iff.mp hrun
    obtain ⟨h1, hq⟩ := Prod.mk.inj heq
    refine ⟨s, hs, h1, fun h => ?_⟩
    obtain ⟨fl, hfl, -⟩ := h.barrier 1 none h1 7 hq
    exact absurd hfl (by simp)

end Hoit.FlushMerge
