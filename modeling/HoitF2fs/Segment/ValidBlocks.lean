import Mathlib.Tactic

/-!
# Granting blocks to a file

`inc_valid_block_count` asks the quota for all blocks that are wanted, counts them, and then looks
whether there is room for them.  If there is too little, it takes back what does not fit: all of it,
and the call fails, or a part, and the call grants the rest.

* `QuotaOps` — the quota, which is outside; it also keeps the block count of the inode.
* `incValidBlockCount` — the function, with the unsigned subtractions it makes.
* `ExactOrAtomic` — what it should do: **all four counts grow by what is granted, or by nothing**.

Three things stand in the way (`inc_valid_block_count_exact_iff`).  The reserves may be larger than
the file system, so that the room wraps around; the sum of the blocks may wrap around; and when a
part is granted, `alloc_valid_block_count` keeps the blocks that are taken back
(`partial_grant_miscounted`).
-/

namespace Hoit.ValidBlocks

variable {Q : Type}

/-- The quota of an inode, and its block count.  `dquot_reserve_block` may fail. -/
structure QuotaOps (Q : Type) where
  reserve : Q → ℕ → Option Q
  release : Q → ℕ → Q
  claim : Q → ℕ → Q
  /-- The blocks that are reserved or used. -/
  charged : Q → ℤ
  iBlocks : Q → ℤ
  reserve_charged : ∀ q n q', reserve q n = some q' → charged q' = charged q + n
  reserve_iBlocks : ∀ q n q', reserve q n = some q' → iBlocks q' = iBlocks q
  release_charged : ∀ q n, charged (release q n) = charged q - n
  release_iBlocks : ∀ q n, iBlocks (release q n) = iBlocks q
  claim_charged : ∀ q n, charged (claim q n) = charged q
  claim_iBlocks : ∀ q n, iBlocks (claim q n) = iBlocks q + n

/-- The counts of `f2fs_sb_info`, and the quota of the inode. -/
structure Totals (Q : Type) where
  userBlockCount : BitVec 32
  currentReservedBlocks : BitVec 32
  rootReservedBlocks : BitVec 32
  totalValidBlockCount : BitVec 32
  allocValidBlockCount : ℤ
  quota : Q

inductive Errno where
  /-- What `dquot_reserve_block` gave. -/
  | quota
  | enospc
deriving DecidableEq

/-- What the call leaves, and its unsigned subtractions: from what, and how much. -/
structure Outcome (Q : Type) where
  err : Option Errno
  count : BitVec 64
  totals : Totals Q
  subs : List (ℕ × ℕ)

/-- The variable `avail_user_block_count`; `allow` is what `__allow_reserved_blocks` says. -/
def availUserBlockCount (allow : Bool) (s : Totals Q) : BitVec 32 :=
  let user := s.userBlockCount - s.currentReservedBlocks
  if allow then user else user - s.rootReservedBlocks

/-- The subtractions of `availUserBlockCount`. -/
def reserveSubs (allow : Bool) (s : Totals Q) : List (ℕ × ℕ) :=
  (s.userBlockCount.toNat, s.currentReservedBlocks.toNat) ::
    if allow then []
    else [((s.userBlockCount - s.currentReservedBlocks).toNat, s.rootReservedBlocks.toNat)]

/-- The variable `diff`: what there is no room for. -/
def diffBlocks (total avail : BitVec 32) (count : BitVec 64) : BitVec 64 :=
  let diff := (total - avail).setWidth 64
  if count < diff then count else diff

/-- `inc_valid_block_count`; `fault` is whether a fault is injected. -/
def incValidBlockCount (ops : QuotaOps Q) (allow fault : Bool) (s : Totals Q) (count : BitVec 64) :
    Outcome Q :=
  match ops.reserve s.quota count.toNat with
  | none => ⟨some .quota, count, s, []⟩
  | some quota =>
      if fault then
        ⟨some .enospc, count, { s with quota := ops.release quota count.toNat }, []⟩
      else
        let total := s.totalValidBlockCount + count.setWidth 32
        let alloc := s.allocValidBlockCount + count.toNat
        let avail := availUserBlockCount allow s
        if avail < total then
          let diff := diffBlocks total avail count
          let granted := count - diff
          let subs := reserveSubs allow s ++ [(total.toNat, avail.toNat), (count.toNat, diff.toNat),
            (total.toNat, diff.toNat)]
          let total := total - diff.setWidth 32
          if granted = 0#64 then
            ⟨some .enospc, granted,
              { s with
                totalValidBlockCount := total
                allocValidBlockCount := alloc - diff.toNat
                quota := ops.release quota diff.toNat }, subs⟩
          else
            -- `alloc_valid_block_count` keeps `diff`
            ⟨none, granted,
              { s with
                totalValidBlockCount := total
                allocValidBlockCount := alloc
                quota := ops.claim (ops.release quota diff.toNat) granted.toNat }, subs⟩
        else
          ⟨none, count,
            { s with
              totalValidBlockCount := total
              allocValidBlockCount := alloc
              quota := ops.claim quota count.toNat }, reserveSubs allow s⟩

/-- The blocks that are not for the caller. -/
def reserved (allow : Bool) (s : Totals Q) : ℕ :=
  s.currentReservedBlocks.toNat + if allow then 0 else s.rootReservedBlocks.toNat

/-- All four counts have grown by `n`. -/
structure Grown (ops : QuotaOps Q) (s s' : Totals Q) (n : ℕ) : Prop where
  total : s'.totalValidBlockCount.toNat = s.totalValidBlockCount.toNat + n
  alloc : s'.allocValidBlockCount = s.allocValidBlockCount + n
  iBlocks : ops.iBlocks s'.quota = ops.iBlocks s.quota + n
  charged : ops.charged s'.quota = ops.charged s.quota + n

/-- **The call is exact or atomic.** -/
structure ExactOrAtomic (ops : QuotaOps Q) (allow : Bool) (s : Totals Q) (count : BitVec 64)
    (o : Outcome Q) : Prop where
  atomic : o.err ≠ none → Grown ops s o.totals 0
  granted : o.err = none → o.count ≤ count ∧ Grown ops s o.totals o.count.toNat ∧
    o.totals.totalValidBlockCount.toNat + reserved allow s ≤ s.userBlockCount.toNat
  noWrap : ∀ x ∈ o.subs, x.2 ≤ x.1

/-- **All of the blocks fit, or none of them**, and no count wraps around. -/
def AllOrNothing (allow : Bool) (s : Totals Q) (count : BitVec 64) : Prop :=
  reserved allow s ≤ s.userBlockCount.toNat ∧
    (s.totalValidBlockCount.toNat + count.toNat + reserved allow s ≤ s.userBlockCount.toNat ∨
      s.userBlockCount.toNat ≤ s.totalValidBlockCount.toNat + reserved allow s ∧
        s.totalValidBlockCount.toNat + count.toNat < 2 ^ 32)

variable {ops : QuotaOps Q} {allow : Bool} {s : Totals Q} {count : BitVec 64} {quota : Q}

lemma reserveSubs_iff : (∀ x ∈ reserveSubs allow s, x.2 ≤ x.1) ↔
    reserved allow s ≤ s.userBlockCount.toNat := by
  have hsub := BitVec.toNat_sub s.userBlockCount s.currentReservedBlocks
  have hu := s.userBlockCount.isLt
  have hr := s.currentReservedBlocks.isLt
  cases allow with
  | true => simp [reserveSubs, reserved]
  | false =>
      simp only [reserveSubs, reserved, Bool.false_eq_true, if_false, List.mem_cons, List.not_mem_nil,
        or_false, forall_eq_or_imp, forall_eq]
      omega

lemma avail_toNat (h : reserved allow s ≤ s.userBlockCount.toNat) :
    (availUserBlockCount allow s).toNat = s.userBlockCount.toNat - reserved allow s := by
  have hu := s.userBlockCount.isLt
  cases allow with
  | true =>
      simp only [availUserBlockCount, reserved, if_true, Nat.add_zero] at h ⊢
      rw [BitVec.toNat_sub]
      omega
  | false =>
      simp only [availUserBlockCount, reserved, Bool.false_eq_true, if_false] at h ⊢
      rw [BitVec.toNat_sub, BitVec.toNat_sub]
      omega

/-- What the code adds up to, when it does not wrap around. -/
lemma total_toNat (h : s.totalValidBlockCount.toNat + count.toNat < 2 ^ 32) :
    (s.totalValidBlockCount + count.setWidth 32).toNat =
      s.totalValidBlockCount.toNat + count.toNat := by
  rw [BitVec.toNat_add, BitVec.toNat_setWidth]
  omega

/-- All blocks are granted. -/
lemma exact_of_fit (hquota : ops.reserve s.quota count.toNat = some quota)
    (hle : reserved allow s ≤ s.userBlockCount.toNat)
    (hfit : s.totalValidBlockCount.toNat + count.toNat + reserved allow s ≤ s.userBlockCount.toNat) :
    ExactOrAtomic ops allow s count (incValidBlockCount ops allow false s count) := by
  have hu := s.userBlockCount.isLt
  have htotal : (s.totalValidBlockCount + count.setWidth 32).toNat =
      s.totalValidBlockCount.toNat + count.toNat := total_toNat (by omega)
  have hroom : ¬ availUserBlockCount allow s < s.totalValidBlockCount + count.setWidth 32 := by
    rw [BitVec.lt_def, avail_toNat hle, htotal]
    omega
  simp only [incValidBlockCount, hquota, Bool.false_eq_true, if_false, if_neg hroom]
  refine ⟨fun herr => absurd rfl herr, fun _ => ⟨BitVec.le_refl _, ⟨htotal, rfl, ?_, ?_⟩, ?_⟩,
    reserveSubs_iff.mpr hle⟩
  · rw [ops.claim_iBlocks, ops.reserve_iBlocks _ _ _ hquota]
  · rw [ops.claim_charged, ops.reserve_charged _ _ _ hquota]
  · rw [htotal]
    exact hfit

lemma diffBlocks_toNat (count : BitVec 64) {total avail : BitVec 32} (h : avail < total) :
    (diffBlocks total avail count).toNat = min count.toNat (total.toNat - avail.toNat) := by
  have hlt := total.isLt
  rw [BitVec.lt_def] at h
  have hexcess : ((total - avail).setWidth 64).toNat = total.toNat - avail.toNat := by
    rw [BitVec.toNat_setWidth, BitVec.toNat_sub]
    omega
  simp only [diffBlocks]
  split_ifs with hcount
  · rw [BitVec.lt_def, hexcess] at hcount
    omega
  · rw [BitVec.lt_def, hexcess] at hcount
    omega

/-- Nothing is granted. -/
lemma atomic_of_full (hquota : ops.reserve s.quota count.toNat = some quota)
    (hle : reserved allow s ≤ s.userBlockCount.toNat)
    (hfull : s.userBlockCount.toNat ≤ s.totalValidBlockCount.toNat + reserved allow s)
    (hsum : s.totalValidBlockCount.toNat + count.toNat < 2 ^ 32)
    (hover : s.userBlockCount.toNat < s.totalValidBlockCount.toNat + count.toNat + reserved allow s) :
    ExactOrAtomic ops allow s count (incValidBlockCount ops allow false s count) := by
  have htotal := total_toNat hsum
  have hav := avail_toNat hle
  have hroom : availUserBlockCount allow s < s.totalValidBlockCount + count.setWidth 32 := by
    rw [BitVec.lt_def, hav, htotal]
    omega
  have hdiff := diffBlocks_toNat count hroom
  have hall : diffBlocks (s.totalValidBlockCount + count.setWidth 32) (availUserBlockCount allow s)
      count = count := by
    apply BitVec.eq_of_toNat_eq
    omega
  simp only [incValidBlockCount, hquota, Bool.false_eq_true, if_false, if_pos hroom, hall,
    BitVec.sub_self, if_true]
  refine ⟨fun _ => ⟨?_, ?_, ?_, ?_⟩, fun hok => absurd hok (by simp), ?_⟩
  · simp only [BitVec.add_sub_cancel, Nat.add_zero]
  · simp
  · simp [ops.release_iBlocks, ops.reserve_iBlocks _ _ _ hquota]
  · simp [ops.release_charged, ops.reserve_charged _ _ _ hquota]
  · intro x hx
    rcases List.mem_append.mp hx with hx | hx
    · exact reserveSubs_iff.mpr hle x hx
    · simp only [List.mem_cons, List.not_mem_nil, or_false] at hx
      rcases hx with rfl | rfl | rfl
      · exact BitVec.lt_def.mp hroom |>.le
      · exact le_rfl
      · rw [htotal]
        exact Nat.le_add_left _ _

/-- Where some blocks find no room, a call that is exact or atomic grants nothing. -/
lemma full_of_exact (hquota : ops.reserve s.quota count.toNat = some quota)
    (hroom : availUserBlockCount allow s < s.totalValidBlockCount + count.setWidth 32)
    (hexact : ExactOrAtomic ops allow s count (incValidBlockCount ops allow false s count)) :
    count.toNat ≤ (s.totalValidBlockCount + count.setWidth 32).toNat
        - (availUserBlockCount allow s).toNat := by
  by_contra hpart
  have hdiff := diffBlocks_toNat count hroom
  have hlt := BitVec.lt_def.mp hroom
  have hgranted : (count - diffBlocks (s.totalValidBlockCount + count.setWidth 32)
      (availUserBlockCount allow s) count).toNat < count.toNat := by
    rw [BitVec.toNat_sub]
    have := count.isLt
    omega
  have hne : count - diffBlocks (s.totalValidBlockCount + count.setWidth 32)
      (availUserBlockCount allow s) count ≠ 0#64 := by
    intro h0
    have h0 := congrArg BitVec.toNat h0
    rw [BitVec.toNat_sub, BitVec.toNat_ofNat, Nat.zero_mod] at h0
    have := count.isLt
    omega
  simp only [incValidBlockCount, hquota, Bool.false_eq_true, if_false, if_pos hroom, if_neg hne]
    at hexact
  have halloc := (hexact.granted rfl).2.1.alloc
  simp only [] at halloc
  omega

/-- **The exact condition**, when the quota has the blocks and no fault is injected. -/
lemma exact_iff_allOrNothing (hquota : ops.reserve s.quota count.toNat = some quota) :
    ExactOrAtomic ops allow s count (incValidBlockCount ops allow false s count) ↔
      AllOrNothing allow s count := by
  constructor
  · intro hexact
    have hle : reserved allow s ≤ s.userBlockCount.toNat := by
      refine reserveSubs_iff.mp fun x hx => hexact.noWrap x ?_
      simp only [incValidBlockCount, hquota, Bool.false_eq_true, if_false]
      split_ifs
      · exact List.mem_append_left _ hx
      · exact List.mem_append_left _ hx
      · exact hx
    have hav := avail_toNat hle
    have hwrap := BitVec.toNat_add s.totalValidBlockCount (count.setWidth 32)
    rw [BitVec.toNat_setWidth] at hwrap
    have ht := s.totalValidBlockCount.isLt
    refine ⟨hle, ?_⟩
    by_cases hroom : availUserBlockCount allow s < s.totalValidBlockCount + count.setWidth 32
    · have hfull := full_of_exact hquota hroom hexact
      have hlt := BitVec.lt_def.mp hroom
      have hdiff := diffBlocks_toNat count hroom
      have hback : (count.toNat : ℕ) ≤ (s.totalValidBlockCount + count.setWidth 32).toNat := by
        omega
      omega
    · have hgrant : incValidBlockCount ops allow false s count = ⟨none, count,
          { s with
            totalValidBlockCount := s.totalValidBlockCount + count.setWidth 32
            allocValidBlockCount := s.allocValidBlockCount + count.toNat
            quota := ops.claim quota count.toNat }, reserveSubs allow s⟩ := by
        simp only [incValidBlockCount, hquota, Bool.false_eq_true, if_false, if_neg hroom]
      rw [hgrant] at hexact
      obtain ⟨-, hgrown, hfit⟩ := hexact.granted rfl
      have htotal := hgrown.total
      simp only [] at htotal hfit
      omega
  · rintro ⟨hle, hfit | ⟨hfull, hsum⟩⟩
    · exact exact_of_fit hquota hle hfit
    · by_cases hover : s.userBlockCount.toNat <
          s.totalValidBlockCount.toNat + count.toNat + reserved allow s
      · exact atomic_of_full hquota hle hfull hsum hover
      · exact exact_of_fit hquota hle (by omega)

/-- **The call is exact or atomic iff** the quota refuses, a fault is injected, or all of the blocks fit
or none of them. -/
theorem inc_valid_block_count_exact_iff (ops : QuotaOps Q) (allow fault : Bool) (s : Totals Q)
    (count : BitVec 64) :
    ExactOrAtomic ops allow s count (incValidBlockCount ops allow fault s count) ↔
      ops.reserve s.quota count.toNat = none ∨ fault = true ∨ AllOrNothing allow s count := by
  cases hquota : ops.reserve s.quota count.toNat with
  | none =>
      refine iff_of_true ?_ (Or.inl rfl)
      simp only [incValidBlockCount, hquota]
      refine ⟨fun _ => ⟨rfl, ?_, ?_, ?_⟩, fun hok => absurd hok (by simp), by simp⟩ <;> simp
  | some quota =>
      cases fault with
      | true =>
          refine iff_of_true ?_ (Or.inr (Or.inl rfl))
          simp only [incValidBlockCount, hquota, if_true]
          refine ⟨fun _ => ⟨rfl, ?_, ?_, ?_⟩, fun hok => absurd hok (by simp), by simp⟩
          · simp
          · simp [ops.release_iBlocks, ops.reserve_iBlocks _ _ _ hquota]
          · simp [ops.release_charged, ops.reserve_charged _ _ _ hquota]
      | false => simpa using exact_iff_allOrNothing hquota

/-- A quota without a limit: the blocks that are charged, and those that are the inode's. -/
def plainQuota : QuotaOps (ℤ × ℤ) where
  reserve q n := some (q.1 + n, q.2)
  release q n := (q.1 - n, q.2)
  claim q n := (q.1, q.2 + n)
  charged := Prod.fst
  iBlocks := Prod.snd
  reserve_charged _ _ _ h := Option.some.inj h ▸ rfl
  reserve_iBlocks _ _ _ h := Option.some.inj h ▸ rfl
  release_charged _ _ := rfl
  release_iBlocks _ _ := rfl
  claim_charged _ _ := rfl
  claim_iBlocks _ _ := rfl

/-- Two of ten blocks are left. -/
def almostFull : Totals (ℤ × ℤ) := ⟨10#32, 0#32, 0#32, 8#32, 0, (0, 0)⟩

/-- Five blocks are wanted and two are granted, but `alloc_valid_block_count` grows by five. -/
theorem partial_grant_miscounted :
    (incValidBlockCount plainQuota false false almostFull 5).err = none ∧
      (incValidBlockCount plainQuota false false almostFull 5).count = 2 ∧
      (incValidBlockCount plainQuota false false almostFull 5).totals.allocValidBlockCount = 5 ∧
      ¬ ExactOrAtomic plainQuota false almostFull 5
        (incValidBlockCount plainQuota false false almostFull 5) := by
  refine ⟨by decide, by decide, by decide, fun hexact => ?_⟩
  exact absurd (hexact.granted (by decide)).2.1.alloc (by decide)

end Hoit.ValidBlocks
