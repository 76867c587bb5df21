import DriveIntegrity.Surface.Scan

/-! How `surface_scan` cuts the free space into test files, and how `scantime_estimate` counts
them. -/

namespace DriveIntegrity.Surface

section Program

/-- `CHUNK_SIZE` for the free space and `targetBytes`, both in bytes. -/
def chunkSizeFor (freeBytesRaw targetBytes : ℤ) : ℕ :=
  let chunk : ℕ := if 2 ^ 31 ≤ freeBytesRaw then 2 ^ 30 else 32768
  if 0 < targetBytes ∧ targetBytes < chunk then
    let sectors := targetBytes.toNat / 512 * 512
    if sectors = 0 then 512 else sectors
  else chunk

/-- `totalFiles`, a C++ `int`. -/
def totalFilesFor (freeBytesRaw targetBytes : ℤ) : ℤ :=
  let chunk := chunkSizeFor freeBytesRaw targetBytes
  let totalFiles := if 0 < chunk then (BitVec.ofInt 32 (max targetBytes 0 / chunk)).toInt else 0
  if totalFiles < 1 ∧ 0 < targetBytes then 1 else totalFiles

/-- `static_cast<long long>(freeBytesRaw * ratio) - 100 KiB`, computed exactly. -/
def targetBytesFor (freeBytesRaw percentage : ℤ) : ℤ :=
  (freeBytesRaw * percentage).tdiv 100 - 100 * 1024

/-- `static_cast<int>` of a `double`; `none` where the value does not fit. -/
def castInt (q : ℚ) : Option ℤ :=
  let n := if 0 ≤ q then ⌊q⌋ else ⌈q⌉
  if -2 ^ 31 ≤ n ∧ n < 2 ^ 31 then some n else none

def totalMBToScan (freeBytes : ℕ) (percentage : ℤ) : ℚ :=
  freeBytes * (percentage / 100) / (1024 * 1024)

def totalChunks (freeBytes : ℕ) (percentage : ℤ) : Option ℤ :=
  (castInt (totalMBToScan freeBytes percentage / 1024)).map
    (fun n => if n < 1 ∧ 0 < totalMBToScan freeBytes percentage then 1 else n)

/-- `freeBytesRaw = lpFreeBytesAvailable.QuadPart`, an unsigned number read as a signed one. -/
def freeBytesRawOf (freeBytes : ℕ) : ℤ := (BitVec.ofNat 64 freeBytes).toInt

end Program

section Sizes

variable {F t : ℤ}

def wholeChunk (F : ℤ) : ℕ := if 2 ^ 31 ≤ F then 2 ^ 30 else 32768

lemma wholeChunk_cases (F : ℤ) :
    2 ^ 31 ≤ F ∧ wholeChunk F = 2 ^ 30 ∨ F < 2 ^ 31 ∧ wholeChunk F = 32768 := by
  unfold wholeChunk
  split_ifs with h
  · exact Or.inl ⟨h, rfl⟩
  · exact Or.inr ⟨not_le.mp h, rfl⟩

lemma wholeChunk_pos (F : ℤ) : 0 < wholeChunk F := by
  rcases wholeChunk_cases F with ⟨_, he⟩ | ⟨_, he⟩ <;> omega

lemma chunkSizeFor_whole (h : t ≤ 0 ∨ (wholeChunk F : ℤ) ≤ t) :
    chunkSizeFor F t = wholeChunk F := by
  apply if_neg
  change ¬(0 < t ∧ t < (wholeChunk F : ℤ))
  omega

lemma chunkSizeFor_fitted (h0 : 0 < t) (h : t < wholeChunk F) :
    chunkSizeFor F t = if t.toNat / 512 * 512 = 0 then 512 else t.toNat / 512 * 512 :=
  if_pos ⟨h0, h⟩

lemma chunkSizeFor_small (h0 : 0 < t) (h : t < wholeChunk F) :
    0 < chunkSizeFor F t ∧ 512 ∣ chunkSizeFor F t ∧ (chunkSizeFor F t : ℤ) ≤ max t 512 ∧
      t / chunkSizeFor F t ≤ 1 ∧ t < 2 * (chunkSizeFor F t : ℤ) := by
  have hc := chunkSizeFor_fitted h0 h
  by_cases h512 : t.toNat / 512 * 512 = 0
  · rw [if_pos h512] at hc
    rw [hc]
    push_cast
    refine ⟨by decide, by decide, ?_, ?_, ?_⟩ <;> omega
  · rw [if_neg h512] at hc
    have hlt : t < 2 * ((t.toNat / 512 * 512 : ℕ) : ℤ) := by omega
    rw [hc]
    refine ⟨by omega, Nat.dvd_mul_left 512 _, by omega, ?_, hlt⟩
    exact Int.lt_add_one_iff.mp (Int.ediv_lt_of_lt_mul (by omega) hlt)

lemma chunkSizeFor_pos (F t : ℤ) : 0 < chunkSizeFor F t := by
  by_cases h : 0 < t ∧ t < wholeChunk F
  · exact (chunkSizeFor_small h.1 h.2).1
  · rw [chunkSizeFor_whole (by omega)]
    exact wholeChunk_pos F

lemma chunkSizeFor_sectors (F t : ℤ) : 512 ∣ chunkSizeFor F t ∧ chunkSizeFor F t ≤ 2 ^ 30 := by
  have hwhole : 512 ∣ wholeChunk F ∧ wholeChunk F ≤ 2 ^ 30 := by
    rcases wholeChunk_cases F with ⟨_, he⟩ | ⟨_, he⟩ <;> rw [he] <;> decide
  by_cases h : 0 < t ∧ t < wholeChunk F
  · obtain ⟨_, hdvd, hle, _, _⟩ := chunkSizeFor_small h.1 h.2
    exact ⟨hdvd, by omega⟩
  · rw [chunkSizeFor_whole (by omega)]
    exact hwhole

lemma toInt_ofInt {n : ℤ} (h0 : 0 ≤ n) (h : n < 2 ^ 31) : (BitVec.ofInt 32 n).toInt = n := by
  rw [BitVec.toInt_ofInt]
  apply Int.bmod_eq_of_le <;> omega

lemma totalFilesFor_eq (h : t < wholeChunk F * 2 ^ 31) :
    totalFilesFor F t = if t ≤ 0 then 0 else if t < wholeChunk F then 1 else t / wholeChunk F := by
  have hpos := chunkSizeFor_pos F t
  have hcast : ∀ n : ℤ, max t 0 / chunkSizeFor F t = n → 0 ≤ n → n < 2 ^ 31 →
      totalFilesFor F t = if n < 1 ∧ 0 < t then 1 else n := by
    intro n hn h0 hlt
    unfold totalFilesFor
    simp only [if_pos hpos, hn, toInt_ofInt h0 hlt]
  by_cases h0 : t ≤ 0
  · have hzero : max t 0 / (chunkSizeFor F t : ℤ) = 0 := by rw [max_eq_right h0, Int.zero_ediv]
    rw [hcast 0 hzero (le_refl 0) (by norm_num), if_neg (by omega), if_pos h0]
  · rw [not_le] at h0
    have hmax : max t 0 = t := max_eq_left h0.le
    rw [if_neg (not_le.mpr h0)]
    by_cases hw : t < wholeChunk F
    · obtain ⟨_, _, _, hle, _⟩ := chunkSizeFor_small h0 hw
      have hnn : 0 ≤ t / (chunkSizeFor F t : ℤ) := Int.ediv_nonneg h0.le (Int.natCast_nonneg _)
      rw [hcast (t / chunkSizeFor F t) (by rw [hmax]) hnn (by omega), if_pos hw]
      split_ifs <;> omega
    · have hchunk : chunkSizeFor F t = wholeChunk F := chunkSizeFor_whole (Or.inr (not_lt.mp hw))
      have hwpos : (0 : ℤ) < wholeChunk F := Int.natCast_pos.mpr (wholeChunk_pos F)
      have hge : 1 ≤ t / (wholeChunk F : ℤ) := (Int.le_ediv_iff_mul_le hwpos).mpr (by omega)
      have hlt : t / (wholeChunk F : ℤ) < 2 ^ 31 :=
        Int.ediv_lt_of_lt_mul hwpos (by rwa [mul_comm] at h)
      rw [hcast (t / wholeChunk F) (by rw [hmax, hchunk]) (by omega) hlt,
        if_neg (by omega), if_neg hw]

end Sizes

section Safety

/-- Whole sectors that fit a call, files that fit the free space and cover the target, and counters
in range. -/
structure SafeSizing (F t : ℤ) : Prop where
  positive : 0 < chunkSizeFor F t
  sectors : 512 ∣ chunkSizeFor F t
  dword : chunkSizeFor F t < 2 ^ 32
  fits : totalFilesFor F t * chunkSizeFor F t ≤ F
  empty : totalFilesFor F t = 0 ↔ t ≤ 0
  covers : 0 < t → t - totalFilesFor F t * chunkSizeFor F t < chunkSizeFor F t
  files : max t 0 / chunkSizeFor F t < 2 ^ 31
  progress : ∀ i, 1 ≤ i → i ≤ totalFilesFor F t → i * 100 < 2 ^ 31

lemma safeSizing_empty {F t : ℤ} (hF : 0 ≤ F) (h : t ≤ 0) : SafeSizing F t := by
  have hchunk : chunkSizeFor F t = wholeChunk F := chunkSizeFor_whole (Or.inl h)
  have htotal : totalFilesFor F t = 0 := by
    have hpos := wholeChunk_pos F
    rw [totalFilesFor_eq (by omega), if_pos h]
  have hmax : max t 0 / (chunkSizeFor F t : ℤ) = 0 := by rw [max_eq_right h, Int.zero_ediv]
  obtain ⟨hsectors, hle⟩ := chunkSizeFor_sectors F t
  refine ⟨chunkSizeFor_pos F t, hsectors, by omega, ?_, iff_of_true htotal h, ?_, ?_, ?_⟩
  · rw [htotal, Int.zero_mul]
    exact hF
  · intro h0
    omega
  · rw [hmax]
    norm_num
  · intro i h1 hi
    omega

lemma safeSizing_small {F t : ℤ} (h0 : 0 < t) (h : t < wholeChunk F) (hF : t + 512 ≤ F) :
    SafeSizing F t := by
  obtain ⟨hpos, hdvd, hle, hquot, hhalf⟩ := chunkSizeFor_small h0 h
  have htotal : totalFilesFor F t = 1 := by
    rw [totalFilesFor_eq (by omega), if_neg (not_le.mpr h0), if_pos h]
  have hdword := (chunkSizeFor_sectors F t).2
  refine ⟨hpos, hdvd, by omega, ?_, ?_, ?_, ?_, ?_⟩
  · rw [htotal]
    omega
  · rw [htotal]
    omega
  · intro _
    rw [htotal]
    omega
  · rw [max_eq_left h0.le]
    omega
  · intro i h1 hi
    rw [htotal] at hi
    omega

lemma safeSizing_whole {F t : ℤ} (h : (wholeChunk F : ℤ) ≤ t) (hF : t ≤ F) (hF' : F < 2 ^ 53) :
    SafeSizing F t := by
  have hchunk : chunkSizeFor F t = wholeChunk F := chunkSizeFor_whole (Or.inr h)
  have hpos : 0 < wholeChunk F := wholeChunk_pos F
  have hdiv := Int.emod_add_mul_ediv t (wholeChunk F)
  have hmod := Int.emod_nonneg t (Int.natCast_ne_zero.mpr hpos.ne')
  have hlt := Int.emod_lt_of_pos t (Int.natCast_pos.mpr hpos)
  have hmul : (wholeChunk F : ℤ) * (t / wholeChunk F) = t / wholeChunk F * wholeChunk F :=
    Int.mul_comm _ _
  have hquot : t / wholeChunk F < 2 ^ 23 := by
    apply Int.ediv_lt_of_lt_mul (Int.natCast_pos.mpr hpos)
    rcases wholeChunk_cases F with ⟨_, he⟩ | ⟨_, he⟩ <;> rw [he] <;> push_cast <;> omega
  have hone : 1 ≤ t / (wholeChunk F : ℤ) :=
    (Int.le_ediv_iff_mul_le (Int.natCast_pos.mpr hpos)).mpr (by omega)
  have htotal : totalFilesFor F t = t / wholeChunk F := by
    rw [totalFilesFor_eq, if_neg (by omega), if_neg (by omega)]
    rcases wholeChunk_cases F with ⟨_, he⟩ | ⟨_, he⟩ <;> omega
  obtain ⟨hsectors, hle⟩ := chunkSizeFor_sectors F t
  refine ⟨chunkSizeFor_pos F t, hsectors, by omega, ?_, ?_, ?_, ?_, ?_⟩
  · rw [htotal, hchunk]
    omega
  · rw [htotal]
    omega
  · intro _
    rw [htotal, hchunk]
    omega
  · rw [hchunk, max_eq_left (by omega)]
    omega
  · intro i h1 hi
    omega

/-- The sizing is safe and covers the target for every free space below 2^53 and every
percentage. -/
theorem sizing_safe {F p : ℤ} (hF : 0 ≤ F) (hF' : F < 2 ^ 53) (hp : 1 ≤ p) (hp' : p ≤ 100) :
    targetBytesFor F p = F * p / 100 - 102400 ∧ SafeSizing F (targetBytesFor F p) := by
  have hprod : 0 ≤ F * p := Int.mul_nonneg hF (by omega)
  have hle : F * p ≤ F * 100 := Int.mul_le_mul_of_nonneg_left hp' hF
  have htarget : targetBytesFor F p = F * p / 100 - 102400 := by
    rw [targetBytesFor, Int.tdiv_eq_ediv_of_nonneg hprod]
    norm_num
  refine ⟨htarget, ?_⟩
  have hbound : targetBytesFor F p + 102400 ≤ F := by
    rw [htarget]
    omega
  rcases le_or_gt (targetBytesFor F p) 0 with h0 | h0
  · exact safeSizing_empty hF h0
  · rcases lt_or_ge (targetBytesFor F p) (wholeChunk F) with h | h
    · exact safeSizing_small h0 h (by omega)
    · exact safeSizing_whole h (by omega) hF'

theorem sizing_safe_sixty_gib : SafeSizing (60 * 2 ^ 30) (targetBytesFor (60 * 2 ^ 30) 50) :=
  (sizing_safe (by norm_num) (by norm_num) (by norm_num) (by norm_num)).2

end Safety

section Estimate

variable {p : ℤ}

lemma floor_chunks (F : ℕ) (p : ℤ) : ⌊totalMBToScan F p / 1024⌋ = (F : ℤ) * p / 100 / 2 ^ 30 := by
  have hq : totalMBToScan F p / 1024 = (((F : ℤ) * p : ℤ) : ℚ) / ((100 * 2 ^ 30 : ℕ) : ℚ) := by
    unfold totalMBToScan
    push_cast
    ring
  rw [hq, Rat.floor_intCast_div_natCast, Int.ediv_ediv_of_nonneg (by norm_num)]
  norm_num

lemma totalChunks_eq (F : ℕ) (hp : 1 ≤ p) :
    totalChunks F p =
      if (F : ℤ) * p / 100 < 2 ^ 61 then
        some (if F = 0 then 0 else max 1 ((F : ℤ) * p / 100 / 2 ^ 30)) else none := by
  have hprod : 0 ≤ (F : ℤ) * p := Int.mul_nonneg (Int.natCast_nonneg F) (by omega)
  have hnn : 0 ≤ totalMBToScan F p / 1024 := by
    have hp0 : (0 : ℚ) ≤ p := by exact_mod_cast (by omega : (0 : ℤ) ≤ p)
    unfold totalMBToScan
    positivity
  have hpos : 0 < totalMBToScan F p ↔ F ≠ 0 := by
    have hp0 : (0 : ℚ) < p := by exact_mod_cast (by omega : (0 : ℤ) < p)
    unfold totalMBToScan
    constructor
    · rintro h rfl
      simp at h
    · intro h
      have hF : (0 : ℚ) < F := by exact_mod_cast Nat.pos_of_ne_zero h
      positivity
  unfold totalChunks castInt
  simp only [if_pos hnn, floor_chunks, hpos]
  generalize hprodeq : (F : ℤ) * p = m at hprod
  by_cases hlt : m / 100 < 2 ^ 61
  · rw [if_pos (by omega), if_pos hlt, Option.map_some]
    congr 1
    by_cases hF : F = 0
    · have hm : m = 0 := by
        rw [← hprodeq, hF]
        exact Int.zero_mul p
      rw [if_pos hF, if_neg (by simp [hF]), hm]
      rfl
    · rw [if_neg hF]
      simp only [hF, ne_eq, not_false_iff, and_true]
      split_ifs <;> omega
  · rw [if_neg (by omega), if_neg hlt, Option.map_none]

lemma freeBytesRawOf_eq {F : ℕ} (h : F < 2 ^ 64) :
    freeBytesRawOf F = if F < 2 ^ 63 then (F : ℤ) else (F : ℤ) - 2 ^ 64 := by
  unfold freeBytesRawOf
  rw [BitVec.toInt_ofNat']
  split_ifs with hlt
  · apply Int.bmod_eq_of_le <;> omega
  · rw [← Int.sub_bmod_right, Int.bmod_eq_of_le] <;> omega

lemma totalFiles_negative {F : ℤ} (hF : F < 0) (hp : 1 ≤ p) :
    totalFilesFor F (targetBytesFor F p) = 0 := by
  have hprod : F * p ≤ 0 := Int.mul_nonpos_of_nonpos_of_nonneg hF.le (by omega)
  have ht : targetBytesFor F p ≤ 0 := by
    have hdiv : 0 ≤ (-(F * p)).tdiv 100 := Int.tdiv_nonneg (by omega) (by norm_num)
    rw [Int.neg_tdiv] at hdiv
    unfold targetBytesFor
    omega
  have hpos := wholeChunk_pos F
  rw [totalFilesFor_eq (by omega), if_pos ht]

/-- The free space and the scanned share of it, for which one count stands for both tools. -/
def AgreeingShare (F : ℕ) (share : ℤ) : Prop :=
  F = 0 ∨ (F < 2 ^ 31 ∧ 102400 < share ∧ share < 167936) ∨
    (2 ^ 31 ≤ F ∧ F < 2 ^ 63 ∧ share < 2 ^ 61 ∧ (share < 2 ^ 31 ∨ 102400 ≤ share % 2 ^ 30))

theorem estimate_counts_files_iff {F : ℕ} (hF : F < 2 ^ 64) (hp : 1 ≤ p) (hp' : p ≤ 100) :
    totalChunks F p =
      some (totalFilesFor (freeBytesRawOf F) (targetBytesFor (freeBytesRawOf F) p)) ↔
      AgreeingShare F ((F : ℤ) * p / 100) := by
  unfold AgreeingShare
  rw [totalChunks_eq F hp, freeBytesRawOf_eq hF]
  have hprod : 0 ≤ (F : ℤ) * p := Int.mul_nonneg (Int.natCast_nonneg F) (by omega)
  have hone : (F : ℤ) ≤ F * p := by
    simpa only [Int.mul_one] using Int.mul_le_mul_of_nonneg_left hp (Int.natCast_nonneg F)
  have hle : (F : ℤ) * p ≤ F * 100 := Int.mul_le_mul_of_nonneg_left hp' (Int.natCast_nonneg F)
  by_cases h63 : F < 2 ^ 63
  · have htarget : targetBytesFor F p = (F : ℤ) * p / 100 - 102400 := by
      rw [targetBytesFor, Int.tdiv_eq_ediv_of_nonneg hprod]
      norm_num
    rw [if_pos h63, htarget]
    generalize (F : ℤ) * p = m at hprod hone hle
    by_cases h61 : m / 100 < 2 ^ 61
    · rw [if_pos h61, Option.some.injEq]
      rcases wholeChunk_cases F with ⟨hlarge, hw⟩ | ⟨hsmall, hw⟩
      · rw [totalFilesFor_eq (by rw [hw]; omega), hw]
        push_cast
        split_ifs <;> omega
      · rw [totalFilesFor_eq (by rw [hw]; omega), hw]
        push_cast
        split_ifs <;> omega
    · rw [if_neg h61]
      refine iff_of_false (fun h => Option.some_ne_none _ h.symm) ?_
      omega
  · have hneg : (F : ℤ) - 2 ^ 64 < 0 := by omega
    rw [if_neg h63, totalFiles_negative hneg hp]
    refine iff_of_false ?_ (by omega)
    generalize (F : ℤ) * p = m at hprod hone hle
    split_ifs with h61 h0
    · omega
    · rw [Option.some.injEq]
      omega
    · exact fun h => h

/-- With 1 GiB free the estimate counts one chunk and the scan writes 32764 files. -/
theorem estimate_misses_small_files :
    totalChunks (2 ^ 30) 100 = some 1 ∧
      totalFilesFor (freeBytesRawOf (2 ^ 30)) (targetBytesFor (freeBytesRawOf (2 ^ 30)) 100) =
        32764 := by
  constructor
  · rw [totalChunks_eq _ (by norm_num)]
    norm_num
  · decide

theorem estimate_counts_files_sample :
    totalChunks (60 * 2 ^ 30) 50 =
        some
          (totalFilesFor (freeBytesRawOf (60 * 2 ^ 30))
            (targetBytesFor (freeBytesRawOf (60 * 2 ^ 30)) 50)) ↔
      AgreeingShare (60 * 2 ^ 30) (((60 * 2 ^ 30 : ℕ) : ℤ) * 50 / 100) :=
  estimate_counts_files_iff (by norm_num) (by norm_num) (by norm_num)

end Estimate

end DriveIntegrity.Surface
