import DriveIntegrity.Surface.Capacity
import DriveIntegrity.Surface.Grade
import DriveIntegrity.Surface.Sizing

/-! The counter `errors` of a scan whose test files fail or come back changed in any way. -/

namespace DriveIntegrity.Surface

open Bytes

/-- Which test files can be created and opened again, and what each sector of them holds then. -/
structure ReadBack where
  created : ℕ → Bool
  opened : ℕ → Bool
  sector : ℕ → ℕ → List UInt8
  sector_length : ∀ i s, (sector i s).length = sectorSize
  readTime : ℕ → ℚ

section Drive

variable (o : ReadBack)

def readBackStorage : Storage Unit where
  createFile d i := (d, o.created i)
  writeFile d _ _ := d
  openFile d i := (d, o.opened i)
  readFile d i n := (d, ((List.range (n / 512)).map (o.sector i)).flatten)
  deleteFile d _ := d
  readTime _ i := o.readTime i

def uncreated (n : ℕ) : Finset ℕ := (Finset.Icc 1 n).filter (fun i => o.created i = false)

/-- The sectors of opened files that do not begin with the stamp written to them. -/
def mismatched (chunkSize n : ℕ) : Finset (ℕ × ℕ) :=
  (Finset.Icc 1 n ×ˢ Finset.range (sectorsPerFile chunkSize)).filter
    (fun p => o.opened p.1 = true ∧
      stampOf (o.sector p.1 p.2) ≠ (fileOffset chunkSize p.1 + 512 * p.2) % 2 ^ 64)

def faultCount (chunkSize n : ℕ) : ℕ := (uncreated o n).card + (mismatched o chunkSize n).card

lemma readBack_createFailures (chunkSize : ℕ) (is : List ℕ) :
    createFailures (readBackStorage o) chunkSize
      () is = (is.map (fun i => if o.created i = false then 1 else 0)).sum := by
  induction is with
  | nil => rfl
  | cons i is ih =>
    rw [List.map_cons, List.sum_cons, ← ih]
    cases hc : o.created i with
    | false =>
      simp only [createFailures, readBackStorage, hc, Bool.false_eq_true, if_false, if_true]
      exact Nat.add_comm _ _
    | true => simp only [createFailures, readBackStorage, hc, if_true, Bool.true_eq_false,
        if_false, Nat.zero_add]

def bytesBack (m i : ℕ) : List UInt8 := ((List.range m).map (o.sector i)).flatten

lemma sectors_length (m i : ℕ) : ∀ c ∈ (List.range m).map (o.sector i), c.length = sectorSize :=
  List.forall_mem_map.mpr (fun s _ => o.sector_length i s)

lemma bytesBack_length (m i : ℕ) : (bytesBack o m i).length = 512 * m := by
  rw [bytesBack, List.length_flatten, List.map_congr_left (sectors_length o m i), List.map_const',
    List.sum_replicate, smul_eq_mul, List.length_map, List.length_range, Nat.mul_comm]
  rfl

lemma bytesBack_block {m s : ℕ} (i : ℕ) (hs : s < m) :
    block sectorSize (bytesBack o m i) s = o.sector i s := by
  rw [bytesBack, block_flatten _ (sectors_length o m i)
    (by simpa only [List.length_map, List.length_range] using hs),
    List.getElem_map, List.getElem_range]

lemma mismatchCount_bytesBack {m i : ℕ} (hi : 1 ≤ i) :
    mismatchCount (512 * m) (i, bytesBack o m i) =
      ((Finset.range m).filter
        (fun s => stampOf (o.sector i s) ≠ (fileOffset (512 * m) i + 512 * s) % 2 ^ 64)).card := by
  obtain ⟨k, rfl⟩ := Nat.exists_eq_add_of_le' hi
  rw [mismatchCount_eq m k _ (bytesBack_length o m (k + 1))]
  congr 1
  apply Finset.filter_congr
  intro s hs
  rw [bytesBack_block o (k + 1) (Finset.mem_range.mp hs)]
  rfl

lemma readBack_mismatches {m : ℕ} (hd : dword (512 * m) = 512 * m) (is : List ℕ) :
    ((buffersRead (readBackStorage o) (512 * m) () is).map (mismatchCount (512 * m))).sum =
      (is.map (fun i =>
        if o.opened i = true then mismatchCount (512 * m) (i, bytesBack o m i) else 0)).sum := by
  induction is with
  | nil => rfl
  | cons i is ih =>
    rw [List.map_cons, List.sum_cons, ← ih]
    cases ho : o.opened i with
    | false =>
        simp only [buffersRead, readBackStorage, ho, Bool.false_eq_true, if_false, Nat.zero_add]
    | true =>
      have hm : 512 * m / 512 = m := Nat.mul_div_cancel_left m (by norm_num)
      have hfull := readBuffer_full (512 * m) (bytesBack_length o m i) hd
      simp only [buffersRead, readBackStorage, ho, if_true, hd, hm, List.map_cons, List.sum_cons]
      rw [bytesBack] at hfull
      rw [hfull]
      rfl

lemma fileNumbers_toFinset (n : ℕ) : (fileNumbers n).toFinset = Finset.Icc 1 n := by
  ext i
  rw [List.mem_toFinset, fileNumbers, List.mem_range'_1, Finset.mem_Icc]
  omega

lemma readBack_errorCount {m : ℕ} (n : ℕ) (hd : dword (512 * m) = 512 * m) :
    errorCount (readBackStorage o) (512 * m) n () = faultCount o (512 * m) n := by
  have hn : (fileNumbers n).Nodup := List.nodup_range'
  have hm : sectorsPerFile (512 * m) = m := Nat.mul_div_cancel_left m (by norm_num)
  have hdisk : (writePass (readBackStorage o) (512 * m) n ⟨(), 0, [], []⟩).disk = () := rfl
  rw [errorCount, hdisk, readBack_createFailures, readBack_mismatches o hd,
    ← List.sum_toFinset _ hn, ← List.sum_toFinset _ hn, fileNumbers_toFinset, faultCount, uncreated,
    Finset.card_filter, mismatched, hm, Finset.card_filter, Finset.sum_product]
  congr 1
  apply Finset.sum_congr rfl
  intro i hi
  split_ifs with ho
  · rw [mismatchCount_bytesBack o (Finset.mem_Icc.mp hi).1, Finset.card_filter]
    simp only [ho, true_and]
  · apply Eq.symm
    apply Finset.sum_eq_zero
    intro s _
    exact if_neg (fun h => ho h.1)

lemma faultCount_le (chunkSize n : ℕ) :
    faultCount o chunkSize n ≤ n * (sectorsPerFile chunkSize + 1) := by
  have hu : (uncreated o n).card ≤ n := by
    apply (Finset.card_filter_le _ _).trans
    rw [Nat.card_Icc, Nat.add_sub_cancel]
  have hm : (mismatched o chunkSize n).card ≤ n * sectorsPerFile chunkSize := by
    apply (Finset.card_filter_le _ _).trans
    rw [Finset.card_product, Nat.card_Icc, Nat.add_sub_cancel, Finset.card_range]
  rw [faultCount, Nat.mul_succ]
  omega

def BadDrive (chunkSize n : ℕ) : Prop :=
  (uncreated o n).Nonempty ∨ (mismatched o chunkSize n).Nonempty

lemma faultCount_pos_iff (chunkSize n : ℕ) :
    0 < faultCount o chunkSize n ↔ BadDrive o chunkSize n := by
  rw [faultCount, Nat.add_pos_iff_pos_or_pos, Finset.card_pos, Finset.card_pos]
  rfl

end Drive

section Counter

/-- At the end of the read pass the counter is the number of faults, and the grade tells of any. -/
structure CountsFaults (o : ReadBack) (chunkSize n : ℕ) : Prop where
  exact : (surfaceScan (readBackStorage o) chunkSize n ()).errors.toInt = faultCount o chunkSize n
  positive : 0 < (surfaceScan (readBackStorage o) chunkSize n ()).errors.toInt ↔
    BadDrive o chunkSize n
  grade : (surfaceScan (readBackStorage o) chunkSize n ()).finalGrade = .dataLoss ↔
    BadDrive o chunkSize n

lemma countsFaults_iff (o : ReadBack) {m : ℕ} (n : ℕ) (hd : dword (512 * m) = 512 * m) :
    CountsFaults o (512 * m) n ↔ faultCount o (512 * m) n < 2 ^ 31 := by
  have herrors := surfaceScan_errors (readBackStorage o) (512 * m) n ()
  rw [readBack_errorCount o n hd] at herrors
  constructor
  · intro h
    have hlt := BitVec.toInt_lt (x := (surfaceScan (readBackStorage o) (512 * m) n ()).errors)
    have heq := h.exact
    omega
  · intro h
    have heq : (surfaceScan (readBackStorage o) (512 * m) n ()).errors.toInt =
        faultCount o (512 * m) n := by
      rw [herrors, errors_toInt h]
    have hpos : 0 < (surfaceScan (readBackStorage o) (512 * m) n ()).errors.toInt ↔
        BadDrive o (512 * m) n := by
      rw [heq, Int.natCast_pos, faultCount_pos_iff]
    refine ⟨heq, hpos, ?_⟩
    rw [ScanState.finalGrade, getTechnicalGrade_dataLoss_iff]
    exact hpos

lemma chunkSizeFor_dword (F t : ℤ) : dword (chunkSizeFor F t) = chunkSizeFor F t := by
  have hle := (chunkSizeFor_sectors F t).2
  exact Nat.mod_eq_of_lt (by omega)

/-- A drive that creates no file, opens those that are there, and returns no stamp. -/
def lostDrive (created : Bool) : ReadBack where
  created _ := created
  opened _ := true
  sector _ _ := sectorImage 1
  sector_length _ _ := sectorImage_length 1
  readTime _ := 1

lemma lostDrive_mismatched (created : Bool) {chunkSize : ℕ} (n : ℕ) (h : 512 ∣ chunkSize) :
    (mismatched (lostDrive created) chunkSize n).card = n * sectorsPerFile chunkSize := by
  have hall : mismatched (lostDrive created) chunkSize n =
      Finset.Icc 1 n ×ˢ Finset.range (sectorsPerFile chunkSize) := by
    apply Finset.filter_true_of_mem
    intro p _
    refine ⟨rfl, ?_⟩
    have hstamp : stampOf ((lostDrive created).sector p.1 p.2) = 1 := by
      change decode ((sectorImage 1).take stampSize) = 1
      rw [sectorImage_stamp, decode_encode]
      rfl
    obtain ⟨m, rfl⟩ := h
    rw [hstamp, fileOffset]
    have hmul : (p.1 - 1) * (512 * m) = 512 * ((p.1 - 1) * m) := Nat.mul_left_comm _ _ _
    rw [hmul]
    omega
  rw [hall, Finset.card_product, Nat.card_Icc, Nat.add_sub_cancel, Finset.card_range]

lemma lostDrive_faultCount {chunkSize : ℕ} (n : ℕ) (h : 512 ∣ chunkSize) :
    faultCount (lostDrive true) chunkSize n = n * sectorsPerFile chunkSize ∧
      faultCount (lostDrive false) chunkSize n = n * (sectorsPerFile chunkSize + 1) := by
  have hnone : uncreated (lostDrive true) n = ∅ :=
    Finset.filter_false_of_mem (fun _ _ h => Bool.noConfusion h)
  have hall : uncreated (lostDrive false) n = Finset.Icc 1 n :=
    Finset.filter_true_of_mem (fun _ _ => rfl)
  constructor
  · rw [faultCount, hnone, Finset.card_empty, Nat.zero_add, lostDrive_mismatched true n h]
  · rw [faultCount, hall, Nat.card_Icc, Nat.add_sub_cancel,
      lostDrive_mismatched false n h, Nat.mul_succ]
    exact Nat.add_comm _ _

theorem errors_count_iff (F t : ℤ) :
    (∀ o : ReadBack, CountsFaults o (chunkSizeFor F t) (totalFilesFor F t).toNat ↔
      faultCount o (chunkSizeFor F t) (totalFilesFor F t).toNat < 2 ^ 31) ∧
    ((∀ o : ReadBack, CountsFaults o (chunkSizeFor F t) (totalFilesFor F t).toNat) ↔
      (totalFilesFor F t).toNat * (chunkSizeFor F t / 512 + 1) < 2 ^ 31) := by
  have hd := chunkSizeFor_dword F t
  have hdvd := (chunkSizeFor_sectors F t).1
  generalize chunkSizeFor F t = chunkSize at hd hdvd
  generalize (totalFilesFor F t).toNat = n
  obtain ⟨m, rfl⟩ := hdvd
  have hiff : ∀ o : ReadBack, CountsFaults o (512 * m) n ↔ faultCount o (512 * m) n < 2 ^ 31 :=
    fun o => countsFaults_iff o n hd
  refine ⟨hiff, ?_, ?_⟩
  · intro h
    have hlost := (hiff (lostDrive false)).mp (h _)
    rwa [(lostDrive_faultCount n (Nat.dvd_mul_right 512 m)).2] at hlost
  · intro h o
    exact (hiff o).mpr ((faultCount_le o (512 * m) n).trans_lt h)

/-- With 1025 GiB free a full scan writes 1024 files of 1 GiB, and 2^31 bad sectors make a negative
counter. -/
theorem lost_terabyte_graded_good :
    let F := freeBytesRawOf (1025 * 2 ^ 30)
    let chunk := chunkSizeFor F (targetBytesFor F 100)
    let n := (totalFilesFor F (targetBytesFor F 100)).toNat
    n = 1024 ∧ (mismatched (lostDrive true) chunk n).card = 2 ^ 31 ∧
      (surfaceScan (readBackStorage (lostDrive true)) chunk n ()).errors.toInt = -2 ^ 31 ∧
      (surfaceScan (readBackStorage (lostDrive true)) chunk n ()).finalGrade ≠ .dataLoss := by
  intro F chunk n
  have hchunk : chunk = 512 * 2 ^ 21 := by decide
  have hn : n = 1024 := by decide
  rw [hchunk, hn]
  have herrors := surfaceScan_errors (readBackStorage (lostDrive true)) (512 * 2 ^ 21) 1024 ()
  rw [readBack_errorCount _ _ (by decide),
    (lostDrive_faultCount _ (Nat.dvd_mul_right 512 (2 ^ 21))).1] at herrors
  have hint :
      (surfaceScan (readBackStorage (lostDrive true)) (512 * 2 ^ 21) 1024 ()).errors.toInt =
        -2 ^ 31 := by
    rw [herrors]
    decide
  refine ⟨rfl, lostDrive_mismatched true 1024 (Nat.dvd_mul_right 512 (2 ^ 21)), hint, ?_⟩
  rw [ne_eq, ScanState.finalGrade, getTechnicalGrade_dataLoss_iff, hint]
  norm_num

end Counter

end DriveIntegrity.Surface
