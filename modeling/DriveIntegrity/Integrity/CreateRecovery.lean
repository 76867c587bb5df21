import DriveIntegrity.Integrity.Inventory
import DriveIntegrity.Integrity.Par2Create

/-! A run of `create_recovery` on the logs folder. -/

namespace DriveIntegrity.Integrity

section Script

/-- What `Get-Content` finds of `baseline.xml`. -/
inductive BaselineFile
  | missing
  | empty
  | malformed
  | readable (filenames : List Text)

/-- `$fileList`, `none` when the conversion throws; a missing or empty file converts to `$null`. -/
def BaselineFile.fileList : BaselineFile → Option FileList
  | .missing => some .null
  | .empty => some .null
  | .malformed => none
  | .readable filenames => some (.ofNames filenames)

/-- The `*.par2` files of earlier runs that are left, the sets made by this one with their part
numbers and protected files, and whether it says `All Parts Complete!`. -/
structure RecoveryRun where
  existing : List Text
  newSets : List (ℕ × List Text)
  complete : Bool

/-- The verification wait: nothing is deleted again. -/
def waitLoop (remaining : List Text) : ℕ → Bool
  | 0 => false
  | seconds + 1 => if remaining.isEmpty then true else waitLoop remaining seconds

/-- The PAR2 loop; the result of a run is not looked at. -/
def par2Loop (par2 : ℕ → Text → Option (List Text)) (chunkIndex : ℕ) :
    List (List Text) → List (ℕ × List Text)
  | [] => []
  | chunk :: chunks =>
    match par2 chunkIndex (writeAllLines chunk) with
    | some set => (chunkIndex, set) :: par2Loop par2 (chunkIndex + 1) chunks
    | none => par2Loop par2 (chunkIndex + 1) chunks

def basePath (drive : DriveLetter) : Text := [drive.val.toUpper, ':', '\\']

/-- `locked` are the files that `del` cannot remove. -/
def createRecovery (drive : DriveLetter) (locked : Text → Bool)
    (par2 : ℕ → Text → Option (List Text))
    (baseline : BaselineFile) (existing : List Text) : RecoveryRun :=
  if drive.val.toUpper = 'C' then ⟨existing, [], false⟩
  else
    let remaining := existing.filter locked
    if waitLoop remaining 10 then
      match baseline.fileList with
      | none => ⟨remaining, [], false⟩
      | some fileList => ⟨remaining, par2Loop par2 1 (chunkLoop fileList 0), true⟩
    else ⟨remaining, [], false⟩

end Script

section Runs

variable {drive : DriveLetter} {locked : Text → Bool} {par2 : ℕ → Text → Option (List Text)}
  {baseline : BaselineFile} {existing : List Text}

lemma waitLoop_eq (remaining : List Text) {seconds : ℕ} (h : 0 < seconds) :
    waitLoop remaining seconds = remaining.isEmpty := by
  induction seconds with
  | zero => omega
  | succ seconds ih =>
    cases remaining with
    | nil => rfl
    | cons file remaining =>
      rw [waitLoop, if_neg (by simp)]
      by_cases hs : seconds = 0
      · rw [hs]
        rfl
      · exact ih (by omega)

lemma mem_par2Loop {chunkIndex n : ℕ} {parts : List (List Text)} {set : List Text} :
    (n, set) ∈ par2Loop par2 chunkIndex parts ↔
      ∃ k chunk, parts[k]? = some chunk ∧ n = chunkIndex + k ∧
        par2 n (writeAllLines chunk) = some set := by
  induction parts generalizing chunkIndex with
  | nil => simp [par2Loop]
  | cons chunk parts ih =>
    have hrest : (n, set) ∈ par2Loop par2 (chunkIndex + 1) parts ↔
        ∃ k c, (chunk :: parts)[k + 1]? = some c ∧ n = chunkIndex + (k + 1) ∧
          par2 n (writeAllLines c) = some set := by
      rw [ih]
      simp only [List.getElem?_cons_succ, Nat.add_assoc, Nat.add_comm 1]
    have hsplit : (n, set) ∈ par2Loop par2 chunkIndex (chunk :: parts) ↔
        (n = chunkIndex ∧ par2 n (writeAllLines chunk) = some set) ∨
          (n, set) ∈ par2Loop par2 (chunkIndex + 1) parts := by
      rw [par2Loop]
      cases hp : par2 chunkIndex (writeAllLines chunk) with
      | none =>
        refine ⟨Or.inr, ?_⟩
        rintro (⟨rfl, h⟩ | h)
        · rw [hp] at h
          cases h
        · exact h
      | some made =>
        rw [List.mem_cons, Prod.mk.injEq]
        refine or_congr_left ⟨?_, ?_⟩
        · rintro ⟨rfl, rfl⟩
          exact ⟨rfl, hp⟩
        · rintro ⟨rfl, h⟩
          exact ⟨rfl, (Option.some.inj (hp.symm.trans h)).symm⟩
    rw [hsplit, hrest]
    constructor
    · rintro (⟨hn, hp⟩ | ⟨k, c, hc, hn, hp⟩)
      · exact ⟨0, chunk, rfl, by omega, hp⟩
      · exact ⟨k + 1, c, hc, hn, hp⟩
    · rintro ⟨k, c, hc, hn, hp⟩
      cases k with
      | zero =>
        obtain rfl := Option.some.inj hc
        exact Or.inl ⟨by omega, hp⟩
      | succ k => exact Or.inr ⟨k, c, hc, hn, hp⟩

lemma createRecovery_cleared (hd : drive.val.toUpper ≠ 'C')
    (hl : ∀ file ∈ existing, locked file = false) :
    createRecovery drive locked par2 baseline existing =
      match baseline.fileList with
      | none => ⟨[], [], false⟩
      | some fileList => ⟨[], par2Loop par2 1 (chunkLoop fileList 0), true⟩ := by
  have hr : existing.filter locked = [] :=
    List.filter_eq_nil_iff.mpr (fun file hf => by simp [hl file hf])
  rw [createRecovery, if_neg hd, hr]
  dsimp only
  rw [waitLoop_eq _ (by decide), List.isEmpty_nil, if_pos rfl]

lemma createRecovery_blocked (hd : drive.val.toUpper ≠ 'C') {file : Text} (hf : file ∈ existing)
    (hl : locked file = true) :
    createRecovery drive locked par2 baseline existing = ⟨existing.filter locked, [], false⟩ := by
  have hr : (existing.filter locked).isEmpty = false := by
    rw [List.isEmpty_eq_false_iff_exists_mem]
    exact ⟨file, List.mem_filter.mpr ⟨hf, hl⟩⟩
  rw [createRecovery, if_neg hd]
  dsimp only
  rw [waitLoop_eq _ (by decide), hr, if_neg (by simp)]

end Runs

section Regeneration

/-- Every chunk of the baseline has a new set. -/
def RecoveryRun.Regenerated (run : RecoveryRun) (baseline : BaselineFile) : Prop :=
  ∃ names, baseline = .readable names ∧
    ∀ k chunk, (chunks names)[k]? = some chunk → ∃ set, (k + 1, set) ∈ run.newSets

/-- The recovery files of earlier runs are still there. -/
def RecoveryRun.Kept (run : RecoveryRun) (existing : List Text) : Prop := run.existing = existing

lemma chunks_ne_nil {names : List Text} (h : names ≠ []) :
    ∃ chunk, (chunks names)[0]? = some chunk := by
  by_cases h1 : names.length = 1
  · obtain ⟨name, rfl⟩ := List.length_eq_one_iff.mp h1
    rw [chunks_single]
    exact ⟨_, rfl⟩
  · rw [ofNames_array h1, chunkLoop_getElem?, if_pos]
    · exact ⟨_, rfl⟩
    · simpa using List.length_pos_iff.mpr h

lemma chunks_nil : chunks [] = [] := by rw [chunks, chunkLoop_of_le (le_refl 0)]

variable {drive : DriveLetter} {locked : Text → Bool} {par2 : ℕ → Text → Option (List Text)}
  {baseline : BaselineFile} {existing : List Text}

lemma kept_of_locked (hd : drive.val.toUpper ≠ 'C') (hall : ∀ file ∈ existing, locked file = true) :
    (createRecovery drive locked par2 baseline existing).Kept existing := by
  cases existing with
  | nil =>
    rw [createRecovery_cleared hd (fun _ hf => absurd hf List.not_mem_nil), RecoveryRun.Kept]
    cases baseline.fileList <;> rfl
  | cons file existing =>
    rw [createRecovery_blocked hd List.mem_cons_self (hall _ List.mem_cons_self), RecoveryRun.Kept]
    exact List.filter_eq_self.mpr hall

lemma regenerated_empty (run : RecoveryRun) : run.Regenerated (.readable []) := by
  refine ⟨[], rfl, fun k chunk hc => ?_⟩
  rw [chunks_nil] at hc
  cases hc

lemma regenerated_nothing_iff {run : RecoveryRun} (h : run.newSets = []) :
    run.Regenerated baseline ↔ baseline = .readable [] := by
  constructor
  · rintro ⟨names, rfl, hsets⟩
    by_contra hne
    obtain ⟨chunk, hc⟩ := chunks_ne_nil (fun hn => hne (congrArg BaselineFile.readable hn))
    obtain ⟨set, hs⟩ := hsets 0 chunk hc
    rw [h] at hs
    exact absurd hs List.not_mem_nil
  · rintro rfl
    exact regenerated_empty run

lemma par2Loop_set_iff {parts : List (List Text)} {k : ℕ} {chunk : List Text}
    (hc : parts[k]? = some chunk) :
    (∃ set, (k + 1, set) ∈ par2Loop par2 1 parts) ↔
      (par2 (k + 1) (writeAllLines chunk)).isSome = true := by
  rw [Option.isSome_iff_exists]
  refine exists_congr (fun set => ?_)
  rw [mem_par2Loop]
  constructor
  · rintro ⟨j, c, hj, he, hp⟩
    obtain rfl : k = j := by omega
    rwa [← Option.some.inj (hj.symm.trans hc)]
  · exact fun hp => ⟨k, chunk, hc, Nat.add_comm k 1, hp⟩

lemma regenerated_cleared_iff (hd : drive.val.toUpper ≠ 'C')
    (hnone : ∀ file ∈ existing, locked file = false) :
    (createRecovery drive locked par2 baseline existing).Regenerated baseline ↔
      ∃ names, baseline = .readable names ∧
        ∀ k chunk, (chunks names)[k]? = some chunk →
          (par2 (k + 1) (writeAllLines chunk)).isSome = true := by
  refine exists_congr (fun names => and_congr_right ?_)
  rintro rfl
  have hrun : createRecovery drive locked par2 (.readable names) existing =
      ⟨[], par2Loop par2 1 (chunks names), true⟩ := createRecovery_cleared hd hnone
  rw [hrun]
  exact forall₂_congr (fun k chunk => imp_congr_right par2Loop_set_iff)

/-- A run keeps the drive's recovery data or replaces all of it exactly when nothing can be deleted,
or everything can be and each chunk gets its set. -/
theorem regeneration_safe_iff (drive : DriveLetter) (locked : Text → Bool)
    (par2 : ℕ → Text → Option (List Text)) (baseline : BaselineFile) (existing : List Text) :
    (createRecovery drive locked par2 baseline existing).Regenerated baseline ∨
        (createRecovery drive locked par2 baseline existing).Kept existing ↔
      drive.val.toUpper = 'C' ∨ (∀ file ∈ existing, locked file = true) ∨
        ∃ names, baseline = .readable names ∧
          (names = [] ∨ (∀ file ∈ existing, locked file = false) ∧
            ∀ k chunk, (chunks names)[k]? = some chunk →
              (par2 (k + 1) (writeAllLines chunk)).isSome = true) := by
  by_cases hd : drive.val.toUpper = 'C'
  · refine iff_of_true (Or.inr ?_) (Or.inl hd)
    rw [RecoveryRun.Kept, createRecovery, if_pos hd]
  by_cases hall : ∀ file ∈ existing, locked file = true
  · exact iff_of_true (Or.inr (kept_of_locked hd hall)) (Or.inr (Or.inl hall))
  rw [or_iff_right hd, or_iff_right hall]
  by_cases hsome : ∃ file ∈ existing, locked file = true
  · obtain ⟨file, hf, hl⟩ := hsome
    have hkept : ¬existing.filter locked = existing := fun h => hall (List.filter_eq_self.mp h)
    rw [createRecovery_blocked hd hf hl, RecoveryRun.Kept, or_iff_left hkept,
      regenerated_nothing_iff rfl]
    constructor
    · exact fun h => ⟨[], h, Or.inl rfl⟩
    · rintro ⟨names, rfl, rfl | ⟨hnone, -⟩⟩
      · rfl
      · rw [hnone file hf] at hl
        cases hl
  · have hnone : ∀ file ∈ existing, locked file = false := fun file hf =>
      Bool.eq_false_iff.mpr (fun hl => hsome ⟨file, hf, hl⟩)
    have hne : existing ≠ [] := by
      rintro rfl
      exact hall (fun _ hf => absurd hf List.not_mem_nil)
    have hkept : ¬(createRecovery drive locked par2 baseline existing).Kept existing := by
      rw [RecoveryRun.Kept, createRecovery_cleared hd hnone]
      cases baseline.fileList <;> exact Ne.symm hne
    rw [or_iff_left hkept]
    constructor
    · intro h
      obtain ⟨names, hnames, hsets⟩ := (regenerated_cleared_iff hd hnone).mp h
      exact ⟨names, hnames, Or.inr ⟨hnone, hsets⟩⟩
    · rintro ⟨names, rfl, rfl | ⟨-, hsets⟩⟩
      · exact regenerated_empty _
      · exact (regenerated_cleared_iff hd hnone).mpr ⟨names, rfl, hsets⟩

/-- A refusal of `par2 c` leaves the drive without recovery data. -/
theorem regeneration_loses_set :
    ∃ run, createRecovery ⟨'E', by decide⟩ (fun _ => false) (fun _ _ => none)
        (.readable ["E:\\a".toList, "E:\\b".toList]) ["recovery_data_part1.par2".toList] = run ∧
      run.complete = true ∧ ¬run.Regenerated (.readable ["E:\\a".toList, "E:\\b".toList]) ∧
      ¬run.Kept ["recovery_data_part1.par2".toList] := by
  refine ⟨_, createRecovery_cleared (by decide) (fun _ _ => rfl), rfl, ?_, ?_⟩
  · rintro ⟨names, hn, hsets⟩
    obtain rfl := BaselineFile.readable.inj hn
    obtain ⟨chunk, hc⟩ := chunks_ne_nil (List.cons_ne_nil "E:\\a".toList ["E:\\b".toList])
    obtain ⟨set, hs⟩ := hsets 0 chunk hc
    obtain ⟨_, _, _, _, hp⟩ := mem_par2Loop.mp hs
    cases hp
  · intro h
    cases h

end Regeneration

end DriveIntegrity.Integrity
