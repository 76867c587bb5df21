import DriveIntegrity.Integrity.Culture

/-! Parity parts: `create_recovery` cuts the baseline into chunks, `quick_file_check` looks a part
up. -/

namespace DriveIntegrity.Integrity

def chunkSize : ℕ := 25000

/-- `$xmlData.dfxml.fileobject.filename`: member enumeration unrolls a single element. -/
inductive FileList
  | null
  | single (name : Text)
  | array (names : List Text)

def FileList.ofNames : List Text → FileList
  | [] => .null
  | [name] => .single name
  | names => .array names

def FileList.count : FileList → ℕ
  | .null => 0
  | .single _ => 1
  | .array names => names.length

/-- `$fileList[$i..$j]` as `WriteAllLines` prints it: a range of a string is characters. -/
def FileList.slice (i j : ℕ) : FileList → List Text
  | .null => []
  | .single name => ((name.drop i).take (j + 1 - i)).map (fun c => [c])
  | .array names => (names.drop i).take (j + 1 - i)

/-- `for ($i = 0; $i -lt $totalFiles; $i += $chunkSize)` from `$i` on. -/
def chunkLoop (fileList : FileList) (i : ℕ) : List (List Text) :=
  if i < fileList.count then
    fileList.slice i (min (i + chunkSize - 1) (fileList.count - 1)) :: chunkLoop fileList
      (i + chunkSize)
  else []
termination_by fileList.count - i
decreasing_by simp only [chunkSize]; omega

/-- The contents of `files_part1.txt`, `files_part2.txt`, ... for the names in `baseline.xml`. -/
def chunks (names : List Text) : List (List Text) := chunkLoop (.ofNames names) 0

/-- The number of the first part that lists the file. -/
def partOf (names : List Text) (file : Text) : Option ℕ :=
  ((chunks names).findIdx? (fun chunk => decide (file ∈ chunk))).map (· + 1)

/-- `[array]::IndexOf($masterList, $corruptFile)`, `none` for -1. -/
def masterIndex (masterList : List Text) (corruptFile : Text) : Option ℕ :=
  masterList.idxOf? corruptFile

def partNumber (index : ℕ) : ℕ := index / chunkSize + 1

lemma chunkLoop_of_le {fileList : FileList} {i : ℕ} (h : fileList.count ≤ i) :
    chunkLoop fileList i = [] := by
  rw [chunkLoop, if_neg (by omega)]

lemma chunkLoop_array (names : List Text) {i : ℕ} (h : i < names.length) :
    chunkLoop (.array names) i =
      (names.drop i).take chunkSize :: chunkLoop (.array names) (i + chunkSize) := by
  have hs : FileList.slice i (min (i + chunkSize - 1) (names.length - 1)) (.array names) =
      (names.drop i).take chunkSize := by
    rw [FileList.slice, List.take_eq_take_iff, List.length_drop]
    simp only [chunkSize]
    omega
  rw [chunkLoop, if_pos (show i < (FileList.array names).count from h), FileList.count, hs]

lemma mem_window_iff {names : List Text} (hn : names.Nodup) {file : Text}
    (hf : file ∈ names) {i : ℕ} (hi : i ≤ names.idxOf file) :
    file ∈ (names.drop i).take chunkSize ↔ names.idxOf file < i + chunkSize := by
  rw [List.mem_take_iff_getElem]
  constructor
  · rintro ⟨j, hj, he⟩
    rw [List.length_drop] at hj
    rw [List.getElem_drop] at he
    have := hn.idxOf_getElem (i + j) (by omega)
    rw [he] at this
    omega
  · intro h
    have hl := List.idxOf_lt_length_of_mem hf
    refine ⟨names.idxOf file - i, by rw [List.length_drop]; omega, ?_⟩
    rw [List.getElem_drop]
    simp only [Nat.add_sub_cancel' hi]
    exact List.getElem_idxOf hl

lemma chunkLoop_getElem? (names : List Text) (k i : ℕ) :
    (chunkLoop (.array names) i)[k]? =
      if i + k * chunkSize < names.length then
        some ((names.drop (i + k * chunkSize)).take chunkSize)
      else none := by
  induction k generalizing i with
  | zero =>
    rw [Nat.zero_mul, Nat.add_zero]
    split_ifs with h
    · rw [chunkLoop_array names h, List.getElem?_cons_zero]
    · rw [chunkLoop_of_le (show names.length ≤ i by omega), List.getElem?_nil]
  | succ k ih =>
    have he : i + (k + 1) * chunkSize = i + chunkSize + k * chunkSize := by rw [Nat.succ_mul]; omega
    by_cases h : i < names.length
    · rw [chunkLoop_array names h, List.getElem?_cons_succ, ih, he]
    · rw [chunkLoop_of_le (show names.length ≤ i by omega), List.getElem?_nil, if_neg (by omega)]

lemma chunkLoop_findIdx (names : List Text) (hn : names.Nodup) {file : Text}
    (hf : file ∈ names) (i : ℕ) (hi : i ≤ names.idxOf file) :
    (chunkLoop (.array names) i).findIdx? (fun chunk => decide (file ∈ chunk)) =
      some ((names.idxOf file - i) / chunkSize) := by
  have hl := List.idxOf_lt_length_of_mem hf
  rw [chunkLoop_array names (by omega), List.findIdx?_cons]
  by_cases hw : names.idxOf file < i + chunkSize
  · rw [if_pos (decide_eq_true ((mem_window_iff hn hf hi).mpr hw)), Nat.div_eq_of_lt (by omega)]
  · rw [if_neg (fun h => hw ((mem_window_iff hn hf hi).mp (of_decide_eq_true h))),
      chunkLoop_findIdx names hn hf (i + chunkSize) (by omega), Option.map_some, Option.some.injEq]
    simp only [chunkSize] at hw ⊢
    omega
termination_by names.idxOf file - i
decreasing_by simp only [chunkSize] at *; omega

lemma ofNames_array {names : List Text} (h : names.length ≠ 1) :
    chunks names = chunkLoop (.array names) 0 := by
  match names with
  | [] =>
    rw [chunks, chunkLoop_of_le, chunkLoop_of_le]
    · exact le_refl 0
    · exact le_refl 0
  | [_] => simp at h
  | _ :: _ :: _ => rfl

lemma partOf_array {names : List Text} (h : names.length ≠ 1) (hn : names.Nodup) {file : Text}
    (hf : file ∈ names) : partOf names file = some (partNumber (names.idxOf file)) := by
  rw [partOf, ofNames_array h, chunkLoop_findIdx names hn hf 0 (Nat.zero_le _)]
  rfl

lemma chunks_single (name : Text) : chunks [name] = [(name.take 1).map (fun c => [c])] := by
  rw [chunks, chunkLoop, if_pos (show 0 < (FileList.ofNames [name]).count from Nat.one_pos),
    chunkLoop_of_le (show 1 ≤ 0 + chunkSize by simp [chunkSize])]
  rfl

lemma partOf_single (file : Text) :
    partOf [file] file = if file.length = 1 then some 1 else none := by
  rw [partOf, chunks_single]
  match file with
  | [] => rfl
  | [c] => simp
  | c :: d :: rest => simp

lemma chunk_sublist {names chunk : List Text} {k : ℕ} (h : names.length ≠ 1)
    (hc : (chunks names)[k]? = some chunk) :
    chunk = (names.drop (k * chunkSize)).take chunkSize := by
  rw [ofNames_array h, chunkLoop_getElem?, Nat.zero_add] at hc
  split_ifs at hc
  exact (Option.some.inj hc).symm

lemma chunk_single {name : Text} {chunk : List Text} {k : ℕ}
    (hc : (chunks [name])[k]? = some chunk) :
    k = 0 ∧ chunk.length ≤ 1 := by
  rw [chunks_single] at hc
  match k with
  | 0 =>
    simp only [List.getElem?_cons_zero, Option.some.injEq] at hc
    subst hc
    simp
  | k + 1 => simp at hc

lemma chunk_nodup {names chunk : List Text} {k : ℕ} (hn : names.Nodup)
    (hc : (chunks names)[k]? = some chunk) :
    chunk.Nodup := by
  by_cases h : names.length = 1
  · obtain ⟨name, rfl⟩ := List.length_eq_one_iff.mp h
    obtain ⟨_, hl⟩ := chunk_single hc
    match chunk, hl with
    | [], _ => exact List.nodup_nil
    | [_], _ => exact List.nodup_singleton _
  · rw [chunk_sublist h hc]
    exact ((List.take_sublist _ _).trans (List.drop_sublist _ _)).nodup hn

lemma chunk_unique {names c c' : List Text} {j k : ℕ} (hn : names.Nodup)
    (hc : (chunks names)[j]? = some c)
    (hc' : (chunks names)[k]? = some c') {name : Text} (hm : name ∈ c)
    (hm' : name ∈ c') : j = k := by
  by_cases h : names.length = 1
  · obtain ⟨_, rfl⟩ := List.length_eq_one_iff.mp h
    rw [(chunk_single hc).1, (chunk_single hc').1]
  · have hidx : ∀ {i : ℕ}, name ∈ (names.drop (i * chunkSize)).take chunkSize →
        i * chunkSize ≤ names.idxOf name ∧ names.idxOf name < i * chunkSize + chunkSize := by
      intro i hi
      obtain ⟨l, hl, he⟩ := List.mem_take_iff_getElem.mp hi
      rw [List.length_drop] at hl
      rw [List.getElem_drop] at he
      have := hn.idxOf_getElem (i * chunkSize + l) (by omega)
      rw [he] at this
      omega
    rw [chunk_sublist h hc] at hm
    rw [chunk_sublist h hc'] at hm'
    have h1 := hidx hm
    have h2 := hidx hm'
    simp only [chunkSize] at h1 h2
    omega

lemma masterIndex_of_mem {masterList : List Text} {file : Text} (h : file ∈ masterList) :
    masterIndex masterList file = some (masterList.idxOf file) := by
  induction masterList with
  | nil => simp at h
  | cons name masterList ih =>
    rw [masterIndex, List.idxOf?_cons]
    by_cases he : name = file
    · simp [he]
    · have hm := ih ((List.mem_cons.mp h).resolve_left (fun e => he e.symm))
      rw [masterIndex] at hm
      simp [he, hm, List.idxOf_cons_ne]

/-- How many names listed before the file the hasher left out. -/
def skippedBefore (listed hashed : List Text) (file : Text) : ℕ :=
  ((listed.takeWhile (fun name => decide (name ≠ file))).filter
    (fun name => decide (name ∉ hashed))).length

lemma idxOf_add_skipped {listed hashed : List Text} (hs : hashed.Sublist listed) (hn : listed.Nodup)
    {file : Text} (hf : file ∈ hashed) :
    hashed.idxOf file + skippedBefore listed hashed file = listed.idxOf file := by
  induction hs with
  | slnil => simp at hf
  | @cons hashed listed a hs ih =>
    rw [List.nodup_cons] at hn
    have ha : a ∉ hashed := fun h => hn.1 (hs.subset h)
    have hne : a ≠ file := fun h => ha (h ▸ hf)
    have := ih hn.2 hf
    rw [List.idxOf_cons_ne _ hne, ← this, skippedBefore,
      List.takeWhile_cons_of_pos (by simpa using hne),
      List.filter_cons_of_pos (by simpa using ha), List.length_cons, skippedBefore]
    omega
  | @cons_cons hashed listed a hs ih =>
    rw [List.nodup_cons] at hn
    by_cases he : a = file
    · subst he
      simp [skippedBefore]
    · have hfm : file ∈ hashed := (List.mem_cons.mp hf).resolve_left (fun h => he h.symm)
      have := ih hn.2 hfm
      rw [List.idxOf_cons_ne _ he, List.idxOf_cons_ne _ he, ← this, skippedBefore,
        List.takeWhile_cons_of_pos (by simpa using he), List.filter_cons_of_neg (by simp)]
      have hc : (listed.takeWhile (fun name => decide (name ≠ file))).filter
          (fun name => decide (name ∉ a :: hashed)) =
          (listed.takeWhile (fun name => decide (name ≠ file))).filter
            (fun name => decide (name ∉ hashed)) := by
        apply List.filter_congr
        intro name hname
        have hna : name ≠ a := fun h => hn.1 (h ▸ (List.takeWhile_sublist _).subset hname)
        simp [hna]
      rw [hc, skippedBefore]
      omega

theorem part_numbers_agree_iff (listed hashed : List Text) (hn : listed.Nodup)
    (hs : hashed.Sublist listed) (file : Text) (hf : file ∈ hashed) :
    partOf hashed file = (masterIndex listed file).map partNumber ↔
      skippedBefore listed hashed file ≤ listed.idxOf file % chunkSize ∧
        (hashed.length = 1 → file.length = 1) := by
  have hskip := idxOf_add_skipped hs hn hf
  rw [masterIndex_of_mem (hs.subset hf), Option.map_some]
  by_cases h1 : hashed.length = 1
  · obtain ⟨name, rfl⟩ := List.length_eq_one_iff.mp h1
    obtain rfl := List.mem_singleton.mp hf
    rw [List.idxOf_cons_self, Nat.zero_add] at hskip
    rw [partOf_single, hskip]
    by_cases hl : file.length = 1
    · simp only [hl, if_true, Option.some.injEq, partNumber, chunkSize, implies_true, and_true]
      omega
    · simp [hl]
  · rw [partOf_array h1 (hs.nodup hn) hf, Option.some.injEq]
    simp only [h1, false_imp_iff, and_true, partNumber, chunkSize]
    omega

theorem part_numbers_agree_second_unreadable :
    partOf ["E:\\a".toList, "E:\\c".toList] "E:\\c".toList =
      (masterIndex ["E:\\a".toList, "E:\\b".toList, "E:\\c".toList] "E:\\c".toList).map
        partNumber :=
  (part_numbers_agree_iff ["E:\\a".toList, "E:\\b".toList, "E:\\c".toList]
    ["E:\\a".toList, "E:\\c".toList]
    (by decide) (by decide) "E:\\c".toList (by decide)).mpr ⟨by decide, by decide⟩

def numberedName (n : ℕ) : Text := "E:\\".toList ++ decimal n

lemma numberedName_injective : Function.Injective numberedName :=
  fun _ _ h => decimal_injective (List.append_cancel_left h)

/-- `E:\0`, `E:\1`, ..., `E:\25000` -/
def numberedList : List Text := (List.range (chunkSize + 1)).map numberedName

lemma numberedList_length : numberedList.length = chunkSize + 1 := by
  rw [numberedList, List.length_map, List.length_range]

lemma numberedList_nodup : numberedList.Nodup := List.nodup_range.map numberedName_injective

lemma numberedList_getElem {n : ℕ} (h : n < numberedList.length) :
    numberedList[n] = numberedName n := by
  simp only [numberedList, List.getElem_map, List.getElem_range]

lemma numberedList_last :
    numberedName chunkSize ∈ numberedList ∧ numberedName chunkSize ∈ numberedList.tail := by
  have h : chunkSize < numberedList.length := by rw [numberedList_length]; omega
  have ht : chunkSize - 1 < numberedList.tail.length := by
    rw [List.length_tail, numberedList_length]
    simp [chunkSize]
  constructor
  · rw [← numberedList_getElem h]
    exact List.getElem_mem h
  · have := List.getElem_mem ht
    rwa [List.getElem_tail, numberedList_getElem] at this

/-- The file after the chunk boundary is put in part 1 when the first file could not be read. -/
theorem part_number_off_by_one :
    numberedList.Nodup ∧ numberedList.tail.Sublist numberedList ∧
      numberedName chunkSize ∈ numberedList.tail ∧
      partOf numberedList.tail (numberedName chunkSize) = some 1 ∧
      (masterIndex numberedList (numberedName chunkSize)).map partNumber = some 2 := by
  obtain ⟨hm, ht⟩ := numberedList_last
  have hl : chunkSize < numberedList.length := by rw [numberedList_length]; omega
  have htl : chunkSize - 1 < numberedList.tail.length := by
    rw [List.length_tail, numberedList_length]
    simp [chunkSize]
  have hi : numberedList.idxOf (numberedName chunkSize) = chunkSize := by
    have := numberedList_nodup.idxOf_getElem chunkSize hl
    rwa [numberedList_getElem] at this
  have hti : numberedList.tail.idxOf (numberedName chunkSize) = chunkSize - 1 := by
    have := numberedList_nodup.tail.idxOf_getElem (chunkSize - 1) htl
    rwa [List.getElem_tail, numberedList_getElem] at this
  refine ⟨numberedList_nodup, List.tail_sublist _, ht, ?_, ?_⟩
  · rw [partOf_array _ numberedList_nodup.tail ht, hti]
    · rfl
    · rw [List.length_tail, numberedList_length]
      simp [chunkSize]
  · rw [masterIndex_of_mem hm, hi]
    rfl

end DriveIntegrity.Integrity
