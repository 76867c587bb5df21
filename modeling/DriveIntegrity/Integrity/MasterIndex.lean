import DriveIntegrity.Integrity.Partition
import DriveIntegrity.Integrity.Recovery
import DriveIntegrity.Library.CodePage
import DriveIntegrity.Library.Lines

/-! The repair step looks corrupt files up in `baseline_files.txt` as `Get-Content` reads it. -/

namespace DriveIntegrity.Integrity

variable (C : Culture) (D : Decoder) (P : CodePage)

/-- The list `FileListGen` writes for a drive mounted at `X`: UTF-8 without a byte order mark. -/
def fileListGen (X : DriveLetter) (paths : List RootPath) : List UInt8 :=
  paths.flatMap (fun p => utf8 (absolute X p) ++ [10])

/-- `Get-Content` without `-Encoding` on a file without a byte order mark. -/
def getContent (bytes : List UInt8) : List Text := textLines (D.decode bytes)

section Condition

variable (X Y : DriveLetter) (listed : List RootPath)

/-- The line written for a listed path decodes to `name`, and no line before it does. -/
def DecodesTo (p : RootPath) (name : Text) : Prop :=
  (getContent D (fileListGen X listed))[listed.idxOf p]? = some name ∧
    name ∉ (getContent D (fileListGen X listed)).take (listed.idxOf p)

def DecodesToItself (p : RootPath) : Prop := DecodesTo D X listed p (absolute X p)

/-- The coincidence: the line decodes to another name, and that is the one the scan prints. -/
def Misread (p q : RootPath) : Prop :=
  absolute X p ≠ absolute Y q ∧ DecodesTo D X listed p (absolute Y q)

def ListDecodesToItself : Prop := getContent D (fileListGen X listed) = listed.map (absolute X)

end Condition

def listedName (X : DriveLetter) (p : RootPath) : Text := P.decode (utf8 (absolute X p))

lemma letter_range (X : DriveLetter) : 65 ≤ X.val.toNat ∧ X.val.toNat ≤ 122 := by
  have ha : (decide (X.val.val ≥ 'A'.val ∧ X.val.val ≤ 'Z'.val) ||
      (decide (X.val.val ≥ 'a'.val) && decide (X.val.val ≤ 'z'.val))) = true := X.property
  have hv : X.val.val.toNat = X.val.toNat := rfl
  have hA : 'A'.val.toNat = 65 := rfl
  have hZ : 'Z'.val.toNat = 90 := rfl
  have ha' : 'a'.val.toNat = 97 := rfl
  have hz : 'z'.val.toNat = 122 := rfl
  simp only [Bool.or_eq_true, Bool.and_eq_true, decide_eq_true_eq, UInt32.le_iff_toNat_le,
    ge_iff_le] at ha
  omega

lemma absolute_printable (X : DriveLetter) (p : RootPath) : ∀ c ∈ absolute X p, 32 ≤ c.toNat := by
  intro c hc
  rcases List.mem_cons.mp hc with rfl | hc
  · exact (letter_range X).1.trans' (by norm_num)
  rcases List.mem_cons.mp hc with rfl | hc
  · decide
  · exact (p.allowed c hc).2

lemma ascii_absolute (X : DriveLetter) (p : RootPath) : Ascii (absolute X p) ↔ Ascii p.text := by
  have hX : X.val.toNat < 128 := lt_of_le_of_lt (letter_range X).2 (by norm_num)
  simp [Ascii, absolute, hX]

lemma absolute_inj {X Y : DriveLetter} {p q : RootPath} :
    absolute X p = absolute Y q ↔ X = Y ∧ p = q := by
  constructor
  · intro h
    rw [absolute, absolute, List.cons.injEq, List.cons.injEq] at h
    refine ⟨Subtype.ext h.1, ?_⟩
    cases p
    cases q
    congr
    exact h.2.2
  · rintro ⟨rfl, rfl⟩
    rfl

lemma listedName_oneLine (X : DriveLetter) (p : RootPath) : OneLine (listedName P X p) := by
  have hlow : ∀ d : Char, d.toNat < 32 → d ∉ listedName P X p := by
    intro d hd hm
    have := absolute_printable X p d (mem_of_mem_decode P hm (by omega))
    omega
  intro c hc
  exact ⟨fun h => hlow '\n' (by decide) (h ▸ hc), fun h => hlow '\r' (by decide) (h ▸ hc)⟩

lemma absolute_oneLine (X : DriveLetter) (p : RootPath) : OneLine (absolute X p) := by
  intro c hc
  have h32 := absolute_printable X p c hc
  exact ⟨fun h => by simp [h] at h32, fun h => by simp [h] at h32⟩

lemma fileListGen_eq (X : DriveLetter) (paths : List RootPath) :
    fileListGen X paths = utf8 ((paths.map (absolute X)).flatMap (fun line => line ++ ['\n'])) := by
  have hbreak : utf8 ['\n'] = [10] := rfl
  induction paths with
  | nil => rfl
  | cons p paths ih =>
    rw [fileListGen, List.flatMap_cons, List.map_cons, List.flatMap_cons, utf8_append,
      utf8_append, hbreak, ← ih]
    rfl

lemma listDecodesToItself_of_decode {X : DriveLetter} {listed : List RootPath}
    (h : D.decode (fileListGen X listed) =
      (listed.map (absolute X)).flatMap (fun line => line ++ ['\n'])) :
    ListDecodesToItself D X listed := by
  rw [ListDecodesToItself, getContent, h, textLines_terminated]
  intro line hl
  obtain ⟨p, _, rfl⟩ := List.mem_map.mp hl
  exact absolute_oneLine X p

lemma listDecodesToItself_ascii {X : DriveLetter} {listed : List RootPath}
    (h : ∀ p ∈ listed, Ascii p.text) :
    ListDecodesToItself D X listed := by
  refine listDecodesToItself_of_decode D ?_
  rw [fileListGen_eq]
  refine D.ascii _ ?_
  intro c hc
  obtain ⟨line, hline, hc⟩ := List.mem_flatMap.mp hc
  obtain ⟨p, hp, rfl⟩ := List.mem_map.mp hline
  rcases List.mem_append.mp hc with hc | hc
  · exact (ascii_absolute X p).mpr (h p hp) c hc
  · rw [List.mem_singleton.mp hc]
    decide

lemma listDecodesToItself_utf8 (X : DriveLetter) (listed : List RootPath) :
    ListDecodesToItself utf8Decoder X listed := by
  refine listDecodesToItself_of_decode _ ?_
  rw [fileListGen_eq]
  exact utf8Decode_utf8 _

lemma getContent_fileListGen (X : DriveLetter) (paths : List RootPath) :
    getContent P.decoder (fileListGen X paths) = paths.map (listedName P X) := by
  have hbreak : P.decode [10] = ['\n'] := by
    have hb : P.char 10 = '\n' := Char.toNat_inj.mp (by rw [P.ascii 10 (by decide)]; rfl)
    rw [CodePage.decode, List.map_cons, List.map_nil, hb]
  have hdecode : P.decode (fileListGen X paths) =
      (paths.map (listedName P X)).flatMap (fun line => line ++ ['\n']) := by
    induction paths with
    | nil => rfl
    | cons p paths ih =>
      rw [List.map_cons, List.flatMap_cons, ← ih, fileListGen, List.flatMap_cons, decode_append,
        decode_append, hbreak]
      rfl
  have hpage : P.decoder.decode (fileListGen X paths) = P.decode (fileListGen X paths) := rfl
  rw [getContent, hpage, hdecode, textLines_terminated]
  intro line hl
  obtain ⟨p, _, rfl⟩ := List.mem_map.mp hl
  exact listedName_oneLine P X p

lemma listedName_eq_iff (X Y : DriveLetter) (p q : RootPath)
    (hlen : p.text.length = q.text.length) :
    listedName P X p = absolute Y q ↔ X = Y ∧ p = q ∧ Ascii p.text := by
  rw [listedName, ← ascii_absolute X]
  constructor
  · intro h
    have hl : (P.decode (utf8 (absolute X p))).length = (absolute X p).length := by
      rw [h]
      simp [absolute, hlen]
    have ha := (length_decode P _).2 hl
    rw [decode_ascii P ha, absolute_inj] at h
    exact ⟨h.1, h.2, ha⟩
  · rintro ⟨rfl, rfl, ha⟩
    exact decode_ascii P ha

lemma masterIndex_eq_some_iff {masterList : List Text} {file : Text} {i : ℕ} :
    masterIndex masterList file = some i ↔
      ∃ h : i < masterList.length, masterList[i] = file ∧ ∀ j (_ : j < i), ¬ masterList[j] = file :=
  List.idxOf?_eq_some_iff

lemma masterIndex_iff_decodesTo {X : DriveLetter} {listed : List RootPath} {p : RootPath}
    {name : Text} :
    masterIndex (getContent D (fileListGen X listed)) name = some (listed.idxOf p) ↔
      DecodesTo D X listed p name := by
  rw [masterIndex_eq_some_iff, DecodesTo, List.getElem?_eq_some_iff]
  constructor
  · rintro ⟨h, hi, hbefore⟩
    refine ⟨⟨h, hi⟩, fun hm => ?_⟩
    obtain ⟨j, hj, he⟩ := List.mem_take_iff_getElem.mp hm
    exact hbefore j (lt_of_lt_of_le hj (min_le_left _ _)) he
  · rintro ⟨⟨h, hi⟩, hbefore⟩
    refine ⟨h, hi, fun j hj he => hbefore ?_⟩
    exact List.mem_take_iff_getElem.mpr ⟨j, lt_min hj (hj.trans h), he⟩

/-- The lookup of a printed name gives the index of a listed path for two reasons only. -/
lemma masterIndex_iff {X Y : DriveLetter} {listed : List RootPath} {p q : RootPath} :
    masterIndex (getContent D (fileListGen X listed)) (absolute Y q) = some (listed.idxOf p) ↔
      (X = Y ∧ p = q ∧ DecodesToItself D X listed p) ∨ Misread D X Y listed p q := by
  rw [masterIndex_iff_decodesTo, Misread, ← and_assoc, ← absolute_inj, DecodesToItself]
  by_cases h : absolute X p = absolute Y q
  · rw [h]
    simp
  · simp [h]

lemma decodesTo_iff_of_list {X : DriveLetter} {listed : List RootPath}
    (hk : ListDecodesToItself D X listed)
    {p : RootPath} (hp : p ∈ listed) (name : Text) : DecodesTo D X listed p name ↔
      name = absolute X p := by
  have hi := List.idxOf_lt_length_of_mem hp
  have hget : (listed.map (absolute X))[listed.idxOf p]? = some (absolute X p) := by
    rw [List.getElem?_map, List.getElem?_idxOf hp, Option.map_some]
  rw [ListDecodesToItself] at hk
  rw [DecodesTo, hk, hget, Option.some.injEq]
  constructor
  · exact fun h => h.1.symm
  · rintro rfl
    refine ⟨rfl, fun hm => ?_⟩
    obtain ⟨j, hj, he⟩ := List.mem_take_iff_getElem.mp hm
    rw [List.getElem_map, absolute_inj] at he
    -- an earlier entry reads the same only if it is the same path
    have := List.not_of_lt_findIdx (lt_of_lt_of_le hj (min_le_left _ _))
    simp [he.2] at this

lemma masterIndex_iff_of_list {X Y : DriveLetter} {listed : List RootPath}
    (hk : ListDecodesToItself D X listed) {p q : RootPath} (hp : p ∈ listed) :
    masterIndex (getContent D (fileListGen X listed)) (absolute Y q) = some (listed.idxOf p) ↔
      X = Y ∧ p = q := by
  rw [masterIndex_iff_decodesTo, decodesTo_iff_of_list D hk hp, eq_comm, absolute_inj]

lemma masterIndex_iff_of_page (X Y : DriveLetter) (listed : List RootPath) {p q : RootPath}
    (hp : p ∈ listed) (hlen : p.text.length = q.text.length) :
    masterIndex (getContent P.decoder (fileListGen X listed)) (absolute Y q) =
      some (listed.idxOf p) ↔
      X = Y ∧ p = q ∧ Ascii p.text := by
  have hi := List.idxOf_lt_length_of_mem hp
  rw [getContent_fileListGen, masterIndex_eq_some_iff]
  simp only [List.getElem_map, List.length_map, List.getElem_idxOf hi]
  constructor
  · rintro ⟨_, h, _⟩
    exact (listedName_eq_iff P X Y p q hlen).mp h
  · intro h
    refine ⟨hi, (listedName_eq_iff P X Y p q hlen).mpr h, ?_⟩
    obtain ⟨rfl, rfl, ha⟩ := h
    intro j hj he
    rw [listedName, decode_eq_ascii_iff P ((ascii_absolute X p).mpr ha), absolute_inj] at he
    have := List.not_of_lt_findIdx hj
    simp [he.2] at this

variable {C} in
lemma Matches.length_eq {b c : File} (h : Matches C b c) :
    b.path.text.length = c.path.text.length := by
  have hl := congrArg List.length h
  simpa [foldedPath] using hl

/-- A corrupt file is found when the letter and the spelling are those of the baseline and its line
of the list decodes to itself, and otherwise only by the coincidence of `Misread`. A list that
decodes to itself leaves the letter and the spelling, a single-byte page these and plain ASCII. -/
theorem corrupt_file_found_iff (cOrder bOrder : IterationOrder Text) (X Y : DriveLetter)
    (bs cs : List File)
    (hb : DistinctPaths C X bs) (hc : DistinctPaths C Y cs)
    (hp : ∀ f ∈ bs ++ cs, (C.parse f.mtime).isSome)
    (listed : List RootPath) (hl : ∀ b ∈ bs, b.path ∈ listed) :
    ∃ r, compareDrives C cOrder bOrder X Y bs cs = some r ∧
      ∀ name ∈ r.corList, ∃ b ∈ bs, ∃ c ∈ cs, name = printedName Y c ∧ Matches C b c ∧
        (masterIndex (getContent D (fileListGen X listed)) name = some (listed.idxOf b.path) ↔
          (X = Y ∧ b.path = c.path ∧ DecodesToItself D X listed b.path) ∨
          Misread D X Y listed b.path c.path) ∧
        (ListDecodesToItself D X listed →
          (masterIndex (getContent D (fileListGen X listed)) name = some (listed.idxOf b.path) ↔
            X = Y ∧ b.path = c.path)) ∧
        ∀ P : CodePage, D = P.decoder →
          (masterIndex (getContent D (fileListGen X listed)) name = some (listed.idxOf b.path) ↔
            X = Y ∧ b.path = c.path ∧ Ascii b.path.text) := by
  obtain ⟨r, hr, _, _, _, hcor⟩ := compareDrives_eq C X Y cOrder bOrder hb.keys hc.keys hp
  refine ⟨r, hr, ?_⟩
  intro name hname
  obtain ⟨c, hcm, rfl⟩ := List.mem_map.mp (hcor.mem_iff.mp hname)
  obtain ⟨hcc, hex⟩ := List.mem_filter.mp hcm
  obtain ⟨b, hbm, hm, _⟩ := of_decide_eq_true hex
  refine ⟨b, hbm, c, hcc, rfl, hm, masterIndex_iff D,
    fun hk => masterIndex_iff_of_list D hk (hl b hbm), ?_⟩
  rintro P rfl
  exact masterIndex_iff_of_page P X Y listed (hl b hbm) hm.length_eq

section Example

def noteAt (md5 : String) : List File :=
  [sampleFile "\\note" (by decide) md5 "2024-03-01T10:00:00Z"]

def cafeAt (md5 : String) : List File :=
  [sampleFile "\\café" (by decide) md5 "2024-03-01T10:00:00Z"]

def mountE : DriveLetter := ⟨'E', isAlpha_E⟩

def mountF : DriveLetter := ⟨'F', isAlpha_F⟩

/-- Under code page 65001 the rotted `E:\café` is found. -/
theorem corrupt_file_found_same_mount :
    ∃ r,
    compareDrives plainCulture .listed .listed mountE mountE (cafeAt "a0") (cafeAt "a1") = some r ∧
      ∀ name ∈ r.corList,
      masterIndex (getContent utf8Decoder (fileListGen mountE ((cafeAt "a0").map File.path)))
        name = some 0 := by
  obtain ⟨r, hr, hall⟩ :=
    corrupt_file_found_iff plainCulture utf8Decoder .listed .listed mountE mountE
    (cafeAt "a0") (cafeAt "a1") (by decide +kernel) (by decide +kernel) (by decide +kernel)
    ((cafeAt "a0").map File.path) (fun _ hb => List.mem_map_of_mem hb)
  refine ⟨r, hr, fun name hname => ?_⟩
  obtain ⟨b, hb, c, hc, _, _, _, hiff, _⟩ := hall name hname
  obtain rfl := List.mem_singleton.mp hb
  obtain rfl := List.mem_singleton.mp hc
  exact (hiff (listDecodesToItself_utf8 mountE _)).mpr ⟨rfl, rfl⟩

/-- A rotted file is not found after the stick got another letter, nor under its own letter when its
name is not plain ASCII and the page is Windows-1252. -/
theorem corrupt_file_not_found :
    (∃ r, compareDrives plainCulture .listed .listed mountE mountF (noteAt "a0") (noteAt "a1") =
      some r ∧
      r.corList = ["F:\\note".toList] ∧
      masterIndex
        (getContent windows1252.decoder (fileListGen mountE ((noteAt "a0").map File.path)))
        "F:\\note".toList = none) ∧
    ∃ r,
    compareDrives plainCulture .listed .listed mountE mountE (cafeAt "a0") (cafeAt "a1") = some r ∧
      r.corList = ["E:\\café".toList] ∧
      masterIndex
        (getContent windows1252.decoder (fileListGen mountE ((cafeAt "a0").map File.path)))
        "E:\\café".toList = none := by
  refine ⟨⟨⟨[], [], [], ["F:\\note".toList]⟩, ?_, rfl, ?_⟩,
    ⟨[], [], [], ["E:\\café".toList]⟩, ?_, rfl, ?_⟩
  all_goals decide +kernel

end Example

end DriveIntegrity.Integrity
