import DriveIntegrity.Library.Ends
import DriveIntegrity.Parity.Matrix

/-! The grouped elimination of `Galois16RecMatrix` inverts the matrix or names a dependent row. -/

namespace DriveIntegrity.Parity

open Elimination

variable {shape : Shape} {matrix mat : Mat}

/-- Row `k` is solved up to `level`. -/
def Shape.At (shape : Shape) (matrix mat : Mat) (k level : ℕ) : Prop :=
  Row (shape.validCount + shape.numRec) shape.validCount shape.numRec matrix (mat k) k level

/-- A row that the rows above it make up, as far as their columns and its own go. -/
def Shape.Dependent (shape : Shape) (matrix : Mat) (k : ℕ) : Prop :=
  ∃ factor : ℕ → Galois16, ∀ i ≤ k, matrix k (shape.validCount + i) =
    ∑ j ∈ Finset.range k, factor j * matrix j (shape.validCount + i)

def Shape.Sound (shape : Shape) : Prop :=
  ∀ a : Galois16, a ≠ 0 → a * ⟨gf16Recip shape.tables a.word⟩ = 1

lemma sound_gfmatInit (malloc : Tables) (h : shape.tables = gfmatInit malloc) : shape.Sound := by
  intro a ha
  rw [h]
  exact mul_gf16Recip malloc ha

/-- Rows `s` to `s + n` put into row `dst`, whose words in their columns become zero. -/
def eliminate (shape : Shape) (mat : Mat) (dst s n : ℕ) : Mat :=
  Function.update mat dst fun c =>
    (if shape.validCount + s ≤ c ∧ c < shape.validCount + (s + n) then 0 else mat dst c) +
    ∑ i ∈ Finset.range n, mat dst (shape.validCount + s + i) * mat (s + i) c

lemma at_eliminate {dst s n : ℕ} (hn : s + n ≤ shape.numRec) (hdst : dst < s ∨ s + n ≤ dst)
    (h : shape.At matrix mat dst s) (hrows : ∀ i < n, shape.At matrix mat (s + i) (s + n)) :
    shape.At matrix (eliminate shape mat dst s n) dst (s + n) := by
  intro x y hxy
  rw [eliminate, Function.update_self]
  exact (h x y hxy).addRows (by omega) hdst fun i hi => hrows i hi x y hxy

lemma eliminate_of_ne {dst s n r : ℕ} (hr : r ≠ dst) : eliminate shape mat dst s n r = mat r :=
  Function.update_of_ne hr _ _

section Words

lemma foldl_setWord {dst first n : ℕ} (r c : ℕ) :
    (List.range n).foldl (fun mat i => mat.setWord dst (first + i) 0) mat r c =
      if r = dst ∧ first ≤ c ∧ c < first + n then 0 else mat r c := by
  induction n with
  | zero => simp
  | succ n ih =>
    rw [List.range_succ, List.foldl_append, List.foldl_cons, List.foldl_nil, Mat.setWord,
      Function.update_apply]
    split_ifs with hr hin hin
    · obtain rfl := hr
      rw [Function.update_apply, ih]
      split_ifs <;> first | rfl | omega
    · obtain rfl := hr
      rw [Function.update_of_ne (by omega), ih, if_neg (by omega)]
    · exact absurd hin.1 hr
    · rw [ih, if_neg (by tauto)]

lemma mulAddMultiRow_eq {rec dst srcOffs n : ℕ}
    (hdst : dst < rec + srcOffs ∨ rec + srcOffs + n ≤ dst) :
    mulAddMultiRow shape rec dst srcOffs n mat = eliminate shape mat dst (rec + srcOffs) n := by
  have hcol : shape.validCount + rec + srcOffs = shape.validCount + (rec + srcOffs) :=
    add_assoc _ _ _
  funext r c
  rw [mulAddMultiRow, Mat.mulAddMulti, eliminate, hcol]
  rcases eq_or_ne r dst with rfl | hr
  · rw [Function.update_self, Function.update_self, foldl_setWord]
    congr 1
    · exact if_congr (by rw [add_assoc]; simp) rfl rfl
    · refine Finset.sum_congr rfl fun i hi => ?_
      have hi := Finset.mem_range.mp hi
      rw [foldl_setWord, if_neg (by omega)]
  · rw [Function.update_of_ne hr, Function.update_of_ne hr, foldl_setWord, if_neg (by tauto)]

lemma mulAddRow_eq {rec dst src : ℕ} (hdst : dst ≠ rec + src) :
    mulAddRow shape rec dst src mat = eliminate shape mat dst (rec + src) 1 := by
  have hcol : shape.validCount + rec + src = shape.validCount + (rec + src) := add_assoc _ _ _
  have hset (c : ℕ) : mat.setWord dst (shape.validCount + (rec + src)) 0 dst c =
      if shape.validCount + (rec + src) ≤ c ∧ c < shape.validCount + (rec + src + 1) then
        0 else mat dst c := by
    rw [Mat.setWord, Function.update_self, Function.update_apply]
    exact if_congr (by omega) rfl rfl
  have hother {r : ℕ} (hr : r ≠ dst) :
      mat.setWord dst (shape.validCount + (rec + src)) 0 r = mat r :=
    Function.update_of_ne hr _ _
  funext r c
  rw [mulAddRow, eliminate, hcol]
  split_ifs with hzero
  · rcases eq_or_ne r dst with rfl | hr
    · rw [Function.update_self, hset, Finset.sum_range_one, add_zero, hzero, zero_mul, add_zero]
    · rw [Function.update_of_ne hr, hother hr]
  · rcases eq_or_ne r dst with rfl | hr
    · rw [Function.update_self, Function.update_self, hset, hother hdst.symm, Finset.sum_range_one,
        add_zero, add_zero]
    · rw [Function.update_of_ne hr, Function.update_of_ne hr, hother hr]

end Words

def Levels (shape : Shape) (matrix mat : Mat) (level : ℕ → ℕ) : Prop :=
  ∀ k < shape.numRec, shape.At matrix mat k (level k)

lemma Levels.congr {level level' : ℕ → ℕ} (h : Levels shape matrix mat level)
    (heq : ∀ k < shape.numRec, level' k = level k) : Levels shape matrix mat level' :=
  fun k hk => heq k hk ▸ h k hk

section Schedule

/-- The lines of `scaleRows`, with rows counted from the first of the group. -/
inductive Line
  | scale (row : ℕ)
  | mulAdd (dst src : ℕ)
  | mulAddMulti (dst src n : ℕ)
  deriving DecidableEq

def Line.run (shape : Shape) (rec : ℕ) (mat : Mat) : Line → Except ℕ Mat
  | .scale row => scaleRow shape rec row mat
  | .mulAdd dst src => .ok (mulAddRow shape rec (rec + dst) src mat)
  | .mulAddMulti dst src n => .ok (mulAddMultiRow shape rec (rec + dst) src n mat)

/-- How far the rows of the group are solved after a line, if the line finds them as it needs
them. -/
def Line.check (rows : ℕ) (levels : List ℕ) : Line → Option (List ℕ)
  | .scale row =>
      if row < rows ∧ levels[row]? = some row then some (levels.set row (row + 1)) else none
  | .mulAdd dst src => if dst < rows ∧ src < rows ∧ dst ≠ src ∧ levels[dst]? = some src ∧
      levels[src]? = some (src + 1)
      then some (levels.set dst (src + 1)) else none
  | .mulAddMulti dst src n => if dst < rows ∧ src + n ≤ rows ∧ (dst < src ∨ src + n ≤ dst) ∧
      levels[dst]? = some src ∧
      ∀ i < n, levels[src + i]? = some (src + n) then some (levels.set dst (src + n)) else none

def secondLines (rows : ℕ) : List Line :=
  if rows ≥ 2 then [.mulAdd 1 0, .scale 1, .mulAdd 0 1] else []

def thirdLines (rows : ℕ) : List Line :=
  if rows ≥ 3 then
    if rows ≥ 4 then
      [.mulAddMulti 2 0 2, .scale 2, .mulAddMulti 3 0 2, .mulAdd 3 2, .scale 3, .mulAdd 2 3,
      .mulAddMulti 0 2 2, .mulAddMulti 1 2 2]
    else [.mulAddMulti 2 0 2, .scale 2, .mulAdd 0 2, .mulAdd 1 2]
  else []

def fifthLines (rows : ℕ) : List Line :=
  if rows ≥ 5 then
    if rows ≥ 6 then
      [.mulAddMulti 4 0 4, .scale 4, .mulAddMulti 5 0 4, .mulAdd 5 4, .scale 5, .mulAdd 4 5,
      .mulAddMulti 0 4 2, .mulAddMulti 1 4 2, .mulAddMulti 2 4 2, .mulAddMulti 3 4 2]
    else [.mulAddMulti 4 0 4, .scale 4, .mulAdd 0 4, .mulAdd 1 4, .mulAdd 2 4, .mulAdd 3 4]
  else []

def schedule (rows : ℕ) : List Line :=
  .scale 0 :: (secondLines rows ++ (thirdLines rows ++ fifthLines rows))

lemma scaleRows_eq_schedule (rows rec : ℕ) (mat : Mat) :
    scaleRows shape rows rec mat = (schedule rows).foldlM (Line.run shape rec) mat := by
  have hsecond (mat : Mat) :
      (secondLines rows).foldlM (Line.run shape rec) mat = scaleSecond shape rows rec mat := by
    unfold scaleSecond secondLines
    split_ifs <;> rfl
  have hthird (mat : Mat) :
      (thirdLines rows).foldlM (Line.run shape rec) mat = scaleThird shape rows rec mat := by
    unfold scaleThird thirdLines
    split_ifs <;> rfl
  have hfifth (mat : Mat) :
      (fifthLines rows).foldlM (Line.run shape rec) mat = scaleFifth shape rows rec mat := by
    unfold scaleFifth fifthLines
    split_ifs <;> rfl
  simp only [schedule, List.foldlM_cons, List.foldlM_append, hsecond, hthird, hfifth]
  rfl

/-- The levels of the rows of a group, and of the rows around it. -/
def inGroup (rec rows : ℕ) (levels : List ℕ) (other : ℕ → ℕ) (k : ℕ) : ℕ :=
  if rec ≤ k ∧ k < rec + rows then rec + levels.getD (k - rec) 0 else other k

lemma inGroup_row {rec rows i v : ℕ} {levels : List ℕ} {other : ℕ → ℕ} (hi : i < rows)
    (hv : levels[i]? = some v) :
    inGroup rec rows levels other (rec + i) = rec + v := by
  rw [inGroup, if_pos (by omega), Nat.add_sub_cancel_left, List.getD_eq_getElem?_getD, hv,
    Option.getD_some]

lemma Levels.set {rec rows i v : ℕ} {levels : List ℕ} {other : ℕ → ℕ} {mat' : Mat} (hi : i < rows)
    (hlen : levels.length = rows) (h : Levels shape matrix mat (inGroup rec rows levels other))
    (hrow : shape.At matrix mat' (rec + i) (rec + v)) (hrest : ∀ j ≠ rec + i, mat' j = mat j) :
    Levels shape matrix mat' (inGroup rec rows (levels.set i v) other) := by
  intro k hk
  rcases eq_or_ne k (rec + i) with rfl | hne
  · rw [inGroup_row hi (by rw [List.getElem?_set_self (by omega)])]
    exact hrow
  · have hsame : inGroup rec rows (levels.set i v) other k = inGroup rec rows levels other k := by
      unfold inGroup
      split_ifs with hin
      · rw [List.getD_eq_getElem?_getD, List.getElem?_set_ne (by omega),
          ← List.getD_eq_getElem?_getD]
      · rfl
    rw [hsame, Shape.At, hrest k hne]
    exact h k hk

lemma scaleRow_ends {rec row : ℕ} (hsound : shape.Sound) (hrow : rec + row < shape.numRec)
    (h : shape.At matrix mat (rec + row) (rec + row)) :
    Ends (fun mat' => shape.At matrix mat' (rec + row) (rec + row + 1) ∧ ∀ j ≠ rec + row,
      mat' j = mat j)
      (fun b => b = row ∧ shape.Dependent matrix (rec + row)) (scaleRow shape rec row mat) := by
  have hcol : shape.validCount + rec + row = shape.validCount + (rec + row) := add_assoc _ _ _
  have hset : mat.setWord (rec + row) (shape.validCount + (rec + row)) 1 (rec + row) =
      Function.update (mat (rec + row)) (shape.validCount + (rec + row)) 1 :=
    Function.update_self _ _ _
  have hother {j : ℕ} (hj : j ≠ rec + row) :
      mat.setWord (rec + row) (shape.validCount + (rec + row)) 1 j = mat j :=
    Function.update_of_ne hj _ _
  rw [scaleRow, hcol]
  set tmpCoeff := mat (rec + row) (shape.validCount + (rec + row)) with htmp
  split_ifs with hzero hone
  · exact ⟨rfl, _, fun i hi => h.dependent (by omega) hzero i hi⟩
  · refine ⟨fun x y hxy => ?_, fun j hj => hother hj⟩
    have hscaled := (h x y hxy).scale (by omega) hzero
    rw [← htmp, hone, inv_one] at hscaled
    simpa only [hset, mul_one] using hscaled
  · refine ⟨fun x y hxy => ?_, fun j hj => ?_⟩
    · have hscaled := (h x y hxy).scale (by omega) hzero
      rw [← htmp, inv_eq_of_mul_eq_one_right (hsound tmpCoeff hzero)] at hscaled
      simpa only [Function.update_self, hset] using hscaled
    · rw [Function.update_of_ne hj, hother hj]

lemma Line.run_ends {rec rows : ℕ} {levels levels' : List ℕ} {other : ℕ → ℕ} {line : Line}
    (hsound : shape.Sound)
    (hrows : rec + rows ≤ shape.numRec) (hlen : levels.length = rows)
    (hcheck : line.check rows levels = some levels')
    (h : Levels shape matrix mat (inGroup rec rows levels other)) :
    Ends (fun mat' => Levels shape matrix mat' (inGroup rec rows levels' other))
      (fun b => b < rows ∧ shape.Dependent matrix (rec + b)) (line.run shape rec mat) := by
  have hat {i v : ℕ} (hi : i < rows) (hv : levels[i]? = some v) :
      shape.At matrix mat (rec + i) (rec + v) :=
    inGroup_row hi hv ▸ h (rec + i) (by omega)
  cases line with
  | scale row =>
    simp only [Line.check, Option.ite_none_right_eq_some, Option.some.injEq] at hcheck
    obtain ⟨⟨hlt, hlevel⟩, rfl⟩ := hcheck
    refine (scaleRow_ends hsound (by omega) (hat hlt hlevel)).mono ?_ ?_
    · rintro mat' ⟨hrow, hrest⟩
      exact h.set hlt hlen hrow hrest
    · rintro b ⟨rfl, hdependent⟩
      exact ⟨hlt, hdependent⟩
  | mulAdd dst src =>
    simp only [Line.check, Option.ite_none_right_eq_some, Option.some.injEq] at hcheck
    obtain ⟨⟨hdst, hsrc, hne, hlevel, hsource⟩, rfl⟩ := hcheck
    rw [Line.run, mulAddRow_eq (by omega)]
    refine h.set hdst hlen ?_ fun j hj => eliminate_of_ne hj
    refine at_eliminate (by omega) (by omega) (hat hdst hlevel) fun i hi => ?_
    obtain rfl : i = 0 := by omega
    exact hat hsrc hsource
  | mulAddMulti dst src n =>
    simp only [Line.check, Option.ite_none_right_eq_some, Option.some.injEq] at hcheck
    obtain ⟨⟨hdst, hsrc, hne, hlevel, hsource⟩, rfl⟩ := hcheck
    rw [Line.run, mulAddMultiRow_eq (by omega)]
    refine h.set hdst hlen ?_ fun j hj => eliminate_of_ne hj
    rw [← add_assoc]
    exact at_eliminate (by omega) (by omega) (hat hdst hlevel) fun i hi => by
      rw [add_assoc, add_assoc]
      exact hat (by omega) (hsource i hi)

lemma length_of_check {rows : ℕ} {levels levels' : List ℕ} {line : Line}
    (h : line.check rows levels = some levels') :
    levels'.length = levels.length := by
  cases line <;> simp only [Line.check, Option.ite_none_right_eq_some, Option.some.injEq] at h <;>
    rw [← h.2, List.length_set]

lemma run_lines_ends {rec rows : ℕ} {lines : List Line} {levels levels' : List ℕ} {other : ℕ → ℕ}
    (hsound : shape.Sound) (hrows : rec + rows ≤ shape.numRec) (hlen : levels.length = rows)
    (hcheck : lines.foldlM (Line.check rows) levels = some levels')
    (h : Levels shape matrix mat (inGroup rec rows levels other)) :
    Ends (fun mat' => Levels shape matrix mat' (inGroup rec rows levels' other))
      (fun b => b < rows ∧ shape.Dependent matrix (rec + b))
      (lines.foldlM (Line.run shape rec) mat) := by
  induction lines generalizing levels mat with
  | nil =>
    obtain rfl : levels = levels' := Option.some.inj hcheck
    exact h
  | cons line lines ih =>
    rw [List.foldlM_cons] at hcheck ⊢
    obtain ⟨next, hline, hlines⟩ := Option.bind_eq_some_iff.mp hcheck
    exact Ends.bind (Line.run_ends hsound hrows hlen hline h) fun mat' hmat' =>
      ih ((length_of_check hline).trans hlen) hlines hmat'

/-- Every template instance of `scaleRows` solves its rows. -/
lemma check_schedule {rows : ℕ} (hpos : 0 < rows) (hle : rows ≤ 6) :
    (schedule rows).foldlM (Line.check rows)
    (List.replicate rows 0) = some (List.replicate rows rows) := by
  interval_cases rows <;> decide

lemma scaleRows_ends {rec rows : ℕ} {other : ℕ → ℕ} (hsound : shape.Sound) (hpos : 0 < rows)
    (hle : rows ≤ 6) (hrows : rec + rows ≤ shape.numRec)
    (h : Levels shape matrix mat fun k => if rec ≤ k ∧ k < rec + rows then rec else other k) :
    Ends (fun mat' => Levels shape matrix mat' fun k =>
      if rec ≤ k ∧ k < rec + rows then rec + rows else other k)
      (fun b => b < rows ∧ shape.Dependent matrix (rec + b)) (scaleRows shape rows rec mat) := by
  have hreplicate (v k : ℕ) : inGroup rec rows (List.replicate rows v) other k =
      if rec ≤ k ∧ k < rec + rows then rec + v else other k := by
    unfold inGroup
    split_ifs with hin
    · rw [List.getD_eq_getElem?_getD, List.getElem?_replicate, if_pos (by omega), Option.getD_some]
    · rfl
  have hstart : Levels shape matrix mat (inGroup rec rows (List.replicate rows 0) other) :=
    h.congr fun k _ => hreplicate 0 k
  rw [scaleRows_eq_schedule]
  exact (run_lines_ends hsound hrows List.length_replicate (check_schedule hpos hle) hstart).mono
    (fun mat' hmat' => hmat'.congr fun k _ => (hreplicate rows k).symm) fun b hb => hb

end Schedule

section Sources

variable {rows rec recLast : ℕ}

lemma mem_filledRows {r j : ℕ} (hpos : 0 < rows) (hr : r ≤ rec ∨ rec + rows ≤ r) :
    j ∈ filledRows rows rec recLast r ↔ r ≤ j ∧ j < recLast ∧ (j < rec ∨ rec + rows ≤ j) := by
  fun_induction filledRows rows rec recLast r with
  | case1 hlt ih =>
    rw [ih (by omega)]
    omega
  | case2 r hlt hne ih =>
    rw [List.mem_cons, ih (by omega)]
    omega
  | case3 r hge =>
    simp only [List.not_mem_nil, false_iff]
    omega

lemma nodup_filledRows (hpos : 0 < rows) {r : ℕ} (hr : r ≤ rec ∨ rec + rows ≤ r) :
    (filledRows rows rec recLast r).Nodup := by
  fun_induction filledRows rows rec recLast r with
  | case1 hlt ih => exact ih (by omega)
  | case2 r hlt hne ih =>
    rw [List.nodup_cons, mem_filledRows hpos (by omega)]
    exact ⟨by omega, ih (by omega)⟩
  | case3 => exact List.nodup_nil

lemma mem_targetRows {rec2 j : ℕ} (hrec2 : rec2 < rec ∨ rec + rows ≤ rec2) :
    j ∈ targetRows rows rec recLast rec2 ↔ rec2 ≤ j ∧ j < recLast ∧ (j < rec ∨ rec + rows ≤ j) := by
  fun_induction targetRows rows rec recLast rec2 with
  | case1 rec2 hlt ih =>
    simp only [dite_eq_ite] at ih
    rw [List.mem_cons, ih (by split <;> omega)]
    split <;> omega
  | case2 rec2 hge =>
    simp only [List.not_mem_nil, false_iff]
    omega

lemma nodup_targetRows {rec2 : ℕ} (hrec2 : rec2 < rec ∨ rec + rows ≤ rec2) :
    (targetRows rows rec recLast rec2).Nodup := by
  fun_induction targetRows rows rec recLast rec2 with
  | case1 rec2 hlt ih =>
    simp only [dite_eq_ite] at ih
    rw [List.nodup_cons]
    refine ⟨fun hmem => ?_, ih (by split <;> omega)⟩
    rw [mem_targetRows (by split <;> omega)] at hmem
    split at hmem <;> omega
  | case2 => exact List.nodup_nil

lemma foldl_update {l : List ℕ} (hnodup : l.Nodup) {f : Mat → ℕ → ℕ → Galois16} (mat : Mat)
    (hf : ∀ r ∈ l, ∀ mat', mat' r = mat r → (∀ j ∉ l, mat' j = mat j) → f mat' r = f mat r) :
    l.foldl (fun mat r => Function.update mat r (f mat r)) mat = fun j =>
      if j ∈ l then f mat j else mat j := by
  induction l using List.reverseRecOn with
  | nil => simp
  | append_singleton l r ih =>
    rw [List.nodup_append] at hnodup
    have hr : r ∉ l := fun hmem => hnodup.2.2 r hmem r List.mem_cons_self rfl
    have hbefore := ih hnodup.1 fun k hk mat' hrow hother =>
      hf k (List.mem_append_left _ hk) mat' hrow fun j hj => hother j fun hmem =>
        hj (List.mem_append_left _ hmem)
    have hlast : f (l.foldl (fun mat r => Function.update mat r (f mat r)) mat) r = f mat r := by
      refine hf r (List.mem_append_right _ List.mem_cons_self) _ ?_ fun j hj => ?_ <;> rw [hbefore]
      · exact if_neg hr
      · exact if_neg fun hmem => hj (List.mem_append_left _ hmem)
    rw [List.foldl_append, List.foldl_cons, List.foldl_nil, hlast, hbefore]
    funext j
    rcases eq_or_ne j r with rfl | hne
    · rw [Function.update_self, if_pos (List.mem_append_right _ List.mem_cons_self)]
    · rw [Function.update_of_ne hne]
      exact if_congr (by simp [hne]) rfl rfl

lemma fillCoeffs_eq {recFirst r c : ℕ} (hpos : 0 < rows)
    (hrec : recFirst ≤ rec ∨ rec + rows ≤ recFirst) :
    (fillCoeffs shape rows recFirst recLast rec mat).2 r c =
      if (recFirst ≤ r ∧ r < recLast ∧ (r < rec ∨ rec + rows ≤ r)) ∧
        shape.validCount + rec ≤ c ∧ c < shape.validCount + (rec + rows) then 0 else mat r c := by
  have hrow : (fun (mat : Mat) r => (List.range rows).foldl
      (fun mat c => mat.setWord r (shape.validCount + rec + c) 0) mat) = fun (mat : Mat) r =>
      Function.update mat r fun c =>
        if shape.validCount + rec ≤ c ∧ c < shape.validCount + rec + rows then 0 else mat r c := by
    funext mat r k c
    rw [foldl_setWord, Function.update_apply]
    split_ifs with h1 h2 h3
    · exact (if_pos h1.2).symm
    · exact absurd h1.1 h2
    · rw [h3]
      exact (if_neg fun hin => h1 ⟨h3, hin⟩).symm
    · rfl
  rw [fillCoeffs, hrow, foldl_update (nodup_filledRows hpos hrec)
    (f := fun (mat : Mat) r c =>
      if shape.validCount + rec ≤ c ∧ c < shape.validCount + rec + rows then 0 else mat r c)
    mat (fun r _ mat' hr _ => by rw [hr])]
  simp only [mem_filledRows hpos hrec, ← add_assoc]
  by_cases h1 : recFirst ≤ r ∧ r < recLast ∧ (r < rec ∨ rec + rows ≤ r)
  · rw [if_pos h1]
    exact if_congr (by tauto) rfl rfl
  · rw [if_neg h1, if_neg fun h => h1 h.1]

/-- The rows that a source group of `count` rows from `rec` on is put into. -/
def IsTarget (recFirst recLast rec count r : ℕ) : Prop :=
  recFirst ≤ r ∧ r < recLast ∧ (r < rec ∨ rec + count ≤ r)

instance (recFirst recLast rec count r : ℕ) : Decidable (IsTarget recFirst recLast rec count r) :=
  inferInstanceAs (Decidable (_ ∧ _ ∧ _))

/-- A source group lies among the rows that it is put into only if it is taken at once. -/
structure Apart (rows recFirst recLast rec groups : ℕ) : Prop where
  pos : 0 < rows
  first : recFirst < rec ∨ rec + groups * rows ≤ recFirst
  last : groups = 1 ∨ recLast ≤ rec ∨ rec + groups * rows ≤ recFirst

lemma Apart.mem_targetRows_iff {recFirst groups g r : ℕ}
    (h : Apart rows recFirst recLast rec groups) (hg : g < groups) :
    r ∈ targetRows rows (g * rows + rec) recLast recFirst ↔
      IsTarget recFirst recLast rec (groups * rows) r := by
  have hle : g * rows + rows ≤ groups * rows := by
    rw [← Nat.succ_mul]
    exact Nat.mul_le_mul_right rows hg
  have hfirst := h.first
  rw [mem_targetRows (by omega), IsTarget]
  rcases h.last with rfl | hlast
  · obtain rfl : g = 0 := by omega
    simp only [zero_mul, zero_add, one_mul]
  · omega

lemma Apart.nodup_targetRows {recFirst groups g : ℕ} (h : Apart rows recFirst recLast rec groups)
    (hg : g < groups) :
    (targetRows rows (g * rows + rec) recLast recFirst).Nodup := by
  have hle : g * rows + rows ≤ groups * rows := by
    rw [← Nat.succ_mul]
    exact Nat.mul_le_mul_right rows hg
  have hfirst := h.first
  exact Parity.nodup_targetRows (by omega)

lemma invertLoop_eq {recFirst groups : ℕ} (coeff : ℕ → ℕ → Galois16)
    (hapart : Apart rows recFirst recLast rec groups) (mat : Mat) (r c : ℕ) :
    invertLoop rows recFirst recLast rec (groups * rows) coeff mat r c =
      if IsTarget recFirst recLast rec (groups * rows) r then
        mat r c + ∑ i ∈ Finset.range (groups * rows), coeff (r - recFirst) i * mat (rec + i) c
      else mat r c := by
  rw [invertLoop, Nat.mul_div_cancel _ hapart.pos]
  set step := fun (mat : Mat) (group : ℕ) =>
    (targetRows rows (group * rows + rec) recLast recFirst).foldl
    (fun mat curRec2 => mat.mulAddMulti curRec2 (group * rows + rec) rows
      fun i => coeff (curRec2 - recFirst) (group * rows + i)) mat with hstep
  -- after so many source rows, each target has what those rows bring to it
  have hloop : ∀ g ≤ groups, (List.range g).foldl step mat = fun r c =>
      if IsTarget recFirst recLast rec (groups * rows) r then
        mat r c + ∑ i ∈ Finset.range (g * rows), coeff (r - recFirst) i * mat (rec + i) c
      else mat r c := by
    intro g hg
    induction g with
    | zero =>
      funext r c
      simp
    | succ g ih =>
      have hle : g * rows + rows ≤ groups * rows := by
        rw [← Nat.succ_mul]
        exact Nat.mul_le_mul_right rows hg
      rw [List.range_succ, List.foldl_append, List.foldl_cons, List.foldl_nil, ih (by omega)]
      set before : Mat := fun r c => if IsTarget recFirst recLast rec (groups * rows) r then
        mat r c + ∑ i ∈ Finset.range (g * rows),
        coeff (r - recFirst) i * mat (rec + i) c else mat r c with hbefore
      have hsource (i : ℕ) (hi : i < rows) :
          ¬ IsTarget recFirst recLast rec (groups * rows) (g * rows + rec + i) := by
        rw [IsTarget]
        omega
      have hupdate := foldl_update (hapart.nodup_targetRows (show g < groups from hg)) before
        (f := fun (mat : Mat) r c => mat r c + ∑ i ∈ Finset.range rows,
          coeff (r - recFirst) (g * rows + i) * mat (g * rows + rec + i) c) (by
          intro r _ mat' hr hother
          funext c
          rw [hr]
          refine congrArg _ (Finset.sum_congr rfl fun i hi => ?_)
          rw [hother _ fun hmem =>
            hsource i (Finset.mem_range.mp hi) ((hapart.mem_targetRows_iff hg).mp hmem)])
      refine hupdate.trans ?_
      funext r c
      simp only [hapart.mem_targetRows_iff hg]
      by_cases hr : IsTarget recFirst recLast rec (groups * rows) r
      · simp only [if_pos hr, hbefore]
        rw [Nat.succ_mul, Finset.sum_range_add, ← add_assoc]
        refine congrArg _ (Finset.sum_congr rfl fun i hi => ?_)
        rw [if_neg (hsource i (Finset.mem_range.mp hi)), add_comm (g * rows) rec, add_assoc]
      · simp only [if_neg hr, hbefore]
  rw [hloop groups le_rfl]

lemma applySource_eq {recFirst groups : ℕ} (hgroups : 0 < groups)
    (hapart : Apart rows recFirst recLast rec groups) (r : ℕ) :
    applySource shape rows recFirst recLast rec (groups * rows) mat r =
      if IsTarget recFirst recLast rec (groups * rows) r then
        eliminate shape mat r rec (groups * rows) r else mat r := by
  have hcount : 0 < groups * rows := Nat.mul_pos hgroups hapart.pos
  have hfirst : recFirst ≤ rec ∨ rec + groups * rows ≤ recFirst := hapart.first.imp_left le_of_lt
  have hsource (i : ℕ) (hi : i < groups * rows) :
      (fillCoeffs shape (groups * rows) recFirst recLast rec mat).2 (rec + i) = mat (rec + i) := by
    funext c
    rw [fillCoeffs_eq hcount hfirst, if_neg fun h => ?_]
    omega
  funext c
  rw [applySource, invertLoop_eq _ hapart, fillCoeffs_eq hcount hfirst]
  by_cases htarget : IsTarget recFirst recLast rec (groups * rows) r
  · rw [if_pos htarget, if_pos htarget, eliminate, Function.update_self]
    congr 1
    · exact if_congr (and_iff_right htarget) rfl rfl
    · refine Finset.sum_congr rfl fun i hi => ?_
      have hcoeff : (fillCoeffs shape (groups * rows) recFirst recLast rec mat).1 (r - recFirst) i =
          mat (recFirst + (r - recFirst)) (shape.validCount + rec + i) := rfl
      rw [hsource i (Finset.mem_range.mp hi), hcoeff, Nat.add_sub_cancel' htarget.1]
  · rw [if_neg htarget, if_neg htarget, if_neg fun h => htarget h.1]

lemma Levels.applySource {recFirst groups : ℕ} {level : ℕ → ℕ} (hgroups : 0 < groups)
    (hapart : Apart rows recFirst recLast rec groups) (hrec : rec + groups * rows ≤ shape.numRec)
    (h : Levels shape matrix mat level)
    (hsource : ∀ i < groups * rows, level (rec + i) = rec + groups * rows)
    (htarget : ∀ r, IsTarget recFirst recLast rec (groups * rows) r → level r = rec) :
    Levels shape matrix (applySource shape rows recFirst recLast rec (groups * rows) mat)
      fun r => if IsTarget recFirst recLast rec (groups * rows) r then rec + groups *
        rows else level r := by
  intro k hk
  have hrow : Parity.applySource shape rows recFirst recLast rec (groups * rows) mat k =
      if IsTarget recFirst recLast rec (groups * rows) k then
        eliminate shape mat k rec (groups * rows) k else mat k :=
    applySource_eq hgroups hapart k
  have hlevel := h k hk
  dsimp only
  split_ifs with hin
  · rw [if_pos hin] at hrow
    rw [htarget k hin] at hlevel
    rw [Shape.At, hrow]
    exact at_eliminate hrec hin.2.2 hlevel fun i hi => hsource i hi ▸ h (rec + i) (by omega)
  · rw [if_neg hin] at hrow
    rw [Shape.At, hrow]
    exact hlevel

end Sources

section Groups

variable {rows recStart groups : ℕ}

def Shape.Bad (shape : Shape) (matrix : Mat) (b : ℕ) : Prop :=
  b < shape.numRec ∧ shape.Dependent matrix b

def groupLevel (recStart size done k : ℕ) : ℕ :=
  if recStart ≤ k ∧ k < recStart + size then recStart + done else recStart

lemma normalizeAt_ends {done : ℕ} (hsound : shape.Sound) (hpos : 0 < rows) (hle : rows ≤ 6)
    (hgroup : recStart + groups * rows ≤ shape.numRec) (hdone : done + rows ≤ groups * rows)
    (h : Levels shape matrix mat (groupLevel recStart (groups * rows) done)) :
    Ends (fun mat' => Levels shape matrix mat' (groupLevel recStart (groups * rows) (done + rows)))
      (shape.Bad matrix)
      (normalizeAt shape rows recStart (recStart + groups * rows) (recStart + done) mat) := by
  have hstart : Levels shape matrix mat fun k => if recStart + done ≤ k ∧ k < recStart + done + rows
      then recStart + done else groupLevel recStart (groups * rows) done k := by
    refine h.congr fun k _ => ?_
    unfold groupLevel
    split_ifs <;> omega
  have hscale := scaleRows_ends hsound hpos hle (by omega) hstart
  rw [normalizeAt]
  cases hresult : scaleRows shape rows (recStart + done) mat with
  | error b =>
    obtain ⟨hb, hdependent⟩ := hscale.of_error hresult
    exact ⟨by omega, hdependent⟩
  | ok mat' =>
    have hlevels := hscale.of_ok hresult
    refine Ends.pure ?_
    set recFirst := if recStart = recStart + done then recStart + rows else recStart with hrecFirst
    have hfirst : done = 0 ∧ recFirst = recStart + rows ∨ 0 < done ∧ recFirst = recStart := by
      rw [hrecFirst]
      split_ifs <;> omega
    split_ifs with hall
    · refine hlevels.congr fun k _ => ?_
      unfold groupLevel
      split_ifs <;> omega
    · have hapart : Apart rows recFirst (recStart + groups * rows) (recStart + done) 1 :=
        ⟨hpos, by omega, Or.inl rfl⟩
      have happly := hlevels.applySource one_pos hapart (by omega)
        (fun i hi => by rw [if_pos (by omega), one_mul])
        fun r hr => by
        obtain ⟨hr1, hr2, hr3⟩ := hr
        unfold groupLevel
        split_ifs <;> omega
      rw [one_mul] at happly
      refine happly.congr fun k _ => ?_
      unfold groupLevel
      by_cases htarget : IsTarget recFirst (recStart + groups * rows) (recStart + done) rows k
      · obtain ⟨hk1, hk2, hk3⟩ := id htarget
        rw [if_pos htarget, if_pos (by omega), add_assoc]
      · rw [if_neg htarget]
        unfold IsTarget at htarget
        split_ifs <;> omega

lemma normalize_ends (hsound : shape.Sound) (hpos : 0 < rows) (hle : rows ≤ 6)
    (hgroup : recStart + groups * rows ≤ shape.numRec)
    (h : Levels shape matrix mat fun _ => recStart) :
    Ends
      (fun mat' => Levels shape matrix mat' (groupLevel recStart (groups * rows) (groups * rows)))
      (shape.Bad matrix) (normalize shape rows recStart (groups * rows) mat) := by
  rw [normalize, Nat.mul_div_cancel _ hpos]
  refine Ends.foldlM_range
    (fun i mat => Levels shape matrix mat (groupLevel recStart (groups * rows) (i * rows))) ?_
    fun i hi mat hmat => ?_
  · refine h.congr fun k _ => ?_
    unfold groupLevel
    split_ifs <;> omega
  · have hle' : i * rows + rows ≤ groups * rows := by
      rw [← Nat.succ_mul]
      exact Nat.mul_le_mul_right rows hi
    rw [Nat.succ_mul]
    exact normalizeAt_ends hsound hpos hle hgroup hle' hmat

lemma applyToOthers_levels {fuel recGroup : ℕ} (hpos : 0 < rows) (hgroups : 0 < groups)
    (hsize : 0 < shape.rowGroupSize) (hgroup : recStart + groups * rows ≤ shape.numRec)
    (hfuel : shape.numRec ≤ recGroup + fuel)
    (houtside : recGroup ≤ recStart ∨ recStart + groups * rows ≤ recGroup)
    (h : Levels shape matrix mat fun k => if k < recGroup ∨ recStart ≤ k ∧
      k < recStart + groups * rows
      then recStart + groups * rows else recStart) :
    Levels shape matrix (applyToOthers shape rows recStart (groups * rows) fuel recGroup mat)
      fun _ => recStart + groups * rows := by
  have hcount : 0 < groups * rows := Nat.mul_pos hgroups hpos
  have hend {recGroup : ℕ} {mat : Mat} (hge : shape.numRec ≤ recGroup)
      (h : Levels shape matrix mat fun k =>
      if k < recGroup ∨ recStart ≤ k ∧ k < recStart + groups * rows then recStart + groups * rows
        else recStart) :
      Levels shape matrix mat fun _ => recStart + groups * rows :=
    h.congr fun k hk => (if_pos (Or.inl (by omega))).symm
  induction fuel generalizing recGroup mat with
  | zero => exact hend (by omega) h
  | succ fuel ih =>
    rw [applyToOthers]
    split_ifs with hlt hself
    · refine ih (by omega) (Or.inr (by omega)) (h.congr fun k _ => ?_)
      split_ifs <;> omega
    · simp only
      set size₂ := if recGroup < recStart ∧
        recGroup + (if shape.numRec - recGroup < shape.rowGroupSize
          then shape.numRec - recGroup else shape.rowGroupSize) > recStart then recStart - recGroup
        else if shape.numRec - recGroup < shape.rowGroupSize then shape.numRec - recGroup
          else shape.rowGroupSize
        with hsize₂
      have hbounds : 0 < size₂ ∧ recGroup + size₂ ≤ shape.numRec ∧
          (recGroup + size₂ ≤ recStart ∨ recStart + groups * rows ≤ recGroup) := by
        rw [hsize₂]
        split_ifs <;> omega
      have hapart : Apart rows recGroup (recGroup + size₂) recStart groups :=
        ⟨hpos, by omega, Or.inr (by omega)⟩
      have happly :=
        h.applySource hgroups hapart hgroup (fun i hi => if_pos (Or.inr (by omega))) fun r hr => by
        obtain ⟨hr1, hr2, hr3⟩ := hr
        exact if_neg (by omega)
      refine ih (by omega) (by omega) (happly.congr fun k hk => ?_)
      by_cases htarget : IsTarget recGroup (recGroup + size₂) recStart (groups * rows) k
      · obtain ⟨hk1, hk2, hk3⟩ := id htarget
        rw [if_pos htarget, if_pos (by omega)]
      · rw [if_neg htarget]
        unfold IsTarget at htarget
        split_ifs <;> omega
    · exact hend (by omega) h

lemma curRowGroupSize_eq (rec : ℕ) (hpos : 0 < rows) (hsize : rows ≤ shape.rowGroupSize)
    (hrec : rec + rows ≤ shape.numRec) :
    ∃ groups, 0 < groups ∧ curRowGroupSize shape rows rec = groups * rows ∧
      rec + groups * rows ≤ shape.numRec := by
  unfold curRowGroupSize
  simp only
  split_ifs with hshort
  · refine ⟨(shape.numRec - rec) / rows, Nat.div_pos (by omega) hpos, ?_, ?_⟩
    · have := Nat.div_add_mod' (shape.numRec - rec) rows
      omega
    · have := Nat.div_mul_le_self (shape.numRec - rec) rows
      omega
  · exact ⟨shape.rowGroupSize / rows, Nat.div_pos hsize hpos, rfl, by omega⟩

lemma processRows_ends {fuel rec : ℕ} (hsound : shape.Sound) (hpos : 0 < rows) (hle : rows ≤ 6)
    (hsize : rows ≤ shape.rowGroupSize) (hrows : rows ≤ shape.numRec) (hrec : rec ≤ shape.numRec)
    (hfuel : shape.numRec ≤ rec + fuel) (h : Levels shape matrix mat fun _ => rec) :
    Ends (fun state => Levels shape matrix state.2 (fun _ => state.1) ∧ state.1 ≤ shape.numRec ∧
      shape.numRec < state.1 + rows) (shape.Bad matrix) (processRows shape rows fuel rec mat) := by
  induction fuel generalizing rec mat with
  | zero => exact Ends.pure ⟨h, hrec, by dsimp only; omega⟩
  | succ fuel ih =>
    rw [processRows]
    split_ifs with hmore
    · obtain ⟨groups, hgroups, hcur, hgroup⟩ := curRowGroupSize_eq rec hpos hsize (by omega)
      have hcount : 0 < groups * rows := Nat.mul_pos hgroups hpos
      rw [hcur]
      refine Ends.bind (normalize_ends hsound hpos hle hgroup h) fun mat' hmat' => ?_
      refine ih hgroup (by omega)
        (applyToOthers_levels hpos hgroups (by omega) hgroup (by omega) (Or.inl (by omega)) ?_)
      refine hmat'.congr fun k _ => ?_
      unfold groupLevel
      split_ifs <;> omega
    · exact Ends.pure ⟨h, hrec, by dsimp only; omega⟩

lemma le_rowGroupSize (hle : rows ≤ 6) (hideal : rows ≤ shape.idealInputMultiple)
    (hrows : rows ≤ shape.numRec) :
    rows ≤ shape.rowGroupSize := by
  unfold Shape.rowGroupSize
  omega

lemma invertGroup_ends {state : ℕ × Mat} (hsound : shape.Sound) (hpos : 0 < rows) (hle : rows ≤ 6)
    (h : Levels shape matrix state.2 (fun _ => state.1) ∧ state.1 ≤ shape.numRec) :
    Ends (fun state => (Levels shape matrix state.2 (fun _ => state.1) ∧ state.1 ≤ shape.numRec) ∧
      (rows ≤ shape.idealInputMultiple → rows ≤ shape.numRec → shape.numRec < state.1 + rows))
        (shape.Bad matrix)
      (invertGroup shape state rows) := by
  unfold invertGroup
  split_ifs with hrun
  · refine (processRows_ends hsound hpos hle (le_rowGroupSize hle hrun.1 hrun.2) hrun.2 h.2
      (by omega) h.1).mono ?_
      fun b hb => hb
    exact fun after ⟨hlevels, hstate, hend⟩ => ⟨⟨hlevels, hstate⟩, fun _ _ => hend⟩
  · exact Ends.pure ⟨h, fun h1 h2 => absurd ⟨h1, h2⟩ hrun⟩

/-- The matrix is inverted, or a row is named that the rows above it make up. -/
theorem invert_ends (hsound : shape.Sound) (hideal : 1 ≤ shape.idealInputMultiple)
    (hnum : 1 ≤ shape.numRec) :
    Ends (fun mat => ∀ k < shape.numRec, shape.At matrix mat k shape.numRec) (shape.Bad matrix)
      (invert shape matrix) := by
  have hstart : Levels shape matrix (0, matrix).2 (fun _ => (0, matrix).1) ∧
      (0, matrix).1 ≤ shape.numRec :=
    ⟨fun k hk => row_zero hk, Nat.zero_le _⟩
  have hgroup {rows : ℕ} {state : ℕ × Mat} (hpos : 0 < rows) (hle : rows ≤ 6)
      (h : Levels shape matrix state.2 (fun _ => state.1) ∧ state.1 ≤ shape.numRec) :=
    invertGroup_ends hsound hpos hle h
  have hall : Ends (fun state => ∀ k < shape.numRec, shape.At matrix state.2 k shape.numRec)
      (shape.Bad matrix)
      ([6, 5, 4, 3, 2, 1].foldlM (invertGroup shape) (0, matrix)) := by
    simp only [List.foldlM_cons, List.foldlM_nil]
    refine Ends.bind (hgroup (by norm_num) le_rfl hstart) fun s6 h6 => ?_
    refine Ends.bind (hgroup (by norm_num) (by norm_num) h6.1) fun s5 h5 => ?_
    refine Ends.bind (hgroup (by norm_num) (by norm_num) h5.1) fun s4 h4 => ?_
    refine Ends.bind (hgroup (by norm_num) (by norm_num) h4.1) fun s3 h3 => ?_
    refine Ends.bind (hgroup (by norm_num) (by norm_num) h3.1) fun s2 h2 => ?_
    refine Ends.bind (hgroup (by norm_num) (by norm_num) h2.1) fun s1 h1 => ?_
    have hend : s1.1 = shape.numRec := by
      have := h1.2 hideal hnum
      have := h1.1.2
      omega
    exact Ends.pure (h1.1.1.congr fun _ _ => hend.symm)
  exact Ends.bind hall fun state hstate => Ends.pure hstate

end Groups

end DriveIntegrity.Parity
