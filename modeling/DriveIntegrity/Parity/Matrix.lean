import DriveIntegrity.Parity.Coefficients
import DriveIntegrity.Library.Elimination

/-! `Galois16RecMatrix`: the matrix that turns present and recovery blocks into the missing ones. -/

namespace DriveIntegrity.Parity

abbrev Mat : Type := ℕ → ℕ → Galois16

namespace Mat

def setWord (mat : Mat) (r c : ℕ) (v : Galois16) : Mat :=
  Function.update mat r (Function.update (mat r) c v)

/-- `mul_add_multi` of `rows` rows from `src` on, into row `dst` -/
def mulAddMulti (mat : Mat) (dst src rows : ℕ) (coeff : ℕ → Galois16) : Mat :=
  Function.update mat dst fun c => mat dst c + ∑ i ∈ Finset.range rows, coeff i * mat (src + i) c

end Mat

structure Shape where
  tables : Tables
  validCount : ℕ
  numRec : ℕ
  idealInputMultiple : ℕ
  /-- The rows that fit the cache, for all the threads. -/
  cachedRows : ℕ

variable (shape : Shape)

section ScaleRows

/-- `SCALE_ROW`, with the bad row for an error -/
def scaleRow (rec row : ℕ) (mat : Mat) : Except ℕ Mat :=
  let missingCol := shape.validCount + rec
  let tmpCoeff := mat (rec + row) (missingCol + row)
  let mat := mat.setWord (rec + row) (missingCol + row) 1
  if tmpCoeff = 0 then .error row
  else if tmpCoeff = 1 then .ok mat
  else .ok (Function.update mat (rec + row) fun c =>
    mat (rec + row) c * ⟨gf16Recip shape.tables tmpCoeff.word⟩)

def mulAddRow (rec rowDst rowSrc : ℕ) (mat : Mat) : Mat :=
  let missingCol := shape.validCount + rec
  let tmpCoeff := mat rowDst (missingCol + rowSrc)
  let mat := mat.setWord rowDst (missingCol + rowSrc) 0
  if tmpCoeff = 0 then mat
  else Function.update mat rowDst fun c => mat rowDst c + tmpCoeff * mat (rec + rowSrc) c

def mulAddMultiRow (rec rowDst srcOffs numRows : ℕ) (mat : Mat) : Mat :=
  let missingCol := shape.validCount + rec
  let coeff := fun i => mat rowDst (missingCol + srcOffs + i)
  let mat :=
    (List.range numRows).foldl (fun mat i => mat.setWord rowDst (missingCol + srcOffs + i) 0) mat
  mat.mulAddMulti rowDst (rec + srcOffs) numRows coeff

/-- The part of `scaleRows` for `rows >= 2`. -/
def scaleSecond (rows rec : ℕ) (mat : Mat) : Except ℕ Mat :=
  if rows ≥ 2 then do
    let mat ← scaleRow shape rec 1 (mulAddRow shape rec (rec + 1) 0 mat)
    return mulAddRow shape rec (rec + 0) 1 mat
  else return mat

def scaleThird (rows rec : ℕ) (mat : Mat) : Except ℕ Mat :=
  if rows ≥ 3 then
    if rows ≥ 4 then do
      let mat ← scaleRow shape rec 2 (mulAddMultiRow shape rec (rec + 2) 0 2 mat)
      let mat := mulAddRow shape rec (rec + 3) 2 (mulAddMultiRow shape rec (rec + 3) 0 2 mat)
      let mat ← scaleRow shape rec 3 mat
      let mat := mulAddRow shape rec (rec + 2) 3 mat
      return mulAddMultiRow shape rec (rec + 1) 2 2 (mulAddMultiRow shape rec (rec + 0) 2 2 mat)
    else do
      let mat ← scaleRow shape rec 2 (mulAddMultiRow shape rec (rec + 2) 0 2 mat)
      return mulAddRow shape rec (rec + 1) 2 (mulAddRow shape rec (rec + 0) 2 mat)
  else return mat

def scaleFifth (rows rec : ℕ) (mat : Mat) : Except ℕ Mat :=
  if rows ≥ 5 then
    if rows ≥ 6 then do
      let mat ← scaleRow shape rec 4 (mulAddMultiRow shape rec (rec + 4) 0 4 mat)
      let mat := mulAddRow shape rec (rec + 5) 4 (mulAddMultiRow shape rec (rec + 5) 0 4 mat)
      let mat ← scaleRow shape rec 5 mat
      let mat := mulAddRow shape rec (rec + 4) 5 mat
      let mat := (List.range 3).foldl (fun mat r => mulAddMultiRow shape rec (rec + r) 4 2 mat) mat
      return mulAddMultiRow shape rec (rec + 3) 4 2 mat
    else do
      let mat ← scaleRow shape rec 4 (mulAddMultiRow shape rec (rec + 4) 0 4 mat)
      let mat := (List.range 3).foldl (fun mat r => mulAddRow shape rec (rec + r) 4 mat) mat
      return mulAddRow shape rec (rec + 3) 4 mat
  else return mat

def scaleRows (rows rec : ℕ) (mat : Mat) : Except ℕ Mat := do
  let mat ← scaleRow shape rec 0 mat
  let mat ← scaleSecond shape rows rec mat
  let mat ← scaleThird shape rows rec mat
  scaleFifth shape rows rec mat

end ScaleRows

section ApplyRows

/-- The rows that `fillCoeffs` takes coefficients from: the source rows are stepped over. -/
def filledRows (rows rec recLast r : ℕ) : List ℕ :=
  if _h : r < recLast then
    if r = rec then filledRows rows rec recLast (r + (rows - 1) + 1)
    else r :: filledRows rows rec recLast (r + 1)
  else []
termination_by recLast - r

/-- The rows that `invertLoop` adds to: it looks one row ahead for the source rows. -/
def targetRows (rows rec recLast rec2 : ℕ) : List ℕ :=
  if _h : rec2 < recLast then
    rec2 :: targetRows rows rec recLast (if rec2 + 1 = rec then rec2 + 1 + rows else rec2 + 1)
  else []
termination_by recLast - rec2
decreasing_by split <;> omega

/-- `fillCoeffs`: the coefficients are read and replaced by zeros. -/
def fillCoeffs (rows recFirst recLast rec : ℕ) (mat : Mat) : (ℕ → ℕ → Galois16) × Mat :=
  let missingCol := shape.validCount + rec
  (fun r c => mat (recFirst + r) (missingCol + c),
    (filledRows rows rec recLast recFirst).foldl
      (fun mat r => (List.range rows).foldl (fun mat c => mat.setWord r (missingCol + c) 0) mat)
        mat)

def invertLoop (rows recFirst recLast recSrc recSrcCount : ℕ) (rowCoeffs : ℕ → ℕ → Galois16)
    (mat : Mat) : Mat :=
  (List.range (recSrcCount / rows)).foldl (fun mat group =>
    let recI := group * rows
    let rec_ := recI + recSrc
    (targetRows rows rec_ recLast recFirst).foldl
      (fun mat curRec2 => mat.mulAddMulti curRec2 rec_ rows fun i =>
        rowCoeffs (curRec2 - recFirst) (recI + i)) mat) mat

/-- `fillCoeffs` and then `applyRows<rows>` on the same rows, by one thread -/
def applySource (rows recFirst recLast rec recCount : ℕ) (mat : Mat) : Mat :=
  let filled := fillCoeffs shape recCount recFirst recLast rec mat
  invertLoop rows recFirst recLast rec recCount filled.1 filled.2

end ApplyRows

section ProcessRows

def Shape.rowGroupSize : ℕ :=
  min (max shape.cachedRows (min shape.idealInputMultiple 6 * 2)) shape.numRec

def curRowGroupSize (rows rec : ℕ) : ℕ :=
  let aligned := shape.rowGroupSize / rows * rows
  if shape.numRec - rec < aligned then shape.numRec - rec - (shape.numRec - rec) % rows else aligned

/-- One turn of the loop that normalizes a row group, at row `rec` of it. -/
def normalizeAt (rows recStart recEnd rec : ℕ) (mat : Mat) : Except ℕ Mat :=
  let recFirst := if recStart = rec then recStart + rows else recStart
  match scaleRows shape rows rec mat with
  | .error badRowOffset => .error (rec + badRowOffset)
  | .ok mat =>
      .ok (if recFirst = recEnd then mat else applySource shape rows recFirst recEnd rec rows mat)

def normalize (rows recStart size : ℕ) (mat : Mat) : Except ℕ Mat :=
  (List.range (size / rows)).foldlM
    (fun mat i => normalizeAt shape rows recStart (recStart + size) (recStart + i * rows) mat) mat

/-- The current row group is applied to all other row groups, from row `recGroup` on. -/
def applyToOthers (rows recStart size : ℕ) : ℕ → ℕ → Mat → Mat
  | 0, _, mat => mat
  | fuel + 1, recGroup, mat =>
    if recGroup < shape.numRec then
      if recGroup = recStart then applyToOthers rows recStart size fuel (recGroup + size) mat
      else
        let size₂ := shape.rowGroupSize
        let size₂ := if shape.numRec - recGroup < size₂ then shape.numRec - recGroup else size₂
        let size₂ :=
          if recGroup < recStart ∧ recGroup + size₂ > recStart then recStart - recGroup else size₂
        applyToOthers rows recStart size fuel (recGroup + size₂)
          (applySource shape rows recGroup (recGroup + size₂) recStart size mat)
    else mat

/-- `processRows<rows>`, from row `rec` on -/
def processRows (rows : ℕ) : ℕ → ℕ → Mat → Except ℕ (ℕ × Mat)
  | 0, rec, mat => .ok (rec, mat)
  | fuel + 1, rec, mat =>
    if rec ≤ shape.numRec - rows then do
      let size := curRowGroupSize shape rows rec
      let mat ← normalize shape rows rec size mat
      processRows rows fuel (rec + size) (applyToOthers shape rows rec size shape.numRec 0 mat)
    else .ok (rec, mat)

def invertGroup (state : ℕ × Mat) (rows : ℕ) : Except ℕ (ℕ × Mat) :=
  if shape.idealInputMultiple ≥ rows ∧ shape.numRec ≥ rows then
    processRows shape rows shape.numRec state.1 state.2
  else .ok state

def invert (mat : Mat) : Except ℕ Mat :=
  return (← [6, 5, 4, 3, 2, 1].foldlM (invertGroup shape) (0, mat)).2

end ProcessRows

end DriveIntegrity.Parity
