import DriveIntegrity.Parity.Inversion

/-! `Construct` and `Compute`: which recovery blocks are used, and with what factors. -/

namespace DriveIntegrity.Parity

open Elimination

section Construct

structure Columns where
  validCol : ℕ
  missingCol : ℕ
  mat : Mat

def Columns.next (tables : Tables) (inputValid : List Bool) (recovery rows : List ℕ)
    (s : Columns) (input : ℕ) :
    Columns :=
  let inputLog := gfmatInputLog tables input
  let valid := inputValid.getD input false
  let targetCol := if valid then s.validCol else s.missingCol
  { validCol := if valid then s.validCol + 1 else s.validCol
    missingCol := if valid then s.missingCol else s.missingCol + 1
    mat := rows.foldl
      (fun mat rec =>
        mat.setWord rec targetCol ⟨gfmatCoeffFromLog tables inputLog (recovery.getD rec 0)⟩) s.mat }

def constructViaExp (shape : Shape) (inputValid : List Bool) (recovery rows : List ℕ) (mat : Mat) :
    Mat :=
  ((List.range inputValid.length).foldl (Columns.next shape.tables inputValid recovery rows)
    ⟨0, shape.validCount, mat⟩).mat

/-- `recSkips`, from row `rec` on, after a row with the exponent `lastExp` -/
def recSkips (recovery : List ℕ) (numRec maxSkips rec lastExp : ℕ) (skips : List ℕ) : List ℕ :=
  if _h : rec < numRec then
    let exp := recovery.getD rec 0
    if exp ≠ lastExp + 1 then
      let skips := skips ++ [rec]
      if skips.length ≥ maxSkips then skips
      else recSkips recovery numRec maxSkips (rec + 1) exp skips
    else recSkips recovery numRec maxSkips (rec + 1) exp skips
  else skips
termination_by numRec - rec

/-- The rows that are not skips, each the product of the row of exponent 1 and the row before it. -/
def multiplyRows (recovery : List ℕ) (recStart : ℕ) (mat : Mat) (rec : ℕ) : Mat :=
  if recovery.getD rec 0 = recovery.getD (rec - 1) 0 + 1 then
    Function.update mat rec fun c => mat recStart c * mat (rec - 1) c
  else mat

def construct (shape : Shape) (canUseFastMul : Bool) (inputValid : List Bool) (recovery : List ℕ)
    (memory : Mat) : Mat :=
  let recStart := if recovery.getD 0 0 = 0 then 1 else 0
  let mat := if recovery.getD 0 0 = 0 then Function.update memory 0 fun _ => 1 else memory
  let plain :=
    constructViaExp shape inputValid recovery (List.range' recStart (shape.numRec - recStart)) mat
  if recStart ≥ recovery.length then mat
  else if recovery.getD recStart 0 = 1 ∧ canUseFastMul then
    let maxSkips := shape.numRec / 2
    let skips := recSkips recovery shape.numRec maxSkips (recStart + 1) 1 [recStart]
    if skips.length < maxSkips then
      (List.range' (recStart + 1) (shape.numRec - (recStart + 1))).foldl
        (multiplyRows recovery recStart)
        (constructViaExp shape inputValid recovery skips mat)
    else plain
  else plain

end Construct

section Columns

variable {inputValid : List Bool}

def IsValid (inputValid : List Bool) (j : ℕ) : Prop :=
  inputValid.getD j false = true

instance : DecidablePred (IsValid inputValid) :=
  fun j => inferInstanceAs (Decidable (inputValid.getD j false = true))

/-- The input blocks in the order of their columns. -/
def columns (inputValid : List Bool) : List ℕ :=
  (List.range inputValid.length).filter (IsValid inputValid ·) ++
    (List.range inputValid.length).filter (¬ IsValid inputValid ·)

lemma columns_perm : (columns inputValid).Perm (List.range inputValid.length) := by
  have h := List.filter_append_perm (IsValid inputValid ·) (List.range inputValid.length)
  simpa only [columns, decide_not] using h

lemma length_columns : (columns inputValid).length = inputValid.length :=
  columns_perm.length_eq.trans List.length_range

lemma nodup_columns : (columns inputValid).Nodup :=
  columns_perm.nodup_iff.mpr List.nodup_range

lemma length_filter_range (P : ℕ → Prop) [DecidablePred P] (n : ℕ) :
    ((List.range n).filter (P ·)).length = Nat.count P n := by
  induction n with
  | zero => rfl
  | succ n ih =>
    rw [List.range_succ, List.filter_append, List.length_append, ih, Nat.count_succ]
    by_cases hP : P n <;> simp [hP]

lemma getElem?_filter_range (P : ℕ → Prop) [DecidablePred P] {n j : ℕ} (hj : j < n) (hP : P j) :
    ((List.range n).filter (P ·))[Nat.count P j]? = some j := by
  induction n with
  | zero => exact absurd hj (Nat.not_lt_zero j)
  | succ n ih =>
    have hlen := length_filter_range P n
    rw [List.range_succ, List.filter_append]
    rcases Nat.lt_succ_iff_lt_or_eq.mp hj with hlt | rfl
    · have hcount : Nat.count P j < Nat.count P n :=
        lt_of_lt_of_le (by rw [Nat.count_succ, if_pos hP]; omega)
          (Nat.count_monotone P (Nat.succ_le_of_lt hlt))
      rw [List.getElem?_append_left (by omega), ih hlt]
    · rw [List.getElem?_append_right (by omega), hlen, Nat.sub_self]
      simp [hP]

def columnOf (inputValid : List Bool) (j : ℕ) : ℕ :=
  if IsValid inputValid j then Nat.count (IsValid inputValid) j
  else Nat.count (IsValid inputValid) inputValid.length + Nat.count
    (fun i => ¬ IsValid inputValid i) j

lemma columns_columnOf {j : ℕ} (hj : j < inputValid.length) :
    (columns inputValid)[columnOf inputValid j]? = some j := by
  have hlen := length_filter_range (IsValid inputValid) inputValid.length
  rw [columns, columnOf]
  split_ifs with hvalid
  · have hfound := getElem?_filter_range (IsValid inputValid) hj hvalid
    rw [List.getElem?_append_left (List.getElem?_eq_some_iff.mp hfound).1, hfound]
  · have hfound := getElem?_filter_range (fun i => ¬ IsValid inputValid i) hj hvalid
    rw [List.getElem?_append_right (by omega), hlen, Nat.add_sub_cancel_left, hfound]

lemma columnOf_columns {c j : ℕ} (h : (columns inputValid)[c]? = some j) :
    columnOf inputValid j = c := by
  obtain ⟨hc, hj⟩ := List.getElem?_eq_some_iff.mp h
  have hmem : j ∈ List.range inputValid.length := columns_perm.mem_iff.mp (List.mem_of_getElem? h)
  have hfound := columns_columnOf (List.mem_range.mp hmem)
  exact ((List.getElem?_inj hc nodup_columns).mp (h.trans hfound.symm)).symm

end Columns

section Entries

variable {shape : Shape} {malloc : Tables} {inputValid : List Bool} {recovery : List ℕ} {mat : Mat}

/-- The powers that the rows of the recovery blocks are made of. -/
noncomputable def powers (inputValid : List Bool) (recovery : List ℕ) : Mat :=
  fun r c => two ^ (inputLog ((columns inputValid).getD c 0) * recovery.getD r 0)

/-- A row has all its words. -/
def RowSet (inputValid : List Bool) (recovery : List ℕ) (mat : Mat) (r : ℕ) : Prop :=
  ∀ c < inputValid.length, mat r c = powers inputValid recovery r c

lemma foldl_setWord_rows (rows : List ℕ) (col : ℕ) (v : ℕ → Galois16) (mat : Mat) (r c : ℕ) :
    rows.foldl (fun mat rec => mat.setWord rec col (v rec)) mat r c =
      if r ∈ rows ∧ c = col then v r else mat r c := by
  induction rows using List.reverseRecOn with
  | nil => simp
  | append_singleton rows rec ih =>
    rw [List.foldl_append, List.foldl_cons, List.foldl_nil, Mat.setWord, Function.update_apply]
    rcases eq_or_ne r rec with rfl | hne
    · rw [if_pos rfl, Function.update_apply, ih]
      by_cases hc : c = col <;> simp [hc]
    · rw [if_neg hne, ih]
      exact if_congr (by simp [hne]) rfl rfl

/-- What is known after some of the input blocks. -/
structure Entered (shape : Shape) (inputValid : List Bool) (recovery rows : List ℕ)
    (before : Mat) (done : ℕ) (s : Columns) : Prop where
  validCol : s.validCol = Nat.count (IsValid inputValid) done
  missingCol : s.missingCol = shape.validCount + Nat.count (fun i => ¬ IsValid inputValid i) done
  entries : ∀ j < done, ∀ r ∈ rows,
    s.mat r (columnOf inputValid j) = two ^ (inputLog j * recovery.getD r 0)
  others : ∀ r ∉ rows, s.mat r = before r

lemma Entered.next {rows : List ℕ} {before : Mat} {done : ℕ} {s : Columns}
    (htables : shape.tables = gfmatInit malloc)
    (hcount : shape.validCount = Nat.count (IsValid inputValid) inputValid.length)
    (hlen : inputValid.length ≤ 32768)
    (hexp : ∀ e ∈ recovery, e < 65536) (hdone : done < inputValid.length)
    (h : Entered shape inputValid recovery rows before done s) :
    Entered shape inputValid recovery rows before (done + 1)
      (s.next shape.tables inputValid recovery rows done) := by
  have hword (r : ℕ) :
      (⟨gfmatCoeffFromLog shape.tables (gfmatInputLog shape.tables done) (recovery.getD r 0)⟩ :
        Galois16) =
      two ^ (inputLog done * recovery.getD r 0) := by
    have hlt : recovery.getD r 0 < 65536 := by
      rw [List.getD_eq_getElem?_getD]
      cases hr : recovery[r]? with
      | none => exact Nat.zero_lt_succ _
      | some e => exact hexp e (List.mem_of_getElem? hr)
    rw [htables, gfmatCoeffFromLog_eq malloc _ hlt, toNat_gfmatInputLog malloc (by omega)]
  have hcol : (if inputValid.getD done false then s.validCol else s.missingCol) =
      columnOf inputValid done := by
    rw [columnOf, h.validCol, h.missingCol, hcount]
    rfl
  refine ⟨?_, ?_, fun j hj r hr => ?_, fun r hr => ?_⟩
  · rw [Columns.next, Nat.count_succ, ← h.validCol]
    dsimp only [IsValid]
    by_cases hvalid : inputValid.getD done false = true <;>
      simp only [hvalid, if_true, if_false, add_zero, Bool.false_eq_true]
  · rw [Columns.next, Nat.count_succ, ← add_assoc, ← h.missingCol]
    dsimp only [IsValid]
    by_cases hvalid : inputValid.getD done false = true <;>
      simp only [hvalid, not_true, not_false_iff, if_true, if_false, add_zero, Bool.false_eq_true]
  · dsimp only [Columns.next]
    rw [hcol, foldl_setWord_rows]
    rcases Nat.lt_succ_iff_lt_or_eq.mp hj with hlt | rfl
    · have hne : columnOf inputValid j ≠ columnOf inputValid done := fun heq => by
        have hj : (columns inputValid)[columnOf inputValid j]? = some j :=
          columns_columnOf (hlt.trans hdone)
        rw [heq, columns_columnOf hdone] at hj
        exact hlt.ne' (Option.some.inj hj)
      rw [if_neg fun hin => hne hin.2, h.entries j hlt r hr]
    · rw [if_pos ⟨hr, rfl⟩, hword]
  · funext c
    dsimp only [Columns.next]
    rw [foldl_setWord_rows, if_neg fun hin => hr hin.1, h.others r hr]

lemma rowSet_constructViaExp {rows : List ℕ} (htables : shape.tables = gfmatInit malloc)
    (hcount : shape.validCount = Nat.count (IsValid inputValid) inputValid.length)
    (hlen : inputValid.length ≤ 32768)
    (hexp : ∀ e ∈ recovery, e < 65536) {r : ℕ} (hr : r ∈ rows ∨ RowSet inputValid recovery mat r) :
    RowSet inputValid recovery (constructViaExp shape inputValid recovery rows mat) r := by
  have hall : ∀ done ≤ inputValid.length, Entered shape inputValid recovery rows mat done
      ((List.range done).foldl (Columns.next shape.tables inputValid recovery rows)
        ⟨0, shape.validCount, mat⟩) := by
    intro done hdone
    induction done with
    | zero => exact ⟨rfl, rfl, fun j hj => absurd hj (Nat.not_lt_zero j), fun _ _ => rfl⟩
    | succ done ih =>
      rw [List.range_succ, List.foldl_append, List.foldl_cons, List.foldl_nil]
      exact (ih (by omega)).next htables hcount hlen hexp hdone
  obtain ⟨-, -, hentries, hothers⟩ := hall inputValid.length le_rfl
  intro c hc
  rw [constructViaExp]
  by_cases hmem : r ∈ rows
  · have hget : (columns inputValid)[c]? = some ((columns inputValid).getD c 0) := by
      rw [List.getD_eq_getElem?_getD, List.getElem?_eq_getElem (length_columns.symm ▸ hc),
        Option.getD_some]
    have hj : (columns inputValid).getD c 0 < inputValid.length :=
      List.mem_range.mp (columns_perm.mem_iff.mp (List.mem_of_getElem? hget))
    have hentry := hentries _ hj r hmem
    rwa [columnOf_columns hget] at hentry
  · rw [hothers r hmem]
    exact hr.resolve_left hmem c hc

lemma mem_recSkips {numRec maxSkips rec lastExp : ℕ} {skips : List ℕ}
    (hlast : lastExp = recovery.getD (rec - 1) 0)
    (hpos : 0 < rec)
    (hshort : (recSkips recovery numRec maxSkips rec lastExp skips).length < maxSkips) {r : ℕ}
    (hr : r ∈ skips ∨ rec ≤ r ∧ r < numRec ∧ recovery.getD r 0 ≠ recovery.getD (r - 1) 0 + 1) :
    r ∈ recSkips recovery numRec maxSkips rec lastExp skips := by
  fun_induction recSkips recovery numRec maxSkips rec lastExp skips with
  | case1 => omega
  | case2 rec lastExp skips hlt exp hne skips' hfew ih =>
    refine ih (by rw [Nat.add_sub_cancel]) (by omega) hshort ?_
    rcases hr with hmem | ⟨hle, hrest⟩
    · exact Or.inl (List.mem_append_left _ hmem)
    · rcases hle.eq_or_lt with rfl | hlt'
      · exact Or.inl (List.mem_append_right _ List.mem_cons_self)
      · exact Or.inr ⟨hlt', hrest⟩
  | case3 rec lastExp skips hlt exp heq ih =>
    refine ih (by rw [Nat.add_sub_cancel]) (by omega) hshort ?_
    rcases hr with hmem | ⟨hle, hrest⟩
    · exact Or.inl hmem
    · rcases hle.eq_or_lt with rfl | hlt'
      · exact absurd (by rw [← hlast]; exact not_not.mp heq) hrest.2
      · exact Or.inr ⟨hlt', hrest⟩
  | case4 rec lastExp skips hge =>
    exact hr.resolve_right (by omega)

lemma rowSet_multiplyRows {recStart n : ℕ} (hone : recovery.getD recStart 0 = 1)
    (hset : ∀ r < recStart + 1 + n, r ≤ recStart ∨ recovery.getD r 0 ≠ recovery.getD (r - 1) 0 + 1 →
      RowSet inputValid recovery mat r) {r : ℕ} (hr : r < recStart + 1 + n) :
    RowSet inputValid recovery
      ((List.range' (recStart + 1) n).foldl (multiplyRows recovery recStart) mat) r := by
  -- rows that no product has reached are as they were
  have hlater : ∀ m, ∀ r ≥ recStart + 1 + m,
      (List.range' (recStart + 1) m).foldl (multiplyRows recovery recStart) mat r = mat r := by
    intro m
    induction m with
    | zero => exact fun r _ => rfl
    | succ m ih =>
      intro r hr
      rw [List.range'_1_concat, List.foldl_append, List.foldl_cons, List.foldl_nil, multiplyRows]
      split_ifs
      · rw [Function.update_of_ne (by omega), ih r (by omega)]
      · exact ih r (by omega)
  have hdone : ∀ m ≤ n, ∀ r < recStart + 1 + m, RowSet inputValid recovery
      ((List.range' (recStart + 1) m).foldl (multiplyRows recovery recStart) mat) r := by
    intro m hm
    induction m with
    | zero => exact fun r hr => hset r (by omega) (Or.inl (by omega))
    | succ m ih =>
      intro r hr
      rw [List.range'_1_concat, List.foldl_append, List.foldl_cons, List.foldl_nil]
      set before :=
        (List.range' (recStart + 1) m).foldl (multiplyRows recovery recStart) mat with hbefore
      have hlast : before (recStart + 1 + m) = mat (recStart + 1 + m) := hlater m _ le_rfl
      rw [multiplyRows]
      split_ifs with hnext
      · rcases eq_or_ne r (recStart + 1 + m) with rfl | hne
        · intro c hc
          rw [Function.update_self, ih (by omega) recStart (by omega) c hc,
            ih (by omega) (recStart + 1 + m - 1) (by omega) c hc, powers, powers, powers, hone,
            hnext, ← pow_add]
          congr 1
          ring
        · intro c hc
          rw [Function.update_of_ne hne]
          exact ih (by omega) r (by omega) c hc
      · rcases eq_or_ne r (recStart + 1 + m) with rfl | hne
        · intro c hc
          rw [hlast]
          exact hset _ (by omega) (Or.inr hnext) c hc
        · exact ih (by omega) r (by omega)
  exact hdone n le_rfl r hr

/-- Both ways to fill the matrix give the powers. -/
theorem rowSet_construct {canUseFastMul : Bool} {memory : Mat}
    (htables : shape.tables = gfmatInit malloc)
    (hcount : shape.validCount = Nat.count (IsValid inputValid) inputValid.length)
    (hlen : inputValid.length ≤ 32768)
    (hexp : ∀ e ∈ recovery, e < 65536) (hnum : shape.numRec ≤ recovery.length) {r : ℕ}
    (hr : r < shape.numRec) :
    RowSet inputValid recovery (construct shape canUseFastMul inputValid recovery memory) r := by
  have hvia {rows : List ℕ} {mat : Mat} {r : ℕ} (hr : r ∈ rows ∨ RowSet inputValid recovery mat r) :
      RowSet inputValid recovery (constructViaExp shape inputValid recovery rows mat) r :=
    rowSet_constructViaExp htables hcount hlen hexp hr
  rw [construct]
  set recStart := if recovery.getD 0 0 = 0 then 1 else 0 with hrecStart
  set mat := if recovery.getD 0 0 = 0 then Function.update memory 0 fun _ => 1 else memory with hmat
  have hzero : ∀ r < recStart, RowSet inputValid recovery mat r := by
    intro r hr c _
    by_cases hfirst : recovery.getD 0 0 = 0
    · obtain rfl : r = 0 := by
        rw [hrecStart, if_pos hfirst] at hr
        omega
      rw [hmat, if_pos hfirst, Function.update_self, powers, hfirst, mul_zero, pow_zero]
    · rw [hrecStart, if_neg hfirst] at hr
      omega
  have hplain : RowSet inputValid recovery
      (constructViaExp shape inputValid recovery
        (List.range' recStart (shape.numRec - recStart)) mat) r := by
    refine hvia ?_
    rcases lt_or_ge r recStart with hlt | hge
    · exact Or.inr (hzero r hlt)
    · exact Or.inl (List.mem_range'_1.mpr (by omega))
  simp only
  split_ifs with hend hfast hskips
  · exact hzero r (by omega)
  · refine rowSet_multiplyRows hfast.1 (fun r hr hcase => hvia ?_) (by omega)
    rcases lt_or_ge r recStart with hlt | hge
    · exact Or.inr (hzero r hlt)
    · refine Or.inl (mem_recSkips (by rw [Nat.add_sub_cancel, hfast.1]) (by omega) hskips ?_)
      rcases hcase with hle | hne
      · exact Or.inl (List.mem_singleton.mpr (by omega))
      · rcases hge.eq_or_lt with heq | hlt
        · exact Or.inl (List.mem_singleton.mpr heq.symm)
        · exact Or.inr ⟨hlt, by omega, hne⟩
  · exact hplain
  · exact hplain

end Entries

section Compute

/-- The loop of `Compute`: the recovery block of a bad row is given up, and all is done again over
what the memory then holds. -/
def computeFrom (shape : Shape) (canUseFastMul : Bool) (inputValid : List Bool) (memory : ℕ → Mat) :
    ℕ → List ℕ → Option (Mat × List ℕ)
  | 0, _ => none
  | attempts + 1, recovery =>
    if shape.numRec > recovery.length then none
    else match invert shape
      (construct shape canUseFastMul inputValid recovery (memory attempts)) with
      | .error badRow => computeFrom shape canUseFastMul inputValid memory attempts
          (recovery.eraseIdx badRow)
      | .ok mat => some (mat, recovery.take shape.numRec)

def compute (shape : Shape) (canUseFastMul : Bool) (inputValid : List Bool) (memory : ℕ → Mat)
    (recovery : List ℕ) :
    Option (Mat × List ℕ) :=
  if shape.numRec > recovery.length then none
  else computeFrom shape canUseFastMul inputValid memory (recovery.length + 1) recovery.mergeSort

/-- A word of the recovery block of an exponent, from the words of the input blocks. -/
def recoveryWord (tables : Tables) (inputs exponent : ℕ) (data : ℕ → Galois16) : Galois16 :=
  ∑ i ∈ Finset.range inputs, ⟨gfmatCoeff tables i exponent⟩ * data i

/-- The factors make the words of the missing blocks from those of the blocks that are there and of
the recovery blocks that are used. -/
def Recovers (shape : Shape) (inputValid : List Bool) (mat : Mat) (used : List ℕ) : Prop :=
  ∀ data : ℕ → Galois16, ∀ k < shape.numRec,
  data ((columns inputValid).getD (shape.validCount + k) 0) =
    ∑ c ∈ Finset.range shape.validCount, mat k c * data ((columns inputValid).getD c 0) +
      ∑ q ∈ Finset.range shape.numRec, mat k (shape.validCount + q) *
        recoveryWord shape.tables inputValid.length (used.getD q 0) data

/-- Recovery blocks are given up one at a time, each because its row follows from those above it. -/
inductive GivesUp (shape : Shape) (inputValid : List Bool) : List ℕ → List ℕ → Prop
  | none (recovery : List ℕ) : GivesUp shape inputValid recovery recovery
  | one {recovery kept : List ℕ} {badRow : ℕ} (hbad : shape.Bad (powers inputValid recovery) badRow)
      (h : GivesUp shape inputValid (recovery.eraseIdx badRow) kept) :
      GivesUp shape inputValid recovery kept

structure Request (shape : Shape) (malloc : Tables) (inputValid : List Bool) (recovery : List ℕ) :
    Prop where
  tables : shape.tables = gfmatInit malloc
  idealInputMultiple : 1 ≤ shape.idealInputMultiple
  validCount : shape.validCount = Nat.count (IsValid inputValid) inputValid.length
  numRec : shape.validCount + shape.numRec = inputValid.length
  missing : 1 ≤ shape.numRec
  inputs : inputValid.length ≤ 32768
  exponents : ∀ e ∈ recovery, e < 65536

variable {shape : Shape} {malloc : Tables} {inputValid : List Bool} {recovery : List ℕ}

lemma Request.sublist {recovery' : List ℕ} (h : Request shape malloc inputValid recovery)
    (hsub : ∀ e ∈ recovery', e ∈ recovery) : Request shape malloc inputValid recovery' :=
  { h with exponents := fun e he => h.exponents e (hsub e he) }

lemma Shape.Dependent.congr {matrix matrix' : Mat} {b : ℕ} (hb : b < shape.numRec)
    (heq : ∀ r < shape.numRec, ∀ c < shape.validCount + shape.numRec, matrix r c = matrix' r c)
    (h : shape.Dependent matrix b) : shape.Dependent matrix' b := by
  obtain ⟨factor, hfactor⟩ := h
  refine ⟨factor, fun i hi => ?_⟩
  rw [← heq b hb _ (by omega), hfactor i hi]
  refine Finset.sum_congr rfl fun j hj => ?_
  rw [heq j (by have := Finset.mem_range.mp hj; omega) _ (by omega)]

lemma sum_columns (f : ℕ → Galois16) :
    ∑ c ∈ Finset.range inputValid.length, f ((columns inputValid).getD c 0) =
      ∑ j ∈ Finset.range inputValid.length, f j := by
  have hlist (l : List ℕ) : ∑ c ∈ Finset.range l.length, f (l.getD c 0) = (l.map f).sum := by
    induction l with
    | nil => rfl
    | cons a l ih =>
      rw [List.length_cons, Finset.sum_range_succ', List.map_cons, List.sum_cons, ← ih, add_comm]
      rfl
  have hrange :
      ((List.range inputValid.length).map f).sum = ∑ j ∈ Finset.range inputValid.length, f j := by
    rw [Finset.sum_range, ← List.sum_ofFn]
    congr 1
    exact List.ext_getElem (by simp) fun i _ _ => by simp
  rw [← hrange, ← (columns_perm.map f).sum_eq, ← hlist, length_columns]

lemma Request.recoveryWord_eq (h : Request shape malloc inputValid recovery)
    (data : ℕ → Galois16) {r : ℕ}
    (hr : r < recovery.length) :
    recoveryWord shape.tables inputValid.length (recovery.getD r 0) data =
      ∑ c ∈ Finset.range (shape.validCount + shape.numRec),
        powers inputValid recovery r c * data ((columns inputValid).getD c 0) := by
  have hexp : recovery.getD r 0 < 65536 := by
    rw [List.getD_eq_getElem?_getD, List.getElem?_eq_getElem hr, Option.getD_some]
    exact h.exponents _ (List.getElem_mem hr)
  rw [h.numRec, recoveryWord]
  simp only [powers]
  rw [sum_columns fun j => two ^ (inputLog j * recovery.getD r 0) * data j]
  refine Finset.sum_congr rfl fun j hj => ?_
  have hj : j < 32768 := lt_of_lt_of_le (Finset.mem_range.mp hj) h.inputs
  rw [h.tables, gfmatCoeff, gfmatCoeffFromLog_eq malloc _ hexp, toNat_gfmatInputLog malloc hj]

lemma Request.attempt (h : Request shape malloc inputValid recovery) (canUseFastMul : Bool)
    (memory : Mat) (hnum : shape.numRec ≤ recovery.length) :
    Ends (fun mat => Recovers shape inputValid mat (recovery.take shape.numRec))
      (shape.Bad (powers inputValid recovery))
      (invert shape (construct shape canUseFastMul inputValid recovery memory)) := by
  have hset : ∀ r < shape.numRec, ∀ c < shape.validCount + shape.numRec,
      construct shape canUseFastMul inputValid recovery memory r c =
        powers inputValid recovery r c := by
    intro r hr c hc
    exact rowSet_construct h.tables h.validCount h.inputs h.exponents hnum hr c (h.numRec ▸ hc)
  refine (invert_ends (sound_gfmatInit malloc h.tables) h.idealInputMultiple h.missing).mono ?_
    fun b hb => ⟨hb.1, hb.2.congr hb.1 hset⟩
  intro mat hmat data k hk
  have hsolved := hmat k hk (fun c => data ((columns inputValid).getD c 0))
    (fun r => recoveryWord shape.tables inputValid.length (recovery.getD r 0) data) fun r hr => by
      beta_reduce
      rw [h.recoveryWord_eq data (by omega)]
      exact Finset.sum_congr rfl fun c hc => by rw [hset r hr c (Finset.mem_range.mp hc)]
  rw [Solves, if_pos hk, Finset.sum_range_add] at hsolved
  rw [hsolved]
  congr 1
  · refine Finset.sum_congr rfl fun c hc => ?_
    rw [operand_of_lt_first (Finset.mem_range.mp hc)]
  · refine Finset.sum_congr rfl fun q hq => ?_
    have hq := Finset.mem_range.mp hq
    rw [operand_of_lt q hq, List.getD_eq_getElem?_getD, List.getD_eq_getElem?_getD,
      List.getElem?_take_of_lt hq]

lemma Request.computeFrom_spec (canUseFastMul : Bool) (memory : ℕ → Mat) {attempts : ℕ}
    (h : Request shape malloc inputValid recovery) (hattempts : recovery.length < attempts) :
    ∃ kept, GivesUp shape inputValid recovery kept ∧
      match computeFrom shape canUseFastMul inputValid memory attempts recovery with
      | some (mat, used) => shape.numRec ≤ kept.length ∧ used = kept.take shape.numRec ∧
          Recovers shape inputValid mat used
      | none => kept.length < shape.numRec := by
  induction attempts generalizing recovery with
  | zero => omega
  | succ attempts ih =>
    rw [computeFrom]
    split_ifs with hfew
    · exact ⟨recovery, .none recovery, hfew⟩
    · have hattempt := h.attempt canUseFastMul (memory attempts) (by omega)
      cases hresult :
        invert shape (construct shape canUseFastMul inputValid recovery (memory attempts)) with
      | ok mat => exact ⟨recovery, .none recovery, by omega, rfl, hattempt.of_ok hresult⟩
      | error badRow =>
        have hbad := hattempt.of_error hresult
        have hshort : (recovery.eraseIdx badRow).length < attempts := by
          rw [List.length_eraseIdx_of_lt (by have := hbad.1; omega)]
          have := hbad.1
          omega
        obtain ⟨kept, hkept, hspec⟩ := ih (h.sublist fun e he => List.mem_of_mem_eraseIdx he) hshort
        exact ⟨kept, .one hbad hkept, hspec⟩

lemma GivesUp.mem {kept : List ℕ} (h : GivesUp shape inputValid recovery kept) {e : ℕ}
    (he : e ∈ kept) : e ∈ recovery := by
  induction h with
  | none recovery => exact he
  | one hbad _ ih => exact List.mem_of_mem_eraseIdx (ih he)

/-- Two blocks of three are missing. -/
def sampleShape : Shape where
  tables := gfmatInit ⟨.replicate _ 0, .replicate _ 0, .replicate _ 0⟩
  validCount := 1
  numRec := 2
  idealInputMultiple := 1
  cachedRows := 1

lemma sampleRequest {recovery : List ℕ} (h : ∀ e ∈ recovery, e < 65536) :
    Request sampleShape ⟨.replicate _ 0, .replicate _ 0, .replicate _ 0⟩ [true, false, false]
      recovery where
  tables := rfl
  idealInputMultiple := le_rfl
  validCount := by decide
  numRec := rfl
  missing := one_le_two
  inputs := by decide
  exponents := h

/-- `Compute` returns true with factors that make the missing blocks, or false when the blocks that
it had to give up leave too few; it gives none up but those whose rows follow from the rows above
them. -/
theorem compute_spec {canUseFastMul : Bool} {memory : ℕ → Mat}
    (h : Request shape malloc inputValid recovery) :
    ∃ kept, GivesUp shape inputValid recovery.mergeSort kept ∧
      match compute shape canUseFastMul inputValid memory recovery with
      | some (mat, used) => shape.numRec ≤ kept.length ∧ used = kept.take shape.numRec ∧
          Recovers shape inputValid mat used
      | none => kept.length < shape.numRec := by
  rw [compute]
  split_ifs with hfew
  · exact ⟨recovery.mergeSort, .none _, by simpa only [List.length_mergeSort] using hfew⟩
  · refine (h.sublist fun e he => List.mem_mergeSort.mp he).computeFrom_spec _ _ ?_
    rw [List.length_mergeSort]
    exact Nat.lt_succ_self _

theorem compute_spec_pair : ∃ kept, GivesUp sampleShape [true, false, false] [3, 1].mergeSort kept ∧
    match compute sampleShape true [true, false, false] (fun _ _ _ => 0) [3, 1] with
    | some (mat, used) => sampleShape.numRec ≤ kept.length ∧ used = kept.take sampleShape.numRec ∧
        Recovers sampleShape [true, false, false] mat used
    | none => kept.length < sampleShape.numRec :=
  compute_spec (sampleRequest (by decide))

/-- Rows of exponents at one distance from each other, prime to 65535, are never dependent. -/
lemma Request.not_bad {first step : ℕ} (h : Request shape malloc inputValid recovery)
    (hstep : Nat.Coprime 65535 step)
    (hspaced : ∀ r < shape.numRec, recovery.getD r 0 = first + step * r) (b : ℕ) :
    ¬ shape.Bad (powers inputValid recovery) b := by
  rintro ⟨hb, factor, hfactor⟩
  set number : ℕ → ℕ := fun i => (columns inputValid).getD (shape.validCount + i) 0 with hnumber
  have hcolumn {i : ℕ} (hi : i ≤ b) :
      (columns inputValid)[shape.validCount + i]? = some (number i) := by
    have hlt : shape.validCount + i < (columns inputValid).length := by
      rw [length_columns, ← h.numRec]
      omega
    rw [hnumber]
    dsimp only
    rw [List.getD_eq_getElem?_getD, List.getElem?_eq_getElem hlt, Option.getD_some]
  have hentry {r : ℕ} (hr : r ≤ b) (i : ℕ) : powers inputValid recovery r (shape.validCount + i) =
      two ^ (inputLog (number i) * first) * (two ^ (inputLog (number i) * step)) ^ r := by
    rw [powers, hspaced r (by omega), ← pow_mul, ← pow_add]
    congr 1
    ring
  have hpoint : Set.InjOn (fun i => two ^ (inputLog (number i) * step)) (Set.Iic b) := by
    intro i hi j hj hij
    have hlt {i : ℕ} (hi : i ≤ b) : inputLog (number i) < 65535 := by
      refine inputLog_lt (lt_of_lt_of_le (List.mem_range.mp ?_) h.inputs)
      exact columns_perm.mem_iff.mp (List.mem_of_getElem? (hcolumn hi))
    have hmod : inputLog (number i) * step ≡ inputLog (number j) * step [MOD 65535] :=
      Element.generator_pow_eq_iff.mp hij
    have hlog := Nat.ModEq.cancel_right_of_coprime hstep hmod
    rw [Nat.ModEq, Nat.mod_eq_of_lt (hlt hi), Nat.mod_eq_of_lt (hlt hj)] at hlog
    have hsame : number i = number j := inputLog_injective hlog
    have hlength : shape.validCount + i < (columns inputValid).length :=
      (List.getElem?_eq_some_iff.mp (hcolumn hi)).1
    have hindex :=
      (List.getElem?_inj hlength nodup_columns).mp ((hcolumn hi).trans (hsame ▸ (hcolumn hj).symm))
    omega
  have hscale : ∀ i ≤ b, two ^ (inputLog (number i) * first) ≠ 0 := fun i _ =>
    Element.generator_pow_ne_zero _
  refine not_dependent_powers hpoint hscale factor fun i hi => ?_
  have hdependent := hfactor i hi
  rw [hentry le_rfl] at hdependent
  refine hdependent.trans (Finset.sum_congr rfl fun j hj => ?_)
  rw [hentry (Finset.mem_range.mp hj).le]

lemma Request.exists_compute (canUseFastMul : Bool) (memory : ℕ → Mat) {first step : ℕ}
    (h : Request shape malloc inputValid recovery) (hnum : shape.numRec ≤ recovery.length)
    (hstep : Nat.Coprime 65535 step)
    (hspaced : ∀ r < shape.numRec, recovery.mergeSort.getD r 0 = first + step * r) :
    ∃ mat, compute shape canUseFastMul inputValid memory recovery =
      some (mat, recovery.mergeSort.take shape.numRec) ∧
      Recovers shape inputValid mat (recovery.mergeSort.take shape.numRec) := by
  have hsorted : Request shape malloc inputValid recovery.mergeSort := h.sublist fun e he =>
    List.mem_mergeSort.mp he
  have hlen : shape.numRec ≤ recovery.mergeSort.length := by rwa [List.length_mergeSort]
  have hattempt := hsorted.attempt canUseFastMul (memory recovery.length) hlen
  rw [compute, if_neg (by omega), computeFrom, if_neg (by omega)]
  cases hresult :
    invert shape
      (construct shape canUseFastMul inputValid recovery.mergeSort (memory recovery.length)) with
  | ok mat => exact ⟨mat, rfl, hattempt.of_ok hresult⟩
  | error badRow => exact absurd (hattempt.of_error hresult) (hsorted.not_bad hstep hspaced badRow)

/-- No recovery block is given up when the exponents of those to be used first are evenly spaced. -/
theorem compute_spaced (canUseFastMul : Bool) (memory : ℕ → Mat) {first step : ℕ}
    (h : Request shape malloc inputValid recovery) (hnum : shape.numRec ≤ recovery.length)
    (hstep : Nat.Coprime 65535 step)
    (hspaced : ∀ r < shape.numRec, recovery.mergeSort.getD r 0 = first + step * r) :
    ∃ mat, compute shape canUseFastMul inputValid memory recovery =
      some (mat, recovery.mergeSort.take shape.numRec) ∧
      Recovers shape inputValid mat (recovery.mergeSort.take shape.numRec) :=
  h.exists_compute canUseFastMul memory hnum hstep hspaced

lemma spaced_pair : ∀ r < sampleShape.numRec, ([3, 1] : List ℕ).mergeSort.getD r 0 = 1 + 2 * r := by
  have hsort : ([3, 1] : List ℕ).mergeSort = [1, 3] := by simp [List.mergeSort]
  rw [hsort]
  decide

theorem compute_spaced_pair :
    ∃ mat, compute sampleShape true [true, false, false] (fun _ _ _ => 0) [3, 1] =
    some (mat, [3, 1].mergeSort.take 2) ∧
      Recovers sampleShape [true, false, false] mat ([3, 1].mergeSort.take 2) :=
  compute_spaced true (fun _ _ _ => 0) (sampleRequest (by decide)) le_rfl (by decide) spaced_pair

end Compute

end DriveIntegrity.Parity
