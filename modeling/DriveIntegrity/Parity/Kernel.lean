import Mathlib.Algebra.Order.Floor.Div
import DriveIntegrity.Library.Rounding
import DriveIntegrity.Parity.Liveness

/-! How `run_kernel` cuts a batch into requests. -/

namespace DriveIntegrity.Parity.Controller

section Chunks

def roundDiv (a b : ℕ) : ℕ :=
  (a + b / 2) / b

def alignToStride (stride len : ℕ) : ℕ :=
  len ⌈/⌉ stride * stride

def calcChunkSize (alignedCurrentSliceSize numThreads chunkLen stride : ℕ) : ℕ × ℕ :=
  let targetThreadChunk := alignedCurrentSliceSize ⌈/⌉ numThreads
  let numChunks :=
    if targetThreadChunk ≤ chunkLen / 2 then max (roundDiv alignedCurrentSliceSize chunkLen) 1
    else max (roundDiv targetThreadChunk chunkLen) 1 * numThreads
  let chunkLen := alignToStride stride (alignedCurrentSliceSize ⌈/⌉ numChunks)
  (chunkLen, alignedCurrentSliceSize ⌈/⌉ chunkLen)

variable {size numThreads chunkLen stride : ℕ}

lemma dvd_calcChunkSize : stride ∣ (calcChunkSize size numThreads chunkLen stride).1 :=
  Dvd.intro_left _ rfl

lemma calcChunkSize_pos (hsize : 0 < size) (hthreads : 0 < numThreads) (hstride : 0 < stride) :
    0 < (calcChunkSize size numThreads chunkLen stride).1 := by
  have hceil {a b : ℕ} (ha : 0 < a) (hb : 0 < b) : 0 < a ⌈/⌉ b := by
    by_contra hzero
    have := (ceilDiv_le_iff_le_mul hb).mp (not_lt.mp hzero)
    omega
  rw [calcChunkSize]
  refine Nat.mul_pos (hceil (hceil hsize ?_) hstride) hstride
  split_ifs
  · exact Nat.lt_of_lt_of_le Nat.zero_lt_one (le_max_right ..)
  · exact Nat.mul_pos (Nat.lt_of_lt_of_le Nat.zero_lt_one (le_max_right ..)) hthreads

end Chunks

section Split

/-- The `float` nearest to a number -/
def single (x : ℚ) : ℚ :=
  Rounding.round 24 x

/-- The `double` nearest to a number -/
def double (x : ℚ) : ℚ :=
  Rounding.round 53 x

def outputsPerThread (outputs threadsPerChunk : ℕ) : ℚ :=
  single (single outputs / single threadsPerChunk)

/-- `(unsigned)(outputsPerThread*tc + 0.5)`: a `float` product, and a sum in `double` that is cut to
the integer below -/
def outputsUpTo (outputs threadsPerChunk tc : ℕ) : ℕ :=
  ⌊double (single (outputsPerThread outputs threadsPerChunk * single tc) + 1 / 2)⌋₊

def numOutputs (outputs threadsPerChunk tc : ℕ) (outputIdx : BitVec 32) : BitVec 32 :=
  BitVec.ofNat 32 (outputsUpTo outputs threadsPerChunk (tc + 1)) - outputIdx

def outputIdx (outputs threadsPerChunk : ℕ) : ℕ → BitVec 32
  | 0 => 0#32
  | tc + 1 =>
    let outputIdx := outputIdx outputs threadsPerChunk tc
    outputIdx + numOutputs outputs threadsPerChunk tc outputIdx

variable {outputs n tc : ℕ} {x : ℚ}

lemma single_natCast {a : ℕ} (ha : a < 2 ^ 23) : single a = a := by
  rcases Nat.eq_zero_or_pos a with rfl | hpos
  · rw [single, Rounding.round, Nat.cast_zero, zero_div, ← Int.cast_zero,
      Rounding.roundEven_intCast, Int.cast_zero, zero_mul]
  · refine Rounding.round_eq_self
      (Rounding.exists_mul_ulp (k := 0) (m := 23) ⟨a, by simp⟩ ?_ ?_ (by decide))
    · exact_mod_cast hpos
    · exact_mod_cast ha

lemma one_le_single (hx : 1 ≤ x) (hlt : x < 2 ^ 23) : 1 ≤ single x :=
  Rounding.le_round
    (Rounding.exists_mul_ulp (k := 0) ⟨1, by norm_num⟩ (one_pos.trans_le hx) hlt (by decide)) hx

lemma single_lt (hx : 1 ≤ x) (hlt : x < 2 ^ 22) : single x < 2 ^ 23 := by
  have herr := abs_le.mp (Rounding.abs_round_sub_le (p := 24) (one_pos.trans_le hx))
  have hsmall : x / 2 ^ 24 < 1 := by rw [div_lt_one (by positivity)]; linarith
  rw [single]
  linarith [herr.2]

lemma double_single_add (hx : 1 ≤ x) (hlt : x < 2 ^ 22) :
    double (single x + 1 / 2) = single x + 1 / 2 := by
  have hone := one_le_single hx (by linarith)
  have hsingle := single_lt hx hlt
  obtain ⟨a, ha⟩ := Rounding.exists_round_eq (p := 23) hx
  refine Rounding.round_eq_self
    (Rounding.exists_mul_ulp (k := 23) (m := 24) ⟨a + 2 ^ 22, ?_⟩ (by linarith) (by linarith)
    (by decide))
  rw [single, ha]
  push_cast
  ring

/-- The exponents of the outputs are of sixteen bits. -/
structure Splits (outputs threadsPerChunk : ℕ) : Prop where
  pos : 0 < threadsPerChunk
  le : threadsPerChunk ≤ outputs
  outputs_le : outputs ≤ 65536

lemma Splits.perThread (h : Splits outputs n) :
    1 ≤ outputsPerThread outputs n ∧
    |outputsPerThread outputs n * n - outputs| ≤ outputs / 2 ^ 24 := by
  have hpos : (0 : ℚ) < n := by exact_mod_cast h.pos
  have hle : (n : ℚ) ≤ outputs := by exact_mod_cast h.le
  have hmax : (outputs : ℚ) ≤ 65536 := by exact_mod_cast h.outputs_le
  have hquot : 1 ≤ (outputs : ℚ) / n := (one_le_div hpos).mpr hle
  have hquot' : (outputs : ℚ) / n ≤ outputs := div_le_self (by linarith) (by exact_mod_cast h.pos)
  have hN := h.outputs_le
  have hn := h.le
  rw [outputsPerThread, single_natCast (by omega), single_natCast (by omega)]
  refine ⟨one_le_single hquot (by linarith), ?_⟩
  have herr := Rounding.abs_round_sub_le (p := 24) (one_pos.trans_le hquot)
  calc |single (outputs / n) * n - outputs|
      = |single (outputs / n) - outputs / n| * n := by
        rw [← abs_of_pos hpos, ← abs_mul, abs_of_pos hpos, sub_mul, div_mul_cancel₀ _ hpos.ne']
    _ ≤ outputs / n / 2 ^ 24 * n := mul_le_mul_of_nonneg_right herr hpos.le
    _ = outputs / 2 ^ 24 := by field_simp

lemma Splits.product_lt (h : Splits outputs n) (htc : tc ≤ n) :
    outputsPerThread outputs n * tc < 2 ^ 22 := by
  obtain ⟨hone, herr⟩ := h.perThread
  have hmax : (outputs : ℚ) ≤ 65536 := by exact_mod_cast h.outputs_le
  have hle : outputsPerThread outputs n * tc ≤ outputsPerThread outputs n * n :=
    mul_le_mul_of_nonneg_left (by exact_mod_cast htc) (by linarith)
  have habove := (abs_le.mp herr).2
  have hsmall : (outputs : ℚ) / 2 ^ 24 ≤ 1 := by rw [div_le_one (by positivity)]; linarith
  linarith

lemma Splits.one_le_product (h : Splits outputs n) (hpos : 0 < tc) :
    1 ≤ outputsPerThread outputs n * tc :=
  one_le_mul_of_one_le_of_one_le h.perThread.1 (by exact_mod_cast hpos)

lemma Splits.outputsUpTo_eq (h : Splits outputs n) (hpos : 0 < tc) (htc : tc ≤ n) :
    outputsUpTo outputs n tc = ⌊single (outputsPerThread outputs n * tc) + 1 / 2⌋₊ := by
  have hle := h.le
  have hmax := h.outputs_le
  rw [outputsUpTo, single_natCast (by omega),
    double_single_add (h.one_le_product hpos) (h.product_lt htc)]

lemma Splits.outputsUpTo_pos (h : Splits outputs n) : 0 < outputsUpTo outputs n 1 := by
  have hlt : outputsPerThread outputs n * (1 : ℕ) < 2 ^ 22 := h.product_lt h.pos
  have hone := one_le_single (h.one_le_product Nat.one_pos) (hlt.trans (by norm_num))
  rw [h.outputsUpTo_eq Nat.one_pos h.pos, Nat.floor_pos]
  exact hone.trans (le_add_of_nonneg_right one_half_pos.le)

lemma Splits.outputsUpTo_lt (h : Splits outputs n) (hpos : 0 < tc) (htc : tc < n) :
    outputsUpTo outputs n tc < outputsUpTo outputs n (tc + 1) := by
  have hone := h.one_le_product hpos
  have hsingle := one_le_single hone ((h.product_lt htc.le).trans (by norm_num))
  rw [h.outputsUpTo_eq hpos htc.le, h.outputsUpTo_eq (Nat.succ_pos tc) htc, ← Nat.add_one_le_iff]
  refine Nat.le_floor ?_
  set below := ⌊single (outputsPerThread outputs n * tc) + 1 / 2⌋₊
  have hbelow : (below : ℚ) ≤ single (outputsPerThread outputs n * tc) + 1 / 2 :=
    Nat.floor_le (by linarith)
  have hstep : outputsPerThread outputs n * tc + 1 ≤ outputsPerThread outputs n * (tc + 1 : ℕ) := by
    push_cast
    linarith [h.perThread.1]
  have hhalf :=
    Rounding.add_one_le_round (p := 24) (g := below - 1 / 2) ⟨2 * below - 1, by push_cast; ring⟩
    (one_pos.trans_le hone) hstep (h.product_lt htc) (by decide) (sub_le_iff_le_add.mpr hbelow)
  rw [single, Nat.cast_succ below]
  linarith

lemma Splits.outputsUpTo_end (h : Splits outputs n) : outputsUpTo outputs n n = outputs := by
  have hone := h.one_le_product h.pos
  have hmax : (outputs : ℚ) ≤ 65536 := by exact_mod_cast h.outputs_le
  have hproduct := abs_le.mp h.perThread.2
  have herr := abs_le.mp (Rounding.abs_round_sub_le (p := 24) (one_pos.trans_le hone))
  have hsmall : (outputs : ℚ) / 2 ^ 24 ≤ 1 / 256 := by rw [div_le_iff₀ (by positivity)]; linarith
  have hsmall' : outputsPerThread outputs n * n / 2 ^ 24 ≤ 1 / 128 := by
    rw [div_le_iff₀ (by positivity)]; linarith
  rw [h.outputsUpTo_eq h.pos le_rfl, Nat.floor_eq_iff (by rw [single]; linarith), single]
  constructor <;> linarith

lemma outputIdx_succ :
    outputIdx outputs n (tc + 1) = BitVec.ofNat 32 (outputsUpTo outputs n (tc + 1)) := by
  rw [outputIdx, numOutputs, BitVec.add_comm, BitVec.sub_add_cancel]

lemma Splits.outputsUpTo_le (h : Splits outputs n) (hpos : 0 < tc) (htc : tc ≤ n) :
    outputsUpTo outputs n tc ≤ outputs := by
  have hmono (k : ℕ) (hk : tc ≤ k) :
      k ≤ n → outputsUpTo outputs n tc ≤ outputsUpTo outputs n k := by
    induction k, hk using Nat.le_induction with
    | base => exact fun _ => le_rfl
    | succ k hk ih => exact fun hlt => (ih (by omega)).trans (h.outputsUpTo_lt (by omega) hlt).le
  exact (hmono n htc le_rfl).trans_eq h.outputsUpTo_end

lemma Splits.outputIdx_eq (h : Splits outputs n) (htc : tc < n) :
    (outputIdx outputs n (tc + 1)).toNat = outputsUpTo outputs n (tc + 1) := by
  have hlt : outputsUpTo outputs n (tc + 1) < 2 ^ 32 :=
    ((h.outputsUpTo_le (Nat.succ_pos tc) htc).trans h.outputs_le).trans_lt (by decide)
  rw [outputIdx_succ, BitVec.toNat_ofNat, Nat.mod_eq_of_lt hlt]

lemma Splits.outputIdx_lt (h : Splits outputs n) (htc : tc < n) :
    (outputIdx outputs n tc).toNat < (outputIdx outputs n (tc + 1)).toNat := by
  rw [h.outputIdx_eq htc]
  cases tc with
  | zero => exact h.outputsUpTo_pos
  | succ tc =>
    rw [h.outputIdx_eq (by omega)]
    exact h.outputsUpTo_lt (Nat.succ_pos tc) htc

lemma Splits.outputIdx_mono {i j : ℕ} (h : Splits outputs n) (hij : i ≤ j) (hj : j ≤ n) :
    (outputIdx outputs n i).toNat ≤ (outputIdx outputs n j).toNat := by
  induction j, hij using Nat.le_induction with
  | base => rfl
  | succ j _ ih => exact (ih (by omega)).trans (h.outputIdx_lt hj).le

lemma Splits.outputIdx_end (h : Splits outputs n) : (outputIdx outputs n n).toNat = outputs := by
  obtain ⟨tc, rfl⟩ := Nat.exists_eq_succ_of_ne_zero h.pos.ne'
  exact (h.outputIdx_eq (Nat.lt_succ_self tc)).trans h.outputsUpTo_end

lemma Splits.outputIdx_add (h : Splits outputs n) (htc : tc < n) :
    (outputIdx outputs n tc).toNat + (numOutputs outputs n tc (outputIdx outputs n tc)).toNat =
      (outputIdx outputs n (tc + 1)).toNat := by
  have hlt := h.outputIdx_lt htc
  rw [numOutputs, ← outputIdx_succ, BitVec.toNat_sub_of_le hlt.le, Nat.add_sub_cancel' hlt.le]

lemma Splits.exists_thread {output : ℕ} (h : Splits outputs n) (houtput : output < outputs) :
    ∃ tc < n, (outputIdx outputs n tc).toNat ≤ output ∧
      output < (outputIdx outputs n (tc + 1)).toNat := by
  have hfind (m : ℕ) (hm : output < (outputIdx outputs n m).toNat) :
      ∃ tc < m, (outputIdx outputs n tc).toNat ≤ output ∧
        output < (outputIdx outputs n (tc + 1)).toNat := by
    induction m with
    | zero => exact absurd hm (Nat.not_lt_zero _)
    | succ m ih =>
      rcases Nat.lt_or_ge output (outputIdx outputs n m).toNat with hlt | hge
      · obtain ⟨tc, htc, hsplit⟩ := ih hlt
        exact ⟨tc, htc.trans (Nat.lt_succ_self m), hsplit⟩
      · exact ⟨m, Nat.lt_succ_self m, hge, hm⟩
  exact hfind n (by rw [h.outputIdx_end]; exact houtput)

/-- A half is rounded up: the first of two threads takes two of three outputs. -/
example : (List.range 3).map (fun tc => (outputIdx 3 2 tc).toNat) = [0, 2, 3] := by decide +kernel

end Split

section Requests

/-- What `run_kernel` reads. Sizes are in bytes. -/
structure Kernel where
  numThreads : ℕ
  /-- `alignedCurrentSliceSize` -/
  size : ℕ
  idealChunkSize : ℕ
  stride : ℕ
  /-- `outputExponents.size()` -/
  outputs : ℕ
  numThreads_pos : 0 < numThreads
  size_pos : 0 < size
  stride_dvd_size : stride ∣ size
  two_dvd_stride : 2 ∣ stride
  outputs_pos : 0 < outputs
  /-- More are refused as too many recovery blocks. -/
  outputs_le : outputs ≤ 65536

/-- `compute_req`, with the offset of its `output` in `memProcessing` -/
structure Request where
  thread : ℕ
  sliceOffset : ℕ
  len : ℕ
  numChunks : ℕ
  outputIdx : ℕ
  numOutputs : ℕ
  output : ℕ

namespace Kernel

variable (kernel : Kernel)

def chunkLen : ℕ :=
  (calcChunkSize kernel.size kernel.numThreads kernel.idealChunkSize kernel.stride).1

def numChunks : ℕ :=
  (calcChunkSize kernel.size kernel.numThreads kernel.idealChunkSize kernel.stride).2

def fullChunksPerThread : ℕ :=
  kernel.numChunks / kernel.numThreads

def leftoverChunks : ℕ :=
  kernel.numChunks % kernel.numThreads

def threadsPerChunk : ℕ :=
  min (kernel.numThreads / kernel.leftoverChunks) kernel.outputs

/-- The request of a remaining chunk for the outputs of one of its threads -/
def leftoverRequest (chunk tc : ℕ) : Request :=
  let sliceOffset := chunk * kernel.chunkLen
  let reqLen := min (kernel.size - sliceOffset) kernel.chunkLen
  let outputIdx := outputIdx kernel.outputs kernel.threadsPerChunk tc
  { thread := chunk * kernel.threadsPerChunk + tc
    sliceOffset := sliceOffset
    len := reqLen
    numChunks := 1
    outputIdx := outputIdx.toNat
    numOutputs := (numOutputs kernel.outputs kernel.threadsPerChunk tc outputIdx).toNat
    output := sliceOffset * kernel.outputs + outputIdx.toNat * reqLen }

/-- The request of a thread for its part of the other chunks -/
def fullRequest (thread : ℕ) : Request :=
  let sliceOffset := (kernel.leftoverChunks + thread * kernel.fullChunksPerThread) * kernel.chunkLen
  { thread := thread
    sliceOffset := sliceOffset
    len := min (kernel.size - sliceOffset) (kernel.chunkLen * kernel.fullChunksPerThread)
    numChunks := kernel.fullChunksPerThread
    outputIdx := 0
    numOutputs := kernel.outputs
    output := sliceOffset * kernel.outputs }

def leftoverRequests : List Request :=
  (List.range kernel.leftoverChunks).flatMap fun chunk =>
    (List.range kernel.threadsPerChunk).map fun tc => kernel.leftoverRequest chunk tc

def fullRequests : List Request :=
  if kernel.fullChunksPerThread = 0 then [] else (List.range kernel.numThreads).map fun thread =>
    kernel.fullRequest thread

def runKernel : List Request :=
  kernel.leftoverRequests ++ kernel.fullRequests

def procRefs : ℕ :=
  if kernel.leftoverChunks ≠ 0 then
    (if kernel.fullChunksPerThread ≠ 0 then kernel.numThreads else 0) +
      kernel.threadsPerChunk * kernel.leftoverChunks
  else kernel.numThreads

/-- The loops of `compute_worker`, with the round, the output and the number of the word in what is
written -/
def loops {β : Type} (req : Request) (f : ℕ → ℕ → ℕ → ℕ → β) : List β :=
  (List.range req.numChunks).flatMap fun round =>
    let procSize := min (req.len - round * kernel.chunkLen) kernel.chunkLen
    (List.range req.numOutputs).flatMap fun out =>
      (List.range (procSize / 2)).map fun i => f procSize round out i

def cells (req : Request) : List (ℕ × ℕ) :=
  kernel.loops req fun _ round out i =>
    ((req.sliceOffset + round * kernel.chunkLen) / 2 + i, req.outputIdx + out)

end Kernel

end Requests

section Pieces

namespace Kernel

variable (kernel : Kernel)

def chunkWords : ℕ :=
  kernel.chunkLen / 2

def words : ℕ :=
  kernel.size / 2

/-- The bytes of a chunk; the last one may be shorter. -/
def chunkSize (chunk : ℕ) : ℕ :=
  min (kernel.size - chunk * kernel.chunkLen) kernel.chunkLen

end Kernel

variable {kernel : Kernel}

lemma chunkLen_eq : kernel.chunkLen = 2 * kernel.chunkWords :=
  (Nat.mul_div_cancel' (kernel.two_dvd_stride.trans dvd_calcChunkSize)).symm

lemma size_eq : kernel.size = 2 * kernel.words :=
  (Nat.mul_div_cancel' (kernel.two_dvd_stride.trans kernel.stride_dvd_size)).symm

lemma chunkWords_pos (kernel : Kernel) : 0 < kernel.chunkWords := by
  have hpos : 0 < kernel.chunkLen :=
    calcChunkSize_pos kernel.size_pos kernel.numThreads_pos
      (Nat.pos_of_dvd_of_pos kernel.stride_dvd_size kernel.size_pos)
  rw [chunkLen_eq] at hpos
  omega

lemma lt_numChunks {chunk : ℕ} :
    chunk < kernel.numChunks ↔ chunk * kernel.chunkWords < kernel.words := by
  have hpos : 0 < kernel.chunkLen := by
    rw [chunkLen_eq]
    exact Nat.mul_pos Nat.two_pos (chunkWords_pos kernel)
  have hle : kernel.numChunks ≤ chunk ↔ kernel.size ≤ kernel.chunkLen * chunk :=
    ceilDiv_le_iff_le_mul hpos
  rw [chunkLen_eq, size_eq, Nat.mul_assoc, Nat.mul_comm _ chunk] at hle
  omega

lemma chunkSize_eq (chunk : ℕ) :
    kernel.chunkSize chunk =
      2 * min (kernel.words - chunk * kernel.chunkWords) kernel.chunkWords := by
  rw [Kernel.chunkSize, chunkLen_eq, size_eq, Nat.mul_left_comm]
  omega

lemma div_chunkWords {chunk i : ℕ} (hi : i < kernel.chunkSize chunk / 2) :
    (chunk * kernel.chunkWords + i) / kernel.chunkWords = chunk ∧
      (chunk * kernel.chunkWords + i) % kernel.chunkWords = i ∧
      chunk * kernel.chunkWords + i < kernel.words := by
  rw [chunkSize_eq] at hi
  have hlt : i < kernel.chunkWords := by omega
  refine ⟨?_, ?_, by omega⟩
  · rw [Nat.mul_comm, Nat.mul_add_div (chunkWords_pos kernel), Nat.div_eq_of_lt hlt, Nat.add_zero]
  · rw [Nat.mul_comm, Nat.mul_add_mod, Nat.mod_eq_of_lt hlt]

lemma mod_lt_chunkSize {word : ℕ} (hword : word < kernel.words) :
    word % kernel.chunkWords < kernel.chunkSize (word / kernel.chunkWords) / 2 := by
  have hmod := Nat.mod_lt word (chunkWords_pos kernel)
  have hdiv := Nat.div_add_mod word kernel.chunkWords
  rw [Nat.mul_comm] at hdiv
  rw [chunkSize_eq]
  omega

/-- A request is for some chunks, one after the other, and for some outputs. -/
structure Request.At (kernel : Kernel) (req : Request) (chunk : ℕ) : Prop where
  sliceOffset_eq : req.sliceOffset = chunk * kernel.chunkLen
  len_eq : req.len = min (kernel.size - req.sliceOffset) (kernel.chunkLen * req.numChunks)
  chunks_le : chunk + req.numChunks ≤ kernel.numChunks
  outputs_le : req.outputIdx + req.numOutputs ≤ kernel.outputs
  output_eq : req.output = req.sliceOffset * kernel.outputs + req.outputIdx * req.len
  whole : req.numChunks = 1 ∨ req.outputIdx = 0 ∧ req.numOutputs = kernel.outputs

variable {req : Request} {chunk : ℕ}

lemma Request.At.procSize (h : req.At kernel chunk) {round : ℕ} (hround : round < req.numChunks) :
    min (req.len - round * kernel.chunkLen) kernel.chunkLen = kernel.chunkSize (chunk + round) := by
  obtain ⟨n, hn⟩ : ∃ n, req.numChunks = round + (n + 1) := ⟨req.numChunks - round - 1, by omega⟩
  rw [h.len_eq, h.sliceOffset_eq, hn, Kernel.chunkSize, Nat.add_mul, Nat.mul_add, Nat.mul_add,
    Nat.mul_comm _ round, Nat.mul_one]
  omega

lemma Request.At.loops {β : Type} (h : req.At kernel chunk) (f : ℕ → ℕ → ℕ → ℕ → β) :
    kernel.loops req f = (List.range req.numChunks).flatMap fun round =>
      (List.range req.numOutputs).flatMap fun out =>
        (List.range (kernel.chunkSize (chunk + round) / 2)).map fun i =>
          f (kernel.chunkSize (chunk + round)) round out i := by
  rw [Kernel.loops, List.flatMap_def, List.flatMap_def]
  refine congrArg _ (List.map_congr_left fun round hround => ?_)
  rw [h.procSize (List.mem_range.mp hround)]

lemma Request.At.cells_eq (h : req.At kernel chunk) :
    kernel.cells req = (List.range req.numChunks).flatMap fun round =>
      (List.range req.numOutputs).flatMap fun out =>
        (List.range (kernel.chunkSize (chunk + round) / 2)).map fun i =>
          ((chunk + round) * kernel.chunkWords + i, req.outputIdx + out) := by
  have hdiv (round : ℕ) :
      (req.sliceOffset + round * kernel.chunkLen) / 2 = (chunk + round) * kernel.chunkWords := by
    rw [h.sliceOffset_eq, ← Nat.add_mul, chunkLen_eq, Nat.mul_left_comm,
      Nat.mul_div_cancel_left _ Nat.two_pos]
  rw [Kernel.cells, h.loops]
  simp only [hdiv]

lemma Request.At.mem_cells (h : req.At kernel chunk) {word output : ℕ} :
    (word, output) ∈ kernel.cells req ↔ (chunk ≤ word / kernel.chunkWords ∧
      word / kernel.chunkWords < chunk + req.numChunks) ∧ word < kernel.words ∧
      req.outputIdx ≤ output ∧
      output < req.outputIdx + req.numOutputs := by
  rw [h.cells_eq]
  simp only [List.mem_flatMap, List.mem_map, List.mem_range, Prod.mk.injEq]
  constructor
  · rintro ⟨round, hround, out, hout, i, hi, rfl, rfl⟩
    obtain ⟨hdiv, -, hlt⟩ := div_chunkWords hi
    rw [hdiv]
    omega
  · rintro ⟨⟨hle, hlt⟩, hword, hout, hout'⟩
    have hdiv := Nat.div_add_mod word kernel.chunkWords
    refine ⟨word / kernel.chunkWords - chunk, by omega, output - req.outputIdx, by omega,
      word % kernel.chunkWords, ?_, ?_,
      by omega⟩
    · rw [Nat.add_sub_cancel' hle]
      exact mod_lt_chunkSize hword
    · rw [Nat.add_sub_cancel' hle, Nat.mul_comm, hdiv]

lemma Request.At.nodup_cells (h : req.At kernel chunk) : (kernel.cells req).Nodup := by
  rw [h.cells_eq, List.nodup_flatMap]
  refine ⟨fun round _ => List.nodup_flatMap.mpr ⟨fun out _ => ?_, ?_⟩, ?_⟩
  · refine List.nodup_range.map fun i j hij => ?_
    have := (Prod.mk.inj hij).1
    omega
  · refine List.nodup_range.imp fun hne => List.disjoint_left.mpr fun cell hcell hcell' => hne ?_
    simp only [List.mem_map] at hcell hcell'
    obtain ⟨i, -, rfl⟩ := hcell
    obtain ⟨j, -, heq⟩ := hcell'
    have := (Prod.mk.inj heq).2
    omega
  · refine List.nodup_range.imp fun hne => List.disjoint_left.mpr fun cell hcell hcell' => hne ?_
    simp only [List.mem_flatMap, List.mem_map, List.mem_range] at hcell hcell'
    obtain ⟨out, -, i, hi, rfl⟩ := hcell
    obtain ⟨out', -, j, hj, heq⟩ := hcell'
    have hi' := (div_chunkWords hi).1
    have hj' := (div_chunkWords hj).1
    rw [← (Prod.mk.inj heq).1, hj'] at hi'
    omega

end Pieces

section Distribution

variable {kernel : Kernel}

lemma leftoverChunks_add (kernel : Kernel) :
    kernel.leftoverChunks + kernel.numThreads * kernel.fullChunksPerThread = kernel.numChunks :=
  Nat.mod_add_div ..

lemma threadsPerChunk_le (kernel : Kernel) : kernel.threadsPerChunk ≤ kernel.outputs :=
  min_le_right ..

lemma threadsPerChunk_pos (h : 0 < kernel.leftoverChunks) : 0 < kernel.threadsPerChunk :=
  lt_min (Nat.div_pos (Nat.mod_lt _ kernel.numThreads_pos).le h) kernel.outputs_pos

lemma splits (h : 0 < kernel.leftoverChunks) : Splits kernel.outputs kernel.threadsPerChunk :=
  ⟨threadsPerChunk_pos h, threadsPerChunk_le kernel, kernel.outputs_le⟩

lemma leftoverRequest_at {chunk tc : ℕ} (hchunk : chunk < kernel.leftoverChunks)
    (htc : tc < kernel.threadsPerChunk) :
    (kernel.leftoverRequest chunk tc).At kernel chunk := by
  have hsplits := splits (Nat.zero_lt_of_lt hchunk)
  have hle := hsplits.outputIdx_mono (show tc + 1 ≤ kernel.threadsPerChunk from htc) le_rfl
  rw [hsplits.outputIdx_end, ← hsplits.outputIdx_add htc] at hle
  have hchunks := leftoverChunks_add kernel
  refine ⟨rfl, by rw [Kernel.leftoverRequest, Nat.mul_one], ?_, ?_, rfl, Or.inl rfl⟩
  · dsimp only [Kernel.leftoverRequest]
    omega
  · exact hle

lemma fullRequest_at {thread : ℕ} (hthread : thread < kernel.numThreads) :
    (kernel.fullRequest thread).At kernel
      (kernel.leftoverChunks + thread * kernel.fullChunksPerThread) := by
  have hchunks := leftoverChunks_add kernel
  have hle :
      (thread + 1) * kernel.fullChunksPerThread ≤ kernel.numThreads * kernel.fullChunksPerThread :=
    Nat.mul_le_mul_right _ hthread
  rw [Nat.succ_mul] at hle
  refine ⟨rfl, rfl, ?_, ?_, ?_, Or.inr ⟨rfl, rfl⟩⟩
  · dsimp only [Kernel.fullRequest]
    omega
  · dsimp only [Kernel.fullRequest]
    omega
  · dsimp only [Kernel.fullRequest]
    rw [Nat.zero_mul, Nat.add_zero]

lemma mem_leftoverCells {word output : ℕ} :
    (word, output) ∈ kernel.leftoverRequests.flatMap kernel.cells ↔
      word / kernel.chunkWords < kernel.leftoverChunks ∧ word < kernel.words ∧
      output < kernel.outputs := by
  simp only [Kernel.leftoverRequests, List.mem_flatMap, List.mem_map, List.mem_range]
  constructor
  · rintro ⟨req, ⟨chunk, hchunk, tc, htc, rfl⟩, hcell⟩
    have hat := leftoverRequest_at hchunk htc
    have hle := hat.outputs_le
    obtain ⟨⟨-, hlt⟩, hword, -, hout⟩ := hat.mem_cells.mp hcell
    dsimp only [Kernel.leftoverRequest] at hlt
    exact ⟨by omega, hword, by omega⟩
  · rintro ⟨hchunk, hword, hout⟩
    have hsplits := splits (Nat.zero_lt_of_lt hchunk)
    obtain ⟨tc, htc, hle, hlt⟩ := hsplits.exists_thread hout
    refine ⟨_, ⟨word / kernel.chunkWords, hchunk, tc, htc, rfl⟩,
      (leftoverRequest_at hchunk htc).mem_cells.mpr ?_⟩
    exact ⟨⟨le_rfl, Nat.lt_succ_self _⟩, hword, hle, hlt.trans_eq (hsplits.outputIdx_add htc).symm⟩

lemma mem_fullCells {word output : ℕ} :
    (word, output) ∈ kernel.fullRequests.flatMap kernel.cells ↔
      kernel.leftoverChunks ≤ word / kernel.chunkWords ∧ word < kernel.words ∧
      output < kernel.outputs := by
  have hchunks := leftoverChunks_add kernel
  have hlast (hword : word < kernel.words) : word / kernel.chunkWords < kernel.numChunks :=
    lt_numChunks.mpr ((Nat.div_mul_le_self ..).trans_lt hword)
  rw [Kernel.fullRequests]
  split_ifs with hzero
  · rw [hzero, Nat.mul_zero, Nat.add_zero] at hchunks
    rw [List.flatMap_nil]
    refine iff_of_false List.not_mem_nil fun ⟨hle, hword, _⟩ => ?_
    have := hlast hword
    omega
  · simp only [List.mem_flatMap, List.mem_map, List.mem_range]
    constructor
    · rintro ⟨req, ⟨thread, hthread, rfl⟩, hcell⟩
      obtain ⟨⟨hle, -⟩, hword, -, hout⟩ := (fullRequest_at hthread).mem_cells.mp hcell
      dsimp only [Kernel.fullRequest] at hout
      exact ⟨by omega, hword, by omega⟩
    · rintro ⟨hle, hword, hout⟩
      obtain ⟨d, hd⟩ := Nat.exists_eq_add_of_le hle
      have hlt := hlast hword
      have hdiv := Nat.div_add_mod d kernel.fullChunksPerThread
      have hmod := Nat.mod_lt d (Nat.pos_of_ne_zero hzero)
      rw [Nat.mul_comm] at hdiv
      have hthread : d / kernel.fullChunksPerThread < kernel.numThreads :=
        Nat.div_lt_of_lt_mul (by rw [Nat.mul_comm]; omega)
      refine ⟨_, ⟨_, hthread, rfl⟩, (fullRequest_at hthread).mem_cells.mpr ?_⟩
      dsimp only [Kernel.fullRequest]
      omega

lemma nodup_leftoverCells (kernel : Kernel) :
    (kernel.leftoverRequests.flatMap kernel.cells).Nodup := by
  simp only [Kernel.leftoverRequests, List.flatMap_assoc, List.flatMap_map]
  refine List.nodup_flatMap.mpr
    ⟨fun chunk hchunk => List.nodup_flatMap.mpr ⟨fun tc htc => ?_, ?_⟩, ?_⟩
  · exact (leftoverRequest_at (List.mem_range.mp hchunk) (List.mem_range.mp htc)).nodup_cells
  · refine List.nodup_range.imp_of_mem fun {tc tc'} htc htc' hne => List.disjoint_left.mpr ?_
    rintro ⟨word, output⟩ hcell hcell'
    rw [List.mem_range] at hchunk htc htc'
    have hsplits := splits (Nat.zero_lt_of_lt hchunk)
    obtain ⟨-, -, hge, hout⟩ := (leftoverRequest_at hchunk htc).mem_cells.mp hcell
    obtain ⟨-, -, hge', hout'⟩ := (leftoverRequest_at hchunk htc').mem_cells.mp hcell'
    dsimp only [Kernel.leftoverRequest] at hge hout hge' hout'
    rw [hsplits.outputIdx_add htc] at hout
    rw [hsplits.outputIdx_add htc'] at hout'
    rcases Nat.lt_or_gt_of_ne hne with h | h
    · have := hsplits.outputIdx_mono (show tc + 1 ≤ tc' from h) htc'.le
      omega
    · have := hsplits.outputIdx_mono (show tc' + 1 ≤ tc from h) htc.le
      omega
  · refine List.nodup_range.imp_of_mem fun {chunk chunk'} hchunk hchunk' hne =>
      List.disjoint_left.mpr ?_
    rintro ⟨word, output⟩ hcell hcell'
    simp only [List.mem_flatMap, List.mem_range] at hchunk hchunk' hcell hcell'
    obtain ⟨tc, htc, hcell⟩ := hcell
    obtain ⟨tc', htc', hcell'⟩ := hcell'
    obtain ⟨⟨hle, hlt⟩, -⟩ := (leftoverRequest_at hchunk htc).mem_cells.mp hcell
    obtain ⟨⟨hle', hlt'⟩, -⟩ := (leftoverRequest_at hchunk' htc').mem_cells.mp hcell'
    dsimp only [Kernel.leftoverRequest] at hlt hlt'
    omega

lemma nodup_fullCells (kernel : Kernel) : (kernel.fullRequests.flatMap kernel.cells).Nodup := by
  rw [Kernel.fullRequests]
  split_ifs
  · exact List.nodup_nil
  · rw [List.flatMap_map]
    refine List.nodup_flatMap.mpr
      ⟨fun thread hthread => (fullRequest_at (List.mem_range.mp hthread)).nodup_cells, ?_⟩
    refine List.nodup_range.imp_of_mem fun {thread thread'} hthread hthread' hne =>
      List.disjoint_left.mpr ?_
    rintro ⟨word, output⟩ hcell hcell'
    obtain ⟨⟨hle, hlt⟩, -⟩ := (fullRequest_at (List.mem_range.mp hthread)).mem_cells.mp hcell
    obtain ⟨⟨hle', hlt'⟩, -⟩ := (fullRequest_at (List.mem_range.mp hthread')).mem_cells.mp hcell'
    dsimp only [Kernel.fullRequest] at hlt hlt'
    rcases Nat.lt_or_gt_of_ne hne with h | h
    · have := Nat.mul_le_mul_right kernel.fullChunksPerThread (show thread + 1 ≤ thread' from h)
      rw [Nat.succ_mul] at this
      omega
    · have := Nat.mul_le_mul_right kernel.fullChunksPerThread (show thread' + 1 ≤ thread from h)
      rw [Nat.succ_mul] at this
      omega

lemma mem_cells {word output : ℕ} :
    (word, output) ∈ kernel.runKernel.flatMap kernel.cells ↔ word < kernel.words ∧
    output < kernel.outputs := by
  rw [Kernel.runKernel, List.flatMap_append, List.mem_append, mem_leftoverCells, mem_fullCells]
  omega

lemma nodup_cells (kernel : Kernel) : (kernel.runKernel.flatMap kernel.cells).Nodup := by
  rw [Kernel.runKernel, List.flatMap_append]
  refine (nodup_leftoverCells kernel).append (nodup_fullCells kernel) (List.disjoint_left.mpr ?_)
  rintro ⟨word, output⟩ hcell hcell'
  have hlt := (mem_leftoverCells.mp hcell).1
  have hge := (mem_fullCells.mp hcell').1
  omega

end Distribution

end DriveIntegrity.Parity.Controller
