import Mathlib.Algebra.BigOperators.Group.Finset.Basic
import DriveIntegrity.Library.Batches

/-! The threads of `PAR2ProcCPU`: one adds input blocks, one copies them, the others compute. -/

namespace DriveIntegrity.Parity.Controller

variable {R : Type}

section State

/-- The part of every batch that `run_kernel` gives to one worker: its thread and its words of the
outputs, each a position and the number of an output. -/
structure Share where
  thread : ℕ
  cells : List (ℕ × ℕ)

/-- What the backend is set up for, and what it is given. -/
structure Pass (R : Type) where
  inputs : ℕ
  data : ℕ → ℕ → R
  coeffs : ℕ → ℕ → R
  words : ℕ
  /-- `NUM_TRANSFER_BUFFERS` -/
  buffers : ℕ
  /-- `staging.size()` -/
  areas : ℕ
  inputBatchSize : ℕ
  minInBatchSize : ℕ
  shares : List Share
  buffers_pos : 0 < buffers
  areas_pos : 0 < areas

/-- `PAR2ProcCPUStaging`: the words of the inputs and their factors, by the place in the batch -/
structure Staging (R : Type) where
  src : ℕ → ℕ → R
  procCoeffs : ℕ → ℕ → R
  isActive : Bool
  procRefs : ℕ

namespace Staging

variable (area : Staging R)

def setIsActive (v : Bool) : Staging R :=
  { area with isActive := v }

def setProcRefs (n : ℕ) : Staging R :=
  { area with procRefs := n }

def setCoeffs (place : ℕ) (coeffs : ℕ → R) : Staging R :=
  { area with procCoeffs := Function.update area.procCoeffs place coeffs }

def setWord (place word : ℕ) (value : R) : Staging R :=
  { area with src := Function.update area.src place (Function.update (area.src place) word value) }

end Staging

/-- `transfer_data`; a flush has no `src` -/
structure TransferData where
  src : Option ℕ
  inBufId : ℕ
  index : ℕ
  submitInBufs : ℕ

structure ComputeReq where
  procIdx : ℕ
  numInputs : ℕ
  add : Bool
  cells : List (ℕ × ℕ)

/-- Where the thread of `ProcessData` is. -/
inductive MainThread
  | reading
  | adding
  | ending
  | ended
deriving DecidableEq

/-- Where `transfer_slice` is with the first entry of its queue. -/
inductive Transfer
  | copying (words : ℕ)
  | sending (add : Bool) (shares : ℕ)
deriving DecidableEq

/-- A `compute_worker`: its queue, the words done of the first entry, and the area it is about to
release. -/
structure Worker where
  queue : List ComputeReq
  done : ℕ
  closing : Option ℕ

namespace Worker

variable (worker : Worker)

def push (req : ComputeReq) : Worker :=
  { worker with queue := worker.queue ++ [req] }

def advance : Worker :=
  { worker with done := worker.done + 1 }

def close : Worker :=
  { worker with closing := none }

end Worker

structure State (R : Type) where
  main : MainThread
  added : ℕ
  transferbuffer : ℕ → ℕ → R
  /-- `bufferavail` is not ready -/
  busy : ℕ → Bool
  staging : ℕ → Staging R
  stagingActiveCount : ℕ
  currentStagingArea : ℕ
  currentStagingInputs : ℕ
  transfers : List TransferData
  transfer : Transfer
  processingAdd : Bool
  workers : ℕ → Worker
  memProcessing : ℕ × ℕ → R

end State

section Steps

variable (pass : Pass R) (s : State R)

def Pass.nextArea (area : ℕ) : ℕ :=
  if area + 1 = pass.areas then 0 else area + 1

/-- The batch is complete, or large enough when nothing is being computed. -/
def State.submits (inputs : ℕ) : Bool :=
  inputs = pass.inputBatchSize ∨
    s.stagingActiveCount = 0 ∧ pass.areas > 1 ∧ inputs ≥ pass.minInBatchSize

/-- An area is locked until its batch is computed, and the next batch begins. -/
def State.submit : State R :=
  { s with
    stagingActiveCount := s.stagingActiveCount + 1
    staging := Function.update s.staging s.currentStagingArea
      ((s.staging s.currentStagingArea).setIsActive true)
    currentStagingInputs := 0
    currentStagingArea := pass.nextArea s.currentStagingArea }

def State.addInput : State R :=
  let inputs := s.currentStagingInputs + 1
  let data : TransferData := {
    src := some (s.added % pass.buffers)
    inBufId := s.currentStagingArea
    index := s.currentStagingInputs
    submitInBufs := if s.submits pass inputs then inputs else 0 }
  let added : State R := { s with
    main := .reading
    added := s.added + 1
    busy := Function.update s.busy (s.added % pass.buffers) true
    staging := Function.update s.staging s.currentStagingArea
      ((s.staging s.currentStagingArea).setCoeffs s.currentStagingInputs (pass.coeffs s.added))
    currentStagingInputs := inputs
    transfers := s.transfers ++ [data] }
  if s.submits pass inputs then added.submit pass else added

def State.flush : State R :=
  let data : TransferData := {
    src := none
    inBufId := s.currentStagingArea
    index := 0
    submitInBufs := s.currentStagingInputs }
  { s with transfers := s.transfers ++ [data] }.submit pass

/-- The transfer of one word of an input, by `prepare_packed_cksum` -/
def State.copy (data : TransferData) (buffer word : ℕ) : State R :=
  { s with
    transfer := .copying (word + 1)
    staging := Function.update s.staging data.inBufId
      ((s.staging data.inBufId).setWord data.index word (s.transferbuffer buffer word)) }

/-- `run_kernel` before its requests are sent -/
def State.runKernel (data : TransferData) : State R :=
  { s with
    transfer := .sending s.processingAdd 0
    processingAdd := true
    staging := Function.update s.staging data.inBufId
      ((s.staging data.inBufId).setProcRefs pass.shares.length) }

def State.send (data : TransferData) (add : Bool) (share : Share) (sent : ℕ) : State R :=
  let req : ComputeReq := ⟨data.inBufId, data.submitInBufs, add, share.cells⟩
  { s with
    transfer := .sending add (sent + 1)
    workers := Function.update s.workers share.thread ((s.workers share.thread).push req) }

/-- `NOTIFY_DONE` of `transfer_slice` -/
def State.notify (data : TransferData) (rest : List TransferData) : State R :=
  { s with
    transfers := rest
    transfer := .copying 0
    busy := match data.src with
      | some buffer => Function.update s.busy buffer false
      | none => s.busy }

def State.computed [Semiring R] (req : ComputeReq) (cell : ℕ × ℕ) : R :=
  let area := s.staging req.procIdx
  (if req.add then s.memProcessing cell else 0) +
    ∑ i ∈ Finset.range req.numInputs, area.procCoeffs i cell.2 * area.src i cell.1

def State.compute [Semiring R] (thread : ℕ) (req : ComputeReq) (cell : ℕ × ℕ) : State R :=
  { s with
    memProcessing := Function.update s.memProcessing cell (s.computed req cell)
    workers := Function.update s.workers thread (s.workers thread).advance }

/-- A request is done; the last one of its area counts it out. -/
def State.complete (thread : ℕ) (req : ComputeReq) (rest : List ComputeReq) : State R :=
  let refs := (s.staging req.procIdx).procRefs
  let last := refs ≤ 1
  { s with
    staging :=
      Function.update s.staging req.procIdx ((s.staging req.procIdx).setProcRefs (refs - 1))
    stagingActiveCount := if last then s.stagingActiveCount - 1 else s.stagingActiveCount
    workers := Function.update s.workers thread ⟨rest, 0, if last then some req.procIdx else none⟩ }

def State.close (thread area : ℕ) : State R :=
  { s with
    staging := Function.update s.staging area ((s.staging area).setIsActive false)
    workers := Function.update s.workers thread (s.workers thread).close }

inductive Step [Semiring R] : State R → State R → Prop
  | read {s : State R} (hmain : s.main = .reading) (hmore : s.added < pass.inputs)
      (havail : s.busy (s.added % pass.buffers) = false) :
      Step s { s with
        main := .adding
        transferbuffer :=
          Function.update s.transferbuffer (s.added % pass.buffers) (pass.data s.added) }
  /-- `waitForAdd` has returned. -/
  | add {s : State R} (hmain : s.main = .adding)
      (hfree : (s.staging s.currentStagingArea).isActive = false) :
      Step s (s.addInput pass)
  | flush {s : State R} (hmain : s.main = .reading) (hall : s.added = pass.inputs)
      (hinputs : s.currentStagingInputs ≠ 0)
      (hfree : (s.staging s.currentStagingArea).isActive = false) :
      Step s { s.flush pass with main := .ending }
  | endInput {s : State R} (hmain : s.main = .reading) (hall : s.added = pass.inputs)
      (hinputs : s.currentStagingInputs = 0) : Step s { s with main := .ending }
  /-- The futures of all areas are ready. -/
  | finish {s : State R} (hmain : s.main = .ending)
      (hfree : ∀ area < pass.areas, (s.staging area).isActive = false) :
      Step s { s with main := .ended }
  | copy {s : State R} {data : TransferData} {rest : List TransferData} {buffer word : ℕ}
      (hqueue : s.transfers = data :: rest) (hsrc : data.src = some buffer)
      (hat : s.transfer = .copying word)
      (hword : word < pass.words) : Step s (s.copy data buffer word)
  | runKernel {s : State R} {data : TransferData} {rest : List TransferData} {words : ℕ}
      (hqueue : s.transfers = data :: rest) (hat : s.transfer = .copying words)
      (hcopied : data.src = none ∨ words = pass.words) (hsubmit : data.submitInBufs ≠ 0) :
      Step s (s.runKernel pass data)
  | send {s : State R} {data : TransferData} {rest : List TransferData} {add : Bool} {sent : ℕ}
      (hqueue : s.transfers = data :: rest) (hat : s.transfer = .sending add sent)
      (hsent : sent < pass.shares.length) :
      Step s (s.send data add pass.shares[sent] sent)
  | copied {s : State R} {data : TransferData} {rest : List TransferData} {words : ℕ}
      (hqueue : s.transfers = data :: rest) (hat : s.transfer = .copying words)
      (hcopied : data.src = none ∨ words = pass.words) (hsubmit : data.submitInBufs = 0) :
      Step s (s.notify data rest)
  | sent {s : State R} {data : TransferData} {rest : List TransferData} {add : Bool}
      (hqueue : s.transfers = data :: rest) (hat : s.transfer = .sending add pass.shares.length) :
      Step s (s.notify data rest)
  | compute {s : State R} {thread : ℕ} {req : ComputeReq} {rest : List ComputeReq}
      (hqueue : (s.workers thread).queue = req :: rest)
      (hclosing : (s.workers thread).closing = none)
      (hdone : (s.workers thread).done < req.cells.length) :
      Step s (s.compute thread req req.cells[(s.workers thread).done])
  | complete {s : State R} {thread : ℕ} {req : ComputeReq} {rest : List ComputeReq}
      (hqueue : (s.workers thread).queue = req :: rest)
      (hclosing : (s.workers thread).closing = none)
      (hdone : (s.workers thread).done = req.cells.length) : Step s (s.complete thread req rest)
  | close {s : State R} {thread area : ℕ} (hclosing : (s.workers thread).closing = some area) :
      Step s (s.close thread area)

/-- All threads are at rest; `discardOutput` has been called. -/
structure Initial : Prop where
  main : s.main = .reading
  added : s.added = 0
  busy : ∀ buffer, s.busy buffer = false
  isActive : ∀ area, (s.staging area).isActive = false
  currentStagingArea : s.currentStagingArea < pass.areas
  currentStagingInputs : s.currentStagingInputs = 0
  transfers : s.transfers = []
  transfer : s.transfer = .copying 0
  processingAdd : s.processingAdd = false
  queue : ∀ thread, (s.workers thread).queue = []
  done : ∀ thread, (s.workers thread).done = 0
  closing : ∀ thread, (s.workers thread).closing = none

def State.getOutput [Zero R] (output word : ℕ) : R :=
  if s.processingAdd then s.memProcessing (word, output) else 0

end Steps

end DriveIntegrity.Parity.Controller
