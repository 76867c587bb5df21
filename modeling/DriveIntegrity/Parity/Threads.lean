import DriveIntegrity.Parity.Kernel

/-! What the threads make of the inputs, whatever the order of their steps. -/

namespace DriveIntegrity.Parity.Controller

open Finset

section Setup

variable {R : Type}

/-- What `run_kernel` sends for every batch -/
def Kernel.shares (kernel : Kernel) : List Share :=
  kernel.runKernel.map fun req => ⟨req.thread, kernel.cells req⟩

def Kernel.setup (kernel : Kernel) (pass : Pass R) : Pass R :=
  { pass with
    words := kernel.words
    shares := kernel.shares }

/-- The threads after `init` -/
def State.idle [Zero R] : State R where
  main := .reading
  added := 0
  transferbuffer := fun _ _ => 0
  busy := fun _ => false
  staging := fun _ => ⟨fun _ _ => 0, fun _ _ => 0, false, 0⟩
  stagingActiveCount := 0
  currentStagingArea := 0
  currentStagingInputs := 0
  transfers := []
  transfer := .copying 0
  processingAdd := false
  workers := fun _ => ⟨[], 0, none⟩
  memProcessing := fun _ => 0

lemma initial_idle [Zero R] (pass : Pass R) : Initial pass State.idle where
  main := rfl
  added := rfl
  busy := fun _ => rfl
  isActive := fun _ => rfl
  currentStagingArea := pass.areas_pos
  currentStagingInputs := rfl
  transfers := rfl
  transfer := rfl
  processingAdd := rfl
  queue := fun _ => rfl
  done := fun _ => rfl
  closing := fun _ => rfl

lemma shares_cells (kernel : Kernel) :
    kernel.shares.flatMap Share.cells = kernel.runKernel.flatMap kernel.cells := by
  rw [Kernel.shares, List.flatMap_map]

lemma setup_distributed (kernel : Kernel) (pass : Pass R) :
    (kernel.setup pass).Distributed kernel.outputs := by
  refine ⟨?_, fun cell hcell => ?_, fun word hword output houtput => ?_⟩
  · rw [Kernel.setup, shares_cells]
    exact nodup_cells kernel
  · rw [Kernel.setup, shares_cells] at hcell
    exact (mem_cells.mp hcell).1
  · rw [Kernel.setup, shares_cells]
    exact mem_cells.mpr ⟨hword, houtput⟩

lemma shares_pos (kernel : Kernel) (pass : Pass R) : 0 < (kernel.setup pass).shares.length := by
  have hwords : 0 < kernel.words := by
    have hsize := kernel.size_pos
    rw [size_eq] at hsize
    omega
  have hmem : (0, 0) ∈ kernel.runKernel.flatMap kernel.cells :=
    mem_cells.mpr ⟨hwords, kernel.outputs_pos⟩
  obtain ⟨req, hreq, -⟩ := List.mem_flatMap.mp hmem
  rw [Kernel.setup, Kernel.shares, List.length_map]
  exact List.length_pos_of_mem hreq

end Setup

section Results

variable {R : Type} [Semiring R] {kernel : Kernel} {pass : Pass R} {s s' : State R}

/-- Two threads and three chunks -/
def sampleKernel (outputs : ℕ) (hpos : 0 < outputs) (hle : outputs ≤ 65536) : Kernel where
  numThreads := 2
  size := 6
  idealChunkSize := 2
  stride := 2
  outputs := outputs
  numThreads_pos := by decide
  size_pos := by decide
  stride_dvd_size := by decide
  two_dvd_stride := by decide
  outputs_pos := hpos
  outputs_le := hle

def threeOutputs : Kernel :=
  sampleKernel 3 (by decide) (by decide)

def samplePass : Pass ℕ where
  inputs := 5
  data := fun x word => x + word
  coeffs := fun x output => x * output
  words := 0
  buffers := 2
  areas := 2
  inputBatchSize := 2
  minInBatchSize := 2
  shares := []
  buffers_pos := by decide
  areas_pos := by decide

/-- The threads never all wait: some step is there until the main thread has ended, and steps lead
there. -/
theorem exists_step_until_ended (hinitial : Initial (kernel.setup pass) s)
    (hrun : Relation.ReflTransGen (Step (kernel.setup pass)) s s') :
    (s'.main ≠ .ended → ∃ s'', Step (kernel.setup pass) s' s'') ∧
      ∃ s'', Relation.ReflTransGen (Step (kernel.setup pass)) s' s'' ∧ s''.main = .ended :=
  ⟨hinitial.not_stuck (setup_distributed kernel pass) (shares_pos kernel pass) hrun,
    hinitial.exists_ended (setup_distributed kernel pass) (shares_pos kernel pass) hrun⟩

/-- Two of five inputs have been added: their buffers are taken, their area is locked, the first of
their requests waits for a worker and the others are still to be sent. -/
structure MidPass (s : State ℕ) : Prop where
  added : s.main = .reading ∧ s.added = 2
  busy : s.busy 0 = false ∧ s.busy 1 = true
  isActive : (s.staging 0).isActive = true
  transfers : s.transfers.length = 1 ∧ s.transfer = .sending false 1
  queued : (s.workers 0).queue.length = 1 ∧ (s.workers 1).queue.length = 0

lemma exists_midPass :
    ∃ s, Relation.ReflTransGen (Step (threeOutputs.setup samplePass)) State.idle s ∧ MidPass s := by
  have hread : Relation.ReflTransGen (Step (threeOutputs.setup samplePass)) State.idle _ :=
    .tail (.tail (.tail (.tail .refl (.read rfl (by decide) rfl)) (.add rfl rfl))
      (.read rfl (by decide) rfl)) (.add rfl rfl)
  have hfirst :=
    (((hread.tail (.copy rfl rfl rfl (by decide))).tail (.copy rfl rfl rfl (by decide))).tail
    (.copy rfl rfl rfl (by decide))).tail (.copied rfl rfl (.inr rfl) rfl)
  have hsecond :=
    ((hfirst.tail (.copy rfl rfl rfl (by decide))).tail (.copy rfl rfl rfl (by decide))).tail
    (.copy rfl rfl rfl (by decide))
  have hsent := (hsecond.tail (.runKernel rfl rfl (.inr rfl) (by decide))).tail
    (.send rfl rfl (shares_pos threeOutputs samplePass))
  refine ⟨_, hsent, ⟨rfl, rfl⟩, ⟨rfl, rfl⟩, rfl, ⟨rfl, rfl⟩, ?_⟩
  decide +kernel

theorem exists_step_until_ended_sample :
    ∃ s',
    (Relation.ReflTransGen (Step (threeOutputs.setup samplePass)) State.idle s' ∧ MidPass s') ∧
      (∃ s'', Step (threeOutputs.setup samplePass) s' s'') ∧
      ∃ s'', Relation.ReflTransGen (Step (threeOutputs.setup samplePass)) s' s'' ∧
        s''.main = .ended := by
  obtain ⟨s', hrun, hmid⟩ := exists_midPass
  obtain ⟨hstep, hended⟩ :=
    exists_step_until_ended (initial_idle (threeOutputs.setup samplePass)) hrun
  exact ⟨s', ⟨hrun, hmid⟩, hstep (by rw [hmid.added.1]; exact nofun), hended⟩

/-- No order of the steps goes on for longer than the work there is for the inputs and the
requests. -/
theorem length_run_le (run : ℕ → State R) (hinitial : Initial (kernel.setup pass) (run 0)) {n : ℕ}
    (hrun : ∀ i < n, Step (kernel.setup pass) (run i) (run (i + 1))) :
    n ≤ (pass.inputs + 1) * ((kernel.setup pass).itemCost + 2) := by
  rw [Nat.succ_mul]
  exact hinitial.run_length (setup_distributed kernel pass) hrun

lemma exists_run {α : Type} {r : α → α → Prop} {a b : α} (h : Relation.ReflTransGen r a b) :
    ∃ (n : ℕ) (run : ℕ → α), run 0 = a ∧ run n = b ∧ ∀ i < n, r (run i) (run (i + 1)) := by
  induction h with
  | refl => exact ⟨0, fun _ => a, rfl, rfl, fun i hi => absurd hi (Nat.not_lt_zero i)⟩
  | @tail b c _ hstep ih =>
    obtain ⟨n, run, hzero, hn, hrun⟩ := ih
    refine ⟨n + 1, fun i => if i ≤ n then run i else c, (if_pos (Nat.zero_le n)).trans hzero,
      if_neg (by omega),
      fun i hi => ?_⟩
    dsimp only
    rw [if_pos (Nat.le_of_lt_succ hi)]
    rcases (Nat.le_of_lt_succ hi).lt_or_eq with hlt | rfl
    · rw [if_pos (show i + 1 ≤ n from hlt)]
      exact hrun i hlt
    · rw [if_neg (Nat.not_succ_le_self i), hn]
      exact hstep

lemma itemCost_sample : (threeOutputs.setup samplePass).itemCost = 26 := by
  decide +kernel

/-- From the first input to the end of the third batch: the last word of the last output is there,
and no more than 168 steps were taken. -/
theorem length_run_le_sample :
    ∃ (n : ℕ) (run : ℕ → State ℕ), run 0 = State.idle ∧
      (∀ i < n, Step (threeOutputs.setup samplePass) (run i) (run (i + 1))) ∧
      ((run n).main = .ended ∧ (run n).getOutput 2 2 = 100) ∧ n ≤ 168 := by
  obtain ⟨s', hreach, hmain⟩ :=
    (initial_idle _).exists_ended (setup_distributed threeOutputs samplePass)
    (shares_pos threeOutputs samplePass) .refl
  have hsum := (initial_idle _).sum_of_ended (setup_distributed threeOutputs samplePass) hreach
    hmain 2 (by decide) 2
    (by decide)
  obtain ⟨n, run, hzero, rfl, hrun⟩ := exists_run hreach
  refine ⟨n, run, hzero, hrun, ⟨hmain, hsum.trans (by decide)⟩, ?_⟩
  have hle := length_run_le run (hzero ▸ initial_idle _) hrun
  rwa [itemCost_sample] at hle

end Results

end DriveIntegrity.Parity.Controller
