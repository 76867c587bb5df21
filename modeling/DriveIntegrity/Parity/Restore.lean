import DriveIntegrity.Parity.Compute
import DriveIntegrity.Parity.Threads

/-! The recovery blocks that `Par2Creator` has the threads make, and the blocks that `Par2Repairer`
gets back. -/

namespace DriveIntegrity.Parity

open Controller Finset

section Blocks

/-- `s` is where the threads of a pass end, in some order of their steps. -/
def Ended (kernel : Kernel) (pass : Pass Galois16) (s : State Galois16) : Prop :=
  ∃ initial, Initial (kernel.setup pass) initial ∧
    Relation.ReflTransGen (Step (kernel.setup pass)) initial s ∧
    s.main = .ended

variable (base : Pass Galois16)

end Blocks

section Restore

variable {shape : Shape} {malloc malloc' : Tables} {present : List Bool}
  {recovery recindex : List ℕ} {mat : Mat}
  {sourceblocks : List Words} {recoverypacketmap : ℕ → Words}

lemma Ended.getOutput {kernel : Kernel} {pass : Pass Galois16} {s : State Galois16}
    (h : Ended kernel pass s) :
    ∀ output < kernel.outputs, ∀ word < kernel.words,
      s.getOutput output word = ∑ x ∈ range pass.inputs,
      pass.coeffs x output * pass.data x word := by
  obtain ⟨initial, hinitial, hrun, hmain⟩ := h
  exact hinitial.sum_of_ended (setup_distributed kernel pass) hrun hmain

lemma exists_ended (kernel : Kernel) (pass : Pass Galois16) : ∃ s, Ended kernel pass s := by
  obtain ⟨s, hrun, hmain⟩ :=
    (initial_idle (kernel.setup pass)).exists_ended (setup_distributed kernel pass)
    (shares_pos kernel pass) .refl
  exact ⟨s, State.idle, initial_idle _, hrun, hmain⟩

end Restore

end DriveIntegrity.Parity
