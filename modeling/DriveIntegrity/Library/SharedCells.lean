import Mathlib.Data.Finset.Card
import Mathlib.Data.Finset.Image
import Mathlib.Logic.Function.Basic

/-! Labelled values written through an arbitrary map into cells that keep the last write. -/

namespace DriveIntegrity.SharedCells

variable {ι P V L : Type} [DecidableEq L]

lemma recognised_le [DecidableEq V] (label : V → L) (want : ι → L) (got : ι → V) (s : Finset ι)
    (hw : Set.InjOn want s) :
    (s.filter (fun i => label (got i) = want i)).card ≤ (s.image got).card := by
  apply Finset.card_le_card_of_injOn got
  · intro i hi
    exact Finset.mem_image_of_mem got (Finset.mem_filter.mp hi).1
  · intro i hi j hj hg
    obtain ⟨hi, hli⟩ := Finset.mem_filter.mp hi
    obtain ⟨hj, hlj⟩ := Finset.mem_filter.mp hj
    exact hw hi hj (by rw [← hli, ← hlj, hg])

variable [DecidableEq P]

def store (f : ι → P) (v : ι → V) (l : List ι) (mem : P → V) : P → V :=
  l.foldl (fun m i => Function.update m (f i) (v i)) mem

@[simp] lemma store_nil (f : ι → P) (v : ι → V) (mem : P → V) : store f v [] mem = mem := rfl

lemma store_append (f : ι → P) (v : ι → V) (l l' : List ι) (mem : P → V) :
    store f v (l ++ l') mem = store f v l' (store f v l mem) := by
  simp [store]

lemma store_concat (f : ι → P) (v : ι → V) (l : List ι) (i : ι) (mem : P → V) :
    store f v (l ++ [i]) mem = Function.update (store f v l mem) (f i) (v i) := by
  simp [store]

lemma last_writer (f : ι → P) (v : ι → V) (l : List ι) (mem : P → V) {i : ι} (hi : i ∈ l) :
    ∃ j ∈ l, f j = f i ∧ store f v l mem (f i) = v j := by
  induction l using List.reverseRecOn with
  | nil => simp at hi
  | append_singleton l k ih =>
    by_cases hk : f k = f i
    · exact ⟨k, by simp, hk, by rw [store_concat, ← hk, Function.update_self]⟩
    · have hl : i ∈ l := by
        rcases List.mem_append.mp hi with h | h
        · exact h
        · exact (hk (by rw [List.mem_singleton.mp h])).elim
      obtain ⟨j, hj, hf, hs⟩ := ih hl
      exact ⟨j, by simp [hj], hf, by rw [store_concat, Function.update_of_ne (Ne.symm hk), hs]⟩

lemma recognised_store [DecidableEq ι] (label : V → L) (want : ι → L) (f : ι → P)
    (v : ι → V) (l : List ι)
    (mem : P → V) (hl : ∀ i ∈ l, label (v i) = want i) (hw : Set.InjOn want l.toFinset) :
    (l.toFinset.filter (fun i => label (store f v l mem (f i)) = want i)).card =
      (l.toFinset.image f).card := by
  have hinj :
      Set.InjOn f (l.toFinset.filter (fun i => label (store f v l mem (f i)) = want i)) := by
    intro i hi j hj hf
    obtain ⟨hi, hli⟩ := Finset.mem_filter.mp hi
    obtain ⟨hj, hlj⟩ := Finset.mem_filter.mp hj
    exact hw hi hj (by rw [← hli, ← hlj, hf])
  rw [← Finset.card_image_of_injOn hinj]
  congr 1
  ext p
  simp only [Finset.mem_image, Finset.mem_filter, List.mem_toFinset]
  constructor
  · rintro ⟨i, ⟨hi, _⟩, rfl⟩
    exact ⟨i, hi, rfl⟩
  · rintro ⟨i, hi, rfl⟩
    obtain ⟨j, hj, hf, hs⟩ := last_writer f v l mem hi
    exact ⟨j, ⟨hj, by rw [hf, hs, hl j hj]⟩, hf⟩

end DriveIntegrity.SharedCells
