import Mathlib.Data.List.Nodup
import Mathlib.Data.List.Perm.Basic
import Mathlib.Tactic

/-! Hash tables whose keys are compared through a canonical form and enumerated in any order. -/

namespace DriveIntegrity

@[ext]
structure HashTable {κ γ : Type} (canon : κ → γ) (ν : Type) where
  entries : List (κ × ν)
  distinct : (entries.map (fun e => canon e.1)).Nodup

/-- The order in which a table hands out its keys. -/
structure IterationOrder (κ : Type) where
  run : List κ → List κ
  perm : ∀ l, (run l).Perm l

def IterationOrder.listed {κ : Type} : IterationOrder κ := ⟨id, List.Perm.refl⟩

namespace HashTable

variable {κ γ ν : Type} [DecidableEq γ] {canon : κ → γ}

def empty : HashTable canon ν := ⟨[], List.nodup_nil⟩

def keys (t : HashTable canon ν) : List κ := t.entries.map Prod.fst

def get? (t : HashTable canon ν) (k : κ) : Option ν :=
  (t.entries.find? (fun e => decide (canon e.1 = canon k))).map Prod.snd

def containsKey (t : HashTable canon ν) (k : κ) : Bool :=
  t.entries.any (fun e => decide (canon e.1 = canon k))

lemma replace_keys (k : κ) (v : ν) (l : List (κ × ν)) :
    (l.map (fun e => if canon e.1 = canon k then (e.1, v) else e)).map (fun e => canon e.1) =
      l.map (fun e => canon e.1) := by
  rw [List.map_map]
  apply List.map_congr_left
  intro e _
  simp only [Function.comp_apply]
  split_ifs <;> rfl

def set (t : HashTable canon ν) (k : κ) (v : ν) : HashTable canon ν :=
  if h : t.containsKey k then
    ⟨t.entries.map (fun e => if canon e.1 = canon k then (e.1, v) else e),
      by rw [replace_keys]; exact t.distinct⟩
  else
    ⟨t.entries ++ [(k, v)], by
      have hk : ∀ e ∈ t.entries, canon e.1 ≠ canon k := by simpa [containsKey] using h
      rw [List.map_append, List.nodup_append]
      refine ⟨t.distinct, by simp, ?_⟩
      intro a ha b hb
      obtain ⟨e, he, rfl⟩ := List.mem_map.mp ha
      simp only [List.map_cons, List.map_nil, List.mem_singleton] at hb
      rw [hb]
      exact hk e he⟩

def remove (t : HashTable canon ν) (k : κ) : HashTable canon ν :=
  ⟨t.entries.filter (fun e => decide (canon e.1 ≠ canon k)),
    (List.filter_sublist.map _).nodup t.distinct⟩

lemma containsKey_iff (t : HashTable canon ν) (k : κ) :
    t.containsKey k = true ↔ ∃ e ∈ t.entries, canon e.1 = canon k := by
  simp [containsKey]

lemma get?_eq_some_iff (t : HashTable canon ν) (k : κ) (v : ν) :
    t.get? k = some v ↔ ∃ e ∈ t.entries, canon e.1 = canon k ∧ e.2 = v := by
  rw [get?, Option.map_eq_some_iff]
  constructor
  · rintro ⟨e, he, rfl⟩
    exact ⟨e, List.mem_of_find?_eq_some he, by simpa using List.find?_some he, rfl⟩
  · rintro ⟨e, he, hk, rfl⟩
    cases hf : t.entries.find? (fun e => decide (canon e.1 = canon k)) with
    | none => exact absurd hk (by simpa using List.find?_eq_none.mp hf e he)
    | some d =>
      have hd := List.mem_of_find?_eq_some hf
      have hkd : canon d.1 = canon k := by simpa using List.find?_some hf
      exact ⟨d, rfl, by rw [List.inj_on_of_nodup_map t.distinct hd he (hkd.trans hk.symm)]⟩

lemma get?_eq_none_iff (t : HashTable canon ν) (k : κ) :
    t.get? k = none ↔ ∀ e ∈ t.entries, canon e.1 ≠ canon k := by
  simp [get?]

lemma get?_of_mem (t : HashTable canon ν) {e : κ × ν} (he : e ∈ t.entries) :
    t.get? e.1 = some e.2 :=
  (t.get?_eq_some_iff e.1 e.2).mpr ⟨e, he, rfl, rfl⟩

def ofPairs (l : List (κ × ν)) : HashTable canon ν := l.foldl (fun t p => t.set p.1 p.2) empty

lemma set_of_fresh (t : HashTable canon ν) (k : κ) (v : ν)
    (h : ∀ e ∈ t.entries, canon e.1 ≠ canon k) :
    (t.set k v).entries = t.entries ++ [(k, v)] := by
  have hc : ¬ t.containsKey k = true := by
    rw [containsKey_iff]
    rintro ⟨e, he, hk⟩
    exact h e he hk
  rw [set, dif_neg hc]

lemma ofPairs_concat (l : List (κ × ν)) (p : κ × ν) :
    (ofPairs (l ++ [p]) : HashTable canon ν) = (ofPairs l).set p.1 p.2 := by
  simp [ofPairs]

lemma ofPairs_entries (l : List (κ × ν)) (h : (l.map (fun e => canon e.1)).Nodup) :
    (ofPairs l : HashTable canon ν).entries = l := by
  induction l using List.reverseRecOn with
  | nil => rfl
  | append_singleton l p ih =>
    rw [List.map_append, List.nodup_append] at h
    obtain ⟨hl, _, hp⟩ := h
    rw [ofPairs_concat, set_of_fresh, ih hl]
    rw [ih hl]
    intro e he
    exact hp _ (List.mem_map_of_mem he) _ (by simp)

lemma remove_of_absent (t : HashTable canon ν) (k : κ) (h : t.get? k = none) : t.remove k = t := by
  apply HashTable.ext
  rw [remove, List.filter_eq_self]
  intro e he
  simpa using (t.get?_eq_none_iff k).mp h e he

lemma get?_remove (t : HashTable canon ν) (j k : κ) :
    (t.remove k).get? j = if canon j = canon k then none else t.get? j := by
  apply Option.ext
  intro v
  simp only [get?_eq_some_iff, remove, List.mem_filter, decide_eq_true_eq]
  split_ifs with h
  · simp only [iff_false]
    rintro ⟨e, ⟨_, hne⟩, hj, _⟩
    exact hne (hj.trans h)
  · rw [get?_eq_some_iff]
    constructor
    · rintro ⟨e, ⟨he, _⟩, hj, hv⟩
      exact ⟨e, he, hj, hv⟩
    · rintro ⟨e, he, hj, hv⟩
      exact ⟨e, ⟨he, hj ▸ h⟩, hj, hv⟩

lemma get?_remove_of_ne (t : HashTable canon ν) {j k : κ} (h : canon j ≠ canon k) :
    (t.remove k).get? j = t.get? j := by
  rw [get?_remove, if_neg h]

lemma get?_set (t : HashTable canon ν) (j k : κ) (v : ν) :
    (t.set k v).get? j = if canon j = canon k then some v else t.get? j := by
  by_cases hc : t.containsKey k = true
  · have hp : (fun e : κ × ν => decide (canon e.1 = canon j)) ∘
        (fun e => if canon e.1 = canon k then (e.1, v) else e) = fun e =>
          decide (canon e.1 = canon j) := by
      funext e
      simp only [Function.comp_apply]
      split_ifs <;> rfl
    rw [set, dif_pos hc, get?, List.find?_map, hp, get?]
    cases hf : t.entries.find? (fun e => decide (canon e.1 = canon j)) with
    | none =>
      obtain ⟨e, he, hk⟩ := (t.containsKey_iff k).mp hc
      have hj : canon e.1 ≠ canon j := by simpa using List.find?_eq_none.mp hf e he
      rw [if_neg (fun h => hj (hk.trans h.symm))]
      rfl
    | some e =>
      have hj : canon e.1 = canon j := by simpa using List.find?_some hf
      simp only [Option.map_some, hj]
      split_ifs <;> rfl
  · have hk : ∀ e ∈ t.entries, canon e.1 ≠ canon k := by simpa [containsKey] using hc
    rw [get?, set_of_fresh t k v hk, List.find?_append, get?]
    cases hf : t.entries.find? (fun e => decide (canon e.1 = canon j)) with
    | none => simp [eq_comm (a := canon j)]
    | some e =>
      have hj : canon e.1 = canon j := by simpa using List.find?_some hf
      rw [if_neg (fun h => hk e (List.mem_of_find?_eq_some hf) (hj.trans h))]
      rfl

def removeAll (t : HashTable canon ν) (ks : List κ) : HashTable canon ν := ks.foldl remove t

lemma removeAll_entries (t : HashTable canon ν) (ks : List κ) :
    (t.removeAll ks).entries =
      t.entries.filter (fun e => decide (∀ k ∈ ks, canon e.1 ≠ canon k)) := by
  induction ks generalizing t with
  | nil => simp [removeAll]
  | cons k ks ih =>
    have hc : t.removeAll (k :: ks) = (t.remove k).removeAll ks := rfl
    rw [hc, ih, remove, List.filter_filter]
    apply List.filter_congr
    intro e _
    simp [Bool.and_comm]

lemma get?_removeAll (t : HashTable canon ν) (ks : List κ) (j : κ) :
    (t.removeAll ks).get? j = if ∃ k ∈ ks, canon j = canon k then none else t.get? j := by
  induction ks generalizing t with
  | nil => simp [removeAll]
  | cons k ks ih =>
    have hc : t.removeAll (k :: ks) = (t.remove k).removeAll ks := rfl
    rw [hc, ih, get?_remove]
    by_cases hks : ∃ l ∈ ks, canon j = canon l
    · rw [if_pos hks, if_pos]
      obtain ⟨l, hl, he⟩ := hks
      exact ⟨l, List.mem_cons_of_mem k hl, he⟩
    · simp only [hks, List.exists_mem_cons_iff, or_false, if_false]

end HashTable

end DriveIntegrity
