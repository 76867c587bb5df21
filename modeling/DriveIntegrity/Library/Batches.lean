import Mathlib.Data.List.Range
import Mathlib.Tactic

/-! Items that come one after the other and are cut into batches, and the queues that carry them. -/

namespace DriveIntegrity.Batches

section History

/-! A history has the newest item first; `true` stands for an item that ends its batch. -/

/-- The number of batches that have ended. -/
def ended : List Bool → ℕ
  | [] => 0
  | last :: before => ended before + last.toNat

/-- The number of items since the end of the last batch. -/
def since : List Bool → ℕ
  | [] => 0
  | last :: before => if last then 0 else since before + 1

/-- The number of items before batch `k`. -/
def start : List Bool → ℕ → ℕ
  | [], _ => 0
  | last :: before, k => if last ∧ k = ended before + 1 then before.length + 1 else start before k

variable {last : Bool} {history : List Bool} {k n : ℕ}

@[simp] lemma ended_true : ended (true :: history) = ended history + 1 := rfl

@[simp] lemma ended_false : ended (false :: history) = ended history := rfl

@[simp] lemma since_true : since (true :: history) = 0 := rfl

@[simp] lemma since_false : since (false :: history) = since history + 1 := rfl

lemma ended_le_cons : ended history ≤ ended (last :: history) :=
  Nat.le_add_right _ _

lemma start_cons (hk : k ≤ ended history) : start (last :: history) k = start history k :=
  if_neg fun h => by omega

lemma start_true : start (true :: history) (ended history + 1) = history.length + 1 :=
  if_pos ⟨rfl, rfl⟩

lemma start_zero (history : List Bool) : start history 0 = 0 := by
  induction history with
  | nil => rfl
  | cons last history ih => rw [start_cons (Nat.zero_le _), ih]

lemma start_le_length (history : List Bool) (k : ℕ) : start history k ≤ history.length := by
  induction history with
  | nil => exact le_rfl
  | cons last history ih =>
    rw [start]
    split_ifs
    · rfl
    · exact ih.trans (Nat.le_succ _)

lemma start_ended_add_since (history : List Bool) :
    start history (ended history) + since history = history.length := by
  induction history with
  | nil => rfl
  | cons last history ih =>
    cases last
    · rw [ended_false, start_cons le_rfl, since_false, ← Nat.add_assoc, ih, List.length_cons]
    · rw [ended_true, start_true, since_true, List.length_cons]

lemma start_lt_start_succ (hk : k < ended history) : start history k < start history (k + 1) := by
  induction history with
  | nil => exact absurd hk (Nat.not_lt_zero k)
  | cons last history ih =>
    rcases lt_or_ge k (ended history) with hlt | hge
    · rw [start_cons hlt.le, start_cons hlt]
      exact ih hlt
    · cases last
      · exact absurd hk (not_lt.mpr hge)
      · rw [ended_true] at hk
        obtain rfl : k = ended history := by omega
        rw [start_cons le_rfl, start_true]
        exact Nat.lt_succ_of_le (start_le_length _ _)

lemma start_mono {j : ℕ} (hj : j ≤ k) (hk : k ≤ ended history) :
    start history j ≤ start history k := by
  induction k, hj using Nat.le_induction with
  | base => rfl
  | succ k _ ih => exact (ih (by omega)).trans (start_lt_start_succ (by omega)).le

lemma ended_drop_le (history : List Bool) (n : ℕ) : ended (history.drop n) ≤ ended history := by
  induction history generalizing n with
  | nil => rw [List.drop_nil]
  | cons last history ih =>
    cases n with
    | zero => exact le_rfl
    | succ n => exact (ih n).trans ended_le_cons

lemma start_drop (hk : k ≤ ended (history.drop n)) :
    start history k = start (history.drop n) k := by
  induction history generalizing n with
  | nil => rw [List.drop_nil]
  | cons last history ih =>
    cases n with
    | zero => rfl
    | succ n =>
      rw [List.drop_succ_cons] at hk ⊢
      rw [start_cons (hk.trans (ended_drop_le history n)), ih hk]

/-- What was known before item `x`. -/
def before (history : List Bool) (x : ℕ) : List Bool :=
  history.drop (history.length - x)

variable {x y : ℕ}

@[simp] lemma length_before (hx : x ≤ history.length) : (before history x).length = x := by
  rw [before, List.length_drop]
  omega

lemma before_cons (hx : x ≤ history.length) : before (last :: history) x = before history x := by
  rw [before, before, List.length_cons, Nat.succ_sub hx, List.drop_succ_cons]

lemma before_eq_drop (hx : x + n = history.length) : before history x = history.drop n := by
  rw [before, ← hx, Nat.add_sub_cancel_left]

lemma before_length (history : List Bool) : before history history.length = history := by
  rw [before, Nat.sub_self, List.drop_zero]

lemma before_before (hy : y ≤ history.length) (hx : x ≤ y) :
    before (before history y) x = before history x := by
  rw [before, length_before hy, before, before, List.drop_drop]
  congr 1
  omega

lemma ended_before_le (history : List Bool) (x : ℕ) : ended (before history x) ≤ ended history :=
  ended_drop_le history _

lemma ended_before_mono (hy : y ≤ history.length) (hx : x ≤ y) :
    ended (before history x) ≤ ended (before history y) := by
  rw [← before_before hy hx]
  exact ended_before_le _ x

lemma start_before (hk : k ≤ ended (before history x)) :
    start (before history x) k = start history k :=
  (start_drop hk).symm

lemma start_add_since_before (hx : x ≤ history.length) :
    start history (ended (before history x)) + since (before history x) = x := by
  rw [← start_before le_rfl, start_ended_add_since, length_before hx]

lemma lt_start_succ (hk : k < ended history) (hx : x ≤ history.length)
    (hle : ended (before history x) ≤ k) :
    x < start history (k + 1) := by
  induction history with
  | nil => exact absurd hk (Nat.not_lt_zero k)
  | cons last history ih =>
    rcases Nat.lt_succ_iff_lt_or_eq.mp (Nat.lt_succ_of_le hx) with hlt | rfl
    · rw [List.length_cons] at hlt
      rw [before_cons (by omega)] at hle
      rcases lt_or_ge k (ended history) with hlt' | hge
      · rw [start_cons hlt']
        exact ih hlt' (by omega) hle
      · cases last
        · exact absurd hk (not_lt.mpr hge)
        · rw [ended_true] at hk
          obtain rfl : k = ended history := by omega
          rw [start_true]
          exact hlt
    · rw [before_length] at hle
      omega

lemma ended_before_eq (hk : k < ended history) (hle : start history k ≤ x)
    (hlt : x < start history (k + 1)) :
    ended (before history x) = k := by
  have hx : x ≤ history.length := hlt.le.trans (start_le_length _ _)
  rcases lt_trichotomy (ended (before history x)) k with h | h | h
  · have hend := lt_start_succ (k := k - 1) (by omega) hx (by omega)
    rw [show k - 1 + 1 = k by omega] at hend
    omega
  · exact h
  · have hend : start history (k + 1) ≤ x := by
      rw [← start_before (x := x) h]
      exact (start_le_length _ _).trans (length_before hx).le
    omega

lemma since_before_lt (hy : y ≤ history.length) (hx : x < y)
    (h : ended (before history x) = ended (before history y)) :
    since (before history x) < since (before history y) := by
  have hsx := start_add_since_before (hx.le.trans hy)
  have hsy := start_add_since_before hy
  rw [h] at hsx
  omega

end History

section Recent

variable {J : Type} (f : List Bool → Bool → J)

/-- What is made of the last `n` items, each with the history before it, the oldest first. -/
def recent : List Bool → ℕ → List J
  | _, 0 => []
  | [], _ + 1 => []
  | last :: before, n + 1 => recent before n ++ [f before last]

lemma recent_cons (history : List Bool) (last : Bool) (n : ℕ) :
    recent f (last :: history) (n + 1) = recent f history n ++ [f history last] := rfl

lemma recent_succ {history : List Bool} {n : ℕ} (hn : n < history.length) :
    recent f history (n + 1) = f (history.drop (n + 1)) history[n] :: recent f history n := by
  induction history generalizing n with
  | nil => exact absurd hn (Nat.not_lt_zero n)
  | cons last history ih =>
    cases n with
    | zero => simp [recent]
    | succ n =>
      rw [recent_cons, ih (Nat.lt_of_succ_lt_succ hn), recent_cons]
      rfl

end Recent

section Queue

variable {ι : Type} [DecidableEq ι] {queue rest : List (ℕ × ι)} {i j : ι} {first k n : ℕ}

/-- Of the turns of `i`, those from `first` up to `k` are in the queue, in this order. -/
def Turns (queue : List (ℕ × ι)) (i : ι) (first k : ℕ) : Prop :=
  queue.filter (·.2 = i) = (List.range' first (k - first)).map (·, i)

lemma Turns.push (h : Turns queue i first k) (hk : first ≤ k) :
    Turns (queue ++ [(k, i)]) i first (k + 1) := by
  rw [Turns, List.filter_append, h, Nat.succ_sub hk, List.range'_concat, List.map_append]
  simp [Nat.add_sub_cancel' hk]

lemma Turns.push_other (h : Turns queue i first k) (hj : j ≠ i) :
    Turns (queue ++ [(n, j)]) i first k := by
  rw [Turns, List.filter_append, h]
  simp [hj]

lemma Turns.pop (h : Turns ((n, i) :: rest) i first k) :
    n = first ∧ first < k ∧ Turns rest i (first + 1) k := by
  rw [Turns, List.filter_cons_of_pos (by simp)] at h
  rcases hlen : k - first with - | m
  · rw [hlen] at h
    exact absurd h (by simp)
  · rw [hlen, List.range'_succ, List.map_cons, List.cons.injEq, Prod.mk.injEq] at h
    refine ⟨h.1.1, by omega, ?_⟩
    rw [Turns, h.2, show k - (first + 1) = m by omega]

lemma Turns.pop_other (h : Turns ((n, j) :: rest) i first k) (hj : j ≠ i) :
    Turns rest i first k := by
  rwa [Turns, List.filter_cons_of_neg (by simpa using hj)] at h

lemma Turns.mem (h : Turns queue i first k) (hn : (n, i) ∈ queue) : first ≤ n ∧ n < k := by
  have hfilter : (n, i) ∈ queue.filter (·.2 = i) := List.mem_filter.mpr ⟨hn, by simp⟩
  rw [h, List.mem_map] at hfilter
  obtain ⟨m, hm, heq⟩ := hfilter
  rw [List.mem_range'_1] at hm
  obtain rfl := (Prod.mk.inj heq).1
  omega

lemma Turns.le_of_nil (h : Turns [] i first k) : k ≤ first := by
  rw [Turns, List.filter_nil, eq_comm, List.map_eq_nil_iff, List.range'_eq_nil_iff] at h
  omega

end Queue

end DriveIntegrity.Batches
