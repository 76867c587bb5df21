import Mathlib.Data.List.Basic
import Mathlib.Tactic

/-! Machine words of several lanes of one width. -/

namespace DriveIntegrity.Lanes

variable {w n : ℕ}

def lane (w : ℕ) (v : BitVec n) (l : ℕ) : BitVec w :=
  v.extractLsb' (w * l) w

lemma getLsbD_lane {l i : ℕ} (hi : i < w) (v : BitVec n) :
    (lane w v l).getLsbD i = v.getLsbD (w * l + i) := by
  rw [lane, BitVec.getLsbD_extractLsb', decide_eq_true hi, Bool.true_and]

@[simp] lemma lane_xor (a b : BitVec n) (l : ℕ) : lane w (a ^^^ b) l = lane w a l ^^^ lane w b l :=
  BitVec.extractLsb'_xor

@[simp] lemma lane_or (a b : BitVec n) (l : ℕ) : lane w (a ||| b) l = lane w a l ||| lane w b l :=
  BitVec.extractLsb'_or

@[simp] lemma lane_and (a b : BitVec n) (l : ℕ) : lane w (a &&& b) l = lane w a l &&& lane w b l :=
  BitVec.extractLsb'_and

lemma lane_setWidth {m l : ℕ} (hm : w * l + w ≤ m) (v : BitVec n) :
    lane w (v.setWidth m) l = lane w v l := by
  refine BitVec.eq_of_getLsbD_eq fun i hi => ?_
  rw [getLsbD_lane hi, getLsbD_lane hi, BitVec.getLsbD_setWidth, decide_eq_true (by omega),
    Bool.true_and]

lemma lane_of_le {l : ℕ} (hl : n ≤ w * l) (v : BitVec n) : lane w v l = 0#w := by
  refine BitVec.eq_of_getLsbD_eq fun i hi => ?_
  rw [getLsbD_lane hi, BitVec.getLsbD_of_ge _ _ (by omega), BitVec.getLsbD_zero]

lemma lane_self (v : BitVec w) : lane w v 0 = v := by
  refine BitVec.eq_of_getLsbD_eq fun i hi => ?_
  rw [getLsbD_lane hi, Nat.mul_zero, Nat.zero_add]

lemma lane_shiftLeft_of_lt {s l : ℕ} (hs : w * l + w ≤ s) (v : BitVec n) :
    lane w (v <<< s) l = 0#w := by
  refine BitVec.eq_of_getLsbD_eq fun i hi => ?_
  rw [getLsbD_lane hi, BitVec.getLsbD_shiftLeft, decide_eq_true (show w * l + i < s by omega),
    Bool.not_true, Bool.and_false, Bool.false_and, BitVec.getLsbD_zero]

lemma lane_shiftLeft_of_le {s l : ℕ} (hs : s % w = 0) (hle : s ≤ w * l) (hn : w * l + w ≤ n)
    (v : BitVec n) :
    lane w (v <<< s) l = lane w v (l - s / w) := by
  have hback : w * (l - s / w) = w * l - s := by
    rw [Nat.mul_sub, Nat.mul_div_cancel' (Nat.dvd_of_mod_eq_zero hs)]
  refine BitVec.eq_of_getLsbD_eq fun i hi => ?_
  rw [getLsbD_lane hi, getLsbD_lane hi, BitVec.getLsbD_shiftLeft,
    decide_eq_false (show ¬ w * l + i < s by omega),
    decide_eq_true (by omega), Bool.not_false, Bool.true_and, Bool.true_and, hback]
  congr 1
  omega

lemma eq_of_lanes {u v : BitVec (w * n)} (h : ∀ l < n, lane w u l = lane w v l) : u = v := by
  refine BitVec.eq_of_getLsbD_eq fun i hi => ?_
  have hw : 0 < w := Nat.pos_of_mul_pos_right (Nat.zero_lt_of_lt hi)
  have hlane := congrArg (BitVec.getLsbD · (i % w)) (h (i / w) (Nat.div_lt_of_lt_mul hi))
  beta_reduce at hlane
  rwa [getLsbD_lane (Nat.mod_lt _ hw), getLsbD_lane (Nat.mod_lt _ hw), Nat.div_add_mod] at hlane

lemma lane_replicate {l : ℕ} (hl : l < n) (a : BitVec w) : lane w (a.replicate n) l = a := by
  refine BitVec.eq_of_getLsbD_eq fun i hi => ?_
  have hin :
      w * l + i < w * n := lt_of_lt_of_le (by rw [Nat.mul_succ]; omega) (Nat.mul_le_mul_left w hl)
  rw [getLsbD_lane hi, BitVec.getLsbD_replicate, decide_eq_true hin, Bool.true_and, Nat.mul_add_mod,
    Nat.mod_eq_of_lt hi]

lemma replicate_xor (n : ℕ) (a b : BitVec w) :
    (a ^^^ b).replicate n = a.replicate n ^^^ b.replicate n :=
  eq_of_lanes fun l hl => by rw [lane_xor, lane_replicate hl, lane_replicate hl, lane_replicate hl]

/-- The lanes put together, the first one lowest. -/
def pack (lanes : ℕ → BitVec w) : (n : ℕ) → BitVec (w * n)
  | 0 => 0#(w * 0)
  | n + 1 =>
      ((pack lanes n).setWidth (w * (n + 1))) ||| ((lanes n).setWidth (w * (n + 1)) <<< (w * n))

@[simp] lemma lane_pack {lanes : ℕ → BitVec w} {l : ℕ} (hl : l < n) :
    lane w (pack lanes n) l = lanes l := by
  induction n with
  | zero => exact absurd hl (Nat.not_lt_zero l)
  | succ n ih =>
    rw [pack, lane_or]
    rcases Nat.lt_succ_iff_lt_or_eq.mp hl with hlt | rfl
    · have hle : w * l + w ≤ w * n := by
        rw [← Nat.mul_succ]
        exact Nat.mul_le_mul_left w hlt
      rw [lane_setWidth (by rw [Nat.mul_succ]; omega), ih hlt, lane_shiftLeft_of_lt hle,
        BitVec.or_zero]
    · have hback : w * (l - w * l / w) = 0 := by
        rw [Nat.mul_sub, Nat.mul_div_cancel' (Nat.dvd_mul_right w l), Nat.sub_self]
      have hzero : lane w ((lanes l).setWidth (w * (l + 1))) (l - w * l / w) = lanes l := by
        refine BitVec.eq_of_getLsbD_eq fun i hi => ?_
        rw [getLsbD_lane hi, hback, Nat.zero_add, BitVec.getLsbD_setWidth,
          decide_eq_true (by rw [Nat.mul_succ]; omega), Bool.true_and]
      rw [lane_setWidth (by rw [Nat.mul_succ]), lane_of_le le_rfl,
        lane_shiftLeft_of_le (Nat.mul_mod_right w l) le_rfl (by rw [Nat.mul_succ]), hzero,
        BitVec.zero_or]

end DriveIntegrity.Lanes
