import Mathlib.Data.List.Basic
import Mathlib.Data.List.TakeWhile
import Mathlib.Tactic

/-! Little-endian words and in-place writes in byte buffers. -/

namespace DriveIntegrity.Bytes

def encode : ℕ → ℕ → List UInt8
  | 0, _ => []
  | k + 1, v => UInt8.ofNat v :: encode k (v / 256)

def decode : List UInt8 → ℕ
  | [] => 0
  | b :: bs => b.toNat + 256 * decode bs

@[simp] lemma encode_length (k v : ℕ) : (encode k v).length = k := by
  induction k generalizing v with
  | zero => rfl
  | succ k ih => simp [encode, ih]

lemma decode_encode (k v : ℕ) : decode (encode k v) = v % 256 ^ k := by
  induction k generalizing v with
  | zero => simp [encode, decode, Nat.mod_one]
  | succ k ih =>
    have hb : (UInt8.ofNat v).toNat = v % 256 := by simp
    rw [encode, decode, ih, hb, pow_succ', Nat.mod_mul]

lemma decode_injective {xs ys : List UInt8} (hl : xs.length = ys.length)
    (h : decode xs = decode ys) : xs = ys := by
  induction xs generalizing ys with
  | nil => exact (List.length_eq_zero_iff.mp hl.symm).symm
  | cons x xs ih =>
    cases ys with
    | nil => simp at hl
    | cons y ys =>
      have hx := x.toNat_lt
      have hy := y.toNat_lt
      simp only [decode] at h
      have he : x = y := UInt8.toNat_inj.mp (by omega)
      rw [he, ih (by simpa using hl) (by omega)]

@[simp] lemma decode_zeros (k : ℕ) : decode (List.replicate k 0) = 0 := by
  induction k with
  | zero => rfl
  | succ k ih => simp [List.replicate_succ, decode, ih]

lemma decode_append_zeros (bs : List UInt8) (k : ℕ) :
    decode (bs ++ List.replicate k 0) = decode bs := by
  induction bs with
  | nil => simp [decode]
  | cons b bs ih => simp [decode, ih]

lemma decode_take (bs : List UInt8) (k : ℕ) : decode (bs.take k) = decode bs % 256 ^ k := by
  induction bs generalizing k with
  | nil => simp [decode]
  | cons b bs ih =>
    cases k with
    | zero => simp [decode, Nat.mod_one]
    | succ k =>
      have hb : b.toNat % 256 = b.toNat := Nat.mod_eq_of_lt b.toNat_lt
      have hd : (b.toNat + 256 * decode bs) / 256 = decode bs := by have := b.toNat_lt; omega
      rw [List.take_succ_cons, decode, decode, ih, pow_succ', Nat.mod_mul,
        Nat.add_mul_mod_self_left, hb, hd]

/-- `memcpy` of `bs` to position `i` of a buffer. -/
def copyTo (buf : List UInt8) (i : ℕ) (bs : List UInt8) : List UInt8 :=
  buf.take i ++ bs ++ buf.drop (i + bs.length)

lemma copyTo_length {buf bs : List UInt8} {i : ℕ} (h : i + bs.length ≤ buf.length) :
    (copyTo buf i bs).length = buf.length := by
  simp only [copyTo, List.length_append, List.length_take, List.length_drop]
  omega

lemma copyTo_get {buf bs : List UInt8} {i : ℕ} (h : i + bs.length ≤ buf.length) (k : ℕ) :
    (copyTo buf i bs)[k]? =
      if i ≤ k ∧ k < i + bs.length then bs[k - i]? else buf[k]? := by
  have ht : (buf.take i).length = i := by simp; omega
  rcases lt_or_ge k i with hk | hk
  · rw [if_neg (by omega), copyTo, List.append_assoc, List.getElem?_append_left (by omega),
      List.getElem?_take_of_lt hk]
  · rw [copyTo, List.append_assoc, List.getElem?_append_right (by omega), ht]
    rcases lt_or_ge k (i + bs.length) with hb | hb
    · rw [if_pos ⟨hk, hb⟩, List.getElem?_append_left (by omega)]
    · rw [if_neg (by omega), List.getElem?_append_right (by omega), List.getElem?_drop]
      congr 1
      omega

def block (n : ℕ) (buf : List UInt8) (s : ℕ) : List UInt8 := (buf.drop (n * s)).take n

lemma block_get {n s k : ℕ} {buf : List UInt8} (hk : k < n) :
    (block n buf s)[k]? = buf[n * s + k]? := by
  rw [block, List.getElem?_take_of_lt hk, List.getElem?_drop]

lemma eq_of_blocks {n : ℕ} (hn : 0 < n) {xs ys : List UInt8}
    (h : ∀ s, block n xs s = block n ys s) :
    xs = ys := by
  apply List.ext_getElem?
  intro k
  have hk : n * (k / n) + k % n = k := Nat.div_add_mod k n
  rw [← hk, ← block_get (Nat.mod_lt k hn), ← block_get (Nat.mod_lt k hn), h]

lemma block_flatten {n : ℕ} (bs : List (List UInt8)) (hb : ∀ b ∈ bs, b.length = n) {s : ℕ}
    (hs : s < bs.length) : block n bs.flatten s = bs[s] := by
  induction bs generalizing s with
  | nil => simp at hs
  | cons b bs ih =>
    have hl : b.length = n := hb b (by simp)
    cases s with
    | zero => simp [block, ← hl]
    | succ s =>
      have hh := ih (fun c hc => hb c (by simp [hc])) (s := s) (by simpa using hs)
      have hd : n * (s + 1) = b.length + n * s := by rw [hl]; ring
      simpa only [block, List.flatten_cons, List.getElem_cons_succ, hd, List.drop_append,
        List.drop_eq_nil_of_le (Nat.le_add_right _ _), Nat.add_sub_cancel_left,
        List.nil_append] using hh

end DriveIntegrity.Bytes
