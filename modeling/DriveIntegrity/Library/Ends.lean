import Mathlib.Tactic

/-! How a computation that may fail can end. -/

universe u

namespace DriveIntegrity

variable {ε : Type*} {α β : Type u} {fail : ε → Prop}

/-- A result meets the one condition, an error the other. -/
def Ends (post : α → Prop) (fail : ε → Prop) : Except ε α → Prop
  | .ok a => post a
  | .error e => fail e

namespace Ends

variable {post mid : α → Prop} {after : β → Prop}

lemma pure {a : α} (h : post a) : Ends post fail (.ok a) := h

lemma of_ok {e : Except ε α} {a : α} (h : Ends post fail e) (ha : e = .ok a) : post a := by
  subst ha
  exact h

lemma of_error {e : Except ε α} {b : ε} (h : Ends post fail e) (hb : e = .error b) : fail b := by
  subst hb
  exact h

lemma bind {e : Except ε α} {f : α → Except ε β} (h : Ends mid fail e)
    (hf : ∀ a, mid a → Ends after fail (f a)) :
    Ends after fail (e >>= f) := by
  cases e with
  | ok a => exact hf a h
  | error b => exact h

lemma mono {fail' : ε → Prop} {e : Except ε α} (h : Ends mid fail' e) (hpost : ∀ a, mid a → post a)
    (hfail : ∀ b, fail' b → fail b) : Ends post fail e := by
  cases e with
  | ok a => exact hpost a h
  | error b => exact hfail b h

lemma foldlM_range {n : ℕ} {f : α → ℕ → Except ε α} (inv : ℕ → α → Prop) {a : α} (h0 : inv 0 a)
    (hstep : ∀ i < n, ∀ b, inv i b → Ends (inv (i + 1)) fail (f b i)) :
    Ends (inv n) fail ((List.range n).foldlM f a) := by
  induction n with
  | zero => exact h0
  | succ n ih =>
    rw [List.range_succ, List.foldlM_append]
    refine Ends.bind (ih fun i hi => hstep i (Nat.lt_succ_of_lt hi)) fun b hb => ?_
    rw [List.foldlM_cons]
    exact Ends.bind (hstep n n.lt_succ_self b hb) fun c hc => hc

end Ends

end DriveIntegrity
