import DriveIntegrity.Surface.Scan

/-! The grade that `surface_scan` derives from its speeds and its error counter. -/

namespace DriveIntegrity.Surface

inductive SurfaceGrade
  | dataLoss
  | healthy
  | inconsistent
  | extremeJitter
  | warning
  | degraded
  deriving DecidableEq

def SurfaceGrade.text : SurfaceGrade → List Char
  | .dataLoss => "CRITICAL (Data Loss)".toList
  | .healthy => "Healthy".toList
  | .inconsistent => "Warning (Inconsistent)".toList
  | .extremeJitter => "Degraded (Extreme Jitter)".toList
  | .warning => "Warning".toList
  | .degraded => "Degraded".toList

def getTechnicalGrade (stab : ℚ) (errors : BitVec 32) (avgSpeed : ℚ) : SurfaceGrade :=
  if 0 < errors.toInt then .dataLoss
  else if avgSpeed < 10 then
    if 50 ≤ stab then .healthy
    else if 15 ≤ stab then .inconsistent
    else .extremeJitter
  else if 85 ≤ stab then .healthy
  else if 60 ≤ stab then .warning
  else .degraded

def rStab (rSpeeds : List ℚ) : ℚ :=
  let sorted := rSpeeds.insertionSort (· ≤ ·)
  match sorted.head?, sorted.getLast? with
  | some slowest, some fastest => slowest / fastest * 100
  | _, _ => 0

def avgR (rSpeeds : List ℚ) : ℚ :=
  if rSpeeds.isEmpty then 0 else rSpeeds.sum / rSpeeds.length

def ScanState.finalGrade {σ : Type} (s : ScanState σ) : SurfaceGrade :=
  getTechnicalGrade (rStab s.rSpeeds) s.errors (avgR s.rSpeeds)

lemma getTechnicalGrade_dataLoss_iff (stab : ℚ) (errors : BitVec 32) (avgSpeed : ℚ) :
    getTechnicalGrade stab errors avgSpeed = .dataLoss ↔ 0 < errors.toInt := by
  unfold getTechnicalGrade
  split_ifs with h <;> simp [h]

end DriveIntegrity.Surface
