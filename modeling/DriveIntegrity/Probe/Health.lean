import DriveIntegrity.Probe.Attributes
import DriveIntegrity.Probe.FullProbe

/-! The health of a disk, from the counters that `ParseSmart` has read. -/

namespace DriveIntegrity.Probe

open Integrity (Text)
open Status (LocalTime)

section Verdict

variable (sd : SmartData) (tech : Text)

/-- The counters; a negative one was not read. -/
def SmartData.counters : List ℤ :=
  [sd.hours, sd.temp, sd.reallocated, sd.pending, sd.offlineUnc, sd.loadCycles, sd.percentageUsed]

lemma Disk.record_healthStatus (d : Disk) (tB : LocalTime) :
    (d.record tB).healthStatus = (healthStatus d.smart d.tech).1 :=
  rfl

variable {sd tech}

lemma healthStatus_absent_iff : (healthStatus sd tech).1 = "N/A".toList ↔ ¬sd.HasTelemetry := by
  by_cases ht : sd.HasTelemetry
  · refine iff_of_false ?_ (not_not.mpr ht)
    rw [healthStatus, if_neg (not_not.mpr ht)]
    split_ifs <;> decide
  · rw [healthStatus, if_pos ht]
    exact iff_of_true rfl ht

lemma healthStatus_warning_iff :
    (healthStatus sd tech).1 = "WARNING".toList ↔ sd.HasTelemetry ∧ sd.Failing := by
  by_cases ht : sd.HasTelemetry
  · rw [healthStatus, if_neg (not_not.mpr ht)]
    by_cases hf : sd.Failing
    · rw [if_pos hf]
      exact iff_of_true rfl ⟨ht, hf⟩
    · rw [if_neg hf]
      refine iff_of_false ?_ (fun h => hf h.2)
      split_ifs <;> decide
  · rw [healthStatus, if_pos ht]
    exact iff_of_false (by decide) (fun h => ht h.1)

lemma healthStatus_passed_iff :
    (healthStatus sd tech).1 = "PASSED".toList ↔
      sd.HasTelemetry ∧ ¬sd.Failing ∧ ¬(tech ≠ "Flash".toList ∧ 35000 < sd.hours) ∧
      ¬90 < sd.percentageUsed ∧
        ¬(tech = "CMR".toList ∧ 300000 < sd.loadCycles) := by
  by_cases ht : sd.HasTelemetry
  · rw [healthStatus, if_neg (not_not.mpr ht)]
    split_ifs with hf ha hw hc
    · exact iff_of_false (by decide) (fun h => h.2.1 hf)
    · exact iff_of_false (by decide) (fun h => h.2.2.1 ha)
    · exact iff_of_false (by decide) (fun h => h.2.2.2.1 hw)
    · exact iff_of_false (by decide) (fun h => h.2.2.2.2 hc)
    · exact iff_of_true rfl ⟨ht, hf, ha, hw, hc⟩
  · rw [healthStatus, if_pos ht]
    exact iff_of_false (by decide) (fun h => ht h.1)

/-- A failing sector gives the warning, and only a disk without any counter gives no verdict. -/
def HealthSound (status : Text) (sd : SmartData) : Prop :=
  (status = "WARNING".toList ↔ sd.Failing) ∧ (status = "N/A".toList → ∀ n ∈ sd.counters, n < 0)

lemma SmartData.not_failing (h : ∀ n ∈ sd.counters, n < 0) : ¬sd.Failing := by
  simp only [SmartData.counters, List.forall_mem_cons] at h
  rintro (hf | hf | hf) <;> omega

/-- The gate looks at three of the seven counters: what the others say is lost where only they were
read. -/
theorem health_sound_iff (sd : SmartData) (tech : Text) :
    HealthSound (healthStatus sd tech).1 sd ↔
      (0 ≤ sd.hours ∨ 0 ≤ sd.temp ∨ 0 ≤ sd.reallocated) ∨ ∀ n ∈ sd.counters, n < 0 := by
  constructor
  · intro h
    by_cases ht : sd.HasTelemetry
    · exact Or.inl ht
    · exact Or.inr (h.2 (healthStatus_absent_iff.mpr ht))
  · rintro (ht | hn)
    · refine ⟨healthStatus_warning_iff.trans (and_iff_right ht), fun h => ?_⟩
      exact absurd ht (healthStatus_absent_iff.mp h)
    · refine ⟨healthStatus_warning_iff.trans (iff_of_false (fun h => ?_) ?_), fun _ => hn⟩
      · exact SmartData.not_failing hn h.2
      · exact SmartData.not_failing hn

end Verdict

section Hidden

lemma range_pending : 1 ≤ 197 ∧ 197 ≤ 255 := by decide

lemma eight_fits : 8 < 2 ^ 48 := by norm_num

def pendingTable : List Attribute :=
  [⟨197, [], 8, ⟨shownLine, shownLine_detail⟩, range_pending, eight_fits⟩]

lemma pendingTable_distinct : (pendingTable.map Attribute.id).Nodup := by decide

def pendingReport : Report := ⟨[], 16, pendingTable, [], pendingTable_distinct⟩

def pendingDisk : Disk where
  model := "Disk".toList
  index := 1
  size := some (2 ^ 40)
  interfaceType := "SCSI".toList
  pnpDeviceID := "S1".toList
  partitions := []
  output := pendingReport.text

/-- Eight pending sectors, and the record says that there is no telemetry. -/
theorem pending_sectors_hidden :
    pendingDisk.smart.pending = 8 ∧ (pendingDisk.record ⟨2026, 4, 12, 12, 0, 0⟩).healthStatus =
      "N/A".toList ∧
      ¬HealthSound (healthStatus pendingDisk.smart pendingDisk.tech).1 pendingDisk.smart := by
  have hpending : pendingDisk.smart.pending = 8 := by
    have hlanding : pendingReport.landing 197 = some 8 := by decide
    exact (parseSmart_attributes {}).2.1.trans (by rw [getRaw_text, hlanding]; rfl)
  have hgate : ¬pendingDisk.smart.HasTelemetry := by decide +kernel
  have hstatus : (healthStatus pendingDisk.smart pendingDisk.tech).1 = "N/A".toList :=
    healthStatus_absent_iff.mpr hgate
  refine ⟨hpending, (Disk.record_healthStatus _ _).trans hstatus, fun h => ?_⟩
  have hwarning := h.1.mpr (Or.inr (Or.inl (by rw [hpending]; norm_num)))
  exact absurd (hstatus.symm.trans hwarning) (by decide)

end Hidden

end DriveIntegrity.Probe
