import DriveIntegrity.Status.Report

/-! The SMART status that the menu and the report show. -/

namespace DriveIntegrity.Status

open Integrity (Text)

/-- The health section holds the status, and both readers show it. -/
def ShowsSmart (content health : Text) : Prop :=
  leafLine "SmartStatus".toList health <:+: extractBlock content "SmartHealthStatus".toList ∧
    (loadData (some content)).smartStatus = health ∧ reportSmartStatus (reportRoot content) = health

variable {runs : List ToolRun} {content : Text} {r : Record}

lemma smartSection_mem (r : Record) : smartSection r.mark ∈ r.sections :=
  List.mem_append_right _ List.mem_cons_self

lemma Tracks.smart_leaf (h : Tracks runs content r) :
    leafLine "SmartStatus".toList "N/A".toList <:+:
      extractBlock content "SmartHealthStatus".toList := by
  obtain ⟨tail, _, rfl⟩ := h.content_eq
  have he : extractBlock (renderStatus r.sections tail) "SmartHealthStatus".toList =
      (smartSection r.mark).block :=
    extractBlock_mem r.namesApart (smartSection_mem r)
  rw [he]
  have hinfix : ∀ s t u v rest : Text, t <:+: s ++ ('\n' :: (t ++ rest) ++ u) ++ v := by
    intro s t u v rest
    exact ⟨s ++ ['\n'], rest ++ u ++ v, by simp⟩
  exact hinfix _ _ _ _ _

lemma Tracks.report_smart (h : Tracks runs content r) :
    reportSmartStatus (reportRoot content) = "N/A".toList := by
  by_cases hr : r.Readable
  · obtain ⟨ds, marks, ht, hroot⟩ := reportRoot_readable h hr
    rw [hroot, reportSmartStatus, rootValue_smart ht, select_smartStatus]
    rfl
  · rw [reportRoot_unreadable h hr]
    rfl

lemma Tracks.showsSmart_iff (h : Tracks runs content r) (health : Text) :
    ShowsSmart content health ↔ health = "N/A".toList := by
  have hmenu : (loadData (some content)).smartStatus = "N/A".toList := by
    rw [h.loadData_eq]
    rfl
  rw [ShowsSmart, hmenu]
  constructor
  · rintro ⟨-, hs, -⟩
    exact hs.symm
  · rintro rfl
    exact ⟨h.smart_leaf, rfl, h.report_smart⟩

/-- The status shown after a probe is that of the probe exactly when the drive has no health data,
as long as no probe gave a text with markup. -/
theorem smart_status_follows_iff (hc : ∀ run ∈ runs, run.Clean) (h : runTools runs = some content)
    (now : LocalTime) {stats : DriveStats} (hs : stats.Clean) :
    ShowsSmart (deviceinfo now stats content) stats.health ↔ stats.health = "N/A".toList := by
  obtain ⟨r, hr⟩ := exists_tracks hc h
  exact (hr.deviceinfo now stats hs).showsSmart_iff stats.health

/-- A drive without health data shows that it has none. -/
theorem smart_status_follows_sample :
    ShowsSmart (deviceinfo sampleTime shippedStats ((runTools sampleRuns).get sampleRuns_complete))
      shippedStats.health :=
  (smart_status_follows_iff (by decide) (Option.some_get sampleRuns_complete).symm sampleTime
    shippedStats_clean).mpr rfl

theorem smart_status_stays :
    runTools [] = some shippedStatus ∧ sampleStats.Clean ∧ sampleStats.health = "PASSED".toList ∧
      ¬ShowsSmart (deviceinfo sampleTime sampleStats shippedStatus) sampleStats.health := by
  have hclean : sampleStats.Clean := by decide
  refine ⟨runTools_nil, hclean, rfl, ?_⟩
  rw [(tracks_shipped.deviceinfo sampleTime sampleStats hclean).showsSmart_iff]
  decide

/-- A probe whose model holds a health section. -/
def sectionStats : DriveStats :=
  { shippedStats with
    model :=
      "<SmartHealthStatus>\n    <SmartStatus>PASSED</SmartStatus>\n  </SmartHealthStatus>".toList }

def plainStats : DriveStats := { shippedStats with health := "PASSED".toList }

/-- With markup in an earlier probe's text the status can be that of the probe by chance. -/
lemma markup_shows_status :
    plainStats.Clean ∧ plainStats.health ≠ "N/A".toList ∧
      ShowsSmart
        (deviceinfo sampleTime plainStats (deviceinfo sampleTime sectionStats shippedStatus))
        plainStats.health := by
  refine ⟨by decide, by decide, ?_⟩
  unfold ShowsSmart
  decide +kernel

end DriveIntegrity.Status
