import DriveIntegrity.Surface.Grade
import DriveIntegrity.Status.Extract
import DriveIntegrity.Status.Values

/-! The status files that `deviceinfo` and `surface_scan` write. -/

namespace DriveIntegrity.Status

open Integrity (Text)

def xmlEscape (data : Text) : Text :=
  data.flatMap (fun c => if c = '&' then "&amp;".toList else [c])

structure DriveStats where
  model : Text
  serial : Text
  totalGB : Text
  usedGB : Text
  freeGB : Text
  interface : Text
  tech : Text
  fsType : Text
  hours : Text
  temp : Text
  reallocated : Text
  health : Text
  isSystemDrive : Bool

def deviceinfo (now : LocalTime) (stats : DriveStats) (existingContent : Text) : Text :=
  rootOpen ++
    openLine "Metadata".toList ++
    leafLine "LastHardwareProbe".toList now.text ++
    closeLine "Metadata".toList ++
    openLine "HardwareIdentity".toList ++
    leafLine "Model".toList (xmlEscape stats.model) ++
    leafLine "Serial".toList (xmlEscape stats.serial) ++
    leafLine "Interface".toList stats.interface ++
    leafLine "Technology".toList stats.tech ++
    leafLine "FileSystem".toList stats.fsType ++
    closeLine "HardwareIdentity".toList ++
    openLine "StorageCapacity".toList ++
    leafLine "TotalGB".toList stats.totalGB ++
    leafLine "UsedGB".toList stats.usedGB ++
    leafLine "FreeGB".toList stats.freeGB ++
    closeLine "StorageCapacity".toList ++
    openLine "HardwareVitals".toList ++
    leafLine "PowerOnHours".toList stats.hours ++
    leafLine "Temperature".toList stats.temp ++
    leafLine "ReallocatedSectors".toList stats.reallocated ++
    leafLine "HealthRating".toList stats.health ++
    closeLine "HardwareVitals".toList ++
    openLine "Policy".toList ++
    leafLine "StressTestAllowed".toList
      (if stats.isSystemDrive then "False".toList else "True".toList) ++
    leafLine "Notes".toList
      (if stats.isSystemDrive then "System Drive Protection Active".toList else
        "Standard Drive".toList) ++
    closeLine "Policy".toList ++
    (if stats.health = "N/A".toList then
      openLine "SmartHealthStatus".toList ++ leafLine "SmartStatus".toList "N/A".toList ++
        closeLine "SmartHealthStatus".toList
    else copyBlock existingContent "SmartHealthStatus".toList) ++
    copyBlock existingContent "FileIntegrityScan".toList ++
    copyBlock existingContent "SurfaceScanInfo".toList ++
    rootClose

structure ScanResult where
  seconds : ℕ
  rSpeeds : List ℚ
  /-- A C++ `int`. -/
  errors : BitVec 32
  percentage : ℤ

def ScanResult.finalGrade (r : ScanResult) : Surface.SurfaceGrade :=
  Surface.getTechnicalGrade (Surface.rStab r.rSpeeds) r.errors (Surface.avgR r.rSpeeds)

def hardwareTags : List Text :=
  ["Metadata".toList, "HardwareIdentity".toList, "StorageCapacity".toList, "HardwareVitals".toList,
    "Policy".toList]

def surfaceScan (now : LocalTime) (r : ScanResult) (content : Text) : Text :=
  rootOpen ++
    (hardwareTags ++ ["SmartHealthStatus".toList, "FileIntegrityScan".toList]).flatMap
      (copyBlock content) ++
    openLine "SurfaceScanInfo".toList ++
    leafLine "SurfaceScanDate".toList now.text ++
    leafLine "ActualTimeTaken".toList (formatSeconds r.seconds) ++
    leafLine "SurfaceGrade".toList r.finalGrade.text ++
    leafLine "StabilityScore".toList (fixedText 1 (Surface.rStab r.rSpeeds)) ++
    leafLine "AvgReadSpeed".toList (fixedText 2 (Surface.avgR r.rSpeeds)) ++
    leafLine "ScanCoverage".toList (intText r.percentage) ++
    leafLine "ErrorsDetected".toList (intText r.errors.toInt) ++
    closeLine "SurfaceScanInfo".toList ++
    rootClose

end DriveIntegrity.Status
