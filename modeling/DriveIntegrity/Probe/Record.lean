import DriveIntegrity.Library.Search
import DriveIntegrity.Status.Values

/-! The drive records that `full_probe` prints. -/

namespace DriveIntegrity.Probe

open Integrity (Text)
open Status (fixedText intText padded LocalTime)

section Model

inductive JsonValue
  | quoted (t : Text)
  | bare (t : Text)

def JsonValue.text : JsonValue → Text
  | quoted t => DriveIntegrity.quoted t
  | bare t => t

/-- The printed text without its quotes. -/
def JsonValue.shown : JsonValue → Text
  | quoted t => t
  | bare t => t

def toVal (v : ℤ) : JsonValue := if v < 0 then .quoted "N/A".toList else .bare (intText v)

/-- The terabytes written, none if the drive does not report them. -/
def toTB : Option ℚ → JsonValue
  | none => .quoted "N/A".toList
  | some tb => .quoted (fixedText 2 tb ++ " TB".toList)

structure DriveRecord where
  letter : Text
  fs : Text
  totGB : ℚ
  usedGB : ℚ
  freeGB : ℚ
  percentUsed : ℚ
  modelStr : Text
  serial : Text
  interfaceStr : Text
  idx : ℤ
  finalFamily : Text
  tech : Text
  finalForm : Text
  profile : Text
  rpm : ℤ
  healthStatus : Text
  hours : ℤ
  temp : ℤ
  loadCycles : ℤ
  dataUnitsWritten : Option ℚ
  reallocated : ℤ
  pending : ℤ
  offlineUnc : ℤ
  notes : Text
  tB : LocalTime

def DriveRecord.rpmText (r : DriveRecord) : Text :=
  if 0 < r.rpm then intText r.rpm else "N/A".toList

def DriveRecord.tempText (r : DriveRecord) : Text :=
  if 0 ≤ r.temp then intText r.temp else "N/A".toList

def DriveRecord.fields (r : DriveRecord) : List (Text × JsonValue) :=
  [("Letter".toList, .quoted r.letter),
    ("FsType".toList, .quoted r.fs),
    ("TotalGB".toList, .bare (fixedText 2 r.totGB)),
    ("UsedGB".toList, .bare (fixedText 2 r.usedGB)),
    ("FreeGB".toList, .bare (fixedText 2 r.freeGB)),
    ("PercentUsed".toList, .bare (fixedText 2 r.percentUsed)),
    ("Model".toList, .quoted r.modelStr),
    ("Serial".toList, .quoted r.serial),
    ("Interface".toList, .quoted r.interfaceStr),
    ("LinuxDevice".toList, .quoted ("/dev/pd".toList ++ intText r.idx)),
    ("Family".toList, .quoted r.finalFamily),
    ("Technology".toList, .quoted r.tech),
    ("Form_Factor".toList, .quoted r.finalForm),
    ("Stress_Profile".toList, .quoted r.profile),
    ("RPM".toList, .quoted r.rpmText),
    ("Health".toList, .quoted r.healthStatus),
    ("Hours".toList, toVal r.hours),
    ("Temp".toList, .quoted r.tempText),
    ("Load_Cycles".toList, toVal r.loadCycles),
    ("Total_Data_Written".toList, toTB r.dataUnitsWritten),
    ("Reallocated_Sectors_Ct".toList, toVal r.reallocated),
    ("Current_Pending_Sector".toList, toVal r.pending),
    ("Offline_Uncorrectable".toList, toVal r.offlineUnc),
    ("Notes".toList, .quoted r.notes),
    ("Timestamp".toList, .quoted r.tB.text)]

def member (f : Text × JsonValue) : Text :=
  "        ".toList ++ quoted f.1 ++ ": ".toList ++ f.2.text

def members : List (Text × JsonValue) → Text
  | [] => []
  | [f] => member f ++ ['\n']
  | f :: fields => member f ++ ",\n".toList ++ members fields

def object (fields : List (Text × JsonValue)) : Text :=
  "\x7b\n".toList ++ members fields ++ "    \x7d".toList

def printDrives (first : Bool) : List DriveRecord → Text
  | [] => []
  | r :: records =>
    (if first then [] else ",\n".toList) ++ "    ".toList ++ object
      r.fields ++ printDrives false records

def fullProbe (records : List DriveRecord) : Text :=
  "[\n".toList ++ printDrives true records ++ "\n]\n".toList

/-- The form factor that is printed for the one in the SMART report. -/
def finalForm (formFactor modelStr interfaceStr : Text) (rpm : ℤ) (totGB : ℚ) : Text :=
  let tech :=
    if 0 < rpm ∨ 1200 < totGB ∨ "3.5".toList <:+: formFactor then "CMR".toList else "SSD".toList
  let flash := "Flash".toList <:+: modelStr ∨ interfaceStr = "USB".toList ∧ totGB < 256
  let tech := if flash then "Flash".toList else tech
  let finalForm := if flash then "Thumb Drive".toList else formFactor
  if finalForm = "Unknown".toList ∧ tech = "CMR".toList then
    if 1000 < totGB then "3.5\" Drive".toList else "2.5\" Drive".toList
  else finalForm

end Model

end DriveIntegrity.Probe
