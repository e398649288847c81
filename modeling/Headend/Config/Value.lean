import Headend.Text.Quoted

/-!
# Named values

The values of the configuration that are chosen by a name, and the spellings of each. Case is
ignored for the letters A to Z, except in the names of table filterings.

Facts: `DeliverySystem.ofName?_name` and `Polarization.ofName?_letter` (the usual spelling names its
value).
-/

namespace Headend.Config

/-- A name in lower case, for the letters A to Z. -/
def lowerCase (s : String) : String := String.ofList (s.toList.map Char.toLower)

/-- A name in upper case, for the letters A to Z. -/
def upperCase (s : String) : String := String.ofList (s.toList.map Char.toUpper)

/-- The text about a name that no value has. -/
def unknownValue (name : String) : String := "unknown value " ++ Text.quote name

/-- The polarization of a satellite signal. -/
inductive Polarization where
  | horizontal | vertical | left | right
deriving DecidableEq

namespace Polarization

/-- Horizontal and circular left take the higher supply voltage. -/
def isHighVoltage : Polarization → Bool
  | horizontal | left => true
  | vertical | right => false

/-- A polarization is named by the first letter of a word. -/
def ofName? (s : String) : Option Polarization :=
  match s.toList.head?.map Char.toLower with
  | some 'h' => some horizontal
  | some 'v' => some vertical
  | some 'l' => some left
  | some 'r' => some right
  | _ => none

/-- The letter of a polarization. -/
def letter : Polarization → String
  | horizontal => "h"
  | vertical => "v"
  | left => "l"
  | right => "r"

theorem ofName?_letter (p : Polarization) : ofName? p.letter = some p := by
  cases p <;> decide +kernel

end Polarization

/-- The system by which a signal is delivered. -/
inductive DeliverySystem where
  | dvbS | dvbS2 | dvbT | dvbT2 | dvbC | atsc | isdbT
deriving DecidableEq

namespace DeliverySystem

/-- Whether the signal comes from a satellite. -/
def isSatellite : DeliverySystem → Bool
  | dvbS | dvbS2 => true
  | _ => false

/-- The spellings in upper case and the systems they name. -/
def spellings : List (String × DeliverySystem) :=
  [("DVBS", dvbS), ("DVB-S", dvbS), ("DVBS2", dvbS2), ("DVB-S2", dvbS2), ("DVBT", dvbT),
   ("DVB-T", dvbT), ("DVBT2", dvbT2), ("DVB-T2", dvbT2), ("DVBC", dvbC), ("DVB-C", dvbC),
   ("DVBC_ANNEX_AC", dvbC), ("ATSC", atsc), ("ISDBT", isdbT), ("ISDB-T", isdbT)]

/-- The system of a name. -/
def ofName? (s : String) : Option DeliverySystem := spellings.lookup (upperCase s)

/-- The usual name of a system. -/
def name : DeliverySystem → String
  | dvbS => "DVBS"
  | dvbS2 => "DVBS2"
  | dvbT => "DVBT"
  | dvbT2 => "DVBT2"
  | dvbC => "DVBC"
  | atsc => "ATSC"
  | isdbT => "ISDBT"

theorem ofName?_name (d : DeliverySystem) : ofName? d.name = some d := by
  cases d <;> decide +kernel

end DeliverySystem

/-- The kind of a low noise block converter. -/
inductive LnbKind where
  /-- Two local oscillators, of which a tone selects one. -/
  | universal
  /-- One local oscillator. -/
  | standard
deriving DecidableEq

/-- The converter of a name. -/
def LnbKind.ofName? (s : String) : Option LnbKind :=
  [("universal", universal), ("standard", standard)].lookup (lowerCase s)

/-- Whether channels are found by autoconfiguration. -/
inductive AutoconfMode where
  | none | full
deriving DecidableEq

/-- The mode of a name or number. -/
def AutoconfMode.ofName? (s : String) : Option AutoconfMode :=
  [("full", full), ("1", full), ("2", full), ("none", none), ("0", none)].lookup (lowerCase s)

/-- Where the configuration sends the log. -/
inductive LogTarget where
  | undefined | console | syslog
deriving DecidableEq

/-- The target of a name. -/
def LogTarget.ofName? (s : String) : Option LogTarget :=
  [("console", console), ("syslog", syslog)].lookup (lowerCase s)

/-- Which tables of program information are passed on. -/
inductive TableFiltering where
  | none | patOnly | patCatOnly
deriving DecidableEq

/-- The filtering of a name, in which case matters. -/
def TableFiltering.ofName? (s : String) : Option TableFiltering :=
  [("none", none), ("pat", patOnly), ("pat_cat", patCatOnly)].lookup s

end Headend.Config
