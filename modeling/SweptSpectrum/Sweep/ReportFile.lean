import SweptSpectrum.Sweep.Report
import SweptSpectrum.Text.Json
import SweptSpectrum.Decimal.Text

/-!
The report file: a report as an indented JSON document, its fields in the order of the report.

Frequencies and resolutions are written as the shortest decimal that reads back as a double,
powers as the shortest that reads back as a single; a value that is not finite is written
`null`, since JSON has no number for it.
-/

namespace SweptSpectrum.Sweep

open Text

/-- A double as a JSON number, or `null` when not finite. -/
def doubleJson (x : Float) : Json :=
  match Decimal.number .double (Decimal.ofFloat x) with
  | some t => .num t
  | none => .null

/-- A single as a JSON number, or `null` when not finite. -/
def singleJson (x : Float32) : Json :=
  match Decimal.number .single (Decimal.ofFloat32 x) with
  | some t => .num t
  | none => .null

namespace Report

/-- The report as a JSON document. -/
def document (r : Report) : Json :=
  .obj [("mode", .str r.mode), ("fstart_hz", .nat r.fstartHz), ("fstop_hz", .nat r.fstopHz),
        ("rbw_hz", doubleJson r.rbwHz), ("requested_rbw_hz", doubleJson r.requestedRbwHz),
        ("fft_size", .nat r.fftSize), ("sweep_entries", .nat r.sweepEntries), ("bins", .nat r.bins),
        ("peak_freq_hz", doubleJson r.peakFreqHz), ("peak_power_db", singleJson r.peakPowerDb),
        ("total_power_db", singleJson r.totalPowerDb), ("occupied_bw_hz", doubleJson r.occupiedBwHz),
        ("power_db", .arr (r.powerDb.toList.map singleJson))]

/-- The text of the report file. -/
def fileText (r : Report) : String := Json.pretty "" r.document

end Report

/-- The document has one member per field of the report. -/
theorem Report.document_members (r : Report) : ∃ ms, r.document = .obj ms ∧ ms.length = 13 :=
  ⟨_, rfl, rfl⟩

end SweptSpectrum.Sweep
