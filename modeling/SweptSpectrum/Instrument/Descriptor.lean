import SweptSpectrum.Vrt.Error
import SweptSpectrum.Text.Blank
import SweptSpectrum.Text.Case

/-!
The identity of an instrument, read from its reply to `*IDN?`.

The reply is `manufacturer,model,serial,firmware`; fields are trimmed and any further commas
belong to the firmware. The highest tunable frequency follows from the model number after the
last dash, ignoring trailing `P`s: `-308`, `-408` and `-8` tune to 8 GHz, `-418` and `-18` to
18 GHz, `-427` and `-27` to 27 GHz and `-220` to 20 GHz. Other models are assumed to reach
8 GHz.
-/

namespace SweptSpectrum.Instrument

open Vrt

/-- The tuning limit assumed for a model that is not recognized, Hz. -/
def defaultMaxTuneFreq : Nat := 8000000000

/-- What an instrument says it is. -/
structure Descriptor where
  manufacturer : String
  model : String
  serial : String
  firmware : String
  /-- the highest tunable frequency, Hz -/
  maxTuneFreq : Nat
  deriving Repr, DecidableEq

/-- Whether `pat` occurs in `s` as a contiguous run. -/
def hasInfix (pat : List Char) : List Char → Bool
  | [] => pat.isEmpty
  | c :: cs => pat.isPrefixOf (c :: cs) || hasInfix pat cs

/-- The tuning limit a model number implies, if it is a known one. -/
def modelMaxFreq? (model : String) : Option Nat :=
  let upper := Text.toUpperFull model
  let suffix := (upper.splitOn "-").getLast?.getD ""
  let core := String.ofList (suffix.toList.reverse.dropWhile (· = 'P')).reverse
  if core = "308" ∨ core = "408" ∨ core = "8" then some 8000000000
  else if core = "418" ∨ core = "18" then some 18000000000
  else if core = "427" ∨ core = "27" then some 27000000000
  else if core = "220" then some 20000000000
  else none

namespace Descriptor

/-- Reads a reply to `*IDN?`. -/
def parse (reply : String) : Except LinkError Descriptor :=
  let fields := ((Text.trim reply).splitOn ",").map Text.trim
  match fields with
  | manufacturer :: model :: serial :: firmware :: rest =>
    if model.isEmpty then .error (.malformedResponse "*IDN?" reply)
    else .ok { manufacturer, model, serial, firmware := ",".intercalate (firmware :: rest),
               maxTuneFreq := (modelMaxFreq? model).getD defaultMaxTuneFreq }
  | _ => .error (.malformedResponse "*IDN?" reply)

/-- Whether the model has a step attenuator: the `-408` and `-308` families. -/
def hasStepAttenuator (d : Descriptor) : Bool :=
  let upper := (Text.toUpperFull d.model).toList
  hasInfix "-408".toList upper || hasInfix "-308".toList upper

/-- Whether the model number was recognized. -/
def knownModel (d : Descriptor) : Bool := (modelMaxFreq? d.model).isSome

end Descriptor

theorem hasInfix_nil (s : List Char) : hasInfix [] s = true := by
  cases s <;> simp [hasInfix]

end SweptSpectrum.Instrument
