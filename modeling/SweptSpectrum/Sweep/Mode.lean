import SweptSpectrum.Text.Blank
import SweptSpectrum.Text.Case

/-!
Operating modes of the RF front end (RFE).

A mode name is read after trimming blanks and folding to capitals, so `" shn "` and `"Shn"`
both name `shn`. Folding uses full Unicode case mapping: `"ſh"` folds to `"SH"`.
-/

namespace SweptSpectrum.Sweep

/-- An RF front-end mode. -/
inductive RfeMode where
  /-- zero IF -/
  | zif
  /-- high dynamic range -/
  | hdr
  /-- superheterodyne -/
  | sh
  /-- superheterodyne, narrow band -/
  | shn
  /-- superheterodyne with decimation -/
  | decSh
  /-- narrow-band superheterodyne with decimation -/
  | decShn
  /-- external IQ input -/
  | iqIn
  /-- direct digitization -/
  | dd
  /-- automatic choice -/
  | auto
  deriving Repr, DecidableEq, Inhabited

namespace RfeMode

/-- Every mode, in the order the modes are listed to a user. -/
def all : List RfeMode := [.zif, .hdr, .sh, .shn, .decSh, .decShn, .iqIn, .dd, .auto]

/-- The canonical name of the mode. -/
def name : RfeMode → String
  | .zif => "ZIF"
  | .hdr => "HDR"
  | .sh => "SH"
  | .shn => "SHN"
  | .decSh => "DECSH"
  | .decShn => "DECSHN"
  | .iqIn => "IQIN"
  | .dd => "DD"
  | .auto => "AUTO"

/-- The message for a name that is no mode; it quotes the text as given. -/
def unknownMessage (s : String) : String :=
  "Unknown RFE mode: '" ++ s ++ "'. Use: ZIF, HDR, SH, SHN, DECSH, DECSHN, IQIN, DD, AUTO"

/-- The mode a text names, after trimming blanks and folding to capitals. -/
def parse (s : String) : Except String RfeMode :=
  let key := Text.toUpperFull (Text.trim s)
  match all.find? (fun m => m.name = key) with
  | some m => .ok m
  | none => .error (unknownMessage s)

theorem parse_name (m : RfeMode) : (all.find? fun x => x.name = m.name) = some m := by
  cases m <;> decide

end RfeMode

end SweptSpectrum.Sweep
