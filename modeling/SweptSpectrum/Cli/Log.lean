/-!
The log of a command-line run, as written to the error stream.

A record is written as its level, a space and its message; a message of several lines goes on
over lines indented by four spaces. A quiet run writes the errors only.
-/

namespace SweptSpectrum.Cli

/-- How serious a record is. -/
inductive Level where
  | error
  | warn
  | info
  deriving Repr, DecidableEq

/-- The name a record is written with. -/
def Level.label : Level → String
  | .error => "ERROR"
  | .warn => "WARN"
  | .info => "INFO"

/-- A record of the log. -/
structure Record where
  level : Level
  message : String
  deriving Repr

/-- The lines of a record. -/
def Record.lines (r : Record) : List String :=
  match r.message.splitOn "\n" with
  | [] => [r.level.label ++ " "]
  | first :: rest => (r.level.label ++ " " ++ first) :: rest.map ("    " ++ ·)

/-- Whether a record is written: a quiet run writes errors only. -/
def Record.shown (quiet : Bool) (r : Record) : Bool := !quiet || r.level == .error

/-- The lines a run writes for its records. -/
def renderLog (quiet : Bool) (records : List Record) : List String :=
  (records.filter (Record.shown quiet)).flatMap Record.lines

/-- A text quoted as a path is shown in messages: in double quotes, with quotes, backslashes
and control characters escaped. -/
def quotePath (s : String) : String :=
  let escape := fun (c : Char) =>
    if c = '"' then "\\\"" else if c.toNat = 39 then "\\'" else if c = '\\' then "\\\\"
    else if c = '\n' then "\\n" else if c = '\r' then "\\r" else if c = '\t' then "\\t"
    else if c = '\x00' then "\\0"
    else if c.toNat < 0x20 ∨ c.toNat = 0x7f then
      "\\u" ++ "\x7b" ++ String.ofList (Nat.toDigits 16 c.toNat) ++ "\x7d"
    else c.toString
  "\"" ++ String.join (s.toList.map escape) ++ "\""

theorem Record.lines_single (l : Level) (m : String) (h : m.splitOn "\n" = [m]) :
    (Record.mk l m).lines = [l.label ++ " " ++ m] := by
  simp [Record.lines, h]

end SweptSpectrum.Cli
