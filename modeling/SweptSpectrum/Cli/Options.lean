import SweptSpectrum.Text.Unsigned

/-!
The settings of the `wsa-sweep` command line, their defaults, and the messages of a command
line that cannot be read.

Every setting has a long name; all but `--timeout-ms` also have a one-letter name. A setting
either takes one value (`--start 2.4GHz`) or is a switch (`--quiet`). The attenuation must be
an integer in `0..=4294967295` and the timeout one of 64 bits; every other value is text, read
later. A refused command line is told in the format of the usual argument reader: the fault,
a hint when one fits, the usage line when it helps, and where to find more.
-/

namespace SweptSpectrum.Cli

/-- A setting of the command line. -/
inductive Setting where
  | target
  | start
  | stop
  | rbw
  | mode
  | attenuator
  | timeoutMs
  | output
  | quiet
  | help
  | version
  deriving Repr, DecidableEq

namespace Setting

/-- Every setting, in the order of the help text. -/
def all : List Setting :=
  [target, start, stop, rbw, mode, attenuator, timeoutMs, output, quiet, help, version]

/-- The long name, written after `--`. -/
def long : Setting → String
  | target => "target"
  | start => "start"
  | stop => "stop"
  | rbw => "rbw"
  | mode => "mode"
  | attenuator => "attenuator"
  | timeoutMs => "timeout-ms"
  | output => "output"
  | quiet => "quiet"
  | help => "help"
  | version => "version"

/-- The one-letter name, written after `-`. -/
def short : Setting → Option Char
  | target => some 't'
  | start => some 's'
  | stop => some 'e'
  | rbw => some 'r'
  | mode => some 'm'
  | attenuator => some 'a'
  | timeoutMs => none
  | output => some 'o'
  | quiet => some 'q'
  | help => some 'h'
  | version => some 'V'

/-- The placeholder of the value, for a setting that takes one. -/
def valueName : Setting → Option String
  | target => some "TARGET"
  | start => some "START"
  | stop => some "STOP"
  | rbw => some "RBW"
  | mode => some "MODE"
  | attenuator => some "ATTENUATOR"
  | timeoutMs => some "TIMEOUT_MS"
  | output => some "OUTPUT"
  | quiet | help | version => none

/-- Whether the setting takes a value. -/
def takesValue (s : Setting) : Bool := s.valueName.isSome

/-- How messages name the setting: `--start <START>`, `--quiet`. -/
def display (s : Setting) : String :=
  "--" ++ s.long ++ (match s.valueName with
    | some v => " <" ++ v ++ ">"
    | none => "")

/-- The setting of a long name. -/
def ofLong? (name : String) : Option Setting := all.find? (·.long == name)

/-- The setting of a one-letter name. -/
def ofShort? (c : Char) : Option Setting := all.find? (·.short == some c)

end Setting

/-- What the command line asks for. -/
structure Options where
  target : String := "sim"
  start : String := "2400MHz"
  stop : String := "2500MHz"
  rbw : String := "100kHz"
  mode : String := "SHN"
  /-- attenuation of the sweep entries, dB -/
  attenuator : Nat := 0
  /-- socket and packet read timeout, milliseconds -/
  timeoutMs : Nat := 5000
  /-- where to write the report -/
  output : Option String := none
  /-- log errors only -/
  quiet : Bool := false
  deriving Repr

/-- Why a command line is refused. -/
inductive ArgError where
  /-- a word that is no setting; a similar long name, and the settings already given, for
  the usage line -/
  | unexpected (word : String) (similar : Option Setting) (given : List Setting)
  /-- a setting that takes a value, given none -/
  | missingValue (s : Setting)
  /-- a setting given twice -/
  | repeated (s : Setting)
  /-- a value the setting cannot take, as it was read, and why -/
  | invalidValue (s : Setting) (value reason : String)
  /-- a value attached to a switch -/
  | unexpectedValue (s : Setting) (value : String) (given : List Setting)
  deriving Repr

/-- The name of the program. -/
def programName : String := "wsa-sweep"

/-- The version of the program. -/
def programVersion : String := "0.1.0"

/-- The usage line: the settings given, or `[OPTIONS]` when there are none. -/
def usageLine (given : List Setting) : String :=
  if given.isEmpty then "Usage: " ++ programName ++ " [OPTIONS]"
  else "Usage: " ++ programName ++ String.join (given.eraseDups.map (" " ++ ·.display))

/-- The closing line of every refusal. -/
def moreInformation : String := "For more information, try '--help'."

namespace ArgError

/-- The lines of the refusal. -/
def lines : ArgError → List String
  | unexpected word similar given =>
    ["error: unexpected argument '" ++ word ++ "' found", ""] ++
    (match similar with
      | some s => ["  tip: a similar argument exists: '--" ++ s.long ++ "'", ""]
      | none => []) ++
    [usageLine given, "", moreInformation]
  | missingValue s =>
    ["error: a value is required for '" ++ s.display ++ "' but none was supplied", "",
     moreInformation]
  | repeated s =>
    ["error: the argument '" ++ s.display ++ "' cannot be used multiple times", "",
     usageLine [], "", moreInformation]
  | invalidValue s value reason =>
    ["error: invalid value '" ++ value ++ "' for '" ++ s.display ++ "': " ++ reason, "",
     moreInformation]
  | unexpectedValue s value given =>
    ["error: unexpected value '" ++ value ++ "' for '" ++ s.display ++
       "' found; no more were expected", "", usageLine given, "", moreInformation]

end ArgError

/-- The largest attenuation. -/
def maxAttenuator : Nat := Text.maxUnsigned 32

namespace Options

/-- The options with a setting's value stored; the attenuation and the timeout are read as
integers here. -/
def store (o : Options) (s : Setting) (value : String) : Except ArgError Options :=
  match s with
  | .target => .ok { o with target := value }
  | .start => .ok { o with start := value }
  | .stop => .ok { o with stop := value }
  | .rbw => .ok { o with rbw := value }
  | .mode => .ok { o with mode := value }
  | .attenuator =>
    match Text.parseSigned (Text.maxUnsigned 63) value with
    | .error e => .error (.invalidValue s value e.message)
    | .ok n =>
      if 0 ≤ n ∧ n ≤ maxAttenuator then .ok { o with attenuator := n.toNat }
      else .error (.invalidValue s (toString n)
        (toString n ++ " is not in 0..=" ++ toString maxAttenuator))
  | .timeoutMs =>
    match Text.parseUnsigned (Text.maxUnsigned 64) value with
    | .error e => .error (.invalidValue s value e.message)
    | .ok n => .ok { o with timeoutMs := n }
  | .output => if value.isEmpty then .error (.missingValue s) else .ok { o with output := some value }
  | .quiet => .ok { o with quiet := true }
  | .help | .version => .ok o

end Options

/-- The help text. -/
def helpLines : List String :=
  ["Capture a swept power spectrum from a WSA spectrum analyzer",
   "",
   "Usage: " ++ programName ++ " [OPTIONS]",
   "",
   "Options:",
   "  -t, --target <TARGET>          Инструмент: sim или имя хоста / IP [default: sim]",
   "  -s, --start <START>            Начало полосы (2400MHz, 2.4GHz, 2400000000) [default: 2400MHz]",
   "  -e, --stop <STOP>              Конец полосы [default: 2500MHz]",
   "  -r, --rbw <RBW>                Желаемое разрешение по частоте [default: 100kHz]",
   "  -m, --mode <MODE>              Режим RFE: SH, SHN [default: SHN]",
   "  -a, --attenuator <ATTENUATOR>  Аттенюатор записей свипа, дБ [default: 0]",
   "      --timeout-ms <TIMEOUT_MS>  Таймаут сокетов и чтения пакетов, мс [default: 5000]",
   "  -o, --output <OUTPUT>          JSON отчёт со спектром",
   "  -q, --quiet                    Тихий режим (только ошибки)",
   "  -h, --help                     Print help",
   "  -V, --version                  Print version"]

/-- The version line. -/
def versionLine : String := programName ++ " " ++ programVersion

theorem Setting.ofLong_long (s : Setting) : Setting.ofLong? s.long = some s := by
  cases s <;> rfl

end SweptSpectrum.Cli
