import SweptSpectrum.Cli.Options

/-!
Reading the words of a command line into options.

Words are read left to right. `--name` and `--name=value` name a setting by its long name;
`-abc` is a run of one-letter names, where a setting that takes a value takes the rest of the
run as its value (`-s2.4GHz`, `-s=2.4GHz`). A setting met without an attached value takes the
next word that is not itself a setting; `--` ends the settings, and every word after it is
stray. Help and version stop the reading where they stand.

A value is stored only when the next setting is met or the words run out, so a setting left
without value is reported then, and a stray word or unknown name found first wins over it.
A setting given twice, or a value the setting cannot take, is refused when stored.

An unknown long name is answered with the known one most like it, if any is alike enough; how
alike two texts are is a parameter of the reading (`similarity`, between 0 and 1).
-/

namespace SweptSpectrum.Cli

/-- The candidate most like `s` by `similarity`, if any is more than 70 % alike; of equally
alike ones, the last. -/
def closest (similarity : String → String → Float) (s : String) (candidates : List String) :
    Option String :=
  (candidates.foldl (fun best c =>
    let score := similarity s c
    if score > 0.7 then
      match best with
      | some (_, top) => if score ≥ top then some (c, score) else best
      | none => some (c, score)
    else best) (none : Option (String × Float))).map Prod.fst

/-- What ends a reading early: a request for help or the version, or a refusal. -/
inductive Halt where
  | help
  | version
  | refuse (e : ArgError)
  deriving Repr

/-- Where the reading of a command line stands. -/
structure Scan where
  options : Options := {}
  /-- the settings stored so far, in order -/
  given : List Setting := []
  /-- a setting waiting to be stored, and its value once it has one -/
  pending : Option (Setting × Option String) := none
  /-- whether `--` has been read -/
  ended : Bool := false
  deriving Repr

/-- Reading a command line: the scan is kept also when the reading halts. -/
abbrev ScanM := ExceptT Halt (StateM Scan)

namespace Scan

/-- Stores a setting with its value. A value-taking setting without value is refused, then a
setting already given (which is dropped from the record), then a value it cannot take. -/
def store (s : Setting) (value : Option String) : ScanM Unit := do
  match s with
  | .help => throw .help
  | .version => throw .version
  | _ => pure ()
  let sc ← get
  if s.takesValue ∧ value.isNone then throw (.refuse (.missingValue s))
  if s ∈ sc.given then
    set { sc with given := sc.given.erase s }
    throw (.refuse (.repeated s))
  set { sc with given := sc.given ++ [s] }
  match sc.options.store s (value.getD "") with
  | .ok o => modify fun sc => { sc with options := o }
  | .error e => throw (.refuse e)

/-- Stores the setting that waits, if any. -/
def settle : ScanM Unit := do
  match (← get).pending with
  | none => pure ()
  | some (s, value) =>
    modify fun sc => { sc with pending := none }
    store s value

/-- Stores the setting that waits, if it can be; a refusal of it is dropped, since a fault
found later is the one reported. -/
def settleQuietly : ScanM Unit :=
  tryCatch settle fun _ => pure ()

/-- Settles what waits, then stores a setting. -/
def apply (s : Setting) (value : Option String) : ScanM Unit := do
  settle
  store s value

/-- Settles what waits, then lets a setting wait for its value. -/
def await (s : Setting) : ScanM Unit := do
  settle
  modify fun sc => { sc with pending := some (s, none) }

/-- Refuses a word that is no setting and no value. -/
def stray (word : String) : ScanM Unit := do
  settleQuietly
  throw (.refuse (.unexpected word none []))

/-- Reads `--name` or `--name=value`; `body` is what follows the dashes. -/
def longWord (similarity : String → String → Float) (body : String) : ScanM Unit := do
  let (name, value) := match body.splitOn "=" with
    | [name] => (name, none)
    | name :: rest => (name, some ("=".intercalate rest))
    | [] => (body, none)
  match Setting.ofLong? name with
  | some s =>
    if s.takesValue then
      match value with
      | some v => apply s (some v)
      | none => await s
    else
      match value with
      | some v => throw (.refuse (.unexpectedValue s v ((← get).given ++ [s])))
      | none => apply s none
  | none =>
    settleQuietly
    let similar := (closest similarity name (Setting.all.map Setting.long)).bind Setting.ofLong?
    let given := (← get).given
    let given := match similar with
      | some s => if s ∈ given then given else given ++ [s]
      | none => given
    throw (.refuse (.unexpected ("--" ++ name) similar given))

/-- Reads a run of one-letter names. -/
def shortRun : List Char → ScanM Unit
  | [] => pure ()
  | c :: rest =>
    match Setting.ofShort? c with
    | none => do
      settleQuietly
      throw (.refuse (.unexpected ("-" ++ c.toString) none []))
    | some s =>
      if s.takesValue then
        match rest with
        | [] => await s
        | '=' :: v => apply s (some (String.ofList v))
        | v => apply s (some (String.ofList v))
      else do
        apply s none
        shortRun rest

/-- Reads one word. -/
def word (similarity : String → String → Float) (w : String) : ScanM Unit := do
  let sc ← get
  if sc.ended then stray w
  else if w = "--" then
    modify fun sc => { sc with ended := true }
    settle
  else if w.startsWith "--" then longWord similarity (String.ofList (w.toList.drop 2))
  else if w.startsWith "-" ∧ w.length > 1 then shortRun (w.toList.drop 1)
  else match sc.pending with
    | some (s, none) => set { sc with pending := some (s, some w) }
    | _ => stray w

/-- Reads every word, then settles what waits. -/
def words (similarity : String → String → Float) : List String → ScanM Unit
  | [] => settle
  | w :: ws => do
    word similarity w
    words similarity ws

end Scan

/-- The options of a command line, or why the reading halted. -/
def readArguments (similarity : String → String → Float) (args : List String) :
    Except Halt Options :=
  match ((Scan.words similarity args).run).run {} with
  | (.ok (), sc) => .ok sc.options
  | (.error h, _) => .error h

end SweptSpectrum.Cli
