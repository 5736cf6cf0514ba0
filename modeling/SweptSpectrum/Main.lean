import SweptSpectrum.Cli.Session
import SweptSpectrum.Sweep.ReportFile

/-!
The `wsa-sweep` command: captures a swept power spectrum and reports it, optionally saving the
report as a JSON file. Everything but the streams and the file is decided by `Cli.run`, with
the backends the command is built with.
-/

open SweptSpectrum SweptSpectrum.Cli SweptSpectrum.Sweep

/-- Writes the report file, telling whether it could. -/
def saveReport (path : String) (r : Report) : IO (Except String Unit) := do
  try
    IO.FS.writeFile path r.fileText
    return .ok ()
  catch e =>
    return .error (toString e)

/-- Runs the command. -/
def main (args : List String) : IO UInt32 := do
  let o := run .standard args
  let o ← match o.save with
    | some (path, r) => do
      let written ← saveReport path r
      pure (o.saved written)
    | none => pure o
  let out ← IO.getStdout
  for line in o.stdout do out.putStrLn line
  let err ← IO.getStderr
  for line in o.stderr do err.putStrLn line
  return o.exit.toUInt32
