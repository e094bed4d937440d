import SeamlessTunnel.CommandLine.Report
/-
  SeamlessTunnel.Main — the program: reads the file that a command names and the filter of
  the environment, prints the answer and logs the error.
-/

namespace SeamlessTunnel.CommandLine

/-- The number of a system error, which some calls report negated. -/
def errorNumber (code : UInt32) : UInt32 :=
  if 2147483648 ≤ code then 0 - code else code

/-- Why the system refused to read a file. -/
def FileFault.ofError : IO.Error → FileFault
  | .noFileOrDirectory .. => .missing
  | .inappropriateType _ code _ => if errorNumber code = 20 then .notDirectory else .directory
  | .invalidArgument _ code text =>
    if errorNumber code = 36 then .longName
    else .other s!"{text} (os error {errorNumber code})"
  | .permissionDenied _ code text => .other s!"{text} (os error {errorNumber code})"
  | e => .other (toString e)

/-- Reads a file as UTF-8. -/
def readFile (path : String) : IO Reading := do
  try
    let bytes ← IO.FS.readBinFile path
    match String.fromUTF8? bytes with
    | some text => return .ok text
    | none => return .error (.other "stream did not contain valid UTF-8")
  catch e =>
    return .error (.ofError e)

/-- Prints an outcome. -/
def emit (o : Outcome) : IO UInt32 := do
  IO.print o.output
  if o.exit = 2 then IO.eprint usage
  match o.logged with
  | some line => IO.eprintln s!"ERROR {logSource}: {line}"
  | none => pure ()
  return o.exit

end SeamlessTunnel.CommandLine

open SeamlessTunnel.CommandLine in
def main (args : List String) : IO UInt32 := do
  match Request.ofArguments args with
  | .error stop => emit stop.outcome
  | .ok r =>
    let file ← match r.command.path? with
      | some path => readFile path
      | none => pure (.error .missing)
    emit (r.outcome (← IO.getEnv filterVariable) file)
