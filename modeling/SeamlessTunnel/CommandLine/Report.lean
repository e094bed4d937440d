import SeamlessTunnel.CommandLine.Arguments
import SeamlessTunnel.Interface.Listing
import SeamlessTunnel.Log.Filter
import SeamlessTunnel.Routes.Basic
import SeamlessTunnel.Settings.Document
/-
  SeamlessTunnel.CommandLine.Report — what the commands answer.

  A command prints its answer and ends with 0, or prints nothing, logs one error and ends
  with 1. The file that it reads, if it reads one, is given to it by what reading it gave
  (`Reading`). The error is logged if the filter in force lets it through: the one in the
  variable `filterVariable` of the environment, or without it the level of the arguments
  (`Request.filter`). The level in a settings file is printed and decides nothing.
-/

namespace SeamlessTunnel.CommandLine

/-- Why a file cannot be read. -/
inductive FileFault where
  | missing
  | notDirectory
  | directory
  | longName
  /-- Any other reason, in the words of the system. -/
  | other (text : String)
  deriving DecidableEq, Repr

namespace FileFault

def message : FileFault → String
  | missing => "No such file or directory (os error 2)"
  | notDirectory => "Not a directory (os error 20)"
  | directory => "Is a directory (os error 21)"
  | longName => "File name too long (os error 36)"
  | other text => text

/-- Whether something is there that cannot be read. -/
def isPresent : FileFault → Bool
  | directory | other _ => true
  | _ => false

end FileFault

/-- The content of a file, or why there is none. -/
abbrev Reading := Except FileFault String

/-- What the program leaves behind. -/
structure Outcome where
  exit : UInt32
  output : String := ""
  /-- The error line of the log. -/
  logged : Option String := none
  deriving DecidableEq, Repr

def Command.path? : Command → Option String
  | routes _ _ => none
  | interfaces path | validate path => some path

/-! ## Routes -/

/-- The prefixes of an option, or the first text that is none. -/
def readPrefixes (option : String) (texts : List String) : Except String (List Prefix) :=
  texts.mapM fun text =>
    (Prefix.ofText? text).mapError fun e => s!"--{option} {text}: {e.message}"

/-- The routes, one on a line, IPv4 first. -/
def routesReport (allowed excluded : List String) : Except String String := do
  let allowed ← readPrefixes "allow" allowed
  let excluded ← readPrefixes "exclude" excluded
  return String.join ((Routes.compute allowed excluded).toList.map fun p => p.text ++ "\n")

/-! ## Interfaces -/

/-- A text with spaces after it, up to a width in characters. -/
def padded (width : Nat) (text : String) : String :=
  text ++ String.ofList (List.replicate (width - text.length) ' ')

def interfaceLine (i : Interface) : String :=
  let state := if i.flags.up then "up" else "down"
  let marks := (if i.flags.loopback then " loopback" else "") ++
    (if i.flags.pointToPoint then " p2p" else "")
  let addresses := " ".intercalate (i.addresses.map (·.text))
  padded 16 i.name ++ " #" ++ padded 4 (toString i.index) ++ " mtu " ++
    padded 6 (toString i.mtu) ++ " " ++ padded 4 state ++ marks ++ " " ++ addresses

/-- The interfaces, one on a line, and the counts after an empty line. -/
def interfacesReport (path : String) (file : Reading) : Except String String := do
  let text ← file.mapError fun e => s!"reading {path}: {e.message}"
  let listing ← (Interface.Listing.ofChars text.toList).mapError (·.headline)
  return String.join (listing.interfaces.map fun i => interfaceLine i ++ "\n") ++
    "\n" ++ listing.stats.text ++ "\n"

/-! ## Settings -/

def missingReport (path : String) : String :=
  s!"⚠️  Config file not found: {path}\n   Client will use default values.\n"

def settingsReport (o : Options) : String :=
  "✅ Configuration is valid\n\nTUN:\n" ++
  s!"   Default MTU:       {o.tunnel.defaultMtu}\n" ++
  s!"   Seamless handover: {o.tunnel.seamlessHandover}\n" ++
  s!"   Queue depth:       {o.tunnel.queueDepth}\n\nDNS:\n" ++
  s!"   Avoid empty DNS:   {o.dns.avoidEmpty}\n" ++
  String.join (o.dns.fallback.map fun a => s!"   Fallback:          {a.text}\n") ++
  s!"\nLogging:\n   Level:             {o.logging.level}\n\n"

/-- Where no file is, the defaults hold. -/
def validateReport (path : String) (file : Reading) : Except String String :=
  match file with
  | .ok text => do
    let o ← (Options.load path text).mapError (·.headline)
    return settingsReport o
  | .error e =>
    if e.isPresent then .error (VpnError.load path e.message).headline
    else .ok (missingReport path)

/-! ## Outcomes -/

def Command.report (c : Command) (file : Reading) : Except String String :=
  match c with
  | routes allowed excluded => routesReport allowed excluded
  | interfaces path => interfacesReport path file
  | validate path => validateReport path file

/-- The name under which the program logs. -/
def logSource : String := "meshtun"

/-- The variable of the environment that holds a filter. -/
def filterVariable : String := "RUST_LOG"

/-- The filter in force, given what the variable holds. -/
def Request.filter (r : Request) (environment : Option String) : Log.Filter :=
  .inForce environment r.level

def Request.outcome (r : Request) (environment : Option String) (file : Reading) : Outcome :=
  match r.command.report file with
  | .ok output => ⟨0, output, none⟩
  | .error e =>
    ⟨1, "", if (r.filter environment).admitsErrors logSource.toList then some e else none⟩

def usage : String :=
  "Usage: meshtun [--log-level LEVEL] COMMAND\n\n" ++
  "  routes -a PREFIX... [-e PREFIX]...   routes for allowed less excluded prefixes\n" ++
  "  interfaces FILE                      summary of an interface listing\n" ++
  "  validate [-c FILE]                   check of a settings file\n"

def Stop.outcome : Stop → Outcome
  | help => ⟨0, usage, none⟩
  | version => ⟨0, "meshtun 0.1.0\n", none⟩
  | misuse => ⟨2, "", none⟩

/-- The outcome for arguments; `environment` is what the variable holds, and `look` says
    what reading a path gives. -/
def outcome (environment : Option String) (look : String → Reading) (args : List String) :
    Outcome :=
  match Request.ofArguments args with
  | .error stop => stop.outcome
  | .ok r => r.outcome environment ((r.command.path?.map look).getD (.error .missing))

end SeamlessTunnel.CommandLine
