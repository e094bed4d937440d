import SeamlessTunnel.Text.Blank
/-
  SeamlessTunnel.CommandLine.Arguments — the arguments of the program.

  Three commands with options of their own, one option (`--log-level`) that may stand
  before or after the command's name. Reading goes from left to right and stops at
  the first argument that asks for help or the version, or that is misplaced.
-/

namespace SeamlessTunnel.CommandLine

inductive Command where
  | routes (allowed excluded : List String)
  | interfaces (path : String)
  | validate (path : String)
  deriving DecidableEq, Repr

structure Request where
  /-- The filter of the log. -/
  level : String
  command : Command
  deriving DecidableEq, Repr

/-- Why no command is carried out. -/
inductive Stop where
  | help
  | version
  | misuse
  deriving DecidableEq, Repr

/-! ## One argument -/

/-- How an argument looks. -/
inductive Shape where
  /-- Two hyphens alone: no options follow. -/
  | ending
  | long (name : List Char) (value : Option String)
  /-- The letter of an option, and what is attached to it. -/
  | short (letter : Char) (value : Option String)
  | plain
  deriving DecidableEq, Repr

def Shape.of (arg : String) : Shape :=
  match arg.toList with
  | ['-', '-'] => .ending
  | '-' :: '-' :: rest =>
    match Text.cutAt '=' rest with
    | some (name, value) => .long name (some (String.ofList value))
    | none => .long rest none
  | ['-'] => .plain
  | ['-', c] => .short c none
  | '-' :: c :: '=' :: value => .short c (some (String.ofList value))
  | '-' :: c :: value => .short c (some (String.ofList value))
  | _ => .plain

/-! ## Options -/

/-- Options with a value. -/
inductive Setting where
  | level
  | allow
  | exclude
  | config
  deriving DecidableEq, Repr

inductive Switch where
  | setting (s : Setting)
  | help
  | version
  deriving DecidableEq, Repr

/-- Where options are read: before the command's name, or after it. -/
inductive Scope where
  | program
  | routes
  | interfaces
  | validate
  deriving DecidableEq, Repr

namespace Scope

def ofName? (name : String) : Option Scope :=
  match name with
  | "routes" => some routes
  | "interfaces" => some interfaces
  | "validate" => some validate
  | _ => none

def long? (scope : Scope) (name : List Char) : Option Switch :=
  match scope, String.ofList name with
  | _, "log-level" => some (.setting .level)
  | _, "help" => some .help
  | program, "version" => some .version
  | routes, "allow" => some (.setting .allow)
  | routes, "exclude" => some (.setting .exclude)
  | validate, "config" => some (.setting .config)
  | _, _ => none

def short? : Scope → Char → Option Switch
  | _, 'h' => some .help
  | program, 'V' => some .version
  | routes, 'a' => some (.setting .allow)
  | routes, 'e' => some (.setting .exclude)
  | validate, 'c' => some (.setting .config)
  | _, _ => none

end Scope

/-! ## What has been read -/

structure Given where
  level : Option String := none
  allowed : List String := []
  excluded : List String := []
  path : Option String := none
  deriving DecidableEq, Repr

namespace Given

/-- A path is given once, and is not empty. -/
def takePath (g : Given) (path : String) : Except Stop Given :=
  if g.path.isSome || path.isEmpty then .error .misuse else .ok { g with path := some path }

/-- Prefixes may be given again and again, everything else once. -/
def take (g : Given) (s : Setting) (value : String) : Except Stop Given :=
  match s with
  | .level => if g.level.isSome then .error .misuse else .ok { g with level := some value }
  | .allow => .ok { g with allowed := g.allowed ++ [value] }
  | .exclude => .ok { g with excluded := g.excluded ++ [value] }
  | .config => g.takePath value

/-- An argument that belongs to no option. -/
def takePlain (g : Given) (scope : Scope) (arg : String) : Except Stop Given :=
  match scope with
  | .interfaces => g.takePath arg
  | _ => .error .misuse

end Given

/-- An option in sight: what is given with it, and the setting that still needs a value. -/
def readSwitch (g : Given) (switch : Option Switch) (value : Option String) (isLong : Bool) :
    Except Stop (Given × Option Setting) :=
  match switch, value with
  | none, _ => .error .misuse
  | some (.setting s), none => .ok (g, some s)
  | some (.setting s), some v => (g.take s v).map (·, none)
  | some stop, v =>
    if isLong && v.isSome then .error .misuse
    else .error (if stop = .version then .version else .help)

/-- The arguments after the command's name, or where there is none so far, up to it: what
    they give, the command, and the arguments after its name. `pending` is the setting
    that needs a value. -/
def readScope (scope : Scope) : Option Setting → Given → List String →
    Except Stop (Given × Option (Scope × List String))
  | none, g, [] => .ok (g, none)
  | some _, _, [] => .error .misuse
  | pending, g, arg :: rest =>
    match Shape.of arg, pending with
    | .plain, some s => do readScope scope none (← g.take s arg) rest
    | _, some _ => .error .misuse
    | .ending, none => do
      let g ← rest.foldlM (·.takePlain scope ·) g
      return (g, none)
    | .long name value, none => do
      let (g, pending) ← readSwitch g (scope.long? name) value true
      readScope scope pending g rest
    | .short letter value, none => do
      let (g, pending) ← readSwitch g (scope.short? letter) value false
      readScope scope pending g rest
    | .plain, none =>
      if scope = .program then
        match Scope.ofName? arg with
        | some command => .ok (g, some (command, rest))
        | none => .error (if arg = "help" then .help else .misuse)
      else do readScope scope none (← g.takePlain scope arg) rest

/-! ## Requests -/

/-- The level of the log where none is given. -/
def defaultLevel : String := "warn"

/-- The settings where none are named. -/
def defaultConfig : String := "/etc/meshtun/client.toml"

/-- The command with what was given to it. Something must be allowed, and interfaces
    come from a file. -/
def Command.ofGiven (scope : Scope) (g : Given) : Except Stop Command :=
  match scope, g.path with
  | .routes, _ => if g.allowed.isEmpty then .error .misuse else .ok (.routes g.allowed g.excluded)
  | .interfaces, some path => .ok (.interfaces path)
  | .validate, path => .ok (.validate (path.getD defaultConfig))
  | _, _ => .error .misuse

/-- A level after the command's name counts before one in front of it. -/
def Request.ofArguments (args : List String) : Except Stop Request := do
  match ← readScope .program none {} args with
  | (_, none) => .error .misuse
  | (before, some (scope, rest)) =>
    let (after, _) ← readScope scope none {} rest
    let command ← Command.ofGiven scope after
    return ⟨(after.level.orElse fun _ => before.level).getD defaultLevel, command⟩

end SeamlessTunnel.CommandLine
