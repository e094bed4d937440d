import SeamlessTunnel.Text.Blank
import SeamlessTunnel.Text.Numeral
/-
  SeamlessTunnel.Log.Filter — which lines a log filter lets through.

  A filter is a list of directives with commas between them. A directive gives a level to
  all lines, or to the lines of the parts of the program whose names begin with its target;
  a target alone means every line of it. Directives with brackets are about spans and say
  nothing about lines outside of spans.

  A filter is read in one of two ways. Leniently (`Filter.ofChars`), a directive that cannot
  be read is ignored, and errors are let through where no directive is left. Strictly
  (`Filter.ofChars?`), one such directive is enough for there to be no filter, and a filter
  without directives lets nothing through. The environment's filter is read strictly, and
  the one of the command line, which stands in for it, leniently (`Filter.inForce`).
-/

namespace SeamlessTunnel.Log

inductive Level where
  | off
  | error
  | warn
  | info
  | debug
  | trace
  deriving DecidableEq, Repr

/-- The levels by number. -/
def Level.all : List Level :=
  [.off, .error, .warn, .info, .debug, .trace]

def Level.name : Level → String
  | off => "off"
  | error => "error"
  | warn => "warn"
  | info => "info"
  | debug => "debug"
  | trace => "trace"

/-- A level by its number, or by its name in any case of the letters. -/
def Level.ofChars? (cs : List Char) : Option Level :=
  match Text.natural? 5 cs with
  | some n => Level.all[n]?
  | none => Level.all.find? fun l => l.name.toList = cs.map Char.toLower

/-- A level for the lines whose source begins with `target`, and for all without one. -/
structure Rule where
  target : Option (List Char)
  level : Level
  deriving DecidableEq, Repr

inductive Directive where
  | rule (r : Rule)
  /-- A directive about spans. -/
  | span
  deriving DecidableEq, Repr

namespace Directive

/-- Letters and digits of ASCII, other alphabets, and the three marks of targets. -/
def startsTarget (c : Char) : Bool :=
  c.isAlphanum || 128 ≤ c.toNat || c = '-' || c = ':' || c = '_'

/-- Whether `c` goes on with the name that a directive begins with. -/
def inName (c : Char) : Bool :=
  c != '=' && c != '['

/-- A level, a target, or a target, an equals sign and a level, which may be missing. -/
def ofChars? (cs : List Char) : Option Directive :=
  let name := cs.takeWhile inName
  match cs.dropWhile inName with
  | '[' :: rest => if name.head?.all startsTarget && rest.contains ']' then some .span else none
  | rest =>
    if !name.head?.any startsTarget then none
    else
      match rest with
      | [] =>
        match Level.ofChars? name with
        | some level => some (.rule ⟨none, level⟩)
        | none => some (.rule ⟨some name, .trace⟩)
      | [_] => some (.rule ⟨some name, .trace⟩)
      | _ :: level => (Level.ofChars? level).map fun l => .rule ⟨some name, l⟩

/-- What a directive says about lines outside of spans. -/
def rule? : Directive → Option Rule
  | rule r => some r
  | span => none

end Directive

/-- Whether a rule is about a source. -/
def Rule.covers (r : Rule) (source : List Char) : Bool :=
  match r.target with
  | none => true
  | some t => t.isPrefixOf source

/-- The length of a target; a rule without one is less than all others. -/
def Rule.weight (r : Rule) : Nat :=
  match r.target with
  | none => 0
  | some t => t.length + 1

/-- The rule with the longest target decides, the last of equals. -/
def decisive (source : List Char) (rs : List Rule) : Option Rule :=
  (rs.filter (·.covers source)).foldl (fun best r =>
    match best with
    | none => some r
    | some b => if b.weight ≤ r.weight then some r else some b) none

structure Filter where
  rules : List Rule
  deriving DecidableEq, Repr

namespace Filter

def ofChars (cs : List Char) : Filter :=
  match (Text.wordsAt (· = ',') cs).filterMap Directive.ofChars? with
  | [] => ⟨[⟨none, .error⟩]⟩
  | ds => ⟨ds.filterMap Directive.rule?⟩

def ofChars? (cs : List Char) : Option Filter :=
  if cs.isEmpty then some ⟨[]⟩
  else
    ((Text.pieces (· = ',') cs).mapM Directive.ofChars?).map fun ds =>
      ⟨ds.filterMap Directive.rule?⟩

/-- The filter of the environment, if it has one that can be read, or else that of a level. -/
def inForce (environment : Option String) (level : String) : Filter :=
  (environment.bind fun text => ofChars? text.toList).getD (ofChars level.toList)

/-- Whether error lines of a source are let through. -/
def admitsErrors (f : Filter) (source : List Char) : Bool :=
  (decisive source f.rules).any (·.level != .off)

end Filter

end SeamlessTunnel.Log
