/-
  SeamlessTunnel.Toml.Basic — TOML documents: values, statements, and the tree they build.

  A document is a list of statements: headers `[a.b]`, headers `[[a.b]]` of one more table
  in a list, and pairs `a.b = value`. `Document.ofStatements?` puts them into a tree and
  refuses what defines a table or a key twice. Which table may be entered how depends on
  how it came to be (`Origin`).
-/

namespace SeamlessTunnel.Toml

abbrev Key := List Char

/-- The keys before the last one, and the last one. -/
structure Path where
  parents : List Key
  last : Key
  deriving DecidableEq, Repr

/-- How a table came to be: under a header of its own, on the way to another header, by a
    dotted key, or between braces. -/
inductive Origin where
  | header
  | implied
  | dotted
  | braces
  deriving DecidableEq, Repr

/-- Reals and moments keep no value: no setting is one. -/
inductive Value where
  | string (s : List Char)
  | integer (n : Int)
  | real
  | bool (b : Bool)
  | moment
  | array (items : List Value)
  | table (origin : Origin) (entries : List (Key × Value))
  /-- Tables under equal `[[headers]]`; `last` is the one that later statements see. -/
  | tables (earlier : List (List (Key × Value))) (last : List (Key × Value))

abbrev Entries := List (Key × Value)

inductive Statement where
  | header (path : Path)
  /-- One more table in the list at `path`. -/
  | another (path : Path)
  | pair (path : Path) (value : Value)

/-! ## The tree -/

namespace Entries

def find? (key : Key) (entries : Entries) : Option Value :=
  entries.lookup key

/-- Gives `key` a value, in its old place if it has one. -/
def put (key : Key) (value : Value) : Entries → Entries
  | [] => [(key, value)]
  | (k, v) :: rest => if k = key then (key, value) :: rest else (k, v) :: put key value rest

/-- Changes the table at the end of a path by `change`, which is told how that table came
    to be. Tables that are missing on the way are made. A dotted way enters no table that
    has a header of its own; no way enters a table between braces. -/
def alter (dotted : Bool) (change : Origin → Entries → Option Entries) :
    List Key → Origin → Entries → Option Entries
  | [], origin, entries => change origin entries
  | key :: path, _, entries =>
    match entries.find? key with
    | none => do
      let made := if dotted then Origin.dotted else .implied
      let child ← alter dotted change path made []
      return entries.put key (.table made child)
    | some (.table origin child) =>
      if origin = .braces || (dotted && origin = .header) then none
      else do
        let child ← alter dotted change path origin child
        return entries.put key (.table origin child)
    | some (.tables earlier last) => do
      let last ← alter dotted change path .header last
      return entries.put key (.tables earlier last)
    | some _ => none

/-- Adds a pair below a table. A table that a dotted key made grows by dotted keys only,
    and every other one not by them. -/
def addPair (path : Path) (value : Value) (origin : Origin) (entries : Entries) :
    Option Entries :=
  entries |> alter true (fun origin entries =>
    if (origin == .dotted) != path.parents.isEmpty && (entries.find? path.last).isNone then
      some (entries.put path.last value)
    else none) path.parents origin

/-- Opens the table of a header: a new one, or one that was only implied so far. -/
def addHeader (path : Path) (root : Entries) : Option Entries :=
  root |> alter false (fun _ entries =>
    match entries.find? path.last with
    | none => some (entries.put path.last (.table .header []))
    | some (.table .implied child) => some (entries.put path.last (.table .header child))
    | some _ => none) path.parents .header

/-- Opens one more table in the list at a path. -/
def addAnother (path : Path) (root : Entries) : Option Entries :=
  root |> alter false (fun _ entries =>
    match entries.find? path.last with
    | none => some (entries.put path.last (.tables [] []))
    | some (.tables earlier last) =>
      some (entries.put path.last (.tables (earlier ++ [last]) []))
    | some _ => none) path.parents .header

end Entries

/-! ## Documents -/

/-- What the statements so far have built, and where the next pair goes. -/
structure Document where
  root : Entries := []
  here : List Key := []

namespace Document

def add (d : Document) : Statement → Option Document
  | .header path => do
    let root ← d.root.addHeader path
    return ⟨root, path.parents ++ [path.last]⟩
  | .another path => do
    let root ← d.root.addAnother path
    return ⟨root, path.parents ++ [path.last]⟩
  | .pair path value => do
    let root ← d.root.alter false (Entries.addPair path value) d.here .header
    return { d with root }

def ofStatements? (statements : List Statement) : Option Document :=
  statements.foldlM add {}

end Document

end SeamlessTunnel.Toml
