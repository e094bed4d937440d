import SeamlessTunnel.CommandLine.Report
/-
  SeamlessTunnel.Bench.Folder — a working directory that holds a few files and nothing
  else.

  `Folder.look` follows a path as a system does: empty parts and single dots stay where
  they are, two dots lead outside, where only directories are known to be.
-/

namespace SeamlessTunnel.Bench

open CommandLine (Reading)

structure Folder where
  /-- Names and contents. -/
  files : List (String × String)

namespace Folder

/-- The longest name of a file, in bytes. -/
def maxName : Nat := 255

/-- What reading a path gives. -/
def look (f : Folder) (path : String) : Reading :=
  match f.files.lookup path with
  | some content => .ok content
  | none =>
    let parts := (Text.wordsAt (· = '/') path.toList).filter (· != ['.'])
    if path.startsWith "/" then
      if path = "/dev/null" then .ok ""
      else if parts.isEmpty then .error .directory
      else .error .missing
    else
      match parts with
      | [] => .error .directory
      | name :: rest =>
        let name := String.ofList name
        if maxName < name.utf8ByteSize then .error .longName
        else if name = ".." then
          if rest.all (· = ['.', '.']) then .error .directory else .error .missing
        else
          match f.files.lookup name with
          | none => .error .missing
          | some content =>
            if rest.isEmpty && !path.endsWith "/" && !path.endsWith "/." then .ok content
            else .error .notDirectory

end Folder

end SeamlessTunnel.Bench
