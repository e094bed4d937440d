import SeamlessTunnel.Address.Reader
import SeamlessTunnel.Text.Blank
/-
  SeamlessTunnel.Dns.Basic — nameservers and search domains.

  The platform gives two lines: nameservers, then search domains. What cannot be read is
  left out. A domain is kept with exactly one dot at its end (`qualified?`).
-/

namespace SeamlessTunnel

structure DnsSettings where
  nameservers : List Address := []
  /-- Search domains, each with a dot at its end. -/
  searchDomains : List String := []
  deriving DecidableEq, Repr

namespace Dns

/-- A text without one dot at its end. -/
def withoutDot (cs : List Char) : List Char :=
  if cs.getLast? = some '.' then cs.dropLast else cs

def isLabelChar (c : Char) : Bool :=
  c.isAlphanum || c = '-' || c = '_'

/-- One to 63 letters, digits, hyphens and underscores, without a hyphen at either end. -/
def isLabel (cs : List Char) : Bool :=
  !cs.isEmpty && cs.length ≤ 63 && cs.head? != some '-' && cs.getLast? != some '-' &&
    cs.all isLabelChar

/-- Labels between dots, 253 characters at most. -/
def isName (cs : List Char) : Bool :=
  !cs.isEmpty && cs.length ≤ 253 && (Text.pieces (· = '.') cs).all isLabel

/-- A name with exactly one dot at its end, from one with or without it. -/
def qualified? (cs : List Char) : Option (List Char) :=
  let bare := withoutDot cs
  if isName bare then some (bare ++ ['.']) else none

/-- Reads the two lines that the platform gives. -/
def ofPlatform (cs : List Char) : DnsSettings :=
  let lines := Text.pieces (· = '\n') cs
  { nameservers := (Text.words (lines.headD [])).filterMap Address.ofChars?
    searchDomains := ((Text.words (lines.tail.headD [])).filterMap qualified?).map String.ofList }

/-- The platform's settings. On a store build without nameservers the fallback takes their
    place. -/
def base (platform : String) (storeBuild : Bool) (fallback : List Address) : DnsSettings :=
  let settings := ofPlatform platform.toList
  if settings.nameservers.isEmpty && storeBuild then { settings with nameservers := fallback }
  else settings

end Dns

/-- Search domains without the dot at the end. -/
def DnsSettings.bareDomains (s : DnsSettings) : List String :=
  s.searchDomains.map fun d => String.ofList (Dns.withoutDot d.toList)

end SeamlessTunnel
