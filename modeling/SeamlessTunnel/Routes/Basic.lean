import SeamlessTunnel.Range.Blocks
import SeamlessTunnel.Range.Set
/-
  SeamlessTunnel.Routes.Basic — the routes of a tunnel: what is allowed less what is
  excluded.

  `compute` works on each family by itself: prefixes become merged ranges, the excluded
  ranges are taken away, and what is left is written in blocks. `Calculator` collects the
  two input lists one prefix at a time.
-/

namespace SeamlessTunnel

/-- The routes of both families, each in ascending order. -/
structure Routes where
  ipv4 : List Prefix := []
  ipv6 : List Prefix := []
  deriving DecidableEq, Repr

namespace Routes

def ofFamily (r : Routes) : Family → List Prefix
  | .ipv4 => r.ipv4
  | .ipv6 => r.ipv6

/-- All routes, IPv4 first. -/
def toList (r : Routes) : List Prefix :=
  r.ipv4 ++ r.ipv6

def size (r : Routes) : Nat :=
  r.ipv4.length + r.ipv6.length

def isEmpty (r : Routes) : Bool :=
  r.ipv4.isEmpty && r.ipv6.isEmpty

/-- The merged ranges of the prefixes of one family. -/
def rangesOf (f : Family) (ps : List Prefix) : List Range :=
  Range.merge ((ps.filter (·.family = f)).map .ofPrefix)

/-- The routes of one family. -/
def computeFamily (f : Family) (allowed excluded : List Prefix) : List Prefix :=
  (Range.subtractList (rangesOf f allowed) (rangesOf f excluded)).flatMap (·.toPrefixes)

def compute (allowed excluded : List Prefix) : Routes where
  ipv4 := computeFamily .ipv4 allowed excluded
  ipv6 := computeFamily .ipv6 allowed excluded

@[simp] theorem ofFamily_compute (f : Family) (allowed excluded : List Prefix) :
    (compute allowed excluded).ofFamily f = computeFamily f allowed excluded := by
  cases f <;> rfl

@[simp] theorem length_toList (r : Routes) : r.toList.length = r.size := by
  simp [toList, size]

/-- The two input lists of a computation, in the order they were given. -/
structure Calculator where
  allowed : List Prefix := []
  excluded : List Prefix := []

namespace Calculator

def allow (c : Calculator) (p : Prefix) : Calculator :=
  { c with allowed := c.allowed ++ [p] }

def exclude (c : Calculator) (p : Prefix) : Calculator :=
  { c with excluded := c.excluded ++ [p] }

def calculate (c : Calculator) : Routes :=
  compute c.allowed c.excluded

end Calculator

end Routes

end SeamlessTunnel
