/-
  SeamlessTunnel.Text.Blank — white space, and what is cut at it.

  `isBlank` is the Unicode property White_Space (25 characters). `trim` drops blanks at
  both ends, `pieces` cuts a text at every separator and keeps empty pieces, `words`
  keeps the non-empty ones.
-/

namespace SeamlessTunnel.Text

/-- The Unicode property White_Space. -/
def isBlank (c : Char) : Bool :=
  let n := c.toNat
  (9 ≤ n && n ≤ 13) || n = 0x20 || n = 0x85 || n = 0xA0 || n = 0x1680 ||
    (0x2000 ≤ n && n ≤ 0x200A) || n = 0x2028 || n = 0x2029 || n = 0x202F || n = 0x205F ||
    n = 0x3000

/-- A text without the blanks at its end. -/
def trimEnd (cs : List Char) : List Char :=
  (cs.reverse.dropWhile isBlank).reverse

/-- A text without the blanks at its two ends. -/
def trim (cs : List Char) : List Char :=
  trimEnd (cs.dropWhile isBlank)

/-- Cuts a text at every separator. Two separators side by side enclose an empty piece,
    and there is always one piece more than separators. -/
def pieces (isSep : Char → Bool) : List Char → List (List Char)
  | [] => [[]]
  | c :: cs =>
    if isSep c then [] :: pieces isSep cs
    else
      match pieces isSep cs with
      | [] => [[c]]
      | p :: ps => (c :: p) :: ps

/-- The non-empty pieces between separators. -/
def wordsAt (isSep : Char → Bool) (cs : List Char) : List (List Char) :=
  (pieces isSep cs).filter (!·.isEmpty)

/-- The non-empty pieces between blanks. -/
def words (cs : List Char) : List (List Char) :=
  wordsAt isBlank cs

/-- Cuts at the first occurrence of `sep`; `none` when there is none. -/
def cutAt (sep : Char) (cs : List Char) : Option (List Char × List Char) :=
  match cs.dropWhile (· != sep) with
  | [] => none
  | _ :: rest => some (cs.takeWhile (· != sep), rest)

theorem pieces_ne_nil (isSep : Char → Bool) (cs : List Char) : pieces isSep cs ≠ [] := by
  cases cs with
  | nil => simp [pieces]
  | cons c cs =>
    simp only [pieces]
    split
    · simp
    · split <;> simp

end SeamlessTunnel.Text
