/-
  SeamlessTunnel.Json.Basic — JSON values as far as a reader of known fields tells them
  apart.

  An integer is a number without fraction and exponent that fits 64 bits; every other
  number is a `real`. A string that holds half of a surrogate pair has no text, and is
  allowed only where nobody looks at it.
-/

namespace SeamlessTunnel

inductive Json where
  | null
  | bool (b : Bool)
  | int (n : Int)
  | real
  | string (s : Option (List Char))
  | array (items : List Json)
  | object (fields : List (Option (List Char) × Json))

end SeamlessTunnel
