/-!
# Ends of a text

The places at which the rest of a pattern may go on after a wildcard.
-/

namespace AccessAudit.Discovery

/-- All ends of a text, the text itself first. -/
def suffixes : List Char → List (List Char)
  | [] => [[]]
  | c :: s => (c :: s) :: suffixes s

/-- The ends of a text up to its first slash. -/
def suffixesInSegment : List Char → List (List Char)
  | [] => [[]]
  | c :: s => (c :: s) :: if c = '/' then [] else suffixesInSegment s

/-- What follows each slash of a text. -/
def afterSlashes : List Char → List (List Char)
  | [] => []
  | c :: s => if c = '/' then s :: afterSlashes s else afterSlashes s

/-- Whether a character is in one of some ranges. -/
def inRanges (ranges : List (Char × Char)) (c : Char) : Bool :=
  ranges.any fun (low, high) => low ≤ c && c ≤ high

end AccessAudit.Discovery
