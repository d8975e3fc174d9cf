/-!
# Blank characters and trimming

A character is *blank* when it has the Unicode property `White_Space`. Snippets of target source
and formulas are trimmed by this property, so a no-break space at an edge goes away and a
zero-width space stays.
-/

namespace ReactiveSpace.Text

/-- The ranges of Unicode's `White_Space`, ends included, in increasing order. -/
def blankRanges : List (Nat × Nat) :=
  [(0x0009, 0x000D), (0x0020, 0x0020), (0x0085, 0x0085), (0x00A0, 0x00A0), (0x1680, 0x1680),
   (0x2000, 0x200A), (0x2028, 0x2029), (0x202F, 0x202F), (0x205F, 0x205F), (0x3000, 0x3000)]

/-- Whether `c` lies in one of the `ranges`, ends included. -/
def inRanges (ranges : List (Nat × Nat)) (c : Char) : Bool :=
  ranges.any fun r => r.1 ≤ c.toNat && c.toNat ≤ r.2

/-- Whether `c` is white space. -/
def isBlank (c : Char) : Bool :=
  inRanges blankRanges c

/-- Drops the longest run at the end of `cs` whose characters satisfy `p`. -/
def dropEnd (p : Char → Bool) (cs : List Char) : List Char :=
  (cs.reverse.dropWhile p).reverse

/-- The text without the characters satisfying `p` at either end. -/
def trimBy (p : Char → Bool) (text : String) : String :=
  String.ofList (dropEnd p (text.toList.dropWhile p))

/-- The text without blanks at either end. -/
def trim (text : String) : String :=
  trimBy isBlank text

/-- The text without blanks at its end. -/
def trimEnd (text : String) : String :=
  String.ofList (dropEnd isBlank text.toList)

/-- The pieces of `cs` between the occurrences of `sep`: one more piece than separators. -/
def splitAtChar (sep : Char) : List Char → List (List Char)
  | [] => [[]]
  | c :: cs =>
    if c = sep then [] :: splitAtChar sep cs
    else
      match splitAtChar sep cs with
      | [] => [[c]]
      | piece :: pieces => (c :: piece) :: pieces

/-- The lines of a text, without the line feeds that end them. -/
def lines (text : String) : List String :=
  (splitAtChar '\n' text.toList).map String.ofList

end ReactiveSpace.Text
