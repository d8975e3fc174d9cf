/-!
# Positions in a source text

A declaration remembers where it was written: the line and column of its start and of its end, each
a 32-bit word. A position that nobody set is all zeros.
-/

namespace ReactiveSpace

/-- Where a declaration stands in its source text. -/
structure Position where
  line : UInt32 := 0
  column : UInt32 := 0
  endLine : UInt32 := 0
  endColumn : UInt32 := 0
deriving DecidableEq, Inhabited

namespace Position

/-- The position of a single point. -/
def point (line column : UInt32) : Position :=
  ⟨line, column, line, column⟩

/-- The start, as diagnostics print it. -/
def text (p : Position) : String :=
  s!"{p.line}:{p.column}"

end Position

end ReactiveSpace
