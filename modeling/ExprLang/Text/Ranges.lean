/-! Sets of characters, given as ranges of code points. A set of many ranges is kept in four parts, so that looking
    up a character reads only the part it can lie in. -/

namespace ExprLang.Text

/-- A set of code points: pairs of a first and a last member. -/
abbrev Ranges := List (Nat × Nat)

/-- The code point lies in one of the ranges. -/
def Ranges.has (ranges : Ranges) (n : Nat) : Bool :=
  ranges.any fun (first, last) => first ≤ n && n ≤ last

/-- A set of code points, cut at U+1000, U+2000 and U+10000. -/
structure CodePoints where
  early : Ranges
  middle : Ranges
  late : Ranges
  supplementary : Ranges

/-- The code point lies in the part of the set that is in charge of it. -/
def CodePoints.has (set : CodePoints) (n : Nat) : Bool :=
  if n < 0x1000 then set.early.has n
  else if n < 0x2000 then set.middle.has n
  else if n < 0x10000 then set.late.has n
  else set.supplementary.has n

end ExprLang.Text
