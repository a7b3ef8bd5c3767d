/-!
# Numbers

A number is either a whole number of any size or a binary64 float. The two are kept apart: a whole
number stays exact until an operation needs a float.
-/

namespace Appraisal

/-- A whole number or a float. -/
inductive Number where
  /-- A whole number of any size. -/
  | whole (n : Int)
  /-- A binary64 float, the two infinities and the undefined one included. -/
  | float (x : Float)
deriving DecidableEq

end Appraisal
