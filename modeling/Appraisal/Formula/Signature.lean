import Appraisal.Listing

/-!
# Signatures

How many arguments a function takes, and whether they may be ranges.
-/

namespace Appraisal.Formula

/-- How a function may be called. -/
structure Signature where
  /-- The least number of arguments. -/
  least : Int
  /-- The greatest number of arguments. -/
  most : Int
  /-- Whether an argument may be a range. -/
  acceptsRanges : Bool
deriving DecidableEq

/-- The functions that a formula may call, by their names in upper case. -/
abbrev Signatures := Listing Signature

/-- The greatest number of arguments of a function that takes any number. -/
def unbounded : Int := 255

end Appraisal.Formula
