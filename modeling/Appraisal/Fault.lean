import Appraisal.Value

/-!
# Faults

Only structural defects and numbers that leave their range stop a request; a missing cell or a
formula beyond the grammar does not. This file lists the causes and words them:

* `Fault` — the causes;
* `Fault.message` — the wording of each.
-/

namespace Appraisal

/-- Why a request has no answer. -/
inductive Fault where
  /-- A column number below one has no letters. -/
  | columnBelowOne (index : Int)
  /-- A text that is no column numeral. -/
  | notColumnLetters (text : String)
  /-- A row number below one. -/
  | rowBelowOne (row : Int)
  /-- A text that is no plain cell reference. -/
  | notAReference (text : String)
  /-- A text that does not name two corners. -/
  | notARange (text : String)
  /-- No cell of the sheet has the reference. -/
  | noSuchCell (ref sheet : String)
  /-- No sheet has the name. -/
  | noSuchSheet (name : String)
  /-- The snapshot is of a type other than a mapping. -/
  | snapshotNotMapping (typeName : String)
  /-- A sheet without a mapping of cells. -/
  | sheetWithoutCells (name : String)
  /-- A cell whose value is of a type other than a scalar's. -/
  | cellValueNotScalar (sheet ref typeName : String)
  /-- A cell whose formula is no text. -/
  | cellFormulaNotText (sheet ref : String)
  /-- A cell that is neither a scalar nor a mapping. -/
  | cellUnsupported (sheet ref : String) (payload : Value)
  /-- A text that is no JSON document. -/
  | notJson
  /-- Formulas that read one another in a circle, as a closed path. -/
  | circular (cycle : List String)
  /-- A key without a mark between sheet and reference. -/
  | keyWithoutSheet
  /-- A registered function that has no value, and why. -/
  | functionFailed (reason : String)
  /-- An operator other than the four. -/
  | unknownOperator (op : Value)
  /-- A whole number beyond the floats. -/
  | wholeTooLarge
  /-- A quotient of whole numbers beyond the floats. -/
  | quotientTooLarge
  /-- An infinity where a whole number is needed. -/
  | infinityNotWhole
  /-- A power beyond the floats. -/
  | outOfRange
  /-- A float divided by zero. -/
  | divisionByZero
  /-- Zero to a negative power. -/
  | zeroToNegative
  /-- A text where a number is needed. -/
  | notANumeral (text : String)
  /-- A parameter path whose group is unknown. -/
  | unknownGroup (path : String)
  /-- A parameter path whose field is unknown. -/
  | unknownParameter (path : String)
  /-- A parameter value that its field cannot take. -/
  | invalidSetting (group field : String) (value : Value)
  /-- An output that a sweep cannot follow. -/
  | unknownOutput (name : String)
  /-- A scenario without figures in the workbook. -/
  | unknownScenario (name : String)
  /-- Figures that differ by more than their tolerance. -/
  | inconsistent (report : String)

/-- The wording of a fault. -/
def Fault.message : Fault → String
  | .columnBelowOne n => "Column index must be >= 1, got " ++ toString n
  | .notColumnLetters s => "Invalid column letters: " ++ Text.quoted s
  | .rowBelowOne n => "Row must be >= 1, got " ++ toString n
  | .notAReference s => "Invalid A1 reference: " ++ Text.quoted s
  | .notARange s => "Invalid range: " ++ Text.quoted s
  | .noSuchCell ref sheet => "Cell '" ++ ref ++ "' does not exist in sheet '" ++ sheet ++ "'"
  | .noSuchSheet name => "Sheet '" ++ name ++ "' does not exist"
  | .snapshotNotMapping t => "Snapshot must be a mapping, got " ++ t
  | .sheetWithoutCells name => "Sheet " ++ Text.quoted name ++ " has no 'cells' mapping"
  | .cellValueNotScalar sheet ref t =>
    sheet ++ "!" ++ ref ++ ": value must be a scalar, got " ++ t
  | .cellFormulaNotText sheet ref => sheet ++ "!" ++ ref ++ ": formula must be a string"
  | .cellUnsupported sheet ref v =>
    sheet ++ "!" ++ ref ++ ": unsupported cell payload " ++ v.shown
  | .notJson => "Snapshot is not valid JSON"
  | .circular cycle => "Circular reference detected: " ++ " -> ".intercalate cycle
  | .keyWithoutSheet => "not enough values to unpack (expected 2, got 1)"
  | .functionFailed reason => reason
  | .unknownOperator op => "Unknown operator " ++ op.shown
  | .wholeTooLarge => "int too large to convert to float"
  | .quotientTooLarge => "integer division result too large for a float"
  | .infinityNotWhole => "cannot convert float infinity to integer"
  | .outOfRange => "(34, 'Numerical result out of range')"
  | .divisionByZero => "float division by zero"
  | .zeroToNegative => "0.0 cannot be raised to a negative power"
  | .notANumeral s => "could not convert string to float: " ++ Text.quoted s
  | .unknownGroup path => "Unknown parameter group in " ++ Text.quoted path
  | .unknownParameter path => "Unknown parameter " ++ Text.quoted path
  | .invalidSetting group field v =>
    "Invalid value for " ++ group ++ "." ++ field ++ ": " ++ v.shown
  | .unknownOutput name =>
    "Unknown output " ++ Text.quoted name ++
      "; expected one of ['earth', 'mars', 'marsOption', 'total']"
  | .unknownScenario name =>
    "Unknown scenario " ++ Text.quoted name ++ "; expected one of ('base', 'optimistic')"
  | .inconsistent report => report

end Appraisal
