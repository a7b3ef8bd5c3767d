import Appraisal.Fault
import Appraisal.Number.Arithmetic
import Appraisal.Number.Decimal
import Appraisal.Parameters.Field
import Appraisal.Text.Cut

/-!
# Reading and writing parameters

Parameters are given as a mapping from groups to mappings from names to values. What is missing or
absent keeps its baseline value, and what is unknown is passed over.

* `Field.coerce` — a value as the setting of a field, or why it is none;
* `Parameters.ofValue` — the parameters that a mapping gives;
* `Parameters.toValue` — the mapping of parameters, by labels;
* `Parameters.replace` — one parameter changed, by its path `group.name`.
-/

namespace Appraisal

open Appraisal.Text

/-! ## 1. Values as settings -/

/-- The whole number of a float, its fraction dropped. The undefined number has none, and an
    infinity is a fault of its own. -/
def truncated (x : Float) : Except Fault (Option Int) :=
  match Number.expand x with
  | .undefined => .ok none
  | .infinite _ => .error .infinityNotWhole
  | .finite negative mantissa exponent =>
    let size : Nat := mantissa * Nat.pow 2 exponent.toNat / Nat.pow 2 (-exponent).toNat
    .ok (some (if negative then -(size : Int) else size))

/-- A value as a whole number, if it is one in some way: a flag is one or zero, a float loses its
    fraction, a text is read. -/
def wholeOf? : Value → Except Fault (Option Int)
  | .scalar (.flag b) => .ok (some (if b then 1 else 0))
  | .scalar (.number (.whole n)) => .ok (some n)
  | .scalar (.number (.float x)) => truncated x
  | .scalar (.text s) => .ok (Number.readWhole? s.toList)
  | _ => .ok none

/-- A value as a float, if it is one in some way: a flag is one or zero, a text is read. -/
def floatOf? : Value → Except Fault (Option Float)
  | .scalar (.flag b) => .ok (some (if b then 1.0 else 0.0))
  | .scalar (.number n) => n.toFloat.map some
  | .scalar (.text s) => .ok (Number.readFloat? s.toList)
  | _ => .ok none

/-- A value as the setting of a field. A flag takes any value, by whether it counts as true. -/
def Field.coerce (f : Field) (v : Value) : Except Fault (Setting Float) := do
  let setting ← match f.kind with
    | .flag => pure (some (.flag v.isTrue))
    | .year => (wholeOf? v).map (·.map .year)
    | .real => (floatOf? v).map (·.map .real)
  match setting with
  | some s => .ok s
  | none => .error (.invalidSetting f.group.name f.name v)

/-- A setting as a value. -/
def Setting.toValue : Setting Float → Value
  | .real x => .float x
  | .year n => .whole n
  | .flag b => .flag b

namespace Parameters

/-! ## 2. From a mapping and back -/

/-- The parameters with one entry of a group applied: an unknown name and an absent value change
    nothing. -/
def applyEntry (g : Group) (p : Parameters Float) (entry : String × Value) :
    Except Fault (Parameters Float) :=
  match g.field? entry.1, entry.2 with
  | none, _ => .ok p
  | some _, .scalar .blank => .ok p
  | some f, v => (f.coerce v).map fun s => f.set s p

/-- The entries that a mapping holds for a group. A group is meant to be a mapping or absent. A group
    of another kind, such as a text, a number or a list, is read as an empty one and not refused;
    that it may be refused as an argument of the wrong kind is not modelled. -/
def groupEntries (data : Value) (g : Group) : List (String × Value) :=
  match data with
  | .mapping groups =>
    match Listing.get? groups g.name with
    | some (.mapping entries) => entries
    | _ => []
  | _ => []

/-- The parameters with a group's entries applied one after the other. -/
def applyGroup (data : Value) (p : Parameters Float) (g : Group) :
    Except Fault (Parameters Float) :=
  (groupEntries data g).foldlM (applyEntry g) p

/-- The parameters that a mapping gives, over the baseline. -/
def ofValue (data : Value) : Except Fault (Parameters Float) :=
  Group.all.foldlM (applyGroup data) baseline

/-- The settings of a group under the names of one's choice. -/
def groupValue (p : Parameters Float) (name : Field → String) (g : Group) : Value :=
  .mapping (g.fields.map fun f => (name f, (f.get p).toValue))

/-- The mapping of the parameters under the names of one's choice. -/
def toValueBy (name : Field → String) (p : Parameters Float) : Value :=
  .mapping (Group.all.map fun g => (g.name, p.groupValue name g))

/-- The mapping of the parameters by labels. -/
def toValue (p : Parameters Float) : Value :=
  p.toValueBy Field.label

/-! ## 3. Changing one parameter -/

/-- The group and the name of a path: what stands before and after its first point. -/
def splitPath (path : String) : String × String :=
  match cutFirst '.' path.toList with
  | some (group, name) => (String.ofList group, String.ofList name)
  | none => (path, "")

/-- The field of a path. -/
def fieldAt (path : String) : Except Fault Field :=
  let (group, name) := splitPath path
  match Group.ofName? group with
  | none => .error (.unknownGroup path)
  | some g =>
    match g.field? name with
    | none => .error (.unknownParameter path)
    | some f => .ok f

/-- The parameters with the one at the path changed. -/
def replace (p : Parameters Float) (path : String) (v : Value) :
    Except Fault (Parameters Float) := do
  let f ← fieldAt path
  let s ← f.coerce v
  pure (f.set s p)

end Parameters

end Appraisal
