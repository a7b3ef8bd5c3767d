import Appraisal.Formula.Mention
import Appraisal.Snapshot

/-!
# The graph of formula cells

A graph notes for each registered cell the text of its formula and the cells that the text
mentions, and for each mentioned cell its readers. Cells go by their keys `Sheet!A1`.

* `Graph.add` — registers a formula. Its text is noted before its mentions are looked for, so a
  text whose mentions cannot be spread out leaves its formula noted and its edges unchanged;
* `Graph.reads`, `Graph.readers` — the edges from both ends;
* `Graph.ofSnapshot` — the graph of all the formula cells of a snapshot.
-/

namespace Appraisal

/-- Formula cells and what they read. -/
structure Graph where
  /-- The formula of each registered cell. -/
  formulas : Listing String
  /-- The cells that each registered cell reads, each once. -/
  dependencies : Listing (List String)
  /-- The registered cells that read each mentioned cell, each once. -/
  dependents : Listing (List String)

namespace Graph

/-- The graph without a cell. -/
def empty : Graph :=
  ⟨[], [], []⟩

/-- The registered cells. -/
def cells (g : Graph) : List String :=
  g.formulas.names

/-- The cells that a cell reads. -/
def reads (g : Graph) (cell : String) : List String :=
  (g.dependencies.get? cell).getD []

/-- The cells that read a cell. -/
def readers (g : Graph) (cell : String) : List String :=
  (g.dependents.get? cell).getD []

/-- The readers with one more noted for a cell. -/
def noteReader (dependents : Listing (List String)) (cell reader : String) :
    Listing (List String) :=
  let readers := (dependents.get? cell).getD []
  dependents.put cell (if reader ∈ readers then readers else readers ++ [reader])

/-- The graph with the edges from a cell to the cells it reads. A reader once noted stays. -/
def link (g : Graph) (cell : String) (refs : List String) : Graph :=
  { g with
    dependencies := g.dependencies.put cell refs
    dependents := refs.foldl (fun dependents ref => noteReader dependents ref cell) g.dependents }

/-- The graph after the registration of a cell's formula, seen from its sheet, and whether its
    mentions could be spread out. -/
def add (g : Graph) (cell formula sheet : String) : Graph × Except Fault Unit :=
  let noted := { g with formulas := g.formulas.put cell formula }
  match Formula.allReferences formula sheet with
  | .ok refs => (noted.link cell refs, .ok ())
  | .error fault => (noted, .error fault)

/-- The graph after the registration of a cell of a snapshot. -/
def addCell (sheet : String) (g : Graph) (c : Cell) : Except Fault Graph :=
  let added := g.add (sheet ++ "!" ++ c.address) c.formulaText sheet
  added.2.map fun _ => added.1

/-- The graph of all the formula cells of a snapshot, sheet by sheet. -/
def ofSnapshot (s : Snapshot) : Except Fault Graph :=
  s.sheets.foldlM (fun g e => e.2.formulaCells.foldlM (addCell e.1) g) empty

end Graph

end Appraisal
