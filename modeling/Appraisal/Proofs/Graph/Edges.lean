import Appraisal.Graph.Basic
import Mathlib.Data.List.Nodup

/-!
# Both ends of an edge

A graph notes each edge twice, with the cell that reads and with the cell that is read. As long as
each cell is registered once and no registration fails, the two notes agree.

* `Graph.Clean` — registered cells and edges noted once each, and the same edges from both ends;
* `Clean.add` — what the registration of one more cell preserves;
* `Registration`, `Graph.registerAll` — a series of registrations; `registerAll_clean`,
  `registerAll_ok_iff` — **the graph that it leaves, and when it leaves one**;
* `ofSnapshot_eq` — the graph of a snapshot as such a series.
-/

namespace Appraisal

/-! ## 1. One more reader -/

namespace Graph

variable {g : Graph} {cell reader : String}

/-- The readers that the notes have for a cell. -/
def readersIn (dependents : Listing (List String)) (cell : String) : List String :=
  (dependents.get? cell).getD []

theorem readersIn_noteReader_self (dependents : Listing (List String)) (cell reader : String) :
    readersIn (noteReader dependents cell reader) cell =
      if reader ∈ readersIn dependents cell then readersIn dependents cell
      else readersIn dependents cell ++ [reader] := by
  show ((Listing.put dependents cell _).get? cell).getD [] = _
  rw [Listing.get?_put_self]
  rfl

theorem readersIn_noteReader_of_ne (dependents : Listing (List String)) {cell other : String}
    (reader : String) (h : other ≠ cell) :
    readersIn (noteReader dependents cell reader) other = readersIn dependents other := by
  show ((Listing.put dependents cell _).get? other).getD [] = _
  rw [Listing.get?_put_of_ne _ h]
  rfl

theorem mem_noteReader {dependents : Listing (List String)} {x y : String} :
    x ∈ readersIn (noteReader dependents cell reader) y ↔
      x ∈ readersIn dependents y ∨ (y = cell ∧ x = reader) := by
  by_cases hy : y = cell
  · subst hy
    rw [readersIn_noteReader_self]
    by_cases hr : reader ∈ readersIn dependents y
    · rw [if_pos hr]
      exact ⟨Or.inl, fun h => h.elim id fun h => h.2 ▸ hr⟩
    · rw [if_neg hr, List.mem_append, List.mem_singleton]
      exact or_congr_right ⟨fun h => ⟨rfl, h⟩, fun h => h.2⟩
  · rw [readersIn_noteReader_of_ne dependents reader hy]
    exact ⟨Or.inl, fun h => h.elim id fun h => absurd h.1 hy⟩

theorem nodup_noteReader {dependents : Listing (List String)} {y : String}
    (h : (readersIn dependents y).Nodup) :
    (readersIn (noteReader dependents cell reader) y).Nodup := by
  by_cases hy : y = cell
  · subst hy
    rw [readersIn_noteReader_self]
    by_cases hr : reader ∈ readersIn dependents y
    · rw [if_pos hr]
      exact h
    · rw [if_neg hr, List.nodup_append]
      refine ⟨h, List.nodup_singleton reader, fun a ha b hb he => ?_⟩
      rw [List.mem_singleton.mp hb] at he
      exact hr (he ▸ ha)
  · rw [readersIn_noteReader_of_ne dependents reader hy]
    exact h

/-- A reader noted for several cells is a reader of each of them. -/
theorem mem_noteReaders {dependents : Listing (List String)} {refs : List String} {x y : String} :
    x ∈ readersIn (refs.foldl (fun ds ref => noteReader ds ref reader) dependents) y ↔
      x ∈ readersIn dependents y ∨ (y ∈ refs ∧ x = reader) := by
  induction refs generalizing dependents with
  | nil => exact ⟨Or.inl, fun h => h.elim id fun h => absurd h.1 List.not_mem_nil⟩
  | cons ref refs ih =>
    rw [List.foldl_cons, ih, mem_noteReader, or_assoc, ← or_and_right, List.mem_cons]

theorem nodup_noteReaders {dependents : Listing (List String)} {refs : List String} {y : String}
    (h : (readersIn dependents y).Nodup) :
    (readersIn (refs.foldl (fun ds ref => noteReader ds ref reader) dependents) y).Nodup := by
  induction refs generalizing dependents with
  | nil => exact h
  | cons ref refs ih => exact ih (nodup_noteReader h)

/-! ## 2. Clean graphs -/

/-- A graph that notes each registered cell once and each edge once from either end. -/
structure Clean (g : Graph) : Prop where
  cells : g.cells.Nodup
  registered : ∀ x y, y ∈ g.reads x → x ∈ g.cells
  reads : ∀ x, (g.reads x).Nodup
  readers : ∀ x, (g.readers x).Nodup
  mirror : ∀ x y, x ∈ g.readers y ↔ y ∈ g.reads x

theorem empty_clean : empty.Clean where
  cells := List.nodup_nil
  registered _ _ h := by cases h
  reads _ := List.nodup_nil
  readers _ := List.nodup_nil
  mirror x y := by
    constructor
    all_goals intro h
    all_goals cases h

theorem Clean.reads_eq_nil (h : g.Clean) (hc : cell ∉ g.cells) : g.reads cell = [] :=
  List.eq_nil_iff_forall_not_mem.mpr fun y hy => hc (h.registered cell y hy)

theorem nodup_eraseDups (texts : List String) : texts.eraseDups.Nodup := by
  induction hn : texts.length using Nat.strongRecOn generalizing texts with
  | ind n ih =>
    cases texts with
    | nil => exact List.nodup_nil
    | cons text texts =>
      rw [List.eraseDups_cons, List.nodup_cons]
      constructor
      · intro h
        have hne := (List.mem_filter.mp (List.mem_eraseDups.mp h)).2
        rw [beq_self_eq_true] at hne
        cases hne
      · refine ih _ ?_ _ rfl
        rw [← hn]
        exact Nat.lt_succ_of_le (List.length_filter_le _ texts)

/-- The mentions of a formula come each once. -/
theorem nodup_allReferences {formula sheet : String} {refs : List String}
    (h : Formula.allReferences formula sheet = .ok refs) : refs.Nodup := by
  unfold Formula.allReferences at h
  cases hs : (Formula.mentionedRanges formula sheet).mapM expandRange with
  | error fault =>
    rw [hs] at h
    cases h
  | ok spread =>
    rw [hs] at h
    cases h
    exact nodup_eraseDups _

section Add

variable {formula sheet : String} {refs : List String}

theorem add_ok (h : Formula.allReferences formula sheet = .ok refs) :
    g.add cell formula sheet =
      (({ g with formulas := g.formulas.put cell formula } : Graph).link cell refs, .ok ()) := by
  rw [add, h]

theorem add_error {fault : Fault} (h : Formula.allReferences formula sheet = .error fault) :
    g.add cell formula sheet =
      ({ g with formulas := g.formulas.put cell formula }, .error fault) := by
  rw [add, h]

theorem cells_add (g : Graph) (hc : cell ∉ g.cells) :
    (g.add cell formula sheet).1.cells = g.cells ++ [cell] := by
  have hput : (g.formulas.put cell formula).names = g.cells ++ [cell] :=
    Listing.names_put_of_not_mem formula hc
  unfold add
  cases Formula.allReferences formula sheet with
  | ok refs => exact hput
  | error fault => exact hput

theorem reads_add_self (h : Formula.allReferences formula sheet = .ok refs) :
    (g.add cell formula sheet).1.reads cell = refs := by
  rw [add_ok h]
  show ((g.dependencies.put cell refs).get? cell).getD [] = refs
  rw [Listing.get?_put_self]
  rfl

theorem reads_add_of_ne (h : Formula.allReferences formula sheet = .ok refs) {x : String}
    (hx : x ≠ cell) : (g.add cell formula sheet).1.reads x = g.reads x := by
  rw [add_ok h]
  show ((g.dependencies.put cell refs).get? x).getD [] = _
  rw [Listing.get?_put_of_ne refs hx]
  rfl

theorem mem_readers_add (h : Formula.allReferences formula sheet = .ok refs) {x y : String} :
    x ∈ (g.add cell formula sheet).1.readers y ↔ x ∈ g.readers y ∨ (y ∈ refs ∧ x = cell) := by
  rw [add_ok h]
  exact mem_noteReaders

/-- **Registering one more cell keeps a graph clean.** -/
theorem Clean.add (hg : g.Clean) (hc : cell ∉ g.cells)
    (h : Formula.allReferences formula sheet = .ok refs) :
    (g.add cell formula sheet).1.Clean where
  cells := by
    rw [cells_add g hc, List.nodup_append]
    refine ⟨hg.cells, List.nodup_singleton cell, fun a ha b hb he => ?_⟩
    rw [List.mem_singleton.mp hb] at he
    exact hc (he ▸ ha)
  registered x y hy := by
    rw [cells_add g hc, List.mem_append, List.mem_singleton]
    by_cases hx : x = cell
    · exact Or.inr hx
    · rw [reads_add_of_ne h hx] at hy
      exact Or.inl (hg.registered x y hy)
  reads x := by
    by_cases hx : x = cell
    · subst hx
      rw [reads_add_self h]
      exact nodup_allReferences h
    · rw [reads_add_of_ne h hx]
      exact hg.reads x
  readers y := by
    rw [add_ok h]
    exact nodup_noteReaders (hg.readers y)
  mirror x y := by
    rw [mem_readers_add h]
    by_cases hx : x = cell
    · -- the new cell has read nothing before
      subst hx
      rw [reads_add_self h, hg.mirror, hg.reads_eq_nil hc]
      exact ⟨fun h => h.elim (fun h => absurd h List.not_mem_nil) fun h => h.1,
        fun h => Or.inr ⟨h, rfl⟩⟩
    · rw [reads_add_of_ne h hx, hg.mirror]
      exact ⟨fun h => h.elim id fun h => absurd h.2 hx, Or.inl⟩

end Add

/-! ## 3. A series of registrations -/

/-- What is registered for a cell. -/
structure Registration where
  /-- The key of the cell. -/
  cell : String
  /-- The text of its formula. -/
  formula : String
  /-- The sheet that the formula is seen from. -/
  sheet : String

/-- The cells that a registration mentions. -/
def Registration.mentions (r : Registration) : Except Fault (List String) :=
  Formula.allReferences r.formula r.sheet

/-- The graph after a registration, unless it fails. -/
def register (g : Graph) (r : Registration) : Except Fault Graph :=
  (g.add r.cell r.formula r.sheet).2.map fun _ => (g.add r.cell r.formula r.sheet).1

/-- The graph after a series of registrations, unless one fails. -/
def registerAll (g : Graph) (rs : List Registration) : Except Fault Graph :=
  rs.foldlM register g

theorem register_ok {r : Registration} {refs : List String} (h : r.mentions = .ok refs) :
    g.register r = .ok (g.add r.cell r.formula r.sheet).1 := by
  unfold register
  rw [add_ok h]
  rfl

theorem register_error {r : Registration} {fault : Fault} (h : r.mentions = .error fault) :
    g.register r = .error fault := by
  have hrefs : Formula.allReferences r.formula r.sheet = .error fault := h
  unfold register add
  rw [hrefs]
  rfl

theorem registerAll_cons {r : Registration} {rs : List Registration} {refs : List String}
    (h : r.mentions = .ok refs) :
    g.registerAll (r :: rs) = (g.add r.cell r.formula r.sheet).1.registerAll rs := by
  unfold registerAll
  rw [List.foldlM_cons, register_ok h]
  rfl

/-- A series leaves a graph iff the mentions of each registration can be spread out. -/
theorem registerAll_ok_iff {rs : List Registration} :
    (∃ g', g.registerAll rs = .ok g') ↔ ∀ r ∈ rs, ∃ refs, r.mentions = .ok refs := by
  induction rs generalizing g with
  | nil => exact ⟨fun _ => nofun, fun _ => ⟨g, rfl⟩⟩
  | cons r rs ih =>
    cases hr : r.mentions with
    | ok refs =>
      rw [registerAll_cons hr, ih, List.forall_mem_cons]
      exact ⟨fun h => ⟨⟨refs, hr⟩, h⟩, fun h => h.2⟩
    | error fault =>
      rw [List.forall_mem_cons, hr]
      refine ⟨fun ⟨g', hg'⟩ => ?_, fun h => ?_⟩
      · unfold registerAll at hg'
        rw [List.foldlM_cons, register_error hr] at hg'
        cases hg'
      · obtain ⟨⟨refs, h⟩, -⟩ := h
        cases h

/-- A series whose mentions cannot all be spread out fails as one of them does. -/
theorem registerAll_error {rs : List Registration}
    (h : ¬ ∀ r ∈ rs, ∃ refs, r.mentions = .ok refs) :
    ∃ r ∈ rs, ∃ fault, r.mentions = .error fault ∧ g.registerAll rs = .error fault := by
  induction rs generalizing g with
  | nil => exact absurd nofun h
  | cons r rs ih =>
    cases hr : r.mentions with
    | error fault =>
      refine ⟨r, List.mem_cons_self, fault, hr, ?_⟩
      unfold registerAll
      rw [List.foldlM_cons, register_error hr]
      rfl
    | ok refs =>
      have hrs : ¬ ∀ s ∈ rs, ∃ refs, s.mentions = .ok refs := fun hrs =>
        h (List.forall_mem_cons.mpr ⟨⟨refs, hr⟩, hrs⟩)
      obtain ⟨s, hs, fault, hfault, hrest⟩ := ih (g := (g.add r.cell r.formula r.sheet).1) hrs
      refine ⟨s, List.mem_cons_of_mem r hs, fault, hfault, ?_⟩
      rw [registerAll_cons hr]
      exact hrest

/-- **The graph that a series leaves**: clean, with the registered cells in order, each with its
    mentions, and with what was registered before. -/
theorem registerAll_clean {rs : List Registration} {g' : Graph} (hg : g.Clean)
    (hn : (g.cells ++ rs.map (·.cell)).Nodup) (h : g.registerAll rs = .ok g') :
    g'.Clean ∧ g'.cells = g.cells ++ rs.map (·.cell) ∧
      (∀ r ∈ rs, r.mentions = .ok (g'.reads r.cell)) ∧
      ∀ x ∈ g.cells, g'.reads x = g.reads x := by
  induction rs generalizing g with
  | nil =>
    cases h
    exact ⟨hg, (List.append_nil _).symm, nofun, fun _ _ => rfl⟩
  | cons r rs ih =>
    obtain ⟨refs, hr⟩ := registerAll_ok_iff.mp ⟨g', h⟩ r List.mem_cons_self
    rw [registerAll_cons hr] at h
    have hsplit : g.cells ++ (r :: rs).map (·.cell) =
        (g.cells ++ [r.cell]) ++ rs.map (·.cell) := by
      rw [List.map_cons, List.append_assoc]
      rfl
    rw [hsplit] at hn ⊢
    have hnew : r.cell ∉ g.cells := fun hm =>
      (List.nodup_append.mp hn.of_append_left).2.2 _ hm _ List.mem_cons_self rfl
    rw [← cells_add g hnew] at hn ⊢
    obtain ⟨hclean, hcells, hreads, hkept⟩ := ih (hg.add hnew hr) hn h
    refine ⟨hclean, hcells, fun s hs => ?_, fun x hx => ?_⟩
    · rcases List.mem_cons.mp hs with rfl | hs
      · rw [hkept s.cell, reads_add_self hr, hr]
        rw [cells_add g hnew]
        exact List.mem_append_right _ List.mem_cons_self
      · exact hreads s hs
    · have hne : x ≠ r.cell := fun he => hnew (he ▸ hx)
      rw [hkept x, reads_add_of_ne hr hne]
      rw [cells_add g hnew]
      exact List.mem_append_left _ hx

/-! ## 4. The graph of a snapshot -/

/-- The formula cells of a snapshot with the names of their sheets, in order. -/
def formulaCells (s : Snapshot) : List (String × Cell) :=
  s.sheets.flatMap fun e => e.2.formulaCells.map fun c => (e.1, c)

/-- The key of a cell on a sheet. -/
def keyOf (p : String × Cell) : String :=
  p.1 ++ "!" ++ p.2.address

/-- What a snapshot registers for a formula cell. -/
def registrationOf (p : String × Cell) : Registration :=
  ⟨keyOf p, p.2.formulaText, p.1⟩

theorem mem_formulaCells {s : Snapshot} {p : String × Cell} (h : p ∈ formulaCells s) :
    ∃ sh, (p.1, sh) ∈ s.sheets ∧ ∃ ref, (ref, p.2) ∈ sh.cells := by
  obtain ⟨⟨name, sh⟩, hsheet, hp⟩ := List.mem_flatMap.mp h
  obtain ⟨c, hc, rfl⟩ := List.mem_map.mp hp
  obtain ⟨⟨ref, c'⟩, hcell, rfl⟩ := List.mem_map.mp (List.mem_filter.mp hc).1
  exact ⟨sh, hsheet, ref, hcell⟩

theorem ofSnapshot_eq (s : Snapshot) :
    ofSnapshot s = empty.registerAll ((formulaCells s).map registrationOf) := by
  unfold ofSnapshot registerAll formulaCells
  generalize empty = g
  generalize s.sheets = sheets
  induction sheets generalizing g with
  | nil => rfl
  | cons e sheets ih =>
    rw [List.foldlM_cons, List.flatMap_cons, List.map_append, List.foldlM_append, List.map_map,
      List.foldlM_map]
    exact congrArg _ (funext ih)

end Graph

end Appraisal
