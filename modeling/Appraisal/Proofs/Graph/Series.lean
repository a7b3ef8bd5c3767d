import Appraisal.Proofs.Graph.Placing
import Appraisal.Proofs.Snapshot

/-!
# Series of registrations

What a series of registrations leaves is read off the series. A cell that is registered again reads
what its last formula mentions, but it stays noted as a reader of all that its earlier formulas
mention.

* `Registration.Mentions`, `standing` — what a formula mentions, and the registrations that count;
* `mem_reads_registerAll`, `mem_readers_registerAll` — the edges from both ends;
* `registerAll_mirror_iff` — **when the two ends agree**; `registerAll_stale` — where they do not;
* `topologicalOrder_registerAll` — **the order of cells that are registered once each**.
-/

namespace Appraisal.Graph

/-! ## 1. What a series notes -/

/-- The text of a registration mentions a cell. -/
def Registration.Mentions (r : Registration) (cell : String) : Prop :=
  ∃ refs, r.mentions = .ok refs ∧ cell ∈ refs

theorem Registration.mentions_iff {r : Registration} {refs : List String}
    (h : r.mentions = .ok refs) {cell : String} : r.Mentions cell ↔ cell ∈ refs := by
  refine ⟨fun ⟨refs', hrefs', hc⟩ => ?_, fun hc => ⟨refs, h, hc⟩⟩
  rw [h] at hrefs'
  cases hrefs'
  exact hc

theorem Registration.mentions_iff_getD {r : Registration} {cell : String} :
    r.Mentions cell ↔ cell ∈ r.mentions.toOption.getD [] := by
  cases h : r.mentions with
  | ok refs => exact Registration.mentions_iff h
  | error fault =>
    refine ⟨fun ⟨refs, hrefs, _⟩ => ?_, fun hc => absurd hc List.not_mem_nil⟩
    rw [h] at hrefs
    cases hrefs

/-- The registrations of a series that no later one of the same cell replaces. -/
def standing : List Registration → List Registration
  | [] => []
  | r :: rs => if r.cell ∈ rs.map (·.cell) then standing rs else r :: standing rs

theorem standing_subset (rs : List Registration) : ∀ r ∈ standing rs, r ∈ rs := by
  induction rs with
  | nil => exact fun r hr => hr
  | cons s rs ih =>
    intro r hr
    rw [standing] at hr
    by_cases hs : s.cell ∈ rs.map (·.cell)
    · rw [if_pos hs] at hr
      exact List.mem_cons_of_mem s (ih r hr)
    · rw [if_neg hs] at hr
      rcases List.mem_cons.mp hr with rfl | hr
      · exact List.mem_cons_self
      · exact List.mem_cons_of_mem s (ih r hr)

theorem standing_of_nodup {rs : List Registration} (h : (rs.map (·.cell)).Nodup) :
    standing rs = rs := by
  induction rs with
  | nil => rfl
  | cons r rs ih =>
    rw [List.map_cons, List.nodup_cons] at h
    rw [standing, if_neg h.1, ih h.2]

section Series

variable {g g' : Graph} {rs : List Registration} {x y : String}

/-- A series whose first registration does not fail goes on from what that one leaves. -/
theorem registerAll_ok_cons {r : Registration} (h : g.registerAll (r :: rs) = .ok g') :
    ∃ refs, r.mentions = .ok refs ∧
      (g.add r.cell r.formula r.sheet).1.registerAll rs = .ok g' := by
  obtain ⟨refs, hrefs⟩ := registerAll_ok_iff.mp ⟨g', h⟩ r List.mem_cons_self
  rw [registerAll_cons hrefs] at h
  exact ⟨refs, hrefs, h⟩

theorem exists_registerAll (rs : List Registration)
    (h : ∀ r ∈ rs, r.mentions.toOption.isSome = true) : ∃ g', g.registerAll rs = .ok g' :=
  registerAll_ok_iff.mpr fun r hr => exists_of_toOption (h r hr)

/-- **A cell reads what its last formula mentions.** -/
theorem mem_reads_registerAll (h : g.registerAll rs = .ok g') :
    y ∈ g'.reads x ↔ (∃ r ∈ standing rs, r.cell = x ∧ r.Mentions y) ∨
      (x ∉ rs.map (·.cell) ∧ y ∈ g.reads x) := by
  induction rs generalizing g with
  | nil =>
    cases h
    exact ⟨fun hy => Or.inr ⟨List.not_mem_nil, hy⟩, fun hy => hy.elim (nofun) fun hy => hy.2⟩
  | cons r rs ih =>
    obtain ⟨refs, hrefs, hrest⟩ := registerAll_ok_cons h
    rw [ih hrest, standing, List.map_cons, List.mem_cons, not_or]
    by_cases hx : x = r.cell
    · subst hx
      rw [reads_add_self hrefs, ← Registration.mentions_iff hrefs]
      by_cases hagain : r.cell ∈ rs.map (·.cell)
      · -- a later registration replaces this one
        rw [if_pos hagain]
        exact or_congr_right ⟨fun hy => absurd hagain hy.1, fun hy => absurd rfl hy.1.1⟩
      · rw [if_neg hagain]
        constructor
        · rintro (⟨s, hs, hcell, hy⟩ | ⟨-, hy⟩)
          · exact Or.inl ⟨s, List.mem_cons_of_mem r hs, hcell, hy⟩
          · exact Or.inl ⟨r, List.mem_cons_self, rfl, hy⟩
        · rintro (⟨s, hs, hcell, hy⟩ | ⟨hne, -⟩)
          · rcases List.mem_cons.mp hs with rfl | hs
            · exact Or.inr ⟨hagain, hy⟩
            · exact Or.inl ⟨s, hs, hcell, hy⟩
          · exact absurd rfl hne.1
    · have hstanding : (∃ s ∈ standing rs, s.cell = x ∧ s.Mentions y) ↔
          ∃ s ∈ (if r.cell ∈ rs.map (·.cell) then standing rs else r :: standing rs),
            s.cell = x ∧ s.Mentions y := by
        by_cases hagain : r.cell ∈ rs.map (·.cell)
        · rw [if_pos hagain]
        · rw [if_neg hagain, List.exists_mem_cons_iff]
          exact ⟨Or.inr, fun hy => hy.resolve_left fun hy => hx hy.1.symm⟩
      rw [reads_add_of_ne hrefs hx, hstanding, and_assoc]
      exact or_congr_right ⟨fun hy => ⟨hx, hy⟩, fun hy => hy.2⟩

/-- **A cell is noted as a reader of all that any of its formulas mentions.** -/
theorem mem_readers_registerAll (h : g.registerAll rs = .ok g') :
    x ∈ g'.readers y ↔ (∃ r ∈ rs, r.cell = x ∧ r.Mentions y) ∨ x ∈ g.readers y := by
  induction rs generalizing g with
  | nil =>
    cases h
    exact ⟨Or.inr, fun hx => hx.elim (nofun) id⟩
  | cons r rs ih =>
    obtain ⟨refs, hrefs, hrest⟩ := registerAll_ok_cons h
    have hfirst : (y ∈ refs ∧ x = r.cell) ↔ (r.cell = x ∧ r.Mentions y) := by
      rw [Registration.mentions_iff hrefs, and_comm, eq_comm]
    rw [ih hrest, mem_readers_add hrefs, hfirst, List.exists_mem_cons_iff]
    constructor
    · rintro (hx | hx | hx)
      · exact Or.inl (Or.inr hx)
      · exact Or.inr hx
      · exact Or.inl (Or.inl hx)
    · rintro ((hx | hx) | hx)
      · exact Or.inr (Or.inr hx)
      · exact Or.inl hx
      · exact Or.inr (Or.inl hx)

theorem mem_reads_of_empty (h : empty.registerAll rs = .ok g) :
    y ∈ g.reads x ↔ ∃ r ∈ standing rs, r.cell = x ∧ r.Mentions y := by
  rw [mem_reads_registerAll h]
  exact ⟨fun hy => hy.elim id fun hy => absurd hy.2 List.not_mem_nil, Or.inl⟩

theorem mem_readers_of_empty (h : empty.registerAll rs = .ok g) :
    x ∈ g.readers y ↔ ∃ r ∈ rs, r.cell = x ∧ r.Mentions y := by
  rw [mem_readers_registerAll h]
  exact ⟨fun hx => hx.elim id fun hx => absurd hx List.not_mem_nil, Or.inl⟩

/-! ## 2. Both ends of an edge -/

/-- **What a cell reads always has it as a reader; the converse holds exactly if the last formula
    of each cell mentions all that the earlier ones mention.** -/
theorem registerAll_mirror_iff (h : empty.registerAll rs = .ok g) :
    (∀ x y, y ∈ g.reads x → x ∈ g.readers y) ∧
      ((∀ x y, x ∈ g.readers y ↔ y ∈ g.reads x) ↔
        ∀ r ∈ rs, ∀ y, r.Mentions y → ∃ s ∈ standing rs, s.cell = r.cell ∧ s.Mentions y) := by
  have hforth : ∀ x y, y ∈ g.reads x → x ∈ g.readers y := by
    intro x y hy
    obtain ⟨r, hr, hcell, hmention⟩ := (mem_reads_of_empty h).mp hy
    exact (mem_readers_of_empty h).mpr ⟨r, standing_subset rs r hr, hcell, hmention⟩
  refine ⟨hforth, fun hmirror r hr y hy => ?_, fun hlast x y => ⟨fun hx => ?_, hforth x y⟩⟩
  · have hreader : r.cell ∈ g.readers y := (mem_readers_of_empty h).mpr ⟨r, hr, rfl, hy⟩
    exact (mem_reads_of_empty h).mp ((hmirror r.cell y).mp hreader)
  · obtain ⟨r, hr, rfl, hy⟩ := (mem_readers_of_empty h).mp hx
    exact (mem_reads_of_empty h).mpr (hlast r hr y hy)

end Series

/-- A cell whose second formula mentions more than its first, and another cell. -/
def growing : List Registration :=
  [⟨"S!A1", "=B1", "S"⟩, ⟨"S!C1", "=A1", "S"⟩, ⟨"S!A1", "=B1+D1", "S"⟩]

theorem registerAll_mirror_growing : ∃ g, empty.registerAll growing = .ok g ∧
    ∀ x y, x ∈ g.readers y ↔ y ∈ g.reads x := by
  have hkept : ∀ r ∈ growing, ∀ y ∈ r.mentions.toOption.getD [], ∃ s ∈ standing growing,
      s.cell = r.cell ∧ y ∈ s.mentions.toOption.getD [] := by decide +kernel
  obtain ⟨g, hg⟩ := exists_registerAll growing (by decide +kernel)
  refine ⟨g, hg, (registerAll_mirror_iff hg).2.mpr fun r hr y hy => ?_⟩
  obtain ⟨s, hs, hcell, hmention⟩ := hkept r hr y (Registration.mentions_iff_getD.mp hy)
  exact ⟨s, hs, hcell, Registration.mentions_iff_getD.mpr hmention⟩

/-- A cell whose second formula mentions another cell than its first, which has another reader. -/
def shifted : List Registration :=
  [⟨"S!A1", "=B1", "S"⟩, ⟨"S!D1", "=B1", "S"⟩, ⟨"S!A1", "=C1", "S"⟩]

/-- **The first edge stays noted from its far end.** -/
theorem registerAll_stale : ∃ g, empty.registerAll shifted = .ok g ∧
    "S!A1" ∈ g.readers "S!B1" ∧ "S!B1" ∉ g.reads "S!A1" := by
  have hfirst : ∃ r ∈ shifted, r.cell = "S!A1" ∧ "S!B1" ∈ r.mentions.toOption.getD [] := by
    decide +kernel
  have hlast : ¬ ∃ r ∈ standing shifted, r.cell = "S!A1" ∧
      "S!B1" ∈ r.mentions.toOption.getD [] := by decide +kernel
  obtain ⟨g, hg⟩ := exists_registerAll shifted (by decide +kernel)
  refine ⟨g, hg, (mem_readers_of_empty hg).mpr ?_, fun hread => hlast ?_⟩
  · obtain ⟨r, hr, hcell, hmention⟩ := hfirst
    exact ⟨r, hr, hcell, Registration.mentions_iff_getD.mpr hmention⟩
  · obtain ⟨r, hr, hcell, hmention⟩ := (mem_reads_of_empty hg).mp hread
    exact ⟨r, hr, hcell, Registration.mentions_iff_getD.mp hmention⟩

/-! ## 3. The order of a series -/

/-- A registered cell waits for a registered cell that its formula mentions. -/
def SeriesWaits (rs : List Registration) (x y : String) : Prop :=
  (∃ r ∈ rs, r.cell = x ∧ r.Mentions y) ∧ y ∈ rs.map (·.cell)

/-- **The order of a series in which each cell is registered once**: there is one exactly if no
    cell waits for itself in the end, else a circle is reported; it names each cell once, and after
    the cells that it waits for. -/
theorem topologicalOrder_registerAll {rs : List Registration} {g : Graph}
    (hn : (rs.map (·.cell)).Nodup) (h : empty.registerAll rs = .ok g) :
    ((∃ order, g.topologicalOrder = .ok order) ↔ ∀ x, ¬ Relation.TransGen (SeriesWaits rs) x x) ∧
      ((∃ cycle, g.topologicalOrder = .error (.circular cycle)) ↔
        ∃ x, Relation.TransGen (SeriesWaits rs) x x) ∧
      ∀ order, g.topologicalOrder = .ok order → order.Perm (rs.map (·.cell)) ∧
        ∀ before x after, order = before ++ x :: after → ∀ y, SeriesWaits rs x y → y ∈ before := by
  obtain ⟨hclean, hcells, -, -⟩ := registerAll_clean empty_clean hn h
  have hcells : g.cells = rs.map (·.cell) := hcells
  have hreads : ∀ x y, y ∈ g.reads x ↔ ∃ r ∈ rs, r.cell = x ∧ r.Mentions y := by
    intro x y
    rw [mem_reads_of_empty h, standing_of_nodup hn]
  have hwaits : g.Waits = SeriesWaits rs := by
    funext x y
    refine propext (Iff.intro ?_ ?_)
    · rintro ⟨hy, -, hin⟩
      exact ⟨(hreads x y).mp hy, hcells ▸ hin⟩
    · rintro ⟨hy, hin⟩
      have hcell : x ∈ g.cells := by
        obtain ⟨r, hr, rfl, -⟩ := hy
        exact hcells ▸ List.mem_map_of_mem hr
      exact ⟨(hreads x y).mpr hy, hcell, hcells ▸ hin⟩
  have hexists := topologicalOrder_exists_iff hclean
  rw [hwaits] at hexists
  refine ⟨hexists, ?_, fun order ho => ?_⟩
  · rcases g.topologicalOrder_cases with ⟨order, ho⟩ | ⟨cycle, ho⟩
    · have hno := hexists.mp ⟨order, ho⟩
      rw [ho]
      constructor
      · rintro ⟨_, hcycle⟩
        cases hcycle
      · rintro ⟨x, hx⟩
        exact absurd hx (hno x)
    · refine ⟨fun _ => ?_, fun _ => ⟨cycle, ho⟩⟩
      by_contra hno
      obtain ⟨order, ho'⟩ := hexists.mpr (not_exists.mp hno)
      rw [ho] at ho'
      cases ho'
  · obtain ⟨hperm, hordered⟩ := topologicalOrder_spec hclean ho
    rw [hcells] at hperm
    refine ⟨hperm, fun before x after hsplit y hw => ?_⟩
    exact hordered before x after hsplit y ((hreads x y).mpr hw.1) (hcells ▸ hw.2)

/-- Three cells, of which the first reads the others, and a cell without a formula. -/
def diamond : List Registration :=
  [⟨"S!A1", "=B1+C1", "S"⟩, ⟨"S!B1", "=SUM(C1:D1)", "S"⟩, ⟨"S!C1", "=D1*2", "S"⟩]

theorem topologicalOrder_diamond : (diamond.map (·.cell)).Nodup ∧
    ∃ g order, empty.registerAll diamond = .ok g ∧ g.topologicalOrder = .ok order ∧
      order.Perm ["S!A1", "S!B1", "S!C1"] := by
  have hn : (diamond.map (·.cell)).Nodup := by decide +kernel
  have hdown : ∀ r ∈ diamond, ∀ y ∈ r.mentions.toOption.getD [], y ∈ diamond.map (·.cell) →
      (diamond.map (·.cell)).idxOf r.cell < (diamond.map (·.cell)).idxOf y := by decide +kernel
  obtain ⟨g, hg⟩ := exists_registerAll diamond (by decide +kernel)
  obtain ⟨hexists, -, horder⟩ := topologicalOrder_registerAll hn hg
  obtain ⟨order, ho⟩ := hexists.mpr <| not_circle_of_rank
    (fun x => 3 - (diamond.map (·.cell)).idxOf x) <| by
      rintro x y ⟨⟨r, hr, rfl, hmention⟩, hin⟩
      have hlt := hdown r hr y (Registration.mentions_iff_getD.mp hmention) hin
      have hbound : (diamond.map (·.cell)).idxOf y < 3 := List.idxOf_lt_length_of_mem hin
      show 3 - _ < 3 - _
      omega
  exact ⟨hn, g, order, hg, ho, (horder order ho).1⟩

end Appraisal.Graph
