import Appraisal.Function.Library
import Appraisal.Proofs.Formula.Mentions
import Appraisal.Proofs.Graph.Edges

/-!
# The graph misses no read

A formula is read twice: the parser makes its tree, whose references are what the evaluator asks
for, and a scan of its text finds the mentions that become the edges of the graph. On tidy formulas
every reference is among the mentions.

* `Tidy` — the formulas whose phrases are tidy;
* `mem_keys_one`, `expandRange_range?` — a phrase's keys are those of what it mentions;
* `shows_phrases` — the scans find what the phrases of a tidy formula mention;
* `allReferences_complete` — **the mentions of a tidy formula hold all its references**, so the
  graph has an edge for each;
* `allReferences_lacks` — they need not where a formula is not tidy.
-/

namespace Appraisal.Formula

open Appraisal.Text

/-! ## 1. Tidy formulas -/

/-- The phrases of the formula's tokens are tidy. -/
def Tidy (formula current : String) : Prop :=
  ∀ ts ∈ (tokens (body formula.toList)).toOption, ∀ p ∈ phrases ts, p.Tidy current

instance (formula current : String) : Decidable (Tidy formula current) :=
  inferInstanceAs (Decidable (∀ ts ∈ (tokens (body formula.toList)).toOption,
    ∀ p ∈ phrases ts, p.Tidy current))

section Phrases

variable {current : String} {p : Phrase}

/-- A cell that a tidy phrase reads by itself goes by the key of its mention. -/
theorem mem_keys_one {t : Token} {key : String} (hread : t.Read)
    (htidy : (Phrase.one t).Tidy current) (h : key ∈ (Phrase.one t).keys current) :
    ∃ s ∈ (Phrase.one t).cell?, key = cellKey current s := by
  obtain ⟨a, ha, rfl⟩ : ∃ a, rangeEnd? t = some a ∧ a.key current = key := by
    rw [Phrase.keys, Option.mem_toList, Option.map_eq_some_iff] at h
    exact h
  obtain ⟨s, hs, -, hspelling, haddress⟩ := exists_spelling_of_rangeEnd? hread ha
  have hrow := (htidy (kind_of_rangeEnd? ha)).2.2 s hspelling
  exact ⟨s, hspelling, key_ofSpelling hs haddress hrow current⟩

/-- The range that a tidy phrase mentions expands to the keys that the phrase reads. -/
theorem expandRange_range? {first last : Token} (hread : (Phrase.span first last).Read)
    (hwell : (Phrase.span first last).WellFormed) (htidy : (Phrase.span first last).Tidy current) :
    ∃ r, (Phrase.span first last).range? = some r ∧
      expandRange (spanKey current r) = .ok ((Phrase.span first last).keys current) := by
  obtain ⟨-, -, hmark, hcurrent⟩ := htidy
  obtain ⟨s, c, r, hr⟩ := exists_spanned hwell hread hmark
  have hsheet : s.sheet = .absent → trim (· == '\x27') current.toList = current.toList := by
    intro habsent
    refine hcurrent.resolve_left fun hmem => ?_
    rw [hr.first_text, Spelling.text, habsent] at hmem
    exact (hr.first_sound.cell.mono.word _ hmem).2.1 rfl
  refine ⟨(s.sheet, s.cell, c), hr.range, ?_⟩
  rw [expandRange_spanKey hr.first_sound.sheet.mono hr.first_sound.cell hr.last_sound hsheet
    hr.first_address hr.last_address, Phrase.keys, hr.corners]
  rfl

end Phrases

/-! ## 2. All references are mentioned -/

section Complete

variable {ps : List Phrase} {formula current : String}

theorem mem_mentionedRanges_iff (h : Shows ps (withoutTexts formula.toList)) {span : String} :
    span ∈ mentionedRanges formula current ↔
      ∃ p ∈ ps, ∃ r, p.range? = some r ∧ spanKey current r = span := by
  have hitems : (rangesIn (withoutTexts formula.toList)).map (fun m => spanKey current m.item) =
      (ps.filterMap Phrase.range?).map (spanKey current) := by
    rw [← h.ranges 0, List.map_map]
    rfl
  rw [mentionedRanges, hitems, List.mem_eraseDups]
  simp only [List.mem_map, List.mem_filterMap]
  constructor
  · intro hspan
    obtain ⟨r, ⟨p, hp, hr⟩, hspan⟩ := hspan
    exact ⟨p, hp, r, hr, hspan⟩
  · intro hphrase
    obtain ⟨p, hp, r, hr, hspan⟩ := hphrase
    exact ⟨r, ⟨p, hp, hr⟩, hspan⟩

theorem mem_mentionedCells (h : Shows ps (withoutTexts formula.toList)) {p : Phrase} (hp : p ∈ ps)
    {s : Spelling} (hs : s ∈ p.cell?) : cellKey current s ∈ mentionedCells formula current := by
  obtain ⟨m, hm, rfl, hoff⟩ := h.cells 0 p hp s hs
  have hkept : m ∈ cellsIn (withoutTexts formula.toList) := by
    refine List.mem_filter.mpr ⟨hm, ?_⟩
    rw [Bool.not_eq_true', List.any_eq_false]
    intro r hr hcovers
    rw [Bool.and_eq_true, decide_eq_true_eq, decide_eq_true_eq] at hcovers
    exact hoff r hr hcovers
  exact List.mem_eraseDups.mpr (List.mem_map.mpr ⟨m, hkept, rfl⟩)

/-- Where the scans find what tidy phrases mention, the mentions hold all that the phrases read. -/
theorem allReferences_of_shows (h : Shows ps (withoutTexts formula.toList))
    (hread : ∀ p ∈ ps, p.Read) (hwell : ∀ p ∈ ps, p.WellFormed)
    (htidy : ∀ p ∈ ps, p.Tidy current) :
    ∃ refs, allReferences formula current = .ok refs ∧
      ∀ key ∈ ps.flatMap (Phrase.keys current), key ∈ refs := by
  have hexpand : ∀ span ∈ mentionedRanges formula current,
      ∃ keys, expandRange span = .ok keys := by
    intro span hspan
    obtain ⟨p, hp, r, hr, rfl⟩ := (mem_mentionedRanges_iff h).mp hspan
    cases p with
    | one t => cases hr
    | span first last =>
      obtain ⟨r', hr', hkeys⟩ := expandRange_range? (hread _ hp) (hwell _ hp) (htidy _ hp)
      rw [hr] at hr'
      cases hr'
      exact ⟨_, hkeys⟩
  obtain ⟨spread, hspread, hmem⟩ := exists_mapM_ok hexpand
  refine ⟨(mentionedCells formula current ++ spread.flatten).eraseDups, ?_, fun key hkey => ?_⟩
  · rw [allReferences, hspread]
    rfl
  obtain ⟨p, hp, hkey⟩ := List.mem_flatMap.mp hkey
  rw [List.mem_eraseDups, List.mem_append]
  cases p with
  | one t =>
    obtain ⟨s, hs, rfl⟩ := mem_keys_one (hread _ hp) (htidy _ hp) hkey
    exact Or.inl (mem_mentionedCells h hp hs)
  | span first last =>
    obtain ⟨r, hr, hkeys⟩ := expandRange_range? (hread _ hp) (hwell _ hp) (htidy _ hp)
    have hspan : spanKey current r ∈ mentionedRanges formula current :=
      (mem_mentionedRanges_iff h).mpr ⟨_, hp, r, hr, rfl⟩
    exact Or.inr (List.mem_flatten.mpr ⟨_, hmem _ hspan _ hkeys, hkey⟩)

/-- A tree within the grammar is what the parser makes of the formula's tokens. -/
theorem exists_of_isSupported {table : Signatures}
    (h : (Tree.ofText table formula).isSupported = true) :
    ∃ ts, tokens (body formula.toList) = .ok ts ∧
      formula? table ts = .ok (Tree.ofText table formula) := by
  unfold Tree.ofText at h ⊢
  split at h
  · next tree hparsed => exact exists_of_bind_ok hparsed
  · cases h

/-- What is left of a formula without its texts shows its phrases, and the scans find what they
    mention. -/
theorem shows_phrases {ts : List Token} {keys : List String}
    (hts : tokens (body formula.toList) = .ok ts)
    (hsplit : ts = (phrases ts).flatMap Phrase.tokens)
    (hphrased : Phrased current (phrases ts) keys) (htidy : ∀ p ∈ phrases ts, p.Tidy current) :
    (∀ p ∈ phrases ts, p.Read) ∧ Shows (phrases ts) (withoutTexts formula.toList) := by
  have hwell := hphrased.wellFormed
  have hread : ∀ p ∈ phrases ts, p.Read := by
    intro p hp
    have htokens : ∀ t ∈ p.tokens, t.Read := by
      intro t ht
      refine tokens_read hts t ?_
      rw [hsplit]
      exact List.mem_flatMap.mpr ⟨p, hp, ht⟩
    cases p with
    | one t => exact htokens t (by simp [Phrase.tokens])
    | span first last =>
      exact ⟨htokens first (by simp [Phrase.tokens]), htokens last (by simp [Phrase.tokens])⟩
  have hquote : ∀ t ∈ ts, t.kind = .reference → '"' ∉ t.text := by
    intro t ht
    rw [hsplit] at ht
    obtain ⟨p, hp, ht⟩ := List.mem_flatMap.mp ht
    exact (htidy p hp).quote (hwell p hp) (hread p hp) t ht
  obtain ⟨front, rest, htext, hfront, hlaid⟩ := laid_body hts hsplit hquote
  refine ⟨hread, ?_⟩
  rw [htext]
  refine (hlaid.shows hphrased.chain hwell htidy).after_inert fun c hc => ?_
  rcases hfront c hc with hblank | rfl
  · exact inert_of_blank hblank
  · exact ⟨rfl, by decide⟩

/-- **The mentions of a tidy formula hold all its references**: the graph takes the formula, and has
    an edge, noted at both ends, to every cell that the formula reads. -/
theorem allReferences_complete {table : Signatures}
    (hsupported : (Tree.ofText table formula).isSupported = true) (htidy : Tidy formula current) :
    ∃ refs, allReferences formula current = .ok refs ∧
      (∀ key ∈ (Tree.ofText table formula).references current, key ∈ refs) ∧
      ∀ (g : Graph) (cell : String), (g.add cell formula current).2 = .ok () ∧
        ∀ key ∈ (Tree.ofText table formula).references current,
          key ∈ (g.add cell formula current).1.reads cell ∧
          cell ∈ (g.add cell formula current).1.readers key := by
  obtain ⟨ts, hts, htree⟩ := exists_of_isSupported hsupported
  have htidy : ∀ p ∈ phrases ts, p.Tidy current := htidy ts (by rw [hts]; rfl)
  obtain ⟨hsplit, hphrased⟩ := formula?_phrases current htree
  obtain ⟨hread, hshows⟩ := shows_phrases hts hsplit hphrased htidy
  obtain ⟨refs, hrefs, hmem⟩ := allReferences_of_shows hshows hread hphrased.wellFormed htidy
  have hall : ∀ key ∈ (Tree.ofText table formula).references current, key ∈ refs := by
    intro key hkey
    rw [Tree.mem_references_iff, ← hphrased.keys] at hkey
    exact hmem key hkey
  refine ⟨refs, hrefs, hall, fun g cell => ⟨by rw [Graph.add_ok hrefs], fun key hkey => ⟨?_, ?_⟩⟩⟩
  · rw [Graph.reads_add_self hrefs]
    exact hall key hkey
  · exact (Graph.mem_readers_add hrefs).mpr (Or.inr ⟨hall key hkey, rfl⟩)

/-- A formula with blanks, marks, both kinds of sheets, a text and a numeral. -/
def mixed : String :=
  "= sum( Data!$A$1 : b2, \x27My Sheet\x27!c3, \"A9\", 1E5)"

theorem allReferences_complete_mixed :
    (Tree.ofText Function.Library.standard.signatures mixed).isSupported = true ∧
      Tidy mixed "S" ∧
      ∃ refs, allReferences mixed "S" = .ok refs ∧ "Data!B2" ∈ refs ∧ "My Sheet!C3" ∈ refs := by
  let read := (Tree.ofText Function.Library.standard.signatures mixed).references "S"
  obtain ⟨hsupported, htidy, hdata, hsheet⟩ :
      (Tree.ofText Function.Library.standard.signatures mixed).isSupported = true ∧
        Tidy mixed "S" ∧ "Data!B2" ∈ read ∧ "My Sheet!C3" ∈ read := by
    decide +kernel
  obtain ⟨refs, hrefs, hmem, -⟩ := allReferences_complete hsupported htidy
  exact ⟨hsupported, htidy, refs, hrefs, hmem _ hdata, hmem _ hsheet⟩

end Complete

/-! ## 3. Where mentions are missing -/

/-- The formula lies within the grammar and reads the key, but its mentions lack it. -/
def Lacks (formula current key : String) : Prop :=
  (Tree.ofText Function.Library.standard.signatures formula).isSupported = true ∧
    key ∈ (Tree.ofText Function.Library.standard.signatures formula).references current ∧
    ∃ refs ∈ (allReferences formula current).toOption, key ∉ refs

instance (formula current key : String) : Decidable (Lacks formula current key) :=
  inferInstanceAs (Decidable
    (_ ∧ _ ∧ ∃ refs ∈ (allReferences formula current).toOption, key ∉ refs))

/-- **The mentions of a formula may lack a reference**: where the end of a range repeats its sheet,
    where a row has a leading zero or is not in ASCII digits, where double quotes or a colon are in
    the names of sheets, and where the name of the current sheet begins with an apostrophe. -/
theorem allReferences_lacks :
    Lacks "=SUM(Data!A1:Data!A3)" "S" "Data!A2" ∧ Lacks "=A01" "S" "S!A1" ∧
      Lacks "=A\u0661" "S" "S!A1" ∧
      Lacks "=\x27a\"b\x27!A1+\x27c\"d\x27!B1" "S" "a\"b!A1" ∧
      Lacks "=SUM(\x27x\x27!A1,\x27!B2:C3\x27!D4)" "S" "!B2:C3!D4" ∧
      Lacks "=SUM(A1:A2)" "\x27S" "\x27S!A1" := by
  decide +kernel

end Appraisal.Formula
