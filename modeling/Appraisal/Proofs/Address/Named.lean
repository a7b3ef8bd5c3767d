import Appraisal.Proofs.Address.Plain
import Appraisal.Proofs.Address.Spelled

/-!
# The cells that spellings name

Two readers make keys of the same spelling: one goes by way of column and row numbers, the other
puts the letters in upper case and keeps the digits. They agree on a cell whose row is written
without leading zeros in ASCII digits, and on the cells of a range whatever its rows are written
in, since there both go by way of numbers.

* `Address.read?_text` — the address that the text of a spelling spells;
* `key_ofSpelling` — the key of a cell with a plain row is the key of its mention;
* `CellSpelling.NamesCell` — the mention is of a cell that exists: `a1ToRowColumn_bareCell` has its
  row and column, and `a1ToRowColumn_bareCell_error` rejects any other;
* `expandRange_spanKey` — **a mentioned range expands to the keys of its cells**, and
  `expandRange_error` — not at all where one of its corners is no cell.
-/

namespace Appraisal

open Appraisal.Text Appraisal.Formula

/-! ## 1. Single cells -/

theorem SheetPrefix.Sound.mono {p : SheetPrefix} (h : p.Sound Char.isAlpha) :
    p.Sound isCaseLetter := by
  cases p with
  | absent => trivial
  | quoted name => exact h
  | bare name =>
    exact ⟨h.1, fun x hx => isNameChar_mono (fun _ => isCaseLetter_of_isAlpha) (h.2 x hx)⟩

/-- The sheet of a spelling has a name that is not empty. -/
theorem SheetPrefix.Sound.name_ne {p : SheetPrefix} (h : p.Sound Char.isAlpha) :
    p.name?.map String.ofList ≠ some "" := by
  cases p with
  | absent => nofun
  | bare name => exact fun hempty => h.1 (String.ofList_eq_empty_iff.mp (Option.some.inj hempty))
  | quoted name => exact fun hempty => h.1 (String.ofList_eq_empty_iff.mp (Option.some.inj hempty))

theorem CellSpelling.Sound.mono {c : CellSpelling} (h : c.Sound Char.isAlpha) :
    c.Sound isCaseLetter where
  letters_ne := h.letters_ne
  letters_le := h.letters_le
  letters x hx := isCaseLetter_of_isAlpha (h.letters x hx)
  digits_ne := h.digits_ne
  digits := h.digits

theorem Spelling.Sound.mono {s : Spelling} (h : s.Sound Char.isAlpha) : s.Sound isCaseLetter :=
  ⟨h.sheet.mono, h.cell.mono⟩

theorem readSpelling?_text {letter : Char → Bool} {cs rest : List Char} {s : Spelling}
    (h : readSpelling? letter cs = some (s, rest)) : s.text ++ rest = cs :=
  withSheet?_text readCell?_text (withSheet?_of_readSpelling? h)

section Single

variable {s : Spelling} {a : Address}

/-- There is no blank at the ends of a spelling. -/
theorem Spelling.Sound.ends (h : s.Sound isCaseLetter) :
    (∀ c, s.text.head? = some c → isBlank c = false) ∧
      ∀ c, s.text.getLast? = some c → isBlank c = false := by
  have hcell : ∀ x ∈ s.cell.text, isBlank x = false := fun x hx =>
    isBlank_of_isWord (h.cell.word x hx).1
  have hne : s.cell.text ≠ [] := by
    intro hnil
    simp only [CellSpelling.text, List.append_eq_nil_iff] at hnil
    exact h.cell.letters_ne hnil.1.2
  refine ⟨fun c hc => ?_, fun c hc => ?_⟩
  · cases hsheet : s.sheet with
    | absent =>
      rw [Spelling.text, hsheet] at hc
      exact hcell c (List.mem_of_head? hc)
    | quoted name =>
      rw [Spelling.text, hsheet] at hc
      cases hc
      rfl
    | bare name =>
      have hname := h.sheet
      rw [hsheet] at hname
      obtain ⟨n, ns, rfl⟩ := List.exists_cons_of_ne_nil hname.1
      rw [Spelling.text, hsheet] at hc
      cases hc
      exact isBlank_of_isWord (isWord_of_isNameChar (hname.2 c List.mem_cons_self))
  · obtain ⟨x, hx⟩ := List.getLast?_isSome.mpr hne |> Option.isSome_iff_exists.mp
    rw [Spelling.text, List.getLast?_append, hx] at hc
    cases hc
    exact hcell c (List.mem_of_getLast? hx)

theorem Spelling.Sound.strip_text (h : s.Sound isCaseLetter) : strip s.text = s.text :=
  trim_of_ends h.ends.1 h.ends.2

/-- A text that is a sound spelling, blanks at its ends aside, spells what the spelling stands
    for. -/
theorem Address.read?_of_strip {text : String} (hs : s.Sound Char.isAlpha)
    (htext : strip text.toList = s.text) : Address.read? text = Address.ofSpelling? s := by
  have hread := readSpelling?_append (fun _ => isCaseLetter_of_isAlpha) hs hs.cell.mono free_nil
  rw [List.append_nil] at hread
  unfold Address.read?
  rw [htext, hread]
  rfl

/-- **A text spells an address iff, blanks at its ends aside, it is a sound spelling that stands for
    the address.** -/
theorem Address.read?_iff {text : String} :
    Address.read? text = some a ↔ ∃ s : Spelling, s.Sound Char.isAlpha ∧
      strip text.toList = s.text ∧ Address.ofSpelling? s = some a := by
  constructor
  · intro h
    unfold Address.read? at h
    simp only [Option.bind_eq_bind, Option.bind_eq_some_iff, Prod.exists] at h
    obtain ⟨s, rest, hread, hif⟩ := h
    split at hif
    · next hnil =>
      exact ⟨s, readSpelling?_sound hread,
        by rw [← readSpelling?_text hread, hnil, List.append_nil], hif⟩
    · cases hif
  · rintro ⟨s, hs, htext, hspelled⟩
    rw [Address.read?_of_strip hs htext, hspelled]

/-- The address that the text of a spelling spells is the one that the spelling stands for; its
    letters are ASCII letters. -/
theorem Address.read?_text (hs : s.Sound isCaseLetter)
    (h : Address.read? (String.ofList s.text) = some a) :
    s.Sound Char.isAlpha ∧ Address.ofSpelling? s = some a := by
  obtain ⟨t, ht, htext, hspelled⟩ := Address.read?_iff.mp h
  rw [String.toList_ofList, hs.strip_text] at htext
  have heq : t = s := Spelling.Sound.eq_of_text ht.mono hs htext.symm
  exact ⟨heq ▸ ht, heq ▸ hspelled⟩

theorem Address.ofSpelling?_eq_some (h : Address.ofSpelling? s = some a) :
    1 ≤ digitsValue s.cell.digits ∧ a.sheet = s.sheet.name?.map String.ofList ∧
      a.column = Column.number s.cell.letters ∧ a.row = digitsValue s.cell.digits := by
  unfold Address.ofSpelling? at h
  simp only at h
  split at h
  · cases h
  · next hrow =>
    cases h
    exact ⟨by omega, rfl, rfl, rfl⟩

theorem SheetPrefix.name?_eq_none_iff {p : SheetPrefix} : p.name? = none ↔ p = .absent := by
  cases p with
  | absent => exact ⟨fun _ => rfl, fun _ => rfl⟩
  | bare name | quoted name => exact ⟨nofun, nofun⟩

/-- An address without a sheet is spelled without one. -/
theorem Address.absent_of_ofSpelling? (h : Address.ofSpelling? s = some a) (ha : a.sheet = none) :
    s.sheet = .absent := by
  have hsheet := (Address.ofSpelling?_eq_some h).2.1
  rw [ha] at hsheet
  exact SheetPrefix.name?_eq_none_iff.mp (Option.map_eq_none_iff.mp hsheet.symm)

/-- The sheet that an address lies on is the sheet of its mention. -/
theorem Address.sheetOn_ofSpelling (hs : s.sheet.Sound isCaseLetter)
    (h : Address.ofSpelling? s = some a) (current : String) :
    a.sheetOn current = String.ofList (mentionedSheet s.sheet current) := by
  have hsheet := (Address.ofSpelling?_eq_some h).2.1
  unfold Address.sheetOn mentionedSheet
  rw [hsheet]
  cases hp : s.sheet with
  | absent => exact String.ofList_toList.symm
  | bare name | quoted name =>
    rw [hp] at hs
    have hname : String.ofList name ≠ "" := fun hempty =>
      hs.1 (String.ofList_eq_empty_iff.mp hempty)
    exact if_neg hname

end Single

/-- The row is written as a number is: in ASCII digits and without leading zeros. -/
def CellSpelling.PlainRow (c : CellSpelling) : Prop :=
  c.digits = (toString (digitsValue c.digits)).toList

instance (c : CellSpelling) : Decidable c.PlainRow :=
  inferInstanceAs (Decidable (_ = _))

theorem toString_natCast (n : Nat) : toString (n : Int) = toString n := by
  rw [Int.toString_eq_repr, Int.repr_eq_if, if_pos (Int.natCast_nonneg n), Int.toNat_natCast]
  rfl

theorem toList_toString_row {row : Int} (h : 0 ≤ row) :
    (toString row).toList = row.toNat.repr.toList := by
  obtain ⟨n, rfl⟩ := Int.eq_ofNat_of_zero_le h
  exact congrArg String.toList (toString_natCast n)

/-- The bare reference of a spelled cell: its letters in upper case, and the decimal digits of its
    row. -/
theorem plain_ofSpelling {s : Spelling} {a : Address} (hs : s.Sound Char.isAlpha)
    (h : Address.ofSpelling? s = some a) :
    a.plain = String.ofList (upper s.cell.letters ++ (digitsValue s.cell.digits).repr.toList) := by
  obtain ⟨-, -, hcolumn, hrows⟩ := Address.ofSpelling?_eq_some h
  have hletters : Column.letters a.column.toNat = upper s.cell.letters := by
    rw [hcolumn, Int.toNat_natCast]
    exact Column.letters_number hs.cell.letters
  have hdigits : toString a.row = String.ofList (digitsValue s.cell.digits).repr.toList := by
    rw [hrows, toString_natCast]
    exact String.ofList_toList.symm
  rw [Address.plain, plainReference, hletters, hdigits, String.ofList_append]

/-- **The key of a cell whose row is plain is the key of its mention.** -/
theorem key_ofSpelling {s : Spelling} {a : Address} (hs : s.Sound Char.isAlpha)
    (h : Address.ofSpelling? s = some a) (hrow : s.cell.PlainRow) (current : String) :
    a.key current = cellKey current s := by
  have hplain : a.plain = String.ofList (bareCell s.cell) := by
    rw [plain_ofSpelling hs h, bareCell]
    exact congrArg (fun digits => String.ofList (upper s.cell.letters ++ digits)) hrow.symm
  rw [Address.key, Address.sheetOn_ofSpelling hs.sheet.mono h, hplain, cellKey, ← String.toList_inj]
  simp

/-! ## 2. Bare mentions -/

/-- A capital beyond ASCII that a formula takes for a letter: the dotted I or the Kelvin sign. -/
def IsForeignCapital (c : Char) : Prop :=
  c = '\u0130' ∨ c = '\u212a'

instance (c : Char) : Decidable (IsForeignCapital c) :=
  inferInstanceAs (Decidable (_ ∨ _))

/-- A letter in upper case. -/
def IsUpperLetter (c : Char) : Prop :=
  IsCapital c ∨ IsForeignCapital c

theorem IsUpperLetter.upperChar {c : Char} (h : IsUpperLetter c) : upperChar c = [c] := by
  rcases h with h | rfl | rfl
  · rw [Text.upperChar, if_pos (toNat_lt_of_isAlpha h.isAlpha), h.isPlain.toUpper]
  · decide
  · decide

theorem IsUpperLetter.isCaseLetter {c : Char} (h : IsUpperLetter c) : isCaseLetter c = true := by
  rcases h with h | rfl | rfl
  · exact isCaseLetter_of_isAlpha h.isAlpha
  · decide
  · decide

theorem IsUpperLetter.le_toNat {c : Char} (h : IsUpperLetter c) : 65 ≤ c.toNat := by
  rcases h with h | rfl | rfl
  · exact h.1
  · decide
  · decide

/-- A letter has an ASCII capital for its upper case, unless it is a foreign capital. -/
theorem exists_capital {c : Char} (h : isCaseLetter c = true) :
    ¬ IsForeignCapital c → ∃ d, upperChar c = [d] ∧ IsCapital d := by
  refine forall_caseLetter
    (P := fun c => ¬ IsForeignCapital c → ∃ d, upperChar c = [d] ∧ IsCapital d)
    (fun c hc _ => ?_) ⟨?_, ?_, ?_, ?_⟩ h
  · exact ⟨c.toUpper, if_pos (toNat_lt_of_isAlpha hc), isCapital_toUpper hc⟩
  · exact fun hforeign => absurd (Or.inl rfl) hforeign
  · exact fun _ => ⟨'I', by decide, by decide, by decide⟩
  · exact fun _ => ⟨'S', by decide, by decide, by decide⟩
  · exact fun hforeign => absurd (Or.inr rfl) hforeign

theorem exists_upperLetter {c : Char} (h : isCaseLetter c = true) :
    ∃ d, upperChar c = [d] ∧ IsUpperLetter d := by
  by_cases hforeign : IsForeignCapital c
  · exact ⟨c, IsUpperLetter.upperChar (Or.inr hforeign), Or.inr hforeign⟩
  · obtain ⟨d, hd, hcapital⟩ := exists_capital h hforeign
    exact ⟨d, hd, Or.inl hcapital⟩

section Letters

variable {name : List Char}

theorem upper_of_upperLetters (h : ∀ c ∈ name, IsUpperLetter c) : upper name = name := by
  induction name with
  | nil => rfl
  | cons c name ih =>
    obtain ⟨hc, hname⟩ := List.forall_mem_cons.mp h
    rw [upper_cons, hc.upperChar, ih hname]
    rfl

theorem isUpperLetter_of_mem_upper (h : ∀ c ∈ name, isCaseLetter c = true) :
    ∀ x ∈ upper name, IsUpperLetter x := by
  intro x hx
  obtain ⟨c, hc, hx⟩ := List.mem_flatMap.mp hx
  obtain ⟨d, hd, hupper⟩ := exists_upperLetter (h c hc)
  rw [hd] at hx
  exact List.mem_singleton.mp hx ▸ hupper

theorem length_upper (h : ∀ c ∈ name, isCaseLetter c = true) :
    (upper name).length = name.length := by
  induction name with
  | nil => rfl
  | cons c name ih =>
    obtain ⟨hc, hname⟩ := List.forall_mem_cons.mp h
    obtain ⟨d, hd, -⟩ := exists_upperLetter hc
    rw [upper_cons, hd, List.length_append, ih hname, List.length_singleton, List.length_cons,
      Nat.add_comm]

theorem number_upper (h : ∀ c ∈ name, isCaseLetter c = true) :
    Column.number (upper name) = Column.number name := by
  rw [Column.number, Column.number, upper_of_upperLetters (isUpperLetter_of_mem_upper h)]

end Letters

/-- The mention is of a cell that exists: its row is at least one, and its column is in letters of
    A to Z. -/
structure CellSpelling.NamesCell (c : CellSpelling) : Prop where
  row : 1 ≤ digitsValue c.digits
  letters : ∀ x ∈ c.letters, ¬ IsForeignCapital x

-- the letters are gone through one by one, and not all characters there are
instance (c : CellSpelling) : Decidable c.NamesCell :=
  have : Decidable (∀ x ∈ c.letters, ¬ IsForeignCapital x) :=
    List.decidableBAll (fun x => ¬ IsForeignCapital x) c.letters
  decidable_of_iff (1 ≤ digitsValue c.digits ∧ ∀ x ∈ c.letters, ¬ IsForeignCapital x)
    ⟨fun h => ⟨h.1, h.2⟩, fun h => ⟨h.row, h.letters⟩⟩

section Bare

variable {c : CellSpelling}

theorem CellSpelling.Sound.namesCell (h : c.Sound Char.isAlpha)
    (hrow : 1 ≤ digitsValue c.digits) : c.NamesCell where
  row := hrow
  letters x hx hforeign := by
    have hascii := toNat_lt_of_isAlpha (h.letters x hx)
    rcases hforeign with rfl | rfl <;> exact absurd hascii (by decide)

/-- A character of a bare mention: a letter in upper case or a digit of any script. -/
def IsBare (x : Char) : Prop :=
  IsUpperLetter x ∨ isDigit x = true

theorem isBare_of_mem (h : c.Sound isCaseLetter) : ∀ x ∈ bareCell c, IsBare x := by
  intro x hx
  rcases List.mem_append.mp hx with hx | hx
  · exact Or.inl (isUpperLetter_of_mem_upper h.letters x hx)
  · exact Or.inr (h.digits x hx)

theorem IsBare.isBlank {x : Char} (h : IsBare x) : isBlank x = false := by
  rcases h with h | h
  · exact isBlank_of_isWord (isWord_of_isNameChar (isNameChar_of_isCaseLetter h.isCaseLetter))
  · exact isBlank_of_isDigit h

/-- The marks that references and ranges are cut at are not in a bare mention. -/
theorem not_mem_bareCell (h : c.Sound isCaseLetter) {d : Char} (hd : d.toNat < 65)
    (hdigit : isDigit d = false) : d ∉ bareCell c := by
  intro hmem
  rcases isBare_of_mem h d hmem with hupper | hd'
  · have := hupper.le_toNat
    omega
  · rw [hdigit] at hd'
    cases hd'

/-- Digits have no case. -/
theorem upper_digits {ds : List Char} (h : ∀ d ∈ ds, isDigit d = true) : upper ds = ds := by
  induction ds with
  | nil => rfl
  | cons d ds ih =>
    obtain ⟨hd, hds⟩ := List.forall_mem_cons.mp h
    rw [upper_cons, upperChar_of_isDigit hd, ih hds]
    rfl

theorem upper_bareCell (h : c.Sound isCaseLetter) : upper (bareCell c) = bareCell c := by
  rw [bareCell, upper_append, upper_digits h.digits,
    upper_of_upperLetters (isUpperLetter_of_mem_upper h.letters)]

/-- A bare mention is its own bare form. -/
theorem bareReference_bareCell (h : c.Sound isCaseLetter) :
    bareReference (String.ofList (bareCell c)) = String.ofList (bareCell c) := by
  have hbare := isBare_of_mem h
  have hfilter : (bareCell c).filter (· ≠ '$') = bareCell c := by
    refine List.filter_eq_self.mpr fun x hx => decide_eq_true fun heq => ?_
    exact not_mem_bareCell h (by decide) (by decide) (heq ▸ hx)
  have hstrip : strip (bareCell c) = bareCell c :=
    trim_of_ends (fun x hx => (hbare x (List.mem_of_head? hx)).isBlank)
      fun x hx => (hbare x (List.mem_of_getLast? hx)).isBlank
  rw [bareReference, String.toList_ofList, hfilter, hstrip, upper_bareCell h]

/-- A spelled cell without its dollar marks is its letters and its digits. -/
theorem CellSpelling.Sound.filter_text (h : c.Sound isCaseLetter) :
    c.text.filter (· ≠ '$') = c.letters ++ c.digits := by
  have hmark : ∀ mark, (markText mark).filter (· ≠ '$') = [] := by decide
  have hletters : c.letters.filter (· ≠ '$') = c.letters :=
    List.filter_eq_self.mpr fun x hx =>
      decide_eq_true (ne_of_isCaseLetter (h.letters x hx) (by decide))
  have hdigits : c.digits.filter (· ≠ '$') = c.digits := by
    refine List.filter_eq_self.mpr fun x hx => decide_eq_true fun heq => ?_
    have hdigit := h.digits x hx
    rw [heq] at hdigit
    cases hdigit
  simp only [CellSpelling.text, List.filter_append, hmark, hletters, hdigits, List.nil_append]

/-- **The bare form of a spelled cell, blanks at its ends aside, is its bare mention.** -/
theorem bareReference_of_strip {text : String} (h : c.Sound isCaseLetter)
    (htext : strip text.toList = c.text) : bareReference text = String.ofList (bareCell c) := by
  have hkept : ∀ blanks : List Char, (∀ x ∈ blanks, isBlank x = true) →
      blanks.filter (· ≠ '$') = blanks := by
    intro blanks hblanks
    refine List.filter_eq_self.mpr fun x hx => decide_eq_true fun heq => ?_
    have hblank := hblanks x hx
    rw [heq] at hblank
    cases hblank
  have hcell : ∀ x ∈ c.letters ++ c.digits, isBlank x = false := by
    intro x hx
    rcases List.mem_append.mp hx with hx | hx
    · exact isBlank_of_isWord (isWord_of_isNameChar (isNameChar_of_isCaseLetter (h.letters x hx)))
    · exact isBlank_of_isDigit (h.digits x hx)
  obtain ⟨left, right, hsplit, hleft, hright⟩ := exists_strip text.toList
  have hstrip : strip (text.toList.filter (· ≠ '$')) = c.letters ++ c.digits := by
    rw [hsplit, htext, List.filter_append, List.filter_append, hkept left hleft, hkept right hright,
      h.filter_text]
    exact strip_between hleft hright (fun x hx => hcell x (List.mem_of_head? hx))
      fun x hx => hcell x (List.mem_of_getLast? hx)
  rw [bareReference, hstrip, upper_append, upper_digits h.digits, bareCell]

/-- The bare form of a spelled cell is its bare mention. -/
theorem bareReference_text (h : c.Sound isCaseLetter) :
    bareReference (String.ofList c.text) = String.ofList (bareCell c) := by
  have hs : (⟨.absent, c⟩ : Spelling).Sound isCaseLetter := ⟨trivial, h⟩
  refine bareReference_of_strip h ?_
  rw [String.toList_ofList]
  exact hs.strip_text

/-- Without foreign capitals the ASCII letters of a bare mention are all its letters. -/
theorem span_bareCell (h : c.Sound isCaseLetter)
    (hletters : ∀ x ∈ c.letters, ¬ IsForeignCapital x) :
    (bareCell c).takeWhile Char.isAlpha = upper c.letters ∧
      (bareCell c).dropWhile Char.isAlpha = c.digits := by
  have halpha : ∀ x ∈ upper c.letters, x.isAlpha = true := by
    intro x hx
    obtain ⟨l, hl, hx⟩ := List.mem_flatMap.mp hx
    obtain ⟨d, hd, hcapital⟩ := exists_capital (h.letters l hl) (hletters l hl)
    rw [hd] at hx
    exact List.mem_singleton.mp hx ▸ hcapital.isAlpha
  have hstop : Free Char.isAlpha c.digits := fun x hx =>
    isAlpha_of_isDigit (h.digits x (List.mem_of_head? hx))
  exact ⟨takeWhile_run halpha hstop, dropWhile_run halpha hstop⟩

/-- After the ASCII letters of a bare mention with a foreign capital there is no digit. -/
theorem takeWhile_digit_bareCell (h : c.Sound isCaseLetter) {x : Char} (hx : x ∈ c.letters)
    (hforeign : IsForeignCapital x) :
    ((bareCell c).dropWhile Char.isAlpha).takeWhile isDigit = [] := by
  have hmem : x ∈ upper c.letters := by
    refine List.mem_flatMap.mpr ⟨x, hx, ?_⟩
    rw [IsUpperLetter.upperChar (Or.inr hforeign)]
    exact List.mem_singleton_self x
  have halpha : x.isAlpha ≠ true := fun halpha => by
    have hascii := toNat_lt_of_isAlpha halpha
    rcases hforeign with rfl | rfl <;> exact absurd hascii (by decide)
  cases hdrop : (upper c.letters).dropWhile Char.isAlpha with
  | nil =>
    have hall := List.takeWhile_append_dropWhile (p := Char.isAlpha) (l := upper c.letters)
    rw [hdrop, List.append_nil] at hall
    rw [← hall] at hmem
    exact absurd (of_mem_takeWhile hmem) halpha
  | cons y ys =>
    have hy : y ∈ upper c.letters :=
      (List.dropWhile_suffix Char.isAlpha).subset (hdrop ▸ List.mem_cons_self)
    have hdigit : isDigit y = false :=
      isDigit_of_isCaseLetter (isUpperLetter_of_mem_upper h.letters y hy).isCaseLetter
    rw [bareCell, List.dropWhile_append, hdrop]
    exact (free_cons hdigit).takeWhile

/-- **The bare mention of a cell that exists has the row and the column that are mentioned.** -/
theorem a1ToRowColumn_bareCell (h : c.Sound isCaseLetter) (hc : c.NamesCell) :
    a1ToRowColumn (String.ofList (bareCell c)) =
      .ok (digitsValue c.digits, Column.number c.letters) := by
  obtain ⟨hletters, hdigits⟩ := span_bareCell h hc.letters
  have hlength : (upper c.letters).length = c.letters.length := length_upper h.letters
  have hne : upper c.letters ≠ [] := by
    intro hnil
    rw [hnil] at hlength
    exact h.letters_ne (List.length_eq_zero_iff.mp hlength.symm)
  have hends : (c.digits ++ []).takeWhile isDigit = c.digits := takeWhile_run h.digits free_nil
  have hrest : (c.digits ++ []).dropWhile isDigit = [] := dropWhile_run h.digits free_nil
  rw [List.append_nil] at hends hrest
  unfold a1ToRowColumn
  simp only [String.toList_ofList, hletters, hdigits, hends, hrest]
  have hle := h.letters_le
  have hrow := hc.row
  rw [if_neg (by simp [hne, h.digits_ne]; omega), number_upper h.letters]

/-- **The bare mention of no cell is no reference.** -/
theorem a1ToRowColumn_bareCell_error (h : c.Sound isCaseLetter) (hc : ¬ c.NamesCell) :
    a1ToRowColumn (String.ofList (bareCell c)) =
      .error (.notAReference (String.ofList (bareCell c))) := by
  unfold a1ToRowColumn
  simp only [String.toList_ofList]
  by_cases hforeign : ∃ x ∈ c.letters, IsForeignCapital x
  · obtain ⟨x, hx, hforeign⟩ := hforeign
    exact if_pos (Or.inr (Or.inr (Or.inl (takeWhile_digit_bareCell h hx hforeign))))
  · have hletters : ∀ x ∈ c.letters, ¬ IsForeignCapital x := fun x hx hf => hforeign ⟨x, hx, hf⟩
    have hrow : digitsValue c.digits < 1 := Nat.lt_of_not_le fun hrow => hc ⟨hrow, hletters⟩
    have hends : (c.digits ++ []).takeWhile isDigit = c.digits := takeWhile_run h.digits free_nil
    rw [List.append_nil] at hends
    rw [(span_bareCell h hletters).2, hends]
    exact if_pos (Or.inr (Or.inr (Or.inr (Or.inr hrow))))

end Bare

/-! ## 3. Ranges -/

section Span

variable {p : SheetPrefix} {first last : CellSpelling} {current : String}

/-- A name without an apostrophe has none at its ends. -/
theorem trim_free {name : List Char} (h : '\x27' ∉ name) : trim (· == '\x27') name = name := by
  refine trim_of_ends (fun c hc => ?_) fun c hc => ?_
  · exact beq_eq_false_iff_ne.mpr fun heq => h (heq ▸ List.mem_of_head? hc)
  · exact beq_eq_false_iff_ne.mpr fun heq => h (heq ▸ List.mem_of_getLast? hc)

theorem SheetPrefix.Sound.not_mem_bare {name : List Char}
    (h : (SheetPrefix.bare name).Sound isCaseLetter) : '\x27' ∉ name :=
  fun hmem => absurd (h.2 _ hmem) (by decide)

/-- The sheet of a mention has no apostrophe at its ends, unless the current sheet has. -/
theorem trim_mentionedSheet (hp : p.Sound isCaseLetter)
    (hcurrent : p = .absent → trim (· == '\x27') current.toList = current.toList) :
    trim (· == '\x27') (mentionedSheet p current) = mentionedSheet p current := by
  cases p with
  | absent => exact hcurrent rfl
  | quoted name => exact trim_free hp.2
  | bare name => exact trim_free hp.not_mem_bare

theorem splitSpanSheet_spanKey (hfirst : first.Sound isCaseLetter)
    (hlast : last.Sound isCaseLetter) :
    splitSpanSheet (spanKey current (p, first, last)) =
      (some (String.ofList (trim (· == '\x27') (mentionedSheet p current))),
        bareCell first ++ ':' :: bareCell last) := by
  have hspan : '!' ∉ bareCell first ++ ':' :: bareCell last := by
    have hleft := not_mem_bareCell hfirst (show '!'.toNat < 65 by decide) (by decide)
    have hright := not_mem_bareCell hlast (show '!'.toNat < 65 by decide) (by decide)
    simp [hleft, hright]
  have hcut : cutLast '!' (spanKey current (p, first, last)).toList =
      some (mentionedSheet p current, bareCell first ++ ':' :: bareCell last) := by
    rw [cutLast_eq_some_iff, spanKey, String.toList_ofList]
    exact ⟨rfl, hspan⟩
  unfold splitSpanSheet
  rw [hcut]

theorem cutOnly_bareCell (hfirst : first.Sound isCaseLetter) (hlast : last.Sound isCaseLetter) :
    cutOnly ':' (bareCell first ++ ':' :: bareCell last) = some (bareCell first, bareCell last) :=
  cutOnly_eq_some_iff.mpr ⟨rfl, not_mem_bareCell hfirst (by decide) (by decide),
    not_mem_bareCell hlast (by decide) (by decide)⟩

/-- What a mentioned range expands to is read off the bare mentions of its corners. -/
theorem expandRange_corners (hfirst : first.Sound isCaseLetter) (hlast : last.Sound isCaseLetter) :
    expandRange (spanKey current (p, first, last)) = (do
      let a ← a1ToRowColumn (String.ofList (bareCell first))
      let b ← a1ToRowColumn (String.ofList (bareCell last))
      pure <| (CellRange.mk (unmarked none a.2 a.1) (unmarked none b.2 b.1)).addresses.map fun x =>
        String.ofList (trim (· == '\x27') (mentionedSheet p current)) ++ "!" ++ x.plain) := by
  unfold expandRange
  rw [splitSpanSheet_spanKey hfirst hlast]
  simp only [cutOnly_bareCell hfirst hlast, bareReference_bareCell hfirst,
    bareReference_bareCell hlast]

/-- The keys of a range are those of the same rectangle without a sheet, each after the sheet. -/
theorem addresses_map_key (r : CellRange) (current : String) :
    r.addresses.map (·.key current) =
      (CellRange.mk (unmarked none r.first.column r.first.row)
          (unmarked none r.last.column r.last.row)).addresses.map
        fun a => r.first.sheetOn current ++ "!" ++ a.plain := by
  unfold CellRange.addresses
  simp only [List.map_flatMap, List.map_map]
  rfl

/-- **A mentioned range expands to the keys of its cells.** -/
theorem expandRange_spanKey {r : CellRange} (hp : p.Sound isCaseLetter)
    (hfirst : first.Sound Char.isAlpha) (hlast : last.Sound Char.isAlpha)
    (hcurrent : p = .absent → trim (· == '\x27') current.toList = current.toList)
    (ha : Address.ofSpelling? ⟨p, first⟩ = some r.first)
    (hb : 1 ≤ digitsValue last.digits ∧ r.last.column = Column.number last.letters ∧
      r.last.row = digitsValue last.digits) :
    expandRange (spanKey current (p, first, last)) = .ok (r.addresses.map (·.key current)) := by
  obtain ⟨hrow, -, hcolumn, hrows⟩ := Address.ofSpelling?_eq_some ha
  have hsheet : r.first.sheetOn current = String.ofList (mentionedSheet p current) :=
    Address.sheetOn_ofSpelling (s := ⟨p, first⟩) hp ha current
  rw [expandRange_corners hfirst.mono hlast.mono, trim_mentionedSheet hp hcurrent,
    a1ToRowColumn_bareCell hfirst.mono (hfirst.namesCell hrow),
    a1ToRowColumn_bareCell hlast.mono (hlast.namesCell hb.1)]
  rw [addresses_map_key, hsheet, hcolumn, hrows, hb.2.1, hb.2.2]
  rfl

/-- A mentioned range whose corners are cells that exist expands. -/
theorem exists_expandRange (hfirst : first.Sound isCaseLetter) (hlast : last.Sound isCaseLetter)
    (hcells : first.NamesCell ∧ last.NamesCell) :
    ∃ keys, expandRange (spanKey current (p, first, last)) = .ok keys := by
  rw [expandRange_corners hfirst hlast, a1ToRowColumn_bareCell hfirst hcells.1,
    a1ToRowColumn_bareCell hlast hcells.2]
  exact ⟨_, rfl⟩

/-- A mentioned range with a corner that is no cell does not expand, and the error names such a
    corner. -/
theorem expandRange_error (current : String) (hfirst : first.Sound isCaseLetter)
    (hlast : last.Sound isCaseLetter) (hcells : ¬ (first.NamesCell ∧ last.NamesCell)) :
    ∃ c, (c = first ∨ c = last) ∧ ¬ c.NamesCell ∧
      expandRange (spanKey current (p, first, last)) =
        .error (.notAReference (String.ofList (bareCell c))) := by
  rw [expandRange_corners hfirst hlast]
  by_cases hnames : first.NamesCell
  · have hnames' : ¬ last.NamesCell := fun hlast => hcells ⟨hnames, hlast⟩
    refine ⟨last, Or.inr rfl, hnames', ?_⟩
    rw [a1ToRowColumn_bareCell hfirst hnames, a1ToRowColumn_bareCell_error hlast hnames']
    rfl
  · refine ⟨first, Or.inl rfl, hnames, ?_⟩
    rw [a1ToRowColumn_bareCell_error hfirst hnames]
    rfl

end Span

end Appraisal
