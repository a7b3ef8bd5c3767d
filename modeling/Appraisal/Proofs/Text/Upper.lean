import Appraisal.Proofs.Text.Run
import Appraisal.Text.CodePoint
import Appraisal.Text.Upper
import Mathlib.Data.List.Induction

/-!
# Upper case is final

The upper-case form of a character is the character itself or is made of characters that are in
upper case already, none of which is blank or a dollar mark. For the characters of the tables this
is read off their ranges: what a run moves to lies outside of all runs, or between their members.

* `CaseRun.clears`, `CaseRun.not_holds` — a run whose image has no member of another run;
* `Capital` — a character in upper case that is neither blank nor a dollar mark;
* `upperChar_cases` — **what a character becomes in upper case stays as it is**;
* `upper_upper`, `strip_upper_strip` — the upper-case form of a text is its own, and has no blank at
  its ends where the text has none.
-/

namespace Appraisal.Text

/-! ## 1. Runs and their images -/

/-- A run of a single code point. -/
def CaseRun.single (n : Nat) : CaseRun := ⟨n, n, 1, 0⟩

/-- The code point that the first member of a run moves to. -/
def CaseRun.lowest (r : CaseRun) : Nat := (r.first + r.shift).toNat

/-- The code point that the last member of a run moves to. -/
def CaseRun.highest (r : CaseRun) : Nat := (r.last + r.shift).toNat

/-- Whether the run moves its members to code points. -/
def CaseRun.lands (r : CaseRun) : Bool :=
  decide (0 ≤ r.first + r.shift) && decide (r.first ≤ r.last) && decide (r.step = 1 ∨ r.step = 2) &&
    (Nat.blt r.highest 0xd800 || (Nat.ble 0xe000 r.lowest && Nat.blt r.highest 0x110000))

/-- Whether no member of the other run is where a member of the run moves to: the other run is below
    or above, or has every second code point and these are the ones between. -/
def CaseRun.clears (r other : CaseRun) : Bool :=
  Nat.blt r.highest other.first || Nat.blt other.last r.lowest ||
    (other.step == 2 && (r.step == 2 || r.first == r.last) &&
      (r.lowest + other.first) % 2 == 1)

theorem CaseRun.bounds {r : CaseRun} {n : Nat} (hn : r.holds n = true) :
    r.lowest ≤ (n + r.shift).toNat ∧ (n + r.shift).toNat ≤ r.highest := by
  simp only [holds, Bool.and_eq_true, decide_eq_true_eq] at hn
  unfold lowest highest
  omega

theorem CaseRun.not_holds {r other : CaseRun} (hr : r.lands = true)
    (hclears : r.clears other = true) {n : Nat} (hn : r.holds n = true) :
    other.holds (n + r.shift).toNat = false := by
  have hbounds := bounds hn
  rw [Bool.eq_false_iff]
  intro h
  simp only [lands, clears, holds, Bool.or_eq_true, Bool.and_eq_true, decide_eq_true_eq,
    Nat.blt_eq, beq_iff_eq] at hr hclears hn h
  rcases hclears with (hlow | hhigh) | ⟨⟨hstep, hown⟩, hodd⟩
  · omega
  · omega
  · rw [hstep] at h
    unfold lowest at hodd
    rcases hown with hown | hown
    · rw [hown] at hn
      omega
    · omega

/-- A member of a run moves to a character. -/
theorem CaseRun.toNat_image {r : CaseRun} (hr : r.lands = true) {n : Nat} (hn : r.holds n = true) :
    (Char.ofNat (n + r.shift).toNat).toNat = (n + r.shift).toNat := by
  have hbounds := bounds hn
  simp only [lands, Bool.or_eq_true, Bool.and_eq_true, decide_eq_true_eq, Nat.blt_eq,
    Nat.ble_eq] at hr
  refine toNat_ofNat (by omega) ?_
  rw [Bool.eq_false_iff, ne_eq, isSurrogate_iff]
  omega

/-! ## 2. Capitals -/

/-- The ASCII letters in lower case. -/
def asciiRun : CaseRun := ⟨97, 122, 1, -32⟩

/-- The blank characters and the dollar mark. -/
def dropped : List CaseRun :=
  [⟨9, 13, 1, 0⟩, ⟨28, 32, 1, 0⟩, ⟨0x2000, 0x200a, 1, 0⟩] ++
    [36, 0x85, 0xa0, 0x1680, 0x2028, 0x2029, 0x202f, 0x205f, 0x3000].map .single

/-- All that a bare reference has no member of: what has another upper-case form, and what is
    dropped. -/
def barred : List CaseRun :=
  asciiRun :: upperRuns ++ upperExpansions.map (fun e => .single e.1) ++ dropped

/-- A character in upper case that is neither blank nor a dollar mark. -/
def Capital (c : Char) : Prop :=
  ∀ r ∈ barred, r.holds c.toNat = false

theorem CaseRun.single_holds (n : Nat) : (single n).holds n = true := by
  simp [holds, single]

section Capital

variable {c d : Char}

theorem Capital.not_lower (h : Capital c) : ¬ (97 ≤ c.toNat ∧ c.toNat ≤ 122) := by
  intro hlower
  have hnot := h asciiRun List.mem_cons_self
  simp [CaseRun.holds, asciiRun, hlower.1, hlower.2, Nat.mod_one] at hnot

theorem Capital.not_dropped (h : Capital c) {r : CaseRun} (hr : r ∈ dropped) :
    r.holds c.toNat = false :=
  h r (List.mem_append_right _ hr)

theorem Capital.isBlank (h : Capital c) : isBlank c = false := by
  rw [Bool.eq_false_iff]
  intro hblank
  have hrun : dropped.any (·.holds c.toNat) = true := by
    simp only [Text.isBlank, Bool.or_eq_true, Bool.and_eq_true, decide_eq_true_eq,
      beq_iff_eq] at hblank
    simp only [dropped, CaseRun.single, CaseRun.holds, List.map_cons, List.map_nil,
      List.cons_append, List.nil_append, List.any_cons, List.any_nil, Bool.or_eq_true,
      Bool.and_eq_true, decide_eq_true_eq, beq_iff_eq, Nat.mod_one, and_true,
      Bool.false_eq_true, or_false]
    omega
  obtain ⟨r, hr, hholds⟩ := List.any_eq_true.mp hrun
  rw [h.not_dropped hr] at hholds
  cases hholds

theorem Capital.ne_dollar (h : Capital c) : c ≠ '$' := by
  rintro rfl
  have hnot := h.not_dropped (List.mem_append_right _ (List.mem_map_of_mem List.mem_cons_self))
  exact absurd hnot (by decide)

/-- A capital is in upper case. -/
theorem Capital.upperChar (h : Capital c) : upperChar c = [c] := by
  have hexpansion : upperExpansions.find? (fun e => e.1 == c.toNat) = none := by
    refine List.find?_eq_none.mpr fun e he heq => ?_
    have hmem : CaseRun.single e.1 ∈ barred :=
      List.mem_append_left _ (List.mem_append_right _ (List.mem_map.mpr ⟨e, he, rfl⟩))
    have hnot := h _ hmem
    rw [← eq_of_beq heq, CaseRun.single_holds] at hnot
    cases hnot
  have hrun : upperRuns.find? (fun r => r.holds c.toNat) = none := by
    refine List.find?_eq_none.mpr fun r hr hholds => ?_
    have hmem : r ∈ barred :=
      List.mem_append_left _ (List.mem_append_left _ (List.mem_cons_of_mem _ hr))
    rw [h r hmem] at hholds
    cases hholds
  rw [Text.upperChar, toUpper_eq_self h.not_lower, upperBeyondAscii, hexpansion, hrun, ite_self]

/-- What a run that clears all that is barred moves to is a capital. -/
theorem capital_image {r : CaseRun} (hr : r.lands = true) (hclears : barred.all r.clears = true)
    {n : Nat} (hn : r.holds n = true) : Capital (Char.ofNat (n + r.shift).toNat) := by
  intro other hother
  rw [CaseRun.toNat_image hr hn]
  exact CaseRun.not_holds hr (List.all_eq_true.mp hclears other hother) hn

/-! ## 3. Upper-case forms -/

theorem forall_upperRuns : ∀ r ∈ upperRuns, r.lands = true ∧ barred.all r.clears = true := by
  have hall : upperRuns.all (fun r => r.lands && barred.all r.clears) = true := by
    decide +kernel
  intro r hr
  exact (Bool.and_eq_true _ _).mp (List.all_eq_true.mp hall r hr)

/-- An ASCII character is in upper case, or its upper-case form is a capital. -/
theorem toUpper_cases {c : Char} (h : c.toNat < 128) : c.toUpper = c ∨ Capital c.toUpper := by
  have hall : ∀ n : Fin 128, (Char.ofNat n).toUpper = Char.ofNat n ∨
      barred.all (fun r => !r.holds (Char.ofNat n).toUpper.toNat) = true := by
    decide +kernel
  have hc := hall ⟨c.toNat, h⟩
  simp only [Char.ofNat_toNat] at hc
  refine hc.imp id fun hclear r hr => ?_
  exact (Bool.not_eq_true' _).mp (List.all_eq_true.mp hclear r hr)

/-- The forms of several characters are made of capitals, and none is empty. -/
theorem forall_upperExpansions :
    ∀ e ∈ upperExpansions, e.2 ≠ [] ∧ ∀ n ∈ e.2, Capital (Char.ofNat n) := by
  have hall : upperExpansions.all (fun e => !e.2.isEmpty &&
      e.2.all fun n => barred.all fun r => !r.holds (Char.ofNat n).toNat) = true := by
    decide +kernel
  intro e he
  obtain ⟨hne, hcapital⟩ := (Bool.and_eq_true _ _).mp (List.all_eq_true.mp hall e he)
  refine ⟨fun hnil => ?_, fun n hn r hr => ?_⟩
  · rw [hnil] at hne
    cases hne
  · have hholds := List.all_eq_true.mp (List.all_eq_true.mp hcapital n hn) r hr
    exact (Bool.not_eq_true' _).mp hholds

/-- **What a character becomes in upper case stays as it is**: it is in upper case already, or its
    upper-case form is made of capitals. -/
theorem upperChar_cases (c : Char) :
    upperChar c = [c] ∨ (upperChar c ≠ [] ∧ ∀ d ∈ upperChar c, Capital d) := by
  by_cases hascii : c.toNat < 128
  · rw [upperChar, if_pos hascii]
    rcases toUpper_cases hascii with hsame | hcapital
    · exact Or.inl (by rw [hsame])
    · refine Or.inr ⟨List.cons_ne_nil _ _, fun d hd => ?_⟩
      rwa [List.mem_singleton.mp hd]
  · rw [upperChar, if_neg hascii, upperBeyondAscii]
    cases hexpansion : upperExpansions.find? (fun e => e.1 == c.toNat) with
    | some e =>
      obtain ⟨hne, hcapital⟩ := forall_upperExpansions e (List.mem_of_find?_eq_some hexpansion)
      refine Or.inr ⟨fun hnil => hne (List.map_eq_nil_iff.mp hnil), fun d hd => ?_⟩
      obtain ⟨n, hn, rfl⟩ := List.mem_map.mp hd
      exact hcapital n hn
    | none =>
      cases hrun : upperRuns.find? (fun r => r.holds c.toNat) with
      | some r =>
        obtain ⟨hlands, hclears⟩ := forall_upperRuns r (List.mem_of_find?_eq_some hrun)
        have hholds : r.holds c.toNat = true :=
          List.find?_some (p := fun r : CaseRun => r.holds c.toNat) hrun
        refine Or.inr ⟨List.cons_ne_nil _ _, fun d hd => ?_⟩
        rw [List.mem_singleton.mp hd]
        exact capital_image hlands hclears hholds
      | none => exact Or.inl rfl

end Capital

/-! ## 4. Texts -/

section Texts

variable {c d : Char} {cs : List Char}

theorem upperChar_ne_nil (c : Char) : upperChar c ≠ [] := by
  rcases upperChar_cases c with hself | ⟨hne, -⟩
  · rw [hself]
    exact nofun
  · exact hne

/-- Characters in upper case come from the same ones or are capitals. -/
theorem of_mem_upperChar (h : d ∈ upperChar c) : d = c ∨ Capital d := by
  rcases upperChar_cases c with hself | ⟨-, hcapital⟩
  · rw [hself] at h
    exact Or.inl (List.mem_singleton.mp h)
  · exact Or.inr (hcapital d h)

theorem of_mem_upper (h : d ∈ upper cs) : d ∈ cs ∨ Capital d := by
  obtain ⟨c, hc, hd⟩ := List.mem_flatMap.mp h
  rcases of_mem_upperChar hd with rfl | hcapital
  · exact Or.inl hc
  · exact Or.inr hcapital

theorem upper_eq_self_of_capital (h : ∀ c ∈ cs, Capital c) : upper cs = cs := by
  induction cs with
  | nil => rfl
  | cons c cs ih =>
    obtain ⟨hc, hcs⟩ := List.forall_mem_cons.mp h
    rw [upper_cons, hc.upperChar, ih hcs]
    rfl

/-- **The upper-case form of a text is its own.** -/
theorem upper_upper (cs : List Char) : upper (upper cs) = upper cs := by
  induction cs with
  | nil => rfl
  | cons c cs ih =>
    rw [upper_cons, upper_append, ih]
    rcases upperChar_cases c with hself | ⟨-, hcapital⟩
    · rw [hself, upper_cons, hself]
      rfl
    · rw [upper_eq_self_of_capital hcapital]

theorem isBlank_of_mem_upperChar (hc : isBlank c = false) (hd : d ∈ upperChar c) :
    isBlank d = false := by
  rcases of_mem_upperChar hd with rfl | hcapital
  · exact hc
  · exact hcapital.isBlank

/-- A text that does not begin with a blank does not so in upper case. -/
theorem free_upper (h : Free isBlank cs) : Free isBlank (upper cs) := by
  cases cs with
  | nil => exact free_nil
  | cons c cs =>
    have hfirst : Free isBlank (upperChar c) := fun d hd =>
      isBlank_of_mem_upperChar (h c rfl) (List.mem_of_head? hd)
    exact hfirst.append (upperChar_ne_nil c)

/-- A text that does not end with a blank does not so in upper case. -/
theorem free_reverse_upper (h : Free isBlank cs.reverse) : Free isBlank (upper cs).reverse := by
  cases cs using List.reverseRecOn with
  | nil => exact free_nil
  | append_singleton cs c =>
    have hlast : Free isBlank (upperChar c).reverse := fun d hd =>
      isBlank_of_mem_upperChar (h c (by rw [List.reverse_concat]; rfl))
        (List.mem_reverse.mp (List.mem_of_head? hd))
    have hone : upper [c] = upperChar c := List.append_nil _
    rw [upper_append, hone, List.reverse_append]
    exact hlast.append fun hnil => upperChar_ne_nil c (List.reverse_eq_nil_iff.mp hnil)

/-- What is left by trimming does not begin with a blank. -/
theorem free_strip (cs : List Char) : Free isBlank (strip cs) := by
  intro c hc
  have hsplit := congrArg List.reverse
    (List.takeWhile_append_dropWhile (p := isBlank) (l := (cs.dropWhile isBlank).reverse))
  rw [List.reverse_append, List.reverse_reverse] at hsplit
  refine free_dropWhile isBlank cs c ?_
  have hstrip : ((cs.dropWhile isBlank).reverse.dropWhile isBlank).reverse.head? = some c := hc
  rw [← hsplit, List.head?_append, hstrip]
  rfl

/-- What is left by trimming does not end with a blank. -/
theorem free_reverse_strip (cs : List Char) : Free isBlank (strip cs).reverse := by
  rw [strip, trim, List.reverse_reverse]
  exact free_dropWhile isBlank _

theorem mem_of_mem_strip (h : c ∈ strip cs) : c ∈ cs := by
  rw [strip, trim, List.mem_reverse] at h
  exact (List.dropWhile_sublist _).mem
    (List.mem_reverse.mp ((List.dropWhile_sublist _).mem h))

/-- A text that was trimmed and put in upper case needs no more trimming. -/
theorem strip_upper_strip (cs : List Char) : strip (upper (strip cs)) = upper (strip cs) := by
  have hlast := free_reverse_upper (free_reverse_strip cs)
  exact trim_of_ends (free_upper (free_strip cs)) fun c hc =>
    hlast c (by rwa [← List.getLast?_eq_head?_reverse])

theorem not_mem_upper (h : '$' ∉ cs) : '$' ∉ upper cs := by
  intro hmem
  rcases of_mem_upper hmem with hin | hcapital
  · exact h hin
  · exact hcapital.ne_dollar rfl

end Texts

end Appraisal.Text
