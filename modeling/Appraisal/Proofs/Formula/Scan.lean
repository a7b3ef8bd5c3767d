import Appraisal.Formula.Mention
import Appraisal.Proofs.Address.Spelled

/-!
# Scanning a text piece by piece

A scan looks for references and ranges at every position. Over a piece of the text it finds nothing
where no position begins one, finds just the piece where the piece is one, and in any case comes to
the end of the piece where nothing reaches across it.

* `findAll_pass`, `findAll_hit`, `findAll_within` — the three kinds of pieces;
* `Inert` — a character that nothing begins with;
* `NoColon` — no colon follows the word at the start of a text; `QuoteClear` — nor the word after
  the next apostrophe that ends a sheet;
* `readRangeMention?_pass` — **no range begins in a piece without a colon before such a text**;
* `readMention?_within` — **no reference reaches across the end of a word**.
-/

namespace Appraisal.Formula

open Appraisal.Text

/-! ## 1. Pieces of a scan -/

section FindAll

variable {α : Type} {read : List Char → Option (α × List Char)} {u w : List Char} {n : Nat}

theorem le_start_of_mem_findAll {skip : Nat} {cs : List Char} {m : Found α}
    (h : m ∈ findAll read skip n cs) : n ≤ m.start := by
  induction cs generalizing skip n with
  | nil =>
    cases skip with
    | zero => cases h
    | succ skip => cases h
  | cons c cs ih =>
    cases skip with
    | succ skip =>
      have hmem : m ∈ findAll read skip (n + 1) cs := h
      have hle := ih hmem
      omega
    | zero =>
      rw [findAll] at h
      split at h
      · rcases List.mem_cons.mp h with rfl | h
        · exact Nat.le_refl n
        · have hle := ih h
          omega
      · have hle := ih h
        omega

/-- What belongs to an earlier finding is passed over. -/
theorem findAll_skip (read : List Char → Option (α × List Char)) (n : Nat) (u w : List Char) :
    findAll read u.length n (u ++ w) = findAll read 0 (n + u.length) w := by
  induction u generalizing n with
  | nil => rfl
  | cons c u ih =>
    show findAll read u.length (n + 1) (u ++ w) = _
    rw [ih, List.length_cons, Nat.add_assoc, Nat.add_comm 1]

theorem findAll_none {c : Char} {cs : List Char} (h : read (c :: cs) = none) :
    findAll read 0 n (c :: cs) = findAll read 0 (n + 1) cs := by
  rw [findAll, h]

/-- Nothing is found over a piece none of whose positions begins anything. -/
theorem findAll_pass (h : ∀ b, b <:+ u → b ≠ [] → read (b ++ w) = none) :
    findAll read 0 n (u ++ w) = findAll read 0 (n + u.length) w := by
  induction u generalizing n with
  | nil => rfl
  | cons c u ih =>
    have hc : read (c :: (u ++ w)) = none :=
      h (c :: u) (List.suffix_refl _) (List.cons_ne_nil c u)
    have ih := ih (n := n + 1) fun b hb hne => h b (hb.trans (List.suffix_cons c u)) hne
    rw [List.cons_append, findAll_none hc, ih, List.length_cons, Nat.add_assoc, Nat.add_comm 1]

/-- A piece that is read as a whole is found, and the scan goes on after it. -/
theorem findAll_hit {a : α} (hne : u ≠ []) (h : read (u ++ w) = some (a, w)) :
    findAll read 0 n (u ++ w) = ⟨n, n + u.length, a⟩ :: findAll read 0 (n + u.length) w := by
  obtain ⟨c, u, rfl⟩ := List.exists_cons_of_ne_nil hne
  have hread : read (c :: (u ++ w)) = some (a, w) := h
  have hlength : (c :: (u ++ w)).length - w.length = (c :: u).length := by
    simp only [List.length_cons, List.length_append]
    omega
  have hskip : (u ++ w).length - w.length = u.length := by
    rw [List.length_append]
    omega
  rw [List.cons_append, findAll, hread]
  simp only [hlength, hskip]
  rw [findAll_skip, List.length_cons, Nat.add_assoc, Nat.add_comm 1]

/-- The scan comes to the end of a piece across which nothing reaches. -/
theorem findAll_within (h : ∀ b a rest, b <:+ u → b ≠ [] → read (b ++ w) = some (a, rest) →
    w.length ≤ rest.length) {skip : Nat} (hskip : skip ≤ u.length) :
    ∃ here, findAll read skip n (u ++ w) = here ++ findAll read 0 (n + u.length) w := by
  induction u generalizing skip n with
  | nil =>
    cases Nat.le_zero.mp hskip
    exact ⟨[], rfl⟩
  | cons c u ih =>
    have hu : ∀ b a rest, b <:+ u → b ≠ [] → read (b ++ w) = some (a, rest) →
        w.length ≤ rest.length := fun b a rest hb =>
      h b a rest (hb.trans (List.suffix_cons c u))
    have hend : n + 1 + u.length = n + (c :: u).length := by
      rw [List.length_cons]
      omega
    cases skip with
    | succ skip =>
      obtain ⟨here, hhere⟩ := ih (n := n + 1) hu (Nat.le_of_succ_le_succ hskip)
      exact ⟨here, by rw [← hend, ← hhere]; rfl⟩
    | zero =>
      cases hread : read (c :: (u ++ w)) with
      | none =>
        obtain ⟨here, hhere⟩ := ih (n := n + 1) hu (Nat.zero_le _)
        exact ⟨here, by rw [List.cons_append, findAll_none hread, hhere, hend]⟩
      | some found =>
        obtain ⟨a, rest⟩ := found
        have hle := h (c :: u) a rest (List.suffix_refl _) (List.cons_ne_nil c u) hread
        have hskip : (u ++ w).length - rest.length ≤ u.length := by
          rw [List.length_append]
          omega
        obtain ⟨here, hhere⟩ := ih (n := n + 1) hu hskip
        refine ⟨⟨n, n + ((c :: (u ++ w)).length - rest.length), a⟩ :: here, ?_⟩
        rw [List.cons_append, findAll, hread, List.cons_append, ← hend, ← hhere]

end FindAll

/-! ## 2. Where nothing begins -/

/-- A character that begins neither a reference nor a range: it is of no word and no apostrophe. -/
def Inert (c : Char) : Prop :=
  isWord c = false ∧ c ≠ '\x27'

theorem inert_of_blank {c : Char} (h : isBlank c = true) : Inert c := by
  refine ⟨isWord_of_isBlank h, fun heq => ?_⟩
  rw [heq] at h
  cases h

section Nothing

variable {c : Char} {cs : List Char}

theorem readCell?_none (hword : isWord c = false) : readCell? isCaseLetter (c :: cs) = none := by
  have hmark : readMark (c :: cs) = (false, c :: cs) := by
    unfold readMark
    split
    · next heq =>
      cases heq
      cases hword
    · rfl
  have hletter : Free isCaseLetter (c :: cs) := by
    refine (free_cons (p := isWord) hword).mono fun x hx => ?_
    exact isWord_of_isNameChar (isNameChar_of_isCaseLetter hx)
  unfold readCell?
  simp only [hmark, hletter.takeWhile]
  rw [if_pos (Or.inl trivial)]

theorem readPrefix?_none (h : Inert c) : readPrefix? isCaseLetter (c :: cs) = none := by
  have hname : Free (isNameChar isCaseLetter) (c :: cs) :=
    (free_cons (p := isWord) h.1).mono fun x hx => isWord_of_isNameChar hx
  unfold readPrefix?
  split
  · next heq =>
    cases heq
    exact absurd rfl h.2
  · rw [hname.takeWhile]

theorem withSheet?_none {α : Type} {read : List Char → Option (α × List Char)} (h : Inert c)
    (hread : read (c :: cs) = none) : withSheet? isCaseLetter read (c :: cs) = none := by
  rw [withSheet?, readPrefix?_none h, hread]
  rfl

theorem readMention?_none (h : Inert c) : readMention? isCaseLetter (c :: cs) = none := by
  have hcell : readFreeCell? isCaseLetter (c :: cs) = none := by
    rw [readFreeCell?, readCell?_none h.1]
    rfl
  rw [readMention?, withSheet?_none h hcell]
  rfl

theorem readCorners?_none (hword : isWord c = false) : readCorners? (c :: cs) = none := by
  rw [readCorners?, readCell?_none hword]
  rfl

theorem readRangeMention?_none (h : Inert c) : readRangeMention? (c :: cs) = none :=
  withSheet?_none h (readCorners?_none h.1)

/-- Nothing begins in a piece of inert characters. -/
theorem pass_inert {α : Type} {read : List Char → Option (α × List Char)} {u w : List Char}
    (hnone : ∀ {c : Char} {cs : List Char}, Inert c → read (c :: cs) = none)
    (hu : ∀ c ∈ u, Inert c) : ∀ b, b <:+ u → b ≠ [] → read (b ++ w) = none := by
  intro b hb hne
  obtain ⟨c, b, rfl⟩ := List.exists_cons_of_ne_nil hne
  exact hnone (hu c (hb.mem List.mem_cons_self))

end Nothing

/-! ## 3. Where no range begins -/

/-- No colon follows the word at the start of the text, blanks aside. -/
def NoColon (cs : List Char) : Prop :=
  Free (· == ':') ((cs.dropWhile isWord).dropWhile isBlank)

/-- Where an apostrophe is next and an exclamation mark follows it, no colon follows the word after
    them. -/
def QuoteClear (cs : List Char) : Prop :=
  ∀ name after, cs = name ++ '\x27' :: '!' :: after → '\x27' ∉ name → NoColon after

section Colons

variable {c : Char} {u w cs : List Char}

theorem noColon_cons_word (hc : isWord c = true) : NoColon (c :: cs) ↔ NoColon cs := by
  rw [NoColon, NoColon, List.dropWhile_cons, if_pos hc]

theorem noColon_cons_other (hword : isWord c = false) (hblank : isBlank c = false) (hc : c ≠ ':') :
    NoColon (c :: cs) := by
  rw [NoColon, (free_cons hword).dropWhile, (free_cons hblank).dropWhile]
  exact free_cons (beq_eq_false_iff_ne.mpr hc)

theorem noColon_of_blank (h : ∀ x ∈ cs, isBlank x = true) : NoColon cs := by
  have hword : Free isWord cs := fun x hx => isWord_of_isBlank (h x (List.mem_of_head? hx))
  have hall := dropWhile_run h (free_nil (p := isBlank))
  rw [List.append_nil] at hall
  rw [NoColon, hword.dropWhile, hall]
  exact free_nil

/-- A character other than a colon does not bring a colon nearer. -/
theorem NoColon.cons (hc : c ≠ ':') (h : NoColon cs) : NoColon (c :: cs) := by
  by_cases hword : isWord c = true
  · exact (noColon_cons_word hword).mpr h
  have hword := Bool.eq_false_iff.mpr hword
  by_cases hblank : isBlank c = true
  · rw [NoColon, (free_cons hword).dropWhile, List.dropWhile_cons, if_pos hblank]
    cases cs with
    | nil => exact free_nil
    | cons d ds =>
      by_cases hd : isWord d = true
      · -- the blank is followed by a word
        rw [(free_cons (isBlank_of_isWord hd)).dropWhile]
        refine free_cons (beq_eq_false_iff_ne.mpr fun heq => ?_)
        rw [heq] at hd
        cases hd
      · rwa [NoColon, (free_cons (Bool.eq_false_iff.mpr hd)).dropWhile] at h
  · exact noColon_cons_other hword (Bool.eq_false_iff.mpr hblank) hc

theorem NoColon.append (hu : ':' ∉ u) (h : NoColon w) : NoColon (u ++ w) := by
  induction u with
  | nil => exact h
  | cons c u ih =>
    have hc : c ≠ ':' := fun heq => hu (heq ▸ List.mem_cons_self)
    exact (ih fun hmem => hu (List.mem_cons_of_mem c hmem)).cons hc

/-- After a run of word characters the same colon is next. -/
theorem NoColon.of_append (hu : ∀ x ∈ u, isWord x = true) (h : NoColon (u ++ w)) : NoColon w := by
  induction u with
  | nil => exact h
  | cons c u ih =>
    obtain ⟨hc, hu⟩ := List.forall_mem_cons.mp hu
    exact ih hu ((noColon_cons_word hc).mp h)

theorem quoteClear_of_not_mem (h : '\x27' ∉ cs) : QuoteClear cs := by
  intro name after heq _
  exact absurd (by rw [heq]; simp) h

/-- A piece without apostrophes leaves the next apostrophe where it is. -/
theorem QuoteClear.append_free (hu : '\x27' ∉ u) (h : QuoteClear w) : QuoteClear (u ++ w) := by
  intro name after heq hname
  rcases List.append_eq_append_iff.mp heq with ⟨mid, rfl, hw⟩ | ⟨mid, hmid, hafter⟩
  · exact h mid after hw fun hmem => hname (List.mem_append_right u hmem)
  · cases mid with
    | nil => exact h [] after hafter.symm List.not_mem_nil
    | cons d ds =>
      have hd : '\x27' = d := (List.cons.inj hafter).1
      exact absurd (by rw [hmid, ← hd]; simp) hu

/-- A piece without colons keeps clear what is clear of a colon at the start as well. -/
theorem QuoteClear.append (hu : ':' ∉ u) (hcolon : NoColon w) (h : QuoteClear w) :
    QuoteClear (u ++ w) := by
  intro name after heq hname
  rcases List.append_eq_append_iff.mp heq with ⟨mid, rfl, hw⟩ | ⟨mid, rfl, hafter⟩
  · exact h mid after hw fun hmem => hname (List.mem_append_right u hmem)
  · have hmid : ':' ∉ mid := fun hmem => hu (List.mem_append_right name hmem)
    cases mid with
    | nil => exact h [] after hafter.symm List.not_mem_nil
    | cons d ds =>
      obtain ⟨-, hds⟩ := List.cons.inj hafter
      cases ds with
      | nil =>
        -- the exclamation mark is the first character after the piece
        have hmark : isWord '!' = true := rfl
        rw [← show '!' :: after = w from hds] at hcolon
        exact (noColon_cons_word hmark).mp hcolon
      | cons e es =>
        obtain ⟨-, rfl⟩ := List.cons.inj hds
        exact hcolon.append fun hmem => hmid (by simp [hmem])

/-- Two corners have a colon between them. -/
theorem readCorners?_noColon (h : NoColon cs) : readCorners? cs = none := by
  unfold readCorners?
  cases hread : readCell? isCaseLetter cs with
  | none => rfl
  | some found =>
    obtain ⟨first, rest⟩ := found
    have hword : ∀ x ∈ first.text, isWord x = true := fun x hx =>
      ((readCell?_sound hread).word x hx).1
    have hrest : NoColon rest := by
      rw [← readCell?_text hread] at h
      exact h.of_append hword
    simp only [Option.bind_eq_bind, Option.bind_some]
    split
    · next after hdrop =>
      have hfree : Free isWord rest := by
        intro x hx
        by_cases hblank : isBlank x = true
        · exact isWord_of_isBlank hblank
        · have hstay : Free isBlank rest := fun y hy => by
            rw [hx] at hy
            cases hy
            exact Bool.eq_false_iff.mpr hblank
          rw [hstay.dropWhile] at hdrop
          rw [hdrop] at hx
          cases hx
          rfl
      rw [NoColon, hfree.dropWhile, hdrop] at hrest
      cases hrest ':' rfl
    · rfl

/-- No range begins where no colon follows the word. -/
theorem readRangeMention?_noColon (hquote : c ≠ '\x27') (h : NoColon (c :: cs)) :
    readRangeMention? (c :: cs) = none := by
  rw [readRangeMention?, withSheet?, readCorners?_noColon h]
  cases hread : readPrefix? isCaseLetter (c :: cs) with
  | none => rfl
  | some found =>
    obtain ⟨p, after⟩ := found
    have htext : p.text ++ after = c :: cs := readPrefix?_text hread
    have hafter : NoColon after := by
      cases p with
      | absent => exact absurd rfl (readPrefix?_ne_absent hread)
      | quoted name => exact absurd (List.cons.inj htext).1.symm hquote
      | bare name =>
        rw [← htext] at h
        exact h.of_append ((readPrefix?_sound hread).word)
    show ((readCorners? after).map _).or _ = none
    rw [readCorners?_noColon hafter]
    rfl

/-- No range begins with a sheet between apostrophes where no colon follows the word after it. -/
theorem readRangeMention?_quoteClear (h : QuoteClear cs) :
    readRangeMention? ('\x27' :: cs) = none := by
  rw [readRangeMention?, withSheet?, readCorners?_none rfl]
  cases hread : readPrefix? isCaseLetter ('\x27' :: cs) with
  | none => rfl
  | some found =>
    obtain ⟨p, after⟩ := found
    have htext : p.text ++ after = '\x27' :: cs := readPrefix?_text hread
    have hsound : p.Sound isCaseLetter := readPrefix?_sound hread
    have hafter : NoColon after := by
      cases p with
      | absent => exact absurd rfl (readPrefix?_ne_absent hread)
      | quoted name =>
        refine h name after ?_ hsound.2
        rw [← (List.cons.inj htext).2]
        simp
      | bare name =>
        obtain ⟨x, xs, rfl⟩ := List.exists_cons_of_ne_nil hsound.1
        have hx := hsound.2 x List.mem_cons_self
        rw [(List.cons.inj htext).1] at hx
        cases hx
    show ((readCorners? after).map _).or _ = none
    rw [readCorners?_noColon hafter]
    rfl

/-- **No range begins in a piece without colons** before a text that no colon is near in. -/
theorem readRangeMention?_pass (hu : ':' ∉ u) (hcolon : NoColon w) (hquote : QuoteClear w) :
    ∀ b, b <:+ u → b ≠ [] → readRangeMention? (b ++ w) = none := by
  intro b hb hne
  obtain ⟨c, b, rfl⟩ := List.exists_cons_of_ne_nil hne
  have hfree : ':' ∉ c :: b := fun hmem => hu (hb.mem hmem)
  by_cases hc : c = '\x27'
  · rw [hc]
    exact readRangeMention?_quoteClear
      (hquote.append (fun hmem => hfree (List.mem_cons_of_mem c hmem)) hcolon)
  · exact readRangeMention?_noColon hc (hcolon.append hfree)

end Colons

/-! ## 4. Where no reference reaches -/

/-- **No reference reaches across the end of a word**, from a piece without apostrophes. -/
theorem readMention?_within {u w : List Char} (hu : '\x27' ∉ u) (hw : Free isWord w) :
    ∀ b s rest, b <:+ u → b ≠ [] → readMention? isCaseLetter (b ++ w) = some (s, rest) →
      w.length ≤ rest.length := by
  intro b s rest hb hne hread
  have htext : s.text ++ rest = b ++ w := readMention?_text hread
  have hsound : s.Sound isCaseLetter := readMention?_sound hread
  have hhead : s.text.head? ≠ some '\x27' := by
    intro hquote
    obtain ⟨c, b, rfl⟩ := List.exists_cons_of_ne_nil hne
    obtain ⟨x, xs, hx⟩ := List.exists_cons_of_ne_nil (readMention?_ne_nil hread)
    rw [hx] at htext hquote
    cases hquote
    have hc : '\x27' = c := (List.cons.inj htext).1
    exact hu (hb.mem (by rw [← hc]; exact List.mem_cons_self))
  rcases List.append_eq_append_iff.mp htext with ⟨mid, -, hrest⟩ | ⟨mid, hmid, hw'⟩
  · rw [hrest, List.length_append]
    omega
  · cases mid with
    | nil => exact Nat.le_of_eq (congrArg List.length hw')
    | cons x xs =>
      have hx : isWord x = true := hsound.word hhead x (by rw [hmid]; simp)
      rw [hw x (by rw [hw']; rfl)] at hx
      cases hx

end Appraisal.Formula
