import Appraisal.Function.Library
import Appraisal.Proofs.Checked
import Appraisal.Proofs.Formula.Grammar

/-!
# The parser accepts the grammar

Each part of the parser takes from the front of the tokens what a rule of the grammar derives, and
leaves the rest. One token is enough to tell the rules apart: an operand never begins with a mark or
a name, and what may follow a part is never what the part could go on with.

* `DerivesLeaf.read`, `DerivesArgument.read`, `DerivesArguments.read`, `DerivesInside.read`,
  `Derives.read` — **what is derived is read**, from left to right;
* `derivesLeaf_of_read`, …, `derives_of_read` — **what is read is derived**;
* `formula?_accepts` — **the parser accepts exactly the grammar**, which derives one tree at most,
  and all else is a text beyond the grammar.
-/

namespace Appraisal.Formula

open Appraisal.Text

/-! ## 1. What is derived is read -/

section Complete

variable {acceptsRanges : Bool} {ts : List Token}

/-- An operand does not begin with a mark or with a name. -/
theorem DerivesLeaf.exists_head {l : Leaf} (h : DerivesLeaf ts l) :
    ∃ t us, ts = t :: us ∧ t.kind ≠ .mark ∧ t.kind ≠ .name := by
  cases h with
  | numeral ht | text ht | yes ht | no ht | cell ht =>
    exact ⟨_, [], rfl, by rw [ht]; decide, by rw [ht]; decide⟩
  | plus | minus => exact ⟨_, _, rfl, by decide, by decide⟩

theorem DerivesLeaf.read {l : Leaf} (h : DerivesLeaf ts l) (rest : List Token) :
    leaf? (ts ++ rest) = .ok (l, rest) := by
  cases h with
  | numeral ht hn => simp [leaf?, ht, hn.eq]
  | plus ht hn => simp [leaf?, ht, hn.eq]
  | minus ht hn => simp [leaf?, ht, hn.eq]
  | text ht hcs => simp [leaf?, ht, hcs, unquoted_betweenQuotes]
  | yes ht htext => simp [leaf?, ht, htext]
  | no ht htext => simp [leaf?, ht, htext]
  | cell ht ha => simp [leaf?, ht, ha]

theorem ofCorners?_eq {a b : Address} (h : b.sheet = none ∨ b.sheet = a.sheet) :
    CellRange.ofCorners? a b = some ⟨a, { b with sheet := a.sheet }⟩ := by
  refine if_neg fun hother => ?_
  rcases h with h | h
  · exact hother.1 h
  · exact hother.2 h

/-- An argument is read where no colon follows. -/
theorem DerivesArgument.read {a : Argument} (h : DerivesArgument acceptsRanges ts a)
    {rest : List Token} (hrest : rest.head? ≠ some colon) :
    argument? acceptsRanges (ts ++ rest) = .ok (a, rest) := by
  cases h with
  | leaf hl =>
    rw [argument?, hl.read rest]
    cases rest with
    | nil => rfl
    | cons t more =>
      have ht : t ≠ colon := fun heq => hrest (congrArg some heq)
      exact if_neg ht
  | @range s t a b haccepts hs ha ht hb hsheet =>
    have hleaf : leaf? (s :: colon :: t :: rest) = .ok (.cell a, colon :: t :: rest) :=
      (DerivesLeaf.cell hs ha).read (colon :: t :: rest)
    have hend : rangeEnd? t = some b := by rw [rangeEnd?, if_pos ht, hb]
    show argument? acceptsRanges (s :: colon :: t :: rest) = _
    rw [argument?, hleaf, haccepts]
    show rangeTail? a (t :: rest) = _
    rw [rangeTail?, hend, Option.bind_some, ofCorners?_eq hsheet]

/-- A comma after an argument brings more of them. -/
theorem arguments?_comma {more : List Token} {a : Argument}
    (h : argument? acceptsRanges ts = .ok (a, comma :: more)) :
    arguments? acceptsRanges ts =
      (arguments? acceptsRanges more).map fun p => (a :: p.1, p.2) := by
  fun_cases arguments? acceptsRanges ts with
  | case1 e he => cases he.symm.trans h
  | case2 b hlast => cases hlast.symm.trans h
  | case3 b more' _ hmore =>
    cases hmore.symm.trans h
    rfl
  | case4 b t more' hother ht =>
    cases hother.symm.trans h
    exact absurd rfl ht

/-- Anything else after an argument ends them. -/
theorem arguments?_last {rest : List Token} {a : Argument}
    (h : argument? acceptsRanges ts = .ok (a, rest)) (hrest : rest.head? ≠ some comma) :
    arguments? acceptsRanges ts = .ok ([a], rest) := by
  fun_cases arguments? acceptsRanges ts with
  | case1 e he => cases he.symm.trans h
  | case2 b hlast =>
    cases hlast.symm.trans h
    rfl
  | case3 b more _ hmore =>
    cases hmore.symm.trans h
    exact absurd rfl hrest
  | case4 b t more hother ht =>
    cases hother.symm.trans h
    rfl

/-- Arguments are read where neither a colon nor a comma follows. -/
theorem DerivesArguments.read {as : List Argument} (h : DerivesArguments acceptsRanges ts as)
    {rest : List Token} (hcolon : rest.head? ≠ some colon) (hcomma : rest.head? ≠ some comma) :
    arguments? acceptsRanges (ts ++ rest) = .ok (as, rest) := by
  induction h with
  | one ha => exact arguments?_last (ha.read hcolon) hcomma
  | @more ts us a as ha has ih =>
    have hnext : (comma :: (us ++ rest)).head? ≠ some colon := fun heq => by cases heq
    rw [List.append_assoc, List.cons_append, arguments?_comma (ha.read hnext), ih]
    rfl

theorem DerivesArguments.exists_head {as : List Argument}
    (h : DerivesArguments acceptsRanges ts as) : ∃ t us, ts = t :: us ∧ t.kind ≠ .mark := by
  have hargument : ∀ {ts : List Token} {a : Argument}, DerivesArgument acceptsRanges ts a →
      ∃ t us, ts = t :: us ∧ t.kind ≠ .mark := by
    intro ts a ha
    cases ha with
    | leaf hl =>
      obtain ⟨t, us, hts, hmark, -⟩ := hl.exists_head
      exact ⟨t, us, hts, hmark⟩
    | range haccepts hs => exact ⟨_, _, rfl, by rw [hs]; decide⟩
  cases h with
  | one ha => exact hargument ha
  | more ha has =>
    obtain ⟨t, us, rfl, hmark⟩ := hargument ha
    exact ⟨t, _, rfl, hmark⟩

/-- What stands inside a call is read up to the parenthesis that closes it. -/
theorem DerivesInside.read {as : List Argument} (h : DerivesInside acceptsRanges ts as)
    (rest : List Token) :
    callArguments? acceptsRanges (ts ++ closing :: rest) = .ok (as, closing :: rest) := by
  cases h with
  | nothing => exact if_pos rfl
  | arguments h =>
    obtain ⟨t, us, hts, hmark⟩ := h.exists_head
    have hfirst : (ts ++ closing :: rest).head? ≠ some closing := by
      rw [hts]
      intro heq
      rw [Option.some.inj heq] at hmark
      exact hmark rfl
    rw [callArguments?, if_neg hfirst]
    exact h.read (fun heq => by cases heq) fun heq => by cases heq

variable {table : Signatures}

/-- What the grammar derives, the parser reads. -/
theorem Derives.read {tree : Tree} (h : Derives table ts tree) :
    formula? table ts = .ok tree := by
  -- an operand or an operation is told from a call by its first token
  have hoperation : ∀ {ts us : List Token} {l : Leaf} {tree : Tree}, DerivesLeaf ts l →
      operation? (ts ++ us) = .ok (tree, []) → formula? table (ts ++ us) = .ok tree := by
    intro ts us l tree hl hread
    obtain ⟨t, more, rfl, -, hname⟩ := hl.exists_head
    rw [List.cons_append] at hread ⊢
    simp only [formula?, if_neg hname, hread]
    rfl
  cases h with
  | @leaf ts l hl =>
    have hread : operation? (ts ++ []) = .ok (.leaf l, []) := by
      rw [operation?, hl.read []]
      rfl
    have hformula := hoperation hl hread
    rwa [List.append_nil] at hformula
  | @binary ts us l r op hl hr =>
    refine hoperation hl ?_
    have hright := hr.read []
    rw [List.append_nil] at hright
    rw [operation?, hl.read]
    simp only [bind, Except.bind, Operator.ofText?_symbol, hright]
  | @call name signature ts as hname hsignature has hcount =>
    have hcall : call? table (String.ofList (upper name.text)) (opening :: (ts ++ [closing])) =
        .ok (.call (String.ofList (upper name.text)) as, []) := by
      have hopening : expect ['('] (opening :: (ts ++ [closing])) = .ok (ts ++ [closing]) := rfl
      have hclosing : expect [')'] [closing] = .ok [] := rfl
      unfold call?
      rw [hsignature]
      simp only [hopening, has.read [], hclosing, bind, Except.bind, if_pos hcount]
    simp only [formula?, if_pos hname, hcall]
    rfl

end Complete

/-! ## 2. What is read is derived -/

section Sound

variable {acceptsRanges : Bool} {ts rest : List Token}

theorem exists_of_rangeEnd? {t : Token} {a : Address} (h : rangeEnd? t = some a) :
    t.kind = .reference ∧ Address.read? (String.ofList t.text) = some a := by
  unfold rangeEnd? at h
  split at h
  · next hkind => exact ⟨hkind, h⟩
  · cases h

theorem derivesLeaf_of_read {l : Leaf} (hts : ∀ t ∈ ts, t.Read) (h : leaf? ts = .ok (l, rest)) :
    ∃ us, ts = us ++ rest ∧ DerivesLeaf us l := by
  rcases leaf?_cases h with ⟨sign, n, rfl, hkind, hsign, hnumeral, rfl⟩ | ⟨t, rfl, hkind, rfl⟩ |
    ⟨t, rfl, hkind, rfl⟩ | ⟨t, rfl, hkind, rfl⟩ | ⟨t, a, rfl, ha, rfl⟩
  · have hn : n.Read := hts n (List.mem_cons_of_mem sign List.mem_cons_self)
    have hvalue := hn.numeral hnumeral
    obtain ⟨kind, text⟩ := sign
    cases hkind
    refine ⟨[⟨.operator, text⟩, n], rfl, ?_⟩
    rcases hsign with rfl | rfl
    · exact .plus hnumeral hvalue
    · exact .minus hnumeral hvalue
  · have ht : t.Read := hts t List.mem_cons_self
    exact ⟨[t], rfl, .numeral hkind (ht.numeral hkind)⟩
  · have ht : t.Read := hts t List.mem_cons_self
    obtain ⟨cs, hcs⟩ := ht.exists_betweenQuotes hkind
    rw [hcs, unquoted_betweenQuotes]
    exact ⟨[t], rfl, .text hkind hcs⟩
  · have ht : t.Read := hts t List.mem_cons_self
    refine ⟨[t], rfl, ?_⟩
    rcases ht.truth hkind with htrue | hfalse
    · rw [htrue]
      exact .yes hkind htrue
    · rw [hfalse]
      exact .no hkind hfalse
  · obtain ⟨hkind, hread⟩ := exists_of_rangeEnd? ha
    exact ⟨[t], rfl, .cell hkind hread⟩

/-- The corners of a range are on one sheet. -/
theorem exists_of_ofCorners? {a b : Address} {r : CellRange}
    (h : CellRange.ofCorners? a b = some r) :
    (b.sheet = none ∨ b.sheet = a.sheet) ∧ r = ⟨a, { b with sheet := a.sheet }⟩ := by
  unfold CellRange.ofCorners? at h
  split at h
  · cases h
  · next hsheet =>
    cases h
    exact ⟨by tauto, rfl⟩

theorem derivesArgument_of_read {a : Argument} (hts : ∀ t ∈ ts, t.Read)
    (h : argument? acceptsRanges ts = .ok (a, rest)) :
    ∃ us, ts = us ++ rest ∧ DerivesArgument acceptsRanges us a := by
  rcases argument?_cases h with ⟨l, hleaf, rfl⟩ | ⟨first, last, r, rfl, hleaf, hr, rfl⟩
  · obtain ⟨us, hus, hl⟩ := derivesLeaf_of_read hts hleaf
    exact ⟨us, hus, .leaf hl⟩
  · obtain ⟨t, rfl, ht⟩ := leaf?_cell hleaf
    obtain ⟨hfirst, hfirstRead⟩ := exists_of_rangeEnd? ht
    obtain ⟨b, hb, hcorners⟩ := Option.bind_eq_some_iff.mp hr
    obtain ⟨hlast, hlastRead⟩ := exists_of_rangeEnd? hb
    obtain ⟨hsheet, rfl⟩ := exists_of_ofCorners? hcorners
    exact ⟨[t, colon, last], rfl, .range rfl hfirst hfirstRead hlast hlastRead hsheet⟩

theorem derivesArguments_of_read {as : List Argument} (hts : ∀ t ∈ ts, t.Read)
    (h : arguments? acceptsRanges ts = .ok (as, rest)) :
    ∃ us, ts = us ++ rest ∧ DerivesArguments acceptsRanges us as := by
  fun_induction arguments? acceptsRanges ts generalizing as with
  | case1 => cases h
  | case2 ts a harg =>
    cases h
    obtain ⟨us, hus, ha⟩ := derivesArgument_of_read hts harg
    exact ⟨us, hus, .one ha⟩
  | case3 ts a more _ harg ih =>
    obtain ⟨⟨bs, rest'⟩, hmore, heq⟩ := exists_of_map_ok h
    cases heq
    obtain ⟨us, rfl, ha⟩ := derivesArgument_of_read hts harg
    obtain ⟨vs, rfl, hbs⟩ := ih (fun t ht => hts t (by simp [ht])) hmore
    exact ⟨us ++ comma :: vs, by simp, .more ha hbs⟩
  | case4 ts a t more harg hcomma =>
    cases h
    obtain ⟨us, hus, ha⟩ := derivesArgument_of_read hts harg
    exact ⟨us, hus, .one ha⟩

theorem derivesInside_of_read {as : List Argument} (hts : ∀ t ∈ ts, t.Read)
    (h : callArguments? acceptsRanges ts = .ok (as, rest)) :
    ∃ us, ts = us ++ rest ∧ DerivesInside acceptsRanges us as := by
  unfold callArguments? at h
  split at h
  · cases h
    exact ⟨[], rfl, .nothing⟩
  · obtain ⟨us, hus, has⟩ := derivesArguments_of_read hts h
    exact ⟨us, hus, .arguments has⟩

variable {table : Signatures} {tree : Tree}

theorem derives_of_call {name : Token} (hname : name.kind = .name)
    (hts : ∀ t ∈ ts, t.Read)
    (h : call? table (String.ofList (upper name.text)) ts = .ok (tree, rest)) :
    ∃ us, name :: ts = us ++ rest ∧ Derives table us tree := by
  obtain ⟨signature, o, c, inside, args, hsignature, rfl, ho, hargs, hc, hcount, rfl⟩ :=
    call?_cases h
  obtain ⟨hopen, hinside⟩ := List.forall_mem_cons.mp hts
  obtain ⟨us, rfl, has⟩ := derivesInside_of_read hinside hargs
  have hclose : c.Read := hinside c (List.mem_append_right us List.mem_cons_self)
  obtain rfl := hopen.eq_mark ho rfl
  obtain rfl := hclose.eq_mark hc rfl
  refine ⟨name :: opening :: (us ++ [closing]), ?_, .call hname hsignature has hcount⟩
  simp [opening, closing]

theorem derives_of_operation (hts : ∀ t ∈ ts, t.Read) (h : operation? ts = .ok (tree, rest)) :
    ∃ us, ts = us ++ rest ∧ Derives table us tree := by
  rcases operation?_cases h with ⟨l, hleaf, rfl⟩ |
    ⟨left, right, t, op, more, hleft, hkind, hop, hright, rfl⟩
  · obtain ⟨us, hus, hl⟩ := derivesLeaf_of_read hts hleaf
    exact ⟨us, hus, .leaf hl⟩
  · obtain ⟨us, rfl, hl⟩ := derivesLeaf_of_read hts hleft
    obtain ⟨ht, hmore⟩ := List.forall_mem_cons.mp fun u hu => hts u (List.mem_append_right us hu)
    obtain ⟨vs, rfl, hr⟩ := derivesLeaf_of_read hmore hright
    obtain ⟨op', rfl⟩ := ht.exists_operator hkind
    cases hop.symm.trans (Operator.ofText?_symbol op')
    exact ⟨us ++ ⟨.operator, [op.symbol]⟩ :: vs, by simp, .binary op hl hr⟩

/-- What the parser reads, the grammar derives. -/
theorem derives_of_read (hts : ∀ t ∈ ts, t.Read) (h : formula? table ts = .ok tree) :
    Derives table ts tree := by
  have hread : ∃ us, ts = us ++ [] ∧ Derives table us tree := by
    rcases formula?_cases h with ⟨name, more, rfl, hname, hcall⟩ | hoperation
    · exact derives_of_call hname (fun t ht => hts t (List.mem_cons_of_mem name ht)) hcall
    · exact derives_of_operation hts hoperation
  obtain ⟨us, rfl, hus⟩ := hread
  rwa [List.append_nil]

end Sound

/-! ## 3. Acceptance -/

section Accepts

variable {table : Signatures} {text : String} {ts : List Token}

theorem Tree.ofText_of_ok {tree : Tree} (htext : tokens (body text.toList) = .ok ts)
    (h : formula? table ts = .ok tree) : Tree.ofText table text = tree := by
  have hparsed : (tokens (body text.toList)).bind (formula? table) = .ok tree := by
    rw [htext]
    exact h
  rw [Tree.ofText, hparsed]

theorem Tree.ofText_of_error {fault : SyntaxFault} (htext : tokens (body text.toList) = .ok ts)
    (h : formula? table ts = .error fault) :
    Tree.ofText table text = .unsupported text fault := by
  have hparsed : (tokens (body text.toList)).bind (formula? table) = .error fault := by
    rw [htext]
    exact h
  rw [Tree.ofText, hparsed]

/-- **The parser accepts exactly the grammar.** On any pieces, over any table, it gives a tree if
    and only if the pieces as a whole derive the tree, and then gives it for every text that they
    are the tokens of. The tree is the only one that they derive. Pieces that derive none have a
    fault, and make of their text one beyond the grammar. -/
theorem formula?_accepts (table : Signatures) (hts : ∀ t ∈ ts, t.Read) :
    (∀ tree, formula? table ts = .ok tree ↔ Derives table ts tree) ∧
      (∀ tree, Derives table ts tree → ∀ text, tokens (body text.toList) = .ok ts →
        Tree.ofText table text = tree) ∧
      (∀ tree tree', Derives table ts tree → Derives table ts tree' → tree = tree') ∧
      ((∀ tree, ¬Derives table ts tree) → ∃ fault, formula? table ts = .error fault ∧
        ∀ text, tokens (body text.toList) = .ok ts →
          Tree.ofText table text = .unsupported text fault) := by
  refine ⟨fun tree => ⟨derives_of_read hts, Derives.read⟩, ?_, ?_, fun hnone => ?_⟩
  · intro tree h text htext
    exact Tree.ofText_of_ok htext h.read
  · intro tree tree' h h'
    exact Except.ok.inj (h.read.symm.trans h'.read)
  · cases hread : formula? table ts with
    | ok tree => exact absurd (derives_of_read hts hread) (hnone tree)
    | error fault => exact ⟨fault, rfl, fun text htext => Tree.ofText_of_error htext hread⟩

/-- The pieces of a call on a range and a number with a sign. -/
def callPieces : List Token :=
  [⟨.name, "sum".toList⟩, opening, ⟨.reference, "A1".toList⟩, colon, ⟨.reference, "$B2".toList⟩,
    comma, ⟨.operator, ['-']⟩, ⟨.numeral, ['3']⟩, closing]

theorem formula?_accepts_call :
    (∀ t ∈ callPieces, t.Read) ∧
      Derives Function.Library.standard.signatures callPieces
        (.call "SUM" [.range ⟨⟨none, 1, 1, false, false⟩, ⟨none, 2, 2, true, false⟩⟩,
          .leaf (.literal (.number (.whole (-3))))]) := by
  have htext : tokens "sum(A1:$B2,-3)".toList = .ok callPieces := by
    decide +kernel
  have hread : ∀ t ∈ callPieces, t.Read := tokens_read htext
  exact ⟨hread, ((formula?_accepts _ hread).1 _).mp (by decide +kernel)⟩

end Accepts

end Appraisal.Formula
