import Appraisal.Formula.Parser
import Appraisal.Proofs.Checked
import Mathlib.Data.List.Chain

/-!
# The phrases of a formula

Where formulas do not nest, their tokens come in phrases: a range is one phrase of three tokens, and
every other token is a phrase by itself. What the parser makes of the tokens can be told from the
phrases alone.

* `Phrase` — one token, or two references about a colon; `phrases` — the phrases of tokens;
* `Phrased` — phrases that make up a part of a formula, and the keys that the part reads;
* `call?_cases`, `operation?_cases`, `formula?_cases` — what is read consists of these parts;
* `leaf?_phrased`, `argument?_phrased`, `call?_phrased`, `operation?_phrased` — each reader of the
  grammar takes phrases, and its part reads their keys;
* `formula?_phrases` — **a formula reads exactly what its phrases name, and a mark stands between
  any two operands**.
-/

namespace Appraisal.Formula

open Appraisal.Text

/-! ## 1. Phrases -/

/-- A part of a formula's tokens. -/
inductive Phrase where
  /-- One token. -/
  | one (t : Token)
  /-- Two references about a colon. -/
  | span (first last : Token)
deriving DecidableEq

/-- The range between two tokens that are references. -/
def corners? (first last : Token) : Option CellRange :=
  (rangeEnd? first).bind fun a => (rangeEnd? last).bind (CellRange.ofCorners? a)

/-- An operator, a parenthesis, a comma or a colon. -/
def isMarkText : List Char → Bool
  | [c] => isOperatorChar c || isMarkChar c
  | _ => false

namespace Phrase

/-- The tokens of the phrase. -/
def tokens : Phrase → List Token
  | one t => [t]
  | span first last => [first, colon, last]

/-- Whether the phrase is an operator or a mark. -/
def isMark : Phrase → Bool
  | one t => isMarkText t.text
  | span _ _ => false

/-- Whether the phrase is a function's name. -/
def isName : Phrase → Bool
  | one t => t.kind = .name
  | span _ _ => false

/-- Whether the phrase is an opening parenthesis. -/
def isOpening : Phrase → Bool
  | one t => t.text = ['(']
  | span _ _ => false

/-- The keys of the cells that the phrase names, seen from a sheet. -/
def keys (sheet : String) : Phrase → List String
  | one t => ((rangeEnd? t).map (·.key sheet)).toList
  | span first last =>
    ((corners? first last).map fun r => r.addresses.map (·.key sheet)).getD []

/-- A colon is no phrase by itself, and a span has a range. -/
def WellFormed : Phrase → Prop
  | one t => t ≠ colon
  | span first last => (corners? first last).isSome

/-- Which phrases may follow one another: one of them is a mark, and an opening parenthesis follows
    a name or a mark. -/
def Follows (p q : Phrase) : Prop :=
  p.isMark = true ∨ (q.isMark = true ∧ (q.isOpening = true → p.isName = true))

end Phrase

/-- The phrases of tokens: a colon makes one phrase of the tokens about it. -/
def phrases : List Token → List Phrase
  | first :: t :: last :: ts =>
    if t = colon then .span first last :: phrases ts else .one first :: phrases (t :: last :: ts)
  | t :: ts => .one t :: phrases ts
  | [] => []

theorem rangeEnd?_colon : rangeEnd? colon = none := rfl

/-- A well-formed phrase does not begin with a colon. -/
theorem Phrase.WellFormed.ne_colon {p : Phrase} (h : p.WellFormed) {ts rest : List Token}
    {t : Token} (hts : p.tokens ++ rest = t :: ts) : t ≠ colon := by
  cases p with
  | one u =>
    cases hts
    exact h
  | span first last =>
    cases hts
    intro hcolon
    have hnone : corners? t last = none := by
      rw [corners?, hcolon, rangeEnd?_colon]
      rfl
    rw [WellFormed, hnone] at h
    cases h

/-- **The phrases of the tokens of phrases are those phrases.** -/
theorem phrases_flatMap {ps : List Phrase} (h : ∀ p ∈ ps, p.WellFormed) :
    phrases (ps.flatMap Phrase.tokens) = ps := by
  induction ps with
  | nil => rfl
  | cons p ps ih =>
    obtain ⟨hp, hps⟩ := List.forall_mem_cons.mp h
    have ih := ih hps
    rw [List.flatMap_cons]
    cases p with
    | span first last =>
      show phrases (first :: colon :: last :: ps.flatMap Phrase.tokens) = _
      rw [phrases, if_pos rfl, ih]
    | one t =>
      show phrases (t :: ps.flatMap Phrase.tokens) = _
      cases ps with
      | nil => rfl
      | cons q qs =>
        have hq := (List.forall_mem_cons.mp hps).1
        rw [List.flatMap_cons] at ih ⊢
        cases htokens : q.tokens ++ qs.flatMap Phrase.tokens with
        | nil =>
          rw [htokens] at ih
          cases ih
        | cons u us =>
          have hu := hq.ne_colon htokens
          rw [htokens] at ih
          cases us with
          | nil => rw [phrases, ih]; simp
          | cons v vs => rw [phrases, if_neg hu, ih]

/-! ## 2. Parts of a formula -/

section Parts

variable {sheet : String}

/-- The phrases make up a part of a formula that reads the keys. -/
structure Phrased (sheet : String) (ps : List Phrase) (keys : List String) : Prop where
  chain : ps.IsChain Phrase.Follows
  wellFormed : ∀ p ∈ ps, p.WellFormed
  keys : ps.flatMap (Phrase.keys sheet) = keys

theorem Phrased.nil : Phrased sheet [] [] :=
  ⟨.nil, fun _ h => absurd h List.not_mem_nil, rfl⟩

theorem exists_of_isMarkText {cs : List Char} (h : isMarkText cs = true) :
    ∃ c, cs = [c] ∧ (isOperatorChar c || isMarkChar c) = true := by
  unfold isMarkText at h
  split at h
  · next c => exact ⟨c, rfl, h⟩
  · cases h

/-- A mark names no cell. -/
theorem Phrase.keys_of_isMark {p : Phrase} (h : p.isMark = true) : p.keys sheet = [] := by
  have hnone : ∀ c, (isOperatorChar c || isMarkChar c) = true →
      Address.read? (String.ofList [c]) = none := by
    intro c hc
    simp only [isOperatorChar, isMarkChar, Bool.or_eq_true, beq_iff_eq] at hc
    rcases hc with (((rfl | rfl) | rfl) | rfl) | (((rfl | rfl) | rfl) | rfl) <;> rfl
  cases p with
  | span first last => cases h
  | one t =>
    obtain ⟨c, htext, hc⟩ := exists_of_isMarkText h
    have hend : rangeEnd? t = none := by
      rw [rangeEnd?, htext, hnone c hc, ite_self]
    rw [Phrase.keys, hend]
    rfl

/-- A mark in front of a part reads no more. -/
theorem Phrased.mark {m : Phrase} {ps : List Phrase} {keys : List String} (hm : m.isMark = true)
    (hwell : m.WellFormed) (h : Phrased sheet ps keys) : Phrased sheet (m :: ps) keys where
  chain := List.isChain_cons.mpr ⟨fun _ _ => Or.inl hm, h.chain⟩
  wellFormed := List.forall_mem_cons.mpr ⟨hwell, h.wellFormed⟩
  keys := by rw [List.flatMap_cons, Phrase.keys_of_isMark hm, List.nil_append, h.keys]

/-- Two parts with a mark between them, other than an opening parenthesis. -/
theorem Phrased.join {m : Phrase} {ps qs : List Phrase} {left right : List String}
    (hps : Phrased sheet ps left) (hm : m.isMark = true) (hopening : m.isOpening = false)
    (hwell : m.WellFormed) (hqs : Phrased sheet qs right) :
    Phrased sheet (ps ++ m :: qs) (left ++ right) := by
  have htail := hqs.mark hm hwell
  refine ⟨List.isChain_append.mpr ⟨hps.chain, htail.chain, fun p _ q hq => ?_⟩,
    fun p hp => ?_, ?_⟩
  · cases hq
    exact Or.inr ⟨hm, fun h => by rw [hopening] at h; cases h⟩
  · exact (List.mem_append.mp hp).elim (hps.wellFormed p) (htail.wellFormed p)
  · rw [List.flatMap_append, hps.keys, htail.keys]

theorem Phrased.one (sheet : String) {t : Token} (h : t ≠ colon) :
    Phrased sheet [.one t] ((Phrase.one t).keys sheet) :=
  ⟨.singleton _, fun p hp => by rw [List.mem_singleton.mp hp]; exact h, by simp⟩

theorem Phrased.span {first last : Token} {r : CellRange} (h : corners? first last = some r) :
    Phrased sheet [.span first last] (r.addresses.map (·.key sheet)) := by
  refine ⟨.singleton _, fun p hp => ?_, ?_⟩
  · rw [List.mem_singleton.mp hp, Phrase.WellFormed, h]
    rfl
  · rw [List.flatMap_singleton, Phrase.keys, h]
    rfl

end Parts

/-! ## 3. What the parser takes -/

section Parser

variable {ts rest : List Token} (sheet : String)

theorem ne_colon_of_kind {t : Token} (h : t.kind ≠ .mark) : t ≠ colon := by
  intro heq
  rw [heq] at h
  exact h rfl

theorem leaf?_phrased {l : Leaf} (h : leaf? ts = .ok (l, rest)) :
    ∃ ps, ts = ps.flatMap Phrase.tokens ++ rest ∧ Phrased sheet ps (l.keys sheet) := by
  have hliteral : ∀ {t : Token}, t.kind ≠ .mark → t.kind ≠ .reference →
      Phrased sheet [.one t] [] := by
    intro t hmark hreference
    have hone := Phrased.one sheet (ne_colon_of_kind hmark)
    rwa [Phrase.keys, rangeEnd?, if_neg hreference] at hone
  rcases leaf?_cases h with ⟨sign, n, rfl, hkind, hsign, hnumeral, rfl⟩ | ⟨t, rfl, hkind, rfl⟩ |
    ⟨t, rfl, hkind, rfl⟩ | ⟨t, rfl, hkind, rfl⟩ | ⟨t, a, rfl, ha, rfl⟩
  · have hmark : isMarkText sign.text = true := by
      rcases hsign with hplus | hminus
      · rw [hplus]
        rfl
      · rw [hminus]
        rfl
    have hn : Phrased sheet [.one n] [] := hliteral (by simp [hnumeral]) (by simp [hnumeral])
    exact ⟨[.one sign, .one n], rfl, hn.mark hmark (ne_colon_of_kind (by simp [hkind]))⟩
  · exact ⟨[.one t], rfl, hliteral (by simp [hkind]) (by simp [hkind])⟩
  · exact ⟨[.one t], rfl, hliteral (by simp [hkind]) (by simp [hkind])⟩
  · exact ⟨[.one t], rfl, hliteral (by simp [hkind]) (by simp [hkind])⟩
  · have hcolon : t ≠ colon := by
      rintro rfl
      cases ha
    have hone := Phrased.one sheet hcolon
    rw [Phrase.keys, ha] at hone
    exact ⟨[.one t], rfl, hone⟩

/-- An operand that is a cell is one token, a reference to the cell. -/
theorem leaf?_cell {a : Address} (h : leaf? ts = .ok (.cell a, rest)) :
    ∃ t, ts = t :: rest ∧ rangeEnd? t = some a := by
  rcases leaf?_cases h with ⟨_, _, _, _, _, _, hliteral⟩ | ⟨_, _, _, hliteral⟩ |
    ⟨_, _, _, hliteral⟩ | ⟨_, _, _, hliteral⟩ | ⟨t, b, hts, hb, hcell⟩
  · cases hliteral
  · cases hliteral
  · cases hliteral
  · cases hliteral
  · cases hcell
    exact ⟨t, hts, hb⟩

theorem argument?_phrased {acceptsRanges : Bool} {a : Argument}
    (h : argument? acceptsRanges ts = .ok (a, rest)) :
    ∃ ps, ts = ps.flatMap Phrase.tokens ++ rest ∧ Phrased sheet ps (a.keys sheet) := by
  rcases argument?_cases h with ⟨l, hleaf, rfl⟩ | ⟨first, last, r, -, hleaf, hr, rfl⟩
  · exact leaf?_phrased sheet hleaf
  · obtain ⟨t, rfl, hfirst⟩ := leaf?_cell hleaf
    have hcorners : corners? t last = some r := by
      rw [corners?, hfirst]
      exact hr
    exact ⟨[.span t last], rfl, Phrased.span hcorners⟩

theorem arguments?_phrased {acceptsRanges : Bool} {args : List Argument}
    (h : arguments? acceptsRanges ts = .ok (args, rest)) :
    ∃ ps, ts = ps.flatMap Phrase.tokens ++ rest ∧
      Phrased sheet ps (args.flatMap (·.keys sheet)) := by
  fun_induction arguments? acceptsRanges ts generalizing args with
  | case1 => cases h
  | case2 ts a harg =>
    cases h
    obtain ⟨ps, hts, hps⟩ := argument?_phrased sheet harg
    refine ⟨ps, hts, ?_⟩
    rwa [List.flatMap_singleton]
  | case3 ts a more _ harg ih =>
    cases hmore : arguments? acceptsRanges more with
    | error fault =>
      rw [hmore] at h
      cases h
    | ok found =>
      rw [hmore] at h
      cases h
      obtain ⟨ps, hts, hps⟩ := argument?_phrased sheet harg
      obtain ⟨qs, hqs, hread⟩ := ih hmore
      refine ⟨ps ++ .one comma :: qs, ?_, hps.join rfl rfl (show comma ≠ colon by decide) hread⟩
      rw [hts, hqs]
      simp [Phrase.tokens]
  | case4 ts a t more harg hcomma =>
    cases h
    obtain ⟨ps, hts, hps⟩ := argument?_phrased sheet harg
    refine ⟨ps, hts, ?_⟩
    rwa [List.flatMap_singleton]

theorem expect_eq_ok {wanted : List Char} (h : expect wanted ts = .ok rest) :
    ∃ t, ts = t :: rest ∧ t.text = wanted := by
  cases ts with
  | nil => cases h
  | cons t ts =>
    rw [expect] at h
    by_cases htext : t.text = wanted
    · rw [if_pos htext] at h
      cases h
      exact ⟨t, rfl, htext⟩
    · rw [if_neg htext] at h
      cases h

theorem callArguments?_phrased {acceptsRanges : Bool} {args : List Argument}
    (h : callArguments? acceptsRanges ts = .ok (args, rest)) :
    ∃ ps, ts = ps.flatMap Phrase.tokens ++ rest ∧
      Phrased sheet ps (args.flatMap (·.keys sheet)) := by
  unfold callArguments? at h
  split at h
  · cases h
    exact ⟨[], rfl, .nil⟩
  · exact arguments?_phrased sheet h

/-- A call is a name of the table, and parentheses with as many arguments as it takes. -/
theorem call?_cases {table : Signatures} {name : String} {tree : Tree}
    (h : call? table name ts = .ok (tree, rest)) :
    ∃ signature opening closing inside args, table.get? name = some signature ∧
      ts = opening :: inside ∧ opening.text = ['('] ∧
      callArguments? signature.acceptsRanges inside = .ok (args, closing :: rest) ∧
      closing.text = [')'] ∧ (signature.least ≤ args.length ∧ args.length ≤ signature.most) ∧
      tree = .call name args := by
  unfold call? at h
  split at h
  · cases h
  · next signature hsignature =>
    obtain ⟨inside, hopen, hinside⟩ := exists_of_bind_ok h
    obtain ⟨⟨args, last⟩, hargs, hlast⟩ := exists_of_bind_ok hinside
    obtain ⟨after, hclose, hafter⟩ := exists_of_bind_ok hlast
    obtain ⟨o, rfl, ho⟩ := expect_eq_ok hopen
    obtain ⟨c, rfl, hc⟩ := expect_eq_ok hclose
    split at hafter
    · next hcount =>
      cases hafter
      exact ⟨signature, o, c, inside, args, hsignature, rfl, ho, hargs, hc, hcount, rfl⟩
    · cases hafter

/-- An operation is one operand, or two with an operator between them. -/
theorem operation?_cases {tree : Tree} (h : operation? ts = .ok (tree, rest)) :
    (∃ l, leaf? ts = .ok (l, rest) ∧ tree = .leaf l) ∨
    ∃ left right t op more, leaf? ts = .ok (left, t :: more) ∧ t.kind = .operator ∧
      Operator.ofText? t.text = some op ∧ leaf? more = .ok (right, rest) ∧
      tree = .binary op left right := by
  unfold operation? at h
  obtain ⟨⟨left, after⟩, hleft, hrest⟩ := exists_of_bind_ok h
  cases after with
  | nil =>
    cases hrest
    exact Or.inl ⟨left, hleft, rfl⟩
  | cons t more =>
    simp only at hrest
    split at hrest
    · next op hkind hop =>
      obtain ⟨⟨right, after⟩, hright, hbinary⟩ := exists_of_bind_ok hrest
      cases hbinary
      exact Or.inr ⟨left, right, t, op, more, hleft, hkind, hop, hright, rfl⟩
    · cases hrest
      exact Or.inl ⟨left, hleft, rfl⟩

/-- A formula is a call, if it begins with a name, or else an operation; and nothing follows. -/
theorem formula?_cases {table : Signatures} {tree : Tree} (h : formula? table ts = .ok tree) :
    (∃ name more, ts = name :: more ∧ name.kind = .name ∧
      call? table (String.ofList (upper name.text)) more = .ok (tree, [])) ∨
    operation? ts = .ok (tree, []) := by
  cases ts with
  | nil => cases h
  | cons t more =>
    by_cases hname : t.kind = .name
    · simp only [formula?, if_pos hname] at h
      obtain ⟨⟨found, rest⟩, hcall, hend⟩ := exists_of_bind_ok h
      cases rest with
      | nil =>
        cases hend
        exact Or.inl ⟨t, more, rfl, hname, hcall⟩
      | cons u us => cases hend
    · simp only [formula?, if_neg hname] at h
      obtain ⟨⟨found, rest⟩, hoperation, hend⟩ := exists_of_bind_ok h
      cases rest with
      | nil =>
        cases hend
        exact Or.inr hoperation
      | cons u us => cases hend

theorem call?_phrased {table : Signatures} {name : Token} {tree : Tree} (hname : name.kind = .name)
    (h : call? table (String.ofList (upper name.text)) ts = .ok (tree, rest)) :
    ∃ ps, name :: ts = ps.flatMap Phrase.tokens ++ rest ∧ Phrased sheet ps (tree.keys sheet) := by
  obtain ⟨signature, o, c, inside, args, -, rfl, ho, hargs, hc, -, rfl⟩ := call?_cases h
  obtain ⟨ps, rfl, hps⟩ := callArguments?_phrased sheet hargs
  have hcolon : ∀ {t : Token} {d : Char}, t.text = [d] → d ≠ ':' → t ≠ colon := by
    rintro t d htext hd rfl
    exact hd (List.cons.inj htext).1.symm
  have hinside := hps.join (m := .one c) (by rw [Phrase.isMark, hc]; rfl)
    (by rw [Phrase.isOpening, hc]; rfl) (hcolon hc (by decide)) .nil
  have hmarked := hinside.mark (m := .one o) (by rw [Phrase.isMark, ho]; rfl)
    (hcolon ho (by decide))
  rw [List.append_nil] at hmarked
  have hnamed : (Phrase.one name).isName = true := decide_eq_true hname
  have hread : rangeEnd? name = none := by
    rw [rangeEnd?, hname]
    rfl
  refine ⟨.one name :: .one o :: (ps ++ [.one c]), by simp [Phrase.tokens], ?_⟩
  refine ⟨List.isChain_cons_cons.mpr ⟨?_, hmarked.chain⟩, ?_, ?_⟩
  · exact Or.inr ⟨by rw [Phrase.isMark, ho]; rfl, fun _ => hnamed⟩
  · refine List.forall_mem_cons.mpr ⟨?_, hmarked.wellFormed⟩
    rintro rfl
    cases hname
  · rw [List.flatMap_cons, hmarked.keys, Phrase.keys, hread]
    rfl

theorem operation?_phrased {tree : Tree} (h : operation? ts = .ok (tree, rest)) :
    ∃ ps, ts = ps.flatMap Phrase.tokens ++ rest ∧ Phrased sheet ps (tree.keys sheet) := by
  rcases operation?_cases h with ⟨l, hleaf, rfl⟩ |
    ⟨left, right, t, op, more, hleft, hkind, hop, hright, rfl⟩
  · exact leaf?_phrased sheet hleaf
  · obtain ⟨ps, rfl, hps⟩ := leaf?_phrased sheet hleft
    obtain ⟨qs, rfl, hqs⟩ := leaf?_phrased sheet hright
    have htext : isMarkText t.text = true ∧ t.text ≠ ['('] := by
      unfold Operator.ofText? at hop
      split at hop <;> simp_all [isMarkText, isOperatorChar]
    have hcolon : t ≠ colon := by
      rintro rfl
      cases hkind
    refine ⟨ps ++ .one t :: qs, by simp [Phrase.tokens], ?_⟩
    exact hps.join htext.1 (decide_eq_false htext.2) hcolon hqs

/-- **A formula reads exactly what its phrases name**, and of two phrases in a row one is a mark. -/
theorem formula?_phrases {table : Signatures} {tree : Tree} (h : formula? table ts = .ok tree) :
    ts = (phrases ts).flatMap Phrase.tokens ∧ Phrased sheet (phrases ts) (tree.keys sheet) := by
  have hread : ∃ ps, ts = ps.flatMap Phrase.tokens ++ [] ∧ Phrased sheet ps (tree.keys sheet) := by
    rcases formula?_cases h with ⟨name, more, rfl, hname, hcall⟩ | hoperation
    · exact call?_phrased sheet hname hcall
    · exact operation?_phrased sheet hoperation
  obtain ⟨ps, rfl, hps⟩ := hread
  rw [List.append_nil, phrases_flatMap hps.wellFormed]
  exact ⟨rfl, hps⟩

end Parser

end Appraisal.Formula
