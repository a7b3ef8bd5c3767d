import Appraisal.Text.CodePoint

/-!
# Texts in order

* `notAfter` — the order of texts by their code points;
* `sorted` — texts in this order;
* `sorted_eq_of_perm` — **the order in which the texts come does not matter**.
-/

namespace Appraisal.Text

/-! ## 1. The order -/

/-- Whether the first of two lists does not come after the second, compared item by item. -/
def listNotAfter : List Nat → List Nat → Bool
  | [], _ => true
  | _ :: _, [] => false
  | m :: ms, n :: ns => decide (m < n) || (decide (m = n) && listNotAfter ms ns)

theorem listNotAfter_trans {ks ms ns : List Nat} (h₁ : listNotAfter ks ms = true)
    (h₂ : listNotAfter ms ns = true) : listNotAfter ks ns = true := by
  induction ks generalizing ms ns with
  | nil => rfl
  | cons k ks ih =>
    cases ms with
    | nil => cases h₁
    | cons m ms =>
      cases ns with
      | nil => cases h₂
      | cons n ns =>
        simp only [listNotAfter, Bool.or_eq_true, Bool.and_eq_true, decide_eq_true_eq] at *
        rcases h₁ with h₁ | ⟨rfl, h₁⟩ <;> rcases h₂ with h₂ | ⟨rfl, h₂⟩
        · exact .inl (Nat.lt_trans h₁ h₂)
        · exact .inl h₁
        · exact .inl h₂
        · exact .inr ⟨rfl, ih h₁ h₂⟩

theorem listNotAfter_total (ms ns : List Nat) :
    listNotAfter ms ns = true ∨ listNotAfter ns ms = true := by
  induction ms generalizing ns with
  | nil => exact .inl rfl
  | cons m ms ih =>
    cases ns with
    | nil => exact .inr rfl
    | cons n ns =>
      simp only [listNotAfter, Bool.or_eq_true, Bool.and_eq_true, decide_eq_true_eq]
      rcases Nat.lt_trichotomy m n with h | rfl | h
      · exact .inl (.inl h)
      · exact (ih ns).imp (fun h => .inr ⟨rfl, h⟩) (fun h => .inr ⟨rfl, h⟩)
      · exact .inr (.inl h)

theorem listNotAfter_antisymm {ms ns : List Nat} (h₁ : listNotAfter ms ns = true)
    (h₂ : listNotAfter ns ms = true) : ms = ns := by
  induction ms generalizing ns with
  | nil =>
    cases ns with
    | nil => rfl
    | cons n ns => cases h₂
  | cons m ms ih =>
    cases ns with
    | nil => cases h₁
    | cons n ns =>
      simp only [listNotAfter, Bool.or_eq_true, Bool.and_eq_true, decide_eq_true_eq] at h₁ h₂
      rcases h₁ with h₁ | ⟨rfl, h₁⟩
      · rcases h₂ with h₂ | ⟨rfl, _⟩
        · exact absurd h₁ (Nat.lt_asymm h₂)
        · exact absurd h₁ (Nat.lt_irrefl _)
      · rcases h₂ with h₂ | ⟨_, h₂⟩
        · exact absurd h₂ (Nat.lt_irrefl _)
        · rw [ih h₁ h₂]

/-- Whether the first of two texts does not come after the second, by code point. -/
def notAfter (a b : String) : Bool :=
  listNotAfter (codePoints a.toList) (codePoints b.toList)

theorem notAfter_trans (a b c : String) (hab : notAfter a b = true)
    (hbc : notAfter b c = true) : notAfter a c = true :=
  listNotAfter_trans hab hbc

theorem notAfter_total (a b : String) : (notAfter a b || notAfter b a) = true := by
  rw [Bool.or_eq_true]
  exact listNotAfter_total _ _

theorem notAfter_antisymm {a b : String} (hab : notAfter a b = true) (hba : notAfter b a = true) :
    a = b :=
  String.toList_inj.mp (codePoints_injective (listNotAfter_antisymm hab hba))

/-! ## 2. Sorting -/

/-- The texts in order. -/
def sorted (texts : List String) : List String := texts.mergeSort notAfter

theorem sorted_perm (texts : List String) : (sorted texts).Perm texts :=
  List.mergeSort_perm texts _

@[simp] theorem mem_sorted {text : String} {texts : List String} :
    text ∈ sorted texts ↔ text ∈ texts :=
  (sorted_perm texts).mem_iff

@[simp] theorem length_sorted (texts : List String) : (sorted texts).length = texts.length :=
  (sorted_perm texts).length_eq

theorem pairwise_sorted (texts : List String) :
    (sorted texts).Pairwise fun a b => notAfter a b = true :=
  List.pairwise_mergeSort notAfter_trans notAfter_total texts

/-- **The order in which the texts come does not matter.** -/
theorem sorted_eq_of_perm {as bs : List String} (h : as.Perm bs) : sorted as = sorted bs := by
  have hperm : (sorted as).Perm (sorted bs) :=
    (sorted_perm as).trans (h.trans (sorted_perm bs).symm)
  exact hperm.eq_of_pairwise (fun _ _ _ _ => notAfter_antisymm) (pairwise_sorted as)
    (pairwise_sorted bs)

end Appraisal.Text
