/-!
# Listings

A listing keeps named entries in the order in which their names first appeared. Writing an entry
whose name is taken replaces it where it stands.

* `Listing.get?`, `Listing.put`, `Listing.erase`, `Listing.names` — look up, write, remove, and the
  names in order;
* `Listing.ofPairs` — the listing that a series of writes leaves;
* `get?_put_self`, `get?_put_of_ne` — **a write is seen under its own name and nowhere else**;
* `nodup_names_put` — names stay distinct.
-/

namespace Appraisal

/-- Named entries in the order of their first appearance. -/
abbrev Listing (α : Type) := List (String × α)

namespace Listing

variable {α : Type}

/-! ## 1. Operations -/

/-- The entry of the name. -/
def get? : Listing α → String → Option α
  | [], _ => none
  | (k, v) :: rest, name => if k = name then some v else get? rest name

/-- Whether the listing has an entry of the name. -/
def has (l : Listing α) (name : String) : Bool :=
  (l.get? name).isSome

/-- The listing with the entry written under the name: in place if the name is taken, else last. -/
def put : Listing α → String → α → Listing α
  | [], name, v => [(name, v)]
  | (k, w) :: rest, name, v => if k = name then (k, v) :: rest else (k, w) :: put rest name v

/-- The listing without the entries of the name. -/
def erase (l : Listing α) (name : String) : Listing α :=
  l.filter (·.1 ≠ name)

/-- The names in order. -/
def names (l : Listing α) : List String :=
  l.map (·.1)

/-- The entries in the order of their names. -/
def entries (l : Listing α) : List α :=
  l.map (·.2)

/-- The listing left by writing the pairs one after the other. -/
def ofPairs (pairs : List (String × α)) : Listing α :=
  pairs.foldl (fun l p => l.put p.1 p.2) []

/-! ## 2. What a write changes -/

@[simp] theorem get?_nil (name : String) : get? ([] : Listing α) name = none := rfl

@[simp] theorem get?_put_self (l : Listing α) (name : String) (v : α) :
    (l.put name v).get? name = some v := by
  induction l with
  | nil => simp [put, get?]
  | cons e rest ih =>
    obtain ⟨k, w⟩ := e
    by_cases hk : k = name <;> simp [put, get?, hk, ih]

theorem get?_put_of_ne {l : Listing α} {name other : String} (v : α) (h : other ≠ name) :
    (l.put name v).get? other = l.get? other := by
  induction l with
  | nil => simp [put, get?, Ne.symm h]
  | cons e rest ih =>
    obtain ⟨k, w⟩ := e
    by_cases hk : k = name
    · subst hk
      simp [put, get?, Ne.symm h]
    · by_cases ho : k = other
      · subst ho
        simp [put, get?, hk]
      · simp [put, get?, hk, ho, ih]

theorem mem_names_iff {l : Listing α} {name : String} :
    name ∈ l.names ↔ (l.get? name).isSome = true := by
  induction l with
  | nil => simp [names, get?]
  | cons e rest ih =>
    obtain ⟨k, w⟩ := e
    by_cases hk : k = name
    · simp [names, get?, hk]
    · have hne : name ≠ k := Ne.symm hk
      simp only [names] at ih
      simp [names, get?, hk, ih, hne]

theorem has_iff {l : Listing α} {name : String} : l.has name = true ↔ name ∈ l.names := by
  rw [mem_names_iff]
  rfl

theorem get?_eq_none_iff {l : Listing α} {name : String} :
    l.get? name = none ↔ name ∉ l.names := by
  rw [mem_names_iff]
  cases l.get? name <;> simp

/-- What a look-up finds is an entry of the listing. -/
theorem mem_of_get? {l : Listing α} {name : String} {v : α} (h : l.get? name = some v) :
    (name, v) ∈ l := by
  induction l with
  | nil => simp at h
  | cons e rest ih =>
    obtain ⟨k, w⟩ := e
    by_cases hk : k = name
    · simp only [get?, hk, ↓reduceIte, Option.some.injEq] at h
      simp [hk, h]
    · simp only [get?, hk, ↓reduceIte] at h
      exact List.mem_cons_of_mem _ (ih h)

theorem mem_names_put {l : Listing α} {name other : String} {v : α} :
    other ∈ (l.put name v).names ↔ other = name ∨ other ∈ l.names := by
  by_cases h : other = name
  · subst h
    simp [mem_names_iff]
  · simp [mem_names_iff, get?_put_of_ne v h, h]

theorem names_put_of_mem {l : Listing α} {name : String} (v : α) (h : name ∈ l.names) :
    (l.put name v).names = l.names := by
  induction l with
  | nil => simp [names] at h
  | cons e rest ih =>
    obtain ⟨k, w⟩ := e
    by_cases hk : k = name
    · simp [put, names, hk]
    · have hr : name ∈ Listing.names rest := by
        simpa [names, Ne.symm hk] using h
      have := ih hr
      simp only [names] at this
      simp [put, names, hk, this]

theorem names_put_of_not_mem {l : Listing α} {name : String} (v : α) (h : name ∉ l.names) :
    (l.put name v).names = l.names ++ [name] := by
  induction l with
  | nil => simp [put, names]
  | cons e rest ih =>
    obtain ⟨k, w⟩ := e
    have hk : k ≠ name := by
      rintro rfl
      simp [names] at h
    have hr : name ∉ Listing.names rest := by
      intro hm
      apply h
      simp only [names] at hm
      simp [names, hm]
    have := ih hr
    simp only [names] at this
    simp [put, names, hk, this]

/-- Names stay distinct. -/
theorem nodup_names_put {l : Listing α} {name : String} {v : α} (h : l.names.Nodup) :
    (l.put name v).names.Nodup := by
  by_cases hm : name ∈ l.names
  · rwa [names_put_of_mem v hm]
  · rw [names_put_of_not_mem v hm]
    rw [List.nodup_append]
    refine ⟨h, by simp, ?_⟩
    intro a ha b hb
    simp only [List.mem_singleton] at hb
    subst hb
    rintro rfl
    exact hm ha

/-! ## 3. Sizes -/

theorem length_put_of_mem {l : Listing α} {name : String} (v : α) (h : name ∈ l.names) :
    (l.put name v).length = l.length := by
  have := congrArg List.length (names_put_of_mem v h)
  simpa [names] using this

theorem length_erase_lt {l : Listing α} {name : String} (h : name ∈ l.names) :
    (l.erase name).length < l.length := by
  induction l with
  | nil => simp [names] at h
  | cons e rest ih =>
    obtain ⟨k, w⟩ := e
    by_cases hk : k = name
    · have := List.length_filter_le (fun e : String × α => e.1 ≠ name) rest
      simp only [erase, hk, ne_eq, not_true_eq_false, decide_false, Bool.false_eq_true,
        not_false_eq_true, List.filter_cons_of_neg, List.length_cons] at this ⊢
      omega
    · have hr : name ∈ Listing.names rest := by
        simpa [names, Ne.symm hk] using h
      have := ih hr
      simp only [erase] at this
      rw [erase, List.filter_cons_of_pos (by simpa using hk)]
      simp only [List.length_cons]
      omega

end Listing

end Appraisal
