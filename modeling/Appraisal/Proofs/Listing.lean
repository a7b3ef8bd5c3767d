import Appraisal.Listing

/-!
# More on listings

* `has_put_self`, `has_put_of_has` — what there is after a write;
* `put_eq_self_iff`, `put_of_not_mem` — a write that changes nothing, and one under a new name;
* `get?_erase_self`, `get?_erase_of_ne` — **a removal is seen under its own name and nowhere else**;
* `get?_put_congr`, `get?_erase_congr` — what answers alike does so after a write and a removal;
* `get?_map`, `get?_of_mem` — what is found, where a function gives the entries and where names are
  distinct;
* `put_mapEntries`, `get?_mapEntries` — a write and a look-up where every entry is changed alike.
-/

namespace Appraisal.Listing

variable {α : Type}

/-! ## 1. Writes -/

theorem has_put_self (l : Listing α) (key : String) (v : α) :
    (l.put key v).has key = true := by
  rw [has, get?_put_self]
  rfl

theorem has_put_of_has {l : Listing α} {key other : String} (v : α)
    (h : l.has other = true) : (l.put key v).has other = true := by
  by_cases ho : other = key
  · subst ho
    exact has_put_self l other v
  · rw [has, get?_put_of_ne v ho]
    exact h

/-- A write changes nothing exactly where its entry is already there. -/
theorem put_eq_self_iff {l : Listing α} {name : String} {v : α} :
    l.put name v = l ↔ l.get? name = some v := by
  constructor
  · intro h
    have hself := get?_put_self l name v
    rwa [h] at hself
  · intro h
    induction l with
    | nil => cases h
    | cons e l ih =>
      obtain ⟨k, u⟩ := e
      rw [get?] at h
      by_cases hk : k = name
      · rw [if_pos hk] at h
        cases h
        exact if_pos hk
      · rw [if_neg hk] at h
        have hput : put ((k, u) :: l) name v = (k, u) :: put l name v := if_neg hk
        rw [hput, ih h]

/-- What is written under a new name comes last. -/
theorem put_of_not_mem {l : Listing α} {name : String} (v : α) (h : name ∉ l.names) :
    l.put name v = l ++ [(name, v)] := by
  induction l with
  | nil => rfl
  | cons e l ih =>
    obtain ⟨k, u⟩ := e
    have hnames : name ∉ k :: Listing.names l := h
    rw [List.mem_cons, not_or] at hnames
    have hput : put ((k, u) :: l) name v = (k, u) :: put l name v := if_neg (Ne.symm hnames.1)
    rw [hput, ih hnames.2]
    rfl

/-! ## 2. Removals -/

theorem get?_erase_self (l : Listing α) (name : String) : (l.erase name).get? name = none := by
  rw [get?_eq_none_iff]
  intro h
  obtain ⟨e, he, hname⟩ := List.mem_map.mp h
  exact of_decide_eq_true (List.mem_filter.mp he).2 hname

theorem get?_erase_of_ne (l : Listing α) {name other : String} (h : other ≠ name) :
    (l.erase name).get? other = l.get? other := by
  induction l with
  | nil => rfl
  | cons e l ih =>
    obtain ⟨k, v⟩ := e
    by_cases hk : k = name
    · have hskip : erase ((k, v) :: l) name = erase l name :=
        List.filter_cons_of_neg (by rw [hk]; simp)
      have hko : k ≠ other := fun he => h (he ▸ hk)
      rw [hskip, ih, get?, if_neg hko]
    · have hkeep : erase ((k, v) :: l) name = (k, v) :: erase l name :=
        List.filter_cons_of_pos (decide_eq_true hk)
      rw [hkeep, get?, get?, ih]

/-! ## 3. Listings that answer alike -/

theorem get?_put_congr {l l' : Listing α} (h : ∀ x, l.get? x = l'.get? x) (name : String) (v : α)
    (x : String) : (l.put name v).get? x = (l'.put name v).get? x := by
  by_cases hx : x = name
  · rw [hx, get?_put_self, get?_put_self]
  · rw [get?_put_of_ne v hx, get?_put_of_ne v hx, h]

theorem get?_erase_congr {l l' : Listing α} (h : ∀ x, l.get? x = l'.get? x) (name x : String) :
    (l.erase name).get? x = (l'.erase name).get? x := by
  by_cases hx : x = name
  · rw [hx, get?_erase_self, get?_erase_self]
  · rw [get?_erase_of_ne l hx, get?_erase_of_ne l' hx, h]

/-! ## 4. Look-ups -/

/-- The entries of names that a function gives. -/
theorem get?_map (f : String → α) (names : List String) (name : String) :
    get? (names.map fun n => (n, f n)) name = if name ∈ names then some (f name) else none := by
  induction names with
  | nil => rfl
  | cons n names ih =>
    rw [List.map_cons, get?]
    by_cases hn : n = name
    · subst hn
      rw [if_pos rfl, if_pos List.mem_cons_self]
    · rw [if_neg hn, ih]
      by_cases hin : name ∈ names
      · rw [if_pos hin, if_pos (List.mem_cons_of_mem n hin)]
      · have hout : name ∉ n :: names := fun h =>
          hin ((List.mem_cons.mp h).resolve_left (Ne.symm hn))
        rw [if_neg hin, if_neg hout]

theorem get?_of_mem {l : Listing α} {name : String} {v : α} (hn : l.names.Nodup)
    (h : (name, v) ∈ l) : l.get? name = some v := by
  induction l with
  | nil => cases h
  | cons e l ih =>
    obtain ⟨k, u⟩ := e
    obtain ⟨hnew, hrest⟩ := List.nodup_cons.mp hn
    rcases List.mem_cons.mp h with he | hmem
    · cases he
      rw [get?, if_pos rfl]
    · have hne : k ≠ name := fun he => by
        subst he
        exact hnew (List.mem_map.mpr ⟨(k, v), hmem, rfl⟩)
      rw [get?, if_neg hne]
      exact ih hrest hmem

/-! ## 5. Entries changed alike -/

section Entries

variable {β : Type} (f : α → β)

theorem put_mapEntries (l : Listing α) (name : String) (v : α) :
    (l.put name v).map (fun e => (e.1, f e.2)) =
      put (l.map fun e => (e.1, f e.2)) name (f v) := by
  induction l with
  | nil => rfl
  | cons e l ih =>
    obtain ⟨k, u⟩ := e
    rw [List.map_cons, put, put]
    split
    · rfl
    · rw [List.map_cons, ih]

theorem get?_mapEntries (l : Listing α) (name : String) :
    get? (l.map fun e => (e.1, f e.2)) name = (l.get? name).map f := by
  induction l with
  | nil => rfl
  | cons e l ih =>
    obtain ⟨k, u⟩ := e
    rw [List.map_cons, get?, get?, ih]
    split <;> rfl

end Entries

end Appraisal.Listing
