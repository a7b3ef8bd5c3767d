/-!
# Checked computations

A computation that may fail has given its result only if each of its parts has.

* `ok_bind`, `exists_of_bind_ok`, `exists_of_map_ok` — the parts of a computation that gave a result;
* `exists_mapM_ok`, `mapM_eq_ok_map`, `exists_filterM_ok` — a list of computations that all give a
  result; `exists_of_mem_mapM`, `mem_of_filterM` — where its results come from;
* `exists_mapM_error` — a list of computations of which one fails;
* `exists_mapM_ok_iff`, `filterMap_of_mapM` — when a list has results, and what is picked from them;
* `foldlM_preserves` — **what each step of a checked fold preserves, the fold preserves**;
* `FailsFirst`, `foldlM_error_iff`, `foldlM_ok_iff` — **a fold whose steps fail by what they read
  alone fails as the first of them that does**.
-/

namespace Appraisal

variable {α β ε σ : Type}

/-! ## 1. Results -/

theorem ok_bind (a : α) (f : α → Except ε β) : (Except.ok a >>= f) = f a := rfl

theorem exists_of_bind_ok {x : Except ε α} {f : α → Except ε β} {b : β}
    (h : (x >>= f) = .ok b) : ∃ a, x = .ok a ∧ f a = .ok b := by
  cases x with
  | error e => cases h
  | ok a => exact ⟨a, rfl, h⟩

theorem exists_of_map_ok {x : Except ε α} {f : α → β} {b : β} (h : x.map f = .ok b) :
    ∃ a, x = .ok a ∧ f a = b := by
  cases x with
  | error e => cases h
  | ok a => exact ⟨a, rfl, Except.ok.inj h⟩

theorem eq_ok_of_toOption {x : Except ε α} {a : α} (h : x.toOption = some a) : x = .ok a := by
  cases x with
  | error e => cases h
  | ok b => exact congrArg Except.ok (Option.some.inj h)

theorem exists_of_toOption {x : Except ε α} (h : x.toOption.isSome = true) :
    ∃ a, x = .ok a := by
  obtain ⟨a, ha⟩ := Option.isSome_iff_exists.mp h
  exact ⟨a, eq_ok_of_toOption ha⟩

/-- What each step of a checked fold preserves, the fold preserves. -/
theorem foldlM_preserves {f : σ → α → Except ε σ} (P : σ → Prop)
    (hstep : ∀ s a s', P s → f s a = .ok s' → P s') {l : List α} {s s' : σ}
    (hs : P s) (h : l.foldlM f s = .ok s') : P s' := by
  induction l generalizing s with
  | nil =>
    cases h
    exact hs
  | cons a l ih =>
    rw [List.foldlM_cons] at h
    obtain ⟨t, ha, hrest⟩ := exists_of_bind_ok h
    exact ih (hstep s a t hs ha) hrest

/-- A checked list of computations that all give a result gives all of their results. -/
theorem exists_mapM_ok {f : α → Except ε β} {l : List α} (h : ∀ a ∈ l, ∃ b, f a = .ok b) :
    ∃ bs, l.mapM f = .ok bs ∧ ∀ a ∈ l, ∀ b, f a = .ok b → b ∈ bs := by
  induction l with
  | nil => exact ⟨[], rfl, fun a ha => absurd ha List.not_mem_nil⟩
  | cons a l ih =>
    obtain ⟨⟨b, hb⟩, hl⟩ := List.forall_mem_cons.mp h
    obtain ⟨bs, hbs, hmem⟩ := ih hl
    refine ⟨b :: bs, ?_, List.forall_mem_cons.mpr ⟨fun c hc => ?_, fun x hx c hc => ?_⟩⟩
    · rw [List.mapM_cons, hb, hbs]
      rfl
    · rw [hb] at hc
      cases hc
      exact List.mem_cons_self
    · exact List.mem_cons_of_mem b (hmem x hx c hc)

/-- A checked list of computations that all give the result of a function is the function mapped
    over the list. -/
theorem mapM_eq_ok_map {f : α → Except ε β} {g : α → β} {l : List α}
    (h : ∀ a ∈ l, f a = .ok (g a)) : l.mapM f = .ok (l.map g) := by
  induction l with
  | nil => rfl
  | cons a l ih =>
    obtain ⟨ha, hl⟩ := List.forall_mem_cons.mp h
    rw [List.mapM_cons, ha, ih hl]
    rfl

/-- What a checked list gives is the result of one of its members. -/
theorem exists_of_mem_mapM {f : α → Except ε β} {l : List α} {bs : List β} (h : l.mapM f = .ok bs)
    {b : β} (hb : b ∈ bs) : ∃ a ∈ l, f a = .ok b := by
  induction l generalizing bs with
  | nil =>
    cases h
    cases hb
  | cons a l ih =>
    rw [List.mapM_cons] at h
    obtain ⟨c, hc, h⟩ := exists_of_bind_ok h
    obtain ⟨cs, hcs, h⟩ := exists_of_bind_ok h
    cases h
    rcases List.mem_cons.mp hb with rfl | hb
    · exact ⟨a, List.mem_cons_self, hc⟩
    · obtain ⟨x, hx, hfx⟩ := ih hcs hb
      exact ⟨x, List.mem_cons_of_mem a hx, hfx⟩

/-- A checked list of computations that do not all give a result fails as one of them does. -/
theorem exists_mapM_error {f : α → Except ε β} {l : List α} (h : ¬ ∀ a ∈ l, ∃ b, f a = .ok b) :
    ∃ a ∈ l, ∃ e, f a = .error e ∧ l.mapM f = .error e := by
  induction l with
  | nil => exact absurd (fun a ha => absurd ha List.not_mem_nil) h
  | cons a l ih =>
    cases ha : f a with
    | error e =>
      refine ⟨a, List.mem_cons_self, e, ha, ?_⟩
      rw [List.mapM_cons, ha]
      rfl
    | ok b =>
      have hl : ¬ ∀ x ∈ l, ∃ b, f x = .ok b := fun hl =>
        h (List.forall_mem_cons.mpr ⟨⟨b, ha⟩, hl⟩)
      obtain ⟨x, hx, e, hfx, hmap⟩ := ih hl
      refine ⟨x, List.mem_cons_of_mem a hx, e, hfx, ?_⟩
      rw [List.mapM_cons, ha, hmap]
      rfl

/-- A checked list has results exactly where each of its members has one. -/
theorem exists_mapM_ok_iff {f : α → Except ε β} {l : List α} :
    (∃ bs, l.mapM f = .ok bs) ↔ ∀ a ∈ l, ∃ b, f a = .ok b := by
  constructor
  · rintro ⟨bs, hbs⟩
    refine Classical.byContradiction fun hnot => ?_
    obtain ⟨a, -, e, -, he⟩ := exists_mapM_error hnot
    rw [hbs] at he
    cases he
  · intro h
    obtain ⟨bs, hbs, -⟩ := exists_mapM_ok h
    exact ⟨bs, hbs⟩

/-- What is picked from the results of a checked list, each member asked by itself. -/
theorem filterMap_of_mapM {γ : Type} {f : α → Except ε β} {pick : β → Option γ} {l : List α}
    {bs : List β} (h : l.mapM f = .ok bs) :
    bs.filterMap pick = l.filterMap fun a => (f a).toOption.bind pick := by
  induction l generalizing bs with
  | nil =>
    cases h
    rfl
  | cons a l ih =>
    rw [List.mapM_cons] at h
    obtain ⟨b, hb, h⟩ := exists_of_bind_ok h
    obtain ⟨rest, hrest, h⟩ := exists_of_bind_ok h
    cases h
    rw [List.filterMap_cons, List.filterMap_cons, hb, ih hrest]
    rfl

theorem exists_filterAuxM_ok {p : α → Except ε Bool} {l : List α}
    (h : ∀ a ∈ l, ∃ b, p a = .ok b) (kept : List α) : ∃ r, l.filterAuxM p kept = .ok r := by
  induction l generalizing kept with
  | nil => exact ⟨kept, rfl⟩
  | cons a l ih =>
    obtain ⟨⟨b, hb⟩, hl⟩ := List.forall_mem_cons.mp h
    obtain ⟨r, hr⟩ := ih hl (if b then a :: kept else kept)
    refine ⟨r, ?_⟩
    rw [List.filterAuxM, hb]
    cases b <;> exact hr

/-- A checked choice among a list that can be decided for each member gives a result. -/
theorem exists_filterM_ok {p : α → Except ε Bool} {l : List α} (h : ∀ a ∈ l, ∃ b, p a = .ok b) :
    ∃ r, l.filterM p = .ok r := by
  obtain ⟨r, hr⟩ := exists_filterAuxM_ok h []
  refine ⟨r.reverse, ?_⟩
  rw [List.filterM, hr]
  rfl

theorem mem_of_filterAuxM {p : α → Except ε Bool} {l kept r : List α}
    (h : l.filterAuxM p kept = .ok r) :
    (∀ a ∈ l, ∃ b, p a = .ok b) ∧ ∀ a, a ∈ r ↔ a ∈ kept ∨ a ∈ l ∧ p a = .ok true := by
  induction l generalizing kept with
  | nil =>
    cases h
    exact ⟨fun a ha => absurd ha List.not_mem_nil,
      fun a => ⟨Or.inl, fun h => h.resolve_right fun h => absurd h.1 List.not_mem_nil⟩⟩
  | cons x l ih =>
    rw [List.filterAuxM] at h
    obtain ⟨b, hb, hrest⟩ := exists_of_bind_ok h
    obtain ⟨hl, hmem⟩ := ih hrest
    refine ⟨List.forall_mem_cons.mpr ⟨⟨b, hb⟩, hl⟩, fun a => ?_⟩
    rw [hmem, List.mem_cons]
    cases b with
    | false =>
      refine or_congr_right ⟨fun h => ⟨Or.inr h.1, h.2⟩, fun h => ⟨h.1.resolve_left ?_, h.2⟩⟩
      rintro rfl
      cases hb.symm.trans h.2
    | true =>
      have hkept : a ∈ x :: kept ↔ a = x ∨ a ∈ kept := List.mem_cons
      constructor
      · rintro (hk | hk)
        · rcases hkept.mp hk with rfl | hk
          · exact Or.inr ⟨Or.inl rfl, hb⟩
          · exact Or.inl hk
        · exact Or.inr ⟨Or.inr hk.1, hk.2⟩
      · rintro (hk | ⟨rfl | hk, htrue⟩)
        · exact Or.inl (hkept.mpr (Or.inr hk))
        · exact Or.inl (hkept.mpr (Or.inl rfl))
        · exact Or.inr ⟨hk, htrue⟩

/-- A checked choice has decided for each member, and has chosen those for which it is so. -/
theorem mem_of_filterM {p : α → Except ε Bool} {l r : List α} (h : l.filterM p = .ok r) :
    (∀ a ∈ l, ∃ b, p a = .ok b) ∧ ∀ a, a ∈ r ↔ a ∈ l ∧ p a = .ok true := by
  obtain ⟨kept, hkept, h⟩ := exists_of_bind_ok h
  cases h
  obtain ⟨hall, hmem⟩ := mem_of_filterAuxM hkept
  refine ⟨hall, fun a => ?_⟩
  rw [List.mem_reverse, hmem]
  exact or_iff_right List.not_mem_nil

/-! ## 2. The first that fails -/

/-- The first of the computations that fails does so with the error. -/
def FailsFirst (f : α → Except ε β) (l : List α) (e : ε) : Prop :=
  ∃ before a after, l = before ++ a :: after ∧ (∀ b ∈ before, ∃ r, f b = .ok r) ∧ f a = .error e

section First

variable {f : α → Except ε β} {a : α} {l : List α} {e : ε}

theorem FailsFirst.mem (h : FailsFirst f l e) : ∃ a ∈ l, f a = .error e := by
  obtain ⟨before, a, after, rfl, -, ha⟩ := h
  exact ⟨a, List.mem_append_right before List.mem_cons_self, ha⟩

theorem not_failsFirst_nil : ¬ FailsFirst f [] e := by
  intro h
  obtain ⟨a, ha, -⟩ := h.mem
  cases ha

theorem failsFirst_cons_of_error {e' : ε} (ha : f a = .error e') :
    FailsFirst f (a :: l) e ↔ e' = e := by
  constructor
  · rintro ⟨before, b, after, hl, hbefore, hb⟩
    cases before with
    | nil =>
      cases hl
      exact Except.error.inj (ha.symm.trans hb)
    | cons c before =>
      cases hl
      obtain ⟨r, hr⟩ := hbefore a List.mem_cons_self
      rw [ha] at hr
      cases hr
  · rintro rfl
    exact ⟨[], a, l, rfl, fun b hb => absurd hb List.not_mem_nil, ha⟩

theorem failsFirst_cons_of_ok {b : β} (ha : f a = .ok b) :
    FailsFirst f (a :: l) e ↔ FailsFirst f l e := by
  constructor
  · rintro ⟨before, c, after, hl, hbefore, hc⟩
    cases before with
    | nil =>
      cases hl
      rw [ha] at hc
      cases hc
    | cons d before =>
      cases hl
      exact ⟨before, c, after, rfl, fun x hx => hbefore x (List.mem_cons_of_mem a hx), hc⟩
  · rintro ⟨before, c, after, rfl, hbefore, hc⟩
    exact ⟨a :: before, c, after, rfl, List.forall_mem_cons.mpr ⟨⟨b, ha⟩, hbefore⟩, hc⟩

variable {step : σ → α → Except ε σ}

/-- A fold whose steps fail by what they read alone, whatever they have come to, fails as the first
    of them that does. -/
theorem foldlM_error_iff (hstep : ∀ s a, ∃ put, step s a = (f a).map put) (l : List α) (s : σ) :
    l.foldlM step s = .error e ↔ FailsFirst f l e := by
  induction l generalizing s with
  | nil => exact ⟨nofun, fun h => (not_failsFirst_nil h).elim⟩
  | cons a l ih =>
    obtain ⟨put, hput⟩ := hstep s a
    rw [List.foldlM_cons, hput]
    cases ha : f a with
    | error e' =>
      rw [failsFirst_cons_of_error ha]
      exact ⟨Except.error.inj, congrArg Except.error⟩
    | ok b =>
      rw [failsFirst_cons_of_ok ha]
      exact ih (put b)

/-- Such a fold gives a result exactly where none of its steps fails. -/
theorem foldlM_ok_iff (hstep : ∀ s a, ∃ put, step s a = (f a).map put) (l : List α) (s : σ) :
    (∃ s', l.foldlM step s = .ok s') ↔ ∀ a ∈ l, ∃ b, f a = .ok b := by
  induction l generalizing s with
  | nil => exact ⟨fun _ a ha => absurd ha List.not_mem_nil, fun _ => ⟨s, rfl⟩⟩
  | cons a l ih =>
    obtain ⟨put, hput⟩ := hstep s a
    rw [List.foldlM_cons, hput, List.forall_mem_cons]
    cases ha : f a with
    | error e' =>
      constructor
      · rintro ⟨s', h⟩
        cases h
      · rintro ⟨⟨b, hb⟩, -⟩
        cases hb
    | ok b => exact (ih (put b)).trans ⟨fun h => ⟨⟨b, rfl⟩, h⟩, And.right⟩

end First

end Appraisal
