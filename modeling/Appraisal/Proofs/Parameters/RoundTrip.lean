import Mathlib
import Appraisal.Parameters.Settings

/-!
# Parameters written and read back

Parameters are written field by field, each under a name of its group and as a plain value. Reading
starts from the baseline and applies the entries one after the other, so that nothing of the baseline
is left if every field has an entry, every name finds its own field, and every value is taken as the
setting that it was written for.

* `Setting.kind`, `Field.kind_get` — what is held is of the field's kind;
* `Field.coerce_toValue` — a written setting is taken as itself;
* `field?_of_isNamed` — a text names one field of a group at most, as the fields of a group differ
  in their letters (`unjoined`);
* `Finds` — names by which every field is found; `finds_name`, `finds_label`;
* `Group.copy`, `foldl_set_fields` — a group with all its fields written;
* `ofValue_toValueBy` — **parameters written under any such names are read back as they were**.
-/

namespace Appraisal

/-! ## 1. Settings -/

section

variable {α : Type}

/-- The kind of a setting. -/
def Setting.kind : Setting α → Kind
  | .real _ => .real
  | .year _ => .year
  | .flag _ => .flag

/-- A field holds a setting of its kind. -/
theorem Field.kind_get (f : Field) (p : Parameters α) : (f.get p).kind = f.kind := by
  cases f <;> rfl

end

/-- A setting of the field's kind that is written as a value is taken as itself. -/
theorem Field.coerce_toValue {f : Field} {s : Setting Float} (h : s.kind = f.kind) :
    f.coerce s.toValue = .ok s := by
  unfold Field.coerce
  rw [← h]
  cases s <;> rfl

theorem Setting.toValue_ne_blank (s : Setting Float) : s.toValue ≠ .blank := by
  cases s <;> exact nofun

/-! ## 2. Names -/

/-- The letters of a name without regard to their case and to the underscores between its words. -/
def unjoined (cs : List Char) : List Char :=
  (cs.map Char.toUpper).filter (· != '_')

theorem unjoined_capitalized (cs : List Char) : unjoined (capitalized cs) = unjoined cs := by
  fun_induction capitalized cs with
  | case1 c cs ih =>
    have hjoint : '_'.toUpper = '_' := rfl
    simp only [unjoined, List.map_cons, Char.toUpper_toUpper_eq_toUpper, hjoint] at ih ⊢
    rw [List.filter_cons, ih, List.filter_cons_of_neg (a := '_') (by decide), List.filter_cons]
  | case2 c cs _ ih =>
    simp only [unjoined, List.map_cons] at ih ⊢
    rw [List.filter_cons, ih, List.filter_cons]
  | case3 => rfl

/-- A text that names a field has its letters, whichever of its names the text is. -/
theorem unjoined_of_isNamed {f : Field} {text : String} (h : f.isNamed text = true) :
    unjoined text.toList = unjoined f.name.toList := by
  simp only [Field.isNamed, Bool.or_eq_true, beq_iff_eq] at h
  rcases h with (rfl | rfl) | h
  · rfl
  · rw [Field.capitalizedName, String.toList_ofList, unjoined_capitalized]
  · cases f <;> cases h <;> rw [Field.name, String.toList_ofList, String.toList_ofList] <;> rfl

/-- The fields of a group differ in their letters. -/
theorem nodup_unjoined (g : Group) : (g.fields.map fun f => unjoined f.name.toList).Nodup := by
  cases g
  all_goals
    simp only [Group.fields, List.map_cons, List.map_nil, Field.name]
    -- without the characters put in their place, each name would be decoded from its bytes
    repeat rw [String.toList_ofList]
    decide +kernel

/-- **A text names one field of a group at most.** -/
theorem field?_of_isNamed {g : Group} {f : Field} {text : String} (hf : f ∈ g.fields)
    (h : f.isNamed text = true) : g.field? text = some f := by
  cases hfound : g.fields.find? (·.isNamed text) with
  | none => exact absurd h (List.find?_eq_none.mp hfound f hf)
  | some other =>
    have hother : other.isNamed text = true :=
      List.find?_some (p := fun f : Field => f.isNamed text) hfound
    have hsame := (unjoined_of_isNamed hother).symm.trans (unjoined_of_isNamed h)
    obtain rfl := List.inj_on_of_nodup_map (nodup_unjoined g)
      (List.mem_of_find?_eq_some hfound) hf hsame
    exact hfound

/-- By the names of one's choice every field is found in its group. -/
def Finds (name : Field → String) : Prop :=
  ∀ g : Group, ∀ f ∈ g.fields, g.field? (name f) = some f

theorem finds_name : Finds Field.name := by
  intro g f hf
  exact field?_of_isNamed hf (by simp [Field.isNamed])

theorem finds_label : Finds Field.label := by
  intro g f hf
  refine field?_of_isNamed hf ?_
  cases habbreviated : f.abbreviated? <;> simp [Field.isNamed, Field.label, habbreviated]

namespace Parameters

variable {p q : Parameters Float} {name : Field → String} {g : Group}

/-! ## 3. One group -/

/-- The entries of a group are those that were written for it. -/
theorem groupEntries_toValueBy (name : Field → String) (p : Parameters Float) (g : Group) :
    groupEntries (p.toValueBy name) g = g.fields.map fun f => (name f, (f.get p).toValue) := by
  cases g <;> rfl

/-- **An entry that was written for a field writes what the field held.** -/
theorem applyEntry_written {f : Field} (h : g.field? (name f) = some f) (p q : Parameters Float) :
    applyEntry g q (name f, (f.get p).toValue) = .ok (f.set (f.get p) q) := by
  have hset : (f.coerce (f.get p).toValue).map (fun s => f.set s q) = .ok (f.set (f.get p) q) := by
    rw [Field.coerce_toValue (f.kind_get p)]
    rfl
  rw [← hset]
  unfold applyEntry
  simp only [h]
  split
  · next hnone => cases hnone
  · next hblank => exact absurd hblank (f.get p).toValue_ne_blank
  · next hsome _ => cases hsome; rfl

/-- Entries that were written for fields write what the fields held, one after the other. -/
theorem foldlM_written {fields : List Field} (h : ∀ f ∈ fields, g.field? (name f) = some f)
    (p q : Parameters Float) :
    (fields.map fun f => (name f, (f.get p).toValue)).foldlM (applyEntry g) q =
      .ok (fields.foldl (fun q f => f.set (f.get p) q) q) := by
  induction fields generalizing q with
  | nil => rfl
  | cons f fields ih =>
    obtain ⟨hf, hfields⟩ := List.forall_mem_cons.mp h
    rw [List.map_cons, List.foldlM_cons, applyEntry_written hf p q]
    exact ih hfields _

/-- The parameters with one group taken from others. -/
def copy (p q : Parameters Float) : Group → Parameters Float
  | .earth => { q with earth := p.earth }
  | .mars => { q with mars := p.mars }
  | .financial => { q with financial := p.financial }

/-- The fields of a group are all that there is in it. -/
theorem foldl_set_fields (p q : Parameters Float) (g : Group) :
    g.fields.foldl (fun q f => f.set (f.get p) q) q = p.copy q g := by
  -- each field in turn: by `rfl` the parameters would be unfolded again with every field
  cases g <;> simp only [Group.fields, List.foldl_cons, List.foldl_nil, Field.set, Field.get,
    EarthParameters.write, MarsParameters.write, FinancialParameters.write, copy]

theorem applyGroup_written (h : Finds name) (p q : Parameters Float) (g : Group) :
    applyGroup (p.toValueBy name) q g = .ok (p.copy q g) := by
  rw [applyGroup, groupEntries_toValueBy, foldlM_written (h g), foldl_set_fields]

/-! ## 4. All groups -/

/-- **Parameters written under names by which their fields are found are read back as they were.** -/
theorem ofValue_toValueBy (h : Finds name) (p : Parameters Float) :
    ofValue (p.toValueBy name) = .ok p := by
  simp only [ofValue, Group.all, List.foldlM_cons, List.foldlM_nil, applyGroup_written h]
  rfl

/-- **Parameters, however they have come about, are read back as they were**, each field with a
    setting of its kind, from the mapping by labels and from the one by plain names. -/
theorem ofValue_toValue (p : Parameters Float) :
    ofValue p.toValue = .ok p ∧ ofValue (p.toValueBy Field.name) = .ok p ∧
      ∀ f : Field, (f.get p).kind = f.kind :=
  ⟨ofValue_toValueBy finds_label p, ofValue_toValueBy finds_name p, fun f => f.kind_get p⟩

end Parameters

end Appraisal
