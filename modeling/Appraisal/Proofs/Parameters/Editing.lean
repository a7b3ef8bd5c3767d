import Appraisal.Proofs.Parameters.Loading
import Mathlib.Data.List.Induction

/-!
# Editing agrees with reading

A parameter that is changed by its path is written as it would have been read: coerced by what it
holds, which is of the kind of its baseline value, and written over all that was given for it.
So an edit of parameters that were read gives what is read from the data with the edit entered: all
entries that name the same field are dropped, under whichever of its names, and one is added.

* `get_set_self`, `get_set_of_ne`, `Parameters.ext_get` — a field is written alone, and parameters
  are their fields;
* `Field.coerceLike_get` — **what a field holds decides on coercion as its baseline value does**;
* `LeftAt`, `leftAt_of_writes` — what a series of writes leaves of a field;
* `Edit`, `Edit.Entered` — a change of one parameter, and data with it entered;
* `replace_eq_ofValue` — **an edit and a reading have the same outcome**, and what follows for
  several edits; `ofValue_replaces` — so has a series of edits.
-/

namespace Appraisal

/-! ## 1. Fields -/

namespace Field

variable {α : Type} {f other : Field} {s : Setting α}

theorem get_set_self (h : s.kind = f.kind) (p : Parameters α) : f.get (f.set s p) = s := by
  cases f <;> cases s <;> first | rfl | cases h

/-- A write to a field leaves the others as they are. -/
theorem get_set_of_ne (h : other ≠ f) (s : Setting α) (p : Parameters α) :
    other.get (f.set s p) = other.get p := by
  cases other
  all_goals
    -- the writes of the field's group, of which none but the field's own reaches it
    simp only [get, set, EarthParameters.write, MarsParameters.write, FinancialParameters.write]
    split <;> first | rfl | exact absurd rfl h

/-- A group that has a field is the group of the field. -/
theorem group_of_mem {g : Group} (h : f ∈ g.fields) : f.group = g := by
  revert f
  cases g <;> decide

/-- A value coerced by the kind of what the field holds. -/
def coerceLike (f : Field) (held : Setting Float) (v : Value) : Except Fault (Setting Float) := do
  let setting ← match held with
    | .flag _ => pure (some (.flag v.isTrue))
    | .year _ => (wholeOf? v).map (·.map .year)
    | .real _ => (floatOf? v).map (·.map .real)
  match setting with
  | some s => .ok s
  | none => .error (.invalidSetting f.group.name f.name v)

/-- **A field is coerced by what it holds as it is by its kind.** -/
theorem coerceLike_get (f : Field) (p : Parameters Float) (v : Value) :
    f.coerceLike (f.get p) v = f.coerce v := by
  unfold coerceLike coerce
  rw [← f.kind_get p]
  cases f.get p <;> rfl

end Field

namespace Parameters

variable {p q : Parameters Float} {f other : Field} {s t : Setting Float}

/-- **Parameters are their fields.** -/
theorem ext_get (h : ∀ f : Field, f.get p = f.get q) : p = q := by
  have hcopy : ∀ (r : Parameters Float) (g : Group), p.copy r g = q.copy r g := by
    intro r g
    rw [← foldl_set_fields, ← foldl_set_fields]
    simp only [h]
  have hself : ∀ r : Parameters Float,
      r.copy (r.copy (r.copy baseline .earth) .mars) .financial = r := fun _ => rfl
  rw [← hself p, ← hself q, hcopy, hcopy, hcopy]

theorem set_comm (hne : other ≠ f) (hs : s.kind = f.kind) (ht : t.kind = other.kind)
    (p : Parameters Float) : other.set t (f.set s p) = f.set s (other.set t p) := by
  refine ext_get fun g => ?_
  by_cases hg : g = other
  · subst hg
    rw [Field.get_set_self ht, Field.get_set_of_ne hne, Field.get_set_self ht]
  · rw [Field.get_set_of_ne hg]
    by_cases hgf : g = f
    · subst hgf
      rw [Field.get_set_self hs, Field.get_set_self hs]
    · rw [Field.get_set_of_ne hgf, Field.get_set_of_ne hgf, Field.get_set_of_ne hg]

theorem set_set (ht : t.kind = f.kind) (s : Setting Float) (p : Parameters Float) :
    f.set t (f.set s p) = f.set t p := by
  refine ext_get fun g => ?_
  by_cases hg : g = f
  · subst hg
    rw [Field.get_set_self ht, Field.get_set_self ht]
  · rw [Field.get_set_of_ne hg, Field.get_set_of_ne hg, Field.get_set_of_ne hg]

/-! ## 2. Series of writes -/

section Writes

variable {e : Field × Value} {es es' : List (Field × Value)}

theorem get_write_self (h : p.write e = .ok q) : e.1.coerce e.2 = .ok (e.1.get q) := by
  obtain ⟨s, hs, rfl⟩ := exists_of_map_ok h
  rw [Field.get_set_self (Field.kind_of_coerce hs)]
  exact hs

theorem get_write_of_ne (h : p.write e = .ok q) (hf : f ≠ e.1) : f.get q = f.get p := by
  obtain ⟨s, -, rfl⟩ := exists_of_map_ok h
  exact Field.get_set_of_ne hf s p

/-- What is left of a field: what the last value that was given for it is taken as, or else what the
    field held before. -/
def LeftAt (p : Parameters Float) (f : Field) (es : List (Field × Value)) (s : Setting Float) :
    Prop :=
  match (es.filter (·.1 = f)).getLast? with
  | some e => f.coerce e.2 = .ok s
  | none => s = f.get p

theorem LeftAt.unique (hs : LeftAt p f es s) (ht : LeftAt p f es t) : s = t := by
  unfold LeftAt at hs ht
  split at hs
  · next hlast =>
    rw [hlast] at ht
    exact Except.ok.inj (hs.symm.trans ht)
  · next hlast =>
    rw [hlast] at ht
    exact hs.trans ht.symm

theorem LeftAt.congr (h : LeftAt p f es s)
    (hsame : es'.filter (·.1 = f) = es.filter (·.1 = f)) : LeftAt p f es' s := by
  unfold LeftAt
  rw [hsame]
  exact h

/-- **A series of writes leaves of each field what the last write to it did.** -/
theorem leftAt_of_writes (h : es.foldlM write p = .ok q) (f : Field) :
    LeftAt p f es (f.get q) := by
  induction es using List.reverseRecOn generalizing q with
  | nil =>
    cases h
    rfl
  | append_singleton es e ih =>
    rw [List.foldlM_append] at h
    obtain ⟨r, hr, h⟩ := exists_of_bind_ok h
    obtain ⟨q', hq', h⟩ := exists_of_bind_ok h
    cases h
    by_cases hf : f = e.1
    · have hlast : ((es ++ [e]).filter (·.1 = f)).getLast? = some e := by
        rw [List.filter_append, List.filter_cons_of_pos (by simpa using hf.symm), List.filter_nil,
          List.getLast?_concat]
      unfold LeftAt
      rw [hlast, hf]
      exact get_write_self hq'
    · rw [get_write_of_ne hq' hf]
      refine (ih hr).congr ?_
      rw [List.filter_append, List.filter_cons_of_neg (by simpa using Ne.symm hf), List.filter_nil,
        List.append_nil]

end Writes

/-! ## 3. Edits -/

/-- A change of one parameter: a field, by one of its names in its group, and a value for it. -/
structure Edit where
  /-- The group of the field. -/
  group : Group
  /-- The field. -/
  field : Field
  /-- The name that it goes by. -/
  key : String
  /-- The value. -/
  value : Value
  mem : field ∈ group.fields
  named : field.isNamed key = true
  present : value ≠ .blank

namespace Edit

/-- The path of the parameter. -/
def path (e : Edit) : String :=
  e.group.name ++ "." ++ e.key

/-- The entries of the group that do not name the field. -/
def others (e : Edit) (data : Value) : List (String × Value) :=
  (groupEntries data e.group).filter fun entry => !e.field.isNamed entry.1

/-- The data with the edit entered: the entries of its group that name the field are dropped, and
    one is added, wherever among the others. -/
structure Entered (e : Edit) (data data' : Value) : Prop where
  elsewhere : ∀ g, g ≠ e.group → groupEntries data' g = groupEntries data g
  own : ∃ before after, e.others data = before ++ after ∧
    groupEntries data' e.group = before ++ (e.key, e.value) :: after

/-- The data with the edit entered behind the others of its group. -/
def enter (e : Edit) (data : Value) : Value :=
  let groups := match data with
    | .mapping groups => groups
    | _ => []
  .mapping (Listing.put groups e.group.name (.mapping (e.others data ++ [(e.key, e.value)])))

end Edit

section Entries

variable {g : Group} {entry : String × Value} {d : Field × Value} {e : Edit} {data data' : Value}

theorem field?_eq_some (h : g.field? entry.1 = some f) :
    f ∈ g.fields ∧ f.isNamed entry.1 = true :=
  ⟨List.mem_of_find?_eq_some h, List.find?_some (p := fun f : Field => f.isNamed entry.1) h⟩

/-- What an entry gives is for a field of the group that it names. -/
theorem of_entryGiven? (h : entryGiven? g entry = some d) :
    d.1 ∈ g.fields ∧ d.1.isNamed entry.1 = true := by
  unfold entryGiven? at h
  split at h
  · cases h
  · cases h
  · next hfound _ =>
    cases h
    exact field?_eq_some hfound

theorem Edit.fieldAt_path (e : Edit) : fieldAt e.path = .ok e.field :=
  fieldAt_of_isNamed e.mem e.named

theorem Edit.entryGiven?_eq (e : Edit) :
    entryGiven? e.group (e.key, e.value) = some (e.field, e.value) := by
  unfold entryGiven?
  split
  · next h => exact nomatch (field?_of_isNamed e.mem e.named).symm.trans h
  · next h => exact (e.present h).elim
  · next h _ =>
    cases (field?_of_isNamed e.mem e.named).symm.trans h
    rfl

/-- What a group gives for one field. -/
def givenFor (f : Field) (g : Group) (entries : List (String × Value)) : List (Field × Value) :=
  (entries.filterMap (entryGiven? g)).filter (·.1 = f)

theorem filter_given (f : Field) (data : Value) :
    (given data).filter (·.1 = f) = Group.all.flatMap fun g => givenFor f g (groupEntries data g) :=
  List.filter_flatMap

theorem givenFor_append (f : Field) (g : Group) (es es' : List (String × Value)) :
    givenFor f g (es ++ es') = givenFor f g es ++ givenFor f g es' := by
  rw [givenFor, List.filterMap_append, List.filter_append]
  rfl

/-- Entries of which none names the field give nothing for it. -/
theorem givenFor_eq_nil {entries : List (String × Value)}
    (h : ∀ entry ∈ entries, f ∈ g.fields → f.isNamed entry.1 = false) :
    givenFor f g entries = [] := by
  refine List.filter_eq_nil_iff.mpr fun d hd hdf => ?_
  obtain ⟨entry, hentry, hgiven⟩ := List.mem_filterMap.mp hd
  obtain ⟨hmem, hnamed⟩ := of_entryGiven? hgiven
  rw [of_decide_eq_true hdf] at hmem hnamed
  rw [h entry hentry hmem] at hnamed
  cases hnamed

theorem eq_of_isNamed {text : String} (hf : f ∈ g.fields) (hother : other ∈ g.fields)
    (h : f.isNamed text = true) (h' : other.isNamed text = true) : other = f :=
  Option.some.inj ((field?_of_isNamed hother h').symm.trans (field?_of_isNamed hf h))

/-- Without the entries that name a field there is the same for every other. -/
theorem givenFor_filter (hf : f ∈ g.fields) (hne : other ≠ f) (entries : List (String × Value)) :
    givenFor other g (entries.filter fun entry => !f.isNamed entry.1) =
      givenFor other g entries := by
  induction entries with
  | nil => rfl
  | cons entry entries ih =>
    rw [← List.singleton_append, List.filter_append, givenFor_append, givenFor_append, ih]
    cases hnamed : f.isNamed entry.1 with
    | false => rw [List.filter_cons_of_pos (by rw [hnamed]; rfl), List.filter_nil]
    | true =>
      have hnone : givenFor other g [entry] = [] := by
        refine givenFor_eq_nil fun d hd hother => ?_
        rw [List.mem_singleton.mp hd]
        exact Bool.eq_false_iff.mpr fun h => hne (eq_of_isNamed hf hother hnamed h)
      rw [List.filter_cons_of_neg (by rw [hnamed]; exact Bool.false_ne_true), List.filter_nil,
        hnone]
      rfl

namespace Edit.Entered

/-- For its own field the edit alone gives a value. -/
theorem filter_own (h : e.Entered data data') :
    (given data').filter (·.1 = e.field) = [(e.field, e.value)] := by
  obtain ⟨before, after, hothers, hown⟩ := h.own
  have hunnamed : ∀ entries : List (String × Value), (∀ entry ∈ entries, entry ∈ e.others data) →
      givenFor e.field e.group entries = [] := fun entries hall =>
    givenFor_eq_nil fun entry hentry _ =>
      (Bool.not_eq_true' _).mp (List.mem_filter.mp (hall entry hentry)).2
  have hgroup : ∀ g, givenFor e.field g (groupEntries data' g) =
      if g = e.group then [(e.field, e.value)] else [] := by
    intro g
    by_cases hg : g = e.group
    · have hcons : givenFor e.field e.group ((e.key, e.value) :: after) =
          (e.field, e.value) :: givenFor e.field e.group after := by
        rw [givenFor, List.filterMap_cons_some e.entryGiven?_eq,
          List.filter_cons_of_pos (by simp)]
        rfl
      rw [if_pos hg, hg, hown, givenFor_append, hcons,
        hunnamed before fun d hd => hothers ▸ List.mem_append_left _ hd,
        hunnamed after fun d hd => hothers ▸ List.mem_append_right _ hd]
      rfl
    · rw [if_neg hg]
      refine givenFor_eq_nil fun _ _ hmem => (hg ?_).elim
      rw [← Field.group_of_mem hmem, Field.group_of_mem e.mem]
  rw [filter_given]
  simp only [hgroup]
  cases e.group <;> rfl

/-- For another field all gives what it gave. -/
theorem filter_other (h : e.Entered data data') (hne : f ≠ e.field) :
    (given data').filter (·.1 = f) = (given data).filter (·.1 = f) := by
  rw [filter_given, filter_given]
  refine List.flatMap_congr fun g _ => ?_
  by_cases hg : g = e.group
  · obtain ⟨before, after, hothers, hown⟩ := h.own
    have hcons : givenFor f e.group ((e.key, e.value) :: after) = givenFor f e.group after := by
      rw [givenFor, List.filterMap_cons_some e.entryGiven?_eq,
        List.filter_cons_of_neg (by simpa using Ne.symm hne)]
      rfl
    rw [hg, hown, givenFor_append, hcons, ← givenFor_append, ← hothers]
    exact givenFor_filter e.mem hne _
  · rw [h.elsewhere g hg]

/-- What is given with the edit is the edit, or was given without it. -/
theorem of_mem_given (h : e.Entered data data') (hd : d ∈ given data') :
    d = (e.field, e.value) ∨ d ∈ given data := by
  have hfor : d ∈ (given data').filter (·.1 = d.1) := List.mem_filter.mpr ⟨hd, by simp⟩
  by_cases hf : d.1 = e.field
  · rw [hf, h.filter_own] at hfor
    exact Or.inl (List.mem_singleton.mp hfor)
  · rw [h.filter_other hf] at hfor
    exact Or.inr (List.mem_filter.mp hfor).1

theorem mem_given (h : e.Entered data data') : (e.field, e.value) ∈ given data' :=
  (List.mem_filter.mp (h.filter_own ▸ List.mem_singleton_self _)).1

end Edit.Entered

end Entries

/-! ## 4. Edits and readings -/

section Outcomes

variable {data data' : Value} {e e' : Edit}

theorem replace_path (p : Parameters Float) (e : Edit) :
    p.replace e.path e.value = p.write (e.field, e.value) :=
  replace_eq e.fieldAt_path p e.value

theorem ofValue_of_entered (h : ofValue data = .ok p) (hentered : e.Entered data data') :
    p.write (e.field, e.value) = ofValue data' := by
  have hall := (ofValue_ok_iff data).mp ⟨p, h⟩
  rcases e.field.coerce_cases e.value with ⟨htakes, s, hs, hkind⟩ | ⟨hrefused, hfault⟩
  · obtain ⟨q, hq⟩ : ∃ q, ofValue data' = .ok q := by
      refine (ofValue_ok_iff data').mpr fun d hd => ?_
      rcases hentered.of_mem_given hd with rfl | hd
      · exact htakes
      · exact hall d hd
    have hwrite : p.write (e.field, e.value) = .ok (e.field.set s p) := by
      rw [write, hs]
      rfl
    rw [hwrite, hq]
    refine congrArg Except.ok (ext_get fun f => ?_)
    rw [ofValue_eq] at h hq
    by_cases hf : f = e.field
    · have hleft := leftAt_of_writes hq e.field
      unfold LeftAt at hleft
      rw [hentered.filter_own] at hleft
      rw [hf, Field.get_set_self hkind]
      exact Except.ok.inj (hs.symm.trans hleft)
    · rw [Field.get_set_of_ne hf]
      exact ((leftAt_of_writes h f).congr (hentered.filter_other hf)).unique
        (leftAt_of_writes hq f)
  · have hwrite : p.write (e.field, e.value) = .error (e.field.blame e.value) := by
      rw [write, hfault]
      rfl
    rw [hwrite]
    cases hdata : ofValue data' with
    | ok q =>
      have htakes := (ofValue_ok_iff data').mp ⟨q, hdata⟩ _ hentered.mem_given
      exact (Bool.eq_false_iff.mp hrefused htakes).elim
    | error fault =>
      obtain ⟨before, d, after, hsplit, -, hnot, rfl⟩ := ofValue_error_iff.mp hdata
      have hmem : d ∈ given data' := hsplit ▸ List.mem_append_right before List.mem_cons_self
      rcases hentered.of_mem_given hmem with rfl | hd
      · rfl
      · exact (Bool.eq_false_iff.mp hnot (hall d hd)).elim

/-- Data with the edit entered last are such. -/
theorem Edit.entered_enter (e : Edit) (data : Value) : e.Entered data (e.enter data) := by
  have hname : ∀ g, g ≠ e.group → g.name ≠ e.group.name := by
    intro g
    cases e.group <;> cases g <;> decide
  constructor
  · intro g hg
    unfold enter groupEntries
    simp only [Listing.get?_put_of_ne _ (hname g hg)]
    cases data <;> rfl
  · refine ⟨e.others data, [], (List.append_nil _).symm, ?_⟩
    unfold enter groupEntries
    simp only [Listing.get?_put_self]

/-- The other fields keep what they hold. -/
theorem get_of_replace (h : p.replace e.path e.value = .ok q) (hf : f ≠ e.field) :
    f.get q = f.get p :=
  get_write_of_ne ((replace_path p e).symm.trans h) hf

theorem replace_ok_iff : p.replace e.path e.value = .ok q ↔
    ∃ s, e.field.coerce e.value = .ok s ∧ e.field.set s p = q := by
  rw [replace_path, write]
  constructor
  · exact exists_of_map_ok
  · rintro ⟨s, hs, rfl⟩
    rw [hs]
    rfl

/-- Edits of different fields that succeed one after the other do so in either order. -/
theorem replace_comm (hne : e'.field ≠ e.field)
    (h : (p.replace e.path e.value >>= fun r => r.replace e'.path e'.value) = .ok q) :
    (p.replace e'.path e'.value >>= fun r => r.replace e.path e.value) = .ok q := by
  obtain ⟨r, hr, hq⟩ := exists_of_bind_ok h
  obtain ⟨s, hs, rfl⟩ := replace_ok_iff.mp hr
  obtain ⟨t, ht, rfl⟩ := replace_ok_iff.mp hq
  rw [replace_ok_iff.mpr ⟨t, ht, rfl⟩]
  refine replace_ok_iff.mpr ⟨s, hs, ?_⟩
  exact (set_comm hne (Field.kind_of_coerce hs) (Field.kind_of_coerce ht) p).symm

/-- Of two edits of one field the last decides. -/
theorem replace_replace (hsame : e'.field = e.field) (h : p.replace e.path e.value = .ok q) :
    q.replace e'.path e'.value = p.replace e'.path e'.value := by
  obtain ⟨s, -, rfl⟩ := replace_ok_iff.mp h
  rw [replace_path, replace_path, write, write]
  cases ht : e'.field.coerce e'.value with
  | error fault => rfl
  | ok t =>
    have hkind := Field.kind_of_coerce ht
    exact congrArg Except.ok (hsame ▸ set_set hkind s p)

/-- A series of edits that succeed gives what is read from the data with all of them entered. -/
theorem ofValue_replaces {edits : List Edit} (h : ofValue data = .ok p)
    (hedits : edits.foldlM (fun p e => p.replace e.path e.value) p = .ok q) :
    ofValue (edits.foldl (fun data e => e.enter data) data) = .ok q := by
  induction edits generalizing data p with
  | nil =>
    cases hedits
    exact h
  | cons e edits ih =>
    rw [List.foldlM_cons] at hedits
    obtain ⟨r, hr, hrest⟩ := exists_of_bind_ok hedits
    refine ih ?_ hrest
    rw [← ofValue_of_entered h (e.entered_enter data), ← replace_path]
    exact hr

/-- **Editing agrees with reading.** For parameters that were read from data, and an edit of one of
    them by any of its names: the edit has the same outcome, be it parameters or a fault, as a
    reading of the data with the edit entered. It coerces the value by what the field holds, which
    is as it does by the field's baseline value. The other fields keep what they hold, edits of
    different fields commute where they succeed, and of two edits of one field the last decides. -/
theorem replace_eq_ofValue (h : ofValue data = .ok p) (e : Edit) :
    (∀ data', e.Entered data data' → p.replace e.path e.value = ofValue data') ∧
    e.Entered data (e.enter data) ∧
    (p.replace e.path e.value =
      (e.field.coerceLike (e.field.get p) e.value).map fun s => e.field.set s p) ∧
    (∀ v, e.field.coerceLike (e.field.get p) v = e.field.coerceLike (e.field.get baseline) v) ∧
    (∀ q, p.replace e.path e.value = .ok q → ∀ f, f ≠ e.field → f.get q = f.get p) ∧
    (∀ e' : Edit, e'.field ≠ e.field → ∀ q,
      (p.replace e.path e.value >>= fun r => r.replace e'.path e'.value) = .ok q →
        (p.replace e'.path e'.value >>= fun r => r.replace e.path e.value) = .ok q) ∧
    ∀ e' : Edit, e'.field = e.field → ∀ q, p.replace e.path e.value = .ok q →
      q.replace e'.path e'.value = p.replace e'.path e'.value := by
  refine ⟨fun data' hentered => ?_, e.entered_enter data, ?_, fun v => ?_,
    fun q hq f hf => get_of_replace hq hf, fun e' hne q hq => replace_comm hne hq,
    fun e' hsame q hq => replace_replace hsame hq⟩
  · rw [replace_path]
    exact ofValue_of_entered h hentered
  · rw [replace_path, Field.coerceLike_get]
    rfl
  · rw [Field.coerceLike_get, Field.coerceLike_get]

/-- Data that give the number of launches twice, under two of its names. -/
def respelled : Value :=
  .mapping [("mars", .blank), ("earth", .mapping [("launch_volume", .whole 200),
    ("wrightsLawSatelliteGBPS", .float 0.5), ("launchVolume", .text "300")])]

/-- The number of launches, given as a text. -/
def moreLaunches : Edit :=
  ⟨.earth, .launchVolume, "launchVolume", .text "250", by decide, by decide, nofun⟩

theorem replace_eq_ofValue_moreLaunches :
    moreLaunches.path = "earth.launchVolume" ∧
    ∃ p q, ofValue respelled = .ok p ∧ p.replace moreLaunches.path (.text "250") = .ok q ∧
      ofValue (.mapping [("mars", .blank), ("earth", .mapping
        [("wrightsLawSatelliteGBPS", .float 0.5), ("launchVolume", .text "250")])]) = .ok q ∧
      Field.wrightsLawSatelliteGbps.get q = Field.wrightsLawSatelliteGbps.get p := by
  have hall : ∀ d ∈ given respelled, d.1.kind.takes d.2 = true := by decide +kernel
  obtain ⟨p, hp⟩ := (ofValue_ok_iff respelled).mpr hall
  obtain ⟨hsame, -, -, -, hkept, -, -⟩ := replace_eq_ofValue hp moreLaunches
  have hentered : moreLaunches.Entered respelled (.mapping [("mars", .blank), ("earth", .mapping
      [("wrightsLawSatelliteGBPS", .float 0.5), ("launchVolume", .text "250")])]) := by
    refine ⟨fun g hg => ?_, [("wrightsLawSatelliteGBPS", .float 0.5)], [], rfl, rfl⟩
    cases g with
    | earth => exact (hg rfl).elim
    | mars | financial => rfl
  have htakes : moreLaunches.field.kind.takes (.text "250") = true := by decide +kernel
  rcases replace_cases moreLaunches.fieldAt_path p (.text "250") with ⟨-, q, hq⟩ | ⟨hrefused, -⟩
  · have hread := (hsame _ hentered).symm.trans hq
    exact ⟨by decide, p, q, hp, hq, hread, hkept q hq _ (by decide)⟩
  · exact absurd htakes (Bool.eq_false_iff.mp hrefused)

end Outcomes

end Parameters

end Appraisal
