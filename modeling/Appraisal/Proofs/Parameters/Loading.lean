import Appraisal.Proofs.Checked
import Appraisal.Proofs.Evaluation.Operand
import Appraisal.Proofs.Number.Expansion
import Appraisal.Proofs.Parameters.RoundTrip

/-!
# Values that no field takes

Parameters are read entry by entry, the groups in their order and the entries of a group in theirs.
Unknown names and absent values are passed over; of the others each has a value that its field takes
or not, whatever was read before. The first that is not taken is what the reading is blamed on: by
the name of its field and its value, but for two values that overflow before this is worded.

* `Kind.takes`, `Kind.overflow?`, `Field.blame` — the values that a field takes, those that
  overflow, and the fault of all that it does not take;
* `Field.coerce_error_iff` — **a value is refused exactly where it is not taken**;
* `Parameters.given`, `ofValue_eq` — what a mapping gives, as one series of writes;
* `ofValue_blames` — parameters that are read, or blamed on the first value that is not taken.
-/

namespace Appraisal

open Appraisal.Text

/-! ## 1. Single values -/

/-- The values that a field takes: a flag takes all, a year what has a whole number, the others what
    has a float. -/
def Kind.takes : Kind → Value → Bool
  | .flag, _ => true
  | _, .scalar (.flag _) => true
  | .year, .scalar (.number (.whole _)) => true
  | .year, .scalar (.number (.float x)) => !x.isNaN && !x.isInf
  | .year, .scalar (.text s) => (Number.readWhole? s.toList).isSome
  | .real, .scalar (.number n) => n.fitsFloat
  | .real, .scalar (.text s) => (Number.readFloat? s.toList).isSome
  | _, _ => false

/-- The overflow of a value: an infinity for a year, and a whole number beyond the floats for a rate
    or an amount. -/
def Kind.overflow? : Kind → Value → Option Fault
  | .year, .scalar (.number (.float x)) => if x.isInf then some .infinityNotWhole else none
  | .real, .scalar (.number (.whole n)) =>
    if Number.fitsFloat (.whole n) then none else some .wholeTooLarge
  | _, _ => none

/-- What a field blames a value for that it does not take. -/
def Field.blame (f : Field) (v : Value) : Fault :=
  (f.kind.overflow? v).getD (.invalidSetting f.group.name f.name v)

theorem Kind.overflow?_cases {k : Kind} {v : Value} {fault : Fault}
    (h : k.overflow? v = some fault) : fault = .infinityNotWhole ∨ fault = .wholeTooLarge := by
  unfold overflow? at h
  split at h
  · exact Or.inl (Option.some.inj (Option.ite_none_right_eq_some.mp h).2).symm
  · exact Or.inr (Option.some.inj (Option.ite_none_left_eq_some.mp h).2).symm
  · cases h

/-- A reading of values has a result for those that the kind takes, an overflow for those that
    overflow, and nothing for the others. -/
def Kind.Reads {β : Type} (k : Kind) (read : Value → Except Fault (Option β)) : Prop :=
  ∀ v, (k.takes v = true ∧ ∃ b, read v = .ok (some b)) ∨
    (k.takes v = false ∧
      read v = match k.overflow? v with
        | some fault => .error fault
        | none => .ok none)

theorem reads_wholeOf? : Kind.year.Reads wholeOf? := by
  intro v
  cases v with
  | list _ | mapping _ => exact Or.inr ⟨rfl, rfl⟩
  | scalar s =>
    cases s with
    | blank => exact Or.inr ⟨rfl, rfl⟩
    | flag b => exact Or.inl ⟨rfl, _, rfl⟩
    | text t =>
      simp only [Kind.takes, wholeOf?, Kind.overflow?]
      cases Number.readWhole? t.toList with
      | none => exact Or.inr ⟨rfl, rfl⟩
      | some n => exact Or.inl ⟨rfl, n, rfl⟩
    | number n =>
      cases n with
      | whole n => exact Or.inl ⟨rfl, n, rfl⟩
      | float x =>
        simp only [Kind.takes, wholeOf?, Kind.overflow?, truncated]
        rcases Number.expand_cases x with
          ⟨hnan, hinf, h⟩ | ⟨hinf, _, h⟩ | ⟨hnan, hinf, _, _, _, h⟩
        · rw [h, hnan, hinf]
          exact Or.inr ⟨rfl, rfl⟩
        · rw [h, hinf, Bool.not_true, Bool.and_false]
          exact Or.inr ⟨rfl, rfl⟩
        · rw [h, hnan, hinf]
          exact Or.inl ⟨rfl, _, rfl⟩

theorem reads_floatOf? : Kind.real.Reads floatOf? := by
  intro v
  cases v with
  | list _ | mapping _ => exact Or.inr ⟨rfl, rfl⟩
  | scalar s =>
    cases s with
    | blank => exact Or.inr ⟨rfl, rfl⟩
    | flag b => exact Or.inl ⟨rfl, _, rfl⟩
    | text t =>
      simp only [Kind.takes, floatOf?, Kind.overflow?]
      cases Number.readFloat? t.toList with
      | none => exact Or.inr ⟨rfl, rfl⟩
      | some x => exact Or.inl ⟨rfl, x, rfl⟩
    | number n =>
      cases n with
      | float x => exact Or.inl ⟨rfl, x, rfl⟩
      | whole n =>
        simp only [Kind.takes, floatOf?, Kind.overflow?]
        rcases (Number.whole n).toFloat_cases with ⟨hfit, hn⟩ | ⟨hfit, x, hn⟩
        · rw [hfit, hn]
          exact Or.inr ⟨rfl, rfl⟩
        · rw [hfit, hn]
          exact Or.inl ⟨rfl, x, rfl⟩

namespace Field

variable {f : Field} {v : Value} {fault : Fault} {s : Setting Float}

/-- **A field takes a value, as a setting of its kind, or blames it.** -/
theorem coerce_cases (f : Field) (v : Value) :
    (f.kind.takes v = true ∧ ∃ s : Setting Float, f.coerce v = .ok s ∧ s.kind = f.kind) ∨
      (f.kind.takes v = false ∧ f.coerce v = .error (f.blame v)) := by
  unfold coerce blame
  cases f.kind with
  | flag => exact Or.inl ⟨rfl, _, rfl, rfl⟩
  | year =>
    rcases reads_wholeOf? v with ⟨htakes, n, hn⟩ | ⟨htakes, hread⟩
    · exact Or.inl ⟨htakes, .year n, by simp only [hn]; rfl, rfl⟩
    · refine Or.inr ⟨htakes, ?_⟩
      simp only [hread]
      cases Kind.year.overflow? v <;> rfl
  | real =>
    rcases reads_floatOf? v with ⟨htakes, x, hx⟩ | ⟨htakes, hread⟩
    · exact Or.inl ⟨htakes, .real x, by simp only [hx]; rfl, rfl⟩
    · refine Or.inr ⟨htakes, ?_⟩
      simp only [hread]
      cases Kind.real.overflow? v <;> rfl

theorem coerce_ok_iff : (∃ s, f.coerce v = .ok s) ↔ f.kind.takes v = true := by
  rcases f.coerce_cases v with ⟨htakes, s, hs, -⟩ | ⟨htakes, hfault⟩
  · exact ⟨fun _ => htakes, fun _ => ⟨s, hs⟩⟩
  · rw [hfault, htakes]
    exact ⟨nofun, nofun⟩

theorem coerce_error_iff :
    f.coerce v = .error fault ↔ f.kind.takes v = false ∧ fault = f.blame v := by
  rcases f.coerce_cases v with ⟨htakes, s, hs, -⟩ | ⟨htakes, hfault⟩
  · rw [hs, htakes]
    exact ⟨nofun, nofun⟩
  · rw [hfault, htakes]
    exact ⟨fun h => ⟨rfl, (Except.error.inj h).symm⟩, fun h => by rw [h.2]⟩

theorem kind_of_coerce (h : f.coerce v = .ok s) : s.kind = f.kind := by
  rcases f.coerce_cases v with ⟨-, s', hs, hkind⟩ | ⟨-, hfault⟩
  · cases h.symm.trans hs
    exact hkind
  · rw [hfault] at h
    cases h

/-- Where nothing overflows, a refused value is blamed by the names of group and field. -/
theorem message_blame (h : f.kind.overflow? v = none) :
    (f.blame v).message =
      "Invalid value for " ++ f.group.name ++ "." ++ f.name ++ ": " ++ v.shown := by
  rw [blame, h]
  rfl

/-- A rate or an amount cannot be a whole number beyond the floats. -/
theorem blame_overlarge {n : Int} (hf : f.kind = .real) (h : (Number.whole n).fitsFloat = false) :
    f.blame (.whole n) = .wholeTooLarge := by
  rw [blame, hf, Kind.overflow?, h]
  rfl

end Field

/-! ## 2. Mappings -/

namespace Parameters

/-- What an entry of a group gives: a field and its value, unless the name is unknown or the value
    absent. -/
def entryGiven? (g : Group) (entry : String × Value) : Option (Field × Value) :=
  match g.field? entry.1, entry.2 with
  | none, _ => none
  | some _, .scalar .blank => none
  | some f, v => some (f, v)

/-- What a mapping gives, the groups in their order and the entries of each in theirs. -/
def given (data : Value) : List (Field × Value) :=
  Group.all.flatMap fun g => (groupEntries data g).filterMap (entryGiven? g)

/-- The parameters with what was given for one field written. -/
def write (p : Parameters Float) (e : Field × Value) : Except Fault (Parameters Float) :=
  (e.1.coerce e.2).map fun s => e.1.set s p

theorem applyEntry_eq (g : Group) (p : Parameters Float) (entry : String × Value) :
    applyEntry g p entry = match entryGiven? g entry with
      | none => .ok p
      | some e => p.write e := by
  unfold applyEntry entryGiven?
  cases g.field? entry.1 with
  | none => rfl
  | some f =>
    cases entry.2 with
    | list _ | mapping _ => rfl
    | scalar s => cases s <;> rfl

theorem applyGroup_eq (data : Value) (p : Parameters Float) (g : Group) :
    applyGroup data p g = ((groupEntries data g).filterMap (entryGiven? g)).foldlM write p := by
  unfold applyGroup
  generalize groupEntries data g = entries
  induction entries generalizing p with
  | nil => rfl
  | cons e entries ih =>
    rw [List.foldlM_cons, List.filterMap_cons, applyEntry_eq]
    cases entryGiven? g e with
    | none => exact ih p
    | some d =>
      rw [List.foldlM_cons]
      exact bind_congr ih

/-- **Parameters are read as one series of writes over the baseline.** -/
theorem ofValue_eq (data : Value) : ofValue data = (given data).foldlM write baseline := by
  unfold ofValue given
  generalize Group.all = groups
  generalize (baseline : Parameters Float) = p
  induction groups generalizing p with
  | nil => rfl
  | cons g groups ih =>
    rw [List.foldlM_cons, List.flatMap_cons, List.foldlM_append, applyGroup_eq]
    exact bind_congr ih

theorem write_step (p : Parameters Float) (e : Field × Value) :
    ∃ put, p.write e = (e.1.coerce e.2).map put :=
  ⟨fun s => e.1.set s p, rfl⟩

theorem ofValue_ok_iff (data : Value) :
    (∃ p, ofValue data = .ok p) ↔ ∀ e ∈ given data, e.1.kind.takes e.2 = true := by
  rw [ofValue_eq, foldlM_ok_iff write_step]
  exact forall₂_congr fun e _ => Field.coerce_ok_iff

/-- The first of the values that is not taken is blamed with the fault. -/
def BlamesFirst (es : List (Field × Value)) (fault : Fault) : Prop :=
  ∃ before e after, es = before ++ e :: after ∧ (∀ d ∈ before, d.1.kind.takes d.2 = true) ∧
    e.1.kind.takes e.2 = false ∧ fault = e.1.blame e.2

/-- **Parameters that are not read are blamed on the first value that its field does not take.** -/
theorem ofValue_error_iff {data : Value} {fault : Fault} :
    ofValue data = .error fault ↔ BlamesFirst (given data) fault := by
  rw [ofValue_eq, foldlM_error_iff write_step]
  refine exists₃_congr fun before e after => and_congr_right fun _ => and_congr ?_ ?_
  · exact forall₂_congr fun d _ => Field.coerce_ok_iff
  · exact Field.coerce_error_iff

/-! ## 3. Paths -/

section Replace

variable {g : Group} {f : Field} {key path : String}

theorem splitPath_name (g : Group) (key : String) :
    splitPath (g.name ++ "." ++ key) = (g.name, key) := by
  have htext : (g.name ++ "." ++ key).toList = g.name.toList ++ '.' :: key.toList := by
    rw [String.toList_append, String.toList_append, List.append_assoc]
    rfl
  have hpoint : '.' ∉ g.name.toList := by
    cases g <;> decide
  rw [splitPath, htext, cutFirst_eq_some_iff.mpr ⟨rfl, hpoint⟩]
  simp only [String.ofList_toList]

/-- **A field is at the path of its group and any of its names.** -/
theorem fieldAt_of_isNamed (hf : f ∈ g.fields) (hkey : f.isNamed key = true) :
    fieldAt (g.name ++ "." ++ key) = .ok f := by
  have hgroup : Group.ofName? g.name = some g := by
    cases g <;> decide
  simp only [fieldAt, splitPath_name, hgroup, field?_of_isNamed hf hkey]

/-- On the path of a field a value is written as it is when it is read. -/
theorem replace_eq (h : fieldAt path = .ok f) (p : Parameters Float) (v : Value) :
    p.replace path v = p.write (f, v) := by
  rw [replace, h, write]
  show (f.coerce v >>= fun s => pure (f.set s p)) = (f.coerce v).map fun s => f.set s p
  cases f.coerce v <;> rfl

theorem replace_cases (h : fieldAt path = .ok f) (p : Parameters Float) (v : Value) :
    (f.kind.takes v = true ∧ ∃ q, p.replace path v = .ok q) ∨
      (f.kind.takes v = false ∧ p.replace path v = .error (f.blame v)) := by
  rw [replace_eq h, write]
  rcases f.coerce_cases v with ⟨htakes, s, hs, -⟩ | ⟨htakes, hfault⟩
  · rw [hs]
    exact Or.inl ⟨htakes, _, rfl⟩
  · rw [hfault]
    exact Or.inr ⟨htakes, rfl⟩

end Replace

/-! ## 4. What is blamed -/

/-- **Parameters are read, or blamed on the first value that is not taken**, and so is a parameter
    that is changed on a known path. What is blamed is the value, by the names of its group and its
    field, but for an infinity as a year and a whole number beyond the floats as a rate or an
    amount, which overflow. -/
theorem ofValue_blames (data : Value) :
    (((∃ p, ofValue data = .ok p) ∧ ∀ e ∈ given data, e.1.kind.takes e.2 = true) ∨
      ∃ fault, ofValue data = .error fault ∧ BlamesFirst (given data) fault) ∧
    (∀ (p : Parameters Float) (path : String) (f : Field) (v : Value), fieldAt path = .ok f →
      (f.kind.takes v = true ∧ ∃ q, p.replace path v = .ok q) ∨
        (f.kind.takes v = false ∧ p.replace path v = .error (f.blame v))) ∧
    ∀ (f : Field) (v : Value),
      (f.kind.overflow? v = none → f.blame v = .invalidSetting f.group.name f.name v ∧
        (f.blame v).message =
          "Invalid value for " ++ f.group.name ++ "." ++ f.name ++ ": " ++ v.shown) ∧
      ∀ fault, f.kind.overflow? v = some fault → f.blame v = fault ∧
        (fault = .infinityNotWhole ∨ fault = .wholeTooLarge) := by
  refine ⟨?_, fun p path f v h => replace_cases h p v, fun f v => ⟨fun h => ?_, ?_⟩⟩
  · cases hdata : ofValue data with
    | ok p => exact Or.inl ⟨⟨p, rfl⟩, (ofValue_ok_iff data).mp ⟨p, hdata⟩⟩
    | error fault => exact Or.inr ⟨fault, rfl, ofValue_error_iff.mp hdata⟩
  · exact ⟨by rw [Field.blame, h]; rfl, Field.message_blame h⟩
  · intro fault h
    exact ⟨by rw [Field.blame, h]; rfl, Kind.overflow?_cases h⟩

/-- Data with values that their fields do not take, the first of them in the group that is listed
    last. -/
def crowded : Value :=
  .mapping [("mars", .mapping [("firstColonyYear", .float Number.infinity)]),
    ("earth", .mapping [("launchVolume", .blank), ("launch_volume", .text "many")])]

theorem ofValue_blames_crowded :
    ofValue crowded = .error (.invalidSetting "earth" "launch_volume" (.text "many")) ∧
    fieldAt "mars.firstColonyYear" = .ok .firstColonyYear ∧
    (baseline : Parameters Float).replace "mars.firstColonyYear" (.list []) =
      .error (.invalidSetting "mars" "first_colony_year" (.list [])) ∧
    (Fault.invalidSetting "mars" "first_colony_year" (.list [])).message =
      "Invalid value for mars.first_colony_year: []" := by
  obtain ⟨hread, hreplace, hblame⟩ := ofValue_blames crowded
  have hgiven : given crowded = [(.launchVolume, .text "many"),
      (.firstColonyYear, .float Number.infinity)] := rfl
  have hpath : fieldAt "mars.firstColonyYear" = .ok .firstColonyYear := by
    have hnamed : Field.firstColonyYear.isNamed "firstColonyYear" = true := by decide
    have hfound := fieldAt_of_isNamed (g := .mars) List.mem_cons_self hnamed
    rwa [show Group.mars.name ++ "." ++ "firstColonyYear" = "mars.firstColonyYear" by decide]
      at hfound
  have hlist := (hblame .firstColonyYear (.list [])).1 rfl
  refine ⟨?_, hpath, ?_, hlist.2⟩
  · rcases hread with ⟨-, hall⟩ | ⟨fault, hfault, before, e, after, hsplit, hbefore, -, rfl⟩
    · exact absurd (hall _ (hgiven ▸ List.mem_cons_self)) (by decide)
    · rw [hgiven] at hsplit
      cases before with
      | nil =>
        cases hsplit
        rw [hfault, ((hblame .launchVolume (.text "many")).1 rfl).1]
        rfl
      | cons d before =>
        obtain ⟨rfl, -⟩ := List.cons.inj hsplit
        exact absurd (hbefore _ List.mem_cons_self) (by decide)
  · rcases hreplace baseline _ _ (.list []) hpath with ⟨htakes, -⟩ | ⟨-, hfault⟩
    · cases htakes
    · rw [hfault, hlist.1]
      rfl

/-- Values that overflow are not blamed by name. -/
theorem ofValue_overflows :
    ofValue (.mapping [("mars", .mapping [("firstColonyYear", .float Number.infinity)])]) =
      .error .infinityNotWhole ∧
    ofValue (.mapping [("earth", .mapping [("launchVolume", .whole (.pow 10 309))])]) =
      .error .wholeTooLarge ∧
    Fault.infinityNotWhole.message ≠ "Invalid value for mars.first_colony_year: inf" := by
  have hnone : ∀ d ∈ ([] : List (Field × Value)), d.1.kind.takes d.2 = true := nofun
  have hlarge : (Number.whole (.pow 10 309)).fitsFloat = false := by decide +kernel
  refine ⟨?_, ?_, by decide⟩
  · exact ofValue_error_iff.mpr ⟨[], (.firstColonyYear, .float Number.infinity), [], rfl, hnone,
      by decide +kernel, rfl⟩
  · exact ofValue_error_iff.mpr ⟨[], (.launchVolume, .whole (.pow 10 309)), [], rfl, hnone, hlarge,
      (Field.blame_overlarge rfl hlarge).symm⟩

end Parameters

end Appraisal
