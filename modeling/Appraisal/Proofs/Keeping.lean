import Appraisal.Proofs.Checked
import Appraisal.Proofs.Listing
import Mathlib.Data.List.Induction
import Mathlib.Data.List.Nodup
import Mathlib.Data.List.Perm.Basic

/-!
# Entries that are kept

Captured entries are loaded one after the other, and each is kept under its key: in the place of an
earlier one of that key, or behind all others.

* `keepAll` — the listing that is left; `exists_keepAll_iff`, `keepAll_error_iff` — **it is there
  exactly where every entry can be loaded**, and fails as the first one that cannot;
* `keepAll_iff`, `keepAll_perm` — entries with distinct keys are kept one by one;
* `names_keepAll` — the keys, in the order in which they first came; `get?_keepAll`,
  `exists_of_mem_keepAll` — **what is kept under a key is what its last entry was loaded as**.
-/

namespace Appraisal

section Kept

variable {α β ε : Type} (key : β → String) (load : β → Except ε α)

/-- The entries are kept one after the other, each under its key. -/
def keepAll (entries : List β) (l : Listing α) : Except ε (Listing α) :=
  entries.foldlM (fun l e => do
    let a ← load e
    .ok (Listing.put l (key e) a)) l

/-- A step fails where its entry cannot be loaded, whatever is kept by then. -/
theorem keepAll_step (l : Listing α) (e : β) :
    ∃ put : α → Listing α, (do
      let a ← load e
      Except.ok (Listing.put l (key e) a)) = (load e).map put := by
  refine ⟨l.put (key e), ?_⟩
  cases load e <;> rfl

/-- Entries are kept exactly where every one of them can be loaded. -/
theorem exists_keepAll_iff (entries : List β) (l : Listing α) :
    (∃ l', keepAll key load entries l = .ok l') ↔ ∀ e ∈ entries, ∃ a, load e = .ok a :=
  foldlM_ok_iff (keepAll_step key load) entries l

/-- Entries that are not kept fail as the first one that cannot be loaded. -/
theorem keepAll_error_iff (entries : List β) (l : Listing α) (fault : ε) :
    keepAll key load entries l = .error fault ↔ FailsFirst load entries fault :=
  foldlM_error_iff (keepAll_step key load) entries l

theorem keepAll_singleton (e : β) (l : Listing α) :
    keepAll key load [e] l = (load e).map (l.put (key e)) := by
  unfold keepAll
  rw [List.foldlM_cons]
  cases load e <;> rfl

theorem keepAll_append (entries entries' : List β) (l : Listing α) :
    keepAll key load (entries ++ entries') l =
      keepAll key load entries l >>= keepAll key load entries' := by
  unfold keepAll
  rw [List.foldlM_append]

variable {entries entries' : List β} {l l' : Listing α}

/-- **Entries with distinct keys are kept one by one**, in the order in which they come. -/
theorem keepAll_iff (hn : (l.names ++ entries.map key).Nodup) :
    keepAll key load entries l = .ok l' ↔
      ∃ kept, l' = l ++ kept ∧
        List.Forall₂ (fun e p => p.1 = key e ∧ load e = .ok p.2) entries kept := by
  induction entries generalizing l with
  | nil =>
    constructor
    · intro h
      cases h
      exact ⟨[], (List.append_nil _).symm, .nil⟩
    · rintro ⟨kept, rfl, hkept⟩
      cases hkept
      rw [List.append_nil]
      rfl
  | cons e entries ih =>
    rw [List.map_cons] at hn
    have hnew : key e ∉ l.names := fun hm =>
      (List.nodup_cons.mp (List.nodup_middle.mp hn)).1 (List.mem_append_left _ hm)
    have hcons : keepAll key load (e :: entries) l =
        load e >>= fun a => keepAll key load entries (l.put (key e) a) := by
      unfold keepAll
      rw [List.foldlM_cons, bind_assoc]
      rfl
    rw [hcons]
    cases he : load e with
    | error fault =>
      refine ⟨nofun, fun ⟨kept, _, hkept⟩ => ?_⟩
      cases hkept with
      | cons hp _ =>
        rw [he] at hp
        cases hp.2
    | ok a =>
      rw [List.append_cons, ← Listing.names_put_of_not_mem a hnew] at hn
      show keepAll key load entries (l.put (key e) a) = .ok l' ↔ _
      rw [ih hn, Listing.put_of_not_mem a hnew]
      constructor
      · rintro ⟨kept, rfl, hkept⟩
        exact ⟨(key e, a) :: kept, List.append_assoc .., .cons ⟨rfl, he⟩ hkept⟩
      · rintro ⟨kept, rfl, hkept⟩
        cases hkept with
        | @cons _ p _ kept hp hkept =>
          obtain ⟨k, b⟩ := p
          obtain ⟨rfl, hb⟩ := hp
          cases he.symm.trans hb
          refine ⟨kept, ?_, hkept⟩
          rw [List.append_assoc]
          rfl

theorem keepAll_nil_iff (hn : (entries.map key).Nodup) :
    keepAll key load entries [] = .ok l ↔
      List.Forall₂ (fun e p => p.1 = key e ∧ load e = .ok p.2) entries l := by
  rw [keepAll_iff key load (l := []) hn]
  constructor
  · rintro ⟨kept, rfl, hkept⟩
    exact hkept
  · exact fun hkept => ⟨l, rfl, hkept⟩

/-- Entries with distinct keys that come in another order are kept in another order. -/
theorem keepAll_perm (h : entries.Perm entries') (hn : (entries.map key).Nodup)
    (hl : keepAll key load entries [] = .ok l) :
    ∃ l', keepAll key load entries' [] = .ok l' ∧ l.Perm l' := by
  have hn' : (entries'.map key).Nodup := (h.map key).nodup_iff.mp hn
  obtain ⟨l', hkept, hperm⟩ :=
    List.perm_comp_forall₂ h.symm ((keepAll_nil_iff key load hn).mp hl)
  exact ⟨l', (keepAll_nil_iff key load hn').mpr hkept, hperm.symm⟩

variable {key load}

/-- **Of the entries that are kept under a name the last one is found.** -/
theorem get?_keepAll (h : keepAll key load entries l = .ok l') (name : String) :
    (∀ e, entries.reverse.find? (key · == name) = some e →
      ∃ a, load e = .ok a ∧ l'.get? name = some a) ∧
    (entries.reverse.find? (key · == name) = none → l'.get? name = l.get? name) := by
  induction entries generalizing l with
  | nil =>
    cases h
    exact ⟨nofun, fun _ => rfl⟩
  | cons e entries ih =>
    unfold keepAll at h
    rw [List.foldlM_cons, bind_assoc] at h
    obtain ⟨a, ha, hrest⟩ := exists_of_bind_ok h
    obtain ⟨hfound, hnone⟩ := ih (hrest : keepAll key load entries (l.put (key e) a) = .ok l')
    rw [List.reverse_cons, List.find?_append]
    cases hlater : entries.reverse.find? (key · == name) with
    | some e' =>
      obtain ⟨a', ha', hget⟩ := hfound e' hlater
      refine ⟨fun d hd => ?_, nofun⟩
      cases hd
      exact ⟨a', ha', hget⟩
    | none =>
      have hget := hnone hlater
      by_cases hname : key e = name
      · rw [← hname, Listing.get?_put_self, hname] at hget
        have hfind : [e].find? (key · == name) = some e :=
          List.find?_cons_of_pos (by rw [hname, beq_self_eq_true])
        rw [hfind]
        refine ⟨fun d hd => ?_, nofun⟩
        cases hd
        exact ⟨a, ha, hget⟩
      · rw [Listing.get?_put_of_ne a (Ne.symm hname)] at hget
        have hfind : [e].find? (key · == name) = none :=
          List.find?_cons_of_neg (by rw [beq_eq_false_iff_ne.mpr hname]; decide)
        rw [hfind]
        exact ⟨nofun, fun _ => hget⟩

/-- The keys come in the order in which they first came. -/
theorem names_keepAll (h : keepAll key load entries [] = .ok l) :
    l.names = (entries.map key).eraseDups := by
  induction entries using List.reverseRecOn generalizing l with
  | nil =>
    cases h
    rfl
  | append_singleton entries e ih =>
    rw [keepAll_append] at h
    obtain ⟨kept, hkept, h⟩ := exists_of_bind_ok h
    rw [keepAll_singleton] at h
    obtain ⟨a, -, rfl⟩ := exists_of_map_ok h
    have hnames := ih hkept
    rw [List.map_append, List.eraseDups_append, List.map_singleton]
    by_cases hmem : key e ∈ entries.map key
    · have hold : key e ∈ kept.names := by
        rw [hnames]
        exact List.mem_eraseDups.mpr hmem
      have hnone : [key e].removeAll (entries.map key) = [] := by
        rw [List.removeAll, List.filter_cons_of_neg (by simpa using hmem), List.filter_nil]
      rw [Listing.names_put_of_mem a hold, hnames, hnone, List.eraseDups_nil, List.append_nil]
    · have hnew : key e ∉ kept.names := by
        rw [hnames]
        exact fun h => hmem (List.mem_eraseDups.mp h)
      have hone : [key e].removeAll (entries.map key) = [key e] := by
        rw [List.removeAll, List.filter_cons_of_pos (by simpa using hmem), List.filter_nil]
      rw [Listing.names_put_of_not_mem a hnew, hnames, hone]
      rfl

/-- Distinct names stay as they come. -/
theorem eraseDups_of_nodup {names : List String} (hn : names.Nodup) : names.eraseDups = names := by
  induction names with
  | nil => rfl
  | cons name names ih =>
    obtain ⟨hnew, hrest⟩ := List.nodup_cons.mp hn
    have hkeep : names.filter (fun other => !other == name) = names :=
      List.filter_eq_self.mpr fun other hother => by
        simpa using fun h : other = name => hnew (h ▸ hother)
    rw [List.eraseDups_cons, hkeep, ih hrest]

/-- Names stay distinct where entries are kept. -/
theorem nodup_names_keepAll (h : keepAll key load entries [] = .ok l) : l.names.Nodup := by
  have hempty : (Listing.names ([] : Listing α)).Nodup := List.nodup_nil
  refine foldlM_preserves (fun l : Listing α => l.names.Nodup) ?_ hempty h
  intro kept e kept' hn hstep
  obtain ⟨a, -, hstep⟩ := exists_of_bind_ok hstep
  cases hstep
  exact Listing.nodup_names_put hn

/-- **What is kept is what the last entry of its key was loaded as.** -/
theorem exists_of_mem_keepAll (h : keepAll key load entries [] = .ok l) {p : String × α}
    (hp : p ∈ l) :
    ∃ e, entries.reverse.find? (key · == p.1) = some e ∧ key e = p.1 ∧ load e = .ok p.2 := by
  obtain ⟨hfound, hnone⟩ := get?_keepAll h p.1
  have hget : l.get? p.1 = some p.2 := Listing.get?_of_mem (nodup_names_keepAll h) hp
  cases hlast : entries.reverse.find? (key · == p.1) with
  | none =>
    rw [hnone hlast] at hget
    cases hget
  | some e =>
    obtain ⟨a, ha, hkept⟩ := hfound e hlast
    rw [hget] at hkept
    cases hkept
    have hkey := List.find?_some hlast
    exact ⟨e, rfl, eq_of_beq hkey, ha⟩

end Kept

end Appraisal
