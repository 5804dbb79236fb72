import Mathlib.Data.List.Forall2
import Mathlib.Data.List.Perm.Basic
import PluginHost.Json.Fields

/-!
# Fields among members

A record in an object is read field by field: each field looks for the members with one of its
names and sees nothing else of the object. What it finds does not depend on where they stand, and
it finds too much as soon as two of them have one of its names, be it the same name again or
another one.

* `field?_congr`, `fields?_congr`: a field sees its own members only, in any order.
* `field?_eq_none_iff`: a field is found too often when it occurs twice.
* `tells_iff`: what a field comes to.
-/
namespace PluginHost.Json

variable {names : List String} {ms : List (String × Json)}

/-- What stands under one of the names, in the order of the members. -/
def under (names : List String) (ms : List (String × Json)) : List Json :=
  (ms.filter fun m => names.contains m.1).map (·.2)

theorem under_append (names : List String) (ms others : List (String × Json)) :
    under names (ms ++ others) = under names ms ++ under names others := by
  simp [under]

theorem under_cons_of_mem {key : String} (h : key ∈ names) (j : Json)
    (ms : List (String × Json)) : under names ((key, j) :: ms) = j :: under names ms := by
  simp [under, h]

theorem under_cons_of_not_mem {key : String} (h : key ∉ names) (j : Json)
    (ms : List (String × Json)) : under names ((key, j) :: ms) = under names ms := by
  simp [under, h]

theorem under_eq_nil_iff : under names ms = [] ↔ ∀ m ∈ ms, m.1 ∉ names := by
  simp [under, List.filter_eq_nil_iff]

/-- One value stands under the names when one member has one of them. -/
theorem under_eq_singleton_iff {j : Json} : under names ms = [j] ↔
    ∃ before key after, ms = before ++ (key, j) :: after ∧ key ∈ names ∧
      ∀ m ∈ before ++ after, m.1 ∉ names := by
  constructor
  · intro h
    obtain ⟨m, hfilter, rfl⟩ := List.map_eq_singleton_iff.1 h
    obtain ⟨before, after, rfl, hbefore, hm, hafter⟩ := List.filter_eq_cons_iff.1 hfilter
    refine ⟨before, m.1, after, rfl, by simpa using hm, fun other hother => ?_⟩
    rcases List.mem_append.1 hother with hmem | hmem
    · simpa using hbefore other hmem
    · simpa using List.filter_eq_nil_iff.1 hafter other hmem
  · rintro ⟨before, key, after, rfl, hkey, honly⟩
    obtain ⟨hbefore, hafter⟩ := List.forall_mem_append.1 honly
    rw [under_append, under_cons_of_mem hkey, under_eq_nil_iff.2 hbefore,
      under_eq_nil_iff.2 hafter, List.nil_append]

/-- A field is read off what stands under its names. -/
theorem field?_eq (names : List String) (ms : List (String × Json)) : field? names ms =
    match under names ms with
    | [] => some none
    | [j] => some (some j)
    | _ => none := by
  unfold field? under
  generalize ms.filter (fun m => names.contains m.1) = found
  rcases found with _ | ⟨_, _ | _⟩ <;> rfl

/-- A field sees its own members only, in any order. -/
theorem field?_congr {others : List (String × Json)}
    (h : (under names ms).Perm (under names others)) : field? names ms = field? names others := by
  rw [field?_eq, field?_eq]
  match hms : under names ms, hothers : under names others with
  | [], [] => rfl
  | [j], [k] =>
    rw [hms, hothers, List.singleton_perm_singleton] at h
    rw [h]
  | _ :: _ :: _, _ :: _ :: _ => rfl
  | [], _ :: _ | _ :: _, [] | [_], _ :: _ :: _ | _ :: _ :: _, [_] =>
    rw [hms, hothers] at h
    simpa using h.length_eq

/-- A record sees the members of its fields only. -/
theorem fields?_congr {others : List (String × Json)} {spellings : List (List String)}
    (h : ∀ names ∈ spellings, (under names ms).Perm (under names others)) :
    (object ms).fields? spellings = (object others).fields? spellings := by
  change spellings.mapM (field? · ms) = spellings.mapM (field? · others)
  induction spellings with
  | nil => rfl
  | cons names rest ih =>
    obtain ⟨hnames, hrest⟩ := List.forall_mem_cons.1 h
    rw [List.mapM_cons, List.mapM_cons, field?_congr hnames, ih hrest]

/-- A record is found when each of its fields is. -/
theorem fields?_eq_some_iff {spellings : List (List String)} {found : List (Option Json)} :
    (object ms).fields? spellings = some found ↔
      List.Forall₂ (fun names f => field? names ms = some f) spellings found := by
  change spellings.mapM (field? · ms) = some found ↔ _
  induction spellings generalizing found with
  | nil => simp [eq_comm]
  | cons names rest ih =>
    rw [List.mapM_cons, List.forall₂_cons_left_iff]
    simp only [Option.bind_eq_bind, Option.bind_eq_some_iff, Option.pure_def, Option.some.injEq, ih]
    constructor
    · rintro ⟨f, hf, fs, hfs, rfl⟩
      exact ⟨f, fs, hf, hfs, rfl⟩
    · rintro ⟨f, fs, hf, hfs, rfl⟩
      exact ⟨f, hf, fs, hfs, rfl⟩

/-- A field that finds one of its members finds it alone or too many. -/
theorem field?_of_mem {m : String × Json} (hm : m ∈ ms) (hname : m.1 ∈ names) :
    field? names ms = none ∨
      field? names ms = some (some m.2) ∧ ∀ l ∈ ms, l.1 ∈ names → l = m := by
  rw [field?_eq]
  match hunder : under names ms with
  | [] => exact absurd hname (under_eq_nil_iff.1 hunder m hm)
  | [j] =>
    obtain ⟨before, key, after, rfl, hkey, honly⟩ := under_eq_singleton_iff.1 hunder
    have hsole : ∀ l ∈ before ++ (key, j) :: after, l.1 ∈ names → l = (key, j) := by
      intro l hl hlname
      rcases List.mem_append.1 hl with hmem | hmem
      · exact absurd hlname (honly l (List.mem_append_left _ hmem))
      · rcases List.mem_cons.1 hmem with heq | hmem
        · exact heq
        · exact absurd hlname (honly l (List.mem_append_right _ hmem))
    obtain rfl := hsole m hm hname
    exact Or.inr ⟨rfl, hsole⟩
  | _ :: _ :: _ => exact Or.inl rfl

/-! ## Fields that occur twice -/

/-- Two of the keys are among the names: the same name again, or another one. -/
def Twice (names keys : List String) : Prop :=
  ∃ k ∈ names, ∃ l ∈ names, [k, l].Sublist keys

/-- A field is found too often when it occurs twice. -/
theorem field?_eq_none_iff : field? names ms = none ↔ Twice names (ms.map (·.1)) := by
  have hnames : ∀ k ∈ (ms.map (·.1)).filter names.contains, k ∈ names := fun k hk => by
    simpa using (List.mem_filter.1 hk).2
  have hlength : (under names ms).length = ((ms.map (·.1)).filter names.contains).length := by
    rw [under, List.filter_map, List.length_map, List.length_map]
    rfl
  have hfound : field? names ms = none ↔ 2 ≤ (under names ms).length := by
    rw [field?_eq]
    rcases under names ms with _ | ⟨_, _ | _⟩ <;> simp
  rw [hfound, hlength]
  constructor
  · intro h
    match hkeys : (ms.map (·.1)).filter names.contains with
    | k :: l :: rest =>
      rw [hkeys] at hnames
      refine ⟨k, hnames k (by simp), l, hnames l (by simp), ?_⟩
      have hfront : [k, l].Sublist (k :: l :: rest) := (List.prefix_append [k, l] rest).sublist
      exact (hkeys ▸ hfront).trans List.filter_sublist
    | [_] | [] => simp [hkeys] at h
  · rintro ⟨k, hk, l, hl, hsub⟩
    simpa [hk, hl] using (hsub.filter names.contains).length_le

/-! ## What a field comes to -/

/-- What the members say of a field: it has its empty value when none of them has one of its
names, and else it is read off the only one that has. -/
inductive Tells {α : Type} (names : List String) (empty : α) (read : Json → Option α)
    (ms : List (String × Json)) : α → Prop where
  | leftOut (hnone : ∀ m ∈ ms, m.1 ∉ names) : Tells names empty read ms empty
  | given {before after : List (String × Json)} {key : String} {j : Json} {a : α}
    (hms : ms = before ++ (key, j) :: after) (hkey : key ∈ names)
    (honly : ∀ m ∈ before ++ after, m.1 ∉ names) (hread : read j = some a) :
    Tells names empty read ms a

variable {α : Type} {empty a : α} {read : Json → Option α}

/-- What a field with an empty value comes to. -/
theorem tells_iff : Tells names empty read ms a ↔
    ∃ found, field? names ms = some found ∧ defaulted empty read found = some a := by
  constructor
  · intro h
    cases h with
    | leftOut hnone => exact ⟨none, by rw [field?_eq, under_eq_nil_iff.2 hnone], rfl⟩
    | given hms hkey honly hread =>
      exact ⟨some _, by rw [field?_eq, under_eq_singleton_iff.2 ⟨_, _, _, hms, hkey, honly⟩], hread⟩
  · rintro ⟨found, hfound, hread⟩
    rw [field?_eq] at hfound
    match hunder : under names ms with
    | [] =>
      rw [hunder] at hfound
      obtain rfl := Option.some.inj hfound
      obtain rfl := Option.some.inj hread
      exact .leftOut (under_eq_nil_iff.1 hunder)
    | [j] =>
      rw [hunder] at hfound
      obtain rfl := Option.some.inj hfound
      obtain ⟨before, key, after, hms, hkey, honly⟩ := under_eq_singleton_iff.1 hunder
      exact .given hms hkey honly hread
    | _ :: _ :: _ =>
      rw [hunder] at hfound
      cases hfound

end PluginHost.Json
