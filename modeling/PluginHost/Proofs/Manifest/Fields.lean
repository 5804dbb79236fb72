import PluginHost.Proofs.Json.Fields
import PluginHost.Proofs.Manifest
import PluginHost.Proofs.Toml.Table

/-!
# Manifests field by field

What is loaded from a manifest depends on its fields only: on what the members with one of their
names hold, not on where these stand, on which of its names a field has or on what else there is.
A field that is left out is empty, and a field that is given twice makes a manifest malformed,
under one of its names or under two of them. The same goes for the keys of the root of a TOML
document; there a name that is mentioned again may still be read as a table, which no field is.

* `ofJson?_object_iff`: what the members of an object say of each field.
* `Restated.ofJson?_eq`: an object that is rearranged, enlarged and respelled says the same.
* `ofJson?_of_twice`, `Toml.Document.ofJson?_of_twice`: a field that is given twice.
* `load_by_fields`: all of it for manifests in files.
-/
namespace PluginHost

theorem Json.texts?_of_mem {items : List Json} {j : Json} (hmem : j ∈ items)
    (h : j.text? = none) : (Json.array items).texts? = none := by
  have hitems : items.mapM Json.text? = none := by
    induction items with
    | nil => cases hmem
    | cons i is ih =>
      rw [List.mapM_cons]
      rcases List.mem_cons.1 hmem with rfl | hmem
      · rw [h]
        rfl
      · rw [ih hmem]
        cases i.text? <;> rfl
  exact hitems

namespace Manifest

variable {ms others : List (String × Json)} {m : Manifest} {names : List String}

/-! ## What the members of an object say -/

/-- The names of the requirement. -/
def requirementNames : List String :=
  ["min_runtime_version", "required_version", "required_go_version"]

/-- A requirement may be null, and then there is none. -/
def requirement? (j : Json) : Option (Option String) :=
  Json.optional Json.text? (some j)

/-- The members say of every field what it is in the manifest. -/
structure Tells (ms : List (String × Json)) (m : Manifest) : Prop where
  name : Json.Tells ["name"] "" Json.text? ms m.name
  description : Json.Tells ["description"] "" Json.text? ms m.description
  version : Json.Tells ["version"] "" Json.text? ms m.version
  author : Json.Tells ["author"] "" Json.text? ms m.author
  dependencies : Json.Tells ["dependencies"] [] Json.texts? ms m.dependencies
  conflicts : Json.Tells ["conflicts"] [] Json.texts? ms m.conflicts
  entryPoint : Json.Tells ["entry_point"] "" Json.text? ms m.entryPoint
  buildTags : Json.Tells ["build_tags"] [] Json.texts? ms m.buildTags
  minRuntime : Json.Tells requirementNames none requirement? ms m.minRuntime

theorem optional_text?_eq (found : Option Json) :
    Json.optional Json.text? found = Json.defaulted none requirement? found := by
  cases found <;> rfl

/-- An object stands for the manifest that its members tell. -/
theorem ofJson?_object_iff : ofJson? (.object ms) = some m ↔ Tells ms m := by
  constructor
  · intro h
    obtain ⟨found, hfound, h⟩ := Option.bind_eq_some_iff.1 h
    have htells : ∀ {α : Type} {names : List String} {empty a : α} {read : Json → Option α} {f},
        Json.field? names ms = some f → Json.defaulted empty read f = some a →
        Json.Tells names empty read ms a := fun hf hread => Json.tells_iff.2 ⟨_, hf, hread⟩
    match found, Json.fields?_eq_some_iff.1 hfound, h with
    | _, .cons h₁ (.cons h₂ (.cons h₃ (.cons h₄ (.cons h₅ (.cons h₆ (.cons h₇ (.cons h₈
        (.cons h₉ .nil)))))))), h =>
      obtain ⟨name, r₁, h⟩ := Option.bind_eq_some_iff.1 h
      obtain ⟨description, r₂, h⟩ := Option.bind_eq_some_iff.1 h
      obtain ⟨version, r₃, h⟩ := Option.bind_eq_some_iff.1 h
      obtain ⟨author, r₄, h⟩ := Option.bind_eq_some_iff.1 h
      obtain ⟨dependencies, r₅, h⟩ := Option.bind_eq_some_iff.1 h
      obtain ⟨conflicts, r₆, h⟩ := Option.bind_eq_some_iff.1 h
      obtain ⟨entryPoint, r₇, h⟩ := Option.bind_eq_some_iff.1 h
      obtain ⟨buildTags, r₈, h⟩ := Option.bind_eq_some_iff.1 h
      obtain ⟨minRuntime, r₉, h⟩ := Option.bind_eq_some_iff.1 h
      obtain rfl := Option.some.inj h
      exact ⟨htells h₁ r₁, htells h₂ r₂, htells h₃ r₃, htells h₄ r₄, htells h₅ r₅, htells h₆ r₆,
        htells h₇ r₇, htells h₈ r₈, htells h₉ (optional_text?_eq _ ▸ r₉)⟩
  · rintro ⟨t₁, t₂, t₃, t₄, t₅, t₆, t₇, t₈, t₉⟩
    obtain ⟨f₁, h₁, r₁⟩ := Json.tells_iff.1 t₁
    obtain ⟨f₂, h₂, r₂⟩ := Json.tells_iff.1 t₂
    obtain ⟨f₃, h₃, r₃⟩ := Json.tells_iff.1 t₃
    obtain ⟨f₄, h₄, r₄⟩ := Json.tells_iff.1 t₄
    obtain ⟨f₅, h₅, r₅⟩ := Json.tells_iff.1 t₅
    obtain ⟨f₆, h₆, r₆⟩ := Json.tells_iff.1 t₆
    obtain ⟨f₇, h₇, r₇⟩ := Json.tells_iff.1 t₇
    obtain ⟨f₈, h₈, r₈⟩ := Json.tells_iff.1 t₈
    obtain ⟨f₉, h₉, r₉⟩ := Json.tells_iff.1 t₉
    have hfound : (Json.object ms).fields? spellings = some [f₁, f₂, f₃, f₄, f₅, f₆, f₇, f₈, f₉] :=
      Json.fields?_eq_some_iff.2 (.cons h₁ (.cons h₂ (.cons h₃ (.cons h₄ (.cons h₅ (.cons h₆
        (.cons h₇ (.cons h₈ (.cons h₉ .nil)))))))))
    simp [ofJson?, hfound, optional_text?_eq, r₁, r₂, r₃, r₄, r₅, r₆, r₇, r₈, r₉]

/-- Null, a text or a list of texts: what a field can be read off. -/
def Readable (j : Json) : Prop :=
  j = .null ∨ (∃ s, j.text? = some s) ∨ ∃ ss, j.texts? = some ss

/-- Every field of a manifest is left out or found once, and then it can be read. -/
theorem Tells.field? (h : Tells ms m) : ∀ names ∈ spellings, ∃ found,
    Json.field? names ms = some found ∧ ∀ j, found = some j → Readable j := by
  have hfound : ∀ {α : Type} {names : List String} {empty a : α} {read : Json → Option α},
      (∀ j b, read j = some b → Readable j) → Json.Tells names empty read ms a →
      ∃ found, Json.field? names ms = some found ∧ ∀ j, found = some j → Readable j := by
    intro α names empty a read hreadable htells
    obtain ⟨found, hfield, hread⟩ := Json.tells_iff.1 htells
    refine ⟨found, hfield, ?_⟩
    rintro j rfl
    exact hreadable j a hread
  have htext : ∀ j s, Json.text? j = some s → Readable j := fun j s h => Or.inr (Or.inl ⟨s, h⟩)
  have htexts : ∀ j ss, Json.texts? j = some ss → Readable j := fun j ss h =>
    Or.inr (Or.inr ⟨ss, h⟩)
  have hrequirement : ∀ j r, requirement? j = some r → Readable j := by
    intro j r hr
    unfold requirement? Json.optional at hr
    split at hr
    · cases ‹some j = none›
    · exact Or.inl (Option.some.inj ‹some j = some Json.null›)
    · obtain ⟨s, hs, -⟩ := Option.map_eq_some_iff.1 hr
      exact Option.some.inj ‹some j = some _› ▸ htext _ s hs
  simp only [spellings, List.forall_mem_cons]
  exact ⟨hfound htext h.name, hfound htext h.description, hfound htext h.version,
    hfound htext h.author, hfound htexts h.dependencies, hfound htexts h.conflicts,
    hfound htext h.entryPoint, hfound htexts h.buildTags, hfound hrequirement h.minRuntime,
    fun _ h => nomatch h⟩

/-- An object with a field that is found too often, or cannot be read, stands for no manifest. -/
theorem ofJson?_of_unreadable (hnames : names ∈ spellings)
    (h : Json.field? names ms = none ∨
      ∃ j, Json.field? names ms = some (some j) ∧ ¬ Readable j) :
    ofJson? (.object ms) = none := by
  refine Option.eq_none_iff_forall_ne_some.2 fun m hm => ?_
  obtain ⟨found, hfound, hreadable⟩ := (ofJson?_object_iff.1 hm).field? names hnames
  rcases h with hnone | ⟨j, hj, hno⟩
  · cases hnone.symm.trans hfound
  · exact hno (hreadable j (Option.some.inj (hfound.symm.trans hj)))

/-! ## Objects that say the same -/

/-- The members are the same apart from their order, from members that belong to no field, and
from which of its names a field has. -/
inductive Restated : List (String × Json) → List (String × Json) → Prop where
  | rearranged {ms others : List (String × Json)} (h : ms.Perm others) : Restated ms others
  | enlarged (before after : List (String × Json)) {key : String} (value : Json)
    (hkey : ∀ names ∈ spellings, key ∉ names) :
    Restated (before ++ after) (before ++ (key, value) :: after)
  | respelled (before after : List (String × Json)) {names : List String} {old new : String}
    (value : Json) (hnames : names ∈ spellings) (hold : old ∈ names) (hnew : new ∈ names) :
    Restated (before ++ (old, value) :: after) (before ++ (new, value) :: after)
  | trans {ms others last : List (String × Json)} (h : Restated ms others)
    (h' : Restated others last) : Restated ms last

/-- No name belongs to two fields. -/
theorem spellings_disjoint : ∀ names ∈ spellings, ∀ key ∈ names, ∀ others ∈ spellings,
    key ∈ others → names = others := by
  decide

/-- Under the names of every field stands the same. -/
theorem Restated.under_perm (h : Restated ms others) : ∀ names ∈ spellings,
    (Json.under names ms).Perm (Json.under names others) := by
  induction h with
  | rearranged h => exact fun names _ => (h.filter _).map _
  | enlarged before after value hkey =>
    intro names hnames
    rw [Json.under_append, Json.under_append, Json.under_cons_of_not_mem (hkey names hnames)]
  | @respelled before after own old new value hown hold hnew =>
    intro names hnames
    rw [Json.under_append, Json.under_append]
    -- the names of the field itself find the member either way, those of no other field do
    by_cases h : old ∈ names
    · obtain rfl := spellings_disjoint own hown old hold names hnames h
      rw [Json.under_cons_of_mem hold, Json.under_cons_of_mem hnew]
    · have hother : new ∉ names := fun hmem =>
        h (spellings_disjoint own hown new hnew names hnames hmem ▸ hold)
      rw [Json.under_cons_of_not_mem h, Json.under_cons_of_not_mem hother]
  | trans _ _ ih ih' => exact fun names hnames => (ih names hnames).trans (ih' names hnames)

/-- What is restated stands for the same manifest. -/
theorem Restated.ofJson?_eq (h : Restated ms others) :
    ofJson? (.object ms) = ofJson? (.object others) := by
  rw [ofJson?, ofJson?, Json.fields?_congr h.under_perm]

/-! ## Fields that are given twice -/

theorem ofJson?_of_twice (hnames : names ∈ spellings) (h : Json.Twice names (ms.map (·.1))) :
    ofJson? (.object ms) = none :=
  ofJson?_of_unreadable hnames (Or.inl (Json.field?_eq_none_iff.2 h))

/-- No field can be read off a table or an array of tables. -/
theorem not_readable_of_nested {item : Toml.Item} (h : item.Nested) : ¬ Readable item.toJson := by
  cases item with
  | value v => exact h.elim
  | table origin entries =>
    rintro (hnull | ⟨s, hs⟩ | ⟨ss, hss⟩)
    · cases hnull
    · cases hs
    · cases hss
  | tables elements =>
    cases elements with
    | nil => exact h.elim
    | cons t ts =>
      have hmem : Json.object (Toml.entriesToJson t) ∈ Toml.elementsToJson [] (t :: ts) := by
        rw [Toml.elementsToJson_eq]
        simp
      rintro (hnull | ⟨s, hs⟩ | ⟨ss, hss⟩)
      · cases hnull
      · cases hs
      · exact nomatch (Json.texts?_of_mem hmem rfl).symm.trans hss

end Manifest

/-- The text is made of the statements. -/
def Toml.Spells (text : String) (ss : List Toml.Statement) : Prop :=
  statements? ((skipMark text.toList).length + 1) (skipMark text.toList) = some ss

/-- A document whose statements are about a field twice stands for no manifest. -/
theorem Toml.Document.ofJson?_of_twice {ss : List Toml.Statement} {d : Toml.Document}
    {names : List String} (hd : ss.foldlM Toml.Document.step {} = some d)
    (hnames : names ∈ Manifest.spellings)
    (h : Json.Twice names (Toml.Statement.rootKeys [] ss)) :
    Manifest.ofJson? (.object (Toml.entriesToJson d.root)) = none := by
  obtain ⟨k, hk, l, hl, hsub⟩ := h
  refine Manifest.ofJson?_of_unreadable hnames ?_
  -- one name again is nested by then and cannot be read; two names are two members
  by_cases heq : k = l
  · subst heq
    obtain ⟨item, hitem, hnested⟩ :=
      Toml.Document.nested_of_duplicate hd (List.duplicate_iff_sublist.2 hsub)
    rcases Json.field?_of_mem (Toml.mem_entriesToJson hitem) hk with hnone | ⟨hone, -⟩
    · exact Or.inl hnone
    · exact Or.inr ⟨_, hone, Manifest.not_readable_of_nested hnested⟩
  · obtain ⟨a, ha⟩ := Toml.Document.present_of_mem hd (hsub.subset (by simp : k ∈ [k, l]))
    obtain ⟨b, hb⟩ := Toml.Document.present_of_mem hd (hsub.subset (by simp : l ∈ [k, l]))
    rcases Json.field?_of_mem (Toml.mem_entriesToJson ha) hk with hnone | ⟨-, hsole⟩
    · exact Or.inl hnone
    · exact absurd (congrArg Prod.fst (hsole _ (Toml.mem_entriesToJson hb) hl)).symm heq

namespace Manifest

/-! ## Manifests in files -/

section
variable {files : FileTree} {path text : String}

/-- A file whose text is read as an object holds the manifest that the object stands for. -/
theorem load_eq_ok_iff (hfile : files.Holds path text)
    (hdocument : document? path text = some (.object ms)) :
    load files path = .ok m ↔ Tells ms m ∧ Text.isBlank m.name = false := by
  rw [← ofJson?_object_iff, load, hfile.text?]
  simp only [ofText, hdocument, Option.bind_some]
  cases ofJson? (.object ms) with
  | none => simp
  | some k =>
    simp only [Option.some.injEq]
    by_cases hblank : Text.isBlank k.name = true
    · rw [if_pos hblank]
      refine iff_of_false (by simp) ?_
      rintro ⟨rfl, hname⟩
      exact Bool.noConfusion (hname.symm.trans hblank)
    · rw [if_neg hblank, Except.ok.injEq]
      exact (and_iff_left_of_imp fun h => h ▸ Bool.eq_false_iff.2 hblank).symm

theorem load_eq_malformed_iff (hfile : files.Holds path text)
    (hdocument : document? path text = some (.object ms)) :
    load files path = .error (.malformed path) ↔ ofJson? (.object ms) = none := by
  rw [load, hfile.text?]
  simp only [ofText, hdocument, Option.bind_some]
  cases ofJson? (.object ms) with
  | none => simp
  | some k =>
    by_cases hblank : Text.isBlank k.name = true <;> simp [hblank]

/-- A TOML file that is about a field twice holds no manifest. -/
theorem load_of_spells_twice (hfile : files.Holds path text) (hpath : isJsonPath path = false)
    {ss : List Toml.Statement} (hspells : Toml.Spells text ss) (hnames : names ∈ spellings)
    (h : Json.Twice names (Toml.Statement.rootKeys [] ss)) :
    load files path = .error (.malformed path) := by
  have hread : Toml.read? text = Toml.Document.ofStatements? ss := by
    rw [Toml.read?, hspells, Option.bind_some]
  cases hd : ss.foldlM Toml.Document.step {} with
  | none =>
    have hnone : document? path text = none := by
      rw [document?, hpath, if_neg (by decide), hread, Toml.Document.ofStatements?, hd]
      rfl
    simp only [load, hfile.text?, ofText, hnone, Option.bind_none]
  | some d =>
    have hdocument : document? path text = some (.object (Toml.entriesToJson d.root)) := by
      rw [document?, hpath, if_neg (by decide), hread, Toml.Document.ofStatements?, hd]
      rfl
    exact (load_eq_malformed_iff hfile hdocument).2 (Toml.Document.ofJson?_of_twice hd hnames h)

/-- The manifest in a file depends on the fields of its text only. The members of a JSON object
tell it field by field. It does not change when they are rearranged, when members are added that
belong to no field, and when a field is given under another of its names. A field that is given
twice makes it malformed, in JSON and in TOML. -/
theorem load_by_fields (hfile : files.Holds path text) :
    (isJsonPath path = true → ∀ ms, Json.read? text = some (.object ms) →
      (∀ m, load files path = .ok m ↔ Tells ms m ∧ Text.isBlank m.name = false) ∧
      (load files path = .error (.malformed path) ↔ ∀ m, ¬ Tells ms m) ∧
      (∀ (files' : FileTree) (text' : String) (others : List (String × Json)),
        files'.Holds path text' → Json.read? text' = some (.object others) →
        Restated ms others → load files' path = load files path) ∧
      ((∃ names ∈ spellings, Json.Twice names (ms.map (·.1))) →
        load files path = .error (.malformed path))) ∧
    (isJsonPath path = false → ∀ ss, Toml.Spells text ss →
      (∃ names ∈ spellings, Json.Twice names (Toml.Statement.rootKeys [] ss)) →
      load files path = .error (.malformed path)) := by
  refine ⟨fun hpath ms hread => ?_, fun hpath ss hspells ⟨names, hnames, htwice⟩ =>
    load_of_spells_twice hfile hpath hspells hnames htwice⟩
  have hjson : ∀ {t j}, Json.read? t = some j → document? path t = some j := fun h => by
    rw [document?, if_pos hpath, h]
  have hdocument := hjson hread
  refine ⟨fun m => load_eq_ok_iff hfile hdocument, ?_, ?_, ?_⟩
  · rw [load_eq_malformed_iff hfile hdocument, Option.eq_none_iff_forall_ne_some]
    exact forall_congr' fun m => not_congr ofJson?_object_iff
  · intro files' text' others hfile' hread' hrestated
    simp only [load, hfile.text?, hfile'.text?, ofText, hdocument, hjson hread', Option.bind_some,
      hrestated.ofJson?_eq]
  · rintro ⟨names, hnames, htwice⟩
    exact (load_eq_malformed_iff hfile hdocument).2 (ofJson?_of_twice hnames htwice)

end

/-- A tree with one file in it. -/
def loneFile (name text : String) : FileTree :=
  ⟨[([], .directory), ([name], .file (Text.utf8 text))]⟩

/-- A manifest with its requirement under another name. -/
def calcText : String :=
  "\x7b\"name\": \"calc\", \"required_version\": \"7\"\x7d"

/-- The same manifest in another order, with a third name for the requirement and a member that
means nothing. -/
def calcTextRestated : String :=
  "\x7b\"required_go_version\": \"7\", \"home\": [null, 1], \"name\": \"calc\"\x7d"

/-- A document with a requirement under two names. -/
def calcTextTwice : String :=
  "name = \"calc\"\nrequired_version = \"7\"\nmin_runtime_version = \"7\""

/-- Two files of one manifest, and one that is malformed. -/
theorem calc_by_fields :
    load (loneFile "calc.json" calcTextRestated) "calc.json" =
      .ok ⟨"calc", "", "", "", [], [], "", [], some "7"⟩ ∧
    load (loneFile "calc.toml" calcTextTwice) "calc.toml" = .error (.malformed "calc.toml") := by
  have hholds : ∀ text, (loneFile "calc.json" text).Holds "calc.json" text := fun _ => rfl
  have hholds' : ∀ text, (loneFile "calc.toml" text).Holds "calc.toml" text := fun _ => rfl
  obtain ⟨hok, -, hsame, -⟩ := (load_by_fields (hholds calcText)).1 (by decide +kernel)
    [("name", .string "calc"), ("required_version", .string "7")] rfl
  constructor
  · have hrespelled := Restated.respelled [("name", .string "calc")] [] (.string "7")
      (by decide : requirementNames ∈ spellings) (by decide : "required_version" ∈ _)
      (by decide : "required_go_version" ∈ _)
    have henlarged := Restated.enlarged [("name", .string "calc")]
      [("required_go_version", .string "7")] (.array [.null, .number ⟨false, 1, [], none⟩])
      (by decide : ∀ names ∈ spellings, "home" ∉ names)
    have hrearranged := Restated.rearranged (List.reverse_perm
      [("name", .string "calc"), ("home", .array [.null, .number ⟨false, 1, [], none⟩]),
        ("required_go_version", .string "7")]).symm
    rw [hsame _ calcTextRestated _ (hholds _) rfl
      (hrespelled.trans (henlarged.trans hrearranged)), hok]
    have hname : Json.Tells ["name"] "" Json.text?
        [("name", .string "calc"), ("required_version", .string "7")] "calc" :=
      .given (rfl : _ = [] ++ ("name", _) :: [_]) (by decide) (by decide) rfl
    have hrequirement : Json.Tells requirementNames none requirement?
        [("name", .string "calc"), ("required_version", .string "7")] (some "7") :=
      .given (rfl : _ = [_] ++ ("required_version", _) :: []) (by decide) (by decide) rfl
    exact ⟨⟨hname, .leftOut (by decide), .leftOut (by decide), .leftOut (by decide),
      .leftOut (by decide), .leftOut (by decide), .leftOut (by decide), .leftOut (by decide),
      hrequirement⟩, by decide⟩
  · obtain ⟨ss, hss, hkeys⟩ := Option.map_eq_some_iff.1
      (by decide +kernel : (Toml.statements? (calcTextTwice.toList.length + 1)
        calcTextTwice.toList).map (Toml.Statement.rootKeys []) =
          some ["name", "required_version", "min_runtime_version"])
    refine (load_by_fields (hholds' calcTextTwice)).2 (by decide +kernel) ss hss
      ⟨requirementNames, by decide, "required_version", by decide, "min_runtime_version",
        by decide, ?_⟩
    rw [hkeys]
    decide

end Manifest

end PluginHost
