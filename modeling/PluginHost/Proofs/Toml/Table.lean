import Mathlib.Data.List.Duplicate
import PluginHost.NameMap
import PluginHost.Toml.Table

/-!
# Keys of the root table

A statement of a document puts something under one key of the root: the first part of the header
that is in force and of its own key. Under a key that is mentioned once there may be a value. A key
that is mentioned again was the way to something else each time, so that there is a table under it
by then, or an array of tables.

* `Document.puts_step`: what one statement does to the root.
* `Document.present_of_mem`, `Document.nested_of_duplicate`: what is under a key in the end, by how
  often the statements mention it.
-/
namespace PluginHost.Toml

variable {made origin : Origin} {change : Origin → Entries → Option Entries}
  {entries after : Entries} {key k : String}

theorem lookup_set (key : String) (item : Item) (entries : Entries) (k : String) :
    (entries.set key item).lookup k = if k = key then some item else entries.lookup k := by
  induction entries with
  | nil => rw [Entries.set, NameMap.lookup_cons]
  | cons e es ih =>
    rw [Entries.set]
    split
    · next he =>
      subst he
      rw [NameMap.lookup_cons, NameMap.lookup_cons]
      split <;> rfl
    · next he =>
      rw [NameMap.lookup_cons, NameMap.lookup_cons, ih]
      by_cases hk : k = key
      · simp [hk, Ne.symm he]
      · simp [hk]

/-! ## What is under a key -/

/-- A table or an array of tables. -/
def Item.Nested : Item → Prop
  | .value _ | .tables [] => False
  | .table _ _ | .tables (_ :: _) => True

/-- There is something under the key. -/
def Present (entries : Entries) (key : String) : Prop :=
  ∃ item, entries.lookup key = some item

/-- There is a table under the key, or an array of tables. -/
def NestedAt (entries : Entries) (key : String) : Prop :=
  ∃ item, entries.lookup key = some item ∧ item.Nested

/-- Nothing is lost, and what is nested stays so. -/
structure Grows (entries after : Entries) : Prop where
  present : ∀ k, Present entries k → Present after k
  nested : ∀ k, NestedAt entries k → NestedAt after k

theorem Grows.refl (entries : Entries) : Grows entries entries :=
  ⟨fun _ => id, fun _ => id⟩

theorem Grows.trans {last : Entries} (h : Grows entries after) (h' : Grows after last) :
    Grows entries last :=
  ⟨fun k hk => h'.present k (h.present k hk), fun k hk => h'.nested k (h.nested k hk)⟩

/-- Something is put under the key, and where something was already there it is nested. -/
def Puts (key : String) (entries after : Entries) : Prop :=
  ∃ item, after = entries.set key item ∧ (Present entries key → item.Nested)

theorem Puts.present (h : Puts key entries after) : Present after key := by
  obtain ⟨item, rfl, -⟩ := h
  exact ⟨item, by rw [lookup_set, if_pos rfl]⟩

theorem Puts.nested (h : Puts key entries after) (hkey : Present entries key) :
    NestedAt after key := by
  obtain ⟨item, rfl, hnested⟩ := h
  exact ⟨item, by rw [lookup_set, if_pos rfl], hnested hkey⟩

theorem Puts.grows (h : Puts key entries after) : Grows entries after := by
  have hother : ∀ k, k ≠ key → after.lookup k = entries.lookup k := by
    obtain ⟨item, rfl, -⟩ := h
    exact fun k hk => by rw [lookup_set, if_neg hk]
  constructor
  · intro k hk
    by_cases heq : k = key
    · exact heq ▸ h.present
    · rwa [Present, hother k heq]
  · intro k hk
    by_cases heq : k = key
    · subst heq
      obtain ⟨item, hitem, -⟩ := hk
      exact h.nested ⟨item, hitem⟩
    · rwa [NestedAt, hother k heq]

/-! ## Statements -/

/-- A change at the end of a path puts something under the first key on the way. -/
theorem puts_descend (hchange : ∀ {o es fs}, change o es = some fs → Puts key es fs)
    {path : List String} (h : descend made change path origin entries = some after) :
    Puts (path.headD key) entries after := by
  cases path with
  | nil => exact hchange h
  | cons k path =>
    -- whatever was under the first key, what is put there leads on
    unfold descend at h
    split at h
    · obtain ⟨inner, -, heq⟩ := Option.bind_eq_some_iff.1 h
      exact ⟨_, (Option.some.inj heq).symm, fun _ => trivial⟩
    · split at h
      · cases h
      · obtain ⟨inner, -, heq⟩ := Option.bind_eq_some_iff.1 h
        exact ⟨_, (Option.some.inj heq).symm, fun _ => trivial⟩
    · obtain ⟨inner, -, heq⟩ := Option.bind_eq_some_iff.1 h
      exact ⟨_, (Option.some.inj heq).symm, fun _ => trivial⟩
    · cases h
    · cases h

/-- A value is put only where nothing is. -/
theorem puts_assign {path : List String} {value : Json}
    (h : assign path key value origin entries = some after) :
    Puts (path.headD key) entries after := by
  refine puts_descend (fun {o es fs} hput => ?_) h
  obtain ⟨hfree, heq⟩ := Option.ite_none_left_eq_some.1 hput
  refine ⟨_, (Option.some.inj heq).symm, fun ⟨item, hitem⟩ => ?_⟩
  exact absurd (Or.inr (by rw [hitem]; rfl)) hfree

namespace Document

variable {d e : Document}

theorem puts_openTable (h : openTable key entries = some after) : Puts key entries after := by
  unfold openTable at h
  split at h
  · exact ⟨_, (Option.some.inj h).symm, fun _ => trivial⟩
  · exact ⟨_, (Option.some.inj h).symm, fun _ => trivial⟩
  · cases h

theorem puts_openElement (h : openElement key entries = some after) : Puts key entries after := by
  unfold openElement at h
  split at h
  · exact ⟨_, (Option.some.inj h).symm, fun _ => trivial⟩
  · exact ⟨_, (Option.some.inj h).symm, fun _ => trivial⟩
  · cases h

end Document

namespace Statement

/-- The key of the root that the statement is about, under a header. -/
def rootKey (header : List String) : Statement → String
  | .assign path key _ => header.headD (path.headD key)
  | .table path key | .element path key => path.headD key

/-- The header that is in force behind the statement. -/
def headerAfter (header : List String) : Statement → List String
  | .assign _ _ _ => header
  | .table path key | .element path key => path ++ [key]

/-- The keys of the root that the statements are about, one after the other. -/
def rootKeys (header : List String) : List Statement → List String
  | [] => []
  | s :: ss => s.rootKey header :: rootKeys (s.headerAfter header) ss

end Statement

namespace Document

variable {d e : Document} {s : Statement} {ss : List Statement}

/-- What one statement does to the root. -/
theorem puts_step (h : d.step s = some e) :
    Puts (s.rootKey d.header) d.root e.root ∧ e.header = s.headerAfter d.header := by
  cases s with
  | assign path key value =>
    obtain ⟨root, hroot, heq⟩ := Option.bind_eq_some_iff.1 h
    obtain rfl := Option.some.inj heq
    exact ⟨puts_descend puts_assign hroot, rfl⟩
  | table path key =>
    obtain ⟨root, hroot, heq⟩ := Option.bind_eq_some_iff.1 h
    obtain rfl := Option.some.inj heq
    exact ⟨puts_descend puts_openTable hroot, rfl⟩
  | element path key =>
    obtain ⟨root, hroot, heq⟩ := Option.bind_eq_some_iff.1 h
    obtain rfl := Option.some.inj heq
    exact ⟨puts_descend puts_openElement hroot, rfl⟩

theorem foldlM_step_cons (h : (s :: ss).foldlM step d = some e) :
    ∃ f : Document, d.step s = some f ∧ ss.foldlM step f = some e :=
  Option.bind_eq_some_iff.1 (by rwa [List.foldlM_cons] at h)

theorem grows_foldlM (h : ss.foldlM step d = some e) : Grows d.root e.root := by
  induction ss generalizing d with
  | nil =>
    obtain rfl := Option.some.inj h
    exact .refl _
  | cons s ss ih =>
    obtain ⟨f, hstep, hrest⟩ := foldlM_step_cons h
    exact (puts_step hstep).1.grows.trans (ih hrest)

/-- There is something in the end under every key that is mentioned. -/
theorem present_of_mem (h : ss.foldlM step d = some e)
    (hk : k ∈ Statement.rootKeys d.header ss) : Present e.root k := by
  induction ss generalizing d with
  | nil => cases hk
  | cons s ss ih =>
    obtain ⟨f, hstep, hrest⟩ := foldlM_step_cons h
    obtain ⟨hputs, hheader⟩ := puts_step hstep
    rcases List.mem_cons.1 hk with rfl | hmem
    · exact (grows_foldlM hrest).present _ hputs.present
    · exact ih hrest (hheader ▸ hmem)

/-- What is mentioned although there is something under it is nested in the end. -/
theorem nested_of_mem (h : ss.foldlM step d = some e)
    (hk : k ∈ Statement.rootKeys d.header ss) (hpresent : Present d.root k) :
    NestedAt e.root k := by
  induction ss generalizing d with
  | nil => cases hk
  | cons s ss ih =>
    obtain ⟨f, hstep, hrest⟩ := foldlM_step_cons h
    obtain ⟨hputs, hheader⟩ := puts_step hstep
    rcases List.mem_cons.1 hk with rfl | hmem
    · exact (grows_foldlM hrest).nested _ (hputs.nested hpresent)
    · exact ih hrest (hheader ▸ hmem) (hputs.grows.present k hpresent)

/-- What is mentioned twice is nested in the end. -/
theorem nested_of_duplicate (h : ss.foldlM step d = some e)
    (hk : (Statement.rootKeys d.header ss).Duplicate k) : NestedAt e.root k := by
  induction ss generalizing d with
  | nil => cases hk
  | cons s ss ih =>
    obtain ⟨f, hstep, hrest⟩ := foldlM_step_cons h
    obtain ⟨hputs, hheader⟩ := puts_step hstep
    rcases List.duplicate_cons_iff.1 hk with ⟨rfl, hmem⟩ | hdup
    · exact nested_of_mem hrest (hheader ▸ hmem) hputs.present
    · exact ih hrest (hheader ▸ hdup)

end Document

/-! ## The document as JSON -/

theorem entriesToJson_eq_map (es : Entries) :
    entriesToJson es = es.map fun e => (e.1, e.2.toJson) := by
  induction es with
  | nil => rfl
  | cons e es ih =>
    obtain ⟨key, item⟩ := e
    rw [entriesToJson, ih]
    rfl

theorem elementsToJson_eq (done : List Json) (ts : List Entries) :
    elementsToJson done ts = (ts.map fun t => Json.object (entriesToJson t)).reverse ++ done := by
  induction ts generalizing done with
  | nil => rfl
  | cons t ts ih =>
    rw [elementsToJson, ih]
    simp

/-- What is under a key is a member. -/
theorem mem_entriesToJson {item : Item} (h : entries.lookup key = some item) :
    (key, item.toJson) ∈ entriesToJson entries := by
  obtain ⟨before, rest, rfl, -⟩ := List.lookup_eq_some_iff.1 h
  rw [entriesToJson_eq_map]
  exact List.mem_map.2 ⟨(key, item), by simp, rfl⟩

end PluginHost.Toml
