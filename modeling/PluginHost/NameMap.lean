/-!
# Maps from names

A map is kept as a list of entries in strictly ascending order of the names, by code point.
Two maps with the same entries are therefore the same list, and going through a map goes
through it in name order.

* `get?_insert`, `get?_erase`, `get?_modify`: what the operations do to a look-up.
* `Ascending.ext`: a map in order is what it answers to look-ups.
* `values_insert_perm`, `Ascending.values_erase_perm`: what a name adds to the values, and takes
  from them.
-/
namespace PluginHost

/-- A map from names to values. -/
structure NameMap (α : Type) where
  entries : List (String × α)
  deriving DecidableEq, Repr

namespace NameMap

variable {α β : Type}

/-- The map without entries. -/
def empty : NameMap α := ⟨[]⟩

instance : Inhabited (NameMap α) := ⟨empty⟩

instance : EmptyCollection (NameMap α) := ⟨empty⟩

/-- The names in ascending order. -/
def names (m : NameMap α) : List String :=
  m.entries.map (·.1)

/-- The values in the order of their names. -/
def values (m : NameMap α) : List α :=
  m.entries.map (·.2)

/-- The value under a name. -/
def get? (m : NameMap α) (name : String) : Option α :=
  m.entries.lookup name

/-- There is a value under the name. -/
def contains (m : NameMap α) (name : String) : Bool :=
  (m.get? name).isSome

/-- Puts an entry at its place among entries in ascending order. -/
def insertEntry (name : String) (value : α) : List (String × α) → List (String × α)
  | [] => [(name, value)]
  | e :: es =>
    if name = e.1 then (name, value) :: es
    else if name < e.1 then (name, value) :: e :: es
    else e :: insertEntry name value es

/-- Puts a value under a name, in place of the one that is there. -/
def insert (m : NameMap α) (name : String) (value : α) : NameMap α :=
  ⟨insertEntry name value m.entries⟩

/-- Takes a name and its value out. -/
def erase (m : NameMap α) (name : String) : NameMap α :=
  ⟨m.entries.filter fun e => e.1 ≠ name⟩

/-- Changes the value under a name, if there is one. -/
def modify (m : NameMap α) (name : String) (f : α → α) : NameMap α :=
  ⟨m.entries.map fun e => if e.1 = name then (e.1, f e.2) else e⟩

/-- Changes every value. -/
def map (m : NameMap α) (f : α → β) : NameMap β :=
  ⟨m.entries.map fun e => (e.1, f e.2)⟩

/-- The map of the entries; of several under one name the last counts. -/
def ofList (es : List (String × α)) : NameMap α :=
  es.foldl (fun m e => m.insert e.1 e.2) ∅

/-- How many names the map has. -/
def size (m : NameMap α) : Nat :=
  m.entries.length

/-- The names are in strictly ascending order. -/
def Ascending (m : NameMap α) : Prop :=
  m.names.Pairwise (· < ·)

/-! ## Looking up -/

@[simp] theorem get?_empty (name : String) : (∅ : NameMap α).get? name = none := rfl

theorem lookup_cons (name : String) (e : String × α) (es : List (String × α)) :
    (e :: es).lookup name = if name = e.1 then some e.2 else es.lookup name := by
  obtain ⟨k, v⟩ := e
  by_cases h : name = k
  · simp [h]
  · simp [List.lookup_cons, h, beq_false_of_ne h]

theorem lookup_insertEntry (name other : String) (value : α) (es : List (String × α)) :
    (insertEntry name value es).lookup other =
      if other = name then some value else es.lookup other := by
  induction es with
  | nil => simp [insertEntry, lookup_cons]
  | cons e es ih =>
    unfold insertEntry
    split
    · next h => subst h; by_cases ho : other = e.1 <;> simp [lookup_cons, ho]
    · split
      · by_cases ho : other = name <;> simp [lookup_cons, ho]
      · next h _ =>
        by_cases ho : other = e.1
        · subst ho; simp [lookup_cons, Ne.symm h]
        · simp [lookup_cons, ho, ih]

theorem get?_insert (m : NameMap α) (name other : String) (value : α) :
    (m.insert name value).get? other = if other = name then some value else m.get? other :=
  lookup_insertEntry name other value m.entries

theorem get?_erase (m : NameMap α) (name other : String) :
    (m.erase name).get? other = if other = name then none else m.get? other := by
  obtain ⟨es⟩ := m
  simp only [get?, erase]
  induction es with
  | nil => simp
  | cons e es ih =>
    by_cases he : e.1 = name
    · rw [List.filter_cons_of_neg (by simp [he]), ih, lookup_cons]
      by_cases ho : other = name <;> simp [he, ho]
    · rw [List.filter_cons_of_pos (by simp [he]), lookup_cons, lookup_cons, ih]
      by_cases ho : other = e.1
      · subst ho; simp [he]
      · simp [ho]

theorem get?_modify (m : NameMap α) (name other : String) (f : α → α) :
    (m.modify name f).get? other =
      if other = name then (m.get? other).map f else m.get? other := by
  obtain ⟨es⟩ := m
  simp only [get?, modify]
  induction es with
  | nil => simp
  | cons e es ih =>
    rw [List.map_cons, lookup_cons, lookup_cons, ih]
    by_cases he : e.1 = name
    · by_cases ho : other = name <;> simp [he, ho]
    · by_cases ho : other = e.1
      · subst ho; simp [he]
      · simp [he, ho]

/-- What is found after a name was taken out was there before. -/
theorem get?_of_erase {m : NameMap α} {name other : String} {value : α}
    (h : (m.erase name).get? other = some value) : m.get? other = some value := by
  rw [get?_erase] at h
  split at h
  · cases h
  · exact h

/-- What is found after a change was there before, unchanged or not. -/
theorem get?_of_modify {m : NameMap α} {name other : String} {f : α → α} {value : α}
    (h : (m.modify name f).get? other = some value) :
    ∃ old, m.get? other = some old ∧ (value = old ∨ value = f old) := by
  rw [get?_modify] at h
  split at h
  · obtain ⟨old, hold, rfl⟩ := Option.map_eq_some_iff.1 h
    exact ⟨old, hold, Or.inr rfl⟩
  · exact ⟨value, h, Or.inl rfl⟩

theorem get?_map (m : NameMap α) (f : α → β) (name : String) :
    (m.map f).get? name = (m.get? name).map f := by
  obtain ⟨es⟩ := m
  simp only [get?, map]
  induction es with
  | nil => rfl
  | cons e es ih =>
    rw [List.map_cons, lookup_cons, lookup_cons, ih]
    by_cases he : name = e.1 <;> simp [he]

theorem insertEntry_insertEntry (name : String) (old value : α) (es : List (String × α)) :
    insertEntry name value (insertEntry name old es) = insertEntry name value es := by
  induction es with
  | nil => simp [insertEntry]
  | cons e es ih =>
    by_cases heq : name = e.1
    · simp [insertEntry, heq]
    by_cases hlt : name < e.1
    · simp [insertEntry, heq, hlt]
    · simp [insertEntry, heq, hlt, ih]

/-- Of two values that are put under one name the second stays. -/
theorem insert_insert (m : NameMap α) (name : String) (old value : α) :
    (m.insert name old).insert name value = m.insert name value :=
  congrArg NameMap.mk (insertEntry_insertEntry name old value m.entries)

theorem modify_modify (m : NameMap α) (name : String) (f g : α → α) :
    (m.modify name f).modify name g = m.modify name (g ∘ f) := by
  simp only [modify, List.map_map]
  refine congrArg NameMap.mk (List.map_congr_left fun e _ => ?_)
  by_cases he : e.1 = name <;> simp [he]

theorem contains_iff {m : NameMap α} {name : String} :
    m.contains name = true ↔ ∃ value, m.get? name = some value :=
  Option.isSome_iff_exists

theorem contains_eq_false_iff {m : NameMap α} {name : String} :
    m.contains name = false ↔ m.get? name = none :=
  Option.isSome_eq_false_iff.trans Option.isNone_iff_eq_none

theorem mem_names_iff {m : NameMap α} {name : String} :
    name ∈ m.names ↔ m.contains name = true := by
  obtain ⟨es⟩ := m
  simp only [names, contains, get?]
  induction es with
  | nil => simp
  | cons e es ih =>
    rw [List.map_cons, List.mem_cons, ih, lookup_cons]
    by_cases he : name = e.1 <;> simp [he]

theorem contains_insert (m : NameMap α) (name other : String) (value : α) :
    (m.insert name value).contains other = (decide (other = name) || m.contains other) := by
  by_cases h : other = name <;> simp [contains, get?_insert, h]

/-! ## Order -/

theorem Ascending.nodup {m : NameMap α} (h : m.Ascending) : m.names.Nodup :=
  List.Pairwise.imp (fun hlt => Std.ne_of_lt hlt) h

theorem ascending_empty : (∅ : NameMap α).Ascending :=
  List.Pairwise.nil

/-- An entry that is put in comes from the entries that were there or is the new one. -/
theorem mem_insertEntry {name : String} {value : α} {es : List (String × α)} {e : String × α}
    (h : e ∈ insertEntry name value es) : e = (name, value) ∨ e ∈ es := by
  induction es with
  | nil => simpa [insertEntry] using h
  | cons f fs ih =>
    unfold insertEntry at h
    split at h
    · rcases List.mem_cons.1 h with rfl | h
      · exact Or.inl rfl
      · exact Or.inr (List.mem_cons_of_mem _ h)
    · split at h
      · exact List.mem_cons.1 h
      · rcases List.mem_cons.1 h with rfl | h
        · exact Or.inr List.mem_cons_self
        · exact (ih h).imp_right (List.mem_cons_of_mem _)

theorem Ascending.insert {m : NameMap α} (h : m.Ascending) (name : String) (value : α) :
    (m.insert name value).Ascending := by
  obtain ⟨es⟩ := m
  simp only [Ascending, names, NameMap.insert] at h ⊢
  induction es with
  | nil => simp [insertEntry]
  | cons e es ih =>
    rw [List.map_cons, List.pairwise_cons] at h
    obtain ⟨hfirst, hrest⟩ := h
    unfold insertEntry
    split
    · rename_i heq
      exact List.pairwise_cons.2 ⟨heq ▸ hfirst, hrest⟩
    · rename_i hne
      split
      · rename_i hlt
        rw [List.map_cons, List.map_cons, List.pairwise_cons, List.pairwise_cons]
        refine ⟨fun other hother => ?_, hfirst, hrest⟩
        rcases List.mem_cons.1 hother with rfl | hother
        · exact hlt
        · exact String.lt_trans hlt (hfirst other hother)
      · rename_i hge
        have hlt : e.1 < name := Std.lt_of_le_of_ne (String.not_lt.1 hge) (Ne.symm hne)
        rw [List.map_cons, List.pairwise_cons]
        refine ⟨fun other hother => ?_, ih hrest⟩
        obtain ⟨f, hf, rfl⟩ := List.mem_map.1 hother
        rcases mem_insertEntry hf with rfl | hf
        · exact hlt
        · exact hfirst _ (List.mem_map_of_mem hf)

theorem Ascending.erase {m : NameMap α} (h : m.Ascending) (name : String) :
    (m.erase name).Ascending :=
  h.sublist (List.filter_sublist.map _)

theorem get?_foldl_erase (names : List String) (m : NameMap α) (other : String) :
    (names.foldl erase m).get? other = if other ∈ names then none else m.get? other := by
  induction names generalizing m with
  | nil => simp
  | cons name names ih =>
    rw [List.foldl_cons, ih, get?_erase]
    by_cases hn : other = name <;> by_cases hmem : other ∈ names <;> simp [hn, hmem]

theorem entries_foldl_erase (names : List String) (m : NameMap α) :
    (names.foldl erase m).entries = m.entries.filter fun e => e.1 ∉ names := by
  induction names generalizing m with
  | nil => exact (List.filter_eq_self.2 fun _ _ => by simp).symm
  | cons name names ih =>
    rw [List.foldl_cons, ih, erase, List.filter_filter]
    exact List.filter_congr fun e _ => by simp [Bool.and_comm]

theorem names_foldl_erase (names : List String) (m : NameMap α) :
    (names.foldl erase m).names = m.names.filter fun name => name ∉ names := by
  rw [NameMap.names, entries_foldl_erase, NameMap.names, List.filter_map]
  rfl

theorem Ascending.foldl_erase {m : NameMap α} (h : m.Ascending) (names : List String) :
    (names.foldl NameMap.erase m).Ascending := by
  induction names generalizing m with
  | nil => exact h
  | cons name names ih => exact ih (h.erase name)

theorem ascending_foldl_insert (es : List (String × α)) {m : NameMap α} (h : m.Ascending) :
    (es.foldl (fun m e => m.insert e.1 e.2) m).Ascending := by
  induction es generalizing m with
  | nil => exact h
  | cons e es ih => exact ih (h.insert e.1 e.2)

theorem ascending_ofList (es : List (String × α)) : (ofList es).Ascending :=
  ascending_foldl_insert es ascending_empty

theorem get?_of_foldl_insert {es : List (String × α)} {m : NameMap α} {name : String} {value : α}
    (h : (es.foldl (fun m e => m.insert e.1 e.2) m).get? name = some value) :
    (name, value) ∈ es ∨ m.get? name = some value := by
  induction es generalizing m with
  | nil => exact Or.inr h
  | cons e es ih =>
    rcases ih h with hmem | hget
    · exact Or.inl (.tail e hmem)
    · rw [get?_insert] at hget
      split at hget
      · rename_i heq
        cases hget
        exact Or.inl (heq ▸ List.mem_cons_self)
      · exact Or.inr hget

/-- What a map of listed entries holds is one of them. -/
theorem mem_of_get?_ofList {es : List (String × α)} {name : String} {value : α}
    (h : (ofList es).get? name = some value) : (name, value) ∈ es :=
  (get?_of_foldl_insert h).resolve_right (by simp)

theorem mem_names_foldl_insert {es : List (String × α)} {m : NameMap α} {name : String} :
    name ∈ (es.foldl (fun m e => m.insert e.1 e.2) m).names ↔
      name ∈ m.names ∨ name ∈ es.map (·.1) := by
  induction es generalizing m with
  | nil => simp
  | cons e es ih =>
    rw [List.foldl_cons, ih, mem_names_iff, contains_insert, mem_names_iff]
    simp only [Bool.or_eq_true, decide_eq_true_eq, List.map_cons, List.mem_cons]
    rw [or_assoc, or_left_comm]

theorem mem_names_ofList {es : List (String × α)} {name : String} :
    name ∈ (ofList es).names ↔ name ∈ es.map (·.1) :=
  mem_names_foldl_insert.trans (or_iff_right List.not_mem_nil)

/-- A name above all others goes to the end. -/
theorem insertEntry_of_lt {name : String} {value : α} {es : List (String × α)}
    (h : ∀ e ∈ es, e.1 < name) : insertEntry name value es = es ++ [(name, value)] := by
  induction es with
  | nil => rfl
  | cons e es ih =>
    have hlt : e.1 < name := h e List.mem_cons_self
    rw [insertEntry, if_neg (Ne.symm (Std.ne_of_lt hlt)), if_neg (String.lt_asymm hlt),
      ih fun f hf => h f (List.mem_cons_of_mem _ hf)]
    rfl

theorem foldl_insert_of_ascending {es : List (String × α)} {m : NameMap α}
    (h : ((m.entries ++ es).map (·.1)).Pairwise (· < ·)) :
    es.foldl (fun m e => m.insert e.1 e.2) m = ⟨m.entries ++ es⟩ := by
  induction es generalizing m with
  | nil => rw [List.foldl_nil, List.append_nil]
  | cons e es ih =>
    have hlast : m.insert e.1 e.2 = ⟨m.entries ++ [e]⟩ := by
      refine congrArg NameMap.mk (insertEntry_of_lt fun f hf => ?_)
      rw [List.map_append, List.pairwise_append] at h
      exact h.2.2 f.1 (List.mem_map_of_mem hf) e.1 List.mem_cons_self
    rw [List.foldl_cons, hlast, ih (by simpa using h)]
    simp

/-- A map in order is the map of its entries. -/
theorem Ascending.ofList_entries {m : NameMap α} (h : m.Ascending) : ofList m.entries = m :=
  foldl_insert_of_ascending (m := ∅) h

theorem names_erase_subset (m : NameMap α) (name : String) : (m.erase name).names ⊆ m.names :=
  (List.filter_sublist.map _).subset

theorem names_modify (m : NameMap α) (name : String) (f : α → α) :
    (m.modify name f).names = m.names := by
  simp only [names, modify, List.map_map]
  refine List.map_congr_left fun e _ => ?_
  by_cases he : e.1 = name <;> simp [he]

theorem Ascending.modify {m : NameMap α} (h : m.Ascending) (name : String) (f : α → α) :
    (m.modify name f).Ascending := by
  unfold Ascending
  rw [names_modify]
  exact h

theorem names_map (m : NameMap α) (f : α → β) : (m.map f).names = m.names := by
  simp [names, map]

theorem Ascending.map {m : NameMap α} (h : m.Ascending) (f : α → β) : (m.map f).Ascending := by
  unfold Ascending
  rw [names_map]
  exact h

/-- A name below all others is not there. -/
theorem lookup_eq_none_of_lt {name : String} {es : List (String × α)}
    (h : ∀ other ∈ es.map (·.1), name < other) : es.lookup name = none := by
  refine Option.not_isSome_iff_eq_none.1 fun hs => ?_
  exact String.lt_irrefl _ (h name (mem_names_iff (m := ⟨es⟩).2 hs))

/-- Two maps in order with the same look-ups are the same map. -/
theorem Ascending.ext {m k : NameMap α} (hm : m.Ascending) (hk : k.Ascending)
    (h : ∀ name, m.get? name = k.get? name) : m = k := by
  obtain ⟨es⟩ := m
  obtain ⟨fs⟩ := k
  simp only [Ascending, names, get?] at hm hk h
  congr 1
  induction es generalizing fs with
  | nil =>
    cases fs with
    | nil => rfl
    | cons f fs => simpa [lookup_cons] using h f.1
  | cons e es ih =>
    cases fs with
    | nil => simpa [lookup_cons] using h e.1
    | cons f fs =>
      rw [List.map_cons, List.pairwise_cons] at hm hk
      -- the least name of either map is found in the other one, so it is the same name
      have hname : e.1 = f.1 := by
        refine Classical.byContradiction fun hne => ?_
        have he := h e.1
        have hf := h f.1
        simp only [lookup_cons, if_true, if_neg hne, if_neg (Ne.symm hne)] at he hf
        have hlt := hk.1 e.1 (mem_names_iff (m := ⟨fs⟩).2 (contains_iff.2 ⟨_, he.symm⟩))
        exact String.lt_asymm hlt
          (hm.1 f.1 (mem_names_iff (m := ⟨es⟩).2 (contains_iff.2 ⟨_, hf⟩)))
      have hvalue : e.2 = f.2 := by simpa [lookup_cons, hname] using h e.1
      have hrest : ∀ name, es.lookup name = fs.lookup name := by
        intro name
        by_cases hn : name = e.1
        · rw [lookup_eq_none_of_lt (hn ▸ hm.1), lookup_eq_none_of_lt (hn ▸ hname ▸ hk.1)]
        · simpa [lookup_cons, hn, hname ▸ hn] using h name
      rw [ih hm.2 fs hk.2 hrest, Prod.ext hname hvalue]

/-- A change that leaves what it finds as it is changes nothing. -/
theorem Ascending.modify_eq_self {m : NameMap α} (h : m.Ascending) {name : String} {f : α → α}
    (hf : ∀ value, m.get? name = some value → f value = value) : m.modify name f = m := by
  refine (h.modify name f).ext h fun other => ?_
  rw [get?_modify]
  split
  · rename_i heq
    subst heq
    cases hv : m.get? other with
    | none => rfl
    | some value => rw [Option.map_some, hf value hv]
  · rfl

/-- What is put in and then changed could have been put in changed. -/
theorem Ascending.modify_insert {m : NameMap α} (h : m.Ascending) (name : String) (value : α)
    (f : α → α) : (m.insert name value).modify name f = m.insert name (f value) := by
  refine ((h.insert name value).modify name f).ext (h.insert name (f value)) fun other => ?_
  rw [get?_modify, get?_insert, get?_insert]
  split
  · rfl
  · rfl

/-! ## Entries and values -/

theorem insertEntry_perm {name : String} {value : α} {es : List (String × α)}
    (h : es.lookup name = none) : (insertEntry name value es).Perm ((name, value) :: es) := by
  induction es with
  | nil => exact .refl _
  | cons e es ih =>
    rw [lookup_cons] at h
    have hne : name ≠ e.1 := fun heq => by simp [heq] at h
    rw [if_neg hne] at h
    unfold insertEntry
    rw [if_neg hne]
    split
    · exact .refl _
    · exact ((ih h).cons e).trans (.swap _ _ _)

/-- What a new name adds to the values. -/
theorem values_insert_perm {m : NameMap α} {name : String} (value : α)
    (h : m.get? name = none) : (m.insert name value).values.Perm (value :: m.values) :=
  (insertEntry_perm h).map _

/-- A name that is put in and taken out again leaves no trace. -/
theorem erase_insert {m : NameMap α} {name : String} (value : α) (h : m.get? name = none) :
    (m.insert name value).erase name = m := by
  obtain ⟨es⟩ := m
  simp only [get?] at h
  simp only [NameMap.insert, NameMap.erase]
  congr 1
  induction es with
  | nil => simp [insertEntry]
  | cons e es ih =>
    rw [lookup_cons] at h
    have hne : name ≠ e.1 := fun heq => by simp [heq] at h
    rw [if_neg hne] at h
    have hkeep : es.filter (fun e => e.1 ≠ name) = es := by
      refine List.filter_eq_self.2 fun f hf => decide_eq_true fun heq => ?_
      have := List.lookup_eq_none_iff.1 h f hf
      simp [heq] at this
    unfold insertEntry
    rw [if_neg hne]
    split
    · rw [List.filter_cons_of_neg (by simp), List.filter_cons_of_pos (by simp [Ne.symm hne]),
        hkeep]
    · rw [List.filter_cons_of_pos (by simp [Ne.symm hne]), ih h]

/-- Where every key stands once, a look-up finds what is there. -/
theorem lookup_eq_some_iff {κ : Type} [BEq κ] [LawfulBEq κ] {es : List (κ × α)}
    (h : (es.map (·.1)).Nodup) {key : κ} {value : α} :
    es.lookup key = some value ↔ (key, value) ∈ es := by
  induction es with
  | nil => simp
  | cons e es ih =>
    obtain ⟨first, old⟩ := e
    rw [List.map_cons, List.nodup_cons] at h
    by_cases hkey : key = first
    · subst hkey
      have hfresh : (key, value) ∉ es := fun hmem =>
        h.1 (List.mem_map.2 ⟨(key, value), hmem, rfl⟩)
      simp [hfresh, eq_comm]
    · simp [List.lookup_cons, beq_false_of_ne hkey, hkey, ih h.2]

/-- A map of listed entries holds them all if every name stands once. -/
theorem get?_ofList {es : List (String × α)} (h : (es.map (·.1)).Nodup) (name : String) :
    (ofList es).get? name = es.lookup name := by
  cases hget : (ofList es).get? name with
  | some value => exact ((lookup_eq_some_iff h).2 (mem_of_get?_ofList hget)).symm
  | none =>
    refine (Option.not_isSome_iff_eq_none.1 fun hs => ?_).symm
    have hname : name ∈ (ofList es).names :=
      mem_names_ofList.2 (mem_names_iff (m := ⟨es⟩).2 hs)
    obtain ⟨value, hvalue⟩ := contains_iff.1 (mem_names_iff.1 hname)
    rw [hget] at hvalue
    cases hvalue

theorem Ascending.get?_eq_some_iff {m : NameMap α} (h : m.Ascending) {name : String}
    {value : α} : m.get? name = some value ↔ (name, value) ∈ m.entries :=
  lookup_eq_some_iff h.nodup

/-- The entries of a map that are put into another one take precedence. -/
theorem Ascending.get?_foldl_insert {k : NameMap α} (hk : k.Ascending) (m : NameMap α)
    (name : String) : (k.entries.foldl (fun m e => m.insert e.1 e.2) m).get? name =
      (k.get? name).or (m.get? name) := by
  obtain ⟨es⟩ := k
  simp only [Ascending, names, get?] at hk ⊢
  induction es generalizing m with
  | nil => rfl
  | cons e es ih =>
    rw [List.map_cons, List.pairwise_cons] at hk
    rw [List.foldl_cons, ih _ hk.2, lookup_cons]
    change (es.lookup name).or ((m.insert e.1 e.2).get? name) = _
    rw [get?_insert]
    by_cases hn : name = e.1
    · rw [if_pos hn, if_pos hn, lookup_eq_none_of_lt (hn ▸ hk.1)]
      rfl
    · rw [if_neg hn, if_neg hn]
      rfl

theorem mem_values_of_get? {m : NameMap α} {name : String} {value : α}
    (h : m.get? name = some value) : value ∈ m.values := by
  obtain ⟨before, after, hes, -⟩ := List.lookup_eq_some_iff.1 h
  simp [values, hes]

theorem Ascending.mem_values_iff {m : NameMap α} (h : m.Ascending) {value : α} :
    value ∈ m.values ↔ ∃ name, m.get? name = some value := by
  constructor
  · intro hv
    obtain ⟨⟨name, v⟩, he, rfl⟩ := List.mem_map.1 hv
    exact ⟨name, h.get?_eq_some_iff.2 he⟩
  · rintro ⟨name, hv⟩
    exact mem_values_of_get? hv

/-- What a name that is taken out takes from the values. -/
theorem Ascending.values_erase_perm {m : NameMap α} (h : m.Ascending) {name : String}
    {value : α} (hv : m.get? name = some value) :
    m.values.Perm (value :: (m.erase name).values) := by
  have hnone : (m.erase name).get? name = none := by simp [get?_erase]
  have hsame : (m.erase name).insert name value = m := by
    refine ((h.erase name).insert name value).ext h fun other => ?_
    rw [get?_insert, get?_erase]
    by_cases ho : other = name <;> simp [ho, hv]
  have := values_insert_perm value hnone
  rwa [hsame] at this

theorem values_map (m : NameMap α) (f : α → β) : (m.map f).values = m.values.map f := by
  simp [values, map]

/-- A change of one value that a view does not show leaves the view of all values alone. -/
theorem map_values_modify (m : NameMap α) (name : String) (f : α → α) {view : α → β}
    (h : ∀ value, view (f value) = view value) :
    (m.modify name f).values.map view = m.values.map view := by
  simp only [values, modify, List.map_map]
  refine List.map_congr_left fun e _ => ?_
  by_cases he : e.1 = name <;> simp [he, h]

end NameMap

end PluginHost
