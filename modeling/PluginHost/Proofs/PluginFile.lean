import Mathlib.Data.List.TakeWhile
import PluginHost.PluginFile

/-!
# Names of files

A path belongs to a plugin by its last name alone. The name of a module is a stem that spells a
text and `.so` behind it; the plugin has the stem as its name, without one `lib` at the front. So
a plugin has two spellings for its module, and only one when its name begins with `lib` itself.

* `fileName?_behind_slash`: the last name of a path.
* `cut_eq_some_iff`: a name with an extension.
* `libraryName?_eq_some_iff`: the modules of a plugin by their last names.
-/
namespace PluginHost.PluginFile

variable {name ext stem path : Bytes}

/-! ## The last name -/

/-- A name that stands in a directory: not empty, without a slash, and neither of the two that
lead elsewhere. -/
structure IsName (name : Bytes) : Prop where
  nonempty : name ≠ []
  not_here : name ≠ [point]
  not_back : name ≠ [point, point]
  slashless : slash ∉ name

theorem namesFrom_append_slash (name bs cs : Bytes) :
    namesFrom name (bs ++ slash :: cs) = namesFrom name bs ++ namesFrom [] cs := by
  induction bs generalizing name with
  | nil =>
    simp only [List.nil_append, namesFrom, if_true]
    split <;> rfl
  | cons b bs ih =>
    simp only [List.cons_append, namesFrom, ih]
    split
    · split <;> rfl
    · rfl

theorem namesFrom_of_slashless {bs : Bytes} (hslash : slash ∉ bs) (hname : name ++ bs ≠ []) :
    namesFrom name bs = [name ++ bs] := by
  induction bs generalizing name with
  | nil =>
    rw [List.append_nil] at hname ⊢
    exact if_neg hname
  | cons b bs ih =>
    rw [List.mem_cons, not_or] at hslash
    rw [namesFrom, if_neg (Ne.symm hslash.1), ih hslash.2 (by simp), List.append_assoc]
    rfl

theorem IsName.namesFrom (hname : IsName name) : namesFrom [] name = [name] :=
  namesFrom_of_slashless hname.slashless hname.nonempty

/-- A name is its own last name. -/
theorem IsName.fileName? (hname : IsName name) : fileName? name = some name := by
  unfold PluginFile.fileName?
  simp [hname.namesFrom, hname.not_here, hname.not_back]

/-- A name behind a slash is the last name of the path, whatever stands before. -/
theorem fileName?_behind_slash (hname : IsName name) (dir : Bytes) :
    fileName? (dir ++ slash :: name) = some name := by
  unfold PluginFile.fileName?
  simp [namesFrom_append_slash, hname.namesFrom, hname.not_here, hname.not_back]

/-! ## Extensions -/

/-- A name is cut at the last of its points, unless nothing stands before it. -/
theorem cut_append (hext : point ∉ ext) : cut (stem ++ point :: ext) =
    if stem = [] then (point :: ext, none) else (stem, some ext) := by
  have hreverse : (stem ++ point :: ext).reverse = ext.reverse ++ point :: stem.reverse := by simp
  have hpointless : ∀ b ∈ ext.reverse, decide (b ≠ point) = true := fun b hb =>
    decide_eq_true fun heq => hext (heq ▸ List.mem_reverse.1 hb)
  unfold cut
  rw [hreverse, List.dropWhile_append_of_pos hpointless, List.takeWhile_append_of_pos hpointless]
  cases hstem : stem.reverse with
  | nil => simp [List.reverse_eq_nil_iff.1 hstem]
  | cons b bs =>
    have hne : stem ≠ [] := fun hnil => by simp [hnil] at hstem
    simp [hne, ← hstem]

theorem cut_of_pointless (h : point ∉ name) : cut name = (name, none) := by
  have hdrop : name.reverse.dropWhile (· ≠ point) = [] :=
    List.dropWhile_eq_nil_iff.2 fun b hb =>
      decide_eq_true fun heq => h (heq ▸ List.mem_reverse.1 hb)
  unfold cut
  rw [hdrop]

theorem exists_last_point (h : point ∈ name) :
    ∃ before behind, name = before ++ point :: behind ∧ point ∉ behind := by
  obtain ⟨behind, before, hreverse, hbehind⟩ :=
    List.eq_append_cons_of_mem (List.mem_reverse.2 h)
  refine ⟨before.reverse, behind.reverse, ?_, mt List.mem_reverse.1 hbehind⟩
  rw [← List.reverse_reverse name, hreverse]
  simp

/-- A name has an extension when something stands before its last point. -/
theorem cut_eq_some_iff : cut name = (stem, some ext) ↔
    name = stem ++ point :: ext ∧ stem ≠ [] ∧ point ∉ ext := by
  constructor
  · intro h
    by_cases hpoint : point ∈ name
    · obtain ⟨before, behind, rfl, hbehind⟩ := exists_last_point hpoint
      rw [cut_append hbehind] at h
      split at h
      · cases h
      · rename_i hbefore
        cases h
        exact ⟨rfl, hbefore, hbehind⟩
    · rw [cut_of_pointless hpoint] at h
      cases h
  · rintro ⟨rfl, hstem, hext⟩
    rw [cut_append hext, if_neg hstem]

/-- A path has an extension when its last name has one. -/
theorem extension?_eq_some_iff : extension? path = some ext ↔
    ∃ stem, fileName? path = some (stem ++ point :: ext) ∧ stem ≠ [] ∧ point ∉ ext := by
  unfold extension?
  rw [Option.bind_eq_some_iff]
  constructor
  · rintro ⟨name, hname, hcut⟩
    obtain ⟨heq, hstem, hext⟩ := cut_eq_some_iff.1 (Prod.ext rfl hcut : cut name = (_, some ext))
    exact ⟨_, heq ▸ hname, hstem, hext⟩
  · rintro ⟨stem, hname, hstem, hext⟩
    exact ⟨_, hname, by rw [cut_eq_some_iff.2 ⟨rfl, hstem, hext⟩]⟩

theorem stem?_of_fileName? (hname : fileName? path = some (stem ++ point :: ext))
    (hstem : stem ≠ []) (hext : point ∉ ext) : stem? path = some stem := by
  rw [stem?, hname, Option.map_some, cut_eq_some_iff.2 ⟨rfl, hstem, hext⟩]

theorem hasExtension_iff {extensions : List String} : hasExtension extensions path = true ↔
    ∃ e ∈ extensions, extension? path = some (Text.utf8 e) := by
  unfold hasExtension
  cases extension? path with
  | none => simp
  | some ext =>
    simp only [List.any_eq_true, decide_eq_true_eq, Option.some.injEq]
    exact exists_congr fun e => and_congr_right fun _ => eq_comm

/-! ## Modules -/

/-- What ends like a manifest is no module. -/
theorem libraryName?_of_isManifest (h : isManifest path = true) : libraryName? path = none := by
  have hno : isLibrary path = false := by
    rw [← Bool.not_eq_true]
    intro hlibrary
    obtain ⟨e, he, hext⟩ := hasExtension_iff.1 hlibrary
    obtain ⟨e', he', hext'⟩ := hasExtension_iff.1 h
    rw [List.mem_singleton] at he
    obtain rfl : e = e' := Text.utf8_inj.1 (Option.some.inj (hext.symm.trans hext'))
    exact absurd he' (he ▸ by decide)
  rw [libraryName?, hno]
  rfl

/-- The name begins with `lib`. -/
def BeginsWithLib (name : String) : Prop :=
  "lib".toList <+: name.toList

instance (name : String) : Decidable (BeginsWithLib name) :=
  inferInstanceAs (Decidable (_ <+: _))

theorem beginsWithLib_iff {name : String} : BeginsWithLib name ↔ ∃ rest, name = "lib" ++ rest := by
  constructor
  · rintro ⟨rest, hrest⟩
    refine ⟨String.ofList rest, String.toList_inj.1 ?_⟩
    simp [← hrest]
  · rintro ⟨rest, rfl⟩
    exact ⟨rest.toList, String.toList_append.symm⟩

theorem withoutLib_lib (name : String) : withoutLib ("lib" ++ name) = name := by
  have hlist : ("lib" ++ name).toList = 'l' :: 'i' :: 'b' :: name.toList := String.toList_append
  rw [withoutLib, hlist]
  exact String.ofList_toList

theorem withoutLib_of_not {name : String} (h : ¬ BeginsWithLib name) : withoutLib name = name := by
  unfold withoutLib
  split
  · next rest heq => exact absurd ⟨rest, heq.symm⟩ h
  · rfl

/-- A name is the stem of its own, unless it begins with `lib`, and with `lib` before it. -/
theorem withoutLib_eq_iff {stem name : String} : withoutLib stem = name ↔
    stem = "lib" ++ name ∨ stem = name ∧ ¬ BeginsWithLib name := by
  constructor
  · rintro rfl
    by_cases h : BeginsWithLib stem
    · obtain ⟨rest, rfl⟩ := beginsWithLib_iff.1 h
      exact Or.inl (by rw [withoutLib_lib])
    · rw [withoutLib_of_not h]
      exact Or.inr ⟨rfl, h⟩
  · rintro (rfl | ⟨rfl, h⟩)
    · exact withoutLib_lib name
    · exact withoutLib_of_not h

/-- The modules of a plugin are those whose stem, without one `lib` at its front, is its name. -/
theorem libraryName?_eq_some_iff {name : String} : libraryName? path = some name ↔ name ≠ "" ∧
    ∃ stem, fileName? path = some (Text.utf8 (stem ++ ".so")) ∧ withoutLib stem = name := by
  have hso : point ∉ Text.utf8 "so" := by decide
  have hspell : ∀ stem, Text.utf8 (stem ++ ".so") = Text.utf8 stem ++ point :: Text.utf8 "so" :=
    fun stem => Text.utf8_append stem ".so"
  constructor
  · intro h
    unfold libraryName? at h
    split at h
    · rename_i hlibrary
      obtain ⟨e, he, hext⟩ := hasExtension_iff.1 hlibrary
      obtain rfl := List.mem_singleton.1 he
      obtain ⟨bytes, hname, hne, -⟩ := extension?_eq_some_iff.1 hext
      obtain ⟨stem, hstem, hnonempty⟩ := Option.bind_eq_some_iff.1 h
      rw [stem?_of_fileName? hname hne hso, Option.bind_some] at hstem
      obtain ⟨hnonempty, hwithout⟩ := Option.ite_none_left_eq_some.1 hnonempty
      rw [Option.some.injEq] at hwithout
      refine ⟨hwithout ▸ hnonempty, stem, ?_, hwithout⟩
      rw [hname, hspell, Text.utf8_of_ofUtf8? hstem]
    · cases h
  · rintro ⟨hnonempty, stem, hname, hwithout⟩
    have hne : Text.utf8 stem ≠ [] := by
      intro hnil
      obtain rfl : stem = "" := Text.utf8_inj.1 hnil
      exact hnonempty (hwithout ▸ rfl)
    rw [hspell] at hname
    have hlibrary : isLibrary path = true := hasExtension_iff.2
      ⟨"so", List.mem_singleton_self _, extension?_eq_some_iff.2 ⟨_, hname, hne, hso⟩⟩
    rw [libraryName?, if_pos hlibrary, stem?_of_fileName? hname hne hso, Option.bind_some,
      Text.ofUtf8?_utf8, Option.bind_some, hwithout, nonEmpty?, if_neg hnonempty]

end PluginHost.PluginFile
