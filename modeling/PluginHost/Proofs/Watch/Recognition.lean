import PluginHost.Proofs.PluginFile
import PluginHost.Proofs.Watch.Course
import PluginHost.Proofs.Watch.Dispatch

/-!
# Which files a watcher sees

Whether a file is a plugin's is decided by its name alone, wherever it stands. The names are bytes:
those that are a plugin's are texts that do not begin with a point and have a stem and one of four
extensions behind it. Four tests look at a name one after the other, for what an editor leaves
behind, for modules, for sources and for manifests, and no name passes more than one of the last
three. What none of them takes is not seen at all, neither by a scan nor when it changes.

* `classify_congr`: only the last name of a path counts.
* `classify_eq_some_iff`: the names of a plugin's files, by their kinds.
* `LeftBehind.classify`: what an editor leaves behind is no plugin's file.
* `Watcher.ignores_of_classify`: what is no plugin's file is ignored by watchers.
* `recognition`: all of it in one statement.
-/
namespace PluginHost

namespace PluginFile

variable {path stem : Bytes} {n s e : String}

/-- A file of the name is one of the plugin, and of this kind. -/
def Kind.Names (plugin file : String) : Kind → Prop
  | .source => plugin ≠ "" ∧ file = plugin ++ ".rs"
  | .manifest => plugin ≠ "" ∧ (file = plugin ++ ".toml" ∨ file = plugin ++ ".json")
  | .library => ∃ stem, stem ≠ "" ∧ stem ≠ "lib" ∧ file = stem ++ ".so" ∧
      (stem = "lib" ++ plugin ∨ stem = plugin ∧ ¬ BeginsWithLib plugin)

/-- Hidden files, and what editors leave behind: backups, autosaves and swap files. -/
inductive LeftBehind : Bytes → Prop where
  | hidden (rest : Bytes) : LeftBehind (point :: rest)
  | backup (before : Bytes) : LeftBehind (before ++ Text.utf8 "~")
  | autosave (middle : Bytes) : LeftBehind (Text.utf8 "#" ++ middle ++ Text.utf8 "#")
  | swap (stem : Bytes) {e : String} (he : e ∈ swapExtensions) :
    LeftBehind (stem ++ point :: Text.utf8 e)

/-! ## The last name decides -/

/-- Paths with one last name are of one plugin and one kind. -/
theorem classify_congr {other : Bytes} (h : fileName? path = fileName? other) :
    classify path = classify other := by
  have hext : ∀ es, hasExtension es path = hasExtension es other := by
    intro es
    rw [hasExtension, hasExtension, extension?, extension?, h]
  have hstem : stem? path = stem? other := by rw [stem?, stem?, h]
  have htemporary : isTemporary path = isTemporary other := by
    rw [isTemporary, isTemporary, h, hext]
  have hlibrary : libraryName? path = libraryName? other := by
    rw [libraryName?, libraryName?, isLibrary, isLibrary, hext, hstem]
  unfold classify
  rw [htemporary, hlibrary, isManifest, isManifest, hext, hext, hstem]

/-! ## Names with an extension -/

/-- The extensions of a plugin's files. -/
def extensions : List String := ["so", "rs", "toml", "json"]

/-- None of the extensions has a point in it, ends like the name of a backup or an autosave, or is
one of a swap file. -/
theorem plain_of_mem_extensions : ∀ e ∈ extensions, point ∉ Text.utf8 e ∧
    e.toList.getLast? ∉ [none, some '~', some '#'] ∧
    (Text.utf8 e).getLast? ∉ [none, (Text.utf8 "~").getLast?, (Text.utf8 "#").getLast?] ∧
    e ∉ swapExtensions := by
  decide

theorem point_not_mem_extension (he : e ∈ extensions) : point ∉ Text.utf8 e :=
  (plain_of_mem_extensions e he).1

theorem utf8_ne_nil : Text.utf8 s ≠ [] ↔ s ≠ "" :=
  not_congr (Text.utf8_inj (s := s) (t := ""))

theorem utf8_spelled (stem e : String) :
    Text.utf8 (stem ++ ("." ++ e)) = Text.utf8 stem ++ point :: Text.utf8 e := by
  rw [Text.utf8_append, Text.utf8_append]
  rfl

/-- The plugin that a path with an extension names, when its last name is a text. -/
theorem extension?_and_stem?_iff (he : point ∉ Text.utf8 e) :
    extension? path = some (Text.utf8 e) ∧
        ((stem? path).bind Text.ofUtf8?).bind nonEmpty? = some n ↔
      n ≠ "" ∧ fileName? path = some (Text.utf8 (n ++ ("." ++ e))) := by
  constructor
  · rintro ⟨hext, hn⟩
    obtain ⟨stem, hname, hstem, -⟩ := extension?_eq_some_iff.1 hext
    rw [stem?_of_fileName? hname hstem he, Option.bind_some] at hn
    obtain ⟨text, htext, hnonempty⟩ := Option.bind_eq_some_iff.1 hn
    obtain ⟨hne, heq⟩ := Option.ite_none_left_eq_some.1 hnonempty
    obtain rfl := Option.some.inj heq
    exact ⟨hne, by rw [hname, utf8_spelled, Text.utf8_of_ofUtf8? htext]⟩
  · rintro ⟨hne, hname⟩
    rw [utf8_spelled] at hname
    refine ⟨extension?_eq_some_iff.2 ⟨_, hname, utf8_ne_nil.2 hne, he⟩, ?_⟩
    rw [stem?_of_fileName? hname (utf8_ne_nil.2 hne) he, Option.bind_some, Text.ofUtf8?_utf8,
      Option.bind_some, nonEmpty?, if_neg hne]

theorem hasExtension_of_extension? (h : extension? path = some (Text.utf8 e)) (es : List String) :
    hasExtension es path = decide (e ∈ es) := by
  rw [Bool.eq_iff_iff, hasExtension_iff, decide_eq_true_iff]
  constructor
  · rintro ⟨e', he', hext⟩
    rwa [← Text.utf8_inj.1 (Option.some.inj (hext.symm.trans h))]
  · exact fun he => ⟨e, he, h⟩

/-! ## What editors leave behind -/

/-- A file that is not left behind has a text as its name, and the text has no point in front. -/
theorem spelled_of_not_isTemporary (h : isTemporary path = false) :
    ∃ s, fileName? path = some (Text.utf8 s) ∧ s.toList.head? ≠ some '.' := by
  unfold isTemporary at h
  split at h
  · cases h
  · next s hs =>
    obtain ⟨f, hname, hf⟩ := Option.bind_eq_some_iff.1 hs
    simp only [Bool.or_eq_false_iff, decide_eq_false_iff_not] at h
    exact ⟨s, by rw [hname, Text.utf8_of_ofUtf8? hf], h.1.1.1⟩

/-- A name with one of the extensions is left behind only if it is hidden. -/
theorem isTemporary_of_extension (he : e ∈ extensions) (hstem : s ≠ "")
    (hname : fileName? path = some (Text.utf8 (s ++ ("." ++ e))))
    (hhead : (s ++ ("." ++ e)).toList.head? ≠ some '.') : isTemporary path = false := by
  obtain ⟨hpoint, hmarks, -, hswap⟩ := plain_of_mem_extensions e he
  simp only [List.mem_cons, List.not_mem_nil, or_false, not_or] at hmarks
  obtain ⟨hne, htilde, hhash⟩ := hmarks
  have hlast : (s ++ ("." ++ e)).toList.getLast? = e.toList.getLast? := by
    rw [String.toList_append, String.toList_append, ← List.append_assoc,
      List.getLast?_append_of_ne_nil _ (fun h => hne (by rw [h]; rfl))]
  have hext : extension? path = some (Text.utf8 e) :=
    extension?_eq_some_iff.2 ⟨_, by rw [hname, utf8_spelled], utf8_ne_nil.2 hstem, hpoint⟩
  unfold isTemporary
  rw [hname, Option.bind_some, Text.ofUtf8?_utf8]
  simp only [hlast, hhead, htilde, hhash, hasExtension_of_extension? hext, hswap, decide_false,
    Bool.and_false, Bool.or_self]

/-! ## The kinds of names -/

theorem Kind.Names.nonempty {kind : Kind} (h : kind.Names n s) : n ≠ "" := by
  rintro rfl
  cases kind with
  | source | manifest => exact h.1 rfl
  | library =>
    obtain ⟨stem, hempty, hlib, -, heq | ⟨heq, -⟩⟩ := h
    · exact hlib heq
    · exact hempty heq

/-- Each of the names has a stem and one of the four extensions. -/
theorem Kind.Names.spelled {kind : Kind} (h : kind.Names n s) :
    ∃ stem, stem ≠ "" ∧ ∃ e ∈ extensions, s = stem ++ ("." ++ e) := by
  cases kind with
  | source => exact ⟨n, h.1, "rs", by decide, h.2⟩
  | manifest =>
    rcases h.2 with heq | heq
    · exact ⟨n, h.1, "toml", by decide, heq⟩
    · exact ⟨n, h.1, "json", by decide, heq⟩
  | library =>
    obtain ⟨stem, hempty, -, heq, -⟩ := h
    exact ⟨stem, hempty, "so", by decide, heq⟩

/-- The names of a plugin's modules. -/
theorem names_library_iff : Kind.library.Names n s ↔
    n ≠ "" ∧ ∃ stem, s = stem ++ ".so" ∧ withoutLib stem = n := by
  constructor
  · intro h
    obtain ⟨stem, -, -, heq, hspelled⟩ := id h
    exact ⟨h.nonempty, stem, heq, withoutLib_eq_iff.2 hspelled⟩
  · rintro ⟨hne, stem, heq, hstem⟩
    refine ⟨stem, ?_, ?_, heq, withoutLib_eq_iff.1 hstem⟩
    · rintro rfl
      exact hne hstem.symm
    · rintro rfl
      exact hne hstem.symm

/-- What the tests find out about a path with the last name. -/
theorem classify_of_names {kind : Kind} (hname : fileName? path = some (Text.utf8 s))
    (hhead : s.toList.head? ≠ some '.') (h : kind.Names n s) :
    classify path = some (n, kind) := by
  have htemporary : isTemporary path = false := by
    obtain ⟨stem, hstem, e, he, rfl⟩ := h.spelled
    exact isTemporary_of_extension he hstem hname hhead
  have hplain : ∀ {e}, e ∈ extensions → e ≠ "so" → n ≠ "" → s = n ++ ("." ++ e) →
      extension? path = some (Text.utf8 e) ∧ libraryName? path = none ∧
        ((stem? path).bind Text.ofUtf8?).bind nonEmpty? = some n := by
    rintro e he hso hne rfl
    obtain ⟨hext, hn⟩ := (extension?_and_stem?_iff (point_not_mem_extension he)).2 ⟨hne, hname⟩
    have hno : isLibrary path = false := by
      rw [isLibrary, hasExtension_of_extension? hext]
      simpa using hso
    exact ⟨hext, by rw [libraryName?, hno]; rfl, hn⟩
  unfold classify
  rw [htemporary]
  cases kind with
  | library =>
    obtain ⟨hne, stem, rfl, hstem⟩ := names_library_iff.1 h
    rw [libraryName?_eq_some_iff.2 ⟨hne, stem, hname, hstem⟩]
    rfl
  | source =>
    obtain ⟨hext, hlibrary, hn⟩ := hplain (e := "rs") (by decide) (by decide) h.1 h.2
    rw [hlibrary, hasExtension_of_extension? hext, hn]
    rfl
  | manifest =>
    obtain heq | heq := h.2
    · obtain ⟨hext, hlibrary, hn⟩ := hplain (e := "toml") (by decide) (by decide) h.1 heq
      rw [hlibrary, isManifest, hasExtension_of_extension? hext, hasExtension_of_extension? hext, hn]
      rfl
    · obtain ⟨hext, hlibrary, hn⟩ := hplain (e := "json") (by decide) (by decide) h.1 heq
      rw [hlibrary, isManifest, hasExtension_of_extension? hext, hasExtension_of_extension? hext, hn]
      rfl

/-- The plugin's files are those with one of the names, as long as it does not begin with a
point. -/
theorem classify_eq_some_iff {kind : Kind} : classify path = some (n, kind) ↔
    ∃ s, fileName? path = some (Text.utf8 s) ∧ s.toList.head? ≠ some '.' ∧ kind.Names n s := by
  refine ⟨fun h => ?_, fun ⟨s, hname, hhead, hnames⟩ => classify_of_names hname hhead hnames⟩
  unfold classify at h
  split at h
  · cases h
  rename_i htemporary
  obtain ⟨s, hname, hhead⟩ := spelled_of_not_isTemporary (Bool.eq_false_iff.2 htemporary)
  refine ⟨s, hname, hhead, ?_⟩
  have hspelled : ∀ {t}, fileName? path = some (Text.utf8 t) → s = t := fun ht =>
    Text.utf8_inj.1 (Option.some.inj (hname.symm.trans ht))
  split at h
  · next hlibrary =>
    obtain ⟨rfl, rfl⟩ := Prod.mk.inj (Option.some.inj h)
    obtain ⟨hne, stem, ht, hstem⟩ := libraryName?_eq_some_iff.1 hlibrary
    exact names_library_iff.2 ⟨hne, stem, hspelled ht, hstem⟩
  · obtain ⟨k, hkind, hn⟩ := Option.bind_eq_some_iff.1 h
    obtain ⟨m, hm, heq⟩ := Option.map_eq_some_iff.1 hn
    obtain ⟨rfl, rfl⟩ := Prod.mk.inj heq
    have hplain : ∀ {e}, point ∉ Text.utf8 e → extension? path = some (Text.utf8 e) →
        m ≠ "" ∧ s = m ++ ("." ++ e) := fun he hext =>
      (extension?_and_stem?_iff he).1 ⟨hext, hm⟩ |>.imp_right hspelled
    split at hkind
    · next hsource =>
      obtain rfl := Option.some.inj hkind
      obtain ⟨e, he, hext⟩ := hasExtension_iff.1 hsource
      obtain rfl := List.mem_singleton.1 he
      exact hplain (by decide) hext
    · obtain ⟨hmanifest, hkind⟩ := Option.ite_none_right_eq_some.1 hkind
      obtain rfl := Option.some.inj hkind
      obtain ⟨e, he, hext⟩ := hasExtension_iff.1 hmanifest
      have hpoint : point ∉ Text.utf8 e := by
        clear hext
        revert e
        decide
      obtain ⟨hne, heq⟩ := hplain hpoint hext
      refine ⟨hne, ?_⟩
      rcases List.mem_pair.1 he with rfl | rfl
      · exact Or.inl heq
      · exact Or.inr heq

/-- A point in front of the bytes is one in front of the text. -/
theorem head?_of_utf8 {rest : Bytes} (h : Text.utf8 s = point :: rest) :
    s.toList.head? = some '.' := by
  rw [Text.utf8_eq_flatMap] at h
  cases hs : s.toList with
  | nil => simp [hs] at h
  | cons c cs =>
    rw [hs, List.flatMap_cons] at h
    have hmem : point ∈ String.utf8EncodeChar c := by
      cases hc : String.utf8EncodeChar c with
      | nil => exact absurd hc String.utf8EncodeChar_ne_nil
      | cons b bs =>
        rw [hc, List.cons_append] at h
        exact (List.cons.inj h).1 ▸ List.mem_cons_self
    have hc := (Text.mem_utf8EncodeChar (by decide)).1 hmem
    exact congrArg some (Char.toNat_inj.1 hc)

/-- Nothing that is left behind is a plugin's file. -/
theorem LeftBehind.classify {f : Bytes} (h : LeftBehind f) (hname : fileName? path = some f) :
    classify path = none := by
  refine Option.eq_none_iff_forall_ne_some.2 fun ⟨n, kind⟩ hfile => ?_
  obtain ⟨s, hs, hhead, hnames⟩ := classify_eq_some_iff.1 hfile
  obtain rfl := Option.some.inj (hname.symm.trans hs)
  obtain ⟨stem, hstem, e, he, rfl⟩ := hnames.spelled
  -- a file of a plugin ends in one of the extensions, and none of them ends as what is left behind
  obtain ⟨hpoint, -, hmarks, hswap⟩ := plain_of_mem_extensions e he
  simp only [List.mem_cons, List.not_mem_nil, or_false, not_or] at hmarks
  obtain ⟨hne, htilde, hhash⟩ := hmarks
  have hlast : (Text.utf8 (stem ++ ("." ++ e))).getLast? = (Text.utf8 e).getLast? := by
    rw [utf8_spelled, List.append_cons,
      List.getLast?_append_of_ne_nil _ (fun hnil => hne (by rw [hnil]; rfl))]
  generalize hf : Text.utf8 (stem ++ ("." ++ e)) = f at h
  rw [hf] at hlast
  cases h with
  | hidden rest => exact hhead (head?_of_utf8 hf)
  | backup before =>
    exact htilde (hlast.symm.trans (List.getLast?_append_of_ne_nil _ (by decide)))
  | autosave middle =>
    exact hhash (hlast.symm.trans (List.getLast?_append_of_ne_nil _ (by decide)))
  | swap before he' =>
    rename_i e'
    have hpoint' : point ∉ Text.utf8 e' := by
      clear hf hlast
      revert e'
      decide
    have hcut : cut (before ++ point :: Text.utf8 e') = (Text.utf8 stem, some (Text.utf8 e)) :=
      cut_eq_some_iff.2 ⟨by rw [← hf, utf8_spelled], utf8_ne_nil.2 hstem, hpoint⟩
    rw [cut_append hpoint'] at hcut
    split at hcut
    · exact nomatch (Prod.mk.inj hcut).2
    · obtain rfl := Text.utf8_inj.1 (Option.some.inj (Prod.mk.inj hcut).2)
      exact hswap he'

end PluginFile

/-! ## What watchers do not see -/

namespace Watcher

/-- Watchers do not see the path: no scan finds it, its changes are not queued, and to dispatch it
leaves the host and its handles as they are. -/
structure Ignores (path : String) : Prop where
  scan : ∀ (w : Watcher) files, path ∉ w.scan files
  fileEvent : ∀ (w : Watcher) now, w.fileEvent now path = w
  dispatch : ∀ {ω : Type} (P : Plugins ω) note files (w : Watcher) (s : Site ω),
    (dispatch P note files (w, s) path).2 = s

theorem ignores_of_classify {path : String} (h : PluginFile.classify (Text.utf8 path) = none) :
    Ignores path := by
  have hunseen : recognizes path = false := by rw [recognizes, h]; rfl
  refine ⟨fun w files hmem => ?_, fun w now => ?_, fun P note files w s => ?_⟩
  · rw [recognizes_of_mem_scan hmem] at hunseen
    cases hunseen
  · rw [fileEvent, hunseen]
    rfl
  · unfold dispatch
    simp only [Site.applyChange_of_unrecognized h, ite_self]

end Watcher

namespace PluginFile

/-- Only the last name of a path decides whose file it is. It is a plugin's exactly if it spells a
text that does not begin with a point and is one of the names of a source, a manifest or a module,
and the plugin is never without a name. What an editor leaves behind is no plugin's file, and no
watcher sees what is none. -/
theorem recognition {f : Bytes} (hf : IsName f) :
    (∀ dir, classify (dir ++ slash :: f) = classify f) ∧
    (∀ n kind, classify f = some (n, kind) ↔
      ∃ s, f = Text.utf8 s ∧ s.toList.head? ≠ some '.' ∧ kind.Names n s) ∧
    (∀ n kind, classify f = some (n, kind) → n ≠ "") ∧
    (LeftBehind f → classify f = none) ∧
    ∀ path, (Text.utf8 path = f ∨ ∃ dir, Text.utf8 path = dir ++ slash :: f) →
      classify f = none → Watcher.Ignores path := by
  have hname := hf.fileName?
  have hbehind : ∀ dir, classify (dir ++ slash :: f) = classify f := fun dir =>
    classify_congr ((fileName?_behind_slash hf dir).trans hname.symm)
  have hfile : ∀ n kind, classify f = some (n, kind) ↔
      ∃ s, f = Text.utf8 s ∧ s.toList.head? ≠ some '.' ∧ kind.Names n s := fun n kind => by
    rw [classify_eq_some_iff, hname]
    simp only [Option.some.injEq]
  refine ⟨hbehind, hfile, fun n kind h => ?_, fun h => h.classify hname, fun path hpath hnone => ?_⟩
  · obtain ⟨s, -, -, hnames⟩ := (hfile n kind).1 h
    exact hnames.nonempty
  · refine Watcher.ignores_of_classify ?_
    obtain heq | ⟨dir, heq⟩ := hpath
    · rw [heq, hnone]
    · rw [heq, hbehind, hnone]

/-- A module with `lib` in front, and what an editor leaves while the source is written. -/
theorem notes_recognized :
    classify (Text.utf8 "plugins/libnotes.so") = some ("notes", .library) ∧
      Watcher.Ignores "plugins/#notes.rs#" := by
  have hmodule := recognition (f := Text.utf8 "libnotes.so")
    ⟨by decide, by decide, by decide, by decide⟩
  have hautosave := recognition (f := Text.utf8 "#notes.rs#")
    ⟨by decide, by decide, by decide, by decide⟩
  refine ⟨(hmodule.1 (Text.utf8 "plugins")).trans ((hmodule.2.1 _ _).2 ?_), ?_⟩
  · exact ⟨"libnotes.so", rfl, by decide, "libnotes", by decide, by decide, rfl, Or.inl rfl⟩
  · exact hautosave.2.2.2.2 _ (Or.inr ⟨Text.utf8 "plugins", rfl⟩)
      (hautosave.2.2.2.1 (.autosave (Text.utf8 "notes.rs")))

end PluginFile

end PluginHost
