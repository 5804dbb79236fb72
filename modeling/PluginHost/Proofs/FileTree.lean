import Mathlib.Data.List.Basic
import PluginHost.ManifestFile
import PluginHost.Proofs.PluginFile

/-!
# Trees of files

What a path leads to depends on what stands at the places of the tree, and on nothing else; the
order in which a directory lists its names is seen in that list only.

* `Alike`: trees that differ in the order of the lists only; `Alike.of_perm` is where they come
  from.
* `Proper`: a tree whose names can stand in directories; `proper_ofList` says which trees are.
* `place?_join`: a name behind the path of a directory leads into the directory.
* `pathExists_join`: it leads to something exactly when the directory has the name.
-/
namespace PluginHost.FileTree

variable {t u : FileTree} {dir name path : String} {p : Place}

/-! ## Nodes and names -/

theorem lookup_isSome_iff {ns : List (Place × Node)} :
    (ns.lookup p).isSome = true ↔ p ∈ ns.map (·.1) := by
  induction ns with
  | nil => simp
  | cons n ns ih =>
    obtain ⟨q, node⟩ := n
    by_cases h : p = q
    · simp [h]
    · simp [List.lookup_cons, beq_false_of_ne h, h, ih]

theorem childName?_eq_some_iff {q : Place} : childName? p q = some name ↔ q = p ++ [name] := by
  unfold childName?
  constructor
  · intro h
    split at h
    · next hchild =>
      obtain ⟨rest, rfl⟩ := List.isPrefixOf_iff_prefix.1 hchild.2
      have hlength : rest.length = 1 := by simpa using hchild.1
      obtain ⟨last, rfl⟩ := List.length_eq_one_iff.1 hlength
      rw [List.getLast?_concat] at h
      cases h
      rfl
    · cases h
  · rintro rfl
    simp

/-- The names in a directory are those at which something stands. -/
theorem mem_childrenAt : name ∈ t.childrenAt p ↔ (t.at? (p ++ [name])).isSome = true := by
  rw [at?, lookup_isSome_iff]
  simp only [childrenAt, List.mem_filterMap, List.mem_map, childName?_eq_some_iff]

/-! ## Trees that differ in the order of their lists -/

/-- The same stands at every place, and every directory has the same names, be it in another
order. -/
structure Alike (t u : FileTree) : Prop where
  nodes : ∀ p, u.at? p = t.at? p
  names : ∀ p, (u.childrenAt p).Perm (t.childrenAt p)

theorem Alike.refl (t : FileTree) : Alike t t where
  nodes _ := rfl
  names _ := .refl _

/-- In a tree with one node for a place, the order of the nodes is seen in the lists only. -/
theorem Alike.of_perm (hone : (t.nodes.map (·.1)).Nodup) (h : u.nodes.Perm t.nodes) :
    Alike t u where
  nodes p := by
    refine Option.ext fun n => ?_
    have hone' : (u.nodes.map (·.1)).Nodup := (h.map _).nodup_iff.2 hone
    rw [at?, at?, NameMap.lookup_eq_some_iff hone, NameMap.lookup_eq_some_iff hone', h.mem_iff]
  names p := h.filterMap _

theorem Alike.isDirectoryAt (h : Alike t u) (p : Place) :
    u.isDirectoryAt p = t.isDirectoryAt p := by
  rw [FileTree.isDirectoryAt, FileTree.isDirectoryAt, h.nodes]

theorem Alike.walk (h : Alike t u) (names : List String) (p : Place) :
    u.walk p names = t.walk p names := by
  induction names generalizing p with
  | nil => rfl
  | cons name names ih => simp only [FileTree.walk, h.isDirectoryAt, ih]

theorem Alike.place? (h : Alike t u) (path : String) : u.place? path = t.place? path := by
  rw [FileTree.place?, FileTree.place?, h.walk]

theorem Alike.node? (h : Alike t u) (path : String) : u.node? path = t.node? path := by
  rw [FileTree.node?, FileTree.node?, h.place?, funext h.nodes]

theorem Alike.isFile (h : Alike t u) (path : String) : u.isFile path = t.isFile path := by
  rw [FileTree.isFile, FileTree.isFile, h.node?]

theorem Alike.load (h : Alike t u) (path : String) :
    Manifest.load u path = Manifest.load t path := by
  rw [Manifest.load, Manifest.load, FileTree.text?, FileTree.text?, h.node?]

/-- A directory of one is a directory of the other, with the same names. -/
theorem Alike.children (h : Alike t u) {names : List String} (ht : t.children path = some names) :
    ∃ others, u.children path = some others ∧ others.Perm names := by
  obtain ⟨p, hp, hnames⟩ := Option.bind_eq_some_iff.1 ht
  obtain ⟨hdir, hnames⟩ := Option.ite_none_right_eq_some.1 hnames
  cases hnames
  refine ⟨u.childrenAt p, ?_, h.names p⟩
  rw [FileTree.children, h.place?, hp, Option.bind_some, h.isDirectoryAt, if_pos hdir]

theorem pathExists_of_isFile (h : t.isFile path = true) : t.pathExists path = true := by
  unfold isFile at h
  cases hnode : t.node? path with
  | none =>
    rw [hnode] at h
    cases h
  | some node => rw [pathExists, hnode, Option.isSome_some]

/-! ## Paths into a directory -/

/-- A name that can stand in a directory. -/
def IsName (name : String) : Prop :=
  name ≠ "" ∧ name ≠ "." ∧ name ≠ ".." ∧ '/' ∉ name.toList

instance : DecidablePred IsName := fun _ => inferInstanceAs (Decidable (_ ∧ _))

/-- All names of the tree can stand in a directory. -/
def Proper (t : FileTree) : Prop :=
  ∀ n ∈ t.nodes, ∀ name ∈ n.1, IsName name

instance (t : FileTree) : Decidable t.Proper :=
  inferInstanceAs (Decidable (∀ n ∈ t.nodes, ∀ name ∈ n.1, IsName name))

theorem IsName.utf8 (h : IsName name) : PluginFile.IsName (Text.utf8 name) where
  nonempty heq := h.1 (Text.utf8_inj.1 heq)
  not_here heq := h.2.1 (Text.utf8_inj.1 heq)
  not_back heq := h.2.2.1 (Text.utf8_inj.1 heq)
  slashless hmem := h.2.2.2 ((Text.mem_utf8_iff (c := '/') (by decide)).1 hmem)

theorem Proper.isName (h : t.Proper) {names : List String} (hnames : t.children dir = some names)
    (hname : name ∈ names) : IsName name := by
  obtain ⟨p, -, hnames⟩ := Option.bind_eq_some_iff.1 hnames
  obtain ⟨-, hnames⟩ := Option.ite_none_right_eq_some.1 hnames
  cases hnames
  rw [mem_childrenAt, at?, lookup_isSome_iff] at hname
  obtain ⟨n, hn, hplace⟩ := List.mem_map.1 hname
  exact h n hn name (hplace ▸ List.mem_append_right _ List.mem_cons_self)

theorem pieces_slashless {piece cs : List Char} (hpiece : '/' ∉ piece) {other : String}
    (h : other ∈ pieces piece cs) : '/' ∉ other.toList := by
  induction cs generalizing piece with
  | nil =>
    rw [List.mem_singleton.1 h, String.toList_ofList]
    exact hpiece
  | cons c cs ih =>
    rw [pieces] at h
    split at h
    · rcases List.mem_cons.1 h with rfl | h
      · rwa [String.toList_ofList]
      · exact ih List.not_mem_nil h
    · rename_i hc
      refine ih ?_ h
      rw [List.mem_append, List.mem_singleton, not_or]
      exact ⟨hpiece, Ne.symm hc⟩

theorem isName_of_mem_placeOf (h : name ∈ placeOf path) : IsName name := by
  suffices hall : ∀ n ∈ placeOf path, IsName n from hall name h
  refine List.foldlRecOn (names path) _ (motive := fun q => ∀ n ∈ q, IsName n) (by simp)
    fun q hq m hm n hn => ?_
  obtain ⟨hpiece, hkept⟩ := List.mem_filter.1 hm
  obtain ⟨hempty, hhere⟩ := of_decide_eq_true hkept
  split at hn
  · exact hq n (List.dropLast_subset q hn)
  · rename_i hback
    rcases List.mem_append.1 hn with hn | hn
    · exact hq n hn
    · rw [List.mem_singleton.1 hn]
      exact ⟨hempty, hhere, hback, pieces_slashless List.not_mem_nil hpiece⟩

theorem mem_putNode {n : Node} {ns : List (Place × Node)} {m : Place × Node}
    (h : m ∈ putNode p n ns) : m = (p, n) ∨ m ∈ ns := by
  induction ns with
  | nil => exact Or.inl (List.mem_singleton.1 h)
  | cons k ns ih =>
    rw [putNode] at h
    split at h
    · exact (List.mem_cons.1 h).imp_right (.tail k)
    · rcases List.mem_cons.1 h with rfl | h
      · exact Or.inr List.mem_cons_self
      · exact (ih h).imp_right (.tail k)

theorem Proper.makeAncestors (h : t.Proper) (hp : ∀ name ∈ p, IsName name) :
    (t.makeAncestors p).Proper := by
  refine List.foldlRecOn (ancestors p) _
    (motive := fun ns => FileTree.Proper ⟨ns⟩) h fun ns hns a ha => ?_
  obtain ⟨k, -, rfl⟩ := List.mem_map.1 ha
  split
  · exact hns
  · intro m hm name hname
    rcases mem_putNode hm with rfl | hm
    · exact hp name (List.take_subset k p hname)
    · exact hns m hm name hname

/-- A tree that is made of files at paths is proper. -/
theorem proper_ofList (files : List (String × Node)) : (ofList files).Proper := by
  refine List.foldlRecOn files _ (motive := Proper) (by decide) fun t ht f _ m hm name hname => ?_
  rcases mem_putNode hm with rfl | hm
  · exact isName_of_mem_placeOf hname
  · exact ht.makeAncestors (fun _ => isName_of_mem_placeOf) m hm name hname

/-- What joining a directory and a name comes to: one slash between the two, unless the directory
is the empty path. -/
theorem join_cases (dir : String) (hname : IsName name) : dir = "" ∧ join dir name = name ∨
    dir ≠ "" ∧ ∃ d, (dir = d ∨ dir = d ++ "/") ∧ join dir name = d ++ "/" ++ name := by
  have hrelative : name.toList.head? ≠ some '/' := fun hhead =>
    hname.2.2.2 (List.mem_of_head? hhead)
  unfold join
  split
  · rename_i h
    exact Or.inl ⟨h.resolve_left hrelative, rfl⟩
  rename_i h
  rw [not_or] at h
  refine Or.inr ⟨h.2, ?_⟩
  split
  · rename_i hlast
    obtain ⟨cs, hcs⟩ := List.getLast?_eq_some_iff.1 hlast
    obtain rfl : dir = String.ofList cs ++ "/" := by
      rw [← String.toList_inj, hcs]
      simp
    exact ⟨_, Or.inr rfl, rfl⟩
  · exact ⟨dir, Or.inl rfl, rfl⟩

/-- The last name of a path into a directory. -/
theorem fileName?_join (hname : IsName name) :
    PluginFile.fileName? (Text.utf8 (join dir name)) = some (Text.utf8 name) := by
  rcases join_cases dir hname with ⟨-, heq⟩ | ⟨-, d, -, heq⟩
  · rw [heq]
    exact hname.utf8.fileName?
  · rw [heq, Text.utf8_append, Text.utf8_append, List.append_assoc]
    exact PluginFile.fileName?_behind_slash hname.utf8 _

theorem pieces_append_slash (piece cs ds : List Char) :
    pieces piece (cs ++ '/' :: ds) = pieces piece cs ++ pieces [] ds := by
  induction cs generalizing piece with
  | nil => simp [pieces]
  | cons c cs ih =>
    simp only [List.cons_append, pieces, ih]
    split <;> rfl

theorem pieces_of_slashless {piece cs : List Char} (h : '/' ∉ cs) :
    pieces piece cs = [String.ofList (piece ++ cs)] := by
  induction cs generalizing piece with
  | nil => simp [pieces]
  | cons c cs ih =>
    rw [List.mem_cons, not_or] at h
    rw [pieces, if_neg (Ne.symm h.1), ih h.2, List.append_assoc]
    rfl

theorem IsName.pieces (hname : IsName name) : pieces [] name.toList = [name] := by
  rw [pieces_of_slashless hname.2.2.2, List.nil_append, String.ofList_toList]

theorem walk_append (t : FileTree) (p : Place) (xs ys : List String) :
    t.walk p (xs ++ ys) = (t.walk p xs).bind fun q => t.walk q ys := by
  induction xs generalizing p with
  | nil => rfl
  | cons x xs ih =>
    simp only [List.cons_append, walk, ih]
    split
    · rfl
    split
    · rfl
    split
    · split <;> rfl
    · rfl

theorem walk_name (hdir : t.isDirectoryAt p = true) (hname : IsName name) :
    t.walk p [name] = some (p ++ [name]) := by
  simp [walk, hdir, hname.1, hname.2.1, hname.2.2.1]

theorem walk_here {q : Place} (h : t.walk p [""] = some q) : q = p := by
  rw [walk] at h
  split at h
  · cases h
  · rw [if_pos (Or.inl rfl), walk, Option.some.injEq] at h
    exact h.symm

/-- A name behind the path of a directory leads into the directory. -/
theorem place?_join (hp : t.place? dir = some p) (hdir : t.isDirectoryAt p = true)
    (hname : IsName name) : t.place? (join dir name) = some (p ++ [name]) := by
  rcases join_cases dir hname with ⟨rfl, heq⟩ | ⟨-, d, hd, heq⟩
  · obtain rfl : p = [] := walk_here hp
    rw [heq, place?, hname.pieces]
    exact walk_name hdir hname
  · have hpieces : FileTree.pieces [] (d ++ "/" ++ name).toList =
        FileTree.pieces [] d.toList ++ [name] := by
      have hsplit : (d ++ "/" ++ name).toList = d.toList ++ '/' :: name.toList := by simp
      rw [hsplit, pieces_append_slash, hname.pieces]
    have hd' : t.walk [] (FileTree.pieces [] d.toList) = some p := by
      rcases hd with rfl | rfl
      · exact hp
      · have hsplit : (d ++ "/").toList = d.toList ++ '/' :: [] := by simp
        rw [place?, hsplit, pieces_append_slash, walk_append] at hp
        obtain ⟨q, hq, hp⟩ := Option.bind_eq_some_iff.1 hp
        rw [hq, walk_here hp]
    rw [heq, place?, hpieces, walk_append, hd', Option.bind_some]
    exact walk_name hdir hname

/-- It leads to something exactly when the directory has the name. -/
theorem pathExists_join {names : List String} (hnames : t.children dir = some names)
    (hname : IsName name) : t.pathExists (join dir name) = true ↔ name ∈ names := by
  obtain ⟨p, hp, hnames⟩ := Option.bind_eq_some_iff.1 hnames
  obtain ⟨hdir, hnames⟩ := Option.ite_none_right_eq_some.1 hnames
  cases hnames
  rw [pathExists, node?, place?_join hp hdir hname, mem_childrenAt]
  rfl

end PluginHost.FileTree
