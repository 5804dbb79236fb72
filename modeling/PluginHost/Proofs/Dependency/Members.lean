import Mathlib.Logic.Relation
import PluginHost.Proofs.Dependency.Cycle

/-!
# Members in dependency order

Things that have a name and dependencies, no two of them the same name, are put in order by way
of the graph of their names: the names are ordered, and then each is looked up again. What comes
out are the same things, each behind those of the others that it depends on.

* `graphOf`: the graph of members.
* `respects_graphOf_iff`: an order of the graph is one in which members come behind what they
  depend on.
* `perm_of_order`: what an order makes of the members.
* `order_of_acyclic`: when there is an order.
-/
namespace PluginHost.Dependency

variable {α : Type}

/-- The dependency graph of things that have names. -/
def graphOf (name : α → String) (deps : α → List String) (members : List α) : Graph :=
  Graph.ofList (members.map fun a => (name a, deps a))

/-- Each of the members stands behind those of the others that it depends on. -/
def Leading (name : α → String) (deps : α → List String) (members : List α) : Prop :=
  ∀ before a after, members = before ++ a :: after →
    ∀ d ∈ deps a, d ∈ members.map name → d ∈ before.map name

section
variable {name : α → String} {deps : α → List String} {members : List α}

theorem wellFormed_graphOf (name : α → String) (deps : α → List String) (members : List α) :
    (graphOf name deps members).WellFormed :=
  Graph.wellFormed_ofList _

theorem map_fst_members (deps : α → List String) :
    (members.map fun a => (name a, deps a)).map (·.1) = members.map name :=
  List.map_map

theorem nodes_graphOf (hnames : (members.map name).Nodup) :
    (graphOf name deps members).nodes = members.map name := by
  rw [← map_fst_members deps] at hnames
  rw [graphOf, Graph.nodes_ofList hnames, map_fst_members]

theorem mem_known_graphOf (hnames : (members.map name).Nodup) {a : α} (ha : a ∈ members)
    {n : String} : n ∈ (graphOf name deps members).known (name a) ↔
      n ∈ deps a ∧ n ∈ members.map name := by
  rw [Graph.mem_known, nodes_graphOf hnames, graphOf]
  rw [← map_fst_members deps] at hnames
  exact and_congr_left fun _ => Graph.mem_dependencies_ofList hnames (n := (name a, deps a))
    (List.mem_map_of_mem ha)

/-- To list members in an order of their graph is to list each behind what it depends on. -/
theorem respects_graphOf_iff (hnames : (members.map name).Nodup) {l : List α}
    (hl : l.Perm members) :
    (graphOf name deps members).Respects (l.map name) ↔ Leading name deps l := by
  have hmem : ∀ n, n ∈ l.map name ↔ n ∈ members.map name := fun n => (hl.map _).mem_iff
  constructor
  · intro h before a after heq n hn hin
    have ha : a ∈ members := hl.subset (by simp [heq])
    exact h (before.map name) (name a) (after.map name) (by simp [heq]) n
      ((mem_known_graphOf hnames ha).2 ⟨hn, (hmem n).1 hin⟩)
  · intro h before m after heq n hn
    obtain ⟨front, rest, rfl, rfl, hrest⟩ := List.map_eq_append_iff.1 heq
    obtain ⟨a, rest, rfl, rfl, -⟩ := List.map_eq_cons_iff.1 hrest
    have ha : a ∈ members := hl.subset (by simp)
    obtain ⟨hdep, hin⟩ := (mem_known_graphOf hnames ha).1 hn
    exact h front a rest rfl n hdep ((hmem n).2 hin)

/-- The order is one of names and dependencies alone. -/
theorem leading_map_iff {β : Type} {f : β → α} {l : List β} : Leading name deps (l.map f) ↔
    Leading (fun b => name (f b)) (fun b => deps (f b)) l := by
  constructor
  · intro h before b after heq d hd hin
    have := h (before.map f) (f b) (after.map f) (by simp [heq]) d hd (by simpa using hin)
    simpa using this
  · intro h before a after heq d hd hin
    obtain ⟨front, rest, rfl, rfl, hrest⟩ := List.map_eq_append_iff.1 heq
    obtain ⟨b, rest, rfl, rfl, -⟩ := List.map_eq_cons_iff.1 hrest
    have := h front b rest rfl d hd (by simpa using hin)
    simpa using this

theorem find?_member (hnames : (members.map name).Nodup) {a : α} (ha : a ∈ members) :
    (members.find? fun b => name b == name a) = some a := by
  induction members with
  | nil => cases ha
  | cons b members ih =>
    rw [List.map_cons, List.nodup_cons] at hnames
    rcases List.mem_cons.1 ha with rfl | ha
    · simp
    · have hne : name b ≠ name a :=
        fun heq => hnames.1 (heq ▸ List.mem_map_of_mem ha)
      rw [List.find?_cons_of_neg (by simpa using hne), ih hnames.2 ha]

/-- Looking names up gives members of these names. -/
theorem map_filterMap_find? (hnames : (members.map name).Nodup) {order : List String}
    (h : ∀ n ∈ order, n ∈ members.map name) :
    (order.filterMap fun n => members.find? (name · == n)).map name = order := by
  induction order with
  | nil => rfl
  | cons n order ih =>
    obtain ⟨a, ha, rfl⟩ := List.mem_map.1 (h n List.mem_cons_self)
    have hrest := ih fun m hm => h m (List.mem_cons_of_mem _ hm)
    simp only [List.filterMap_cons, find?_member hnames ha, List.map_cons, hrest]

/-- Looking up the names of an order gives all members, each behind what it depends on. -/
theorem perm_of_order (hnames : (members.map name).Nodup) {order : List String}
    (horder : (graphOf name deps members).order = .ok order) :
    (order.filterMap fun n => members.find? (name · == n)).Perm members ∧
      Leading name deps (order.filterMap fun n => members.find? (name · == n)) := by
  obtain ⟨hperm, hrespects⟩ := Graph.order_eq_ok (wellFormed_graphOf name deps members) horder
  rw [nodes_graphOf hnames] at hperm
  have hmap := map_filterMap_find? hnames fun n hn => hperm.subset hn
  have hordered : (order.filterMap fun n => members.find? (name · == n)).Perm members := by
    refine (List.subperm_of_subset (.of_map (f := name) ?_) ?_).perm_of_length_le ?_
    · rw [hmap]
      exact hperm.nodup_iff.2 hnames
    · intro a ha
      obtain ⟨n, -, hfind⟩ := List.mem_filterMap.1 ha
      exact List.mem_of_find?_eq_some hfind
    · have hlength := congrArg List.length hmap
      rw [List.length_map, hperm.length_eq, List.length_map] at hlength
      exact Nat.le_of_eq hlength.symm
  exact ⟨hordered, (respects_graphOf_iff hnames hordered).1 (hmap.symm ▸ hrespects)⟩

/-- Members that can be listed behind what they depend on can be put in order. -/
theorem order_of_leading (hnames : (members.map name).Nodup) {l : List α} (hl : l.Perm members)
    (h : Leading name deps l) : ∃ order, (graphOf name deps members).order = .ok order := by
  refine Graph.order_of_respects (wellFormed_graphOf name deps members)
    ((respects_graphOf_iff hnames hl).2 h) fun n hn => ?_
  rw [nodes_graphOf hnames] at hn
  exact (hl.map _).symm.subset hn

/-- Members none of which depends on itself, be it through others, can be put in order. -/
theorem order_of_acyclic (hnames : (members.map name).Nodup)
    (h : ∀ n, ¬ Relation.TransGen (fun n d => ∃ a ∈ members, name a = n ∧ d ∈ deps a) n n) :
    ∃ order, (graphOf name deps members).order = .ok order := by
  refine (Graph.order_eq_ok_iff (wellFormed_graphOf name deps members)).2 fun n hloop => h n ?_
  refine Relation.TransGen.mono (fun m d hd => ?_) n n hloop
  have hm : m ∈ members.map name := nodes_graphOf hnames ▸ Graph.mem_nodes_of_mem_known hd
  obtain ⟨a, ha, rfl⟩ := List.mem_map.1 hm
  exact ⟨a, ha, rfl, ((mem_known_graphOf hnames ha).1 hd).1⟩

end

end PluginHost.Dependency
