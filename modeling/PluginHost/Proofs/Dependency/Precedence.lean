import Mathlib.Data.List.Forall2
import PluginHost.Proofs.Dependency.Cycle

/-!
# Which of two nodes comes first

A queue gives out what came in first. The nodes that depend on no other node are in it from the
start, and every other node joins it when the last of its dependencies is taken, together with the
other nodes that this one was the last dependency of, in the order of the nodes. So an order is what
its own nodes free, one after the other: `ordered_eq` says it as one equation, and the order of any
two nodes is read off it.

The queue asks of a node which nodes it depends on, and nothing else, so an order does not change
with what else is declared, or how.

* `Latest`: the dependency of a node that comes last.
* `ordered_eq`: an order as the nodes without dependencies and what they free.
* `pairwise_freedBy`: the nodes that are freed are in the order of their latest dependencies.
* `ordered_congr`: what an order depends on.
* `order_by_latest`: both of it, for the graph of any row of additions that has no cycle.
-/
namespace PluginHost.Dependency

namespace Graph

/-- The nodes that depend on no other node and not on themselves, in the order of the nodes. -/
def roots (g : Graph) : List String :=
  g.nodes.filter fun n => (g.known n).isEmpty

/-- The nodes that depend on one that is taken and otherwise only on ones that were taken before,
in the order of the nodes. -/
def freed (g : Graph) (taken : List String) (x : String) : List String :=
  g.nodes.filter fun n => x ∈ g.known n ∧ ∀ d ∈ g.known n, d ∈ x :: taken

/-- What nodes free that are taken one after the other, the last one first. -/
def freedBy (g : Graph) : List String → List String
  | [] => []
  | x :: taken => g.freedBy taken ++ g.freed taken x

/-- No dependency of a node that is a node itself comes after this one in an order. -/
def Latest (g : Graph) (order : List String) (n d : String) : Prop :=
  d ∈ g.known n ∧ ∀ e ∈ g.known n, order.idxOf e ≤ order.idxOf d

/-- The latest dependency of a node comes before that of another one, or both have the same and
the node was added before the other one. -/
def Precedes (g : Graph) (order : List String) (u v : String) : Prop :=
  ∃ a b, g.Latest order u a ∧ g.Latest order v b ∧
    (order.idxOf a < order.idxOf b ∨ a = b ∧ g.nodes.idxOf u < g.nodes.idxOf v)

variable {g : Graph}

/-! ## The queue -/

theorem freedBy_take (hg : g.WellFormed) {p : Progress} (hi : Progress.Inv g p)
    (hfreed : p.taken.reverse ++ p.queue = g.roots ++ g.freedBy p.taken) :
    (p.take g).taken.reverse ++ (p.take g).queue = g.roots ++ g.freedBy (p.take g).taken := by
  unfold Progress.take
  split
  · exact hfreed
  rename_i x queue hq
  obtain ⟨hx, -, -⟩ := hi.queue_head hq
  -- those of the dependents join that wait for nothing but `x`
  have hjoin : ((g.dependents x).filter fun n => (p.waiting.lookup n).map (· - 1) == some 0) =
      g.freed p.taken x := by
    rw [dependents, freed, List.filter_filter]
    refine List.filter_congr fun n hn => ?_
    rw [hi.waits n hn, Bool.eq_iff_iff, decide_eq_true_iff, ← Progress.remaining_eq_zero_iff,
      Progress.remaining_cons hg hx]
    by_cases hxn : x ∈ g.known n <;> simp [hxn]
  rw [Progress.taken_foldl_release, Progress.queue_foldl_release _ (hg.dependents x), hjoin]
  rw [hq] at hfreed
  simp only [List.reverse_cons, List.append_assoc, List.singleton_append, freedBy]
  rw [← List.append_assoc g.roots, ← hfreed, List.append_assoc, List.cons_append]

theorem freedBy_run (hg : g.WellFormed) (steps : Nat) {p : Progress} (hi : Progress.Inv g p)
    (hfreed : p.taken.reverse ++ p.queue = g.roots ++ g.freedBy p.taken) :
    (p.run g steps).taken.reverse ++ (p.run g steps).queue =
      g.roots ++ g.freedBy (p.run g steps).taken := by
  induction steps generalizing p with
  | zero => exact hfreed
  | succ steps ih =>
    unfold Progress.run
    split
    · exact hfreed
    · exact ih (hi.take hg) (freedBy_take hg hi hfreed)

/-- The nodes that can be put in order are those without dependencies and those that are freed
when the nodes are taken in just that order. -/
theorem ordered_eq (hg : g.WellFormed) : g.ordered = g.roots ++ g.freedBy g.ordered.reverse := by
  have hrun := freedBy_run hg g.size (Progress.inv_start hg)
    (by simp [Progress.start, roots, freedBy])
  rw [(inv_finished hg).2, List.append_nil] at hrun
  rw [ordered, List.reverse_reverse]
  exact hrun

/-! ## Latest dependencies -/

section
variable {order taken rest : List String}

theorem Latest.unique {n a b : String} (ha : g.Latest order n a) (hb : g.Latest order n b)
    (hmem : a ∈ order) : a = b :=
  (List.idxOf_inj hmem).1 (Nat.le_antisymm (hb.2 a ha.1) (ha.2 b hb.1))

/-- What was taken before a node comes before it. -/
theorem idxOf_lt_of_mem_taken {x a : String} (horder : taken.reverse ++ x :: rest = order)
    (hnodup : order.Nodup) (ha : a ∈ taken) : order.idxOf a < order.idxOf x := by
  subst horder
  have hx : x ∉ taken.reverse := fun hmem =>
    (List.nodup_cons.1 (List.nodup_middle.1 hnodup)).1 (List.mem_append_left _ hmem)
  have ha : a ∈ taken.reverse := List.mem_reverse.2 ha
  rw [List.idxOf_append_of_mem ha, List.idxOf_append_of_notMem hx]
  exact (List.idxOf_lt_length_of_mem ha).trans_le (Nat.le_add_right _ _)

/-- A node that was freed has the one that was taken then as its latest dependency. -/
theorem latest_of_mem_freed {x n : String} (horder : taken.reverse ++ x :: rest = order)
    (hnodup : order.Nodup) (hn : n ∈ g.freed taken x) : g.Latest order n x := by
  obtain ⟨-, hfreed⟩ := List.mem_filter.1 hn
  obtain ⟨hxn, hall⟩ := of_decide_eq_true hfreed
  refine ⟨hxn, fun e he => ?_⟩
  rcases List.mem_cons.1 (hall e he) with rfl | he
  · exact le_rfl
  · exact (idxOf_lt_of_mem_taken horder hnodup he).le

theorem exists_latest_of_mem_freedBy {n : String} (horder : taken.reverse ++ rest = order)
    (hnodup : order.Nodup) (hn : n ∈ g.freedBy taken) : ∃ a ∈ taken, g.Latest order n a := by
  induction taken generalizing rest with
  | nil => cases hn
  | cons x taken ih =>
    rw [List.reverse_cons, List.append_assoc, List.singleton_append] at horder
    rcases List.mem_append.1 hn with hn | hn
    · obtain ⟨a, ha, hlatest⟩ := ih horder hn
      exact ⟨a, List.mem_cons_of_mem _ ha, hlatest⟩
    · exact ⟨x, List.mem_cons_self, latest_of_mem_freed horder hnodup hn⟩

theorem pairwise_idxOf {names : List String} (hnodup : names.Nodup) :
    names.Pairwise fun u v => names.idxOf u < names.idxOf v := by
  rw [List.pairwise_iff_getElem]
  intro i j hi hj hij
  rwa [hnodup.idxOf_getElem, hnodup.idxOf_getElem]

/-- The nodes that are freed are in the order of their latest dependencies, and those of one
dependency in the order of the nodes. -/
theorem pairwise_freedBy (hg : g.WellFormed) (horder : taken.reverse ++ rest = order)
    (hnodup : order.Nodup) : (g.freedBy taken).Pairwise (g.Precedes order) := by
  induction taken generalizing rest with
  | nil => exact .nil
  | cons x taken ih =>
    rw [List.reverse_cons, List.append_assoc, List.singleton_append] at horder
    have hx : ∀ n ∈ g.freed taken x, g.Latest order n x := fun n =>
      latest_of_mem_freed horder hnodup
    refine List.pairwise_append.2 ⟨ih horder, ?_, fun u hu v hv => ?_⟩
    · refine ((pairwise_idxOf hg.nodes).filter _).imp_of_mem fun hu hv hlt => ?_
      exact ⟨x, x, hx _ hu, hx _ hv, Or.inr ⟨rfl, hlt⟩⟩
    · obtain ⟨a, ha, hlatest⟩ := exists_latest_of_mem_freedBy horder hnodup hu
      exact ⟨a, x, hlatest, hx v hv, Or.inl (idxOf_lt_of_mem_taken horder hnodup ha)⟩

/-- Two nodes do not both come before the other. -/
theorem Precedes.asymm {u v : String} (hu : ∀ d ∈ g.known u, d ∈ order)
    (hv : ∀ d ∈ g.known v, d ∈ order) (h : g.Precedes order u v) : ¬ g.Precedes order v u := by
  rintro ⟨b', a', hvb', hua', hprec'⟩
  obtain ⟨a, b, hua, hvb, hprec⟩ := h
  rw [← hua.unique hua' (hu a hua.1), ← hvb.unique hvb' (hv b hvb.1)] at hprec'
  rcases hprec with hprec | ⟨rfl, hprec⟩
  · rcases hprec' with hprec' | ⟨rfl, -⟩
    · omega
    · exact absurd hprec (Nat.lt_irrefl _)
  · rcases hprec' with hprec' | ⟨-, hprec'⟩ <;> omega

end

theorem known_ne_nil_of_mem_freedBy {taken : List String} {n : String}
    (hn : n ∈ g.freedBy taken) : g.known n ≠ [] := by
  induction taken with
  | nil => cases hn
  | cons x taken ih =>
    rcases List.mem_append.1 hn with hn | hn
    · exact ih hn
    · obtain ⟨-, hfreed⟩ := List.mem_filter.1 hn
      exact List.ne_nil_of_mem (of_decide_eq_true hfreed).1

/-! ## The places of an order -/

section
variable {n u v : String}

theorem not_mem_roots (hn : g.known n ≠ []) : n ∉ g.roots := fun hmem =>
  hn (List.isEmpty_iff.1 (List.mem_filter.1 hmem).2)

theorem mem_freedBy_ordered (hg : g.WellFormed) (hmem : n ∈ g.ordered) (hn : g.known n ≠ []) :
    n ∈ g.freedBy g.ordered.reverse :=
  (List.mem_append.1 (ordered_eq hg ▸ hmem)).resolve_left (not_mem_roots hn)

theorem reverse_taken_ordered (g : Graph) : g.ordered.reverse.reverse ++ [] = g.ordered := by
  rw [List.append_nil, List.reverse_reverse]

theorem exists_latest (hg : g.WellFormed) (hmem : n ∈ g.ordered) (hn : g.known n ≠ []) :
    ∃ a ∈ g.ordered, g.Latest g.ordered n a := by
  obtain ⟨a, ha, hlatest⟩ := exists_latest_of_mem_freedBy (reverse_taken_ordered g)
    (nodup_ordered hg) (mem_freedBy_ordered hg hmem hn)
  exact ⟨a, List.mem_reverse.1 ha, hlatest⟩

theorem precedes_of_idxOf_lt (hg : g.WellFormed) (hu : u ∈ g.ordered) (hv : v ∈ g.ordered)
    (hu' : g.known u ≠ []) (hv' : g.known v ≠ [])
    (hlt : g.ordered.idxOf u < g.ordered.idxOf v) : g.Precedes g.ordered u v := by
  -- behind the nodes without dependencies, places are those among the freed nodes
  have hplace : ∀ n, g.known n ≠ [] →
      g.ordered.idxOf n = g.roots.length + (g.freedBy g.ordered.reverse).idxOf n := by
    intro n hn
    conv_lhs => rw [ordered_eq hg]
    exact List.idxOf_append_of_notMem (not_mem_roots hn)
  rw [hplace u hu', hplace v hv'] at hlt
  have huL := List.idxOf_lt_length_of_mem (mem_freedBy_ordered hg hu hu')
  have hvL := List.idxOf_lt_length_of_mem (mem_freedBy_ordered hg hv hv')
  have hpairwise : (g.freedBy g.ordered.reverse).Pairwise (g.Precedes g.ordered) :=
    pairwise_freedBy hg (reverse_taken_ordered g) (nodup_ordered hg)
  have := List.pairwise_iff_getElem.1 hpairwise _ _ huL hvL (by omega)
  rwa [List.getElem_idxOf huL, List.getElem_idxOf hvL] at this

/-- Of two nodes that depend on others, the one comes first whose latest dependency does, or that
was added first if they share it. -/
theorem idxOf_ordered_lt_iff (hg : g.WellFormed) (hall : ∀ n ∈ g.nodes, n ∈ g.ordered)
    (hu : g.known u ≠ []) (hv : g.known v ≠ []) :
    ∃ a b, g.Latest g.ordered u a ∧ g.Latest g.ordered v b ∧
      (g.ordered.idxOf u < g.ordered.idxOf v ↔
        g.ordered.idxOf a < g.ordered.idxOf b ∨ a = b ∧ g.nodes.idxOf u < g.nodes.idxOf v) := by
  have hmem : ∀ n, g.known n ≠ [] → n ∈ g.ordered := fun n hn =>
    let ⟨_, hd⟩ := List.exists_mem_of_ne_nil _ hn
    hall n (mem_nodes_of_mem_known hd)
  have hdeps : ∀ n, ∀ d ∈ g.known n, d ∈ g.ordered := fun n d hd => hall d (mem_known.1 hd).2
  obtain ⟨a, ha, hua⟩ := exists_latest hg (hmem u hu) hu
  obtain ⟨b, hb, hvb⟩ := exists_latest hg (hmem v hv) hv
  refine ⟨a, b, hua, hvb, fun hlt => ?_, fun hprec => ?_⟩
  · obtain ⟨a', b', hua', hvb', hprec⟩ :=
      precedes_of_idxOf_lt hg (hmem u hu) (hmem v hv) hu hv hlt
    rwa [hua.unique hua' ha, hvb.unique hvb' hb]
  · rcases Nat.lt_trichotomy (g.ordered.idxOf u) (g.ordered.idxOf v) with hlt | heq | hgt
    · exact hlt
    · obtain rfl := (List.idxOf_inj (hmem u hu)).1 heq
      obtain rfl := hua.unique hvb ha
      omega
    · exact absurd (precedes_of_idxOf_lt hg (hmem v hv) (hmem u hu) hv hu hgt)
        (Precedes.asymm (hdeps u) (hdeps v) ⟨a, b, hua, hvb, hprec⟩)

end

/-! ## What an order depends on -/

/-- Two graphs with the same nodes, each of which depends on the same nodes, put them in the same
order. -/
theorem ordered_congr {g' : Graph} (hnodes : g'.nodes = g.nodes)
    (hknown : ∀ n, (g'.known n).Perm (g.known n)) : g'.ordered = g.ordered := by
  have hdependents : g'.dependents = g.dependents := by
    funext x
    rw [dependents, dependents, hnodes]
    refine List.filter_congr fun n _ => ?_
    rw [Bool.eq_iff_iff, List.contains_iff_mem, List.contains_iff_mem, (hknown n).mem_iff]
  have htake : ∀ p : Progress, p.take g' = p.take g := by
    intro p
    rw [Progress.take, Progress.take, hdependents]
  have hrun : ∀ steps (p : Progress), p.run g' steps = p.run g steps := by
    intro steps
    induction steps with
    | zero => exact fun _ => rfl
    | succ steps ih =>
      intro p
      rw [Progress.run, Progress.run, htake, ih]
  have hstart : Progress.start g' = Progress.start g := by
    have hwaiting : (fun n => (n, (g'.known n).length)) = fun n => (n, (g.known n).length) := by
      funext n
      rw [(hknown n).length_eq]
    have hqueue : (fun n => (g'.known n).isEmpty) = fun n => (g.known n).isEmpty := by
      funext n
      exact (hknown n).isEmpty_eq
    rw [Progress.start, Progress.start, hnodes, hwaiting, hqueue]
  rw [ordered, ordered, size, size, hnodes, hstart, hrun]

/-- The same names are added in the same order, each time with the same dependencies as far as
these are added themselves: a row of dependencies may be given in another order and with
repetitions, and names that are never added may be in it or not. -/
def SameNeeds (ns ns' : List (String × List String)) : Prop :=
  List.Forall₂ (fun a b => a.1 = b.1 ∧ ∀ d ∈ ns.map (·.1), d ∈ a.2 ↔ d ∈ b.2) ns ns'

theorem mem_nodes_foldl_add {n : String} {ns : List (String × List String)} :
    n ∈ (ns.foldl (fun g n => g.add n.1 n.2) g).nodes ↔ n ∈ g.nodes ∨ n ∈ ns.map (·.1) := by
  induction ns generalizing g with
  | nil => simp
  | cons m ns ih =>
    rw [List.foldl_cons, ih, nodes_add, List.map_cons, List.mem_cons]
    split
    · rename_i hm
      exact ⟨fun h => h.imp_right Or.inr, fun h => h.elim Or.inl fun h =>
        h.elim (fun heq => Or.inl (heq ▸ hm)) Or.inr⟩
    · rw [List.mem_append, List.mem_singleton, or_assoc]

/-- Graphs that agree on what their nodes need go on to do so. -/
theorem foldl_add_congr {names : List String} {g' : Graph} {ns ns' : List (String × List String)}
    (hns : List.Forall₂ (fun a b => a.1 = b.1 ∧ ∀ d ∈ names, d ∈ a.2 ↔ d ∈ b.2) ns ns')
    (hnodes : g.nodes = g'.nodes)
    (hneeds : ∀ n, ∀ d ∈ names, d ∈ g.dependencies n ↔ d ∈ g'.dependencies n) :
    (ns.foldl (fun g n => g.add n.1 n.2) g).nodes =
        (ns'.foldl (fun g n => g.add n.1 n.2) g').nodes ∧
      ∀ n, ∀ d ∈ names, d ∈ (ns.foldl (fun g n => g.add n.1 n.2) g).dependencies n ↔
        d ∈ (ns'.foldl (fun g n => g.add n.1 n.2) g').dependencies n := by
  induction hns generalizing g g' with
  | nil => exact ⟨hnodes, hneeds⟩
  | @cons a b ns ns' hab _ ih =>
    obtain ⟨hname, hdeps⟩ := hab
    refine ih (by rw [nodes_add, nodes_add, hname, hnodes]) fun n d hd => ?_
    rw [dependencies_add, dependencies_add, hname]
    split
    · rw [List.mem_eraseDups, List.mem_eraseDups]
      exact hdeps d hd
    · exact hneeds n d hd

theorem SameNeeds.ordered_eq {ns ns' : List (String × List String)} (h : SameNeeds ns ns') :
    (ofList ns').nodes = (ofList ns).nodes ∧ (ofList ns').ordered = (ofList ns).ordered := by
  obtain ⟨hnodes, hneeds⟩ :=
    foldl_add_congr h (rfl : empty.nodes = empty.nodes) fun _ _ _ => Iff.rfl
  refine ⟨hnodes.symm, ordered_congr hnodes.symm fun n => ?_⟩
  refine (List.perm_ext_iff_of_nodup ((wellFormed_ofList ns').known n)
    ((wellFormed_ofList ns).known n)).2 fun d => ?_
  rw [mem_known, mem_known, ← show (ofList ns).nodes = (ofList ns').nodes from hnodes]
  refine and_congr_left fun hd => (hneeds n d ?_).symm
  exact (mem_nodes_foldl_add.1 hd).resolve_left List.not_mem_nil

theorem order_eq_ok_ordered {order : List String} (h : g.order = .ok order) :
    order = g.ordered ∧ g.size ≤ g.ordered.length := by
  unfold Graph.order at h
  simp only at h
  split at h
  · cases h
  · rename_i hlen
    cases h
    exact ⟨rfl, Nat.not_lt.1 hlen⟩

/-- The nodes of a graph without a cycle that was built by any row of additions are put in this
order: first those that depend on no node, as they were added; then the others, and of two of them
the one comes first whose latest dependency does, or that was added first if that is the same one.
So the order stays the same as long as the nodes need the same nodes. -/
theorem order_by_latest {ns : List (String × List String)} (h : (ofList ns).Acyclic) :
    ∃ order, (ofList ns).order = .ok order ∧ order.Perm (ofList ns).nodes ∧
      (∃ rest, order = ((ofList ns).nodes.filter fun n => ((ofList ns).known n).isEmpty) ++ rest ∧
        ∀ n ∈ rest, (ofList ns).known n ≠ []) ∧
      (∀ u v, (ofList ns).known u ≠ [] → (ofList ns).known v ≠ [] →
        ∃ a b, (ofList ns).Latest order u a ∧ (ofList ns).Latest order v b ∧
          (order.idxOf u < order.idxOf v ↔ order.idxOf a < order.idxOf b ∨
            a = b ∧ (ofList ns).nodes.idxOf u < (ofList ns).nodes.idxOf v)) ∧
      ∀ ns', SameNeeds ns ns' → (ofList ns').order = .ok order := by
  have hg : (ofList ns).WellFormed := wellFormed_ofList ns
  obtain ⟨order, horder⟩ := (order_eq_ok_iff hg).2 h
  obtain ⟨hperm, -⟩ := order_eq_ok hg horder
  obtain ⟨rfl, hlen⟩ := order_eq_ok_ordered horder
  refine ⟨_, horder, hperm, ⟨_, ordered_eq hg, fun n hn => known_ne_nil_of_mem_freedBy hn⟩,
    fun u v => idxOf_ordered_lt_iff hg fun n hn => hperm.symm.subset hn, fun ns' hns' => ?_⟩
  obtain ⟨hnodes, hordered⟩ := hns'.ordered_eq
  rw [Graph.order, hordered]
  exact if_neg (Nat.not_lt.2 (by rw [size, hnodes]; exact hlen))

/-- The log is put behind the login, since both wait for the database last and the login was added
first, and the site comes behind both; the order stays when the site's dependencies are turned
round and repeated, and when the log needs something that was never added. -/
theorem login_before_log :
    (ofList [("site", ["login", "database"]), ("login", ["database"]), ("log", ["database"]),
        ("database", []), ("clock", [])]).Acyclic ∧
      (ofList [("site", ["database", "login", "database"]), ("login", ["database"]),
        ("log", ["disk", "database"]), ("database", []), ("clock", ["sun"])]).order =
        .ok ["database", "clock", "login", "log", "site"] := by
  have horder : (ofList [("site", ["login", "database"]), ("login", ["database"]),
      ("log", ["database"]), ("database", []), ("clock", [])]).order =
        .ok ["database", "clock", "login", "log", "site"] := by decide
  have hacyclic := acyclic_of_order (wellFormed_ofList _) horder
  obtain ⟨order, hok, -, -, -, hsame⟩ := order_by_latest hacyclic
  obtain rfl := Except.ok.inj (hok.symm.trans horder)
  refine ⟨hacyclic, hsame _ ?_⟩
  unfold SameNeeds
  simp

end Graph

end PluginHost.Dependency
