import Mathlib.Data.Fintype.Card
import Mathlib.Data.List.Chain
import Mathlib.Data.Set.Finite.List
import Mathlib.Logic.Relation
import PluginHost.Proofs.Dependency.Order

/-!
# Either an order or a cycle

The nodes of a graph can be put in order exactly when none of them depends on itself, be it
through others. An order puts a node behind everything it depends on, so there is no way back
to it; and without cycles a node can be listed as soon as the finitely many nodes below it are.

When there is no order, the cycle that is reported was found by the search. A search without
result leaves its nodes behind in an order, the last one first, since a node is left only after
all nodes that it depends on; so it can end without result only when there is an order.

* `order_eq_ok_iff`: the nodes can be put in order exactly when the graph has no cycle.
* `searchFrom_clear`: what a search without result has gone through.
* `findCycle_of_order_eq_error`: the cycle that is reported is the one that the search finds.
* `loop_of_findCycle`: each node of a cycle that is found depends on the next, and the last on
  the first.
* `findCycle_eq_none_iff`: the search finds nothing exactly when the graph has no cycle.
* `waiting_of_releases`: a node that is released had something left to wait for.
* `order_of_additions`: all of it, for the graph of any row of additions.
-/
namespace PluginHost.Dependency

/-- No node depends on itself, neither directly nor through other nodes. -/
def Graph.Acyclic (g : Graph) : Prop :=
  ∀ n, ¬ Relation.TransGen (fun n d => d ∈ g.known n) n n

namespace Graph

variable {g : Graph}

theorem mem_nodes_of_mem_known {n d : String} (h : d ∈ g.known n) : n ∈ g.nodes := by
  rw [← contains_iff, contains]
  have hdep : d ∈ g.dependencies n := (mem_known.1 h).1
  unfold dependencies at hdep
  cases hlookup : g.edges.lookup n with
  | none => simp [hlookup] at hdep
  | some ds => rfl

/-! ## Orders and cycles -/

/-- In an order that lists no node twice, a dependency comes at an earlier place. -/
theorem Respects.idxOf_lt {order : List String} (h : g.Respects order) (hnodup : order.Nodup)
    {n d : String} (hn : n ∈ order) (hd : d ∈ g.known n) : order.idxOf d < order.idxOf n := by
  obtain ⟨before, after, rfl⟩ := List.append_of_mem hn
  have hbefore : d ∈ before := h before n after rfl d hd
  have hnot : n ∉ before := fun hmem =>
    (List.nodup_cons.1 (List.nodup_middle.1 hnodup)).1 (List.mem_append_left _ hmem)
  rw [List.idxOf_append_of_mem hbefore, List.idxOf_append_of_notMem hnot]
  have := List.idxOf_lt_length_of_mem hbefore
  omega

theorem acyclic_of_order (hg : g.WellFormed) {order : List String} (h : g.order = .ok order) :
    g.Acyclic := by
  obtain ⟨hperm, hrespects⟩ := order_eq_ok hg h
  have hnodup : order.Nodup := hperm.nodup_iff.2 hg.nodes
  have hearlier : ∀ n d, Relation.TransGen (fun n d => d ∈ g.known n) n d →
      order.idxOf d < order.idxOf n := by
    intro n d hreach
    induction hreach with
    | single hd =>
      exact hrespects.idxOf_lt hnodup (hperm.symm.subset (mem_nodes_of_mem_known hd)) hd
    | tail _ hd ih =>
      have := hrespects.idxOf_lt hnodup (hperm.symm.subset (mem_nodes_of_mem_known hd)) hd
      omega
  intro n hcycle
  exact Nat.lt_irrefl _ (hearlier n n hcycle)

/-- Without cycles there are only finitely many nodes below a node, so going down comes to an
end. -/
theorem Acyclic.wellFounded (h : g.Acyclic) :
    WellFounded fun d n : { n // n ∈ g.nodes } =>
      Relation.TransGen (fun n d => d ∈ g.known n) n.1 d.1 := by
  have : Finite { n // n ∈ g.nodes } := (List.finite_toSet g.nodes).to_subtype
  have : IsTrans { n // n ∈ g.nodes } fun d n =>
      Relation.TransGen (fun n d => d ∈ g.known n) n.1 d.1 := ⟨fun _ _ _ hab hbc => hbc.trans hab⟩
  have : Std.Irrefl fun d n : { n // n ∈ g.nodes } =>
      Relation.TransGen (fun n d => d ∈ g.known n) n.1 d.1 := ⟨fun n => h n.1⟩
  exact Finite.wellFounded_of_trans_of_irrefl _

theorem Acyclic.mem_ordered (hg : g.WellFormed) (h : g.Acyclic) {n : String} (hn : n ∈ g.nodes) :
    n ∈ g.ordered := by
  have hall : ∀ n : { n // n ∈ g.nodes }, n.1 ∈ g.ordered := by
    intro n
    induction n using h.wellFounded.induction with
    | _ n ih =>
      refine (mem_ordered_iff hg).2 ⟨n.2, fun d hd => ?_⟩
      exact ih ⟨d, (mem_known.1 hd).2⟩ (.single hd)
  exact hall ⟨n, hn⟩

/-- The nodes can be put in order exactly when none of them depends on itself. -/
theorem order_eq_ok_iff (hg : g.WellFormed) : (∃ order, g.order = .ok order) ↔ g.Acyclic := by
  constructor
  · rintro ⟨order, horder⟩
    exact acyclic_of_order hg horder
  · intro h
    exact order_of_respects hg (respects_ordered hg) fun n hn => h.mem_ordered hg hn

/-! ## Searches without result -/

/-- A search without result went on from what had been visited before; the nodes that it was
asked for are visited now, and each one after the nodes that it depends on. -/
structure Clears (g : Graph) (visited visited' asked : List String) : Prop where
  order : g.Respects visited'.reverse
  kept : visited ⊆ visited'
  asked : asked ⊆ visited'

/-- Searching through a row of nodes, when the search from each of those that are not on the
path leaves them in order. -/
theorem searchAll_clear {search : List String → String → Search} {path : List String}
    (hsearch : ∀ visited d visited', d ∈ g.nodes → d ∉ path → g.Respects visited.reverse →
      search visited d = .clear visited' → g.Clears visited visited' [d])
    {visited visited' ds : List String} (hds : ds ⊆ g.nodes)
    (horder : g.Respects visited.reverse)
    (h : searchAll search path visited ds = .clear visited') : g.Clears visited visited' ds := by
  induction ds generalizing visited with
  | nil =>
    cases h
    exact ⟨horder, List.Subset.refl _, List.nil_subset _⟩
  | cons d ds ih =>
    obtain ⟨hd, hds⟩ := List.cons_subset.1 hds
    unfold searchAll at h
    split at h
    · cases h
    rename_i hpath
    split at h
    · rename_i hvisited
      have hrest := ih hds horder h
      exact ⟨hrest.order, hrest.kept,
        List.cons_subset.2 ⟨hrest.kept (by simpa using hvisited), hrest.asked⟩⟩
    · split at h
      · cases h
      · rename_i visited₁ hfirst
        have hclears := hsearch _ _ _ hd (by simpa using hpath) horder hfirst
        have hrest := ih hds hclears.order h
        have hfound : d ∈ visited' := hrest.kept (hclears.asked List.mem_cons_self)
        exact ⟨hrest.order, fun _ hn => hrest.kept (hclears.kept hn),
          List.cons_subset.2 ⟨hfound, hrest.asked⟩⟩

/-- A search that may still go as deep as there are nodes off its path. The nodes on the path
are distinct, so it never has to stop before it has seen what it was asked for. -/
theorem searchFrom_clear {fuel : Nat} {path visited visited' : List String} {node : String}
    (hnodup : (node :: path).Nodup) (hpath : node :: path ⊆ g.nodes)
    (hfuel : g.size ≤ path.length + fuel) (horder : g.Respects visited.reverse)
    (h : searchFrom g fuel path visited node = .clear visited') :
    g.Clears visited visited' [node] := by
  induction fuel generalizing path visited visited' node with
  | zero =>
    have hlength : path.length + 1 ≤ g.size := (List.subperm_of_subset hnodup hpath).length_le
    omega
  | succ fuel ih =>
    unfold searchFrom at h
    split at h
    · cases h
    rename_i visited₁ hall
    cases h
    have hclears : g.Clears visited visited₁ (g.known node) := by
      refine searchAll_clear ?_ (fun d hd => (mem_known.1 hd).2) horder hall
      intro visited d visited' hd hnot horder hfrom
      refine ih (List.nodup_cons.2 ⟨hnot, hnodup⟩) (List.cons_subset.2 ⟨hd, hpath⟩) ?_ horder hfrom
      rw [List.length_cons]
      omega
    refine ⟨?_, fun n hn => List.mem_cons_of_mem _ (hclears.kept hn), by simp⟩
    rw [List.reverse_cons]
    exact hclears.order.concat fun d hd => List.mem_reverse.2 (hclears.asked hd)

/-- If no cycle is found, the search went through all nodes, in an order of the graph. -/
theorem order_of_findCycle_eq_none (hg : g.WellFormed) (h : g.findCycle = none) :
    ∃ order, g.order = .ok order := by
  unfold findCycle at h
  split at h
  · cases h
  rename_i visited hall
  have hclears : g.Clears [] visited g.nodes := by
    refine searchAll_clear ?_ (List.Subset.refl _) respects_nil hall
    intro visited d visited' hd _ horder hfrom
    exact searchFrom_clear (List.nodup_singleton d) (by simpa using hd) (by simp) horder hfrom
  exact order_of_respects hg hclears.order fun n hn => List.mem_reverse.2 (hclears.asked hn)

/-- When the nodes cannot be put in order, the search finds the cycle that is reported. -/
theorem findCycle_of_order_eq_error (hg : g.WellFormed) {cycle : List String}
    (h : g.order = .error cycle) : g.findCycle = some cycle := by
  cases hfound : g.findCycle with
  | none =>
    obtain ⟨order, horder⟩ := order_of_findCycle_eq_none hg hfound
    rw [horder] at h
    cases h
  | some found =>
    unfold order at h
    simp only [hfound, Option.getD_some] at h
    split at h
    · cases h
      rfl
    · cases h

/-! ## Cycles that are found -/

/-- Each node depends on the next one, and the last on the first. -/
def Loop (g : Graph) (cycle : List String) : Prop :=
  ∃ n rest, cycle = n :: rest ∧ (n :: (rest ++ [n])).IsChain fun n d => d ∈ g.known n

theorem Loop.transGen {cycle : List String} (h : g.Loop cycle) :
    ∃ n ∈ cycle, Relation.TransGen (fun n d => d ∈ g.known n) n n := by
  obtain ⟨n, rest, rfl, hchain⟩ := h
  refine ⟨n, List.mem_cons_self, ?_⟩
  obtain ⟨m, tail, hsplit⟩ : ∃ m tail, rest ++ [n] = m :: tail :=
    List.exists_cons_of_ne_nil (by simp)
  have hlast : (m :: tail).getLast (List.cons_ne_nil _ _) = n := by simp [← hsplit]
  rw [hsplit, List.isChain_cons_cons] at hchain
  obtain ⟨hfirst, htail⟩ := hchain
  exact .head' hfirst (List.relationReflTransGen_of_exists_isChain_cons tail htail hlast)

/-- A cycle is one in any graph in which its nodes depend on the same. -/
theorem Loop.mono {g' : Graph} {cycle : List String} (h : g.Loop cycle)
    (hknown : ∀ n ∈ cycle, ∀ d, d ∈ g.known n → d ∈ g'.known n) : g'.Loop cycle := by
  obtain ⟨n, rest, rfl, hchain⟩ := h
  refine ⟨n, rest, rfl, hchain.imp_of_mem_imp fun m d hm _ hd => hknown m ?_ d hd⟩
  have hcycle : n :: (rest ++ [n]) ⊆ n :: rest := by simp
  exact hcycle hm

/-- A path, given backwards, along dependencies. -/
def Descends (g : Graph) (path : List String) : Prop :=
  path.IsChain fun d n => d ∈ g.known n

/-- A path whose innermost node depends on one that the path has come through. -/
theorem loop_loopFrom {path : List String} {node d : String} (hpath : g.Descends (node :: path))
    (hd : d ∈ g.known node) (hmem : d ∈ node :: path) : g.Loop (loopFrom (node :: path) d) := by
  obtain ⟨front, back, hsplit, hfront⟩ := List.eq_append_cons_of_mem hmem
  have hkept : ∀ n ∈ front, decide (n ≠ d) = true :=
    fun n hn => decide_eq_true (ne_of_mem_of_not_mem hn hfront)
  have hloop : loopFrom (node :: path) d = d :: front.reverse := by
    rw [loopFrom, hsplit, List.takeWhile_append_of_pos hkept, List.takeWhile_cons_of_neg (by simp),
      List.append_nil, List.reverse_append, List.reverse_singleton, List.singleton_append]
  have hback : g.Descends (front ++ [d]) := by
    rw [hsplit, Descends, List.isChain_split] at hpath
    exact hpath.1
  refine ⟨d, front.reverse, hloop, ?_⟩
  have hreverse : d :: (front.reverse ++ [d]) = (d :: (front ++ [d])).reverse := by simp
  rw [hreverse, List.isChain_reverse]
  -- read backwards, the cycle begins at the innermost node, which depends on `d`
  cases front with
  | nil =>
    obtain rfl : node = d := (List.cons.inj hsplit).1
    exact List.isChain_cons_cons.2 ⟨hd, hback⟩
  | cons first front =>
    obtain rfl : node = first := (List.cons.inj hsplit).1
    exact List.isChain_cons_cons.2 ⟨hd, hback⟩

/-- Searching through a row of nodes finds a cycle where the path comes back to itself, or where
the search from one of them does. -/
theorem searchAll_loop {search : List String → String → Search} {path : List String}
    {visited ds cycle : List String}
    (hsearch : ∀ visited d cycle, d ∈ ds → search visited d = .cycle cycle → g.Loop cycle)
    (hpath : ∀ d ∈ ds, d ∈ path → g.Loop (loopFrom path d))
    (h : searchAll search path visited ds = .cycle cycle) : g.Loop cycle := by
  induction ds generalizing visited with
  | nil => cases h
  | cons d ds ih =>
    have hrest : ∀ {visited}, searchAll search path visited ds = .cycle cycle → g.Loop cycle :=
      ih (fun visited d cycle hd => hsearch visited d cycle (List.mem_cons_of_mem _ hd))
        fun d hd => hpath d (List.mem_cons_of_mem _ hd)
    unfold searchAll at h
    split at h
    · rename_i hmem
      cases h
      exact hpath d List.mem_cons_self (by simpa using hmem)
    split at h
    · exact hrest h
    split at h
    · rename_i hfound
      cases h
      exact hsearch _ d _ List.mem_cons_self hfound
    · exact hrest h

theorem searchFrom_loop {fuel : Nat} {path visited cycle : List String} {node : String}
    (hpath : g.Descends (node :: path))
    (h : searchFrom g fuel path visited node = .cycle cycle) : g.Loop cycle := by
  induction fuel generalizing path visited node cycle with
  | zero => cases h
  | succ fuel ih =>
    unfold searchFrom at h
    split at h
    · rename_i hall
      cases h
      refine searchAll_loop (fun visited d cycle hd hfound => ?_)
        (fun d hd hmem => loop_loopFrom hpath hd hmem) hall
      exact ih (List.isChain_cons_cons.2 ⟨hd, hpath⟩) hfound
    · cases h

/-- Each node of a cycle that is found depends on the next one, and the last on the first. -/
theorem loop_of_findCycle {cycle : List String} (h : g.findCycle = some cycle) :
    g.Loop cycle := by
  unfold findCycle at h
  split at h
  · rename_i hall
    cases h
    exact searchAll_loop (fun _ d _ _ hfound => searchFrom_loop (List.isChain_singleton d) hfound)
      (fun _ _ hmem => absurd hmem List.not_mem_nil) hall
  · cases h

theorem findCycle_eq_none_iff (hg : g.WellFormed) : g.findCycle = none ↔ g.Acyclic := by
  constructor
  · intro h
    exact (order_eq_ok_iff hg).1 (order_of_findCycle_eq_none hg h)
  · intro h
    cases hfound : g.findCycle with
    | none => rfl
    | some cycle =>
      obtain ⟨n, -, hcycle⟩ := (loop_of_findCycle hfound).transGen
      exact absurd hcycle (h n)

end Graph

/-! ## Releases -/

namespace Progress

/-- The ordering of a graph has come so far when it releases a node: it has just taken one that
the node depends on, and released the dependents of that one which come before. -/
inductive Releases (g : Graph) : Progress → String → Prop where
  | intro {steps : Nat} {taking n : String} {queue before after : List String}
      (hqueue : (run g steps (start g)).queue = taking :: queue)
      (hdependents : g.dependents taking = before ++ n :: after) :
      Releases g (before.foldl release { run g steps (start g) with
        queue, taken := taking :: (run g steps (start g)).taken }) n

/-- A node that is released waits for at least one dependency until then. -/
theorem waiting_of_releases {g : Graph} (hg : g.WellFormed) {p : Progress} {n : String}
    (h : Releases g p n) : ∃ count, p.waiting.lookup n = some count ∧ 0 < count := by
  obtain @⟨steps, taking, n, queue, before, after, hqueue, hdependents⟩ := h
  have hi : Inv g (run g steps (start g)) := (inv_start hg).run hg steps
  obtain ⟨htaken, -, -⟩ := hi.queue_head hqueue
  have hmem : n ∈ g.dependents taking := by simp [hdependents]
  obtain ⟨hn, hknown⟩ := Graph.mem_dependents.1 hmem
  have hnodup : (before ++ n :: after).Nodup := hdependents ▸ hg.dependents taking
  have hnot : n ∉ before := fun hmem =>
    (List.nodup_cons.1 (List.nodup_middle.1 hnodup)).1 (List.mem_append_left _ hmem)
  refine ⟨remaining g (run g steps (start g)).taken n, ?_, ?_⟩
  · rw [lookup_foldl_release _ hnodup.of_append_left, if_neg hnot]
    exact hi.waits n hn
  · refine Nat.pos_of_ne_zero fun hzero => htaken ?_
    exact remaining_eq_zero_iff.1 hzero taking hknown

end Progress

namespace Graph

/-- The graph of any row of additions: its nodes can be put in order exactly when it has no
cycle; the order lists every node once, each after the dependencies that are nodes; otherwise
the cycle that the search finds is reported; and on the way no node is released that waits for
nothing. -/
theorem order_of_additions (ns : List (String × List String)) :
    ((∃ order, (ofList ns).order = .ok order) ↔ (ofList ns).Acyclic) ∧
      (∀ order, (ofList ns).order = .ok order → order.Perm (ofList ns).nodes ∧ order.Nodup ∧
        ∀ before n after, order = before ++ n :: after →
          ∀ d ∈ (ofList ns).dependencies n, (ofList ns).contains d = true → d ∈ before) ∧
      (∀ cycle, (ofList ns).order = .error cycle → (ofList ns).findCycle = some cycle) ∧
      ∀ p n, Progress.Releases (ofList ns) p n →
        ∃ count, p.waiting.lookup n = some count ∧ 0 < count := by
  have hg : (ofList ns).WellFormed := wellFormed_ofList ns
  refine ⟨order_eq_ok_iff hg, fun order horder => ?_,
    fun cycle hcycle => findCycle_of_order_eq_error hg hcycle,
    fun p n hrelease => Progress.waiting_of_releases hg hrelease⟩
  obtain ⟨hperm, hrespects⟩ := order_eq_ok hg horder
  refine ⟨hperm, hperm.nodup_iff.2 hg.nodes, fun before n after heq d hd hnode => ?_⟩
  exact hrespects before n after heq d (mem_known.2 ⟨hd, contains_iff.1 hnode⟩)

end Graph

end PluginHost.Dependency
