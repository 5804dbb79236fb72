import Mathlib.Data.List.Induction
import Mathlib.Data.List.Perm.Subperm
import PluginHost.Dependency.Order
import PluginHost.Proofs.Dependency.Graph

/-!
# The dependency order is one, and is found whenever there is one

The ordering takes nodes from a queue. `Progress.Inv` says how far it has come: every node waits
for its dependencies that were not taken, and the nodes that wait for none are just those that
were taken or are in the queue. When the queue is empty, a node that was not taken therefore
waits for another one that was not taken.

* `mem_ordered_iff`, `respects_ordered`: the nodes that can be put in order, and their order.
* `order_eq_ok`: what is returned is a permutation of the nodes in which each comes after its
  dependencies.
* `order_of_respects`: if the nodes can be listed in such an order at all, one is returned.
-/
namespace PluginHost.Dependency

/-- Every node of a list comes after those of its dependencies that are nodes of the graph. -/
def Graph.Respects (g : Graph) (order : List String) : Prop :=
  ∀ before n after, order = before ++ n :: after → ∀ d ∈ g.known n, d ∈ before

namespace Graph

variable {g : Graph}

theorem respects_nil : g.Respects [] := by
  intro before n after h
  simp at h

theorem Respects.concat {order : List String} (h : g.Respects order) {n : String}
    (hn : ∀ d ∈ g.known n, d ∈ order) : g.Respects (order ++ [n]) := by
  intro before m after heq
  rcases List.eq_nil_or_concat after with rfl | ⟨after, last, rfl⟩
  · obtain ⟨rfl, hm⟩ := List.append_inj' heq rfl
    obtain rfl : n = m := by simpa using hm
    exact hn
  · have heq' : order ++ [n] = (before ++ m :: after) ++ [last] := by simpa using heq
    exact h before m after (List.append_inj' heq' rfl).1

theorem Respects.left {before after : List String} (h : g.Respects (before ++ after)) :
    g.Respects before := by
  intro first n rest heq
  exact h first n (rest ++ after) (by simp [heq])

theorem Respects.last {order : List String} {n : String} (h : g.Respects (order ++ [n])) :
    ∀ d ∈ g.known n, d ∈ order :=
  h order n [] rfl

end Graph

namespace Progress

/-! ## Releasing -/

theorem taken_release (p : Progress) (n : String) : (p.release n).taken = p.taken := by
  unfold release
  split <;> rfl

theorem lookup_release (p : Progress) (n m : String) :
    (p.release n).waiting.lookup m =
      if m = n then (p.waiting.lookup n).map (· - 1) else p.waiting.lookup m := by
  unfold release
  split
  · rename_i hnone
    split
    · rename_i heq
      simp [heq, hnone]
    · rfl
  · rename_i count hcount
    have hget := NameMap.get?_modify ⟨p.waiting⟩ n m fun _ => count - 1
    have hmap : (p.waiting.map fun w => if w.1 = n then (n, count - 1) else w) =
        ((⟨p.waiting⟩ : NameMap Nat).modify n fun _ => count - 1).entries := by
      refine List.map_congr_left fun w _ => ?_
      by_cases hw : w.1 = n <;> simp [hw]
    simp only [NameMap.get?] at hget
    rw [hmap, hget]
    split
    · rename_i heq
      simp [heq, hcount]
    · rfl

theorem queue_release (p : Progress) (n : String) :
    (p.release n).queue =
      p.queue ++ if (p.waiting.lookup n).map (· - 1) = some 0 then [n] else [] := by
  unfold release
  split
  · rename_i hnone
    simp [hnone]
  · rename_i count hcount
    by_cases h0 : count - 1 = 0 <;> simp [hcount, h0]

theorem taken_foldl_release (p : Progress) (ns : List String) :
    (ns.foldl release p).taken = p.taken := by
  induction ns generalizing p with
  | nil => rfl
  | cons n ns ih => rw [List.foldl_cons, ih, taken_release]

theorem lookup_foldl_release (p : Progress) {ns : List String} (hns : ns.Nodup) (m : String) :
    (ns.foldl release p).waiting.lookup m =
      if m ∈ ns then (p.waiting.lookup m).map (· - 1) else p.waiting.lookup m := by
  induction ns generalizing p with
  | nil => simp
  | cons n ns ih =>
    obtain ⟨hn, hns⟩ := List.nodup_cons.1 hns
    rw [List.foldl_cons, ih _ hns, lookup_release]
    by_cases hm : m = n
    · subst hm
      simp [hn]
    · simp [hm]

theorem queue_foldl_release (p : Progress) {ns : List String} (hns : ns.Nodup) :
    (ns.foldl release p).queue =
      p.queue ++ ns.filter fun n => (p.waiting.lookup n).map (· - 1) == some 0 := by
  induction ns generalizing p with
  | nil => simp
  | cons n ns ih =>
    obtain ⟨hn, hns⟩ := List.nodup_cons.1 hns
    have hsame : (ns.filter fun m => ((p.release n).waiting.lookup m).map (· - 1) == some 0) =
        ns.filter fun m => (p.waiting.lookup m).map (· - 1) == some 0 := by
      refine List.filter_congr fun m hm => ?_
      have hne : m ≠ n := fun heq => hn (heq ▸ hm)
      rw [lookup_release, if_neg hne]
    rw [List.foldl_cons, ih _ hns, queue_release, hsame, List.append_assoc, List.filter_cons]
    congr 1
    by_cases h0 : (p.waiting.lookup n).map (· - 1) = some 0 <;> simp [h0]

/-! ## Waiting -/

/-- How many dependencies of a node are not among the nodes that were taken. -/
def remaining (g : Graph) (taken : List String) (n : String) : Nat :=
  ((g.known n).filter fun d => d ∉ taken).length

theorem remaining_eq_zero_iff {g : Graph} {taken : List String} {n : String} :
    remaining g taken n = 0 ↔ ∀ d ∈ g.known n, d ∈ taken := by
  rw [remaining, List.length_eq_zero_iff, List.filter_eq_nil_iff]
  simp

theorem remaining_nil (g : Graph) (n : String) : remaining g [] n = (g.known n).length := by
  rw [remaining, List.filter_eq_self.2 fun d _ => by simp]

/-- Taking a node leaves one dependency less to those that depend on it. -/
theorem remaining_cons {g : Graph} (hg : g.WellFormed) {taken : List String} {x : String}
    (hx : x ∉ taken) (n : String) :
    remaining g (x :: taken) n =
      if x ∈ g.known n then remaining g taken n - 1 else remaining g taken n := by
  have hfilter : ((g.known n).filter fun d => d ∉ x :: taken) =
      ((g.known n).filter fun d => d ∉ taken).filter fun d => d != x := by
    rw [List.filter_filter]
    refine List.filter_congr fun d _ => ?_
    by_cases hd : d = x <;> simp [hd]
  have hnodup : ((g.known n).filter fun d => d ∉ taken).Nodup := (hg.known n).filter _
  rw [remaining, hfilter, ← hnodup.erase_eq_filter]
  split
  · rename_i hmem
    exact List.length_erase_of_mem (List.mem_filter.2 ⟨hmem, by simpa using hx⟩)
  · rename_i hmem
    rw [List.erase_of_not_mem fun h => hmem (List.mem_filter.1 h).1, remaining]

/-! ## The invariant -/

/-- How far an ordering has come. -/
structure Inv (g : Graph) (p : Progress) : Prop where
  nodup : (p.taken ++ p.queue).Nodup
  waits : ∀ n ∈ g.nodes, p.waiting.lookup n = some (remaining g p.taken n)
  settled : ∀ n, n ∈ p.taken ∨ n ∈ p.queue ↔ n ∈ g.nodes ∧ ∀ d ∈ g.known n, d ∈ p.taken
  ordered : g.Respects p.taken.reverse

theorem inv_start {g : Graph} (hg : g.WellFormed) : Inv g (start g) where
  nodup := by simpa [start] using hg.nodes.filter _
  waits n hn := by
    have hlookup : ∀ ns : List String, n ∈ ns →
        (ns.map fun n => (n, (g.known n).length)).lookup n = some (g.known n).length := by
      intro ns hns
      induction ns with
      | nil => simp at hns
      | cons m ns ih =>
        rw [List.map_cons, NameMap.lookup_cons]
        by_cases hm : n = m
        · simp [hm]
        · rw [if_neg hm]
          exact ih (List.mem_of_ne_of_mem hm hns)
    simpa [start, remaining_nil] using hlookup g.nodes hn
  settled n := by simp [start, List.eq_nil_iff_forall_not_mem]
  ordered := Graph.respects_nil

theorem Inv.queue_head {g : Graph} {p : Progress} (hi : Inv g p) {x : String}
    {queue : List String} (hq : p.queue = x :: queue) :
    x ∉ p.taken ∧ x ∈ g.nodes ∧ ∀ d ∈ g.known x, d ∈ p.taken := by
  refine ⟨fun hx => ?_, (hi.settled x).1 (Or.inr (by simp [hq]))⟩
  have := hi.nodup
  rw [List.nodup_append] at this
  exact this.2.2 x hx x (by simp [hq]) rfl

/-- One step of the ordering keeps what is known of it. -/
theorem Inv.take {g : Graph} (hg : g.WellFormed) {p : Progress} (hi : Inv g p) :
    Inv g (p.take g) := by
  unfold Progress.take
  split
  · exact hi
  rename_i x queue hq
  obtain ⟨hx, hxnode, hxknown⟩ := hi.queue_head hq
  have hdeps := hg.dependents x
  -- the dependents of `x` that wait for nothing else are those that join the queue
  have hjoin : ∀ n, n ∈ (g.dependents x).filter
      (fun n => (p.waiting.lookup n).map (· - 1) == some 0) ↔
      n ∈ g.nodes ∧ x ∈ g.known n ∧ ∀ d ∈ g.known n, d ∈ x :: p.taken := by
    intro n
    rw [List.mem_filter, Graph.mem_dependents, and_assoc]
    refine and_congr_right fun hn => and_congr_right fun hxn => ?_
    rw [hi.waits n hn, ← remaining_eq_zero_iff, remaining_cons hg hx, if_pos hxn]
    simp
  constructor
  · rw [taken_foldl_release, queue_foldl_release _ hdeps]
    have hold : (x :: p.taken ++ queue).Nodup :=
      List.perm_middle.nodup_iff.1 (hq ▸ hi.nodup)
    rw [← List.append_assoc]
    refine hold.append (hdeps.filter _) fun n hn hjoined => ?_
    obtain ⟨-, hxn, -⟩ := (hjoin n).1 hjoined
    rw [List.cons_append, List.mem_cons, List.mem_append] at hn
    have hsettled : n ∈ p.taken ∨ n ∈ p.queue := by
      rw [hq, List.mem_cons]
      rcases hn with hn | hn | hn
      · exact Or.inr (Or.inl hn)
      · exact Or.inl hn
      · exact Or.inr (Or.inr hn)
    exact hx (((hi.settled n).1 hsettled).2 x hxn)
  · intro n hn
    have hmem : n ∈ g.dependents x ↔ x ∈ g.known n := by simp [Graph.mem_dependents, hn]
    rw [taken_foldl_release, lookup_foldl_release _ hdeps, remaining_cons hg hx, hi.waits n hn]
    by_cases hxn : x ∈ g.known n <;> simp [hmem, hxn]
  · intro n
    rw [taken_foldl_release, queue_foldl_release _ hdeps, List.mem_append, hjoin]
    constructor
    · rintro (hn | hn | hn)
      · rcases List.mem_cons.1 hn with rfl | hn
        · exact ⟨hxnode, fun d hd => List.mem_cons_of_mem _ (hxknown d hd)⟩
        · have := (hi.settled n).1 (Or.inl hn)
          exact ⟨this.1, fun d hd => List.mem_cons_of_mem _ (this.2 d hd)⟩
      · have := (hi.settled n).1 (Or.inr (by simp [hq, hn]))
        exact ⟨this.1, fun d hd => List.mem_cons_of_mem _ (this.2 d hd)⟩
      · exact ⟨hn.1, hn.2.2⟩
    · rintro ⟨hn, hknown⟩
      by_cases hxn : x ∈ g.known n
      · exact Or.inr (Or.inr ⟨hn, hxn, hknown⟩)
      · have hbefore : ∀ d ∈ g.known n, d ∈ p.taken := by
          intro d hd
          rcases List.mem_cons.1 (hknown d hd) with rfl | hd'
          · exact absurd hd hxn
          · exact hd'
        rcases (hi.settled n).2 ⟨hn, hbefore⟩ with hn' | hn'
        · exact Or.inl (List.mem_cons_of_mem _ hn')
        · rw [hq, List.mem_cons] at hn'
          rcases hn' with rfl | hn'
          · exact Or.inl List.mem_cons_self
          · exact Or.inr (Or.inl hn')
  · rw [taken_foldl_release, List.reverse_cons]
    exact hi.ordered.concat fun d hd => List.mem_reverse.2 (hxknown d hd)

theorem Inv.run {g : Graph} (hg : g.WellFormed) (steps : Nat) {p : Progress} (hi : Inv g p) :
    Inv g (run g steps p) := by
  induction steps generalizing p with
  | zero => exact hi
  | succ steps ih =>
    unfold Progress.run
    split
    · exact hi
    · exact ih (hi.take hg)

theorem Inv.length_le {g : Graph} {p : Progress} (hi : Inv g p) :
    p.taken.length + p.queue.length ≤ g.size := by
  rw [← List.length_append]
  refine (List.subperm_of_subset hi.nodup fun n hn => ?_).length_le
  exact ((hi.settled n).1 (List.mem_append.1 hn)).1

/-- As many steps as there are nodes empty the queue. -/
theorem queue_run {g : Graph} (hg : g.WellFormed) {steps : Nat} {p : Progress} (hi : Inv g p)
    (h : g.size ≤ p.taken.length + steps) : (run g steps p).queue = [] := by
  induction steps generalizing p with
  | zero =>
    have := hi.length_le
    exact List.length_eq_zero_iff.1 (by rw [run]; omega)
  | succ steps ih =>
    unfold Progress.run
    split
    · rename_i hempty
      exact List.isEmpty_iff.1 hempty
    · rename_i hne
      refine ih (hi.take hg) ?_
      unfold Progress.take
      split
      · rename_i hq
        simp [hq] at hne
      · rw [taken_foldl_release, List.length_cons]
        omega

end Progress

namespace Graph

variable {g : Graph}

theorem inv_finished (hg : g.WellFormed) :
    Progress.Inv g (Progress.run g g.size (Progress.start g)) ∧
      (Progress.run g g.size (Progress.start g)).queue = [] :=
  ⟨(Progress.inv_start hg).run hg _, Progress.queue_run hg (Progress.inv_start hg) (by simp)⟩

theorem nodup_ordered (hg : g.WellFormed) : g.ordered.Nodup :=
  List.nodup_reverse.2 (inv_finished hg).1.nodup.of_append_left

theorem respects_ordered (hg : g.WellFormed) : g.Respects g.ordered :=
  (inv_finished hg).1.ordered

/-- Just those nodes are left out of the order that depend on one that is left out. -/
theorem mem_ordered_iff (hg : g.WellFormed) {n : String} :
    n ∈ g.ordered ↔ n ∈ g.nodes ∧ ∀ d ∈ g.known n, d ∈ g.ordered := by
  obtain ⟨hi, hq⟩ := inv_finished hg
  have := hi.settled n
  simpa [hq, ordered] using this

/-- What is returned lists every node once, after its dependencies. -/
theorem order_eq_ok (hg : g.WellFormed) {order : List String} (h : g.order = .ok order) :
    order.Perm g.nodes ∧ g.Respects order := by
  unfold Graph.order at h
  simp only at h
  split at h
  · cases h
  rename_i hlen
  cases h
  refine ⟨?_, respects_ordered hg⟩
  have hsub : g.ordered ⊆ g.nodes := fun n hn => ((mem_ordered_iff hg).1 hn).1
  exact (List.subperm_of_subset (nodup_ordered hg) hsub).perm_of_length_le (Nat.not_lt.1 hlen)

/-- The nodes of a list in which each comes after its dependencies can be put in order. -/
theorem mem_ordered_of_respects (hg : g.WellFormed) {order : List String}
    (h : g.Respects order) {n : String} (hn : n ∈ order) (hnode : n ∈ g.nodes) :
    n ∈ g.ordered := by
  induction order using List.reverseRecOn generalizing n with
  | nil => cases hn
  | append_singleton order last ih =>
    rcases List.mem_append.1 hn with hn | hn
    · exact ih h.left hn hnode
    · obtain rfl := List.mem_singleton.1 hn
      refine (mem_ordered_iff hg).2 ⟨hnode, fun d hd => ?_⟩
      exact ih h.left (h.last d hd) (mem_known.1 hd).2

/-- If every node can be listed after its dependencies, such a list is returned. -/
theorem order_of_respects (hg : g.WellFormed) {order : List String} (h : g.Respects order)
    (hall : ∀ n ∈ g.nodes, n ∈ order) : ∃ found, g.order = .ok found := by
  refine ⟨g.ordered, ?_⟩
  have hsub : g.nodes ⊆ g.ordered := fun n hn => mem_ordered_of_respects hg h (hall n hn) hn
  have hlen : g.size ≤ g.ordered.length := (List.subperm_of_subset hg.nodes hsub).length_le
  unfold Graph.order
  simp only
  rw [if_neg (Nat.not_lt.2 hlen)]

end Graph

end PluginHost.Dependency
