import PluginHost.Registry.Admission
import PluginHost.Proofs.Dependency.Members

/-!
# What may be admitted

`Admissible` says in one place what the checks before an admission come to. The members of a
batch are checked before the first of them is admitted; `Grown` ties the records that the host
has by then to those of the check. What the checks of a whole batch come to splits in two:
`Joint`, which does not depend on the order, and `DependenciesFirst`, which is all that does.

* `admissible_eq_ok_iff`: the checks pass exactly for the admissible.
* `Grown.admissible_iff`: a check next to earlier members holds once these are registered.
* `allAdmissible_iff_joint`: what the checks of a batch come to.
* `batchOrder_perm`: a batch is put in an order with dependencies first, without loss.
* `batchOrder_of_dependenciesFirst`: if there is such an order, one is found.
-/
namespace PluginHost

/-- A candidate can be admitted next to the records and the members of its batch that come
before it. -/
structure Admissible (records : NameMap Record) (batch : List Descriptor) (d : Descriptor) :
    Prop where
  named : Text.isBlank d.name = false
  fresh : records.contains d.name = false
  present : ∀ n ∈ d.dependencies, records.contains n = true ∨ ∃ e ∈ batch, e.name = n
  compatible : ∀ r ∈ records.values, d.clashes r.descriptor = false
  compatibleBatch : ∀ e ∈ batch, d.clashes e = false

namespace Descriptor

theorem clashes_comm (d e : Descriptor) : d.clashes e = e.clashes d :=
  Bool.or_comm _ _

theorem clashes_eq_false_iff {d e : Descriptor} :
    d.clashes e = false ↔ e.name ∉ d.conflicts ∧ d.name ∉ e.conflicts := by
  simp [clashes, conflictsWith]

end Descriptor

/-- The checks pass exactly for the candidates that can be admitted. -/
theorem admissible_eq_ok_iff {records : NameMap Record} {batch : List Descriptor}
    {d : Descriptor} : admissible records batch d = .ok () ↔ Admissible records batch d := by
  have hpresent : ∀ n, (records.contains n || batch.any (·.name == n)) = true ↔
      records.contains n = true ∨ ∃ e ∈ batch, e.name = n := by
    intro n
    rw [Bool.or_eq_true, List.any_eq_true]
    simp
  unfold admissible
  constructor
  · intro h
    split at h
    · cases h
    rename_i hblank
    split at h
    · cases h
    rename_i htaken
    simp only at h
    split at h
    · cases h
    rename_i hmissing
    split at h
    · cases h
    rename_i hclash
    rw [List.find?_eq_none] at hmissing hclash
    refine ⟨by simpa using hblank, by simpa using htaken, fun n hn => ?_, fun r hr => ?_,
      fun e he => ?_⟩
    · have := hmissing n hn
      rw [Bool.not_eq_true, Bool.not_eq_false'] at this
      exact (hpresent n).1 this
    · simpa using hclash r.descriptor (List.mem_append_left _ (List.mem_map_of_mem hr))
    · simpa using hclash e (List.mem_append_right _ he)
  · intro h
    have hmissing : d.dependencies.find?
        (fun n => !(records.contains n || batch.any (·.name == n))) = none := by
      rw [List.find?_eq_none]
      intro n hn
      rw [(hpresent n).2 (h.present n hn)]
      simp
    have hclash : (records.values.map (·.descriptor) ++ batch).find? d.clashes = none := by
      rw [List.find?_eq_none]
      intro e he
      rcases List.mem_append.1 he with he | he
      · obtain ⟨r, hr, rfl⟩ := List.mem_map.1 he
        simp [h.compatible r hr]
      · simp [h.compatibleBatch e he]
    simp only [h.named, h.fresh, hmissing, hclash, Bool.false_eq_true, if_false]

theorem allAdmissible_cons_eq_ok_iff {records : NameMap Record} {earlier : List Descriptor}
    {d : Descriptor} {ds : List Descriptor} :
    allAdmissible records earlier (d :: ds) = .ok () ↔
      Admissible records earlier d ∧ allAdmissible records (earlier ++ [d]) ds = .ok () := by
  rw [allAdmissible, ← admissible_eq_ok_iff]
  split
  · rename_i e he
    simp [he]
  · rename_i he
    simp [he]

/-! ## Records that have grown by a batch -/

/-- The records are those of a base and one for each of the descriptors. -/
structure Grown (base : NameMap Record) (ds : List Descriptor) (records : NameMap Record) :
    Prop where
  contains : ∀ n, records.contains n = true ↔ base.contains n = true ∨ ∃ d ∈ ds, d.name = n
  descriptors : ∀ e, (∃ r ∈ records.values, r.descriptor = e) ↔
    (∃ r ∈ base.values, r.descriptor = e) ∨ e ∈ ds

theorem grown_nil (records : NameMap Record) : Grown records [] records :=
  ⟨by simp, by simp⟩

theorem get?_eq_none_of_fresh {records : NameMap Record} {n : String}
    (h : records.contains n = false) : records.get? n = none := by
  simpa [NameMap.contains] using h

theorem Grown.insert {base records : NameMap Record} {ds : List Descriptor}
    (h : Grown base ds records) {d : Descriptor} {r : Record} (hr : r.descriptor = d)
    (hfresh : records.contains d.name = false) :
    Grown base (ds ++ [d]) (records.insert d.name r) := by
  refine ⟨fun n => ?_, fun e => ?_⟩
  · rw [NameMap.contains_insert, Bool.or_eq_true, h.contains, decide_eq_true_iff]
    simp only [List.mem_append, List.mem_singleton]
    constructor
    · rintro (rfl | hn | ⟨e, he, rfl⟩)
      · exact Or.inr ⟨d, Or.inr rfl, rfl⟩
      · exact Or.inl hn
      · exact Or.inr ⟨e, Or.inl he, rfl⟩
    · rintro (hn | ⟨e, he | rfl, rfl⟩)
      · exact Or.inr (Or.inl hn)
      · exact Or.inr (Or.inr ⟨e, he, rfl⟩)
      · exact Or.inl rfl
  · have hmem : ∀ s, s ∈ (records.insert d.name r).values ↔ s = r ∨ s ∈ records.values := by
      intro s
      rw [(NameMap.values_insert_perm r (get?_eq_none_of_fresh hfresh)).mem_iff, List.mem_cons]
    rw [List.mem_append, List.mem_singleton, ← or_assoc, ← h.descriptors e]
    constructor
    · rintro ⟨s, hs, rfl⟩
      rcases (hmem s).1 hs with rfl | hs
      · exact Or.inr hr
      · exact Or.inl ⟨s, hs, rfl⟩
    · rintro (⟨s, hs, rfl⟩ | rfl)
      · exact ⟨s, (hmem s).2 (Or.inr hs), rfl⟩
      · exact ⟨r, (hmem r).2 (Or.inl rfl), hr⟩

/-- Next to the grown records a candidate is admissible exactly when it is next to the base and
the batch, and its name is not in the batch. -/
theorem Grown.admissible_iff {base records : NameMap Record} {ds : List Descriptor}
    (h : Grown base ds records) {d : Descriptor} :
    Admissible records [] d ↔ Admissible base ds d ∧ d.name ∉ ds.map (·.name) := by
  have hcontains : ∀ n, records.contains n = false ↔
      base.contains n = false ∧ n ∉ ds.map (·.name) := by
    intro n
    rw [← Bool.not_eq_true, h.contains, not_or, Bool.not_eq_true, List.mem_map]
  have hclash : (∀ r ∈ records.values, d.clashes r.descriptor = false) ↔
      (∀ r ∈ base.values, d.clashes r.descriptor = false) ∧ ∀ e ∈ ds, d.clashes e = false := by
    constructor
    · intro hall
      refine ⟨fun r hr => ?_, fun e he => ?_⟩
      · obtain ⟨s, hs, heq⟩ := (h.descriptors r.descriptor).2 (Or.inl ⟨r, hr, rfl⟩)
        exact heq ▸ hall s hs
      · obtain ⟨s, hs, heq⟩ := (h.descriptors e).2 (Or.inr he)
        exact heq ▸ hall s hs
    · rintro ⟨hbase, hds⟩ r hr
      rcases (h.descriptors r.descriptor).1 ⟨r, hr, rfl⟩ with ⟨s, hs, heq⟩ | he
      · exact heq ▸ hbase s hs
      · exact hds _ he
  constructor
  · intro ha
    obtain ⟨hfresh, hname⟩ := (hcontains d.name).1 ha.fresh
    obtain ⟨hbase, hds⟩ := hclash.1 ha.compatible
    refine ⟨⟨ha.named, hfresh, fun n hn => ?_, hbase, hds⟩, hname⟩
    simpa [h.contains] using ha.present n hn
  · rintro ⟨ha, hname⟩
    refine ⟨ha.named, (hcontains d.name).2 ⟨ha.fresh, hname⟩, fun n hn => Or.inl ?_,
      hclash.2 ⟨ha.compatible, ha.compatibleBatch⟩, by simp⟩
    exact (h.contains n).2 (ha.present n hn)

/-! ## The order of a batch -/

/-- Every member of a batch comes after the members that it depends on. -/
def DependenciesFirst (ds : List Descriptor) : Prop :=
  ∀ before d after, ds = before ++ d :: after →
    ∀ n ∈ d.dependencies, n ∈ ds.map (·.name) → n ∈ before.map (·.name)

/-- The members of a batch fit next to the records and to each other, in whatever order. -/
structure Joint (records : NameMap Record) (ds : List Descriptor) : Prop where
  distinct : (ds.map (·.name)).Nodup
  named : ∀ d ∈ ds, Text.isBlank d.name = false
  fresh : ∀ d ∈ ds, records.contains d.name = false
  present : ∀ d ∈ ds, ∀ n ∈ d.dependencies, records.contains n = true ∨ n ∈ ds.map (·.name)
  compatible : ∀ d ∈ ds, ∀ r ∈ records.values, d.clashes r.descriptor = false
  pairwise : ds.Pairwise fun d e => d.clashes e = false

theorem Joint.perm {records : NameMap Record} {ds es : List Descriptor} (h : Joint records ds)
    (hperm : ds.Perm es) : Joint records es where
  distinct := (hperm.map _).nodup_iff.1 h.distinct
  named d hd := h.named d (hperm.symm.subset hd)
  fresh d hd := h.fresh d (hperm.symm.subset hd)
  present d hd n hn := (h.present d (hperm.symm.subset hd) n hn).imp_right
    fun hmem => (hperm.map _).subset hmem
  compatible d hd := h.compatible d (hperm.symm.subset hd)
  pairwise := (hperm.pairwise_iff fun hclash => Descriptor.clashes_comm _ _ ▸ hclash).1 h.pairwise

section
variable {records : NameMap Record} {ds : List Descriptor}

/-- Each member is checked next to the ones before it. -/
theorem allAdmissible_eq_ok_iff {earlier : List Descriptor} :
    allAdmissible records earlier ds = .ok () ↔
      ∀ before d after, ds = before ++ d :: after → Admissible records (earlier ++ before) d := by
  induction ds generalizing earlier with
  | nil =>
    refine ⟨fun _ before d after heq => ?_, fun _ => rfl⟩
    simp at heq
  | cons e ds ih =>
    rw [allAdmissible_cons_eq_ok_iff, ih]
    constructor
    · rintro ⟨hfirst, hrest⟩ before d after heq
      cases before with
      | nil =>
        cases heq
        simpa using hfirst
      | cons b before =>
        cases heq
        simpa using hrest before d after rfl
    · intro h
      refine ⟨by simpa using h [] e ds rfl, fun before d after heq => ?_⟩
      simpa using h (e :: before) d after (by rw [heq, List.cons_append])

theorem pairwise_of_allAdmissible {earlier : List Descriptor}
    (h : allAdmissible records earlier ds = .ok ())
    (hearlier : earlier.Pairwise fun d e => d.clashes e = false) :
    (earlier ++ ds).Pairwise fun d e => d.clashes e = false := by
  induction ds generalizing earlier with
  | nil => simpa using hearlier
  | cons d ds ih =>
    obtain ⟨hfirst, hrest⟩ := allAdmissible_cons_eq_ok_iff.1 h
    have hgrown : (earlier ++ [d]).Pairwise fun d e => d.clashes e = false := by
      refine List.pairwise_append.2 ⟨hearlier, List.pairwise_singleton _ _, fun e he f hf => ?_⟩
      rw [List.mem_singleton.1 hf, Descriptor.clashes_comm]
      exact hfirst.compatibleBatch e he
    simpa using ih hrest hgrown

/-- The checks pass in an order exactly when the members fit, and the order has dependencies
first. -/
theorem allAdmissible_iff_joint :
    allAdmissible records [] ds = .ok () ∧ (ds.map (·.name)).Nodup ↔
      Joint records ds ∧ DependenciesFirst ds := by
  constructor
  · rintro ⟨hall, hdistinct⟩
    have hsplit := allAdmissible_eq_ok_iff.1 hall
    simp only [List.nil_append] at hsplit
    have hmem : ∀ d ∈ ds, ∃ before after, ds = before ++ d :: after ∧
        Admissible records before d := by
      intro d hd
      obtain ⟨before, after, heq⟩ := List.append_of_mem hd
      exact ⟨before, after, heq, hsplit before d after heq⟩
    have hfresh : ∀ d ∈ ds, records.contains d.name = false := by
      intro d hd
      obtain ⟨before, after, -, ha⟩ := hmem d hd
      exact ha.fresh
    refine ⟨⟨hdistinct, fun d hd => ?_, hfresh, fun d hd n hn => ?_, fun d hd => ?_, ?_⟩, ?_⟩
    · obtain ⟨before, after, -, ha⟩ := hmem d hd
      exact ha.named
    · obtain ⟨before, after, heq, ha⟩ := hmem d hd
      refine (ha.present n hn).imp_right ?_
      rintro ⟨e, he, rfl⟩
      exact List.mem_map_of_mem (heq ▸ List.mem_append_left _ he)
    · obtain ⟨before, after, -, ha⟩ := hmem d hd
      exact ha.compatible
    · simpa using pairwise_of_allAdmissible hall List.Pairwise.nil
    · -- a dependency in the batch is not a record, so it was found among the earlier members
      intro before d after heq n hn hin
      obtain ⟨e, he, rfl⟩ := List.mem_map.1 hin
      rcases (hsplit before d after heq).present e.name hn with hrecord | ⟨f, hf, hname⟩
      · rw [hfresh e he] at hrecord
        cases hrecord
      · exact hname ▸ List.mem_map_of_mem hf
  · rintro ⟨hjoint, hfirst⟩
    refine ⟨allAdmissible_eq_ok_iff.2 fun before d after heq => ?_, hjoint.distinct⟩
    have hd : d ∈ ds := heq ▸ List.mem_append_right _ List.mem_cons_self
    refine ⟨hjoint.named d hd, hjoint.fresh d hd, fun n hn => ?_, hjoint.compatible d hd,
      fun e he => ?_⟩
    · refine (hjoint.present d hd n hn).imp_right fun hin => ?_
      exact List.mem_map.1 (hfirst before d after heq n hn hin)
    · have hpairwise := hjoint.pairwise
      rw [heq, List.pairwise_append] at hpairwise
      rw [Descriptor.clashes_comm]
      exact hpairwise.2.2 e he d List.mem_cons_self

end

section
variable {batch : List Candidate}

/-- What the order of a batch is: a permutation of it, in an order of its graph. -/
theorem batchOrder_perm {batch ordered : List Candidate}
    (hnames : (batch.map (·.2.name)).Nodup) (h : batchOrder batch = .ok ordered) :
    ordered.Perm batch ∧ DependenciesFirst (ordered.map (·.2)) := by
  unfold batchOrder at h
  split at h
  · cases h
  rename_i order horder
  cases h
  exact (Dependency.perm_of_order hnames horder).imp_right Dependency.leading_map_iff.2

/-- A batch that can be listed with dependencies first is put in order. -/
theorem batchOrder_of_dependenciesFirst (hnames : (batch.map (·.2.name)).Nodup)
    {l : List Candidate} (hl : l.Perm batch) (h : DependenciesFirst (l.map (·.2))) :
    ∃ ordered, batchOrder batch = .ok ordered := by
  obtain ⟨order, horder⟩ :=
    Dependency.order_of_leading hnames hl (Dependency.leading_map_iff.1 h)
  have hgraph : (batchGraph batch).order = .ok order := horder
  rw [batchOrder, hgraph]
  exact ⟨_, rfl⟩

end

end PluginHost
