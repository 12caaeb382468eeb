import Mathlib.Order.Bounds.Basic
import Mathlib.Order.Defs.PartialOrder
import Mathlib.Order.Lattice
import RestQuery.Projection

/-! The order of projections by what they show. One covers another if it shows every column
and every relation of it, each relation at least as far; the whole of a relation covers all
its parts. Projections with their names in order that cover each other are equal. -/
namespace RestQuery

namespace Projection

/-- Induction on the projections below the relations. -/
@[elab_as_elim]
theorem induct {motive : Projection → Prop}
    (node : ∀ columns relations, (∀ name inner, (name, Extent.part inner) ∈ relations →
      motive inner) → motive (node columns relations)) : ∀ projection, motive projection
  | .node columns relations => node columns relations fun name inner member => by
      have smaller := List.sizeOf_lt_of_mem member
      exact induct node inner
termination_by projection => sizeOf projection
decreasing_by
  simp only [Prod.mk.sizeOf_spec, Extent.part.sizeOf_spec, Projection.node.sizeOf_spec] at *
  omega

mutual

/-- The first projection shows all that the second shows. -/
def Covers (wide : Projection) : Projection → Prop
  | node columns relations => columns ⊆ wide.columns ∧ CoversRelations wide relations

def CoversRelations (wide : Projection) : List (Text × Extent) → Prop
  | [] => True
  | (name, extent) :: rest =>
    (∃ present, (name, present) ∈ wide.relations ∧ CoversExtent present extent) ∧
      CoversRelations wide rest

def CoversExtent : Extent → Extent → Prop
  | .whole, _ => True
  | .part _, .whole => False
  | .part wide, .part narrow => Covers wide narrow

end

@[simp] theorem coversExtent_whole (extent : Extent) : CoversExtent .whole extent := by
  cases extent <;> trivial

theorem coversRelations_iff {entries : List (Text × Extent)} : CoversRelations wide entries ↔
    ∀ entry ∈ entries,
      ∃ present, (entry.1, present) ∈ wide.relations ∧ CoversExtent present entry.2 := by
  induction entries with
  | nil => simp [CoversRelations]
  | cons head rest ih => rw [CoversRelations, ih, List.forall_mem_cons]

theorem covers_iff : Covers wide narrow ↔ narrow.columns ⊆ wide.columns ∧
    ∀ entry ∈ narrow.relations,
      ∃ present, (entry.1, present) ∈ wide.relations ∧ CoversExtent present entry.2 := by
  obtain ⟨columns, relations⟩ := narrow
  rw [Covers, coversRelations_iff]
  rfl

theorem covers_refl (projection : Projection) : Covers projection projection := by
  induction projection using induct with
  | node columns relations ih =>
    refine covers_iff.mpr ⟨List.Subset.refl _, fun (name, extent) member => ⟨extent, member, ?_⟩⟩
    cases extent with
    | whole => trivial
    | part inner => exact ih name inner member

theorem coversExtent_refl (extent : Extent) : CoversExtent extent extent := by
  cases extent with
  | whole => trivial
  | part projection => exact covers_refl projection

theorem covers_trans (first : Covers wide middle) (second : Covers middle narrow) :
    Covers wide narrow := by
  induction narrow using induct generalizing wide middle with
  | node columns relations ih =>
    obtain ⟨outer, above⟩ := covers_iff.mp first
    obtain ⟨inner, below⟩ := covers_iff.mp second
    refine covers_iff.mpr ⟨List.Subset.trans inner outer, fun (name, extent) member => ?_⟩
    obtain ⟨between, found, lower⟩ := below (name, extent) member
    obtain ⟨present, kept, upper⟩ := above (name, between) found
    refine ⟨present, kept, ?_⟩
    cases present with
    | whole => exact coversExtent_whole extent
    | part wide =>
      cases between with
      | whole => exact upper.elim
      | part middle =>
        cases extent with
        | whole => exact lower.elim
        | part narrow => exact ih name narrow member upper lower

theorem coversExtent_trans (first : CoversExtent wide middle) (second : CoversExtent middle narrow) :
    CoversExtent wide narrow := by
  cases wide with
  | whole => exact coversExtent_whole narrow
  | part wide =>
    cases middle with
    | whole => exact first.elim
    | part middle =>
      cases narrow with
      | whole => exact second.elim
      | part narrow => exact covers_trans first second

theorem orderedRelations_iff {entries : List (Text × Extent)} : OrderedRelations entries ↔
    ∀ entry ∈ entries, OrderedExtent entry.2 := by
  induction entries with
  | nil => simp [OrderedRelations]
  | cons head rest ih => rw [OrderedRelations, ih, List.forall_mem_cons]

def extent? (projection : Projection) (name : Text) : Option Extent :=
  Entries.find? name projection.relations

namespace Ordered

theorem columns {projection : Projection} (ordered : projection.Ordered) :
    Names.Ascending projection.columns := by
  cases projection
  exact ordered.1

theorem relations {projection : Projection} (ordered : projection.Ordered) :
    Entries.Ascending projection.relations := by
  cases projection
  exact ordered.2.1

theorem below {projection : Projection} (ordered : projection.Ordered)
    (member : (name, extent) ∈ projection.relations) : OrderedExtent extent := by
  cases projection
  exact orderedRelations_iff.mp ordered.2.2 (name, extent) member

/-- A name stands once. -/
theorem extent?_eq_some_iff {projection : Projection} (ordered : projection.Ordered) :
    projection.extent? name = some extent ↔ (name, extent) ∈ projection.relations :=
  Entries.find?_eq_some_iff ordered.relations

theorem eq_of_mem {projection : Projection} (ordered : projection.Ordered)
    (first : (name, extent) ∈ projection.relations) (second : (name, other) ∈ projection.relations) :
    extent = other := by
  have found := ordered.extent?_eq_some_iff.mpr first
  exact Option.some.inj (found.symm.trans (ordered.extent?_eq_some_iff.mpr second))

end Ordered

theorem ext_of_ordered {first second : Projection} (one : first.Ordered) (two : second.Ordered)
    (columns : ∀ name, name ∈ first.columns ↔ name ∈ second.columns)
    (relations : ∀ name, first.extent? name = second.extent? name) : first = second := by
  have sameColumns := Names.ext_of_mem one.columns two.columns columns
  have sameRelations := Entries.ext_of_find? one.relations two.relations relations
  cases first
  cases second
  exact congr (congrArg node sameColumns) sameRelations

/-- By induction: below a relation that both show, the parts cover each other. -/
theorem covers_antisymm (one : Ordered first) (two : Ordered second)
    (wider : Covers first second) (narrower : Covers second first) : first = second := by
  induction first using induct generalizing second with
  | node columns relations ih =>
    obtain ⟨more, above⟩ := covers_iff.mp wider
    obtain ⟨less, below⟩ := covers_iff.mp narrower
    have kept : ∀ name extent, (name, extent) ∈ relations → (name, extent) ∈ second.relations := by
      intro name extent member
      obtain ⟨present, found, upper⟩ := below (name, extent) member
      obtain ⟨again, back, lower⟩ := above (name, present) found
      obtain rfl := one.eq_of_mem back member
      suffices again = present from this ▸ found
      cases again with
      | whole =>
        cases present with
        | whole => rfl
        | part => exact upper.elim
      | part inner =>
        cases present with
        | whole => exact lower.elim
        | part other =>
          exact congrArg Extent.part (ih name inner member (one.below member) (two.below found)
            lower upper)
    refine ext_of_ordered one two (fun name => ⟨fun h => less h, fun h => more h⟩) fun name => ?_
    cases shown : second.extent? name with
    | none =>
      cases found : extent? (node columns relations) name with
      | none => rfl
      | some extent =>
        have member := kept name extent (one.extent?_eq_some_iff.mp found)
        rw [two.extent?_eq_some_iff.mpr member] at shown
        contradiction
    | some extent =>
      have member := two.extent?_eq_some_iff.mp shown
      obtain ⟨present, found, _⟩ := above (name, extent) member
      obtain rfl := two.eq_of_mem (kept name present found) member
      exact one.extent?_eq_some_iff.mpr found

theorem coversExtent_antisymm (one : OrderedExtent first) (two : OrderedExtent second)
    (wider : CoversExtent first second) (narrower : CoversExtent second first) :
    first = second := by
  cases first with
  | whole =>
    cases second with
    | whole => rfl
    | part => exact narrower.elim
  | part first =>
    cases second with
    | whole => exact wider.elim
    | part second => exact congrArg Extent.part (covers_antisymm one two wider narrower)

/-- A projection whose names are in order, as those that are compiled are. -/
structure Tree where
  projection : Projection
  ordered : projection.Ordered

structure Branch where
  extent : Extent
  ordered : OrderedExtent extent

/-- A projection is below those that cover it. -/
instance : PartialOrder Tree where
  le narrow wide := Covers wide.projection narrow.projection
  le_refl tree := covers_refl tree.projection
  le_trans _ _ _ first second := covers_trans second first
  le_antisymm first second more less := by
    obtain ⟨projection, ordered⟩ := first
    obtain ⟨other, same⟩ := second
    obtain rfl : projection = other := covers_antisymm ordered same less more
    rfl

instance : PartialOrder Branch where
  le narrow wide := CoversExtent wide.extent narrow.extent
  le_refl branch := coversExtent_refl branch.extent
  le_trans _ _ _ first second := coversExtent_trans second first
  le_antisymm first second more less := by
    obtain ⟨extent, ordered⟩ := first
    obtain ⟨other, same⟩ := second
    obtain rfl : extent = other := coversExtent_antisymm ordered same less more
    rfl

end Projection
end RestQuery

/-! Merging is the join of the order by what is shown. The merged projection covers exactly
what covers both, so the laws of merging and of whole runs of merges are those of joins. -/
namespace RestQuery.Projection

theorem columns_mergeRelations (projection : Projection) (entries : List (Text × Extent)) :
    (mergeRelations projection entries).columns = projection.columns := by
  induction entries generalizing projection with
  | nil => rw [mergeRelations]
  | cons head rest ih =>
    rw [mergeRelations, ih]
    rfl

theorem mem_columns_merge : wanted ∈ (merge projection more).columns ↔
    wanted ∈ projection.columns ∨ wanted ∈ more.columns := by
  obtain ⟨columns, relations⟩ := more
  rw [merge, columns_mergeRelations]
  exact Names.mem_union

/-- What is shown of a relation after an extent of it is merged in, if there is one. -/
def mergeExtent? (more present : Option Extent) : Option Extent :=
  more.elim present fun extent => some (mergeExtent extent present)

/-- Every name is merged once, as it stands once among the entries. -/
theorem extent?_mergeRelations (kept : Entries.Ascending projection.relations)
    (more : Entries.Ascending entries) : (mergeRelations projection entries).extent? name =
      mergeExtent? (Entries.find? name entries) (projection.extent? name) := by
  induction entries generalizing projection with
  | nil => simp [mergeRelations, Entries.find?, mergeExtent?]
  | cons head rest ih =>
    obtain ⟨other, extent⟩ := head
    obtain ⟨least, tail⟩ := List.pairwise_cons.mp more
    have ordered : Entries.Ascending
        (projection.alterRelation other (mergeExtent extent)).relations :=
      Entries.ascending_alter kept
    rw [mergeRelations, ih ordered tail]
    by_cases same : other = name
    · subst same
      have absent : Entries.find? other rest = none :=
        Entries.find?_eq_none_of_lt fun entry member => least entry member
      have changed : (projection.alterRelation other (mergeExtent extent)).extent? other =
          some (mergeExtent extent (projection.extent? other)) := Entries.find?_alter_self kept
      simp [Entries.find?, absent, changed, mergeExtent?]
    · have unchanged : (projection.alterRelation other (mergeExtent extent)).extent? name =
          projection.extent? name := Entries.find?_alter_of_ne fun h => same h.symm
      simp [Entries.find?, same, unchanged]

theorem extent?_merge (kept : projection.Ordered) (more : added.Ordered) :
    (merge projection added).extent? name =
      mergeExtent? (added.extent? name) (projection.extent? name) := by
  obtain ⟨columns, relations⟩ := added
  have ordered : Entries.Ascending (projection.addColumns columns).relations := kept.relations
  rw [merge]
  exact extent?_mergeRelations ordered more.relations

/-- Whatever is shown of a relation is covered where it is shown, too. -/
def CoversExtent? (wide narrow : Option Extent) : Prop :=
  ∀ extent ∈ narrow, ∃ present ∈ wide, CoversExtent present extent

theorem covers_iff_extent? (above : wide.Ordered) (below : narrow.Ordered) :
    Covers wide narrow ↔ narrow.columns ⊆ wide.columns ∧
      ∀ name, CoversExtent? (wide.extent? name) (narrow.extent? name) := by
  rw [covers_iff]
  refine and_congr_right fun _ => ?_
  constructor
  · intro each name extent shown
    obtain ⟨present, found, covers⟩ := each (name, extent) (below.extent?_eq_some_iff.mp shown)
    exact ⟨present, above.extent?_eq_some_iff.mpr found, covers⟩
  · intro each (name, extent) member
    obtain ⟨present, found, covers⟩ := each name extent (below.extent?_eq_some_iff.mpr member)
    exact ⟨present, above.extent?_eq_some_iff.mp found, covers⟩

@[simp] theorem coversExtent?_none (wide : Option Extent) : CoversExtent? wide none := by
  simp [CoversExtent?]

@[simp] theorem coversExtent?_some :
    CoversExtent? wide (some extent) ↔ ∃ present ∈ wide, CoversExtent present extent := by
  simp [CoversExtent?]

theorem mergeExtent_none (extent : Extent) : mergeExtent extent none = extent := by
  cases extent <;> rw [mergeExtent]

/-- An extent covers the merged one if it covers both, once this is known of parts. -/
theorem coversExtent_mergeExtent (parts : ∀ outer first second, wide = .part outer →
      old = .part first → extent = .part second →
      (Covers outer (merge first second) ↔ Covers outer first ∧ Covers outer second)) :
    CoversExtent wide (mergeExtent extent (some old)) ↔
      CoversExtent wide old ∧ CoversExtent wide extent := by
  cases wide with
  | whole => simp
  | part outer =>
    cases extent with
    | whole => simp [mergeExtent, CoversExtent]
    | part second =>
      cases old with
      | whole => simp [mergeExtent, CoversExtent]
      | part first => simpa only [mergeExtent, CoversExtent] using parts outer first second rfl rfl rfl

/-- Merging is a least upper bound. By induction on what is merged in: the parts below a
relation that both show are merged in turn. -/
theorem covers_merge_iff (above : Ordered wide) (first : Ordered projection)
    (second : Ordered added) :
    Covers wide (merge projection added) ↔ Covers wide projection ∧ Covers wide added := by
  induction added using induct generalizing wide projection with
  | node columns relations ih =>
    have shown (name : Text) : CoversExtent? (wide.extent? name)
        ((merge projection (node columns relations)).extent? name) ↔
        CoversExtent? (wide.extent? name) (projection.extent? name) ∧
          CoversExtent? (wide.extent? name) ((node columns relations).extent? name) := by
      rw [extent?_merge first second]
      cases more : (node columns relations).extent? name with
      | none => simp [mergeExtent?]
      | some extent =>
        cases kept : projection.extent? name with
        | none => simp [mergeExtent?, mergeExtent_none]
        | some old =>
          cases outer : wide.extent? name with
          | none => simp [mergeExtent?]
          | some present =>
            simp only [mergeExtent?, Option.elim_some, coversExtent?_some, Option.mem_some_iff,
              exists_eq_left']
            refine coversExtent_mergeExtent fun wider one two whole part added => ?_
            subst whole part added
            have member := second.extent?_eq_some_iff.mp more
            exact ih name two member (above.below (above.extent?_eq_some_iff.mp outer))
              (first.below (first.extent?_eq_some_iff.mp kept)) (second.below member)
    have columns : (merge projection (node columns relations)).columns ⊆ wide.columns ↔
        projection.columns ⊆ wide.columns ∧ (node columns relations).columns ⊆ wide.columns := by
      simp only [List.subset_def, mem_columns_merge, or_imp, forall_and]
    rw [covers_iff_extent? above (ordered_merge first second), covers_iff_extent? above first,
      covers_iff_extent? above second, columns, forall_congr' shown, forall_and]
    exact and_and_and_comm

theorem coversExtent_merge_iff (above : OrderedExtent wide) (first : OrderedExtent extent)
    (second : OrderedExtent added) :
    CoversExtent wide (extent.merge added) ↔ CoversExtent wide extent ∧ CoversExtent wide added := by
  refine coversExtent_mergeExtent fun outer one two whole part more => ?_
  subst whole part more
  exact covers_merge_iff above first second

namespace Tree

def empty : Tree := ⟨Projection.empty, ordered_empty⟩

def merge (first second : Tree) : Tree :=
  ⟨Projection.merge first.projection second.projection, ordered_merge first.ordered second.ordered⟩

theorem merge_le_iff {first second wide : Tree} :
    first.merge second ≤ wide ↔ first ≤ wide ∧ second ≤ wide :=
  covers_merge_iff wide.ordered first.ordered second.ordered

end Tree

namespace Branch

def whole : Branch := ⟨.whole, trivial⟩

def part (tree : Tree) : Branch := ⟨.part tree.projection, tree.ordered⟩

def merge (first second : Branch) : Branch :=
  ⟨first.extent.merge second.extent, ordered_mergeExtent second.ordered fun _ old =>
    Option.some.inj old ▸ first.ordered⟩

theorem merge_le_iff {first second wide : Branch} :
    first.merge second ≤ wide ↔ first ≤ wide ∧ second ≤ wide :=
  coversExtent_merge_iff wide.ordered first.ordered second.ordered

end Branch

instance : SemilatticeSup Tree where
  sup := Tree.merge
  le_sup_left _ _ := (Tree.merge_le_iff.mp le_rfl).1
  le_sup_right _ _ := (Tree.merge_le_iff.mp le_rfl).2
  sup_le _ _ _ first second := Tree.merge_le_iff.mpr ⟨first, second⟩

instance : OrderBot Tree where
  bot := Tree.empty
  bot_le tree := covers_iff.mpr ⟨List.nil_subset _, by simp [Tree.empty, empty, relations]⟩

instance : SemilatticeSup Branch where
  sup := Branch.merge
  le_sup_left _ _ := (Branch.merge_le_iff.mp le_rfl).1
  le_sup_right _ _ := (Branch.merge_le_iff.mp le_rfl).2
  sup_le _ _ _ first second := Branch.merge_le_iff.mpr ⟨first, second⟩

/-- A part that names nothing is less than any other extent, and not the whole. -/
instance : OrderBot Branch where
  bot := Branch.part Tree.empty
  bot_le branch := by
    obtain ⟨extent, ordered⟩ := branch
    cases extent with
    | whole => trivial
    | part projection => exact bot_le (a := Tree.mk projection ordered)

instance : OrderTop Branch where
  top := Branch.whole
  le_top branch := coversExtent_whole branch.extent

/-- The laws of a join with a least element, and that it is a least upper bound. -/
structure IsJoin {α : Type} [PartialOrder α] (join : α → α → α) (bottom : α) : Prop where
  assoc : ∀ a b c, join (join a b) c = join a (join b c)
  comm : ∀ a b, join a b = join b a
  idem : ∀ a, join a a = a
  left : ∀ a, join bottom a = a
  right : ∀ a, join a bottom = a
  least : ∀ a b, IsLUB {a, b} (join a b)

theorem isJoin_sup {α : Type} [SemilatticeSup α] [OrderBot α] :
    IsJoin (fun a b : α => a ⊔ b) ⊥ where
  assoc := sup_assoc
  comm := sup_comm
  idem := sup_idem
  left := bot_sup_eq
  right := sup_bot_eq
  least _ _ := isLUB_pair

theorem merge_ofRelation (projection : Projection) (name : Text) (extent : Extent) :
    merge projection (ofRelation name extent) = projection.mergeRelation name extent := by
  simp only [ofRelation, merge, mergeRelations]
  rfl

theorem ordered_ofRelation (ordered : OrderedExtent extent) : (ofRelation name extent).Ordered :=
  ⟨.nil, List.pairwise_singleton _ _, ordered, trivial⟩

inductive Step where
  | merge (tree : Tree)
  | mergeRelation (name : Text) (branch : Branch)

namespace Step

def shown : Step → Tree
  | merge tree => tree
  | mergeRelation name branch => ⟨ofRelation name branch.extent, ordered_ofRelation branch.ordered⟩

def apply (tree : Tree) : Step → Tree
  | merge more => tree.merge more
  | mergeRelation name branch => {
      projection := tree.projection.mergeRelation name branch.extent
      ordered := by
        rw [← merge_ofRelation]
        exact ordered_merge tree.ordered (ordered_ofRelation branch.ordered) }

theorem apply_eq_sup (tree : Tree) (step : Step) : apply tree step = tree ⊔ step.shown := by
  cases step with
  | merge more => rfl
  | mergeRelation name branch =>
    have same := merge_ofRelation tree.projection name branch.extent
    simp only [apply, ← same]
    rfl

end Step

/-- The projection collected from the start by the steps, one after the other. -/
def run (start : Tree) (steps : List Step) : Tree := steps.foldl Step.apply start

/-- By induction on the steps, each of which is a join. -/
theorem run_le_iff {start wide : Tree} {steps : List Step} :
    run start steps ≤ wide ↔ start ≤ wide ∧ ∀ step ∈ steps, step.shown ≤ wide := by
  induction steps generalizing start with
  | nil => simp [run]
  | cons step rest ih =>
    have next : run start (step :: rest) = run (step.apply start) rest := rfl
    rw [next, ih, step.apply_eq_sup, sup_le_iff, List.forall_mem_cons, and_assoc]

theorem isLUB_run (start : Tree) (steps : List Step) :
    IsLUB (insert start (Step.shown '' {step | step ∈ steps})) (run start steps) := by
  refine isLUB_iff_le_iff.mpr fun wide => ?_
  rw [run_le_iff, upperBounds_insert]
  simp [upperBounds]

/-- Merging is a join, of projections and of extents, where the whole of a relation absorbs
its parts. A run of merges gives the least projection that shows the start and all steps, so
nothing is lost, nothing else appears, and the order of the steps does not matter. -/
theorem merge_isJoin :
    IsJoin Tree.merge .empty ∧ IsJoin Branch.merge (.part .empty) ∧
      (∀ branch : Branch, branch.merge .whole = .whole ∧ Branch.whole.merge branch = .whole) ∧
      ∀ (start : Tree) (steps : List Step),
        IsLUB (insert start (Step.shown '' {step | step ∈ steps})) (run start steps) ∧
          ∀ others, steps.Perm others → run start others = run start steps := by
  refine ⟨isJoin_sup, isJoin_sup, fun branch => ⟨sup_top_eq branch, top_sup_eq branch⟩, ?_⟩
  intro start steps
  refine ⟨isLUB_run start steps, fun others permuted => ?_⟩
  have same : {step | step ∈ others} = {step | step ∈ steps} :=
    Set.ext fun step => permuted.mem_iff.symm
  have least := isLUB_run start others
  rw [same] at least
  exact least.unique (isLUB_run start steps)

end RestQuery.Projection
