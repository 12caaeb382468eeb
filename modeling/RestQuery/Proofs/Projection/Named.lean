import Mathlib.Data.Set.Defs
import RestQuery.Descriptor
import RestQuery.Projection
import RestQuery.Proofs.Projection.Join
import RestQuery.Proofs.Projection.Within
import RestQuery.Proofs.Token.Segments

/-! What the items of a select list show. Every item shows a column, a member of a relation or
as much of a relation as its arguments say; a list shows what any of its items shows. -/
namespace RestQuery

/-- Some of the relation's columns are shown if all of it is. -/
def Extent.Shows (column : Text) : Extent → Prop
  | .whole => True
  | .part projection => column ∈ projection.columns

namespace Projection

open Token

def argumentExtent (below : Relation → Text → Report Projection) (relation : Relation)
    (args : Text) : Extent :=
  if args.trim = ['*'] then .whole else .ofProjection (below relation args).result

/-- The projection of one item, by the shapes that an item may have. -/
inductive Denotes (scope : Scope) (below : Relation → Text → Report Projection) :
    Text → Projection → Prop
  | column : Text.IsIdentifier name → (scope.column? name).isSome →
      Denotes scope below name (ofColumn name)
  | member : Text.IsIdentifier name → Text.IsIdentifier column →
      scope.relation? name = some relation → (relation.column? column).isSome →
      Denotes scope below (Path.toText [name, column]) (ofRelation name (.part (ofColumn column)))
  | call : Text.IsIdentifier name → IsBalanced args → scope.relation? name = some relation →
      Denotes scope below (Call.toText ⟨[name], args⟩)
        (ofRelation name (argumentExtent below relation args))

section

variable {scope : Scope} {below : Relation → Text → Report Projection}

theorem denotes_of_ofCall {call : Call} (written : call.IsWritten)
    (made : (ofCall scope below item call).result = some projection) :
    Denotes scope below call.toText projection := by
  obtain ⟨path, args⟩ := call
  unfold ofCall at made
  split at made
  · next name single =>
    obtain rfl : path = [name] := single
    have identifier := written.identifiers name (by simp)
    cases present : scope.relation? name with
    | none => simp [present] at made
    | some relation =>
      have extent : ofRelation name (argumentExtent below relation args) = projection := by
        simp only [present] at made
        unfold argumentExtent
        split at made <;> simp_all [Report.accept, Report.map]
      exact extent ▸ .call identifier written.balanced present
  · contradiction

theorem denotes_of_ofPath {path : Path} (identifiers : ∀ name ∈ path, Text.IsIdentifier name)
    (made : ofPath scope path = .ok projection) : Denotes scope below path.toText projection := by
  unfold ofPath at made
  split at made
  · next name =>
    split at made
    · next present =>
      obtain rfl := Except.ok.inj made
      simpa [Path.toText] using Denotes.column (identifiers name (by simp)) present
    · contradiction
  · next name column =>
    cases found : scope.relation? name with
    | none => simp [found] at made
    | some relation =>
      simp only [found] at made
      split at made
      · next present =>
        obtain rfl := Except.ok.inj made
        exact .member (identifiers name (by simp)) (identifiers column (by simp)) found present
      · contradiction
  · contradiction

/-- Compiling an item gives what it denotes, and nothing where it denotes nothing. -/
theorem ofItem_eq_some_iff (trimmed : item.trim = item) :
    (ofItem scope below item).result = some projection ↔ Denotes scope below item projection := by
  constructor
  · intro made
    unfold ofItem at made
    split at made
    · next call read =>
      obtain ⟨written, same⟩ := Call.read?_eq_some_iff.mp read
      rw [trimmed] at same
      exact same ▸ denotes_of_ofCall written made
    · split at made
      · next path read =>
        obtain ⟨written, same⟩ := Path.read?_eq_some_iff.mp read
        rw [trimmed] at same
        exact same ▸ denotes_of_ofPath written.identifiers (Report.result_ofExcept.mp made)
      · contradiction
  · intro denoted
    cases denoted with
    | column identifier present =>
      have read : Path.read? item = some [item] :=
        Path.read?_eq_some_iff.mpr ⟨⟨by simp, by simpa using identifier⟩, by simpa [Path.toText]⟩
      simp [ofItem, Call.read?_of_path read, read, ofPath, present, Report.ofExcept]
    | @member name column relation outer inner found present =>
      have read : Path.read? (Path.toText [name, column]) = some [name, column] :=
        Path.read?_eq_some_iff.mpr ⟨⟨by simp, by simp [outer, inner]⟩, trimmed⟩
      simp [ofItem, Call.read?_of_path read, read, ofPath, found, present, Report.ofExcept]
    | @call name args relation identifier balanced found =>
      have written : (Call.mk [name] args).IsWritten := ⟨by simp, by simpa using identifier, balanced⟩
      rw [ofItem, written.read?_toText]
      simp only [ofCall, found, argumentExtent]
      split <;> rfl

theorem ordered_ofColumn (name : Text) : (ofColumn name).Ordered :=
  ⟨List.pairwise_singleton _ _, .nil, trivial⟩

theorem ordered_ofProjection (ordered : projection.Ordered) :
    OrderedExtent (.ofProjection projection) := by
  unfold Extent.ofProjection
  split
  · trivial
  · exact ordered

theorem Denotes.ordered (nested : ∀ relation text, (below relation text).result.Ordered)
    (denoted : Denotes scope below item projection) : projection.Ordered := by
  cases denoted with
  | column => exact ordered_ofColumn _
  | member => exact ordered_ofRelation (ordered_ofColumn _)
  | @call name args relation =>
    refine ordered_ofRelation ?_
    unfold argumentExtent
    split
    · trivial
    · exact ordered_ofProjection (nested relation args)

end

/-- What a merged projection shows in this way, one of the merged projections shows. -/
structure Distributes (shows : Projection → Prop) : Prop where
  empty : ¬ shows empty
  merge : ∀ {first second}, first.Ordered → second.Ordered →
    (shows (merge first second) ↔ shows first ∨ shows second)

namespace Distributes

theorem columns (name : Text) : Distributes (name ∈ ·.columns) :=
  ⟨List.not_mem_nil, fun _ _ => mem_columns_merge⟩

/-- What distributes over merged extents does so under the name of a relation. -/
theorem extent (name : Text) {shows : Extent → Prop}
    (each : ∀ more old, shows (mergeExtent more (some old)) ↔ shows old ∨ shows more) :
    Distributes fun projection => ∃ extent ∈ projection.extent? name, shows extent := by
  constructor
  · rintro ⟨extent, found, _⟩
    contradiction
  · intro first second kept more
    rw [extent?_merge kept more]
    cases second.extent? name with
    | none => simp [mergeExtent?]
    | some extent =>
      cases first.extent? name with
      | none => simp [mergeExtent?, mergeExtent_none]
      | some old => simpa [mergeExtent?] using each extent old

variable {shows : Projection → Prop}

theorem mergeAll (distributes : Distributes shows) {projections : List Projection}
    (ordered : ∀ projection ∈ projections, projection.Ordered) :
    shows (mergeAll projections) ↔ ∃ projection ∈ projections, shows projection := by
  suffices ∀ start : Projection, start.Ordered →
      (shows (projections.foldl Projection.merge start) ↔
        shows start ∨ ∃ projection ∈ projections, shows projection) by
    simpa [Projection.mergeAll, distributes.empty] using this Projection.empty ordered_empty
  induction projections with
  | nil => simp
  | cons first others ih =>
    intro start kept
    obtain ⟨added, ordered⟩ := List.forall_mem_cons.mp ordered
    rw [List.foldl_cons, ih ordered _ (ordered_merge kept added), distributes.merge kept added]
    simp [or_assoc]

end Distributes

theorem ordered_mergeAll {projections : List Projection}
    (each : ∀ projection ∈ projections, projection.Ordered) : (mergeAll projections).Ordered :=
  List.foldlRecOn projections merge ordered_empty
    fun _ merged projection member => ordered_merge merged (each projection member)

section

variable {scope : Scope} {below : Relation → Text → Report Projection}

theorem mem_present_ofItem :
    projection ∈ (Report.present ((items text).map (ofItem scope below))).result ↔
      ∃ item, IsListed text item ∧ Denotes scope below item projection := by
  rw [Report.mem_present]
  constructor
  · rintro ⟨report, compiled, result⟩
    obtain ⟨item, member, rfl⟩ := List.mem_map.mp compiled
    have denoted := (ofItem_eq_some_iff (trim_of_mem_items member)).mp result
    exact ⟨item, isListed_iff.mpr member, denoted⟩
  · rintro ⟨item, listed, denoted⟩
    have member := isListed_iff.mp listed
    exact ⟨_, List.mem_map_of_mem member,
      (ofItem_eq_some_iff (trim_of_mem_items member)).mpr denoted⟩

variable (nested : ∀ relation text, (below relation text).result.Ordered)
include nested

theorem ordered_present : ∀ projection ∈
    (Report.present ((items text).map (ofItem scope below))).result, projection.Ordered := by
  intro projection member
  obtain ⟨item, _, denoted⟩ := mem_present_ofItem.mp member
  exact denoted.ordered nested

theorem ordered_ofItems (text : Text) : (ofItems scope below text).result.Ordered :=
  ordered_mergeAll (ordered_present nested)

theorem Distributes.ofItems (distributes : Distributes shows) :
    shows (ofItems scope below text).result ↔ ∃ item, IsListed text item ∧
      ∃ projection, Denotes scope below item projection ∧ shows projection := by
  have ordered : ∀ projection ∈ (Report.present ((items text).map (ofItem scope below))).result,
      projection.Ordered := ordered_present nested
  refine (distributes.mergeAll ordered).trans ⟨?_, ?_⟩
  · rintro ⟨projection, member, shown⟩
    obtain ⟨item, listed, denoted⟩ := mem_present_ofItem.mp member
    exact ⟨item, listed, projection, denoted, shown⟩
  · rintro ⟨item, listed, projection, denoted, shown⟩
    exact ⟨projection, mem_present_ofItem.mpr ⟨item, listed, denoted⟩, shown⟩

end

theorem ordered_compileRelation (relation : Relation) (text : Text) :
    (compileRelation relation text).result.Ordered :=
  ordered_ofItems (fun _ _ => ordered_empty) text

theorem ordered_compile (schema : Schema) (text : Text) : (compile schema text).result.Ordered :=
  ordered_ofItems ordered_compileRelation text

end Projection

/-! Projections as the sets of what is named. A select parameter compiles to the columns and
relations that its items name, and nothing but the set of the items decides which. -/

def Param.items (param : Param) : Set Text :=
  {item | ∃ fragment ∈ param.fragments, Token.IsListed fragment item}

namespace Projection

open Token

/-- An item is the name of a column of the scope. -/
def NamesColumn (scope : Scope) (items : Set Text) (name : Text) : Prop :=
  Text.IsIdentifier name ∧ (scope.column? name).isSome ∧ name ∈ items

/-- An item is `name(args)`, with parentheses that pair up in the arguments. -/
def Calls (items : Set Text) (name args : Text) : Prop :=
  Paired args ∧ name ++ '(' :: (args ++ [')']) ∈ items

/-- An item is `name.column`, with a column of the relation. -/
def NamesMember (relation : Relation) (items : Set Text) (name column : Text) : Prop :=
  Text.IsIdentifier column ∧ (relation.column? column).isSome ∧ name ++ '.' :: column ∈ items

/-- An item is an argument with the name of a column of the relation. -/
def NamesArgument (relation : Relation) (args column : Text) : Prop :=
  NamesColumn (.relation relation) {item | IsListed args item} column

/-- The arguments are a star, or none of them names a column. -/
def OpensWhole (relation : Relation) (args : Text) : Prop :=
  args.trim = ['*'] ∨ ∀ column, ¬ NamesArgument relation args column

def NamesRelation (schema : Schema) (items : Set Text) (name : Text) : Prop :=
  Text.IsIdentifier name ∧ ∃ relation, schema.relation? name = some relation ∧
    ((∃ args, Calls items name args) ∨ ∃ column, NamesMember relation items name column)

/-- The projection shows what the items name, each column and relation once. -/
structure IsNamedBy (schema : Schema) (items : Set Text) (projection : Projection) : Prop where
  ordered : projection.Ordered
  columns : ∀ name, name ∈ projection.columns ↔ NamesColumn (.entity schema) items name
  relations : ∀ name, (∃ extent, (name, extent) ∈ projection.relations) ↔
    NamesRelation schema items name
  whole : ∀ name relation, NamesRelation schema items name →
    schema.relation? name = some relation → ((name, .whole) ∈ projection.relations ↔
      ∃ args, Calls items name args ∧ OpensWhole relation args)
  part : ∀ name relation inner, schema.relation? name = some relation →
    (name, .part inner) ∈ projection.relations → inner.relations = [] ∧
      ∀ column, column ∈ inner.columns ↔ NamesMember relation items name column ∨
        ∃ args, Calls items name args ∧ NamesArgument relation args column

theorem column_denoted {scope : Scope} {below : Relation → Text → Report Projection}
    {items : Set Text} : (∃ item ∈ items, ∃ projection, Denotes scope below item projection ∧
      name ∈ projection.columns) ↔ NamesColumn scope items name := by
  constructor
  · rintro ⟨item, listed, projection, denoted, member⟩
    cases denoted with
    | column identifier present =>
      obtain rfl : name = item := by simpa [ofColumn, columns] using member
      exact ⟨identifier, present, listed⟩
    | member => contradiction
    | call => contradiction
  · rintro ⟨identifier, present, listed⟩
    exact ⟨name, listed, ofColumn name, .column identifier present, by simp [ofColumn, columns]⟩

theorem columns_compileRelation : column ∈ (compileRelation relation args).result.columns ↔
    NamesArgument relation args column :=
  ((Distributes.columns column).ofItems fun _ _ => ordered_empty).trans column_denoted

theorem argumentExtent_eq_whole_iff :
    argumentExtent compileRelation relation args = .whole ↔ OpensWhole relation args := by
  unfold argumentExtent OpensWhole
  by_cases star : args.trim = ['*']
  · simp [star]
  · have bare := (within_compileRelation relation args).no_relations
    simp only [star, if_false, false_or, ← columns_compileRelation]
    rw [← List.eq_nil_iff_forall_not_mem]
    simp [Extent.ofProjection, isEmpty, bare]

theorem shows_argumentExtent : (argumentExtent compileRelation relation args).Shows column ↔
    OpensWhole relation args ∨ NamesArgument relation args column := by
  cases made : argumentExtent compileRelation relation args with
  | whole => simp [Extent.Shows, argumentExtent_eq_whole_iff.mp made]
  | part projection =>
    have closed : ¬ OpensWhole relation args := by
      rw [← argumentExtent_eq_whole_iff, made]
      simp
    have same : (compileRelation relation args).result = projection := by
      unfold argumentExtent Extent.ofProjection at made
      split at made
      · contradiction
      · split at made
        · contradiction
        · exact Extent.part.inj made
    simp only [Extent.Shows, closed, false_or, ← columns_compileRelation, same]

def ofParam (schema : Schema) (param : Param) : Projection :=
  mergeAll (Report.all (param.fragments.map (compile schema))).result

section

variable {schema : Schema} {param : Param} {shows : Projection → Prop}

theorem ordered_fragments : ∀ projection ∈ (Report.all (param.fragments.map (compile schema))).result,
    projection.Ordered := by
  intro projection member
  obtain ⟨report, compiled, rfl⟩ := Report.mem_all.mp member
  obtain ⟨fragment, _, rfl⟩ := List.mem_map.mp compiled
  exact ordered_compile schema fragment

theorem ordered_ofParam : (ofParam schema param).Ordered := ordered_mergeAll ordered_fragments

theorem Distributes.ofParam (distributes : Distributes shows) : shows (ofParam schema param) ↔
    ∃ item ∈ param.items, ∃ projection,
      Denotes (.entity schema) compileRelation item projection ∧ shows projection := by
  refine (distributes.mergeAll ordered_fragments).trans ⟨?_, ?_⟩
  · rintro ⟨projection, member, shown⟩
    obtain ⟨report, compiled, rfl⟩ := Report.mem_all.mp member
    obtain ⟨fragment, present, rfl⟩ := List.mem_map.mp compiled
    obtain ⟨item, listed, denoted⟩ := (distributes.ofItems ordered_compileRelation).mp shown
    exact ⟨item, ⟨fragment, present, listed⟩, denoted⟩
  · rintro ⟨item, ⟨fragment, present, listed⟩, denoted⟩
    exact ⟨_, Report.mem_all.mpr ⟨_, List.mem_map_of_mem present, rfl⟩,
      (distributes.ofItems ordered_compileRelation).mpr ⟨item, listed, denoted⟩⟩

/-- Of a relation is shown what its calls and its members show. -/
theorem extent_ofParam (schema : Schema) (param : Param) (name : Text) (shows : Extent → Prop)
    (each : ∀ more old, shows (mergeExtent more (some old)) ↔ shows old ∨ shows more) :
    (∃ extent ∈ (ofParam schema param).extent? name, shows extent) ↔
      Text.IsIdentifier name ∧ ∃ relation, schema.relation? name = some relation ∧
        ((∃ args, Calls param.items name args ∧
          shows (argumentExtent compileRelation relation args)) ∨
        ∃ column, NamesMember relation param.items name column ∧
          shows (.part (ofColumn column))) := by
  refine (Distributes.extent name each).ofParam.trans ⟨?_, ?_⟩
  · rintro ⟨item, listed, projection, denoted, extent, found, shown⟩
    cases denoted with
    | column => contradiction
    | @member other column relation outer inner present related =>
      obtain ⟨rfl, rfl⟩ : other = name ∧ Extent.part (ofColumn column) = extent := by
        simpa [extent?, ofRelation, relations, Entries.find?] using found
      rw [Path.toText_pair] at listed
      exact ⟨outer, relation, present, .inr ⟨column, ⟨inner, related, listed⟩, shown⟩⟩
    | @call other args relation identifier balanced present =>
      obtain ⟨rfl, rfl⟩ : other = name ∧ argumentExtent compileRelation relation args = extent := by
        simpa [extent?, ofRelation, relations, Entries.find?] using found
      rw [Call.toText_single] at listed
      have paired := isBalanced_iff_paired.mp balanced
      exact ⟨identifier, relation, present, .inl ⟨args, ⟨paired, listed⟩, shown⟩⟩
  · have found (extent : Extent) : extent ∈ (ofRelation name extent).extent? name := by
      simp [extent?, ofRelation, relations, Entries.find?]
    rintro ⟨identifier, relation, present, ⟨args, ⟨paired, listed⟩, shown⟩ |
      ⟨column, ⟨inner, related, listed⟩, shown⟩⟩
    · rw [← Call.toText_single] at listed
      have balanced := isBalanced_iff_paired.mpr paired
      exact ⟨_, listed, _, .call identifier balanced present, _, found _, shown⟩
    · rw [← Path.toText_pair] at listed
      exact ⟨_, listed, _, .member identifier inner present related, _, found _, shown⟩

end

theorem mergeExtent_eq_whole_iff (more old : Extent) :
    mergeExtent more (some old) = .whole ↔ old = .whole ∨ more = .whole := by
  cases more <;> cases old <;> simp [mergeExtent]

theorem shows_mergeExtent (column : Text) (more old : Extent) :
    (mergeExtent more (some old)).Shows column ↔ old.Shows column ∨ more.Shows column := by
  cases more <;> cases old <;> simp [mergeExtent, Extent.Shows, mem_columns_merge]

theorem relations_ofParam : (∃ extent, (name, extent) ∈ (ofParam schema param).relations) ↔
    NamesRelation schema param.items name := by
  have shown := extent_ofParam schema param name (fun _ => True) (by simp)
  simpa [ordered_ofParam.extent?_eq_some_iff, NamesRelation] using shown

theorem whole_ofParam (named : NamesRelation schema param.items name)
    (found : schema.relation? name = some relation) :
    (name, .whole) ∈ (ofParam schema param).relations ↔
      ∃ args, Calls param.items name args ∧ OpensWhole relation args := by
  have shown := extent_ofParam schema param name (· = .whole) mergeExtent_eq_whole_iff
  simpa [ordered_ofParam.extent?_eq_some_iff, argumentExtent_eq_whole_iff, named.1, found]
    using shown

/-- A part shows a column that a member or an argument names, as no call opens the whole. -/
theorem part_ofParam {inner : Projection} (found : schema.relation? name = some relation)
    (member : (name, .part inner) ∈ (ofParam schema param).relations) :
    column ∈ inner.columns ↔ NamesMember relation param.items name column ∨
      ∃ args, Calls param.items name args ∧ NamesArgument relation args column := by
  have named := relations_ofParam.mp ⟨_, member⟩
  have closed : ∀ args, Calls param.items name args → ¬ OpensWhole relation args := by
    intro args calls opens
    have whole := (whole_ofParam named found).mpr ⟨args, calls, opens⟩
    exact absurd (ordered_ofParam.eq_of_mem member whole) (by simp)
  have shown := extent_ofParam schema param name (Extent.Shows column) (shows_mergeExtent column)
  simp only [ordered_ofParam.extent?_eq_some_iff.mpr member, Option.mem_some_iff, exists_eq_left',
    found, Option.some.injEq, shows_argumentExtent] at shown
  refine shown.trans ⟨?_, ?_⟩
  · rintro ⟨_, ⟨args, calls, opens | argument⟩ | ⟨other, names, same⟩⟩
    · exact absurd opens (closed args calls)
    · exact .inr ⟨args, calls, argument⟩
    · obtain rfl : column = other := by simpa [Extent.Shows, ofColumn, columns] using same
      exact .inl names
  · rintro (names | ⟨args, calls, argument⟩)
    · exact ⟨named.1, .inr ⟨column, names, by simp [Extent.Shows, ofColumn, columns]⟩⟩
    · exact ⟨named.1, .inl ⟨args, calls, .inr argument⟩⟩

theorem isNamedBy_ofParam (schema : Schema) (param : Param) :
    IsNamedBy schema param.items (ofParam schema param) where
  ordered := ordered_ofParam
  columns name := (Distributes.columns name).ofParam.trans column_denoted
  relations _ := relations_ofParam
  whole _ _ := whole_ofParam
  part name relation inner found member := by
    obtain ⟨_, _, _, _, bare⟩ := (within_fragments schema param.fragments).relations _ member
    exact ⟨bare, fun _ => part_ofParam found member⟩

namespace IsNamedBy

variable {schema : Schema} {items : Set Text} {first second : Projection}

theorem extent_eq (one : IsNamedBy schema items first) (two : IsNamedBy schema items second)
    (shown : (name, extent) ∈ first.relations) (other : (name, more) ∈ second.relations) :
    extent = more := by
  have named := (one.relations name).mp ⟨extent, shown⟩
  obtain ⟨relation, found, _⟩ := named.2
  have whole : (name, .whole) ∈ first.relations ↔ (name, .whole) ∈ second.relations :=
    (one.whole name relation named found).trans (two.whole name relation named found).symm
  cases extent with
  | whole => exact two.ordered.eq_of_mem (whole.mp shown) other
  | part inner =>
    cases more with
    | whole => exact one.ordered.eq_of_mem shown (whole.mpr other)
    | part below =>
      obtain ⟨bare, columns⟩ := one.part name relation inner found shown
      obtain ⟨empty, others⟩ := two.part name relation below found other
      refine congrArg Extent.part (ext_of_ordered (one.ordered.below shown) (two.ordered.below other)
        (fun column => (columns column).trans (others column).symm) fun _ => ?_)
      rw [extent?, extent?, bare, empty]

/-- The items determine the projection. -/
theorem unique (one : IsNamedBy schema items first) (two : IsNamedBy schema items second) :
    first = second := by
  refine ext_of_ordered one.ordered two.ordered
    (fun name => (one.columns name).trans (two.columns name).symm) fun name => ?_
  have both := (one.relations name).trans (two.relations name).symm
  simp only [← one.ordered.extent?_eq_some_iff, ← two.ordered.extent?_eq_some_iff] at both
  cases shown : first.extent? name with
  | none =>
    cases other : second.extent? name with
    | none => rfl
    | some more =>
      obtain ⟨extent, found⟩ := both.mpr ⟨more, other⟩
      rw [shown] at found
      contradiction
  | some extent =>
    obtain ⟨more, other⟩ := both.mp ⟨extent, shown⟩
    rw [other]
    exact congrArg some (one.extent_eq two (one.ordered.extent?_eq_some_iff.mp shown)
      (two.ordered.extent?_eq_some_iff.mp other))

/-- A projection is empty where nothing is named. -/
theorem isEmpty_iff (named : IsNamedBy schema items first) : first.isEmpty = true ↔
    ∀ name, ¬ NamesColumn (.entity schema) items name ∧ ¬ NamesRelation schema items name := by
  simp only [isEmpty, Bool.and_eq_true, List.isEmpty_iff, List.eq_nil_iff_forall_not_mem,
    ← named.columns, ← named.relations, forall_and]
  simp

end IsNamedBy

/-- The fragments of a parameter do not matter, only the items in them. -/
theorem ofParam_congr {param other : Param} (schema : Schema) (same : other.items = param.items) :
    ofParam schema other = ofParam schema param := by
  have named := isNamedBy_ofParam schema other
  rw [same] at named
  exact named.unique (isNamedBy_ofParam schema param)

end Projection

namespace Descriptor

open Projection

theorem result_compileProjection (schema : Schema) (param : Param) :
    (compileProjection schema param).result =
      if (ofParam schema param).isEmpty then none else some (ofParam schema param) := rfl

/-- A select parameter compiles to what its items name, and to no projection if that is
nothing. In particular the order, the number and the fragments of the items do not matter. -/
theorem compileProjection_eq_some_iff (schema : Schema) (param : Param) :
    (∀ projection, (compileProjection schema param).result = some projection ↔
      projection.isEmpty = false ∧ IsNamedBy schema param.items projection) ∧
    ((compileProjection schema param).result = none ↔
      ∀ name, ¬ NamesColumn (.entity schema) param.items name ∧
        ¬ NamesRelation schema param.items name) ∧
    ∀ other : Param, other.items = param.items →
      (compileProjection schema other).result = (compileProjection schema param).result := by
  have named := isNamedBy_ofParam schema param
  refine ⟨fun projection => ?_, ?_, fun other same => ?_⟩
  · rw [result_compileProjection]
    constructor
    · intro made
      split at made
      · contradiction
      · next filled =>
        obtain rfl := Option.some.inj made
        exact ⟨Bool.eq_false_iff.mpr filled, named⟩
    · rintro ⟨filled, other⟩
      obtain rfl := named.unique other
      simp [filled]
  · rw [← named.isEmpty_iff, result_compileProjection]
    split <;> simp_all
  · have others := isNamedBy_ofParam schema other
    rw [same] at others
    rw [result_compileProjection, result_compileProjection, others.unique named]

/-- Blanks are no item, and an item that names nothing is passed over. -/
theorem compileProjection_eq_some_iff_mixed :
    let param := Param.list
      ["name, ,salary".toList, " department.id,department( title ,head(x)),(".toList]
    let inner : Projection := .node ["id".toList, "title".toList] []
    let projection : Projection := .node ["name".toList] [("department".toList, .part inner)]
    let unresolved := Param.single " ,salary,department".toList
    (compileProjection .subjects param).result = some projection ∧
      IsNamedBy .subjects param.items projection ∧ [] ∉ param.items ∧
      "salary".toList ∈ param.items ∧
      ¬NamesColumn (.entity .subjects) param.items "salary".toList ∧
      (compileProjection .subjects unresolved).result = none ∧
      "department".toList ∈ unresolved.items ∧
      ∀ name, ¬NamesRelation .subjects unresolved.items name := by
  intro param inner projection unresolved
  obtain ⟨shown, -, -⟩ := compileProjection_eq_some_iff .subjects param
  obtain ⟨-, absent, -⟩ := compileProjection_eq_some_iff .subjects unresolved
  have made : (compileProjection .subjects param).result = some projection := by
    decide +kernel
  have nothing : (compileProjection .subjects unresolved).result = none :=
    Option.isNone_iff_eq_none.mp (by decide +kernel)
  refine ⟨made, ((shown projection).mp made).2, ?_, ?_, ?_, nothing, ?_,
    fun name => (absent.mp nothing name).2⟩
  · rintro ⟨_, -, _, ⟨parts, -, rfl⟩, member⟩
    simp at member
  · exact ⟨_, List.mem_cons_self, Token.isListed_iff.mpr (by decide)⟩
  · rintro ⟨-, present, -⟩
    exact absurd present (by decide +kernel)
  · exact ⟨_, List.mem_singleton_self _, Token.isListed_iff.mpr (by decide)⟩

end Descriptor
end RestQuery
