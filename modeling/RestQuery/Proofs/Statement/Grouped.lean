import RestQuery.Proofs.Statement.Scoped

/-! What statements that count are grouped by. The groups are the columns that the projection
names one by one: no relation that is shown as a whole is among them, and no column for being
sorted by. -/
namespace RestQuery

namespace Statement

theorem tail_isSuffix (statement : Statement) : statement.tail <:+ statement.toSql := by
  rw [toSql_eq, ← List.append_assoc]
  exact List.suffix_append _ _

/-- Rows of one group agree on what the item shows: the column is listed, or every column of the
relation is. A count is of the group itself. -/
def Covers (schema : Schema) (groups : List SelectItem) : SelectItem → Prop
  | .column column => .column column ∈ groups
  | .count _ => True
  | .allOf name => ∀ column, schema.ColumnOf name column → .column column ∈ groups
  | .everything => ∀ column, schema.OwnColumn column → .column column ∈ groups

/-- The statement is grouped by the columns that its projection names. Nothing is said of a column
whose name ends so that it reads as all columns of something. -/
structure GroupsColumns (schema : Schema) (descriptor : Descriptor) (statement : Statement) :
    Prop where
  shown : ∀ item ∈ statement.items, (∃ count ∈ descriptor.counts, item = .count count) ∨
    ∃ projection ∈ descriptor.projection, Exposes schema projection item
  listed : statement.groups.Sublist statement.items
  columns : ∀ item ∈ statement.groups, ∃ column, item = .column column
  covered : ∀ item ∈ statement.items, item.isOpen = false → Covers schema statement.groups item
  ordered : ∀ term ∈ statement.order, (SelectItem.column term.column).isOpen = false →
    (Covers schema statement.groups (.column term.column) ↔
      ∃ projection ∈ descriptor.projection, Exposes schema projection (.column term.column))
  ungrouped : (∀ item ∈ statement.items, ∃ count, item = .count count) → statement.groups = []

theorem isOpen_allOf (name : Text) : (SelectItem.allOf name).isOpen = true :=
  List.isSuffixOf_iff_suffix.mpr (List.suffix_append name _)

/-- A projection names columns, and relations that it takes as a whole. -/
theorem Exposes.exists_column (exposed : Exposes schema projection item)
    (closed : item.isOpen = false) : ∃ column, item = .column column := by
  cases exposed with
  | own => exact ⟨_, rfl⟩
  | whole =>
    rw [isOpen_allOf] at closed
    contradiction
  | part => exact ⟨_, rfl⟩

theorem mem_elim_projectionItems (linked : schema.Linked) {projection : Option Projection} :
    item ∈ projection.elim [] (projectionItems schema) ↔
      ∃ shown ∈ projection, Exposes schema shown item := by
  cases projection <;> simp [mem_projectionItems linked]

section

variable {descriptor : Descriptor} (counted : descriptor.counts ≠ [])
include counted

theorem items_of_counted : (ofDescriptor schema descriptor).items =
    descriptor.projection.elim [] (projectionItems schema) ++ descriptor.counts.map .count := by
  have filled : descriptor.projection.elim [] (projectionItems schema) ++
      descriptor.counts.map SelectItem.count ≠ [] := by simp [counted]
  simp only [ofDescriptor, if_pos filled]

theorem groups_of_counted : (ofDescriptor schema descriptor).groups =
    (descriptor.projection.elim [] (projectionItems schema)).filter fun item => !item.isOpen := by
  simp only [ofDescriptor, if_neg counted]

theorem mem_groups_iff (linked : schema.Linked) (item : SelectItem) :
    item ∈ (ofDescriptor schema descriptor).groups ↔
      (∃ projection ∈ descriptor.projection, Exposes schema projection item) ∧
        item.isOpen = false := by
  rw [groups_of_counted counted, List.mem_filter, mem_elim_projectionItems linked,
    Bool.not_eq_true']

theorem mem_items_iff (linked : schema.Linked) (item : SelectItem) :
    item ∈ (ofDescriptor schema descriptor).items ↔
      (∃ projection ∈ descriptor.projection, Exposes schema projection item) ∨
        ∃ count ∈ descriptor.counts, item = .count count := by
  rw [items_of_counted counted, List.mem_append, mem_elim_projectionItems linked, List.mem_map]
  simp only [eq_comm]

/-- What the projection names is listed, unless it reads as all columns of something. -/
theorem groupsColumns_ofDescriptor (linked : schema.Linked) :
    (ofDescriptor schema descriptor).GroupsColumns schema descriptor := by
  have groups := mem_groups_iff counted linked
  have items := mem_items_iff counted linked
  constructor
  case shown => exact fun item member => ((items item).mp member).symm
  case listed =>
    rw [groups_of_counted counted, items_of_counted counted]
    exact List.filter_sublist.trans (List.sublist_append_left _ _)
  case columns =>
    intro item member
    obtain ⟨⟨projection, _, exposed⟩, closed⟩ := (groups item).mp member
    exact exposed.exists_column closed
  case covered =>
    intro item member closed
    rcases (items item).mp member with ⟨projection, shown, exposed⟩ | ⟨count, _, rfl⟩
    · have listed := (groups item).mpr ⟨⟨projection, shown, exposed⟩, closed⟩
      obtain ⟨column, rfl⟩ := exposed.exists_column closed
      exact listed
    · trivial
  case ordered =>
    intro term _ closed
    rw [Covers, groups]
    exact and_iff_left closed
  case ungrouped =>
    intro counts
    refine List.eq_nil_iff_forall_not_mem.mpr fun item member => ?_
    obtain ⟨⟨projection, shown, exposed⟩, _⟩ := (groups item).mp member
    obtain ⟨count, rfl⟩ := counts item ((items item).mpr (.inl ⟨projection, shown, exposed⟩))
    cases exposed

end

end Statement

namespace Descriptor

open Statement

/-- A statement that counts lists its counts, the columns that the projection names and the
relations that it takes as a whole, and is grouped by the columns. A column that it is sorted by
is covered only if the projection names it, and without columns there are no groups. -/
theorem groupsColumns_of_counted (built : Schema.build root declarations = .ok schema) (raw : Text)
    (counted : (ofQuery schema raw).result.counts ≠ []) :
    let descriptor := (ofQuery schema raw).result
    let statement := ofDescriptor schema descriptor
    statement.head <+: descriptor.toSql schema ∧ statement.tail <:+ descriptor.toSql schema ∧
      statement.GroupsColumns schema descriptor := by
  intro descriptor statement
  refine ⟨statement.head_isPrefix, statement.tail_isSuffix, ?_⟩
  exact groupsColumns_ofDescriptor counted (Schema.linked_of_build built)

theorem groupsColumns_subjects :
    Schema.build "subjects".toList Schema.subjectDeclarations = .ok .subjects ∧
      let descriptor := (ofQuery .subjects
        "select=name,department(*)&sort=-id,name&aggregate=count".toList).result
      let statement := ofDescriptor .subjects descriptor
      descriptor.counts ≠ [] ∧ statement.head <+: descriptor.toSql .subjects ∧
        statement.tail <:+ descriptor.toSql .subjects ∧
        statement.GroupsColumns .subjects descriptor := by
  refine ⟨Schema.build_subjects, ?_⟩
  intro descriptor statement
  have counted : descriptor.counts ≠ [] := by decide +kernel
  exact ⟨counted, groupsColumns_of_counted Schema.build_subjects _ counted⟩

/-- An entity with a column that reads as all of them. -/
def starredDeclarations : List Declaration :=
  .column "all".toList "*".toList :: Schema.subjectDeclarations

/-- A relation shown as a whole, a column that is only sorted by, and a column named by a star are
not grouped by. -/
theorem uncovered_starred :
    ∃ schema, Schema.build "subjects".toList starredDeclarations = .ok schema ∧
      (∀ name relation, schema.relation? name = some relation → relation.join.isSome) ∧
      let whole := (ofQuery schema "select=department(*)&aggregate=count".toList).result
      let sorted := (ofQuery schema "select=name&sort=id&aggregate=count".toList).result
      let starred := (ofQuery schema "select=all&aggregate=count".toList).result
      (whole.counts ≠ [] ∧
        .allOf "department".toList ∈ (ofDescriptor schema whole).items ∧
        ¬ Covers schema (ofDescriptor schema whole).groups (.allOf "department".toList)) ∧
      (sorted.counts ≠ [] ∧ ∃ term ∈ (ofDescriptor schema sorted).order,
        ¬ Covers schema (ofDescriptor schema sorted).groups (.column term.column)) ∧
      starred.counts ≠ [] ∧
        .column ⟨"subjects".toList, "*".toList⟩ ∈ (ofDescriptor schema starred).items ∧
        ¬ Covers schema (ofDescriptor schema starred).groups
          (.column ⟨"subjects".toList, "*".toList⟩) := by
  refine ⟨_, rfl, ?_, ⟨?_, ?_, ?_⟩, ⟨?_, ⟨⟨"subjects".toList, "id".toList⟩, .asc⟩, ?_, ?_⟩, ?_, ?_, ?_⟩
  · intro name relation found
    obtain ⟨declared, _⟩ := Schema.mem_of_declaredRelations found
    obtain rfl : relation = _ := by
      simpa [starredDeclarations, Schema.subjectDeclarations] using declared
    rfl
  · decide +kernel
  · decide +kernel
  · intro covers
    have listed := covers ⟨"department".toList, "id".toList⟩ ⟨_, "id".toList, rfl, rfl⟩
    revert listed
    decide +kernel
  · decide +kernel
  · decide +kernel
  · unfold Covers
    decide +kernel
  · decide +kernel
  · decide +kernel
  · unfold Covers
    decide +kernel

end Descriptor
end RestQuery
