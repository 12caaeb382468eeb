import RestQuery.Proofs.Schema.Loaded
import RestQuery.Proofs.Statement.Exposed

/-! Statements that are well scoped. Every name by which a statement qualifies a column is its
table or a relation that it joins; only a condition may name a relation that has no join. -/
namespace RestQuery

/-- The projection or the condition reaches for a relation. -/
def Descriptor.Mentions (descriptor : Descriptor) (name : Text) : Prop :=
  (∃ projection ∈ descriptor.projection, ∃ extent, (name, extent) ∈ projection.relations) ∨
    ∃ condition ∈ descriptor.condition, ∃ column ∈ condition.columns, column.table = name

namespace Statement

/-- A relation that is mentioned is looked up, unless it hides behind the name of the table. -/
theorem mem_joinedNames {descriptor : Descriptor} (apart : name ≠ schema.table) :
    name ∈ joinedNames schema descriptor ↔ descriptor.Mentions name := by
  simp only [joinedNames, Names.mem_union, List.not_mem_nil, false_or, Descriptor.Mentions]
  refine or_congr ?_ ?_
  · cases descriptor.projection <;> simp
  · cases descriptor.condition <;> simp [apart]

/-- A join stands under the name by which it was found. -/
theorem map_name_joins (linked : schema.Linked) (names : List Text) :
    (names.filterMap (joinClause? schema)).map (·.name) =
      names.filter fun name => (joinClause? schema name).isSome := by
  induction names with
  | nil => rfl
  | cons name names ih =>
    cases made : joinClause? schema name with
    | none => simp [made, ih]
    | some clause =>
      obtain ⟨_, _, _, _, _, same, _⟩ := (joinClause?_eq_some_iff linked).mp made
      simp [made, ih, same]

variable {descriptor : Descriptor}

end Statement

namespace Descriptor

end Descriptor

/-! Whose column a handle is. The columns of an entity stand under its table and those of a
relation under the relation's name, so that a handle tells its owner, unless a relation has the
name of the table. A condition reaches the columns of such a relation without joining it. -/

def Schema.ColumnOf (schema : Schema) (name : Text) (column : Column) : Prop :=
  ∃ relation api, schema.relation? name = some relation ∧ relation.column? api = some column

theorem Schema.Named.table_eq {schema : Schema} (named : schema.Named)
    (related : schema.ColumnOf name column) : column.table = name := by
  obtain ⟨relation, api, found, present⟩ := related
  exact named name relation api column found present

/-- The path leads to a column of the relation, as no column of the entity hides it. -/
def Condition.LeadsThrough (schema : Schema) (path : Token.Path) (name : Text)
    (column : Column) : Prop :=
  ∃ api, path = [name, api] ∧ schema.column? api = none ∧ resolve schema path = .ok column

theorem Condition.LeadsThrough.columnOf (leads : LeadsThrough schema path name column) :
    schema.ColumnOf name column := by
  obtain ⟨api, rfl, hidden, resolved⟩ := leads
  rcases found : (schema.relation? name).bind (·.column? api) with _ | other
  · simp [resolve, hidden, found] at resolved
  · obtain rfl : other = column := by simpa [resolve, hidden, found] using resolved
    obtain ⟨relation, present, related⟩ := Option.bind_eq_some_iff.mp found
    exact ⟨relation, api, present, related⟩

namespace Statement

def Shows (descriptor : Descriptor) (name : Text) : Prop :=
  ∃ projection ∈ descriptor.projection, ∃ extent, (name, extent) ∈ projection.relations

variable {descriptor : Descriptor} {condition : Condition}

/-- A relation whose column is compared is looked up, unless it has the name of the table and
the projection does not name it. -/
theorem mem_joinedNames_of_compared (schema : Schema)
    (filtered : descriptor.condition = some condition) (compared : column ∈ condition.columns) :
    column.table ∈ joinedNames schema descriptor ↔
      column.table ≠ schema.table ∨ Shows descriptor column.table := by
  by_cases apart : column.table = schema.table
  · simp only [joinedNames, Names.mem_union, apart, Shows]
    cases descriptor.projection <;> simp [filtered]
  · have mentioned : descriptor.Mentions column.table :=
      .inr ⟨condition, filtered, column, compared, rfl⟩
    exact iff_of_true ((mem_joinedNames apart).mpr mentioned) (.inl apart)

theorem exists_join_iff (linked : schema.Linked) (reached : Reaches schema name relation) :
    (∃ clause ∈ (ofDescriptor schema descriptor).joins, clause.name = name) ↔
      name ∈ joinedNames schema descriptor := by
  have joinable := (isSome_joinClause?_iff linked).mpr ⟨relation, reached⟩
  rw [← List.mem_map, ofDescriptor, map_name_joins linked, List.mem_filter]
  exact and_iff_left joinable

/-- Every join is written, with a space before it. -/
theorem join_isInfix {statement : Statement} (member : clause ∈ statement.joins) :
    ' ' :: clause.toSql <:+: statement.toSql := by
  obtain ⟨before, after, split⟩ := List.append_of_mem member
  have written : ' ' :: clause.toSql <:+: statement.head := by
    rw [head, split, List.flatMap_append, List.flatMap_cons, ← List.append_assoc]
    exact List.infix_append' ..
  exact written.trans statement.head_isPrefix.isInfix

end Statement

namespace Descriptor

open Statement

/-- A handle stands under the table's name exactly if its relation has that name, and never
under the names of two relations. A relation with a join, whose column a condition compares,
is joined, unless its name is the table's and the projection does not name it. -/
theorem joins_owner_of_compared (arises : schema.Arises) :
    (∀ column, schema.OwnColumn column → column.table = schema.table) ∧
    (∀ name column, schema.ColumnOf name column →
      (column.table = schema.table ↔ name = schema.table)) ∧
    (∀ first second a b, schema.ColumnOf first a → schema.ColumnOf second b →
      a.table = b.table → first = second) ∧
    ∀ (descriptor : Descriptor) condition column path name relation,
      descriptor.condition = some condition → column ∈ condition.columns →
      Condition.LeadsThrough schema path name column → Reaches schema name relation →
      (name ∈ joinedNames schema descriptor ↔ name ≠ schema.table ∨ Shows descriptor name) ∧
      ((∃ clause ∈ (ofDescriptor schema descriptor).joins, clause.name = name ∧
        ' ' :: clause.toSql <:+: descriptor.toSql schema) ↔
          name ≠ schema.table ∨ Shows descriptor name) := by
  have named := arises.named
  refine ⟨arises.accepted.owned, ?_, ?_, ?_⟩
  · intro name column related
    rw [named.table_eq related]
  · intro first second a b inFirst inSecond same
    rwa [named.table_eq inFirst, named.table_eq inSecond] at same
  · intro descriptor condition column path name relation filtered compared leads reached
    obtain rfl := named.table_eq leads.columnOf
    have looked := mem_joinedNames_of_compared schema filtered compared
    refine ⟨looked, ?_⟩
    rw [← looked, ← exists_join_iff arises.linked reached]
    constructor
    · rintro ⟨clause, member, same, _⟩
      exact ⟨clause, member, same⟩
    · rintro ⟨clause, member, same⟩
      exact ⟨clause, member, same, join_isInfix member⟩

theorem joins_owner_subjects :
    let descriptor := (ofQuery .subjects
      "filter=or(id.eq(1),and(department.title.eq(a)))".toList).result
    Schema.Arises .subjects ∧ (∃ condition, descriptor.condition = some condition ∧
      ⟨"department".toList, "title".toList⟩ ∈ condition.columns) ∧
      Condition.LeadsThrough .subjects ["department".toList, "title".toList] "department".toList
        ⟨"department".toList, "title".toList⟩ ∧
      ∃ clause ∈ (ofDescriptor .subjects descriptor).joins, clause.name = "department".toList ∧
        ' ' :: clause.toSql <:+: descriptor.toSql .subjects := by
  intro descriptor
  have arises : Schema.Arises .subjects := by
    refine .built Schema.build_subjects fun relation member => ?_
    obtain rfl : relation = _ := by simpa [Schema.subjectDeclarations] using member
    exact .setJoin _ _ (.addColumn _ _ (.addColumn _ _ (.new _ _)))
  have columns : descriptor.condition.elim [] Condition.columns =
      [⟨"subjects".toList, "id".toList⟩, ⟨"department".toList, "title".toList⟩] := by
    decide +kernel
  have compared : ∃ condition, descriptor.condition = some condition ∧
      ⟨"department".toList, "title".toList⟩ ∈ condition.columns := by
    cases filtered : descriptor.condition with
    | none => simp [filtered] at columns
    | some condition =>
      rw [filtered, Option.elim_some] at columns
      exact ⟨condition, rfl, by simp [columns]⟩
  have leads : Condition.LeadsThrough .subjects ["department".toList, "title".toList]
      "department".toList ⟨"department".toList, "title".toList⟩ := ⟨"title".toList, rfl, rfl, rfl⟩
  have reached : Reaches .subjects "department".toList _ := ⟨rfl, rfl⟩
  obtain ⟨condition, filtered, member⟩ := compared
  have law := (joins_owner_of_compared arises).2.2.2 descriptor condition _ _ _ _ filtered member
    leads reached
  exact ⟨arises, ⟨condition, filtered, member⟩, leads, law.2.mpr (.inl (by decide))⟩

/-- An entity whose rows refer to each other, by a relation with the name of the table. -/
def managedDeclarations : List Declaration := [
  .column "id".toList "id".toList, .column "managerId".toList "manager_id".toList,
  .relation (((Relation.new "employees".toList "employees".toList).addColumn
    "id".toList "id".toList).addColumn "title".toList "title".toList
    |>.setJoin "managerId".toList "id".toList)]

/-- Under the table's name a relation's column passes for one of the entity: the relation has a
join, and yet the statement that compares the column does without it. -/
theorem unjoined_of_table_name :
    ∃ schema, Schema.build "employees".toList managedDeclarations = .ok schema ∧
      let column : Column := ⟨"employees".toList, "title".toList⟩
      let descriptor := (ofQuery schema "filter=employees.title.eq(x)".toList).result
      column.table = schema.table ∧ ¬ schema.OwnColumn column ∧
        Condition.LeadsThrough schema ["employees".toList, "title".toList] "employees".toList
          column ∧
        (∃ relation, Reaches schema "employees".toList relation) ∧
        descriptor.condition.elim [] Condition.columns = [column] ∧
        joinedNames schema descriptor = [] ∧
        descriptor.toSql schema =
          "SELECT * FROM employees WHERE employees.title = 'x'".toList := by
  refine ⟨_, rfl, rfl, ?_, ⟨"title".toList, rfl, rfl, rfl⟩, ⟨_, rfl, rfl⟩, ?_, ?_, ?_⟩
  · rintro ⟨api, found⟩
    obtain ⟨declaration, listed, declared⟩ :=
      List.mem_filterMap.mp (NameMap.mem_of_get?_ofList found)
    simp only [managedDeclarations, List.mem_cons, List.not_mem_nil, or_false] at listed
    rcases listed with rfl | rfl | rfl
    · simp at declared
    · simp at declared
    · contradiction
  · decide +kernel
  · decide +kernel
  · decide +kernel

end Descriptor
end RestQuery
