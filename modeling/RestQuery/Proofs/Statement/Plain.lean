import RestQuery.Proofs.Filter.Condition
import RestQuery.Proofs.Statement.Exposed

/-! Statements whose names hold no quote. Their literals are those of the condition, and
every other clause is outside of literals. -/
namespace RestQuery.Statement

open Literal (Scans)

structure IsPlain (statement : Statement) : Prop where
  items : ∀ item ∈ statement.items, Text.IsPlain item.toSql
  table : Text.IsPlain statement.table
  joins : ∀ clause ∈ statement.joins, Text.IsPlain clause.toSql
  columns : ∀ condition ∈ statement.condition, ∀ column ∈ condition.columns,
    Text.IsPlain column.toText
  groups : ∀ item ∈ statement.groups, Text.IsPlain item.toSql
  order : ∀ term ∈ statement.order, Text.IsPlain term.toSql

def emptied (statement : Statement) : Statement :=
  { statement with condition := statement.condition.map Condition.emptied }

def strings (statement : Statement) : List Text := statement.condition.elim [] Condition.strings

/-- A condition has the same columns when its strings are emptied. -/
theorem isPlain_emptied {statement : Statement} : statement.emptied.IsPlain ↔ statement.IsPlain := by
  have columns : (∀ condition ∈ statement.emptied.condition, ∀ column ∈ condition.columns,
      Text.IsPlain column.toText) ↔ ∀ condition ∈ statement.condition,
      ∀ column ∈ condition.columns, Text.IsPlain column.toText := by
    cases made : statement.condition <;> simp [emptied, made]
  constructor
  · intro plain
    exact ⟨plain.items, plain.table, plain.joins, columns.mp plain.columns, plain.groups, plain.order⟩
  · intro plain
    exact ⟨plain.items, plain.table, plain.joins, columns.mpr plain.columns, plain.groups, plain.order⟩

theorem isPlain_listClause (keyword : String) {write : α → Text} {parts : List α}
    (plain : Text.IsPlain keyword.toList) (each : ∀ part ∈ parts, Text.IsPlain (write part)) :
    Text.IsPlain (listClause keyword (parts.map write)) := by
  have comma : Text.IsPlain ", ".toList := by decide
  unfold listClause
  split
  · exact List.not_mem_nil
  · refine List.not_mem_append plain (comma.intercalate ?_)
    intro text member
    obtain ⟨part, present, rfl⟩ := List.mem_map.mp member
    exact each part present

theorem isPlain_countClause (keyword : String) (plain : Text.IsPlain keyword.toList)
    (count : Option Nat) : Text.IsPlain (optionalClause keyword (count.map Number.ofNat)) := by
  cases count with
  | none => exact List.not_mem_nil
  | some n =>
    have digits : Text.IsPlain (Number.ofNat n) :=
      Text.isPlain_of_isNumeral fun _ => Number.isNumeral_of_mem_ofNat
    exact List.not_mem_append plain digits

theorem scans_whereClause {condition : Option Condition}
    (plain : ∀ inner ∈ condition, ∀ column ∈ inner.columns, Text.IsPlain column.toText) :
    Scans (optionalClause " WHERE " (condition.map Condition.toSql))
      (optionalClause " WHERE " ((condition.map Condition.emptied).map Condition.toSql))
      (condition.elim [] Condition.strings) := by
  have keyword : Text.IsPlain " WHERE ".toList := by decide
  cases condition with
  | none => exact .plain List.not_mem_nil
  | some condition => exact Scans.plain_append keyword (Condition.scans_toSql (plain condition rfl))

/-- The text before the condition is plain, and so is each clause after it. -/
theorem scans_toSql {statement : Statement} (plain : statement.IsPlain) :
    Scans statement.toSql statement.emptied.toSql statement.strings := by
  have select := isPlain_listClause "SELECT " (by decide) plain.items
  have source : Text.IsPlain " FROM ".toList := by decide
  have joins : Text.IsPlain (statement.joins.flatMap fun clause => ' ' :: clause.toSql) := by
    intro member
    obtain ⟨clause, present, member⟩ := List.mem_flatMap.mp member
    rcases List.mem_cons.mp member with space | member
    · contradiction
    · exact plain.joins clause present member
  have front := List.not_mem_append
    (List.not_mem_append (List.not_mem_append select source) plain.table) joins
  have groups := isPlain_listClause " GROUP BY " (by decide) plain.groups
  have order := isPlain_listClause " ORDER BY " (by decide) plain.order
  have limit := isPlain_countClause " LIMIT " (by decide) statement.limit
  have offset := isPlain_countClause " OFFSET " (by decide) statement.offset
  have middle := Scans.plain_append front (scans_whereClause plain.columns)
  exact (((middle.append_plain groups).append_plain order).append_plain limit).append_plain offset

end RestQuery.Statement

/-! Statements that answer queries of clients. Where no name of the schema holds a quote,
the text of a client stands inside the literals of the statement and nowhere else. -/
namespace RestQuery

/-- No table, column, relation or label of the schema has a quote in its name. -/
structure Schema.IsPlain (schema : Schema) : Prop where
  table : Text.IsPlain schema.table
  columns : ∀ entry ∈ schema.columns.entries, Text.IsPlain entry.2.name
  relations : ∀ entry ∈ schema.relations.entries,
    Text.IsPlain entry.2.table ∧ Text.IsPlain entry.2.name
  related : ∀ entry ∈ schema.relations.entries, ∀ column ∈ entry.2.columns.entries,
    Text.IsPlain column.2.table ∧ Text.IsPlain column.2.name
  labels : ∀ entry ∈ schema.aggregates.entries, Text.IsPlain entry.1

theorem Column.isPlain_toText {column : Column} (table : Text.IsPlain column.table)
    (name : Text.IsPlain column.name) : Text.IsPlain column.toText := by
  have point : Text.IsPlain ['.'] := by decide
  exact List.not_mem_append table (List.not_mem_append point name)

namespace Schema

theorem IsPlain.ownColumn {schema : Schema} (plain : schema.IsPlain) (accepted : schema.Accepted)
    (own : schema.OwnColumn column) : Text.IsPlain column.toText := by
  have table := accepted.owned column own ▸ plain.table
  obtain ⟨api, found⟩ := own
  have name := plain.columns _ ((NameMap.get?_eq_some_iff _).mp found)
  exact column.isPlain_toText table name

theorem IsPlain.relation {schema : Schema} {relation : Relation} (plain : schema.IsPlain)
    (found : schema.relation? name = some relation) :
    Text.IsPlain relation.table ∧ Text.IsPlain relation.name :=
  plain.relations _ ((NameMap.get?_eq_some_iff _).mp found)

theorem IsPlain.relatedColumn {schema : Schema} (plain : schema.IsPlain)
    (related : schema.RelatedColumn column) : Text.IsPlain column.toText := by
  obtain ⟨name, relation, api, present, found⟩ := related
  have names := plain.related _ ((NameMap.get?_eq_some_iff _).mp present) _
    ((NameMap.get?_eq_some_iff _).mp found)
  exact column.isPlain_toText names.1 names.2

theorem IsPlain.label {schema : Schema} {label : Text} (plain : schema.IsPlain)
    (registered : schema.aggregate? label = some column) : Text.IsPlain label :=
  plain.labels _ ((NameMap.get?_eq_some_iff _).mp registered)

end Schema

namespace Statement

theorem isPlain_joinClause {clause : JoinClause} (plain : schema.IsPlain)
    (accepted : schema.Accepted) (made : joinClause? schema name = some clause) :
    Text.IsPlain clause.toSql := by
  simp only [joinClause?, bind, pure, Option.bind_eq_some_iff, Option.some.injEq] at made
  obtain ⟨relation, found, join, _, own, owned, foreign, related, rfl⟩ := made
  obtain ⟨table, called⟩ := plain.relation found
  have left := plain.relatedColumn ⟨name, relation, _, found, related⟩
  have right := plain.ownColumn accepted ⟨_, owned⟩
  have joined : Text.IsPlain "LEFT JOIN ".toList := by decide
  have as : Text.IsPlain " AS ".toList := by decide
  have on : Text.IsPlain " ON ".toList := by decide
  have equals : Text.IsPlain " = ".toList := by decide
  have target := List.not_mem_append (List.not_mem_append (List.not_mem_append joined table) as) called
  exact List.not_mem_append (List.not_mem_append (List.not_mem_append
    (List.not_mem_append target on) left) equals) right

theorem isPlain_allOf (plain : Text.IsPlain name) : Text.IsPlain (SelectItem.allOf name).toSql := by
  have mark : Text.IsPlain ".*".toList := by decide
  exact List.not_mem_append plain mark

theorem isPlain_extentItems {entry : Text × Extent} (plain : schema.IsPlain)
    (member : item ∈ extentItems schema entry) : Text.IsPlain item.toSql := by
  obtain ⟨name, extent⟩ := entry
  simp only [extentItems] at member
  split at member
  · next relation clause found _ =>
    split at member
    · obtain rfl := List.mem_singleton.mp member
      exact isPlain_allOf (plain.relation found).2
    · next projection =>
      obtain ⟨column, shown, rfl⟩ := List.mem_map.mp member
      obtain ⟨api, _, related⟩ := List.mem_filterMap.mp shown
      exact plain.relatedColumn ⟨name, relation, api, found, related⟩
  · contradiction

theorem isPlain_projectionItems (plain : schema.IsPlain) (accepted : schema.Accepted)
    (member : item ∈ projectionItems schema projection) : Text.IsPlain item.toSql := by
  rcases List.mem_append.mp member with member | member
  · obtain ⟨column, shown, rfl⟩ := List.mem_map.mp member
    obtain ⟨api, _, own⟩ := List.mem_filterMap.mp shown
    exact plain.ownColumn accepted ⟨api, own⟩
  · obtain ⟨entry, _, member⟩ := List.mem_flatMap.mp member
    exact isPlain_extentItems plain member

theorem isPlain_count {count : Count} (column : Text.IsPlain count.column.toText)
    (label : Text.IsPlain count.label) : Text.IsPlain count.toSql := by
  have opened : Text.IsPlain (Count.function ++ ['(']) := by decide
  have closed : Text.IsPlain ") AS ".toList := by decide
  have whole : Text.IsPlain ((Count.function ++ ['(']) ++
      (count.column.toText ++ (") AS ".toList ++ count.label))) :=
    List.not_mem_append opened (List.not_mem_append column (List.not_mem_append closed label))
  simpa only [Count.toSql, List.append_assoc, List.cons_append, List.nil_append] using whole

theorem isPlain_orderTerm {term : OrderTerm} (column : Text.IsPlain term.column.toText) :
    Text.IsPlain term.toSql := by
  have direction : Text.IsPlain (' ' :: term.direction.toSql) := by cases term.direction <;> decide
  exact List.not_mem_append column direction

/-- Nothing but the literals of the condition comes from a client. -/
theorem isPlain_ofDescriptor {schema : Schema} (plain : schema.IsPlain)
    (accepted : schema.Accepted) (within : Descriptor.Within schema descriptor) :
    (ofDescriptor schema descriptor).IsPlain := by
  have items : ∀ item ∈ (ofDescriptor schema descriptor).items, Text.IsPlain item.toSql := by
    intro item member
    rcases mem_items_cases member with ⟨projection, _, shown⟩ | ⟨count, listed, rfl⟩ | rfl | rfl
    · exact isPlain_projectionItems plain accepted shown
    · obtain ⟨registered, own⟩ := within.counts count listed
      exact isPlain_count (plain.ownColumn accepted own) (plain.label registered)
    · decide
    · exact isPlain_allOf plain.table
  constructor
  case items => exact items
  case table => exact plain.table
  case joins =>
    intro clause member
    obtain ⟨name, _, made⟩ := List.mem_filterMap.mp member
    exact isPlain_joinClause plain accepted made
  case columns =>
    intro condition made column member
    obtain ⟨_, _, compares⟩ := (within.condition condition made).columns column member
    rcases compares.declared with own | related
    · exact plain.ownColumn accepted own
    · exact plain.relatedColumn related
  case groups => exact fun item member => items item (mem_items_of_mem_groups member)
  case order =>
    intro term member
    exact isPlain_orderTerm (plain.ownColumn accepted (within.order term member))

end Statement

namespace Descriptor

def emptied (descriptor : Descriptor) : Descriptor :=
  { descriptor with condition := descriptor.condition.map Condition.emptied }

def strings (descriptor : Descriptor) : List Text :=
  descriptor.condition.elim [] Condition.strings

theorem ofDescriptor_emptied (schema : Schema) (descriptor : Descriptor) :
    Statement.ofDescriptor schema descriptor.emptied =
      (Statement.ofDescriptor schema descriptor).emptied := by
  have names : Statement.joinedNames schema descriptor.emptied =
      Statement.joinedNames schema descriptor := by
    cases made : descriptor.condition <;> simp [Statement.joinedNames, emptied, made]
  simp only [Statement.ofDescriptor, Statement.emptied, names]
  rfl

theorem scan_toSql_of_isPlain {schema : Schema} {descriptor : Descriptor}
    (plain : (Statement.ofDescriptor schema descriptor).IsPlain) :
    Literal.scan (descriptor.toSql schema) =
      some (descriptor.emptied.toSql schema, descriptor.strings) := by
  rw [toSql, toSql, ofDescriptor_emptied]
  exact (Statement.scans_toSql plain).whole

/-- The statement that answers a query ends outside of literals, its literals hold the strings
of the condition, and the rest of it is the same whatever those strings are. -/
theorem scan_toSql_ofQuery {schema : Schema} (built : Schema.build root declarations = .ok schema)
    (plain : schema.IsPlain) (raw : Text) :
    let descriptor := (ofQuery schema raw).result
    Literal.scan (descriptor.toSql schema) =
        some (descriptor.emptied.toSql schema, descriptor.strings) ∧
      ∀ other : Descriptor, other.emptied = descriptor.emptied →
        Literal.scan (other.toSql schema) =
          some (descriptor.emptied.toSql schema, other.strings) := by
  intro descriptor
  have accepted := Schema.accepted_of_build built
  have quoted : (Statement.ofDescriptor schema descriptor).IsPlain :=
    Statement.isPlain_ofDescriptor plain accepted (within_compile accepted (Params.parse raw))
  refine ⟨scan_toSql_of_isPlain quoted, ?_⟩
  intro other same
  have requoted : (Statement.ofDescriptor schema other).IsPlain := by
    rw [← Statement.isPlain_emptied, ← ofDescriptor_emptied, same, ofDescriptor_emptied,
      Statement.isPlain_emptied]
    exact quoted
  rw [scan_toSql_of_isPlain requoted, same]

theorem scan_toSql_subjects :
    Schema.build "subjects".toList Schema.subjectDeclarations = .ok .subjects ∧
      Schema.subjects.IsPlain ∧
      let descriptor := (ofQuery .subjects
        "filter=or(name.in('''',a'b),department.title.eq(' OR '))&select=department&sort=name".toList).result
      Literal.scan (descriptor.toSql .subjects) =
          some (descriptor.emptied.toSql .subjects, descriptor.strings) ∧
        ∀ other : Descriptor, other.emptied = descriptor.emptied →
          Literal.scan (other.toSql .subjects) =
            some (descriptor.emptied.toSql .subjects, other.strings) :=
  have plain : Schema.subjects.IsPlain := ⟨by decide, by decide, by decide, by decide, by decide⟩
  ⟨Schema.build_subjects, plain, scan_toSql_ofQuery Schema.build_subjects plain _⟩

end Descriptor
end RestQuery
