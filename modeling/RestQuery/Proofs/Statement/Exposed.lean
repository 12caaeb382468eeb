import RestQuery.Proofs.Descriptor.Within
import RestQuery.Proofs.Schema.Accepted
import RestQuery.Statement

/-! What the items of a statement expose. The items of a projection are those that it names
and that can be reached; where none of them can, and nothing is counted, the statement falls
back to all columns. -/
namespace RestQuery

namespace Statement

/-- The relation has a join, by which a statement reaches it. -/
def Reaches (schema : Schema) (name : Text) (relation : Relation) : Prop :=
  schema.relation? name = some relation ∧ relation.join.isSome

inductive Exposes (schema : Schema) (projection : Projection) : SelectItem → Prop
  | own : api ∈ projection.columns → schema.column? api = some column →
      Exposes schema projection (.column column)
  | whole : (name, .whole) ∈ projection.relations → Reaches schema name relation →
      Exposes schema projection (.allOf name)
  | part {inner : Projection} : (name, .part inner) ∈ projection.relations →
      Reaches schema name relation → api ∈ inner.columns → relation.column? api = some column →
      Exposes schema projection (.column column)

/-- Every join that is declared can be made. -/
theorem joinClause?_eq_some_iff (linked : schema.Linked) :
    joinClause? schema name = some clause ↔ ∃ relation join, schema.relation? name = some relation ∧
      relation.join = some join ∧ clause.table = relation.table ∧ clause.name = name ∧
      schema.column? join.own = some clause.own ∧
      relation.column? join.foreign = some clause.foreign := by
  simp only [joinClause?, bind, pure, Option.bind_eq_some_iff, Option.some.injEq]
  constructor
  · rintro ⟨relation, found, join, declares, own, present, foreign, related, rfl⟩
    exact ⟨relation, join, found, declares, rfl, linked.named name relation found, present, related⟩
  · rintro ⟨relation, join, found, declares, table, same, present, related⟩
    refine ⟨relation, found, join, declares, clause.own, present, clause.foreign, related, ?_⟩
    rw [linked.named name relation found, ← table, ← same]

theorem isSome_joinClause?_iff (linked : schema.Linked) :
    (joinClause? schema name).isSome ↔ ∃ relation, Reaches schema name relation := by
  simp only [Option.isSome_iff_exists, joinClause?_eq_some_iff linked]
  constructor
  · rintro ⟨clause, relation, join, found, declares, _⟩
    exact ⟨relation, found, by simp [declares]⟩
  · rintro ⟨relation, found, declares⟩
    obtain ⟨join, declares⟩ := Option.isSome_iff_exists.mp declares
    obtain ⟨present, related⟩ := linked.joined name relation join found declares
    obtain ⟨own, present⟩ := Option.isSome_iff_exists.mp present
    obtain ⟨foreign, related⟩ := Option.isSome_iff_exists.mp related
    exact ⟨⟨relation.table, name, foreign, own⟩, relation, join, found, declares, rfl, rfl, present,
      related⟩

theorem extentItems_of_reaches (linked : schema.Linked) (reached : Reaches schema name relation) :
    extentItems schema (name, extent) = match extent with
      | .whole => [.allOf name]
      | .part inner => (inner.columns.filterMap relation.column?).map .column := by
  obtain ⟨clause, joined⟩ := Option.isSome_iff_exists.mp
    ((isSome_joinClause?_iff linked).mpr ⟨relation, reached⟩)
  have named := linked.named name relation reached.1
  cases extent <;> simp only [extentItems, reached.1, joined, named]

theorem extentItems_of_unreached (linked : schema.Linked)
    (unreached : ∀ relation, ¬ Reaches schema name relation) :
    extentItems schema (name, extent) = [] := by
  have apart : joinClause? schema name = none := by
    refine Option.eq_none_iff_forall_ne_some.mpr fun clause joined => ?_
    obtain ⟨relation, reached⟩ := (isSome_joinClause?_iff linked).mp
      (Option.isSome_iff_exists.mpr ⟨clause, joined⟩)
    exact unreached relation reached
  cases found : schema.relation? name <;> simp [extentItems, found, apart]

/-- The items of a projection are exactly those that it names. -/
theorem mem_projectionItems (linked : schema.Linked) :
    item ∈ projectionItems schema projection ↔ Exposes schema projection item := by
  constructor
  · intro member
    rcases List.mem_append.mp member with member | member
    · obtain ⟨column, shown, rfl⟩ := List.mem_map.mp member
      obtain ⟨api, named, found⟩ := List.mem_filterMap.mp shown
      exact .own named found
    · obtain ⟨⟨name, extent⟩, named, member⟩ := List.mem_flatMap.mp member
      by_cases reached : ∃ relation, Reaches schema name relation
      · obtain ⟨relation, reached⟩ := reached
        rw [extentItems_of_reaches linked reached] at member
        cases extent with
        | whole =>
          obtain rfl := List.mem_singleton.mp member
          exact .whole named reached
        | part inner =>
          obtain ⟨column, shown, rfl⟩ := List.mem_map.mp member
          obtain ⟨api, below, found⟩ := List.mem_filterMap.mp shown
          exact .part named reached below found
      · rw [extentItems_of_unreached linked fun relation h => reached ⟨relation, h⟩] at member
        contradiction
  · intro exposed
    cases exposed with
    | own named found =>
      exact List.mem_append_left _ (List.mem_map_of_mem (List.mem_filterMap.mpr ⟨_, named, found⟩))
    | whole named reached =>
      refine List.mem_append_right _ (List.mem_flatMap.mpr ⟨_, named, ?_⟩)
      rw [extentItems_of_reaches linked reached]
      exact List.mem_singleton_self _
    | part named reached below found =>
      refine List.mem_append_right _ (List.mem_flatMap.mpr ⟨_, named, ?_⟩)
      rw [extentItems_of_reaches linked reached]
      exact List.mem_map_of_mem (List.mem_filterMap.mpr ⟨_, below, found⟩)

/-- Something of the projection can be reached: a column, or a relation with a join. -/
def IsReachable (schema : Schema) (projection : Projection) : Prop :=
  projection.columns ≠ [] ∨ ∃ name extent relation, (name, extent) ∈ projection.relations ∧
    Reaches schema name relation

/-- A projection that stays within the schema names an item as soon as it can be reached. -/
theorem exists_exposed (within : projection.Within (.entity schema))
    (reachable : IsReachable schema projection) : ∃ item, Exposes schema projection item := by
  rcases reachable with filled | ⟨name, extent, relation, named, reached⟩
  · obtain ⟨api, member⟩ := List.exists_mem_of_ne_nil _ filled
    obtain ⟨column, found⟩ := Option.isSome_iff_exists.mp (within.columns api member)
    exact ⟨_, .own member found⟩
  · cases extent with
    | whole => exact ⟨_, .whole named reached⟩
    | part inner =>
      obtain ⟨other, found, filled, names, _⟩ := within.relations _ named
      obtain rfl : other = relation := Option.some.inj (found.symm.trans reached.1)
      obtain ⟨api, member⟩ := List.exists_mem_of_ne_nil _ filled
      obtain ⟨column, found⟩ := Option.isSome_iff_exists.mp (names api member)
      exact ⟨_, .part named reached member found⟩

theorem Exposes.isReachable (exposed : Exposes schema projection item) :
    IsReachable schema projection := by
  cases exposed with
  | own named => exact .inl (List.ne_nil_of_mem named)
  | whole named reached => exact .inr ⟨_, _, _, named, reached⟩
  | part named reached => exact .inr ⟨_, _, _, named, reached⟩

theorem projectionItems_eq_nil_iff (linked : schema.Linked)
    (within : projection.Within (.entity schema)) :
    projectionItems schema projection = [] ↔ ¬ IsReachable schema projection := by
  rw [List.eq_nil_iff_forall_not_mem]
  constructor
  · intro empty reachable
    obtain ⟨item, exposed⟩ := exists_exposed within reachable
    exact empty item ((mem_projectionItems linked).mpr exposed)
  · intro unreachable item member
    exact unreachable ((mem_projectionItems linked).mp member).isReachable

theorem items_ofDescriptor (schema : Schema) {descriptor : Descriptor}
    (shown : descriptor.projection = some projection) :
    (ofDescriptor schema descriptor).items =
      if projectionItems schema projection ++ descriptor.counts.map .count ≠ [] then
        projectionItems schema projection ++ descriptor.counts.map .count
      else if (ofDescriptor schema descriptor).joins = [] then [.everything]
      else [.allOf schema.table] := by
  simp only [ofDescriptor, shown, Option.elim_some]

/-- An item comes from the projection, or is a count, or stands for all columns of the table. -/
theorem mem_items_cases (member : item ∈ (ofDescriptor schema descriptor).items) :
    (∃ projection ∈ descriptor.projection, item ∈ projectionItems schema projection) ∨
      (∃ count ∈ descriptor.counts, item = .count count) ∨
      item = .everything ∨ item = .allOf schema.table := by
  simp only [ofDescriptor] at member
  split at member
  · rcases List.mem_append.mp member with member | member
    · cases shown : descriptor.projection with
      | none => simp [shown] at member
      | some projection =>
        rw [shown] at member
        exact .inl ⟨projection, rfl, member⟩
    · obtain ⟨count, listed, rfl⟩ := List.mem_map.mp member
      exact .inr (.inl ⟨count, listed, rfl⟩)
  · split at member
    · exact .inr (.inr (.inl (List.mem_singleton.mp member)))
    · exact .inr (.inr (.inr (List.mem_singleton.mp member)))

theorem mem_items_of_mem_groups (member : item ∈ (ofDescriptor schema descriptor).groups) :
    item ∈ (ofDescriptor schema descriptor).items := by
  simp only [ofDescriptor] at member
  split at member
  · contradiction
  · have present := (List.mem_filter.mp member).1
    have filled := List.ne_nil_of_mem (List.mem_append_left (descriptor.counts.map .count) present)
    simp only [ofDescriptor, if_pos filled]
    exact List.mem_append_left _ present

/-- The text of a statement up to its joins. -/
def head (statement : Statement) : Text :=
  listClause "SELECT " (statement.items.map SelectItem.toSql) ++
    " FROM ".toList ++ statement.table ++
    statement.joins.flatMap fun clause => ' ' :: clause.toSql

/-- The text of a statement from its groups on. -/
def tail (statement : Statement) : Text :=
  listClause " GROUP BY " (statement.groups.map SelectItem.toSql) ++
    listClause " ORDER BY " (statement.order.map OrderTerm.toSql) ++
    optionalClause " LIMIT " (statement.limit.map Number.ofNat) ++
    optionalClause " OFFSET " (statement.offset.map Number.ofNat)

theorem toSql_eq (statement : Statement) : statement.toSql = statement.head ++
    (optionalClause " WHERE " (statement.condition.map Condition.toSql) ++ statement.tail) := by
  simp only [toSql, head, tail, List.append_assoc]

theorem head_isPrefix (statement : Statement) : statement.head <+: statement.toSql := by
  rw [toSql_eq]
  exact List.prefix_append _ _

end Statement

namespace Descriptor

open Statement

/-- The items of a statement are those that the projection names and the counts, as soon as
there is one of them. Where there is none, the statement shows all columns instead. -/
theorem mem_items_iff_exposed {projection : Projection}
    (built : Schema.build root declarations = .ok schema) (raw : Text)
    (shown : (ofQuery schema raw).result.projection = some projection) :
    let descriptor := (ofQuery schema raw).result
    let statement := ofDescriptor schema descriptor
    statement.head <+: descriptor.toSql schema ∧
    (IsReachable schema projection ∨ descriptor.counts ≠ [] → ∀ item, item ∈ statement.items ↔
      Exposes schema projection item ∨ ∃ count ∈ descriptor.counts, item = .count count) ∧
    (¬ (IsReachable schema projection ∨ descriptor.counts ≠ []) →
      statement.items = if statement.joins = [] then [.everything] else [.allOf schema.table]) := by
  intro descriptor statement
  have linked := Schema.linked_of_build built
  have within := within_compile (Schema.accepted_of_build built) (Params.parse raw)
  have empty := projectionItems_eq_nil_iff linked (within.projection projection shown).2
  have filled : projectionItems schema projection ++ descriptor.counts.map .count ≠ [] ↔
      IsReachable schema projection ∨ descriptor.counts ≠ [] := by
    rw [Ne, List.append_eq_nil_iff, empty, List.map_eq_nil_iff, Classical.not_and_iff_not_or_not,
      Classical.not_not]
  have listed := items_ofDescriptor schema shown
  refine ⟨head_isPrefix statement, ?_, ?_⟩
  · intro exposes item
    rw [if_pos (filled.mpr exposes)] at listed
    simp only [statement, descriptor, listed, List.mem_append, mem_projectionItems linked,
      List.mem_map, eq_comm]
  · intro hidden
    rw [if_neg fun exposes => hidden (filled.mp exposes)] at listed
    exact listed

theorem mem_items_subjects :
    Schema.build "subjects".toList Schema.subjectDeclarations = .ok .subjects ∧
      let raw := "select=name,department(title),department(x)&filter=department.title.eq(a)".toList
      let descriptor := (ofQuery .subjects raw).result
      let statement := ofDescriptor .subjects descriptor
      ∃ projection, descriptor.projection = some projection ∧
        statement.head <+: descriptor.toSql .subjects ∧
        (IsReachable .subjects projection ∨ descriptor.counts ≠ [] → ∀ item,
          item ∈ statement.items ↔ Exposes .subjects projection item ∨
            ∃ count ∈ descriptor.counts, item = .count count) ∧
        (¬ (IsReachable .subjects projection ∨ descriptor.counts ≠ []) →
          statement.items =
            if statement.joins = [] then [.everything] else [.allOf "subjects".toList]) := by
  refine ⟨Schema.build_subjects, ?_⟩
  intro raw descriptor statement
  have projects : descriptor.projection.isSome := by decide +kernel
  obtain ⟨projection, shown⟩ := Option.isSome_iff_exists.mp projects
  exact ⟨projection, shown, mem_items_iff_exposed Schema.build_subjects raw shown⟩

/-- An entity with a relation that has no join. -/
def unjoinedDeclarations : List Declaration := [
  .column "id".toList "id".toList, .column "name".toList "name".toList,
  .relation ((Relation.new "department".toList "departments".toList).addColumn
    "name".toList "name".toList)]

/-- A query for nothing but a relation that cannot be reached shows every column. -/
theorem everything_of_unreachable :
    ∃ schema, Schema.build "subjects".toList unjoinedDeclarations = .ok schema ∧
      let descriptor := (ofQuery schema "select=department(name)".toList).result
      (∃ projection, descriptor.projection = some projection) ∧
        .everything ∈ (ofDescriptor schema descriptor).items ∧
        descriptor.toSql schema = "SELECT * FROM subjects".toList := by
  refine ⟨_, rfl, ?_, ?_, ?_⟩
  · exact Option.isSome_iff_exists.mp (by decide +kernel)
  · decide +kernel
  · decide +kernel

end Descriptor
end RestQuery
