import RestQuery.Descriptor
import RestQuery.Proofs.Json

/-! Descriptors that are told apart by their JSON. Absent members, relations shown whole, and
lists of one literal each leave a trace of their own, so that no two descriptors give the same
values, and without floats no two of them give the same text. -/
namespace RestQuery

/-! ### Members -/

namespace Json

theorem unlessEmpty_eq (name : String) (parts : List α) (value : Json) :
    unlessEmpty name parts value = optional name (if parts.isEmpty then none else some value) := by
  cases parts <;> rfl

theorem find?_append (name : Text) (members more : List (Text × Json)) :
    Entries.find? name (members ++ more) =
      (Entries.find? name members).or (Entries.find? name more) := by
  induction members with
  | nil => rfl
  | cons member members ih =>
    by_cases same : member.1 = name
    · simp [Entries.find?, same]
    · simp [Entries.find?, same, ih]

theorem find?_optional (name other : String) (value : Option Json) :
    Entries.find? other.toList (optional name value) = if name = other then value else none := by
  by_cases same : name = other
  · subst same
    cases value <;> simp [optional, Entries.find?]
  · have apart : name.toList ≠ other.toList := fun h => same (String.toList_injective h)
    cases value <;> simp [optional, Entries.find?, apart, same]

/-- A list that is left out when it is empty is told from every other by its value. -/
theorem listed_inj (value : List α → Json) {parts others : List α}
    (inj : value parts = value others → parts = others)
    (same : (if parts.isEmpty then none else some (value parts)) =
      if others.isEmpty then none else some (value others)) : parts = others := by
  cases parts with
  | nil =>
    cases others with
    | nil => rfl
    | cons => contradiction
  | cons part parts =>
    cases others with
    | nil => contradiction
    | cons other others => exact inj (Option.some.inj same)

theorem natural_inj {n m : Option Nat}
    (same : (n.map fun n => Json.int n) = m.map fun n => Json.int n) : n = m := by
  cases n with
  | none => cases m with
    | none => rfl
    | some => contradiction
  | some n => cases m with
    | none => contradiction
    | some m => exact congrArg some (Int.ofNat_inj.mp (Json.int.inj (Option.some.inj same)))

/-- By induction on the first list, whose elements are told apart by what is written of them. -/
theorem map_inj_of_mem {write : α → Json} {parts others : List α}
    (inj : ∀ part ∈ parts, ∀ other, write part = write other → part = other)
    (same : parts.map write = others.map write) : parts = others := by
  induction parts generalizing others with
  | nil => exact (List.map_eq_nil_iff.mp same.symm).symm
  | cons part parts ih =>
    cases others with
    | nil => contradiction
    | cons other others =>
      obtain ⟨first, rest⟩ := List.cons.inj same
      rw [inj part (by simp) other first,
        ih (fun part member => inj part (List.mem_cons_of_mem _ member)) rest]

end Json

/-! ### Conditions -/

theorem Literal.toJson_inj (a b : Literal) (same : a.toJson = b.toJson) : a = b := by
  cases a <;> cases b <;> simp_all [toJson]

/-- No literal is written as a list. -/
theorem Operand.toJson_inj {a b : Operand} (same : a.toJson = b.toJson) : a = b := by
  cases a with
  | single literal =>
    cases b with
    | single other => rw [Literal.toJson_inj _ _ same]
    | list others => cases literal <;> contradiction
  | list literals =>
    cases b with
    | single other => cases other <;> contradiction
    | list others =>
      rw [Json.map_inj_of_mem (fun literal _ => literal.toJson_inj) (Json.array.inj same)]

theorem Column.toJson_inj {a b : Column} (same : a.toJson = b.toJson) : a = b := by
  cases a
  cases b
  simpa [toJson] using same

theorem Operator.name_inj {a b : Operator} (same : a.name = b.name) : a = b := by
  have read := congrArg ofName? same
  rwa [ofName?_name, ofName?_name, Option.some.injEq] at read

theorem Connective.name_inj {a b : Connective} (same : a.name = b.name) : a = b := by
  have read := congrArg ofName? same
  rwa [ofName?_name, ofName?_name, Option.some.injEq] at read

namespace Condition

theorem allToJson_eq (children : List Condition) : allToJson children = children.map toJson := by
  induction children with
  | nil => rfl
  | cons child children ih => rw [allToJson, ih, List.map_cons]

/-- By induction on the first tree: the kind comes first, and tells a comparison from a
combinator. -/
theorem toJson_inj {a b : Condition} (same : a.toJson = b.toJson) : a = b := by
  induction a using induct generalizing b with
  | comparison column operator operand =>
    cases b with
    | comparison =>
      simp only [toJson, Json.object.injEq, List.cons.injEq, Prod.mk.injEq, Json.string.injEq,
        true_and, and_true] at same
      rw [Column.toJson_inj same.1, Operator.name_inj same.2.1, Operand.toJson_inj same.2.2]
    | logical => simp [toJson] at same
  | logical connective children ih =>
    cases b with
    | comparison => simp [toJson] at same
    | logical other others =>
      simp only [toJson, allToJson_eq, Json.object.injEq, List.cons.injEq, Prod.mk.injEq,
        Json.string.injEq, Json.array.injEq, true_and, and_true] at same
      rw [Connective.name_inj same.1,
        Json.map_inj_of_mem (fun child member _ => ih child member) same.2]

end Condition

/-! ### Projections -/

namespace Projection

theorem columnsToJson_inj {columns others : List Text}
    (same : columnsToJson columns = columnsToJson others) : columns = others :=
  Json.map_inj_of_mem (fun _ _ _ => Json.string.inj) (Json.array.inj same)

mutual

theorem extentToJson_inj : ∀ {a b : Extent}, extentToJson a = extentToJson b → a = b
  | .whole, .whole, _ => rfl
  | .whole, .part (node _ _), same => by simp [extentToJson] at same
  | .part (node _ _), .whole, same => by simp [extentToJson] at same
  | .part (node columns relations), .part (node others more), same => by
    simp only [extentToJson, Json.object.injEq, List.cons.injEq, Prod.mk.injEq, true_and,
      Json.unlessEmpty_eq] at same
    have below := congrArg (Entries.find? "relations".toList) same.2
    rw [Json.find?_optional, Json.find?_optional, if_pos rfl, if_pos rfl] at below
    have inner := Json.listed_inj (fun relations => .object (relationsToJson relations))
      (fun same => relationsToJson_inj (Json.object.inj same)) below
    rw [columnsToJson_inj same.1, inner]

theorem relationsToJson_inj : ∀ {a b : List (Text × Extent)},
    relationsToJson a = relationsToJson b → a = b
  | [], [], _ => rfl
  | [], (_, _) :: _, same => by simp [relationsToJson] at same
  | (_, _) :: _, [], same => by simp [relationsToJson] at same
  | (name, extent) :: rest, (other, shown) :: more, same => by
    simp only [relationsToJson, List.cons.injEq, Prod.mk.injEq] at same
    rw [same.1.1, extentToJson_inj same.1.2, relationsToJson_inj same.2]

end

theorem toJson_inj {a b : Projection} (same : a.toJson = b.toJson) : a = b := by
  obtain ⟨columns, relations⟩ := a
  obtain ⟨others, more⟩ := b
  simp only [toJson, Json.unlessEmpty_eq, Json.object.injEq] at same
  have field (name : String) := congrArg (Entries.find? name.toList) same
  simp only [Json.find?_append, Json.find?_optional] at field
  have shown := field "columns"
  have below := field "relations"
  simp only [String.reduceEq, if_true, if_false, Option.or_none, Option.none_or] at shown below
  have outer : columns = others := Json.listed_inj columnsToJson columnsToJson_inj shown
  have inner : relations = more :=
    Json.listed_inj (fun relations => .object (relationsToJson relations))
      (fun same => relationsToJson_inj (Json.object.inj same)) below
  rw [outer, inner]

end Projection

/-! ### Descriptors -/

theorem Direction.name_inj {a b : Direction} (same : a.name = b.name) : a = b := by
  cases a <;> cases b <;> first | rfl | exact absurd same (by decide)

theorem OrderTerm.toJson_inj {a b : OrderTerm} (same : a.toJson = b.toJson) : a = b := by
  obtain ⟨column, direction⟩ := a
  obtain ⟨other, turned⟩ := b
  simp only [toJson, Json.object.injEq, List.cons.injEq, Prod.mk.injEq, Json.string.injEq, true_and,
    and_true] at same
  rw [Column.toJson_inj same.1, Direction.name_inj same.2]

theorem Count.toJson_inj {a b : Count} (same : a.toJson = b.toJson) : a = b := by
  obtain ⟨label, column⟩ := a
  obtain ⟨other, counted⟩ := b
  simp only [toJson, Json.object.injEq, List.cons.injEq, Prod.mk.injEq, Json.string.injEq, true_and,
    and_true] at same
  rw [same.1, Column.toJson_inj same.2]

namespace Descriptor

theorem toJson_inj {a b : Descriptor} (same : a.toJson = b.toJson) : a = b := by
  obtain ⟨projection, condition, order, limit, offset, counts⟩ := a
  obtain ⟨projection', condition', order', limit', offset', counts'⟩ := b
  simp only [toJson, Json.unlessEmpty_eq, Json.object.injEq] at same
  have field (name : String) := congrArg (Entries.find? name.toList) same
  simp only [Json.find?_append, Json.find?_optional] at field
  have select := field "select"
  have filter := field "filter"
  have sort := field "sort"
  have limited := field "limit"
  have skipped := field "offset"
  have counted := field "aggregates"
  simp only [String.reduceEq, if_true, if_false, Option.or_none, Option.none_or]
    at select filter sort limited skipped counted
  have terms : order = order' := Json.listed_inj (fun order => .array (order.map OrderTerm.toJson))
    (fun same => Json.map_inj_of_mem (fun _ _ _ => OrderTerm.toJson_inj) (Json.array.inj same)) sort
  have labels : counts = counts' := Json.listed_inj (fun counts => .array (counts.map Count.toJson))
    (fun same => Json.map_inj_of_mem (fun _ _ _ => Count.toJson_inj) (Json.array.inj same)) counted
  rw [(Option.map_inj_right fun _ _ => Projection.toJson_inj).mp select,
    (Option.map_inj_right fun _ _ => Condition.toJson_inj).mp filter, terms,
    Json.natural_inj limited, Json.natural_inj skipped, labels]

end Descriptor

/-! ### Without floats

Floats alone may be written alike: a value that is not finite is null. -/

/-- No literal of a comparison is a float. -/
inductive Condition.FloatFree : Condition → Prop
  | comparison {operand : Operand} :
      (∀ literal ∈ operand.literals, ∀ value, literal ≠ .float value) →
      FloatFree (comparison column operator operand)
  | logical : (∀ child ∈ children, FloatFree child) → FloatFree (logical connective children)

def Descriptor.FloatFree (descriptor : Descriptor) : Prop :=
  ∀ condition ∈ descriptor.condition, condition.FloatFree

namespace Json

theorem floatFree_optional {value : Option Json} (free : ∀ json ∈ value, json.FloatFree) :
    ∀ member ∈ optional name value, member.2.FloatFree := by
  intro member shown
  obtain ⟨json, present, rfl⟩ := List.mem_map.mp shown
  exact free json (Option.mem_toList.mp present)

theorem floatFree_unlessEmpty {value : Json} (free : value.FloatFree) :
    ∀ member ∈ unlessEmpty name parts value, member.2.FloatFree := by
  rw [unlessEmpty_eq]
  apply floatFree_optional
  intro json shown
  split at shown
  · contradiction
  · exact Option.some.inj shown ▸ free

theorem floatFree_map {write : α → Json} {parts : List α}
    (free : ∀ part ∈ parts, (write part).FloatFree) : (array (parts.map write)).FloatFree := by
  refine .array fun json written => ?_
  obtain ⟨part, member, rfl⟩ := List.mem_map.mp written
  exact free part member

end Json

theorem Literal.floatFree_toJson {literal : Literal} (other : ∀ value, literal ≠ .float value) :
    literal.toJson.FloatFree := by
  cases literal with
  | null => exact .null
  | bool value => exact .bool value
  | int value => exact .int value
  | float value => exact absurd rfl (other value)
  | string value => exact .string value

theorem Operand.floatFree_toJson {operand : Operand}
    (free : ∀ literal ∈ operand.literals, ∀ value, literal ≠ .float value) :
    operand.toJson.FloatFree := by
  cases operand with
  | single literal => exact Literal.floatFree_toJson (free literal (by simp [literals]))
  | list literals =>
    exact Json.floatFree_map fun literal member => Literal.floatFree_toJson (free literal member)

theorem Column.floatFree_toJson (column : Column) : column.toJson.FloatFree := by
  refine .object ?_
  simp [Json.FloatFree.string]

theorem Condition.FloatFree.toJson {condition : Condition} (free : condition.FloatFree) :
    condition.toJson.FloatFree := by
  induction free with
  | comparison free =>
    refine .object ?_
    simp [Json.FloatFree.string, Column.floatFree_toJson, Operand.floatFree_toJson free]
  | logical _ ih =>
    refine .object ?_
    simp only [List.forall_mem_cons]
    exact ⟨.string _, .string _, allToJson_eq _ ▸ Json.floatFree_map ih, by simp⟩

namespace Projection

theorem floatFree_columnsToJson (columns : List Text) : (columnsToJson columns).FloatFree :=
  Json.floatFree_map fun column _ => .string column

mutual

theorem floatFree_extentToJson : ∀ extent, (extentToJson extent).FloatFree
  | .whole => .bool true
  | .part (node columns relations) => by
    refine .object (List.forall_mem_cons.mpr ⟨floatFree_columnsToJson columns, ?_⟩)
    exact Json.floatFree_unlessEmpty (.object (floatFree_relationsToJson relations))

theorem floatFree_relationsToJson : ∀ relations : List (Text × Extent),
    ∀ member ∈ relationsToJson relations, member.2.FloatFree
  | [] => by simp [relationsToJson]
  | (_, extent) :: rest =>
    List.forall_mem_cons.mpr ⟨floatFree_extentToJson extent, floatFree_relationsToJson rest⟩

end

theorem floatFree_toJson (projection : Projection) : projection.toJson.FloatFree :=
  .object (List.forall_mem_append.mpr
    ⟨Json.floatFree_unlessEmpty (floatFree_columnsToJson _),
      Json.floatFree_unlessEmpty (.object (floatFree_relationsToJson _))⟩)

end Projection

theorem OrderTerm.floatFree_toJson (term : OrderTerm) : term.toJson.FloatFree := by
  refine .object ?_
  simp [Json.FloatFree.string, Column.floatFree_toJson]

theorem Count.floatFree_toJson (count : Count) : count.toJson.FloatFree := by
  refine .object ?_
  simp [Json.FloatFree.string, Column.floatFree_toJson]

namespace Descriptor

/-- A condition is all that may bring a float into a descriptor. -/
theorem FloatFree.toJson {descriptor : Descriptor} (free : descriptor.FloatFree) :
    descriptor.toJson.FloatFree := by
  refine .object ?_
  simp only [List.forall_mem_append]
  refine ⟨⟨⟨⟨⟨Json.floatFree_optional ?_, Json.floatFree_optional ?_⟩,
    Json.floatFree_unlessEmpty (Json.floatFree_map fun term _ => term.floatFree_toJson)⟩,
    Json.floatFree_optional ?_⟩, Json.floatFree_optional ?_⟩,
    Json.floatFree_unlessEmpty (Json.floatFree_map fun count _ => count.floatFree_toJson)⟩
  · intro json shown
    obtain ⟨projection, _, rfl⟩ := Option.map_eq_some_iff.mp shown
    exact projection.floatFree_toJson
  · intro json shown
    obtain ⟨condition, present, rfl⟩ := Option.map_eq_some_iff.mp shown
    exact (free condition present).toJson
  · intro json shown
    obtain ⟨limit, _, rfl⟩ := Option.map_eq_some_iff.mp shown
    exact .int limit
  · intro json shown
    obtain ⟨offset, _, rfl⟩ := Option.map_eq_some_iff.mp shown
    exact .int offset

/-- The text says all that a descriptor does, if no literal is a float. -/
theorem compact_toJson_eq_iff {a b : Descriptor} (first : a.FloatFree) (second : b.FloatFree) :
    a.toJson.compact = b.toJson.compact ↔ a = b := by
  constructor
  · intro same
    exact toJson_inj (first.toJson.compact_inj second.toJson same)
  · intro same
    rw [same]

/-- A comparison with a list of one text is not the comparison with that text. -/
theorem compact_toJson_ne_ofList :
    let text : Literal := .string "a\"\\\x0cé".toList
    let ofOperand (operand : Operand) : Descriptor :=
      { empty with condition := some (.comparison ⟨"subjects".toList, "name".toList⟩ .eq operand) }
    let single := ofOperand (.single text)
    let list := ofOperand (.list [text])
    single.FloatFree ∧ list.FloatFree ∧ single.toJson.compact ≠ list.toJson.compact := by
  intro text ofOperand single list
  have free (operand : Operand) (only : operand.literals = [text]) :
      (ofOperand operand).FloatFree := by
    intro condition present
    obtain rfl := Option.some.inj present
    refine .comparison fun literal member value => ?_
    rw [only] at member
    obtain rfl := List.mem_singleton.mp member
    exact Literal.noConfusion
  refine ⟨free _ rfl, free _ rfl, fun same => ?_⟩
  have equal := (compact_toJson_eq_iff (free _ rfl) (free _ rfl)).mp same
  simp [ofOperand, empty] at equal

end Descriptor
end RestQuery
