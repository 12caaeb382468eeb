import Mathlib.Data.List.Induction
import Mathlib.Data.List.Nodup
import Mathlib.Tactic.MkIffOfInductiveProp
import RestQuery.Proofs.Schema.Accepted

/-! Schemas by what is declared. Whether declarations build, and to what, is decided by the last one
of every kind and name, and for aggregates also by those before it. So the order of declarations
that differ in kind or name is of no account. -/
namespace RestQuery

namespace NameMap

theorem ofList_concat (entries : List (Text × α)) (entry : Text × α) :
    ofList (entries ++ [entry]) = (ofList entries).insert entry.1 entry.2 := by
  simp [ofList]

/-- By induction on the list from its end: the last entry of a name is the one that is found. -/
theorem get?_ofList_filterMap_iff {listed : δ → Option (Text × α)} {all : List δ} (own : δ → Bool)
    (each : ∀ one ∈ all, own one = true ↔ ∃ value, listed one = some (name, value)) :
    (ofList (all.filterMap listed)).get? name = some value ↔
      ∃ one, (all.filter own).getLast? = some one ∧ listed one = some (name, value) := by
  induction all using List.reverseRecOn with
  | nil => simp [ofList]
  | append_singleton all last ih =>
    have ih := ih fun one member => each one (List.mem_append_left _ member)
    have ends := each last (List.mem_append_right _ (List.mem_singleton_self last))
    rw [List.filterMap_append, List.filter_append]
    by_cases mine : own last = true
    · obtain ⟨found, made⟩ := ends.mp mine
      have entries : [last].filterMap listed = [(name, found)] := by simp [made]
      rw [entries, ofList_concat, get?_insert_self]
      simp [mine, made]
    · have kept : (ofList (all.filterMap listed ++ [last].filterMap listed)).get? name =
          (ofList (all.filterMap listed)).get? name := by
        cases made : listed last with
        | none => simp [made]
        | some entry =>
          obtain ⟨other, found⟩ := entry
          have apart : name ≠ other := by
            rintro rfl
            exact mine (ends.mpr ⟨found, made⟩)
          have entries : [last].filterMap listed = [(other, found)] := by simp [made]
          rw [entries, ofList_concat, get?_insert_of_ne _ apart]
      simp [kept, ih, mine]

end NameMap

namespace Declaration

inductive Kind where
  | column | relation | aggregate
  deriving DecidableEq, Repr

/-- What a declaration declares: of two for one place the later one stands. -/
def place : Declaration → Kind × Text
  | .column api _ => (.column, api)
  | .relation declared => (.relation, declared.name)
  | .aggregate label _ => (.aggregate, label)

/-- The declaration is the last one for its place. -/
def Stands (declarations : List Declaration) (declaration : Declaration) : Prop :=
  (declarations.filter (·.place = declaration.place)).getLast? = some declaration

variable {declarations : List Declaration} {declaration : Declaration}

theorem Stands.mem (stands : Stands declarations declaration) : declaration ∈ declarations :=
  (List.mem_filter.mp (List.mem_of_getLast? stands)).1

theorem exists_stands (member : declaration ∈ declarations) :
    ∃ last, last.place = declaration.place ∧ Stands declarations last := by
  have filled : declarations.filter (·.place = declaration.place) ≠ [] :=
    List.ne_nil_of_mem (List.mem_filter.mpr ⟨member, decide_eq_true rfl⟩)
  have found := List.getLast?_eq_some_getLast filled
  have last := List.mem_filter.mp (List.getLast_mem filled)
  have same : _ = declaration.place := of_decide_eq_true last.2
  refine ⟨_, same, ?_⟩
  rw [Stands, same]
  exact found

/-- Every declaration stands where no place is declared twice. -/
theorem stands_iff_mem (distinct : (declarations.map place).Nodup) :
    Stands declarations declaration ↔ declaration ∈ declarations := by
  refine ⟨Stands.mem, fun member => ?_⟩
  obtain ⟨last, same, stands⟩ := exists_stands member
  obtain rfl := List.inj_on_of_nodup_map distinct stands.mem member same
  exact stands

end Declaration

namespace Schema

open Declaration (Stands)

variable {declarations : List Declaration} {root : Text}

theorem get?_declaredColumns_iff : (declaredColumns root declarations).get? api = some column ↔
    ∃ sql, Stands declarations (.column api sql) ∧ column = ⟨root, sql⟩ := by
  rw [declaredColumns, NameMap.get?_ofList_filterMap_iff
    fun declaration => declaration.place = (.column, api)]
  · constructor
    · rintro ⟨declaration, last, made⟩
      cases declaration <;> simp at made
      obtain ⟨rfl, rfl⟩ := made
      exact ⟨_, last, rfl⟩
    · rintro ⟨sql, stands, rfl⟩
      exact ⟨_, stands, rfl⟩
  · intro declaration _
    cases declaration <;> simp [Declaration.place]

theorem get?_declaredRelations_iff : (declaredRelations declarations).get? name = some relation ↔
    relation.name = name ∧ Stands declarations (.relation relation) := by
  rw [declaredRelations, NameMap.get?_ofList_filterMap_iff
    fun declaration => declaration.place = (.relation, name)]
  · constructor
    · rintro ⟨declaration, last, made⟩
      cases declaration <;> simp at made
      obtain ⟨rfl, rfl⟩ := made
      exact ⟨rfl, last⟩
    · rintro ⟨rfl, stands⟩
      exact ⟨_, stands, rfl⟩
  · intro declaration _
    cases declaration <;> simp [Declaration.place]

theorem mem_declaredAggregates :
    (label, api) ∈ declaredAggregates declarations ↔ .aggregate label api ∈ declarations := by
  rw [declaredAggregates, List.mem_filterMap]
  constructor
  · rintro ⟨declaration, member, made⟩
    cases declaration <;> simp at made
    obtain ⟨rfl, rfl⟩ := made
    exact member
  · intro member
    exact ⟨_, member, rfl⟩

/-- Every declared aggregate counts a column that is declared, and every join that stands connects
a declared column with one of its relation. -/
@[mk_iff]
structure Resolves (declarations : List Declaration) : Prop where
  counted : ∀ label api, .aggregate label api ∈ declarations → ∃ sql, .column api sql ∈ declarations
  joined : ∀ relation join, Stands declarations (.relation relation) → relation.join = some join →
    (∃ sql, .column join.own sql ∈ declarations) ∧ (relation.column? join.foreign).isSome

/-- The schema holds what the last declarations for each place say, and nothing else. -/
@[mk_iff]
structure Follows (schema : Schema) (root : Text) (declarations : List Declaration) : Prop where
  table : schema.table = root
  columns : ∀ api column, schema.column? api = some column ↔
    ∃ sql, Stands declarations (.column api sql) ∧ column = ⟨root, sql⟩
  relations : ∀ name relation, schema.relation? name = some relation ↔
    relation.name = name ∧ Stands declarations (.relation relation)
  aggregates : ∀ label column, schema.aggregate? label = some column ↔
    ∃ api sql, Stands declarations (.aggregate label api) ∧
      Stands declarations (.column api sql) ∧ column = ⟨root, sql⟩

/-- A column has a name if some declaration gives it one, wherever that stands. -/
theorem contains_declaredColumns_iff (root : Text) :
    (declaredColumns root declarations).contains api = true ↔
      ∃ sql, .column api sql ∈ declarations := by
  rw [NameMap.contains, Option.isSome_iff_exists]
  constructor
  · rintro ⟨column, found⟩
    obtain ⟨sql, stands, _⟩ := get?_declaredColumns_iff.mp found
    exact ⟨sql, stands.mem⟩
  · rintro ⟨sql, member⟩
    obtain ⟨last, same, stands⟩ := Declaration.exists_stands member
    cases last <;> simp [Declaration.place] at same
    subst same
    exact ⟨_, get?_declaredColumns_iff.mpr ⟨_, stands, rfl⟩⟩

theorem aggregateFault?_eq_none_iff :
    aggregateFault? root (declaredColumns root declarations) (label, api) = none ↔
      ∃ sql, .column api sql ∈ declarations := by
  rw [← contains_declaredColumns_iff root]
  simp [aggregateFault?]

/-- What is looked for in vain where every name refers to something. -/
theorem fault_eq_none_iff (root : Text) :
    ((declaredAggregates declarations).findSome?
      (aggregateFault? root (declaredColumns root declarations))).or
    ((declaredRelations declarations).entries.findSome? fun (_, relation) =>
      joinFault? root (declaredColumns root declarations) relation) = none ↔
    Resolves declarations := by
  rw [Option.or_eq_none_iff, List.findSome?_eq_none_iff, List.findSome?_eq_none_iff]
  constructor
  · rintro ⟨counted, joined⟩
    constructor
    · intro label api member
      exact aggregateFault?_eq_none_iff.mp (counted _ (mem_declaredAggregates.mpr member))
    · intro relation join stands declares
      have found := get?_declaredRelations_iff.mpr ⟨rfl, stands⟩
      have faultless := joined _ ((NameMap.get?_eq_some_iff _).mp found)
      rw [← contains_declaredColumns_iff root]
      exact joinFault?_eq_none_iff.mp faultless join declares
  · rintro ⟨counted, joined⟩
    constructor
    · rintro ⟨label, api⟩ member
      exact aggregateFault?_eq_none_iff.mpr (counted label api (mem_declaredAggregates.mp member))
    · rintro ⟨name, relation⟩ member
      obtain ⟨_, stands⟩ := get?_declaredRelations_iff.mp ((NameMap.get?_eq_some_iff _).mpr member)
      apply joinFault?_eq_none_iff.mpr
      intro join declares
      rw [contains_declaredColumns_iff root]
      exact joined relation join stands declares

theorem build_eq_ok_iff : build root declarations = .ok schema ↔
    Resolves declarations ∧ schema = declared root declarations := by
  rw [← fault_eq_none_iff root]
  unfold build
  simp only
  split
  · next faulty => simp [faulty]
  · next faultless => simp [faultless, declared, eq_comm]

/-- Of several declarations of a label the last one says what is counted, if all of them count
something. -/
theorem aggregate?_declared_iff (resolves : Resolves declarations) :
    (declared root declarations).aggregate? label = some column ↔
      ∃ api, Stands declarations (.aggregate label api) ∧
        (declaredColumns root declarations).get? api = some column := by
  unfold declared aggregate? declaredAggregates
  rw [List.filterMap_filterMap, NameMap.get?_ofList_filterMap_iff
    fun declaration => declaration.place = (.aggregate, label)]
  · constructor
    · rintro ⟨declaration, last, made⟩
      cases declaration <;> simp at made
      obtain ⟨found, rfl⟩ := made
      exact ⟨_, last, found⟩
    · rintro ⟨api, stands, found⟩
      exact ⟨_, stands, by simp [found]⟩
  · intro declaration member
    cases declaration with
    | column => simp [Declaration.place]
    | relation => simp [Declaration.place]
    | aggregate other api =>
      obtain ⟨column, found⟩ := Option.isSome_iff_exists.mp
        ((contains_declaredColumns_iff root).mpr (resolves.counted other api member))
      simp [Declaration.place, found]

theorem follows_declared (resolves : Resolves declarations) :
    Follows (declared root declarations) root declarations where
  table := rfl
  columns _ _ := get?_declaredColumns_iff
  relations _ _ := get?_declaredRelations_iff
  aggregates label column := by
    simp only [aggregate?_declared_iff resolves, get?_declaredColumns_iff]
    constructor
    · rintro ⟨api, stands, sql, last, same⟩
      exact ⟨api, sql, stands, last, same⟩
    · rintro ⟨api, sql, stands, last, same⟩
      exact ⟨api, stands, sql, last, same⟩

/-- Only one schema follows declarations. -/
theorem Follows.unique {one two : Schema} (first : Follows one root declarations)
    (second : Follows two root declarations) : one = two := by
  have columns : one.columns = two.columns := NameMap.ext_get? fun api => Option.ext fun column =>
    (first.columns api column).trans (second.columns api column).symm
  have relations : one.relations = two.relations := NameMap.ext_get? fun name =>
    Option.ext fun relation =>
      (first.relations name relation).trans (second.relations name relation).symm
  have aggregates : one.aggregates = two.aggregates := NameMap.ext_get? fun label =>
    Option.ext fun column =>
      (first.aggregates label column).trans (second.aggregates label column).symm
  have table := first.table.trans second.table.symm
  cases one
  cases two
  simp_all

theorem build_eq_ok_iff_follows : build root declarations = .ok schema ↔
    Resolves declarations ∧ Follows schema root declarations := by
  rw [build_eq_ok_iff]
  constructor
  · rintro ⟨resolves, rfl⟩
    exact ⟨resolves, follows_declared resolves⟩
  · rintro ⟨resolves, follows⟩
    exact ⟨resolves, follows.unique (follows_declared resolves)⟩

/-- The declarations for each place are the same and in the same order. -/
def SamePlaces (one two : List Declaration) : Prop :=
  ∀ place, one.filter (·.place = place) = two.filter (·.place = place)

namespace SamePlaces

variable {one two : List Declaration} (same : SamePlaces one two)
include same

theorem stands_iff {declaration : Declaration} : Stands one declaration ↔ Stands two declaration := by
  rw [Stands, Stands, same]

theorem mem_iff {declaration : Declaration} : declaration ∈ one ↔ declaration ∈ two := by
  have placed (declarations : List Declaration) : declaration ∈ declarations ↔
      declaration ∈ declarations.filter (·.place = declaration.place) := by simp
  rw [placed one, placed two, same]

theorem build_iff : build root one = .ok schema ↔ build root two = .ok schema := by
  simp only [build_eq_ok_iff_follows, resolves_iff, follows_iff, same.mem_iff, same.stands_iff]

end SamePlaces

/-- Only places that something is declared for can differ. -/
theorem samePlaces_iff {one two : List Declaration} : SamePlaces one two ↔
    ∀ declaration ∈ one ++ two, one.filter (·.place = declaration.place) =
      two.filter (·.place = declaration.place) := by
  refine ⟨fun same declaration _ => same declaration.place, fun each place => ?_⟩
  by_cases placed : ∃ declaration ∈ one ++ two, declaration.place = place
  · obtain ⟨declaration, member, rfl⟩ := placed
    exact each declaration member
  · have empty (declarations : List Declaration) (part : declarations ⊆ one ++ two) :
        declarations.filter (·.place = place) = [] := by
      rw [List.filter_eq_nil_iff]
      intro declaration member same
      exact placed ⟨declaration, part member, of_decide_eq_true same⟩
    rw [empty one (List.subset_append_left _ _), empty two (List.subset_append_right _ _)]

instance (one two : List Declaration) : Decidable (SamePlaces one two) :=
  decidable_of_iff _ samePlaces_iff.symm

theorem exists_build_iff :
    (∃ schema, build root declarations = .ok schema) ↔ Resolves declarations := by
  constructor
  · rintro ⟨schema, built⟩
    exact (build_eq_ok_iff.mp built).1
  · intro resolves
    exact ⟨_, build_eq_ok_iff.mpr ⟨resolves, rfl⟩⟩

end Schema
end RestQuery
