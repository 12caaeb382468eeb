import RestQuery.Names
import RestQuery.Rejection
import RestQuery.Schema.Basic
import RestQuery.Token

/-! Projections: which columns of an entity a query shows, and how much of each related
entity. Columns and relations are kept in ascending order of their names. -/
namespace RestQuery

mutual

inductive Projection where
  | node (columns : List Text) (relations : List (Text × Extent))
  deriving Repr

/-- How much of a relation is shown: all of it, or what a projection of it names. -/
inductive Extent where
  | whole
  | part (projection : Projection)
  deriving Repr

end

-- The lists inside need a procedure of their own.
mutual

def decideProjection : (first second : Projection) → Decidable (first = second)
  | .node columns relations, .node others more =>
    have := decideRelations relations more
    decidable_of_iff (columns = others ∧ relations = more) (by simp)

def decideRelations : (first second : List (Text × Extent)) → Decidable (first = second)
  | [], [] => isTrue rfl
  | [], _ :: _ | _ :: _, [] => isFalse (by simp)
  | (name, extent) :: rest, (other, more) :: others =>
    have := decideExtent extent more
    have := decideRelations rest others
    decidable_of_iff (name = other ∧ extent = more ∧ rest = others) (by simp [and_assoc])

def decideExtent : (first second : Extent) → Decidable (first = second)
  | .whole, .whole => isTrue rfl
  | .whole, .part _ | .part _, .whole => isFalse (by simp)
  | .part projection, .part other =>
    have := decideProjection projection other
    decidable_of_iff (projection = other) (by simp)

end

instance : DecidableEq Projection := decideProjection

namespace Projection

def columns : Projection → List Text
  | node columns _ => columns

def relations : Projection → List (Text × Extent)
  | node _ relations => relations

def empty : Projection := node [] []

def isEmpty (projection : Projection) : Bool :=
  projection.columns.isEmpty && projection.relations.isEmpty

def ofColumn (name : Text) : Projection := node [name] []

def ofRelation (name : Text) (extent : Extent) : Projection := node [] [(name, extent)]

def ofColumns (names : List Text) : Projection := node (Names.union [] names) []

def alterRelation (projection : Projection) (name : Text) (change : Option Extent → Extent) :
    Projection :=
  node projection.columns (Entries.alter name change projection.relations)

def addColumns (projection : Projection) (names : List Text) : Projection :=
  node (Names.union projection.columns names) projection.relations

mutual

def merge (projection : Projection) : Projection → Projection
  | node columns relations => mergeRelations (projection.addColumns columns) relations

def mergeRelations (projection : Projection) : List (Text × Extent) → Projection
  | [] => projection
  | (name, extent) :: rest =>
    mergeRelations (projection.alterRelation name (mergeExtent extent)) rest

/-- An extent merged into the one that is there. The whole of a relation absorbs its parts. -/
def mergeExtent : Extent → Option Extent → Extent
  | .whole, _ => .whole
  | .part more, none => .part more
  | .part _, some .whole => .whole
  | .part more, some (.part projection) => .part (merge projection more)

end

def mergeRelation (projection : Projection) (name : Text) (extent : Extent) : Projection :=
  projection.alterRelation name (mergeExtent extent)

def mergeAll (projections : List Projection) : Projection := projections.foldl merge empty

mutual

/-- Names are in ascending order at every level. -/
def Ordered : Projection → Prop
  | node columns relations =>
    Names.Ascending columns ∧ Entries.Ascending relations ∧ OrderedRelations relations

def OrderedRelations : List (Text × Extent) → Prop
  | [] => True
  | (_, extent) :: rest => OrderedExtent extent ∧ OrderedRelations rest

def OrderedExtent : Extent → Prop
  | .whole => True
  | .part projection => Ordered projection

end

theorem ordered_empty : Ordered empty := by
  simp [empty, Ordered, OrderedRelations, Names.Ascending, Entries.Ascending]

theorem orderedRelations_alter {entries : List (Text × Extent)} (h : OrderedRelations entries)
    (changed : ∀ extent, (∀ old, extent = some old → OrderedExtent old) →
      OrderedExtent (change extent)) :
    OrderedRelations (Entries.alter name change entries) := by
  induction entries with
  | nil => exact ⟨changed none (by simp), trivial⟩
  | cons head rest ih =>
    obtain ⟨other, extent⟩ := head
    rw [Entries.alter]
    split
    · exact ⟨changed none (by simp), h⟩
    · split
      · exact ⟨changed (some extent) (by simpa using h.1), h.2⟩
      · exact ⟨h.1, ih h.2⟩

mutual

/-- Merging keeps the names in order. -/
theorem ordered_merge {projection : Projection} (first : Ordered projection) :
    ∀ {more : Projection}, Ordered more → Ordered (merge projection more)
  | node columns relations, second => by
    rw [merge]
    refine ordered_mergeRelations ?_ second.2.2
    cases projection
    exact ⟨Names.ascending_union first.1, first.2⟩

theorem ordered_mergeRelations {projection : Projection} (first : Ordered projection) :
    ∀ {entries : List (Text × Extent)}, OrderedRelations entries →
      Ordered (mergeRelations projection entries)
  | [], _ => by rwa [mergeRelations]
  | (name, extent) :: rest, second => by
    rw [mergeRelations]
    refine ordered_mergeRelations ?_ second.2
    cases projection
    exact ⟨first.1, Entries.ascending_alter first.2.1,
      orderedRelations_alter first.2.2 fun _ old => ordered_mergeExtent second.1 old⟩

theorem ordered_mergeExtent : ∀ {extent : Extent}, OrderedExtent extent →
    ∀ {old : Option Extent}, (∀ e, old = some e → OrderedExtent e) →
      OrderedExtent (mergeExtent extent old)
  | .whole, _, _, _ => by simp [mergeExtent, OrderedExtent]
  | .part more, h, none, _ => by simpa [mergeExtent] using h
  | .part _, _, some .whole, _ => by simp [mergeExtent, OrderedExtent]
  | .part _, h, some (.part projection), old => by
    rw [mergeExtent]
    exact ordered_merge (old (.part projection) rfl) h

end

end Projection

namespace Extent

/-- A projection of a relation that names nothing shows the whole relation. -/
def ofProjection (projection : Projection) : Extent :=
  if projection.isEmpty then whole else part projection

def merge (first second : Extent) : Extent := Projection.mergeExtent second (some first)

end Extent
end RestQuery

/-! Projections compiled from select lists. An item is a column, `relation.column`,
`relation(*)` or `relation(list)`, where the list names columns of the relation. -/
namespace RestQuery.Projection

open Token

/-- The projection of a relation's arguments: the whole relation for a star, else what the
list names. -/
def ofCall (scope : Scope) (below : Relation → Text → Report Projection) (item : Text)
    (call : Call) : Report (Option Projection) :=
  match call.path with
  | [name] =>
    match scope.relation? name with
    | none => ⟨none, [.unknown name]⟩
    | some relation =>
      if call.args.trim = ['*'] then .accept (some (ofRelation name .whole))
      else (below relation call.args).map fun named => some (ofRelation name (.ofProjection named))
  | _ => ⟨none, [.unknown item]⟩

def ofPath (scope : Scope) (path : Path) : Except Rejection Projection :=
  match path with
  | [name] => if (scope.column? name).isSome then .ok (ofColumn name) else .error (.unknown name)
  | [name, column] =>
    match scope.relation? name with
    | none => .error (.unknown name)
    | some relation =>
      if (relation.column? column).isSome then .ok (ofRelation name (.part (ofColumn column)))
      else .error (.unknown path.toText)
  | _ => .error (.unknown path.toText)

def ofItem (scope : Scope) (below : Relation → Text → Report Projection) (item : Text) :
    Report (Option Projection) :=
  match Call.read? item with
  | some call => ofCall scope below item call
  | none =>
    match Path.read? item with
    | some path => .ofExcept (ofPath scope path)
    | none => ⟨none, [.malformed item]⟩

def ofItems (scope : Scope) (below : Relation → Text → Report Projection) (text : Text) :
    Report Projection :=
  (Report.present ((items text).map (ofItem scope below))).map mergeAll

/-- Relations are one level deep: below a relation no list is looked into. -/
def compileRelation (relation : Relation) (text : Text) : Report Projection :=
  ofItems (.relation relation) (fun _ _ => .accept empty) text

def compile (schema : Schema) (text : Text) : Report Projection :=
  ofItems (.entity schema) compileRelation text

end RestQuery.Projection
