import RestQuery.Projection
import RestQuery.Proofs.Schema.Accepted

/-! Projections that stay within a scope. Merging keeps them there, and whatever a select
list says, its compilation is one of them. -/
namespace RestQuery

/-- All of the relation, or at least one of its columns and nothing below it. -/
def Extent.Within (relation : Relation) : Extent → Prop
  | .whole => True
  | .part projection =>
    projection.columns ≠ [] ∧ (∀ api ∈ projection.columns, (relation.column? api).isSome) ∧
      projection.relations = []

namespace Projection

/-- Every name stands for something the scope has. -/
structure Within (scope : Scope) (projection : Projection) : Prop where
  columns : ∀ api ∈ projection.columns, (scope.column? api).isSome
  relations : ∀ entry ∈ projection.relations,
    ∃ relation, scope.relation? entry.1 = some relation ∧ entry.2.Within relation

theorem within_empty (scope : Scope) : Within scope empty :=
  ⟨by simp [empty, columns], by simp [empty, relations]⟩

theorem within_ofColumn (present : (scope.column? api).isSome) : Within scope (ofColumn api) :=
  ⟨by simpa [ofColumn, columns] using present, by simp [ofColumn, relations]⟩

theorem within_ofRelation (present : scope.relation? name = some relation)
    (valid : extent.Within relation) : Within scope (ofRelation name extent) :=
  ⟨by simp [ofRelation, columns], by simpa [ofRelation, relations, present] using valid⟩

/-- Below a relation there are no relations to name. -/
theorem Within.no_relations (valid : Within (.relation relation) projection) :
    projection.relations = [] := by
  apply List.eq_nil_iff_forall_not_mem.mpr
  intro entry member
  obtain ⟨_, found, _⟩ := valid.relations entry member
  simp [Scope.relation?] at found

theorem within_ofProjection (valid : Within (.relation relation) projection) :
    (Extent.ofProjection projection).Within relation := by
  unfold Extent.ofProjection
  split
  · trivial
  · next nonempty =>
    have bare := valid.no_relations
    refine ⟨?_, valid.columns, bare⟩
    intro columnless
    exact nonempty (by simp [isEmpty, columnless, bare])

theorem within_addColumns (valid : Within scope projection)
    (present : ∀ api ∈ names, (scope.column? api).isSome) :
    Within scope (projection.addColumns names) := by
  refine ⟨?_, valid.relations⟩
  intro api member
  rcases Names.mem_union.mp member with old | new
  · exact valid.columns api old
  · exact present api new

/-- Two parts of a relation merge into a part with the columns of both. -/
theorem within_mergeExtent (valid : extent.Within relation)
    (before : ∀ old ∈ present, Extent.Within relation old) :
    (mergeExtent extent present).Within relation := by
  cases extent with
  | whole => simp [mergeExtent, Extent.Within]
  | part more =>
    cases present with
    | none => simpa [mergeExtent] using valid
    | some old =>
      have kept := before old rfl
      cases old with
      | whole => simp [mergeExtent, Extent.Within]
      | part projection =>
        obtain ⟨columns, relations⟩ := more
        obtain ⟨filled, names, bare⟩ := kept
        obtain ⟨_, added, rfl⟩ : columns ≠ [] ∧ _ ∧ relations = [] := valid
        simp only [mergeExtent, merge, mergeRelations]
        refine ⟨?_, ?_, bare⟩
        · obtain ⟨first, member⟩ := List.exists_mem_of_ne_nil _ filled
          exact List.ne_nil_of_mem (Names.mem_union.mpr (.inl member))
        · intro api member
          rcases Names.mem_union.mp member with old | new
          · exact names api old
          · exact added api new

theorem within_mergeRelation (valid : Within scope projection)
    (present : scope.relation? name = some relation) (more : extent.Within relation) :
    Within scope (projection.mergeRelation name extent) := by
  refine ⟨valid.columns, ?_⟩
  intro entry member
  rcases Entries.mem_alter member with kept | ⟨old, rfl, before⟩
  · exact valid.relations entry kept
  · refine ⟨relation, present, within_mergeExtent more ?_⟩
    intro extent found
    obtain ⟨other, same, within⟩ := valid.relations _ (before extent found)
    obtain rfl := Option.some.inj (present.symm.trans same)
    exact within

theorem within_mergeRelations {entries : List (Text × Extent)} (valid : Within scope projection)
    (more : ∀ entry ∈ entries,
      ∃ relation, scope.relation? entry.1 = some relation ∧ entry.2.Within relation) :
    Within scope (mergeRelations projection entries) := by
  induction entries generalizing projection with
  | nil => simpa [mergeRelations] using valid
  | cons head rest ih =>
    obtain ⟨relation, present, named⟩ := more head (by simp)
    rw [mergeRelations]
    exact ih (within_mergeRelation valid present named)
      fun entry member => more entry (List.mem_cons_of_mem _ member)

theorem within_merge (first : Within scope projection) (second : Within scope more) :
    Within scope (merge projection more) := by
  obtain ⟨columns, relations⟩ := more
  rw [merge]
  exact within_mergeRelations (within_addColumns first second.columns) second.relations

theorem within_mergeAll {projections : List Projection}
    (each : ∀ projection ∈ projections, Within scope projection) :
    Within scope (mergeAll projections) :=
  List.foldlRecOn projections merge (within_empty scope)
    fun _ merged projection member => within_merge merged (each projection member)

/-! Every branch of the compiler looks a name up before it uses it. -/

variable {scope : Scope} {below : Relation → Text → Report Projection}

theorem within_ofCall
    (nested : ∀ relation text, Within (.relation relation) (below relation text).result)
    (made : (ofCall scope below item call).result = some projection) :
    Within scope projection := by
  unfold ofCall at made
  split at made
  · next name _ =>
    cases present : scope.relation? name with
    | none => simp [present] at made
    | some relation =>
      simp only [present] at made
      split at made
      · obtain rfl := Option.some.inj made
        exact within_ofRelation present trivial
      · obtain rfl := Option.some.inj made
        exact within_ofRelation present (within_ofProjection (nested relation call.args))
  · simp at made

theorem within_ofPath (made : ofPath scope path = .ok projection) : Within scope projection := by
  unfold ofPath at made
  split at made
  · next name =>
    split at made
    · next present =>
      obtain rfl := Except.ok.inj made
      exact within_ofColumn present
    · contradiction
  · next name column =>
    cases present : scope.relation? name with
    | none => simp [present] at made
    | some relation =>
      simp only [present] at made
      split at made
      · next named =>
        obtain rfl := Except.ok.inj made
        refine within_ofRelation present ⟨by simp [ofColumn, columns], ?_, rfl⟩
        simpa [ofColumn, columns] using named
      · contradiction
  · contradiction

theorem within_ofItem
    (nested : ∀ relation text, Within (.relation relation) (below relation text).result)
    (made : (ofItem scope below item).result = some projection) : Within scope projection := by
  unfold ofItem at made
  split at made
  · exact within_ofCall nested made
  · split at made
    · exact within_ofPath (Report.result_ofExcept.mp made)
    · simp at made

theorem within_ofItems
    (nested : ∀ relation text, Within (.relation relation) (below relation text).result)
    (text : Text) : Within scope (ofItems scope below text).result := by
  simp only [ofItems, Report.result_map]
  apply within_mergeAll
  intro projection member
  obtain ⟨report, made, result⟩ := Report.mem_present.mp member
  obtain ⟨item, _, rfl⟩ := List.mem_map.mp made
  exact within_ofItem nested result

theorem within_compileRelation (relation : Relation) (text : Text) :
    Within (.relation relation) (compileRelation relation text).result :=
  within_ofItems (fun relation _ => within_empty (.relation relation)) text

theorem within_compile (schema : Schema) (text : Text) :
    Within (.entity schema) (compile schema text).result :=
  within_ofItems within_compileRelation text

theorem within_fragments (schema : Schema) (fragments : List Text) :
    Within (.entity schema) (mergeAll (Report.all (fragments.map (compile schema))).result) := by
  refine within_mergeAll fun projection member => ?_
  obtain ⟨report, compiled, rfl⟩ := Report.mem_all.mp member
  obtain ⟨fragment, _, rfl⟩ := List.mem_map.mp compiled
  exact within_compile schema fragment

end Projection
end RestQuery
