import RestQuery.Descriptor
import RestQuery.Filter
import RestQuery.Proofs.Filter.Condition
import RestQuery.Proofs.Projection.Within
import RestQuery.Proofs.Schema.Accepted

/-! Conditions that stay within a schema: they compare columns that it has with literals
that the operator takes. Whatever a filter says, its compilation is one of them. -/
namespace RestQuery

def Literal.IsFinite : Literal → Prop
  | .float value => value.isFinite = true
  | _ => True

theorem Literal.isFinite_ofToken (token : Text) : (ofToken token).IsFinite := by
  unfold ofToken ofTrimmed
  generalize token.trim = token
  rcases keyword : keyword? token with _ | literal
  · rcases integer : ofInteger? token with _ | literal
    · rcases float : ofFloat? token with _ | literal
      · cases single : unquoted? '\'' token <;> cases double : unquoted? '"' token <;>
          simp [IsFinite]
      · obtain ⟨value, _, made⟩ := Option.bind_eq_some_iff.mp float
        split at made
        · next finite =>
          obtain rfl := Option.some.inj made
          simpa [IsFinite] using finite
        · contradiction
    · obtain ⟨n, _, made⟩ := Option.bind_eq_some_iff.mp integer
      split at made
      · obtain rfl := Option.some.inj made
        simp [IsFinite]
      · contradiction
  · unfold keyword? at keyword
    split at keyword
    · obtain rfl := Option.some.inj keyword
      simp [IsFinite]
    · split at keyword
      · obtain rfl := Option.some.inj keyword
        simp [IsFinite]
      · split at keyword
        · obtain rfl := Option.some.inj keyword
          simp [IsFinite]
        · contradiction

namespace Condition

structure ComparesWithin (schema : Schema) (column : Column) (operator : Operator)
    (operand : Operand) : Prop where
  declared : schema.OwnColumn column ∨ schema.RelatedColumn column
  fits : operand.Fits operator
  finite : ∀ literal ∈ operand.literals, literal.IsFinite

theorem column_of_resolve (found : resolve schema path = .ok column) :
    schema.OwnColumn column ∨ schema.RelatedColumn column := by
  unfold resolve at found
  split at found
  · next api =>
    cases own : schema.column? api with
    | none => simp [own] at found
    | some other =>
      obtain rfl : other = column := by simpa [own] using found
      exact .inl ⟨api, own⟩
  · next name api =>
    cases look : (schema.column? api).or ((schema.relation? name).bind (·.column? api)) with
    | none => simp [look] at found
    | some other =>
      obtain rfl : other = column := by simpa [look] using found
      rcases Option.or_eq_some_iff.mp look with own | ⟨_, related⟩
      · exact .inl ⟨api, own⟩
      · obtain ⟨relation, present, related⟩ := Option.bind_eq_some_iff.mp related
        exact .inr ⟨name, relation, api, present, related⟩
  · contradiction

/-- There is a value for every operator, as every text has a segment. -/
theorem fits_operand (operator : Operator) (args : Text) :
    (operand operator (readValues args)).Fits operator := by
  have filled : readValues args ≠ [] := by simp [readValues, Token.segments_ne_nil]
  cases operator <;> simp [operand, Operator.takesList, Operand.Fits, filled]

theorem isFinite_operand (operator : Operator) (args : Text) :
    ∀ literal ∈ (operand operator (readValues args)).literals, literal.IsFinite := by
  have each : ∀ literal ∈ readValues args, literal.IsFinite := by
    intro literal member
    obtain ⟨token, _, rfl⟩ := List.mem_map.mp member
    exact Literal.isFinite_ofToken token
  intro literal member
  unfold operand at member
  split at member
  · exact each literal member
  · obtain rfl : literal = (readValues args).headD .null := by
      simpa [Operand.literals] using member
    cases values : readValues args with
    | nil => exact trivial
    | cons first others => exact each first (by simp [values])

theorem full_compileComparison
    (made : compileComparison schema path operator args = .ok condition) :
    condition.Full (ComparesWithin schema) := by
  unfold compileComparison at made
  split at made
  · contradiction
  · next found =>
    split at made
    · contradiction
    · next operator _ =>
      obtain rfl := Except.ok.inj made
      exact .comparison ⟨column_of_resolve found, fits_operand operator args,
        isFinite_operand operator args⟩

/-- By induction on the levels left: a combinator keeps what compiles below it. -/
theorem full_compileWithin (made : (compileWithin schema levels text).result = some condition) :
    condition.Full (ComparesWithin schema) := by
  induction levels generalizing text condition with
  | zero => simp [compileWithin] at made
  | succ levels ih =>
    simp only [compileWithin] at made
    split at made
    · contradiction
    · next call _ =>
      split at made
      · split at made
        · refine full_combine? made ?_
          intro child member
          obtain ⟨report, compiled, result⟩ := Report.mem_present.mp member
          obtain ⟨item, _, rfl⟩ := List.mem_map.mp compiled
          exact ih result
        · contradiction
      · exact full_compileComparison (Report.result_ofExcept.mp made)

theorem full_compile (made : (compile schema text).result = some condition) :
    condition.Full (ComparesWithin schema) := full_compileWithin made

end Condition
end RestQuery

/-! Descriptors that stay within a schema. A client reaches columns, relations and
aggregates only through names that the schema registers, whatever the parameters say. -/
namespace RestQuery.Descriptor

structure Within (schema : Schema) (descriptor : Descriptor) : Prop where
  projection : ∀ projection ∈ descriptor.projection,
    projection.isEmpty = false ∧ projection.Within (.entity schema)
  condition : ∀ condition ∈ descriptor.condition,
    condition.Full (Condition.ComparesWithin schema)
  order : ∀ term ∈ descriptor.order, schema.OwnColumn term.column
  counts : ∀ count ∈ descriptor.counts,
    schema.aggregate? count.label = some count.column ∧ schema.OwnColumn count.column
  limit : ∀ n ∈ descriptor.limit, n < Page.bound
  offset : ∀ n ∈ descriptor.offset, n < Page.bound

/-- What a key gives, and its absence does not, compiles from a parameter. -/
theorem mem_ofKey [Membership β α] {absent : α} {compile : Param → Report α}
    (member : value ∈ (ofKey params key absent compile).result) (without : value ∉ absent) :
    ∃ param, value ∈ (compile param).result := by
  unfold ofKey at member
  cases found : NameMap.get? params key.toList with
  | none => simp [found, Report.accept, without] at member
  | some param => exact ⟨param, by simpa [found] using member⟩

theorem within_compileProjection {projection : Projection}
    (made : (compileProjection schema param).result = some projection) :
    projection.isEmpty = false ∧ projection.Within (.entity schema) := by
  simp only [compileProjection, Report.result_map] at made
  split at made
  · contradiction
  · next nonempty =>
    obtain rfl := Option.some.inj made
    exact ⟨Bool.eq_false_iff.mpr nonempty, Projection.within_fragments schema param.fragments⟩

theorem full_compileCondition {condition : Condition}
    (made : (compileCondition schema param).result = some condition) :
    condition.Full (Condition.ComparesWithin schema) := by
  simp only [compileCondition, Report.result_map] at made
  have each : ∀ condition ∈
      (Report.present (param.fragments.map (Condition.compile schema))).result,
      condition.Full (Condition.ComparesWithin schema) := by
    intro condition member
    obtain ⟨report, compiled, result⟩ := Report.mem_present.mp member
    obtain ⟨fragment, _, rfl⟩ := List.mem_map.mp compiled
    exact Condition.full_compile result
  unfold conjunction? at made
  split at made
  · next only found =>
    obtain rfl := Option.some.inj made
    exact each only (by simp [found])
  · exact Condition.full_combine? made each

theorem ownColumn_compileOrder (member : term ∈ (compileOrder schema param).result) :
    schema.OwnColumn term.column := by
  obtain ⟨terms, listed, member⟩ := List.mem_flatten.mp member
  obtain ⟨report, compiled, rfl⟩ := Report.mem_all.mp listed
  obtain ⟨fragment, _, rfl⟩ := List.mem_map.mp compiled
  obtain ⟨report, made, result⟩ := Report.mem_present.mp member
  obtain ⟨item, _, rfl⟩ := List.mem_map.mp made
  have made := Report.result_ofExcept.mp result
  unfold OrderTerm.ofItem at made
  split at made
  · contradiction
  · split at made
    · contradiction
    · next name _ =>
      cases found : schema.column? name with
      | none => simp [found] at made
      | some column =>
        simp only [found] at made
        obtain rfl := Except.ok.inj made
        exact ⟨name, found⟩

theorem aggregate_compileCounts (member : count ∈ (compileCounts schema param).result) :
    schema.aggregate? count.label = some count.column := by
  obtain ⟨counts, listed, member⟩ := List.mem_flatten.mp member
  obtain ⟨report, compiled, rfl⟩ := Report.mem_all.mp listed
  obtain ⟨fragment, _, rfl⟩ := List.mem_map.mp compiled
  obtain ⟨report, made, result⟩ := Report.mem_present.mp member
  obtain ⟨label, _, rfl⟩ := List.mem_map.mp made
  have made := Report.result_ofExcept.mp result
  unfold Count.ofLabel at made
  cases found : schema.aggregate? label with
  | none => simp [found] at made
  | some column =>
    simp only [found] at made
    obtain rfl := Except.ok.inj made
    exact found

theorem below_compilePage (made : (Page.compile param).result = some n) : n < Page.bound := by
  have below {limit m : Nat} (made : Page.below? limit m = some n) : n < limit := by
    unfold Page.below? at made
    split at made
    · next low => exact Option.some.inj made ▸ low
    · contradiction
  unfold Page.compile at made
  split at made
  · next text =>
    split at made
    · next m found =>
      obtain rfl := Option.some.inj made
      rcases Option.or_eq_some_iff.mp found with integer | ⟨_, float⟩
      · obtain ⟨_, _, low⟩ := Option.bind_eq_some_iff.mp integer
        exact below low
      · obtain ⟨_, _, float⟩ := Option.bind_eq_some_iff.mp float
        obtain ⟨_, _, low⟩ := Option.bind_eq_some_iff.mp float
        exact below low
    · contradiction
  · contradiction

theorem within_compile (accepted : schema.Accepted) (params : Params) :
    Within schema (compile schema params).result where
  projection := by
    intro projection made
    obtain ⟨param, made⟩ := mem_ofKey made (by simp)
    exact within_compileProjection made
  condition := by
    intro condition made
    obtain ⟨param, made⟩ := mem_ofKey made (by simp)
    exact full_compileCondition made
  order := by
    intro term member
    obtain ⟨param, member⟩ := mem_ofKey member (by simp)
    exact ownColumn_compileOrder member
  counts := by
    intro count member
    obtain ⟨param, member⟩ := mem_ofKey member (by simp)
    have registered := aggregate_compileCounts member
    exact ⟨registered, accepted.counted _ _ registered⟩
  limit := by
    intro n made
    obtain ⟨param, made⟩ := mem_ofKey made (by simp)
    exact below_compilePage made
  offset := by
    intro n made
    obtain ⟨param, made⟩ := mem_ofKey made (by simp)
    exact below_compilePage made

/-- The whitelist: every descriptor compiled with a schema that was built stays within it. -/
theorem compiled_within_schema (built : Schema.build root declarations = .ok schema)
    (params : Params) : Within schema (compile schema params).result :=
  within_compile (Schema.accepted_of_build built) params

theorem compiled_within_subjects :
    Schema.build "subjects".toList Schema.subjectDeclarations = .ok .subjects ∧
      Within .subjects (compile .subjects (Params.parse
        "select=id,department(x)&filter=and(or(),x.eq(1),department.title.in(1,'a'))".toList)).result :=
  ⟨Schema.build_subjects, compiled_within_schema Schema.build_subjects _⟩

end RestQuery.Descriptor
