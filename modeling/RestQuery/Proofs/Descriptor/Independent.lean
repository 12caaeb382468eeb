import RestQuery.Descriptor
import RestQuery.Proofs.Schema.Accepted

/-! Compiling with one list of rejections, which all compilers of a query share and each may add
to. None of them reads the list, so what a parameter gives does not depend on the others, and
its rejections follow those recorded before as they would stand alone. -/
namespace RestQuery

/-- A computation with the rejections recorded so far. -/
abbrev Recorder (α : Type) := StateM (List Rejection) α

namespace Recorder

/-- Drops a fragment: there is no result, and the rejection is the last one recorded. -/
def drop (rejection : Rejection) : Recorder (Option α) := do
  modify (· ++ [rejection])
  return none

def settle : Except Rejection α → Recorder (Option α)
  | .ok result => return some result
  | .error rejection => drop rejection

def present (fragments : List α) (compile : α → Recorder (Option β)) : Recorder (List β) :=
  (·.filterMap id) <$> fragments.mapM compile

theorem apply_pure (result : α) (before : List Rejection) :
    (pure result : Recorder α) before = (result, before) := rfl

theorem apply_map (f : α → β) (recorder : Recorder α) (before : List Rejection) :
    (f <$> recorder) before = (f (recorder before).1, (recorder before).2) := rfl

theorem apply_bind (first : Recorder α) (next : α → Recorder β) (before : List Rejection) :
    (first >>= next) before = next (first before).1 (first before).2 := rfl

end Recorder

namespace Report

def recorded (report : Report α) : Recorder α := fun before =>
  (report.result, before ++ report.rejections)

@[simp] theorem recorded_accept (result : α) : (accept result).recorded = pure result := by
  funext before
  simp [recorded, accept, Recorder.apply_pure]

@[simp] theorem recorded_reject (rejection : Rejection) :
    (⟨none, [rejection]⟩ : Report (Option α)).recorded = Recorder.drop rejection := rfl

@[simp] theorem recorded_ofExcept (made : Except Rejection α) :
    (ofExcept made).recorded = Recorder.settle made := by
  cases made with
  | ok result => exact recorded_accept (some result)
  | error rejection => rfl

@[simp] theorem recorded_map (f : α → β) (report : Report α) :
    (report.map f).recorded = f <$> report.recorded := rfl

/-- By induction on the fragments: what one of them adds stands before what the next adds. -/
theorem recorded_all (fragments : List α) (compile : α → Report β) :
    (all (fragments.map compile)).recorded =
      fragments.mapM fun fragment => (compile fragment).recorded := by
  induction fragments with
  | nil => exact recorded_accept []
  | cons fragment others ih =>
    rw [List.mapM_cons, ← ih]
    funext before
    simp [recorded, all, Recorder.apply_map, Recorder.apply_bind]

theorem recorded_present (fragments : List α) (compile : α → Report (Option β)) :
    (present (fragments.map compile)).recorded =
      Recorder.present fragments fun fragment => (compile fragment).recorded := by
  rw [present, recorded_map, recorded_all]
  rfl

end Report

namespace Projection

open Token

def recordCall (scope : Scope) (below : Relation → Text → Recorder Projection) (item : Text)
    (call : Call) : Recorder (Option Projection) :=
  match call.path with
  | [name] =>
    match scope.relation? name with
    | none => .drop (.unknown name)
    | some relation =>
      if call.args.trim = ['*'] then return some (ofRelation name .whole)
      else (fun named => some (ofRelation name (.ofProjection named))) <$> below relation call.args
  | _ => .drop (.unknown item)

def recordItem (scope : Scope) (below : Relation → Text → Recorder Projection) (item : Text) :
    Recorder (Option Projection) :=
  match Call.read? item with
  | some call => recordCall scope below item call
  | none =>
    match Path.read? item with
    | some path => .settle (ofPath scope path)
    | none => .drop (.malformed item)

def recordItems (scope : Scope) (below : Relation → Text → Recorder Projection) (text : Text) :
    Recorder Projection :=
  mergeAll <$> .present (items text) (recordItem scope below)

def recordRelation (relation : Relation) (text : Text) : Recorder Projection :=
  recordItems (.relation relation) (fun _ _ => return empty) text

def record (schema : Schema) (text : Text) : Recorder Projection :=
  recordItems (.entity schema) recordRelation text

section

variable {below : Relation → Text → Report Projection}
  {recordBelow : Relation → Text → Recorder Projection}

theorem recordCall_eq (same : ∀ relation text, recordBelow relation text = (below relation text).recorded)
    (scope : Scope) (item : Text) (call : Call) :
    recordCall scope recordBelow item call = (ofCall scope below item call).recorded := by
  obtain ⟨path, args⟩ := call
  match path with
  | [name] =>
    cases found : scope.relation? name with
    | none => simp [recordCall, ofCall, found]
    | some relation =>
      by_cases star : args.trim = ['*']
      · simp [recordCall, ofCall, found, star]
      · simp [recordCall, ofCall, found, star, same]
  | [] => rfl
  | _ :: _ :: _ => rfl

theorem recordItem_eq (same : ∀ relation text, recordBelow relation text = (below relation text).recorded)
    (scope : Scope) (item : Text) :
    recordItem scope recordBelow item = (ofItem scope below item).recorded := by
  unfold recordItem ofItem
  cases Call.read? item with
  | some call => exact recordCall_eq same scope item call
  | none =>
    cases Path.read? item with
    | some path => exact (Report.recorded_ofExcept _).symm
    | none => rfl

theorem recordItems_eq (same : ∀ relation text, recordBelow relation text = (below relation text).recorded)
    (scope : Scope) (text : Text) :
    recordItems scope recordBelow text = (ofItems scope below text).recorded := by
  rw [ofItems, Report.recorded_map, Report.recorded_present, recordItems,
    funext (recordItem_eq same scope)]

end

theorem record_eq (schema : Schema) (text : Text) :
    record schema text = (compile schema text).recorded :=
  recordItems_eq (fun relation => recordItems_eq (fun _ _ => (Report.recorded_accept empty).symm)
    (.relation relation)) (.entity schema) text

end Projection

namespace Condition

open Token

def recordWithin (schema : Schema) : Nat → Text → Recorder (Option Condition)
  | 0, text => .drop (.malformed text.trim)
  | levels + 1, text =>
    let token := text.trim
    match Call.read? token with
    | none => .drop (.malformed token)
    | some call =>
      match call.path with
      | [name] =>
        match Connective.ofName? name, items call.args with
        | some connective, item :: others =>
          combine? connective <$> .present (item :: others) (recordWithin schema levels)
        | _, _ => .drop (.malformed token)
      | path => .settle (compileComparison schema path.dropLast (path.getLastD []) call.args)

def record (schema : Schema) (text : Text) : Recorder (Option Condition) :=
  recordWithin schema (greatestDepth + 1) text

/-- By induction on the levels left: the children of a combinator share the list with it. -/
theorem recordWithin_eq (schema : Schema) (levels : Nat) (text : Text) :
    recordWithin schema levels text = (compileWithin schema levels text).recorded := by
  induction levels generalizing text with
  | zero => rfl
  | succ levels ih =>
    have inner := funext fun text => ih text
    simp only [recordWithin, compileWithin]
    cases Call.read? text.trim with
    | none => rfl
    | some call =>
      obtain ⟨path, args⟩ := call
      match path with
      | [name] =>
        cases known : Connective.ofName? name with
        | none => simp only [known, Report.recorded_reject]
        | some connective =>
          cases listed : items args with
          | nil => simp only [known, listed, Report.recorded_reject]
          | cons item others =>
            simp only [known, listed, Report.recorded_map, Report.recorded_present, inner]
      | [] => exact (Report.recorded_ofExcept _).symm
      | _ :: _ :: _ => exact (Report.recorded_ofExcept _).symm

theorem record_eq (schema : Schema) (text : Text) :
    record schema text = (compile schema text).recorded :=
  recordWithin_eq schema (greatestDepth + 1) text

end Condition

def OrderTerm.record (schema : Schema) (text : Text) : Recorder (List OrderTerm) :=
  .present (Token.items text) fun item => .settle (ofItem schema item)

theorem OrderTerm.record_eq (schema : Schema) (text : Text) :
    record schema text = (compile schema text).recorded := by
  rw [record, compile, Report.recorded_present]
  simp only [Report.recorded_ofExcept]

def Count.record (schema : Schema) (text : Text) : Recorder (List Count) :=
  .present (Token.items text) fun label => .settle (ofLabel schema label)

theorem Count.record_eq (schema : Schema) (text : Text) :
    record schema text = (compile schema text).recorded := by
  rw [record, compile, Report.recorded_present]
  simp only [Report.recorded_ofExcept]

def Page.record : Param → Recorder (Option Nat)
  | .single text =>
    match (ofInteger? text.trim).or (ofFloat? text.trim) with
    | some n => return some n
    | none => .drop (.invalid text.trim)
  | .list texts => .drop (.invalid ([','].intercalate texts))

theorem Page.record_eq (param : Param) : record param = (compile param).recorded := by
  cases param with
  | single text =>
    simp only [record, compile]
    cases (ofInteger? text.trim).or (ofFloat? text.trim) with
    | some n => exact (Report.recorded_accept _).symm
    | none => rfl
  | list texts => rfl

namespace Descriptor

def recordKey (params : Params) (key : String) (absent : α) (record : Param → Recorder α) :
    Recorder α :=
  match NameMap.get? params key.toList with
  | none => return absent
  | some param => record param

theorem recordKey_eq {record : Param → Recorder α} {compile : Param → Report α}
    (same : ∀ param, record param = (compile param).recorded) (params : Params) (key : String)
    (absent : α) : recordKey params key absent record = (ofKey params key absent compile).recorded := by
  unfold recordKey ofKey
  cases NameMap.get? params key.toList with
  | none => exact (Report.recorded_accept absent).symm
  | some param => exact same param

def recordProjection (schema : Schema) (param : Param) : Recorder (Option Projection) := do
  let merged := Projection.mergeAll (← param.fragments.mapM (Projection.record schema))
  return if merged.isEmpty then none else some merged

def recordCondition (schema : Schema) (param : Param) : Recorder (Option Condition) :=
  conjunction? <$> .present param.fragments (Condition.record schema)

def recordParts (record : Text → Recorder (List α)) (param : Param) : Recorder (List α) :=
  List.flatten <$> param.fragments.mapM record

/-- The compilers one after the other, with one list of rejections between them. -/
def record (schema : Schema) (params : Params) : Recorder Descriptor := do
  let projection ← recordKey params "select" none (recordProjection schema)
  let condition ← recordKey params "filter" none (recordCondition schema)
  let order ← recordKey params "sort" [] (recordParts (OrderTerm.record schema))
  let limit ← recordKey params "limit" none Page.record
  let offset ← recordKey params "offset" none Page.record
  let counts ← recordKey params "aggregate" [] (recordParts (Count.record schema))
  return ⟨projection, condition, order, limit, offset, counts⟩

theorem recordProjection_eq (schema : Schema) (param : Param) :
    recordProjection schema param = (compileProjection schema param).recorded := by
  rw [compileProjection, Report.recorded_map, Report.recorded_all, recordProjection,
    funext (Projection.record_eq schema), map_eq_pure_bind]

theorem recordCondition_eq (schema : Schema) (param : Param) :
    recordCondition schema param = (compileCondition schema param).recorded := by
  rw [compileCondition, Report.recorded_map, Report.recorded_present, recordCondition,
    funext (Condition.record_eq schema)]

theorem recordParts_eq {record : Text → Recorder (List α)} {compile : Text → Report (List α)}
    (same : ∀ text, record text = (compile text).recorded) (param : Param) :
    recordParts record param =
      ((Report.all (param.fragments.map compile)).map List.flatten).recorded := by
  rw [Report.recorded_map, Report.recorded_all, recordParts, funext same]

/-- The list that the compilers share ends up with the rejections of each in turn. -/
theorem record_eq (schema : Schema) (params : Params) :
    record schema params = (compile schema params).recorded := by
  have order : ∀ param, _ = (compileOrder schema param).recorded :=
    recordParts_eq (OrderTerm.record_eq schema)
  have counts : ∀ param, _ = (compileCounts schema param).recorded :=
    recordParts_eq (Count.record_eq schema)
  simp only [record, recordKey_eq (recordProjection_eq schema),
    recordKey_eq (recordCondition_eq schema), recordKey_eq order, recordKey_eq counts,
    recordKey_eq Page.record_eq]
  funext before
  simp [Report.recorded, compile, Recorder.apply_map, Recorder.apply_bind]

end Descriptor

/-! Parameters that compile independently. Each field of a descriptor, and each stretch of its
rejections, comes from the value of one key alone, and no other key has any effect. -/

def Params.only (params : Params) (key : String) : Params :=
  .ofList ((NameMap.get? params key.toList).toList.map (key.toList, ·))

@[simp] theorem Params.get?_only_self (params : Params) (key : String) :
    NameMap.get? (params.only key) key.toList = NameMap.get? params key.toList := by
  cases found : NameMap.get? params key.toList with
  | none => simp [only, found, NameMap.ofList]
  | some param => simp [only, found, NameMap.ofList]

theorem Params.get?_only_of_ne (params : Params) {key other : String} (apart : key ≠ other) :
    NameMap.get? (params.only other) key.toList = none := by
  have apart : key.toList ≠ other.toList := fun same => apart (String.toList_injective same)
  cases found : NameMap.get? params other.toList with
  | none => simp [only, found, NameMap.ofList]
  | some param => simp [only, found, NameMap.ofList, NameMap.get?_insert_of_ne _ apart]

namespace Descriptor

def keys : List String := ["select", "filter", "sort", "limit", "offset", "aggregate"]

section

variable {compile : Param → Report α} {absent : α}

theorem ofKey_congr {params others : Params}
    (same : NameMap.get? params key.toList = NameMap.get? others key.toList) :
    ofKey params key absent compile = ofKey others key absent compile := by
  simp only [ofKey, same]

@[simp] theorem ofKey_only_self (params : Params) (key : String) :
    ofKey (params.only key) key absent compile = ofKey params key absent compile :=
  ofKey_congr (params.get?_only_self key)

theorem ofKey_insert_congr (params : Params) {one two : Param}
    (same : key = other → compile one = compile two) :
    ofKey (NameMap.insert params key.toList one) other absent compile =
      ofKey (NameMap.insert params key.toList two) other absent compile := by
  by_cases equal : key = other
  · subst equal
    simp only [ofKey, NameMap.get?_insert_self, same rfl]
  · have apart : other.toList ≠ key.toList := fun h => equal (String.toList_injective h.symm)
    simp only [ofKey, NameMap.get?_insert_of_ne _ apart]

theorem ofKey_only_of_ne (params : Params) (apart : key ≠ other) :
    ofKey (params.only other) key absent compile = .accept absent := by
  simp only [ofKey, params.get?_only_of_ne apart]

end

/-- Only the six keys are looked up. -/
theorem compile_congr (schema : Schema) {params others : Params}
    (same : ∀ key ∈ keys, NameMap.get? params key.toList = NameMap.get? others key.toList) :
    compile schema params = compile schema others := by
  have each (key : String) (member : key ∈ keys) {α : Type} (absent : α)
      (compile : Param → Report α) :
      ofKey params key absent compile = ofKey others key absent compile :=
    ofKey_congr (same key member)
  simp only [compile, each _ (show "select" ∈ keys by decide),
    each _ (show "filter" ∈ keys by decide), each _ (show "sort" ∈ keys by decide),
    each _ (show "limit" ∈ keys by decide), each _ (show "offset" ∈ keys by decide),
    each _ (show "aggregate" ∈ keys by decide)]

/-- A parameter may be exchanged for one that compiles to the same under its key. -/
theorem compile_insert_congr (schema : Schema) (params : Params) {key : String} {one two : Param}
    (projection : key = "select" → compileProjection schema one = compileProjection schema two)
    (condition : key = "filter" → compileCondition schema one = compileCondition schema two)
    (order : key = "sort" → compileOrder schema one = compileOrder schema two)
    (limit : key = "limit" → Page.compile one = Page.compile two)
    (offset : key = "offset" → Page.compile one = Page.compile two)
    (counts : key = "aggregate" → compileCounts schema one = compileCounts schema two) :
    compile schema (NameMap.insert params key.toList one) =
      compile schema (NameMap.insert params key.toList two) := by
  simp only [compile, ofKey_insert_congr params projection, ofKey_insert_congr params condition,
    ofKey_insert_congr params order, ofKey_insert_congr params limit,
    ofKey_insert_congr params offset, ofKey_insert_congr params counts]

/-- Every field is what its own key gives alone, the rejections are those of the six keys one
after the other, and other keys change nothing. So it is also with one list of rejections that
the six compilers share, whatever it holds before. -/
theorem compile_independent (schema : Schema) (params : Params) :
    let alone (key : String) := compile schema (params.only key)
    (compile schema params).result =
      { projection := (alone "select").result.projection
        condition := (alone "filter").result.condition
        order := (alone "sort").result.order
        limit := (alone "limit").result.limit
        offset := (alone "offset").result.offset
        counts := (alone "aggregate").result.counts } ∧
    (compile schema params).rejections = keys.flatMap (fun key => (alone key).rejections) ∧
    (∀ before, (record schema params).run before =
      ((compile schema params).result, before ++ (compile schema params).rejections)) ∧
    ∀ others : Params,
      (∀ key ∈ keys, NameMap.get? others key.toList = NameMap.get? params key.toList) →
        compile schema others = compile schema params := by
  intro alone
  have apart {key other : String} (h : key ≠ other) {α : Type} (absent : α)
      (compile : Param → Report α) :
      ofKey (params.only other) key absent compile = .accept absent := ofKey_only_of_ne params h
  refine ⟨?_, ?_, ?_, fun others same => compile_congr schema same⟩
  · simp [alone, compile]
  · simp [alone, compile, keys, apart, Report.accept]
  · intro before
    rw [record_eq]
    rfl

theorem compile_independent_noisy :
    let params := Params.parse "select=x((&sort=-id&page=2&limit=-3&filter=or(y.eq(1),,)".toList
    let others := Params.parse "limit=-3&select=x((&filter=or(y.eq(1),,)&sort=-id&skip=1".toList
    let alone (key : String) := compile .subjects (params.only key)
    (compile .subjects params).rejections = keys.flatMap (fun key => (alone key).rejections) ∧
    (∀ key ∈ keys, NameMap.get? others key.toList = NameMap.get? params key.toList) ∧
      compile .subjects others = compile .subjects params := by
  intro params others alone
  have law := compile_independent .subjects params
  have same : ∀ key ∈ keys, NameMap.get? others key.toList = NameMap.get? params key.toList := by
    decide +kernel
  exact ⟨law.2.1, same, law.2.2.2 others same⟩

end Descriptor
end RestQuery
