import RestQuery.Proofs.Filter.Written

/-! What the bound on nesting takes away. The compiler without the bound reads texts of any
depth; the bounded one gives the same condition without the parts that lie too deep, and without
the combinators that hold nothing then. -/
namespace RestQuery.Condition

open Token

/-- Compiles a filter in which combinators may nest at any depth. It ends because items are
shorter than what they are items of. -/
def compileFreely (schema : Schema) (text : Text) : Report (Option Condition) :=
  let token := text.trim
  match _read : Call.read? token with
  | none => ⟨none, [.malformed token]⟩
  | some call =>
    match call.path with
    | [name] =>
      match Connective.ofName? name, items call.args with
      | some connective, _ :: _ =>
        (Report.present ((items call.args).attach.map fun item =>
          compileFreely schema item.val)).map (combine? connective)
      | _, _ => ⟨none, [.malformed token]⟩
    | path =>
      .ofExcept (compileComparison schema path.dropLast (path.getLastD []) call.args)
termination_by text.length
decreasing_by exact length_lt_of_mem_items _read item.property

mutual

/-- Without what lies under more than this many combinators. -/
def cut : Nat → Condition → Condition
  | _, comparison column operator operand => comparison column operator operand
  | 0, logical connective _ => logical connective []
  | levels + 1, logical connective children => logical connective (cutAll levels children)

def cutAll (levels : Nat) : List Condition → List Condition
  | [] => []
  | child :: children => cut levels child :: cutAll levels children

end

mutual

/-- Without combinators that hold nothing, up to the root. -/
def collapse : Condition → Option Condition
  | comparison column operator operand => some (comparison column operator operand)
  | logical connective children => combine? connective (collapseAll children)

def collapseAll : List Condition → List Condition
  | [] => []
  | child :: children => (collapse child).toList ++ collapseAll children

end

def prune (levels : Nat) (condition : Condition) : Option Condition :=
  (condition.cut levels).collapse

theorem cutAll_eq (levels : Nat) (children : List Condition) :
    cutAll levels children = children.map (cut levels) := by
  induction children with
  | nil => rfl
  | cons child children ih => simp [cutAll, ih]

theorem collapseAll_eq (children : List Condition) :
    collapseAll children = children.filterMap collapse := by
  induction children with
  | nil => rfl
  | cons child children ih => cases kept : collapse child <;> simp [collapseAll, kept, ih]

/-- One level of the compiler without the bound. -/
theorem compileFreely_eq (schema : Schema) (text : Text) :
    compileFreely schema text =
      match combinator? text with
      | some (connective, parts) =>
        (Report.present (parts.map (compileFreely schema))).map (combine? connective)
      | none => .ofExcept (compileAlone schema text) := by
  rw [compileFreely]
  simp only [combinator?, compileAlone, List.attach_map_val]
  split
  · next read => simp only [read, Report.ofExcept]
  · next call read =>
    obtain ⟨path, args⟩ := call
    cases path with
    | nil => rw [read]
    | cons name later =>
      cases later with
      | cons => rw [read]
      | nil =>
        cases known : Connective.ofName? name with
        | none => simp only [read, known, Report.ofExcept]
        | some connective =>
          cases listed : items args with
          | nil => simp only [read, known, listed, Report.ofExcept]
          | cons item others => simp only [read, known, listed]

@[simp] theorem prune_comparison (levels : Nat) (column : Column) (operator : Operator)
    (operand : Operand) : prune levels (comparison column operator operand) =
      some (comparison column operator operand) := by
  cases levels <;> rfl

/-- Below a combinator every child lies a level deeper. -/
@[simp] theorem prune_logical_succ (levels : Nat) (connective : Connective)
    (children : List Condition) : prune (levels + 1) (logical connective children) =
      combine? connective (children.filterMap (prune levels)) := by
  simp only [prune, cut, cutAll_eq, collapse, collapseAll_eq, List.filterMap_map]
  rfl

theorem prune_combine? (levels : Nat) (connective : Connective) (children : List Condition) :
    (combine? connective children).bind (prune (levels + 1)) =
      combine? connective (children.filterMap (prune levels)) := by
  cases children with
  | nil => rfl
  | cons child others => exact prune_logical_succ levels connective (child :: others)

theorem prune_combine?_zero (connective : Connective) (children : List Condition) :
    (combine? connective children).bind (prune 0) = none := by
  cases children <;> rfl

theorem nesting_prune_le {condition : Condition} (kept : prune levels condition = some pruned) :
    pruned.nesting ≤ levels := by
  induction levels generalizing condition pruned with
  | zero =>
    cases condition with
    | comparison column operator operand =>
      rw [prune_comparison] at kept
      obtain rfl := Option.some.inj kept
      exact Nat.le_refl 0
    | logical connective children => contradiction
  | succ levels ih =>
    cases condition with
    | comparison column operator operand =>
      rw [prune_comparison] at kept
      obtain rfl := Option.some.inj kept
      exact Nat.zero_le _
    | logical connective children =>
      rw [prune_logical_succ] at kept
      refine nesting_le_of_combine? kept fun child member => ?_
      obtain ⟨whole, _, kept⟩ := List.mem_filterMap.mp member
      exact ih kept

theorem prune_compileAlone (schema : Schema) (levels : Nat) (text : Text) :
    (Report.ofExcept (compileAlone schema text)).result.bind (prune levels) =
      (Report.ofExcept (compileAlone schema text)).result := by
  cases made : compileAlone schema text with
  | error => rfl
  | ok condition =>
    obtain ⟨column, operator, operand, rfl⟩ := exists_comparison_of_compileAlone made
    cases levels <;> rfl

/-- With a level for each combinator around a comparison and one for itself, the result is the
pruned one. By induction on the levels: below a combinator each item is pruned by one less. -/
theorem result_compileWithin_eq (schema : Schema) (levels : Nat) (text : Text) :
    (compileWithin schema (levels + 1) text).result =
      (compileFreely schema text).result.bind (prune levels) := by
  induction levels generalizing text with
  | zero =>
    rw [compileWithin_succ, compileFreely_eq]
    cases combinator? text with
    | none => exact (prune_compileAlone schema 0 text).symm
    | some found =>
      obtain ⟨connective, parts⟩ := found
      have nothing : parts.filterMap (fun part => (compileWithin schema 0 part).result) = [] := by
        simp [compileWithin]
      simp only [Report.result_map, Report.result_present_map, nothing, prune_combine?_zero]
      rfl
  | succ levels ih =>
    rw [compileWithin_succ, compileFreely_eq]
    cases combinator? text with
    | none => exact (prune_compileAlone schema (levels + 1) text).symm
    | some found =>
      obtain ⟨connective, parts⟩ := found
      simp [Report.result_present_map, prune_combine?, List.filterMap_filterMap, ih]

def nestsWithin : Nat → Text → Bool
  | 0, text => (combinator? text).isNone
  | levels + 1, text => (combinator? text).all fun (_, parts) => parts.all (nestsWithin levels)

/-- A combinator opens one parenthesis more than any of its items. -/
theorem count_lt_of_combinator? (found : combinator? text = some (connective, parts))
    (member : part ∈ parts) : part.count '(' < text.count '(' := by
  have inside := (sublist_of_combinator? found member).count_le '('
  rw [List.count_cons_self] at inside
  omega

theorem nestsWithin_of_count_le (few : text.count '(' ≤ levels) : nestsWithin levels text = true := by
  induction levels generalizing text with
  | zero =>
    cases found : combinator? text with
    | none => simp [nestsWithin, found]
    | some held =>
      obtain ⟨_, _, _, _, filled⟩ := combinator?_eq_some_iff.mp found
      obtain ⟨part, member⟩ := List.exists_mem_of_ne_nil _ filled
      have := count_lt_of_combinator? found member
      omega
  | succ levels ih =>
    cases found : combinator? text with
    | none => simp [nestsWithin, found]
    | some held =>
      have each : ∀ part ∈ held.2, nestsWithin levels part = true := by
        intro part member
        have := count_lt_of_combinator? found member
        apply ih
        omega
      simpa [nestsWithin, found] using each

/-- Where nothing lies too deep, both compilers give the same condition and rejections. -/
theorem compileWithin_eq_compileFreely (schema : Schema)
    (within : nestsWithin levels text = true) :
    compileWithin schema (levels + 1) text = compileFreely schema text := by
  induction levels generalizing text with
  | zero =>
    have alone : combinator? text = none := Option.isNone_iff_eq_none.mp within
    rw [compileWithin_succ, compileFreely_eq, alone]
  | succ levels ih =>
    rw [compileWithin_succ, compileFreely_eq]
    cases found : combinator? text with
    | none => rfl
    | some combinator =>
      obtain ⟨connective, parts⟩ := combinator
      have each : ∀ part ∈ parts, nestsWithin levels part = true := by
        simpa [nestsWithin, found] using within
      have same : parts.map (compileWithin schema (levels + 1)) =
          parts.map (compileFreely schema) := List.map_congr_left fun part member =>
        ih (each part member)
      simp only [same]

/-- The bound on nesting only prunes: the condition is what the compiler without the bound gives,
without the parts under more than 64 combinators and the combinators left empty by that. So where
no text nests deeper the two agree, and no condition nests deeper. -/
theorem compile_eq_prune (schema : Schema) (text : Text) :
    (compile schema text).result = (compileFreely schema text).result.bind (prune greatestDepth) ∧
    (nestsWithin greatestDepth text = true → compile schema text = compileFreely schema text) ∧
    ∀ condition ∈ (compile schema text).result, condition.nesting ≤ greatestDepth := by
  have pruned : (compile schema text).result =
      (compileFreely schema text).result.bind (prune greatestDepth) :=
    result_compileWithin_eq schema greatestDepth text
  refine ⟨pruned, compileWithin_eq_compileFreely schema, fun condition made => ?_⟩
  rw [pruned] at made
  obtain ⟨whole, _, kept⟩ := Option.bind_eq_some_iff.mp made
  exact nesting_prune_le kept

theorem compile_eq_compileFreely_mixed :
    let text := "or(id.eq(1),and( ,x.eq(2), or(name.like(a),and())),and(and(y)))".toList
    nestsWithin greatestDepth text = true ∧
      compile .subjects text = compileFreely .subjects text := by
  intro text
  have within : nestsWithin greatestDepth text = true := by decide +kernel
  exact ⟨within, (compile_eq_prune .subjects text).2.1 within⟩

end RestQuery.Condition
