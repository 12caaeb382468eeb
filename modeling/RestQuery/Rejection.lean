import RestQuery.Text.Basic

/-! Rejections: the fragments of a query that compile to nothing, and why. Compiling never
fails; it drops what it cannot use and reports it. -/
namespace RestQuery

inductive Rejection where
  | malformed (token : Text)
  | unknown (name : Text)
  | invalid (value : Text)
  | unsupported (operator : Text)
  deriving DecidableEq, Repr

namespace Rejection

def kind : Rejection → Text
  | .malformed _ => "malformed".toList
  | .unknown _ => "unknown".toList
  | .invalid _ => "invalid".toList
  | .unsupported _ => "operator".toList

def message : Rejection → Text
  | .malformed token => "Malformed token: '".toList ++ token ++ ['\'']
  | .unknown name => "Unknown identifier: '".toList ++ name ++ ['\'']
  | .invalid value => "Invalid value: '".toList ++ value ++ ['\'']
  | .unsupported operator => "Unsupported operator: '".toList ++ operator ++ ['\'']

end Rejection

/-- What compiling gave, and the rejections in the order they were recorded. -/
structure Report (α : Type) where
  result : α
  rejections : List Rejection
  deriving DecidableEq, Repr

namespace Report

def accept (result : α) : Report α := ⟨result, []⟩

def map (f : α → β) (report : Report α) : Report β := ⟨f report.result, report.rejections⟩

def ofExcept : Except Rejection α → Report (Option α)
  | .ok result => ⟨some result, []⟩
  | .error rejection => ⟨none, [rejection]⟩

def all (reports : List (Report α)) : Report (List α) :=
  ⟨reports.map (·.result), reports.flatMap (·.rejections)⟩

def present (reports : List (Report (Option α))) : Report (List α) :=
  (all reports).map (·.filterMap id)

@[simp] theorem result_map (f : α → β) (report : Report α) :
    (report.map f).result = f report.result := rfl

@[simp] theorem rejections_map (f : α → β) (report : Report α) :
    (report.map f).rejections = report.rejections := rfl

theorem result_present (reports : List (Report (Option α))) :
    (present reports).result = reports.filterMap (·.result) := by
  simp [present, all, List.filterMap_map]

theorem result_present_map (f : α → Report (Option β)) (xs : List α) :
    (present (xs.map f)).result = xs.filterMap fun x => (f x).result := by
  rw [result_present, List.filterMap_map]
  rfl

theorem rejections_present (reports : List (Report (Option α))) :
    (present reports).rejections = reports.flatMap (·.rejections) := rfl

@[simp] theorem mem_all {reports : List (Report α)} :
    value ∈ (all reports).result ↔ ∃ report ∈ reports, report.result = value := by
  simp [all]

@[simp] theorem mem_present {reports : List (Report (Option α))} :
    value ∈ (present reports).result ↔ ∃ report ∈ reports, report.result = some value := by
  simp [present, all]

/-- Where everything compiles without rejections, so does the whole. -/
theorem present_of_accepted {xs : List α} {compile : α → Report (Option β)} {value : α → β}
    (each : ∀ x ∈ xs, compile x = ⟨some (value x), []⟩) :
    present (xs.map compile) = ⟨xs.map value, []⟩ := by
  have reports : xs.map compile = xs.map fun x => ⟨some (value x), []⟩ := List.map_congr_left each
  simp [present, all, map, reports, Function.comp_def]

theorem result_ofExcept {made : Except Rejection α} :
    (ofExcept made).result = some value ↔ made = .ok value := by
  cases made <;> simp [ofExcept]

end Report
end RestQuery
