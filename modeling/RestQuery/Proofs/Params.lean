import Mathlib.Data.List.DropRight
import RestQuery.Params

/-! What parameters collect under a key. A query string gives every value of its pairs once and in
order, and calls after it set a key or add to it. What a key holds follows from the pairs and the
calls under that key alone. -/
namespace RestQuery.Params

/-- A key that names a list: its name, and an index or none in square brackets. -/
structure IsListKey (name key : Text) : Prop where
  filled : name ≠ []
  plain : '[' ∉ name
  indexed : ∃ index : Text, (∀ c ∈ index, c.isDigit = true) ∧ key = name ++ '[' :: (index ++ [']'])

theorem listKey?_eq_some_iff : listKey? key = some name ↔ IsListKey name key := by
  constructor
  · intro found
    unfold listKey? at found
    split at found
    · next base rest cut =>
      obtain ⟨plain, rfl⟩ := Text.cutFirst_eq_some_iff.mp cut
      split at found
      · next indexed =>
        obtain rfl := Option.some.inj found
        obtain ⟨filled, last, digits⟩ := indexed
        obtain ⟨index, rfl⟩ := List.getLast?_eq_some_iff.mp last
        rw [List.dropLast_concat] at digits
        exact ⟨filled, plain, index, List.all_eq_true.mp digits, rfl⟩
      · contradiction
    · contradiction
  · rintro ⟨filled, plain, index, digits, rfl⟩
    have cut : Text.cutFirst '[' (name ++ '[' :: (index ++ [']'])) = (name, some (index ++ [']'])) :=
      Text.cutFirst_eq_some_iff.mpr ⟨plain, rfl⟩
    have indexed : name ≠ [] ∧ (index ++ [']']).getLast? = some ']' ∧
        (index ++ [']']).dropLast.all Char.isDigit = true := by
      refine ⟨filled, List.getLast?_concat, ?_⟩
      rw [List.dropLast_concat]
      exact List.all_eq_true.mpr digits
    simp only [listKey?, cut, if_pos indexed]

/-- The name under which a key is collected: that of its list, or the key itself. -/
inductive StandsFor : Text → Text → Prop
  | listed : IsListKey name key → StandsFor key name
  | itself : (∀ name, ¬IsListKey name key) → StandsFor key key

theorem standsFor_iff : StandsFor key name ↔ (listKey? key).getD key = name := by
  cases found : listKey? key with
  | none =>
    have unlisted : ∀ name, ¬IsListKey name key := by
      intro name listed
      rw [listKey?_eq_some_iff.mpr listed] at found
      contradiction
    constructor
    · intro stands
      cases stands with
      | listed listed => exact absurd listed (unlisted name)
      | itself => rfl
    · rintro rfl
      exact .itself unlisted
  | some base =>
    have listed := listKey?_eq_some_iff.mp found
    constructor
    · intro stands
      cases stands with
      | listed other =>
        rw [listKey?_eq_some_iff.mpr other] at found
        exact (Option.some.inj found).symm
      | itself unlisted => exact absurd listed (unlisted base)
    · rintro rfl
      exact .listed listed

instance (key name : Text) : Decidable (StandsFor key name) := decidable_of_iff _ standsFor_iff.symm

def unmarked : Text → Text
  | '?' :: rest => rest
  | text => text

def pairsUnder (raw name : Text) : List (Text × Text) :=
  (decodePairs (unmarked raw)).filter fun pair => StandsFor pair.1 name

/-- What a caller does after reading: it sets a key, or adds a text under it. -/
inductive Call where
  | insert (key : Text) (param : Param)
  | push (key text : Text)
  deriving DecidableEq, Repr

namespace Call

def key : Call → Text
  | insert key _ => key
  | push key _ => key

def run (params : Params) : Call → Params
  | insert key param => NameMap.insert params key param
  | push key text => params.push key text

def inserted? : Call → Option Param
  | insert _ param => some param
  | push _ _ => none

def pushed? : Call → Option Text
  | insert _ _ => none
  | push _ text => some text

def lastInserted? (calls : List Call) : Option Param := (calls.filterMap inserted?).getLast?

def pushedSince (calls : List Call) : List Text :=
  (calls.rtakeWhile fun call => call.inserted?.isNone).filterMap pushed?

end Call

/-- A text that comes under a key, and whether it makes a list even where it comes first. -/
structure Arrival where
  text : Text
  listed : Bool

def Arrival.onto (held : Option Param) (arrival : Arrival) : Option Param :=
  match held with
  | some param => some (param.push arrival.text)
  | none => some (if arrival.listed then .list [arrival.text] else .single arrival.text)

def texts (held : Option Param) : List Text := held.elim [] Param.fragments

theorem texts_arrivals (held : Option Param) (arrivals : List Arrival) :
    texts (arrivals.foldl Arrival.onto held) = texts held ++ arrivals.map (·.text) := by
  induction arrivals generalizing held with
  | nil => simp
  | cons arrival others ih =>
    have first : texts (Arrival.onto held arrival) = texts held ++ [arrival.text] := by
      cases held with
      | some param => rfl
      | none => cases listed : arrival.listed <;> simp [texts, Arrival.onto, listed, Param.fragments]
    rw [List.foldl_cons, ih, first, List.map_cons, List.append_assoc, List.singleton_append]

theorem arrivals_eq_none_iff {held : Option Param} {arrivals : List Arrival} :
    arrivals.foldl Arrival.onto held = none ↔ held = none ∧ arrivals = [] := by
  induction arrivals generalizing held with
  | nil => simp
  | cons arrival others ih =>
    have filled : Arrival.onto held arrival ≠ none := by cases held <;> simp [Arrival.onto]
    simp [ih, filled]

/-- A single text is one that was held and that nothing was added to, or the first to come. -/
theorem arrivals_eq_single_iff {held : Option Param} {arrivals : List Arrival} :
    arrivals.foldl Arrival.onto held = some (.single text) ↔
      held = some (.single text) ∧ arrivals = [] ∨ held = none ∧ arrivals = [⟨text, false⟩] := by
  induction arrivals generalizing held with
  | nil => simp
  | cons arrival others ih =>
    have filled : Arrival.onto held arrival ≠ none := by cases held <;> simp [Arrival.onto]
    have first : Arrival.onto held arrival = some (.single text) ↔
        held = none ∧ arrival = ⟨text, false⟩ := by
      obtain ⟨value, listed⟩ := arrival
      cases held <;> cases listed <;> simp [Arrival.onto, Param.push]
    simp only [List.foldl_cons, ih, first, filled]
    simp [and_assoc]

/-- Steps that do not touch what is looked at may be left out. By induction on the steps. -/
theorem foldl_view (view : σ → β) {step : σ → α → σ} {change : β → α → β} {p : α → Bool}
    (own : ∀ state one, p one = true → view (step state one) = change (view state) one)
    (other : ∀ state one, p one = false → view (step state one) = view state)
    (steps : List α) (state : σ) :
    view (steps.foldl step state) = (steps.filter p).foldl change (view state) := by
  induction steps generalizing state with
  | nil => rfl
  | cons one others ih =>
    by_cases mine : p one = true
    · rw [List.foldl_cons, ih, own state one mine, List.filter_cons_of_pos mine, List.foldl_cons]
    · have foreign : p one = false := by simpa using mine
      rw [List.foldl_cons, ih, other state one foreign, List.filter_cons_of_neg mine]

theorem get?_push_self (params : Params) (name text : Text) :
    NameMap.get? (params.push name text) name =
      Arrival.onto (NameMap.get? params name) ⟨text, false⟩ := by
  rw [push, NameMap.get?_alter_self]
  cases NameMap.get? params name <;> rfl

theorem get?_pushListed_self (params : Params) (name text : Text) :
    NameMap.get? (params.pushListed name text) name =
      Arrival.onto (NameMap.get? params name) ⟨text, true⟩ := by
  rw [pushListed, NameMap.get?_alter_self]
  cases NameMap.get? params name <;> rfl

/-- The value of a pair makes a list by itself if the key is that of one. -/
def arrivalOf (pair : Text × Text) : Arrival := ⟨pair.2, (listKey? pair.1).isSome⟩

/-- A pair adds its value under the name that its key stands for. -/
theorem get?_addPair_self (params : Params) (stands : StandsFor pair.1 name) :
    NameMap.get? (addPair params pair) name =
      Arrival.onto (NameMap.get? params name) (arrivalOf pair) := by
  rw [← standsFor_iff.mp stands]
  unfold addPair arrivalOf
  cases listKey? pair.1 with
  | none => exact get?_push_self params pair.1 pair.2
  | some base => exact get?_pushListed_self params base pair.2

theorem get?_addPair_of_not (params : Params) (apart : ¬StandsFor pair.1 name) :
    NameMap.get? (addPair params pair) name = NameMap.get? params name := by
  rw [standsFor_iff] at apart
  unfold addPair
  cases found : listKey? pair.1 <;> rw [found] at apart <;>
    exact NameMap.get?_alter_of_ne params (Ne.symm apart)

/-- The pairs under a name decide what is read there. -/
theorem get?_parse (raw name : Text) : NameMap.get? (parse raw) name =
    ((pairsUnder raw name).map arrivalOf).foldl Arrival.onto none := by
  rw [List.foldl_map]
  refine foldl_view (fun params => NameMap.get? params name) ?_ ?_ (decodePairs (unmarked raw)) .empty
  · intro params pair stands
    exact get?_addPair_self params (of_decide_eq_true stands)
  · intro params pair apart
    exact get?_addPair_of_not params (of_decide_eq_false apart)

/-- A pair that comes first under a name has a single text if its key is the name. -/
theorem arrivalOf_eq_iff (stands : StandsFor pair.1 name) :
    arrivalOf pair = ⟨text, false⟩ ↔ pair = (name, text) := by
  obtain ⟨key, value⟩ := pair
  change StandsFor key name at stands
  have single : listKey? key = none ↔ key = name := by
    cases found : listKey? key with
    | none => simpa [found] using standsFor_iff.mp stands
    | some base =>
      obtain rfl : base = name := by simpa [found] using standsFor_iff.mp stands
      obtain ⟨_, plain, index, _, written⟩ := listKey?_eq_some_iff.mp found
      have marked : '[' ∈ key := by simp [written]
      have apart : key ≠ base := fun same => plain (same ▸ marked)
      simp [apart]
  simp [arrivalOf, single, and_comm]

namespace Call

def onto (held : Option Param) : Call → Option Param
  | insert _ param => some param
  | push _ text => Arrival.onto held ⟨text, false⟩

theorem get?_run_self (params : Params) (call : Call) :
    NameMap.get? (run params call) call.key = onto (NameMap.get? params call.key) call := by
  cases call with
  | insert key param => exact NameMap.get?_insert_self params
  | push key text => exact get?_push_self params key text

theorem get?_run_of_ne (params : Params) {call : Call} (apart : call.key ≠ name) :
    NameMap.get? (run params call) name = NameMap.get? params name := by
  cases call with
  | insert key param => exact NameMap.get?_insert_of_ne params (Ne.symm apart)
  | push key text => exact NameMap.get?_alter_of_ne params (Ne.symm apart)

/-- Calls under other keys change nothing. -/
theorem get?_runs (params : Params) (calls : List Call) (name : Text) :
    NameMap.get? (calls.foldl run params) name =
      (calls.filter (·.key = name)).foldl onto (NameMap.get? params name) := by
  refine foldl_view (fun params => NameMap.get? params name) ?_ ?_ calls params
  · intro params call mine
    obtain rfl := of_decide_eq_true mine
    exact get?_run_self params call
  · intro params call foreign
    exact get?_run_of_ne params (of_decide_eq_false foreign)

/-- By induction on the calls from the last one: one that sets something makes what was before
it irrelevant, and any other one adds to what was held. -/
theorem runs_onto (held : Option Param) (calls : List Call) : calls.foldl onto held =
    ((pushedSince calls).map fun text => ⟨text, false⟩).foldl Arrival.onto
      ((lastInserted? calls).or held) := by
  induction calls using List.reverseRecOn with
  | nil => rfl
  | append_singleton calls call ih =>
    rw [List.foldl_concat, ih]
    cases call with
    | insert key param =>
      simp [onto, lastInserted?, pushedSince, inserted?]
    | push key text =>
      simp [onto, lastInserted?, pushedSince, inserted?, pushed?]

end Call

/-- Pairs of which the first has come alone under its name. -/
theorem map_arrivalOf_eq_singleton_iff {pairs : List (Text × Text)}
    (each : ∀ pair ∈ pairs, StandsFor pair.1 name) :
    pairs.map arrivalOf = [⟨text, false⟩] ↔ pairs = [(name, text)] := by
  rw [List.map_eq_singleton_iff]
  constructor
  · rintro ⟨pair, rfl, alone⟩
    rw [(arrivalOf_eq_iff (each pair (by simp))).mp alone]
  · rintro rfl
    exact ⟨_, rfl, (arrivalOf_eq_iff (each _ (by simp))).mpr rfl⟩

/-- Under every name a query string gives the values of its pairs, once each and in order: none
without a pair, and a single text for one pair whose key is the name itself. Calls after it are
told by those under the name alone: there are the texts of the parameter that was set last, or
those that were read where none was set, and then the texts added since; and a single text is one
that was set, or one that came first and alone. -/
theorem get?_collected (raw : Text) (calls : List Call) (name : Text) :
    let pairs := pairsUnder raw name
    let read := NameMap.get? (parse raw) name
    let own := calls.filter (·.key = name)
    let inserted := Call.lastInserted? own
    let added := Call.pushedSince own
    let held := NameMap.get? (calls.foldl Call.run (parse raw)) name
    (read = none ↔ pairs = []) ∧
    texts read = pairs.map (·.2) ∧
    (∀ text, read = some (.single text) ↔ pairs = [(name, text)]) ∧
    (held = none ↔ pairs = [] ∧ inserted = none ∧ added = []) ∧
    texts held = inserted.elim (pairs.map (·.2)) Param.fragments ++ added ∧
    (∀ text, held = some (.single text) ↔
      inserted = some (.single text) ∧ added = [] ∨
      inserted = none ∧ pairs = [(name, text)] ∧ added = [] ∨
      inserted = none ∧ pairs = [] ∧ added = [text]) ∧
    ∀ others : List Call, others.filter (·.key = name) = own →
      NameMap.get? (others.foldl Call.run (parse raw)) name = held := by
  intro pairs read own inserted added held
  have stands : ∀ pair ∈ pairs, StandsFor pair.1 name := fun pair member =>
    of_decide_eq_true (List.mem_filter.mp member).2
  have absent : read = none ↔ pairs = [] := by
    rw [show read = _ from get?_parse raw name, arrivals_eq_none_iff]
    simp [pairs]
  have listed : texts read = pairs.map (·.2) := by
    rw [show read = _ from get?_parse raw name, texts_arrivals, List.map_map]
    rfl
  have alone (text : Text) : read = some (.single text) ↔ pairs = [(name, text)] := by
    rw [show read = _ from get?_parse raw name, arrivals_eq_single_iff,
      map_arrivalOf_eq_singleton_iff stands]
    simp
  have ran : held = (added.map fun text => ⟨text, false⟩).foldl Arrival.onto (inserted.or read) :=
    (Call.get?_runs (parse raw) calls name).trans (Call.runs_onto read own)
  refine ⟨absent, listed, alone, ?_, ?_, fun text => ?_, fun others same => ?_⟩
  · rw [ran, arrivals_eq_none_iff, Option.or_eq_none_iff, absent]
    simp [and_comm, and_assoc]
  · rw [ran, texts_arrivals, List.map_map]
    cases inserted with
    | none => simp [listed, Function.comp_def]
    | some param => simp [texts, Function.comp_def]
  · rw [ran, arrivals_eq_single_iff]
    cases inserted with
    | none => simp [alone, absent]
    | some param => simp
  · rw [Call.get?_runs, same]
    exact (Call.get?_runs (parse raw) calls name).symm

theorem get?_collected_mixed :
    let raw := "?a=1&b[]=y&a[2]=x+%26&[3]=w".toList
    let calls := [Call.push "c".toList "2".toList, .insert "b".toList (.list []),
      .push "b".toList "u".toList]
    let others := [Call.insert "b".toList (.list []), .push "b".toList "u".toList]
    let held (calls : List Call) (name : String) :=
      NameMap.get? (calls.foldl Call.run (parse raw)) name.toList
    texts (held [] "a") = ["1".toList, "x &".toList] ∧ held calls "c" = some (.single "2".toList) ∧
      texts (held calls "b") = ["u".toList] ∧ held calls "b" ≠ some (.single "u".toList) ∧
      others.filter (·.key = "b".toList) = calls.filter (·.key = "b".toList) ∧
      held others "b" = held calls "b" := by
  intro raw calls others held
  have pairs : pairsUnder raw "a".toList =
      [("a".toList, "1".toList), ("a[2]".toList, "x &".toList)] := by decide +kernel
  obtain ⟨_, read, _⟩ := get?_collected raw [] "a".toList
  obtain ⟨_, _, _, _, _, fresh, _⟩ := get?_collected raw calls "c".toList
  obtain ⟨_, _, _, _, added, alone, only⟩ := get?_collected raw calls "b".toList
  have same : others.filter (·.key = "b".toList) = calls.filter (·.key = "b".toList) := by
    decide +kernel
  refine ⟨?_, (fresh _).mpr (by decide +kernel), added.trans (by decide +kernel), ?_, same,
    only others same⟩
  · rw [pairs] at read
    exact read
  · rw [ne_eq, alone]
    decide +kernel

end RestQuery.Params
