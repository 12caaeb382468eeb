import RestQuery.Text.Basic

/-! Values under names, as lists in ascending order of names with no name twice. The
operations are total on all lists; the laws say when order matters. -/
namespace RestQuery.Entries

def Ascending (entries : List (Text × α)) : Prop := entries.Pairwise fun a b => a.1 < b.1

instance (entries : List (Text × α)) : Decidable (Ascending entries) :=
  inferInstanceAs (Decidable (entries.Pairwise fun a b => a.1 < b.1))

def find? (name : Text) : List (Text × α) → Option α
  | [] => none
  | (other, value) :: rest => if other = name then some value else find? name rest

/-- The value under `name` replaced by `change` of it, at its place in the order. -/
def alter (name : Text) (change : Option α → α) : List (Text × α) → List (Text × α)
  | [] => [(name, change none)]
  | (other, value) :: rest =>
    if name < other then (name, change none) :: (other, value) :: rest
    else if name = other then (name, change (some value)) :: rest
    else (other, value) :: alter name change rest

/-- Altering leaves the other entries alone, and changes what stood under the name. -/
theorem mem_alter (h : entry ∈ alter name change entries) :
    entry ∈ entries ∨ ∃ old, entry = (name, change old) ∧ ∀ value ∈ old, (name, value) ∈ entries := by
  induction entries with
  | nil => exact .inr ⟨none, by simpa [alter] using h, by simp⟩
  | cons head rest ih =>
    obtain ⟨other, value⟩ := head
    rw [alter] at h
    split at h
    · rcases List.mem_cons.mp h with fresh | h
      · exact .inr ⟨none, fresh, by simp⟩
      · exact .inl h
    · split at h
      · next same =>
        rcases List.mem_cons.mp h with changed | h
        · exact .inr ⟨some value, changed, by simp [same]⟩
        · exact .inl (List.mem_cons_of_mem _ h)
      · rcases List.mem_cons.mp h with kept | h
        · exact .inl (by simp [kept])
        · rcases ih h with kept | ⟨old, changed, present⟩
          · exact .inl (List.mem_cons_of_mem _ kept)
          · exact .inr ⟨old, changed, fun v found => List.mem_cons_of_mem _ (present v found)⟩

theorem name_of_mem_alter (h : entry ∈ alter name change entries) :
    entry.1 = name ∨ entry ∈ entries := by
  rcases mem_alter h with kept | ⟨old, rfl, _⟩
  · exact .inr kept
  · exact .inl rfl

theorem ascending_alter (h : Ascending entries) : Ascending (alter name change entries) := by
  induction entries with
  | nil => simp [alter, Ascending]
  | cons head rest ih =>
    obtain ⟨other, value⟩ := head
    obtain ⟨least, tail⟩ := List.pairwise_cons.mp h
    rw [alter]
    split
    · next before =>
      refine List.pairwise_cons.mpr ⟨fun entry member => ?_, h⟩
      rcases List.mem_cons.mp member with rfl | member
      · exact before
      · exact Text.lt_trans before (least _ member)
    · next notBefore =>
      split
      · next same => exact List.pairwise_cons.mpr ⟨fun entry member => same ▸ least _ member, tail⟩
      · next apart =>
        refine List.pairwise_cons.mpr ⟨fun entry member => ?_, ih tail⟩
        rcases name_of_mem_alter member with same | member
        · exact same ▸ Text.lt_of_not_lt notBefore apart
        · exact least _ member

theorem find?_eq_none_of_lt {entries : List (Text × α)} (h : ∀ entry ∈ entries, name < entry.1) :
    find? name entries = none := by
  induction entries with
  | nil => rfl
  | cons head rest ih =>
    have apart : head.1 ≠ name := (Text.ne_of_lt (h head (by simp))).symm
    simp only [find?, apart, if_false]
    exact ih fun entry member => h entry (by simp [member])

theorem find?_alter_self (h : Ascending entries) :
    find? name (alter name change entries) = some (change (find? name entries)) := by
  induction entries with
  | nil => simp [alter, find?]
  | cons head rest ih =>
    obtain ⟨other, value⟩ := head
    obtain ⟨least, tail⟩ := List.pairwise_cons.mp h
    rw [alter]
    split
    · next before =>
      have apart : other ≠ name := (Text.ne_of_lt before).symm
      have absent : find? name rest = none := find?_eq_none_of_lt fun entry member =>
        Text.lt_trans before (least _ member)
      simp [find?, apart, absent]
    · split
      · next same => simp [find?, same]
      · next apart =>
        have apart : other ≠ name := fun same => apart same.symm
        simp [find?, apart, ih tail]

theorem find?_alter_of_ne (apart : wanted ≠ name) :
    find? wanted (alter name change entries) = find? wanted entries := by
  have apart : name ≠ wanted := fun same => apart same.symm
  induction entries with
  | nil => simp [alter, find?, apart]
  | cons head rest ih =>
    obtain ⟨other, value⟩ := head
    rw [alter]
    split
    · simp [find?, apart]
    · split
      · next same => simp [find?, apart, ← same]
      · simp [find?, ih]

theorem find?_eq_some_iff (h : Ascending entries) :
    find? name entries = some value ↔ (name, value) ∈ entries := by
  induction entries with
  | nil => simp [find?]
  | cons head rest ih =>
    obtain ⟨other, kept⟩ := head
    obtain ⟨least, tail⟩ := List.pairwise_cons.mp h
    by_cases same : other = name
    · have outside : (name, value) ∉ rest := fun member =>
        Text.lt_irrefl name (same ▸ least _ member)
      simp [find?, same, outside, eq_comm]
    · have apart : name ≠ other := fun h => same h.symm
      simp [find?, same, apart, ih tail]

theorem find?_map (f : Text → α → β) (entries : List (Text × α)) :
    find? name (entries.map fun entry => (entry.1, f entry.1 entry.2)) =
      (find? name entries).map (f name) := by
  induction entries with
  | nil => rfl
  | cons head rest ih =>
    by_cases same : head.1 = name
    · simp [find?, same]
    · simp [find?, same, ih]

/-- Lists in ascending order that find the same values are equal. -/
theorem ext_of_find? {a b : List (Text × α)} (first : Ascending a) (second : Ascending b)
    (same : ∀ name, find? name a = find? name b) : a = b := by
  have distinct (entries : List (Text × α)) (h : Ascending entries) : entries.Nodup :=
    List.nodup_iff_pairwise_ne.mpr <| h.imp fun less same =>
      Text.ne_of_lt less (congrArg Prod.fst same)
  have permuted : a.Perm b :=
    (List.perm_ext_iff_of_nodup (distinct a first) (distinct b second)).mpr fun (name, value) => by
      rw [← find?_eq_some_iff first, ← find?_eq_some_iff second, same]
  exact permuted.eq_of_pairwise (fun x y _ _ less more => absurd more (Text.lt_asymm less))
    first second

end RestQuery.Entries

/-! Maps from names to values. A map holds its entries in ascending order of names, so
that maps with the same values under the same names are equal. -/
namespace RestQuery

structure NameMap (α : Type) where
  entries : List (Text × α)
  ascending : Entries.Ascending entries
  deriving DecidableEq, Repr

namespace NameMap

def empty : NameMap α := ⟨[], .nil⟩

def isEmpty (map : NameMap α) : Bool := map.entries.isEmpty

def get? (map : NameMap α) (name : Text) : Option α := Entries.find? name map.entries

def contains (map : NameMap α) (name : Text) : Bool := (map.get? name).isSome

def alter (map : NameMap α) (name : Text) (change : Option α → α) : NameMap α :=
  ⟨Entries.alter name change map.entries, Entries.ascending_alter map.ascending⟩

def insert (map : NameMap α) (name : Text) (value : α) : NameMap α :=
  map.alter name fun _ => value

def ofList (entries : List (Text × α)) : NameMap α :=
  entries.foldl (fun map (name, value) => map.insert name value) empty

def names (map : NameMap α) : List Text := map.entries.map (·.1)

def size (map : NameMap α) : Nat := map.entries.length

theorem mapValues_ascending (map : NameMap α) (f : Text → α → β) :
    Entries.Ascending (map.entries.map fun entry => (entry.1, f entry.1 entry.2)) :=
  List.pairwise_map.mpr map.ascending

def mapValues (map : NameMap α) (f : Text → α → β) : NameMap β :=
  ⟨map.entries.map fun entry => (entry.1, f entry.1 entry.2), map.mapValues_ascending f⟩

@[simp] theorem get?_empty : (empty : NameMap α).get? name = none := rfl

@[simp] theorem get?_alter_self (map : NameMap α) :
    (map.alter name change).get? name = some (change (map.get? name)) :=
  Entries.find?_alter_self map.ascending

theorem get?_alter_of_ne (map : NameMap α) (apart : wanted ≠ name) :
    (map.alter name change).get? wanted = map.get? wanted :=
  Entries.find?_alter_of_ne apart

@[simp] theorem get?_insert_self (map : NameMap α) :
    (map.insert name value).get? name = some value := get?_alter_self map

theorem get?_insert_of_ne (map : NameMap α) (apart : wanted ≠ name) :
    (map.insert name value).get? wanted = map.get? wanted := get?_alter_of_ne map apart

theorem get?_eq_some_iff (map : NameMap α) :
    map.get? name = some value ↔ (name, value) ∈ map.entries :=
  Entries.find?_eq_some_iff map.ascending

@[simp] theorem get?_mapValues (map : NameMap α) (f : Text → α → β) :
    (map.mapValues f).get? name = (map.get? name).map (f name) := Entries.find?_map f map.entries

/-- What is found after inserting a list is in the list or was found before. -/
theorem get?_foldl_insert {entries : List (Text × α)} {map : NameMap α}
    (h : (entries.foldl (fun map (name, value) => map.insert name value) map).get? name =
      some value) : (name, value) ∈ entries ∨ map.get? name = some value := by
  induction entries generalizing map with
  | nil => exact .inr h
  | cons head rest ih =>
    rcases ih h with later | before
    · exact .inl (List.mem_cons_of_mem _ later)
    · by_cases same : name = head.1
      · subst same
        rw [get?_insert_self] at before
        exact .inl (by simp [← Option.some.inj before])
      · rw [get?_insert_of_ne _ same] at before
        exact .inr before

theorem mem_of_get?_ofList {entries : List (Text × α)}
    (h : (ofList entries).get? name = some value) : (name, value) ∈ entries := by
  simpa using get?_foldl_insert h

theorem ext_get? {a b : NameMap α} (same : ∀ name, a.get? name = b.get? name) : a = b := by
  have entries : a.entries = b.entries := Entries.ext_of_find? a.ascending b.ascending same
  cases a
  cases b
  simp_all

end NameMap
end RestQuery

/-! Sets of names, as lists in ascending order with no name twice. -/
namespace RestQuery.Names

def Ascending (names : List Text) : Prop := names.Pairwise (· < ·)

instance (names : List Text) : Decidable (Ascending names) :=
  inferInstanceAs (Decidable (names.Pairwise (· < ·)))

def insert (name : Text) : List Text → List Text
  | [] => [name]
  | other :: rest =>
    if name < other then name :: other :: rest
    else if name = other then other :: rest
    else other :: insert name rest

/-- The names of both lists, where the first is in order. -/
def union (names more : List Text) : List Text := more.foldl (fun all name => insert name all) names

theorem mem_insert : wanted ∈ insert name names ↔ wanted = name ∨ wanted ∈ names := by
  induction names with
  | nil => simp [insert]
  | cons other rest ih =>
    rw [insert]
    split
    · simp
    · split
      · next same => simp [same]
      · simp only [List.mem_cons, ih]
        exact or_left_comm

theorem ascending_insert (h : Ascending names) : Ascending (insert name names) := by
  induction names with
  | nil => simp [insert, Ascending]
  | cons other rest ih =>
    obtain ⟨least, tail⟩ := List.pairwise_cons.mp h
    rw [insert]
    split
    · next before =>
      refine List.pairwise_cons.mpr ⟨fun entry member => ?_, h⟩
      rcases List.mem_cons.mp member with rfl | member
      · exact before
      · exact Text.lt_trans before (least _ member)
    · next notBefore =>
      split
      · exact h
      · next apart =>
        refine List.pairwise_cons.mpr ⟨fun entry member => ?_, ih tail⟩
        rcases mem_insert.mp member with rfl | member
        · exact Text.lt_of_not_lt notBefore apart
        · exact least _ member

theorem mem_union : wanted ∈ union names more ↔ wanted ∈ names ∨ wanted ∈ more := by
  induction more generalizing names with
  | nil => simp [union]
  | cons name more ih =>
    have step : union names (name :: more) = union (insert name names) more := rfl
    rw [step, ih, mem_insert, List.mem_cons]
    constructor
    · rintro ((rfl | h) | h) <;> simp_all
    · rintro (h | rfl | h) <;> simp_all

theorem ascending_union (h : Ascending names) : Ascending (union names more) := by
  induction more generalizing names with
  | nil => exact h
  | cons name more ih =>
    have step : union names (name :: more) = union (insert name names) more := rfl
    rw [step]
    exact ih (ascending_insert h)

/-- Sets with the same members are equal. -/
theorem ext_of_mem (first : Ascending a) (second : Ascending b)
    (same : ∀ name, name ∈ a ↔ name ∈ b) : a = b := by
  have distinct (names : List Text) (h : Ascending names) : names.Nodup :=
    List.nodup_iff_pairwise_ne.mpr (h.imp Text.ne_of_lt)
  have permuted : a.Perm b :=
    (List.perm_ext_iff_of_nodup (distinct a first) (distinct b second)).mpr same
  exact permuted.eq_of_pairwise (fun x y _ _ less more => absurd more (Text.lt_asymm less))
    first second

end RestQuery.Names
