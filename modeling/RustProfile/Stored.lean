import RustProfile.Slabs
import Mathlib.Algebra.BigOperators.Group.List.Basic
import Mathlib.Logic.Relation

/-!
# Values stored in slabs

A value is stored when parts of it have been moved to slabs and stand behind
placeholders. What a value and a stored value cost, and how deep they nest, is
counted here the way the two readers of profiles count it.
-/

namespace RustProfile

/-! ## Counting in values -/

/-- What to make of a value from its parts. -/
structure ValueAlgebra (F α : Type) where
  scalar : Value F → α
  array : List α → α
  object : List String → List α → α

/-- What counts the same in arrays and in objects. -/
def ValueAlgebra.measure {F : Type} (scalar : ℕ) (container : List ℕ → ℕ) : ValueAlgebra F ℕ :=
  ⟨fun _ => scalar, container, fun _ => container⟩

section
variable {F α : Type} (alg : ValueAlgebra F α)

mutual

def ValueAlgebra.fold : Value F → α
  | .null => alg.scalar .null
  | .bool b => alg.scalar (.bool b)
  | .number n => alg.scalar (.number n)
  | .string s => alg.scalar (.string s)
  | .array values => alg.array (foldValues values)
  | .object fields => alg.object (fields.map Prod.fst) (foldFields fields)

def ValueAlgebra.foldValues : List (Value F) → List α
  | [] => []
  | value :: values => fold value :: foldValues values

def ValueAlgebra.foldFields : List (String × Value F) → List α
  | [] => []
  | (_, value) :: fields => fold value :: foldFields fields

end

theorem ValueAlgebra.fold_array (values : List (Value F)) :
    alg.fold (.array values) = alg.array (values.map alg.fold) := by
  have hvalues : alg.foldValues values = values.map alg.fold := by
    induction values with
    | nil => rfl
    | cons value values ih => rw [foldValues, ih, List.map_cons]
  rw [fold, hvalues]

theorem ValueAlgebra.fold_object (fields : List (String × Value F)) :
    alg.fold (.object fields) = alg.object (fields.map Prod.fst) (fields.map fun field => alg.fold field.2) := by
  have hfields : alg.foldFields fields = fields.map fun field => alg.fold field.2 := by
    induction fields with
    | nil => rfl
    | cons field fields ih =>
      obtain ⟨name, value⟩ := field
      rw [foldFields, ih, List.map_cons]
  rw [fold, hfields]

/-- Values without parts. -/
def Value.isScalar : Value F → Bool
  | .array _ => false
  | .object _ => false
  | _ => true

theorem ValueAlgebra.fold_scalar {value : Value F} (h : value.isScalar = true) : alg.fold value = alg.scalar value := by
  cases value with
  | array _ => cases h
  | object _ => cases h
  | _ => rw [fold]

end

namespace Value

section
variable {F : Type}

def nodes : Value F → ℕ := (ValueAlgebra.measure 1 fun ns => 1 + ns.sum).fold

/-- The depths that the value takes. -/
def levels : Value F → ℕ := (ValueAlgebra.measure 1 fun ls => 1 + ls.foldr max 0).fold

/-- A container is charged for its parts, and each scalar for itself. -/
def charge : Value F → ℕ := (ValueAlgebra.measure 1 fun cs => cs.length + cs.sum).fold

theorem nodes_array (values : List (Value F)) : nodes (.array values) = 1 + (values.map nodes).sum :=
  ValueAlgebra.fold_array _ values

theorem nodes_object (fields : List (String × Value F)) :
    nodes (.object fields) = 1 + (fields.map fun field => field.2.nodes).sum := ValueAlgebra.fold_object _ fields

theorem nodes_scalar {value : Value F} (h : value.isScalar = true) : value.nodes = 1 := ValueAlgebra.fold_scalar _ h

theorem levels_array (values : List (Value F)) : levels (.array values) = 1 + (values.map levels).foldr max 0 :=
  ValueAlgebra.fold_array _ values

theorem levels_object (fields : List (String × Value F)) :
    levels (.object fields) = 1 + (fields.map fun field => field.2.levels).foldr max 0 :=
      ValueAlgebra.fold_object _ fields

theorem levels_scalar {value : Value F} (h : value.isScalar = true) : value.levels = 1 := ValueAlgebra.fold_scalar _ h

theorem charge_array (values : List (Value F)) :
    charge (.array values) = (values.map charge).length + (values.map charge).sum := ValueAlgebra.fold_array _ values

theorem charge_object (fields : List (String × Value F)) : charge (.object fields) =
    (fields.map fun field => field.2.charge).length + (fields.map fun field => field.2.charge).sum :=
  ValueAlgebra.fold_object _ fields

theorem charge_scalar {value : Value F} (h : value.isScalar = true) : value.charge = 1 := ValueAlgebra.fold_scalar _ h

inductive Plain : Value F → Prop
  | scalar {value : Value F} : value.isScalar = true → Plain value
  | array {values : List (Value F)} : (∀ value ∈ values, Plain value) → Plain (.array values)
  | object {fields : List (String × Value F)} : fields.map Prod.fst ≠ ["$s"] → (∀ field ∈ fields, Plain field.2) →
      Plain (.object fields)

def placeholderOf (index : UInt64) : Value F := .object [("$s", .number (.posInt index))]

end

end Value

/-! ## Stored values -/

/-- A value, with the parts of it that are in slabs. -/
inductive Stored (F : Type) where
  | scalar (value : Value F)
  | array (items : List (Stored F))
  | object (fields : List (String × Stored F))
  | json (index : UInt64) (content : Stored F)
  | typed (index : UInt64) (values : List (Value F))

structure StoredAlgebra (F α : Type) extends ValueAlgebra F α where
  json : UInt64 → α → α
  typed : UInt64 → List (Value F) → α

section
variable {F α : Type} (alg : StoredAlgebra F α)

mutual

def StoredAlgebra.fold : Stored F → α
  | .scalar value => alg.scalar value
  | .array items => alg.array (foldItems items)
  | .object fields => alg.object (fields.map Prod.fst) (foldFields fields)
  | .json index content => alg.json index (fold content)
  | .typed index values => alg.typed index values

def StoredAlgebra.foldItems : List (Stored F) → List α
  | [] => []
  | item :: items => fold item :: foldItems items

def StoredAlgebra.foldFields : List (String × Stored F) → List α
  | [] => []
  | (_, item) :: fields => fold item :: foldFields fields

end

theorem StoredAlgebra.fold_array (items : List (Stored F)) :
    alg.fold (.array items) = alg.array (items.map alg.fold) := by
  have hitems : alg.foldItems items = items.map alg.fold := by
    induction items with
    | nil => rfl
    | cons item items ih => rw [foldItems, ih, List.map_cons]
  rw [fold, hitems]

theorem StoredAlgebra.fold_object (fields : List (String × Stored F)) :
    alg.fold (.object fields) = alg.object (fields.map Prod.fst) (fields.map fun field => alg.fold field.2) := by
  have hfields : alg.foldFields fields = fields.map fun field => alg.fold field.2 := by
    induction fields with
    | nil => rfl
    | cons field fields ih =>
      obtain ⟨name, item⟩ := field
      rw [foldFields, ih, List.map_cons]
  rw [fold, hfields]

end

namespace Stored

section
variable {F : Type}

def objectOf (names : List String) (parts : List (Value F)) : Value F := .object (names.zip parts)

/-- What the file has in the place of the value. -/
def root : Stored F → Value F :=
  StoredAlgebra.fold ⟨⟨id, .array, objectOf⟩, fun index _ => Value.placeholderOf index,
    fun index _ => Value.placeholderOf index⟩

def value : Stored F → Value F := StoredAlgebra.fold ⟨⟨id, .array, objectOf⟩, fun _ content => content, fun _ => .array⟩

/-- A placeholder of JSON is a depth of its own; the numbers of a typed slab are none. -/
def levels : Stored F → ℕ :=
  StoredAlgebra.fold ⟨.measure 1 fun ls => 1 + ls.foldr max 0, fun _ l => l + 1, fun _ _ => 1⟩

/-- A typed slab is charged once for each number, a placeholder not at all. -/
def charge : Stored F → ℕ :=
  StoredAlgebra.fold ⟨.measure 1 fun cs => cs.length + cs.sum, fun _ c => c, fun _ values => values.length⟩

def typedElements : Stored F → ℕ :=
  StoredAlgebra.fold ⟨.measure 0 List.sum, fun _ n => n, fun _ values => values.length⟩

def size : Stored F → ℕ := StoredAlgebra.fold ⟨.measure 1 fun ns => 1 + ns.sum, fun _ n => n + 1, fun _ _ => 1⟩

theorem objectOf_map {α : Type} (name : α → String) (part : α → Value F) (l : List α) :
    objectOf (l.map name) (l.map part) = .object (l.map fun a => (name a, part a)) := by
  rw [objectOf, List.zip_map']

theorem root_array (items : List (Stored F)) : root (.array items) = .array (items.map root) :=
  StoredAlgebra.fold_array _ items

theorem root_object (fields : List (String × Stored F)) :
    root (.object fields) = .object (fields.map fun field => (field.1, field.2.root)) :=
  (StoredAlgebra.fold_object _ fields).trans (objectOf_map _ _ _)

theorem value_array (items : List (Stored F)) : value (.array items) = .array (items.map value) :=
  StoredAlgebra.fold_array _ items

theorem value_object (fields : List (String × Stored F)) :
    value (.object fields) = .object (fields.map fun field => (field.1, field.2.value)) :=
  (StoredAlgebra.fold_object _ fields).trans (objectOf_map _ _ _)

theorem levels_array (items : List (Stored F)) : levels (.array items) = 1 + (items.map levels).foldr max 0 :=
  StoredAlgebra.fold_array _ items

theorem levels_object (fields : List (String × Stored F)) :
    levels (.object fields) = 1 + (fields.map fun field => field.2.levels).foldr max 0 :=
      StoredAlgebra.fold_object _ fields

theorem charge_array (items : List (Stored F)) :
    charge (.array items) = (items.map charge).length + (items.map charge).sum := StoredAlgebra.fold_array _ items

theorem charge_object (fields : List (String × Stored F)) : charge (.object fields) =
    (fields.map fun field => field.2.charge).length + (fields.map fun field => field.2.charge).sum :=
  StoredAlgebra.fold_object _ fields

theorem typedElements_array (items : List (Stored F)) :
    typedElements (.array items) = (items.map typedElements).sum := StoredAlgebra.fold_array _ items

theorem typedElements_object (fields : List (String × Stored F)) :
    typedElements (.object fields) = (fields.map fun field => field.2.typedElements).sum :=
  StoredAlgebra.fold_object _ fields

theorem size_array (items : List (Stored F)) : size (.array items) = 1 + (items.map size).sum :=
  StoredAlgebra.fold_array _ items

theorem size_object (fields : List (String × Stored F)) :
    size (.object fields) = 1 + (fields.map fun field => field.2.size).sum := StoredAlgebra.fold_object _ fields

end

end Stored

theorem foldr_max_le {ls : List ℕ} {n : ℕ} : ls.foldr max 0 ≤ n ↔ ∀ l ∈ ls, l ≤ n := by
  induction ls with
  | nil => simp
  | cons l ls ih => rw [List.foldr_cons, max_le_iff, ih, List.forall_mem_cons]

end RustProfile
