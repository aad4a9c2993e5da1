import Mathlib.Data.List.Nodup
import ApiLoad.Foundation.JsonValue

/-!
# Paths into JSON values

A path leads from a value to one of its parts by the names of members and the positions of items.
Setting the part at a path changes what stands there and nothing at the paths that neither lead to
it nor through it. The properties of a value that speak of all its parts are stated by paths.
-/
namespace ApiLoad.Foundation.Json
open Option

variable {τ ν : Type}

/-- Induction over values: an array and an object may use the property of every part. -/
theorem induction_on {motive : Json τ ν → Prop} (value : Json τ ν)
    (null : motive .null) (bool : ∀ b, motive (.bool b)) (num : ∀ n, motive (.num n))
    (str : ∀ text, motive (.str text))
    (arr : ∀ items, (∀ item ∈ items, motive item) → motive (.arr items))
    (obj : ∀ members : List (τ × Json τ ν), (∀ m ∈ members, motive m.2) → motive (.obj members)) :
    motive value :=
  @Json.rec τ ν motive (fun items => ∀ item ∈ items, motive item)
    (fun members => ∀ m ∈ members, motive m.2) (fun m => motive m.2)
    null bool num str arr obj (List.forall_mem_nil _)
    (fun _ _ item items => List.forall_mem_cons.mpr ⟨item, items⟩) (List.forall_mem_nil _)
    (fun _ _ m members => List.forall_mem_cons.mpr ⟨m, members⟩) (fun _ _ value => value) value

inductive Step (τ : Type) where
  | name (name : τ)
  | index (position : Nat)
deriving DecidableEq, Repr

variable [DecidableEq τ]

/-- The part of a value behind one step: the first member of a name, the item at a position. -/
def child : Json τ ν → Step τ → Option (Json τ ν)
  | .obj members, .name name => (members.find? fun m => m.1 = name).map Prod.snd
  | .arr items, .index position => items[position]?
  | _, _ => none

def valueAt : Json τ ν → List (Step τ) → Option (Json τ ν)
  | value, [] => some value
  | value, step :: path => (value.child step).bind fun part => part.valueAt path

def setChild : Json τ ν → Step τ → Json τ ν → Json τ ν
  | .obj members, .name name, part =>
    .obj (members.map fun m => if m.1 = name then (m.1, part) else m)
  | .arr items, .index position, part => .arr (items.set position part)
  | value, _, _ => value

def setAt : Json τ ν → List (Step τ) → Json τ ν → Json τ ν
  | _, [], part => part
  | value, step :: path, part =>
    match value.child step with
    | none => value
    | some inner => value.setChild step (inner.setAt path part)

/-! ## Getting and setting -/

section Laws

variable {value : Json τ ν}

@[simp] theorem valueAt_nil : value.valueAt [] = some value := rfl

theorem valueAt_cons :
    value.valueAt (step :: path) = (value.child step).bind fun part => part.valueAt path := rfl

theorem valueAt_append :
    value.valueAt (path ++ more) = (value.valueAt path).bind fun part => part.valueAt more := by
  induction path generalizing value with
  | nil => rfl
  | cons step path ih =>
    rw [List.cons_append, valueAt_cons, valueAt_cons, bind_assoc]
    exact congrArg _ (funext fun _ => ih)

/-- There is nothing behind a text. -/
theorem eq_nil_of_valueAt_str (h : (str text : Json τ ν).valueAt path = some part) : path = [] := by
  cases path with
  | nil => rfl
  | cons step path => simp [valueAt_cons, child] at h

theorem child_setChild_self (h : value.child step = some old) :
    (value.setChild step part).child step = some part := by
  cases value with
  | obj members =>
    cases step with
    | name name =>
      obtain ⟨m, hm, -⟩ := map_eq_some_iff.mp h
      have named : m.1 = name := by simpa using List.find?_some hm
      have kept : ((fun m : τ × Json τ ν => decide (m.1 = name)) ∘
          fun m : τ × Json τ ν => if m.1 = name then (m.1, part) else m) =
          fun m => decide (m.1 = name) := by
        funext m
        by_cases h : m.1 = name <;> simp [h]
      simp only [setChild, child, List.find?_map, kept, hm, map_some, if_pos named]
    | index position => cases h
  | arr items =>
    cases step with
    | name name => cases h
    | index position =>
      obtain ⟨bound, -⟩ := List.getElem?_eq_some_iff.mp h
      simp [setChild, child, bound]
  | _ => cases step <;> cases h

theorem child_setChild_of_ne (h : step ≠ other) :
    (value.setChild step part).child other = value.child other := by
  cases value with
  | obj members =>
    cases step with
    | name name =>
      cases other with
      | name asked =>
        have differ : name ≠ asked := fun e => h (e ▸ rfl)
        have kept : ((fun m : τ × Json τ ν => decide (m.1 = asked)) ∘
            fun m : τ × Json τ ν => if m.1 = name then (m.1, part) else m) =
            fun m => decide (m.1 = asked) := by
          funext m
          by_cases h : m.1 = name <;> simp [h]
        simp only [setChild, child, List.find?_map, kept, map_map]
        refine map_congr fun m hm => ?_
        have named : m.1 = asked := by simpa using List.find?_some hm
        simp [named, differ.symm]
      | index position => rfl
    | index position => rfl
  | arr items =>
    cases step with
    | name name => rfl
    | index position =>
      cases other with
      | name asked => rfl
      | index asked =>
        have differ : position ≠ asked := fun e => h (e ▸ rfl)
        simp [setChild, child, List.getElem?_set_ne differ]
  | _ => cases step <;> rfl

theorem valueAt_setAt_self (h : value.valueAt path = some old) :
    (value.setAt path part).valueAt path = some part := by
  induction path generalizing value with
  | nil => rfl
  | cons step path ih =>
    obtain ⟨behind, found, rest⟩ := bind_eq_some_iff.mp h
    rw [setAt, found, valueAt_cons, child_setChild_self found]
    exact ih rest

/-- Setting at a path keeps what stands at the paths that part from it. -/
theorem valueAt_setAt_of_not_isPrefix (h : ¬ path <+: more) (h' : ¬ more <+: path) :
    (value.setAt path part).valueAt more = value.valueAt more := by
  induction path generalizing value more with
  | nil => exact absurd List.nil_prefix h
  | cons step path ih =>
    cases more with
    | nil => exact absurd List.nil_prefix h'
    | cons other more =>
      cases found : value.child step with
      | none => simp only [setAt, found]
      | some inner =>
        simp only [setAt, found, valueAt_cons]
        by_cases same : step = other
        · subst same
          rw [child_setChild_self found, found]
          exact ih (fun p => h (List.prefix_cons_inj step |>.mpr p))
            fun p => h' (List.prefix_cons_inj step |>.mpr p)
        · rw [child_setChild_of_ne same]

theorem not_isPrefix_of_str (h : value.valueAt path = some (.str text))
    (h' : value.valueAt more = some part) (differ : path ≠ more) : ¬ path <+: more := by
  rintro ⟨rest, rfl⟩
  rw [valueAt_append, h] at h'
  have := eq_nil_of_valueAt_str h'
  subst this
  simp at differ

/-- Setting a text keeps every other text. -/
theorem valueAt_setAt_str (h : value.valueAt path = some (.str text))
    (h' : value.valueAt more = some (.str another)) (differ : path ≠ more) :
    (value.setAt path (.str replaced)).valueAt more = some (.str another) := by
  rw [valueAt_setAt_of_not_isPrefix (not_isPrefix_of_str h h' differ)
    (not_isPrefix_of_str h' h differ.symm), h']

end Laws

/-! ## Properties of all parts -/

/-- No object has two members of one name. -/
def Distinct (value : Json τ ν) : Prop :=
  ∀ path members, value.valueAt path = some (.obj members) → (members.map Prod.fst).Nodup

/-- A property of a value and of all its parts. -/
def AllParts (p : Json τ ν → Prop) (value : Json τ ν) : Prop :=
  ∀ path part, value.valueAt path = some part → p part

/-- What a value is without its texts and its parts. -/
inductive Kind (τ ν : Type) where
  | null
  | bool (value : Bool)
  | num (value : ν)
  | str
  | arr (length : Nat)
  | obj (names : List τ)

def kind : Json τ ν → Kind τ ν
  | .null => .null
  | .bool b => .bool b
  | .num n => .num n
  | .str _ => .str
  | .arr items => .arr items.length
  | .obj members => .obj (members.map Prod.fst)

/-- Two values that differ in their texts only. -/
def SameStructure (left right : Json τ ν) : Prop :=
  ∀ path, (left.valueAt path).map kind = (right.valueAt path).map kind

section Parts

variable {value : Json τ ν} {members : List (τ × Json τ ν)}

theorem Distinct.child (h : value.Distinct) (found : value.child step = some part) :
    part.Distinct := by
  intro path members hp
  refine h (step :: path) members ?_
  rw [valueAt_cons, found]
  exact hp

theorem Distinct.str : (Json.str text : Json τ ν).Distinct := by
  intro path members hp
  obtain rfl := eq_nil_of_valueAt_str hp
  cases hp

theorem Distinct.arr {items : List (Json τ ν)} (h : ∀ item ∈ items, item.Distinct) :
    (Json.arr items).Distinct := by
  intro path members hp
  cases path with
  | nil => cases hp
  | cons step path =>
    obtain ⟨item, found, behind⟩ := bind_eq_some_iff.mp hp
    cases step with
    | name name => cases found
    | index i => exact h item (List.mem_of_getElem? found) path members behind

theorem Distinct.obj (names : (members.map Prod.fst).Nodup) (h : ∀ m ∈ members, m.2.Distinct) :
    (Json.obj members).Distinct := by
  intro path found hp
  cases path with
  | nil =>
    cases hp
    exact names
  | cons step path =>
    obtain ⟨inner, hc, behind⟩ := bind_eq_some_iff.mp hp
    cases step with
    | index i => cases hc
    | name name =>
      obtain ⟨m, hm, rfl⟩ := map_eq_some_iff.mp hc
      exact h m (List.mem_of_find?_eq_some hm) path found behind

/-- In an object without repeated names a member is found by its name. -/
theorem child_obj_iff (h : (members.map Prod.fst).Nodup) :
    (obj members).child (.name name) = some part ↔ (name, part) ∈ members := by
  rw [child, map_eq_some_iff]
  constructor
  · rintro ⟨m, found, rfl⟩
    have named : m.1 = name := by simpa using List.find?_some found
    rw [← named]
    exact List.mem_of_find?_eq_some found
  intro mem
  have present : ((members.find? fun m => m.1 = name)).isSome := by
    rw [List.find?_isSome]
    exact ⟨_, mem, by simp⟩
  obtain ⟨m, found⟩ := isSome_iff_exists.mp present
  have named : m.1 = name := by simpa using List.find?_some found
  have same := List.inj_on_of_nodup_map h (List.mem_of_find?_eq_some found) mem named
  exact ⟨m, found, by rw [same]⟩

/-- Every proper beginning of a path that leads somewhere can be followed by its next step. -/
theorem child_of_valueAt (h : value.valueAt (front ++ step :: back) = some part) :
    ∃ inner behind, value.valueAt front = some inner ∧ inner.child step = some behind := by
  rw [valueAt_append] at h
  obtain ⟨inner, hi, h⟩ := bind_eq_some_iff.mp h
  obtain ⟨behind, found, -⟩ := bind_eq_some_iff.mp h
  exact ⟨inner, behind, hi, found⟩

section AllParts

variable {p : Json τ ν → Prop}

theorem AllParts.leaf (h : p value) (childless : ∀ step, value.child step = none) :
    value.AllParts p := by
  intro path part found
  cases path with
  | nil => exact some.inj found ▸ h
  | cons step path =>
    rw [valueAt_cons, childless] at found
    cases found

theorem AllParts.arr {items : List (Json τ ν)} (h : p (.arr items))
    (each : ∀ item ∈ items, item.AllParts p) : (Json.arr items).AllParts p := by
  intro path part found
  cases path with
  | nil => exact some.inj found ▸ h
  | cons step path =>
    obtain ⟨item, there, behind⟩ := bind_eq_some_iff.mp found
    cases step with
    | name name => cases there
    | index i => exact each item (List.mem_of_getElem? there) path part behind

theorem AllParts.obj (h : p (.obj members)) (each : ∀ m ∈ members, m.2.AllParts p) :
    (Json.obj members).AllParts p := by
  intro path part found
  cases path with
  | nil => exact some.inj found ▸ h
  | cons step path =>
    obtain ⟨inner, there, behind⟩ := bind_eq_some_iff.mp found
    cases step with
    | index i => cases there
    | name name =>
      obtain ⟨m, hm, rfl⟩ := map_eq_some_iff.mp there
      exact each m (List.mem_of_find?_eq_some hm) path part behind

end AllParts

theorem SameStructure.str_of_str (h : SameStructure value other)
    (found : other.valueAt path = some (.str text)) :
    ∃ text', value.valueAt path = some (.str text') := by
  have same := h path
  rw [found, map_some, map_eq_some_iff] at same
  obtain ⟨part, hp, hk⟩ := same
  cases part with
  | str text' => exact ⟨text', hp⟩
  | _ => cases hk

end Parts

end ApiLoad.Foundation.Json
