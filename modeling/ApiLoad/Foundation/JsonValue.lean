import Mathlib.Data.List.Basic

/-!
# JSON values

A value of a JSON document, with texts and numbers of any type, and the reading of the members of an
object into the fields of a record: the last member of a name counts, an absent member and `null`
leave the field as it is, and a decoder may refuse members it does not know.
-/
namespace ApiLoad.Foundation

inductive Json (τ ν : Type) where
  | null
  | bool (value : Bool)
  | num (value : ν)
  | str (value : τ)
  | arr (items : List (Json τ ν))
  | obj (members : List (τ × Json τ ν))

namespace Json

variable {τ ν α : Type} [DecidableEq τ]

def member (members : List (τ × Json τ ν)) (name : τ) : Option (Json τ ν) :=
  (members.filter fun m => m.1 = name).getLast?.map Prod.snd

/-- A field whose member is absent or null keeps its zero value. -/
def field (members : List (τ × Json τ ν)) (name : τ) (zero : α)
    (decode : Json τ ν → Except String α) : Except String α :=
  match member members name with
  | none | some .null => .ok zero
  | some value => decode value

/-- A field that is a reference. -/
def optionalField (members : List (τ × Json τ ν)) (name : τ)
    (decode : Json τ ν → Except String α) : Except String (Option α) :=
  field members name none fun value => some <$> decode value

def mismatch : String := "json: cannot unmarshal value"

def asString : Json τ ν → Except String τ
  | .str text => .ok text
  | _ => .error mismatch

def asNumber : Json τ ν → Except String ν
  | .num n => .ok n
  | _ => .error mismatch

def asArray (decode : Json τ ν → Except String α) : Json τ ν → Except String (List α)
  | .arr items => items.mapM decode
  | _ => .error mismatch

/-- The members of a record, all of them known; `null` is a record without members. -/
def asRecord (known : List String) :
    Json String ν → Except String (List (String × Json String ν))
  | .null => .ok []
  | .obj members =>
    match members.find? fun m => m.1 ∉ known with
    | some m => .error ("json: unknown field \"" ++ m.1 ++ "\"")
    | none => .ok members
  | _ => .error mismatch

section Members

variable {members more : List (τ × Json τ ν)} {name other : τ} {value : Json τ ν}

@[simp] theorem member_nil : member ([] : List (τ × Json τ ν)) name = none := rfl

@[simp] theorem member_append :
    member (members ++ more) name = (member more name).or (member members name) := by
  unfold member
  rw [List.filter_append, List.getLast?_append]
  cases (more.filter fun m => m.1 = name).getLast? <;> rfl

@[simp] theorem member_cons :
    member ((other, value) :: members) name =
      (member members name).or (if other = name then some value else none) := by
  rw [← List.singleton_append, member_append]
  congr 1
  by_cases h : other = name <;> simp [member, h]

theorem asRecord_obj {members : List (String × Json String ν)} (h : ∀ m ∈ members, m.1 ∈ known) :
    asRecord known (.obj members) = .ok members := by
  have none_unknown : (members.find? fun m => m.1 ∉ known) = none := by
    rw [List.find?_eq_none]
    intro m hm
    simpa using h m hm
  rw [asRecord, none_unknown]

omit [DecidableEq τ] in
/-- An array of encoded items is decoded if each of them is. -/
theorem asArray_map_eq {β : Type} {decode : Json τ ν → Except String β} {decoded : α → β}
    {items : List α} (h : ∀ item ∈ items, decode (encode item) = .ok (decoded item)) :
    asArray decode (.arr (items.map encode)) = .ok (items.map decoded) := by
  rw [asArray]
  induction items with
  | nil => rfl
  | cons item items ih =>
    rw [List.map_cons, List.mapM_cons, h item (by simp), ih fun i hi => h i (by simp [hi])]
    rfl

omit [DecidableEq τ] in
/-- An array of encoded items is read back if each of them is. -/
theorem asArray_map {decode : Json τ ν → Except String α} {items : List α}
    (h : ∀ item ∈ items, decode (encode item) = .ok item) :
    asArray decode (.arr (items.map encode)) = .ok items := by
  rw [asArray_map_eq h, List.map_id']

end Members

end Json

end ApiLoad.Foundation
