import Mathlib.Data.Nat.Digits.Defs
import ApiLoad.Foundation.JsonPath
import ApiLoad.Foundation.Bytes

/-!
# JSON texts

A printer of JSON values whose numbers are natural, and a parser that reads what it prints. Control
characters, quotes and backslashes of a string are escaped; the other bytes stand for themselves.
-/
namespace ApiLoad.Foundation.JsonText
open List

def quote : UInt8 := 34
def comma : UInt8 := 44
def colon : UInt8 := 58
def openBracket : UInt8 := 91
def backslash : UInt8 := 92
def closeBracket : UInt8 := 93
def letterU : UInt8 := 117
def openBrace : UInt8 := 123
def closeBrace : UInt8 := 125

/-! ## Numbers -/

def isDigit (c : UInt8) : Bool := 48 ≤ c.toNat && c.toNat < 58

def digit (d : Nat) : UInt8 := UInt8.ofNat (48 + d)

def decimal (n : Nat) : Bytes :=
  if n = 0 then [digit 0] else (Nat.digits 10 n).reverse.map digit

/-- The digits at the front of a text, after digits of the given value. -/
def readDigits (value : Nat) : Bytes → Nat × Bytes
  | [] => (value, [])
  | c :: text =>
    if isDigit c then readDigits (10 * value + (c.toNat - 48)) text else (value, c :: text)

/-- A text behind a number. -/
def Ends (text : Bytes) : Prop := ∀ c ∈ text.head?, isDigit c = false

theorem digit_toNat (h : d < 10) : (digit d).toNat = 48 + d := by
  rw [digit, UInt8.toNat_ofNat', Nat.mod_eq_of_lt (by omega)]

theorem isDigit_digit (h : d < 10) : isDigit (digit d) = true := by
  simp only [isDigit, digit_toNat h, Bool.and_eq_true, decide_eq_true_eq]
  omega

theorem readDigits_digits {digits : List Nat} (small : ∀ d ∈ digits, d < 10) (ends : Ends rest) :
    readDigits value (digits.map digit ++ rest) =
      (digits.foldl (fun value d => 10 * value + d) value, rest) := by
  induction digits generalizing value with
  | nil =>
    cases rest with
    | nil => rfl
    | cons c rest =>
      have other : isDigit c = false := ends c rfl
      simp [readDigits, other]
  | cons d digits ih =>
    have ⟨hd, small⟩ := forall_mem_cons.mp small
    rw [map_cons, cons_append, readDigits, if_pos (isDigit_digit hd), digit_toNat hd,
      Nat.add_sub_cancel_left, ih small, foldl_cons]

theorem readDigits_decimal (n : Nat) (ends : Ends rest) :
    readDigits 0 (decimal n ++ rest) = (n, rest) := by
  unfold decimal
  split
  · rename_i zero
    subst zero
    exact @readDigits_digits rest 0 [0] (by decide) ends
  · rw [readDigits_digits (fun d hd => Nat.digits_lt_base (by decide) (mem_reverse.mp hd)) ends,
      foldl_reverse]
    have value := Nat.ofDigits_digits 10 n
    rw [Nat.ofDigits_eq_foldr] at value
    simpa [Nat.add_comm] using value

theorem decimal_head (n : Nat) : ∃ c rest, decimal n = c :: rest ∧ isDigit c = true := by
  unfold decimal
  split
  · exact ⟨_, _, rfl, isDigit_digit (by decide)⟩
  rename_i positive
  have nonempty : Nat.digits 10 n ≠ [] := Nat.digits_ne_nil_iff_ne_zero.mpr positive
  cases hd : (Nat.digits 10 n).reverse with
  | nil => exact absurd (reverse_eq_nil_iff.mp hd) nonempty
  | cons d digits =>
    have mem : d ∈ Nat.digits 10 n := mem_reverse.mp (hd ▸ mem_cons_self)
    exact ⟨_, _, rfl, isDigit_digit (Nat.digits_lt_base (by decide) mem)⟩

/-! ## Strings -/

def hexDigit (d : UInt8) : UInt8 := if d < 10 then 48 + d else 87 + d

def hexValue (c : UInt8) : UInt8 := if c < 58 then c - 48 else c - 87

def escape (c : UInt8) : Bytes :=
  if c = quote ∨ c = backslash then [backslash, c]
  else if c < 32 then [backslash, letterU, 48, 48, hexDigit (c / 16), hexDigit (c % 16)]
  else [c]

def quoted (text : Bytes) : Bytes := quote :: text.flatMap escape ++ [quote]

/-- A string behind its first quote. -/
def readString : Bytes → Option (Bytes × Bytes)
  | [] => none
  | c :: text =>
    if c = quote then some ([], text)
    else if c = backslash then
      match text with
      | [] => none
      | e :: text =>
        if e = letterU then
          match text with
          | _ :: _ :: high :: low :: text =>
            (readString text).map fun (read, rest) =>
              ((16 * hexValue high + hexValue low) :: read, rest)
          | _ => none
        else (readString text).map fun (read, rest) => (e :: read, rest)
    else (readString text).map fun (read, rest) => (c :: read, rest)

theorem hexValue_hexDigit (h : c < 32) :
    16 * hexValue (hexDigit (c / 16)) + hexValue (hexDigit (c % 16)) = c := by
  have all : ∀ k < 32, 16 * hexValue (hexDigit (UInt8.ofNat k / 16)) +
      hexValue (hexDigit (UInt8.ofNat k % 16)) = UInt8.ofNat k := by decide +kernel
  simpa using all c.toNat (by simpa using UInt8.lt_iff_toNat_lt.mp h)

theorem readString_escape (c : UInt8) (text : Bytes) :
    readString (escape c ++ text) =
      (readString text).map fun (read, rest) => (c :: read, rest) := by
  have letter : letterU ≠ quote ∧ letterU ≠ backslash ∧ backslash ≠ quote := by decide
  by_cases special : c = quote ∨ c = backslash
  · have plain : c ≠ letterU := by
      rintro rfl
      exact special.elim letter.1 letter.2.1
    rw [escape, if_pos special, cons_append, cons_append, nil_append]
    conv_lhs => unfold readString
    rw [if_neg letter.2.2, if_pos rfl]
    dsimp only
    rw [if_neg plain]
  by_cases control : c < 32
  · rw [escape, if_neg special, if_pos control]
    conv_lhs => unfold readString
    simp only [cons_append, nil_append, if_neg letter.2.2, if_true, hexValue_hexDigit control]
  · rw [escape, if_neg special, if_neg control, cons_append, nil_append]
    rw [not_or] at special
    conv_lhs => unfold readString
    rw [if_neg special.1, if_neg special.2]

theorem readString_quoted (text rest : Bytes) :
    readString (text.flatMap escape ++ quote :: rest) = some (text, rest) := by
  induction text with
  | nil =>
    rw [flatMap_nil, nil_append]
    unfold readString
    rw [if_pos rfl]
  | cons c text ih => rw [flatMap_cons, append_assoc, readString_escape, ih, Option.map_some]

/-! ## Sequences -/

/-- The texts behind the first of a sequence. -/
def joinRest (close : UInt8) : List Bytes → Bytes
  | [] => [close]
  | text :: texts => comma :: text ++ joinRest close texts

def join (close : UInt8) : List Bytes → Bytes
  | [] => [close]
  | text :: texts => text ++ joinRest close texts

section Sequence

variable {α : Type} (read : Bytes → Option (α × Bytes)) (close : UInt8)

def readRest : Nat → Bytes → Option (List α × Bytes)
  | 0, _ | _, [] => none
  | fuel + 1, c :: text =>
    if c = close then some ([], text)
    else if c = comma then do
      let (item, text) ← read text
      let (items, rest) ← readRest fuel text
      some (item :: items, rest)
    else none

def readSequence : Bytes → Option (List α × Bytes)
  | [] => none
  | c :: text =>
    if c = close then some ([], text)
    else do
      let (item, text) ← read (c :: text)
      let (items, rest) ← readRest read close text.length text
      some (item :: items, rest)

variable {read close} {print : α → Bytes}

theorem joinRest_ends (texts : List Bytes) (hc : isDigit close = false) :
    Ends (joinRest close texts ++ rest) := by
  intro c head
  cases texts with
  | nil => cases head; exact hc
  | cons text texts => cases head; rfl

theorem readRest_joinRest (hc : close ≠ comma) (digit : isDigit close = false) {items : List α}
    (each : ∀ item ∈ items, ∀ rest, Ends rest → read (print item ++ rest) = some (item, rest))
    (enough : items.length < fuel) :
    readRest read close fuel (joinRest close (items.map print) ++ rest) = some (items, rest) := by
  induction items generalizing fuel with
  | nil =>
    obtain ⟨fuel, rfl⟩ := Nat.exists_eq_add_of_lt enough
    simp [joinRest, readRest]
  | cons item items ih =>
    obtain ⟨first, each⟩ := forall_mem_cons.mp each
    obtain ⟨fuel, rfl⟩ : ∃ k, fuel = k + 1 := ⟨fuel - 1, by omega⟩
    rw [map_cons, joinRest, cons_append, cons_append, append_assoc, readRest, if_neg (Ne.symm hc),
      if_pos rfl, first _ (joinRest_ends _ digit)]
    simp [ih each (by simpa using enough)]

theorem length_lt_joinRest (texts : List Bytes) (rest : Bytes) :
    texts.length < (joinRest close texts ++ rest).length := by
  induction texts with
  | nil => simp [joinRest]
  | cons text texts ih =>
    simp only [joinRest, length_append, length_cons] at ih ⊢
    omega

theorem readSequence_join (hc : close ≠ comma) (digit : isDigit close = false) {items : List α}
    (each : ∀ item ∈ items, ∀ rest, Ends rest → read (print item ++ rest) = some (item, rest))
    (heads : ∀ item ∈ items, ∃ c text, print item = c :: text ∧ c ≠ close) :
    readSequence read close (join close (items.map print) ++ rest) = some (items, rest) := by
  cases items with
  | nil => simp [join, readSequence]
  | cons item items =>
    obtain ⟨first, each⟩ := forall_mem_cons.mp each
    obtain ⟨c, text, head, other⟩ := heads item mem_cons_self
    have here := first (joinRest close (items.map print) ++ rest) (joinRest_ends _ digit)
    rw [head, cons_append] at here
    have behind : readRest read close (joinRest close (items.map print) ++ rest).length
        (joinRest close (items.map print) ++ rest) = some (items, rest) :=
      readRest_joinRest hc digit each (length_map print ▸ length_lt_joinRest (items.map print) rest)
    rw [map_cons, join, append_assoc, head, cons_append, readSequence, if_neg other, here]
    simp only [Option.bind_eq_bind, Option.bind_some, behind]

end Sequence

/-! ## Values -/

section Values

variable {ν : Type} (toNat : ν → Nat) (ofNat : Nat → ν)

def nullText : Bytes := [110, 117, 108, 108]
def trueText : Bytes := [116, 114, 117, 101]
def falseText : Bytes := [102, 97, 108, 115, 101]

mutual

def print : Json Bytes ν → Bytes
  | .null => nullText
  | .bool true => trueText
  | .bool false => falseText
  | .num n => decimal (toNat n)
  | .str text => quoted text
  | .arr items => openBracket :: join closeBracket (printItems items)
  | .obj members => openBrace :: join closeBrace (printMembers members)

def printItems : List (Json Bytes ν) → List Bytes
  | [] => []
  | item :: items => print item :: printItems items

def printMembers : List (Bytes × Json Bytes ν) → List Bytes
  | [] => []
  | (name, value) :: members => (quoted name ++ colon :: print value) :: printMembers members

end

def readMember (read : Bytes → Option (Json Bytes ν × Bytes)) :
    Bytes → Option ((Bytes × Json Bytes ν) × Bytes)
  | [] => none
  | c :: text =>
    if c = quote then do
      let (name, text) ← readString text
      match text with
      | [] => none
      | c :: text =>
        if c = colon then (read text).map fun (value, rest) => ((name, value), rest) else none
    else none

/-- The value at the front of a text; the depth of values in each other is bounded. -/
def readValue : Nat → Bytes → Option (Json Bytes ν × Bytes)
  | 0, _ | _, [] => none
  | depth + 1, c :: text =>
    if c = quote then (readString text).map fun (read, rest) => (.str read, rest)
    else if c = openBracket then
      (readSequence (readValue depth) closeBracket text).map fun (items, rest) => (.arr items, rest)
    else if c = openBrace then
      (readSequence (readMember (readValue depth)) closeBrace text).map fun (members, rest) =>
        (.obj members, rest)
    else if isDigit c then
      let (n, rest) := readDigits 0 (c :: text)
      some (.num (ofNat n), rest)
    else if nullText.isPrefixOf (c :: text) then some (.null, (c :: text).drop nullText.length)
    else if trueText.isPrefixOf (c :: text) then
      some (.bool true, (c :: text).drop trueText.length)
    else if falseText.isPrefixOf (c :: text) then
      some (.bool false, (c :: text).drop falseText.length)
    else none

def parse (text : Bytes) : Option (Json Bytes ν) :=
  match readValue ofNat text.length text with
  | some (value, []) => some value
  | _ => none

/-- A value whose numbers are natural. -/
inductive Printable : Json Bytes ν → Prop
  | null : Printable .null
  | bool (b : Bool) : Printable (.bool b)
  | num {n : ν} (h : ofNat (toNat n) = n) : Printable (.num n)
  | str (text : Bytes) : Printable (.str text)
  | arr {items : List (Json Bytes ν)} (h : ∀ item ∈ items, Printable item) : Printable (.arr items)
  | obj {members : List (Bytes × Json Bytes ν)} (h : ∀ m ∈ members, Printable m.2) :
      Printable (.obj members)

variable {toNat ofNat}

theorem printItems_eq_map (items : List (Json Bytes ν)) :
    printItems toNat items = items.map (print toNat) := by
  induction items with
  | nil => rfl
  | cons item items ih => rw [printItems, ih, map_cons]

def printMember (toNat : ν → Nat) (m : Bytes × Json Bytes ν) : Bytes :=
  quoted m.1 ++ colon :: print toNat m.2

theorem printMembers_eq_map (members : List (Bytes × Json Bytes ν)) :
    printMembers toNat members = members.map (printMember toNat) := by
  induction members with
  | nil => rfl
  | cons m members ih => rw [printMembers, ih, map_cons, printMember]

/-- A printed value does not begin like the end of a sequence. -/
theorem print_head (value : Json Bytes ν) :
    ∃ c text, print toNat value = c :: text ∧ c ≠ closeBracket := by
  cases value with
  | num n =>
    obtain ⟨c, text, head, isDigit⟩ := decimal_head (toNat n)
    refine ⟨c, text, head, ?_⟩
    rintro rfl
    cases isDigit
  | bool b => cases b <;> exact ⟨_, _, rfl, by decide⟩
  | _ => exact ⟨_, _, rfl, by decide⟩

theorem length_le_join {close : UInt8} {texts : List Bytes} (h : text ∈ texts) :
    text.length ≤ (join close texts).length := by
  have rest {texts : List Bytes} (h : text ∈ texts) :
      text.length ≤ (joinRest close texts).length := by
    induction texts with
    | nil => cases h
    | cons other texts ih =>
      obtain rfl | h := mem_cons.mp h
      · simp only [joinRest, cons_append, length_cons, length_append]
        omega
      · have := ih h
        simp only [joinRest, length_append, length_cons]
        omega
  cases texts with
  | nil => cases h
  | cons other texts =>
    rw [join, length_append]
    obtain rfl | h := mem_cons.mp h
    · exact Nat.le_add_right _ _
    · exact Nat.le_trans (rest h) (Nat.le_add_left _ _)

theorem readMember_print {read : Bytes → Option (Json Bytes ν × Bytes)} {m : Bytes × Json Bytes ν}
    (value : read (print toNat m.2 ++ rest) = some (m.2, rest)) :
    readMember read (printMember toNat m ++ rest) = some (m, rest) := by
  obtain ⟨name, part⟩ := m
  have text : printMember toNat (name, part) ++ rest =
      quote :: (name.flatMap escape ++ quote :: colon :: (print toNat part ++ rest)) := by
    simp [printMember, quoted]
  rw [text, readMember, if_pos rfl, readString_quoted]
  simp only [Option.bind_eq_bind, Option.bind_some, if_true, value, Option.map_some]

theorem print_pos (value : Json Bytes ν) : 0 < (print toNat value).length := by
  obtain ⟨c, text, head, -⟩ := @print_head _ toNat value
  rw [head]
  exact Nat.succ_pos _

theorem readValue_print {value : Json Bytes ν} (printable : Printable toNat ofNat value)
    (enough : (print toNat value).length ≤ depth) (ends : Ends rest) :
    readValue ofNat depth (print toNat value ++ rest) = some (value, rest) := by
  obtain ⟨depth, rfl⟩ : ∃ k, depth = k + 1 :=
    ⟨depth - 1, by have := @print_pos _ toNat value; omega⟩
  induction printable generalizing depth rest with
  | null => rfl
  | bool b => cases b <;> rfl
  | @num n h =>
    obtain ⟨c, text, head, isDigit⟩ := decimal_head (toNat n)
    have read := readDigits_decimal (toNat n) ends
    have other : c ≠ quote ∧ c ≠ openBracket ∧ c ≠ openBrace := by
      refine ⟨?_, ?_, ?_⟩ <;> rintro rfl <;> cases isDigit
    rw [print]
    rw [head, cons_append] at read ⊢
    rw [readValue, if_neg other.1, if_neg other.2.1, if_neg other.2.2, if_pos isDigit, read]
    dsimp only
    rw [h]
  | str text =>
    rw [print, quoted, cons_append, cons_append, append_assoc, singleton_append, readValue,
      if_pos rfl, readString_quoted, Option.map_some]
  | @arr items h ih =>
    rw [print, printItems_eq_map] at enough ⊢
    rw [length_cons] at enough
    have each : ∀ item ∈ items, ∀ rest, Ends rest →
        readValue ofNat depth (print toNat item ++ rest) = some (item, rest) := by
      intro item hi rest ends
      have short : (print toNat item).length ≤
          (join closeBracket (items.map (print toNat))).length := length_le_join (mem_map_of_mem hi)
      obtain ⟨depth, rfl⟩ : ∃ k, depth = k + 1 :=
        ⟨depth - 1, by have := @print_pos _ toNat item; omega⟩
      exact ih item hi ends depth (by omega)
    have read : readSequence (readValue ofNat depth) closeBracket
        (join closeBracket (items.map (print toNat)) ++ rest) = some (items, rest) :=
      readSequence_join (by decide) (by decide) each fun item _ => print_head item
    rw [cons_append, readValue, if_neg (by decide), if_pos rfl, read, Option.map_some]
  | @obj members h ih =>
    rw [print, printMembers_eq_map] at enough ⊢
    rw [length_cons] at enough
    have each : ∀ m ∈ members, ∀ rest, Ends rest →
        readMember (readValue ofNat depth) (printMember toNat m ++ rest) = some (m, rest) := by
      intro m hm rest ends
      have short : (printMember toNat m).length ≤
          (join closeBrace (members.map (printMember toNat))).length :=
        length_le_join (mem_map_of_mem hm)
      have value : (print toNat m.2).length < (printMember toNat m).length := by
        simp only [printMember, length_append, length_cons]
        omega
      obtain ⟨depth, rfl⟩ : ∃ k, depth = k + 1 :=
        ⟨depth - 1, by have := @print_pos _ toNat m.2; omega⟩
      exact readMember_print (ih m hm ends depth (by omega))
    have read : readSequence (readMember (readValue ofNat depth)) closeBrace
        (join closeBrace (members.map (printMember toNat)) ++ rest) = some (members, rest) :=
      readSequence_join (by decide) (by decide) each fun m _ => ⟨quote, _, rfl, by decide⟩
    rw [cons_append, readValue, if_neg (by decide), if_neg (by decide), if_pos rfl, read,
      Option.map_some]

theorem parse_print {value : Json Bytes ν} (printable : Printable toNat ofNat value) :
    parse ofNat (print toNat value) = some value := by
  have read := readValue_print printable (Nat.le_refl _) (nofun : Ends [])
  rw [append_nil] at read
  rw [parse, read]

theorem print_injective {left right : Json Bytes ν} (hl : Printable toNat ofNat left)
    (hr : Printable toNat ofNat right) (h : print toNat left = print toNat right) :
    left = right := by
  have same := (parse_print hl).symm.trans (h ▸ parse_print hr)
  exact Option.some.inj same

end Values

end ApiLoad.Foundation.JsonText
