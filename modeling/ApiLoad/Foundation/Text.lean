import Mathlib.Algebra.Group.Int.Defs
import Mathlib.Data.List.Infix

/-!
# Text

The operations on text that programs share: trimming white space, searching, and decimal numbers.
What depends on the letters of a script is left to a `Folding`, so that nothing rests on a table of
letters.
-/
namespace ApiLoad.Foundation.Text

/-- The mapping to lower case and the comparison that ignores case. -/
structure Folding where
  toLower : String → String
  equalFold : String → String → Bool

def isSpace (c : Char) : Bool :=
  let n := c.toNat
  (9 ≤ n && n ≤ 13) || n = 0x20 || n = 0x85 || n = 0xa0 || n = 0x1680 ||
    (0x2000 ≤ n && n ≤ 0x200a) || n = 0x2028 || n = 0x2029 || n = 0x202f || n = 0x205f || n = 0x3000

def isControl (c : Char) : Bool := c.toNat < 0x20 || (0x7f ≤ c.toNat && c.toNat < 0xa0)

def trimSpace (text : String) : String :=
  String.ofList (((text.toList.dropWhile isSpace).reverse.dropWhile isSpace).reverse)

theorem isSpace_eq_false {c : Char} (h : 0x20 < c.toNat ∧ c.toNat < 0x7f) : isSpace c = false := by
  simp only [isSpace, Bool.or_eq_false_iff, Bool.and_eq_false_iff, decide_eq_false_iff_not]
  omega

theorem trimSpace_eq_self {text : String} (h : ∀ c ∈ text.toList, isSpace c = false) :
    trimSpace text = text := by
  have keep (l : List Char) (h : ∀ c ∈ l, isSpace c = false) : l.dropWhile isSpace = l := by
    cases l with
    | nil => rfl
    | cons c l => rw [List.dropWhile_cons_of_neg (by simp [h c])]
  rw [trimSpace, keep _ h, keep _ (by simpa using h), List.reverse_reverse, String.ofList_toList]

theorem trimSpace_cons {c : Char} {text : String} (h : isSpace c = true) :
    trimSpace (String.ofList (c :: text.toList)) = trimSpace text := by
  rw [trimSpace, String.toList_ofList, List.dropWhile_cons_of_pos h, trimSpace]

def contains (text part : String) : Bool := decide (part.toList <:+: text.toList)

def hasPrefix (text start : String) : Bool := start.toList.isPrefixOf text.toList

def hasSuffix (text last : String) : Bool := last.toList.isSuffixOf text.toList

def trimSuffix (text last : String) : String :=
  if hasSuffix text last then String.ofList (text.toList.take (text.length - last.length)) else text

/-- Whether a character is shown as it is. Above U+00FF every character is taken to be printable:
the tables of the scripts are left out. -/
def isPrint (c : Char) : Bool :=
  let n := c.toNat
  (0x20 ≤ n && n < 0x7f) || (0xa1 ≤ n && n ≠ 0xad)

def hexadecimal (width n : Nat) : List Char :=
  let digits := Nat.toDigits 16 n
  List.replicate (width - digits.length) '0' ++ digits

def escapedRune (c : Char) : List Char :=
  if c = '"' || c = '\\' then ['\\', c]
  else if isPrint c then [c]
  else match c.toNat with
    | 7 => ['\\', 'a']
    | 8 => ['\\', 'b']
    | 9 => ['\\', 't']
    | 10 => ['\\', 'n']
    | 11 => ['\\', 'v']
    | 12 => ['\\', 'f']
    | 13 => ['\\', 'r']
    | n =>
      if n < 0x20 || n = 0x7f then '\\' :: 'x' :: hexadecimal 2 n
      else '\\' :: 'u' :: hexadecimal 4 n

/-- The verb `%q`. -/
def quoted (text : String) : String :=
  "\"" ++ String.ofList (text.toList.flatMap escapedRune) ++ "\""

example : quoted "a\"b\n\x01" = "\"a\\\"b\\n\\x01\"" := by decide +kernel

def containsAny (text : String) (markers : List String) : Bool := markers.any (contains text)

/-- A decimal number with an optional sign that fits into 64 bits. -/
def parseInt (text : String) : Option Int :=
  let (negative, digits) := match text.toList with
    | '-' :: digits => (true, digits)
    | '+' :: digits => (false, digits)
    | digits => (false, digits)
  if digits ≠ [] ∧ digits.all Char.isDigit then
    let magnitude : Int := digits.foldl (fun n c => n * 10 + (c.toNat - 48 : Nat)) 0
    let n := if negative then -magnitude else magnitude
    if -2 ^ 63 ≤ n ∧ n < 2 ^ 63 then some n else none
  else none

end ApiLoad.Foundation.Text
