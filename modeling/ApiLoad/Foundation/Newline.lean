import ApiLoad.Foundation.Bytes

/-!
# Line ends of a byte text

A line of a text ends with CR, with LF or with the pair CR LF. The induction principle reads a text
as such lines do: a pair is one step, and a CR that is not part of a pair is another.
-/
namespace ApiLoad.Foundation.Newline

def CR : UInt8 := 13
def LF : UInt8 := 10

@[simp] theorem CR_ne_LF : CR ≠ LF := by decide
@[simp] theorem LF_ne_CR : LF ≠ CR := by decide

/-- Bytes without a line end. -/
def Clean (content : Bytes) : Prop := CR ∉ content ∧ LF ∉ content

theorem clean_nil : Clean [] := by simp [Clean]

theorem clean_append {a b : Bytes} : Clean (a ++ b) ↔ Clean a ∧ Clean b := by
  simp only [Clean, List.mem_append, not_or]
  tauto

theorem clean_cons {b : UInt8} {rest : Bytes} :
    Clean (b :: rest) ↔ (b ≠ CR ∧ b ≠ LF) ∧ Clean rest := by
  simp only [Clean, List.mem_cons, not_or]
  constructor
  · rintro ⟨⟨hc, hcs⟩, hl, hls⟩
    exact ⟨⟨Ne.symm hc, Ne.symm hl⟩, hcs, hls⟩
  · rintro ⟨⟨hc, hl⟩, hcs, hls⟩
    exact ⟨⟨Ne.symm hc, hcs⟩, Ne.symm hl, hls⟩

/-- `terminator` ends a line before `rest`; a CR that a LF follows is not one. -/
structure Terminates (terminator rest : Bytes) : Prop where
  ended : terminator = [LF] ∨ terminator = [CR] ∨ terminator = [CR, LF]
  apart : terminator = [CR] → rest.head? ≠ some LF

theorem Terminates.ne_nil (h : Terminates terminator rest) : terminator ≠ [] := by
  rcases h.ended with rfl | rfl | rfl <;> simp

theorem Terminates.lf : Terminates [LF] rest := ⟨.inl rfl, by simp⟩

theorem Terminates.crlf : Terminates [CR, LF] rest := ⟨.inr (.inr rfl), by simp⟩

theorem Terminates.cr (h : rest.head? ≠ some LF) : Terminates [CR] rest :=
  ⟨.inr (.inl rfl), fun _ => h⟩

/-- More bytes leave a line end as it is, unless they turn a last CR into a pair. -/
theorem Terminates.append (h : Terminates terminator rest) (more : Bytes) :
    Terminates terminator (rest ++ more) ∨
      terminator = [CR] ∧ rest = [] ∧ ∃ later, more = LF :: later := by
  by_cases joined : terminator = [CR] ∧ (rest ++ more).head? = some LF
  · obtain ⟨cr, head⟩ := joined
    cases rest with
    | cons next rest => exact absurd head (h.apart cr)
    | nil => exact .inr ⟨cr, rfl, List.head?_eq_some_iff.mp head⟩
  · exact .inl ⟨h.ended, fun cr head => joined ⟨cr, head⟩⟩

/-- Induction on a text by its line ends and its other bytes. -/
theorem newlineInduction {P : Bytes → Prop} (nil : P [])
    (newline : ∀ terminator rest, Terminates terminator rest → P rest → P (terminator ++ rest))
    (other : ∀ b rest, b ≠ CR → b ≠ LF → P rest → P (b :: rest)) : ∀ text, P text
  | [] => nil
  | b :: rest => by
    have ih := newlineInduction nil newline other rest
    by_cases hl : b = LF
    · exact hl ▸ newline [LF] rest .lf ih
    by_cases hc : b = CR
    · subst hc
      match rest, ih with
      | [], ih => exact newline [CR] [] (.cr (by simp)) ih
      | next :: rest, ih =>
        by_cases hn : next = LF
        · exact hn ▸ newline [CR, LF] rest .crlf (newlineInduction nil newline other rest)
        · exact newline [CR] _ (.cr (by simpa using hn)) ih
    · exact other b rest hc hl ih

end ApiLoad.Foundation.Newline
