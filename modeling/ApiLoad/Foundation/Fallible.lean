import Mathlib

/-!
# What a successful computation has established

A computation in `Except` that returns has passed each of its checks in turn. The lemmas take such
a computation apart, and carry an invariant through a fallible loop.
-/
namespace ApiLoad.Foundation.Fallible

universe u

variable {ε ε' α : Type*}

theorem bind_ok {α β : Type u} {x : Except ε α} {f : α → Except ε β} {b : β} :
    (x >>= f) = .ok b ↔ ∃ a, x = .ok a ∧ f a = .ok b := by
  cases x <;> simp [bind, Except.bind]

theorem mapError_ok {x : Except ε α} : x.mapError f = .ok a ↔ x = .ok a := by
  cases x <;> simp [Except.mapError]

variable {l : List α} {σ : Type u} {f : σ → α → Except ε σ} {s s' : σ}

/-- A loop that returns keeps what each of its rounds keeps. -/
theorem foldlM_ok {P : σ → Prop} (step : ∀ s, ∀ a ∈ l, ∀ s', P s → f s a = .ok s' → P s')
    (start : P s) (h : l.foldlM f s = .ok s') : P s' := by
  induction l generalizing s with
  | nil =>
    cases h
    exact start
  | cons a l ih =>
    rw [List.foldlM_cons, bind_ok] at h
    obtain ⟨s₁, h₁, h⟩ := h
    exact ih (fun s b hb => step s b (by simp [hb])) (step s a (by simp) s₁ start h₁) h

/-- A loop that returns has gone through each of its rounds. -/
theorem foldlM_all {P : α → Prop} (round : ∀ s a s', f s a = .ok s' → P a)
    (h : l.foldlM f s = .ok s') : ∀ a ∈ l, P a := by
  induction l generalizing s with
  | nil => simp
  | cons a l ih =>
    rw [List.foldlM_cons, bind_ok] at h
    obtain ⟨s₁, h₁, h⟩ := h
    intro b hb
    rcases List.mem_cons.mp hb with rfl | hb
    · exact round _ _ _ h₁
    · exact ih h b hb

/-- A loop each of whose rounds appends to a list has appended all of them. -/
theorem foldlM_append {β : Type*} (view : σ → List β) (added : α → List β)
    (round : ∀ s a s', f s a = .ok s' → view s' = view s ++ added a) (h : l.foldlM f s = .ok s') :
    view s' = view s ++ l.flatMap added := by
  induction l generalizing s with
  | nil =>
    cases h
    simp
  | cons a l ih =>
    rw [List.foldlM_cons, bind_ok] at h
    obtain ⟨s₁, h₁, h⟩ := h
    rw [ih h, round _ _ _ h₁, List.flatMap_cons, List.append_assoc]

theorem forM_ok {f : α → Except ε PUnit} (h : l.forM f = .ok ⟨⟩) : ∀ a ∈ l, f a = .ok ⟨⟩ := by
  induction l with
  | nil => simp
  | cons a l ih =>
    change (f a >>= fun _ => l.forM f) = .ok ⟨⟩ at h
    obtain ⟨_, h₁, h⟩ := bind_ok.mp h
    intro b hb
    rcases List.mem_cons.mp hb with rfl | hb
    · exact h₁
    · exact ih h b hb

end ApiLoad.Foundation.Fallible
