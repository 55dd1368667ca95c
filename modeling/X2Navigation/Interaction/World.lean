import X2Navigation.Interaction.Program

/-! Programs run against a world that answers them. The world has a state of its
own; it may also refuse to answer, and then the program is stuck. -/

namespace X2Navigation.Interaction

/-- How a state answers an operation, and the state it leaves. -/
abbrev World (S : Signature) (σ : Type) := σ → (o : S.Op) → Option (S.Answer o × σ)

namespace Program
variable {S : Signature} {σ α : Type} (w : World S σ)

/-- The next operation of a program. -/
def move (s : σ) {α : Type} : Program S α → Option (Event S × Program S α × σ)
  | .pure _ => none
  | .perform o k => (w s o).map fun (a, s') => (⟨o, a⟩, k a, s')
  | .loop guard body x k => (w s guard).map fun (a, s') =>
      (⟨guard, a⟩, (body a x).bind (again guard body k), s')

/-- At most `n` operations. -/
def play : ℕ → σ → Program S α → List (Event S) × Program S α
  | 0, _, p => ([], p)
  | n + 1, s, p =>
    match move w s p with
    | none => ([], p)
    | some (e, p', s') => (e :: (play n s' p').1, (play n s' p').2)

/-- The result of a program that has one. -/
def result? {α : Type} : Program S α → Option α
  | .pure a => some a
  | _ => none

theorem eq_pure_of_result? {p : Program S α} {a : α} (h : p.result? = some a) : p = .pure a := by
  cases p <;> simp_all [result?]

variable {w}

theorem move_eq_some {s s' : σ} {p p' : Program S α} {e : Event S}
    (h : move w s p = some (e, p', s')) : Next p e p' ∧ w s e.1 = some (e.2, s') := by
  cases p with
  | pure a => cases h
  | perform o k =>
    obtain ⟨⟨a, t⟩, hw, he⟩ := Option.map_eq_some_iff.mp h
    cases he
    exact ⟨.perform o k a, hw⟩
  | loop guard body x k =>
    obtain ⟨⟨a, t⟩, hw, he⟩ := Option.map_eq_some_iff.mp h
    cases he
    exact ⟨.loop guard body x k a, hw⟩

theorem play_steps (n : ℕ) (s : σ) (p : Program S α) :
    Steps p (play w n s p).1 (play w n s p).2 := by
  induction n generalizing s p with
  | zero => exact .refl p
  | succ n ih =>
    unfold play
    split
    · exact .refl p
    · rename_i e p' s' h
      exact .cons (move_eq_some h).1 (ih s' p')

/-- A program that was played to its end has run. -/
theorem runs_play {n : ℕ} {s : σ} {p : Program S α} {a : α}
    (h : (play w n s p).2.result? = some a) : Runs p (play w n s p).1 a := by
  have hs := play_steps (w := w) n s p
  rwa [eq_pure_of_result? h] at hs

end Program

end X2Navigation.Interaction
