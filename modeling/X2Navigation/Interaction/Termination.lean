import X2Navigation.Interaction.Program

/-! How long a program can run. What the answers may be is an assumption on the
environment, which may depend on everything that was answered before; under it a
program halts within a number of operations. The rules follow the program: a loop has
a measure that every pass lowers. -/

namespace X2Navigation.Interaction

open Program

/-- What an operation may be answered, by what was answered before. -/
structure Environment (S : Signature) where
  Ghost : Type
  admits : Ghost → (o : S.Op) → S.Answer o → Prop
  next : Ghost → (o : S.Op) → S.Answer o → Ghost

namespace Environment
variable {S : Signature} (E : Environment S) {α β σ : Type}

/-- The ghost state after a run. -/
def after (g : E.Ghost) (tr : List (Event S)) : E.Ghost :=
  tr.foldl (fun g e => E.next g e.1 e.2) g

/-- The assumption holds of every answer of the run. -/
def Admits : E.Ghost → List (Event S) → Prop
  | _, [] => True
  | g, e :: tr => E.admits g e.1 e.2 ∧ Admits (E.next g e.1 e.2) tr

/-- Every run is at most `n` operations long, and ends with what satisfies `Q`. -/
def Halts (g : E.Ghost) (n : ℕ) (p : Program S α) (Q : α → E.Ghost → Prop) : Prop :=
  ∀ tr p', Steps p tr p' → E.Admits g tr →
    tr.length ≤ n ∧ ∀ a, p' = .pure a → Q a (E.after g tr)

variable {E} {g : E.Ghost} {n m : ℕ}

@[simp] theorem after_nil : E.after g [] = g := rfl

@[simp] theorem after_cons (e : Event S) (tr : List (Event S)) :
    E.after g (e :: tr) = E.after (E.next g e.1 e.2) tr := rfl

theorem after_append (tr tr' : List (Event S)) :
    E.after g (tr ++ tr') = E.after (E.after g tr) tr' := List.foldl_append

theorem admits_append {tr tr' : List (Event S)} :
    E.Admits g (tr ++ tr') ↔ E.Admits g tr ∧ E.Admits (E.after g tr) tr' := by
  induction tr generalizing g with
  | nil => simp [Admits]
  | cons e tr ih => simp [Admits, ih, and_assoc]

/-! ### Rules -/

theorem Halts.mono {p : Program S α} {Q Q' : α → E.Ghost → Prop} (h : E.Halts g n p Q)
    (hn : n ≤ m) (hq : ∀ a g, Q a g → Q' a g) : E.Halts g m p Q' := by
  intro tr p' hs hadmits
  obtain ⟨hlength, hend⟩ := h tr p' hs hadmits
  exact ⟨Nat.le_trans hlength hn, fun a ha => hq a _ (hend a ha)⟩

theorem halts_pure {a : α} {Q : α → E.Ghost → Prop} (h : Q a g) : E.Halts g n (.pure a) Q := by
  intro tr p' hs _
  obtain ⟨rfl, rfl⟩ := steps_pure.mp hs
  refine ⟨Nat.zero_le n, fun b hb => ?_⟩
  cases hb
  exact h

theorem halts_perform {o : S.Op} {k : S.Answer o → Program S α} {Q : α → E.Ghost → Prop}
    (h : ∀ a, E.admits g o a → E.Halts (E.next g o a) n (k a) Q) :
    E.Halts g (n + 1) (.perform o k) Q := by
  intro tr p' hs hadmits
  obtain ⟨rfl, rfl⟩ | ⟨a, rest, rfl, hrest⟩ := steps_perform.mp hs
  · exact ⟨Nat.zero_le _, nofun⟩
  · obtain ⟨ha, hadmits⟩ := hadmits
    obtain ⟨hlength, hend⟩ := h a ha rest p' hrest hadmits
    exact ⟨Nat.succ_le_succ hlength, hend⟩

theorem halts_act_bind {o : S.Op} {f : S.Answer o → Program S α} {Q : α → E.Ghost → Prop}
    (h : ∀ a, E.admits g o a → E.Halts (E.next g o a) n (f a) Q) :
    E.Halts g (n + 1) ((act o).bind f) Q := halts_perform h

theorem halts_ite {c : Prop} [Decidable c] {p q : Program S α} {Q : α → E.Ghost → Prop}
    (hp : c → E.Halts g n p Q) (hq : ¬ c → E.Halts g n q Q) :
    E.Halts g n (if c then p else q) Q := by
  split
  · exact hp ‹_›
  · exact hq ‹_›

theorem Halts.bind {p : Program S α} {f : α → Program S β} {R : α → E.Ghost → Prop}
    {Q : β → E.Ghost → Prop} (h : E.Halts g n p R) (hf : ∀ a g, R a g → E.Halts g m (f a) Q) :
    E.Halts g (m + n) (p.bind f) Q := by
  intro tr q hs hadmits
  obtain ⟨p', hp, rfl⟩ | ⟨tr₁, a, tr₂, rfl, hr, hs⟩ := steps_bind hs
  · obtain ⟨hlength, hR⟩ := h tr p' hp hadmits
    refine ⟨Nat.le_trans hlength (Nat.le_add_left n m), fun b hb => ?_⟩
    cases p' with
    | pure a => exact (hf a _ (hR a rfl) [] _ (.refl _) trivial).2 b hb
    | perform o k => cases hb
    | loop guard body x k => cases hb
  · obtain ⟨hadmits, hadmits'⟩ := admits_append.mp hadmits
    obtain ⟨hlength, hR⟩ := h tr₁ _ hr hadmits
    obtain ⟨hlength', hQ⟩ := hf a _ (hR a rfl) tr₂ q hs hadmits'
    rw [List.length_append, after_append]
    exact ⟨Nat.add_comm n m ▸ Nat.add_le_add hlength hlength', hQ⟩

/-- A loop halts where every pass keeps an invariant and lowers a measure. -/
theorem halts_repeatWhile {guard : S.Op} {body : S.Answer guard → σ → Program S (σ ⊕ β)}
    {Q : β → E.Ghost → Prop} (I : σ → E.Ghost → Prop) (measure : σ → E.Ghost → ℕ)
    (hbody : ∀ x g a, I x g → E.admits g guard a → E.Halts (E.next g guard a) n (body a x)
      fun r g' => Sum.elim (fun y => I y g' ∧ measure y g' < measure x g) (Q · g') r)
    {x : σ} (h : I x g) {count : ℕ} (hcount : measure x g < count) :
    E.Halts g (count * (n + 1)) (repeatWhile guard body x) Q := by
  induction count generalizing x g with
  | zero => exact absurd hcount (Nat.not_lt_zero _)
  | succ count ih =>
    intro tr q hs hadmits
    rw [Nat.succ_mul]
    obtain ⟨rfl, rfl⟩ | ⟨a, tr', rfl, hpassed⟩ := steps_loop.mp hs
    · exact ⟨Nat.zero_le _, nofun⟩
    obtain ⟨ha, hadmits⟩ := hadmits
    have hpass := hbody x g a h ha
    obtain ⟨p', hp, rfl⟩ | ⟨tr₁, r, tr₂, rfl, hr, hleft⟩ := steps_bind hpassed
    · -- the run ends within the pass
      obtain ⟨hlength, hend⟩ := hpass tr' p' hp hadmits
      refine ⟨Nat.le_add_left_of_le (Nat.succ_le_succ hlength), fun b hb => ?_⟩
      cases p' with
      | pure r =>
        cases r with
        | inl y => cases hb
        | inr c =>
          cases hb
          exact hend _ rfl
      | perform o k => cases hb
      | loop guard body x k => cases hb
    · obtain ⟨hadmits, hadmits'⟩ := admits_append.mp hadmits
      obtain ⟨hlength, hend⟩ := hpass tr₁ _ hr hadmits
      rw [List.length_cons, List.length_append, after_cons, after_append]
      cases r with
      | inl y =>
        obtain ⟨hy, hlower⟩ := hend _ rfl
        obtain ⟨hlength', hQ⟩ :=
          ih hy (Nat.lt_of_lt_of_le hlower (Nat.le_of_lt_succ hcount)) tr₂ q hleft hadmits'
        exact ⟨by omega, hQ⟩
      | inr c =>
        obtain ⟨rfl, rfl⟩ := steps_pure.mp hleft
        refine ⟨Nat.le_add_left_of_le (Nat.succ_le_succ hlength), fun b hb => ?_⟩
        cases hb
        exact hend _ rfl

end Environment

end X2Navigation.Interaction
