import Mathlib.Data.List.Basic

/-! Programs that act on a world they share. A program performs one operation
after another; which operation comes next depends on the answers so far. A loop
performs a guard before every pass, so a pass is never free of operations and a
loop need not end. A run is a list of operations with their answers; what may
answer is left to whoever runs the program. -/

namespace X2Navigation.Interaction

/-- Operations, and what each can be answered. -/
structure Signature where
  Op : Type
  Answer : Op → Type

inductive Program (S : Signature) : Type → Type 1
  | pure {α : Type} (a : α) : Program S α
  | perform {α : Type} (o : S.Op) (k : S.Answer o → Program S α) : Program S α
  | loop {σ β α : Type} (guard : S.Op) (body : S.Answer guard → σ → Program S (σ ⊕ β)) (x : σ)
      (k : β → Program S α) : Program S α

/-- An operation with its answer. -/
abbrev Event (S : Signature) := (o : S.Op) × S.Answer o

variable {S : Signature} {α β γ σ : Type}

namespace Program

def bind : Program S α → (α → Program S β) → Program S β
  | .pure a, f => f a
  | .perform o k, f => .perform o fun a => (k a).bind f
  | .loop guard body x k, f => .loop guard body x fun b => (k b).bind f

instance : Monad (Program S) where
  pure := .pure
  bind := .bind

/-- A single operation. -/
def act (o : S.Op) : Program S (S.Answer o) := .perform o .pure

/-- A loop that is left with a value. -/
def repeatWhile (guard : S.Op) (body : S.Answer guard → σ → Program S (σ ⊕ β)) (x : σ) :
    Program S β := .loop guard body x .pure

/-- What follows one pass of a loop. -/
def again (guard : S.Op) (body : S.Answer guard → σ → Program S (σ ⊕ β)) (k : β → Program S α) :
    σ ⊕ β → Program S α
  | .inl x => .loop guard body x k
  | .inr b => k b

@[simp] theorem pure_def (a : α) : (pure a : Program S α) = .pure a := rfl

@[simp] theorem bind_def (p : Program S α) (f : α → Program S β) : p >>= f = p.bind f := rfl

@[simp] theorem pure_bind (a : α) (f : α → Program S β) : (Program.pure a).bind f = f a := rfl

@[simp] theorem perform_bind (o : S.Op) (k : S.Answer o → Program S α) (f : α → Program S β) :
    (Program.perform o k).bind f = .perform o fun a => (k a).bind f := rfl

@[simp] theorem loop_bind (guard : S.Op) (body : S.Answer guard → σ → Program S (σ ⊕ β)) (x : σ)
    (k : β → Program S α) (f : α → Program S γ) :
    (Program.loop guard body x k).bind f = .loop guard body x fun b => (k b).bind f := rfl

theorem bind_assoc (p : Program S α) (f : α → Program S β) (g : β → Program S γ) :
    (p.bind f).bind g = p.bind fun a => (f a).bind g := by
  induction p with
  | pure a => rfl
  | perform o k ih =>
    have h : (fun a => ((k a).bind f).bind g) = fun a => (k a).bind fun b => (f b).bind g :=
      funext fun a => ih a f
    simp only [perform_bind, h]
  | loop guard body x k _ ih =>
    have h : (fun b => ((k b).bind f).bind g) = fun b => (k b).bind fun c => (f c).bind g :=
      funext fun b => ih b f
    simp only [loop_bind, h]

theorem seq_bind (p : Program S α) (f : α → Program S β) (g : β → Program S γ) :
    (p >>= f).bind g = p.bind fun a => (f a).bind g := bind_assoc p f g

theorem bind_return (p : Program S α) : p.bind .pure = p := by
  induction p with
  | pure a => rfl
  | perform o k ih => rw [perform_bind, funext ih]
  | loop guard body x k _ ih => rw [loop_bind, funext ih]

theorem ite_bind (c : Prop) [Decidable c] (p q : Program S α) (f : α → Program S β) :
    (if c then p else q).bind f = if c then p.bind f else q.bind f := by
  split <;> rfl

theorem again_bind (guard : S.Op) (body : S.Answer guard → σ → Program S (σ ⊕ β))
    (k : β → Program S α) (f : α → Program S γ) :
    (fun r => (again guard body k r).bind f) = again guard body fun b => (k b).bind f := by
  funext r
  cases r <;> rfl

/-- One operation, answered. -/
inductive Next : Program S α → Event S → Program S α → Prop
  | perform (o : S.Op) (k : S.Answer o → Program S α) (a : S.Answer o) :
      Next (.perform o k) ⟨o, a⟩ (k a)
  | loop {σ β : Type} (guard : S.Op) (body : S.Answer guard → σ → Program S (σ ⊕ β)) (x : σ)
      (k : β → Program S α) (a : S.Answer guard) :
      Next (.loop guard body x k) ⟨guard, a⟩ ((body a x).bind (again guard body k))

/-- The operation a program performs next. -/
def request {α : Type} : Program S α → Option S.Op
  | .pure _ => none
  | .perform o _ => some o
  | .loop guard _ _ _ => some guard

theorem Next.request {p p' : Program S α} {e : Event S} (h : Next p e p') :
    p.request = some e.1 := by
  cases h <;> rfl

/-- `tr` leads from one program to what is left of it. -/
inductive Steps : Program S α → List (Event S) → Program S α → Prop
  | refl (p : Program S α) : Steps p [] p
  | cons {p p' q : Program S α} {e : Event S} {tr : List (Event S)} (h : Next p e p')
      (hs : Steps p' tr q) : Steps p (e :: tr) q

/-- A complete run. -/
def Runs (p : Program S α) (tr : List (Event S)) (a : α) : Prop := Steps p tr (.pure a)

/-! ### How runs are made up -/

theorem steps_pure {a : α} {tr : List (Event S)} {q : Program S α} :
    Steps (.pure a) tr q ↔ tr = [] ∧ q = .pure a := by
  constructor
  · intro h
    cases h with
    | refl => exact ⟨rfl, rfl⟩
    | cons h _ => cases h
  · rintro ⟨rfl, rfl⟩
    exact .refl _

theorem steps_perform {o : S.Op} {k : S.Answer o → Program S α} {tr : List (Event S)}
    {q : Program S α} : Steps (.perform o k) tr q ↔
      (tr = [] ∧ q = .perform o k) ∨ ∃ a tr', tr = ⟨o, a⟩ :: tr' ∧ Steps (k a) tr' q := by
  constructor
  · intro h
    cases h with
    | refl => exact .inl ⟨rfl, rfl⟩
    | cons h hs =>
      cases h with
      | perform _ _ a => exact .inr ⟨a, _, rfl, hs⟩
  · rintro (⟨rfl, rfl⟩ | ⟨a, tr', rfl, hs⟩)
    · exact .refl _
    · exact .cons (.perform o k a) hs

theorem steps_loop {guard : S.Op} {body : S.Answer guard → σ → Program S (σ ⊕ β)} {x : σ}
    {k : β → Program S α} {tr : List (Event S)} {q : Program S α} :
    Steps (.loop guard body x k) tr q ↔ (tr = [] ∧ q = .loop guard body x k) ∨
      ∃ a tr', tr = ⟨guard, a⟩ :: tr' ∧ Steps ((body a x).bind (again guard body k)) tr' q := by
  constructor
  · intro h
    cases h with
    | refl => exact .inl ⟨rfl, rfl⟩
    | cons h hs =>
      cases h with
      | loop _ _ _ _ a => exact .inr ⟨a, _, rfl, hs⟩
  · rintro (⟨rfl, rfl⟩ | ⟨a, tr', rfl, hs⟩)
    · exact .refl _
    · exact .cons (.loop guard body x k a) hs

theorem Steps.trans {p q r : Program S α} {tr tr' : List (Event S)} (h : Steps p tr q)
    (h' : Steps q tr' r) : Steps p (tr ++ tr') r := by
  induction h with
  | refl => exact h'
  | cons h _ ih => exact .cons h (ih h')

theorem next_bind {p : Program S α} {f : α → Program S β} {e : Event S} {q : Program S β}
    (h : Next (p.bind f) e q) :
    (∃ a, p = .pure a ∧ Next (f a) e q) ∨ ∃ p', Next p e p' ∧ q = p'.bind f := by
  cases p with
  | pure a => exact .inl ⟨a, rfl, h⟩
  | perform o k =>
    cases h with
    | perform _ _ a => exact .inr ⟨_, .perform o k a, rfl⟩
  | loop guard body x k =>
    cases h with
    | loop _ _ _ _ a => exact .inr ⟨_, .loop guard body x k a, by rw [bind_assoc, again_bind]⟩

theorem Next.bind {p p' : Program S α} {e : Event S} (h : Next p e p') (f : α → Program S β) :
    Next (p.bind f) e (p'.bind f) := by
  cases h with
  | perform o k a => exact .perform o (fun a => (k a).bind f) a
  | loop guard body x k a =>
    rw [bind_assoc, again_bind]
    exact .loop guard body x (fun b => (k b).bind f) a

theorem Steps.bind {p p' : Program S α} {tr : List (Event S)} (h : Steps p tr p')
    (f : α → Program S β) : Steps (p.bind f) tr (p'.bind f) := by
  induction h with
  | refl => exact .refl _
  | cons h _ ih => exact .cons (h.bind f) ih

/-- A run of a sequence is in its first part, or has completed that. -/
theorem steps_bind {p : Program S α} {f : α → Program S β} {tr : List (Event S)}
    {q : Program S β} (h : Steps (p.bind f) tr q) :
    (∃ p', Steps p tr p' ∧ q = p'.bind f) ∨
    ∃ tr₁ a tr₂, tr = tr₁ ++ tr₂ ∧ Runs p tr₁ a ∧ Steps (f a) tr₂ q := by
  generalize hp : p.bind f = r at h
  induction h generalizing p with
  | refl => exact .inl ⟨p, .refl p, hp.symm⟩
  | @cons _ _ _ e tr hn hs ih =>
    subst hp
    obtain ⟨a, rfl, hf⟩ | ⟨p', hp', rfl⟩ := next_bind hn
    · exact .inr ⟨[], a, e :: tr, rfl, .refl _, .cons hf hs⟩
    · obtain ⟨q', hq', rfl⟩ | ⟨tr₁, a, tr₂, rfl, hr, hf⟩ := ih rfl
      · exact .inl ⟨q', .cons hp' hq', rfl⟩
      · exact .inr ⟨e :: tr₁, a, tr₂, rfl, .cons hp' hr, hf⟩

/-- A complete run of a sequence completes its first part. -/
theorem runs_bind {p : Program S α} {f : α → Program S β} {tr : List (Event S)} {b : β} :
    Runs (p.bind f) tr b ↔ ∃ tr₁ a tr₂, tr = tr₁ ++ tr₂ ∧ Runs p tr₁ a ∧ Runs (f a) tr₂ b := by
  constructor
  · intro h
    obtain ⟨p', hp', hq⟩ | hdone := steps_bind h
    · cases p' with
      | pure a =>
        rw [pure_bind] at hq
        exact ⟨tr, a, [], by simp, hp', by rw [← hq]; exact .refl _⟩
      | perform o k => simp at hq
      | loop guard body x k => simp at hq
    · exact hdone
  · rintro ⟨tr₁, a, tr₂, rfl, hr, hf⟩
    exact (Steps.bind hr f).trans hf

theorem runs_pure {a b : α} {tr : List (Event S)} :
    Runs (.pure a) tr b ↔ tr = [] ∧ b = a := by
  rw [Runs, steps_pure]
  simp

theorem runs_perform {o : S.Op} {k : S.Answer o → Program S α} {tr : List (Event S)} {b : α} :
    Runs (.perform o k) tr b ↔ ∃ a tr', tr = ⟨o, a⟩ :: tr' ∧ Runs (k a) tr' b := by
  rw [Runs, steps_perform]
  simp [Runs]

/-! ### Passes of a loop -/

/-- The passes of a loop that went on to another one, and what they did. -/
inductive Passes (guard : S.Op) (body : S.Answer guard → σ → Program S (σ ⊕ β)) :
    σ → List (Event S) → σ → Prop
  | refl (x : σ) : Passes guard body x [] x
  | snoc {x y z : σ} {a : S.Answer guard} {tr tr' : List (Event S)}
      (h : Passes guard body x tr y) (hr : Runs (body a y) tr' (.inl z)) :
      Passes guard body x (tr ++ ⟨guard, a⟩ :: tr') z

theorem Passes.cons {guard : S.Op} {body : S.Answer guard → σ → Program S (σ ⊕ β)} {x y z : σ}
    {a : S.Answer guard} {tr tr' : List (Event S)} (hr : Runs (body a x) tr (.inl y))
    (h : Passes guard body y tr' z) : Passes guard body x (⟨guard, a⟩ :: tr ++ tr') z := by
  induction h with
  | refl => simpa using Passes.snoc (.refl x) hr
  | snoc _ hr' ih =>
    rw [← List.append_assoc]
    exact .snoc ih hr'

/-- A pass that goes on, before the rest of the loop. -/
theorem Runs.loop_again {guard : S.Op} {body : S.Answer guard → σ → Program S (σ ⊕ β)} {x y : σ}
    {a : S.Answer guard} {tr tr' : List (Event S)} {b : β} (hr : Runs (body a x) tr (.inl y))
    (h : Runs (repeatWhile guard body y) tr' b) :
    Runs (repeatWhile guard body x) (⟨guard, a⟩ :: (tr ++ tr')) b :=
  .cons (.loop guard body x .pure a) (runs_bind.mpr ⟨tr, .inl y, tr', rfl, hr, h⟩)

/-- The pass that leaves the loop. -/
theorem Runs.loop_leave {guard : S.Op} {body : S.Answer guard → σ → Program S (σ ⊕ β)} {x : σ}
    {a : S.Answer guard} {tr : List (Event S)} {b : β} (hr : Runs (body a x) tr (.inr b)) :
    Runs (repeatWhile guard body x) (⟨guard, a⟩ :: tr) b := by
  refine .cons (.loop guard body x .pure a) ?_
  have h : Runs ((body a x).bind (again guard body .pure)) (tr ++ []) b :=
    runs_bind.mpr ⟨tr, .inr b, [], rfl, hr, .refl _⟩
  rwa [List.append_nil] at h

/-- A complete run of a loop is some passes that went on, and one that left it. -/
theorem runs_repeatWhile {guard : S.Op} {body : S.Answer guard → σ → Program S (σ ⊕ β)} {x : σ}
    {tr : List (Event S)} {b : β} (h : Runs (repeatWhile guard body x) tr b) :
    ∃ tr₁ y a tr₂, tr = tr₁ ++ ⟨guard, a⟩ :: tr₂ ∧ Passes guard body x tr₁ y ∧
      Runs (body a y) tr₂ (.inr b) := by
  induction hn : tr.length using Nat.strongRecOn generalizing tr x with
  | ind n ih =>
    obtain ⟨-, hp⟩ | ⟨a, tr', rfl, hs⟩ := steps_loop.mp h
    · cases hp
    · obtain ⟨tr₁, r, tr₂, rfl, hr, hleft⟩ := runs_bind.mp hs
      cases r with
      | inl y =>
        obtain ⟨tr₃, z, a', tr₄, rfl, hp, hlast⟩ := ih tr₂.length
          (by simp only [List.length_cons, List.length_append] at hn; omega) hleft rfl
        exact ⟨⟨guard, a⟩ :: tr₁ ++ tr₃, z, a', tr₄, by simp, hp.cons hr, hlast⟩
      | inr c =>
        obtain ⟨rfl, rfl⟩ := runs_pure.mp hleft
        exact ⟨[], x, a, tr₁, by simp, .refl x, hr⟩

end Program

end X2Navigation.Interaction
