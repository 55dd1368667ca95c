import Mathlib.Data.List.Induction
import X2Navigation.Interaction.Program

/-! Disciplines: what a program may do next, given what it has seen. A discipline
keeps a ghost state along a run and allows operations in it. A program is safe if
every operation it performs is allowed, and if its result fits the ghost state it
ends in. The rules follow the program: one for a result, an operation, a sequence
and a loop. Safety survives every operation, so that it can be carried along while
others run in between. -/

namespace X2Navigation.Interaction

open Program

structure Discipline (S : Signature) where
  Ghost : Type
  allows : Ghost → S.Op → Prop
  next : Ghost → (o : S.Op) → S.Answer o → Ghost

namespace Discipline
variable {S : Signature} (D : Discipline S) {α β σ : Type}

/-- The ghost state after a run. -/
def after (g : D.Ghost) (tr : List (Event S)) : D.Ghost :=
  tr.foldl (fun g e => D.next g e.1 e.2) g

/-- Every operation of the run is allowed. -/
def Obeys : D.Ghost → List (Event S) → Prop
  | _, [] => True
  | g, e :: tr => D.allows g e.1 ∧ Obeys (D.next g e.1 e.2) tr

def Safe (g : D.Ghost) (p : Program S α) (Q : α → D.Ghost → Prop) : Prop :=
  ∀ tr p', Steps p tr p' → D.Obeys g tr ∧ ∀ a, p' = .pure a → Q a (D.after g tr)

variable {D} {g : D.Ghost}

@[simp] theorem after_nil : D.after g [] = g := rfl

@[simp] theorem after_cons (e : Event S) (tr : List (Event S)) :
    D.after g (e :: tr) = D.after (D.next g e.1 e.2) tr := rfl

@[simp] theorem after_append (tr tr' : List (Event S)) :
    D.after g (tr ++ tr') = D.after (D.after g tr) tr' := List.foldl_append

theorem obeys_append {tr tr' : List (Event S)} :
    D.Obeys g (tr ++ tr') ↔ D.Obeys g tr ∧ D.Obeys (D.after g tr) tr' := by
  induction tr generalizing g with
  | nil => simp [Obeys]
  | cons e tr ih => simp [Obeys, ih, and_assoc]

theorem obeys_snoc {tr : List (Event S)} {e : Event S} :
    D.Obeys g (tr ++ [e]) ↔ D.Obeys g tr ∧ D.allows (D.after g tr) e.1 := by
  simp [obeys_append, Obeys]

/-- Every operation of an obedient run was allowed when it was performed. -/
theorem Obeys.allows {before after : List (Event S)} {e : Event S}
    (h : D.Obeys g (before ++ e :: after)) : D.allows (D.after g before) e.1 :=
  (obeys_append.mp h).2.1

/-! ### Rules -/

theorem safe_pure {a : α} {Q : α → D.Ghost → Prop} : D.Safe g (.pure a) Q ↔ Q a g := by
  constructor
  · intro h
    exact (h [] _ (.refl _)).2 a rfl
  · intro h tr p' hs
    obtain ⟨rfl, rfl⟩ := steps_pure.mp hs
    refine ⟨trivial, fun b hb => ?_⟩
    cases hb
    exact h

theorem safe_perform {o : S.Op} {k : S.Answer o → Program S α} {Q : α → D.Ghost → Prop} :
    D.Safe g (.perform o k) Q ↔
      (S.Answer o → D.allows g o) ∧ ∀ a, D.Safe (D.next g o a) (k a) Q := by
  constructor
  · intro h
    refine ⟨fun a => (h [⟨o, a⟩] _ (.cons (.perform o k a) (.refl _))).1.1, fun a tr p' hs => ?_⟩
    obtain ⟨hobeys, hq⟩ := h (⟨o, a⟩ :: tr) p' (.cons (.perform o k a) hs)
    exact ⟨hobeys.2, hq⟩
  · rintro ⟨hal, hk⟩ tr p' hs
    obtain ⟨rfl, rfl⟩ | ⟨a, rest, rfl, hrest⟩ := steps_perform.mp hs
    · exact ⟨trivial, nofun⟩
    · obtain ⟨hobeys, hq⟩ := hk a rest p' hrest
      exact ⟨⟨hal a, hobeys⟩, hq⟩

theorem safe_act_bind {o : S.Op} {f : S.Answer o → Program S α} {Q : α → D.Ghost → Prop} :
    D.Safe g ((act o).bind f) Q ↔
      (S.Answer o → D.allows g o) ∧ ∀ a, D.Safe (D.next g o a) (f a) Q := safe_perform

theorem safe_ite {c : Prop} [Decidable c] {p q : Program S α} {Q : α → D.Ghost → Prop}
    (hp : c → D.Safe g p Q) (hq : ¬ c → D.Safe g q Q) : D.Safe g (if c then p else q) Q := by
  split
  · exact hp ‹_›
  · exact hq ‹_›

/-- Where everything is allowed, every program is safe. -/
theorem safe_of_allows (h : ∀ g o, D.allows g o) (p : Program S α) :
    D.Safe g p fun _ _ => True := by
  intro tr p' hs
  refine ⟨?_, fun _ _ => trivial⟩
  clear hs
  induction tr generalizing g with
  | nil => trivial
  | cons e tr ih => exact ⟨h g e.1, ih⟩

theorem Safe.mono {p : Program S α} {Q Q' : α → D.Ghost → Prop} (h : D.Safe g p Q)
    (hq : ∀ a g, Q a g → Q' a g) : D.Safe g p Q' := fun tr p' hs =>
  ⟨(h tr p' hs).1, fun a ha => hq a _ ((h tr p' hs).2 a ha)⟩

theorem Safe.bind {p : Program S α} {f : α → Program S β} {R : α → D.Ghost → Prop}
    {Q : β → D.Ghost → Prop} (h : D.Safe g p R) (hf : ∀ a g, R a g → D.Safe g (f a) Q) :
    D.Safe g (p.bind f) Q := by
  intro tr q hs
  obtain ⟨p', hp, rfl⟩ | ⟨tr₁, a, tr₂, rfl, hr, hs⟩ := steps_bind hs
  · obtain ⟨hobeys, hR⟩ := h tr p' hp
    refine ⟨hobeys, fun b hb => ?_⟩
    cases p' with
    | pure a => exact safe_pure.mp (hb ▸ hf a _ (hR a rfl))
    | perform o k => cases hb
    | loop guard body x k => cases hb
  · obtain ⟨hobeys, hR⟩ := h tr₁ _ hr
    obtain ⟨hobeys', hQ⟩ := hf a _ (hR a rfl) tr₂ q hs
    exact ⟨obeys_append.mpr ⟨hobeys, hobeys'⟩, by simpa using hQ⟩

/-- A loop is safe under an invariant that every pass keeps. -/
theorem safe_loop {guard : S.Op} {body : S.Answer guard → σ → Program S (σ ⊕ β)}
    {k : β → Program S α} {Q : α → D.Ghost → Prop} (I : σ → D.Ghost → Prop)
    (R : β → D.Ghost → Prop) (hguard : ∀ x g, I x g → D.allows g guard)
    (hbody : ∀ x g a, I x g → D.Safe (D.next g guard a) (body a x)
      fun r g => Sum.elim (I · g) (R · g) r)
    (hk : ∀ b g, R b g → D.Safe g (k b) Q) {x : σ} (h : I x g) :
    D.Safe g (.loop guard body x k) Q := by
  intro tr q hs
  -- a pass leaves a shorter run
  induction hn : tr.length using Nat.strongRecOn generalizing tr x g with
  | ind n ih =>
    obtain ⟨rfl, rfl⟩ | ⟨a, tr', rfl, hpassed⟩ := steps_loop.mp hs
    · exact ⟨trivial, nofun⟩
    · have hpass := hbody x g a h
      obtain ⟨p', hp, rfl⟩ | ⟨tr₁, r, tr₂, rfl, hr, hleft⟩ := steps_bind hpassed
      · obtain ⟨hobeys, hr⟩ := hpass tr' p' hp
        refine ⟨⟨hguard x g h, hobeys⟩, fun b hb => ?_⟩
        cases p' with
        | pure r =>
          cases r with
          | inl y => cases hb
          | inr c => exact safe_pure.mp (hb ▸ hk c _ (hr _ rfl))
        | perform o k => cases hb
        | loop guard body x k => cases hb
      · obtain ⟨hobeys, hr'⟩ := hpass tr₁ _ hr
        have hrest : D.Obeys (D.after (D.next g guard a) tr₁) tr₂ ∧
            ∀ b, q = .pure b → Q b (D.after (D.after (D.next g guard a) tr₁) tr₂) := by
          cases r with
          | inl y =>
            exact ih tr₂.length (by simp only [List.length_cons, List.length_append] at hn; omega)
              (hr' _ rfl) tr₂ hleft rfl
          | inr c => exact hk c _ (hr' _ rfl) tr₂ q hleft
        exact ⟨⟨hguard x g h, obeys_append.mpr ⟨hobeys, hrest.1⟩⟩, by simpa using hrest.2⟩

theorem safe_repeatWhile {guard : S.Op} {body : S.Answer guard → σ → Program S (σ ⊕ β)}
    {Q : β → D.Ghost → Prop} (I : σ → D.Ghost → Prop)
    (hguard : ∀ x g, I x g → D.allows g guard)
    (hbody : ∀ x g a, I x g → D.Safe (D.next g guard a) (body a x)
      fun r g => Sum.elim (I · g) (Q · g) r) {x : σ} (h : I x g) :
    D.Safe g (repeatWhile guard body x) Q :=
  safe_loop I Q hguard hbody (fun _ _ h => safe_pure.mpr h) h

/-! ### Safety along a run -/

/-- Whatever a safe program does next is allowed, and what is left of it is safe. -/
theorem Safe.next {p p' : Program S α} {Q : α → D.Ghost → Prop} {e : Event S}
    (h : D.Safe g p Q) (hn : Next p e p') :
    D.allows g e.1 ∧ D.Safe (D.next g e.1 e.2) p' Q := by
  refine ⟨(h [e] p' (.cons hn (.refl _))).1.1, fun tr q hs => ?_⟩
  obtain ⟨hobeys, hq⟩ := h (e :: tr) q (.cons hn hs)
  exact ⟨hobeys.2, hq⟩

/-! ### What was done before -/

/-- A discipline that allows an operation by all that was done before it. -/
abbrev ofPast (allows : List (Event S) → S.Op → Prop) : Discipline S :=
  ⟨List (Event S), allows, fun past o a => past ++ [⟨o, a⟩]⟩

theorem ofPast_after {allows : List (Event S) → S.Op → Prop} (past tr : List (Event S)) :
    (ofPast allows).after past tr = past ++ tr := by
  induction tr generalizing past with
  | nil => rw [List.append_nil, after_nil]
  | cons e tr ih =>
    rw [after_cons, ih, ← List.append_cons]

theorem obeys_ofPast {allows : List (Event S) → S.Op → Prop} {tr : List (Event S)} :
    (ofPast allows).Obeys [] tr ↔ ∀ before e behind, tr = before ++ e :: behind → allows before e.1 := by
  constructor
  · rintro h before e behind rfl
    have hallows := h.allows
    rwa [ofPast_after, List.nil_append] at hallows
  · intro h
    induction tr using List.reverseRecOn with
    | nil => trivial
    | append_singleton tr e ih =>
      refine obeys_snoc.mpr ⟨ih fun before x behind heq => h before x (behind ++ [e]) (by simp [heq]), ?_⟩
      rw [ofPast_after, List.nil_append]
      exact h tr e [] rfl

end Discipline

/-! ### Results -/

namespace Program
variable {S : Signature} {α β σ : Type}

/-- Whatever the program returns satisfies `Q`. -/
def Yields (Q : α → Prop) (p : Program S α) : Prop := ∀ tr a, Runs p tr a → Q a

variable {Q : α → Prop}

theorem yields_pure {a : α} (h : Q a) : Yields Q (.pure a : Program S α) := by
  intro tr b hr
  rw [(runs_pure.mp hr).2]
  exact h

theorem Yields.bind {p : Program S α} {f : α → Program S β} {R : β → Prop} (h : Yields Q p)
    (hf : ∀ a, Q a → Yields R (f a)) : Yields R (p.bind f) := by
  intro tr b hr
  obtain ⟨tr₁, a, tr₂, -, hp, hrest⟩ := runs_bind.mp hr
  exact hf a (h tr₁ a hp) tr₂ b hrest

theorem yields_perform {o : S.Op} {k : S.Answer o → Program S α} (h : ∀ a, Yields Q (k a)) :
    Yields Q (.perform o k) := by
  intro tr b hr
  obtain ⟨a, tr', -, hrest⟩ := runs_perform.mp hr
  exact h a tr' b hrest

theorem yields_act_bind {o : S.Op} {f : S.Answer o → Program S α} (h : ∀ a, Yields Q (f a)) :
    Yields Q ((act o).bind f) := yields_perform h

theorem yields_ite {c : Prop} [Decidable c] {p q : Program S α} (hp : c → Yields Q p)
    (hq : ¬ c → Yields Q q) : Yields Q (if c then p else q) := by
  split
  · exact hp ‹_›
  · exact hq ‹_›

theorem yields_any (p : Program S α) : Yields (fun _ => True) p := fun _ _ _ => trivial

/-- A loop yields what its last pass does, under an invariant of the others. -/
theorem yields_repeatWhile {guard : S.Op} {body : S.Answer guard → σ → Program S (σ ⊕ α)}
    (I : σ → Prop) (hbody : ∀ a x, I x → Yields (Sum.elim I Q) (body a x)) {x : σ} (h : I x) :
    Yields Q (repeatWhile guard body x) := by
  intro tr b hr
  obtain ⟨tr₁, y, a, tr₂, -, hpasses, hlast⟩ := runs_repeatWhile hr
  have hy : I y := by
    clear hlast
    induction hpasses with
    | refl => exact h
    | snoc _ hpass ih => exact hbody _ _ ih _ _ hpass
  exact hbody a y hy tr₂ (.inr b) hlast

end Program

namespace Discipline
variable {S : Signature} {D : Discipline S} {g : D.Ghost} {α : Type}

theorem Safe.and_yields {p : Program S α} {R : α → D.Ghost → Prop} {Q : α → Prop}
    (h : D.Safe g p R) (hq : Program.Yields Q p) : D.Safe g p fun a g => R a g ∧ Q a := by
  intro tr p' hs
  obtain ⟨hobeys, hr⟩ := h tr p' hs
  refine ⟨hobeys, ?_⟩
  rintro a rfl
  exact ⟨hr a rfl, hq tr a hs⟩

end Discipline

/-! ### Programs that keep to some operations -/

namespace Program
variable {S : Signature} {α β σ : Type}

/-- Every operation the program may perform satisfies `P`. -/
def All (P : S.Op → Prop) {α : Type} : Program S α → Prop
  | .pure _ => True
  | .perform o k => P o ∧ ∀ a, All P (k a)
  | .loop guard body _ k => P guard ∧ (∀ a x, All P (body a x)) ∧ ∀ b, All P (k b)

variable {P : S.Op → Prop}

@[simp] theorem all_pure (a : α) : All P (.pure a : Program S α) := trivial

@[simp] theorem all_act (o : S.Op) : All P (act o) ↔ P o := by
  simp [act, All]

@[simp] theorem all_repeatWhile (guard : S.Op) (body : S.Answer guard → σ → Program S (σ ⊕ β))
    (x : σ) : All P (repeatWhile guard body x) ↔ P guard ∧ ∀ a x, All P (body a x) := by
  simp [repeatWhile, All]

theorem All.mono {Q : S.Op → Prop} {p : Program S α} (h : All P p) (hPQ : ∀ o, P o → Q o) :
    All Q p := by
  induction p with
  | pure a => trivial
  | perform o k ih => exact ⟨hPQ o h.1, fun a => ih a (h.2 a)⟩
  | loop guard body x k ihbody ih =>
    exact ⟨hPQ guard h.1, fun a x => ihbody a x (h.2.1 a x), fun b => ih b (h.2.2 b)⟩

theorem All.bind {p : Program S α} {f : α → Program S β} (hp : All P p)
    (hf : ∀ a, All P (f a)) : All P (p.bind f) := by
  induction p with
  | pure a => exact hf a
  | perform o k ih => exact ⟨hp.1, fun a => ih a (hp.2 a) hf⟩
  | loop guard body x k _ ih => exact ⟨hp.1, hp.2.1, fun b => ih b (hp.2.2 b) hf⟩

theorem All.next {p p' : Program S α} {e : Event S} (h : All P p) (hn : Next p e p') :
    P e.1 ∧ All P p' := by
  cases hn with
  | perform o k a => exact ⟨h.1, h.2 a⟩
  | loop guard body x k a =>
    refine ⟨h.1, (h.2.1 a x).bind fun r => ?_⟩
    cases r with
    | inl y => exact h
    | inr b => exact h.2.2 b

theorem All.request {p : Program S α} (h : All P p) {o : S.Op} (ho : p.request = some o) : P o := by
  cases p with
  | pure a => cases ho
  | perform o' k =>
    obtain rfl := Option.some.inj ho
    exact h.1
  | loop guard body x k =>
    obtain rfl := Option.some.inj ho
    exact h.1

theorem All.steps {p p' : Program S α} {tr : List (Event S)} (h : All P p) (hs : Steps p tr p') :
    (∀ e ∈ tr, P e.1) ∧ All P p' := by
  induction hs with
  | refl => exact ⟨by simp, h⟩
  | cons hn _ ih =>
    obtain ⟨he, hp⟩ := h.next hn
    simpa [he] using ih hp

/-- A program that keeps to operations under which `I` is kept is safe. -/
theorem All.safe {D : Discipline S} {p : Program S α} (h : All P p) {I : D.Ghost → Prop}
    (hI : ∀ g o, P o → I g → D.allows g o ∧ ∀ a, I (D.next g o a)) {g : D.Ghost} (hg : I g) :
    D.Safe g p fun _ g' => I g' := by
  intro tr p' hs
  obtain ⟨htr, -⟩ := h.steps hs
  clear hs
  induction tr generalizing g with
  | nil => exact ⟨trivial, fun _ _ => hg⟩
  | cons e tr ih =>
    obtain ⟨hal, hnext⟩ := hI g e.1 (htr e (by simp)) hg
    obtain ⟨hobeys, hI⟩ := ih (hnext e.2) fun e he => htr e (by simp [he])
    exact ⟨⟨hal, hobeys⟩, hI⟩

end Program

end X2Navigation.Interaction
