import Mathlib.Data.List.Induction
import Mathlib.Data.Set.Finite.Lattice
import Mathlib.Order.Basic

/-! Machines that leave a trace. A reaction is the next state together with what
happened on the way, oldest first. An invariant of a run speaks about the state
and the whole trace so far, and may also mention a clock that does not go back. -/

namespace X2Navigation.Traced

variable {σ ε ω : Type*}

abbrev Reaction (σ ω : Type*) := σ × List ω

namespace Reaction

/-- Go on from the state a reaction leaves. -/
def andThen (r : Reaction σ ω) (f : σ → Reaction σ ω) : Reaction σ ω :=
  ((f r.1).1, r.2 ++ (f r.1).2)

@[simp] theorem andThen_fst (r : Reaction σ ω) (f : σ → Reaction σ ω) :
    (r.andThen f).1 = (f r.1).1 := rfl

@[simp] theorem andThen_snd (r : Reaction σ ω) (f : σ → Reaction σ ω) :
    (r.andThen f).2 = r.2 ++ (f r.1).2 := rfl

end Reaction

def run (step : ε → σ → Reaction σ ω) (s : σ) (events : List ε) : Reaction σ ω :=
  events.foldl (fun r e => r.andThen (step e)) (s, [])

@[simp] theorem run_nil (step : ε → σ → Reaction σ ω) (s : σ) : run step s [] = (s, []) := rfl

@[simp] theorem run_snoc (step : ε → σ → Reaction σ ω) (s : σ) (events : List ε) (e : ε) :
    run step s (events ++ [e]) = (run step s events).andThen (step e) := by
  simp [run]

/-- A run goes on from the state it has reached. -/
theorem run_append (step : ε → σ → Reaction σ ω) (s : σ) (events events' : List ε) :
    run step s (events ++ events') = (run step s events).andThen (run step · events') := by
  induction events' using List.reverseRecOn with
  | nil => simp [Reaction.andThen]
  | append_singleton events' e ih =>
    rw [← List.append_assoc, run_snoc, ih]
    simp [Reaction.andThen]

theorem pairwise_filterMap_singleton {β : Type*} {r : β → β → Prop} (f : ω → Option β) (x : ω) :
    ([x].filterMap f).Pairwise r := by
  cases h : f x <;> simp [h]

theorem forall_mem_filterMap_singleton {β : Type*} {f : ω → Option β} {x : ω} {p : β → Prop}
    (h : ∀ b, f x = some b → p b) : ∀ b ∈ [x].filterMap f, p b := by
  intro b hb
  obtain ⟨y, hy, heq⟩ := List.mem_filterMap.mp hb
  obtain rfl := List.mem_singleton.mp hy
  exact h b heq

/-- What is not read leaves no readings. -/
theorem forall_mem_filterMap_of_none {β : Type*} {f : ω → Option β} {x : ω} {p : β → Prop}
    (h : f x = none) : ∀ b ∈ [x].filterMap f, p b :=
  forall_mem_filterMap_singleton fun b hb => absurd (h.symm.trans hb) (Option.some_ne_none b).symm

/-- Readings of a register that never goes back never go back either. -/
theorem run_readings {β : Type*} [Preorder β] {step : ε → σ → Reaction σ ω} (value : σ → β)
    {reading : ω → Option β} (hvalue : ∀ e s, value s ≤ value (step e s).1)
    (hordered : ∀ e s, ((step e s).2.filterMap reading).Pairwise (· ≤ ·))
    (hread : ∀ e s, ∀ r ∈ (step e s).2.filterMap reading, value s ≤ r ∧ r ≤ value (step e s).1)
    (s : σ) (events : List ε) :
    ((run step s events).2.filterMap reading).Pairwise (· ≤ ·) ∧
      ∀ r ∈ (run step s events).2.filterMap reading, r ≤ value (run step s events).1 := by
  induction events using List.reverseRecOn with
  | nil => simp
  | append_singleton events e ih =>
    obtain ⟨hpairwise, hle⟩ := ih
    rw [run_snoc, Reaction.andThen_snd, Reaction.andThen_fst, List.filterMap_append]
    constructor
    · refine List.pairwise_append.mpr ⟨hpairwise, hordered _ _, fun r hr r' hr' => ?_⟩
      exact (hle r hr).trans (hread _ _ r' hr').1
    · intro r hr
      rcases List.mem_append.mp hr with hr | hr
      · exact (hle r hr).trans (hvalue _ _)
      · exact (hread _ _ r hr).2

/-- What is asked of every split of a list is asked of its head and of the splits of its tail. -/
theorem forall_split_cons {α : Type*} {Q : List α → α → Prop} {x : α} {l : List α} (hx : Q [] x)
    (hl : ∀ before e after, l = before ++ e :: after → Q (x :: before) e) :
    ∀ before e after, x :: l = before ++ e :: after → Q before e := by
  rintro before e after heq
  cases before with
  | nil =>
    obtain ⟨rfl, -⟩ := List.cons.inj heq
    exact hx
  | cons y before =>
    obtain ⟨rfl, htail⟩ := List.cons.inj heq
    exact hl before e after htail

theorem forall_split_nil {α : Type*} {Q : List α → α → Prop} :
    ∀ before e after, [] = before ++ e :: after → Q before e := by
  intro before e after heq
  simp at heq

section Invariant

/-- From the trace so far, `r` reaches a state and a trace that satisfy `Inv`. -/
def Keeps (Inv : σ → List ω → Prop) (trace : List ω) (r : Reaction σ ω) : Prop :=
  Inv r.1 (trace ++ r.2)

variable {Inv : σ → List ω → Prop}

theorem Keeps.andThen {trace : List ω} {r : Reaction σ ω} {f : σ → Reaction σ ω}
    (hr : Keeps Inv trace r) (hf : ∀ s trace, Inv s trace → Keeps Inv trace (f s)) :
    Keeps Inv trace (r.andThen f) := by
  have h := hf r.1 (trace ++ r.2) hr
  simpa [Keeps, List.append_assoc] using h

theorem keeps_foldl {α : Type*} (f : α → σ → Reaction σ ω)
    (hf : ∀ a s trace, Inv s trace → Keeps Inv trace (f a s)) (items : List α) {s : σ}
    {trace : List ω} (h : Inv s trace) :
    Keeps Inv trace (items.foldl (fun r a => r.andThen (f a)) (s, [])) := by
  induction items using List.reverseRecOn with
  | nil => simpa [Keeps] using h
  | append_singleton items a ih =>
    rw [List.foldl_append]
    exact ih.andThen (hf a)

/-- A run under a clock: the invariant survives the passing of time and every
event at its own time. -/
theorem run_keeps {κ : Type*} [Preorder κ] {step : ε → σ → Reaction σ ω} {clock : ε → κ}
    {Inv : κ → σ → List ω → Prop} {s : σ} (h0 : ∀ c, Inv c s [])
    (hmono : ∀ {c c' s trace}, c ≤ c' → Inv c s trace → Inv c' s trace)
    (hstep : ∀ e s trace, Inv (clock e) s trace → Keeps (Inv (clock e)) trace (step e s))
    (events : List ε) (c : κ) (hc : (events.map clock ++ [c]).Pairwise (· ≤ ·)) :
    Inv c (run step s events).1 (run step s events).2 := by
  induction events using List.reverseRecOn generalizing c with
  | nil => exact h0 c
  | append_singleton events e ih =>
    rw [List.map_append, List.append_assoc, List.pairwise_append] at hc
    obtain ⟨he, hec, hle⟩ := hc
    have hbefore : (events.map clock ++ [clock e]).Pairwise (· ≤ ·) := by
      refine List.pairwise_append.mpr ⟨he, List.pairwise_singleton _ _, ?_⟩
      intro a ha b hb
      exact hle a ha b (by simp_all)
    have hnow : clock e ≤ c := by simpa using hec
    rw [run_snoc]
    exact hmono hnow (hstep e _ _ (ih (clock e) hbefore))

/-- The invariant of a run at some time after its last event. -/
theorem run_keeps_later {κ : Type*} [LinearOrder κ] [Nonempty κ] {step : ε → σ → Reaction σ ω}
    {clock : ε → κ} {Inv : κ → σ → List ω → Prop} {s : σ} (h0 : ∀ c, Inv c s [])
    (hmono : ∀ {c c' s trace}, c ≤ c' → Inv c s trace → Inv c' s trace)
    (hstep : ∀ e s trace, Inv (clock e) s trace → Keeps (Inv (clock e)) trace (step e s))
    (events : List ε) (hclock : (events.map clock).Pairwise (· ≤ ·)) :
    ∃ c, Inv c (run step s events).1 (run step s events).2 := by
  obtain ⟨c, hc⟩ := (List.finite_toSet (events.map clock)).bddAbove
  refine ⟨c, run_keeps h0 hmono hstep events c ?_⟩
  refine List.pairwise_append.mpr ⟨hclock, List.pairwise_singleton _ _, fun a ha b hb => ?_⟩
  obtain rfl := List.mem_singleton.mp hb
  exact hc ha

end Invariant

end X2Navigation.Traced
