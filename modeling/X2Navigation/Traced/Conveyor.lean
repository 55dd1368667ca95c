import Mathlib.Data.List.Induction
import X2Navigation.Traced.Machine

/-! Machines that serve items from a queue. Serving respects the order of arrival
when, in every step, what is served and what is left come in the order of the
queue followed by the arrivals. Then it does so in whole runs. -/

namespace X2Navigation.Traced

variable {σ ε ω α : Type*}

/-- In a step to `s'` that leaves `trace`, the items served and the queue left are
a subsequence of the queue before and the arrivals. -/
def ServesInOrder (queue : σ → List α) (served arrived : ω → Option α) (s s' : σ)
    (trace : List ω) : Prop :=
  (trace.filterMap served ++ queue s').Sublist (queue s ++ trace.filterMap arrived)

theorem ServesInOrder.refl (queue : σ → List α) (served arrived : ω → Option α) (s : σ) :
    ServesInOrder queue served arrived s s [] := by
  simp [ServesInOrder]

theorem ServesInOrder.trans {queue : σ → List α} {served arrived : ω → Option α} {s s' s'' : σ}
    {trace more : List ω} (h : ServesInOrder queue served arrived s s' trace)
    (h' : ServesInOrder queue served arrived s' s'' more) :
    ServesInOrder queue served arrived s s'' (trace ++ more) := by
  unfold ServesInOrder at h h' ⊢
  have hfirst := h.append_right (more.filterMap arrived)
  have hthen := h'.append_left (trace.filterMap served)
  rw [List.filterMap_append, List.filterMap_append]
  simp only [List.append_assoc] at hfirst hthen ⊢
  exact hthen.trans hfirst

theorem run_servesInOrder {step : ε → σ → Reaction σ ω} {queue : σ → List α}
    {served arrived : ω → Option α}
    (h : ∀ e s, ServesInOrder queue served arrived s (step e s).1 (step e s).2) (events : List ε)
    (s : σ) :
    ServesInOrder queue served arrived s (run step s events).1 (run step s events).2 := by
  induction events using List.reverseRecOn with
  | nil => exact .refl queue served arrived s
  | append_singleton events e ih =>
    rw [run_snoc]
    exact ih.trans (h e _)

end X2Navigation.Traced
