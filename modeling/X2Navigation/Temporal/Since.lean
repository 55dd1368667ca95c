import Mathlib.Data.List.Induction
import Mathlib.Data.Set.Basic

/-! The past-time operator `Since` over finite histories. What must hold of an
event, and what starts the stretch, may depend on everything that came before
it; the last event of a history decides, together with the history before it. -/

namespace X2Navigation.Temporal

variable {ε : Type*}

/-- Some event starts the stretch, and every event from that one on is as `hold` says. -/
def Since (hold start : List ε → ε → Prop) (history : List ε) : Prop :=
  ∃ before e after, history = before ++ e :: after ∧ start before e ∧
    ∀ p x q, e :: after = p ++ x :: q → hold (before ++ p) x

variable {hold start : List ε → ε → Prop}

theorem not_since_nil : ¬ Since hold start [] := by
  rintro ⟨before, e, after, h, _⟩
  simp at h

theorem since_snoc (history : List ε) (x : ε) :
    Since hold start (history ++ [x]) ↔
      hold history x ∧ (start history x ∨ Since hold start history) := by
  constructor
  · rintro ⟨before, e, after, h, hs, hh⟩
    rcases List.eq_nil_or_concat after with rfl | ⟨after, y, rfl⟩
    · obtain ⟨rfl, hx⟩ := List.append_inj' h rfl
      obtain rfl : x = e := by simpa using hx
      have hhold := hh [] x [] rfl
      rw [List.append_nil] at hhold
      exact ⟨hhold, Or.inl hs⟩
    · rw [List.concat_eq_append, ← List.cons_append, ← List.append_assoc] at h
      obtain ⟨rfl, hx⟩ := List.append_inj' h rfl
      obtain rfl : x = y := by simpa using hx
      refine ⟨hh (e :: after) x [] (by simp), Or.inr ⟨before, e, after, rfl, hs, ?_⟩⟩
      intro p z q hq
      refine hh p z (q ++ [x]) ?_
      rw [List.concat_eq_append, ← List.cons_append, hq, List.append_assoc, List.cons_append]
  · rintro ⟨hx, hs | ⟨before, e, after, rfl, hs, hh⟩⟩
    · refine ⟨history, x, [], rfl, hs, ?_⟩
      intro p z q hq
      rcases p with _ | ⟨y, p⟩
      · obtain ⟨rfl, rfl⟩ : x = z ∧ q = [] := by simpa [eq_comm] using hq
        rwa [List.append_nil]
      · simp at hq
    · refine ⟨before, e, after ++ [x], by simp, hs, ?_⟩
      intro p z q hq
      rcases List.eq_nil_or_concat q with rfl | ⟨q, y, rfl⟩
      · rw [← List.cons_append] at hq
        obtain ⟨rfl, hz⟩ := List.append_inj' hq rfl
        obtain rfl : x = z := by simpa using hz
        exact hx
      · rw [List.concat_eq_append, ← List.cons_append, ← List.cons_append,
          ← List.append_assoc] at hq
        exact hh p z q (List.append_inj' hq rfl).1

end X2Navigation.Temporal
