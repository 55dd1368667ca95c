import Mathlib.Data.List.Induction

/-! Latches over a growing history. A latch closes when a condition has held for a number of
entries in a row, and stays closed for as long as a second condition holds. -/

namespace X2Navigation.Temporal

variable {α : Type*} {p q : α → Prop} {k : ℕ} {history : List α} {x : α}

/-- The last `k` entries satisfy `p`. -/
def Streak (p : α → Prop) (k : ℕ) (history : List α) : Prop :=
  ∃ before last, history = before ++ last ∧ last.length = k ∧ ∀ y ∈ last, p y

/-- At some time the last `k` entries satisfied `p`, and all since then satisfy `q`. -/
def Latched (p q : α → Prop) (k : ℕ) (history : List α) : Prop :=
  ∃ before confirming holding, history = before ++ confirming ++ holding ∧
    confirming.length = k ∧ (∀ y ∈ confirming, p y) ∧ ∀ y ∈ holding, q y

theorem streak_zero (p : α → Prop) (history : List α) : Streak p 0 history :=
  ⟨history, [], (List.append_nil _).symm, rfl, by simp⟩

theorem not_streak_nil (hk : 1 ≤ k) : ¬ Streak p k [] := by
  rintro ⟨before, last, heq, hlength, -⟩
  obtain ⟨-, rfl⟩ := List.append_eq_nil_iff.mp heq.symm
  simp at hlength
  omega

theorem streak_snoc : Streak p (k + 1) (history ++ [x]) ↔ Streak p k history ∧ p x := by
  constructor
  · rintro ⟨before, last, heq, hlength, hlast⟩
    cases last using List.reverseRecOn with
    | nil => simp at hlength
    | append_singleton last y =>
      rw [← List.append_assoc] at heq
      obtain ⟨rfl, hxy⟩ := List.append_inj' heq rfl
      obtain rfl : x = y := by simpa using hxy
      rw [List.length_append, List.length_singleton, Nat.add_right_cancel_iff] at hlength
      exact ⟨⟨before, last, rfl, hlength, fun z hz => hlast z (List.mem_append_left _ hz)⟩,
        hlast x (by simp)⟩
  · rintro ⟨⟨before, last, rfl, rfl, hlast⟩, hx⟩
    refine ⟨before, last ++ [x], by rw [List.append_assoc], by simp, ?_⟩
    intro z hz
    obtain hz | hz := List.mem_append.mp hz
    · exact hlast z hz
    · obtain rfl := List.mem_singleton.mp hz
      exact hx

theorem streak_snoc_of_not (hx : ¬ p x) : Streak p k (history ++ [x]) ↔ k = 0 := by
  cases k with
  | zero => exact iff_of_true (streak_zero _ _) rfl
  | succ k =>
    rw [streak_snoc]
    exact iff_of_false (fun h => hx h.2) (Nat.succ_ne_zero k)

theorem not_latched_nil (hk : 1 ≤ k) : ¬ Latched p q k [] := by
  rintro ⟨before, confirming, holding, heq, hlength, hconfirming, -⟩
  obtain ⟨heq, -⟩ := List.append_eq_nil_iff.mp heq.symm
  exact not_streak_nil hk ⟨before, confirming, heq.symm, hlength, hconfirming⟩

/-- A closed latch was closed before and is held, or it has just been confirmed. -/
theorem latched_snoc : Latched p q k (history ++ [x]) ↔
    Latched p q k history ∧ q x ∨ Streak p k (history ++ [x]) := by
  constructor
  · rintro ⟨before, confirming, holding, heq, hlength, hconfirming, hholding⟩
    cases holding using List.reverseRecOn with
    | nil =>
      rw [List.append_nil] at heq
      exact .inr ⟨before, confirming, heq, hlength, hconfirming⟩
    | append_singleton holding y =>
      rw [← List.append_assoc] at heq
      obtain ⟨rfl, hxy⟩ := List.append_inj' heq rfl
      obtain rfl : x = y := by simpa using hxy
      exact .inl ⟨⟨before, confirming, holding, rfl, hlength, hconfirming,
        fun z hz => hholding z (List.mem_append_left _ hz)⟩, hholding x (by simp)⟩
  · rintro (⟨⟨before, confirming, holding, rfl, hlength, hconfirming, hholding⟩, hx⟩ |
      ⟨before, confirming, heq, hlength, hconfirming⟩)
    · refine ⟨before, confirming, holding ++ [x], by rw [List.append_assoc], hlength, hconfirming, ?_⟩
      intro z hz
      obtain hz | hz := List.mem_append.mp hz
      · exact hholding z hz
      · obtain rfl := List.mem_singleton.mp hz
        exact hx
    · exact ⟨before, confirming, [], by rw [heq, List.append_nil], hlength, hconfirming, by simp⟩

end X2Navigation.Temporal
