import X2Navigation.Docking.Steering
import X2Navigation.Temporal.Latch

/-! An axis over its whole history. The direction in force is a latch of the errors: it closes
after enough errors in a row outside completion, and stays closed while the errors are outside
the hysteresis band. What is left in the other two fields counts the errors in a row that ask
for a direction which is not in force. -/

namespace X2Navigation.ConfirmedAxis

open Temporal

variable {K : Type*} [Field K] [LinearOrder K]

/-- The axis after one call for every error, oldest first. -/
def run (tolerance hysteresis : K) (confirmations : ℕ) (errors : List K) : ConfirmedAxis :=
  errors.foldl (fun axis error => axis.update error tolerance hysteresis confirmations) new

theorem run_snoc (tolerance hysteresis : K) (confirmations : ℕ) (errors : List K) (error : K) :
    run tolerance hysteresis confirmations (errors ++ [error]) =
      (run tolerance hysteresis confirmations errors).update error tolerance hysteresis
        confirmations := by
  simp [run]

/-- The error has the sign of the direction, and a magnitude above the limit. -/
def Beyond (limit : K) (direction : ℤ) (error : K) : Prop :=
  limit < |error| ∧ (SignType.sign error : ℤ) = direction

/-- At some time the last errors, as many as confirm, asked for the direction from outside the
tolerance, and no later one has come into the hysteresis band or to the other side. -/
def Confirmed (tolerance hysteresis : K) (confirmations : ℕ) (direction : ℤ) (errors : List K) :
    Prop :=
  Latched (Beyond tolerance direction) (Beyond (dockingStopTolerance tolerance hysteresis) direction)
    confirmations errors

variable {tolerance hysteresis error : K} {confirmations : ℕ} {direction : ℤ} {axis : ConfirmedAxis}
  {errors : List K}

/-! ### The fields -/

/-- What each field says about the errors so far. A count that belongs to a direction already in
force says nothing. -/
structure Counts (tolerance hysteresis : K) (confirmations : ℕ) (axis : ConfirmedAxis)
    (errors : List K) : Prop where
  active : ∀ direction ≠ 0,
    axis.active = direction ↔ Confirmed tolerance hysteresis confirmations direction errors
  range : axis.active = 0 ∨ axis.active = 1 ∨ axis.active = -1
  pending : axis.active ≠ 0 → axis.pending = axis.active
  count : ∀ direction ≠ 0, axis.active ≠ direction → ∀ k,
    Streak (Beyond tolerance direction) k errors ↔
      k ≤ if axis.pending = direction then axis.count else 0

theorem counts_new (hc : 1 ≤ confirmations) :
    Counts tolerance hysteresis confirmations new [] := by
  constructor
  · intro d hd
    exact iff_of_false (Ne.symm hd) (not_latched_nil hc)
  · exact .inl rfl
  · intro h
    exact absurd rfl h
  · intro d hd _ k
    have hpending : new.pending ≠ d := Ne.symm hd
    rw [if_neg hpending, Nat.le_zero]
    constructor
    · intro hstreak
      by_contra hk
      exact not_streak_nil (Nat.pos_of_ne_zero hk) hstreak
    · rintro rfl
      exact streak_zero _ _

/-- An error that neither holds nor confirms anything clears the axis. -/
theorem Counts.cleared (hc : 1 ≤ confirmations)
    (h : Counts tolerance hysteresis confirmations axis errors)
    (hholds : ∀ direction ≠ 0, axis.active = direction →
      ¬ Beyond (dockingStopTolerance tolerance hysteresis) direction error)
    (hconfirms : ∀ direction ≠ 0, ¬ Beyond tolerance direction error) :
    Counts tolerance hysteresis confirmations new (errors ++ [error]) := by
  constructor
  · intro d hd
    refine iff_of_false (Ne.symm hd) ?_
    rw [Confirmed, latched_snoc, streak_snoc_of_not (hconfirms d hd)]
    rintro (⟨hlatched, hbeyond⟩ | hzero)
    · exact hholds d hd ((h.active d hd).mpr hlatched) hbeyond
    · omega
  · exact .inl rfl
  · intro hne
    exact absurd rfl hne
  · intro d hd _ k
    have hpending : new.pending ≠ d := Ne.symm hd
    rw [if_neg hpending, Nat.le_zero]
    exact streak_snoc_of_not (hconfirms d hd)

/-! ### One error -/

theorem requested_eq_zero : requested error tolerance hysteresis = 0 ↔
    |error| ≤ dockingStopTolerance tolerance hysteresis := by
  unfold requested
  split
  · next h => exact ⟨fun _ => h, fun _ => rfl⟩
  · next h =>
    refine ⟨fun hzero => ?_, fun hle => absurd hle h⟩
    split at hzero <;> cases hzero

theorem requested_range (error tolerance hysteresis : K) :
    requested error tolerance hysteresis = 0 ∨ requested error tolerance hysteresis = 1 ∨
      requested error tolerance hysteresis = -1 := by
  unfold requested
  split
  · exact .inl rfl
  · split
    · exact .inr (.inl rfl)
    · exact .inr (.inr rfl)

variable [IsStrictOrderedRing K]

/-- What is requested is the sign of the error, outside the band. -/
theorem requested_eq_sign (ht : 0 < tolerance)
    (h : dockingStopTolerance tolerance hysteresis < |error|) :
    requested error tolerance hysteresis = (SignType.sign error : ℤ) := by
  have hne : error ≠ 0 := abs_pos.mp ((dockingStopTolerance_pos ht hysteresis).trans h)
  unfold requested
  rw [if_neg (not_le.mpr h)]
  split
  · next hpos =>
    rw [sign_pos hpos]
    rfl
  · next hneg =>
    rw [sign_neg (lt_of_le_of_ne (not_lt.mp hneg) hne)]
    rfl

/-- An error is beyond the band in the direction it requests. -/
theorem beyond_stop_iff (ht : 0 < tolerance) (hd : direction ≠ 0) :
    Beyond (dockingStopTolerance tolerance hysteresis) direction error ↔
      requested error tolerance hysteresis = direction := by
  constructor
  · rintro ⟨hlt, hsign⟩
    rw [requested_eq_sign ht hlt, hsign]
  · rintro rfl
    have hlt := not_le.mp (mt requested_eq_zero.mpr hd)
    exact ⟨hlt, (requested_eq_sign ht hlt).symm⟩

theorem beyond_tolerance_iff (ht : 0 < tolerance) (hh : 0 ≤ hysteresis) (hd : direction ≠ 0) :
    Beyond tolerance direction error ↔
      requested error tolerance hysteresis = direction ∧ tolerance < |error| := by
  rw [← beyond_stop_iff ht hd]
  constructor
  · rintro ⟨hlt, hsign⟩
    exact ⟨⟨(dockingStopTolerance_le ht hh).trans_lt hlt, hsign⟩, hlt⟩
  · rintro ⟨⟨-, hsign⟩, hlt⟩
    exact ⟨hlt, hsign⟩

/-- An error outside completion, in a direction that is not in force, is counted. -/
theorem Counts.counted (ht : 0 < tolerance) (hh : 0 ≤ hysteresis) (hc : 1 ≤ confirmations)
    (h : Counts tolerance hysteresis confirmations axis errors)
    (hzero : requested error tolerance hysteresis ≠ 0)
    (hne : requested error tolerance hysteresis ≠ axis.active) (hlt : tolerance < |error|) :
    let requested := requested error tolerance hysteresis
    let count := if requested = axis.pending then axis.count + 1 else 1
    Counts tolerance hysteresis confirmations
      ⟨if confirmations ≤ count then requested else 0, requested, count⟩ (errors ++ [error]) := by
  intro r count
  have hcount : count = (if axis.pending = r then axis.count else 0) + 1 := by
    by_cases hpending : r = axis.pending
    · simp only [count, if_pos hpending, if_pos hpending.symm]
    · simp only [count, if_neg hpending, if_neg (Ne.symm hpending)]
  have hbeyond : Beyond tolerance r error := (beyond_tolerance_iff ht hh hzero).mpr ⟨rfl, hlt⟩
  have hstreak (k : ℕ) : Streak (Beyond tolerance r) k (errors ++ [error]) ↔ k ≤ count := by
    cases k with
    | zero => exact iff_of_true (streak_zero _ _) (Nat.zero_le _)
    | succ k =>
      rw [streak_snoc, h.count r hzero (Ne.symm hne), hcount, Nat.add_le_add_iff_right]
      exact and_iff_left hbeyond
  have hother (d : ℤ) (hd : d ≠ 0) (hdr : d ≠ r) : ¬ Beyond tolerance d error := fun hb =>
    hdr ((beyond_tolerance_iff ht hh hd).mp hb).1.symm
  constructor
  · intro d hd
    rw [Confirmed, latched_snoc]
    by_cases hdr : d = r
    · subst hdr
      rw [hstreak]
      have hbefore : ¬ Latched (Beyond tolerance r)
          (Beyond (dockingStopTolerance tolerance hysteresis) r) confirmations errors := fun hl =>
        hne ((h.active r hzero).mpr hl).symm
      simp only [hbefore, false_and, false_or]
      split
      · next hle => exact iff_of_true rfl hle
      · next hle => exact iff_of_false (Ne.symm hzero) hle
    · rw [streak_snoc_of_not (hother d hd hdr)]
      refine iff_of_false ?_ ?_
      · split
        · exact Ne.symm hdr
        · exact Ne.symm hd
      · rintro (⟨-, hb⟩ | hc0)
        · exact hdr ((beyond_stop_iff ht hd).mp hb).symm
        · omega
  · dsimp only
    split
    · exact requested_range _ _ _
    · exact .inl rfl
  · dsimp only
    intro hactive
    split at hactive
    · next hle => rw [if_pos hle]
    · exact absurd rfl hactive
  · intro d hd _ k
    dsimp only
    by_cases hdr : d = r
    · subst hdr
      rw [hstreak, if_pos rfl]
    · rw [streak_snoc_of_not (hother d hd hdr), if_neg (Ne.symm hdr), Nat.le_zero]

/-- A direction in force is held by an error that asks for it. -/
theorem Counts.held (ht : 0 < tolerance) (hh : 0 ≤ hysteresis) (hc : 1 ≤ confirmations)
    (h : Counts tolerance hysteresis confirmations axis errors)
    (hzero : requested error tolerance hysteresis ≠ 0)
    (heq : requested error tolerance hysteresis = axis.active) :
    Counts tolerance hysteresis confirmations axis (errors ++ [error]) := by
  have hother (d : ℤ) (hd : d ≠ 0) (hactive : axis.active ≠ d) : ¬ Beyond tolerance d error :=
    fun hb => hactive (heq.symm.trans ((beyond_tolerance_iff ht hh hd).mp hb).1)
  constructor
  · intro d hd
    rw [Confirmed, latched_snoc]
    by_cases hactive : axis.active = d
    · have hb := (beyond_stop_iff ht hd).mpr (heq.trans hactive)
      exact iff_of_true hactive (.inl ⟨(h.active d hd).mp hactive, hb⟩)
    · rw [streak_snoc_of_not (hother d hd hactive)]
      refine iff_of_false hactive ?_
      rintro (⟨hl, -⟩ | hc0)
      · exact hactive ((h.active d hd).mpr hl)
      · omega
  · exact h.range
  · exact h.pending
  · intro d hd hactive k
    have hpending : axis.pending ≠ d := by
      rw [h.pending (heq ▸ hzero)]
      exact hactive
    rw [streak_snoc_of_not (hother d hd hactive), if_neg hpending, Nat.le_zero]

theorem Counts.update (ht : 0 < tolerance) (hh : 0 ≤ hysteresis) (hc : 1 ≤ confirmations)
    (h : Counts tolerance hysteresis confirmations axis errors) (error : K) :
    Counts tolerance hysteresis confirmations (axis.update error tolerance hysteresis confirmations)
      (errors ++ [error]) := by
  unfold ConfirmedAxis.update
  dsimp only
  split
  · next hzero =>
    refine h.cleared hc ?_ ?_
    · intro d hd _ hb
      exact hd (((beyond_stop_iff ht hd).mp hb).symm.trans hzero)
    · intro d hd hb
      exact hd (((beyond_tolerance_iff ht hh hd).mp hb).1.symm.trans hzero)
  next hzero =>
  split
  · next hne =>
    split
    · next hle =>
      refine h.cleared hc ?_ ?_
      · intro d hd hactive hb
        exact hne (((beyond_stop_iff ht hd).mp hb).trans hactive.symm)
      · intro d _ hb
        exact absurd hb.1 (not_lt.mpr hle)
    · next hle => exact h.counted ht hh hc hzero hne (not_le.mp hle)
  · next heq => exact h.held ht hh hc hzero (not_not.mp heq)

theorem counts_run (ht : 0 < tolerance) (hh : 0 ≤ hysteresis) (hc : 1 ≤ confirmations)
    (errors : List K) :
    Counts tolerance hysteresis confirmations (run tolerance hysteresis confirmations errors)
      errors := by
  induction errors using List.reverseRecOn with
  | nil => exact counts_new hc
  | append_singleton errors error ih =>
    rw [run_snoc]
    exact ih.update ht hh hc error

/-- The direction that a call returns, in terms of all errors so far: the one they have confirmed,
if any. -/
theorem run_trace {tolerance hysteresis : K} {confirmations : ℕ} (ht : 0 < tolerance)
    (hh : 0 ≤ hysteresis) (hc : 1 ≤ confirmations) (errors : List K) :
    (∀ direction, direction = -1 ∨ direction = 1 →
      ((run tolerance hysteresis confirmations errors).active = direction ↔
        Confirmed tolerance hysteresis confirmations direction errors)) ∧
    ((∀ direction, direction = -1 ∨ direction = 1 →
        ¬ Confirmed tolerance hysteresis confirmations direction errors) →
      (run tolerance hysteresis confirmations errors).active = 0) := by
  have h := counts_run ht hh hc errors
  have hne {direction : ℤ} (hd : direction = -1 ∨ direction = 1) : direction ≠ 0 := by omega
  refine ⟨fun d hd => h.active d (hne hd), fun hnone => ?_⟩
  obtain hzero | hpos | hneg := h.range
  · exact hzero
  · exact absurd ((h.active 1 (hne (.inr rfl))).mp hpos) (hnone 1 (.inr rfl))
  · exact absurd ((h.active (-1) (hne (.inl rfl))).mp hneg) (hnone (-1) (.inl rfl))

/-- Two errors confirm, the band holds, and the other side stops at once. -/
theorem run_trace_reversal :
    Confirmed (1 / 20 : ℚ) (1 / 50) 2 1 [1 / 10, 1 / 10, 1 / 25] ∧
      ¬ Confirmed (1 / 20 : ℚ) (1 / 50) 2 1 [1 / 10, 1 / 10, 1 / 25, -1 / 10] ∧
      ¬ Confirmed (1 / 20 : ℚ) (1 / 50) 2 (-1) [1 / 10, 1 / 10, 1 / 25, -1 / 10] := by
  have h (errors : List ℚ) := (@run_trace ℚ _ _ _ (1 / 20) (1 / 50) 2 (by norm_num)
    (by norm_num) (by norm_num) errors).1
  refine ⟨(h _ 1 (.inr rfl)).mp ?_, mt (h _ 1 (.inr rfl)).mpr ?_, mt (h _ (-1) (.inl rfl)).mpr ?_⟩
  · decide +kernel
  · decide +kernel
  · decide +kernel

end X2Navigation.ConfirmedAxis
