import X2Navigation.Docking.Tracker

/-! The tag tracker as a state machine. Whatever it is fed, it counts the observations it has
accepted since the last reset or dropout, and a refused one changes nothing. -/

namespace X2Navigation.RelativeTagTracker

variable {K : Type*} [Field K]

/-! ### Runs -/

inductive Call (K : Type*)
  | reset
  | observe (raw : PlanarError (Double K)) (stamp : Double K) (command : Twist K)

variable [LinearOrder K] (m : Libm K) (config : TagTrackingConfig K)

/-- The tracker, and the stamps it has accepted since the last reset, the latest first. -/
def record (p : RelativeTagTracker K × List K) : Call K → RelativeTagTracker K × List K
  | .reset => (p.1.reset, [])
  | .observe raw stamp command =>
    let reply := p.1.observe m config raw stamp command
    (reply.1, if reply.2 then stamp.value :: p.2 else p.2)

def run (calls : List (Call K)) : RelativeTagTracker K × List K :=
  calls.foldl (record m config) (new, [])

/-- The stamps back to the one that came more than `timeout` after its predecessor, that one
included. -/
def batch (timeout : K) : List K → List K
  | [] => []
  | [t] => [t]
  | t :: t' :: stamps => if timeout < t - t' then [t] else t :: batch timeout (t' :: stamps)

/-- What holds of a tracker that has accepted these stamps since the last reset. -/
structure Acquiring (s : RelativeTagTracker K) (stamps : List K) : Prop where
  ordered : stamps.Pairwise (· > ·)
  ready_iff : s.ready config = true ↔
    config.acquisitionSamples ≤ (batch config.timeout stamps).length
  error : s.ready config = true → s.filtered.isSome = true
  still : ∀ raw stamp command, (s.observe m config raw stamp command).2 = false →
    (s.observe m config raw stamp command).1 = s
  /-- A later observation, by more than the timeout, is accepted. -/
  reacquires : ∀ raw stamp command, raw.isFinite = true → stamp.isFinite = true →
    (∀ t ∈ stamps.head?, t < stamp.value ∧ config.timeout < stamp.value - t) →
      (s.observe m config raw stamp command).2 = true

/-! ### One call -/

/-- A dropout: the next observation starts over. -/
def late (s : RelativeTagTracker K) (stamp : K) : Bool :=
  s.previousRaw.isSome && decide (config.timeout < stamp - s.stamp)

/-- The state that an observation is compared with. -/
def current (s : RelativeTagTracker K) (stamp : K) : RelativeTagTracker K :=
  if late config s stamp then s.reset else s

variable {config} {s : RelativeTagTracker K}

/-- An observation is refused without a trace, or it is finite, later than the last one and
counted. -/
theorem observe_cases (s : RelativeTagTracker K) (raw : PlanarError (Double K)) (stamp : Double K)
    (command : Twist K) : s.observe m config raw stamp command = (s, false) ∨
    ∃ filtered, s.observe m config raw stamp command =
      ((s.current config stamp.value).accept config raw.values stamp.value filtered, true) ∧
      (s.previousRaw.isSome = true → s.stamp < stamp.value) := by
  unfold observe
  split
  · exact Or.inl rfl
  next hfresh =>
  have hlater : s.previousRaw.isSome = true → s.stamp < stamp.value := by
    intro hsome
    simp only [hsome, Bool.true_and, Bool.or_eq_true, decide_eq_true_eq, not_or, not_le] at hfresh
    exact hfresh.2
  dsimp only
  cases hlate : late config s stamp.value with
  | true =>
    -- without a previous observation there is nothing to compare with
    have hcurrent : s.current config stamp.value = s.reset := by rw [current, hlate, if_pos rfl]
    rw [late] at hlate
    rw [hlate, hcurrent]
    exact Or.inr ⟨raw.values, rfl, hlater⟩
  | false =>
    have hcurrent : s.current config stamp.value = s := by
      rw [current, hlate, if_neg Bool.false_ne_true]
    rw [late] at hlate
    rw [hlate, hcurrent, if_neg Bool.false_ne_true]
    split
    · exact Or.inr ⟨_, rfl, hlater⟩
    · split
      · exact Or.inl rfl
      · exact Or.inr ⟨_, rfl, hlater⟩

/-- What is finite and later is accepted where there is nothing to compare with. -/
theorem observe_accepted {raw : PlanarError (Double K)} {stamp : Double K} {command : Twist K}
    (hraw : raw.isFinite = true) (hstamp : stamp.isFinite = true)
    (hlater : s.previousRaw.isSome = true →
      s.stamp < stamp.value ∧ config.timeout < stamp.value - s.stamp) :
    (s.observe m config raw stamp command).2 = true := by
  unfold observe
  rw [hraw, hstamp]
  cases hprevious : s.previousRaw with
  | none => simp [hprevious]
  | some previous =>
    rw [hprevious] at hlater
    obtain ⟨hlt, htimeout⟩ := hlater rfl
    simp [not_le.mpr hlt, htimeout, reset]

/-! ### The batch -/

/-- The fields say what the accepted stamps say. -/
structure Tracks (config : TagTrackingConfig K) (s : RelativeTagTracker K) (stamps : List K) :
    Prop where
  previous : s.previousRaw.isSome = !stamps.isEmpty
  filtered : s.filtered.isSome = s.previousRaw.isSome
  stamp : ∀ t ∈ stamps.head?, s.stamp = t
  count : s.count = min (batch config.timeout stamps).length config.acquisitionSamples
  ordered : stamps.Pairwise (· > ·)

theorem tracks_reset (s : RelativeTagTracker K) : Tracks config s.reset [] :=
  ⟨rfl, rfl, by simp, (Nat.zero_min _).symm, List.Pairwise.nil⟩

theorem tracks_new : Tracks config (new : RelativeTagTracker K) [] :=
  ⟨rfl, rfl, by simp, (Nat.zero_min _).symm, List.Pairwise.nil⟩

variable {stamps : List K}

theorem Tracks.accept (h : Tracks config s stamps) {stamp : K}
    (hlater : s.previousRaw.isSome = true → s.stamp < stamp) (raw filtered : PlanarError K) :
    Tracks config ((s.current config stamp).accept config raw stamp filtered) (stamp :: stamps) := by
  cases stamps with
  | nil =>
    have hprevious : s.previousRaw.isSome = false := h.previous
    have hcurrent : s.current config stamp = s := by
      rw [current, late, hprevious, Bool.false_and, if_neg Bool.false_ne_true]
    rw [hcurrent]
    refine ⟨rfl, rfl, by simp [RelativeTagTracker.accept], ?_, List.pairwise_singleton _ _⟩
    have hcount := h.count
    simp only [RelativeTagTracker.accept, batch, List.length_nil, List.length_singleton] at hcount ⊢
    omega
  | cons t stamps =>
    have hprevious : s.previousRaw.isSome = true := h.previous
    have hstamp : s.stamp = t := h.stamp t rfl
    have hlt := hlater hprevious
    rw [hstamp] at hlt
    have hlate : late config s stamp = decide (config.timeout < stamp - t) := by
      rw [late, hprevious, hstamp, Bool.true_and]
    refine ⟨rfl, rfl, by simp [RelativeTagTracker.accept], ?_, ?_⟩
    · have hcount := h.count
      by_cases htimeout : config.timeout < stamp - t
      · have hcurrent : s.current config stamp = s.reset := by
          rw [current, hlate, if_pos (decide_eq_true htimeout)]
        rw [hcurrent]
        simp only [RelativeTagTracker.accept, reset, batch, if_pos htimeout, List.length_singleton,
          Nat.zero_add]
      · have hcurrent : s.current config stamp = s := by
          rw [current, hlate, if_neg (by simpa using htimeout)]
        rw [hcurrent]
        simp only [RelativeTagTracker.accept, batch, if_neg htimeout, List.length_cons]
        omega
    · refine List.pairwise_cons.mpr ⟨?_, h.ordered⟩
      intro u hu
      obtain rfl | hu := List.mem_cons.mp hu
      · exact hlt
      · exact ((List.pairwise_cons.mp h.ordered).1 u hu).trans hlt

theorem tracks_record {p : RelativeTagTracker K × List K} (h : Tracks config p.1 p.2)
    (call : Call K) : Tracks config (record m config p call).1 (record m config p call).2 := by
  cases call with
  | reset => exact tracks_reset _
  | observe raw stamp command =>
    dsimp only [record]
    obtain hrefused | ⟨filtered, haccepted, hlater⟩ := observe_cases m p.1 raw stamp command
    · rw [hrefused]
      exact h
    · rw [haccepted]
      exact h.accept hlater raw.values filtered

theorem tracks_run (calls : List (Call K)) :
    Tracks config (run m config calls).1 (run m config calls).2 := by
  induction calls using List.reverseRecOn with
  | nil => exact tracks_new
  | append_singleton calls call ih =>
    rw [run, List.foldl_append]
    exact tracks_record m ih call

/-! ### The state machine -/

theorem acquiring_of_tracks (hsamples : 1 ≤ config.acquisitionSamples) (h : Tracks config s stamps) :
    Acquiring m config s stamps := by
  refine ⟨h.ordered, ?_, fun hready => ?_, fun raw stamp command hrefused => ?_,
    fun raw stamp command hraw hstamp hlater => ?_⟩
  · have hcount := h.count
    have hfiltered := h.filtered.trans h.previous
    rw [ready, Bool.and_eq_true, decide_eq_true_eq, hfiltered, hcount]
    cases stamps with
    | nil =>
      have hnone : ¬config.acquisitionSamples ≤ 0 := by omega
      exact ⟨fun h => absurd h.1 Bool.false_ne_true, fun hle => absurd hle hnone⟩
    | cons t stamps =>
      simp only [List.isEmpty_cons, Bool.not_false, true_and]
      omega
  · rw [ready, Bool.and_eq_true] at hready
    exact hready.1
  · obtain hcase | ⟨filtered, hcase, -⟩ := observe_cases m s raw stamp command
    · rw [hcase]
    · rw [hcase] at hrefused
      cases hrefused
  · apply observe_accepted m hraw hstamp
    intro hprevious
    rw [h.previous] at hprevious
    cases stamps with
    | nil => cases hprevious
    | cons t stamps =>
      rw [h.stamp t rfl]
      exact hlater t rfl

/-- In every run a tracker is what the stamps it has accepted say. -/
theorem acquisition (config : TagTrackingConfig K) (hsamples : 1 ≤ config.acquisitionSamples)
    (calls : List (Call K)) :
    Acquiring m config (run m config calls).1 (run m config calls).2 :=
  acquiring_of_tracks m hsamples (tracks_run m calls)

/-! ### A timeout below zero -/

/-- A second observation at the same stamp comes more than this timeout after the first, and is
refused all the same. -/
theorem not_reacquires_of_negative_timeout :
    ¬∀ (config : TagTrackingConfig ℚ) (calls : List (Call ℚ)) (raw : PlanarError (Double ℚ))
      (stamp : Double ℚ) (command : Twist ℚ), 1 ≤ config.acquisitionSamples →
        raw.isFinite = true → stamp.isFinite = true →
        (∀ t ∈ (run Libm.straight config calls).2.head?, config.timeout < stamp.value - t) →
        ((run Libm.straight config calls).1.observe Libm.straight config raw stamp command).2 =
          true := by
  intro h
  have haccepted := h ⟨1, -1, 0, 1, 1, 1, 1⟩ [.observe ⟨0, 0, 0⟩ (.finite 1) 0] ⟨0, 0, 0⟩ (.finite 1) 0
    (by decide) rfl rfl (by decide +kernel)
  revert haccepted
  decide +kernel

/-- Two observations make a batch of two, and a third one after a dropout starts over. -/
theorem acquisition_dropout :
    let config : TagTrackingConfig ℚ := ⟨2, 1 / 2, 0, 1 / 50, 1 / 20, 1 / 10, 1 / 10⟩
    let calls : List (Call ℚ) := [.observe ⟨0, 0, 0⟩ (.finite 1) 0,
      .observe ⟨0, 0, 0⟩ (.finite (11 / 10)) 0, .observe ⟨0, 0, 0⟩ (.finite 2) 0]
    (run Libm.straight config calls).2 = [2, 11 / 10, 1] ∧
      Acquiring Libm.straight config (run Libm.straight config calls).1
        (run Libm.straight config calls).2 :=
  ⟨by decide +kernel, acquisition Libm.straight _ (by decide) _⟩

end X2Navigation.RelativeTagTracker
