import X2Navigation.Interaction.World
import X2Navigation.Server.Contract

/-! An operation that sees a navigation action aborts with `NAVIGATION_ACTIVE`, as
long as it never finds the action gone again. The status is read once to stop and
again to name the cause, so a change between the two reads hides the cause, and
the attempt is even retried. -/

namespace X2Navigation.FineAlignServer

open Interaction Program

variable {K : Type}

/-- No read finds the navigation action gone after one that saw it. -/
def NeverGone (tr : List (OpEvent K)) : Prop :=
  ∀ before after, tr = before ++ ⟨.navigationActive, true⟩ :: after →
    ⟨.navigationActive, false⟩ ∉ after

/-- After a read that sees a navigation action the operation only winds down, so no
attempt starts, unless it has seen that it is being canceled. -/
def StopsForNavigation (tr : List (OpEvent K)) : Prop :=
  ∀ before after, tr = before ++ ⟨.navigationActive, true⟩ :: after →
    ⟨.isCanceling, true⟩ ∈ tr ∨ ∀ e ∈ after, e.1.WindsDown = true

/-- After such a read the operation moreover ends with `NAVIGATION_ACTIVE`. -/
def ReportsNavigation (tr : List (OpEvent K)) : Prop :=
  ∀ before after, tr = before ++ ⟨.navigationActive, true⟩ :: after →
    ⟨.isCanceling, true⟩ ∈ tr ∨
      ((∀ e ∈ after, e.1.WindsDown = true) ∧ ∃ rest result, result.IsNavigationActive ∧
        after = rest ++ [⟨.terminate .abort result, ()⟩, ⟨.release, ()⟩])

theorem bound_after {tr before : List (OpEvent K)} (hnever : NeverGone tr)
    (hcan : ⟨.isCanceling, true⟩ ∉ tr) (hbefore : before <+: tr)
    (hnav : ⟨.navigationActive, true⟩ ∈ before) : (conductAfter before).Bound := by
  obtain ⟨rest, rfl⟩ := hbefore
  refine ⟨navigation_after.mpr hnav, ?_, ?_⟩
  · by_contra hf
    obtain ⟨b, a, rfl, hmem⟩ := flickered_after (Bool.not_eq_false _ ▸ hf)
    exact hnever b (a ++ rest) (by simp) (List.mem_append_left _ hmem)
  · by_contra hc
    exact hcan (List.mem_append_left _ (canceling_after.mp (Bool.not_eq_false _ ▸ hc)))

theorem Conduct.Bound.windsDown {g : Conduct} (hb : g.Bound) {o : Op K} (h : g.allows o) :
    o.WindsDown = true := by
  cases o with
  | isCanceling | navigationActive | clearCommand | publishZero | terminate | release => rfl
  | setAlignmentActive active =>
    cases active with
    | true => exact absurd (h.2.1 hb) nofun
    | false => rfl
  | _ => exact absurd (h.2.1 hb) nofun

/-- A read stands before the two last operations. -/
theorem read_before_end {before after most : List (OpEvent K)} {outcome : Outcome}
    {result : Result K} (h : before ++ ⟨.navigationActive, true⟩ :: after =
      most ++ [⟨.terminate outcome result, ()⟩, ⟨.release, ()⟩]) :
    ∃ rest, most = before ++ ⟨.navigationActive, true⟩ :: rest ∧
      after = rest ++ [⟨.terminate outcome result, ()⟩, ⟨.release, ()⟩] := by
  obtain ⟨rest, hmost, hrest⟩ | ⟨rest, -, hrest⟩ := List.append_eq_append_iff.mp h
  · cases rest with
    | nil => cases hrest
    | cons e rest =>
      obtain ⟨rfl, rfl⟩ := List.cons.inj hrest
      exact ⟨rest, hmost, rfl⟩
  · have hmem : ⟨.navigationActive, true⟩ ∈
        ([⟨.terminate outcome result, ()⟩, ⟨.release, ()⟩] : List (OpEvent K)) := by simp [hrest]
    simp at hmem

section Bodies

variable [Field K] [LinearOrder K] {m : Libm K} {settings : Settings K} {goal : Goal K}
  {tr : List (OpEvent K)}

theorem stopsForNavigation_of_steps {rest : Operation K Unit}
    (h : Steps (body m settings goal) tr rest) (hnever : NeverGone tr) : StopsForNavigation tr := by
  intro before after htr
  by_cases hcan : ⟨.isCanceling, true⟩ ∈ tr
  · exact .inl hcan
  refine .inr fun e he => ?_
  obtain ⟨a, b, rfl⟩ := List.append_of_mem he
  have hsplit : tr = (before ++ ⟨.navigationActive, true⟩ :: a) ++ e :: b := by simp [htr]
  have hobeys := obedient_of_steps h
  rw [hsplit] at hobeys
  refine Conduct.Bound.windsDown (bound_after hnever hcan ?_ (by simp)) hobeys.allows
  rw [hsplit]
  exact List.prefix_append _ _

theorem ends_of_runs (h : Runs (body m settings goal) tr ()) (hnever : NeverGone tr)
    (hcan : ⟨.isCanceling, true⟩ ∉ tr) {before after : List (OpEvent K)}
    (htr : tr = before ++ ⟨.navigationActive, true⟩ :: after) :
    ∃ rest result, result.IsNavigationActive ∧
      after = rest ++ [⟨.terminate .abort result, ()⟩, ⟨.release, ()⟩] := by
  obtain ⟨hobeys, hover⟩ := safe_body m settings goal tr _ h
  obtain ⟨most, outcome, result, hend, hmost, hal⟩ := Obedient.conclusion hobeys (hover () rfl)
  obtain ⟨rest, hrest, hafter⟩ := read_before_end (htr ▸ hend)
  have hb : (conductAfter most).Bound :=
    bound_after hnever hcan (hend ▸ List.prefix_append _ _) (by simp [hrest])
  obtain ⟨rfl, hresult⟩ := hal.2.2.2.2 hb
  exact ⟨rest, result, hresult, hafter⟩

end Bodies

/-- At every moment of every operation, and at its end. -/
theorem reportsNavigation_of_neverGone [Field K] [LinearOrder K] (m : Libm K)
    (settings : Settings K) (goal : Goal K) (tr : List (OpEvent K)) (rest : Operation K Unit)
    (h : Steps (body m settings goal) tr rest) (hnever : NeverGone tr) :
    StopsForNavigation tr ∧ (rest = .pure () → ReportsNavigation tr) := by
  have hstops := stopsForNavigation_of_steps h hnever
  refine ⟨hstops, ?_⟩
  rintro rfl before after htr
  by_cases hcan : ⟨.isCanceling, true⟩ ∈ tr
  · exact .inl hcan
  · exact .inr ⟨(hstops before after htr).resolve_left hcan, ends_of_runs h hnever hcan htr⟩

/-! ### Scripted runs -/

/-- What a scripted world has answered: clock readings, status reads, measurements. -/
structure Script where
  clock : ℕ
  status : ℕ
  measured : ℕ

/-- A world that answers by a script, reading the clock once a second. Nothing is
canceled, stopped or shut down in it. -/
def scripted (profile : DockingProfile ℚ) (navigation : ℕ → Bool)
    (measurement : ℕ → Option (Measurement ℚ)) : World (interface ℚ) Script
  | s, .ok => some (true, s)
  | s, .isCanceling => some (false, s)
  | s, .navigationActive => some (navigation s.status, { s with status := s.status + 1 })
  | s, .steadyNow => some (10 ^ 9 * (s.clock : ℤ), { s with clock := s.clock + 1 })
  | s, .activateProfile _ _ _ => some (some profile.name, s)
  | s, .activeProfile => some ((profile, ""), s)
  | s, .stableMeasurement =>
    some ((.empty, measurement s.measured), { s with measured := s.measured + 1 })
  | s, .latestStableTargetSequence => some (0, s)
  | s, .currentManipulationState => some (.empty, s)
  | s, .collisionStopped => some (false, s)
  | s, .collisionStopTimedOut => some (false, s)
  | s, .setAlignmentActive _ => some ((), s)
  | s, .writeCommand _ _ => some ((), s)
  | s, .writeRotation _ _ => some ((), s)
  | s, .clearCommand => some ((), s)
  | s, .publishZero => some ((), s)
  | s, .recordDock _ _ => some ((), s)
  | s, .publishFeedback _ => some ((), s)
  | s, .sleep _ => some ((), s)
  | s, .terminate _ _ => some ((), s)
  | s, .release => some ((), s)

/-- The code of a fine alignment that was aborted. -/
def abortedWith? (tr : List (OpEvent K)) : Option FineAlign.Code :=
  match tr.reverse with
  | _ :: ⟨.terminate .abort (.fineAlign result), _⟩ :: _ => some result.errorCode
  | _ => none

/-- Reads that see a navigation action, that see none, and that see a cancellation. -/
def seesNavigation : OpEvent K → Bool
  | ⟨.navigationActive, a⟩ => a
  | _ => false

def seesNone : OpEvent K → Bool
  | ⟨.navigationActive, a⟩ => !a
  | _ => false

def seesCanceling : OpEvent K → Bool
  | ⟨.isCanceling, a⟩ => a
  | _ => false

theorem navigation_mem {tr : List (OpEvent K)} (h : tr.any seesNavigation = true) :
    ⟨.navigationActive, true⟩ ∈ tr := by
  obtain ⟨⟨o, a⟩, hmem, ha⟩ := List.any_eq_true.mp h
  cases o <;> simp [seesNavigation] at ha
  rwa [ha] at hmem

theorem canceling_not_mem {tr : List (OpEvent K)} (h : tr.any seesCanceling = false) :
    ⟨.isCanceling, true⟩ ∉ tr := by
  intro hmem
  have := List.any_eq_false.mp h _ hmem
  simp [seesCanceling] at this

/-- The reads from the first that sees a navigation action. -/
theorem neverGone_of_dropWhile {tr : List (OpEvent K)}
    (h : (tr.dropWhile (!seesNavigation ·)).any seesNone = false) : NeverGone tr := by
  intro before after htr hmem
  have hdrop : ⟨.navigationActive, false⟩ ∈ tr.dropWhile (!seesNavigation ·) := by
    rw [htr]
    clear htr h
    induction before with
    | nil => simp [seesNavigation, hmem]
    | cons e before ih =>
      rw [List.cons_append, List.dropWhile_cons]
      split
      · exact ih
      · simp [hmem]
  have := List.any_eq_false.mp h _ hdrop
  simp [seesNone] at this

/-- The same goal, with a navigation action that stays: seen in the first acquisition
and again when the cause is named. -/
def steadyRun : List (OpEvent ℚ) :=
  (play (scripted .declared (1 ≤ ·) fun _ => none) 200 ⟨0, 0, 0⟩
    (body .straight .declared (.fineAlign ⟨true, "", ""⟩))).1

theorem reportsNavigation_of_neverGone_steady :
    ⟨.navigationActive, true⟩ ∈ steadyRun ∧ StopsForNavigation steadyRun ∧
      ReportsNavigation steadyRun := by
  have hruns : Runs (body .straight .declared (.fineAlign ⟨true, "", ""⟩)) steadyRun () :=
    runs_play (by decide +kernel)
  obtain ⟨hstops, hreports⟩ := reportsNavigation_of_neverGone .straight .declared
    (.fineAlign ⟨true, "", ""⟩) steadyRun (.pure ()) hruns (neverGone_of_dropWhile (by decide +kernel))
  exact ⟨navigation_mem (by decide +kernel), hstops, hreports rfl⟩

/-! ### A status that changes between two reads -/

/-- A goal at the default parameters, with no tag in sight. The second status read,
in the first acquisition, sees a navigation action; no other read does. -/
def flickeringRun : List (OpEvent ℚ) :=
  (play (scripted .declared (· == 1) fun _ => none) 200 ⟨0, 0, 0⟩
    (body .straight .declared (.fineAlign ⟨true, "", ""⟩))).1

/-- The first attempt stops for the navigation action and reports a missing tag, two
more attempts are made, and the goal is aborted with `NO_STABLE_TAG`. -/
theorem not_reportsNavigation_flickering :
    Runs (body Libm.straight Settings.declared (.fineAlign ⟨true, "", ""⟩)) flickeringRun () ∧
      ⟨.navigationActive, true⟩ ∈ flickeringRun ∧ ⟨.isCanceling, true⟩ ∉ flickeringRun ∧
      abortedWith? flickeringRun = some .noStableTag ∧ ¬ ReportsNavigation flickeringRun := by
  have hnav : ⟨.navigationActive, true⟩ ∈ flickeringRun := navigation_mem (by decide +kernel)
  have hcan : ⟨.isCanceling, true⟩ ∉ flickeringRun := canceling_not_mem (by decide +kernel)
  have hcode : abortedWith? flickeringRun = some .noStableTag := by decide +kernel
  refine ⟨runs_play (by decide +kernel), hnav, hcan, hcode, fun h => ?_⟩
  obtain ⟨before, after, htr⟩ := List.append_of_mem hnav
  obtain hc | ⟨-, rest, result, hresult, rfl⟩ := h before after htr
  · exact hcan hc
  · rw [htr] at hcode
    cases result <;> simp_all [abortedWith?, Result.IsNavigationActive]

end X2Navigation.FineAlignServer
