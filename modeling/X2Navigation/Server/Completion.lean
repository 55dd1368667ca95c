import X2Navigation.Server.NavigationAbort

/-! Docking and tag-relative undocking complete on settled evidence only: a run
that succeeds ends with a block of control iterations that were all at the goal,
commanded to rest, and close to the pose that started the block. -/

namespace X2Navigation.FineAlignServer

open Rigid Interaction

variable {K : Type} [Field K] [LinearOrder K]

/-- What one iteration of a control loop reads, writes and reports. -/
structure Iteration (K : Type) where
  now : TimePoint
  state : ManipulationState
  measurement : Measurement K
  controlTime : TimePoint
  command : Twist K
  written : Option TimePoint
  feedback : Feedback K

/-- Everything an iteration does to the server, up to its report. The measurement it
gets is a fresh one. -/
def Iteration.events (it : Iteration K) : List (OpEvent K) :=
  [⟨.ok, true⟩, ⟨.isCanceling, false⟩, ⟨.navigationActive, false⟩, ⟨.collisionStopTimedOut, false⟩,
    ⟨.steadyNow, it.now⟩, ⟨.stableMeasurement, (it.state, some it.measurement)⟩,
    ⟨.steadyNow, it.controlTime⟩, ⟨.writeCommand it.command it.written, ()⟩,
    ⟨.publishFeedback it.feedback, ()⟩]

/-- An iteration after which the loop goes on. -/
def Iteration.passed (it : Iteration K) : List (OpEvent K) :=
  it.events ++ [⟨.sleep .controllerPeriod, ()⟩]

/-- How a loop reads its errors off a measurement, and its tolerances. -/
structure Gauge (K : Type) where
  config : HolonomicFineAlignConfig K
  error : Measurement K → PlanarError K
  rawError : Measurement K → PlanarError K

section Gauges
variable (m : Libm K) (settings : Settings K)

def dockGauge : Gauge K where
  config := settings.controllerConfig
  error x := currentError m x.target
  rawError x := x.rawError

def undockGauge (initial : Isometry3 K) : Gauge K where
  config := settings.undockControllerConfig
  error x := undockError m settings initial x.target
  rawError x := undockError m settings initial (planarPose m x.rawError)

end Gauges

/-! ### A settled block -/

/-- At rest at the goal, by the filtered and by the raw error. -/
structure Gauge.AtRest (gauge : Gauge K) (it : Iteration K) : Prop where
  state : it.state = .empty ∨ it.state = .holding
  error : fineAlignAtGoal (gauge.error it.measurement).finite gauge.config = true
  rawError : fineAlignAtGoal (gauge.rawError it.measurement).finite gauge.config = true
  command : it.command.linear.x = 0 ∧ it.command.linear.y = 0 ∧ it.command.angular.z = 0

/-- Within the settling spreads of an earlier raw pose. -/
def Near (m : Libm K) (settings : Settings K) (anchor observed : PlanarError K) : Prop :=
  m.hypot (observed.x - anchor.x) (observed.y - anchor.y) ≤ settings.settlingLimits.positionSpread ∧
    |wrapAngle m (observed.yaw - anchor.yaw)| ≤ settings.settlingLimits.angularSpread

/-- The iterations `first, …, last` settle. An observation is new if its number
exceeds all before it in the block; numbers that never decrease make that every
number not seen before. -/
structure Settles (m : Libm K) (settings : Settings K) (gauge : Gauge K) (first : Iteration K)
    (middle : List (Iteration K)) (last : Iteration K) : Prop where
  atRest : ∀ it ∈ first :: (middle ++ [last]), gauge.AtRest it
  dwell : settings.settlingLimits.duration ≤ elapsed last.controlTime first.controlTime
  newer : first.measurement.sequence < last.measurement.sequence
  near : ∀ earlier it later, middle ++ [last] = earlier ++ it :: later →
    (∀ d ∈ first :: earlier, d.measurement.sequence < it.measurement.sequence) →
    Near m settings first.measurement.rawError it.measurement.rawError
  unseen : (first :: (middle ++ [last])).Pairwise
      (fun a b => a.measurement.sequence ≤ b.measurement.sequence) →
    ∀ earlier it later, middle ++ [last] = earlier ++ it :: later →
      (∀ d ∈ first :: earlier, d.measurement.sequence ≠ it.measurement.sequence) →
      Near m settings first.measurement.rawError it.measurement.rawError

/-- The run ends with a settled block of iterations, and then `ending`. -/
def EndsSettled (m : Libm K) (settings : Settings K) (gauge : Gauge K) (tr ending : List (OpEvent K)) :
    Prop :=
  ∃ before first middle last,
    tr = before ++ (first :: middle).flatMap Iteration.passed ++ last.events ++ ending ∧
      Settles m settings gauge first middle last

theorem EndsSettled.append {m : Libm K} {settings : Settings K} {gauge : Gauge K}
    {tr ending : List (OpEvent K)} (h : EndsSettled m settings gauge tr ending)
    (earlier : List (OpEvent K)) : EndsSettled m settings gauge (earlier ++ tr) ending := by
  obtain ⟨before, first, middle, last, rfl, hsettles⟩ := h
  exact ⟨earlier ++ before, first, middle, last, by simp, hsettles⟩

/-! ### Iterations as calls of the dwell -/

section Dwell
variable {m : Libm K} {settings : Settings K} {gauge : Gauge K}

/-- The pose counts for settling. -/
def Gauge.settlingPose (gauge : Gauge K) (it : Iteration K) : Bool :=
  (fineAlignAtGoal (gauge.error it.measurement).finite gauge.config &&
    fineAlignAtGoal (gauge.rawError it.measurement).finite gauge.config) &&
    decide (it.command.linear.x = 0 ∧ it.command.linear.y = 0 ∧ it.command.angular.z = 0)

def Gauge.sighting (gauge : Gauge K) (it : Iteration K) : TagPoseSettling.Sighting K :=
  ⟨gauge.settlingPose it, seconds it.controlTime, it.measurement.sequence, it.measurement.rawError⟩

/-- What an iteration does to the locals of the loop. -/
structure Controls (m : Libm K) (settings : Settings K) (gauge : Gauge K) (it : Iteration K)
    (control control' : Control K) (completed : Bool) : Prop where
  state : validState it.state = true
  settling : (control'.settling, completed) =
    control.settling.update m settings.settlingLimits (gauge.sighting it)

theorem controls_of_step {it : Iteration K} {control control' : Control K} {output : ControlOutput K}
    (hstate : validState it.state = true)
    (h : control.step m settings gauge.config (gauge.error it.measurement)
      (gauge.rawError it.measurement) it.measurement.rawError it.measurement.sequence it.controlTime =
        some (control', output)) (hc : it.command = output.command) :
    Controls m settings gauge it control control' output.completed := by
  refine ⟨hstate, ?_⟩
  unfold Control.step at h
  dsimp only at h
  split at h
  · cases h
  · obtain ⟨rfl, rfl⟩ := Prod.mk.inj (Option.some.inj h)
    simp only [Gauge.sighting, Gauge.settlingPose, hc]

omit [LinearOrder K] in
theorem elapsed_eq_seconds (a b : TimePoint) : (elapsed a b : K) = seconds a - seconds b := by
  simp only [elapsed, seconds]
  push_cast
  ring

theorem Gauge.atRest_of_valid {it : Iteration K} (hs : validState it.state = true)
    (h : (gauge.sighting it).valid = true) : gauge.AtRest it := by
  simp only [Gauge.sighting, Gauge.settlingPose, Bool.and_eq_true, decide_eq_true_eq] at h
  refine ⟨?_, h.1.1, h.1.2, h.2⟩
  cases hst : it.state <;> simp_all [validState]

theorem near_of_not_strayed {anchor observed : PlanarError K}
    (h : TagPoseSettling.strayed m settings.settlingLimits anchor observed = false) :
    Near m settings anchor observed := by
  simpa [TagPoseSettling.strayed, Near] using h

/-- A dwell that completes at the end of a run of iterations is a settled block. -/
theorem settles_of_completed {its : List (Iteration K)} {last : Iteration K}
    (hstates : ∀ it ∈ its ++ [last], validState it.state = true)
    (h : ((TagPoseSettling.run m settings.settlingLimits (its.map gauge.sighting)).update m
      settings.settlingLimits (gauge.sighting last)).2 = true) :
    ∃ before first middle, its = before ++ first :: middle ∧
      Settles m settings gauge first middle last := by
  obtain ⟨before, first, rest, hits, hdwell, hnew, hdur⟩ := TagPoseSettling.completed_block h
  obtain ⟨before, its', rfl, rfl, hrest⟩ := List.map_eq_append_iff.mp hits
  obtain ⟨first, middle, rfl, rfl, rfl⟩ := List.map_eq_cons_iff.mp hrest
  have hnear : ∀ earlier it later, middle ++ [last] = earlier ++ it :: later →
      (∀ d ∈ first :: earlier, d.measurement.sequence < it.measurement.sequence) →
      Near m settings first.measurement.rawError it.measurement.rawError := by
    intro earlier it later hsplit hnew
    refine near_of_not_strayed (hdwell.close (earlier.map gauge.sighting) (gauge.sighting it)
      (later.map gauge.sighting) ?_ ?_)
    · simpa using congrArg (List.map gauge.sighting) hsplit
    · intro d hd
      rw [← List.map_cons, List.mem_map] at hd
      obtain ⟨x, hx, rfl⟩ := hd
      exact hnew x hx
  refine ⟨before, first, middle, rfl, ?_, ?_, hnew, hnear, ?_⟩
  · intro it hit
    refine Gauge.atRest_of_valid (hstates it ?_) (hdwell.valid _ ?_)
    · simp only [List.append_assoc, List.cons_append]
      exact List.mem_append_right _ hit
    · have := List.mem_map_of_mem (f := gauge.sighting) hit
      simpa using this
  · rw [elapsed_eq_seconds]
    exact hdur
  · intro hmono earlier it later hsplit hunseen
    refine hnear earlier it later hsplit fun d hd => ?_
    rw [hsplit, ← List.cons_append, List.pairwise_append] at hmono
    exact lt_of_le_of_ne (hmono.2.2 d hd it (by simp)) (hunseen d hd)

end Dwell

/-! ### The passes of the two loops -/

section Docking
variable {m : Libm K} {settings : Settings K} {tr : List (OpEvent K)}

/-- A pass of the control loop fails, or it is one iteration. -/
theorem runs_controlPass {start : TimePoint} {running : Bool} {result : FineAlign.Result K}
    {control : Control K} {r : Approach K ⊕ Attempted K}
    (h : Program.Runs (controlPass m settings start running (result, control)) tr r) :
    (∃ result' failure, r = .inr (result', some failure)) ∨
      ∃ it control' completed, Controls m settings (dockGauge m settings) it control control' completed ∧
        ((completed = true ∧ (∃ result', r = .inr (result', none)) ∧
            ⟨.ok, running⟩ :: tr = it.events) ∨
          (completed = false ∧ (∃ result', r = .inl (result', control')) ∧
            ⟨.ok, running⟩ :: tr = it.passed)) := by
  have failed_inr {result : FineAlign.Result K} {code : FineAlign.Code} {message : String}
      {tr : List (OpEvent K)}
      (h : Program.Runs (pure (.inr (failed result code message)) : Operation K (Approach K ⊕ Attempted K)) tr r) :
      ∃ result' failure, r = .inr (result', some failure) :=
    ⟨_, _, (runs_return.mp h).2⟩
  unfold controlPass at h
  dsimp only at h
  replace h := runs_ite h
  obtain ⟨-, h⟩ | ⟨hrunning, h⟩ := h
  · exact .inl (failed_inr h)
  obtain rfl : running = true := by simpa using hrunning
  rw [runs_call_bind] at h
  obtain ⟨canceling, tr, rfl, h⟩ := h
  replace h := runs_ite h
  obtain ⟨-, h⟩ | ⟨rfl, h⟩ := h
  · exact .inl (failed_inr h)
  rw [runs_call_bind] at h
  obtain ⟨navigation, tr, rfl, h⟩ := h
  replace h := runs_ite h
  obtain ⟨-, h⟩ | ⟨rfl, h⟩ := h
  · exact .inl (failed_inr h)
  rw [runs_call_bind] at h
  obtain ⟨stopped, tr, rfl, h⟩ := h
  replace h := runs_ite h
  obtain ⟨-, h⟩ | ⟨rfl, h⟩ := h
  · exact .inl (failed_inr h)
  rw [runs_call_bind] at h
  obtain ⟨now, tr, rfl, h⟩ := h
  replace h := runs_ite h
  obtain ⟨-, h⟩ | ⟨-, h⟩ := h
  · exact .inl (failed_inr h)
  rw [runs_call_bind] at h
  obtain ⟨⟨state, measurement⟩, tr, rfl, h⟩ := h
  cases measurement with
  | none => exact .inl (failed_inr h)
  | some x =>
  replace h := runs_ite h
  obtain ⟨-, h⟩ | ⟨hstate, h⟩ := h
  · exact .inl (failed_inr h)
  replace h := runs_ite h
  obtain ⟨-, h⟩ | ⟨-, h⟩ := h
  · exact .inl (failed_inr h)
  rw [runs_call_bind] at h
  obtain ⟨controlTime, tr, rfl, h⟩ := h
  split at h
  · rename_i control' output hstep
    rw [runs_call_bind] at h
    obtain ⟨⟨⟩, tr, rfl, h⟩ := h
    rw [runs_call_bind] at h
    obtain ⟨⟨⟩, tr, rfl, h⟩ := h
    have hcontrols (feedback : Feedback K) : Controls m settings (dockGauge m settings)
        ⟨now, state, x, controlTime, output.command, none, feedback⟩ control control'
        output.completed := controls_of_step (by simpa using hstate) hstep rfl
    replace h := runs_ite h
    obtain ⟨hcompleted, h⟩ | ⟨hcompleted, h⟩ := h
    · obtain ⟨rfl, rfl⟩ := runs_return.mp h
      exact .inr ⟨_, control', _, hcontrols _, .inl ⟨hcompleted, ⟨_, rfl⟩, rfl⟩⟩
    · rw [runs_call_bind] at h
      obtain ⟨⟨⟩, tr, rfl, h⟩ := h
      obtain ⟨rfl, rfl⟩ := runs_return.mp h
      exact .inr ⟨_, control', _, hcontrols _, .inr ⟨hcompleted, ⟨_, rfl⟩, rfl⟩⟩
  · exact .inl (failed_inr h)

end Docking

section Undocking

omit [Field K] [LinearOrder K] in
theorem either_bind {α : Type} (first second : Operation K Bool) (k : Bool → Operation K α) :
    either first second >>= k = first >>= fun b => if b = true then k true else second >>= k := by
  simp only [either, Program.bind_def, Program.bind_assoc]
  congr 1
  funext b
  cases b <;> rfl

omit [Field K] [LinearOrder K] in
theorem all_finishUndock {result : Undock.Result K} {code : Undock.Code} {message : String} :
    Program.All (fun o => Op.Succeeds o = false) (finishUndock result code message) := by
  refine ⟨rfl, fun _ => ⟨rfl, fun _ => ⟨rfl, fun _ => ⟨rfl, fun canceling => ?_⟩⟩⟩⟩
  cases canceling <;> exact ⟨rfl, fun _ => ⟨rfl, fun _ => trivial⟩⟩

variable {m : Libm K} {settings : Settings K} {tr : List (OpEvent K)}

/-- A pass that ends the operation without a success. -/
def Fails (r : Retreat K ⊕ Unit) (tr : List (OpEvent K)) : Prop :=
  r = .inr () ∧ ∀ e ∈ tr, e.1.Succeeds = false

omit [Field K] [LinearOrder K] in
theorem fails_of_runs {p : Operation K Unit} {r : Retreat K ⊕ Unit}
    (hp : Program.All (fun o => Op.Succeeds o = false) p)
    (h : Program.Runs (p >>= fun _ => (pure (.inr ()) : Operation K (Retreat K ⊕ Unit))) tr r) :
    Fails r tr := by
  obtain ⟨tr₁, _, tr₂, rfl, hr, hleft⟩ := Program.runs_bind.mp h
  obtain ⟨rfl, rfl⟩ := runs_return.mp hleft
  exact ⟨rfl, by simpa using (hp.steps hr).1⟩

omit [Field K] [LinearOrder K] in
/-- An interrupted pass reads the cause again and ends without a success. -/
theorem fails_of_interrupted {k : Undock.Code → Operation K Unit} {r : Retreat K ⊕ Unit}
    (hk : ∀ code, Program.All (fun o => Op.Succeeds o = false) (k code))
    (h : Program.Runs ((choose isCanceling .canceled <| choose navigationActive .navigationActive <|
      (return .collisionStopped)) >>= fun code => k code >>= fun _ =>
        (pure (.inr ()) : Operation K (Retreat K ⊕ Unit))) tr r) : Fails r tr := by
  have hall : Program.All (fun o => Op.Succeeds o = false) ((choose isCanceling .canceled <|
      choose navigationActive .navigationActive <| (return Undock.Code.collisionStopped)) >>= k) := by
    refine Program.All.bind ⟨rfl, fun canceling => ?_⟩ hk
    cases canceling with
    | true => trivial
    | false =>
      refine ⟨rfl, fun navigation => ?_⟩
      cases navigation <;> trivial
  refine fails_of_runs hall ?_
  simpa only [Program.bind_def, Program.bind_assoc] using h

omit [Field K] [LinearOrder K] in
theorem stopAlignment_bind {α : Type} (k : Unit → Operation K α) :
    stopAlignment >>= k = call (.setAlignmentActive false) >>= fun _ =>
      call .clearCommand >>= fun _ => call .publishZero >>= k := rfl

omit [Field K] [LinearOrder K] in
theorem runs_succeeded {result : Undock.Result K} {r : Retreat K ⊕ Unit}
    (h : Program.Runs (stopAlignment >>= fun _ => terminate .succeed (.undock result) >>= fun _ =>
      release >>= fun _ => (pure (.inr ()) : Operation K (Retreat K ⊕ Unit))) tr r) :
    r = .inr () ∧ ∃ result',
      tr = stopCalls ++ [⟨.terminate .succeed result', ()⟩, ⟨.release, ()⟩] := by
  rw [stopAlignment_bind, runs_call_bind] at h
  obtain ⟨⟨⟩, tr, rfl, h⟩ := h
  rw [runs_call_bind] at h
  obtain ⟨⟨⟩, tr, rfl, h⟩ := h
  rw [runs_call_bind] at h
  obtain ⟨⟨⟩, tr, rfl, h⟩ := h
  rw [runs_call_bind] at h
  obtain ⟨⟨⟩, tr, rfl, h⟩ := h
  rw [runs_call_bind] at h
  obtain ⟨⟨⟩, tr, rfl, h⟩ := h
  obtain ⟨rfl, rfl⟩ := runs_return.mp h
  exact ⟨rfl, _, rfl⟩

/-- A pass of the tag-relative loop ends the operation without a success, or it is one
iteration. -/
theorem runs_undockPass {undockStart start : TimePoint} {initial : Isometry3 K} {running : Bool}
    {result : Undock.Result K} {control : Control K} {r : Retreat K ⊕ Unit}
    (h : Program.Runs (undockPass m settings undockStart start initial running (result, control)) tr r) :
    Fails r tr ∨
      ∃ it control' completed,
        Controls m settings (undockGauge m settings initial) it control control' completed ∧
        ((completed = true ∧ r = .inr () ∧ ∃ result', ⟨.ok, running⟩ :: tr = it.events ++
            (stopCalls ++ [⟨.terminate .succeed result', ()⟩, ⟨.release, ()⟩])) ∨
          (completed = false ∧ (∃ result', r = .inl (result', control')) ∧
            ⟨.ok, running⟩ :: tr = it.passed)) := by
  unfold undockPass at h
  dsimp only at h
  replace h := runs_ite h
  obtain ⟨-, h⟩ | ⟨hrunning, h⟩ := h
  · exact .inl (fails_of_runs all_finishUndock h)
  obtain rfl : running = true := by simpa using hrunning
  rw [either_bind, runs_call_bind] at h
  obtain ⟨canceling, tr, rfl, h⟩ := h
  replace h := runs_ite h
  obtain ⟨-, h⟩ | ⟨rfl, h⟩ := h
  · have hf := fails_of_interrupted (fun _ => all_finishUndock) h
    exact .inl ⟨hf.1, by simpa [Op.Succeeds] using hf.2⟩
  rw [either_bind, runs_call_bind] at h
  obtain ⟨navigation, tr, rfl, h⟩ := h
  replace h := runs_ite h
  obtain ⟨-, h⟩ | ⟨rfl, h⟩ := h
  · have hf := fails_of_interrupted (fun _ => all_finishUndock) h
    exact .inl ⟨hf.1, by simpa [Op.Succeeds] using hf.2⟩
  rw [runs_call_bind] at h
  obtain ⟨stopped, tr, rfl, h⟩ := h
  replace h := runs_ite h
  obtain ⟨-, h⟩ | ⟨rfl, h⟩ := h
  · have hf := fails_of_interrupted (fun _ => all_finishUndock) h
    exact .inl ⟨hf.1, by simpa [Op.Succeeds] using hf.2⟩
  rw [runs_call_bind] at h
  obtain ⟨now, tr, rfl, h⟩ := h
  split at h
  · have hf := fails_of_runs all_finishUndock h
    exact .inl ⟨hf.1, by simpa [Op.Succeeds] using hf.2⟩
  rw [runs_call_bind] at h
  obtain ⟨⟨state, measurement⟩, tr, rfl, h⟩ := h
  cases measurement with
  | none =>
    have hf := fails_of_runs all_finishUndock h
    exact .inl ⟨hf.1, by simpa [Op.Succeeds] using hf.2⟩
  | some x =>
  replace h := runs_ite h
  obtain ⟨-, h⟩ | ⟨hstate, h⟩ := h
  · have hf := fails_of_runs all_finishUndock h
    exact .inl ⟨hf.1, by simpa [Op.Succeeds] using hf.2⟩
  rw [runs_call_bind] at h
  obtain ⟨controlTime, tr, rfl, h⟩ := h
  split at h
  · rename_i control' output hstep
    rw [runs_call_bind] at h
    obtain ⟨⟨⟩, tr, rfl, h⟩ := h
    rw [runs_call_bind] at h
    obtain ⟨⟨⟩, tr, rfl, h⟩ := h
    have hcontrols (feedback : Feedback K) : Controls m settings (undockGauge m settings initial)
        ⟨now, state, x, controlTime, output.command, some controlTime, feedback⟩ control control'
        output.completed := controls_of_step (by simpa using hstate) hstep rfl
    replace h := runs_ite h
    obtain ⟨hcompleted, h⟩ | ⟨hcompleted, h⟩ := h
    · obtain ⟨rfl, result', rfl⟩ := runs_succeeded h
      exact .inr ⟨_, control', _, hcontrols _, .inl ⟨hcompleted, rfl, result', rfl⟩⟩
    · rw [runs_call_bind] at h
      obtain ⟨⟨⟩, tr, rfl, h⟩ := h
      obtain ⟨rfl, rfl⟩ := runs_return.mp h
      exact .inr ⟨_, control', _, hcontrols _, .inr ⟨hcompleted, ⟨_, rfl⟩, rfl⟩⟩
  · have hf := fails_of_runs all_finishUndock h
    exact .inl ⟨hf.1, by simpa [Op.Succeeds] using hf.2⟩

end Undocking

/-! ### Whole runs -/

omit [Field K] [LinearOrder K] in
theorem Iteration.passed_succeeds (it : Iteration K) : ∀ e ∈ it.passed, e.1.Succeeds = false := by
  simp [Iteration.passed, Iteration.events, Op.Succeeds]

section Loops
variable {m : Libm K} {settings : Settings K} {gauge : Gauge K} {ρ β : Type}
  {pass : Bool → ρ × Control K → Operation K ((ρ × Control K) ⊕ β)} {x y : ρ × Control K}
  {tr : List (OpEvent K)}

/-- A pass that goes on is an iteration that did not complete. -/
def GoesOn (m : Libm K) (settings : Settings K) (gauge : Gauge K)
    (pass : Bool → ρ × Control K → Operation K ((ρ × Control K) ⊕ β)) : Prop :=
  ∀ running x y tr, Program.Runs (pass running x) tr (.inl y) →
    ∃ it, Controls m settings gauge it x.2 y.2 false ∧ ⟨.ok, running⟩ :: tr = it.passed

/-- The settling state after some passes is that of their iterations. -/
theorem passes_iterations (hpass : GoesOn m settings gauge pass) (hx : x.2.settling = .new)
    (h : @Program.Passes (interface K) _ _ Op.ok pass x tr y) : ∃ its : List (Iteration K),
      tr = its.flatMap Iteration.passed ∧ (∀ it ∈ its, validState it.state = true) ∧
        y.2.settling = TagPoseSettling.run m settings.settlingLimits (its.map gauge.sighting) := by
  induction h with
  | refl => exact ⟨[], rfl, by simp, hx⟩
  | snoc _ hr ih =>
    obtain ⟨its, rfl, hstates, hsettling⟩ := ih
    obtain ⟨it, hcontrols, hevents⟩ := hpass _ _ _ _ hr
    refine ⟨its ++ [it], by simp [hevents], ?_, ?_⟩
    · intro i hi
      obtain hi | hi := List.mem_append.mp hi
      · exact hstates i hi
      · obtain rfl := List.mem_singleton.mp hi
        exact hcontrols.state
    · have := congrArg Prod.fst hcontrols.settling
      rw [List.map_append, List.map_singleton, TagPoseSettling.run_snoc, ← hsettling]
      exact this

/-- Passes and then an iteration that completes end with a settled block. -/
theorem endsSettled_of_passes (hpass : GoesOn m settings gauge pass) (hx : x.2.settling = .new)
    (h : @Program.Passes (interface K) _ _ Op.ok pass x tr y) {last : Iteration K} {control' : Control K}
    (hlast : Controls m settings gauge last y.2 control' true) (ending : List (OpEvent K)) :
    EndsSettled m settings gauge (tr ++ (last.events ++ ending)) ending := by
  obtain ⟨its, rfl, hstates, hsettling⟩ := passes_iterations hpass hx h
  have hcompleted := congrArg Prod.snd hlast.settling
  rw [hsettling] at hcompleted
  obtain ⟨earlier, first, middle, rfl, hsettles⟩ :=
    settles_of_completed (by simpa [or_imp, forall_and, hlast.state] using hstates) hcompleted.symm
  exact ⟨earlier.flatMap Iteration.passed, first, middle, last, by simp, hsettles⟩

end Loops

section Success
variable (m : Libm K) (settings : Settings K)

theorem controlPass_goesOn (start : TimePoint) :
    GoesOn m settings (dockGauge m settings) (controlPass m settings start) := by
  intro running x y tr h
  obtain ⟨_, _, hr⟩ | ⟨it, control', completed, hcontrols, hend | hgo⟩ := runs_controlPass h
  · cases hr
  · obtain ⟨-, ⟨_, hr⟩, -⟩ := hend
    cases hr
  · obtain ⟨rfl, ⟨_, hr⟩, hevents⟩ := hgo
    cases hr
    exact ⟨it, hcontrols, hevents⟩

theorem undockPass_goesOn (undockStart start : TimePoint) (initial : Isometry3 K) :
    GoesOn m settings (undockGauge m settings initial)
      (undockPass m settings undockStart start initial) := by
  intro running x y tr h
  obtain ⟨hr, -⟩ | ⟨it, control', completed, hcontrols, hend | hgo⟩ := runs_undockPass h
  · cases hr
  · obtain ⟨-, hr, -⟩ := hend
    cases hr
  · obtain ⟨rfl, ⟨_, hr⟩, hevents⟩ := hgo
    cases hr
    exact ⟨it, hcontrols, hevents⟩

/-- An attempt at a goal to be executed that succeeds. -/
theorem runAttempt_endsSettled {goal : FineAlign.Goal} {result result' : FineAlign.Result K}
    {minimumSequence : ℕ} {stage : FineAlign.Stage} {tr : List (OpEvent K)}
    (hx : goal.execute = true)
    (hrun : Program.Runs (runAttempt m settings goal result minimumSequence stage) tr
      (result', none)) : EndsSettled m settings (dockGauge m settings) tr [] := by
  obtain ⟨tr₁, measured, tr, rfl, -, h⟩ := Program.runs_bind.mp hrun
  clear hrun
  cases measured with
  | none =>
    rw [runs_call_bind] at h
    obtain ⟨canceling, tr, rfl, h⟩ := h
    replace h := runs_ite h
    obtain ⟨-, h⟩ | ⟨-, h⟩ := h
    · cases (runs_return.mp h).2
    rw [runs_call_bind] at h
    obtain ⟨navigation, tr, rfl, h⟩ := h
    replace h := runs_ite h
    obtain ⟨-, h⟩ | ⟨-, h⟩ := h
    · cases (runs_return.mp h).2
    rw [runs_call_bind] at h
    obtain ⟨running, tr, rfl, h⟩ := h
    replace h := runs_ite h
    obtain ⟨-, h⟩ | ⟨-, h⟩ := h
    · cases (runs_return.mp h).2
    · cases (runs_return.mp h).2
  | some measured =>
    obtain ⟨state, measurement⟩ := measured
    replace h := runs_ite h
    obtain ⟨-, h⟩ | ⟨-, h⟩ := h
    · cases (runs_return.mp h).2
    replace h := runs_ite h
    obtain ⟨-, h⟩ | ⟨-, h⟩ := h
    · cases (runs_return.mp h).2
    simp only [hx, Bool.not_true, Bool.false_eq_true, if_false] at h
    rw [runs_call_bind] at h
    obtain ⟨⟨⟩, tr, rfl, h⟩ := h
    rw [runs_call_bind] at h
    obtain ⟨start, tr, rfl, h⟩ := h
    rw [runs_call_bind] at h
    obtain ⟨previousControlTime, tr, rfl, h⟩ := h
    obtain ⟨tr₂, y, running, tr₃, rfl, hpasses, hlast⟩ := Program.runs_repeatWhile h
    obtain ⟨_, _, hr⟩ | ⟨it, control', completed, hcontrols, hend | hgo⟩ := runs_controlPass hlast
    · cases hr
    · obtain ⟨rfl, -, hevents⟩ := hend
      have hloop := endsSettled_of_passes (controlPass_goesOn m settings start) rfl hpasses hcontrols []
      rw [List.append_nil, ← hevents] at hloop
      exact ((hloop.append [_]).append [_, _]).append tr₁
    · obtain ⟨-, ⟨_, hr⟩, -⟩ := hgo
      cases hr

/-- A tag-relative loop that succeeds. -/
theorem undock_endsSettled {undockStart start time : TimePoint} {initial : Isometry3 K}
    {result : Undock.Result K} {tr : List (OpEvent K)}
    (h : Program.Runs (.repeatWhile .ok (undockPass m settings undockStart start initial)
      (result, Control.new time) : Operation K Unit) tr ()) (hs : ∃ e ∈ tr, e.1.Succeeds = true) :
    ∃ result', EndsSettled m settings (undockGauge m settings initial) tr
      (stopCalls ++ [⟨.terminate .succeed result', ()⟩, ⟨.release, ()⟩]) := by
  obtain ⟨tr₁, y, running, tr₂, rfl, hpasses, hlast⟩ := Program.runs_repeatWhile h
  obtain ⟨its, hits, -, -⟩ := passes_iterations (undockPass_goesOn m settings undockStart start initial)
    rfl hpasses
  obtain ⟨-, hfails⟩ | ⟨it, control', completed, hcontrols, hend | hgo⟩ := runs_undockPass hlast
  · -- the passes before the last are iterations, which do not end the operation
    exfalso
    obtain ⟨e, he, hsucceeds⟩ := hs
    have hnot : e.1.Succeeds = false := by
      obtain he | he := List.mem_append.mp he
      · rw [hits, List.mem_flatMap] at he
        obtain ⟨it, -, he⟩ := he
        exact Iteration.passed_succeeds it e he
      · obtain rfl | he := List.mem_cons.mp he
        · rfl
        · exact hfails e he
    rw [hnot] at hsucceeds
    cases hsucceeds
  · obtain ⟨rfl, -, result', hevents⟩ := hend
    refine ⟨result', ?_⟩
    rw [hevents]
    exact endsSettled_of_passes (undockPass_goesOn m settings undockStart start initial) rfl
      hpasses hcontrols _
  · obtain ⟨-, ⟨_, hr⟩, -⟩ := hgo
    cases hr

/-- Completion of docking and of tag-relative undocking. -/
theorem completion_settles :
    (∀ goal result minimumSequence stage tr result', goal.execute = true →
      Program.Runs (runAttempt m settings goal result minimumSequence stage) tr (result', none) →
      EndsSettled m settings (dockGauge m settings) tr []) ∧
    ∀ undockStart start initial result time tr,
      Program.Runs (.repeatWhile .ok (undockPass m settings undockStart start initial)
        (result, Control.new time) : Operation K Unit) tr () →
      (∃ e ∈ tr, e.1.Succeeds = true) →
      ∃ result', EndsSettled m settings (undockGauge m settings initial) tr
        (stopCalls ++ [⟨.terminate .succeed result', ()⟩, ⟨.release, ()⟩]) :=
  ⟨fun _ _ _ _ _ _ hx h => runAttempt_endsSettled m settings hx h,
    fun _ _ _ _ _ _ h hs => undock_endsSettled m settings h hs⟩

end Success

/-- A measurement that stays, seen again with every reading. -/
def still (x : K) (n : ℕ) : Option (Measurement K) := some ⟨⟨1, ![x, 0, 0]⟩, n + 1, ⟨x, 0, 0⟩⟩

/-- An attempt of a robot that stands at its goal. -/
def dockedRun : List (OpEvent ℚ) × Operation ℚ (Attempted ℚ) :=
  Program.play (scripted .declared (fun _ => false) (still 0)) 100 ⟨0, 0, 0⟩
    (runAttempt .straight .declared ⟨true, "", ""⟩
      ⟨false, .success, "", ⟨.nan, .nan, .nan⟩, .unknown, "default", ""⟩ 0 .acquiring)

/-- The tag-relative loop of a robot that has retreated. -/
def retreatedRun : List (OpEvent ℚ) × Operation ℚ Unit :=
  Program.play (scripted .declared (fun _ => false) (still (3 / 10))) 100 ⟨0, 0, 0⟩
    (.repeatWhile .ok (undockPass .straight .declared 0 0 1)
      (⟨false, .success, "", 0, .empty, "default", some .tagRelative, 0, ""⟩, Control.new 0))

theorem completion_settles_still :
    EndsSettled .straight .declared (dockGauge .straight .declared) dockedRun.1 [] ∧
      ∃ result', EndsSettled .straight .declared (undockGauge .straight .declared 1) retreatedRun.1
        (stopCalls ++ [⟨.terminate .succeed result', ()⟩, ⟨.release, ()⟩]) := by
  have hnone : dockedRun.2.result?.map (·.2.isNone) = some true := by decide +kernel
  obtain ⟨⟨result, failure⟩, hresult, hfailure⟩ := Option.map_eq_some_iff.mp hnone
  obtain rfl : failure = none := Option.isNone_iff_eq_none.mp hfailure
  obtain ⟨e, he, hs⟩ := List.any_eq_true.mp
    (show retreatedRun.1.any (·.1.Succeeds) = true by decide +kernel)
  exact ⟨(completion_settles .straight .declared).1 _ _ _ _ _ _ rfl (Program.runs_play hresult),
    (completion_settles .straight .declared).2 0 0 1 _ 0 _
      (Program.runs_play (by decide +kernel)) ⟨e, he, hs⟩⟩

end X2Navigation.FineAlignServer
