import X2Navigation.Server.Contract
import X2Navigation.Server.Restraint

/-! The attempts of a fine alignment, call by call. The loop of `execute` is one call of
`runAttempt` after another, with what is done between two of them: the handling of the
failure and the delay. -/

namespace X2Navigation.FineAlignServer

open Interaction Program

variable {K : Type} [Field K] [LinearOrder K]

/-! ### The loop as calls -/

section Calls
variable (m : Libm K) (settings : Settings K) (goal : FineAlign.Goal)

def maximumAttempts : ℕ := if goal.execute then settings.maximumRetries + 1 else 1

/-- `execute` up to its first attempt. The answer is what that one starts from; without
an answer the operation is over. -/
def prepare : Operation K (Option (FineAlign.Result K)) := do
  let result : FineAlign.Result K :=
    ⟨false, .success, "", ⟨.nan, .nan, .nan⟩, .unknown, "", ""⟩
  let resolved ← activateProfile goal.profileId false goal.instanceId
  let some profileId := resolved
    | do
      finish result .invalidProfile
        ("invalid docking profile or box instance: " ++ goal.profileId)
      return none
  let result := { result with profileId := profileId }
  if ← navigationActive then
    finish result .navigationActive "Nav2 is active"
    return none
  else
    let (_, instanceId) ← activeProfile
    return some { result with instanceId := instanceId }

/-- What `execute` does from the end of an attempt on, up to the next one. The answer is
what that one starts from, with the sequence number its target has to exceed. -/
def between (attempt : ℕ) : Attempted K → Operation K (Option (FineAlign.Result K × ℕ))
  | (result, none) => do
    finishAligned goal attempt (maximumAttempts settings goal) result
    return none
  | (result, some failure) => do
    stopAlignment
    if ← isCanceling then
      finishCanceledOrFailed result failure.code failure.message
      return none
    else if !(retryableFailure failure.code && attempt < maximumAttempts settings goal) then
      finish result failure.code
        (if retryableFailure failure.code && 1 < maximumAttempts settings goal then
          failure.message ++ s!"; retries exhausted after {attempt} attempts"
        else failure.message)
      return none
    else
      let latest ← latestStableTargetSequence
      if !(← waitForRetryDelay settings result) then
        finishInterrupted result
        return none
      else return some (result, latest)

/-- What follows an answer; without one nothing does. -/
def onward {α : Type} (next : α → Operation K Unit) : Option α → Operation K Unit
  | none => .pure ()
  | some a => next a

/-- An attempt, and what comes after it. -/
def attemptThen (attempt : ℕ) (stage : FineAlign.Stage)
    (next : FineAlign.Result K × ℕ → Operation K Unit) :
    FineAlign.Result K × ℕ → Operation K Unit
  | (result, minimumSequence) =>
    (runAttempt m settings goal result minimumSequence stage).bind fun outcome =>
      (between settings goal attempt outcome).bind (onward next)

/-- The attempts from one call on, with the number of those left after it. -/
def calls : ℕ → FineAlign.Stage → FineAlign.Result K × ℕ → Operation K Unit
  | 0, stage => attemptThen m settings goal (maximumAttempts settings goal) stage fun _ => .pure ()
  | left + 1, stage =>
    attemptThen m settings goal (maximumAttempts settings goal - (left + 1)) stage
      (calls left .reacquiring)

end Calls

variable {m : Libm K} {settings : Settings K} {goal : FineAlign.Goal}

omit [Field K] [LinearOrder K] in
theorem bind_onward_none {α : Type} (p : Operation K Unit) (next : α → Operation K Unit) :
    (p.bind fun _ => .pure none).bind (onward next) = p := by
  rw [bind_assoc]
  exact bind_return p

/-- One pass of the loop: the delay, the attempt, and what comes after it. -/
theorem attempts_succ {left : ℕ} {next : FineAlign.Result K × ℕ → Operation K Unit}
    (hnext : maximumAttempts settings goal - left < maximumAttempts settings goal →
      ∀ result latest, attempts m settings goal (maximumAttempts settings goal) left result latest =
        (waitForRetryDelay settings result).bind fun go =>
          if !go then finishInterrupted result else next (result, latest))
    (result : FineAlign.Result K) (minimumSequence : ℕ) :
    attempts m settings goal (maximumAttempts settings goal) (left + 1) result minimumSequence =
      (waitBeforeAttempt settings (maximumAttempts settings goal - left) result).bind fun go =>
        if !go then finishInterrupted result
        else attemptThen m settings goal (maximumAttempts settings goal - left)
          (if maximumAttempts settings goal - left = 1 then .acquiring else .reacquiring) next
          (result, minimumSequence) := by
  rw [attempts]
  apply congrArg (Program.bind _)
  funext go
  apply if_congr Iff.rfl rfl
  apply congrArg (Program.bind _)
  funext (result, failure)
  cases failure with
  | none => exact (bind_onward_none _ next).symm
  | some failure =>
    rw [between, seq_bind]
    apply congrArg (Program.bind _)
    funext _
    rw [seq_bind]
    apply congrArg (Program.bind _)
    funext canceling
    rw [ite_bind]
    apply if_congr Iff.rfl (bind_onward_none _ next).symm
    rw [ite_bind]
    split
    · exact (bind_onward_none _ next).symm
    · next hretry =>
      have hlt : maximumAttempts settings goal - left < maximumAttempts settings goal := by
        simp only [Bool.not_eq_true', Bool.not_eq_false, Bool.and_eq_true, decide_eq_true_eq] at hretry
        exact hretry.2
      rw [seq_bind]
      apply congrArg (Program.bind _)
      funext latest
      rw [hnext hlt, seq_bind]
      apply congrArg (Program.bind _)
      funext go
      rw [ite_bind]
      exact if_congr Iff.rfl (bind_onward_none _ next).symm rfl

/-- The loop, once it has come to an attempt, is the calls that are left. -/
theorem attempts_eq (left : ℕ) (hleft : left < maximumAttempts settings goal)
    (result : FineAlign.Result K) (minimumSequence : ℕ) :
    attempts m settings goal (maximumAttempts settings goal) (left + 1) result minimumSequence =
      (waitBeforeAttempt settings (maximumAttempts settings goal - left) result).bind fun go =>
        if !go then finishInterrupted result
        else calls m settings goal left
          (if maximumAttempts settings goal - left = 1 then .acquiring else .reacquiring)
          (result, minimumSequence) := by
  induction left generalizing result minimumSequence with
  | zero =>
    apply attempts_succ
    intro hlt
    omega
  | succ left ih =>
    apply attempts_succ
    intro _ result latest
    have hlater : 1 < maximumAttempts settings goal - left := by omega
    rw [ih (by omega), waitBeforeAttempt, if_pos hlater, if_neg (by omega)]

/-- A fine alignment prepares, and then makes its calls. -/
theorem execute_eq : execute m settings goal = (prepare goal).bind
    (onward fun result =>
      calls m settings goal (maximumAttempts settings goal - 1) .acquiring (result, 0)) := by
  have hpos : 0 < maximumAttempts settings goal := by
    unfold maximumAttempts
    split <;> omega
  have hloop : ∀ result : FineAlign.Result K,
      attempts m settings goal (maximumAttempts settings goal) (maximumAttempts settings goal) result 0 =
        calls m settings goal (maximumAttempts settings goal - 1) .acquiring (result, 0) := by
    intro result
    have hlt : maximumAttempts settings goal - 1 < maximumAttempts settings goal := by omega
    have heq := attempts_eq (m := m) _ hlt result 0
    rw [Nat.sub_add_cancel hpos, Nat.sub_sub_self hpos, waitBeforeAttempt, if_neg (by omega)] at heq
    exact heq
  rw [execute, prepare, seq_bind]
  apply congrArg (Program.bind _)
  funext resolved
  cases resolved with
  | none => exact (bind_onward_none _ _).symm
  | some profileId =>
    rw [seq_bind]
    apply congrArg (Program.bind _)
    funext navigation
    rw [ite_bind]
    apply if_congr Iff.rfl (bind_onward_none _ _).symm
    rw [seq_bind]
    apply congrArg (Program.bind _)
    funext (profile, instanceId)
    exact hloop _

/-! ### The calls of a run -/

/-- A call of `runAttempt`: what the operation had done before, what the call was made
with, and what it has done so far. -/
structure AttemptCall (K : Type) where
  past : List (OpEvent K)
  result : FineAlign.Result K
  minimumSequence : ℕ
  stage : FineAlign.Stage
  during : List (OpEvent K)

namespace AttemptCall
variable (m : Libm K) (settings : Settings K) (goal : FineAlign.Goal) (c : AttemptCall K)

def program : Operation K (Attempted K) :=
  runAttempt m settings goal c.result c.minimumSequence c.stage

def Ended (outcome : Attempted K) : Prop := Runs (c.program m settings goal) c.during outcome

/-- The first part of the call has found a target. -/
def Measured (acquiring : List (OpEvent K)) (found : ManipulationState × Measurement K) : Prop :=
  acquiring <+: c.during ∧
    Runs (waitForMeasurement settings c.minimumSequence c.stage) acquiring (some found)

/-- The call has found a target, and that has passed the checks of the acquisition. -/
def Passed : Prop :=
  ∃ acquiring state x, c.Measured settings acquiring (state, x) ∧ validState state = true ∧
    insideCaptureEnvelope m settings (currentError m x.target) = true

/-- The call checks the capture envelope with a measurement, or moves the robot by it. -/
inductive Uses (x : Measurement K) : Prop
  | capture (acquiring : List (OpEvent K)) (state : ManipulationState)
      (h : c.Measured settings acquiring (state, x))
  | motion (acquiring driving : List (OpEvent K)) (found : ManipulationState × Measurement K)
      (state : ManipulationState) (h : c.Measured settings acquiring found)
      (hduring : c.during = acquiring ++ ⟨.setAlignmentActive true, ()⟩ :: driving)
      (hread : ⟨.stableMeasurement, (state, some x)⟩ ∈ driving)

end AttemptCall

/-- How a failure is handled before the delay. -/
def handling (latest : ℕ) : List (OpEvent K) :=
  stopCalls ++ [⟨.isCanceling, false⟩, ⟨.latestStableTargetSequence, latest⟩]

section Chain
variable (m : Libm K) (settings : Settings K) (goal : FineAlign.Goal)

/-- One call follows another: that has failed, and the failure was handled. -/
structure Follows (c c' : AttemptCall K) : Prop where
  failed : ∃ failure, c.Ended m settings goal (c'.result, some failure) ∧
    retryableFailure failure.code = true
  delayed : ∃ delay, c'.past = c.past ++ c.during ++ handling c'.minimumSequence ++ delay ∧
    Runs (waitForRetryDelay settings c'.result) delay true
  stage : c'.stage = .reacquiring

/-- The call is the last one so far: it still runs, or it has ended and the code after it
has not come to another one. -/
def IsLast (attempt : ℕ) (c : AttemptCall K) (ops : List (OpEvent K)) : Prop :=
  (ops = c.past ++ c.during ∧ ∃ p, Steps (c.program m settings goal) c.during p) ∨
    ∃ rest outcome p, ops = c.past ++ c.during ++ rest ∧ c.Ended m settings goal outcome ∧
      Steps (between settings goal attempt outcome) rest p ∧ ∀ x, p ≠ .pure (some x)

end Chain

/-! ### How the calls follow -/

omit [Field K] [LinearOrder K] in
/-- A run of what comes after an answer. -/
theorem steps_onward {α : Type} {p : Operation K (Option α)} {next : α → Operation K Unit}
    {tr : List (OpEvent K)} {q : Operation K Unit} (h : Steps (p.bind (onward next)) tr q) :
    (∃ p', Steps p tr p' ∧ ∀ a, p' ≠ .pure (some a)) ∨
      ∃ tr₁ a tr₂, tr = tr₁ ++ tr₂ ∧ Runs p tr₁ (some a) ∧ Steps (next a) tr₂ q := by
  obtain ⟨p', hp, rfl⟩ | ⟨tr₁, answer, tr₂, rfl, hp, hq⟩ := steps_bind h
  · by_cases hanswer : ∃ a, p' = .pure (some a)
    · obtain ⟨a, rfl⟩ := hanswer
      exact .inr ⟨tr, a, [], by simp, hp, .refl _⟩
    · exact .inl ⟨p', hp, fun a heq => hanswer ⟨a, heq⟩⟩
  · cases answer with
    | some a => exact .inr ⟨tr₁, a, tr₂, rfl, hp, hq⟩
    | none =>
      obtain ⟨rfl, -⟩ := steps_pure.mp hq
      rw [List.append_nil]
      exact .inl ⟨.pure none, hp, fun a heq => by cases heq⟩

omit [Field K] [LinearOrder K] in
/-- What ends without an answer. -/
theorem not_runs_none {α : Type} {p : Operation K Unit} {tr : List (OpEvent K)} {a : α} :
    ¬ Runs (do p; return none) tr (some a) := by
  intro h
  obtain ⟨_, _, _, _, _, hreturn⟩ := runs_bind.mp h
  cases (runs_return.mp hreturn).2

omit [Field K] [LinearOrder K] in
theorem runs_stopAlignment_bind {α : Type} {k : Unit → Operation K α} {tr : List (OpEvent K)} {b : α}
    (h : Runs (stopAlignment >>= k) tr b) : ∃ tr', tr = stopCalls ++ tr' ∧ Runs (k ()) tr' b := by
  change Runs (call (.setAlignmentActive false) >>= fun _ => call .clearCommand >>= fun _ =>
    call .publishZero >>= k) tr b at h
  rw [runs_call_bind] at h
  obtain ⟨_, tr, rfl, h⟩ := h
  rw [runs_call_bind] at h
  obtain ⟨_, tr, rfl, h⟩ := h
  rw [runs_call_bind] at h
  obtain ⟨_, tr, rfl, h⟩ := h
  exact ⟨tr, rfl, h⟩

/-- The code between two attempts goes on to another one only after a failure that may be
retried, and when the delay was not interrupted. -/
theorem runs_between {attempt latest : ℕ} {outcome : Attempted K} {result : FineAlign.Result K}
    {tr : List (OpEvent K)}
    (h : Runs (between settings goal attempt outcome) tr (some (result, latest))) :
    ∃ failure delay, outcome = (result, some failure) ∧ retryableFailure failure.code = true ∧
      attempt < maximumAttempts settings goal ∧ tr = handling latest ++ delay ∧
      Runs (waitForRetryDelay settings result) delay true := by
  obtain ⟨result', failure⟩ := outcome
  cases failure with
  | none => exact absurd h not_runs_none
  | some failure =>
    replace h := runs_stopAlignment_bind h
    obtain ⟨tr, rfl, h⟩ := h
    rw [runs_call_bind] at h
    obtain ⟨canceling, tr, rfl, h⟩ := h
    replace h := runs_ite h
    obtain ⟨-, h⟩ | ⟨rfl, h⟩ := h
    · exact absurd h not_runs_none
    replace h := runs_ite h
    obtain ⟨-, h⟩ | ⟨hretry, h⟩ := h
    · exact absurd h not_runs_none
    simp only [Bool.not_eq_false', Bool.and_eq_true, decide_eq_true_eq] at hretry
    rw [runs_call_bind] at h
    obtain ⟨latest', tr, rfl, h⟩ := h
    replace h := runs_bind.mp h
    obtain ⟨delay, go, tr, rfl, hdelay, h⟩ := h
    obtain ⟨-, h⟩ | ⟨hgo, h⟩ := runs_ite h
    · exact absurd h not_runs_none
    · rw [runs_return] at h
      obtain ⟨rfl, heq⟩ := h
      obtain ⟨rfl, rfl⟩ := Prod.mk.inj (Option.some.inj heq)
      obtain rfl : go = true := by simpa using hgo
      exact ⟨failure, delay, rfl, hretry.1, hretry.2, by simp [handling], hdelay⟩

/-- A run from the start of a call on: it has not come to another one, or there is what
the other one starts from. -/
theorem steps_attemptThen {attempt : ℕ} {stage : FineAlign.Stage}
    {next : FineAlign.Result K × ℕ → Operation K Unit} {result : FineAlign.Result K}
    {minimumSequence : ℕ} {tr : List (OpEvent K)} {q : Operation K Unit}
    (h : Steps (attemptThen m settings goal attempt stage next (result, minimumSequence)) tr q)
    (past : List (OpEvent K)) :
    ∃ during,
      IsLast m settings goal attempt ⟨past, result, minimumSequence, stage, during⟩ (past ++ tr) ∨
        ∃ result' latest rest tr₂, tr = during ++ rest ++ tr₂ ∧ Steps (next (result', latest)) tr₂ q ∧
          attempt < maximumAttempts settings goal ∧
          ∀ during', Follows m settings goal ⟨past, result, minimumSequence, stage, during⟩
            ⟨past ++ during ++ rest, result', latest, .reacquiring, during'⟩ := by
  obtain ⟨p, hp, -⟩ | ⟨during, outcome, tr', rfl, hr, h⟩ := steps_bind h
  · exact ⟨tr, .inl (.inl ⟨rfl, p, hp⟩)⟩
  refine ⟨during, ?_⟩
  obtain ⟨p, hp, hnone⟩ | ⟨rest, ⟨result', latest⟩, tr₂, rfl, hrest, hnext⟩ := steps_onward h
  · exact .inl (.inr ⟨tr', outcome, p, by simp, hr, hp, hnone⟩)
  · obtain ⟨failure, delay, rfl, hretry, hlt, rfl, hdelay⟩ := runs_between hrest
    refine .inr ⟨result', latest, handling latest ++ delay, tr₂, by simp, hnext, hlt,
      fun during' => ?_⟩
    exact ⟨⟨failure, hr, hretry⟩, ⟨delay, by simp, hdelay⟩, rfl⟩

/-- The calls of a run of the loop, from one on. -/
theorem steps_calls {left : ℕ} {stage : FineAlign.Stage} {result : FineAlign.Result K}
    {minimumSequence : ℕ} {tr : List (OpEvent K)} {q : Operation K Unit}
    (h : Steps (calls m settings goal left stage (result, minimumSequence)) tr q)
    (hleft : left < maximumAttempts settings goal) (past : List (OpEvent K)) :
    ∃ during later, later.length ≤ left ∧
      (⟨past, result, minimumSequence, stage, during⟩ :: later).IsChain (Follows m settings goal) ∧
      ∀ last ∈ (⟨past, result, minimumSequence, stage, during⟩ :: later).getLast?,
        IsLast m settings goal (maximumAttempts settings goal - left + later.length) last
          (past ++ tr) := by
  induction left generalizing stage result minimumSequence tr past with
  | zero =>
    obtain ⟨during, hlast | ⟨_, _, _, _, -, -, hlt, -⟩⟩ := steps_attemptThen h past
    · refine ⟨during, [], le_rfl, List.isChain_singleton _, fun last hmem => ?_⟩
      obtain rfl := Option.some.inj hmem
      exact hlast
    · exact absurd hlt (lt_irrefl _)
  | succ left ih =>
    obtain ⟨during, hlast | ⟨result', latest, rest, tr₂, rfl, hnext, -, hfollows⟩⟩ :=
      steps_attemptThen h past
    · refine ⟨during, [], by simp, List.isChain_singleton _, fun last hmem => ?_⟩
      obtain rfl := Option.some.inj hmem
      exact hlast
    · obtain ⟨during', later, hlength, hchain, hlast⟩ := ih hnext (by omega) (past ++ during ++ rest)
      refine ⟨during, _ :: later, by simpa using hlength, .cons_cons (hfollows during') hchain,
        fun last hmem => ?_⟩
      have hnumber : maximumAttempts settings goal - (left + 1) + (later.length + 1) =
          maximumAttempts settings goal - left + later.length := by omega
      rw [List.length_cons, hnumber]
      have hops : past ++ (during ++ rest ++ tr₂) = past ++ during ++ rest ++ tr₂ := by simp
      rw [hops]
      exact hlast last (by simpa using hmem)

/-! ### What the parts of an attempt do -/

/-- A pass that leaves the acquisition with a target has just measured it. -/
theorem runs_acquisitionPass {start : TimePoint} {minimumSequence : ℕ} {stage : FineAlign.Stage}
    {running : Bool} {tr : List (OpEvent K)} {state : ManipulationState} {x : Measurement K}
    (h : Runs (acquisitionPass settings start minimumSequence stage running ()) tr
      (.inr (some (state, x)))) :
    minimumSequence < x.sequence ∧ ⟨.stableMeasurement, (state, some x)⟩ ∈ tr := by
  unfold acquisitionPass at h
  replace h := runs_ite h
  obtain ⟨-, h⟩ | ⟨-, h⟩ := h
  · cases (runs_return.mp h).2
  rw [runs_call_bind] at h
  obtain ⟨now, tr, rfl, h⟩ := h
  replace h := runs_ite h
  obtain ⟨-, h⟩ | ⟨-, h⟩ := h
  · cases (runs_return.mp h).2
  rw [runs_call_bind] at h
  obtain ⟨canceling, tr, rfl, h⟩ := h
  replace h := runs_ite h
  obtain ⟨-, h⟩ | ⟨-, h⟩ := h
  · cases (runs_return.mp h).2
  rw [runs_call_bind] at h
  obtain ⟨navigation, tr, rfl, h⟩ := h
  replace h := runs_ite h
  obtain ⟨-, h⟩ | ⟨-, h⟩ := h
  · cases (runs_return.mp h).2
  rw [runs_call_bind] at h
  obtain ⟨⟨state', measurement⟩, tr, rfl, h⟩ := h
  dsimp only at h
  split at h
  · next y hnewer =>
    obtain ⟨rfl, heq⟩ := runs_return.mp h
    obtain ⟨rfl, rfl⟩ := Prod.mk.inj (Option.some.inj (Sum.inr.inj heq))
    obtain ⟨rfl, hlt⟩ := Option.filter_eq_some_iff.mp hnewer
    exact ⟨by simpa using hlt, by simp⟩
  · rw [runs_call_bind] at h
    obtain ⟨_, tr, rfl, h⟩ := h
    rw [runs_call_bind] at h
    obtain ⟨_, tr, rfl, h⟩ := h
    rw [runs_call_bind] at h
    obtain ⟨_, tr, rfl, h⟩ := h
    cases (runs_return.mp h).2

theorem runs_waitForMeasurement {minimumSequence : ℕ} {stage : FineAlign.Stage} {tr : List (OpEvent K)}
    {state : ManipulationState} {x : Measurement K}
    (h : Runs (waitForMeasurement settings minimumSequence stage) tr (some (state, x))) :
    minimumSequence < x.sequence ∧ ⟨.stableMeasurement, (state, some x)⟩ ∈ tr := by
  obtain ⟨start, tr, rfl, hloop⟩ := runs_call_bind.mp h
  obtain ⟨before, _, running, last, rfl, -, hpass⟩ := runs_repeatWhile hloop
  obtain ⟨hnewer, hmem⟩ := runs_acquisitionPass hpass
  exact ⟨hnewer, by simp [hmem]⟩

/-- An attempt arms nothing before it has found a target that passes its checks. -/
theorem steps_runAttempt {result : FineAlign.Result K} {minimumSequence : ℕ} {stage : FineAlign.Stage}
    {tr : List (OpEvent K)} {p : Operation K (Attempted K)}
    (h : Steps (runAttempt m settings goal result minimumSequence stage) tr p) :
    (∀ e ∈ tr, e.1.Arms = false) ∨
      ∃ acquiring driving state x, tr = acquiring ++ ⟨.setAlignmentActive true, ()⟩ :: driving ∧
        Runs (waitForMeasurement settings minimumSequence stage) acquiring (some (state, x)) ∧
        validState state = true ∧ insideCaptureEnvelope m settings (currentError m x.target) = true := by
  have unarmed : ∀ {α : Type} {q q' : Operation K α} {tr : List (OpEvent K)},
      All (Op.IsStill · = true) q → Steps q tr q' → ∀ e ∈ tr, e.1.Arms = false := by
    intro α q q' tr hq hs e he
    exact Op.unarmed_of_isStill ((hq.steps hs).1 e he)
  obtain ⟨p', hp, -⟩ | ⟨acquiring, measured, tr, rfl, hacquiring, h⟩ := steps_bind h
  · exact .inl (unarmed (still_waitForMeasurement _ _) hp)
  have hbefore := unarmed (still_waitForMeasurement _ _) hacquiring
  have append_unarmed : (∀ e ∈ tr, e.1.Arms = false) → ∀ e ∈ acquiring ++ tr, e.1.Arms = false :=
    fun htr e he => (List.mem_append.mp he).elim (hbefore e) (htr e)
  cases measured with
  | none =>
    refine .inl (append_unarmed (unarmed ?_ h))
    refine still_call_bind rfl fun canceling => all_ite (fun _ => trivial) fun _ => ?_
    refine still_call_bind rfl fun navigation => all_ite (fun _ => trivial) fun _ => ?_
    exact still_call_bind rfl fun running => all_ite (fun _ => trivial) fun _ => trivial
  | some found =>
    obtain ⟨state, x⟩ := found
    dsimp only at h
    have hdone : ∀ {a : Attempted K}, Steps (.pure a : Operation K _) tr p →
        ∀ e ∈ acquiring ++ tr, e.1.Arms = false := by
      intro a hs
      obtain ⟨rfl, -⟩ := steps_pure.mp hs
      exact append_unarmed (by simp)
    split at h
    · exact .inl (hdone h)
    split at h
    · exact .inl (hdone h)
    split at h
    · exact .inl (hdone h)
    next hstate hinside _ =>
    obtain ⟨rfl, -⟩ | ⟨_, driving, rfl, -⟩ := steps_perform.mp h
    · exact .inl (append_unarmed (by simp))
    · exact .inr ⟨acquiring, driving, state, x, rfl, hacquiring, by simpa using hstate,
        by simpa using hinside⟩

/-- What comes after an attempt arms nothing. -/
theorem unarmed_between (attempt : ℕ) (outcome : Attempted K) :
    All (Op.Arms · = false) (between settings goal attempt outcome) := by
  have still : ∀ {α : Type} {p : Operation K α}, All (Op.IsStill · = true) p →
      All (Op.Arms · = false) p := fun hp => hp.mono fun o ho => Op.unarmed_of_isStill ho
  obtain ⟨result, failure⟩ := outcome
  cases failure with
  | none =>
    refine All.bind ((still still_stopAlignment).bind fun _ => all_ite (fun _ => ?_) fun _ => ?_)
      fun _ => trivial
    · exact all_call_bind rfl fun _ => all_call_bind rfl fun _ => ⟨rfl, fun _ => trivial⟩
    · exact all_call_bind rfl fun _ => ⟨rfl, fun _ => trivial⟩
  | some failure =>
    apply still
    refine still_stopAlignment.bind fun _ => still_call_bind rfl fun canceling => ?_
    refine all_ite (fun _ => (still_finishCanceledOrFailed _ _ _).bind fun _ => trivial) fun _ => ?_
    refine all_ite (fun _ => (still_finish _ _ _).bind fun _ => trivial) fun _ => ?_
    refine still_call_bind rfl fun latest => (still_waitForRetryDelay _).bind fun go => ?_
    exact all_ite (fun _ => (still_finishInterrupted _).bind fun _ => trivial) fun _ => trivial

/-! ### The delay -/

/-- The delay has elapsed, and neither a cancellation nor a navigation action was seen. -/
structure Waited (settings : Settings K) (delay : List (OpEvent K)) : Prop where
  uncanceled : ⟨.isCanceling, true⟩ ∉ delay
  unnavigated : ⟨.navigationActive, true⟩ ∉ delay
  elapsed : ∃ report start middle now,
    delay = report :: ⟨.steadyNow, start⟩ :: (middle ++ [⟨.steadyNow, now⟩, ⟨.ok, true⟩]) ∧
      settings.parameters.retryDelay.value ≤ elapsed now start

/-- Neither a cancellation nor a navigation action was seen in it. -/
def Undisturbing (e : OpEvent K) : Prop := e ≠ ⟨.isCanceling, true⟩ ∧ e ≠ ⟨.navigationActive, true⟩

theorem retryDelay_le {start now : TimePoint}
    (h : runningAt start settings.parameters.retryDelay now = false) :
    settings.parameters.retryDelay.value ≤ elapsed now start := by
  have hvalid : negative settings.parameters.retryDelay = false := by
    have haccepted := settings.accepted
    simp only [Parameters.rejected, Bool.or_eq_false_iff] at haccepted
    tauto
  have hfinite : settings.parameters.retryDelay.isFinite = true := by
    simp only [negative, Bool.or_eq_false_iff, Bool.not_eq_false'] at hvalid
    exact hvalid.1
  rw [runningAt, ← Double.finite_value hfinite] at h
  simpa [Double.numLT] using h

/-- A pass of the delay goes on undisturbed, or finds the delay over, or is interrupted. -/
theorem runs_retryPass {start : TimePoint} {running : Bool} {tr : List (OpEvent K)} {r : Unit ⊕ Bool}
    (h : Runs (retryPass settings start running ()) tr r) :
    (r = .inl () ∧ ∀ e ∈ tr, Undisturbing e) ∨ r = .inr false ∨
      (running = false ∧ ∃ ok, r = .inr ok ∧ tr = [⟨.ok, ok⟩]) ∨
      (r = .inr true ∧ ∃ now, tr = [⟨.steadyNow, now⟩, ⟨.ok, true⟩] ∧
        settings.parameters.retryDelay.value ≤ elapsed now start) := by
  unfold retryPass at h
  replace h := runs_ite h
  obtain ⟨hrunning, h⟩ | ⟨-, h⟩ := h
  · rw [runs_call_bind] at h
    obtain ⟨ok, tr, rfl, h⟩ := h
    obtain ⟨rfl, rfl⟩ := runs_return.mp h
    exact .inr (.inr (.inl ⟨by simpa using hrunning, ok, rfl, rfl⟩))
  rw [runs_call_bind] at h
  obtain ⟨now, tr, rfl, h⟩ := h
  replace h := runs_ite h
  obtain ⟨hover, h⟩ | ⟨-, h⟩ := h
  · rw [runs_call_bind] at h
    obtain ⟨ok, tr, rfl, h⟩ := h
    obtain ⟨rfl, rfl⟩ := runs_return.mp h
    cases ok with
    | false => exact .inr (.inl rfl)
    | true => exact .inr (.inr (.inr ⟨rfl, now, rfl, retryDelay_le (by simpa using hover)⟩))
  rw [runs_call_bind] at h
  obtain ⟨canceling, tr, rfl, h⟩ := h
  replace h := runs_ite h
  obtain ⟨-, h⟩ | ⟨rfl, h⟩ := h
  · exact .inr (.inl (runs_return.mp h).2)
  rw [runs_call_bind] at h
  obtain ⟨navigation, tr, rfl, h⟩ := h
  replace h := runs_ite h
  obtain ⟨-, h⟩ | ⟨rfl, h⟩ := h
  · exact .inr (.inl (runs_return.mp h).2)
  rw [runs_call_bind] at h
  obtain ⟨_, tr, rfl, h⟩ := h
  obtain ⟨rfl, rfl⟩ := runs_return.mp h
  refine .inl ⟨rfl, fun e he => ?_⟩
  simp only [List.mem_cons, List.not_mem_nil, or_false] at he
  obtain rfl | rfl | rfl | rfl := he <;> exact ⟨by simp, by simp⟩

/-- The middleware was up when the delay was over. -/
theorem exists_waitForRetryDelay {result : FineAlign.Result K} {delay : List (OpEvent K)}
    (h : Runs (waitForRetryDelay settings result) delay true) :
    ∃ earlier, delay = earlier ++ [⟨.ok, true⟩] := by
  obtain ⟨_, tr, rfl, hafter⟩ := runs_call_bind.mp h
  obtain ⟨start, tr, rfl, hloop⟩ := runs_call_bind.mp hafter
  obtain ⟨before, _, running, last, rfl, -, hpass⟩ := runs_repeatWhile hloop
  obtain ⟨heq, -⟩ | heq | ⟨-, _, heq, rfl⟩ | ⟨-, now, rfl, -⟩ := runs_retryPass hpass
  · cases heq
  · cases heq
  · obtain rfl := Sum.inr.inj heq
    exact ⟨_ :: _ :: (before ++ [⟨.ok, running⟩]), congrArg (_ :: _ :: ·) (by simp)⟩
  · exact ⟨_ :: _ :: (before ++ [⟨.ok, running⟩, ⟨.steadyNow, now⟩]),
      congrArg (_ :: _ :: ·) (by simp)⟩

/-- A delay that is over has elapsed undisturbed, unless it saw the middleware down. -/
theorem runs_waitForRetryDelay {result : FineAlign.Result K} {delay : List (OpEvent K)}
    (h : Runs (waitForRetryDelay settings result) delay true) (hok : ⟨.ok, false⟩ ∉ delay) :
    Waited settings delay := by
  obtain ⟨_, tr, rfl, hafter⟩ := runs_call_bind.mp h
  obtain ⟨start, tr, rfl, hloop⟩ := runs_call_bind.mp hafter
  obtain ⟨before, _, running, last, rfl, hpasses, hpass⟩ := runs_repeatWhile hloop
  obtain rfl : running = true := by
    by_contra hrunning
    exact hok (by simp [hrunning])
  have hbefore : ∀ e ∈ before, Undisturbing e := by
    clear hpass hloop hafter h hok
    induction hpasses with
    | refl => simp
    | snoc _ hr ih =>
      intro e he
      simp only [List.mem_append, List.mem_cons] at he
      obtain he | rfl | he := he
      · exact ih e he
      · exact ⟨by simp, by simp⟩
      · obtain ⟨-, hpass⟩ | heq | ⟨-, _, heq, -⟩ | ⟨heq, -⟩ := runs_retryPass hr
        · exact hpass e he
        · cases heq
        · cases heq
        · cases heq
  obtain ⟨heq, -⟩ | heq | ⟨heq, -⟩ | ⟨-, now, rfl, hle⟩ := runs_retryPass hpass
  · cases heq
  · cases heq
  · cases heq
  have hall : ∀ e ∈ before ++ [⟨.ok, true⟩, ⟨.steadyNow, now⟩, ⟨.ok, true⟩], Undisturbing e := by
    intro e he
    simp only [List.mem_append, List.mem_cons, List.not_mem_nil, or_false] at he
    obtain he | rfl | rfl | rfl := he
    · exact hbefore e he
    all_goals exact ⟨by simp, by simp⟩
  refine ⟨fun hmem => ?_, fun hmem => ?_, _, start, before ++ [⟨.ok, true⟩], now,
    congrArg (_ :: _ :: ·) (by simp), hle⟩
  · exact (hall _ (by simpa using hmem)).1 rfl
  · exact (hall _ (by simpa using hmem)).2 rfl

end X2Navigation.FineAlignServer
