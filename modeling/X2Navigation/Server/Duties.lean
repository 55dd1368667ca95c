import X2Navigation.Server.Conduct

/-! Every body does its duty, whatever it is answered: each helper has one
statement that its callers use. -/

namespace X2Navigation.FineAlignServer

open Interaction

variable {K : Type} {g : Conduct}

/-! ### Endings -/

section Endings
variable {α : Type} {Q : α → Conduct → Prop}

/-- The operation is over. -/
def Over (_ : Unit) (g : Conduct) : Prop := g.released = true

theorem safe_stopAlignment {k : Unit → Operation K α} (h : g.Working)
    (hk : (conduct K).Safe { g with stop := .done } (k ()) Q) :
    (conduct K).Safe g (stopAlignment >>= k) Q := by
  refine safe_bind (R := fun _ g' => g' = { g with stop := .done }) ?_ fun _ _ hg => hg ▸ hk
  refine safe_call_bind ⟨h, fun _ => rfl, nofun⟩ fun _ => ?_
  refine safe_call_bind ⟨rfl, h.ended, h.released⟩ fun _ => ?_
  exact safe_call ⟨rfl, h.ended, h.released⟩ fun _ => rfl

/-- The terminal call and the release, once the alignment is stopped. -/
theorem safe_terminate {outcome : Outcome} {result : Result K} (h : g.Working)
    (hs : g.stop = .done) (hc : outcome = .canceled → g.canceling = true)
    (hb : g.Bound → outcome = .abort ∧ result.IsNavigationActive) :
    (conduct K).Safe g (terminate outcome result >>= fun _ => release) Over :=
  safe_call_bind ⟨hs, h.ended, h.released, hc, hb⟩ fun _ => safe_call ⟨hs, rfl, h.released⟩ fun _ => rfl

theorem safe_finish {result : FineAlign.Result K} {code : FineAlign.Code} {message : String}
    (h : g.Working) (hc : g.Bound → code = .navigationActive) :
    (conduct K).Safe g (finish result code message) Over :=
  safe_stopAlignment h <|
    safe_terminate ⟨h.ended, h.released, .inr rfl⟩ rfl nofun fun hb => ⟨rfl, hc hb⟩

theorem safe_finishCanceledOrFailed {result : FineAlign.Result K} {code : FineAlign.Code}
    {message : String} (h : g.Working) (hc : g.Bound → code = .navigationActive) :
    (conduct K).Safe g (finishCanceledOrFailed result code message) Over := by
  refine safe_isCanceling h (fun g' hg hcan _ => ?_) (safe_finish h hc)
  exact safe_stopAlignment hg.toWorking <|
    safe_terminate ⟨hg.ended, hg.released, .inr rfl⟩ rfl (fun _ => hcan) fun hb =>
      absurd hb hg.unbound

theorem safe_finishUndock {result : Undock.Result K} {code : Undock.Code} {message : String}
    (h : g.Working) (hc : g.Bound → code = .navigationActive) :
    (conduct K).Safe g (finishUndock result code message) Over := by
  refine safe_stopAlignment h ?_
  have hw : Conduct.Working { g with stop := .done } := ⟨h.ended, h.released, .inr rfl⟩
  refine safe_isCanceling hw (fun g' hg hcan hs => ?_) ?_
  · exact safe_terminate hg.toWorking hs (fun _ => hcan) fun hb => absurd hb hg.unbound
  · exact safe_terminate hw rfl nofun fun hb => ⟨rfl, hc hb⟩

theorem safe_finishRotate {result : RotateInPlace.Result K} {code : RotateInPlace.Code}
    {message : String} (h : g.Working) (hc : g.Bound → code = .navigationActive)
    (hcan : code = .canceled → g.canceling = true) :
    (conduct K).Safe g (finishRotate result code message) Over := by
  refine safe_stopAlignment h (safe_terminate ⟨h.ended, h.released, .inr rfl⟩ rfl ?_ ?_)
  · intro ho
    split at ho
    · exact hcan ‹_›
    · split at ho <;> cases ho
  · intro hb
    obtain rfl := hc hb
    exact ⟨rfl, rfl⟩

theorem safe_finishInterrupted {result : FineAlign.Result K} (h : g.Working) :
    (conduct K).Safe g (finishInterrupted result) Over := by
  refine safe_navigationActive h (fun g' hw _ => safe_finish hw fun _ => rfl) fun g' h _ => ?_
  refine safe_neutral h rfl nofun fun running g h _ => ?_
  exact safe_finishCanceledOrFailed h.toWorking fun hb => absurd hb h.unbound

theorem safe_finishAligned {goal : FineAlign.Goal} {attempt maximumAttempts : ℕ}
    {result : FineAlign.Result K} (h : g.Free) :
    (conduct K).Safe g (finishAligned goal attempt maximumAttempts result) Over := by
  refine safe_stopAlignment h.toWorking ?_
  have hstopped : Conduct.Free { g with stop := .done } := ⟨⟨h.ended, h.released, .inr rfl⟩, h.unbound⟩
  dsimp only
  split
  · refine safe_call_bind (hstopped.allows_neutral rfl nofun) fun _ => ?_
    exact safe_terminate hstopped.toWorking rfl nofun fun hb => absurd hb h.unbound
  · exact safe_terminate hstopped.toWorking rfl nofun fun hb => absurd hb h.unbound

end Endings

/-! ### Fine alignment -/

/-- A thread that has to report the navigation action has failed with it. -/
def Blamed (a : Attempted K) (g : Conduct) : Prop :=
  g.Working ∧ (g.Bound → ∃ failure, a.2 = some failure ∧ failure.code = .navigationActive)

theorem Blamed.of_free {a : Attempted K} (h : g.Free) : Blamed a g :=
  ⟨h.toWorking, fun hb => absurd hb h.unbound⟩

section FineAlignment
variable [Field K] [LinearOrder K] {m : Libm K} {settings : Settings K}

theorem safe_acquisitionPass {start : TimePoint} {minimumSequence : ℕ} {stage : FineAlign.Stage}
    {running : Bool} (h : g.Free) :
    (conduct K).Safe g (acquisitionPass settings start minimumSequence stage running ())
      fun r g => Sum.elim (fun _ => g.Free) (fun b => g.Working ∧ (b.isSome → g.Free)) r := by
  unfold acquisitionPass
  split
  · exact safe_return ⟨h.toWorking, nofun⟩
  refine safe_neutral h rfl nofun fun now g h _ => ?_
  split
  · exact safe_return ⟨h.toWorking, nofun⟩
  refine safe_isCanceling h.toWorking (fun g' h _ _ => ?_) ?_
  · exact safe_return ⟨h.toWorking, nofun⟩
  refine safe_navigationActive h.toWorking (fun g' hw _ => ?_) fun g' h _ => ?_
  · exact safe_return ⟨hw, nofun⟩
  refine safe_neutral h rfl nofun fun a g h _ => ?_
  dsimp only
  split
  · exact safe_return ⟨h.toWorking, fun _ => h⟩
  refine safe_neutral h rfl nofun fun a g h _ => ?_
  refine safe_neutral h rfl nofun fun _ g h _ => ?_
  exact safe_neutral h rfl nofun fun _ g h _ => safe_return h

theorem safe_waitForMeasurement {minimumSequence : ℕ} {stage : FineAlign.Stage} (h : g.Free) :
    (conduct K).Safe g (waitForMeasurement settings minimumSequence stage)
      fun r g => g.Working ∧ (r.isSome → g.Free) := by
  refine safe_neutral h rfl nofun fun start g h _ => ?_
  exact safe_whileOk h fun _ g running h => safe_acquisitionPass h

theorem safe_retryPass {start : TimePoint} {running : Bool} (h : g.Free) :
    (conduct K).Safe g (retryPass settings start running ())
      fun r g => Sum.elim (fun _ => g.Free) (fun b => g.Working ∧ (b = true → g.Free)) r := by
  unfold retryPass
  split
  · exact safe_neutral h rfl nofun fun _ g h _ => safe_return ⟨h.toWorking, fun _ => h⟩
  refine safe_neutral h rfl nofun fun now g h _ => ?_
  split
  · exact safe_neutral h rfl nofun fun _ g h _ => safe_return ⟨h.toWorking, fun _ => h⟩
  refine safe_isCanceling h.toWorking (fun g' h _ _ => ?_) ?_
  · exact safe_return ⟨h.toWorking, nofun⟩
  refine safe_navigationActive h.toWorking (fun g' hw _ => ?_) fun g' h _ => ?_
  · exact safe_return ⟨hw, nofun⟩
  exact safe_neutral h rfl nofun fun _ g h _ => safe_return h

theorem safe_waitBeforeAttempt {attempt : ℕ} {result : FineAlign.Result K} (h : g.Free) :
    (conduct K).Safe g (waitBeforeAttempt settings attempt result)
      fun r g => g.Working ∧ (r = true → g.Free) := by
  unfold waitBeforeAttempt
  split
  · refine safe_neutral h rfl nofun fun _ g h _ => ?_
    refine safe_neutral h rfl nofun fun start g h _ => ?_
    exact safe_whileOk h fun _ g running h => safe_retryPass h
  · exact safe_return ⟨h.toWorking, fun _ => h⟩

theorem safe_controlPass {start : TimePoint} {running : Bool} {a : Approach K} (h : g.Free) :
    (conduct K).Safe g (controlPass m settings start running a)
      fun r g => Sum.elim (fun _ => g.Free) (Blamed · g) r := by
  obtain ⟨result, control⟩ := a
  unfold controlPass
  dsimp only
  split
  · exact safe_return (.of_free h)
  refine safe_isCanceling h.toWorking (fun g' h _ _ => safe_return (.of_free h)) ?_
  refine safe_navigationActive h.toWorking (fun g' hw _ => ?_) fun g' h _ => ?_
  · exact safe_return ⟨hw, fun _ => ⟨_, rfl, rfl⟩⟩
  refine safe_neutral h rfl nofun fun stopped g h _ => ?_
  split
  · exact safe_return (.of_free h)
  refine safe_neutral h rfl nofun fun now g h _ => ?_
  split
  · exact safe_return (.of_free h)
  refine safe_neutral h rfl nofun fun a g h _ => ?_
  split
  · split
    · exact safe_return (.of_free h)
    split
    · exact safe_return (.of_free h)
    refine safe_neutral h rfl nofun fun controlTime g h _ => ?_
    split
    · refine safe_neutral h rfl nofun fun _ g h _ => ?_
      refine safe_neutral h rfl nofun fun _ g h _ => ?_
      split
      · exact safe_return (.of_free h)
      · exact safe_neutral h rfl nofun fun _ g h _ => safe_return h
    · exact safe_return (.of_free h)
  · exact safe_return (.of_free h)

theorem safe_runAttempt {goal : FineAlign.Goal} {result : FineAlign.Result K}
    {minimumSequence : ℕ} {stage : FineAlign.Stage} (h : g.Free) :
    (conduct K).Safe g (runAttempt m settings goal result minimumSequence stage) Blamed := by
  refine safe_bind (safe_waitForMeasurement h) fun measured g hg => ?_
  split
  · have h := hg.2 rfl
    dsimp only
    split
    · exact safe_return (.of_free h)
    split
    · exact safe_return (.of_free h)
    split
    · exact safe_return (.of_free h)
    refine safe_neutral h rfl nofun fun _ g h _ => ?_
    refine safe_neutral h rfl nofun fun start g h _ => ?_
    refine safe_neutral h rfl nofun fun previousControlTime g h _ => ?_
    exact safe_whileOk h fun a g running h => safe_controlPass h
  · -- the cause is read again
    refine safe_isCanceling hg.1 (fun g' h _ _ => safe_return (.of_free h)) ?_
    refine safe_navigationActive hg.1 (fun g' hw _ => ?_) fun g' h _ => ?_
    · exact safe_return ⟨hw, fun _ => ⟨_, rfl, rfl⟩⟩
    refine safe_neutral h rfl nofun fun running g h _ => ?_
    split
    · exact safe_return (.of_free h)
    · exact safe_return (.of_free h)

/-- A retry leaves an attempt, so the loop ends in one of its passes. -/
theorem safe_attempts {goal : FineAlign.Goal} {maximumAttempts remaining : ℕ}
    {result : FineAlign.Result K} {minimumSequence : ℕ} (h : g.Free)
    (hpos : 0 < remaining) (hle : remaining ≤ maximumAttempts) :
    (conduct K).Safe g
      (attempts m settings goal maximumAttempts remaining result minimumSequence) Over := by
  induction remaining generalizing g result minimumSequence with
  | zero => omega
  | succ remaining ih =>
    refine safe_bind (safe_waitBeforeAttempt h) fun waited g hg => ?_
    cases waited with
    | false => exact safe_finishInterrupted hg.1
    | true =>
    simp only [Bool.not_true, Bool.false_eq_true, if_false]
    refine safe_bind (safe_runAttempt (hg.2 rfl)) fun a g hg => ?_
    obtain ⟨result, failure⟩ := a
    cases failure with
    | none =>
      refine safe_finishAligned ⟨hg.1, fun hb => ?_⟩
      obtain ⟨_, hf, -⟩ := hg.2 hb
      cases hf
    | some failure =>
      have hcode : g.Bound → failure.code = .navigationActive := by
        intro hb
        obtain ⟨_, hf, hc⟩ := hg.2 hb
        cases hf
        exact hc
      refine safe_stopAlignment hg.1 ?_
      have hw : Conduct.Working { g with stop := .done } := ⟨hg.1.ended, hg.1.released, .inr rfl⟩
      refine safe_isCanceling hw (fun g' h _ _ => ?_) ?_
      · exact safe_finishCanceledOrFailed h.toWorking fun hb => absurd hb h.unbound
      simp only [Bool.false_eq_true, if_false]
      split
      · exact safe_finish hw hcode
      · rename_i hretry
        have hfree : Conduct.Free { g with stop := .done } := by
          refine ⟨hw, fun hb => ?_⟩
          rw [hcode hb] at hretry
          simp [retryableFailure] at hretry
        refine safe_neutral hfree rfl nofun fun latest g h _ => ?_
        refine ih h ?_ (by omega)
        simp at hretry
        omega

theorem safe_execute {goal : FineAlign.Goal} (h : g.Free) :
    (conduct K).Safe g (execute m settings goal) Over := by
  unfold execute
  refine safe_neutral h rfl nofun fun resolved g h _ => ?_
  split
  · refine safe_navigationActive h.toWorking (fun g' hw _ => ?_) fun g' h _ => ?_
    · exact safe_finish hw fun _ => rfl
    refine safe_neutral h rfl nofun fun a g h _ => ?_
    refine safe_attempts h ?_ le_rfl
    split <;> omega
  · exact safe_finish h.toWorking fun hb => absurd hb h.unbound

end FineAlignment

/-! ### Rotation and undocking -/

/-- A pass of a body's loop leaves the thread free, or the operation is over. -/
def Passed {σ : Type} (r : σ ⊕ Unit) (g : Conduct) : Prop :=
  Sum.elim (fun _ => g.Free) (fun _ => g.released = true) r

/-- The operation is over, so is its loop. -/
theorem safe_left {σ : Type} {p : Operation K Unit} (h : (conduct K).Safe g p Over) :
    (conduct K).Safe g (p >>= fun _ => (pure (.inr ()) : Operation K (σ ⊕ Unit))) Passed :=
  safe_bind h fun _ _ hg => safe_return hg

/-! ### Causes -/

/-- The cause that is read again after an interruption. Either a cancellation is
seen, or the navigation action still is, or it is found gone. -/
theorem safe_cause {α : Type} {Q : α → Conduct → Prop} {otherwise : Operation K Undock.Code}
    {k : Undock.Code → Operation K α} (h : g.Working)
    (hother : ∀ g, g.Free → (conduct K).Safe g otherwise fun _ g => g.Free)
    (hk : ∀ code g, g.Working → (g.Bound → code = .navigationActive) → (conduct K).Safe g (k code) Q) :
    (conduct K).Safe g (choose isCanceling .canceled (choose navigationActive .navigationActive
      otherwise) >>= k) Q := by
  refine safe_bind (R := fun code g => g.Working ∧ (g.Bound → code = .navigationActive)) ?_
    fun code g hg => hk code g hg.1 hg.2
  refine safe_isCanceling h (fun g' h _ _ => ?_) ?_
  · exact safe_return ⟨h.toWorking, fun hb => absurd hb h.unbound⟩
  refine safe_navigationActive h (fun g' hw _ => ?_) fun g' h _ => ?_
  · exact safe_return ⟨hw, fun _ => rfl⟩
  · exact (hother g' h).mono fun _ g h => ⟨h.toWorking, fun hb => absurd hb h.unbound⟩

/-- A condition that starts with the two causes to end. -/
theorem safe_interrupted {α : Type} {Q : α → Conduct → Prop} {otherwise : Operation K Bool}
    {k : Bool → Operation K α} (h : g.Free)
    (hother : ∀ g', g'.Free → g'.clock = g.clock →
      (conduct K).Safe g' otherwise fun _ g' => g'.Free ∧ g'.clock = g.clock)
    (hyes : ∀ g', g'.Working → (conduct K).Safe g' (k true) Q)
    (hno : ∀ g', g'.Free → g'.clock = g.clock → (conduct K).Safe g' (k false) Q) :
    (conduct K).Safe g (either isCanceling (either navigationActive otherwise) >>= k) Q := by
  refine safe_bind
    (R := fun b g' => g'.Working ∧ (b = false → g'.Free ∧ g'.clock = g.clock)) ?_ ?_
  · refine safe_isCanceling h.toWorking (fun g' h _ _ => safe_return ⟨h.toWorking, nofun⟩) ?_
    refine safe_navigationActive h.toWorking (fun g' hw _ => safe_return ⟨hw, nofun⟩) ?_
    exact fun g' h hc => (hother g' h hc).mono fun _ g'' h => ⟨h.1.toWorking, fun _ => h⟩
  · rintro (_ | _) g' hg
    · exact hno g' (hg.2 rfl).1 (hg.2 rfl).2
    · exact hyes g' hg.1

theorem safe_finishedUndock {σ : Type} {result : Undock.Result K} {code : Undock.Code}
    {message : String} (h : g.Free) :
    (conduct K).Safe g (finishUndock result code message >>= fun _ =>
      (pure (.inr ()) : Operation K (σ ⊕ Unit))) Passed :=
  safe_left (safe_finishUndock h.toWorking fun hb => absurd hb h.unbound)

theorem safe_succeeded {σ : Type} {result : Undock.Result K} (h : g.Free) :
    (conduct K).Safe g (stopAlignment >>= fun _ => terminate .succeed (.undock result) >>= fun _ =>
      release >>= fun _ => (pure (.inr ()) : Operation K (σ ⊕ Unit))) Passed := by
  refine safe_stopAlignment h.toWorking ?_
  refine safe_call_bind ⟨rfl, h.ended, h.released, nofun, fun hb => absurd hb h.unbound⟩ fun _ => ?_
  exact safe_call_bind ⟨rfl, rfl, h.released⟩ fun _ => safe_return rfl

theorem safe_currentlyInvalid (h : g.Free) :
    (conduct K).Safe g currentlyInvalid fun _ g' => g'.Free ∧ g'.clock = g.clock :=
  safe_neutral h rfl nofun fun _ _ h hkeep => safe_return ⟨h, hkeep nofun⟩

section Rotation
variable [Field K] [LinearOrder K] {settings : Settings K}

theorem safe_rotationPass {goal : RotateInPlace.Goal K} {running : Bool} {r : Rotating K}
    (h : g.Free) : (conduct K).Safe g (rotationPass goal running r) Passed := by
  obtain ⟨result, start⟩ := r
  have done {result : RotateInPlace.Result K} {code : RotateInPlace.Code} {message : String}
      {g : Conduct} (h : g.Free) (hc : code ≠ .canceled) :
      (conduct K).Safe g (finishRotate result code message >>= fun _ =>
        (pure (.inr ()) : Operation K (Rotating K ⊕ Unit))) Passed :=
    safe_left (safe_finishRotate h.toWorking (fun hb => absurd hb h.unbound) fun he => absurd he hc)
  unfold rotationPass
  dsimp only
  split
  · exact done h nofun
  refine safe_steadyNow h fun now g h hclock => ?_
  refine safe_neutral h rfl nofun fun stopped g' h hkeep => ?_
  have hclock : g'.clock = some now := (hkeep nofun).trans hclock
  refine safe_isCanceling h.toWorking (fun g' h hcan _ => ?_) ?_
  · exact safe_left (safe_finishRotate h.toWorking (fun hb => absurd hb h.unbound) fun _ => hcan)
  refine safe_navigationActive h.toWorking (fun g' hw _ => ?_) fun g'' h hkeep => ?_
  · exact safe_left (safe_finishRotate hw (fun _ => rfl) nofun)
  have hclock : g''.clock = some now := hkeep.trans hclock
  refine safe_neutral h rfl nofun fun state g h hkeep => ?_
  have hclock : g.clock = some now := (hkeep nofun).trans hclock
  split
  · exact done h nofun
  split
  · exact done h nofun
  refine safe_ite (fun _ => done h nofun) fun _ => ?_
  refine safe_neutral h rfl (by rintro t ⟨⟩; exact hclock) fun _ g h _ => ?_
  refine safe_neutral h rfl nofun fun _ g h _ => ?_
  exact safe_neutral h rfl nofun fun _ g h _ => safe_return h

theorem safe_executeRotate {goal : RotateInPlace.Goal K} (h : g.Free) :
    (conduct K).Safe g (executeRotate settings goal) Over := by
  unfold executeRotate
  dsimp only
  split
  · exact safe_finishRotate h.toWorking (fun hb => absurd hb h.unbound) nofun
  · exact safe_whileOk h fun _ g running h => safe_rotationPass h

end Rotation

section Undocking
variable [Field K] [LinearOrder K] {m : Libm K} {settings : Settings K}

theorem safe_timedPass {profile : DockingProfile K} {start : TimePoint} {running : Bool}
    {r : Reversing K} (h : g.Free) :
    (conduct K).Safe g (timedPass settings profile start running r) Passed := by
  obtain ⟨result, commandedMotion⟩ := r
  unfold timedPass
  dsimp only
  refine safe_ite (fun _ => safe_finishedUndock h) fun _ => ?_
  refine safe_steadyNow h fun controlTime g h hclock => ?_
  refine safe_neutral h rfl nofun fun state g₁ h hkeep => ?_
  have hclock : g₁.clock = some controlTime := (hkeep nofun).trans hclock
  refine safe_neutral h rfl nofun fun stopped g₂ h hkeep => ?_
  have hclock : g₂.clock = some controlTime := (hkeep nofun).trans hclock
  refine safe_interrupted h (fun g' h hc => safe_return ⟨h, hc⟩) (fun g hw => ?_) fun g₃ h hkeep => ?_
  · exact safe_cause hw (fun g h => safe_return h) fun code g hw hc =>
      safe_left (safe_finishUndock hw hc)
  have hclock : g₃.clock = some controlTime := hkeep.trans hclock
  simp only [Bool.false_eq_true, if_false]
  refine safe_ite (fun _ => safe_finishedUndock h) fun _ => ?_
  refine safe_ite (fun _ => safe_succeeded h) fun _ => ?_
  refine safe_neutral h rfl (by rintro t ⟨⟩; exact hclock) fun _ g h _ => ?_
  refine safe_neutral h rfl nofun fun _ g h _ => ?_
  exact safe_neutral h rfl nofun fun _ g h _ => safe_return h

theorem safe_undockAcquisitionPass {validating : Undock.Feedback K} {result : Undock.Result K}
    {acquisitionStart : TimePoint} {running : Bool} (h : g.Free) :
    (conduct K).Safe g
      (undockAcquisitionPass settings validating result acquisitionStart running ())
      fun r g => Sum.elim (fun _ => g.Free)
        (fun acquired => if acquired.isSome then g.Free else g.released = true) r := by
  have ended {p : Operation K Unit} {g : Conduct} (h : (conduct K).Safe g p Over) :
      (conduct K).Safe g (p >>= fun _ =>
        (pure (.inr none) : Operation K (Unit ⊕ Option (Option (Rigid.Isometry3 K)))))
        fun r g => Sum.elim (fun _ => g.Free)
          (fun acquired => if acquired.isSome then g.Free else g.released = true) r :=
    safe_bind h fun _ _ hg => safe_return (by simpa [Over] using hg)
  unfold undockAcquisitionPass
  refine safe_ite (fun _ => safe_return h) fun _ => ?_
  refine safe_neutral h rfl nofun fun a g h _ => ?_
  dsimp only
  split
  · exact safe_return h
  refine safe_interrupted h (fun g' h hc => ?_) (fun g hw => ?_) fun g h _ => ?_
  · refine safe_bind (R := fun _ g' => g'.Free ∧ g'.clock = g.clock) ?_ fun b g' hg => ?_
    · exact safe_call (h.allows_neutral rfl nofun) fun a => ⟨h.next_neutral rfl a, hc⟩
    · split
      · exact safe_return hg
      · exact (safe_currentlyInvalid hg.1).mono fun _ _ h => ⟨h.1, h.2.trans hg.2⟩
  · refine safe_cause hw (fun g h => ?_) fun code g hw hc => ended (safe_finishUndock hw hc)
    refine safe_bind (safe_currentlyInvalid h) fun b g h => ?_
    split
    · exact safe_return h.1
    · exact safe_return h.1
  simp only [Bool.false_eq_true, if_false]
  refine safe_neutral h rfl nofun fun now g h _ => ?_
  refine safe_ite (fun _ => ended ?_) fun _ => ?_
  · exact safe_finishUndock h.toWorking fun hb => absurd hb h.unbound
  refine safe_neutral h rfl nofun fun _ g h _ => ?_
  exact safe_neutral h rfl nofun fun _ g h _ => safe_return h

theorem safe_undockPass {undockStart start : TimePoint} {initial : Rigid.Isometry3 K}
    {running : Bool} {r : Retreat K} (h : g.Free) :
    (conduct K).Safe g (undockPass m settings undockStart start initial running r) Passed := by
  obtain ⟨result, control⟩ := r
  unfold undockPass
  dsimp only
  refine safe_ite (fun _ => safe_finishedUndock h) fun _ => ?_
  refine safe_interrupted h (fun g' h hc => ?_) (fun g hw => ?_) fun g h _ => ?_
  · exact safe_call (h.allows_neutral rfl nofun) fun a => ⟨h.next_neutral rfl a, hc⟩
  · exact safe_cause hw (fun g h => safe_return h) fun code g hw hc =>
      safe_left (safe_finishUndock hw hc)
  simp only [Bool.false_eq_true, if_false]
  refine safe_neutral h rfl nofun fun now g h _ => ?_
  refine safe_ite (fun _ => safe_finishedUndock h) fun _ => ?_
  refine safe_neutral h rfl nofun fun a g h _ => ?_
  split
  · refine safe_ite (fun _ => safe_finishedUndock h) fun _ => ?_
    refine safe_steadyNow h fun controlTime g h hclock => ?_
    split
    · refine safe_neutral h rfl (by rintro t ⟨⟩; exact hclock) fun _ g h _ => ?_
      refine safe_neutral h rfl nofun fun _ g h _ => ?_
      refine safe_ite (fun _ => safe_succeeded h) fun _ => ?_
      exact safe_neutral h rfl nofun fun _ g h _ => safe_return h
    · exact safe_finishedUndock h
  · exact safe_finishedUndock h

theorem safe_executeUndock {goal : Undock.Goal} (h : g.Free) :
    (conduct K).Safe g (executeUndock m settings goal) Over := by
  unfold executeUndock
  refine safe_neutral h rfl nofun fun state g h _ => ?_
  refine safe_neutral h rfl nofun fun resolved g h _ => ?_
  split
  · refine safe_neutral h rfl nofun fun a g h _ => ?_
    obtain ⟨profile, instanceId⟩ := a
    dsimp only
    refine safe_neutral h rfl nofun fun _ g h _ => ?_
    refine safe_navigationActive h.toWorking (fun g' hw _ => ?_) fun g' h _ => ?_
    · exact safe_finishUndock hw fun _ => rfl
    simp only [Bool.false_eq_true, if_false]
    refine safe_ite (fun _ => ?_) fun _ => ?_
    · exact safe_finishUndock h.toWorking fun hb => absurd hb h.unbound
    split
    · refine safe_neutral h rfl nofun fun start g h _ => ?_
      refine safe_neutral h rfl nofun fun _ g h _ => ?_
      exact safe_whileOk h fun _ g running h => safe_timedPass h
    · refine safe_neutral h rfl nofun fun undockStart g h _ => ?_
      refine safe_neutral h rfl nofun fun acquisitionStart g h _ => ?_
      refine safe_bind (safe_whileOk h fun _ g running h => safe_undockAcquisitionPass h)
        fun acquired g hg => ?_
      split
      · refine safe_neutral hg rfl nofun fun running g h _ => ?_
        refine safe_ite (fun _ => ?_) fun _ => ?_
        · exact safe_finishUndock h.toWorking fun hb => absurd hb h.unbound
        refine safe_neutral h rfl nofun fun _ g h _ => ?_
        refine safe_neutral h rfl nofun fun start g h _ => ?_
        refine safe_neutral h rfl nofun fun previousControlTime g h _ => ?_
        exact safe_whileOk h fun _ g running h => safe_undockPass h
      · rename_i hnone
        cases acquired with
        | none => exact safe_return hg
        | some initial => exact absurd rfl (hnone initial)
  · exact safe_finishUndock h.toWorking fun hb => absurd hb h.unbound

end Undocking

theorem free_start : Conduct.start.Free :=
  ⟨⟨rfl, rfl, .inl rfl⟩, by simp [Conduct.Bound, Conduct.start]⟩

/-- Every body, from its start. -/
theorem safe_body [Field K] [LinearOrder K] (m : Libm K) (settings : Settings K) (goal : Goal K) :
    (conduct K).Safe .start (body m settings goal) Over := by
  cases goal with
  | fineAlign goal => exact safe_execute free_start
  | undock goal => exact safe_executeUndock free_start
  | rotate goal => exact safe_executeRotate free_start

end X2Navigation.FineAlignServer
