import X2Navigation.Server.Restraint

/-! The deadlines of the motions that are not steered. A rotation and a timed retreat
command the same velocity until a time is over. Every command carries the reading that
was checked against the deadline; the first command is not checked, and the start of a
retreat is read before its first pass. -/

namespace X2Navigation.FineAlignServer

open Interaction Program

variable {K : Type}

/-- What an operation has read: the first active profile, the last time, the start (the
time read before the alignment became active), the first time read after that, and the
time of the first rotation command. -/
structure Stopwatch (K : Type) where
  profile : Option (DockingProfile K)
  reading : Option TimePoint
  start : Option TimePoint
  first : Option TimePoint
  rotation : Option TimePoint

namespace Stopwatch

def new : Stopwatch K := ⟨none, none, none, none, none⟩

def next (w : Stopwatch K) : (o : Op K) → o.Answer → Stopwatch K
  | .activeProfile, (profile, _) => { w with profile := w.profile.or (some profile) }
  | .steadyNow, now =>
    { w with reading := some now, first := w.first.or (w.start.map fun _ => now) }
  | .setAlignmentActive true, _ => { w with start := w.start.or w.reading }
  | .writeRotation _ time, _ => { w with rotation := w.rotation.or (some time) }
  | _, _ => w

end Stopwatch

variable [Field K] [LinearOrder K] (settings : Settings K)

/-- The deadline of a timed retreat. -/
def reverseLimit (profile : DockingProfile K) : K :=
  min profile.timedReverseDuration settings.undockTimeout

/-- What a rotation may do. -/
def Rotates (goal : RotateInPlace.Goal K) (w : Stopwatch K) : Op K → Prop
  | .writeCommand _ _ => False
  | .writeRotation _ time => elapsed time (w.rotation.getD time) < goal.duration.value
  | .terminate .succeed result =>
    ∃ r, result = .rotate r ∧ goal.duration.value ≤ r.elapsedTime
  | _ => True

/-- What a timed retreat may do. -/
def Reverses (profile : DockingProfile K) (w : Stopwatch K) : Op K → Prop
  | .writeCommand _ time => ∃ t start first, time = some t ∧ w.start = some start ∧
      w.first = some first ∧ (t = first ∨ elapsed t start < reverseLimit settings profile)
  | .writeRotation _ _ => False
  | .terminate .succeed result => profile.timedReverseDuration ≤ settings.undockTimeout ∧
      ∃ r, result = .undock r ∧ profile.timedReverseDuration ≤ r.elapsedTime
  | _ => True

/-- What the body of a goal may do by the stopwatch. -/
def punctual (goal : Goal K) (w : Stopwatch K) (o : Op K) : Prop :=
  match goal with
  | .fineAlign _ => True
  | .undock _ => (w.profile = none → o.command? = none ∧ o.Succeeds = false) ∧
      ∀ profile ∈ w.profile, profile.undockMode = .timedReverse → Reverses settings profile w o
  | .rotate goal => Rotates goal w o

abbrev punctuality (goal : Goal K) : Discipline (interface K) :=
  ⟨Stopwatch K, punctual settings goal, Stopwatch.next⟩

variable {settings} {w : Stopwatch K}

/-- Only commands and successes are checked. -/
theorem punctual_of_quiet (goal : Goal K) {o : Op K} (hcommand : o.command? = none)
    (hsucceeds : o.Succeeds = false) : punctual settings goal w o := by
  obtain ⟨hrotates, hreverses⟩ : (∀ goal, Rotates goal w o) ∧
      ∀ profile, Reverses settings profile w o := by
    cases o with
    | writeCommand command time => cases hcommand
    | writeRotation angularSpeed time => cases hcommand
    | terminate outcome result => cases outcome with
      | succeed => cases hsucceeds
      | _ => exact ⟨fun _ => trivial, fun _ => trivial⟩
    | _ => exact ⟨fun _ => trivial, fun _ => trivial⟩
  cases goal with
  | fineAlign goal => trivial
  | undock goal => exact ⟨fun _ => ⟨hcommand, hsucceeds⟩, fun profile _ _ => hreverses profile⟩
  | rotate goal => exact hrotates goal

theorem punctual_still {goal : Goal K} {α : Type} {p : Operation K α}
    (hp : All (Op.IsStill · = true) p) : (punctuality settings goal).Safe w p fun _ _ => True :=
  (silent_of_still hp).safe (I := fun _ => True)
    (fun _ _ ho _ => ⟨punctual_of_quiet goal ho.1 ho.2.2, fun _ => trivial⟩) trivial

theorem punctual_stopAlignment {goal : Goal K} :
    (punctuality settings goal).Safe w stopAlignment fun _ w' => w' = w := by
  refine Discipline.safe_act_bind.mpr ⟨fun _ => punctual_of_quiet goal rfl rfl, fun _ => ?_⟩
  refine Discipline.safe_act_bind.mpr ⟨fun _ => punctual_of_quiet goal rfl rfl, fun _ => ?_⟩
  refine Discipline.safe_perform.mpr ⟨fun _ => punctual_of_quiet goal rfl rfl, fun _ => ?_⟩
  exact Discipline.safe_pure.mpr rfl

/-! ### Rotation in place -/

section Rotation
variable {goal : RotateInPlace.Goal K} {result : RotateInPlace.Result K} {code : RotateInPlace.Code}
  {message : String}

theorem punctual_finishRotate (h : code = .success → goal.duration.value ≤ result.elapsedTime) :
    (punctuality settings (.rotate goal)).Safe w (finishRotate result code message)
      fun _ _ => True := by
  refine punctual_stopAlignment.bind fun _ w _ => ?_
  refine Discipline.safe_act_bind.mpr ⟨fun _ => ?_, fun _ => punctual_still (still_call rfl)⟩
  cases code with
  | success => exact ⟨_, rfl, h rfl⟩
  | _ => trivial

/-- A pass that goes on has written a command before the deadline. -/
theorem punctual_rotationPass (hpos : 0 < goal.duration.value) {running : Bool} {r : Rotating K}
    (h : w.rotation = r.2) :
    (punctuality settings (.rotate goal)).Safe w (rotationPass goal running r)
      fun r w => Sum.elim (fun r : Rotating K => w.rotation = r.2) (fun _ => True) r := by
  obtain ⟨result, start⟩ := r
  obtain rfl : w.rotation = start := h
  have leave : ∀ {w : Stopwatch K} {result : RotateInPlace.Result K} {code : RotateInPlace.Code}
      {message : String}, (code = .success → goal.duration.value ≤ result.elapsedTime) →
      (punctuality settings (.rotate goal)).Safe w
        (do finishRotate result code message; return (.inr () : Rotating K ⊕ Unit))
        fun r w => Sum.elim (fun r : Rotating K => w.rotation = r.2) (fun _ => True) r :=
    fun hcode => (punctual_finishRotate hcode).bind fun _ _ _ => Discipline.safe_pure.mpr trivial
  refine Discipline.safe_ite (fun _ => leave nofun) fun _ => ?_
  refine Discipline.safe_act_bind.mpr ⟨fun _ => trivial, fun now => ?_⟩
  refine Discipline.safe_act_bind.mpr ⟨fun _ => trivial, fun stopped => ?_⟩
  refine Discipline.safe_act_bind.mpr ⟨fun _ => trivial, fun canceling => ?_⟩
  refine Discipline.safe_ite (fun _ => leave nofun) fun _ => ?_
  refine Discipline.safe_act_bind.mpr ⟨fun _ => trivial, fun navigation => ?_⟩
  refine Discipline.safe_ite (fun _ => leave nofun) fun _ => ?_
  refine Discipline.safe_act_bind.mpr ⟨fun _ => trivial, fun state => ?_⟩
  refine Discipline.safe_ite (fun _ => leave nofun) fun _ => ?_
  refine Discipline.safe_ite (fun _ => leave nofun) fun _ => ?_
  refine Discipline.safe_ite (fun hdone => leave fun _ => ?_) fun hrunning => ?_
  · rw [Bool.and_eq_true, decide_eq_true_eq] at hdone
    exact hdone.2
  have hbefore : elapsed now (w.rotation.getD now) < goal.duration.value := by
    cases hstart : w.rotation with
    | none => simpa [elapsed] using hpos
    | some start =>
      rw [hstart] at hrunning
      simpa using hrunning
  refine Discipline.safe_act_bind.mpr ⟨fun _ => hbefore, fun _ => ?_⟩
  refine Discipline.safe_act_bind.mpr ⟨fun _ => trivial, fun _ => ?_⟩
  refine Discipline.safe_act_bind.mpr ⟨fun _ => trivial, fun _ => Discipline.safe_pure.mpr ?_⟩
  show w.rotation.or (some now) = some (w.rotation.getD now)
  cases w.rotation <;> rfl

theorem punctual_executeRotate (goal : RotateInPlace.Goal K) :
    (punctuality settings (.rotate goal)).Safe .new (executeRotate settings goal)
      fun _ _ => True := by
  refine Discipline.safe_ite (fun _ => punctual_finishRotate nofun) fun hvalid => ?_
  have hpos : 0 < goal.duration.value := by
    simp only [invalidRotation, Bool.or_eq_true, decide_eq_true_eq, not_or, not_le] at hvalid
    exact hvalid.1.2
  refine Discipline.safe_repeatWhile (fun (r : Rotating K) (w : Stopwatch K) => w.rotation = r.2) (fun _ _ _ => trivial) ?_ rfl
  intro r w running h
  exact punctual_rotationPass hpos h

end Rotation

/-! ### Timed retreat -/

section Retreat
variable {goal : Undock.Goal} {profile : DockingProfile K}

omit [Field K] [LinearOrder K] in
theorem safe_either {D : Discipline (interface K)} {g : D.Ghost} {p q : Operation K Bool}
    (hp : D.Safe g p fun _ g' => g' = g) (hq : D.Safe g q fun _ g' => g' = g) :
    D.Safe g (either p q) fun _ g' => g' = g := by
  refine hp.bind fun first g' h => ?_
  subst h
  exact Discipline.safe_ite (fun _ => Discipline.safe_pure.mpr rfl) fun _ => hq

theorem punctual_of_profile (goal : Undock.Goal) (hprofile : w.profile = some profile) {o : Op K}
    (h : profile.undockMode = .timedReverse → Reverses settings profile w o) :
    punctual settings (.undock goal) w o := by
  refine ⟨fun hnone => ?_, fun profile' hprofile' htimed => ?_⟩
  · rw [hprofile] at hnone
    cases hnone
  · obtain rfl : profile = profile' := Option.some.inj (hprofile.symm.trans hprofile')
    exact h htimed

/-- How the stopwatch stands before a pass of the retreat: the first time is read with the
first command. -/
structure Stopwatch.Times (profile : DockingProfile K) (start : TimePoint) (commanded : Bool)
    (w : Stopwatch K) : Prop where
  profile : w.profile = some profile
  start : w.start = some start
  first : w.first.isSome = commanded

/-- A command that passes the checks of the pass keeps the deadline, or is the first. -/
theorem reverses_write {start now : TimePoint} {commanded : Bool} {command : Twist K}
    (h : w.Times profile start commanded)
    (htimeout : ¬ (settings.undockTimeout < profile.timedReverseDuration ∧
      settings.undockTimeout ≤ if commanded then elapsed now start else 0))
    (hduration : ¬ profile.timedReverseDuration ≤ if commanded then elapsed now start else 0) :
    Reverses settings profile (w.next .steadyNow now) (.writeCommand command (some now)) := by
  obtain ⟨-, hstart, hfirst⟩ := h
  cases commanded with
  | false =>
    have hnone : w.first = none := by simpa using hfirst
    refine ⟨now, start, now, rfl, hstart, ?_, .inl rfl⟩
    simp [Stopwatch.next, hnone, hstart]
  | true =>
    obtain ⟨first, hsome⟩ := Option.isSome_iff_exists.mp hfirst
    refine ⟨now, start, first, rfl, hstart, by simp [Stopwatch.next, hsome], .inr ?_⟩
    simp only [if_true, not_and, not_le] at htimeout hduration
    refine lt_min hduration ?_
    by_cases hshort : settings.undockTimeout < profile.timedReverseDuration
    · exact htimeout hshort
    · exact hduration.trans_le (not_lt.mp hshort)

theorem punctual_timedPass {start : TimePoint}
    {running : Bool} {r : Reversing K} (h : w.Times profile start r.2) :
    (punctuality settings (.undock goal)).Safe w (timedPass settings profile start running r)
      fun r w => Sum.elim (fun r : Reversing K => w.Times profile start r.2) (fun _ => True) r := by
  obtain ⟨result, commanded⟩ := r
  have leave : ∀ {w : Stopwatch K} {result : Undock.Result K} {code : Undock.Code} {message : String},
      (punctuality settings (.undock goal)).Safe w
        (do finishUndock result code message; return (.inr () : Reversing K ⊕ Unit))
        fun r w => Sum.elim (fun r : Reversing K => w.Times profile start r.2) (fun _ => True) r :=
    (punctual_still (still_finishUndock _ _ _)).bind fun _ _ _ => Discipline.safe_pure.mpr trivial
  refine Discipline.safe_ite (fun _ => leave) fun _ => ?_
  refine Discipline.safe_act_bind.mpr ⟨fun _ => punctual_of_quiet (.undock goal) rfl rfl, fun now => ?_⟩
  refine Discipline.safe_act_bind.mpr ⟨fun _ => punctual_of_quiet (.undock goal) rfl rfl, fun state => ?_⟩
  refine Discipline.safe_act_bind.mpr ⟨fun _ => punctual_of_quiet (.undock goal) rfl rfl, fun stopped => ?_⟩
  have hinterrupted : (punctuality settings (.undock goal)).Safe (w.next .steadyNow now)
      (either isCanceling <| either navigationActive <|
        (return stopped || !validState state : Operation K Bool))
      fun _ w' => w' = w.next .steadyNow now := by
    refine safe_either ?_ (safe_either ?_ (Discipline.safe_pure.mpr rfl))
    · refine Discipline.safe_perform.mpr ⟨fun _ => punctual_of_quiet (.undock goal) rfl rfl, fun _ => ?_⟩
      exact Discipline.safe_pure.mpr rfl
    · refine Discipline.safe_perform.mpr ⟨fun _ => punctual_of_quiet (.undock goal) rfl rfl, fun _ => ?_⟩
      exact Discipline.safe_pure.mpr rfl
  refine hinterrupted.bind fun interrupted w' hw' => ?_
  subst hw'
  refine Discipline.safe_ite (fun _ => ?_) fun _ => ?_
  · refine (punctual_still (all_choose (still_call rfl)
      (all_choose (still_call rfl) (all_pure _)))).bind fun code _ _ => leave
  refine Discipline.safe_ite (fun _ => leave) fun htimeout => ?_
  refine Discipline.safe_ite (fun hduration => ?_) fun hduration => ?_
  · refine punctual_stopAlignment.bind fun _ w' hw' => ?_
    subst hw'
    refine Discipline.safe_act_bind.mpr ⟨fun _ => ?_, fun _ => ?_⟩
    · refine punctual_of_profile goal h.profile fun _ => ?_
      refine ⟨?_, _, rfl, hduration⟩
      by_contra hshort
      rw [not_le] at hshort
      exact htimeout ⟨hshort, hshort.le.trans hduration⟩
    · refine (punctual_still (still_call rfl)).bind fun _ _ _ => ?_
      exact Discipline.safe_pure.mpr trivial
  refine Discipline.safe_act_bind.mpr ⟨fun _ => ?_, fun _ => ?_⟩
  · have hprofile : (w.next .steadyNow now).profile = some profile := h.profile
    exact punctual_of_profile goal hprofile fun _ => reverses_write h htimeout hduration
  refine Discipline.safe_act_bind.mpr ⟨fun _ => punctual_of_quiet (.undock goal) rfl rfl, fun _ => ?_⟩
  refine Discipline.safe_act_bind.mpr ⟨fun _ => punctual_of_quiet (.undock goal) rfl rfl, fun _ => ?_⟩
  refine Discipline.safe_pure.mpr ⟨h.profile, h.start, ?_⟩
  show (w.first.or (w.start.map fun _ => now)).isSome = true
  rw [h.start]
  cases w.first <;> rfl

theorem punctual_executeTimedUndock {result : Undock.Result K} (hprofile : w.profile = some profile)
    (hstart : w.start = none) (hfirst : w.first = none) :
    (punctuality settings (.undock goal)).Safe w (executeTimedUndock settings result profile)
      fun _ _ => True := by
  refine Discipline.safe_act_bind.mpr ⟨fun _ => punctual_of_quiet (.undock goal) rfl rfl, fun start => ?_⟩
  refine Discipline.safe_act_bind.mpr ⟨fun _ => punctual_of_quiet (.undock goal) rfl rfl, fun _ => ?_⟩
  refine Discipline.safe_repeatWhile
    (fun (r : Reversing K) (w : Stopwatch K) => w.Times profile start r.2)
    (fun _ _ _ => punctual_of_quiet (.undock goal) rfl rfl) (fun r w running h => punctual_timedPass h) ?_
  refine ⟨hprofile, ?_, ?_⟩
  · show w.start.or (some start) = some start
    rw [hstart]
    rfl
  · show (w.first.or (w.start.map fun _ => start)).isSome = false
    rw [hfirst, hstart]
    rfl

omit [Field K] [LinearOrder K] in
theorem profile_next (h : w.profile = some profile) {o : Op K} (a : o.Answer) :
    (w.next o a).profile = some profile := by
  cases o with
  | activeProfile =>
    show w.profile.or _ = some profile
    rw [h]
    rfl
  | setAlignmentActive active => cases active <;> exact h
  | _ => exact h

/-- A retreat by the tag is not checked. -/
theorem punctual_undockTagRelative {m : Libm K} {validating : Undock.Feedback K}
    {result : Undock.Result K} (hprofile : w.profile = some profile)
    (hmode : profile.undockMode = .tagRelative) :
    (punctuality settings (.undock goal)).Safe w (undockTagRelative m settings validating result)
      fun _ _ => True := by
  have hall : All Op.Later (undockTagRelative m settings validating result) :=
    later_undockTagRelative _ _
  refine Discipline.Safe.mono (hall.safe (I := fun w : Stopwatch K => w.profile = some profile)
    (fun w o _ hw => ⟨?_, fun a => profile_next hw a⟩) hprofile) fun _ _ _ => trivial
  refine punctual_of_profile goal hw fun htimed => ?_
  rw [hmode] at htimed
  cases htimed

end Retreat

/-- Every body keeps its deadlines. -/
theorem punctual_body {m : Libm K} (goal : X2Navigation.Goal K) :
    (punctuality settings goal).Safe .new (body m settings goal) fun _ _ => True := by
  cases goal with
  | rotate goal => exact punctual_executeRotate goal
  | fineAlign goal => exact Discipline.safe_of_allows (fun _ _ => trivial) _
  | undock goal =>
    refine Discipline.safe_act_bind.mpr ⟨fun _ => punctual_of_quiet (.undock goal) rfl rfl, fun state => ?_⟩
    refine Discipline.safe_act_bind.mpr ⟨fun _ => punctual_of_quiet (.undock goal) rfl rfl, fun resolved => ?_⟩
    cases resolved with
    | none => exact punctual_still (still_finishUndock _ _ _)
    | some profileId =>
      refine Discipline.safe_act_bind.mpr ⟨fun _ => punctual_of_quiet (.undock goal) rfl rfl,
        fun (profile, instanceId) => ?_⟩
      refine Discipline.safe_act_bind.mpr ⟨fun _ => punctual_of_quiet (.undock goal) rfl rfl, fun _ => ?_⟩
      refine Discipline.safe_act_bind.mpr ⟨fun _ => punctual_of_quiet (.undock goal) rfl rfl,
        fun navigation => ?_⟩
      refine Discipline.safe_ite (fun _ => punctual_still (still_finishUndock _ _ _)) fun _ => ?_
      refine Discipline.safe_ite (fun _ => punctual_still (still_finishUndock _ _ _)) fun _ => ?_
      dsimp only
      split
      · exact punctual_executeTimedUndock rfl rfl rfl
      · next hmode => exact punctual_undockTagRelative rfl hmode

end X2Navigation.FineAlignServer
