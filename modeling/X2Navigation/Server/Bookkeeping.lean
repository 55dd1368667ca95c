import X2Navigation.Server.Restraint
import X2Navigation.Server.State

/-! What is kept of docks. An activation resolves a profile and binds its target, which
replaces the active one; only a fine alignment that was executed and succeeds records
what is active as the last dock, and an undocking without a profile resolves to that. -/

namespace X2Navigation.FineAlignServer

open Interaction Program

variable {K : Type}

/-! ### The books of an acquisition -/

/-- What docks a robot to: a profile with its tag, and the instance of a box. -/
abbrev DockTarget (K : Type) := DockingProfile K × String

section Books
variable [Field K] [LinearOrder K]

/-- A target of a profile that the node knows: a tag profile as it is, or a box profile
with a tag of its own. -/
structure Registered (node : Node K) (target : DockTarget K) : Prop where
  named : ∃ profile, node.profiles.named target.1.name = some profile ∧
    (profile.targetSource = .tag → target = (profile, ""))
  name : target.1.name ≠ ""

/-- What the acquisition remembers of the last dock. -/
def Remembers (node : Node K) (a : Acquisition K) : Option (DockTarget K) → Prop
  | none => a.lastDockedProfile = "" ∧ a.lastDockedTarget = none ∧ a.lastDockedInstance = ""
  | some target => Registered node target ∧ a.lastDockedProfile = target.1.name ∧
      a.lastDockedTarget = some target.1 ∧ a.lastDockedInstance = target.2

def Acquisition.active (a : Acquisition K) : DockTarget K := (a.activeProfile, a.activeInstanceId)

variable {node : Node K} {a a' : Acquisition K} {rosNow : TimePoint} {requested instanceId : String}
  {undocking : Bool} {answer : Option String}

omit [Field K] [LinearOrder K] in
theorem name_of_bindBoxDockingProfile {profile target : DockingProfile K} {instanceId tagFrame : String}
    (h : bindBoxDockingProfile profile instanceId tagFrame = some target) :
    target.name = profile.name := by
  unfold bindBoxDockingProfile at h
  split at h
  · cases h
  · dsimp only at h
    split at h
    · split at h
      · cases h
      · obtain rfl := Option.some.inj h
        rfl
    · cases h

/-- What an activation can do. -/
theorem activateProfile_cases
    (h : a.activateProfile node rosNow requested undocking instanceId = some (answer, a')) :
    (answer = none ∧ a'.lastDockedProfile = a.lastDockedProfile ∧
        a'.lastDockedTarget = a.lastDockedTarget ∧ a'.lastDockedInstance = a.lastDockedInstance) ∨
      ∃ selection box profile target boundInstance,
        a.selectProfile node rosNow requested undocking instanceId = some (some (selection, box)) ∧
        node.profiles.resolve selection node.defaultProfile
          (if undocking then a.lastDockedProfile else "") = some profile ∧
        Acquisition.bindTarget profile undocking instanceId box
          { a with activeProfile := profile, activeInstanceId := "" } = some (target, boundInstance) ∧
        answer = some target.name ∧ a' = Acquisition.activate rosNow target boundInstance
          { a with activeProfile := profile, activeInstanceId := "" } := by
  unfold Acquisition.activateProfile at h
  split at h
  · cases h
  · obtain ⟨rfl, rfl⟩ := Prod.mk.inj (Option.some.inj h)
    exact .inl ⟨rfl, rfl, rfl, rfl⟩
  · next selection box hselect =>
    split at h
    · obtain ⟨rfl, rfl⟩ := Prod.mk.inj (Option.some.inj h)
      exact .inl ⟨rfl, rfl, rfl, rfl⟩
    · next profile hresolve =>
      dsimp only at h
      split at h
      · obtain ⟨rfl, rfl⟩ := Prod.mk.inj (Option.some.inj h)
        exact .inl ⟨rfl, rfl, rfl, rfl⟩
      · next target boundInstance hbind =>
        obtain ⟨rfl, rfl⟩ := Prod.mk.inj (Option.some.inj h)
        exact .inr ⟨selection, box, profile, target, boundInstance, hselect, hresolve, hbind, rfl, rfl⟩

/-- The profile of a resolved name. -/
theorem named_of_resolve {selection lastDocked : String} {profile : DockingProfile K}
    (h : node.profiles.resolve selection node.defaultProfile lastDocked = some profile) :
    node.profiles.named profile.name = some profile ∧ profile ∈ node.profiles := by
  obtain ⟨hmem, hname⟩ := DockingProfiles.named_eq_some h
  rw [DockingProfiles.resolve, ← hname] at h
  exact ⟨h, hmem⟩

/-- A target that is bound is registered. -/
theorem registered_of_bindTarget (hnames : ∀ profile ∈ node.profiles, profile.name ≠ "")
    {last : Option (DockTarget K)} (hlast : Remembers node a last) {profile target : DockingProfile K}
    {box : Option BoxState} {boundInstance : String}
    (hnamed : node.profiles.named profile.name = some profile ∧ profile ∈ node.profiles)
    (h : a.bindTarget profile undocking instanceId box = some (target, boundInstance)) :
    Registered node (target, boundInstance) := by
  have hself : Registered node (profile, "") := ⟨⟨profile, hnamed.1, fun _ => rfl⟩, hnames _ hnamed.2⟩
  unfold Acquisition.bindTarget at h
  split at h
  · split at h
    · obtain ⟨rfl, rfl⟩ := Prod.mk.inj (Option.some.inj h)
      exact hself
    · cases h
  · next hbox =>
    split at h
    · split at h
      · cases h
      · split at h
        · cases h
        · obtain ⟨bound, hbound, heq⟩ := Option.map_eq_some_iff.mp h
          obtain ⟨rfl, rfl⟩ := Prod.mk.inj heq
          have hname := name_of_bindBoxDockingProfile hbound
          refine ⟨⟨profile, ?_, fun htag => ?_⟩, ?_⟩
          · rw [hname]
            exact hnamed.1
          · rw [hbox] at htag
            cases htag
          · rw [hname]
            exact hnames _ hnamed.2
    · split at h
      · next docked hdocked =>
        obtain ⟨rfl, rfl⟩ := Prod.mk.inj (Option.some.inj h)
        cases last with
        | none =>
          rw [hlast.2.1] at hdocked
          cases hdocked
        | some recorded =>
          obtain ⟨hregistered, -, htarget, hinstance⟩ := hlast
          rw [htarget, Option.filter_eq_some_iff] at hdocked
          obtain rfl := Option.some.inj hdocked.1
          rwa [hinstance]
      · split at h
        · obtain ⟨rfl, rfl⟩ := Prod.mk.inj (Option.some.inj h)
          exact hself
        · cases h

/-- An activation leaves alone what is remembered, and a target that it resolves is
registered. -/
theorem activateProfile_registered (hnames : ∀ profile ∈ node.profiles, profile.name ≠ "")
    {last : Option (DockTarget K)} (hlast : Remembers node a last)
    (h : a.activateProfile node rosNow requested undocking instanceId = some (answer, a')) :
    Remembers node a' last ∧
      ∀ name, answer = some name → a'.activeProfile.name = name ∧ Registered node a'.active := by
  obtain ⟨rfl, hprofile, htarget, hinstance⟩ | ⟨selection, box, profile, target, boundInstance,
    -, hresolve, hbind, rfl, rfl⟩ := activateProfile_cases h
  · refine ⟨?_, fun name hname => by cases hname⟩
    cases last with
    | none => exact ⟨hprofile.trans hlast.1, htarget.trans hlast.2.1, hinstance.trans hlast.2.2⟩
    | some recorded =>
      exact ⟨hlast.1, hprofile.trans hlast.2.1, htarget.trans hlast.2.2.1,
        hinstance.trans hlast.2.2.2⟩
  · have hlast' : Remembers node { a with activeProfile := profile, activeInstanceId := "" } last := by
      cases last <;> exact hlast
    refine ⟨by cases last <;> exact hlast, fun name hname => ?_⟩
    obtain rfl := Option.some.inj hname
    exact ⟨rfl, registered_of_bindTarget hnames hlast' (named_of_resolve hresolve) hbind⟩

/-- An undocking without a profile resolves to what is remembered. -/
theorem activateProfile_remembered (rosNow : TimePoint) {recorded : DockTarget K} (hlast : Remembers node a (some recorded)) :
    ∃ a', a.activateProfile node rosNow "" true "" = some (some recorded.1.name, a') ∧
      a'.active = recorded := by
  obtain ⟨hregistered, hprofile, htarget, hinstance⟩ := hlast
  obtain ⟨profile, hnamed, htag⟩ := hregistered.named
  have hresolve : node.profiles.resolve "" node.defaultProfile a.lastDockedProfile = some profile := by
    have hempty : a.lastDockedProfile.isEmpty = false := by
      rw [hprofile]
      simpa using hregistered.name
    rw [DockingProfiles.resolve, if_pos (by rfl : "".isEmpty = true), hempty, if_neg Bool.false_ne_true, hprofile]
    exact hnamed
  have hname : profile.name = recorded.1.name := (DockingProfiles.named_eq_some hnamed).2
  have hbind : Acquisition.bindTarget profile true "" none
      { a with activeProfile := profile, activeInstanceId := "" } = some recorded := by
    unfold Acquisition.bindTarget
    split
    · next hsource =>
      rw [htag hsource]
      rfl
    · have hfilter : (a.lastDockedTarget.filter (·.name = profile.name)) = some recorded.1 := by
        rw [htarget, hname]
        simp
      simp only [hfilter, hinstance]
      rfl
  refine ⟨Acquisition.activate rosNow recorded.1 recorded.2
    { a with activeProfile := profile, activeInstanceId := "" }, ?_, rfl⟩
  simp only [Acquisition.activateProfile, Acquisition.selectProfile, Bool.true_or, if_true, hresolve]
  rw [hbind]

/-- With nothing to remember it resolves to the default profile, if it resolves. -/
theorem activateProfile_default (hlast : Remembers node a none)
    (h : a.activateProfile node rosNow "" true "" = some (answer, a')) :
    ∀ name, answer = some name →
      name = node.initialProfile.name ∧ a'.active = (node.initialProfile, "") := by
  obtain ⟨hprofile, htarget, -⟩ := hlast
  rintro name rfl
  obtain ⟨hnone, -⟩ | ⟨selection, box, profile, target, boundInstance, hselect, hresolve, hbind, hname,
    rfl⟩ := activateProfile_cases h
  · cases hnone
  obtain ⟨rfl, rfl⟩ := Prod.mk.inj (Option.some.inj (Option.some.inj hselect))
  rw [if_pos rfl, hprofile, node.resolved] at hresolve
  obtain rfl := Option.some.inj hresolve
  have hbound : (target, boundInstance) = (node.initialProfile, "") := by
    unfold Acquisition.bindTarget at hbind
    split at hbind
    · exact (Option.some.inj hbind).symm
    · simp only [htarget, Bool.not_true, Bool.false_eq_true, if_false, Option.filter_none] at hbind
      split at hbind
      · exact (Option.some.inj hbind).symm
      · cases hbind
  obtain ⟨rfl, rfl⟩ := Prod.mk.inj hbound
  exact ⟨Option.some.inj hname, rfl⟩

end Books

/-! ### What an operation books -/

/-- An activation has resolved a profile of the name. -/
def Resolved (past : List (OpEvent K)) (name : String) : Prop :=
  ∃ requested undocking instanceId,
    (⟨.activateProfile requested undocking instanceId, some name⟩ : OpEvent K) ∈ past

/-- The answers of activations. -/
def resolutions (done : List (OpEvent K)) : List (Option String) :=
  done.filterMap fun
    | ⟨.activateProfile _ _ _, answer⟩ => some answer
    | _ => none

theorem resolved_of_resolutions {done : List (OpEvent K)} {name : String}
    (h : some name ∈ resolutions done) : Resolved done name := by
  obtain ⟨⟨o, answer⟩, hmem, heq⟩ := List.mem_filterMap.mp h
  cases o with
  | activateProfile requested undocking instanceId =>
    cases heq
    exact ⟨requested, undocking, instanceId, hmem⟩
  | _ => cases heq

/-- A dock was recorded. -/
def Recorded (past : List (OpEvent K)) : Prop := ∃ e ∈ past, e.1.Records = true

/-- A success was reported. -/
def Reported (past : List (OpEvent K)) : Prop := ∃ e ∈ past, e.1.Succeeds = true

/-- Reads the active profile or changes what is known of docks. -/
def Op.Books (o : Op K) : Prop := o.Activates = true ∨ o.Records = true ∨ o = .activeProfile

/-- What the body of a goal may do after what it has done. -/
def booked (goal : Goal K) (past : List (OpEvent K)) : Op K → Prop
  | .activateProfile requested undocking instanceId =>
    goal.activation? = some (requested, undocking, instanceId) ∧ ∀ e ∈ past, ¬ e.1.Books
  | .recordDock profileId instanceId =>
    goal.executes = true ∧ ¬ Recorded past ∧ Resolved past profileId ∧
      ∃ profile, (⟨.activeProfile, (profile, instanceId)⟩ : OpEvent K) ∈ past
  | .terminate .succeed _ => goal.executes = true → Recorded past
  | .release => Recorded past → Reported past
  | _ => True

abbrev bookkeeping (goal : Goal K) : Discipline (interface K) := .ofPast (booked goal)

/-- What a fine alignment has read before it starts to move, and still no record. -/
structure Ready (profileId instanceId : String) (past : List (OpEvent K)) : Prop where
  unrecorded : ¬ Recorded past
  resolved : Resolved past profileId
  read : ∃ profile, (⟨.activeProfile, (profile, instanceId)⟩ : OpEvent K) ∈ past

section Discipline
variable {goal : Goal K} {past : List (OpEvent K)} {profileId instanceId : String}

theorem Recorded.of_snoc {e : OpEvent K} (h : Recorded (past ++ [e])) :
    Recorded past ∨ e.1.Records = true := by
  obtain ⟨x, hx, hrecords⟩ := h
  obtain hx | hx := List.mem_append.mp hx
  · exact .inl ⟨x, hx, hrecords⟩
  · obtain rfl := List.mem_singleton.mp hx
    exact .inr hrecords

theorem Ready.snoc (h : Ready profileId instanceId past) {e : OpEvent K}
    (he : e.1.Records = false) : Ready profileId instanceId (past ++ [e]) where
  unrecorded hrecorded := by
    obtain hold | hnew := hrecorded.of_snoc
    · exact h.unrecorded hold
    · rw [he] at hnew
      cases hnew
  resolved := by
    obtain ⟨requested, undocking, instanceId, hmem⟩ := h.resolved
    exact ⟨requested, undocking, instanceId, List.mem_append_left _ hmem⟩
  read := by
    obtain ⟨profile, hmem⟩ := h.read
    exact ⟨profile, List.mem_append_left _ hmem⟩

/-- Without a record, nothing but a success of what moves the robot needs one. -/
theorem booked_of_later {o : Op K} (ho : o.Later) (hsucceeds : goal.executes = true → o.Succeeds = false)
    (h : ¬ Recorded past) : booked goal past o := by
  obtain ⟨hactivates, hrecords⟩ := ho
  cases o with
  | activateProfile requested undocking instanceId => cases hactivates
  | recordDock profileId instanceId => cases hrecords
  | terminate outcome result =>
    cases outcome with
    | succeed =>
      intro hexecutes
      cases hsucceeds hexecutes
    | abort => trivial
    | canceled => trivial
  | release => exact fun hrecorded => absurd hrecorded h
  | _ => trivial

theorem safe_ready {α : Type} {p : Operation K α} (hp : All Op.Modest p)
    (h : Ready profileId instanceId past) :
    (bookkeeping goal).Safe past p fun _ past' => Ready profileId instanceId past' := by
  refine hp.safe (fun past o ho hready => ⟨?_, fun a => ?_⟩) h
  · exact booked_of_later ho.1 (fun _ => ho.2) hready.unrecorded
  · exact hready.snoc ho.1.2

/-- What neither activates nor records keeps the books of a goal that does not move the
robot to a dock. -/
theorem safe_unrecorded {α : Type} {p : Operation K α} (hp : All Op.Later p)
    (hgoal : goal.executes = true → All Op.Modest p) (h : ¬ Recorded past) :
    (bookkeeping goal).Safe past p fun _ _ => True := by
  have hall : All (fun o : Op K => o.Later ∧ (goal.executes = true → o.Succeeds = false)) p := by
    cases hexecutes : goal.executes with
    | true => exact (hgoal hexecutes).mono fun o ho => ⟨ho.1, fun _ => ho.2⟩
    | false => exact hp.mono fun o ho => ⟨ho, fun htrue => by cases htrue⟩
  refine Discipline.Safe.mono (hall.safe (I := fun past => ¬ Recorded past)
    (fun past o ho hnot => ⟨booked_of_later ho.1 ho.2 hnot, fun a hrecorded => ?_⟩) h)
    fun _ _ _ => trivial
  obtain hold | hnew := hrecorded.of_snoc
  · exact hnot hold
  · rw [ho.1.2] at hnew
    cases hnew

end Discipline

/-! ### The bodies keep their books -/

section Bodies
variable [Field K] [LinearOrder K] {m : Libm K} {settings : Settings K} {profileId instanceId : String}
  {past : List (OpEvent K)}

/-- A result is of a profile and an instance. -/
def IsOf (profileId instanceId : String) (result : FineAlign.Result K) : Prop :=
  result.profileId = profileId ∧ result.instanceId = instanceId

theorem yields_controlPass {start : TimePoint} {running : Bool} {a : Approach K}
    (h : IsOf profileId instanceId a.1) :
    Yields (Sum.elim (fun a : Approach K => IsOf profileId instanceId a.1)
      fun r : Attempted K => IsOf profileId instanceId r.1)
      (controlPass m settings start running a) := by
  obtain ⟨result, control⟩ := a
  refine yields_ite (fun _ => yields_pure h) fun _ => yields_act_bind fun canceling => ?_
  refine yields_ite (fun _ => yields_pure h) fun _ => yields_act_bind fun navigation => ?_
  refine yields_ite (fun _ => yields_pure h) fun _ => yields_act_bind fun stopped => ?_
  refine yields_ite (fun _ => yields_pure h) fun _ => yields_act_bind fun now => ?_
  refine yields_ite (fun _ => yields_pure h) fun _ => yields_act_bind fun (state, measurement) => ?_
  cases measurement with
  | none => exact yields_pure h
  | some x =>
  refine yields_ite (fun _ => yields_pure h) fun _ => yields_ite (fun _ => yields_pure h) fun _ => ?_
  refine yields_act_bind fun controlTime => ?_
  dsimp only
  split
  rotate_left
  · exact yields_pure h
  · refine yields_act_bind fun _ => yields_act_bind fun _ => yields_ite (fun _ => yields_pure h) fun _ => ?_
    exact yields_act_bind fun _ => yields_pure h

/-- An attempt leaves the profile and the instance in the result. -/
theorem yields_runAttempt {goal : FineAlign.Goal} {result : FineAlign.Result K}
    {minimumSequence : ℕ} {stage : FineAlign.Stage} (h : IsOf profileId instanceId result) :
    Yields (fun r : Attempted K => IsOf profileId instanceId r.1)
      (runAttempt m settings goal result minimumSequence stage) := by
  refine (yields_any _).bind fun measured _ => ?_
  cases measured with
  | none =>
    refine yields_act_bind fun canceling => yields_ite (fun _ => yields_pure h) fun _ => ?_
    refine yields_act_bind fun navigation => yields_ite (fun _ => yields_pure h) fun _ => ?_
    exact yields_act_bind fun running => yields_ite (fun _ => yields_pure h) fun _ => yields_pure h
  | some x =>
    obtain ⟨state, x⟩ := x
    refine yields_ite (fun _ => yields_pure h) fun _ => yields_ite (fun _ => yields_pure h) fun _ => ?_
    refine yields_ite (fun _ => yields_pure h) fun _ => yields_act_bind fun _ => ?_
    refine yields_act_bind fun start => yields_act_bind fun previousControlTime => ?_
    exact yields_repeatWhile (fun a => IsOf profileId instanceId a.1)
      (fun running a ha => yields_controlPass ha) h

/-- The discipline of a fine alignment. -/
abbrev aligning (K : Type) (goal : FineAlign.Goal) : Discipline (interface K) :=
  bookkeeping (.fineAlign goal)

variable {goal : FineAlign.Goal}

omit [Field K] [LinearOrder K] in
theorem booked_finishAligned {attempt maximumAttempts : ℕ} {result : FineAlign.Result K}
    (h : IsOf profileId instanceId result) (hready : Ready profileId instanceId past) :
    (aligning K goal).Safe past (finishAligned goal attempt maximumAttempts result)
      fun _ _ => True := by
  refine (safe_ready (modest_of_still still_stopAlignment) hready).bind fun _ past hready => ?_
  refine Discipline.safe_ite (fun hexecute => ?_) fun hmeasures => ?_
  · refine Discipline.safe_act_bind.mpr ⟨fun _ => ?_, fun _ => ?_⟩
    · obtain ⟨rfl, rfl⟩ := h
      exact ⟨hexecute, hready.unrecorded, hready.resolved, hready.read⟩
    have hrecorded : Recorded
        (past ++ [(⟨.recordDock result.profileId result.instanceId, ()⟩ : OpEvent K)]) :=
      ⟨_, List.mem_append_right _ (List.mem_singleton.mpr rfl), rfl⟩
    refine Discipline.safe_act_bind.mpr ⟨fun _ _ => hrecorded, fun _ => ?_⟩
    refine Discipline.safe_perform.mpr ⟨fun _ _ => ?_, fun _ => Discipline.safe_pure.mpr trivial⟩
    exact ⟨_, List.mem_append_right _ (List.mem_singleton.mpr rfl), rfl⟩
  · refine Discipline.safe_act_bind.mpr ⟨fun _ hexecute => absurd hexecute hmeasures, fun _ => ?_⟩
    refine Discipline.safe_perform.mpr ⟨fun _ hrecorded => ?_, fun _ => Discipline.safe_pure.mpr trivial⟩
    obtain hold | hnew := hrecorded.of_snoc
    · exact absurd hold hready.unrecorded
    · cases hnew

theorem booked_attempts {maximumAttempts remaining minimumSequence : ℕ}
    {result : FineAlign.Result K} (h : IsOf profileId instanceId result)
    (hready : Ready profileId instanceId past) :
    (aligning K goal).Safe past
      (attempts m settings goal maximumAttempts remaining result minimumSequence) fun _ _ => True := by
  have quiet : ∀ {past : List (OpEvent K)} {p : Operation K Unit}, All (Op.IsStill · = true) p →
      Ready profileId instanceId past → (aligning K goal).Safe past p fun _ _ => True :=
    fun hp hready => (safe_ready (modest_of_still hp) hready).mono fun _ _ _ => trivial
  induction remaining generalizing past result minimumSequence with
  | zero => exact Discipline.safe_pure.mpr trivial
  | succ remaining ih =>
    have hdelay : All Op.Modest (waitBeforeAttempt settings (maximumAttempts - remaining) result) :=
      modest_of_still (all_ite (fun _ => still_waitForRetryDelay _) fun _ => trivial)
    refine (safe_ready hdelay hready).bind fun go past hready => ?_
    refine Discipline.safe_ite (fun _ => quiet (still_finishInterrupted _) hready) fun _ => ?_
    refine ((safe_ready (modest_runAttempt _ _ _ _) hready).and_yields (yields_runAttempt h)).bind
      fun (result, failure) past hattempt => ?_
    obtain ⟨hready, h⟩ := hattempt
    cases failure with
    | none => exact booked_finishAligned h hready
    | some failure =>
      refine (safe_ready (modest_of_still still_stopAlignment) hready).bind fun _ past hready => ?_
      refine Discipline.safe_act_bind.mpr ⟨fun _ => trivial, fun canceling => ?_⟩
      have hready : Ready profileId instanceId (past ++ [⟨.isCanceling, canceling⟩]) := hready.snoc rfl
      refine Discipline.safe_ite (fun _ => quiet (still_finishCanceledOrFailed _ _ _) hready) fun _ => ?_
      refine Discipline.safe_ite (fun _ => quiet (still_finish _ _ _) hready) fun _ => ?_
      refine Discipline.safe_act_bind.mpr ⟨fun _ => trivial, fun latest => ?_⟩
      exact ih h (hready.snoc rfl)

/-- Every body keeps its books. -/
theorem booked_body (goal : X2Navigation.Goal K) :
    (bookkeeping goal).Safe [] (body m settings goal) fun _ _ => True := by
  cases goal with
  | rotate goal =>
    exact safe_unrecorded (later_executeRotate goal) (fun hexecutes => by cases hexecutes)
      (by simp [Recorded])
  | undock goal =>
    have hlater : ∀ {past : List (OpEvent K)} {p : Operation K Unit}, All Op.Later p →
        ¬ Recorded past → (bookkeeping (.undock goal : X2Navigation.Goal K)).Safe past p
          fun _ _ => True :=
      fun hp hnot => safe_unrecorded hp (fun hexecutes => by cases hexecutes) hnot
    refine Discipline.safe_act_bind.mpr ⟨fun _ => trivial, fun state => ?_⟩
    refine Discipline.safe_act_bind.mpr ⟨fun _ => ⟨rfl, by simp [Op.Books, Op.Activates, Op.Records]⟩,
      fun resolved => ?_⟩
    refine hlater ?_ (by simp [Recorded, Op.Records])
    cases resolved with
    | none => exact later_of_still (still_finishUndock _ _ _)
    | some profileId =>
      refine later_call_bind ⟨rfl, rfl⟩ fun (profile, instanceId) =>
        later_call_bind ⟨rfl, rfl⟩ fun _ => later_call_bind ⟨rfl, rfl⟩ fun navigation => ?_
      refine all_ite (fun _ => later_of_still (still_finishUndock _ _ _)) fun _ => ?_
      refine all_ite (fun _ => later_of_still (still_finishUndock _ _ _)) fun _ => ?_
      split
      · exact later_executeTimedUndock _ _
      · exact later_undockTagRelative _ _
  | fineAlign goal =>
    refine Discipline.safe_act_bind.mpr ⟨fun _ => ⟨rfl, by simp⟩, fun resolved => ?_⟩
    have hunrecorded : ¬ Recorded
        ([] ++ [(⟨.activateProfile goal.profileId false goal.instanceId, resolved⟩ : OpEvent K)]) := by
      simp [Recorded, Op.Records]
    have silent : ∀ {past : List (OpEvent K)} {p : Operation K Unit}, All (Op.IsStill · = true) p →
        ¬ Recorded past → (aligning K goal).Safe past p fun _ _ => True :=
      fun hp hnot => safe_unrecorded (later_of_still hp) (fun _ => modest_of_still hp) hnot
    cases resolved with
    | none => exact silent (still_finish _ _ _) hunrecorded
    | some profileId =>
      refine Discipline.safe_act_bind.mpr ⟨fun _ => trivial, fun navigation => ?_⟩
      refine Discipline.safe_ite (fun _ => silent (still_finish _ _ _) ?_) fun _ => ?_
      · simp [Recorded, Op.Records]
      refine Discipline.safe_act_bind.mpr ⟨fun _ => trivial, fun (profile, instanceId) => ?_⟩
      have hresolved : Resolved ([] ++
          [(⟨.activateProfile goal.profileId false goal.instanceId, some profileId⟩ : OpEvent K)] ++
          [⟨.navigationActive, navigation⟩] ++ [⟨.activeProfile, (profile, instanceId)⟩]) profileId :=
        ⟨goal.profileId, false, goal.instanceId, by simp⟩
      exact booked_attempts ⟨rfl, rfl⟩
        ⟨by simp [Recorded, Op.Records], hresolved, profile, by simp⟩

end Bodies

end X2Navigation.FineAlignServer
