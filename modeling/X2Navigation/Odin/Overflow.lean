import X2Navigation.Odin.LocalQueue

/-! Where readiness fails. The translation of a base pose can overflow, and between two equal
infinities there is no distance: the comparison with the largest step lets the pair pass. As
long as every tick can measure the step to the sample it takes, all steps are within the
bounds, and readiness means what it says. -/

namespace X2Navigation.OdinLocalizationAdapter

open Rigid Traced

variable {K : Type*} [Field K] [LinearOrder K]

/-! ### The condition -/

/-- The pose of the base at a sample, where the robot's TF answers with a valid mount. -/
def basePose? (E : Eigen3d K) (tf : RobotTf K) (q : PendingOdometry K) : Option (Isometry3d K) :=
  (tf.lookup q.stamp).bind fun mount =>
    match q.message.pose.pose.odinTransform E.toEigen, mount.odinTransform E.toEigen with
    | some odomFromImu, some baseFromImu => some (Isometry3d.odinBasePose E odomFromImu baseFromImu)
    | _, _ => none

/-- On every axis the two translations have a difference, unless time or angle keep the pose
from following the baseline. -/
def Measurable (p : Params K) (E : Eigen3d K) (s : State K) (stamp : TimePoint)
    (pose : Isometry3d K) : Prop :=
  ∀ previous ∈ s.previousStamp, (elapsed stamp previous : K) ≤ p.localTimeout →
    (E.angleAxis (s.previousPose.linear.transpose * pose.linear)).2 ≤ p.maxAngle →
    ∀ i, Double.Comparable (pose.translation i) (s.previousPose.translation i)

instance (p : Params K) (E : Eigen3d K) (s : State K) (stamp : TimePoint) (pose : Isometry3d K) :
    Decidable (Measurable p E s stamp pose) :=
  inferInstanceAs (Decidable (∀ previous ∈ s.previousStamp, _ → _ → ∀ _, _))

def newestCovered? (tf : RobotTf K) (queue : List (PendingOdometry K)) : Option (PendingOdometry K) :=
  (queue.filter (covered tf)).getLast?

/-- A tick whose baseline still advances can measure the step to the newest sample it covers. -/
def Measures (p : Params K) (E : Eigen3d K) (e : Event K) (s : State K) : Prop :=
  match e.input with
  | .tick tf => notAdvancing p e.clocks s = false →
    ∀ q ∈ newestCovered? tf (waiting p e.clocks s), ∀ pose ∈ basePose? E tf q,
      Measurable p E s q.stamp pose
  | _ => True

instance (p : Params K) (E : Eigen3d K) (s : State K) : (e : Event K) → Decidable (Measures p E e s)
  | ⟨c, .tick tf⟩ => inferInstanceAs (Decidable (notAdvancing p c s = false →
      ∀ q ∈ newestCovered? tf (waiting p c s), ∀ pose ∈ basePose? E tf q, Measurable p E s q.stamp pose))
  | ⟨_, .odometry _⟩ => .isTrue trivial
  | ⟨_, .nativeTf _⟩ => .isTrue trivial

/-! ### Steps within the bounds -/

variable (p : Params K) (E : Eigen3d K)

/-- Two consecutive samples within all three bounds. -/
def SmallStep (a b : Sample K) : Prop :=
  0 < (elapsed b.stamp a.stamp : K) ∧ elapsed b.stamp a.stamp ≤ p.localTimeout ∧
    Double.numGE p.maxStep (E.distance b.pose.translation a.pose.translation) = true ∧
    (E.angleAxis (a.pose.linear.transpose * b.pose.linear)).2 ≤ p.maxAngle

instance : DecidableRel (SmallStep p E) := fun _ _ => inferInstanceAs (Decidable (_ ∧ _ ∧ _ ∧ _))

def Apart (a b : Sample K) : Prop :=
  ∀ i, Double.Comparable (b.pose.translation i) (a.pose.translation i)

variable {p E}

theorem StepAllowed.smallStep [IsStrictOrderedRing K] {a b : Sample K} (h : StepAllowed p E a b)
    (hapart : Apart a b) : SmallStep p E a b := by
  obtain ⟨hlater, hsoon, hnear, hangle⟩ := h
  refine ⟨hlater, hsoon, Double.numGE_of_not_numLT (fun hnan => ?_) hnear, hangle⟩
  obtain ⟨i, hi⟩ := Rounding.distance_eq_nan_iff.mp hnan
  exact hi (hapart i)

theorem smallSteps [IsStrictOrderedRing K] {samples : List (Sample K)}
    (hsteps : samples.IsChain (StepAllowed p E)) (hapart : samples.IsChain Apart) :
    samples.IsChain (SmallStep p E) :=
  List.isChain_iff_getElem.mpr fun i hi => (hsteps.getElem i hi).smallStep (hapart.getElem i hi)

/-! ### Every callback keeps the samples apart -/

variable {c : Clocks} {s : State K} {trace : List (Occurrence K)} {tf : RobotTf K}
  {q : PendingOdometry K}

/-- Consecutive samples since the last invalidation are apart. -/
def AllApart (_ : State K) (trace : List (Occurrence K)) : Prop := (samplesSince trace).IsChain Apart

omit [Field K] [LinearOrder K] in
theorem AllApart.append (h : AllApart s trace) {s' : State K} {more : List (Occurrence K)}
    (hmore : more.foldl keepSample (samplesSince trace) = samplesSince trace) :
    AllApart s' (trace ++ more) := by
  rw [AllApart, samplesSince_append, hmore]
  exact h

omit [Field K] [LinearOrder K] in
theorem allApart_invalidateLocal (reason : Reason) :
    Keeps AllApart trace (invalidateLocal c reason s) := by
  simp [Keeps, AllApart, invalidateLocal]

theorem AllApart.receiveTransform (h : AllApart s trace) (tf : TransformStamped (Double K)) :
    Keeps AllApart trace (receiveTransform p E c tf s) := by
  unfold OdinLocalizationAdapter.receiveTransform
  split
  · exact h.append rfl
  split
  · exact h.append rfl
  split
  · exact h.append rfl
  split
  · exact h.append rfl
  dsimp only
  split
  · exact h.append rfl
  · exact h.append rfl

theorem AllApart.receiveOdometry (h : AllApart s trace) (input : Odometry (Double K)) :
    Keeps AllApart trace (receiveOdometry p E c input s) := by
  unfold OdinLocalizationAdapter.receiveOdometry
  split
  · exact allApart_invalidateLocal _
  split
  · exact h.append rfl
  split
  · exact allApart_invalidateLocal _
  · exact h.append rfl

theorem AllApart.expire (h : AllApart s trace) : Keeps AllApart trace (expire p c s) := by
  unfold OdinLocalizationAdapter.expire
  split
  · exact (allApart_invalidateLocal _).andThen fun s trace hs => hs.append rfl
  · exact h.append rfl

theorem AllApart.report (h : AllApart s trace) : Keeps AllApart trace (report p c s) := by
  unfold OdinLocalizationAdapter.report
  dsimp only
  split
  · split
    · exact h.append rfl
    · exact h.append rfl
  · exact h.append rfl

theorem differentiate_pose {stamp : TimePoint} {pose pose' : Isometry3d K} {twist : Twist (Double K)}
    (h : differentiate p E s stamp pose = .accept pose' twist) : pose = pose' := by
  unfold differentiate at h
  split at h
  · exact (Attempt.accept.inj h).1
  dsimp only at h
  split at h
  · cases h
  split at h
  · cases h
  · exact (Attempt.accept.inj h).1

/-- What is accepted is the base pose at the sample. -/
theorem basePose_of_accept {pose : Isometry3d K} {twist : Twist (Double K)}
    (h : attempt p E tf s q = .accept pose twist) : basePose? E tf q = some pose := by
  unfold attempt at h
  split at h
  · cases h
  split at h
  · cases h
  split at h
  · cases h
  next mount hmount =>
  split at h
  · next odomFromImu baseFromImu hpose hbase =>
    simp only [basePose?, hmount, Option.bind_some, hpose, hbase, differentiate_pose h]
  · cases h

omit [Field K] [LinearOrder K] in
theorem newestCovered_eq {older newer : List (PendingOdometry K)} (hq : covered tf q = true)
    (hnewer : ∀ q' ∈ newer, covered tf q' = false) :
    newestCovered? tf (older ++ q :: newer) = some q := by
  have hnone : newer.filter (covered tf) = [] := by
    rw [List.filter_eq_nil_iff]
    intro q' hq'
    simp [hnewer q' hq']
  rw [newestCovered?, List.filter_append, List.filter_cons_of_pos hq, hnone]
  simp

theorem AllApart.accept {index : ℕ} {stamp : TimePoint} {pose : Isometry3d K}
    {twist : Twist (Double K)} (h : AllApart s trace) (hbaseline : Baseline p E s trace)
    (hfollow : MayFollow p E s stamp pose) (hmeasurable : Measurable p E s stamp pose) :
    Keeps AllApart trace (accept p E c index stamp pose twist s) := by
  simp only [Keeps, AllApart, OdinLocalizationAdapter.accept, samplesSince_append, List.foldl_cons,
    List.foldl_nil, keepSample]
  refine List.isChain_append.mpr ⟨h, List.isChain_singleton _, ?_⟩
  rintro last hlast next hnext i
  obtain rfl : next = ⟨stamp, pose, c.steady⟩ := by simpa using hnext.symm
  have hprevious : s.previousStamp = some last.stamp := by
    rw [hbaseline.stamp, Option.mem_def.mp hlast, Option.map_some]
  obtain ⟨-, hsoon, -, hangle⟩ := hfollow last.stamp hprevious
  rw [← hbaseline.pose last hlast]
  exact hmeasurable last.stamp hprevious hsoon hangle i

omit [Field K] [LinearOrder K] in
/-- Nothing has happened before. -/
theorem keeps_andThen_nil {Inv : State K → List (Occurrence K) → Prop} {f : State K → Callback K}
    (h : Keeps Inv trace (f s)) : Keeps Inv trace (Reaction.andThen (s, []) f) := by
  rw [Keeps, Reaction.andThen_snd, List.nil_append]
  exact h

/-- A tick that accepts a sample accepts the newest one it covers. -/
theorem newestCovered_of_accept [IsStrictOrderedRing K] (h : Orderly p E s trace) {index : ℕ}
    {pose : Isometry3d K} {twist : Twist (Double K)}
    (hchoice : choice p E tf s = some (index, q, .accept pose twist)) :
    newestCovered? tf s.pending = some q ∧ attempt p E tf s q = .accept pose twist := by
  obtain hnone | ⟨older, q', newer, hs, hq, hnewer⟩ := newest_covered tf s.pending
  · rw [choice_of_uncovered hnone] at hchoice
    cases hchoice
  · have hselected : attempt p E tf s q' ≠ .skip := by
      intro hskip
      obtain ⟨-, heq⟩ | ⟨-, heq⟩ | ⟨-, pose', twist', heq⟩ := h.choice_cases hs hq hnewer
      all_goals
        have hfound := (select_eq_some (Option.ite_none_right_eq_some.mp heq).2).2
        rw [hskip] at hfound
        cases hfound
    rw [choice_of_covered hs hq hnewer hselected] at hchoice
    obtain ⟨-, rfl, hattempt⟩ : older.length + 1 = index ∧ q' = q ∧
        attempt p E tf s q' = .accept pose twist := by simpa using hchoice
    exact ⟨hs ▸ newestCovered_eq hq hnewer, hattempt⟩

theorem AllApart.process [IsStrictOrderedRing K] (h : AllApart s trace)
    (hconsistent : Consistent p E c s trace) (horderly : Orderly p E s trace)
    (hmeasures : Measures p E ⟨c, .tick tf⟩ s) : Keeps AllApart trace (process p E c tf s) := by
  cases hadvancing : notAdvancing p c s with
  | true =>
    have hnone : choice p E tf (OdinLocalizationAdapter.expire p c s).1 = none := by
      refine choice_of_uncovered fun q hq => ?_
      rw [(expire_of_stalled hadvancing).1] at hq
      cases hq
    rw [process_of_none hnone]
    exact h.expire.andThen fun s trace hs => hs.report
  | false =>
    have hexpired := expire_of_advancing (p := p) (c := c) hadvancing
    have horderly' : Orderly p E { s with pending := waiting p c s } trace := by
      have hkept : Keeps (Orderly p E) trace (OdinLocalizationAdapter.expire p c s) :=
        expire_orderly horderly
      rw [hexpired, Keeps, List.append_nil] at hkept
      exact hkept
    obtain ⟨hbaseline, -, -⟩ := hconsistent
    have h' : AllApart { s with pending := waiting p c s } trace := h
    rw [OdinLocalizationAdapter.process, hexpired]
    refine keeps_andThen_nil ?_
    split
    · refine (allApart_invalidateLocal _).andThen fun s trace hs => ?_
      exact hs.append rfl
    · exact (allApart_invalidateLocal _).andThen fun s trace hs => hs.report
    · next index candidate pose twist hchoice =>
      obtain ⟨hnewest, hattempt⟩ := newestCovered_of_accept horderly' hchoice
      have hmeasurable : Measurable p E s candidate.stamp pose :=
        hmeasures hadvancing candidate hnewest pose (basePose_of_accept hattempt)
      have hfollow := attempt_accept hattempt
      exact (h'.accept (hbaseline.frame rfl rfl rfl rfl rfl rfl) hfollow hmeasurable).andThen
        fun s trace hs => hs.report
    · exact h'.report

theorem AllApart.step [IsStrictOrderedRing K] {e : Event K} (h : AllApart s trace)
    (hconsistent : Consistent p E e.clocks s trace) (horderly : Orderly p E s trace)
    (hmeasures : Measures p E e s) : Keeps AllApart trace (step p E e s) := by
  obtain ⟨c, input⟩ := e
  cases input with
  | odometry message => exact h.receiveOdometry message
  | nativeTf tfs => exact keeps_foldl _ (fun tf _ _ hs => AllApart.receiveTransform hs tf) tfs h
  | tick tf => exact h.process hconsistent horderly hmeasures

/-- The clocks of a run that goes on have not gone back before. -/
theorem run_allApart [IsStrictOrderedRing K] (events : List (Event K))
    (hc : (events.map Event.clocks).Pairwise (· ≤ ·))
    (hmeasures : ∀ before e after, events = before ++ e :: after →
      Measures p E e (run p E before).1) :
    AllApart (run p E events).1 (run p E events).2 := by
  induction events using List.reverseRecOn with
  | nil => exact .nil
  | append_singleton events e ih =>
    rw [List.map_append] at hc
    have hprefix : AllApart (run p E events).1 (run p E events).2 := by
      refine ih (List.pairwise_append.mp hc).1 fun before e' after heq => ?_
      exact hmeasures before e' (after ++ [e]) (by rw [heq, List.append_assoc, List.cons_append])
    rw [run, run_snoc]
    exact hprefix.step (run_consistent events e.clocks hc) (run_orderly events)
      (hmeasures events e [] rfl)

/-- If every tick can measure the step to the sample it takes, then whenever one publishes
`ready`, the local stream and the correction in force are what readiness stands for, and every
two consecutive samples are within all three bounds. -/
theorem process_ready_withinBounds [IsStrictOrderedRing K] (p : Params K) (E : Eigen3d K)
    (events : List (Event K)) (c : Clocks) (tf : RobotTf K)
    (hc : (events.map Event.clocks ++ [c]).Pairwise (· ≤ ·))
    (hmeasures : ∀ before e after, events ++ [⟨c, .tick tf⟩] = before ++ e :: after →
      Measures p E e (run p E before).1)
    (hr : "ready" ∈ statuses (process p E c tf (run p E events).1).2) :
    LocalReady p E c (run p E (events ++ [⟨c, .tick tf⟩])).2 ∧
      (samplesSince (run p E (events ++ [⟨c, .tick tf⟩])).2).IsChain (SmallStep p E) ∧
      CorrectionReady p c (run p E (events ++ [⟨c, .tick tf⟩])).1
        (run p E (events ++ [⟨c, .tick tf⟩])).2 := by
  obtain ⟨hlocal, hcorrection⟩ := process_ready_failClosed p E events c tf hc hr
  have hclocks : ((events ++ [(⟨c, .tick tf⟩ : Event K)]).map Event.clocks).Pairwise (· ≤ ·) := by
    rwa [List.map_append]
  exact ⟨hlocal, smallSteps hlocal.steps (run_allApart _ hclocks hmeasures), hcorrection⟩

/-- The robot at rest can measure every step. -/
theorem process_ready_withinBounds_atRest :
    LocalReady restParams restEigen (restClocks 1)
        (run restParams restEigen (restEvents ++ [⟨restClocks 1, .tick restTf⟩])).2 ∧
      (samplesSince (run restParams restEigen (restEvents ++ [⟨restClocks 1, .tick restTf⟩])).2).IsChain
        (SmallStep restParams restEigen) ∧
      CorrectionReady restParams (restClocks 1)
        (run restParams restEigen (restEvents ++ [⟨restClocks 1, .tick restTf⟩])).1
        (run restParams restEigen (restEvents ++ [⟨restClocks 1, .tick restTf⟩])).2 := by
  refine process_ready_withinBounds restParams restEigen restEvents (restClocks 1) restTf
    (by decide +kernel) ?_ (by decide +kernel)
  refine forall_split_cons (by decide +kernel) (forall_split_cons (by decide +kernel)
    (forall_split_cons (by decide +kernel) (forall_split_cons (by decide +kernel)
      (forall_split_cons (by decide +kernel) forall_split_nil))))

/-! ### Two poses out of range -/

/-- A mount that is far behind the base. -/
def overflowedTf : RobotTf ℚ :=
  ⟨some 0, fun _ => true, fun _ => some ⟨⟨.finite (-2 ^ 1023), 0, 0⟩, ⟨0, 0, 0, .finite 1⟩⟩⟩

/-- A sample at a position along the first axis. -/
def overflowedOdometry (tenths : UInt32) (x : ℚ) : Input ℚ :=
  .odometry
    { header := ⟨⟨10, tenths * 100000000⟩, "odom"⟩
      childFrameId := "imu"
      pose := ⟨⟨⟨.finite x, 0, 0⟩, ⟨0, 0, 0, .finite 1⟩⟩, fun _ => 0⟩
      twist := ⟨0, fun _ => 0⟩ }

/-- The robot jumps by half of what a double can hold. -/
def overflowedEvents : List (Event ℚ) :=
  [⟨restClocks 0, overflowedOdometry 0 (2 ^ 1023)⟩, ⟨restClocks 0, .tick overflowedTf⟩,
    ⟨restClocks 1, overflowedOdometry 1 (3 * 2 ^ 1022)⟩,
    ⟨restClocks 1, .nativeTf [⟨⟨⟨10, 100000000⟩, "odom"⟩, "map", restTransform⟩]⟩]

/-- Both base poses overflow to the same infinity, so the jump is not seen and the tick
publishes `ready`, and the pair it accepted is not within the bounds. -/
theorem not_withinBounds_overflowed :
    (overflowedEvents.map Event.clocks ++ [restClocks 1]).Pairwise (· ≤ ·) ∧
      "ready" ∈ statuses (process restParams restEigen (restClocks 1) overflowedTf
        (run restParams restEigen overflowedEvents).1).2 ∧
      ¬ (samplesSince (run restParams restEigen
        (overflowedEvents ++ [⟨restClocks 1, .tick overflowedTf⟩])).2).IsChain
          (SmallStep restParams restEigen) := by
  refine ⟨by decide +kernel, by decide +kernel, ?_⟩
  decide +kernel

end X2Navigation.OdinLocalizationAdapter
