import X2Navigation.Odin.LocalQueue
import X2Navigation.Odin.Reconstruction
import X2Navigation.Odometry.Transport

/-! The odometry that is published is its own dead reckoning. From the first message after the
baseline was last given up, whoever reads nothing but stamps and velocities gets to the very poses
of the messages that follow, along steps that are as short as the parameters ask for, and the
transform of the base is published along with every message. -/

namespace X2Navigation

open Matrix Rigid Traced

/-- The numbers of a message without special values. -/
def Pose.values {K : Type*} [Zero K] (pose : Pose (Double K)) : Pose K :=
  ⟨⟨pose.position.x.value, pose.position.y.value, pose.position.z.value⟩,
    ⟨pose.orientation.x.value, pose.orientation.y.value, pose.orientation.z.value,
      pose.orientation.w.value⟩⟩

def Twist.values {K : Type*} [Zero K] (twist : Twist (Double K)) : Twist K :=
  ⟨⟨twist.linear.x.value, twist.linear.y.value, twist.linear.z.value⟩,
    ⟨twist.angular.x.value, twist.angular.y.value, twist.angular.z.value⟩⟩

namespace OdinLocalizationAdapter

/-! ### Reading the published odometry -/

section Reading
variable {K : Type*}

@[simp] def Occurrence.odometry? : Occurrence K → Option (LocalOdometry K)
  | .odometry output => some output
  | _ => none

@[simp] def keepOutput (outputs : List (LocalOdometry K)) : Occurrence K → List (LocalOdometry K)
  | .invalidated _ _ => []
  | .odometry output => outputs ++ [output]
  | _ => outputs

/-- The messages published in a run. -/
def outputs (trace : List (Occurrence K)) : List (LocalOdometry K) :=
  trace.filterMap Occurrence.odometry?

/-- The messages published since the last invalidation. -/
def outputsSince (trace : List (Occurrence K)) : List (LocalOdometry K) := trace.foldl keepOutput []

@[simp] theorem outputs_append (trace more : List (Occurrence K)) :
    outputs (trace ++ more) = outputs trace ++ outputs more := List.filterMap_append

@[simp] theorem outputs_nil : outputs ([] : List (Occurrence K)) = [] := rfl

@[simp] theorem outputs_cons (o : Occurrence K) (more : List (Occurrence K)) :
    outputs (o :: more) = o.odometry?.toList ++ outputs more := filterMap_cons_toList _ o more

@[simp] theorem outputsSince_append (trace more : List (Occurrence K)) :
    outputsSince (trace ++ more) = more.foldl keepOutput (outputsSince trace) := List.foldl_append

def LocalOdometry.isometry [CommRing K] (output : LocalOdometry K) : Isometry3 K :=
  fromMsg output.pose.pose.values

def LocalOdometry.velocity [Zero K] (output : LocalOdometry K) : Twist K := output.twist.twist.values

/-- Nothing in the message is a special value. -/
def LocalOdometry.IsFinite (output : LocalOdometry K) : Prop :=
  (∀ i, (output.pose.pose.position.toFun i).isFinite = true) ∧
    hasFiniteComponents output.twist.twist = true

end Reading

/-! ### Dead reckoning -/

/-- Where a base comes to under a velocity in the axes it arrives with. -/
noncomputable def moved (pose : Isometry3 ℝ) (dt : ℝ) (twist : Twist ℝ) : Isometry3 ℝ :=
  let linear := pose.linear * rotationExp (dt • twist.angular.toFun)
  ⟨linear, pose.translation + linear *ᵥ (dt • twist.linear.toFun)⟩

/-- The poses along messages of which only stamps and velocities are read. -/
noncomputable def deadReckoning :
    TimePoint → Isometry3 ℝ → List (LocalOdometry ℝ) → List (Isometry3 ℝ)
  | _, _, [] => []
  | stamp, pose, output :: rest =>
    let pose := moved pose (elapsed output.stamp stamp) output.velocity
    pose :: deadReckoning output.stamp pose rest

/-- One message after another: a short time later, not far and not turned by much. -/
structure Follows (p : Params ℝ) (a b : LocalOdometry ℝ) : Prop where
  later : 0 < (elapsed b.stamp a.stamp : ℝ)
  soon : elapsed b.stamp a.stamp ≤ p.localTimeout
  near : length ((elapsed b.stamp a.stamp : ℝ) • b.velocity.linear.toFun) ≤ p.maxStep
  straight : length ((elapsed b.stamp a.stamp : ℝ) • b.velocity.angular.toFun) ≤ p.maxAngle

/-- The pose of a message is reached from the one before. -/
def Reaches (a b : LocalOdometry ℝ) : Prop :=
  b.isometry = moved a.isometry (elapsed b.stamp a.stamp) b.velocity

theorem deadReckoning_eq {first : LocalOdometry ℝ} {rest : List (LocalOdometry ℝ)}
    (h : (first :: rest).IsChain Reaches) :
    rest.map LocalOdometry.isometry = deadReckoning first.stamp first.isometry rest := by
  induction rest generalizing first with
  | nil => rfl
  | cons second rest ih =>
    obtain ⟨hreaches, hrest⟩ := List.isChain_cons_cons.mp h
    have hpose : second.isometry =
        moved first.isometry (elapsed second.stamp first.stamp) second.velocity := hreaches
    rw [List.map_cons, deadReckoning, ih hrest, ← hpose]

/-! ### What is differentiated -/

section Attempts
variable {p : Params ℝ} {E : Eigen3d ℝ} {s : State ℝ} {stamp : TimePoint} {A B : Isometry3 ℝ}
  {pose : Isometry3d ℝ} {twist : Twist (Double ℝ)}

theorem isRigid_odinTransform {E : Eigen ℝ} (hroots : E.TakesRoots) {x y z qx qy qz qw : Double ℝ}
    (h : odinTransform E x y z qx qy qz qw = some A) : A.IsRigid := by
  unfold odinTransform at h
  dsimp only at h
  split at h
  · cases h
  · obtain rfl := Option.some.inj h
    exact hroots.isRotation_normalized _

/-- What is accepted was differentiated, and the base pose is rigid. -/
theorem attempt_eq_accept (hexact : E.rounding = .exact) (hroots : E.TakesRoots) {tf : RobotTf ℝ}
    {q : PendingOdometry ℝ} (h : attempt p E tf s q = .accept pose twist) :
    ∃ B : Isometry3 ℝ, B.IsRigid ∧ differentiate p E s q.stamp B.toDouble = .accept pose twist := by
  unfold attempt at h
  split at h
  · cases h
  split at h
  · cases h
  split at h
  · cases h
  split at h
  · next odomFromImu baseFromImu hpose hmount =>
    have hrigid := isRigid_odinTransform hroots hpose
    rw [Isometry3d.odinBasePose_exact hexact] at h
    exact ⟨_, hrigid.mul (isRigid_odinTransform hroots hmount).inverse, h⟩
  · cases h

theorem differentiate_of_none (hnone : s.previousStamp = none)
    (h : differentiate p E s stamp B.toDouble = .accept pose twist) :
    B.toDouble = pose ∧ twist = 0 := by
  rw [differentiate, hnone] at h
  obtain ⟨hpose, htwist⟩ := Attempt.accept.inj h
  exact ⟨hpose, htwist.symm⟩

theorem differentiate_of_some (hexact : E.rounding = .exact) {previous : TimePoint}
    (hsome : s.previousStamp = some previous) (hprevious : s.previousPose = A.toDouble)
    (h : differentiate p E s stamp B.toDouble = .accept pose twist) :
    B.toDouble = pose ∧ 0 < (elapsed stamp previous : ℝ) ∧
      elapsed stamp previous ≤ p.localTimeout ∧ E.norm (B.translation - A.translation) ≤ p.maxStep ∧
      (E.angleAxis (A.linearᵀ * B.linear)).2 ≤ p.maxAngle ∧
      ∃ velocity, odinLocalTwist E.toEigen A B (elapsed stamp previous) = some velocity ∧
        twist = velocity.finite := by
  simp only [differentiate, hsome, hprevious, Isometry3d.distance_exact hexact,
    Isometry3d.odinLocalTwist_exact hexact, Double.numLT, decide_eq_true_eq] at h
  split at h
  · cases h
  next hstep =>
  simp only [not_or, not_le, not_lt] at hstep
  split at h
  · cases h
  · next twist' htwist =>
    obtain ⟨rfl, rfl⟩ := Attempt.accept.inj h
    obtain ⟨velocity, hvelocity, rfl⟩ := Option.map_eq_some_iff.mp htwist
    exact ⟨rfl, hstep.1, hstep.2.1, hstep.2.2.1, hstep.2.2.2, velocity, hvelocity, rfl⟩

end Attempts

/-! ### One message after another -/

section Steps
variable {p : Params ℝ} {E : Eigen ℝ} {A B : Isometry3 ℝ} {dt : ℝ} {twist : Twist ℝ}

theorem moved_eq (haxis : E.ReadsAngleAxis) (hA : A.IsRigid) (hB : B.IsRigid) (hdt : 0 < dt)
    (h : odinLocalTwist E A B dt = some twist) : moved A dt twist = B := by
  obtain ⟨htranslation, hlinear⟩ := odinLocalTwist_reaches haxis hA hB hdt h
  apply Isometry3.ext
  · exact hlinear
  · show A.translation + (A.linear * rotationExp (dt • twist.angular.toFun)) *ᵥ _ = _
    rw [hlinear, htranslation]

/-- The distance that is checked is the one that the velocity covers. -/
theorem length_linear (hroots : E.TakesRoots) (haxis : E.ReadsAngleAxis) (hA : A.IsRigid)
    (hB : B.IsRigid) (hdt : 0 < dt) (h : odinLocalTwist E A B dt = some twist) :
    length (dt • twist.linear.toFun) = E.norm (B.translation - A.translation) := by
  obtain ⟨htranslation, -⟩ := odinLocalTwist_reaches haxis hA hB hdt h
  rw [Eigen.norm, hroots _ (dotProduct_self_nonneg _), ← htranslation, add_sub_cancel_left,
    ← hB.length_mulVec, length]

/-- The angle that is checked is the one that the velocity turns by. -/
theorem length_angular (haxis : E.ReadsAngleAxis) (hA : A.IsRigid) (hB : B.IsRigid) (hdt : 0 < dt)
    (h : odinLocalTwist E A B dt = some twist) :
    length (dt • twist.angular.toFun) = (E.angleAxis (A.linearᵀ * B.linear)).2 := by
  have hturn : (B.inverse * A).IsRigid := hB.inverse.mul hA
  have hread := haxis _ hturn
  have htranspose : (B.inverse * A).linearᵀ = A.linearᵀ * B.linear := by
    show (B.linearᵀ * A.linear)ᵀ = _
    rw [transpose_mul, transpose_transpose]
  rw [odinLocalTwist_angular hdt h, length_neg, length_smul hread.unit hread.nonneg,
    ← haxis.angle_transpose hturn, htranspose]

end Steps

/-! ### What a run publishes -/

/-- The baseline is the newest message since the last invalidation, and each of these follows the
one before. -/
structure Reckoned (p : Params ℝ) (s : State ℝ) (trace : List (Occurrence ℝ)) : Prop where
  stamp : s.previousStamp = (outputsSince trace).getLast?.map LocalOdometry.stamp
  pose : ∀ newest ∈ (outputsSince trace).getLast?,
    s.previousPose = newest.isometry.toDouble ∧ newest.isometry.IsRigid
  first : ∀ first ∈ (outputsSince trace).head?, first.velocity = 0
  steps : (outputsSince trace).IsChain fun a b => Follows p a b ∧ Reaches a b
  broadcast : transforms p.odom p.base trace =
    (outputs trace).map fun output => (output.isometry.toDouble, output.stamp)
  finite : ∀ output ∈ outputs trace, output.IsFinite

section Runs
variable {p : Params ℝ} {E : Eigen3d ℝ} {c : Clocks} {s : State ℝ} {trace : List (Occurrence ℝ)}

theorem reckoned_initial : Reckoned p .initial [] where
  stamp := rfl
  pose := by simp [outputsSince]
  first := by simp [outputsSince]
  steps := .nil
  broadcast := rfl
  finite := by simp [outputs]

/-- The baseline stays, and nothing is published about it. -/
theorem Reckoned.frame (h : Reckoned p s trace) {r : Callback ℝ}
    (hstamp : r.1.previousStamp = s.previousStamp) (hpose : r.1.previousPose = s.previousPose)
    (hkept : r.2.foldl keepOutput (outputsSince trace) = outputsSince trace)
    (houtputs : outputs r.2 = []) (htransforms : transforms p.odom p.base r.2 = []) :
    Keeps (Reckoned p) trace r := by
  constructor
  · rw [hstamp, outputsSince_append, hkept, h.stamp]
  · rw [hpose, outputsSince_append, hkept]
    exact h.pose
  · rw [outputsSince_append, hkept]
    exact h.first
  · rw [outputsSince_append, hkept]
    exact h.steps
  · rw [transforms_append, outputs_append, htransforms, houtputs, List.append_nil, List.append_nil,
      h.broadcast]
  · rw [outputs_append, houtputs, List.append_nil]
    exact h.finite

theorem Reckoned.invalidateLocal (h : Reckoned p s trace) (reason : Reason) :
    Keeps (Reckoned p) trace (invalidateLocal c reason s) where
  stamp := by simp [OdinLocalizationAdapter.invalidateLocal]
  pose := by simp [OdinLocalizationAdapter.invalidateLocal]
  first := by simp [OdinLocalizationAdapter.invalidateLocal]
  steps := by simp [OdinLocalizationAdapter.invalidateLocal]
  broadcast := by simpa [OdinLocalizationAdapter.invalidateLocal] using h.broadcast
  finite := by simpa [OdinLocalizationAdapter.invalidateLocal] using h.finite

theorem Reckoned.receiveTransform (h : Reckoned p s trace) (tf : TransformStamped (Double ℝ)) :
    Keeps (Reckoned p) trace (receiveTransform p E c tf s) := by
  unfold OdinLocalizationAdapter.receiveTransform
  split
  · exact h.frame rfl rfl rfl rfl rfl
  split
  · exact h.frame rfl rfl rfl rfl rfl
  split
  · exact h.frame rfl rfl rfl rfl rfl
  split
  · exact h.frame rfl rfl rfl rfl rfl
  dsimp only
  split
  · exact h.frame rfl rfl rfl rfl rfl
  · exact h.frame rfl rfl rfl rfl rfl

theorem Reckoned.receiveOdometry (h : Reckoned p s trace) (input : Odometry (Double ℝ)) :
    Keeps (Reckoned p) trace (receiveOdometry p E c input s) := by
  unfold OdinLocalizationAdapter.receiveOdometry
  split
  · exact h.invalidateLocal _
  next stamp hvalid =>
  split
  · exact h.frame rfl rfl rfl rfl rfl
  split
  · have hmarked : Keeps (Reckoned p) trace ({ s with lastLocalStamp := some stamp }, []) :=
      h.frame rfl rfl rfl rfl rfl
    rw [Keeps, List.append_nil] at hmarked
    exact hmarked.invalidateLocal _
  · exact h.frame rfl rfl rfl rfl rfl

theorem Reckoned.expire (h : Reckoned p s trace) : Keeps (Reckoned p) trace (expire p c s) := by
  unfold OdinLocalizationAdapter.expire
  split
  · refine (h.invalidateLocal _).andThen fun s trace hs => ?_
    exact hs.frame rfl rfl rfl rfl rfl
  · exact h.frame rfl rfl rfl rfl rfl

/-- The correction goes between other frames. -/
theorem Reckoned.report (h : Reckoned p s trace) : Keeps (Reckoned p) trace (report p c s) := by
  unfold OdinLocalizationAdapter.report
  dsimp only
  split
  · split
    · refine h.frame rfl rfl rfl rfl ?_
      simp [p.frames_ne.1.symm, status]
    · exact h.frame rfl rfl rfl rfl rfl
  · exact h.frame rfl rfl rfl rfl rfl

/-- The velocity against the baseline; zero where there is none. -/
theorem Reckoned.differentiated (hexact : E.rounding = .exact) (h : Reckoned p s trace)
    {stamp : TimePoint} {B : Isometry3 ℝ} {pose : Isometry3d ℝ} {twist : Twist (Double ℝ)}
    (hdifferentiate : differentiate p E s stamp B.toDouble = .accept pose twist) :
    B.toDouble = pose ∧ ∃ velocity : Twist ℝ, twist = velocity.finite ∧
      (outputsSince trace = [] → velocity = 0) ∧ ∀ last ∈ (outputsSince trace).getLast?,
        0 < (elapsed stamp last.stamp : ℝ) ∧ elapsed stamp last.stamp ≤ p.localTimeout ∧
        E.norm (B.translation - last.isometry.translation) ≤ p.maxStep ∧
        (E.angleAxis (last.isometry.linearᵀ * B.linear)).2 ≤ p.maxAngle ∧
        odinLocalTwist E.toEigen last.isometry B (elapsed stamp last.stamp) = some velocity := by
  cases hlast : (outputsSince trace).getLast? with
  | none =>
    have hnone : s.previousStamp = none := by rw [h.stamp, hlast, Option.map_none]
    obtain ⟨hpose, htwist⟩ := differentiate_of_none hnone hdifferentiate
    exact ⟨hpose, 0, htwist, fun _ => rfl, by simp⟩
  | some last =>
    have hprevious : s.previousStamp = some last.stamp := by rw [h.stamp, hlast, Option.map_some]
    obtain ⟨hpose, hlater, hsoon, hnear, hstraight, velocity, hvelocity, htwist⟩ :=
      differentiate_of_some hexact hprevious (h.pose last hlast).1 hdifferentiate
    refine ⟨hpose, velocity, htwist, fun hnil => ?_, ?_⟩
    · rw [hnil] at hlast
      cases hlast
    · rintro last' heq
      obtain rfl := Option.some.inj heq
      exact ⟨hlater, hsoon, hnear, hstraight, hvelocity⟩

/-- A message that carries the velocity against the baseline. -/
theorem Reckoned.accept (hexact : E.rounding = .exact) (hroots : E.TakesRoots)
    (hquaternion : E.ReadsQuaternion) (haxis : E.ReadsAngleAxis) (h : Reckoned p s trace)
    {index : ℕ} {stamp : TimePoint} {B : Isometry3 ℝ} {pose : Isometry3d ℝ}
    {twist : Twist (Double ℝ)} (hrigid : B.IsRigid)
    (hdifferentiate : differentiate p E s stamp B.toDouble = .accept pose twist) :
    Keeps (Reckoned p) trace (accept p E c index stamp pose twist s) := by
  obtain ⟨rfl, velocity, rfl, hfirst, hstep⟩ := h.differentiated hexact hdifferentiate
  obtain ⟨output, houtput, hstamp, hfinite, hvelocity, hread⟩ : ∃ output,
      (OdinLocalizationAdapter.accept p E c index stamp B.toDouble velocity.finite s).2 =
        [.accepted ⟨stamp, B.toDouble, c.steady⟩, .odometry output,
          .transform B.toDouble p.odom p.base stamp] ∧
      output.stamp = stamp ∧ output.IsFinite ∧ output.velocity = velocity ∧ output.isometry = B := by
    refine ⟨_, rfl, rfl, ⟨fun i => ?_, rfl⟩, rfl, (fromMsg_toMsg hquaternion hrigid).2⟩
    rw [Vector3.toFun_ofFun]
    rfl
  have hsince : outputsSince (trace ++
      (OdinLocalizationAdapter.accept p E c index stamp B.toDouble velocity.finite s).2) =
      outputsSince trace ++ [output] := by
    rw [outputsSince_append, houtput]
    rfl
  constructor
  · rw [hsince, List.getLast?_append_of_ne_nil _ (by simp), List.getLast?_singleton, Option.map_some,
      hstamp]
    rfl
  · rw [hsince, List.getLast?_append_of_ne_nil _ (by simp), List.getLast?_singleton]
    rintro newest hnewest
    obtain rfl := Option.some.inj hnewest
    rw [hread]
    exact ⟨rfl, hrigid⟩
  · rw [hsince]
    cases hearlier : outputsSince trace with
    | nil =>
      rintro first hnewest
      obtain rfl := Option.some.inj hnewest
      rw [hvelocity]
      exact hfirst hearlier
    | cons first rest =>
      rintro first' hfirst'
      exact h.first first' (by rw [hearlier]; exact hfirst')
  · rw [hsince]
    refine List.isChain_append.mpr ⟨h.steps, List.isChain_singleton _, ?_⟩
    rintro last hlast next hnext
    obtain rfl := Option.some.inj hnext
    obtain ⟨-, hlastrigid⟩ := h.pose last hlast
    obtain ⟨hlater, hsoon, hnear, hstraight, htwist⟩ := hstep last hlast
    rw [Reaches, hread, hstamp, hvelocity, moved_eq haxis hlastrigid hrigid hlater htwist]
    refine ⟨⟨?_, ?_, ?_, ?_⟩, rfl⟩
    · rwa [hstamp]
    · rwa [hstamp]
    · rwa [hstamp, hvelocity, length_linear hroots haxis hlastrigid hrigid hlater htwist]
    · rwa [hstamp, hvelocity, length_angular haxis hlastrigid hrigid hlater htwist]
  · rw [transforms_append, outputs_append, houtput, h.broadcast]
    simp [hread, hstamp]
  · rw [outputs_append, houtput]
    rintro output' hmem
    rcases List.mem_append.mp hmem with hmem | hmem
    · exact h.finite output' hmem
    · obtain rfl := List.mem_singleton.mp hmem
      exact hfinite

theorem Reckoned.process (hexact : E.rounding = .exact) (hroots : E.TakesRoots)
    (hquaternion : E.ReadsQuaternion) (haxis : E.ReadsAngleAxis) (h : Reckoned p s trace)
    (tf : RobotTf ℝ) : Keeps (Reckoned p) trace (process p E c tf s) := by
  refine h.expire.andThen fun s trace h => ?_
  split
  · refine (h.invalidateLocal _).andThen fun s trace hs => ?_
    exact hs.frame rfl rfl rfl rfl rfl
  · exact (h.invalidateLocal _).andThen fun s trace hs => hs.report
  · next index candidate pose twist hselect =>
    obtain ⟨-, hattempt⟩ := select_eq_some (Option.ite_none_right_eq_some.mp hselect).2
    obtain ⟨B, hrigid, hdifferentiate⟩ := attempt_eq_accept hexact hroots hattempt
    exact (h.accept hexact hroots hquaternion haxis hrigid hdifferentiate).andThen
      fun s trace hs => hs.report
  · exact h.report

theorem run_reckoned (hexact : E.rounding = .exact) (hroots : E.TakesRoots)
    (hquaternion : E.ReadsQuaternion) (haxis : E.ReadsAngleAxis) (events : List (Event ℝ)) :
    Reckoned p (run p E events).1 (run p E events).2 := by
  induction events using List.reverseRecOn with
  | nil => exact reckoned_initial
  | append_singleton events e ih =>
    rw [run, run_snoc]
    show Keeps (Reckoned p) (run p E events).2 (step p E e (run p E events).1)
    unfold step
    cases e.input with
    | odometry message => exact ih.receiveOdometry message
    | nativeTf tfs => exact keeps_foldl _ (fun tf _ _ h => h.receiveTransform tf) tfs ih
    | tick tf => exact ih.process hexact hroots hquaternion haxis tf

end Runs

/-- Since the baseline was last given up, the poses that are published are those that the stamps
and velocities lead to from the first, which has no velocity. No step is longer than the
parameters allow, every message is finite, and the transform of the base is always that of the
messages. -/
theorem odometry_reckons (p : Params ℝ) (E : Eigen3d ℝ) (hexact : E.rounding = .exact)
    (hroots : E.TakesRoots) (hquaternion : E.ReadsQuaternion) (haxis : E.ReadsAngleAxis)
    (events : List (Event ℝ)) :
    (∀ output ∈ outputs (run p E events).2, output.IsFinite) ∧
      transforms p.odom p.base (run p E events).2 =
        (outputs (run p E events).2).map (fun output => (output.isometry.toDouble, output.stamp)) ∧
      ∀ first rest, outputsSince (run p E events).2 = first :: rest →
        first.velocity = 0 ∧ (first :: rest).IsChain (Follows p) ∧
          rest.map LocalOdometry.isometry = deadReckoning first.stamp first.isometry rest := by
  have h : Reckoned p (run p E events).1 (run p E events).2 :=
    run_reckoned hexact hroots hquaternion haxis events
  refine ⟨h.finite, h.broadcast, fun first rest houtputs => ?_⟩
  have hfirst := h.first
  have hsteps := h.steps
  rw [houtputs] at hfirst hsteps
  exact ⟨hfirst first rfl, hsteps.imp fun _ _ hstep => hstep.1,
    deadReckoning_eq (hsteps.imp fun _ _ hstep => hstep.2)⟩

/-! ### A robot that is driven -/

/-- The only sample there is becomes the baseline. -/
theorem process_accepts {p : Params ℝ} {E : Eigen3d ℝ} {c : Clocks} {tf : RobotTf ℝ} {s : State ℝ}
    {q : PendingOdometry ℝ} {pose : Isometry3d ℝ} {twist : Twist (Double ℝ)} (hpending : s.pending = [q])
    (hadvancing : notAdvancing p c s = false) (hlive : expired p c q = false)
    (htf : tf.latest.isSome = true) (hattempt : attempt p E tf s q = .accept pose twist) :
    process p E c tf s = (accept p E c 1 q.stamp pose twist s).andThen (report p c) := by
  have hkept : waiting p c s = s.pending := by
    rw [waiting, hpending, List.dropWhile_cons_of_neg (by simp [hlive])]
  have hexpire : expire p c s = (s, []) := by rw [expire_of_advancing hadvancing, hkept]
  have hchoice : choice p E tf s = some (1, q, .accept pose twist) := by
    simp [choice, htf, hpending, select, hattempt]
  rw [process_of_accept (by rw [hexpire]; exact hchoice), hexpire]
  rfl

theorem driven_samples : 1 ≤ 1 ∧ 1 ≤ 4096 := by decide

theorem driven_frames : "odom" ≠ "map" ∧ "odom" ≠ "base_link" ∧ "map" ≠ "base_link" := by decide

/-- Parameters with bounds of one second and one metre. -/
noncomputable def drivenParams : Params ℝ where
  nativeOdom := "odom"
  nativeMap := "map"
  nativeImu := "imu"
  base := "base_link"
  odom := "odom"
  map := "map"
  offset := 0
  localTimeout := 1
  correctionTimeout := 1
  futureTolerance := 1
  maxStep := 1
  maxAngle := 1
  maxPendingSamples := 1
  poseVariance := 1
  twistVariance := 1
  alignmentConfirmed := false
  alignment := 1
  localTimeout_pos := one_pos
  correctionTimeout_pos := one_pos
  futureTolerance_pos := one_pos
  maxStep_pos := one_pos
  maxAngle_pos := one_pos
  poseVariance_pos := one_pos
  twistVariance_pos := one_pos
  maxPendingSamples_mem := driven_samples
  frames_ne := driven_frames

/-- The library where nothing is rounded. -/
noncomputable def drivenEigen : Eigen3d ℝ := ⟨Eigen.exact, .exact⟩

def drivenTransform (x : ℝ) : Transform (Double ℝ) := ⟨⟨.finite x, 0, 0⟩, ⟨0, 0, 0, .finite 1⟩⟩

def drivenTf : RobotTf ℝ := ⟨some 0, fun _ => true, fun _ => some (drivenTransform 0)⟩

/-- A sample some metres ahead, stamped `tenths` tenths of a second after second ten. -/
def drivenOdometry (tenths : UInt32) (x : ℝ) : Input ℝ :=
  .odometry
    { header := ⟨⟨10, tenths * 100000000⟩, "odom"⟩
      childFrameId := "imu"
      pose := ⟨⟨⟨.finite x, 0, 0⟩, ⟨0, 0, 0, .finite 1⟩⟩, fun _ => 0⟩
      twist := ⟨0, fun _ => 0⟩ }

/-- A sample and a tick at the time of its stamp. -/
def drivenRound (n : ℕ) (tenths : UInt32) (x : ℝ) : List (Event ℝ) :=
  [⟨restClocks n, drivenOdometry tenths x⟩, ⟨restClocks n, .tick drivenTf⟩]

noncomputable def drivenEvents : List (Event ℝ) := drivenRound 0 0 0 ++ drivenRound 1 1 (1 / 2)

def drivenPose (x : ℝ) : Isometry3 ℝ := ⟨1, ![x, 0, 0]⟩

theorem odinTransform_driven (x : ℝ) :
    odinTransform Eigen.exact (.finite x) 0 0 0 0 0 (.finite 1) = some (drivenPose x) := by
  simp [drivenPose, odinTransform, Eigen.quaternionNorm, Quaterniond.squaredNorm, Eigen.exact,
    Eigen.normalized, Double.value, Double.isFinite]

theorem odinBasePose_driven (x : ℝ) :
    Isometry3d.odinBasePose drivenEigen (drivenPose x) (drivenPose 0) = (drivenPose x).toDouble := by
  rw [Isometry3d.odinBasePose_exact rfl]
  congr 1
  apply Isometry3.ext
  · show (1 : Matrix (Fin 3) (Fin 3) ℝ) * 1ᵀ = 1
    simp
  · show (1 : Matrix (Fin 3) (Fin 3) ℝ) *ᵥ -(1ᵀ *ᵥ ![0, 0, 0]) + ![x, 0, 0] = ![x, 0, 0]
    simp

theorem angle_one : (Eigen.exact.angleAxis 1).2 = 0 := by
  have hread := Eigen.exact_readsAngleAxis 1 isRotation_one
  apply Real.injOn_cos ⟨hread.nonneg, hread.le_pi⟩ ⟨le_rfl, Real.pi_pos.le⟩
  have htrace := hread.trace
  rw [trace_one, Fintype.card_fin] at htrace
  rw [Real.cos_zero]
  push_cast at htrace
  linarith

theorem driven_round (trace : List (Occurrence ℝ)) (n : ℕ) (tenths : UInt32) (x : ℝ) {s : State ℝ}
    {twist : Twist (Double ℝ)} (hpending : s.pending = [])
    (hlast : ∀ last ∈ s.lastLocalStamp, last < (restClocks n).ros)
    (hadvancing : notAdvancing drivenParams (restClocks n) s = false)
    (hshifted : shifted drivenParams ⟨10, tenths * 100000000⟩ = some (restClocks n).ros)
    (hdifferentiate : differentiate drivenParams drivenEigen s (restClocks n).ros
      (drivenPose x).toDouble = .accept (drivenPose x).toDouble twist) {r : Callback ℝ}
    (hr : Traced.run (step drivenParams drivenEigen) s (drivenRound n tenths x) = r) :
    (∃ output, outputsSince (trace ++ r.2) = outputsSince trace ++ [output]) ∧
      r.1.pending = [] ∧ r.1.lastLocalStamp = some (restClocks n).ros ∧
      r.1.previousStamp = some (restClocks n).ros ∧ r.1.previousPose = (drivenPose x).toDouble ∧
      r.1.localAcceptedAt = some (restClocks n).steady := by
  have hfresh : fresh drivenParams (restClocks n) (restClocks n).ros (1 : ℝ) = true := by
    simp [fresh, elapsed, drivenParams]
  obtain ⟨message, hmessage, hheader, hchild, hread⟩ : ∃ message,
      drivenOdometry tenths x = .odometry message ∧
      message.header = ⟨⟨10, tenths * 100000000⟩, "odom"⟩ ∧ message.childFrameId = "imu" ∧
      message.pose.pose.odinTransform drivenEigen.toEigen = some (drivenPose x) :=
    ⟨_, rfl, rfl, rfl, odinTransform_driven x⟩
  have hvalid : validated drivenParams drivenEigen (restClocks n) message = some (restClocks n).ros := by
    simp only [validated, hheader, hchild, hshifted, hread]
    rw [show drivenParams.localTimeout = 1 from rfl, hfresh]
    simp [drivenParams]
  -- the sample is queued, and it is the only one
  let q : PendingOdometry ℝ := ⟨message, (restClocks n).ros, (restClocks n).steady⟩
  let queued : State ℝ := { s with lastLocalStamp := some (restClocks n).ros, pending := [q] }
  have hqueued : receiveOdometry drivenParams drivenEigen (restClocks n) message s = (queued, []) := by
    have hnew : s.lastLocalStamp ≠ some (restClocks n).ros := fun heq =>
      lt_irrefl _ (hlast _ heq)
    have hnotback : s.lastLocalStamp.any ((restClocks n).ros < ·) = false := by
      cases hs : s.lastLocalStamp with
      | none => rfl
      | some last => simpa using (hlast last hs).le
    simp only [receiveOdometry, hvalid, hpending]
    rw [if_neg hnew, hnotback]
    rfl
  have hmount : (drivenTransform 0).odinTransform drivenEigen.toEigen = some (drivenPose 0) :=
    odinTransform_driven 0
  have hattempt : attempt drivenParams drivenEigen drivenTf queued q =
      .accept (drivenPose x).toDouble twist := by
    have hlookup : drivenTf.lookup q.stamp = some (drivenTransform 0) := rfl
    have hmessage : q.message.pose.pose.odinTransform drivenEigen.toEigen = some (drivenPose x) := hread
    rw [attempt]
    simp only [hlookup, hmount, hmessage, odinBasePose_driven]
    exact hdifferentiate
  have hlive : expired drivenParams (restClocks n) q = false := by
    simp [expired, q, show drivenParams.localTimeout = 1 from rfl, hfresh, elapsed]
  have hprocess : process drivenParams drivenEigen (restClocks n) drivenTf queued =
      (accept drivenParams drivenEigen (restClocks n) 1 q.stamp (drivenPose x).toDouble twist queued).andThen
        (report drivenParams (restClocks n)) :=
    process_accepts rfl hadvancing hlive rfl hattempt
  have hreport : ∀ s : State ℝ, s.previousStamp.isSome = true → report drivenParams (restClocks n) s =
      (s, [status .mapAlignmentUnconfirmed]) := by
    intro s hs
    obtain ⟨previous, hprevious⟩ := Option.isSome_iff_exists.mp hs
    simp [report, readiness, hprevious, drivenParams]
  have hrun : r = Reaction.andThen (receiveOdometry drivenParams drivenEigen (restClocks n) message s)
      (process drivenParams drivenEigen (restClocks n) drivenTf) := by
    rw [← hr, drivenRound, hmessage]
    rfl
  rw [hqueued, Reaction.andThen, hprocess, Reaction.andThen, hreport _ rfl] at hrun
  subst hrun
  exact ⟨⟨_, outputsSince_append _ _⟩, rfl, rfl, rfl, rfl, rfl⟩

theorem driven_accept {s : State ℝ} (hprevious : s.previousStamp = some (restClocks 0).ros)
    (hpose : s.previousPose = (drivenPose 0).toDouble) :
    ∃ twist, differentiate drivenParams drivenEigen s (restClocks 1).ros
      (drivenPose (1 / 2)).toDouble = .accept (drivenPose (1 / 2)).toDouble twist := by
  have hdt : (elapsed (restClocks 1).ros (restClocks 0).ros : ℝ) = 1 / 10 := by
    simp [elapsed, restClocks]
    norm_num
  have hdistance : drivenEigen.distance (drivenPose (1 / 2)).toDouble.translation
      (drivenPose 0).toDouble.translation = .finite (1 / 2) := by
    rw [Isometry3d.distance_exact rfl]
    simp [drivenPose, drivenEigen, Eigen.norm, Eigen.exact, dotProduct, Fin.sum_univ_three]
  have hangle : (drivenEigen.angleAxis
      ((drivenPose 0).toDouble.linearᵀ * (drivenPose (1 / 2)).toDouble.linear)).2 = 0 := by
    have hone : (drivenPose 0).toDouble.linearᵀ * (drivenPose (1 / 2)).toDouble.linear = 1 := by
      simp [drivenPose, Isometry3.toDouble]
    rw [hone]
    exact angle_one
  obtain ⟨velocity, hvelocity⟩ := odinLocalTwist_isSome Eigen.exact (drivenPose 0)
    (drivenPose (1 / 2)) (show (0 : ℝ) < 1 / 10 by norm_num)
  have htwist : Isometry3d.odinLocalTwist drivenEigen (drivenPose 0).toDouble
      (drivenPose (1 / 2)).toDouble (1 / 10) = some velocity.finite := by
    rw [Isometry3d.odinLocalTwist_exact rfl]
    exact congrArg (Option.map Twist.finite) hvelocity
  refine ⟨velocity.finite, ?_⟩
  simp only [differentiate, hprevious, hpose, hdt, hdistance, hangle, htwist]
  rw [if_neg]
  norm_num [drivenParams, Double.numLT]

/-- A robot that is driven half a metre ahead. -/
theorem odometry_reckons_driven : ∃ first second,
    outputsSince (run drivenParams drivenEigen drivenEvents).2 = [first, second] ∧
      first.velocity = 0 ∧ Follows drivenParams first second ∧
      [second.isometry] = deadReckoning first.stamp first.isometry [second] := by
  obtain ⟨⟨first, hfirst⟩, hpending, hlast, hprevious, hpose, haccepted⟩ :=
    driven_round (s := .initial) [] 0 0 0 rfl (by simp [State.initial]) rfl rfl rfl rfl
  generalize hr : Traced.run (step drivenParams drivenEigen) .initial (drivenRound 0 0 0) = r at *
  have hadvancing : notAdvancing drivenParams (restClocks 1) r.1 = false := by
    rw [notAdvancing, hprevious, haccepted]
    simp [fresh, elapsed, restClocks, drivenParams]
    norm_num
  obtain ⟨twist, htwist⟩ := driven_accept hprevious hpose
  obtain ⟨⟨second, hsecond⟩, -⟩ :=
    driven_round r.2 1 1 (1 / 2) hpending (by simp [hlast, restClocks]) hadvancing rfl htwist rfl
  have hall : outputsSince (run drivenParams drivenEigen drivenEvents).2 = [first, second] := by
    rw [run, drivenEvents, run_append, Reaction.andThen_snd, hr, hsecond]
    rw [List.nil_append] at hfirst
    rw [hfirst]
    rfl
  obtain ⟨-, -, hreckons⟩ := odometry_reckons drivenParams drivenEigen rfl Eigen.exact_takesRoots
    Eigen.exact_readsQuaternion Eigen.exact_readsAngleAxis drivenEvents
  obtain ⟨hzero, hfollows, hposes⟩ := hreckons first [second] hall
  exact ⟨first, second, hall, hzero, (List.isChain_cons_cons.mp hfollows).1, hposes⟩

end OdinLocalizationAdapter

end X2Navigation
