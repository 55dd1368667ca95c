import X2Navigation.Odin.Overflow
import X2Navigation.Odin.Readiness

/-! The localization gets ready again. Whatever has happened, three samples that the robot's TF
covers, each a small step from the one before, and a native correction stamped after the first
of their ticks are enough. The first tick empties the queue, and it ends with the first sample
as the baseline or with none; the second sample is the baseline in any case, and the third one
is differentiated. -/

namespace X2Navigation.OdinLocalizationAdapter

open Rigid Traced

variable {K : Type*} [Field K] [LinearOrder K]

/-! ### What is needed -/

/-- A sample that arrives and the tick that follows, with the stamp and the base pose of the
sample. -/
structure Round (K : Type*) where
  received : Clocks
  message : Odometry (Double K)
  stamp : TimePoint
  pose : Isometry3d K
  clocks : Clocks
  tf : RobotTf K

namespace Round

def sample (r : Round K) : PendingOdometry K := ⟨r.message, r.stamp, r.received.steady⟩

def arrival (r : Round K) : Event K := ⟨r.received, .odometry r.message⟩

def turn (r : Round K) : Event K := ⟨r.clocks, .tick r.tf⟩

variable (p : Params K) (E : Eigen3d K)

/-- Valid on arrival; neither expired nor uncovered at the tick. -/
structure Usable (r : Round K) : Prop where
  valid : validated p E r.received r.message = some r.stamp
  live : expired p r.clocks r.sample = false
  reached : covered r.tf r.sample = true
  posed : basePose? E r.tf r.sample = some r.pose

/-- A small step after a round whose sample still is a good baseline. -/
structure Continues (a b : Round K) : Prop where
  later : a.stamp < b.stamp
  soon : (elapsed b.stamp a.stamp : K) ≤ p.localTimeout
  near : ¬ Double.numLT p.maxStep (E.distance b.pose.translation a.pose.translation) = true
  straight : (E.angleAxis (a.pose.linear.transpose * b.pose.linear)).2 ≤ p.maxAngle
  fresh : fresh p b.clocks a.stamp p.localTimeout = true
  recent : elapsed b.clocks.steady a.clocks.steady ≤ p.localTimeout

end Round

/-- A native correction that arrives. -/
structure Fix (K : Type*) where
  clocks : Clocks
  tf : TransformStamped (Double K)
  stamp : TimePoint
  transform : Isometry3 K

def Fix.event (fix : Fix K) : Event K := ⟨fix.clocks, .nativeTf [fix.tf]⟩

/-- Valid on arrival, and still recent at the clocks `c`. -/
structure Fix.Usable (p : Params K) (E : Eigen3d K) (c : Clocks) (fix : Fix K) : Prop where
  frames : fix.tf.header.frameId = p.nativeOdom ∧ fix.tf.childFrameId = p.nativeMap
  stamped : shifted p fix.tf.header.stamp = some fix.stamp
  valid : fix.tf.transform.odinTransform E.toEigen = some fix.transform
  fresh : OdinLocalizationAdapter.fresh p fix.clocks fix.stamp p.correctionTimeout = true
  lasting : OdinLocalizationAdapter.fresh p c fix.stamp p.correctionTimeout = true
  recent : elapsed c.steady fix.clocks.steady ≤ p.correctionTimeout

/-- Three rounds and a correction after the history that has led to `s`. -/
structure Handshake (p : Params K) (E : Eigen3d K) (s : State K) (first second third : Round K)
    (fix : Fix K) : Prop where
  confirmed : p.alignmentConfirmed = true
  usable : first.Usable p E ∧ second.Usable p E ∧ third.Usable p E
  continues : first.Continues p E second ∧ second.Continues p E third
  newest : ∀ last ∈ s.lastLocalStamp, last < first.stamp
  corrected : fix.Usable p E third.clocks
  younger : first.clocks.ros < fix.stamp
  unseen : ∀ last ∈ s.lastCorrectionStamp, last < fix.stamp

/-! ### A sample arrives -/

variable {p : Params K} {E : Eigen3d K} {c : Clocks} {s : State K} {trace : List (Occurrence K)}
  {a b r : Round K}

theorem receiveOdometry_of_usable (h : r.Usable p E) (hlast : ∀ last ∈ s.lastLocalStamp, last < r.stamp) :
    ∃ older, (s.pending = [] → older = []) ∧ receiveOdometry p E r.received r.message s =
      ({ s with lastLocalStamp := some r.stamp, pending := older ++ [r.sample] }, []) := by
  have hnew : s.lastLocalStamp ≠ some r.stamp := fun heq => lt_irrefl _ (hlast _ heq)
  have hforward : s.lastLocalStamp.any (r.stamp < ·) = false := by
    cases hs : s.lastLocalStamp with
    | none => rfl
    | some last => simpa using (hlast last hs).le
  have hkept : (s.pending ++ [r.sample]).length - p.maxPendingSamples ≤ s.pending.length := by
    have hone := p.maxPendingSamples_mem.1
    rw [List.length_append, List.length_singleton]
    omega
  refine ⟨s.pending.drop ((s.pending ++ [r.sample]).length - p.maxPendingSamples), ?_, ?_⟩
  · rintro hnil
    rw [hnil, List.drop_nil]
  · rw [← List.drop_append_of_le_length hkept]
    simp only [receiveOdometry, h.valid]
    rw [if_neg hnew, hforward]
    rfl

/-! ### The tick that follows -/

theorem attempt_of_usable (h : r.Usable p E) :
    attempt p E r.tf s r.sample = differentiate p E s r.stamp r.pose := by
  obtain ⟨mount, hmount, -, hattempt⟩ := attempt_of_covered (p := p) (E := E) (s := s) h.reached
  have hposed := h.posed
  simp only [basePose?, hmount, Option.bind_some] at hposed
  split at hposed
  · next odomFromImu baseFromImu hpose hbase =>
    rw [hattempt _ _ hpose hbase, Option.some.inj hposed]
    rfl
  · cases hposed

theorem differentiate_ne_skip {stamp : TimePoint} {pose : Isometry3d K} :
    differentiate p E s stamp pose ≠ .skip := by
  unfold differentiate
  split
  · simp
  dsimp only
  split
  · simp
  split <;> simp

/-- The tick after a sample looks at nothing but this sample. -/
theorem choice_of_usable (h : r.Usable p E) {older : List (PendingOdometry K)}
    (hpending : s.pending = older ++ [r.sample]) :
    ∃ older', (older = [] → older' = []) ∧ waiting p r.clocks s = older' ++ [r.sample] ∧
      choice p E r.tf { s with pending := waiting p r.clocks s } =
        some (older'.length + 1, r.sample, differentiate p E s r.stamp r.pose) := by
  have hwaiting : waiting p r.clocks s = older.dropWhile (expired p r.clocks) ++ [r.sample] := by
    rw [waiting, hpending, List.dropWhile_append]
    split
    · next hempty =>
      rw [List.isEmpty_iff.mp hempty, List.nil_append, List.dropWhile_cons_of_neg (by simp [h.live])]
    · rfl
  refine ⟨older.dropWhile (expired p r.clocks), by rintro rfl; rfl, hwaiting, ?_⟩
  have hattempt : attempt p E r.tf { s with pending := waiting p r.clocks s } r.sample =
      differentiate p E s r.stamp r.pose := attempt_of_usable h
  rw [← hattempt]
  refine choice_of_covered hwaiting h.reached (by simp) ?_
  rw [hattempt]
  exact differentiate_ne_skip

/-- The baseline is the sample of the round. -/
structure Based (s : State K) (r : Round K) : Prop where
  stamp : s.previousStamp = some r.stamp
  pose : s.previousPose = r.pose
  acceptedAt : s.localAcceptedAt = some r.clocks.steady

/-- Nothing waits, and the round has left its sample as the baseline or none. -/
structure Cleared (s : State K) (r : Round K) : Prop where
  pending : s.pending = []
  last : s.lastLocalStamp = some r.stamp
  baseline : s.previousStamp = none ∨ Based s r

omit [Field K] [LinearOrder K] in
theorem Cleared.publish (h : Cleared s r) (stamp : Option TimePoint) :
    Cleared { s with publishedCorrectionStamp := stamp } r :=
  ⟨h.pending, h.last, h.baseline.imp_right fun hbased => ⟨hbased.stamp, hbased.pose, hbased.acceptedAt⟩⟩

theorem Cleared.report (h : Cleared s r) : Cleared (report p c s).1 r := by
  obtain ⟨⟨stamp, hstate⟩, -⟩ := report_kept (p := p) (c := c) [] s
  rw [hstate]
  exact h.publish stamp

/-- Whatever the state, the tick after a new sample ends cleared. -/
theorem process_clears (h : r.Usable p E) {older : List (PendingOdometry K)}
    (hpending : s.pending = older ++ [r.sample]) (hlast : s.lastLocalStamp = some r.stamp) :
    Cleared (process p E r.clocks r.tf s).1 r := by
  cases hadvancing : notAdvancing p r.clocks s with
  | true =>
    have hnone : choice p E r.tf (expire p r.clocks s).1 = none := by
      refine choice_of_uncovered fun q hq => ?_
      rw [(expire_of_stalled hadvancing).1] at hq
      cases hq
    rw [process_of_none hnone]
    refine Cleared.report ⟨(expire_of_stalled hadvancing).1, ?_, .inl ?_⟩
    · simpa [expire, hadvancing, invalidateLocal] using hlast
    · simp [expire, hadvancing, invalidateLocal]
  | false =>
    obtain ⟨older', -, hwaiting, hchoice⟩ := choice_of_usable h hpending
    have hexpire := expire_of_advancing (p := p) hadvancing
    cases houtcome : differentiate p E s r.stamp r.pose with
    | skip => exact absurd houtcome differentiate_ne_skip
    | invalid =>
      rw [houtcome] at hchoice
      rw [process_of_invalid (by rw [hexpire]; exact hchoice), hexpire]
      exact Cleared.report ⟨rfl, hlast, .inl rfl⟩
    | discontinuity =>
      rw [houtcome] at hchoice
      rw [process_of_discontinuity (by rw [hexpire]; exact hchoice), hexpire]
      exact ⟨rfl, hlast, .inl rfl⟩
    | accept pose twist =>
      obtain rfl := differentiate_pose houtcome
      rw [houtcome] at hchoice
      rw [process_of_accept (by rw [hexpire]; exact hchoice), hexpire]
      refine Cleared.report ⟨?_, hlast, .inr ⟨rfl, rfl, rfl⟩⟩
      show (waiting p r.clocks s).drop (older'.length + 1) = []
      rw [hwaiting, drop_succ_length]

/-! ### The watermarks -/

/-- Every invalidation so far is older than the clock. -/
def Recovered (c : Clocks) (s : State K) (_ : List (Occurrence K)) : Prop :=
  ∀ boundary ∈ s.recoveryAfter, boundary ≤ c.ros

omit [Field K] [LinearOrder K] in
theorem Recovered.invalidateLocal (h : Recovered c s trace) (reason : Reason) :
    Keeps (Recovered c) trace (invalidateLocal c reason s) := by
  rintro boundary hboundary
  obtain rfl := Option.some.inj hboundary
  cases hs : s.recoveryAfter with
  | none => exact le_rfl
  | some earlier => exact max_le le_rfl (h earlier hs)

theorem Recovered.receiveTransform (h : Recovered c s trace) (tf : TransformStamped (Double K)) :
    Keeps (Recovered c) trace (receiveTransform p E c tf s) := by
  unfold OdinLocalizationAdapter.receiveTransform
  split
  · exact h
  split
  · exact h
  split
  · exact h
  split
  · exact h
  dsimp only
  split
  · exact h
  · exact h

theorem Recovered.receiveOdometry (h : Recovered c s trace) (input : Odometry (Double K)) :
    Keeps (Recovered c) trace (receiveOdometry p E c input s) := by
  unfold OdinLocalizationAdapter.receiveOdometry
  split
  · exact h.invalidateLocal _
  next stamp _ =>
  split
  · exact h
  split
  · have hmarked : Recovered c { s with lastLocalStamp := some stamp } trace := h
    exact hmarked.invalidateLocal _
  · exact h

theorem Recovered.report (h : Recovered c s trace) : Keeps (Recovered c) trace (report p c s) := by
  obtain ⟨⟨stamp, hstate⟩, -⟩ := report_kept (p := p) (c := c) trace s
  rw [Keeps, hstate]
  exact h

theorem Recovered.process (h : Recovered c s trace) (tf : RobotTf K) :
    Keeps (Recovered c) trace (process p E c tf s) := by
  have hexpire : Keeps (Recovered c) trace (OdinLocalizationAdapter.expire p c s) := by
    unfold OdinLocalizationAdapter.expire
    split
    · refine (h.invalidateLocal _).andThen fun s trace hs => ?_
      exact hs
    · exact h
  refine hexpire.andThen fun s trace h => ?_
  split
  · refine (h.invalidateLocal _).andThen fun s trace hs => ?_
    exact hs
  · exact (h.invalidateLocal _).andThen fun s trace hs => hs.report
  · next index candidate pose twist _ =>
    have haccept : Keeps (Recovered c) trace
        (accept p E c index candidate.stamp pose twist s) := h
    exact haccept.andThen fun s trace hs => hs.report
  · exact h.report

theorem run_recovered (events : List (Event K)) (c : Clocks)
    (hc : (events.map Event.clocks ++ [c]).Pairwise (· ≤ ·)) :
    Recovered c (run p E events).1 (run p E events).2 := by
  refine run_keeps (fun c => ?_) (fun hle h boundary hboundary => ?_) (fun e s trace h => ?_) events c hc
  · rintro boundary ⟨⟩
  · exact (h boundary hboundary).trans hle.1
  · unfold step
    cases e.input with
    | odometry message => exact h.receiveOdometry message
    | nativeTf tfs => exact keeps_foldl _ (fun tf _ _ hs => Recovered.receiveTransform hs tf) tfs h
    | tick tf => exact h.process tf

/-- Ticks do not look at native corrections. -/
theorem process_lastCorrectionStamp (tf : RobotTf K) :
    (process p E c tf s).1.lastCorrectionStamp = s.lastCorrectionStamp := by
  have hreport : ∀ s : State K, (report p c s).1.lastCorrectionStamp = s.lastCorrectionStamp := by
    intro s
    obtain ⟨⟨stamp, hstate⟩, -⟩ := report_kept (p := p) (c := c) [] s
    rw [hstate]
  have hexpire : (expire p c s).1.lastCorrectionStamp = s.lastCorrectionStamp := by
    unfold expire
    split <;> rfl
  rw [← hexpire]
  unfold process
  rw [Reaction.andThen_fst]
  split
  · rfl
  · exact hreport _
  · exact hreport _
  · exact hreport _

/-! ### One round after another -/

section Rounds
variable [IsStrictOrderedRing K]

/-- The next sample is differentiated against the baseline, where there is one. -/
theorem differentiate_continues (h : a.Continues p E b) (hbase : s.previousStamp = none ∨ Based s a) :
    notAdvancing p b.clocks s = false ∧
      ∃ twist, differentiate p E s b.stamp b.pose = .accept b.pose twist := by
  rcases hbase with hnone | ⟨hstamp, hpose, haccepted⟩
  · exact ⟨by rw [notAdvancing, hnone]; rfl, 0, by rw [differentiate, hnone]⟩
  · refine ⟨by simp [notAdvancing, hstamp, haccepted, h.fresh, h.recent], ?_⟩
    have hdt : ¬ (elapsed b.stamp a.stamp : K) ≤ 0 := not_le.mpr (elapsed_pos h.later)
    have hstep : ¬ ((elapsed b.stamp a.stamp : K) ≤ 0 ∨ p.localTimeout < elapsed b.stamp a.stamp ∨
        Double.numLT p.maxStep (E.distance b.pose.translation a.pose.translation) = true ∨
        p.maxAngle < (E.angleAxis (a.pose.linear.transpose * b.pose.linear)).2) := by
      simp only [not_or, not_lt]
      exact ⟨hdt, h.soon, h.near, h.straight⟩
    simp only [differentiate, hstamp, hpose]
    rw [if_neg hstep, Isometry3d.odinLocalTwist, if_neg hdt]
    exact ⟨_, rfl⟩

theorem process_continues (hb : b.Usable p E) (h : a.Continues p E b)
    (hbase : s.previousStamp = none ∨ Based s a) (hpending : s.pending = [b.sample]) :
    ∃ twist, process p E b.clocks b.tf s =
      (accept p E b.clocks 1 b.stamp b.pose twist s).andThen (report p b.clocks) := by
  obtain ⟨hadvancing, twist, htwist⟩ := differentiate_continues h hbase
  obtain ⟨older', hnil, hwaiting, hchoice⟩ :=
    choice_of_usable hb (hpending.trans (List.nil_append _).symm)
  obtain rfl := hnil rfl
  have hsame : ({ s with pending := waiting p b.clocks s } : State K) = s := by
    rw [hwaiting, List.nil_append, ← hpending]
  have hexpire := expire_of_advancing (p := p) hadvancing
  rw [hsame] at hexpire hchoice
  rw [htwist] at hchoice
  refine ⟨twist, ?_⟩
  rw [process_of_accept (by rw [hexpire]; exact hchoice), hexpire]
  rfl

/-- After a round that goes on, the baseline is its sample and the watermarks are as before. -/
theorem round_continues (hb : b.Usable p E) (h : a.Continues p E b) (hs : Cleared s a) {s' : State K}
    (hrun : (Traced.run (step p E) s [b.arrival, b.turn]).1 = s') :
    Cleared s' b ∧ Based s' b ∧ s'.recoveryAfter = s.recoveryAfter ∧
      s'.lastCorrectionStamp = s.lastCorrectionStamp := by
  have hlast : ∀ last ∈ s.lastLocalStamp, last < b.stamp := by
    rw [hs.last]
    rintro last hlast
    exact (Option.some.inj hlast) ▸ h.later
  obtain ⟨older, hnil, harrive⟩ := receiveOdometry_of_usable hb hlast
  obtain rfl := hnil hs.pending
  have hbase : s.previousStamp = none ∨ Based s a := hs.baseline
  obtain ⟨twist, hprocess⟩ := process_continues (s := { s with
    lastLocalStamp := some b.stamp, pending := [b.sample] }) hb h
    (hbase.imp_right fun hbased => ⟨hbased.stamp, hbased.pose, hbased.acceptedAt⟩) rfl
  have hstate : s' = (process p E b.clocks b.tf (receiveOdometry p E b.received b.message s).1).1 :=
    hrun.symm
  rw [harrive, List.nil_append, hprocess, Reaction.andThen_fst] at hstate
  obtain ⟨⟨stamp, hreport⟩, -⟩ := report_kept (p := p) (c := b.clocks) []
    (accept p E b.clocks 1 b.stamp b.pose twist { s with
      lastLocalStamp := some b.stamp, pending := [b.sample] }).1
  rw [hreport] at hstate
  subst hstate
  exact ⟨⟨rfl, rfl, .inr ⟨rfl, rfl, rfl⟩⟩, ⟨rfl, rfl, rfl⟩, rfl, rfl⟩

omit [IsStrictOrderedRing K] in
/-- A correction above both watermarks is in force. -/
theorem receiveNativeTf_of_usable {fix : Fix K} (h : fix.Usable p E c)
    (hrecovered : ∀ boundary ∈ s.recoveryAfter, boundary < fix.stamp)
    (hunseen : ∀ last ∈ s.lastCorrectionStamp, last < fix.stamp) :
    ∃ correction, (receiveNativeTf p E fix.clocks [fix.tf] s).1 =
      { s with
        lastCorrectionStamp := some fix.stamp, correction := correction,
        correctionStamp := some fix.stamp, correctionReceivedAt := some fix.clocks.steady } := by
  have habove : ∀ w : Option TimePoint, (∀ t ∈ w, t < fix.stamp) → w.any (fix.stamp ≤ ·) = false := by
    intro w hw
    cases w with
    | none => rfl
    | some t => simpa using hw t rfl
  have hheader : ¬ (fix.tf.header.frameId ≠ p.nativeOdom ∨ fix.tf.childFrameId ≠ p.nativeMap) := by
    simp [h.frames.1, h.frames.2]
  refine ⟨.mul E.rounding p.alignment.toDouble (.inverse E.rounding fix.transform.toDouble), ?_⟩
  simp only [receiveNativeTf, List.foldl_cons, List.foldl_nil, Reaction.andThen_fst, receiveTransform]
  rw [if_neg hheader]
  simp only [h.stamped, h.fresh, h.valid, habove _ hunseen, habove _ hrecovered]
  rfl

/-- A round of which the correction arrives before the tick. -/
theorem round_ready {fix : Fix K} (hb : b.Usable p E) (h : a.Continues p E b) (hs : Cleared s a)
    (hbased : Based s a) (hconfirmed : p.alignmentConfirmed = true) (hfix : fix.Usable p E b.clocks)
    (hrecovered : ∀ boundary ∈ s.recoveryAfter, boundary < fix.stamp)
    (hunseen : ∀ last ∈ s.lastCorrectionStamp, last < fix.stamp) :
    "ready" ∈ statuses (process p E b.clocks b.tf
      (Traced.run (step p E) s [b.arrival, fix.event]).1).2 := by
  have hlast : ∀ last ∈ s.lastLocalStamp, last < b.stamp := by
    rw [hs.last]
    rintro last hlast
    exact (Option.some.inj hlast) ▸ h.later
  obtain ⟨older, hnil, harrive⟩ := receiveOdometry_of_usable hb hlast
  obtain rfl := hnil hs.pending
  obtain ⟨correction, hcorrect⟩ := receiveNativeTf_of_usable (s := { s with
    lastLocalStamp := some b.stamp, pending := [b.sample] }) hfix hrecovered hunseen
  have hrun : (Traced.run (step p E) s [b.arrival, fix.event]).1 =
      (receiveNativeTf p E fix.clocks [fix.tf] (receiveOdometry p E b.received b.message s).1).1 := rfl
  rw [hrun, harrive, List.nil_append, hcorrect]
  obtain ⟨twist, hprocess⟩ := process_continues (s := { s with
    lastLocalStamp := some b.stamp, pending := [b.sample], lastCorrectionStamp := some fix.stamp,
    correction := correction, correctionStamp := some fix.stamp,
    correctionReceivedAt := some fix.clocks.steady }) hb h
    (.inr ⟨hbased.stamp, hbased.pose, hbased.acceptedAt⟩) rfl
  rw [hprocess, Reaction.andThen_snd, statuses, List.filterMap_append]
  refine List.mem_append_right _ ?_
  -- the tick has accepted the sample against a baseline, and the correction is recent
  obtain ⟨-, -, -, hstatus⟩ := report_kept (p := p) (c := b.clocks) [] (accept p E b.clocks 1 b.stamp
    b.pose twist { s with
      lastLocalStamp := some b.stamp, pending := [b.sample], lastCorrectionStamp := some fix.stamp,
      correction := correction, correctionStamp := some fix.stamp,
      correctionReceivedAt := some fix.clocks.steady }).1
  rw [readiness_of rfl hconfirmed rfl hfix.lasting rfl hfix.recent
    (by simp [accept, hbased.stamp])] at hstatus
  exact hstatus

/-- After any history a handshake gets the localization ready. -/
theorem Handshake.ready {events : List (Event K)} {first second third : Round K} {fix : Fix K}
    (h : Handshake p E (run p E events).1 first second third fix)
    (hc : ((events ++ [first.arrival, first.turn]).map Event.clocks).Pairwise (· ≤ ·)) :
    "ready" ∈ statuses (process p E third.clocks third.tf
      (run p E (events ++ [first.arrival, first.turn] ++ [second.arrival, second.turn] ++
        [third.arrival, fix.event])).1).2 := by
  obtain ⟨hfirst, hsecond, hthird⟩ := h.usable
  obtain ⟨older, -, harrive⟩ := receiveOdometry_of_usable hfirst h.newest
  have hstate : (run p E (events ++ [first.arrival, first.turn])).1 =
      (process p E first.clocks first.tf
        (receiveOdometry p E first.received first.message (run p E events).1).1).1 := by
    rw [run, run_append]
    rfl
  have hcleared : Cleared (run p E (events ++ [first.arrival, first.turn])).1 first := by
    rw [hstate, harrive]
    exact process_clears hfirst rfl rfl
  have hlastCorrection : (run p E (events ++ [first.arrival, first.turn])).1.lastCorrectionStamp =
      (run p E events).1.lastCorrectionStamp := by
    rw [hstate, harrive, process_lastCorrectionStamp]
  have hrecovered : Recovered first.clocks (run p E (events ++ [first.arrival, first.turn])).1
      (run p E (events ++ [first.arrival, first.turn])).2 := by
    refine run_recovered _ _ ?_
    refine List.pairwise_append.mpr ⟨hc, List.pairwise_singleton _ _, ?_⟩
    rintro c hmem c' hc'
    obtain rfl := List.mem_singleton.mp hc'
    rw [List.map_append, List.map_cons, List.map_cons, List.map_nil, List.append_cons] at hc hmem
    rcases List.mem_append.mp hmem with hmem | hmem
    · exact (List.pairwise_append.mp hc).2.2 c hmem _ (List.mem_singleton_self _)
    · exact (List.mem_singleton.mp hmem).le
  obtain ⟨hcleared', hbased, hsame, hsame'⟩ := round_continues hsecond h.continues.1 hcleared rfl
  have hsecondState : (run p E (events ++ [first.arrival, first.turn] ++
      [second.arrival, second.turn])).1 = (Traced.run (step p E)
        (run p E (events ++ [first.arrival, first.turn])).1 [second.arrival, second.turn]).1 := by
    rw [run, run_append]
    rfl
  have hthirdState : (run p E (events ++ [first.arrival, first.turn] ++
      [second.arrival, second.turn] ++ [third.arrival, fix.event])).1 = (Traced.run (step p E)
        (run p E (events ++ [first.arrival, first.turn] ++ [second.arrival, second.turn])).1
        [third.arrival, fix.event]).1 := by
    rw [run, run_append]
    rfl
  rw [hthirdState, hsecondState]
  refine round_ready hthird h.continues.2 hcleared' hbased h.confirmed h.corrected ?_ ?_
  · rw [hsame]
    exact fun boundary hboundary => (hrecovered boundary hboundary).trans_lt h.younger
  · rw [hsame', hlastCorrection]
    exact h.unseen

end Rounds

/-- The robot at rest was ready; then a sample arrives that is not a number. -/
def lostEvents : List (Event ℚ) :=
  restEvents ++ [⟨restClocks 1, .tick restTf⟩,
    ⟨restClocks 1, .odometry { restMessage 1 with
      pose := ⟨⟨⟨.nan, 0, 0⟩, ⟨0, 0, 0, .finite 1⟩⟩, fun _ => 0⟩ }⟩]

def restPose : Isometry3 ℚ :=
  ⟨toRotationMatrix (restEigen.normalized ⟨0, 0, 0, 1⟩), ![0, 0, 0]⟩

theorem odinTransform_rest :
    odinTransform restEigen.toEigen 0 0 0 0 0 0 (.finite 1) = some restPose := by
  unfold odinTransform
  exact if_neg (by decide +kernel)

/-- A round `tenths` tenths of a second after second ten. -/
def restRound (tenths : UInt32) : Round ℚ where
  received := restClocks tenths.toNat
  message := restMessage tenths
  stamp := (restClocks tenths.toNat).ros
  pose := Isometry3d.odinBasePose restEigen restPose restPose
  clocks := restClocks tenths.toNat
  tf := restTf

theorem restRound_posed (tenths : UInt32) :
    basePose? restEigen restTf (restRound tenths).sample = some (restRound tenths).pose := by
  have hpose : (restMessage tenths).pose.pose.odinTransform restEigen.toEigen = some restPose :=
    odinTransform_rest
  have hmount : restTransform.odinTransform restEigen.toEigen = some restPose := odinTransform_rest
  have hlookup : restTf.lookup (restRound tenths).sample.stamp = some restTransform := rfl
  have hmessage : (restRound tenths).sample.message = restMessage tenths := rfl
  rw [basePose?, hlookup, Option.bind_some, hmessage, hpose, hmount]
  rfl

def restFix : Fix ℚ where
  clocks := restClocks 4
  tf := ⟨⟨⟨10, 300000000⟩, "odom"⟩, "map", restTransform⟩
  stamp := (restClocks 3).ros
  transform := restPose

theorem restRound_continues {a b : UInt32}
    (h : (restRound a).stamp < (restRound b).stamp ∧
      (elapsed (restRound b).stamp (restRound a).stamp : ℚ) ≤ restParams.localTimeout ∧
      fresh restParams (restRound b).clocks (restRound a).stamp restParams.localTimeout = true ∧
      (elapsed (restRound b).clocks.steady (restRound a).clocks.steady : ℚ) ≤ restParams.localTimeout) :
    (restRound a).Continues restParams restEigen (restRound b) where
  later := h.1
  soon := h.2.1
  near := by
    show ¬ Double.numLT restParams.maxStep (restEigen.distance
      (Isometry3d.odinBasePose restEigen restPose restPose).translation
      (Isometry3d.odinBasePose restEigen restPose restPose).translation) = true
    decide +kernel
  straight := by
    show (0 : ℚ) ≤ 1 / 2
    decide +kernel
  fresh := h.2.2.1
  recent := h.2.2.2

theorem handshake_lost : Handshake restParams restEigen (run restParams restEigen lostEvents).1
    (restRound 2) (restRound 3) (restRound 4) restFix where
  confirmed := rfl
  usable :=
    ⟨⟨by decide +kernel, by decide +kernel, by decide +kernel, restRound_posed 2⟩,
      ⟨by decide +kernel, by decide +kernel, by decide +kernel, restRound_posed 3⟩,
      ⟨by decide +kernel, by decide +kernel, by decide +kernel, restRound_posed 4⟩⟩
  continues := ⟨restRound_continues (by decide +kernel), restRound_continues (by decide +kernel)⟩
  newest := by decide +kernel
  corrected := ⟨by decide +kernel, by decide +kernel, odinTransform_rest, by decide +kernel,
    by decide +kernel, by decide +kernel⟩
  younger := by decide +kernel
  unseen := by decide +kernel

end X2Navigation.OdinLocalizationAdapter
