import Mathlib.Data.List.Chain
import Mathlib.Data.Rat.Floor
import X2Navigation.Guarded.History
import X2Navigation.Odin.Adapter

/-! The adapter is fail-closed. Readiness is judged against the trace of the
whole run: what was accepted since the baseline was last given up, and which
correction is in force. Three groups of fields are tied to the trace. The
baseline is the newest sample, the watermarks bound every stamp and every
invalidation so far, and the queue holds stamps in order. -/

namespace X2Navigation.OdinLocalizationAdapter

open Rigid Traced

variable {K : Type*}

/-! ### Reading a trace -/

@[simp] def keepSample (samples : List (Sample K)) : Occurrence K → List (Sample K)
  | .invalidated _ _ => []
  | .accepted sample => samples ++ [sample]
  | _ => samples

/-- The samples accepted since the last invalidation. -/
def samplesSince (trace : List (Occurrence K)) : List (Sample K) := trace.foldl keepSample []

namespace Occurrence

@[simp] def boundary? : Occurrence K → Option TimePoint
  | .invalidated _ boundary => some boundary
  | _ => none

@[simp] def correction? : Occurrence K → Option (Correction K)
  | .corrected correction => some correction
  | _ => none

@[simp] def nativeStamp? : Occurrence K → Option TimePoint
  | .corrected correction => some correction.stamp
  | .dropped stamp => some stamp
  | _ => none

@[simp] def transform? (parent child : String) : Occurrence K → Option (Isometry3d K × TimePoint)
  | .transform pose parent' child' stamp =>
    if parent' = parent ∧ child' = child then some (pose, stamp) else none
  | _ => none

@[simp] def statusText? : Occurrence K → Option String
  | .status text _ => some text
  | _ => none

end Occurrence

/-- When the baseline was given up. -/
def boundaries (trace : List (Occurrence K)) : List TimePoint := trace.filterMap Occurrence.boundary?

def corrections (trace : List (Occurrence K)) : List (Correction K) :=
  trace.filterMap Occurrence.correction?

/-- The stamps of all valid native corrections, in force or not. -/
def nativeStamps (trace : List (Occurrence K)) : List TimePoint := trace.filterMap Occurrence.nativeStamp?

/-- The status texts published. -/
def statuses (trace : List (Occurrence K)) : List String :=
  trace.filterMap Occurrence.statusText?

/-- The transforms published between two frames. -/
def transforms (parent child : String) (trace : List (Occurrence K)) :
    List (Isometry3d K × TimePoint) := trace.filterMap (Occurrence.transform? parent child)

theorem filterMap_cons_toList {α β : Type*} (f : α → Option β) (a : α) (l : List α) :
    (a :: l).filterMap f = (f a).toList ++ l.filterMap f := by
  cases h : f a <;> simp [h]

section Append
variable (trace more : List (Occurrence K)) (o : Occurrence K)

@[simp] theorem samplesSince_append :
    samplesSince (trace ++ more) = more.foldl keepSample (samplesSince trace) := List.foldl_append

@[simp] theorem boundaries_append :
    boundaries (trace ++ more) = boundaries trace ++ boundaries more := List.filterMap_append

@[simp] theorem boundaries_nil : boundaries ([] : List (Occurrence K)) = [] := rfl

@[simp] theorem boundaries_cons : boundaries (o :: more) = o.boundary?.toList ++ boundaries more :=
  filterMap_cons_toList _ o more

@[simp] theorem corrections_append :
    corrections (trace ++ more) = corrections trace ++ corrections more := List.filterMap_append

@[simp] theorem corrections_nil : corrections ([] : List (Occurrence K)) = [] := rfl

@[simp] theorem corrections_cons :
    corrections (o :: more) = o.correction?.toList ++ corrections more :=
  filterMap_cons_toList _ o more

@[simp] theorem nativeStamps_append :
    nativeStamps (trace ++ more) = nativeStamps trace ++ nativeStamps more := List.filterMap_append

@[simp] theorem nativeStamps_nil : nativeStamps ([] : List (Occurrence K)) = [] := rfl

@[simp] theorem nativeStamps_cons :
    nativeStamps (o :: more) = o.nativeStamp?.toList ++ nativeStamps more :=
  filterMap_cons_toList _ o more

variable (parent child : String)

@[simp] theorem transforms_append : transforms parent child (trace ++ more) =
    transforms parent child trace ++ transforms parent child more := List.filterMap_append

@[simp] theorem transforms_nil : transforms parent child ([] : List (Occurrence K)) = [] := rfl

@[simp] theorem transforms_cons : transforms parent child (o :: more) =
    (o.transform? parent child).toList ++ transforms parent child more :=
  filterMap_cons_toList _ o more

end Append

/-! ### The specification -/

variable [Field K] [LinearOrder K] (p : Params K) (E : Eigen3d K)

/-- Two consecutive samples the adapter differentiates. The distance is not above its bound,
as doubles compare; that lets a distance pass that is not a number. -/
def StepAllowed (a b : Sample K) : Prop :=
  0 < (elapsed b.stamp a.stamp : K) ∧ elapsed b.stamp a.stamp ≤ p.localTimeout ∧
    ¬ Double.numLT p.maxStep (E.distance b.pose.translation a.pose.translation) = true ∧
    (E.angleAxis (a.pose.linear.transpose * b.pose.linear)).2 ≤ p.maxAngle

/-- The local stream: at least two samples, each a small step from its
predecessor, the newest one recent on both clocks. -/
structure LocalReady (c : Clocks) (trace : List (Occurrence K)) : Prop where
  two : 2 ≤ (samplesSince trace).length
  steps : (samplesSince trace).IsChain (StepAllowed p E)
  newest : ∃ newest, (samplesSince trace).getLast? = some newest ∧
    -p.futureTolerance ≤ elapsed c.ros newest.stamp ∧
    elapsed c.ros newest.stamp ≤ p.localTimeout ∧
    elapsed c.steady newest.acceptedAt ≤ p.localTimeout

/-- The correction in force: the last one accepted, confirmed, recent on both
clocks, younger than every invalidation and every earlier native correction, and
the last one published. -/
structure CorrectionReady (c : Clocks) (s : State K) (trace : List (Occurrence K)) : Prop where
  confirmed : p.alignmentConfirmed = true
  inForce : ∃ before k after, trace = before ++ .corrected k :: after ∧ corrections after = [] ∧
    s.correction = k.transform ∧ s.correctionStamp = some k.stamp ∧
    elapsed c.steady k.receivedAt ≤ p.correctionTimeout ∧
    -p.futureTolerance ≤ elapsed c.ros k.stamp ∧ elapsed c.ros k.stamp ≤ p.correctionTimeout ∧
    (∀ boundary ∈ boundaries trace, boundary < k.stamp) ∧
    (∀ stamp ∈ nativeStamps before, stamp < k.stamp) ∧
    (transforms p.map p.odom trace).getLast? = some (k.transform, k.stamp)

/-! ### The invariant -/

/-- The baseline is the newest sample since the last invalidation. -/
structure Baseline (s : State K) (trace : List (Occurrence K)) : Prop where
  stamp : s.previousStamp = (samplesSince trace).getLast?.map Sample.stamp
  acceptedAt : s.localAcceptedAt = (samplesSince trace).getLast?.map Sample.acceptedAt
  pose : ∀ newest ∈ (samplesSince trace).getLast?, s.previousPose = newest.pose
  steps : (samplesSince trace).IsChain (StepAllowed p E)
  differentiated : s.differentiated = true → 2 ≤ (samplesSince trace).length
  reason : s.localReason ≠ .ready

/-- Stamps and times of receipt in the queue are in order and not ahead of the
clocks. -/
structure Queue (c : Clocks) (s : State K) : Prop where
  ordered : s.pending.Pairwise fun a b => a.stamp < b.stamp ∧ a.received ≤ b.received
  known : ∀ q ∈ s.pending, ∃ last, s.lastLocalStamp = some last ∧ q.stamp ≤ last
  notAhead : ∀ q ∈ s.pending, -p.futureTolerance ≤ elapsed c.ros q.stamp ∧ q.received ≤ c.steady

/-- Every one of `times` is at most the watermark. -/
def Bounded (watermark : Option TimePoint) (times : List TimePoint) : Prop :=
  ∀ t ∈ times, ∃ w, watermark = some w ∧ t ≤ w

/-- The watermarks bound the past, and the correction in force is above both. -/
structure Watermarks (s : State K) (trace : List (Occurrence K)) : Prop where
  recovery : Bounded s.recoveryAfter (boundaries trace)
  increasing : (nativeStamps trace).Pairwise (· < ·)
  native : Bounded s.lastCorrectionStamp (nativeStamps trace)
  inForce : ∀ stamp, s.correctionStamp = some stamp →
    (∃ k, (corrections trace).getLast? = some k ∧ k.stamp = stamp ∧ k.transform = s.correction ∧
      s.correctionReceivedAt = some k.receivedAt) ∧
    ∀ boundary ∈ boundaries trace, boundary < stamp
  published : ∀ stamp, s.publishedCorrectionStamp = some stamp →
    Bounded s.lastCorrectionStamp [stamp] ∧
    ∃ pose, (transforms p.map p.odom trace).getLast? = some (pose, stamp) ∧
      (s.correctionStamp = some stamp → pose = s.correction)

structure Consistent (c : Clocks) (s : State K) (trace : List (Occurrence K)) : Prop where
  baseline : Baseline p E s trace
  queue : Queue p c s
  watermarks : Watermarks p s trace

variable {p E}

theorem consistent_initial (c : Clocks) : Consistent p E c .initial [] := by
  refine ⟨⟨rfl, rfl, ?_, .nil, ?_, ?_⟩, ⟨.nil, ?_, ?_⟩, ⟨?_, .nil, ?_, ?_, ?_⟩⟩ <;>
    simp [State.initial, samplesSince, Bounded]

section
variable {c c' : Clocks} {s : State K} {trace : List (Occurrence K)}

theorem Consistent.mono [IsStrictOrderedRing K] (hc : c ≤ c') (h : Consistent p E c s trace) :
    Consistent p E c' s trace := by
  refine ⟨h.baseline, ⟨h.queue.ordered, h.queue.known, fun q hq => ?_⟩, h.watermarks⟩
  obtain ⟨hr, hs⟩ := h.queue.notAhead q hq
  exact ⟨hr.trans (elapsed_le_elapsed hc.1), hs.trans hc.2⟩

section Bounds
variable {watermark : Option TimePoint} {times : List TimePoint} {t : TimePoint}

theorem Bounded.lt (h : Bounded watermark times) (ht : ∀ w ∈ watermark, w < t) :
    ∀ u ∈ times, u < t := by
  intro u hu
  obtain ⟨w, hw, hle⟩ := h u hu
  exact hle.trans_lt (ht w hw)

theorem Bounded.snoc (h : Bounded watermark times) (ht : ∀ w ∈ watermark, w < t) :
    Bounded (some t) (times ++ [t]) := by
  intro u hu
  refine ⟨t, rfl, ?_⟩
  obtain hu | hu := List.mem_append.mp hu
  · exact (h.lt ht u hu).le
  · exact (List.mem_singleton.mp hu).le

theorem Bounded.snoc_max (h : Bounded watermark times) :
    Bounded (some (watermark.elim t (max t))) (times ++ [t]) := by
  intro u hu
  refine ⟨_, rfl, ?_⟩
  obtain hu | hu := List.mem_append.mp hu
  · obtain ⟨w, rfl, hle⟩ := h u hu
    exact hle.trans (le_max_right t w)
  · obtain rfl := List.mem_singleton.mp hu
    cases watermark with
    | none => exact le_rfl
    | some w => exact le_max_left u w

theorem Bounded.mono {u : TimePoint} (h : Bounded watermark times) (ht : ∀ w ∈ watermark, w < u) :
    Bounded (some u) times := fun x hx => ⟨u, rfl, (h.lt ht x hx).le⟩

end Bounds

section Frame
variable {s' : State K} {trace' : List (Occurrence K)}

theorem Baseline.frame (h : Baseline p E s trace) (ht : samplesSince trace' = samplesSince trace)
    (hstamp : s'.previousStamp = s.previousStamp) (hat : s'.localAcceptedAt = s.localAcceptedAt)
    (hpose : s'.previousPose = s.previousPose) (hd : s'.differentiated = s.differentiated)
    (hr : s'.localReason = s.localReason) : Baseline p E s' trace' := by
  constructor
  · rw [ht, hstamp, h.stamp]
  · rw [ht, hat, h.acceptedAt]
  · rw [ht, hpose]; exact h.pose
  · rw [ht]; exact h.steps
  · rw [ht, hd]; exact h.differentiated
  · rw [hr]; exact h.reason

theorem Queue.frame (h : Queue p c s) (hrest : s'.pending.Sublist s.pending)
    (hl : s'.lastLocalStamp = s.lastLocalStamp) : Queue p c s' where
  ordered := h.ordered.sublist hrest
  known := fun q hq => hl ▸ h.known q (hrest.subset hq)
  notAhead := fun q hq => h.notAhead q (hrest.subset hq)

/-- The watermarks do not look at the local stream. -/
theorem Watermarks.frame (h : Watermarks p s trace) (hr : s'.recoveryAfter = s.recoveryAfter)
    (hl : s'.lastCorrectionStamp = s.lastCorrectionStamp)
    (hs : s'.correctionStamp = s.correctionStamp) (hc : s'.correction = s.correction)
    (hat : s'.correctionReceivedAt = s.correctionReceivedAt)
    (hp : s'.publishedCorrectionStamp = s.publishedCorrectionStamp) : Watermarks p s' trace := by
  constructor
  · rw [hr]; exact h.recovery
  · exact h.increasing
  · rw [hl]; exact h.native
  · rw [hs, hc, hat]; exact h.inForce
  · rw [hp, hl, hs, hc]; exact h.published

/-- What is appended tells nothing about corrections or invalidations. -/
theorem Watermarks.append (h : Watermarks p s trace) {more : List (Occurrence K)}
    (hb : boundaries more = []) (hn : nativeStamps more = []) (hc : corrections more = [])
    (ht : transforms p.map p.odom more = []) : Watermarks p s (trace ++ more) := by
  constructor
  · simpa [hb] using h.recovery
  · simpa [hn] using h.increasing
  · simpa [hn] using h.native
  · simpa [hb, hc] using h.inForce
  · simpa [ht] using h.published

end Frame

/-! ### Receiving keeps the invariant -/

theorem invalidateLocal_keeps {reason : Reason} (h : Watermarks p s trace) (hr : reason ≠ .ready) :
    Keeps (Consistent p E c) trace (invalidateLocal c reason s) where
  baseline :=
    { stamp := by simp [invalidateLocal]
      acceptedAt := by simp [invalidateLocal]
      pose := by simp [invalidateLocal]
      steps := by simp [invalidateLocal]
      differentiated := by simp [invalidateLocal]
      reason := hr }
  queue := ⟨.nil, by simp [invalidateLocal], by simp [invalidateLocal]⟩
  watermarks :=
    { recovery := by simpa [invalidateLocal] using h.recovery.snoc_max
      increasing := by simpa [invalidateLocal] using h.increasing
      native := by simpa [invalidateLocal] using h.native
      inForce := by simp [invalidateLocal]
      published := by
        intro stamp hs
        obtain ⟨hle, pose, hpose, -⟩ := h.published stamp hs
        exact ⟨hle, pose, by simpa [invalidateLocal] using hpose, by simp [invalidateLocal]⟩ }

theorem Watermarks.forget (h : Watermarks p s trace) :
    Watermarks p { s with correctionStamp := none } trace where
  recovery := h.recovery
  increasing := h.increasing
  native := h.native
  inForce := by simp
  published := by
    intro stamp hs
    obtain ⟨hle, pose, hpose, -⟩ := h.published stamp hs
    exact ⟨hle, pose, hpose, by simp⟩

/-- A native correction that is not in force only moves the watermark. -/
theorem Watermarks.drop (h : Watermarks p s trace) {stamp : TimePoint}
    (hw : ∀ w ∈ s.lastCorrectionStamp, w < stamp) :
    Watermarks p { s with lastCorrectionStamp := some stamp } (trace ++ [.dropped stamp]) where
  recovery := by simpa using h.recovery
  increasing := by
    simpa [List.pairwise_append, h.increasing] using h.native.lt hw
  native := by simpa using h.native.snoc hw
  inForce := by simpa using h.inForce
  published := by
    intro old hs
    obtain ⟨hle, hpose⟩ := h.published old hs
    exact ⟨hle.mono hw, by simpa using hpose⟩

theorem Watermarks.correct (h : Watermarks p s trace) {stamp : TimePoint} {T : Isometry3d K}
    {received : TimePoint} (hw : ∀ w ∈ s.lastCorrectionStamp, w < stamp)
    (hr : ∀ r ∈ s.recoveryAfter, r < stamp) :
    Watermarks p
      { s with
        lastCorrectionStamp := some stamp, correction := T, correctionStamp := some stamp,
        correctionReceivedAt := some received }
      (trace ++ [.corrected ⟨stamp, T, received⟩]) where
  recovery := by simpa using h.recovery
  increasing := by
    simpa [List.pairwise_append, h.increasing] using h.native.lt hw
  native := by simpa using h.native.snoc hw
  inForce := by
    intro stamp' hs
    obtain rfl : stamp = stamp' := Option.some.inj hs
    exact ⟨⟨⟨stamp, T, received⟩, by simp⟩, by simpa using h.recovery.lt hr⟩
  published := by
    intro old hs
    obtain ⟨hle, pose, hpose, -⟩ := h.published old hs
    refine ⟨hle.mono hw, pose, by simpa using hpose, ?_⟩
    -- what was published before is older than the new correction
    intro hnew
    have hlt := hle.lt hw old (by simp)
    exact absurd (Option.some.inj hnew) hlt.ne'

theorem not_any_le {w : Option TimePoint} {t : TimePoint} (h : ¬ w.any (t ≤ ·) = true) :
    ∀ v ∈ w, v < t := by
  intro v hv
  obtain rfl : w = some v := hv
  simpa using h

theorem receiveTransform_keeps (tf : TransformStamped (Double K)) (h : Consistent p E c s trace) :
    Keeps (Consistent p E c) trace (receiveTransform p E c tf s) := by
  obtain ⟨hb, hq, hw⟩ := h
  have same : Keeps (Consistent p E c) trace (s, []) := by simpa [Keeps] using ⟨hb, hq, hw⟩
  have forgotten : Keeps (Consistent p E c) trace ({ s with correctionStamp := none }, []) := by
    rw [Keeps, List.append_nil]
    exact ⟨hb.frame rfl rfl rfl rfl rfl rfl, hq.frame (.refl _) rfl, hw.forget⟩
  unfold receiveTransform
  split
  · exact same
  split
  · exact forgotten
  next stamp hs =>
  split
  · exact same
  next hold =>
  simp only [Bool.or_eq_true, not_or] at hold
  split
  · exact forgotten
  next T hT =>
  dsimp only
  split
  · exact ⟨hb.frame (by simp) rfl rfl rfl rfl rfl, hq.frame (.refl _) rfl,
      hw.drop (not_any_le hold.2)⟩
  · next hrec =>
    exact ⟨hb.frame (by simp) rfl rfl rfl rfl rfl, hq.frame (.refl _) rfl,
      hw.correct (not_any_le hold.2) (not_any_le hrec)⟩

theorem receiveNativeTf_keeps (transforms : List (TransformStamped (Double K)))
    (h : Consistent p E c s trace) :
    Keeps (Consistent p E c) trace (receiveNativeTf p E c transforms s) :=
  keeps_foldl _ (fun tf _ _ h => receiveTransform_keeps tf h) transforms h

theorem validated_fresh {input : Odometry (Double K)} {stamp : TimePoint}
    (h : validated p E c input = some stamp) : fresh p c stamp p.localTimeout = true := by
  unfold validated at h
  split at h
  · simp at h
  · split at h
    · simp at h
    · split at h
      · simp at h
      · split at h
        · simp at h
        · obtain rfl := Option.some.inj h
          simp_all

theorem fresh_iff {stamp : TimePoint} {timeout : K} : fresh p c stamp timeout = true ↔
    -p.futureTolerance ≤ elapsed c.ros stamp ∧ elapsed c.ros stamp ≤ timeout := by
  simp [fresh]

theorem receiveOdometry_keeps (input : Odometry (Double K)) (h : Consistent p E c s trace) :
    Keeps (Consistent p E c) trace (receiveOdometry p E c input s) := by
  obtain ⟨hb, hq, hw⟩ := h
  unfold receiveOdometry
  split
  · exact invalidateLocal_keeps hw (by simp)
  next stamp hv =>
  have hnew : ∀ last, s.lastLocalStamp = some last → ¬ s.lastLocalStamp = some stamp →
      ¬ s.lastLocalStamp.any (stamp < ·) = true → last < stamp := by
    intro last hl hne hlt
    simp only [hl, Option.some.injEq, Option.any_some, decide_eq_true_eq] at hne hlt
    exact lt_of_le_of_ne (not_lt.mp hlt) hne
  split
  · simpa [Keeps] using ⟨hb, hq, hw⟩
  next hne =>
  split
  · exact invalidateLocal_keeps (hw.frame rfl rfl rfl rfl rfl rfl) (by simp)
  next hlt =>
  have hs := fresh_iff.mp (validated_fresh hv)
  -- the new sample goes behind stamps that are smaller and were received before
  have hpush : Queue p c
      { s with lastLocalStamp := some stamp, pending := s.pending ++ [⟨input, stamp, c.steady⟩] } := by
    refine ⟨List.pairwise_append.mpr ⟨hq.ordered, List.pairwise_singleton _ _, ?_⟩, ?_, ?_⟩
    · intro q hmem q' hmem'
      obtain rfl := List.mem_singleton.mp hmem'
      obtain ⟨last, hl, hle⟩ := hq.known q hmem
      exact ⟨hle.trans_lt (hnew last hl hne hlt), (hq.notAhead q hmem).2⟩
    · intro q hmem
      refine ⟨stamp, rfl, ?_⟩
      obtain hmem | hmem := List.mem_append.mp hmem
      · obtain ⟨last, hl, hle⟩ := hq.known q hmem
        exact (hle.trans_lt (hnew last hl hne hlt)).le
      · obtain rfl := List.mem_singleton.mp hmem
        exact le_rfl
    · intro q hmem
      obtain hmem | hmem := List.mem_append.mp hmem
      · exact hq.notAhead q hmem
      · obtain rfl := List.mem_singleton.mp hmem
        exact ⟨hs.1, le_rfl⟩
  rw [Keeps, List.append_nil]
  exact ⟨hb.frame rfl rfl rfl rfl rfl rfl, hpush.frame (List.drop_sublist _ _) rfl,
    hw.frame rfl rfl rfl rfl rfl rfl⟩

/-! ### The timer keeps the invariant -/

/-- The baseline, where there is one, is recent on both clocks. -/
def Current (p : Params K) (c : Clocks) (s : State K) : Prop :=
  ∀ previous, s.previousStamp = some previous → fresh p c previous p.localTimeout = true ∧
    ∃ acceptedAt, s.localAcceptedAt = some acceptedAt ∧
      elapsed c.steady acceptedAt ≤ p.localTimeout

theorem current_of_none (h : s.previousStamp = none) : Current p c s := by
  intro previous hs
  simp [h] at hs

theorem current_of_advancing (h : ¬ notAdvancing p c s = true) : Current p c s := by
  intro previous hs
  cases ha : s.localAcceptedAt with
  | none => simp [notAdvancing, hs, ha] at h
  | some acceptedAt =>
    simp only [notAdvancing, hs, ha, Option.any_some, Option.all_some, Bool.or_eq_true,
      Bool.not_eq_true', decide_eq_true_eq, not_or, Bool.not_eq_false, not_lt] at h
    exact ⟨h.1, acceptedAt, rfl, h.2⟩

theorem mem_dropWhile_expired [IsStrictOrderedRing K] (h : Queue p c s) {q : PendingOdometry K}
    (hq : q ∈ s.pending.dropWhile (expired p c)) : fresh p c q.stamp p.localTimeout = true := by
  have hsub := List.dropWhile_sublist (l := s.pending) (expired p c)
  have hord := h.ordered.sublist hsub
  have hhead := List.head?_dropWhile_not (expired p c) s.pending
  cases hl : s.pending.dropWhile (expired p c) with
  | nil => simp [hl] at hq
  | cons first rest =>
    rw [hl] at hq hord hhead
    have hfirst : fresh p c first.stamp p.localTimeout = true := by
      simp only [List.head?_cons, expired, Bool.or_eq_false_iff, Bool.not_eq_false'] at hhead
      exact hhead.1
    obtain rfl | hmem := List.mem_cons.mp hq
    · exact hfirst
    · -- a later sample is younger than the first one
      have hlt := ((List.pairwise_cons.mp hord).1 q hmem).1
      have hmem' : q ∈ s.pending := hsub.subset (hl ▸ List.mem_cons_of_mem first hmem)
      have hyoung : (elapsed c.ros q.stamp : K) ≤ elapsed c.ros first.stamp := by
        unfold elapsed
        gcongr
      exact fresh_iff.mpr ⟨(h.notAhead q hmem').1, hyoung.trans (fresh_iff.mp hfirst).2⟩

theorem expire_keeps [IsStrictOrderedRing K] (h : Consistent p E c s trace) :
    Keeps (fun s trace => Consistent p E c s trace ∧ Current p c s ∧
      ∀ q ∈ s.pending, fresh p c q.stamp p.localTimeout = true) trace (expire p c s) := by
  have hfirst : Keeps (fun s trace => Consistent p E c s trace ∧ Current p c s) trace
      (if notAdvancing p c s then invalidateLocal c .localOdometryNotAdvancing s else (s, [])) := by
    split
    · exact ⟨invalidateLocal_keeps h.watermarks (by simp), current_of_none rfl⟩
    · next hadv => exact ⟨by simpa using h, current_of_advancing hadv⟩
  obtain ⟨hc, hcur⟩ := hfirst
  unfold expire
  generalize (if notAdvancing p c s then invalidateLocal c .localOdometryNotAdvancing s
    else (s, [])) = r at hc hcur
  simp only [Keeps, Reaction.andThen_fst, Reaction.andThen_snd, List.append_nil]
  obtain ⟨hb, hq, hw⟩ := hc
  refine ⟨⟨hb.frame rfl rfl rfl rfl rfl rfl, hq.frame (List.dropWhile_sublist _) rfl,
    hw.frame rfl rfl rfl rfl rfl rfl⟩, hcur, ?_⟩
  intro q hmem
  exact mem_dropWhile_expired hq hmem

/-- What is selected is a queued sample, with the outcome of its attempt. -/
theorem select_eq_some {tf : RobotTf K} {n index : ℕ} {candidate : PendingOdometry K}
    {outcome : Attempt K} (h : select p E tf s n = some (index, candidate, outcome)) :
    candidate ∈ s.pending ∧ attempt p E tf s candidate = outcome := by
  induction n with
  | zero => simp [select] at h
  | succ n ih =>
    unfold select at h
    split at h
    · simp at h
    next q hq =>
    split at h
    · exact ih h
    · next other hother =>
      simp only [Option.some.injEq, Prod.mk.injEq] at h
      obtain ⟨-, rfl, rfl⟩ := h
      exact ⟨List.mem_of_getElem? hq, rfl⟩

/-- A sample may follow the baseline. -/
def MayFollow (p : Params K) (E : Eigen3d K) (s : State K) (stamp : TimePoint)
    (pose : Isometry3d K) : Prop :=
  ∀ previous, s.previousStamp = some previous →
    0 < (elapsed stamp previous : K) ∧ elapsed stamp previous ≤ p.localTimeout ∧
      ¬ Double.numLT p.maxStep (E.distance pose.translation s.previousPose.translation) = true ∧
      (E.angleAxis (s.previousPose.linear.transpose * pose.linear)).2 ≤ p.maxAngle

theorem differentiate_accept {stamp : TimePoint} {pose pose' : Isometry3d K}
    {twist : Twist (Double K)}
    (h : differentiate p E s stamp pose' = .accept pose twist) : MayFollow p E s stamp pose := by
  intro previous hs
  simp only [differentiate, hs] at h
  split at h
  · simp at h
  next hstep =>
  simp only [not_or, not_le, not_lt] at hstep
  split at h
  · simp at h
  · simp only [Attempt.accept.injEq] at h
    obtain ⟨rfl, -⟩ := h
    exact hstep

theorem attempt_accept {tf : RobotTf K} {q : PendingOdometry K} {pose : Isometry3d K}
    {twist : Twist (Double K)} (h : attempt p E tf s q = .accept pose twist) :
    MayFollow p E s q.stamp pose := by
  unfold attempt at h
  split at h
  · simp at h
  split at h
  · simp at h
  split at h
  · simp at h
  split at h
  · exact differentiate_accept h
  · simp at h

theorem accept_keeps {index : ℕ} {stamp : TimePoint} {pose : Isometry3d K}
    {twist : Twist (Double K)}
    (h : Consistent p E c s trace) (hstep : MayFollow p E s stamp pose) :
    Keeps (Consistent p E c) trace (accept p E c index stamp pose twist s) := by
  obtain ⟨hb, hq, hw⟩ := h
  have hframe := p.frames_ne.1
  refine ⟨⟨?_, ?_, ?_, ?_, ?_, hb.reason⟩, hq.frame (List.drop_sublist _ _) rfl,
    (hw.append rfl rfl rfl (by simp [accept, hframe])).frame rfl rfl rfl rfl rfl rfl⟩
  · simp [accept]
  · simp [accept]
  · simp [accept]
  · simp only [accept, samplesSince_append, List.foldl_cons, List.foldl_nil, keepSample]
    refine List.isChain_append.mpr ⟨hb.steps, List.isChain_singleton _, ?_⟩
    intro last hlast next hnext
    obtain rfl : next = ⟨stamp, pose, c.steady⟩ := by simpa using hnext.symm
    have hprev : s.previousStamp = some last.stamp := by simp [hb.stamp, Option.mem_def.mp hlast]
    have hpose := hb.pose last hlast
    simpa [StepAllowed, hpose] using hstep last.stamp hprev
  · intro hd
    have hsome : (samplesSince trace).getLast?.isSome = true := by
      simpa [accept, hb.stamp] using hd
    have hne : samplesSince trace ≠ [] := by simpa using hsome
    simpa [accept, Nat.succ_le_iff] using List.length_pos_iff.mpr hne

omit [Field K] [LinearOrder K] in
theorem stamp_mem_nativeStamps {k : Correction K} (h : (corrections trace).getLast? = some k) :
    k.stamp ∈ nativeStamps trace := by
  obtain ⟨o, ho, hk⟩ := List.mem_filterMap.mp (List.mem_of_getLast? h)
  refine List.mem_filterMap.mpr ⟨o, ho, ?_⟩
  cases o <;> simp_all

theorem Consistent.status (h : Consistent p E c s trace) (reason : Reason) :
    Consistent p E c s (trace ++ [status reason]) :=
  ⟨h.baseline.frame (by simp [OdinLocalizationAdapter.status]) rfl rfl rfl rfl rfl, h.queue,
    h.watermarks.append rfl rfl rfl rfl⟩

/-- Publishing the correction in force. -/
theorem Consistent.publish (h : Consistent p E c s trace) {stamp : TimePoint}
    (hs : s.correctionStamp = some stamp) :
    Consistent p E c { s with publishedCorrectionStamp := some stamp }
      (trace ++ [.transform s.correction p.map p.odom stamp]) := by
  obtain ⟨hb, hq, hw⟩ := h
  refine ⟨hb.frame (by simp) rfl rfl rfl rfl rfl, hq.frame (.refl _) rfl, ⟨?_, ?_, ?_, ?_, ?_⟩⟩
  · simpa using hw.recovery
  · simpa using hw.increasing
  · simpa using hw.native
  · simpa using hw.inForce
  · intro stamp' hs'
    obtain rfl : stamp = stamp' := Option.some.inj hs'
    obtain ⟨⟨k, hk, rfl, -⟩, -⟩ := hw.inForce stamp hs
    refine ⟨?_, s.correction, by simp, fun _ => rfl⟩
    intro t ht
    obtain rfl := List.mem_singleton.mp ht
    exact hw.native _ (stamp_mem_nativeStamps hk)

theorem report_keeps (h : Consistent p E c s trace) :
    Keeps (Consistent p E c) trace (report p c s) := by
  unfold report
  dsimp only
  split
  · split
    · next stamp hs =>
      have := (h.publish hs).status (readiness p c s)
      simpa [Keeps, List.append_assoc] using this
    · exact h.status _
  · exact h.status _

/-! ### A tick -/

/-- How a tick ends: it reports its readiness, or why the baseline was given up. -/
def Ends (p : Params K) (E : Eigen3d K) (c : Clocks) (trace : List (Occurrence K)) (r : Callback K) :
    Prop :=
  ∃ s before, Consistent p E c s (trace ++ before) ∧ Current p c s ∧
    (∀ text ready, .status text ready ∉ before) ∧
    (r = Reaction.andThen (s, before) (report p c) ∨
      r = Reaction.andThen (s, before) fun s => (s, [status s.localReason]))

theorem Ends.prepend {r : Callback K} {f : State K → Callback K}
    (hr : ∀ text ready, .status text ready ∉ r.2) (h : Ends p E c (trace ++ r.2) (f r.1)) :
    Ends p E c trace (r.andThen f) := by
  obtain ⟨s, before, hc, hcur, hno, hend⟩ := h
  refine ⟨s, r.2 ++ before, by simpa using hc, hcur, ?_, ?_⟩
  · intro text ready hmem
    exact (List.mem_append.mp hmem).elim (hr text ready) (hno text ready)
  · refine hend.imp (fun h => ?_) (fun h => ?_) <;> simp [Reaction.andThen, h]

theorem ends_report (h : Consistent p E c s trace) (hcur : Current p c s) :
    Ends p E c trace (report p c s) :=
  ⟨s, [], by simpa using h, hcur, by simp, .inl (by simp [Reaction.andThen])⟩

theorem expire_no_status (text : String) (ready : Bool) :
    .status text ready ∉ (expire p c s).2 := by
  unfold expire
  split <;> simp [invalidateLocal]

theorem process_ends [IsStrictOrderedRing K] (tf : RobotTf K) (h : Consistent p E c s trace) :
    Ends p E c trace (process p E c tf s) := by
  refine Ends.prepend expire_no_status ?_
  obtain ⟨hc, hcur, hlive⟩ := expire_keeps h
  generalize (expire p c s).1 = s at *
  generalize trace ++ (expire p c _).2 = trace at *
  have hinv : ∀ reason, reason ≠ .ready → Keeps (Consistent p E c) trace (invalidateLocal c reason s) :=
    fun reason => invalidateLocal_keeps hc.watermarks
  split
  · refine ⟨_, [_], hinv .localOdometryDiscontinuity (by simp), current_of_none rfl, by simp, .inr rfl⟩
  · exact ⟨_, [_], hinv .invalidTransformedLocalPose (by simp), current_of_none rfl, by simp, .inl rfl⟩
  · next index candidate pose twist hsel =>
    obtain ⟨hmem, hatt⟩ := select_eq_some (Option.ite_none_right_eq_some.mp hsel).2
    refine ⟨_, _, accept_keeps hc (attempt_accept hatt), ?_, by simp [accept], .inl rfl⟩
    intro previous hs
    obtain rfl : candidate.stamp = previous := Option.some.inj hs
    refine ⟨hlive candidate hmem, c.steady, rfl, ?_⟩
    simpa [elapsed] using p.localTimeout_pos.le
  · exact ends_report hc hcur

theorem Ends.keeps {r : Callback K} (h : Ends p E c trace r) :
    Keeps (Consistent p E c) trace r := by
  obtain ⟨s, before, hc, -, -, rfl | rfl⟩ := h
  · simpa [Keeps, Reaction.andThen] using report_keeps hc
  · simpa [Keeps, Reaction.andThen] using hc.status s.localReason

theorem step_keeps [IsStrictOrderedRing K] (e : Event K) (h : Consistent p E e.clocks s trace) :
    Keeps (Consistent p E e.clocks) trace (step p E e s) := by
  unfold step
  cases e.input with
  | odometry message => exact receiveOdometry_keeps message h
  | nativeTf transforms => exact receiveNativeTf_keeps transforms h
  | tick tf => exact (process_ends tf h).keeps

theorem run_consistent [IsStrictOrderedRing K] (events : List (Event K)) (c : Clocks)
    (hc : (events.map Event.clocks ++ [c]).Pairwise (· ≤ ·)) :
    Consistent p E c (run p E events).1 (run p E events).2 :=
  run_keeps consistent_initial Consistent.mono (fun e _ _ h => step_keeps e h) events c hc

/-! ### Readiness -/

theorem readiness_eq_ready (h : readiness p c s = .ready) (hr : s.localReason ≠ .ready) :
    s.previousStamp.isSome = true ∧ p.alignmentConfirmed = true ∧ s.differentiated = true ∧
    ∃ stamp received, s.correctionStamp = some stamp ∧ s.correctionReceivedAt = some received ∧
      fresh p c stamp p.correctionTimeout = true ∧
      elapsed c.steady received ≤ p.correctionTimeout := by
  unfold readiness at h
  cases hs : s.previousStamp with
  | none =>
    simp only [hs, Option.isNone_none, if_true] at h
    split at h
    · exact absurd h hr
    · simp at h
  | some previous =>
    simp only [hs, Option.isNone_some, Bool.false_eq_true, if_false] at h
    split at h
    · simp at h
    next hconf =>
    split at h
    · simp at h
    next hcorr =>
    split at h
    · simp at h
    next hdiff =>
    simp only [Bool.or_eq_true, not_or] at hcorr
    cases hk : s.correctionStamp with
    | none => simp [hk] at hcorr
    | some stamp =>
      cases ha : s.correctionReceivedAt with
      | none => simp [ha] at hcorr
      | some received =>
        simp only [hk, ha, Option.all_some, Bool.not_eq_true', Bool.not_eq_false,
          decide_eq_true_eq, not_lt] at hcorr
        exact ⟨rfl, by simpa using hconf, by simpa using hdiff, stamp, received, rfl, rfl, hcorr⟩

theorem eq_text_of_mem_report {text : String} {b : Bool} (h : .status text b ∈ (report p c s).2) :
    text = (readiness p c s).text := by
  unfold report at h
  dsimp only at h
  have hlast : ∀ reason : Reason, Occurrence.status text b = status (K := K) reason →
      text = reason.text := by
    intro reason hr
    exact (Occurrence.status.inj hr).1
  split at h
  · split at h
    · simp only [List.mem_cons, reduceCtorEq, List.not_mem_nil, or_false, false_or] at h
      exact hlast _ h
    · exact hlast _ (List.mem_singleton.mp h)
  · exact hlast _ (List.mem_singleton.mp h)

/-- A tick that reports `ready` ends in a state that is ready. -/
theorem Ends.ready {r : Callback K} (h : Ends p E c trace r) (hr : "ready" ∈ statuses r.2) :
    ∃ s before, Consistent p E c s (trace ++ before) ∧ Current p c s ∧ readiness p c s = .ready ∧
      r = Reaction.andThen (s, before) (report p c) := by
  obtain ⟨s, before, hc, hcur, hno, hend⟩ := h
  refine ⟨s, before, hc, hcur, ?_⟩
  obtain ⟨b, hr⟩ : ∃ b, .status "ready" b ∈ r.2 := by
    obtain ⟨o, ho, htext⟩ := List.mem_filterMap.mp hr
    cases o with
    | status text b => obtain rfl := Option.some.inj htext; exact ⟨b, ho⟩
    | _ => simp at htext
  obtain rfl | rfl := hend
  · refine ⟨?_, rfl⟩
    rw [Reaction.andThen_snd, List.mem_append] at hr
    have hlast := hr.resolve_left (hno _ _)
    exact Reason.text_eq_ready.mp (eq_text_of_mem_report hlast).symm
  · rw [Reaction.andThen_snd, List.mem_append] at hr
    have hlast := List.mem_singleton.mp (hr.resolve_left (hno _ _))
    have htext := (Occurrence.status.inj hlast).1
    exact absurd (Reason.text_eq_ready.mp htext.symm) hc.baseline.reason

/-- The report of a ready state only publishes the correction in force. -/
theorem report_of_ready {stamp : TimePoint} (h : readiness p c s = .ready)
    (hs : s.correctionStamp = some stamp) :
    (report p c s).1 = { s with publishedCorrectionStamp := some stamp } := by
  unfold report
  dsimp only
  split
  · rw [hs]
  · next hpub =>
    have hpub : s.publishedCorrectionStamp = some stamp := by simpa [h, hs] using hpub
    rw [← hpub]

theorem Consistent.localReady (h : Consistent p E c s trace) (hcur : Current p c s)
    (hs : s.previousStamp.isSome = true) (hd : s.differentiated = true) : LocalReady p E c trace := by
  refine ⟨h.baseline.differentiated hd, h.baseline.steps, ?_⟩
  obtain ⟨previous, hprev⟩ := Option.isSome_iff_exists.mp hs
  obtain ⟨hfresh, acceptedAt, hat, hrecent⟩ := hcur previous hprev
  obtain ⟨newest, hnew, rfl⟩ := Option.map_eq_some_iff.mp (h.baseline.stamp.symm.trans hprev)
  have hacc := h.baseline.acceptedAt
  rw [hnew, Option.map_some, hat] at hacc
  obtain rfl := Option.some.inj hacc
  exact ⟨newest, hnew, (fresh_iff.mp hfresh).1, (fresh_iff.mp hfresh).2, hrecent⟩

omit [Field K] [LinearOrder K] in
/-- The last correction, and nothing but other occurrences since. -/
theorem exists_last_correction {k : Correction K} (h : (corrections trace).getLast? = some k) :
    ∃ before after, trace = before ++ .corrected k :: after ∧ corrections after = [] := by
  obtain ⟨older, hk⟩ := List.getLast?_eq_some_iff.mp h
  obtain ⟨before, o, after, rfl, -, ho, hafter⟩ := Guarded.filterMap_eq_append_cons hk
  refine ⟨before, after, ?_, hafter⟩
  cases o with
  | corrected k' => obtain rfl := Option.some.inj ho; rfl
  | _ => simp at ho

theorem Consistent.correctionReady {stamp received : TimePoint} (h : Consistent p E c s trace)
    (hconf : p.alignmentConfirmed = true) (hs : s.correctionStamp = some stamp)
    (hp : s.publishedCorrectionStamp = some stamp) (hat : s.correctionReceivedAt = some received)
    (hfresh : fresh p c stamp p.correctionTimeout = true)
    (hrecent : elapsed c.steady received ≤ p.correctionTimeout) : CorrectionReady p c s trace := by
  refine ⟨hconf, ?_⟩
  obtain ⟨⟨k, hk, rfl, hT, hat'⟩, hbound⟩ := h.watermarks.inForce stamp hs
  obtain ⟨-, pose, hpose, hsame⟩ := h.watermarks.published k.stamp hp
  obtain rfl := hsame hs
  obtain rfl : received = k.receivedAt := Option.some.inj (hat.symm.trans hat')
  obtain ⟨before, after, htr, hafter⟩ := exists_last_correction hk
  have hinc := h.watermarks.increasing
  rw [htr, nativeStamps_append, List.pairwise_append] at hinc
  obtain ⟨hlo, hhi⟩ := fresh_iff.mp hfresh
  refine ⟨before, k, after, htr, hafter, hT.symm, hs, hrecent, hlo, hhi, hbound, ?_, ?_⟩
  · intro t ht
    exact hinc.2.2 t ht k.stamp (by simp)
  · rw [hT]; exact hpose

end

/-- Whenever a tick publishes `ready`, the local stream and the correction in
force are what readiness stands for, as far as the code compares the steps. -/
theorem process_ready_failClosed [IsStrictOrderedRing K] (p : Params K) (E : Eigen3d K)
    (events : List (Event K)) (c : Clocks) (tf : RobotTf K)
    (hc : (events.map Event.clocks ++ [c]).Pairwise (· ≤ ·))
    (hr : "ready" ∈ statuses (process p E c tf (run p E events).1).2) :
    LocalReady p E c (run p E (events ++ [⟨c, .tick tf⟩])).2 ∧
      CorrectionReady p c (run p E (events ++ [⟨c, .tick tf⟩])).1
        (run p E (events ++ [⟨c, .tick tf⟩])).2 := by
  have hrun : run p E (events ++ [⟨c, .tick tf⟩]) =
      (run p E events).andThen (process p E c tf) := run_snoc _ _ _ _
  rw [hrun]
  have hends : Ends p E c (run p E events).2 (process p E c tf (run p E events).1) :=
    process_ends tf (run_consistent events c hc)
  have hpost : Consistent p E c _ _ := hends.keeps
  obtain ⟨s, before, hs, hcur, hready, heq⟩ := hends.ready hr
  obtain ⟨hprev, hconf, hdiff, stamp, received, hstamp, hrec, hfresh, hrecent⟩ :=
    readiness_eq_ready hready hs.baseline.reason
  have hstate : (process p E c tf (run p E events).1).1 =
      { s with publishedCorrectionStamp := some stamp } := by
    rw [heq, Reaction.andThen_fst, report_of_ready hready hstamp]
  rw [Reaction.andThen_fst, Reaction.andThen_snd]
  rw [hstate] at hpost ⊢
  exact ⟨hpost.localReady hcur hprev hdiff, hpost.correctionReady hconf hstamp rfl hrec hfresh hrecent⟩

/-! ### A robot at rest -/

def restParams : Params ℚ where
  nativeOdom := "odom"
  nativeMap := "map"
  nativeImu := "imu"
  base := "base_link"
  odom := "odom"
  map := "map"
  offset := 0
  localTimeout := 1 / 4
  correctionTimeout := 1
  futureTolerance := 1 / 20
  maxStep := 1 / 2
  maxAngle := 1 / 2
  maxPendingSamples := 256
  poseVariance := 1 / 100
  twistVariance := 1 / 10
  alignmentConfirmed := true
  alignment := 1
  localTimeout_pos := by norm_num
  correctionTimeout_pos := by norm_num
  futureTolerance_pos := by norm_num
  maxStep_pos := by norm_num
  maxAngle_pos := by norm_num
  poseVariance_pos := by norm_num
  twistVariance_pos := by norm_num
  maxPendingSamples_mem := by decide
  frames_ne := by decide

/-- The library on the identity: zero and one are their own roots. -/
def restEigen : Eigen3d ℚ :=
  { sqrt := id, angleAxis := fun _ => (0, 0), quaternion := fun _ => ⟨0, 0, 0, 1⟩,
    rounding := .binary64 }

def restTransform : Transform (Double ℚ) := ⟨0, ⟨0, 0, 0, .finite 1⟩⟩

def restTf : RobotTf ℚ := ⟨some 0, fun _ => true, fun _ => some restTransform⟩

/-- A sample stamped `tenths` tenths of a second after second ten. -/
def restMessage (tenths : UInt32) : Odometry (Double ℚ) where
  header := ⟨⟨10, tenths * 100000000⟩, "odom"⟩
  childFrameId := "imu"
  pose := ⟨⟨0, ⟨0, 0, 0, .finite 1⟩⟩, fun _ => 0⟩
  twist := ⟨0, fun _ => 0⟩

def restOdometry (tenths : UInt32) : Input ℚ := .odometry (restMessage tenths)

def restClocks (tenths : ℕ) : Clocks := ⟨10000000000 + tenths * 100000000, tenths * 100000000⟩

/-- Two samples, a tick after the first, and a correction. -/
def restEvents : List (Event ℚ) :=
  [⟨restClocks 0, restOdometry 0⟩, ⟨restClocks 0, .tick restTf⟩, ⟨restClocks 1, restOdometry 1⟩,
    ⟨restClocks 1, .nativeTf [⟨⟨⟨10, 100000000⟩, "odom"⟩, "map", restTransform⟩]⟩]

end X2Navigation.OdinLocalizationAdapter
