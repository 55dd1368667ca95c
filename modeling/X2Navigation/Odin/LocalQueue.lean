import X2Navigation.Odin.FailClosed

/-! The queue of local samples. Samples wait in the order of their stamps until
the robot's TF covers one; the newest covered sample is used and everything older
goes with it. A sample can only be lost to a newer one, to its age, to a full
queue, or to a reset of the whole baseline. -/

namespace X2Navigation.OdinLocalizationAdapter

open Rigid Traced

variable {K : Type*}

/-! ### Reading a trace -/

/-- The finished stretches, and the stamps published since the last of them. -/
def keepStamp (acc : List (List TimePoint) × List TimePoint) :
    Occurrence K → List (List TimePoint) × List TimePoint
  | .odometry output => (acc.1, acc.2 ++ [output.stamp])
  | .invalidated .localTimeRegression _ => (acc.1 ++ [acc.2], [])
  | _ => acc

def stretchesSince (trace : List (Occurrence K)) : List (List TimePoint) × List TimePoint :=
  trace.foldl keepStamp ([], [])

/-- The stamps of the odometry published, cut wherever local time went back. -/
def stretches (trace : List (Occurrence K)) : List (List TimePoint) :=
  (stretchesSince trace).1 ++ [(stretchesSince trace).2]

@[simp] def Occurrence.odometryStamp? : Occurrence K → Option TimePoint
  | .odometry output => some output.stamp
  | _ => none

@[simp] def Occurrence.reason? : Occurrence K → Option Reason
  | .invalidated reason _ => some reason
  | _ => none

def odometryStamps (trace : List (Occurrence K)) : List TimePoint :=
  trace.filterMap Occurrence.odometryStamp?

/-- Why the baseline was given up. -/
def reasons (trace : List (Occurrence K)) : List Reason := trace.filterMap Occurrence.reason?

@[simp] theorem stretchesSince_append (trace more : List (Occurrence K)) :
    stretchesSince (trace ++ more) = more.foldl keepStamp (stretchesSince trace) :=
  List.foldl_append

@[simp] theorem odometryStamps_append (trace more : List (Occurrence K)) :
    odometryStamps (trace ++ more) = odometryStamps trace ++ odometryStamps more :=
  List.filterMap_append

@[simp] theorem reasons_append (trace more : List (Occurrence K)) :
    reasons (trace ++ more) = reasons trace ++ reasons more :=
  List.filterMap_append

/-! ### The order of the queue -/

variable [Field K] [LinearOrder K] (p : Params K) (E : Eigen3d K)

/-- Stamps in order, all after the baseline, and not too many of them. -/
structure InOrder (s : State K) : Prop where
  increasing : s.pending.Pairwise fun a b => a.stamp < b.stamp
  afterBaseline : ∀ q ∈ s.pending, ∀ previous, s.previousStamp = some previous → previous < q.stamp
  bounded : s.pending.length ≤ p.maxPendingSamples

/-- The stamps published since local time last went back lie below the queue and
below the newest stamp received, and the baseline is one of them. -/
structure Orderly (s : State K) (trace : List (Occurrence K)) : Prop where
  increasing : s.pending.Pairwise fun a b => a.stamp < b.stamp
  bounded : s.pending.length ≤ p.maxPendingSamples
  known : Bounded s.lastLocalStamp (s.pending.map PendingOdometry.stamp)
  posed : ∀ q ∈ s.pending, (q.message.pose.pose.odinTransform E.toEigen).isSome = true
  finished : ∀ stretch ∈ (stretchesSince trace).1, stretch.Pairwise (· < ·)
  current : (stretchesSince trace).2.Pairwise (· < ·)
  below : ∀ t ∈ (stretchesSince trace).2, ∀ q ∈ s.pending, t < q.stamp
  received : Bounded s.lastLocalStamp (stretchesSince trace).2
  baseline : ∀ previous, s.previousStamp = some previous → previous ∈ (stretchesSince trace).2

variable {p E} {c : Clocks} {s : State K} {trace : List (Occurrence K)}

theorem Orderly.inOrder (h : Orderly p E s trace) : InOrder p s where
  increasing := h.increasing
  afterBaseline := fun q hq previous hs => h.below previous (h.baseline previous hs) q hq
  bounded := h.bounded

theorem Orderly.stretches_increasing (h : Orderly p E s trace) :
    ∀ stretch ∈ stretches trace, stretch.Pairwise (· < ·) := by
  intro stretch hmem
  obtain hmem | hmem := List.mem_append.mp hmem
  · exact h.finished stretch hmem
  · rw [List.mem_singleton.mp hmem]
    exact h.current

theorem orderly_initial : Orderly p E .initial [] := by
  constructor <;> simp [State.initial, stretchesSince, Bounded]

/-- What neither publishes odometry nor touches the queue. -/
theorem Orderly.frame {s' : State K} {trace' : List (Occurrence K)} (h : Orderly p E s trace)
    (ht : stretchesSince trace' = stretchesSince trace) (hq : s'.pending = s.pending)
    (hl : s'.lastLocalStamp = s.lastLocalStamp) (hs : s'.previousStamp = s.previousStamp) :
    Orderly p E s' trace' := by
  constructor
  · rw [hq]; exact h.increasing
  · rw [hq]; exact h.bounded
  · rw [hq, hl]; exact h.known
  · rw [hq]; exact h.posed
  · rw [ht]; exact h.finished
  · rw [ht]; exact h.current
  · rw [ht, hq]; exact h.below
  · rw [ht, hl]; exact h.received
  · rw [ht, hs]; exact h.baseline

theorem Orderly.dropOldest (h : Orderly p E s trace) {rest : List (PendingOdometry K)}
    (hsub : rest.Sublist s.pending) : Orderly p E { s with pending := rest } trace where
  increasing := h.increasing.sublist hsub
  bounded := hsub.length_le.trans h.bounded
  known := fun t ht => h.known t ((hsub.map _).subset ht)
  posed := fun q hq => h.posed q (hsub.subset hq)
  finished := h.finished
  current := h.current
  below := fun t ht q hq => h.below t ht q (hsub.subset hq)
  received := h.received
  baseline := h.baseline

/-! ### Callbacks keep the order -/

theorem invalidateLocal_orderly {reason : Reason} (h : Orderly p E s trace)
    (hr : reason ≠ .localTimeRegression) :
    Keeps (Orderly p E) trace (invalidateLocal c reason s) := by
  have ht : stretchesSince (trace ++ (invalidateLocal c reason s).2) = stretchesSince trace := by
    rw [stretchesSince_append]
    cases reason <;> first | rfl | exact absurd rfl hr
  rw [Keeps]
  constructor
  · exact List.Pairwise.nil
  · exact Nat.zero_le _
  · simp [invalidateLocal, Bounded]
  · simp [invalidateLocal]
  · rw [ht]; exact h.finished
  · rw [ht]; exact h.current
  · simp [invalidateLocal]
  · rw [ht]; exact h.received
  · simp [invalidateLocal]

/-- A regression starts a new stretch. -/
theorem regression_orderly (h : Orderly p E s trace) (last : Option TimePoint) :
    Keeps (Orderly p E) trace
      (invalidateLocal c .localTimeRegression { s with lastLocalStamp := last }) := by
  have ht : stretchesSince
      (trace ++ (invalidateLocal c .localTimeRegression { s with lastLocalStamp := last }).2) =
      ((stretchesSince trace).1 ++ [(stretchesSince trace).2], []) := by
    rw [stretchesSince_append]
    rfl
  rw [Keeps]
  constructor
  · exact List.Pairwise.nil
  · exact Nat.zero_le _
  · simp [invalidateLocal, Bounded]
  · simp [invalidateLocal]
  · rw [ht]; exact h.stretches_increasing
  · rw [ht]; exact List.Pairwise.nil
  · simp [invalidateLocal]
  · simp [ht, Bounded]
  · simp [invalidateLocal]

theorem receiveTransform_orderly (tf : TransformStamped (Double K)) (h : Orderly p E s trace) :
    Keeps (Orderly p E) trace (receiveTransform p E c tf s) := by
  have same : ∀ o : List (Occurrence K), stretchesSince (trace ++ o) = stretchesSince trace →
      Orderly p E s (trace ++ o) := fun o ho => h.frame ho rfl rfl rfl
  unfold receiveTransform
  split
  · exact same [] (by simp)
  split
  · exact (same [] (by simp)).frame rfl rfl rfl rfl
  split
  · exact same [] (by simp)
  split
  · exact (same [] (by simp)).frame rfl rfl rfl rfl
  dsimp only
  split
  · exact (same [.dropped _] (stretchesSince_append _ _)).frame rfl rfl rfl rfl
  · exact (same [.corrected _] (stretchesSince_append _ _)).frame rfl rfl rfl rfl

theorem validated_posed {input : Odometry (Double K)} {stamp : TimePoint}
    (h : validated p E c input = some stamp) :
    (input.pose.pose.odinTransform E.toEigen).isSome = true := by
  unfold validated at h
  split at h
  · simp at h
  · split at h
    · simp at h
    · split at h
      · simp at h
      · split at h
        · simp at h
        next hpose =>
        simpa [Option.isSome_iff_ne_none] using hpose

/-- A sample newer than everything received goes to the end of the queue. -/
theorem Orderly.push (h : Orderly p E s trace) {sample : PendingOdometry K}
    (hpose : (sample.message.pose.pose.odinTransform E.toEigen).isSome = true)
    (hnew : ∀ last ∈ s.lastLocalStamp, last < sample.stamp) :
    Orderly p E
      { s with
        lastLocalStamp := some sample.stamp
        pending := (s.pending ++ [sample]).drop
          ((s.pending ++ [sample]).length - p.maxPendingSamples) } trace := by
  have hlt : ∀ q ∈ s.pending, q.stamp < sample.stamp :=
    fun q hq => h.known.lt hnew q.stamp (List.mem_map_of_mem hq)
  have hinc : (s.pending ++ [sample]).Pairwise fun a b => a.stamp < b.stamp := by
    rw [List.pairwise_append]
    refine ⟨h.increasing, List.pairwise_singleton _ _, fun q hq q' hq' => ?_⟩
    rw [List.mem_singleton.mp hq']
    exact hlt q hq
  have hmem : ∀ {k}, ∀ q ∈ (s.pending ++ [sample]).drop k, q ∈ s.pending ∨ q = sample := by
    intro k q hq
    have h := (List.drop_sublist k _).subset hq
    simpa using h
  constructor
  · exact hinc.sublist (List.drop_sublist _ _)
  · simp only [List.length_drop]
    omega
  · intro t ht
    obtain ⟨q, hq, rfl⟩ := List.mem_map.mp ht
    refine ⟨sample.stamp, rfl, ?_⟩
    obtain hq | rfl := hmem q hq
    · exact (hlt q hq).le
    · exact le_rfl
  · intro q hq
    obtain hq | rfl := hmem q hq
    · exact h.posed q hq
    · exact hpose
  · exact h.finished
  · exact h.current
  · intro t ht q hq
    obtain hq | rfl := hmem q hq
    · exact h.below t ht q hq
    · exact h.received.lt hnew t ht
  · exact h.received.mono hnew
  · exact h.baseline

theorem receiveOdometry_orderly (input : Odometry (Double K)) (h : Orderly p E s trace) :
    Keeps (Orderly p E) trace (receiveOdometry p E c input s) := by
  unfold receiveOdometry
  split
  · exact invalidateLocal_orderly h (by simp)
  next stamp hv =>
  split
  · rw [Keeps, List.append_nil]
    exact h
  next hne =>
  split
  · exact regression_orderly h _
  next hlt =>
  have hnew : ∀ last ∈ s.lastLocalStamp, last < stamp := by
    intro last hl
    rw [Option.mem_def.mp hl] at hne hlt
    simp only [Option.some.injEq, Option.any_some, decide_eq_true_eq, not_lt] at hne hlt
    exact lt_of_le_of_ne hlt hne
  rw [Keeps, List.append_nil]
  exact h.push (validated_posed hv) hnew

theorem report_orderly (h : Orderly p E s trace) : Keeps (Orderly p E) trace (report p c s) := by
  unfold report
  dsimp only
  split
  · split
    · exact h.frame (by rw [stretchesSince_append]; rfl) rfl rfl rfl
    · exact h.frame (by rw [stretchesSince_append]; rfl) rfl rfl rfl
  · exact h.frame (by rw [stretchesSince_append]; rfl) rfl rfl rfl

theorem expire_orderly (h : Orderly p E s trace) : Keeps (Orderly p E) trace (expire p c s) := by
  have hfirst : Keeps (Orderly p E) trace
      (if notAdvancing p c s then invalidateLocal c .localOdometryNotAdvancing s else (s, [])) := by
    split
    · exact invalidateLocal_orderly h (by simp)
    · rw [Keeps, List.append_nil]
      exact h
  refine hfirst.andThen fun s trace hs => ?_
  rw [Keeps, List.append_nil]
  exact hs.dropOldest (List.dropWhile_sublist _)

/-! ### The scan -/

/-- The robot's TF reaches the stamp, and both queries at the stamp succeed. -/
def covered (tf : RobotTf K) (q : PendingOdometry K) : Bool :=
  tf.latest.any (fun latest => latest = 0 || decide (q.stamp ≤ latest)) &&
    tf.canTransform q.stamp && (tf.lookup q.stamp).isSome

/-- The mount found at the stamp has finite entries and a unit quaternion. -/
def mountValid (E : Eigen3d K) (tf : RobotTf K) (q : PendingOdometry K) : Bool :=
  (tf.lookup q.stamp).any fun mount => (mount.odinTransform E.toEigen).isSome

variable {tf : RobotTf K} {q : PendingOdometry K}

theorem attempt_of_uncovered (hl : tf.latest.isSome = true) (h : covered tf q = false) :
    attempt p E tf s q = .skip := by
  obtain ⟨latest, hl⟩ := Option.isSome_iff_exists.mp hl
  unfold attempt
  split
  · rfl
  next hold =>
  split
  · rfl
  next hcan =>
  cases hf : tf.lookup q.stamp with
  | none => rfl
  | some mount =>
    -- both guards passed and the lookup answered: the sample was covered
    have : covered tf q = true := by
      simp only [hl, Option.any_some, Bool.and_eq_true, decide_eq_true_eq, not_and, not_lt,
        ne_eq] at hold
      simp only [covered, hl, hf, Option.any_some, Option.isSome_some, Bool.and_true,
        Bool.and_eq_true, Bool.or_eq_true, decide_eq_true_eq]
      exact ⟨or_iff_not_imp_left.mpr hold, by simpa using hcan⟩
    simp [this] at h

/-- A covered sample gets as far as the two poses. -/
theorem attempt_of_covered (h : covered tf q = true) : ∃ mount, tf.lookup q.stamp = some mount ∧
    (mount.odinTransform E.toEigen = none → attempt p E tf s q = .invalid) ∧
    ∀ odomFromImu baseFromImu, q.message.pose.pose.odinTransform E.toEigen = some odomFromImu →
      mount.odinTransform E.toEigen = some baseFromImu →
      attempt p E tf s q =
        differentiate p E s q.stamp (Isometry3d.odinBasePose E odomFromImu baseFromImu) := by
  simp only [covered, Bool.and_eq_true] at h
  obtain ⟨⟨hlatest, hcan⟩, hfound⟩ := h
  obtain ⟨mount, hmount⟩ := Option.isSome_iff_exists.mp hfound
  have hreached :
      ¬ (tf.latest.any fun latest => latest ≠ 0 && decide (latest < q.stamp)) = true := by
    cases hl : tf.latest with
    | none => simp
    | some latest =>
      simp only [hl, Option.any_some, Bool.or_eq_true, decide_eq_true_eq] at hlatest
      simp only [Option.any_some, Bool.and_eq_true, decide_eq_true_eq, not_and, not_lt, ne_eq]
      exact fun hne => hlatest.resolve_left hne
  refine ⟨mount, hmount, fun hnone => ?_, fun odomFromImu baseFromImu hodom hbase => ?_⟩
  · unfold attempt
    rw [if_neg hreached, if_neg (by simp [hcan])]
    simp only [hmount, hnone]
    cases q.message.pose.pose.odinTransform E.toEigen <;> rfl
  · unfold attempt
    rw [if_neg hreached, if_neg (by simp [hcan])]
    simp only [hmount, hodom, hbase]

theorem attempt_of_badMount (h : covered tf q = true) (hm : mountValid E tf q = false) :
    attempt p E tf s q = .invalid := by
  obtain ⟨mount, hmount, hinvalid, -⟩ := attempt_of_covered (p := p) (E := E) (s := s) h
  exact hinvalid (by simpa [mountValid, hmount, Option.isSome_iff_ne_none] using hm)

theorem elapsed_pos [IsStrictOrderedRing K] {a b : TimePoint} (h : a < b) : (0 : K) < elapsed b a := by
  have hsub : (0 : K) < ((b - a : ℤ) : K) := by exact_mod_cast sub_pos.mpr h
  exact div_pos hsub (by positivity)

/-- Against an older baseline a pose is either used or too far away. -/
theorem differentiate_cases [IsStrictOrderedRing K] {stamp : TimePoint} (pose : Isometry3d K)
    (h : ∀ previous, s.previousStamp = some previous → previous < stamp) :
    (∃ twist, differentiate p E s stamp pose = .accept pose twist) ∨
      differentiate p E s stamp pose = .discontinuity := by
  unfold differentiate
  cases hs : s.previousStamp with
  | none => exact .inl ⟨0, rfl⟩
  | some previous =>
    have hdt : (0 : K) < elapsed stamp previous := elapsed_pos (h previous hs)
    dsimp only
    split
    · exact .inr rfl
    · unfold Isometry3d.odinLocalTwist
      rw [if_neg hdt.not_ge]
      exact .inl ⟨_, rfl⟩

theorem attempt_of_validMount [IsStrictOrderedRing K] (h : covered tf q = true)
    (hm : mountValid E tf q = true) (hq : (q.message.pose.pose.odinTransform E.toEigen).isSome = true)
    (hnew : ∀ previous, s.previousStamp = some previous → previous < q.stamp) :
    (∃ pose twist, attempt p E tf s q = .accept pose twist) ∨
      attempt p E tf s q = .discontinuity := by
  obtain ⟨mount, hmount, -, hatt⟩ := attempt_of_covered (p := p) (E := E) (s := s) h
  obtain ⟨odomFromImu, hodom⟩ := Option.isSome_iff_exists.mp hq
  obtain ⟨baseFromImu, hbase⟩ : ∃ T, mount.odinTransform E.toEigen = some T := by
    rw [← Option.isSome_iff_exists]
    simpa [mountValid, hmount] using hm
  rw [hatt odomFromImu baseFromImu hodom hbase]
  obtain ⟨twist, h⟩ | h := differentiate_cases (p := p) (E := E)
    (Isometry3d.odinBasePose E odomFromImu baseFromImu) hnew
  · exact .inl ⟨_, twist, h⟩
  · exact .inr h

/-- Skipped samples at the end do not matter. -/
theorem select_skip {n k : ℕ} (h : ∀ i, n ≤ i → i < n + k →
    ∃ q, s.pending[i]? = some q ∧ attempt p E tf s q = .skip) :
    select p E tf s (n + k) = select p E tf s n := by
  induction k with
  | zero => rfl
  | succ k ih =>
    obtain ⟨q, hq, hskip⟩ := h (n + k) (by omega) (by omega)
    rw [← Nat.add_assoc, select, hq]
    simp only [hskip]
    exact ih fun i hi hk => h i hi (by omega)

/-- What a tick settles on. -/
def choice (p : Params K) (E : Eigen3d K) (tf : RobotTf K) (s : State K) :
    Option (ℕ × PendingOdometry K × Attempt K) :=
  if tf.latest.isSome then select p E tf s s.pending.length else none

theorem choice_of_uncovered (h : ∀ q ∈ s.pending, covered tf q = false) :
    choice p E tf s = none := by
  unfold choice
  split
  · next hl =>
    have hskip : select p E tf s (0 + s.pending.length) = select p E tf s 0 := by
      refine select_skip fun i _ hi => ?_
      have hi : i < s.pending.length := by omega
      refine ⟨s.pending.get ⟨i, hi⟩, by simp, attempt_of_uncovered hl (h _ (List.get_mem _ _))⟩
    rw [Nat.zero_add] at hskip
    rw [hskip, select]
  · rfl

/-- The newest covered sample decides, whatever becomes of it. -/
theorem choice_of_covered {older newer : List (PendingOdometry K)}
    (hs : s.pending = older ++ q :: newer) (hq : covered tf q = true)
    (hnewer : ∀ q' ∈ newer, covered tf q' = false) (hatt : attempt p E tf s q ≠ .skip) :
    choice p E tf s = some (older.length + 1, q, attempt p E tf s q) := by
  have hl : tf.latest.isSome = true := by
    cases hl : tf.latest with
    | none => simp [covered, hl] at hq
    | some latest => rfl
  have hlen : s.pending.length = (older.length + 1) + newer.length := by
    rw [hs, List.length_append, List.length_cons]
    omega
  have hskip : ∀ i, older.length + 1 ≤ i → i < (older.length + 1) + newer.length →
      ∃ q', s.pending[i]? = some q' ∧ attempt p E tf s q' = .skip := by
    intro i hi hk
    obtain ⟨j, rfl⟩ := Nat.exists_eq_add_of_le hi
    have hj : j < newer.length := by omega
    refine ⟨newer.get ⟨j, hj⟩, ?_, attempt_of_uncovered hl (hnewer _ (List.get_mem _ _))⟩
    rw [hs, List.getElem?_append_right (by omega)]
    have : older.length + 1 + j - older.length = j + 1 := by omega
    simp [this]
  unfold choice
  have hget : s.pending[older.length]? = some q := by
    rw [hs, List.getElem?_append_right le_rfl, Nat.sub_self, List.getElem?_cons_zero]
  rw [if_pos hl, hlen, select_skip hskip, select, hget]
  dsimp only
  cases hout : attempt p E tf s q with
  | skip => exact absurd hout hatt
  | _ => rfl

omit [Field K] [LinearOrder K] in
theorem newest_covered (tf : RobotTf K) (queue : List (PendingOdometry K)) :
    (∀ q ∈ queue, covered tf q = false) ∨ ∃ older q newer, queue = older ++ q :: newer ∧
      covered tf q = true ∧ ∀ q' ∈ newer, covered tf q' = false := by
  induction queue with
  | nil => exact .inl (by simp)
  | cons first rest ih =>
    obtain hnone | ⟨older, q, newer, rfl, hq, hnewer⟩ := ih
    · cases hfirst : covered tf first with
      | false => exact .inl (List.forall_mem_cons.mpr ⟨hfirst, hnone⟩)
      | true => exact .inr ⟨[], first, rest, rfl, hfirst, hnone⟩
    · exact .inr ⟨first :: older, q, newer, rfl, hq, hnewer⟩

/-- A baseline older than the queue never makes the elapsed time the reason. -/
theorem Orderly.choice_cases [IsStrictOrderedRing K] (h : Orderly p E s trace)
    {older newer : List (PendingOdometry K)} (hs : s.pending = older ++ q :: newer)
    (hq : covered tf q = true) (hnewer : ∀ q' ∈ newer, covered tf q' = false) :
    (mountValid E tf q = false ∧ choice p E tf s = some (older.length + 1, q, .invalid)) ∨
    (mountValid E tf q = true ∧ choice p E tf s = some (older.length + 1, q, .discontinuity)) ∨
    (mountValid E tf q = true ∧
      ∃ pose twist, choice p E tf s = some (older.length + 1, q, .accept pose twist)) := by
  have hchoice := choice_of_covered (p := p) (E := E) hs hq hnewer
  have hmem : q ∈ s.pending := by simp [hs]
  cases hm : mountValid E tf q with
  | false =>
    have hatt := attempt_of_badMount (p := p) (s := s) hq hm
    rw [hatt] at hchoice
    exact .inl ⟨rfl, hchoice (by simp)⟩
  | true =>
    obtain ⟨pose, twist, hatt⟩ | hatt := attempt_of_validMount (p := p) (s := s) hq hm
      (h.posed q hmem) (h.inOrder.afterBaseline q hmem)
    · rw [hatt] at hchoice
      exact .inr (.inr ⟨rfl, pose, twist, hchoice (by simp)⟩)
    · rw [hatt] at hchoice
      exact .inr (.inl ⟨rfl, hchoice (by simp)⟩)

/-! ### A tick keeps the order -/

theorem drop_succ_length {α : Type*} (older newer : List α) (a : α) :
    (older ++ a :: newer).drop (older.length + 1) = newer := by
  rw [List.drop_append, List.drop_of_length_le (by omega)]
  simp

/-- The newest covered sample takes the older ones with it. -/
theorem accept_orderly {older newer : List (PendingOdometry K)} {pose : Isometry3d K}
    {twist : Twist (Double K)}
    (h : Orderly p E s trace) (hs : s.pending = older ++ q :: newer) :
    Keeps (Orderly p E) trace (accept p E c (older.length + 1) q.stamp pose twist s) := by
  have hdrop : s.pending.drop (older.length + 1) = newer := by rw [hs, drop_succ_length]
  have hq : q ∈ s.pending := by simp [hs]
  have hlater : ∀ q' ∈ newer, q.stamp < q'.stamp := by
    have hinc := h.increasing
    rw [hs, List.pairwise_append] at hinc
    exact (List.pairwise_cons.mp hinc.2.1).1
  have ht : stretchesSince (trace ++ (accept p E c (older.length + 1) q.stamp pose twist s).2) =
      ((stretchesSince trace).1, (stretchesSince trace).2 ++ [q.stamp]) := by
    rw [stretchesSince_append]
    rfl
  have hrest := h.dropOldest (List.drop_sublist (older.length + 1) s.pending)
  rw [Keeps]
  constructor
  · exact hrest.increasing
  · exact hrest.bounded
  · exact hrest.known
  · exact hrest.posed
  · rw [ht]; exact h.finished
  · rw [ht, List.pairwise_append]
    refine ⟨h.current, List.pairwise_singleton _ _, fun t ht t' ht' => ?_⟩
    rw [List.mem_singleton.mp ht']
    exact h.below t ht q hq
  · rw [ht]
    intro t ht q' hq'
    obtain ht | ht := List.mem_append.mp ht
    · exact hrest.below t ht q' hq'
    · rw [List.mem_singleton.mp ht]
      exact hlater q' (hdrop ▸ hq')
  · rw [ht]
    intro t ht
    obtain ht | ht := List.mem_append.mp ht
    · exact h.received t ht
    · rw [List.mem_singleton.mp ht]
      exact h.known q.stamp (List.mem_map_of_mem hq)
  · rw [ht]
    intro previous hs
    obtain rfl := Option.some.inj hs
    simp

theorem process_orderly [IsStrictOrderedRing K] (tf : RobotTf K) (h : Orderly p E s trace) :
    Keeps (Orderly p E) trace (process p E c tf s) := by
  unfold process
  refine (expire_orderly h).andThen fun s trace h => ?_
  split
  · refine (invalidateLocal_orderly h (by simp)).andThen fun s trace h => ?_
    exact h.frame (by rw [stretchesSince_append]; rfl) rfl rfl rfl
  · exact (invalidateLocal_orderly h (by simp)).andThen fun s trace h => report_orderly h
  · next index candidate pose twist hchoice =>
    change choice p E tf s = _ at hchoice
    refine Keeps.andThen ?_ fun s trace h => report_orderly h
    obtain hnone | ⟨older, q, newer, hs, hq, hnewer⟩ := newest_covered tf s.pending
    · simp [choice_of_uncovered hnone] at hchoice
    · obtain ⟨-, h'⟩ | ⟨-, h'⟩ | ⟨-, pose', twist', h'⟩ := h.choice_cases hs hq hnewer
      · simp [h'] at hchoice
      · simp [h'] at hchoice
      · simp only [h', Option.some.injEq, Prod.mk.injEq, Attempt.accept.injEq] at hchoice
        obtain ⟨rfl, rfl, rfl, rfl⟩ := hchoice
        exact accept_orderly h hs
  · exact report_orderly h

theorem step_orderly [IsStrictOrderedRing K] (e : Event K) (h : Orderly p E s trace) :
    Keeps (Orderly p E) trace (step p E e s) := by
  unfold step
  cases e.input with
  | odometry message => exact receiveOdometry_orderly message h
  | nativeTf transforms => exact keeps_foldl _ (fun tf _ _ h => receiveTransform_orderly tf h) transforms h
  | tick tf => exact process_orderly tf h

theorem run_orderly [IsStrictOrderedRing K] (events : List (Event K)) :
    Orderly p E (run p E events).1 (run p E events).2 := by
  induction events using List.reverseRecOn with
  | nil => exact orderly_initial
  | append_singleton events e ih =>
    rw [run, run_snoc]
    exact step_orderly e ih

/-! ### What a tick does -/

/-- The samples a tick looks at. -/
def waiting (p : Params K) (c : Clocks) (s : State K) : List (PendingOdometry K) :=
  s.pending.dropWhile (expired p c)

/-- How a tick disposes of the queue: `r` is what the tick does in state `s`. -/
structure Disposes (p : Params K) (E : Eigen3d K) (c : Clocks) (tf : RobotTf K) (s : State K)
    (r : Callback K) : Prop where
  atMostOne : (odometryStamps r.2).length ≤ 1
  /-- The elapsed time since the baseline is positive for every candidate. -/
  advances : ∀ q ∈ (expire p c s).1.pending, ∀ previous,
    (expire p c s).1.previousStamp = some previous → (0 : K) < elapsed q.stamp previous
  /-- A baseline that stopped advancing takes the queue with it. -/
  stalled : notAdvancing p c s = true → r.1.pending = [] ∧ odometryStamps r.2 = []
  /-- The newest covered sample is used, or the baseline is given up because of it. -/
  usable : notAdvancing p c s = false → ∀ older q newer, waiting p c s = older ++ q :: newer →
    covered tf q = true → (∀ q' ∈ newer, covered tf q' = false) → mountValid E tf q = true →
    (r.1.pending = newer ∧ r.1.previousStamp = some q.stamp ∧ odometryStamps r.2 = [q.stamp] ∧
      reasons r.2 = []) ∨
    (r.1.pending = [] ∧ r.1.previousStamp = none ∧ odometryStamps r.2 = [] ∧
      reasons r.2 = [.localOdometryDiscontinuity])
  /-- An invalid mount at the newest covered sample gives up the baseline as well. -/
  unusable : notAdvancing p c s = false → ∀ older q newer, waiting p c s = older ++ q :: newer →
    covered tf q = true → (∀ q' ∈ newer, covered tf q' = false) → mountValid E tf q = false →
    r.1.pending = [] ∧ r.1.previousStamp = none ∧ odometryStamps r.2 = [] ∧
      reasons r.2 = [.invalidTransformedLocalPose]
  /-- Without a covered sample only time thins the queue. -/
  uncovered : notAdvancing p c s = false → (∀ q ∈ waiting p c s, covered tf q = false) →
    r.1.pending = waiting p c s ∧ r.1.previousStamp = s.previousStamp ∧ odometryStamps r.2 = [] ∧
      reasons r.2 = []

theorem report_frame (p : Params K) (c : Clocks) (s : State K) :
    (report p c s).1.pending = s.pending ∧ (report p c s).1.previousStamp = s.previousStamp ∧
      odometryStamps (report p c s).2 = [] ∧ reasons (report p c s).2 = [] := by
  unfold report
  dsimp only
  split
  · split
    · exact ⟨rfl, rfl, rfl, rfl⟩
    · exact ⟨rfl, rfl, rfl, rfl⟩
  · exact ⟨rfl, rfl, rfl, rfl⟩

theorem expire_of_advancing (h : notAdvancing p c s = false) :
    expire p c s = ({ s with pending := waiting p c s }, []) := by
  simp [expire, h, waiting, Reaction.andThen]

/-- Nothing waits behind a baseline that was given up. -/
theorem expire_of_stalled (h : notAdvancing p c s = true) :
    (expire p c s).1.pending = [] ∧ odometryStamps (expire p c s).2 = [] := by
  simp [expire, h, Reaction.andThen, invalidateLocal, odometryStamps]

section Outcome
variable {index : ℕ} {pose : Isometry3d K}
    {twist : Twist (Double K)}

theorem process_of_none (h : choice p E tf (expire p c s).1 = none) :
    process p E c tf s = (expire p c s).andThen (report p c) := by
  unfold choice at h
  simp only [process, Reaction.andThen, h]

theorem process_of_accept
    (h : choice p E tf (expire p c s).1 = some (index, q, .accept pose twist)) :
    process p E c tf s = (expire p c s).andThen fun s =>
      (accept p E c index q.stamp pose twist s).andThen (report p c) := by
  unfold choice at h
  simp only [process, Reaction.andThen, h]

theorem process_of_invalid (h : choice p E tf (expire p c s).1 = some (index, q, .invalid)) :
    process p E c tf s = (expire p c s).andThen fun s =>
      (invalidateLocal c .invalidTransformedLocalPose s).andThen (report p c) := by
  unfold choice at h
  simp only [process, Reaction.andThen, h]

theorem process_of_discontinuity
    (h : choice p E tf (expire p c s).1 = some (index, q, .discontinuity)) :
    process p E c tf s = (expire p c s).andThen fun s =>
      (invalidateLocal c .localOdometryDiscontinuity s).andThen fun s =>
        (s, [status s.localReason]) := by
  unfold choice at h
  simp only [process, Reaction.andThen, h]

end Outcome

theorem process_uncovered (hadv : notAdvancing p c s = false)
    (hnone : ∀ q ∈ waiting p c s, covered tf q = false) :
    (process p E c tf s).1.pending = waiting p c s ∧
      (process p E c tf s).1.previousStamp = s.previousStamp ∧
      odometryStamps (process p E c tf s).2 = [] ∧ reasons (process p E c tf s).2 = [] := by
  have hexp := expire_of_advancing hadv
  have hchoice : choice p E tf (expire p c s).1 = none := by
    rw [hexp]
    exact choice_of_uncovered hnone
  rw [process_of_none hchoice, hexp]
  exact report_frame p c { s with pending := waiting p c s }

theorem process_stalled (hstall : notAdvancing p c s = true) :
    (process p E c tf s).1.pending = [] ∧ odometryStamps (process p E c tf s).2 = [] := by
  obtain ⟨hpend, hout⟩ := expire_of_stalled hstall
  have hchoice : choice p E tf (expire p c s).1 = none := choice_of_uncovered (by simp [hpend])
  obtain ⟨hrest, -, hsilent, -⟩ := report_frame p c (expire p c s).1
  rw [process_of_none hchoice]
  exact ⟨hrest.trans hpend, by simp [hout, hsilent]⟩

section
variable [IsStrictOrderedRing K] {older newer : List (PendingOdometry K)}

theorem process_usable (h : Orderly p E (expire p c s).1 trace) (hadv : notAdvancing p c s = false)
    (hs : waiting p c s = older ++ q :: newer) (hq : covered tf q = true)
    (hnewer : ∀ q' ∈ newer, covered tf q' = false) (hm : mountValid E tf q = true) :
    ((process p E c tf s).1.pending = newer ∧
      (process p E c tf s).1.previousStamp = some q.stamp ∧
      odometryStamps (process p E c tf s).2 = [q.stamp] ∧ reasons (process p E c tf s).2 = []) ∨
    ((process p E c tf s).1.pending = [] ∧ (process p E c tf s).1.previousStamp = none ∧
      odometryStamps (process p E c tf s).2 = [] ∧
      reasons (process p E c tf s).2 = [.localOdometryDiscontinuity]) := by
  have hexp := expire_of_advancing hadv
  rw [hexp] at h
  obtain ⟨hbad, -⟩ | ⟨-, hchoice⟩ | ⟨-, pose, twist, hchoice⟩ := h.choice_cases hs hq hnewer
  · simp [hm] at hbad
  · rw [process_of_discontinuity (by rw [hexp]; exact hchoice), hexp]
    exact .inr ⟨rfl, rfl, rfl, rfl⟩
  · rw [process_of_accept (by rw [hexp]; exact hchoice), hexp]
    obtain ⟨hrest, hprev, hout, hreason⟩ := report_frame p c
      (accept p E c (older.length + 1) q.stamp pose twist { s with pending := waiting p c s }).1
    refine .inl ⟨?_, hprev, ?_, ?_⟩
    · refine hrest.trans ?_
      show (waiting p c s).drop (older.length + 1) = newer
      rw [hs, drop_succ_length]
    · simp only [Reaction.andThen_snd, odometryStamps_append, hout]
      rfl
    · simp only [Reaction.andThen_snd, reasons_append, hreason]
      rfl

theorem process_unusable (h : Orderly p E (expire p c s).1 trace) (hadv : notAdvancing p c s = false)
    (hs : waiting p c s = older ++ q :: newer) (hq : covered tf q = true)
    (hnewer : ∀ q' ∈ newer, covered tf q' = false) (hm : mountValid E tf q = false) :
    (process p E c tf s).1.pending = [] ∧ (process p E c tf s).1.previousStamp = none ∧
      odometryStamps (process p E c tf s).2 = [] ∧
      reasons (process p E c tf s).2 = [.invalidTransformedLocalPose] := by
  have hexp := expire_of_advancing hadv
  rw [hexp] at h
  obtain ⟨-, hchoice⟩ | ⟨hgood, -⟩ | ⟨hgood, -⟩ := h.choice_cases hs hq hnewer
  · rw [process_of_invalid (by rw [hexp]; exact hchoice), hexp]
    obtain ⟨hrest, hprev, hout, hreason⟩ := report_frame p c
      (invalidateLocal c .invalidTransformedLocalPose { s with pending := waiting p c s }).1
    refine ⟨hrest, hprev, ?_, ?_⟩
    · simp only [Reaction.andThen_snd, odometryStamps_append, hout]
      rfl
    · simp only [Reaction.andThen_snd, reasons_append, hreason]
      rfl
  · simp [hm] at hgood
  · simp [hm] at hgood

theorem process_atMostOne (h : Orderly p E (expire p c s).1 trace) :
    (odometryStamps (process p E c tf s).2).length ≤ 1 := by
  cases hadv : notAdvancing p c s with
  | true =>
    have hsilent : odometryStamps (process p E c tf s).2 = [] := (process_stalled hadv).2
    simp [hsilent]
  | false =>
    obtain hnone | ⟨older, q, newer, hs, hq, hnewer⟩ := newest_covered tf (waiting p c s)
    · simp [(process_uncovered (E := E) hadv hnone).2.2.1]
    · cases hm : mountValid E tf q with
      | false => simp [(process_unusable h hadv hs hq hnewer hm).2.2.1]
      | true =>
        obtain ⟨-, -, hout, -⟩ | ⟨-, -, hout, -⟩ := process_usable h hadv hs hq hnewer hm
        · simp [hout]
        · simp [hout]

theorem process_disposes (tf : RobotTf K) (h : Orderly p E s trace) :
    Disposes p E c tf s (process p E c tf s) := by
  have hexp : Orderly p E (expire p c s).1 (trace ++ (expire p c s).2) := expire_orderly h
  exact
    { atMostOne := process_atMostOne hexp
      advances := fun q hq previous hprev => elapsed_pos (hexp.inOrder.afterBaseline q hq previous hprev)
      stalled := process_stalled
      usable := fun hadv _ _ _ hs hq hnewer hm => process_usable hexp hadv hs hq hnewer hm
      unusable := fun hadv _ _ _ hs hq hnewer hm => process_unusable hexp hadv hs hq hnewer hm
      uncovered := process_uncovered }

end

/-- After any run the queue is in order and the published stamps increase, except
where local time goes back; and any tick uses its newest covered sample. -/
theorem process_newestCovered [IsStrictOrderedRing K] (p : Params K) (E : Eigen3d K)
    (events : List (Event K)) (c : Clocks) (tf : RobotTf K) :
    InOrder p (run p E events).1 ∧
      (∀ stretch ∈ stretches (run p E events).2, stretch.Pairwise (· < ·)) ∧
      Disposes p E c tf (run p E events).1 (process p E c tf (run p E events).1) :=
  ⟨(run_orderly events).inOrder, (run_orderly events).stretches_increasing,
    process_disposes tf (run_orderly events)⟩

theorem process_newestCovered_atRest :
    InOrder restParams (run restParams restEigen restEvents).1 ∧
      (∀ stretch ∈ stretches (run restParams restEigen restEvents).2, stretch.Pairwise (· < ·)) ∧
      Disposes restParams restEigen (restClocks 1) restTf (run restParams restEigen restEvents).1
        (process restParams restEigen (restClocks 1) restTf
          (run restParams restEigen restEvents).1) :=
  process_newestCovered restParams restEigen restEvents (restClocks 1) restTf

/-- Local time goes back after the first output, and the next output is older. -/
example : stretches (run restParams restEigen
    [⟨restClocks 2, restOdometry 2⟩, ⟨restClocks 2, .tick restTf⟩, ⟨restClocks 2, restOdometry 0⟩,
      ⟨restClocks 2, restOdometry 1⟩, ⟨restClocks 2, .tick restTf⟩]).2 =
    [[(restClocks 2).ros], [(restClocks 1).ros]] := by decide +kernel

/-! ### A mount without a rotation -/

/-- At the newer of two stamps the mount found has a zero quaternion. -/
def brokenTf : RobotTf ℚ :=
  ⟨some 0, fun _ => true, fun stamp =>
    some (if stamp = (restClocks 1).ros then ⟨0, ⟨0, 0, 0, 0⟩⟩ else restTransform)⟩

/-- Two samples wait, and the older one could be used. -/
def brokenEvents : List (Event ℚ) :=
  [⟨restClocks 0, restOdometry 0⟩, ⟨restClocks 1, restOdometry 1⟩]

/-- The usable sample is lost, though it is neither published nor a discontinuity. -/
theorem process_loses_usable :
    notAdvancing restParams (restClocks 1) (run restParams restEigen brokenEvents).1 = false ∧
      (waiting restParams (restClocks 1) (run restParams restEigen brokenEvents).1).map
          (fun q => (q.stamp, covered brokenTf q, mountValid restEigen brokenTf q)) =
        [((restClocks 0).ros, true, true), ((restClocks 1).ros, true, false)] ∧
      (process restParams restEigen (restClocks 1) brokenTf
        (run restParams restEigen brokenEvents).1).1.pending = [] ∧
      odometryStamps (process restParams restEigen (restClocks 1) brokenTf
        (run restParams restEigen brokenEvents).1).2 = [] ∧
      reasons (process restParams restEigen (restClocks 1) brokenTf
        (run restParams restEigen brokenEvents).1).2 = [.invalidTransformedLocalPose] := by
  decide +kernel

end X2Navigation.OdinLocalizationAdapter
