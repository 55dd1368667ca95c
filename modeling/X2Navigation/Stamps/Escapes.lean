import X2Navigation.Cloud.Downsampling
import X2Navigation.Cloud.LidarCloudThrottle
import X2Navigation.Costmap.PointCloudObstacleLayer
import X2Navigation.Server.System

/-! Which stamps throw past the code that reads them. `rclcpp::Time` refuses negative
seconds, and four functions convert the stamp of a message outside the block that
would catch the refusal. -/

namespace X2Navigation

open Traced

/-! ### Stamps -/

namespace Time

/-- The seconds are negative. -/
def Negative (t : Time) : Prop := t.sec < 0

instance : DecidablePred Negative := fun t => inferInstanceAs (Decidable (t.sec < 0))

theorem rclcpp_of_negative {t : Time} (h : t.Negative) : t.rclcpp = .error .runtimeError := if_pos h

theorem rclcpp_of_not_negative {t : Time} (h : ¬ t.Negative) :
    ∃ stamp : TimePoint, t.rclcpp = .ok stamp ∧ 0 ≤ stamp := by
  have hsec : 0 ≤ t.sec.toInt := by
    simpa using Int32.le_iff_toInt_le.mp (Int32.not_lt.mp h)
  exact ⟨t.sec.toInt * 1000000000 + t.nanosec.toNat, if_neg h, by positivity⟩

theorem nanoseconds?_eq_none {t : Time} : t.nanoseconds? = none ↔ t.Negative := by
  rw [nanoseconds?, Negative]
  split <;> simp_all

end Time

/-- A stamp that is not negative can overflow, but not underflow. -/
theorem TimePoint.plus_of_nonneg {t : TimePoint} (h : 0 ≤ t) (duration : Int64) :
    (∃ sum : TimePoint, t.plus duration = .ok sum) ∨ t.plus duration = .error .overflowError := by
  have hmin : Int64.minValue.toInt ≤ duration.toInt := Int64.minValue_le_toInt duration
  have hsum : Int64.minValue.toInt ≤ t + duration.toInt := by
    have ht : (0 : ℤ) ≤ t := h
    omega
  rw [plus]
  split
  · exact Or.inr rfl
  · left
    rw [if_neg (not_lt.mpr hsum)]
    exact ⟨_, rfl⟩

/-! ### The cloud throttle -/

namespace LidarCloudThrottle

open PointCloudVoxelFilter

variable {K : Type*} [Field K] [LinearOrder K] [FloorRing K] (P : Platform K) (p : Params K)

theorem process_error (lookupTransform : Lookup K) (message : PointCloud2) (w : Workspace K) :
    (∃ exception, process P p lookupTransform message w = .error exception) ↔
      message.header.stamp.Negative := by
  rw [process]
  by_cases hneg : message.header.stamp.Negative
  · rw [Time.rclcpp_of_negative hneg]
    exact ⟨fun _ => hneg, fun _ => ⟨.runtimeError, rfl⟩⟩
  · obtain ⟨stamp, hstamp, hnonneg⟩ := Time.rclcpp_of_not_negative hneg
    have hok : ∃ r, process P p lookupTransform message w = .ok r := by
      rw [process, hstamp]
      rcases TimePoint.plus_of_nonneg hnonneg p.timestampOffset with ⟨sum, hsum⟩ | hover
      · simp only [hsum]
        split
        · exact ⟨_, rfl⟩
        · split
          · exact ⟨_, rfl⟩
          · split <;> exact ⟨_, rfl⟩
      · simp only [hover]
        exact ⟨_, rfl⟩
    rw [process] at hok
    obtain ⟨r, hr⟩ := hok
    rw [hr]
    constructor
    · rintro ⟨exception, h⟩
      cases h
    · intro h
      exact absurd h hneg

/-- Some exception is among what has happened. -/
def Threw (trace : List Occurrence) : Prop := ∃ exception, .threw exception ∈ trace

variable {P p}

theorem threw_tick {lookupTransform : Lookup K} {s : State K} :
    Threw (tick P p lookupTransform s).2 ↔
      ∃ message sequence, s.phase = .taken message sequence ∧ message.header.stamp.Negative := by
  cases hphase : s.phase with
  | idle =>
    rw [tick, hphase]
    show Threw (takeSnapshot s).2 ↔ _
    rw [takeSnapshot]
    cases pending s <;> simp [Threw]
  | taken message sequence =>
    rw [tick, hphase]
    show Threw (processTaken P p lookupTransform message sequence s).2 ↔ _
    have hthrew : Threw (processTaken P p lookupTransform message sequence s).2 ↔
        ∃ exception, process P p lookupTransform message s.voxelFilter = .error exception := by
      rw [processTaken]
      cases process P p lookupTransform message s.voxelFilter <;> simp [Threw]
    rw [hthrew, process_error]
    simp
  | processed sequence outcome =>
    rw [tick, hphase]
    show Threw (finish sequence outcome s).2 ↔ _
    cases outcome <;> simp [Threw, finish]
  | down =>
    rw [tick, hphase]
    simp [Threw]

/-- Once a cloud has been processed, it is not taken any more. -/
theorem processTaken_phase {lookupTransform : Lookup K} {m m' : PointCloud2} {q q' : UInt64}
    {s : State K} : (processTaken P p lookupTransform m q s).1.phase ≠ .taken m' q' := by
  rw [processTaken]
  cases process P p lookupTransform m s.voxelFilter <;> simp

/-- The cloud a tick would take can be converted. -/
def Convertible (s : State K) : Prop :=
  ∀ message sequence, pending s = some (message, sequence) → ¬ message.header.stamp.Negative

theorem threw_append {trace trace' : List Occurrence} :
    Threw (trace ++ trace') ↔ Threw trace ∨ Threw trace' := by
  simp [Threw, exists_or]

theorem threw_processLatestCloud {lookupTransform : Lookup K} {s : State K} :
    ¬ Threw (processLatestCloud P p lookupTransform s).2 ↔ Convertible s := by
  rw [processLatestCloud, Convertible]
  cases hp : pending s with
  | none => simp [Threw]
  | some cloud =>
    obtain ⟨message, sequence⟩ := cloud
    set s₁ : State K := { s with phase := .taken message sequence } with hs₁
    set s₂ := (tick P p lookupTransform s₁).1 with hs₂
    have htook : takeSnapshot s = (s₁, [.took message sequence]) := by
      rw [takeSnapshot, hp]
    have htrace : (((takeSnapshot s).andThen (tick P p lookupTransform)).andThen
        (tick P p lookupTransform)).2 =
          [.took message sequence] ++ (tick P p lookupTransform s₁).2 ++
            (tick P p lookupTransform s₂).2 := by
      rw [Reaction.andThen_snd, Reaction.andThen_snd, Reaction.andThen_fst, htook]
    have hfirst : ¬ Threw [.took message sequence] := by
      simp [Threw]
    have hlast : ¬ Threw (tick P p lookupTransform s₂).2 := by
      rw [threw_tick]
      rintro ⟨m', q', hphase, -⟩
      exact processTaken_phase hphase
    show ¬ Threw (((takeSnapshot s).andThen (tick P p lookupTransform)).andThen
      (tick P p lookupTransform)).2 ↔ _
    rw [htrace, threw_append, threw_append, threw_tick (s := s₁)]
    simp [hfirst, hlast, hs₁]

/-- A tick that begins finds a cloud it can convert. -/
def Meets : Event K → State K → Prop
  | .cloudCallback _, _ => True
  | .tick _, s => s.phase = .idle → Convertible s

/-- What is being processed can be converted. -/
def Sound (s : State K) : Prop :=
  ∀ message sequence, s.phase = .taken message sequence → ¬ message.header.stamp.Negative

theorem Sound.step {s : State K} (h : Sound s) {e : Event K} (he : Meets e s) :
    Sound (step P p e s).1 := by
  intro m q hphase
  cases e with
  | cloudCallback message => exact h m q hphase
  | tick lookupTransform =>
    have hphase : (tick P p lookupTransform s).1.phase = .taken m q := hphase
    cases hs : s.phase with
    | idle =>
      have hconv : Convertible s := he hs
      have htake : (takeSnapshot s).1.phase = .taken m q := by
        rwa [tick, hs] at hphase
      rw [takeSnapshot] at htake
      cases hp : pending s with
      | none =>
        simp [hp, hs] at htake
      | some cloud =>
        obtain ⟨message, sequence⟩ := cloud
        simp only [hp, Phase.taken.injEq] at htake
        exact hconv m q (by rw [hp, htake.1, htake.2])
    | taken message sequence =>
      rw [tick, hs] at hphase
      exact absurd hphase processTaken_phase
    | processed sequence outcome =>
      rw [tick, hs] at hphase
      cases outcome <;> simp [finish] at hphase
    | down =>
      rw [tick, hs] at hphase
      simp [hs] at hphase

theorem not_threw_serve {events : List (Event K)}
    (h : ∀ before e after, events = before ++ e :: after → Meets e (serve P p before).1) :
    ¬ Threw (serve P p events).2 ∧ Sound (serve P p events).1 := by
  induction events using List.reverseRecOn with
  | nil =>
    constructor
    · rintro ⟨exception, h⟩
      cases h
    · intro m q hphase
      cases hphase
  | append_singleton events e ih =>
    obtain ⟨hthrew, hsound⟩ := ih fun before d after heq =>
      h before d (after ++ [e]) (by simp [heq])
    have he := h events e [] rfl
    rw [serve, run_snoc]
    refine ⟨?_, hsound.step he⟩
    rw [Reaction.andThen_snd, threw_append]
    rintro (hbefore | hnow)
    · exact hthrew hbefore
    · cases e with
      | cloudCallback message =>
        obtain ⟨exception, hmem⟩ := hnow
        simp [step, cloudCallback] at hmem
      | tick lookupTransform =>
        obtain ⟨m, q, hphase, hneg⟩ := threw_tick.mp hnow
        exact hsound m q hphase hneg

end LidarCloudThrottle

/-! ### The obstacle layer -/

namespace PointCloudObstacleLayer

variable {K : Type*} [Field K] [LinearOrder K] {p : Params K} {look : ℕ → Look}

/-- Some exception is among what has happened. -/
def Threw (trace : List Occurrence) : Prop := ∃ exception, .threw exception ∈ trace

theorem threw_append {trace trace' : List Occurrence} :
    Threw (trace ++ trace') ↔ Threw trace ∨ Threw trace' := by
  simp [Threw, exists_or]

/-- Among clouds that are looked at one after another, from look number `k` on, one has
a negative stamp and is not given up for its age first. -/
def Unreadable (p : Params K) (look : ℕ → Look) (k : ℕ) (queue : List PendingCloud) : Prop :=
  ∃ j pending, queue[j]? = some pending ∧ pending.cloud.header.stamp.Negative ∧
    expired p (look (k + j)) pending = false

theorem not_unreadable_nil (k : ℕ) : ¬ Unreadable p look k [] := by
  rintro ⟨j, pending, h, _⟩
  simp at h

theorem unreadable_cons {k : ℕ} {pending : PendingCloud} {queue : List PendingCloud} :
    Unreadable p look k (pending :: queue) ↔
      (pending.cloud.header.stamp.Negative ∧ expired p (look k) pending = false) ∨
        Unreadable p look (k + 1) queue := by
  constructor
  · rintro ⟨j, e, he, hneg, hexp⟩
    cases j with
    | zero =>
      obtain rfl : pending = e := by simpa using he
      exact Or.inl ⟨hneg, hexp⟩
    | succ j =>
      refine Or.inr ⟨j, e, by simpa using he, hneg, ?_⟩
      rwa [Nat.add_assoc, Nat.add_comm 1 j]
  · rintro (⟨hneg, hexp⟩ | ⟨j, e, he, hneg, hexp⟩)
    · exact ⟨0, pending, rfl, hneg, hexp⟩
    · refine ⟨j + 1, e, by simpa using he, hneg, ?_⟩
      rwa [Nat.add_comm j 1, ← Nat.add_assoc]

theorem unreadable_append {k : ℕ} {queue queue' : List PendingCloud} :
    Unreadable p look k (queue ++ queue') ↔
      Unreadable p look k queue ∨ Unreadable p look (k + queue.length) queue' := by
  induction queue generalizing k with
  | nil => simp [not_unreadable_nil]
  | cons pending queue ih =>
    rw [List.cons_append, unreadable_cons, unreadable_cons, ih, List.length_cons, or_assoc,
      Nat.add_assoc, Nat.add_comm 1]

/-- The loop has looked at every cloud of the queue, or an exception has ended it. -/
def Scan.Passed (r : Scan) (k : ℕ) : Prop := r.looks = some k ∧ ¬ Threw r.trace

def Scan.Stopped (r : Scan) : Prop := r.looks = none ∧ Threw r.trace

/-- The loop over a queue is stopped exactly by a cloud it cannot read. -/
theorem scan_cases (source : ℕ) (sensorFrame : String) (k : ℕ) (waiting queue : List PendingCloud) :
    (¬ Unreadable p look k queue ∧
      (scan p look source sensorFrame k waiting queue).Passed (k + queue.length)) ∨
    (Unreadable p look k queue ∧ (scan p look source sensorFrame k waiting queue).Stopped) := by
  induction queue generalizing k waiting with
  | nil => exact Or.inl ⟨not_unreadable_nil k, rfl, by simp [scan, Threw]⟩
  | cons pending rest ih =>
    rw [unreadable_cons, List.length_cons, Nat.add_comm rest.length 1, ← Nat.add_assoc, scan]
    cases hexp : expired p (look k) pending with
    | true =>
      rw [if_pos rfl]
      simpa using ih (k + 1) waiting
    | false =>
      rw [if_neg Bool.false_ne_true]
      by_cases hneg : pending.cloud.header.stamp.Negative
      · rw [Time.rclcpp_of_negative hneg]
        exact Or.inr ⟨Or.inl ⟨hneg, rfl⟩, rfl, .runtimeError, by simp⟩
      · obtain ⟨stamp, hstamp, -⟩ := Time.rclcpp_of_not_negative hneg
        simp only [hstamp, hneg, false_and, false_or]
        split
        · have hbuffered : ∀ r : Scan, Threw
              (Occurrence.buffered source pending (look k).now :: r.trace) ↔ Threw r.trace := by
            intro r
            simp [Threw]
          simpa only [Scan.Passed, Scan.Stopped, hbuffered] using ih (k + 1) []
        · split
          · exact ih (k + 1) waiting
          · exact ih (k + 1) (waiting ++ [pending])

theorem threw_scanSources (k i : ℕ) (sources : List Source) :
    Threw (scanSources p look k i sources).2 ↔
      Unreadable p look k (sources.flatMap (·.pending)) := by
  induction sources generalizing k i with
  | nil => simp [scanSources, Threw, not_unreadable_nil]
  | cons source rest ih =>
    rw [scanSources, List.flatMap_cons, unreadable_append]
    rcases @scan_cases _ _ _ p look i source.sensorFrame k [] source.pending with
      ⟨hreadable, hlooks, hthrew⟩ | ⟨hunreadable, hlooks, hthrew⟩
    · simp only [hlooks, threw_append, ih, hreadable, hthrew, false_or]
    · simp only [hlooks, hthrew, hunreadable, true_or]

/-- An active layer gives up every cloud with a negative stamp before it looks at it. -/
def Meets (p : Params K) : Call → State → Prop
  | .processPending look, s => s.active = true →
      ¬ Unreadable p look 0 (s.sources.flatMap (·.pending))
  | _, _ => True

theorem threw_processPending {s : State} :
    ¬ Threw (processPending p look s).2 ↔ Meets p (.processPending look) s := by
  rw [processPending, Meets]
  cases hactive : s.active with
  | false => simp [Threw]
  | true =>
    show ¬ Threw (scanSources p look 0 0 s.sources).2 ↔ _
    rw [threw_scanSources]
    simp

end PointCloudObstacleLayer

/-! ### The docking server -/

namespace FineAlignServer

open Interaction Program

variable {K : Type} [Field K] [LinearOrder K] {node : Node K}

/-- The state of the box an activation asks for can be converted. -/
def Readable (undocking : Bool) (instanceId : String) (a : Acquisition K) : Prop :=
  undocking = true ∨ instanceId = "" ∨
    ∀ box, a.boxStates instanceId = some box → ¬ box.header.stamp.Negative

theorem activateProfile_eq_none {rosNow : TimePoint} {requested instanceId : String}
    {undocking : Bool} {a : Acquisition K} :
    a.activateProfile node rosNow requested undocking instanceId = none ↔
      ¬ Readable undocking instanceId a := by
  have hselect : a.selectProfile node rosNow requested undocking instanceId = none ↔
      ¬ Readable undocking instanceId a := by
    rw [Acquisition.selectProfile, Readable]
    cases undocking with
    | true => simp
    | false =>
      by_cases hempty : instanceId = ""
      · simp [hempty]
      · cases hbox : a.boxStates instanceId with
        | none => simp [hempty]
        | some box =>
          cases hstamp : box.header.stamp.nanoseconds? with
          | none =>
            have hneg := Time.nanoseconds?_eq_none.mp hstamp
            simp [hempty, hstamp, hneg]
          | some stamp =>
            have hneg : ¬ box.header.stamp.Negative := by
              rw [← Time.nanoseconds?_eq_none, hstamp]
              simp
            simp only [hempty, hstamp]
            split_ifs <;> simp_all
  rw [← hselect, Acquisition.activateProfile]
  cases hs : a.selectProfile node rosNow requested undocking instanceId with
  | none => simp
  | some selected =>
    cases selected with
    | none => simp
    | some selected =>
      simp only [reduceCtorEq, iff_false]
      split
      · simp
      · split <;> simp

/-- Neither a copy of the pending message nor an escape. -/
def Settled : TickOp K → Prop
  | .pendingDetection => False
  | .escape => False
  | _ => True

omit [Field K] [LinearOrder K] in
theorem all_settled_call {o : TickOp K} (h : Settled o) {α : Type} {k : o.Answer → Tick K α}
    (hk : ∀ a, All (S := tickInterface K) Settled (k a)) :
    All (S := tickInterface K) Settled (tickCall o >>= k) := ⟨h, hk⟩

/-- What a tick does before it looks at the stamp of the message it has copied. -/
theorem publishSelectedCommand_shape (node : Node K) : ∃ k : Snapshot K →
      Option (AprilTagDetectionArray K) → Tick K Unit,
    publishSelectedCommand node =
      .perform .profileSnapshot (fun snapshot => .perform .pendingDetection (k snapshot)) ∧
    (∀ snapshot message, message.header.stamp.Negative →
      (k snapshot (some message)).request = some .escape) ∧
    ∀ snapshot pending, (∀ message ∈ pending, ¬ message.header.stamp.Negative) →
      All (S := tickInterface K) Settled (k snapshot pending) := by
  refine ⟨_, rfl, ?_, ?_⟩
  · intro snapshot message hneg
    rw [← Time.nanoseconds?_eq_none] at hneg
    simp only [pure_bind, hneg]
    rfl
  · intro snapshot pending hpending
    refine All.bind ?_ ?_
    · simp only [pure_bind]
      cases pending with
      | none => trivial
      | some message =>
        have hneg := hpending message rfl
        rw [← Time.nanoseconds?_eq_none] at hneg
        obtain ⟨stamp, hstamp⟩ := Option.ne_none_iff_exists'.mp hneg
        simp only [hstamp]
        split
        · trivial
        refine all_settled_call (o := .rosNow) trivial fun now => ?_
        split
        · trivial
        refine all_settled_call (o := .sampleIsNew _ _) trivial fun new => ?_
        split
        · trivial
        refine all_settled_call (o := .lookupTransform _ _) trivial fun lookup => ?_
        cases lookup with
        | unavailable => trivial
        | failed => exact (all_act (S := tickInterface K) _).mpr trivial
        | found transform =>
          cases hdock : tableDockPose node.m transform snapshot.profile.standoff
              snapshot.profile.lateralOffset snapshot.profile.yawOffset with
          | none =>
            simp only [hdock]
            exact (all_act (S := tickInterface K) _).mpr trivial
          | some target =>
            simp only [hdock]
            refine all_settled_call (o := .alignmentCommand) trivial fun command => ?_
            refine all_settled_call (o := .collisionStopped) trivial fun stopped => ?_
            exact all_settled_call (o := .commit _ _ _ _) trivial fun _ => trivial
    · intro _
      exact all_settled_call (o := .steadyNow) trivial fun now =>
        all_settled_call (o := .selectCommand now) trivial fun _ => trivial

/-- A tick has copied a message that it cannot convert. -/
def CopiedNegative (tr : List (TickEvent K)) : Prop :=
  ∃ snapshot message, tr = [⟨.profileSnapshot, snapshot⟩, ⟨.pendingDetection, some message⟩] ∧
    message.header.stamp.Negative

/-- A tick is about to let an exception out exactly when it has just copied such a message. -/
theorem escape_iff {tr : List (TickEvent K)} {p : Tick K Unit}
    (hs : Steps (publishSelectedCommand node) tr p) :
    p.request = some .escape ↔ CopiedNegative tr := by
  obtain ⟨k, hshape, hnegative, hsettled⟩ := publishSelectedCommand_shape node
  rw [hshape] at hs
  obtain ⟨rfl, rfl⟩ | ⟨snapshot, tr₁, rfl, hs₁⟩ := steps_perform.mp hs
  · simp [request, CopiedNegative]
  obtain ⟨rfl, rfl⟩ | ⟨pending, tr₂, rfl, hs₂⟩ := steps_perform.mp hs₁
  · simp [request, CopiedNegative]
  by_cases hneg : ∃ message ∈ pending, message.header.stamp.Negative
  · obtain ⟨message, hmem, hneg⟩ := hneg
    obtain rfl : pending = some message := hmem
    have hescape := hnegative snapshot message hneg
    have hstuck : tr₂ = [] ∧ p = k snapshot (some message) := by
      cases hs₂ with
      | refl => exact ⟨rfl, rfl⟩
      | @cons _ _ _ e _ hn _ =>
        have he : e.1 = .escape := by
          have hrequest := hn.request
          rw [hescape] at hrequest
          exact (Option.some.inj hrequest).symm
        obtain ⟨o, a⟩ := e
        subst he
        exact a.elim
    obtain ⟨rfl, rfl⟩ := hstuck
    exact ⟨fun _ => ⟨snapshot, message, rfl, hneg⟩, fun _ => hescape⟩
  · have hall : All (S := tickInterface K) Settled (k snapshot pending) :=
      hsettled snapshot pending fun message hmem h => hneg ⟨message, hmem, h⟩
    constructor
    · intro h
      exact ((hall.steps hs₂).2.request h).elim
    · rintro ⟨snapshot', message, heq, h⟩
      obtain ⟨rfl, rfl⟩ : pending = some message ∧ tr₂ = [] := by
        simpa using (List.cons.inj heq).2
      exact absurd ⟨message, rfl, h⟩ hneg

/-- What a step of the server must find: a tick that copies the pending message, or an
operation that activates a profile, a stamp it can convert. -/
def Server.Meets (node : Node K) (x : Stimulus K) (s : Server K) : Prop :=
  match x.input with
  | .tick _ => (s.currentTick node).request = some .pendingDetection →
      ∀ message, s.shared.acquisition.pendingDetection = some message →
        ¬ message.header.stamp.Negative
  | .operation id => ∀ thread requested undocking instanceId, s.threads[id]? = some thread →
      thread.program.request = some (.activateProfile requested undocking instanceId) →
        Readable undocking instanceId s.shared.acquisition
  | _ => True

/-- The step lets an exception out of `processPendingDetection` or `activateProfile`. -/
def Server.Throws (node : Node K) (x : Stimulus K) (s : Server K) : Prop :=
  match x.input with
  | .tick _ => (s.currentTick node).request = some .escape
  | .operation id => ∃ thread requested undocking instanceId, s.threads[id]? = some thread ∧
      thread.program.request = some (.activateProfile requested undocking instanceId) ∧
        s.shared.acquisition.activateProfile node x.now.ros requested undocking instanceId = none
  | _ => False

/-- The tick under way has copied no message that it cannot convert. -/
def Server.Steady (node : Node K) (s : Server K) : Prop :=
  ∃ tr, Steps (publishSelectedCommand node) tr (s.currentTick node) ∧
    ∀ message, (⟨.pendingDetection, some message⟩ : TickEvent K) ∈ tr →
      ¬ message.header.stamp.Negative

theorem Server.Steady.not_escape {s : Server K} (h : s.Steady node) :
    (s.currentTick node).request ≠ some .escape := by
  obtain ⟨tr, hs, hcopied⟩ := h
  rw [Ne, escape_iff hs]
  rintro ⟨snapshot, message, rfl, hneg⟩
  exact hcopied message (by simp) hneg

theorem Server.steady_of_idle {s : Server K} (h : s.tick.result?.isSome = true) :
    s.Steady node := by
  refine ⟨[], ?_, by simp⟩
  rw [Server.currentTick, if_pos h]
  exact .refl _

/-- Only a tick moves the tick. -/
theorem step_tick_eq {x : Stimulus K} {s : Server K} (hx : ∀ lookup, x.input ≠ .tick lookup) :
    (step node x s).1.tick = s.tick := by
  unfold step
  split
  · rfl
  split
  · split <;> rfl
  · unfold Server.acceptGoal
    split <;> rfl
  · unfold Server.cancelGoal
    split
    · rfl
    · split <;> rfl
  · unfold Server.runOperation
    split
    · rfl
    · split <;> rfl
  · rename_i lookup hinput
    exact absurd hinput (hx lookup)
  · rfl

theorem Server.Steady.runTick {s : Server K} (h : s.Steady node) {now : Instant}
    {lookup : Lookup K} (hmeets : (s.currentTick node).request = some .pendingDetection →
      ∀ message, s.shared.acquisition.pendingDetection = some message →
        ¬ message.header.stamp.Negative) : (s.runTick node now lookup).1.Steady node := by
  obtain ⟨tr, hs, hcopied⟩ := h
  rw [Server.runTick]
  cases hmove : move (answerTick node now lookup) s.shared (s.currentTick node) with
  | none => exact ⟨tr, hs, hcopied⟩
  | some moved =>
    obtain ⟨event, program, shared⟩ := moved
    obtain ⟨hn, hw⟩ := move_eq_some hmove
    cases hdone : program.result?.isSome with
    | true => exact Server.steady_of_idle hdone
    | false =>
      refine ⟨tr ++ [event], ?_, ?_⟩
      · rw [Server.currentTick, if_neg (by rw [hdone]; exact Bool.false_ne_true)]
        exact hs.trans (.cons hn (.refl _))
      · intro message hmem
        rcases List.mem_append.mp hmem with hmem | hmem
        · exact hcopied message hmem
        · obtain rfl := List.mem_singleton.mp hmem
          have hstored : s.shared.acquisition.pendingDetection = some message :=
            congrArg Prod.fst (Option.some.inj hw)
          exact hmeets hn.request message hstored

theorem serve_steady {inputs : List (Stimulus K)}
    (h : ∀ before x after, inputs = before ++ x :: after →
      (serve node before).1.Meets node x) : (serve node inputs).1.Steady node := by
  induction inputs using List.reverseRecOn with
  | nil => exact Server.steady_of_idle rfl
  | append_singleton inputs x ih =>
    have hs := ih fun before y after heq => h before y (after ++ [x]) (by simp [heq])
    have hx := h inputs x [] rfl
    rw [serve, run_snoc]
    show (step node x (serve node inputs).1).1.Steady node
    by_cases htick : ∃ lookup, x.input = .tick lookup
    · obtain ⟨lookup, htick⟩ := htick
      rw [Server.Meets, htick] at hx
      rw [step]
      split
      · exact hs
      · rw [htick]
        exact hs.runTick hx
    · have htick' : (step node x (serve node inputs).1).1.tick = (serve node inputs).1.tick :=
        step_tick_eq fun lookup hlookup => htick ⟨lookup, hlookup⟩
      rw [Server.Steady, Server.currentTick, htick']
      exact hs

theorem not_throws_serve {inputs : List (Stimulus K)}
    (h : ∀ before x after, inputs = before ++ x :: after →
      (serve node before).1.Meets node x) {before after : List (Stimulus K)} {x : Stimulus K}
    (heq : inputs = before ++ x :: after) : ¬ (serve node before).1.Throws node x := by
  have hx := h before x after heq
  have hsteady : (serve node before).1.Steady node :=
    serve_steady fun earlier y later hbefore =>
      h earlier y (later ++ x :: after) (by simp [heq, hbefore])
  rw [Server.Throws]
  rw [Server.Meets] at hx
  cases hinput : x.input with
  | tick lookup => exact hsteady.not_escape
  | operation id =>
    rw [hinput] at hx
    rintro ⟨thread, requested, undocking, instanceId, hthread, hrequest, hnone⟩
    exact activateProfile_eq_none.mp hnone (hx _ _ _ _ hthread hrequest)
  | message message => exact not_false
  | goal goal => exact not_false
  | cancel id => exact not_false
  | shutdown => exact not_false

end FineAlignServer

/-! ### All four -/

/-- When a stamped message lets an exception out, for every message and every state: of
the cloud throttle, exactly when the cloud it takes has negative seconds; of the obstacle
layer, exactly when it reaches such a cloud before it is too old; of an activation, exactly
when it reads such a box state; of a tick of the server, exactly when it has copied such a
detection. A run that never finds one lets no exception out. -/
theorem stamps_escape_iff {K : Type} [Field K] [LinearOrder K] [FloorRing K] :
    (∀ (P : PointCloudVoxelFilter.Platform K) (p : LidarCloudThrottle.Params K)
      (lookupTransform : LidarCloudThrottle.Lookup K) (s : LidarCloudThrottle.State K),
      ¬ LidarCloudThrottle.Threw (LidarCloudThrottle.processLatestCloud P p lookupTransform s).2 ↔
        LidarCloudThrottle.Convertible s) ∧
    (∀ (p : PointCloudObstacleLayer.Params K) (look : ℕ → PointCloudObstacleLayer.Look)
      (s : PointCloudObstacleLayer.State),
      ¬ PointCloudObstacleLayer.Threw (PointCloudObstacleLayer.processPending p look s).2 ↔
        PointCloudObstacleLayer.Meets p (.processPending look) s) ∧
    (∀ (node : FineAlignServer.Node K) (rosNow : TimePoint) (requested instanceId : String)
      (undocking : Bool) (a : FineAlignServer.Acquisition K),
      a.activateProfile node rosNow requested undocking instanceId ≠ none ↔
        FineAlignServer.Readable undocking instanceId a) ∧
    (∀ (node : FineAlignServer.Node K) (tr : List (FineAlignServer.TickEvent K))
      (p : FineAlignServer.Tick K Unit),
      Interaction.Program.Steps (FineAlignServer.publishSelectedCommand node) tr p →
        (p.request ≠ some .escape ↔ ¬ FineAlignServer.CopiedNegative tr)) ∧
    (∀ (P : PointCloudVoxelFilter.Platform K) (p : LidarCloudThrottle.Params K)
      (events : List (LidarCloudThrottle.Event K)),
      (∀ before e after, events = before ++ e :: after →
        LidarCloudThrottle.Meets e (LidarCloudThrottle.serve P p before).1) →
      ¬ LidarCloudThrottle.Threw (LidarCloudThrottle.serve P p events).2) ∧
    (∀ (p : PointCloudObstacleLayer.Params K) (sensorFrames : List String)
      (calls : List PointCloudObstacleLayer.Call),
      (∀ before call after, calls = before ++ call :: after →
        PointCloudObstacleLayer.Meets p call (PointCloudObstacleLayer.run p sensorFrames before).1) →
      ∀ before look after, calls = before ++ .processPending look :: after →
        ¬ PointCloudObstacleLayer.Threw (PointCloudObstacleLayer.processPending p look
          (PointCloudObstacleLayer.run p sensorFrames before).1).2) ∧
    ∀ (node : FineAlignServer.Node K) (inputs : List (FineAlignServer.Stimulus K)),
      (∀ before x after, inputs = before ++ x :: after →
        (FineAlignServer.serve node before).1.Meets node x) →
      ∀ before x after, inputs = before ++ x :: after →
        ¬ (FineAlignServer.serve node before).1.Throws node x := by
  refine ⟨?_, ?_, ?_, ?_, ?_, ?_, ?_⟩
  · intro P p lookupTransform s
    exact LidarCloudThrottle.threw_processLatestCloud
  · intro p look s
    exact PointCloudObstacleLayer.threw_processPending
  · intro node rosNow requested instanceId undocking a
    rw [Ne, FineAlignServer.activateProfile_eq_none, not_not]
  · intro node tr p hs
    rw [Ne, FineAlignServer.escape_iff hs]
  · intro P p events h
    exact (LidarCloudThrottle.not_threw_serve h).1
  · intro p sensorFrames calls h before look after heq
    exact PointCloudObstacleLayer.threw_processPending.mpr (h before _ after heq)
  · intro node inputs h before x after heq
    exact FineAlignServer.not_throws_serve h heq

/-- A cloud, a detection and a box state stamped before the epoch. -/
def beforeEpoch : Header := ⟨⟨-1, 0⟩, "lidar"⟩

def cloudBeforeEpoch : PointCloud2 := PointCloudVoxelFilter.makeEmptyCloud beforeEpoch

def throttleParams : LidarCloudThrottle.Params ℚ := ⟨"base_link", 0, ⟨.finite 1, 0, 0, 1⟩⟩

def layerParams : PointCloudObstacleLayer.Params ℚ := ⟨"odom", 15 / 100, by norm_num⟩

def sameLook : PointCloudObstacleLayer.Look := ⟨0, fun _ _ _ => true, fun _ _ _ => true⟩

def cloudOfEpoch : PointCloud2 := PointCloudVoxelFilter.makeEmptyCloud ⟨⟨1, 0⟩, "lidar"⟩

def detectionOfEpoch : FineAlignServer.Message ℚ :=
  .detections FineAlignServer.Node.declared.initialProfile.detectionsTopic ⟨⟨⟨1, 0⟩, "lidar"⟩, []⟩

def tickNow : FineAlignServer.Stimulus ℚ := ⟨⟨0, 0⟩, .tick .unavailable⟩

/-- A cloud and a detection of this epoch are taken, and nothing escapes. -/
theorem stamps_escape_iff_sample :
    Interaction.Program.request (FineAlignServer.publishSelectedCommand
      FineAlignServer.Node.declared) ≠ some .escape ∧
    ¬ LidarCloudThrottle.Threw (LidarCloudThrottle.serve PointCloudVoxelFilter.samplePlatform
      throttleParams [.cloudCallback cloudOfEpoch, .tick fun _ _ _ => none]).2 ∧
    ¬ PointCloudObstacleLayer.Threw (PointCloudObstacleLayer.processPending layerParams
      (fun _ => sameLook) (PointCloudObstacleLayer.run layerParams [""]
        [.activate, .enqueue 0 cloudOfEpoch 0]).1).2 ∧
    ¬ (FineAlignServer.serve FineAlignServer.Node.declared
      [⟨⟨0, 0⟩, .message detectionOfEpoch⟩, tickNow, tickNow]).1.Throws
        FineAlignServer.Node.declared tickNow := by
  obtain ⟨-, -, -, htick, hthrottle, hlayer, hserver⟩ := stamps_escape_iff (K := ℚ)
  refine ⟨?_, ?_, ?_, ?_⟩
  · refine (htick _ [] _ (.refl _)).mpr ?_
    rintro ⟨snapshot, message, h, -⟩
    cases h
  · refine hthrottle _ _ _ (forall_split_cons trivial (forall_split_cons ?_ forall_split_nil))
    intro _ message sequence hpending
    obtain rfl : cloudOfEpoch = message := congrArg Prod.fst (Option.some.inj hpending)
    decide
  · refine hlayer _ _ [.activate, .enqueue 0 cloudOfEpoch 0, .processPending fun _ => sameLook]
      (forall_split_cons trivial (forall_split_cons trivial (forall_split_cons ?_
        forall_split_nil))) _ _ [] rfl
    rintro - ⟨k, pending, hpending, hneg, -⟩
    have hmem : pending ∈ [(⟨cloudOfEpoch, 0⟩ : PointCloudObstacleLayer.PendingCloud)] :=
      List.mem_of_getElem? hpending
    obtain rfl := List.mem_singleton.mp hmem
    exact absurd hneg (by decide)
  · refine hserver _ [⟨⟨0, 0⟩, .message detectionOfEpoch⟩, tickNow, tickNow, tickNow]
      (forall_split_cons trivial (forall_split_cons ?_ (forall_split_cons ?_
        (forall_split_cons ?_ forall_split_nil)))) _ _ [] rfl
    · intro h
      cases h
    · intro _ message hstored
      obtain rfl : (⟨⟨⟨1, 0⟩, "lidar"⟩, []⟩ : AprilTagDetectionArray ℚ) = message :=
        Option.some.inj hstored
      decide
    · intro h
      cases h

/-- Each of the four lets an exception out, at a state that one message has led to. -/
theorem stamps_escape_before_epoch :
    LidarCloudThrottle.Occurrence.threw .runtimeError ∈ (LidarCloudThrottle.serve
      PointCloudVoxelFilter.samplePlatform throttleParams
        [.cloudCallback cloudBeforeEpoch, .tick fun _ _ _ => none, .tick fun _ _ _ => none]).2 ∧
    PointCloudObstacleLayer.Occurrence.threw .runtimeError ∈
      (PointCloudObstacleLayer.run layerParams [""]
        [.activate, .enqueue 0 cloudBeforeEpoch 0, .processPending fun _ => sameLook]).2 ∧
    (((FineAlignServer.Acquisition.initial FineAlignServer.Node.declared).storeBoxes
      [⟨beforeEpoch, "tag:1", "tag", "default", ["default"]⟩]).activateProfile
        FineAlignServer.Node.declared 0 "" false "tag:1").isNone ∧
    (FineAlignServer.serve FineAlignServer.Node.declared (FineAlignServer.everyMillisecond
      [.message (.detections FineAlignServer.Node.declared.initialProfile.detectionsTopic
        ⟨beforeEpoch, []⟩), .tick .unavailable, .tick .unavailable,
          .tick .unavailable])).1.terminated = true := by
  refine ⟨?_, ?_, ?_, ?_⟩
  · decide +kernel
  · decide +kernel
  · decide +kernel
  · decide +kernel

end X2Navigation
