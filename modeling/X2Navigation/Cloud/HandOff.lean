import X2Navigation.Stamps.Escapes

/-! What becomes of every cloud. A tick takes the newest cloud if that has not been dealt with;
whatever arrives while the tick is at work is newer, and stays for the next one. So no cloud is
dealt with twice or after a newer one, and the newest is pending until it is dealt with. -/

namespace X2Navigation.LidarCloudThrottle

open Traced PointCloudVoxelFilter

variable {K : Type*}

/-! ### What has happened -/

def arrival : Event K → Option PointCloud2
  | .cloudCallback message => some message
  | .tick _ => none

def arrivals (events : List (Event K)) : List PointCloud2 := events.filterMap arrival

def OnlyArrivals (events : List (Event K)) : Prop := ∀ e ∈ events, ∃ message, e = .cloudCallback message

/-- The number and the outcome of the cloud that a tick ends with. -/
def verdict (s : State K) : Event K → Option (UInt64 × Outcome)
  | .cloudCallback _ => none
  | .tick _ =>
    match s.phase with
    | .processed sequence outcome => some (sequence, outcome)
    | _ => none

/-- Published or malformed. -/
def Outcome.Settled : Outcome → Prop
  | .overflow | .noFrame | .noTransform => False
  | .malformed | .published _ => True

/-- What the end of a tick publishes. -/
def Outcome.publication (sequence : UInt64) : Outcome → List Occurrence
  | .published cloud => [.published sequence cloud]
  | _ => []

def publishedNumber : Occurrence → Option ℕ
  | .published sequence _ => some sequence.toNat
  | _ => none

@[simp] theorem arrivals_nil : arrivals ([] : List (Event K)) = [] := rfl

@[simp] theorem arrivals_tick (lookupTransform : Lookup K) (events : List (Event K)) :
    arrivals (.tick lookupTransform :: events) = arrivals events := rfl

theorem arrivals_snoc (events : List (Event K)) (e : Event K) :
    arrivals (events ++ [e]) = arrivals events ++ (arrival e).toList := by
  rw [arrivals, List.filterMap_append, arrivals]
  cases e <;> rfl

theorem arrivals_append (events events' : List (Event K)) :
    arrivals (events ++ events') = arrivals events ++ arrivals events' := List.filterMap_append

variable [Field K] [LinearOrder K] [FloorRing K] (P : Platform K) (p : Params K)

/-- The ends of the ticks of a run. -/
def verdicts (events : List (Event K)) : List (UInt64 × Outcome) :=
  (run (fun e s => ((step P p e s).1, (verdict s e).toList)) .initial events).2

/-- The cloud of this number has been published or found malformed. -/
def DealtWith (events : List (Event K)) (sequence : UInt64) : Prop :=
  ∃ outcome, (sequence, outcome) ∈ verdicts P p events ∧ outcome.Settled

variable {P p}

theorem serve_snoc (events : List (Event K)) (e : Event K) :
    serve P p (events ++ [e]) = (serve P p events).andThen (step P p e) := run_snoc _ _ _ _

theorem verdicts_snoc (events : List (Event K)) (e : Event K) :
    verdicts P p (events ++ [e]) =
      verdicts P p events ++ (verdict (serve P p events).1 e).toList := by
  have hstate : (run (fun e s => ((step P p e s).1, (verdict s e).toList)) .initial events).1 =
      (serve P p events).1 := by
    induction events using List.reverseRecOn with
    | nil => rfl
    | append_singleton events e ih =>
      rw [run_snoc, serve_snoc, Reaction.andThen_fst, Reaction.andThen_fst, ih]
  rw [verdicts, run_snoc, Reaction.andThen_snd, hstate, verdicts]

theorem dealtWith_snoc {events : List (Event K)} {e : Event K} {sequence : UInt64} :
    DealtWith P p (events ++ [e]) sequence ↔ DealtWith P p events sequence ∨
      ∃ outcome, verdict (serve P p events).1 e = some (sequence, outcome) ∧ outcome.Settled := by
  simp only [DealtWith, verdicts_snoc, List.mem_append, Option.mem_toList, or_and_right, exists_or]

/-- What a verdict adds to what has been dealt with. -/
theorem dealtWith_of_verdict {before next : List (Event K)} {sequence : UInt64} {outcome : Outcome}
    (h : verdicts P p next = verdicts P p before ++ [(sequence, outcome)]) (number : UInt64) :
    DealtWith P p next number ↔
      DealtWith P p before number ∨ number = sequence ∧ outcome.Settled := by
  have hmem (o : Outcome) : (number, o) ∈ verdicts P p next ↔
      (number, o) ∈ verdicts P p before ∨ number = sequence ∧ o = outcome := by
    rw [h, List.mem_append, List.mem_singleton, Prod.mk.injEq]
  simp only [DealtWith, hmem, or_and_right, exists_or, and_assoc, exists_and_left, exists_eq_left]

/-! ### What becomes of a cloud in hand -/

variable (p)

/-- The time of the cloud with the configured offset, in nanoseconds. -/
def shiftedStamp (message : PointCloud2) : TimePoint :=
  message.header.stamp.sec.toInt * 1000000000 + message.header.stamp.nanosec.toNat +
    p.timestampOffset.toInt

/-- A tick cannot use the cloud: its time overflows, it has no frame, or there is no transform
from its frame at its time. -/
def Unusable (lookupTransform : Lookup K) (message : PointCloud2) : Prop :=
  Int64.maxValue.toInt < shiftedStamp p message ∨ message.header.frameId = "" ∨
    lookupTransform p.targetFrame message.header.frameId (shiftedStamp p message) = none

/-- What the filter is asked for. -/
def request (message : PointCloud2) (targetFromSource : TransformStamped (Double K)) : Request K :=
  ⟨message, targetFromSource, ⟨(shiftedStamp p message).toMessage, p.targetFrame⟩, p.filterConfig⟩

variable {p} {lookupTransform : Lookup K} {message : PointCloud2} {w : Workspace K}

omit [Field K] [LinearOrder K] [FloorRing K] in
/-- The stamp is converted, and the offset added unless that overflows. -/
theorem plus_timestampOffset (hstamp : ¬ message.header.stamp.Negative) :
    ∃ stamp : TimePoint, message.header.stamp.rclcpp = .ok stamp ∧
      stamp.plus p.timestampOffset =
        if Int64.maxValue.toInt < shiftedStamp p message then .error .overflowError
        else .ok (shiftedStamp p message) := by
  obtain ⟨stamp, hconverted, hnonneg⟩ := Time.rclcpp_of_not_negative hstamp
  have hsum : stamp + p.timestampOffset.toInt = shiftedStamp p message := by
    rw [Time.rclcpp, if_neg (show ¬ message.header.stamp.sec < 0 from hstamp)] at hconverted
    rw [← Except.ok.inj hconverted]
    rfl
  refine ⟨stamp, hconverted, ?_⟩
  rw [← hsum]
  -- what is not negative does not underflow
  split
  · next hover => rw [TimePoint.plus, if_pos hover]
  · next hover =>
    obtain ⟨sum, hplus⟩ | hplus := TimePoint.plus_of_nonneg hnonneg p.timestampOffset
    · rw [hplus]
      rw [TimePoint.plus, if_neg hover] at hplus
      split at hplus
      · cases hplus
      · rw [Except.ok.inj hplus]
    · rw [TimePoint.plus, if_neg hover] at hplus
      split at hplus <;> cases hplus

theorem process_of_unusable (hstamp : ¬ message.header.stamp.Negative)
    (h : Unusable p lookupTransform message) :
    ∃ outcome, ¬ outcome.Settled ∧ process P p lookupTransform message w = .ok (outcome, w) := by
  obtain ⟨stamp, hconverted, hplus⟩ := plus_timestampOffset (p := p) hstamp
  rw [process, hconverted]
  simp only [hplus]
  by_cases hover : Int64.maxValue.toInt < shiftedStamp p message
  · exact ⟨.overflow, id, by rw [if_pos hover]⟩
  rw [if_neg hover]
  by_cases hframe : message.header.frameId = ""
  · exact ⟨.noFrame, id, by simp only [if_pos hframe]⟩
  · have hlookup := (h.resolve_left hover).resolve_left hframe
    exact ⟨.noTransform, id, by simp only [if_neg hframe, hlookup]⟩

/-- A cloud that can be used is filtered: it is malformed, or what comes out is published. -/
theorem process_of_usable (hstamp : ¬ message.header.stamp.Negative)
    (h : ¬ Unusable p lookupTransform message) :
    ∃ targetFromSource outcome w',
      lookupTransform p.targetFrame message.header.frameId (shiftedStamp p message) =
        some targetFromSource ∧
      process P p lookupTransform message w = .ok (outcome, w') ∧ outcome.Settled ∧
      ∀ sequence, outcome.publication sequence =
        ((filter P (request p message targetFromSource) w).1.map
          fun output => .published sequence output.cloud).toList := by
  rw [Unusable, not_or, not_or] at h
  obtain ⟨hover, hframe, hlookup⟩ := h
  obtain ⟨stamp, hconverted, hplus⟩ := plus_timestampOffset (p := p) hstamp
  rw [if_neg hover] at hplus
  obtain ⟨targetFromSource, hfound⟩ := Option.ne_none_iff_exists'.mp hlookup
  have hprocess (output : Option PointCloudVoxelFilter.Result) (w' : Workspace K)
      (h : filter P (request p message targetFromSource) w = (output, w')) :
      process P p lookupTransform message w =
        .ok (output.elim .malformed fun output => .published output.cloud, w') := by
    have h' : filter P ⟨message, targetFromSource,
        ⟨(shiftedStamp p message).toMessage, p.targetFrame⟩, p.filterConfig⟩ w = (output, w') := h
    rw [process, hconverted]
    simp only [hplus]
    rw [if_neg hframe, hfound]
    simp only [h']
    cases output <;> rfl
  refine ⟨targetFromSource, ?_⟩
  cases hfilter : filter P (request p message targetFromSource) w with
  | mk output w' =>
    rw [hprocess output w' hfilter]
    cases output with
    | none => exact ⟨_, _, hfound, rfl, trivial, fun _ => rfl⟩
    | some output => exact ⟨_, _, hfound, rfl, trivial, fun _ => rfl⟩

/-! ### Where the cloud in hand comes from -/

variable (P p)

/-- A tick finds the cloud newest. -/
structure TakenAt (before : List (Event K)) (message : PointCloud2) (sequence : UInt64) : Prop where
  idle : (serve P p before).1.phase = .idle
  newest : (arrivals before).getLast? = some message
  number : sequence.toNat = (arrivals before).length

/-- How a tick has come to where it is: it took the newest cloud and processed it, with nothing
but arrivals in between. -/
def Origin (events : List (Event K)) : Phase → Prop
  | .idle => True
  | .taken message sequence => ∃ before lookup since,
      events = before ++ .tick lookup :: since ∧ OnlyArrivals since ∧
        TakenAt P p before message sequence
  | .processed sequence outcome => ∃ before lookup since lookup' later message w,
      events = before ++ .tick lookup :: since ++ .tick lookup' :: later ∧ OnlyArrivals since ∧
        OnlyArrivals later ∧ TakenAt P p before message sequence ∧
        process P p lookup' message (serve P p (before ++ .tick lookup :: since)).1.voxelFilter =
          .ok (outcome, w)
  | .down => False

variable {P p}

theorem Origin.arrived {events : List (Event K)} {phase : Phase} (h : Origin P p events phase)
    (message : PointCloud2) : Origin P p (events ++ [.cloudCallback message]) phase := by
  have hsnoc {since : List (Event K)} (hsince : OnlyArrivals since) :
      OnlyArrivals (since ++ [.cloudCallback message]) := by
    intro e he
    rcases List.mem_append.mp he with he | he
    · exact hsince e he
    · exact ⟨message, List.mem_singleton.mp he⟩
  cases phase with
  | idle => exact h
  | taken m sequence =>
    obtain ⟨before, lookup, since, rfl, hsince, htaken⟩ := h
    exact ⟨before, lookup, since ++ [.cloudCallback message], by simp, hsnoc hsince, htaken⟩
  | processed sequence outcome =>
    obtain ⟨before, lookup, since, lookup', later, m, w, rfl, hsince, hlater, htaken, hprocess⟩ := h
    exact ⟨before, lookup, since, lookup', later ++ [.cloudCallback message], m, w, by simp, hsince,
      hsnoc hlater, htaken, hprocess⟩
  | down => exact h

/-! ### The invariant -/

/-- The number of the cloud that a tick is at work on. -/
def Phase.inHand : Phase → Option UInt64
  | .idle => none
  | .taken _ sequence => some sequence
  | .processed sequence _ => some sequence
  | .down => none

variable (P p) in
/-- The subscription has counted the arrivals and kept the newest; what has been dealt with is no
newer than the last of it, and the cloud in hand is newer. -/
structure HandsOver (events : List (Event K)) : Prop where
  latest : (serve P p events).1.latestCloud = (arrivals events).getLast?
  count : (serve P p events).1.latestCloudSequence.toNat = (arrivals events).length
  last : (serve P p events).1.lastPublishedSequence.toNat ≤ (arrivals events).length
  dealt : ∀ sequence, DealtWith P p events sequence →
    sequence.toNat ≤ (serve P p events).1.lastPublishedSequence.toNat
  lastDealt : (serve P p events).1.lastPublishedSequence = 0 ∨
    DealtWith P p events (serve P p events).1.lastPublishedSequence
  origin : Origin P p events (serve P p events).1.phase
  ahead : ∀ sequence, (serve P p events).1.phase.inHand = some sequence →
    (serve P p events).1.lastPublishedSequence.toNat < sequence.toNat ∧
      sequence.toNat ≤ (arrivals events).length
  increasing : ((serve P p events).2.filterMap publishedNumber).Pairwise (· < ·)
  publishedLast : ∀ n ∈ (serve P p events).2.filterMap publishedNumber,
    n ≤ (serve P p events).1.lastPublishedSequence.toNat

theorem handsOver_nil : HandsOver P p [] where
  latest := rfl
  count := rfl
  last := le_rfl
  dealt := by
    rintro sequence ⟨outcome, hmem, -⟩
    cases hmem
  lastDealt := Or.inl rfl
  origin := trivial
  ahead := by
    intro sequence h
    cases h
  increasing := List.Pairwise.nil
  publishedLast := by
    intro n hn
    cases hn

namespace HandsOver

variable {events : List (Event K)}

theorem arrived (h : HandsOver P p events) (message : PointCloud2)
    (hfew : (arrivals events).length + 1 < 2 ^ 64) :
    HandsOver P p (events ++ [.cloudCallback message]) := by
  have hserve := serve_snoc (P := P) (p := p) events (.cloudCallback message)
  have harrivals : arrivals (events ++ [.cloudCallback message]) = arrivals events ++ [message] :=
    arrivals_snoc events (.cloudCallback message)
  have hlength : (arrivals (events ++ [.cloudCallback message])).length =
      (arrivals events).length + 1 := by
    rw [harrivals, List.length_append, List.length_singleton]
  have hdealt (sequence : UInt64) : DealtWith P p (events ++ [.cloudCallback message]) sequence ↔
      DealtWith P p events sequence := by
    rw [dealtWith_snoc]
    simp [verdict]
  have htrace : (serve P p (events ++ [.cloudCallback message])).2.filterMap publishedNumber =
      (serve P p events).2.filterMap publishedNumber := by
    rw [hserve, Reaction.andThen_snd, List.filterMap_append]
    exact List.append_nil _
  constructor
  · rw [hserve, harrivals, List.getLast?_concat]
    rfl
  · rw [hlength, ← h.count, hserve]
    show ((serve P p events).1.latestCloudSequence + 1).toNat = _
    rw [UInt64.toNat_add, h.count]
    exact Nat.mod_eq_of_lt hfew
  · rw [hlength, hserve]
    exact h.last.trans (Nat.le_succ _)
  · intro sequence hsequence
    rw [hserve]
    exact h.dealt sequence ((hdealt sequence).mp hsequence)
  · rw [hserve]
    exact h.lastDealt.imp id (hdealt _).mpr
  · rw [hserve]
    exact h.origin.arrived message
  · intro sequence hsequence
    rw [hserve] at hsequence ⊢
    obtain ⟨hlast, hle⟩ := h.ahead sequence hsequence
    exact ⟨hlast, by omega⟩
  · rw [htrace]
    exact h.increasing
  · rw [htrace, hserve]
    exact h.publishedLast

/-- A part of a tick that deals with no cloud. -/
theorem tick_unsettled (h : HandsOver P p events) {lookupTransform : Lookup K}
    (hlatest : (tick P p lookupTransform (serve P p events).1).1.latestCloud =
      (serve P p events).1.latestCloud)
    (hcount : (tick P p lookupTransform (serve P p events).1).1.latestCloudSequence =
      (serve P p events).1.latestCloudSequence)
    (hlast : (tick P p lookupTransform (serve P p events).1).1.lastPublishedSequence =
      (serve P p events).1.lastPublishedSequence)
    (hverdict : ∀ sequence outcome, verdict (serve P p events).1 (.tick lookupTransform) =
      some (sequence, outcome) → ¬ outcome.Settled)
    (hquiet : (tick P p lookupTransform (serve P p events).1).2.filterMap publishedNumber = [])
    (horigin : Origin P p (events ++ [.tick lookupTransform])
      (tick P p lookupTransform (serve P p events).1).1.phase)
    (hahead : ∀ sequence, (tick P p lookupTransform (serve P p events).1).1.phase.inHand =
      some sequence → (serve P p events).1.lastPublishedSequence.toNat < sequence.toNat ∧
        sequence.toNat ≤ (arrivals events).length) :
    HandsOver P p (events ++ [.tick lookupTransform]) := by
  have hserve : serve P p (events ++ [.tick lookupTransform]) =
      (serve P p events).andThen (tick P p lookupTransform) := serve_snoc events _
  have harrivals : arrivals (events ++ [.tick lookupTransform]) = arrivals events := by
    rw [arrivals_snoc]
    exact List.append_nil _
  have hdealt (sequence : UInt64) : DealtWith P p (events ++ [.tick lookupTransform]) sequence ↔
      DealtWith P p events sequence := by
    rw [dealtWith_snoc]
    constructor
    · rintro (hdealt | ⟨outcome, hout, hsettled⟩)
      · exact hdealt
      · exact absurd hsettled (hverdict sequence outcome hout)
    · exact Or.inl
  have htrace : (serve P p (events ++ [.tick lookupTransform])).2.filterMap publishedNumber =
      (serve P p events).2.filterMap publishedNumber := by
    rw [hserve, Reaction.andThen_snd, List.filterMap_append, hquiet, List.append_nil]
  have hlast' : (serve P p (events ++ [.tick lookupTransform])).1.lastPublishedSequence =
      (serve P p events).1.lastPublishedSequence := by
    rw [hserve]
    exact hlast
  constructor
  · rw [hserve, harrivals, ← h.latest]
    exact hlatest
  · rw [hserve, harrivals, ← h.count]
    exact congrArg UInt64.toNat hcount
  · rw [hlast', harrivals]
    exact h.last
  · intro sequence hsequence
    rw [hlast']
    exact h.dealt sequence ((hdealt sequence).mp hsequence)
  · rw [hlast']
    exact h.lastDealt.imp id (hdealt _).mpr
  · rw [hserve]
    exact horigin
  · intro sequence hsequence
    rw [hlast', harrivals]
    rw [hserve] at hsequence
    exact hahead sequence hsequence
  · rw [htrace]
    exact h.increasing
  · rw [htrace, hlast']
    exact h.publishedLast

/-- The newest cloud is pending until it is dealt with. -/
theorem pending_iff (h : HandsOver P p events) {message : PointCloud2} {sequence : UInt64} :
    pending (serve P p events).1 = some (message, sequence) ↔
      (arrivals events).getLast? = some message ∧
        sequence.toNat = (arrivals events).length ∧ ¬ DealtWith P p events sequence := by
  rw [pending, h.latest]
  cases hnewest : (arrivals events).getLast? with
  | none => simp
  | some newest =>
    have hpos : 0 < (arrivals events).length :=
      List.length_pos_of_mem (List.mem_of_getLast? hnewest)
    dsimp only
    split
    · next hsame =>
      have hdealt : DealtWith P p events (serve P p events).1.latestCloudSequence := by
        rcases h.lastDealt with hzero | hdealt
        · have hcount := h.count
          rw [hsame, hzero] at hcount
          exact absurd hcount hpos.ne
        · rwa [hsame]
      constructor
      · intro hnone
        cases hnone
      · rintro ⟨-, hnumber, hnot⟩
        have heq : sequence = (serve P p events).1.latestCloudSequence :=
          UInt64.toNat_inj.mp (hnumber.trans h.count.symm)
        exact absurd (heq ▸ hdealt) hnot
    · next hdiffer =>
      rw [Option.some_inj, Prod.mk.injEq, Option.some_inj]
      constructor
      · rintro ⟨rfl, rfl⟩
        refine ⟨rfl, h.count, fun hdealt => hdiffer ?_⟩
        have hle := h.dealt _ hdealt
        have hge := h.last
        rw [← h.count] at hge
        exact UInt64.toNat_inj.mp (le_antisymm hle hge)
      · rintro ⟨hmessage, hnumber, -⟩
        exact ⟨hmessage, UInt64.toNat_inj.mp (h.count.trans hnumber.symm)⟩

/-- A cloud that is newer than all that has been dealt with is pending. -/
theorem newer_pending (h : HandsOver P p events) {newer : PointCloud2}
    (hnewer : (arrivals events).getLast? = some newer)
    (holder : ∀ number, DealtWith P p events number → number.toNat < (arrivals events).length) :
    ∃ sequence, pending (serve P p events).1 = some (newer, sequence) := by
  refine ⟨(serve P p events).1.latestCloudSequence, h.pending_iff.mpr ⟨hnewer, h.count, ?_⟩⟩
  intro hdealt
  have hlt := holder _ hdealt
  rw [h.count] at hlt
  exact lt_irrefl _ hlt

/-- The block under the mutex takes the newest cloud or nothing. -/
theorem snapshot (h : HandsOver P p events) {lookupTransform : Lookup K}
    (hidle : (serve P p events).1.phase = .idle) :
    HandsOver P p (events ++ [.tick lookupTransform]) := by
  have htick : tick P p lookupTransform (serve P p events).1 = takeSnapshot (serve P p events).1 := by
    rw [tick, hidle]
  have hverdict : verdict (serve P p events).1 (.tick lookupTransform) = none := by
    rw [verdict, hidle]
  cases hpending : pending (serve P p events).1 with
  | none =>
    have hstay : takeSnapshot (serve P p events).1 = ((serve P p events).1, []) := by
      rw [takeSnapshot, hpending]
    rw [hstay] at htick
    apply h.tick_unsettled
    all_goals simp [htick, hverdict, hidle, Origin, Phase.inHand]
  | some cloud =>
    obtain ⟨message, sequence⟩ := cloud
    obtain ⟨hnewest, hnumber, hnot⟩ := h.pending_iff.mp hpending
    have htake : takeSnapshot (serve P p events).1 =
        ({ (serve P p events).1 with phase := .taken message sequence },
          [.took message sequence]) := by
      rw [takeSnapshot, hpending]
    have hahead : (serve P p events).1.lastPublishedSequence.toNat < sequence.toNat := by
      rw [hnumber]
      refine lt_of_le_of_ne h.last fun hsame => hnot ?_
      have heq : (serve P p events).1.lastPublishedSequence = sequence :=
        UInt64.toNat_inj.mp (hsame.trans hnumber.symm)
      rcases h.lastDealt with hzero | hdealt
      · rw [hzero] at hsame
        have hpos := List.length_pos_of_mem (List.mem_of_getLast? hnewest)
        exact absurd hsame hpos.ne
      · exact heq ▸ hdealt
    rw [htake] at htick
    apply h.tick_unsettled
    · rw [htick]
    · rw [htick]
    · rw [htick]
    · rw [hverdict]
      intro _ _ hnone
      cases hnone
    · rw [htick]
      rfl
    · rw [htick]
      exact ⟨events, lookupTransform, [], rfl, by simp [OnlyArrivals], hidle, hnewest, hnumber⟩
    · rw [htick]
      intro sequence' hsequence'
      obtain rfl := Option.some.inj hsequence'
      exact ⟨hahead, hnumber.le⟩

/-- The cloud in hand has arrived. -/
theorem taken_mem (h : HandsOver P p events) {message : PointCloud2} {sequence : UInt64}
    (hphase : (serve P p events).1.phase = .taken message sequence) :
    message ∈ arrivals events := by
  have horigin := h.origin
  rw [hphase] at horigin
  obtain ⟨before, lookup, since, heq, -, htaken⟩ := horigin
  rw [heq, arrivals_append]
  exact List.mem_append_left _ (List.mem_of_getLast? htaken.newest)

theorem process (h : HandsOver P p events) {lookupTransform : Lookup K} {message : PointCloud2}
    {sequence : UInt64} (hphase : (serve P p events).1.phase = .taken message sequence)
    (hstamp : ¬ message.header.stamp.Negative) :
    HandsOver P p (events ++ [.tick lookupTransform]) := by
  have hverdict : verdict (serve P p events).1 (.tick lookupTransform) = none := by
    rw [verdict, hphase]
  have hahead := h.ahead sequence (by rw [hphase]; rfl)
  have horigin := h.origin
  rw [hphase] at horigin
  obtain ⟨before, lookup, since, rfl, hsince, htaken⟩ := horigin
  cases hprocess : LidarCloudThrottle.process P p lookupTransform message
      (serve P p (before ++ .tick lookup :: since)).1.voxelFilter with
  | error exception => exact absurd ((process_error P p _ _ _).mp ⟨exception, hprocess⟩) hstamp
  | ok result =>
    obtain ⟨outcome, w⟩ := result
    have htick : tick P p lookupTransform (serve P p (before ++ .tick lookup :: since)).1 =
        ({ (serve P p (before ++ .tick lookup :: since)).1 with
          phase := .processed sequence outcome, voxelFilter := w }, []) := by
      rw [tick, hphase]
      show processTaken P p lookupTransform message sequence _ = _
      rw [processTaken, hprocess]
    apply h.tick_unsettled
    · rw [htick]
    · rw [htick]
    · rw [htick]
    · rw [hverdict]
      intro _ _ hnone
      cases hnone
    · rw [htick]
      rfl
    · rw [htick]
      exact ⟨before, lookup, since, lookupTransform, [], message, w, by simp, hsince,
        by simp [OnlyArrivals], htaken, hprocess⟩
    · rw [htick]
      intro sequence' hsequence'
      obtain rfl := Option.some.inj hsequence'
      exact hahead

/-- A cloud that is published or malformed becomes the last one dealt with. -/
theorem settled (h : HandsOver P p events) {lookupTransform : Lookup K} {sequence : UInt64}
    {outcome : Outcome} (hphase : (serve P p events).1.phase = .processed sequence outcome)
    (hsettled : outcome.Settled)
    (htick : (tick P p lookupTransform (serve P p events).1).1 =
      { (serve P p events).1 with phase := .idle, lastPublishedSequence := sequence })
    (htrace : (tick P p lookupTransform (serve P p events).1).2.filterMap publishedNumber = [] ∨
      (tick P p lookupTransform (serve P p events).1).2.filterMap publishedNumber =
        [sequence.toNat]) :
    HandsOver P p (events ++ [.tick lookupTransform]) := by
  have hserve : serve P p (events ++ [.tick lookupTransform]) =
      (serve P p events).andThen (tick P p lookupTransform) := serve_snoc events _
  have hstate : (serve P p (events ++ [.tick lookupTransform])).1 =
      { (serve P p events).1 with phase := .idle, lastPublishedSequence := sequence } := by
    rw [hserve]
    exact htick
  have harrivals : arrivals (events ++ [.tick lookupTransform]) = arrivals events := by
    rw [arrivals_snoc]
    exact List.append_nil _
  have hverdict : verdict (serve P p events).1 (.tick lookupTransform) =
      some (sequence, outcome) := by
    rw [verdict, hphase]
  obtain ⟨hlast, hle⟩ := h.ahead sequence (by rw [hphase]; rfl)
  have hnumbers : (serve P p (events ++ [.tick lookupTransform])).2.filterMap publishedNumber =
      (serve P p events).2.filterMap publishedNumber ++
        (tick P p lookupTransform (serve P p events).1).2.filterMap publishedNumber := by
    rw [hserve, Reaction.andThen_snd, List.filterMap_append]
  constructor
  · rw [hstate, harrivals]
    exact h.latest
  · rw [hstate, harrivals]
    exact h.count
  · rw [hstate, harrivals]
    exact hle
  · intro sequence' hdealt
    rw [hstate]
    rw [dealtWith_snoc, hverdict] at hdealt
    rcases hdealt with hdealt | ⟨outcome', heq, -⟩
    · exact (h.dealt sequence' hdealt).trans hlast.le
    · obtain ⟨rfl, -⟩ := Prod.mk.inj (Option.some.inj heq)
      exact le_rfl
  · rw [hstate]
    exact Or.inr (dealtWith_snoc.mpr (Or.inr ⟨outcome, hverdict, hsettled⟩))
  · rw [hstate]
    trivial
  · intro sequence' hsequence'
    rw [hstate] at hsequence'
    cases hsequence'
  · rw [hnumbers]
    rcases htrace with hnone | hone
    · rw [hnone, List.append_nil]
      exact h.increasing
    · rw [hone]
      refine List.pairwise_append.mpr ⟨h.increasing, List.pairwise_singleton _ _, ?_⟩
      intro n hn m hm
      obtain rfl := List.mem_singleton.mp hm
      exact (h.publishedLast n hn).trans_lt hlast
  · rw [hnumbers, hstate]
    intro n hn
    rcases List.mem_append.mp hn with hn | hn
    · exact (h.publishedLast n hn).trans hlast.le
    · rcases htrace with hnone | hone
      · rw [hnone] at hn
        cases hn
      · rw [hone] at hn
        exact (List.mem_singleton.mp hn).le

/-- The end of a tick. -/
theorem finish (h : HandsOver P p events) {lookupTransform : Lookup K} {sequence : UInt64}
    {outcome : Outcome} (hphase : (serve P p events).1.phase = .processed sequence outcome) :
    HandsOver P p (events ++ [.tick lookupTransform]) := by
  have htick : tick P p lookupTransform (serve P p events).1 =
      LidarCloudThrottle.finish sequence outcome (serve P p events).1 := by
    rw [tick, hphase]
  have hverdict : verdict (serve P p events).1 (.tick lookupTransform) =
      some (sequence, outcome) := by
    rw [verdict, hphase]
  by_cases hsettled : outcome.Settled
  · apply h.settled hphase hsettled
    · rw [htick]
      cases outcome <;> first | rfl | exact hsettled.elim
    · rw [htick]
      cases outcome with
      | published cloud => exact Or.inr rfl
      | malformed => exact Or.inl rfl
      | overflow | noFrame | noTransform => exact hsettled.elim
  · have hleft : LidarCloudThrottle.finish sequence outcome (serve P p events).1 =
        ({ (serve P p events).1 with phase := .idle }, []) := by
      cases outcome <;> first | rfl | exact absurd trivial hsettled
    rw [hleft] at htick
    apply h.tick_unsettled
    · rw [htick]
    · rw [htick]
    · rw [htick]
    · rw [hverdict]
      intro sequence' outcome' heq
      obtain ⟨-, rfl⟩ := Prod.mk.inj (Option.some.inj heq)
      exact hsettled
    · rw [htick]
      rfl
    · rw [htick]
      trivial
    · rw [htick]
      intro sequence' hsequence'
      cases hsequence'

end HandsOver

/-- Every run hands its clouds over, as long as their numbers last and their stamps can be
converted. -/
theorem handsOver_serve {events : List (Event K)} (hfew : (arrivals events).length < 2 ^ 64)
    (hstamps : ∀ message ∈ arrivals events, ¬ message.header.stamp.Negative) :
    HandsOver P p events := by
  induction events using List.reverseRecOn with
  | nil => exact handsOver_nil
  | append_singleton events e ih =>
    have hsplit := arrivals_snoc events e
    have hbefore : HandsOver P p events := by
      refine ih ?_ fun message hmem => hstamps message ?_
      · rw [hsplit, List.length_append] at hfew
        omega
      · rw [hsplit]
        exact List.mem_append_left _ hmem
    cases e with
    | cloudCallback message =>
      refine hbefore.arrived message ?_
      rw [hsplit, List.length_append] at hfew
      exact hfew
    | tick lookupTransform =>
      cases hphase : (serve P p events).1.phase with
      | idle => exact hbefore.snapshot hphase
      | taken message sequence =>
        refine hbefore.process hphase (hstamps message ?_)
        rw [hsplit]
        exact List.mem_append_left _ (hbefore.taken_mem hphase)
      | processed sequence outcome => exact hbefore.finish hphase
      | down =>
        have horigin := hbefore.origin
        rw [hphase] at horigin
        exact horigin.elim

/-! ### One tick among arrivals -/

/-- Arrivals leave a tick where it is. -/
theorem serve_arrivals (events : List (Event K)) {since : List (Event K)}
    (hsince : OnlyArrivals since) :
    (serve P p (events ++ since)).1.phase = (serve P p events).1.phase ∧
      verdicts P p (events ++ since) = verdicts P p events := by
  induction since using List.reverseRecOn with
  | nil =>
    rw [List.append_nil]
    exact ⟨rfl, rfl⟩
  | append_singleton since e ih =>
    obtain ⟨hphase, hverdicts⟩ := ih fun e he => hsince e (List.mem_append_left _ he)
    obtain ⟨message, rfl⟩ := hsince e (by simp)
    rw [← List.append_assoc, verdicts_snoc, hverdicts, serve_snoc]
    exact ⟨hphase, List.append_nil _⟩

theorem verdicts_of_not_processed {events : List (Event K)} {lookupTransform : Lookup K}
    (h : ∀ sequence outcome, (serve P p events).1.phase ≠ .processed sequence outcome) :
    verdicts P p (events ++ [.tick lookupTransform]) = verdicts P p events := by
  have hnone : verdict (serve P p events).1 (.tick lookupTransform) = none := by
    rw [verdict]
    split
    · next sequence outcome hphase => exact absurd hphase (h sequence outcome)
    · rfl
  rw [verdicts_snoc, hnone]
  exact List.append_nil _

/-- A tick that finds a cloud pending takes it, processes it, and ends with its verdict, whatever
arrives in the meantime. -/
theorem whole_tick {before since later : List (Event K)} {message : PointCloud2}
    {sequence : UInt64} (lookup lookup' lookup'' : Lookup K)
    (hidle : (serve P p before).1.phase = .idle)
    (hpending : pending (serve P p before).1 = some (message, sequence))
    (hstamp : ¬ message.header.stamp.Negative) (hsince : OnlyArrivals since)
    (hlater : OnlyArrivals later) :
    (step P p (.tick lookup) (serve P p before).1).2 = [.took message sequence] ∧
      ∃ outcome w, LidarCloudThrottle.process P p lookup' message
          (serve P p (before ++ .tick lookup :: since)).1.voxelFilter = .ok (outcome, w) ∧
        let processed := before ++ .tick lookup :: since ++ .tick lookup' :: later
        (step P p (.tick lookup'') (serve P p processed).1).2 = outcome.publication sequence ∧
          (serve P p (processed ++ [.tick lookup''])).1.phase = .idle ∧
          verdicts P p (processed ++ [.tick lookup'']) =
            verdicts P p before ++ [(sequence, outcome)] := by
  have htake : tick P p lookup (serve P p before).1 =
      ({ (serve P p before).1 with phase := .taken message sequence },
        [.took message sequence]) := by
    rw [tick, hidle]
    show takeSnapshot _ = _
    rw [takeSnapshot, hpending]
  have htaken : (serve P p (before ++ [.tick lookup])).1.phase = .taken message sequence := by
    rw [serve_snoc]
    exact congrArg (·.1.phase) htake
  have hverdicts₁ : verdicts P p (before ++ [.tick lookup]) = verdicts P p before :=
    verdicts_of_not_processed fun _ _ => by simp [hidle]
  have hkeeps := serve_arrivals (P := P) (p := p) (before ++ [.tick lookup]) hsince
  rw [htaken, hverdicts₁, ← List.append_cons] at hkeeps
  obtain ⟨hphase₁, hverdicts₂⟩ := hkeeps
  refine ⟨congrArg Prod.snd htake, ?_⟩
  generalize before ++ .tick lookup :: since = taken at hphase₁ hverdicts₂ ⊢
  cases hprocess : LidarCloudThrottle.process P p lookup' message
      (serve P p taken).1.voxelFilter with
  | error exception => exact absurd ((process_error P p _ _ _).mp ⟨exception, hprocess⟩) hstamp
  | ok result =>
    obtain ⟨outcome, w⟩ := result
    refine ⟨outcome, w, rfl, ?_⟩
    have hprocessed : (serve P p (taken ++ [.tick lookup'])).1.phase =
        .processed sequence outcome := by
      rw [serve_snoc]
      show (tick P p lookup' (serve P p taken).1).1.phase = _
      rw [tick, hphase₁]
      show (processTaken P p lookup' message sequence (serve P p taken).1).1.phase = _
      rw [processTaken, hprocess]
    have hverdicts₃ : verdicts P p (taken ++ [.tick lookup']) = verdicts P p taken :=
      verdicts_of_not_processed fun _ _ => by simp [hphase₁]
    have hkeeps := serve_arrivals (P := P) (p := p) (taken ++ [.tick lookup']) hlater
    rw [hprocessed, hverdicts₃, hverdicts₂, ← List.append_cons] at hkeeps
    obtain ⟨hphase₂, hverdicts₄⟩ := hkeeps
    generalize taken ++ .tick lookup' :: later = processed at hphase₂ hverdicts₄ ⊢
    refine ⟨?_, ?_, ?_⟩
    · show (tick P p lookup'' (serve P p processed).1).2 = _
      rw [tick, hphase₂]
      cases outcome <;> rfl
    · rw [serve_snoc]
      show (tick P p lookup'' (serve P p processed).1).1.phase = _
      rw [tick, hphase₂]
      cases outcome <;> rfl
    · have hverdict : verdict (serve P p processed).1 (.tick lookup'') =
          some (sequence, outcome) := by
        rw [verdict, hphase₂]
      rw [verdicts_snoc, hverdict, hverdicts₄]
      rfl

/-- What is published comes from a tick that took the newest cloud and filtered it. -/
theorem HandsOver.published {events : List (Event K)} (h : HandsOver P p events) {e : Event K}
    {sequence : UInt64} {cloud : PointCloud2}
    (hpublished : .published sequence cloud ∈ (step P p e (serve P p events).1).2) :
    Origin P p events (.processed sequence (.published cloud)) := by
  cases e with
  | cloudCallback message => simp [step, cloudCallback] at hpublished
  | tick lookupTransform =>
    have horigin := h.origin
    change .published sequence cloud ∈ (tick P p lookupTransform (serve P p events).1).2
      at hpublished
    rw [tick] at hpublished
    cases hphase : (serve P p events).1.phase with
    | idle =>
      rw [hphase] at hpublished
      change _ ∈ (takeSnapshot (serve P p events).1).2 at hpublished
      rw [takeSnapshot] at hpublished
      split at hpublished <;> simp at hpublished
    | taken message taken =>
      rw [hphase] at hpublished
      change _ ∈ (processTaken P p lookupTransform message taken (serve P p events).1).2
        at hpublished
      rw [processTaken] at hpublished
      split at hpublished <;> simp at hpublished
    | processed processed outcome =>
      rw [hphase] at hpublished horigin
      change _ ∈ (LidarCloudThrottle.finish processed outcome (serve P p events).1).2 at hpublished
      cases outcome with
      | published output =>
        obtain ⟨rfl, rfl⟩ : sequence = processed ∧ cloud = output := by
          simpa [LidarCloudThrottle.finish] using hpublished
        exact horigin
      | malformed | overflow | noFrame | noTransform =>
        simp [LidarCloudThrottle.finish] at hpublished
    | down =>
      rw [hphase] at hpublished
      simp at hpublished

/-- A tick took the cloud of this number when it was the newest, and the filter made this of it. -/
def PublishedFrom (P : Platform K) (p : Params K) (events : List (Event K)) (sequence : UInt64)
    (cloud : PointCloud2) : Prop :=
  ∃ before lookup since lookup' later message targetFromSource output,
    events = before ++ .tick lookup :: since ++ .tick lookup' :: later ∧ OnlyArrivals since ∧
      OnlyArrivals later ∧ TakenAt P p before message sequence ∧
      lookup' p.targetFrame message.header.frameId (shiftedStamp p message) =
        some targetFromSource ∧
      (filter P (request p message targetFromSource)
        (serve P p (before ++ .tick lookup :: since)).1.voxelFilter).1 = some output ∧
      cloud = output.cloud

theorem HandsOver.publishedFrom {events : List (Event K)} (h : HandsOver P p events)
    (hstamps : ∀ message ∈ arrivals events, ¬ message.header.stamp.Negative) {e : Event K}
    {sequence : UInt64} {cloud : PointCloud2}
    (hpublished : .published sequence cloud ∈ (step P p e (serve P p events).1).2) :
    PublishedFrom P p events sequence cloud := by
  obtain ⟨before, lookup, since, lookup', later, message, w, rfl, hsince, hlater, htaken, hprocess⟩ :=
    h.published hpublished
  have hstamp : ¬ message.header.stamp.Negative := by
    apply hstamps message
    rw [List.append_assoc, arrivals_append]
    exact List.mem_append_left _ (List.mem_of_getLast? htaken.newest)
  by_cases hunusable : Unusable p lookup' message
  · obtain ⟨outcome, hleft, hprocess'⟩ := process_of_unusable (P := P)
      (w := (serve P p (before ++ .tick lookup :: since)).1.voxelFilter) hstamp hunusable
    obtain ⟨rfl, -⟩ := Prod.mk.inj (Except.ok.inj (hprocess.symm.trans hprocess'))
    exact absurd trivial hleft
  · obtain ⟨targetFromSource, outcome, w', hlookup, hprocess', -, hpublication⟩ :=
      process_of_usable (P := P)
        (w := (serve P p (before ++ .tick lookup :: since)).1.voxelFilter) hstamp hunusable
    obtain ⟨rfl, -⟩ := Prod.mk.inj (Except.ok.inj (hprocess.symm.trans hprocess'))
    have hone := hpublication sequence
    cases hfilter : (filter P (request p message targetFromSource)
        (serve P p (before ++ .tick lookup :: since)).1.voxelFilter).1 with
    | none => simp [hfilter, Outcome.publication] at hone
    | some output =>
      have hsame : cloud = output.cloud := by simpa [hfilter, Outcome.publication] using hone
      exact ⟨before, lookup, since, lookup', later, message, targetFromSource, output, rfl, hsince,
        hlater, htaken, hlookup, hfilter, hsame⟩

/-- No cloud is published twice or after a newer one, what is published is what the filter makes
of the cloud that was the newest when its tick took it, and the newest cloud is taken by every
tick until it is published or malformed: it is left pending exactly where the tick cannot use
it, and filtered otherwise. -/
theorem newest_handed_over (P : Platform K) (p : Params K) (events : List (Event K))
    (hfew : (arrivals events).length < 2 ^ 64)
    (hstamps : ∀ message ∈ arrivals events, ¬ message.header.stamp.Negative) :
    ((serve P p events).2.filterMap publishedNumber).Pairwise (· < ·) ∧
    (∀ before e after sequence cloud, events = before ++ e :: after →
      .published sequence cloud ∈ (step P p e (serve P p before).1).2 →
        PublishedFrom P p before sequence cloud) ∧
    (∀ before after message sequence, events = before ++ after →
      (pending (serve P p before).1 = some (message, sequence) ↔
        (arrivals before).getLast? = some message ∧
          sequence.toNat = (arrivals before).length ∧ ¬ DealtWith P p before sequence)) ∧
    ∀ before lookup since lookup' later lookup'' after message sequence,
      let taken := before ++ .tick lookup :: since
      let processed := taken ++ .tick lookup' :: later
      let next := processed ++ [.tick lookup'']
      events = next ++ after → OnlyArrivals since → OnlyArrivals later →
      (serve P p before).1.phase = .idle → (arrivals before).getLast? = some message →
      sequence.toNat = (arrivals before).length → ¬ DealtWith P p before sequence →
        (step P p (.tick lookup) (serve P p before).1).2 = [.took message sequence] ∧
        (serve P p next).1.phase = .idle ∧
        (¬ DealtWith P p next sequence ↔ Unusable p lookup' message) ∧
        (arrivals (since ++ later) = [] →
          (pending (serve P p next).1 = some (message, sequence) ↔ Unusable p lookup' message)) ∧
        (Unusable p lookup' message → (step P p (.tick lookup'') (serve P p processed).1).2 = []) ∧
        (¬ Unusable p lookup' message → ∃ targetFromSource,
          lookup' p.targetFrame message.header.frameId (shiftedStamp p message) =
            some targetFromSource ∧
          (step P p (.tick lookup'') (serve P p processed).1).2 =
            ((filter P (request p message targetFromSource)
              (serve P p taken).1.voxelFilter).1.map
                fun output => .published sequence output.cloud).toList) ∧
        ∀ newer, (arrivals (since ++ later)).getLast? = some newer →
          ∃ sequence', pending (serve P p next).1 = some (newer, sequence') := by
  have hpart {before after : List (Event K)} (heq : events = before ++ after) :
      HandsOver P p before ∧ ∀ message ∈ arrivals before, ¬ message.header.stamp.Negative := by
    subst heq
    rw [arrivals_append] at hfew hstamps
    rw [List.length_append] at hfew
    have hbefore : ∀ message ∈ arrivals before, ¬ message.header.stamp.Negative :=
      fun m hm => hstamps m (List.mem_append_left _ hm)
    exact ⟨handsOver_serve (by omega) hbefore, hbefore⟩
  refine ⟨(handsOver_serve hfew hstamps).increasing, ?_, ?_, ?_⟩
  · intro before e after sequence cloud heq hpublished
    exact (hpart heq).1.publishedFrom (hpart heq).2 hpublished
  · intro before after message sequence heq
    exact (hpart heq).1.pending_iff
  · intro before lookup since lookup' later lookup'' after message sequence taken processed next heq
      hsince hlater hidle hnewest hnumber hnot
    have hbefore : HandsOver P p before := by
      apply (@hpart before (.tick lookup :: since ++ .tick lookup' :: later ++
        [.tick lookup''] ++ after) _).1
      rw [heq]
      simp [next, processed, taken]
    have hnext : HandsOver P p next := (hpart heq).1
    have hpending := hbefore.pending_iff.mpr ⟨hnewest, hnumber, hnot⟩
    have hstamp : ¬ message.header.stamp.Negative := by
      apply hstamps message
      rw [heq]
      simp only [next, processed, taken, arrivals_append, List.append_assoc]
      exact List.mem_append_left _ (List.mem_of_getLast? hnewest)
    obtain ⟨htook, outcome, w, hprocess, hpublication, hidle', hverdicts⟩ := whole_tick lookup lookup'
      lookup'' hidle hpending hstamp hsince hlater
    have hdealt := dealtWith_of_verdict hverdicts
    have hleft : ¬ DealtWith P p next sequence ↔ ¬ outcome.Settled := by
      rw [hdealt]
      simp [hnot]
    -- a cloud that cannot be used is not settled, any other is
    have hunusable : Unusable p lookup' message ↔ ¬ outcome.Settled := by
      by_cases hunusable : Unusable p lookup' message
      · obtain ⟨outcome', hnotsettled, hprocess'⟩ := process_of_unusable (P := P)
          (w := (serve P p taken).1.voxelFilter) hstamp hunusable
        obtain ⟨rfl, -⟩ := Prod.mk.inj (Except.ok.inj (hprocess.symm.trans hprocess'))
        exact iff_of_true hunusable hnotsettled
      · obtain ⟨-, outcome', w', -, hprocess', hsettled, -⟩ := process_of_usable (P := P)
          (w := (serve P p taken).1.voxelFilter) hstamp hunusable
        obtain ⟨rfl, -⟩ := Prod.mk.inj (Except.ok.inj (hprocess.symm.trans hprocess'))
        exact iff_of_false hunusable (not_not.mpr hsettled)
    have harrivals : arrivals next = arrivals before ++ arrivals (since ++ later) := by
      simp only [next, processed, taken, arrivals_append, arrivals_tick, arrivals_nil,
        List.append_assoc, List.append_nil]
    refine ⟨htook, hidle', hleft.trans hunusable.symm, ?_, ?_, ?_, ?_⟩
    · intro hnone
      rw [hnext.pending_iff, harrivals, hnone, List.append_nil, hunusable, ← hleft]
      exact ⟨fun hall => hall.2.2, fun hnot' => ⟨hnewest, hnumber, hnot'⟩⟩
    · intro h
      rw [hpublication]
      cases outcome with
      | overflow | noFrame | noTransform => rfl
      | malformed | published cloud => exact absurd trivial (hunusable.mp h)
    · intro h
      obtain ⟨targetFromSource, outcome', w', hlookup, hprocess', -, hpublished⟩ :=
        process_of_usable (P := P) (w := (serve P p taken).1.voxelFilter) hstamp h
      obtain ⟨rfl, -⟩ := Prod.mk.inj (Except.ok.inj (hprocess.symm.trans hprocess'))
      exact ⟨targetFromSource, hlookup, hpublication.trans (hpublished sequence)⟩
    · intro newer hnewer
      have hpos : 0 < (arrivals (since ++ later)).length :=
        List.length_pos_of_mem (List.mem_of_getLast? hnewer)
      refine hnext.newer_pending ?_ fun number hold => ?_
      · rw [harrivals, List.getLast?_append, hnewer]
        rfl
      · rw [harrivals, List.length_append]
        rcases (hdealt number).mp hold with hold | ⟨rfl, -⟩
        · have hle := (hbefore.dealt number hold).trans hbefore.last
          omega
        · omega

/-- A cloud without a transform stays for the next tick, and the one that arrives after it is taken
in its place. -/
theorem newest_handed_over_superseded :
    let missing : Lookup ℚ := fun _ _ _ => none
    let later := PointCloudVoxelFilter.makeEmptyCloud ⟨⟨2, 0⟩, "lidar"⟩
    let next : List (Event ℚ) :=
      [.cloudCallback cloudOfEpoch, .tick missing, .cloudCallback later, .tick missing, .tick missing]
    ¬ DealtWith samplePlatform throttleParams next 1 ∧
      ∃ sequence, pending (serve samplePlatform throttleParams next).1 = some (later, sequence) := by
  intro missing later next
  have harrivals : arrivals next = [cloudOfEpoch, later] := rfl
  obtain ⟨-, -, hpending, htick⟩ := newest_handed_over samplePlatform throttleParams next
    (by rw [harrivals]; decide) (by rw [harrivals]; decide)
  have hnot : ¬ DealtWith samplePlatform throttleParams [.cloudCallback cloudOfEpoch] 1 := by
    rintro ⟨outcome, hmem, -⟩
    cases hmem
  obtain ⟨-, -, hleft, -, -, -, hnewer⟩ := htick [.cloudCallback cloudOfEpoch]
    missing [.cloudCallback later] missing [] missing [] cloudOfEpoch 1 rfl
    (by simp [OnlyArrivals]) (by simp [OnlyArrivals]) rfl rfl rfl hnot
  exact ⟨hleft.mpr (Or.inr (Or.inr rfl)), hnewer later rfl⟩

end X2Navigation.LidarCloudThrottle
