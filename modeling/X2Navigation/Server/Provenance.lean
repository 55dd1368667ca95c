import X2Navigation.Server.Ownership
import X2Navigation.Server.Restraint

/-! What a measurement is made of. From the activation of a profile until its
operation gives the flag back, everything that reaches the filtered target is an
observation of that profile's tag, in a message that arrived since. A tick that was
under way at the activation cannot spoil this: it carries the old generation. -/

namespace X2Navigation.FineAlignServer

open Rigid Interaction Program Traced

variable {K : Type}

/-- A raw error with what it was made of; the command is what the filter predicts
with. -/
structure Observation (K : Type) where
  message : AprilTagDetectionArray K
  transform : Isometry3 K
  stamp : TimePoint
  raw : PlanarError K
  command : Twist K

/-- A tracker that has observed nothing. -/
structure Unused (tracker : RelativeTagTracker K) : Prop where
  filtered : tracker.filtered = none
  previousRaw : tracker.previousRaw = none
  count : tracker.count = 0

/-- The sequence numbers that were given out, with the stamps of the detections they
were given to. -/
def publications (tr : List (Entry K)) : List (ℕ × TimePoint) :=
  tr.filterMap fun x => match x.occurrence with
    | .ticked ⟨.commit _ stamp _ _, published⟩ => published.map (·, stamp)
    | _ => none

/-- Given out later, and for a later detection. -/
def Later (p q : ℕ × TimePoint) : Prop := p.1 < q.1 ∧ p.2 < q.2

variable [Field K] [LinearOrder K]

/-- The observation was made for the profile: its message has arrived on the profile's
topic, with a stamp that is not before the activation, and shows the profile's tag
clearly; its transform is what the lookup of the profile's tag frame has found for the
stamp. -/
structure Observation.Sound (node : Node K) (profile : DockingProfile K) (activated : TimePoint)
    (since : List (Entry K)) (o : Observation K) : Prop where
  derives : View.Derives node profile activated o.message o.transform o.stamp o.raw
  arrived : ∃ x ∈ since, x.occurrence = .received (.detections profile.detectionsTopic o.message)
  found : ∃ x ∈ since,
    x.occurrence = .ticked ⟨.lookupTransform profile.tagFrame o.stamp, .found o.transform⟩

/-- The tracker after some observations. -/
def observeAll (node : Node K) (start : RelativeTagTracker K) (observations : List (Observation K)) :
    RelativeTagTracker K :=
  observations.foldl (fun tracker o => (tracker.observe node.m node.trackingConfig o.raw.finite
    (.finite (seconds o.stamp)) o.command).1) start

/-- All that a tracker has observed, in the order of the stamps. -/
structure Tracked (node : Node K) (profile : DockingProfile K) (activated : TimePoint)
    (since : List (Entry K)) (observations : List (Observation K)) (tracker : RelativeTagTracker K) :
    Prop where
  sound : ∀ o ∈ observations, o.Sound node profile activated since
  ordered : (observations.map Observation.stamp).Pairwise (· < ·)
  folded : ∃ start, Unused start ∧ tracker = observeAll node start observations

/-- A measurement derives from observations of the profile: its target is their filtered
pose and its raw error that of the last one. -/
def Provenance (node : Node K) (profile : DockingProfile K) (activated : TimePoint)
    (since : List (Entry K)) (x : Measurement K) (stamp : TimePoint) : Prop :=
  ∃ older newest tracker, Tracked node profile activated since (older ++ [newest]) tracker ∧
    newest.stamp = stamp ∧ x.rawError = newest.raw ∧ x.target = planarPose node.m tracker.error

/-- Every measurement that a trace shows handed out derives from earlier entries of it. -/
def AllSourced (node : Node K) (profile : DockingProfile K) (activated : TimePoint)
    (since : List (Entry K)) : Prop :=
  ∀ earlier e id state x, earlier ++ [e] <+: since →
    e.occurrence = .operated id ⟨.stableMeasurement, (state, some x)⟩ →
      ∃ stamp, (x.sequence, stamp) ∈ publications earlier ∧
        Provenance node profile activated earlier x stamp

variable {node : Node K} {profile : DockingProfile K} {activated : TimePoint}
  {since : List (Entry K)}

/-! ### More entries -/

omit [Field K] [LinearOrder K] in
theorem publications_append (tr tr' : List (Entry K)) :
    publications (tr ++ tr') = publications tr ++ publications tr' := List.filterMap_append

theorem Observation.Sound.append {o : Observation K} (h : o.Sound node profile activated since)
    (entries : List (Entry K)) : o.Sound node profile activated (since ++ entries) := by
  obtain ⟨hderives, ⟨x, hx, harrived⟩, ⟨y, hy, hfound⟩⟩ := h
  exact ⟨hderives, ⟨x, List.mem_append_left _ hx, harrived⟩, ⟨y, List.mem_append_left _ hy, hfound⟩⟩

theorem Tracked.append {observations : List (Observation K)} {tracker : RelativeTagTracker K}
    (h : Tracked node profile activated since observations tracker) (entries : List (Entry K)) :
    Tracked node profile activated (since ++ entries) observations tracker :=
  ⟨fun o ho => (h.sound o ho).append entries, h.ordered, h.folded⟩

theorem Provenance.append {x : Measurement K} {stamp : TimePoint}
    (h : Provenance node profile activated since x stamp) (entries : List (Entry K)) :
    Provenance node profile activated (since ++ entries) x stamp := by
  obtain ⟨older, newest, tracker, htracked, hstamp, hraw, htarget⟩ := h
  exact ⟨older, newest, tracker, htracked.append entries, hstamp, hraw, htarget⟩

/-- One more observation. -/
theorem Tracked.observe {observations : List (Observation K)} {tracker : RelativeTagTracker K}
    (h : Tracked node profile activated since observations tracker) {o : Observation K}
    (ho : o.Sound node profile activated since) (hnew : ∀ x ∈ observations, x.stamp < o.stamp) :
    Tracked node profile activated since (observations ++ [o])
      (tracker.observe node.m node.trackingConfig o.raw.finite (.finite (seconds o.stamp))
        o.command).1 := by
  obtain ⟨start, hstart, htracker⟩ := h.folded
  constructor
  · intro x hx
    obtain hx | hx := List.mem_append.mp hx
    · exact h.sound x hx
    · obtain rfl := List.mem_singleton.mp hx
      exact ho
  · rw [List.map_append, List.map_singleton, List.pairwise_append]
    refine ⟨h.ordered, List.pairwise_singleton _ _, ?_⟩
    intro t ht t' ht'
    obtain ⟨x, hx, rfl⟩ := List.mem_map.mp ht
    obtain rfl := List.mem_singleton.mp ht'
    exact hnew x hx
  · refine ⟨start, hstart, ?_⟩
    rw [observeAll, List.foldl_append, htracker]
    rfl

theorem AllSourced.snoc (h : AllSourced node profile activated since) {e : Entry K}
    (he : ∀ id state x, e.occurrence = .operated id ⟨.stableMeasurement, (state, some x)⟩ →
      ∃ stamp, (x.sequence, stamp) ∈ publications since ∧
        Provenance node profile activated since x stamp) :
    AllSourced node profile activated (since ++ [e]) := by
  intro earlier e' id state x hpre heq
  obtain hlast | hpre := List.prefix_concat_iff.mp hpre
  · obtain ⟨rfl, hsame⟩ := List.append_inj' hlast rfl
    obtain rfl := List.singleton_inj.mp hsame
    exact he id state x heq
  · exact h earlier e' id state x hpre heq

/-! ### The acquisition since an activation -/

/-- What the acquisition holds, once a generation has begun. -/
structure Current (node : Node K) (profile : DockingProfile K) (activated : TimePoint)
    (generation : ℕ) (a : Acquisition K) (since : List (Entry K)) : Prop where
  sameProfile : a.activeProfile = profile
  sameGeneration : a.profileGeneration = generation
  sameActivation : a.activationStamp = activated
  pending : ∀ message, a.pendingDetection = some message →
    ∃ x ∈ since, x.occurrence = .received (.detections profile.detectionsTopic message)
  tracked : ∃ observations, Tracked node profile activated since observations a.tracker ∧
    ∀ o ∈ observations, o.stamp ≤ a.lastSampleStamp
  target : ∀ target, a.stableTarget = some target →
    (a.stableTargetSequence, a.stableTargetStamp) ∈ publications since ∧
      Provenance node profile activated since ⟨target, a.stableTargetSequence, a.rawError⟩
        a.stableTargetStamp
  ordered : (publications since).Pairwise Later
  latest : ∀ p ∈ publications since, p.1 ≤ a.stableTargetSequence ∧ p.2 ≤ a.lastSampleStamp

/-- What a tick has read belongs to the generation, if its snapshot does. -/
structure Seen (profile : DockingProfile K) (activated : TimePoint) (generation : ℕ)
    (last : TimePoint) (since : List (Entry K)) (v : View K) : Prop where
  snapshot : ∀ snapshot, v.snapshot = some snapshot → snapshot.generation = generation →
    snapshot.profile = profile ∧ snapshot.activationStamp = activated
  message : ∀ snapshot message, v.snapshot = some snapshot → snapshot.generation = generation →
    v.message = some message →
      ∃ x ∈ since, x.occurrence = .received (.detections profile.detectionsTopic message)
  transform : ∀ snapshot frame stamp transform, v.snapshot = some snapshot →
    snapshot.generation = generation → v.transform = some (frame, stamp, transform) →
      ∃ x ∈ since, x.occurrence = .ticked ⟨.lookupTransform frame stamp, .found transform⟩
  sampled : ∀ stamp, v.sampled = some (generation, stamp) → last = 0 ∨ last < stamp

variable {generation : ℕ} {a : Acquisition K} {v : View K}

theorem Current.append (h : Current node profile activated generation a since)
    {entries : List (Entry K)} (hnone : publications entries = []) :
    Current node profile activated generation a (since ++ entries) := by
  have hpublications : publications (since ++ entries) = publications since := by
    rw [publications_append, hnone, List.append_nil]
  obtain ⟨observations, htracked, hlast⟩ := h.tracked
  constructor
  · exact h.sameProfile
  · exact h.sameGeneration
  · exact h.sameActivation
  · intro message hmessage
    obtain ⟨x, hx, harrived⟩ := h.pending message hmessage
    exact ⟨x, List.mem_append_left _ hx, harrived⟩
  · exact ⟨observations, htracked.append entries, hlast⟩
  · intro target htarget
    rw [hpublications]
    obtain ⟨hmem, hprovenance⟩ := h.target target htarget
    exact ⟨hmem, hprovenance.append entries⟩
  · rw [hpublications]
    exact h.ordered
  · rw [hpublications]
    exact h.latest

omit [Field K] [LinearOrder K] in
theorem Seen.append {last : TimePoint} (h : Seen profile activated generation last since v)
    (entries : List (Entry K)) :
    Seen profile activated generation last (since ++ entries) v := by
  constructor
  · exact h.snapshot
  · intro snapshot message hsnapshot hgeneration hmessage
    obtain ⟨x, hx, harrived⟩ := h.message snapshot message hsnapshot hgeneration hmessage
    exact ⟨x, List.mem_append_left _ hx, harrived⟩
  · intro snapshot frame stamp transform hsnapshot hgeneration htransform
    obtain ⟨x, hx, hfound⟩ := h.transform snapshot frame stamp transform hsnapshot hgeneration htransform
    exact ⟨x, List.mem_append_left _ hx, hfound⟩
  · exact h.sampled

/-- What a tick supports is a sound observation of its own generation. -/
theorem Seen.sound {last stamp : TimePoint} {raw : PlanarError K} (command : Twist K)
    (hv : Seen profile activated generation last since v)
    (hsupports : v.Supports node generation stamp raw) :
    ∃ o : Observation K, o.Sound node profile activated since ∧ o.stamp = stamp ∧ o.raw = raw ∧
      o.command = command := by
  obtain ⟨-, snapshot, message, transform, hsnapshot, hgeneration, hmessage, htransform, hderives⟩ :=
    hsupports
  obtain ⟨rfl, rfl⟩ := hv.snapshot snapshot hsnapshot hgeneration
  exact ⟨⟨message, transform, stamp, raw, command⟩, ⟨hderives,
    hv.message snapshot message hsnapshot hgeneration hmessage,
    hv.transform snapshot _ stamp transform hsnapshot hgeneration htransform⟩, rfl, rfl, rfl⟩

omit [Field K] [LinearOrder K] in
/-- A sample that is new comes after the last one, whose stamp is zero if there is
none. -/
theorem lt_of_sampleIsNew {g : ℕ} {stamp : TimePoint} (h : a.sampleIsNew g stamp = true)
    (hpos : 0 < stamp) : g = a.profileGeneration ∧ a.lastSampleStamp < stamp := by
  obtain ⟨hg, hnew⟩ := of_decide_eq_true h
  refine ⟨hg, ?_⟩
  by_contra hlt
  have hle : stamp ≤ a.lastSampleStamp := not_lt.mp hlt
  exact hnew ⟨(hpos.trans_le hle).ne', hle⟩

/-- The tracker has moved on to a later sample; the stable target is the old one or
none. -/
theorem Current.observed (h : Current node profile activated generation a since)
    {observations : List (Observation K)} {tracker : RelativeTagTracker K} {stamp : TimePoint}
    {stable : Option (Isometry3 K)}
    (htracked : Tracked node profile activated since observations tracker)
    (hstamps : ∀ o ∈ observations, o.stamp ≤ stamp) (hle : a.lastSampleStamp ≤ stamp)
    (hstable : ∀ target, stable = some target → a.stableTarget = some target) :
    Current node profile activated generation
      { a with lastSampleStamp := stamp, tracker := tracker, stableTarget := stable } since where
  sameProfile := h.sameProfile
  sameGeneration := h.sameGeneration
  sameActivation := h.sameActivation
  pending := h.pending
  tracked := ⟨observations, htracked, hstamps⟩
  target target htarget := h.target target (hstable target htarget)
  ordered := h.ordered
  latest p hp := ⟨(h.latest p hp).1, (h.latest p hp).2.trans hle⟩

/-- A later sample has made a new target stable. -/
theorem Current.publish (h : Current node profile activated generation a since)
    {observations : List (Observation K)} {o : Observation K} {tracker : RelativeTagTracker K}
    (htracked : Tracked node profile activated since (observations ++ [o]) tracker)
    (hstamps : ∀ x ∈ observations ++ [o], x.stamp ≤ o.stamp) (hlt : a.lastSampleStamp < o.stamp)
    (now : Instant) (g : ℕ) (raw : PlanarError K) (command : Twist K) :
    Current node profile activated generation
      { a with
        lastSampleStamp := o.stamp
        tracker := tracker
        stableTarget := some (planarPose node.m tracker.error)
        rawError := o.raw
        stableTargetStamp := o.stamp
        stableTargetSequence := a.stableTargetSequence + 1 }
      (since ++ [⟨now, .ticked ⟨.commit g o.stamp raw command, some (a.stableTargetSequence + 1)⟩⟩]) := by
  have hpublications : publications (since ++ [⟨now, .ticked ⟨.commit g o.stamp raw command,
      some (a.stableTargetSequence + 1)⟩⟩]) =
        publications since ++ [(a.stableTargetSequence + 1, o.stamp)] := publications_append _ _
  have hlater : ∀ p ∈ publications since, Later p (a.stableTargetSequence + 1, o.stamp) := by
    intro p hp
    obtain ⟨hsequence, hstamp⟩ := h.latest p hp
    exact ⟨by omega, hstamp.trans_lt hlt⟩
  constructor
  · exact h.sameProfile
  · exact h.sameGeneration
  · exact h.sameActivation
  · intro message hmessage
    obtain ⟨x, hx, harrived⟩ := h.pending message hmessage
    exact ⟨x, List.mem_append_left _ hx, harrived⟩
  · exact ⟨_, htracked.append _, hstamps⟩
  · intro target htarget
    obtain rfl := Option.some.inj htarget
    rw [hpublications]
    exact ⟨by simp, _, _, _, htracked.append _, rfl, rfl, rfl⟩
  · rw [hpublications, List.pairwise_append]
    refine ⟨h.ordered, List.pairwise_singleton _ _, ?_⟩
    intro p hp q hq
    obtain rfl := List.mem_singleton.mp hq
    exact hlater p hp
  · intro p hp
    rw [hpublications, List.mem_append, List.mem_singleton] at hp
    obtain hp | rfl := hp
    · exact ⟨(hlater p hp).1.le, (hlater p hp).2.le⟩
    · exact ⟨le_rfl, le_rfl⟩

theorem Current.commit (h : Current node profile activated generation a since)
    (hv : Seen profile activated generation a.lastSampleStamp since v) (now : Instant) {g : ℕ}
    {stamp : TimePoint} {raw : PlanarError K} (command : Twist K) (hsupports : v.Supports node g stamp raw) :
    Current node profile activated generation (a.commit node g stamp raw command).2
      (since ++ [⟨now, .ticked ⟨.commit g stamp raw command,
        (a.commit node g stamp raw command).1⟩⟩]) := by
  by_cases hnew : a.sampleIsNew g stamp = true
  swap
  · -- a stale commit changes nothing
    have hstale : a.commit node g stamp raw command = (none, a) := by
      rw [Acquisition.commit, if_pos (by simpa using hnew)]
    rw [hstale]
    exact h.append rfl
  have hpos : 0 < stamp := by
    obtain ⟨-, snapshot, message, transform, -, -, -, -, hderives⟩ := hsupports
    exact lt_of_le_of_ne (Time.nanoseconds?_nonneg hderives.stamped) (Ne.symm hderives.nonzero)
  obtain ⟨hg, hlater⟩ := lt_of_sampleIsNew hnew hpos
  rw [h.sameGeneration] at hg
  subst hg
  obtain ⟨o, ho, rfl, rfl, rfl⟩ := hv.sound command hsupports
  obtain ⟨observations, htracked, hlast⟩ := h.tracked
  have hobserved := htracked.observe ho fun x hx => (hlast x hx).trans_lt hlater
  have hnewest : ∀ x ∈ observations ++ [o], x.stamp ≤ o.stamp := by
    intro x hx
    obtain hx | hx := List.mem_append.mp hx
    · exact ((hlast x hx).trans_lt hlater).le
    · obtain rfl := List.mem_singleton.mp hx
      exact le_rfl
  rw [Acquisition.commit, if_neg (by simpa using hnew)]
  generalize a.tracker.observe node.m node.trackingConfig o.raw.finite (.finite (seconds o.stamp))
    o.command = step at hobserved ⊢
  obtain ⟨tracker, observed⟩ := step
  cases observed with
  | false => exact (h.observed hobserved hnewest hlater.le fun _ ht => ht).append rfl
  | true =>
    cases hready : tracker.ready node.trackingConfig with
    | false =>
      simp only [hready, Bool.not_true, Bool.not_false, Bool.false_eq_true, if_false, if_true]
      refine (h.observed hobserved hnewest hlater.le fun target ht => ?_).append rfl
      cases ht
    | true =>
      simp only [hready, Bool.not_true, Bool.false_eq_true, if_false]
      exact h.publish hobserved hnewest hlater now _ _ _

theorem Unused.nothing {tracker : RelativeTagTracker K} (h : Unused tracker) :
    Tracked node profile activated since [] tracker :=
  ⟨by simp, by simp, tracker, h, rfl⟩

omit [Field K] [LinearOrder K] in
theorem unused_reset (tracker : RelativeTagTracker K) : Unused tracker.reset := ⟨rfl, rfl, rfl⟩

/-- A rejected measurement clears the filter. -/
theorem Current.reject (h : Current node profile activated generation a since)
    (hv : Seen profile activated generation a.lastSampleStamp since v) (now : Instant) {g : ℕ}
    {stamp : TimePoint} (hsampled : v.sampled = some (g, stamp)) (hpos : 0 < stamp) :
    Current node profile activated generation (a.reject g stamp)
      (since ++ [⟨now, .ticked ⟨.reject g stamp, ()⟩⟩]) := by
  refine Current.append ?_ rfl
  by_cases hg : g = a.profileGeneration
  · have hle : a.lastSampleStamp ≤ stamp := by
      rw [hg, h.sameGeneration] at hsampled
      obtain hzero | hlt := hv.sampled stamp hsampled
      · rw [hzero]
        exact hpos.le
      · exact hlt.le
    rw [Acquisition.reject, if_neg (not_not.mpr hg)]
    exact h.observed (unused_reset a.tracker).nothing (by simp) hle nofun
  · rw [Acquisition.reject, if_pos hg]
    exact h

/-! ### Ticks since an activation -/

omit [Field K] [LinearOrder K] in
theorem Seen.blank {last : TimePoint} : Seen profile activated generation last since .blank :=
  ⟨nofun, nofun, nofun, nofun⟩

/-- A tick goes on with what it has read. -/
theorem Seen.next (hv : Seen profile activated generation a.lastSampleStamp since v)
    {shared shared' : Shared K} (ha : shared.acquisition = a)
    (h : Current node profile activated generation a since) {now : Instant} {lookup : Lookup K}
    {e : TickEvent K} (hw : answerTick node now lookup shared e.1 = some (e.2, shared')) :
    Seen profile activated generation shared'.acquisition.lastSampleStamp
      (since ++ [⟨now, .ticked e⟩]) (v.next e.1 e.2) := by
  subst ha
  have hold := hv.append [⟨now, .ticked e⟩]
  obtain ⟨o, answer⟩ := e
  cases o with
  | profileSnapshot =>
    cases hw
    refine ⟨?_, nofun, nofun, nofun⟩
    intro snapshot hsnapshot _
    obtain rfl := Option.some.inj hsnapshot
    exact ⟨h.sameProfile, h.sameActivation⟩
  | pendingDetection =>
    cases hw
    refine ⟨hold.snapshot, ?_, hold.transform, hold.sampled⟩
    intro snapshot message _ _ hmessage
    obtain ⟨x, hx, harrived⟩ := h.pending message hmessage
    exact ⟨x, List.mem_append_left _ hx, harrived⟩
  | sampleIsNew g stamp =>
    cases hw
    refine ⟨hold.snapshot, hold.message, hold.transform, ?_⟩
    intro stamp' hsampled
    simp only [View.next] at hsampled
    split at hsampled
    · rename_i hnew
      obtain ⟨rfl, rfl⟩ := Prod.mk.inj (Option.some.inj hsampled)
      obtain ⟨-, hlater⟩ := of_decide_eq_true hnew
      by_cases hzero : shared.acquisition.lastSampleStamp = 0
      · exact .inl hzero
      · exact .inr (not_le.mp fun hle => hlater ⟨hzero, hle⟩)
    · cases hsampled
  | lookupTransform frame stamp =>
    cases hw
    cases answer with
    | found transform =>
      refine ⟨hold.snapshot, hold.message, ?_, hold.sampled⟩
      intro snapshot frame' stamp' transform' _ _ htransform
      obtain ⟨rfl, hrest⟩ := Prod.mk.inj (Option.some.inj htransform)
      obtain ⟨rfl, rfl⟩ := Prod.mk.inj hrest
      exact ⟨_, List.mem_append_right _ (List.mem_singleton_self _), rfl⟩
    | unavailable => exact hold
    | failed => exact hold
  | commit g stamp raw command => exact ⟨hold.snapshot, hold.message, hold.transform, nofun⟩
  | reject g stamp => exact ⟨hold.snapshot, hold.message, hold.transform, nofun⟩
  | escape => cases hw
  | selectCommand time =>
    cases hw
    exact hold
  | rosNow | alignmentCommand | collisionStopped | steadyNow =>
    cases hw
    exact hold

/-- The tick that is under way has read what `P` says. -/
def Watches (node : Node K) (s : Server K) (P : View K → Prop) : Prop :=
  ∃ v, (sighted node).Safe v (s.currentTick node) (fun _ _ => True) ∧ P v

variable {s : Server K} {P Q : View K → Prop}

theorem Watches.mono (h : Watches node s P) (hPQ : ∀ v, P v → Q v) {s' : Server K}
    (htick : s'.tick = s.tick) : Watches node s' Q := by
  obtain ⟨v, hsafe, hv⟩ := h
  refine ⟨v, ?_, hPQ v hv⟩
  rw [Server.currentTick, htick]
  exact hsafe

/-- After a step of the tick it is what is left of it, or a new one. -/
theorem Watches.next (h : Watches node s P) {e : TickEvent K} {program : Tick K Unit}
    (hn : Next (s.currentTick node) e program)
    (hnext : ∀ v, P v → v.allows node e.1 → Q (v.next e.1 e.2)) (hblank : Q .blank) {s' : Server K}
    (htick : s'.tick = program) : Watches node s' Q := by
  obtain ⟨v, hsafe, hv⟩ := h
  obtain ⟨hal, hrest⟩ := hsafe.next hn
  rw [Watches, Server.currentTick, htick]
  split
  · exact ⟨.blank, safe_publishSelectedCommand, hblank⟩
  · exact ⟨_, hrest, hnext v hv hal⟩

/-! ### Steps since an activation -/

theorem operate_acquisition {now : Instant} {shared shared' : Shared K} {h h' : HandleState}
    {o : Op K} {answer : o.Answer}
    (hw : operate node now (shared, h) o = some (answer, shared', h')) (ho : o.Activates = false) :
    shared'.acquisition = shared.acquisition ∨ ∃ profileId instanceId,
      shared'.acquisition = shared.acquisition.recordDock profileId instanceId := by
  cases o with
  | activateProfile requested undocking instanceId => cases ho
  | recordDock profileId instanceId =>
    cases hw
    exact .inr ⟨profileId, instanceId, rfl⟩
  | terminate outcome result =>
    obtain ⟨-, rfl⟩ := of_operate_terminate hw
    exact .inl rfl
  | _ =>
    cases hw
    exact .inl rfl

theorem operate_activateProfile {now : Instant} {shared shared' : Shared K} {h h' : HandleState}
    {requested : String} {undocking : Bool} {instanceId : String} {resolved : Option String}
    (hw : operate node now (shared, h) (.activateProfile requested undocking instanceId) =
      some (resolved, shared', h')) :
    shared.acquisition.activateProfile node now.ros requested undocking instanceId =
      some (resolved, shared'.acquisition) := by
  obtain ⟨acquisition, hactivate, rfl, -⟩ := of_operate_activateProfile hw
  exact hactivate

theorem Current.received (h : Current node profile activated generation a since) {now : Instant}
    {shared : Shared K} (ha : shared.acquisition = a) (message : Message K) :
    Current node profile activated generation (shared.receive node now message).acquisition
      (since ++ [⟨now, .received message⟩]) := by
  subst ha
  have hold : Current node profile activated generation shared.acquisition
      (since ++ [⟨now, .received message⟩]) := h.append rfl
  cases message with
  | detections topic detections =>
    simp only [Shared.receive, Acquisition.detect]
    split
    · rename_i htopic
      refine ⟨hold.sameProfile, hold.sameGeneration, hold.sameActivation, ?_, hold.tracked,
        hold.target, hold.ordered, hold.latest⟩
      intro message hmessage
      obtain rfl := Option.some.inj hmessage
      rw [h.sameProfile] at htopic
      exact ⟨_, List.mem_append_right _ (List.mem_singleton_self _), by rw [htopic]⟩
    · exact hold
  | boxStates boxes => exact ⟨hold.sameProfile, hold.sameGeneration, hold.sameActivation,
      hold.pending, hold.tracked, hold.target, hold.ordered, hold.latest⟩
  | manipulationState state => exact ⟨hold.sameProfile, hold.sameGeneration, hold.sameActivation,
      hold.pending, hold.tracked, hold.target, hold.ordered, hold.latest⟩
  | collisionState stop => cases stop <;> exact hold
  | _ => exact hold

theorem lastSampleStamp_receive (now : Instant) (shared : Shared K) (message : Message K) :
    (shared.receive node now message).acquisition.lastSampleStamp =
      shared.acquisition.lastSampleStamp := by
  cases message with
  | detections topic detections =>
    simp only [Shared.receive, Acquisition.detect]
    split <;> rfl
  | collisionState stop => cases stop <;> rfl
  | _ => rfl

theorem Current.recordDock (h : Current node profile activated generation a since)
    (profileId instanceId : String) :
    Current node profile activated generation (a.recordDock profileId instanceId) since :=
  ⟨h.sameProfile, h.sameGeneration, h.sameActivation, h.pending, h.tracked, h.target, h.ordered,
    h.latest⟩

/-- A step of the tick. -/
theorem Current.ticked (h : Current node profile activated generation a since)
    (hv : Seen profile activated generation a.lastSampleStamp since v) {now : Instant}
    {lookup : Lookup K} {shared shared' : Shared K} (ha : shared.acquisition = a) {e : TickEvent K}
    (hal : v.allows node e.1) (hw : answerTick node now lookup shared e.1 = some (e.2, shared')) :
    Current node profile activated generation shared'.acquisition (since ++ [⟨now, .ticked e⟩]) := by
  subst ha
  obtain ⟨o, answer⟩ := e
  cases o with
  | commit g stamp raw command =>
    cases hw
    exact h.commit hv now command hal
  | reject g stamp =>
    cases hw
    exact h.reject hv now hal.1 hal.2
  | escape => cases hw
  | _ =>
    cases hw
    exact h.append rfl

/-- What holds between an activation and the next one. -/
structure Sourced (node : Node K) (profile : DockingProfile K) (activated : TimePoint)
    (generation : ℕ) (s : Server K) (since : List (Entry K)) : Prop where
  current : Current node profile activated generation s.shared.acquisition since
  watched : Watches node s
    (Seen profile activated generation s.shared.acquisition.lastSampleStamp since)
  sourced : AllSourced node profile activated since

/-- A measurement that is handed out is the stable target. -/
theorem Current.measured (h : Current node profile activated generation a since) {rosNow : TimePoint}
    {x : Measurement K} (hx : a.stableMeasurement node rosNow = some x) :
    ∃ stamp, (x.sequence, stamp) ∈ publications since ∧
      Provenance node profile activated since x stamp := by
  simp only [Acquisition.stableMeasurement] at hx
  split at hx
  · cases hx
  · rename_i target htarget
    split at hx
    · cases hx
    · obtain rfl := Option.some.inj hx
      exact ⟨_, h.target target htarget⟩

theorem Sourced.operated (h : Sourced node profile activated generation s since) {now : Instant}
    {id : ℕ} {handle handle' : HandleState} {event : OpEvent K} {shared : Shared K}
    (hw : operate node now (s.shared, handle) event.1 = some (event.2, shared, handle'))
    (ho : event.1.Activates = false) {s' : Server K} (hshared : s'.shared = shared)
    (htick : s'.tick = s.tick) :
    Sourced node profile activated generation s' (since ++ [⟨now, .operated id event⟩]) := by
  subst hshared
  have hlast : s'.shared.acquisition.lastSampleStamp = s.shared.acquisition.lastSampleStamp := by
    obtain heq | ⟨profileId, instanceId, heq⟩ := operate_acquisition hw ho
    · rw [heq]
    · rw [heq]
      rfl
  constructor
  · refine Current.append ?_ rfl
    obtain heq | ⟨profileId, instanceId, heq⟩ := operate_acquisition hw ho
    · rw [heq]
      exact h.current
    · rw [heq]
      exact h.current.recordDock profileId instanceId
  · rw [hlast]
    exact h.watched.mono (fun v hv => hv.append _) htick
  · refine h.sourced.snoc fun id' state x heq => ?_
    cases heq
    obtain ⟨hanswer, -⟩ := Prod.mk.inj (Option.some.inj hw)
    exact h.current.measured (Prod.mk.inj hanswer).2

theorem Sourced.moves (h : Sourced node profile activated generation s since) {now : Instant}
    {s' : Server K} {entries : List (Entry K)} (hm : Moves node now s s' entries)
    (hno : ∀ x ∈ entries, ∀ id event, x.occurrence = .operated id event →
      event.1.Activates = false) :
    Sourced node profile activated generation s' (since ++ entries) := by
  cases hm with
  | idle ok terminated =>
    rw [List.append_nil]
    exact ⟨h.current, h.watched.mono (fun v hv => hv) rfl, h.sourced⟩
  | received message =>
    refine ⟨h.current.received rfl message, ?_, h.sourced.snoc fun id state x heq => by cases heq⟩
    rw [lastSampleStamp_receive]
    exact h.watched.mono (fun v hv => hv.append _) rfl
  | rejected goal hactive =>
    exact ⟨h.current.append rfl, h.watched.mono (fun v hv => hv.append _) rfl,
      h.sourced.snoc fun id state x heq => by cases heq⟩
  | accepted goal hfree =>
    exact ⟨h.current.append rfl, h.watched.mono (fun v hv => hv.append _) rfl,
      h.sourced.snoc fun id state x heq => by cases heq⟩
  | canceled id thread hid =>
    exact ⟨h.current.append rfl, h.watched.mono (fun v hv => hv.append _) rfl,
      h.sourced.snoc fun id state x heq => by cases heq⟩
  | operated id thread event program shared handle hid hn hw =>
    exact h.operated hw (hno _ (List.mem_singleton_self _) id event rfl) rfl rfl
  | ticked event program shared lookup hn hw =>
    refine ⟨?_, ?_, h.sourced.snoc fun id state x heq => by cases heq⟩
    · obtain ⟨v, hsafe, hv⟩ := h.watched
      exact h.current.ticked hv rfl (hsafe.next hn).1 hw
    · exact h.watched.next hn (fun v hv _ => hv.next rfl h.current hw) Seen.blank rfl

/-! ### Activations -/

/-- An activation that resolves begins a new generation with nothing observed. -/
theorem Current.of_activateProfile {a a' : Acquisition K} {rosNow : TimePoint} {requested : String}
    {undocking : Bool} {instanceId name : String}
    (h : a.activateProfile node rosNow requested undocking instanceId = some (some name, a')) :
    a'.activeProfile.name = name ∧
      Current node a'.activeProfile rosNow (a.profileGeneration + 1) a' [] := by
  simp only [Acquisition.activateProfile] at h
  split at h
  · cases h
  · cases h
  split at h
  · cases h
  split at h
  · cases h
  · cases h
    refine ⟨rfl, rfl, rfl, rfl, nofun, ⟨[], (unused_reset a.tracker).nothing, by simp⟩, nofun, ?_, ?_⟩
    · exact List.Pairwise.nil
    · intro p hp
      cases hp

/-- A tick knows no later generation. -/
structure Bounded (generation : ℕ) (v : View K) : Prop where
  snapshot : ∀ snapshot, v.snapshot = some snapshot → snapshot.generation ≤ generation
  sampled : ∀ g stamp, v.sampled = some (g, stamp) → g ≤ generation

omit [Field K] [LinearOrder K] in
theorem Bounded.mono {generation' : ℕ} (h : Bounded generation v) (hle : generation ≤ generation') :
    Bounded generation' v :=
  ⟨fun snapshot hs => (h.snapshot snapshot hs).trans hle, fun g stamp hs => (h.sampled g stamp hs).trans hle⟩

omit [Field K] [LinearOrder K] in
/-- What a tick has read before an activation is of no use after it. -/
theorem Bounded.seen (h : Bounded generation v) {last : TimePoint} :
    Seen profile activated (generation + 1) last since v := by
  constructor
  · intro snapshot hs hg
    have := h.snapshot snapshot hs
    omega
  · intro snapshot message hs hg
    have := h.snapshot snapshot hs
    omega
  · intro snapshot frame stamp transform hs hg
    have := h.snapshot snapshot hs
    omega
  · intro stamp hs
    have := h.sampled _ _ hs
    omega

theorem generation_activateProfile {a a' : Acquisition K} {rosNow : TimePoint} {requested : String}
    {undocking : Bool} {instanceId : String} {resolved : Option String}
    (h : a.activateProfile node rosNow requested undocking instanceId = some (resolved, a')) :
    a.profileGeneration ≤ a'.profileGeneration := by
  simp only [Acquisition.activateProfile] at h
  split at h
  · cases h
  · cases h
    exact le_rfl
  split at h
  · cases h
    exact le_rfl
  split at h
  · cases h
    exact le_rfl
  · cases h
    exact Nat.le_succ _

theorem generation_operate {now : Instant} {shared shared' : Shared K} {h h' : HandleState}
    {o : Op K} {answer : o.Answer}
    (hw : operate node now (shared, h) o = some (answer, shared', h')) :
    shared.acquisition.profileGeneration ≤ shared'.acquisition.profileGeneration := by
  cases ho : o.Activates with
  | false =>
    obtain heq | ⟨profileId, instanceId, heq⟩ := operate_acquisition hw ho
    · rw [heq]
    · rw [heq]
      exact le_rfl
  | true =>
    cases o with
    | activateProfile requested undocking instanceId =>
      exact generation_activateProfile (operate_activateProfile hw)
    | _ => cases ho

theorem generation_receive (now : Instant) (shared : Shared K) (message : Message K) :
    (shared.receive node now message).acquisition.profileGeneration =
      shared.acquisition.profileGeneration := by
  cases message with
  | detections topic detections =>
    simp only [Shared.receive, Acquisition.detect]
    split <;> rfl
  | collisionState stop => cases stop <;> rfl
  | _ => rfl

theorem generation_commit (a : Acquisition K) (g : ℕ) (stamp : TimePoint) (raw : PlanarError K)
    (command : Twist K) :
    (a.commit node g stamp raw command).2.profileGeneration = a.profileGeneration := by
  simp only [Acquisition.commit]
  split
  · rfl
  split
  · rfl
  split <;> rfl

/-- A tick goes on knowing no later generation. -/
theorem Bounded.next {now : Instant} {lookup : Lookup K} {shared shared' : Shared K}
    {e : TickEvent K} (h : Bounded shared.acquisition.profileGeneration v)
    (hw : answerTick node now lookup shared e.1 = some (e.2, shared')) :
    Bounded shared'.acquisition.profileGeneration (v.next e.1 e.2) := by
  obtain ⟨o, answer⟩ := e
  cases o with
  | profileSnapshot =>
    cases hw
    refine ⟨fun snapshot hs => ?_, nofun⟩
    obtain rfl := Option.some.inj hs
    exact le_rfl
  | sampleIsNew g stamp =>
    cases hw
    refine ⟨h.snapshot, fun g' stamp' hs => ?_⟩
    simp only [View.next] at hs
    split at hs
    · rename_i hnew
      obtain ⟨rfl, rfl⟩ := Prod.mk.inj (Option.some.inj hs)
      exact (of_decide_eq_true hnew).1.le
    · cases hs
  | commit g stamp raw command =>
    have hcommit : shared'.acquisition =
        (shared.acquisition.commit node g stamp raw command).2 := by
      cases hw
      rfl
    rw [hcommit, generation_commit]
    exact ⟨h.snapshot, nofun⟩
  | reject g stamp =>
    cases hw
    refine ⟨fun snapshot hs => ?_, nofun⟩
    simp only [Acquisition.reject]
    split
    · exact h.snapshot snapshot hs
    · exact h.snapshot snapshot hs
  | lookupTransform frame stamp =>
    cases hw
    cases answer with
    | found transform => exact ⟨h.snapshot, h.sampled⟩
    | unavailable => exact h
    | failed => exact h
  | escape => cases hw
  | selectCommand time =>
    cases hw
    exact h
  | pendingDetection | rosNow | alignmentCommand | collisionStopped | steadyNow =>
    cases hw
    exact ⟨h.snapshot, h.sampled⟩

theorem bounded_serve (node : Node K) (inputs : List (Stimulus K)) :
    Watches node (serve node inputs).1
      (Bounded (serve node inputs).1.shared.acquisition.profileGeneration) := by
  induction inputs using List.reverseRecOn with
  | nil => exact ⟨.blank, safe_publishSelectedCommand, nofun, nofun⟩
  | append_singleton inputs x ih =>
    unfold serve at ih ⊢
    rw [run_snoc, Reaction.andThen_fst]
    generalize (run (step node) (.initial node) inputs).1 = s at ih
    have hm := step_moves node x s
    generalize step node x s = r at hm
    obtain ⟨s', entries⟩ := r
    cases hm with
    | received message =>
      refine ih.mono (fun v hv => ?_) rfl
      rw [generation_receive]
      exact hv
    | operated id thread event program shared handle hid hn hw =>
      exact ih.mono (fun v hv => hv.mono (generation_operate hw)) rfl
    | ticked event program shared lookup hn hw =>
      exact ih.next hn (fun v hv _ => hv.next hw) ⟨nofun, nofun⟩ rfl
    | _ => exact ih.mono (fun v hv => hv) rfl

/-- A step in which an operation activates a profile is one of that operation. -/
theorem step_activateProfile {s : Server K} {x : Stimulus K} {id : ℕ}
    {requested instanceId name : String} {undocking : Bool}
    (hact : (step node x s).2 = [⟨x.now, .operated id
      ⟨.activateProfile requested undocking instanceId, some name⟩⟩]) :
    ∃ thread program shared handle, s.threads[id]? = some thread ∧
      Next thread.program ⟨.activateProfile requested undocking instanceId, some name⟩ program ∧
      operate node x.now (s.shared, thread.handle) (.activateProfile requested undocking instanceId) =
        some (some name, shared, handle) ∧
      (step node x s).1 =
        { s with
          shared := shared
          threads := s.threads.set id { thread with handle := handle, program := program } } := by
  have hm := step_moves node x s
  generalize step node x s = r at hact hm
  obtain ⟨s', entries⟩ := r
  cases hm with
  | operated id' thread event program shared handle hid hn hw =>
    obtain ⟨rfl, rfl⟩ : id' = id ∧
        event = ⟨.activateProfile requested undocking instanceId, some name⟩ := by
      simpa using hact
    exact ⟨thread, program, shared, handle, hid, hn, hw, rfl⟩
  | _ => simp at hact

/-- The state after a step in which an operation activates a profile. -/
theorem sourced_of_activation {inputs : List (Stimulus K)} {x : Stimulus K} {id : ℕ}
    {requested instanceId name : String} {undocking : Bool}
    (hact : (step node x (serve node inputs).1).2 = [⟨x.now, .operated id
      ⟨.activateProfile requested undocking instanceId, some name⟩⟩]) :
    (serve node (inputs ++ [x])).1.shared.acquisition.activeProfile.name = name ∧
      Sourced node (serve node (inputs ++ [x])).1.shared.acquisition.activeProfile x.now.ros
        ((serve node inputs).1.shared.acquisition.profileGeneration + 1)
        (serve node (inputs ++ [x])).1 [] := by
  obtain ⟨thread, program, shared, handle, -, -, hw, hstep⟩ := step_activateProfile hact
  have hnext : (serve node (inputs ++ [x])).1 = (step node x (serve node inputs).1).1 := by
    rw [serve, run_snoc]
    rfl
  rw [hnext, hstep]
  obtain ⟨hname, hcurrent⟩ := Current.of_activateProfile (operate_activateProfile hw)
  refine ⟨hname, hcurrent, (bounded_serve node inputs).mono (fun v hv => hv.seen) rfl, ?_⟩
  intro earlier e id state x hpre
  simp at hpre

/-! ### Until the flag is given back -/

/-- While the operation that activated a profile has the flag, nothing is activated. -/
theorem Owned.no_activation {tr entries : List (Entry K)} (h : Owned node s tr) {id : ℕ}
    {event : OpEvent K} (hevent : event ∈ operations id tr) (hactivates : event.1.Activates = true)
    (hopen : ¬ Released id tr) {now : Instant} {s' : Server K} (hm : Moves node now s s' entries) :
    ∀ x ∈ entries, ∀ id' event', x.occurrence = .operated id' event' →
      event'.1.Activates = false := by
  cases hm with
  | operated id' thread event' program shared handle hid hn hw =>
    intro x hx id'' event'' heq
    obtain rfl := List.mem_singleton.mp hx
    cases heq
    -- the operation is the last one, so the step is its own
    obtain ⟨hlast, -⟩ := h.last hid hn
    have hborn : id < s.threads.length := by
      by_contra hlt
      rw [h.unborn id (not_lt.mp hlt)] at hevent
      cases hevent
    have hlast' : ¬ id + 1 < s.threads.length := fun hlt => hopen (h.earlier id hlt)
    obtain rfl : id' = id := by omega
    have hsteps := (h.runs id' thread hid).trans (.cons hn (.refl program))
    by_contra hagain
    have hfirst := activates_once hsteps (Bool.not_eq_false _ ▸ hagain) event hevent
    rw [hactivates] at hfirst
    cases hfirst
  | idle ok terminated =>
    intro x hx
    cases hx
  | received | rejected | accepted | canceled | ticked =>
    intro x hx id' event' heq
    obtain rfl := List.mem_singleton.mp hx
    cases heq

theorem Sourced.kept {tr : List (Entry K)} (h : Sourced node profile activated generation s [])
    (howned : Owned node s tr) {id : ℕ} {event : OpEvent K} (hevent : event ∈ operations id tr)
    (hactivates : event.1.Activates = true) (hopen : ¬ Released id tr) (inputs : List (Stimulus K))
    (hkept : ¬ Released id (run (step node) s inputs).2) :
    Sourced node profile activated generation (run (step node) s inputs).1
        (run (step node) s inputs).2 ∧
      Owned node (run (step node) s inputs).1 (tr ++ (run (step node) s inputs).2) := by
  induction inputs using List.reverseRecOn with
  | nil => exact ⟨h, by rwa [run_nil, List.append_nil]⟩
  | append_singleton inputs x ih =>
    rw [run_snoc, Reaction.andThen_snd] at hkept
    rw [run_snoc, Reaction.andThen_fst, Reaction.andThen_snd]
    have hkept' : ¬ Released id (run (step node) s inputs).2 := by
      intro hreleased
      refine hkept ?_
      rw [Released, operations_append]
      exact List.mem_append_left _ hreleased
    obtain ⟨hsourced, howned'⟩ := ih hkept'
    have hm := step_moves node x (run (step node) s inputs).1
    have hmem : event ∈ operations id (tr ++ (run (step node) s inputs).2) := by
      rw [operations_append]
      exact List.mem_append_left _ hevent
    have hopen' : ¬ Released id (tr ++ (run (step node) s inputs).2) := by
      rw [Released, operations_append, List.mem_append]
      exact not_or.mpr ⟨hopen, hkept'⟩
    refine ⟨hsourced.moves hm (howned'.no_activation hmem hactivates hopen' hm), ?_⟩
    rw [← List.append_assoc]
    exact howned'.moves hm

/-- From the step in which an operation activates a profile until it gives the flag back,
every measurement that is handed out derives from observations made for that profile
since, and later sequence numbers belong to later detections. -/
theorem provenance (node : Node K) (inputs inputs' : List (Stimulus K)) (x : Stimulus K) (id : ℕ)
    (requested instanceId name : String) (undocking : Bool)
    (hact : (step node x (serve node inputs).1).2 = [⟨x.now, .operated id
      ⟨.activateProfile requested undocking instanceId, some name⟩⟩])
    (howner : ¬ Released id (run (step node) (serve node (inputs ++ [x])).1 inputs').2) :
    (serve node (inputs ++ [x])).1.shared.acquisition.activeProfile.name = name ∧
      AllSourced node (serve node (inputs ++ [x])).1.shared.acquisition.activeProfile x.now.ros
        (run (step node) (serve node (inputs ++ [x])).1 inputs').2 ∧
      (publications (run (step node) (serve node (inputs ++ [x])).1 inputs').2).Pairwise Later := by
  obtain ⟨hname, hsourced⟩ := sourced_of_activation hact
  have htrace : (serve node (inputs ++ [x])).2 = (serve node inputs).2 ++
      [⟨x.now, .operated id ⟨.activateProfile requested undocking instanceId, some name⟩⟩] := by
    rw [← hact, serve, run_snoc]
    rfl
  have hevent : ⟨.activateProfile requested undocking instanceId, some name⟩ ∈
      operations id (serve node (inputs ++ [x])).2 := by
    rw [htrace, operations_snoc_self]
    exact List.mem_append_right _ (List.mem_singleton_self _)
  -- the operation had not given the flag back when it made the step
  have hopen : ¬ Released id (serve node (inputs ++ [x])).2 := by
    obtain ⟨thread, program, shared, handle, hid, hn, -⟩ := step_activateProfile hact
    rw [htrace, Released, operations_snoc_self, List.mem_append, List.mem_singleton]
    refine not_or.mpr ⟨((owned_serve node inputs).last hid hn).2, fun heq => ?_⟩
    cases heq
  obtain ⟨hrun, -⟩ := hsourced.kept (owned_serve node (inputs ++ [x])) hevent rfl hopen inputs' howner
  exact ⟨hname, hrun.sourced, hrun.current.ordered⟩

/-- The sequence numbers of the measurements a trace shows handed out. -/
def handedOut (tr : List (Entry K)) : List ℕ :=
  tr.filterMap fun x => match x.occurrence with
    | .operated _ ⟨.stableMeasurement, (_, measurement)⟩ => measurement.map Measurement.sequence
    | _ => none

/-- A goal that only measures is accepted. -/
def beginning : List (Stimulus ℚ) :=
  everyMillisecond [.message (.manipulationState .empty), .goal (.fineAlign ⟨false, "", ""⟩)]

/-- A tag straight ahead is seen at a time in nanoseconds, and a tick processes it. -/
def sighting (nanosec : UInt32) : List (Input ℚ) :=
  .message (.detections "/front_center_rectify/detections"
      ⟨⟨⟨0, nanosec⟩, "camera"⟩, [⟨9, .finite 50⟩]⟩) ::
    List.replicate 10 (.tick (.found ⟨!![0, 0, -1; -1, 0, 0; 0, 1, 0], ![1, 0, 0]⟩))

/-- The tag is seen three times, and the operation waits for a measurement. -/
def measuring : List (Stimulus ℚ) :=
  (sighting 10000000 ++ sighting 20000000 ++ sighting 30000000 ++
    List.replicate 8 (Input.operation 0)).map fun input => ⟨⟨10 ^ 8, 10 ^ 8⟩, input⟩

omit [Field K] [LinearOrder K] in
theorem not_released_of_all {id : ℕ} {tr : List (Entry K)}
    (h : (operations id tr).all (fun e => !e.1.Ends) = true) : ¬ Released id tr := by
  intro hreleased
  have hends := List.all_eq_true.mp h _ hreleased
  cases hends

theorem provenance_measuring :
    handedOut (run (step .declared) (serve .declared (beginning ++
      [⟨⟨10 ^ 7, 10 ^ 7⟩, .operation 0⟩])).1 measuring).2 = [1] ∧
    AllSourced .declared (serve .declared (beginning ++
        [⟨⟨10 ^ 7, 10 ^ 7⟩, .operation 0⟩])).1.shared.acquisition.activeProfile (10 ^ 7)
      (run (step .declared) (serve .declared (beginning ++
        [⟨⟨10 ^ 7, 10 ^ 7⟩, .operation 0⟩])).1 measuring).2 :=
  ⟨by decide +kernel, (provenance .declared beginning measuring ⟨⟨10 ^ 7, 10 ^ 7⟩, .operation 0⟩ 0 "" ""
    "default" false (by rfl) (not_released_of_all (by decide +kernel))).2.1⟩

end X2Navigation.FineAlignServer
