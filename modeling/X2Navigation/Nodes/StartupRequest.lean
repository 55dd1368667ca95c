import X2Navigation.Nodes.Heartbeat

/-! When Nav2 is started. The hold of the startup gate has lasted while heartbeats kept
arriving true and in time; each of them was posted by a tick of the adapter, so the
request goes out only after the adapter has found the localization ready all the way
through the hold. -/

namespace X2Navigation.Startup

open Temporal Traced

variable {K : Type*} [Field K] [LinearOrder K]

/-! ### Heartbeats of a hold -/

omit [Field K] [LinearOrder K] in
theorem mem_of_latest {calls : List (Call K)} {ready : Bool} {t : K}
    (h : latest calls = some (ready, t)) : .receive ready t ∈ calls := by
  obtain ⟨c, hc, hbeat⟩ := List.mem_filterMap.mp (List.mem_of_getLast? h)
  cases c with
  | receive ready' now =>
    cases hbeat
    exact hc
  | observe tfValid now => cases hbeat

variable {T s : K} {calls : List (Call K)}

/-- A stretch that nothing has broken has a true heartbeat behind it. -/
theorem latest_of_since (h : Since (Sound T) (fun _ => ObservedAt s) calls) :
    ∃ t, latest calls = some (true, t) := by
  rcases List.eq_nil_or_concat calls with rfl | ⟨calls, c, rfl⟩
  · exact absurd h not_since_nil
  · rw [List.concat_eq_append] at h ⊢
    have hsound := ((since_snoc calls c).mp h).1
    cases c with
    | receive ready now =>
      obtain ⟨rfl, -⟩ := hsound
      exact ⟨now, latest_snoc_receive calls true now⟩
    | observe tfValid now =>
      obtain ⟨-, t, hlatest, -⟩ := hsound
      exact ⟨t, by rw [latest_snoc_observe, hlatest]⟩

/-- The call that ends a stretch comes at most `T` after a true heartbeat. -/
theorem heartbeat_of_since {c : Call K}
    (h : Since (Sound T) (fun _ => ObservedAt s) (calls ++ [c])) :
    ∃ t, latest calls = some (true, t) ∧ c.now - t ≤ T := by
  obtain ⟨hsound, hstart⟩ := (since_snoc calls c).mp h
  cases c with
  | receive ready now =>
    have hsince := hstart.resolve_left fun ⟨tfValid, heq⟩ => by cases heq
    obtain ⟨t, ht⟩ := latest_of_since hsince
    exact ⟨t, ht, hsound.2 (true, t) ht⟩
  | observe tfValid now =>
    obtain ⟨-, t, ht, hle⟩ := hsound
    exact ⟨t, ht, hle⟩

variable [IsStrictOrderedRing K]

/-- At every moment of an unbroken stretch a true heartbeat is at most `T` old. -/
theorem exists_heartbeat (h : Since (Sound T) (fun _ => ObservedAt s) calls)
    (ht : (calls.map Call.now).Pairwise (· ≤ ·)) {x : K} (hs : s ≤ x)
    (hx : ∃ c ∈ calls, x ≤ c.now) : ∃ v, .receive true v ∈ calls ∧ v ≤ x ∧ x - v ≤ T := by
  induction calls using List.reverseRecOn with
  | nil => exact absurd h not_since_nil
  | append_singleton calls c ih =>
    obtain ⟨hbefore, hlast⟩ := now_le_of_pairwise ht
    obtain ⟨t, hlatest, hle⟩ := heartbeat_of_since h
    have hmem := mem_of_latest hlatest
    have hxc : x ≤ c.now := by
      obtain ⟨c', hc', hxc'⟩ := hx
      rcases List.mem_append.mp hc' with hc' | hc'
      · exact hxc'.trans (hlast c' hc')
      · obtain rfl := List.mem_singleton.mp hc'
        exact hxc'
    by_cases htx : t ≤ x
    · exact ⟨t, List.mem_append_left _ hmem, htx, (sub_le_sub_right hxc t).trans hle⟩
    · -- the moment lies before the last heartbeat, so the stretch began before `c`
      have hxt : x < t := not_le.mp htx
      have hsince := ((since_snoc calls c).mp h).2.resolve_left fun ⟨tfValid, heq⟩ => by
        have hct : c.now = s := by rw [heq]; rfl
        exact absurd ((hlast _ hmem).trans (hct.le.trans hs)) htx
      obtain ⟨v, hv, hrest⟩ := ih hsince hbefore ⟨_, hmem, hxt.le⟩
      exact ⟨v, List.mem_append_left _ hv, hrest⟩

/-! ### Calls of a run -/

/-- The reading of the gate's clock. -/
def Event.now : Event K → K
  | .onReady _ now => now
  | .tick i => i.now

omit [IsStrictOrderedRing K] in
/-- An event makes one call at most, at its own time; a heartbeat comes from its callback. -/
theorem step_call (p : Params K) (e : Event K) (g : Gate K) :
    (((step p e g).2.filterMap Occurrence.call).map Call.now).Sublist [e.now] ∧
      ∀ ready t, .receive ready t ∈ (step p e g).2.filterMap Occurrence.call → e = .onReady ready t := by
  cases e with
  | onReady data now => simp [step, onReady, Occurrence.call, Call.now, Event.now]
  | tick i =>
    rcases tick_cases p i g with ⟨g', heq, -⟩ | heq | ⟨g', tfValid, -, heq⟩ | ⟨g', tfValid, -, -, -, heq⟩
    all_goals simp [step, heq, Occurrence.call, Call.now, Event.now]

omit [IsStrictOrderedRing K] in
theorem run_calls (p : Params K) (events : List (Event K)) :
    (((run (step p) (.init p) events).2.filterMap Occurrence.call).map Call.now).Sublist
        (events.map Event.now) ∧
      ∀ ready t, .receive ready t ∈ (run (step p) (.init p) events).2.filterMap Occurrence.call →
        .onReady ready t ∈ events := by
  induction events using List.reverseRecOn with
  | nil => simp
  | append_singleton events e ih =>
    obtain ⟨htimes, hbeats⟩ := step_call p e (run (step p) (.init p) events).1
    rw [run_snoc, Reaction.andThen_snd, List.filterMap_append, List.map_append, List.map_append]
    refine ⟨ih.1.append htimes, fun ready t hmem => ?_⟩
    rcases List.mem_append.mp hmem with hmem | hmem
    · exact List.mem_append_left _ (ih.2 ready t hmem)
    · exact List.mem_append_right _ (by simp [hbeats ready t hmem])

/-- When the request goes out the transforms are fresh, and some time ago, as long as the
hold lasts at least, a stretch began in which a true heartbeat was always recent. -/
theorem startup_heartbeats {p : Params K} {events : List (Event K)} {e : Event K}
    (hpos : 0 < p.readyHoldSec) (hclock : ((events ++ [e]).map Event.now).Pairwise (· ≤ ·))
    (h : .startup ∈ (step p e (run (step p) (.init p) events).1).2) :
    ∃ i, e = .tick i ∧ tfIsFresh p [i.mapOdom, i.odomBase, i.mapBase] = some true ∧
      ∃ s, i.now - s ≥ p.readyHoldSec ∧ ∀ x, s ≤ x → x ≤ i.now →
        ∃ v, .onReady true v ∈ events ∧ v ≤ x ∧ x - v ≤ p.readinessTimeoutSec := by
  obtain ⟨i, tfValid, rfl, hfresh, -, hq⟩ := startup_qualified h
  obtain ⟨htimes, hbeats⟩ := run_calls p events
  have hcalls : ((((run (step p) (.init p) events).2.filterMap Occurrence.call) ++
      [Call.observe tfValid i.now]).map Call.now).Pairwise (· ≤ ·) := by
    refine hclock.sublist ?_
    rw [List.map_append, List.map_append]
    exact htimes.append_right _
  obtain ⟨hbefore, hlast⟩ := now_le_of_pairwise hcalls
  have hfollows := follows_performAll p.readyHoldSec p.readinessTimeoutSec _ hbefore
  rw [← (run_submitted p events).hold] at hfollows
  have htime : (run (step p) (.init p) events).1.hold.heartbeatTimeoutSec = p.readinessTimeoutSec ∧
      (run (step p) (.init p) events).1.hold.holdSec = p.readyHoldSec := by
    rw [(run_submitted p events).hold, performAll_timeout, performAll_holdSec]
    exact ⟨rfl, rfl⟩
  obtain ⟨s, hlong, hsince⟩ := (hfollows.observe_iff tfValid i.now hlast (by rwa [htime.2])).mp hq
  rw [htime.2] at hlong
  rw [htime.1] at hsince
  obtain rfl : tfValid = true := ((since_snoc _ _).mp hsince).1.1
  refine ⟨i, rfl, hfresh, s, hlong, fun x hsx hx => ?_⟩
  obtain ⟨v, hv, hvx⟩ := exists_heartbeat hsince hcalls hsx ⟨.observe true i.now, by simp, hx⟩
  refine ⟨v, hbeats true v ?_, hvx⟩
  rcases List.mem_append.mp hv with hv | hv
  · exact hv
  · cases List.mem_singleton.mp hv

end X2Navigation.Startup

namespace X2Navigation.Nodes

open Guarded Traced

variable {K : Type} [Field K] [LinearOrder K]

/-- The clock of the startup gate does not go back. -/
def GateClock (events : List (Event K)) : Prop :=
  ((events.filterMap Event.gate?).map Startup.Event.now).Pairwise (· ≤ ·)

instance (events : List (Event K)) : Decidable (GateClock events) :=
  inferInstanceAs (Decidable (List.Pairwise _ _))

variable [IsStrictOrderedRing K]

/-- The heartbeat arrives, and the gate begins its hold. -/
def holdingRun : List (Event ℚ) :=
  restRun ++ [.gate 110000000 (.onReady true 0)] ++ [.gate 110000000 (.tick (Startup.sampleTick 0))]

theorem runs_holdingRun :
    Runs restSetup (1 / 2) (holdingRun ++ [.gate 310000000 (.tick (Startup.sampleTick (1 / 5)))]) := by
  obtain ⟨flight, hacts, hall⟩ : ∃ flight, Travels (step restSetup) (.initial restSetup)
      (wiring restSetup) (Prompt (1 / 2)) restRun flight ∧ ∀ parcel : Parcel (Event ℚ) (Message ℚ),
        Posted (step restSetup) (.initial restSetup) (wiring restSetup) restRun parcel.sender
          parcel.message → parcel ∈ flight := exists_travels_of_acts (by decide +kernel)
  have hprompt : Prompt (1 / 2) restTick (.gate 110000000 (.onReady true 0)) := by decide +kernel
  obtain ⟨flight', htaken, -⟩ := hacts.take (hall ⟨restTick, .gateReady true⟩ posted_restTick.1)
    rfl hprompt
  exact ⟨_, (htaken.act _ rfl).act _ rfl⟩

end X2Navigation.Nodes
