import X2Navigation.Nodes.System
import X2Navigation.Odin.Readiness

/-! The heartbeat from end to end. A heartbeat that arrives true was posted by a tick
of the adapter at which the localization was ready, so the history a receiver needs
for moving the robot or for starting Nav2 is a history of the adapter: at every moment
of it the adapter had found itself ready not longer ago than the receiver's timeout
and the travel time of a message. -/

namespace X2Navigation

open Guarded Traced

/-- In a chain of beats, each near the next, every moment has a beat before it that is near. -/
theorem exists_beat_near {τ : Type*} [LinearOrder τ] {near : τ → τ → Prop} (hnear : Fading near)
    {v t x : τ} {beats : List τ} (h : List.IsChain near (v :: (beats ++ [t]))) (hv : v ≤ x)
    (hx : x ≤ t) : ∃ w ∈ v :: beats, w ≤ x ∧ near w x := by
  induction beats generalizing v with
  | nil => exact ⟨v, by simp, hv, hnear hx (List.isChain_pair.mp h)⟩
  | cons w beats ih =>
    obtain ⟨hnext, hrest⟩ := List.isChain_cons_cons.mp h
    by_cases hw : w ≤ x
    · obtain ⟨u, hu, hle⟩ := ih hrest hw
      exact ⟨u, List.mem_cons_of_mem v hu, hle⟩
    · exact ⟨v, by simp, hv, hnear (le_of_not_ge hw) hnext⟩

/-! ### The bridge -/

namespace Nav2ZmqVelocityBridge

variable {K : Type*} [Field K] [LinearOrder K] [IsStrictOrderedRing K]

/-- A submitted command is held by the history of the bridge. -/
theorem supported_of_submitted (timeouts : BridgeTimeouts K) {events : List (Event K)}
    {readyAt now : TimePoint} (h : Nondecreasing events readyAt now) {c : VelocityCommand K}
    (hc : (((new true timeouts).run events).publishCommand readyAt now).2 = c)
    (hne : c ≠ zeroVelocityCommand) : Supported timeouts events readyAt now c := by
  obtain ⟨hp, -, -⟩ := List.pairwise_append.mp
    (show (events.flatMap Event.readings ++ [readyAt] ++ [now]).Pairwise (· ≤ ·) by
      simpa [Nondecreasing] using h)
  obtain ⟨k, hk, hs, hreq, htime, hl⟩ := run_lags timeouts hp
  rw [publishCommand_snd hreq hk hs, htime] at hc
  have hn : Fading (Within timeouts.readiness) := within_antitone
  have held : ∀ {r s}, k.Alive (Within timeouts.readiness) readyAt → k.entry = some ((c, r), s) →
      Within timeouts.command r now → Supported timeouts events readyAt now c := by
    intro r s ha he hr
    have hoffers := (hl.offers_iff hn (fun _ _ _ _ _ => trivial) le_rfl (c, r)).mp
      ⟨ha, s, he, trivial⟩
    obtain ⟨halive, s', hentry, -⟩ := hoffers
    exact (supported_iff_held timeouts events readyAt now c).mpr
      ⟨r, s', (run_entry_iff (signals events) readyAt s' (c, r)).mp ⟨halive, hentry⟩, hr⟩
  by_cases ha : k.Alive (Within timeouts.readiness) readyAt
  · rw [if_pos ha] at hc
    rcases he : k.entry with _ | ⟨⟨c', r⟩, s⟩
    · rw [he] at hc
      exact absurd hc.symm hne
    · rw [he] at hc
      dsimp only at hc
      split at hc
      · next hr =>
        subst hc
        exact held ha he hr
      · exact absurd hc.symm hne
  · rw [if_neg ha] at hc
    exact absurd hc.symm hne

/-- What the support of a command says of every moment since its callback began. -/
theorem Supported.beats {timeouts : BridgeTimeouts K} {events : List (Event K)}
    {readyAt now : TimePoint} {c : VelocityCommand K} (h : Supported timeouts events readyAt now c)
    (hmono : Nondecreasing events readyAt now) :
    ∃ before message s r after, events = before ++ .command message s r :: after ∧
      navigationVelocityCommand message = some c ∧ Within timeouts.command r now ∧ s ≤ r ∧
      r ≤ readyAt ∧ ∀ x, s ≤ x → x ≤ readyAt → ∃ older v newer, events = older ++ .readiness true v :: newer ∧
        v ≤ x ∧ Within timeouts.readiness v x := by
  obtain ⟨before, message, s, r, after, rfl, -, hfinite, hc, hr, htrue, older, v, since, rfl, -, hv,
    hchain⟩ := h
  have hle : v ≤ s ∧ s ≤ r ∧ r ≤ readyAt := by
    have hsplit : ((older.flatMap Event.readings ++ [v]) ++ (since.flatMap Event.readings ++
        s :: r :: (after.flatMap Event.readings ++ [readyAt, now]))).Pairwise (· ≤ ·) := by
      simpa [Nondecreasing, Event.readings] using hmono
    obtain ⟨-, hlater, hbefore⟩ := List.pairwise_append.mp hsplit
    obtain ⟨-, hlater, -⟩ := List.pairwise_append.mp hlater
    obtain ⟨hstarted, hlater⟩ := List.pairwise_cons.mp hlater
    exact ⟨hbefore v (by simp) s (by simp), hstarted r (by simp),
      (List.pairwise_cons.mp hlater).1 readyAt (by simp)⟩
  refine ⟨_, message, s, r, after, rfl, navigationVelocityCommand_eq_some.mpr ⟨hfinite, hc⟩, hr,
    hle.2.1, hle.2.2, fun x hsx hx => ?_⟩
  obtain ⟨w, hw, hwx, hnear⟩ := exists_beat_near within_antitone hchain (hle.1.trans hsx) hx
  rcases List.mem_cons.mp hw with rfl | hw
  · exact ⟨older, w, since ++ .command message s r :: after, by simp, hwx, hnear⟩
  · obtain ⟨e, he, htime⟩ := List.mem_filterMap.mp hw
    obtain ⟨data, rfl⟩ : ∃ data, e = .readiness data w := by
      cases e with
      | readiness data stamp =>
        obtain rfl := Option.some.inj htime
        exact ⟨data, rfl⟩
      | command _ _ _ => cases htime
      | tick _ _ => cases htime
    cases data with
    | false => exact absurd rfl (htrue _ he w)
    | true =>
      obtain ⟨a, b, rfl⟩ := List.append_of_mem he
      exact ⟨older ++ .readiness true v :: since ++ .command message s r :: a, w, b, by simp, hwx,
        hnear⟩

end Nav2ZmqVelocityBridge

/-! ### The system -/

namespace Nodes

variable {K : Type} [Field K] [LinearOrder K] {setup : Setup K} {events : List (Event K)}

theorem eq_of_mem_gateReady_or_bridgeReady {o : Occurrence K} {data : Bool}
    (h : .gateReady data ∈ (wiring setup).posts o ∨ .bridgeReady data ∈ (wiring setup).posts o) :
    ∃ text, o = .adapter (.status text data) := by
  cases o with
  | adapter occurrence =>
    cases occurrence with
    | status text ready =>
      obtain rfl : data = ready := by simpa [wiring] using h
      exact ⟨text, rfl⟩
    | _ => simp [wiring] at h
  | gate occurrence => simp [wiring] at h
  | server entry =>
    simp only [wiring] at h
    split at h <;> simp at h
  | submitted command => simp [wiring] at h

/-- A tick of the adapter at clocks `c`, one of the events, finds the localization ready. -/
def FoundReady (setup : Setup K) (events : List (Event K)) (c : Clocks) : Prop :=
  ∃ earlier event between, events = earlier ++ .adapter event :: between ∧ event.clocks = c ∧
    OdinLocalizationAdapter.Ready setup.adapter setup.eigen c
      (run setup (earlier ++ [.adapter event])).1.adapter
      ((run setup (earlier ++ [.adapter event])).2.filterMap Occurrence.adapter?)

theorem FoundReady.append {c : Clocks} (h : FoundReady setup events c) (more : List (Event K)) :
    FoundReady setup (events ++ more) c := by
  obtain ⟨earlier, event, between, rfl, hrest⟩ := h
  exact ⟨earlier, event, between ++ more, by simp, hrest⟩

/-- The adapter's clocks do not go back. -/
def AdapterClocks (events : List (Event K)) : Prop :=
  ((events.filterMap Event.adapter?).map OdinLocalizationAdapter.Event.clocks).Pairwise (· ≤ ·)

instance (events : List (Event K)) : Decidable (AdapterClocks events) :=
  inferInstanceAs (Decidable (List.Pairwise _ _))

/-- The bridge's clock does not go back. -/
def BridgeClock (events : List (Event K)) : Prop :=
  ((events.filterMap Event.bridge?).flatMap Nav2ZmqVelocityBridge.Event.readings).Pairwise (· ≤ ·)

instance (events : List (Event K)) : Decidable (BridgeClock events) :=
  inferInstanceAs (Decidable (List.Pairwise _ _))

variable [IsStrictOrderedRing K]

/-- A true heartbeat is posted by a tick that finds the localization ready. -/
theorem foundReady_of_posted (hclock : AdapterClocks events) {sender : Event K} {message : Message K}
    (hmessage : message = .gateReady true ∨ message = .bridgeReady true)
    (h : Posted (step setup) (.initial setup) (wiring setup) events sender message) :
    ∃ c, c.steady = sender.steady ∧ FoundReady setup events c := by
  obtain ⟨earlier, between, rfl, hmem⟩ := h
  obtain ⟨o, ho, hpost⟩ := List.mem_flatMap.mp hmem
  obtain ⟨text, rfl⟩ : ∃ text, o = .adapter (.status text true) := by
    rcases hmessage with rfl | rfl
    · exact eq_of_mem_gateReady_or_bridgeReady (.inl hpost)
    · exact eq_of_mem_gateReady_or_bridgeReady (.inr hpost)
  cases sender with
  | adapter event =>
    have hstatus : .status text true ∈ (OdinLocalizationAdapter.step setup.adapter setup.eigen event
        (run setup earlier).1.adapter).2 := by
      obtain ⟨o, ho, heq⟩ := List.mem_map.mp ho
      cases heq
      exact ho
    have hprefix : ((earlier.filterMap Event.adapter?).map OdinLocalizationAdapter.Event.clocks ++
        [event.clocks]).Pairwise (· ≤ ·) := by
      refine hclock.sublist ?_
      simp [Event.adapter?]
    have hcons := OdinLocalizationAdapter.run_consistent (p := setup.adapter) (E := setup.eigen)
      (earlier.filterMap Event.adapter?) event.clocks hprefix
    rw [run_adapter] at hcons
    have hready := OdinLocalizationAdapter.ready_of_status hcons hstatus
    refine ⟨event.clocks, rfl, earlier, event, between, rfl, rfl, ?_⟩
    have hrun : run setup (earlier ++ [.adapter event]) =
        (run setup earlier).andThen (step setup (.adapter event)) := run_snoc _ _ _ _
    rw [hrun, Reaction.andThen_fst, Reaction.andThen_snd, List.filterMap_append]
    simpa [step, Function.comp_def, Occurrence.adapter?] using hready
  | gate instant event =>
    obtain ⟨o, -, heq⟩ := List.mem_map.mp ho
    cases heq
  | server stimulus =>
    obtain ⟨o, -, heq⟩ := List.mem_map.mp ho
    cases heq
  | bridge event =>
    obtain ⟨o, -, heq⟩ := List.mem_map.mp ho
    cases heq

omit [Field K] [LinearOrder K] [IsStrictOrderedRing K] in
theorem eq_bridge_of_mem_bridge? {e : Event K} {event : Nav2ZmqVelocityBridge.Event K}
    (h : e.bridge? = some event) : e = .bridge event := by
  cases e with
  | bridge event' => rw [Option.some.inj h]
  | _ => cases h

theorem within_add {T D : K} {a b c : TimePoint} (h : Within T b c) (h' : Within D a b) :
    Within (T + D) a c := by
  unfold Within elapsed at *
  have hsum : (c - a : ℤ) = (c - b) + (b - a) := by ring
  rw [hsum, Int.cast_add, add_div]
  exact add_le_add h h'

/-- A nonzero command that goes to the socket is supported by the events of the bridge. -/
theorem supported_of_mem_reaction {before after : List (Event K)} {readyAt now : TimePoint}
    {c : VelocityCommand K} (hbridge : BridgeClock events)
    (heq : events = before ++ .bridge (.tick readyAt now) :: after)
    (hc : .submitted c ∈ (reaction (step setup) (.initial setup) before
      (.bridge (.tick readyAt now))).2) (hne : c ≠ zeroVelocityCommand) :
    Nav2ZmqVelocityBridge.Nondecreasing (before.filterMap Event.bridge?) readyAt now ∧
      Nav2ZmqVelocityBridge.Supported setup.timeouts (before.filterMap Event.bridge?) readyAt now c := by
  have hsubmit : ((run setup before).1.bridge.publishCommand readyAt now).2 = c := by
    obtain ⟨o, ho, hoc⟩ := List.mem_map.mp hc
    obtain rfl := List.mem_singleton.mp ho
    exact Occurrence.submitted.inj hoc
  have hmono : Nav2ZmqVelocityBridge.Nondecreasing (before.filterMap Event.bridge?) readyAt now := by
    refine hbridge.sublist ?_
    rw [heq, List.filterMap_append, List.flatMap_append]
    refine List.Sublist.append_left ?_ _
    simp [Event.bridge?, Nav2ZmqVelocityBridge.Event.readings]
  rw [← run_bridge] at hsubmit
  exact ⟨hmono, Nav2ZmqVelocityBridge.supported_of_submitted setup.timeouts hmono hsubmit hne⟩

theorem quarter_pos : (0 : ℚ) < 1 / 4 := by norm_num
theorem fifth_pos : (0 : ℚ) < 1 / 5 := by norm_num

def restSetup : Setup ℚ where
  adapter := OdinLocalizationAdapter.restParams
  eigen := OdinLocalizationAdapter.restEigen
  gate := { Startup.sampleParams with readyHoldSec := 1 / 10 }
  server := .declared
  timeouts := ⟨1 / 4, 1 / 5, quarter_pos, fifth_pos⟩

/-- The tick in which the adapter becomes ready. -/
def restTick : Event ℚ :=
  .adapter ⟨OdinLocalizationAdapter.restClocks 1, .tick OdinLocalizationAdapter.restTf⟩

def restRun : List (Event ℚ) := OdinLocalizationAdapter.restEvents.map .adapter ++ [restTick]

/-- The heartbeat arrives, and a command after it. -/
def movingRun : List (Event ℚ) :=
  restRun ++ [.bridge (.readiness true 110000000)] ++
    [.bridge (.command ⟨⟨.finite (1 / 2), 0, 0⟩, 0⟩ 115000000 120000000)]

theorem posted_restTick :
    Posted (step restSetup) (.initial restSetup) (wiring restSetup) restRun restTick
        (.gateReady true) ∧
      Posted (step restSetup) (.initial restSetup) (wiring restSetup) restRun restTick
        (.bridgeReady true) :=
  ⟨⟨OdinLocalizationAdapter.restEvents.map .adapter, [], rfl, by decide +kernel⟩,
    ⟨OdinLocalizationAdapter.restEvents.map .adapter, [], rfl, by decide +kernel⟩⟩

/-- The adapter posts its heartbeat, the bridge takes it, and nothing else is taken. -/
theorem runs_movingRun :
    Runs restSetup (1 / 2) (movingRun ++ [.bridge (.tick 130000000 130000000)]) := by
  obtain ⟨flight, hacts, hall⟩ : ∃ flight, Travels (step restSetup) (.initial restSetup)
      (wiring restSetup) (Prompt (1 / 2)) restRun flight ∧ ∀ parcel : Parcel (Event ℚ) (Message ℚ),
        Posted (step restSetup) (.initial restSetup) (wiring restSetup) restRun parcel.sender
          parcel.message → parcel ∈ flight := exists_travels_of_acts (by decide +kernel)
  have hprompt : Prompt (1 / 2) restTick (.bridge (.readiness true 110000000)) := by decide +kernel
  obtain ⟨flight', htaken, -⟩ := hacts.take (hall ⟨restTick, .bridgeReady true⟩ posted_restTick.2)
    rfl hprompt
  exact ⟨_, (htaken.act _ rfl).act _ rfl⟩

end Nodes

end X2Navigation
