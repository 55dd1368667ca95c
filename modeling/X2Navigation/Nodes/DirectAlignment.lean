import X2Navigation.Nodes.Heartbeat
import X2Navigation.Server.CommandOrigin

/-! The way of a command with direct alignment, from the server's arbitration to the
socket. What the bridge submits was selected by a tick of the server, lawfully, and
not longer ago than the bridge's timeout and the travel time of a message. -/

namespace X2Navigation.Nodes

open FineAlignServer Guarded Traced

variable {K : Type} [Field K] [LinearOrder K]

/-- The server's clock does not go back. -/
def ServerClock (events : List (Event K)) : Prop :=
  ((events.filterMap Event.server?).map (·.now.steady)).Pairwise (· ≤ ·)

/-- One of the events is a tick of the server at `now` that selects `selection`, after
the entries `before` and with `time` as its reading. -/
def Selected (setup : Setup K) (events : List (Event K)) (now : TimePoint)
    (before : List (Entry K)) (time : TimePoint) (selection : Selection K) : Prop :=
  ∃ earlier stimulus between, events = earlier ++ .server stimulus :: between ∧
    stimulus.now.steady = now ∧ (run setup earlier).2.filterMap Occurrence.server? = before ∧
    .server ⟨stimulus.now, .ticked ⟨.selectCommand time, selection⟩⟩ ∈
      (reaction (step setup) (.initial setup) earlier (.server stimulus)).2

instance (events : List (Event K)) : Decidable (ServerClock events) :=
  inferInstanceAs (Decidable (List.Pairwise _ _))

variable {setup : Setup K} {events : List (Event K)}

theorem Selected.append {now time : TimePoint} {before : List (Entry K)} {selection : Selection K}
    (h : Selected setup events now before time selection) (more : List (Event K)) :
    Selected setup (events ++ more) now before time selection := by
  obtain ⟨earlier, stimulus, between, rfl, hrest⟩ := h
  exact ⟨earlier, stimulus, between ++ more, by simp, hrest⟩

omit [LinearOrder K] in
theorem published?_eq_some {o : FineAlignServer.Occurrence K} {command : Twist (Double K)}
    (h : o.published? = some command) (hne : command ≠ 0) :
    ∃ time selection, o = .ticked ⟨.selectCommand time, selection⟩ ∧ selection.command = command := by
  cases o with
  | ticked event =>
    obtain ⟨op, answer⟩ := event
    cases op with
    | selectCommand time => exact ⟨time, answer, rfl, Option.some.inj h⟩
    | _ => cases h
  | operated id event =>
    obtain ⟨op, answer⟩ := event
    cases op with
    | publishZero => exact absurd (Option.some.inj h).symm hne
    | _ => cases h
  | _ => cases h

/-- A step of the server leaves one entry at most, at the time of its stimulus. -/
theorem eq_entry_of_mem_step {node : Node K} {x : Stimulus K} {s : Server K} {entry : Entry K}
    (h : entry ∈ (FineAlignServer.step node x s).2) :
    (FineAlignServer.step node x s).2 = [entry] ∧ entry.now = x.now := by
  have hmoves := step_moves node x s
  generalize (FineAlignServer.step node x s).1 = s' at hmoves
  generalize (FineAlignServer.step node x s).2 = entries at hmoves h
  cases hmoves with
  | idle ok terminated => cases h
  | _ =>
    obtain rfl := List.mem_singleton.mp h
    exact ⟨rfl, rfl⟩

/-- A nonzero velocity message was selected by a tick. -/
theorem selected_of_posted {sender : Event K} {command : Twist (Double K)} (hne : command ≠ 0)
    (h : Posted (step setup) (.initial setup) (wiring setup) events sender (.velocity command)) :
    ∃ before time selection, selection.command = command ∧
      Selected setup events sender.steady before time selection := by
  obtain ⟨earlier, between, rfl, hmem⟩ := h
  obtain ⟨o, ho, hpost⟩ := List.mem_flatMap.mp hmem
  obtain ⟨entry, rfl, hpublished⟩ : ∃ entry, o = .server entry ∧
      entry.occurrence.published? = some command := by
    cases o with
    | adapter occurrence => cases occurrence <;> simp [wiring] at hpost
    | server entry =>
      refine ⟨entry, rfl, ?_⟩
      simp only [wiring] at hpost
      split at hpost
      · simpa using hpost
      · cases hpost
    | gate occurrence => simp [wiring] at hpost
    | submitted c => simp [wiring] at hpost
  obtain ⟨time, selection, hselect, hcommand⟩ := published?_eq_some hpublished hne
  cases sender with
  | server stimulus =>
    have hentry : entry ∈ (FineAlignServer.step setup.server stimulus (run setup earlier).1.server).2 := by
      obtain ⟨o, ho, heq⟩ := List.mem_map.mp ho
      cases heq
      exact ho
    obtain ⟨-, hnow⟩ := eq_entry_of_mem_step hentry
    refine ⟨_, time, selection, hcommand, earlier, stimulus, between, rfl, rfl, rfl, ?_⟩
    rw [← hselect, ← hnow]
    exact ho
  | adapter event =>
    obtain ⟨o, -, heq⟩ := List.mem_map.mp ho
    cases heq
  | gate instant event =>
    obtain ⟨o, -, heq⟩ := List.mem_map.mp ho
    cases heq
  | bridge event =>
    obtain ⟨o, -, heq⟩ := List.mem_map.mp ho
    cases heq

variable [IsStrictOrderedRing K]

/-- The server selects lawfully, whatever the other nodes do. -/
theorem Selected.lawful (hclock : ServerClock events) {now time : TimePoint}
    {before : List (Entry K)} {selection : Selection K}
    (h : Selected setup events now before time selection) :
    Lawful setup.server before time selection := by
  obtain ⟨earlier, stimulus, between, rfl, -, rfl, hmem⟩ := h
  have hprefix : (((earlier ++ [Event.server stimulus]).filterMap Event.server?).map
      (fun x => x.now.steady)).Pairwise (· ≤ ·) := by
    refine hclock.sublist ?_
    simp [Event.server?]
  obtain ⟨latest, haccounted⟩ := run_keeps_later (@accounted_initial _ _ _ setup.server)
    (fun hle h => h.later hle) (fun x s tr h => h.moves (step_moves setup.server x s)) _ hprefix
  have hserve := run_server setup (earlier ++ [.server stimulus])
  rw [FineAlignServer.serve] at hserve
  rw [hserve] at haccounted
  have hrun : run setup (earlier ++ [.server stimulus]) =
      (run setup earlier).andThen (step setup (.server stimulus)) := run_snoc _ _ _ _
  rw [hrun, Reaction.andThen_snd, List.filterMap_append] at haccounted
  have hentry : (⟨stimulus.now, .ticked ⟨.selectCommand time, selection⟩⟩ : Entry K) ∈
      (FineAlignServer.step setup.server stimulus (run setup earlier).1.server).2 := by
    obtain ⟨o, ho, heq⟩ := List.mem_map.mp hmem
    cases heq
    exact ho
  have hlast : (step setup (.server stimulus) (run setup earlier).1).2.filterMap Occurrence.server? =
      [⟨stimulus.now, .ticked ⟨.selectCommand time, selection⟩⟩] := by
    simpa [step, Function.comp_def, Occurrence.server?] using (eq_entry_of_mem_step hentry).1
  rw [hlast] at haccounted
  exact haccounted.lawful _ _ time selection (List.prefix_refl _) rfl

theorem navigationVelocityCommand_zero :
    navigationVelocityCommand (0 : Twist (Double K)) = some zeroVelocityCommand := by
  refine navigationVelocityCommand_eq_some.mpr ⟨rfl, ?_⟩
  have hone : (0 : K) < 1 := one_pos
  have hmin : min (0 : K) 1 = 0 := min_eq_left hone.le
  have hhalf : max (-1 / 2 : K) 0 = 0 := max_eq_right (by linarith)
  have hmax : max (-1 : K) 0 = 0 := max_eq_right (by linarith)
  show zeroVelocityCommand = (⟨max (-1 / 2) (min 0 1), max (-1) (min 0 1), 0, 0, 0,
    max (-1) (min 0 1)⟩ : VelocityCommand K)
  rw [hmin, hhalf, hmax]
  rfl

/-- With direct alignment a nonzero command goes to the socket only if it is the clamp of
what a tick of the server selected lawfully, at most the bridge's timeout and the travel
time of a message before. -/
theorem submitted_lawful (setup : Setup K) (D : K) {events before after : List (Event K)}
    {readyAt now : TimePoint} {c : VelocityCommand K} (hdirect : setup.directAlignment = true)
    (hrun : Runs setup D events) (hserver : ServerClock events) (hbridge : BridgeClock events)
    (heq : events = before ++ .bridge (.tick readyAt now) :: after)
    (hc : .submitted c ∈ (reaction (step setup) (.initial setup) before
      (.bridge (.tick readyAt now))).2) (hne : c ≠ zeroVelocityCommand) :
    ∃ selectedAt entries time selection,
      Selected setup before selectedAt entries time selection ∧
      Lawful setup.server entries time selection ∧
      navigationVelocityCommand selection.command = some c ∧
      Within (setup.timeouts.command + D) selectedAt now := by
  obtain ⟨flight, htravels⟩ := hrun
  obtain ⟨hmono, hsupported⟩ := supported_of_mem_reaction hbridge heq hc hne
  obtain ⟨a, message, s, r, b, hab, hmessage, hr, -⟩ := hsupported.beats hmono
  obtain ⟨older, e, newer, hcommand, -, he, -⟩ := filterMap_eq_append_cons hab
  obtain rfl := eq_bridge_of_mem_bridge? he
  have hnonzero : message ≠ 0 := by
    rintro rfl
    rw [navigationVelocityCommand_zero] at hmessage
    exact hne (Option.some.inj hmessage).symm
  have hsplit : events = older ++ .bridge (.command message s r) ::
      (newer ++ .bridge (.tick readyAt now) :: after) := by
    rw [heq, hcommand, List.append_assoc, List.cons_append]
  have htakes : (wiring setup).takes (.bridge (.command message s r)) = some (.velocity message) :=
    if_pos hdirect
  obtain ⟨sender, ⟨-, hprompt⟩, hposted⟩ := htravels.origin hsplit htakes
  obtain ⟨entries, time, selection, hselection, hselected⟩ := selected_of_posted hnonzero hposted
  have hclock : ServerClock older := by
    refine hserver.sublist ?_
    rw [hsplit]
    simp
  refine ⟨_, entries, time, selection, ?_, hselected.lawful hclock, ?_, within_add hr hprompt⟩
  · rw [hcommand]
    exact hselected.append _
  · rw [hselection, hmessage]

/-! ### A robot that turns -/

def turningSetup : Setup ℚ :=
  { restSetup with server := { Node.declared with bypassCollisionMonitor := true } }

/-- The last stimulus is the selection of the tick. -/
def turningTick : Event ℚ := .server ⟨⟨12000000, 12000000⟩, .tick .unavailable⟩

/-- A rotation begins, and the adapter becomes ready. -/
def readyToTurn : List (Event ℚ) :=
  (FineAlignServer.turning.dropLast.map .server ++ [turningTick]) ++ restRun

def turningRun : List (Event ℚ) :=
  readyToTurn ++ [.bridge (.readiness true 110000000)] ++
    [.bridge (.command ⟨0, ⟨0, 0, .finite (1 / 4)⟩⟩ 120000000 120000000)]

theorem runs_turningRun :
    Runs turningSetup (1 / 2) (turningRun ++ [.bridge (.tick 130000000 130000000)]) := by
  obtain ⟨flight, hacts, hall⟩ : ∃ flight, Travels (step turningSetup) (.initial turningSetup)
      (wiring turningSetup) (Prompt (1 / 2)) readyToTurn flight ∧
      ∀ parcel : Parcel (Event ℚ) (Message ℚ), Posted (step turningSetup) (.initial turningSetup)
        (wiring turningSetup) readyToTurn parcel.sender parcel.message → parcel ∈ flight :=
    exists_travels_of_acts (by decide +kernel)
  have hheartbeat : Posted (step turningSetup) (.initial turningSetup) (wiring turningSetup)
      readyToTurn restTick (.bridgeReady true) :=
    ⟨FineAlignServer.turning.dropLast.map .server ++ [turningTick] ++ OdinLocalizationAdapter.restEvents.map .adapter,
      [], by simp [readyToTurn, restRun], by decide +kernel⟩
  have hvelocity : Posted (step turningSetup) (.initial turningSetup) (wiring turningSetup)
      readyToTurn turningTick (.velocity ⟨0, ⟨0, 0, .finite (1 / 4)⟩⟩) :=
    ⟨FineAlignServer.turning.dropLast.map .server, restRun, by simp [readyToTurn], by decide +kernel⟩
  have hprompt : Prompt (1 / 2) restTick (.bridge (.readiness true 110000000)) := by decide +kernel
  have hprompt' : Prompt (1 / 2) turningTick
      (.bridge (.command ⟨0, ⟨0, 0, .finite (1 / 4)⟩⟩ 120000000 120000000)) := by decide +kernel
  obtain ⟨flight', htaken, hrest⟩ := hacts.take (hall ⟨restTick, .bridgeReady true⟩ hheartbeat) rfl
    hprompt
  have hstill := hrest ⟨turningTick, _⟩ (hall ⟨turningTick, _⟩ hvelocity) (by simp)
  obtain ⟨flight'', htaken', -⟩ := htaken.take hstill rfl hprompt'
  exact ⟨_, htaken'.act _ rfl⟩

/-- The bridge passes on the first command of the rotation. -/
theorem submitted_lawful_turning : ∃ selectedAt entries time selection,
    Selected turningSetup turningRun selectedAt entries time selection ∧
      Lawful turningSetup.server entries time selection ∧
      navigationVelocityCommand selection.command = some (⟨0, 0, 0, 0, 0, 1 / 4⟩ : VelocityCommand ℚ) ∧
      Within (1 / 5 + 1 / 2 : ℚ) selectedAt 130000000 := by
  have hc : .submitted (⟨0, 0, 0, 0, 0, 1 / 4⟩ : VelocityCommand ℚ) ∈ (reaction (step turningSetup)
      (.initial turningSetup) turningRun (.bridge (.tick 130000000 130000000))).2 :=
    List.mem_map.mpr ⟨_, List.mem_singleton.mpr (by decide +kernel), rfl⟩
  exact submitted_lawful turningSetup (1 / 2) rfl runs_turningRun (by decide +kernel)
    (by decide +kernel) rfl hc (by decide +kernel)

end X2Navigation.Nodes
