import X2Navigation.Command.VelocityCommand
import X2Navigation.Guarded.History

/-! The velocity bridge. Heartbeats of the localization gate guard the watchdog's
command, three callbacks clear it at different moments, and each callback that
reads the clock twice is given both readings. Proved: a submitted command is the
last one received, and localization has been ready without a gap ever since. -/

namespace X2Navigation

open Guarded

variable {K : Type*} [Field K] [LinearOrder K]

/-- The timeouts the constructor accepts. -/
structure BridgeTimeouts (K : Type*) [Field K] [LinearOrder K] where
  readiness : K
  command : K
  readiness_pos : 0 < readiness
  command_pos : 0 < command

/-- The constructor's checks of its two timeouts. -/
def BridgeTimeouts.validate (readiness command : Double K) : Except String (BridgeTimeouts K) :=
  if hr : readiness.isFinite = true ∧ 0 < readiness.value then
    if hc : command.isFinite = true ∧ 0 < command.value then
      .ok ⟨readiness.value, command.value, hr.2, hc.2⟩
    else .error "command_timeout_sec must be finite and positive"
  else .error "Invalid localization readiness topic or timeout"

structure Nav2ZmqVelocityBridge (K : Type*) [Field K] [LinearOrder K] where
  requireLocalization : Bool
  timeouts : BridgeTimeouts K
  watchdog : VelocityCommandWatchdog K
  gate : LocalizationGate

namespace Nav2ZmqVelocityBridge

def new (requireLocalization : Bool) (timeouts : BridgeTimeouts K) : Nav2ZmqVelocityBridge K :=
  ⟨requireLocalization, timeouts, .new, .new⟩

def ready (b : Nav2ZmqVelocityBridge K) (now : TimePoint) : Bool :=
  b.gate.ready now (.finite b.timeouts.readiness)

/-- The subscription exists only where localization is required. -/
def readinessCallback (b : Nav2ZmqVelocityBridge K) (data : Bool) (stamp : TimePoint) :
    Nav2ZmqVelocityBridge K :=
  if !b.requireLocalization then b
  else
    { b with
      watchdog := if !b.ready stamp || !data then .new else b.watchdog
      gate := b.gate.update data stamp }

def commandCallback (b : Nav2ZmqVelocityBridge K) (message : Twist (Double K))
    (readyAt now : TimePoint) : Nav2ZmqVelocityBridge K :=
  if b.requireLocalization && !b.ready readyAt then { b with watchdog := .new }
  else { b with watchdog := (b.watchdog.update message now).1 }

/-- The command submitted to the socket; whether the send succeeds changes no state. -/
def publishCommand (b : Nav2ZmqVelocityBridge K) (readyAt now : TimePoint) :
    Nav2ZmqVelocityBridge K × VelocityCommand K :=
  let b := if b.requireLocalization && !b.ready readyAt then { b with watchdog := .new } else b
  (b, b.watchdog.commandAt now (.finite b.timeouts.command))

/-! ### Runs -/

inductive Event (K : Type*)
  | readiness (data : Bool) (stamp : TimePoint)
  | command (message : Twist (Double K)) (readyAt now : TimePoint)
  | tick (readyAt now : TimePoint)

namespace Event

def readings : Event K → List TimePoint
  | .readiness _ stamp => [stamp]
  | .command _ readyAt now => [readyAt, now]
  | .tick readyAt now => [readyAt, now]

def IsCommand (e : Event K) : Prop := ∃ m s t, e = .command m s t

def IsReadiness (e : Event K) : Prop := ∃ d s, e = .readiness d s

def readinessTime? : Event K → Option TimePoint
  | .readiness _ stamp => some stamp
  | _ => none

end Event

def apply (b : Nav2ZmqVelocityBridge K) : Event K → Nav2ZmqVelocityBridge K
  | .readiness data stamp => b.readinessCallback data stamp
  | .command message readyAt now => b.commandCallback message readyAt now
  | .tick readyAt now => (b.publishCommand readyAt now).1

def run (b : Nav2ZmqVelocityBridge K) (events : List (Event K)) : Nav2ZmqVelocityBridge K :=
  events.foldl apply b

/-- The steady clock does not go back between readings. -/
def Nondecreasing (events : List (Event K)) (readyAt now : TimePoint) : Prop :=
  (events.flatMap Event.readings ++ [readyAt, now]).Pairwise (· ≤ ·)

/-- What the events so far must look like for a tick with readings `readyAt` and
`now` to submit `c`: the last command was finite, `c` is its clamp, and since
before it was accepted every heartbeat has been true and in time. -/
def Supported (timeouts : BridgeTimeouts K) (events : List (Event K)) (readyAt now : TimePoint)
    (c : VelocityCommand K) : Prop :=
  ∃ before message s r after, events = before ++ .command message s r :: after ∧
    (∀ e ∈ after, ¬ e.IsCommand) ∧ hasFiniteComponents message = true ∧
    c = ⟨max (-1 / 2) (min message.linear.x.value 1), max (-1) (min message.linear.y.value 1), 0, 0, 0,
      max (-1) (min message.angular.z.value 1)⟩ ∧
    Within timeouts.command r now ∧ (∀ e ∈ after, ∀ t, e ≠ .readiness false t) ∧
    ∃ older v since, before = older ++ .readiness true v :: since ∧
      (∀ e ∈ since, ¬ e.IsReadiness) ∧ Within timeouts.readiness v s ∧
      List.IsChain (Within timeouts.readiness) (v :: (after.filterMap Event.readinessTime? ++ [readyAt]))

/-! ### The ideal cache -/

/-- Ticks are no signals. The cached value carries the time of its receipt. -/
def Event.signal? : Event K → Option (Signal (VelocityCommand K × TimePoint) TimePoint)
  | .readiness true stamp => some (.beat stamp)
  | .readiness false _ => some .halt
  | .command message readyAt now => some (match navigationVelocityCommand message with
    | some c => .store (c, now) readyAt
    | none => .spoil)
  | .tick _ _ => none

def signals (events : List (Event K)) : List (Signal (VelocityCommand K × TimePoint) TimePoint) :=
  events.filterMap Event.signal?

/-- The bridge holds what the cache holds, less the time its guard was checked. -/
structure Holds (b : Nav2ZmqVelocityBridge K)
    (k : Cache (VelocityCommand K × TimePoint) TimePoint) : Prop where
  guard : (if b.gate.isReady then b.gate.received else none) = k.guard
  command : b.watchdog.command = k.entry.map (·.1.1)
  receivedAt : b.watchdog.receivedAt = k.entry.map (·.1.2)

theorem signal?_eq_beat {e : Event K} {v : TimePoint} :
    e.signal? = some (.beat v) ↔ e = .readiness true v := by
  rcases e with ⟨_ | _, s⟩ | ⟨m, s, r⟩ | ⟨s, r⟩ <;> simp [Event.signal?, eq_comm]
  cases navigationVelocityCommand m <;> simp

theorem signal?_eq_store {e : Event K} {c : VelocityCommand K} {r s : TimePoint} :
    e.signal? = some (.store (c, r) s) ↔
      ∃ m, e = .command m s r ∧ navigationVelocityCommand m = some c := by
  rcases e with ⟨_ | _, s⟩ | ⟨m, s, r⟩ | ⟨s, r⟩ <;> simp [Event.signal?]
  cases navigationVelocityCommand m <;> simp
  grind

/-- No receipt time of the bridge lies after `now`. -/
def Settled (b : Nav2ZmqVelocityBridge K) (now : TimePoint) : Prop := ∀ r ∈ b.gate.received, r ≤ now

theorem ready_iff {b : Nav2ZmqVelocityBridge K} {k : Cache (VelocityCommand K × TimePoint) TimePoint}
    (hk : b.Holds k) {now : TimePoint} (hs : b.Settled now) :
    b.ready now = true ↔ k.Alive (Within b.timeouts.readiness) now := by
  unfold ready LocalizationGate.ready Settled at *
  rw [Cache.alive_iff, ← hk.guard]
  cases hr : b.gate.received with
  | none => simp
  | some r => cases b.gate.isReady <;> simp [hs r hr, Double.numLE, Within]

@[simp] theorem requireLocalization_apply (b : Nav2ZmqVelocityBridge K) (e : Event K) :
    (b.apply e).requireLocalization = b.requireLocalization := by
  cases e <;> simp only [apply, readinessCallback, commandCallback, publishCommand] <;> split <;> rfl

@[simp] theorem timeouts_apply (b : Nav2ZmqVelocityBridge K) (e : Event K) :
    (b.apply e).timeouts = b.timeouts := by
  cases e <;> simp only [apply, readinessCallback, commandCallback, publishCommand] <;> split <;> rfl

theorem Holds.watchdog_new {b : Nav2ZmqVelocityBridge K}
    {k : Cache (VelocityCommand K × TimePoint) TimePoint} (hk : b.Holds k) :
    ({ b with watchdog := .new } : Nav2ZmqVelocityBridge K).Holds ⟨k.guard, none⟩ :=
  ⟨hk.guard, rfl, rfl⟩

/-- One event does to the bridge what its signal does to the cache it holds; only
a tick may drop an entry early, and only one whose guard is dead. -/
theorem holds_apply {b : Nav2ZmqVelocityBridge K}
    {k : Cache (VelocityCommand K × TimePoint) TimePoint} (hreq : b.requireLocalization = true)
    (hk : b.Holds k) {t t' : TimePoint} (hs : b.Settled t) (e : Event K)
    (hp : (t :: (e.readings ++ [t'])).Pairwise (· ≤ ·)) :
    ∃ s k', t ≤ s ∧ s ≤ t' ∧ At e.signal? s ∧ ((b.apply e).Holds k' ∧ (b.apply e).Settled t') ∧
      Lags (Within b.timeouts.readiness) (fun _ _ => True) s k'
        (e.signal?.elim k (k.step (Within b.timeouts.readiness))) := by
  have later : ∀ s, t ≤ s → b.Settled s := fun s h r hr => (hs r hr).trans h
  cases e with
  | readiness data v =>
    obtain ⟨⟨htv, -⟩, hvt⟩ : (t ≤ v ∧ t ≤ t') ∧ v ≤ t' := by simpa [Event.readings] using hp
    have hready := ready_iff hk (later v htv)
    have hset : (b.apply (.readiness data v)).Settled t' := by
      simpa [Settled, apply, readinessCallback, hreq, LocalizationGate.update] using hvt
    cases data with
    | false =>
      refine ⟨v, _, htv, hvt, by simp [At, Event.signal?], ⟨?_, hset⟩, Lags.refl v _⟩
      exact ⟨by simp [apply, readinessCallback, hreq, LocalizationGate.update, Event.signal?, Cache.step],
        by simp [apply, readinessCallback, hreq, VelocityCommandWatchdog.new, Event.signal?, Cache.step],
        by simp [apply, readinessCallback, hreq, VelocityCommandWatchdog.new, Event.signal?, Cache.step]⟩
    | true =>
      refine ⟨v, _, htv, hvt, by simp [At, Event.signal?, eq_comm], ⟨?_, hset⟩, Lags.refl v _⟩
      by_cases ha : k.Alive (Within b.timeouts.readiness) v
      · constructor <;> simp [apply, readinessCallback, hreq, LocalizationGate.update, Event.signal?,
          Cache.step, hready.mpr ha, ha, hk.command, hk.receivedAt]
      · constructor <;> simp [apply, readinessCallback, hreq, LocalizationGate.update, Event.signal?,
          Cache.step, mt hready.mp ha, ha, VelocityCommandWatchdog.new]
  | command m s r =>
    obtain ⟨⟨hts, -, -⟩, ⟨hsr, -⟩, hrt⟩ : (t ≤ s ∧ t ≤ r ∧ t ≤ t') ∧ (s ≤ r ∧ s ≤ t') ∧ r ≤ t' := by
      simpa [Event.readings] using hp
    have hready := ready_iff hk (later s hts)
    have hset : (b.apply (.command m s r)).Settled t' := by
      have := later t' (hts.trans (hsr.trans hrt))
      simp only [apply, commandCallback]
      split <;> exact this
    have hat : At (Event.signal? (.command m s r)) s := by
      cases hm : navigationVelocityCommand m <;> simp [At, Event.signal?, hm, eq_comm]
    refine ⟨s, _, hts, hsr.trans hrt, hat, ⟨?_, hset⟩, Lags.refl s _⟩
    have hg := hk.guard
    by_cases ha : k.Alive (Within b.timeouts.readiness) s
    · cases hm : navigationVelocityCommand m <;>
        constructor <;> simp [apply, commandCallback, hreq, hready.mpr ha, Event.signal?, hm,
          Cache.step, ha, VelocityCommandWatchdog.update, VelocityCommandWatchdog.clear, hg]
    · cases hm : navigationVelocityCommand m <;>
        constructor <;> simp [apply, commandCallback, hreq, mt hready.mp ha, Event.signal?, hm,
          Cache.step, ha, VelocityCommandWatchdog.new, hg]
  | tick s r =>
    obtain ⟨⟨hts, -, -⟩, ⟨hsr, -⟩, hrt⟩ : (t ≤ s ∧ t ≤ r ∧ t ≤ t') ∧ (s ≤ r ∧ s ≤ t') ∧ r ≤ t' := by
      simpa [Event.readings] using hp
    have hready := ready_iff hk (later s hts)
    have hset : b.Settled t' := later t' (hts.trans (hsr.trans hrt))
    by_cases ha : k.Alive (Within b.timeouts.readiness) s
    · have hb : b.apply (.tick s r) = b := by simp [apply, publishCommand, hready.mpr ha]
      rw [hb]
      exact ⟨s, k, hts, hsr.trans hrt, by simp [At, Event.signal?], ⟨hk, hset⟩, Lags.refl s _⟩
    · have hb : b.apply (.tick s r) = { b with watchdog := .new } := by
        simp [apply, publishCommand, hreq, mt hready.mp ha]
      rw [hb]
      exact ⟨s, _, hts, hsr.trans hrt, by simp [At, Event.signal?], ⟨hk.watchdog_new, hset⟩,
        ⟨.inl rfl, .inr ⟨rfl, .inl ha⟩⟩⟩

/-- The command submitted by a bridge that holds `k`. -/
theorem publishCommand_snd {b : Nav2ZmqVelocityBridge K}
    {k : Cache (VelocityCommand K × TimePoint) TimePoint} (hreq : b.requireLocalization = true)
    (hk : b.Holds k) {readyAt : TimePoint} (hs : b.Settled readyAt) (now : TimePoint) :
    (b.publishCommand readyAt now).2 =
      if k.Alive (Within b.timeouts.readiness) readyAt then
        match k.entry with
        | some ((c, r), _) => if Within b.timeouts.command r now then c else zeroVelocityCommand
        | none => zeroVelocityCommand
      else zeroVelocityCommand := by
  have hready := ready_iff hk hs
  by_cases ha : k.Alive (Within b.timeouts.readiness) readyAt
  · simp only [publishCommand, hready.mpr ha, ha, if_true, Bool.not_true, Bool.and_false,
      Bool.false_eq_true, if_false, VelocityCommandWatchdog.commandAt, hk.command, hk.receivedAt]
    cases k.entry with
    | none => rfl
    | some e =>
      have hpos : ¬ b.timeouts.command ≤ 0 := not_le.mpr b.timeouts.command_pos
      by_cases hw : Within b.timeouts.command e.1.2 now
      · have hgt : ¬ b.timeouts.command < elapsed now e.1.2 := not_lt.mpr hw
        simp [hpos, hgt, hw, Double.numGT]
      · have hgt : b.timeouts.command < elapsed now e.1.2 := not_le.mp hw
        simp [hgt, hw, Double.numGT]
  · simp [publishCommand, hreq, mt hready.mp ha, ha, VelocityCommandWatchdog.new,
      VelocityCommandWatchdog.commandAt]

variable [IsStrictOrderedRing K]

theorem run_lags (timeouts : BridgeTimeouts K) {events : List (Event K)} {now : TimePoint}
    (h : (events.flatMap Event.readings ++ [now]).Pairwise (· ≤ ·)) :
    ∃ k, ((new true timeouts).run events).Holds k ∧ ((new true timeouts).run events).Settled now ∧
      ((new true timeouts).run events).requireLocalization = true ∧
      ((new true timeouts).run events).timeouts = timeouts ∧
      Lags (Within timeouts.readiness) (fun _ _ => True) now k
        (Cache.run (Within timeouts.readiness) (signals events)) := by
  have hn : Fading (Within timeouts.readiness) := within_antitone
  obtain ⟨k, ⟨hk, hs, hreq, htime⟩, hl⟩ := run_follows hn (fun _ _ _ _ _ => trivial)
    Event.signal? Event.readings apply
    (fun t b k => b.Holds k ∧ b.Settled t ∧ b.requireLocalization = true ∧ b.timeouts = timeouts)
    (g := new true timeouts)
    (fun t => ⟨⟨rfl, rfl, rfl⟩, by simp [Settled, new, LocalizationGate.new], rfl, rfl⟩)
    (fun e b k t t' ⟨hk, hs, hreq, htime⟩ hp => by
      obtain ⟨s, k', hts, hst, hat, ⟨hk', hs'⟩, hl⟩ := holds_apply hreq hk hs e hp
      rw [htime] at hl
      exact ⟨s, k', hts, hst, hat, ⟨hk', hs', by simpa using hreq, by simpa using htime⟩, hl⟩)
    events now h
  exact ⟨k, hk, hs, hreq, htime, hl⟩

/-! ### The history of the events is the history of the signals -/

omit [IsStrictOrderedRing K] in
theorem quiet_iff (e : Event K) : (∀ y, e.signal? = some y → ∃ w, y = .beat w) ↔
    ¬ e.IsCommand ∧ ∀ t, e ≠ .readiness false t := by
  rcases e with ⟨_ | _, s⟩ | ⟨m, s, r⟩ | ⟨s, r⟩ <;> simp [Event.signal?, Event.IsCommand]
  cases navigationVelocityCommand m <;> simp

omit [IsStrictOrderedRing K] in
theorem filterMap_readinessTime? {events : List (Event K)}
    (h : ∀ e ∈ events, ∀ t, e ≠ .readiness false t) :
    events.filterMap Event.readinessTime? = events.filterMap (beatTime? Event.signal?) := by
  refine List.filterMap_congr fun e he => ?_
  rcases e with ⟨_ | _, s⟩ | ⟨m, s, r⟩ | ⟨s, r⟩
  · exact absurd rfl (h _ he s)
  · rfl
  · cases hm : navigationVelocityCommand m <;> simp [beatTime?, Event.signal?, Event.readinessTime?, hm]
  · rfl

omit [IsStrictOrderedRing K] in
theorem beating_signals_iff (events : List (Event K)) (v : TimePoint) :
    Beating (signals events) v ↔ ∃ older since, events = older ++ .readiness true v :: since ∧
      ∀ e ∈ since, ¬ e.IsReadiness := by
  have silent : ∀ e : Event K, (∀ w, e.signal? ≠ some (.beat w) ∧ e.signal? ≠ some .halt) ↔
      ¬ e.IsReadiness := by
    intro e
    rcases e with ⟨_ | _, s⟩ | ⟨m, s, r⟩ | ⟨s, r⟩ <;> simp [Event.signal?, Event.IsReadiness]
    cases navigationVelocityCommand m <;> simp
  unfold signals
  rw [beating_filterMap]
  simp only [signal?_eq_beat, silent]
  constructor
  · rintro ⟨older, _, since, rfl, rfl, hq⟩
    exact ⟨older, since, rfl, hq⟩
  · rintro ⟨older, since, rfl, hq⟩
    exact ⟨older, _, since, rfl, rfl, hq⟩

theorem supported_iff_held (timeouts : BridgeTimeouts K) (events : List (Event K))
    (readyAt now : TimePoint) (c : VelocityCommand K) :
    Supported timeouts events readyAt now c ↔ ∃ r s,
      Held (Within timeouts.readiness) (signals events) readyAt (c, r) s ∧
        Within timeouts.command r now := by
  unfold signals
  simp only [held_filterMap, signal?_eq_store, quiet_iff, navigationVelocityCommand_eq_some]
  constructor
  · rintro ⟨before, m, s, r, after, rfl, hlast, hm, hc, hr, hready, older, v, since, hbefore, hq, hv,
      hchain⟩
    rw [filterMap_readinessTime? hready] at hchain
    exact ⟨r, s, ⟨before, _, after, v, rfl, ⟨m, rfl, hm, hc⟩, fun e he => ⟨hlast e he, hready e he⟩,
      (beating_signals_iff before v).mpr ⟨older, since, hbefore, hq⟩, hv, hchain⟩, hr⟩
  · rintro ⟨r, s, ⟨before, _, after, v, rfl, ⟨m, rfl, hm, hc⟩, hq, hb, hv, hchain⟩, hr⟩
    obtain ⟨older, since, hbefore, hq'⟩ := (beating_signals_iff before v).mp hb
    rw [← filterMap_readinessTime? fun e he => (hq e he).2] at hchain
    exact ⟨before, m, s, r, after, rfl, fun e he => (hq e he).1, hm, hc, hr,
      fun e he => (hq e he).2, older, v, since, hbefore, hq', hv, hchain⟩

/-- A tick submits a nonzero command only with the support of the whole history,
and what the history supports it submits, whatever ticks came before. -/
theorem publishCommand_never_replays (timeouts : BridgeTimeouts K) (events : List (Event K))
    (readyAt now : TimePoint) (h : Nondecreasing events readyAt now) :
    (((((new true timeouts).run events).publishCommand readyAt now).2 ≠ zeroVelocityCommand →
      Supported timeouts events readyAt now
        (((new true timeouts).run events).publishCommand readyAt now).2) ∧
    ∀ c, Supported timeouts events readyAt now c →
      (((new true timeouts).run events).publishCommand readyAt now).2 = c) := by
  have hn : Fading (Within timeouts.readiness) := within_antitone
  obtain ⟨hp, -, -⟩ := List.pairwise_append.mp
    (show (events.flatMap Event.readings ++ [readyAt] ++ [now]).Pairwise (· ≤ ·) by
      simpa [Nondecreasing] using h)
  obtain ⟨k, hk, hs, hreq, htime, hl⟩ := run_lags timeouts hp
  have supported : ∀ c, Supported timeouts events readyAt now c ↔
      ∃ r, k.Offers (Within timeouts.readiness) (fun _ _ => True) readyAt (c, r) ∧
        Within timeouts.command r now := by
    intro c
    have offers := fun r => hl.offers_iff hn (fun _ _ _ _ _ => trivial) le_rfl (c, r)
    simp only [supported_iff_held, offers, ← run_entry_iff]
    constructor
    · rintro ⟨r, s, ⟨ha, he⟩, hr⟩
      exact ⟨r, ⟨ha, s, he, trivial⟩, hr⟩
    · rintro ⟨r, ⟨ha, s, he, -⟩, hr⟩
      exact ⟨r, s, ⟨ha, he⟩, hr⟩
  simp only [publishCommand_snd hreq hk hs, htime, supported, Cache.Offers, and_true]
  by_cases ha : k.Alive (Within timeouts.readiness) readyAt
  · rcases he : k.entry with _ | ⟨⟨c, r⟩, s⟩
    · simp [ha]
    · by_cases hr : Within timeouts.command r now
      · simp [ha, hr]
      · simp [ha, hr]
  · simp [ha]

/-- Localization is ready, the robot is told to go faster than allowed, and a tick
comes before the one considered. -/
theorem publishCommand_never_replays_clamped :
    (((new true (⟨1, 1, by decide, by decide⟩ : BridgeTimeouts ℚ)).run [.readiness true 0,
      .command ⟨⟨.finite 3, 0, 0⟩, 0⟩ 10 11, .tick 12 13]).publishCommand 20 21).2 =
        ⟨1, 0, 0, 0, 0, 0⟩ := by
  refine (publishCommand_never_replays _ _ 20 21 (by simp [Nondecreasing, Event.readings])).2 _
    ⟨[.readiness true 0], ⟨⟨.finite 3, 0, 0⟩, 0⟩, 10, 11, [.tick 12 13], rfl, ?_, rfl, by decide +kernel,
      by decide +kernel, by simp, [], 0, [], rfl, by simp, by decide +kernel, by decide +kernel⟩
  simp [Event.IsCommand]

end Nav2ZmqVelocityBridge

end X2Navigation
