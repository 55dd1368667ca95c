import X2Navigation.Server.Messages
import X2Navigation.Startup.ReadinessHold
import X2Navigation.Traced.Machine

/-! `Nav2LocalizationStartupGate`: the node that asks the lifecycle manager to start
Nav2 once the localization has been ready long enough. What a tick reads from the
outside is its input: the transforms, the clocks, the service and the future of
the request. A negative stamp makes `Time.from_msg` raise, and nothing in the tick
catches it. -/

namespace X2Navigation.Startup

open Traced Temporal

variable {K : Type*} [Field K] [LinearOrder K]

structure Params (K : Type*) where
  readyHoldSec : K
  readinessTimeoutSec : K
  tfMaxAge : K
  futureTolerance : K

/-- `positiveParameter`; `none` is the `ValueError`. -/
def positiveParameter (value : Double K) : Option K :=
  if !value.isFinite || decide (value.value ≤ 0) then none else some value.value

/-- The four parameters, in the order of the constructor. -/
def Params.declare (readyHoldSec readinessTimeoutSec tfMaxAge futureTolerance : Double K) :
    Option (Params K) := do
  let readyHoldSec ← positiveParameter readyHoldSec
  let readinessTimeoutSec ← positiveParameter readinessTimeoutSec
  let tfMaxAge ← positiveParameter tfMaxAge
  let futureTolerance ← positiveParameter futureTolerance
  return ⟨readyHoldSec, readinessTimeoutSec, tfMaxAge, futureTolerance⟩

theorem positiveParameter_pos {value : Double K} {x : K} (h : positiveParameter value = some x) : 0 < x := by
  unfold positiveParameter at h
  split at h
  · cases h
  · next hvalid =>
    obtain rfl := Option.some.inj h
    simp only [Bool.or_eq_true, decide_eq_true_eq, not_or, not_le] at hvalid
    exact hvalid.2

/-- What the constructor does not refuse is positive. -/
theorem Params.declare_pos {readyHoldSec readinessTimeoutSec tfMaxAge futureTolerance : Double K}
    {p : Params K} (h : declare readyHoldSec readinessTimeoutSec tfMaxAge futureTolerance = some p) :
    0 < p.readyHoldSec ∧ 0 < p.readinessTimeoutSec ∧ 0 < p.tfMaxAge ∧ 0 < p.futureTolerance := by
  obtain ⟨a, ha, b, hb, c, hc, d, hd, heq⟩ : ∃ a, positiveParameter readyHoldSec = some a ∧
      ∃ b, positiveParameter readinessTimeoutSec = some b ∧ ∃ c, positiveParameter tfMaxAge = some c ∧
        ∃ d, positiveParameter futureTolerance = some d ∧ (⟨a, b, c, d⟩ : Params K) = p := by
    simpa [declare, Option.bind_eq_some_iff] using h
  subst heq
  exact ⟨positiveParameter_pos ha, positiveParameter_pos hb, positiveParameter_pos hc,
    positiveParameter_pos hd⟩

/-- `found` has the stamp of the transform and the clock read next. -/
inductive Lookup
  | transformException
  | found (stamp : Time) (clock : TimePoint)

/-- One required link of the chain; `none` is an exception that is not a `TransformException`. -/
def linkIsFresh (p : Params K) : Lookup → Option Bool
  | .transformException => some false
  | .found stamp clock => do
    let stamp ← stamp.nanoseconds?
    let age : K := elapsed clock stamp
    return decide (-p.futureTolerance ≤ age) && decide (age ≤ p.tfMaxAge)

def tfIsFresh (p : Params K) : List Lookup → Option Bool
  | [] => some true
  | link :: links => do
    if ← linkIsFresh p link then tfIsFresh p links else return false

/-- `done` and `result` are those of the future, where there is one; `none` is a
result that raises. `submitted` tells whether `call_async` returned. -/
structure TickInput (K : Type*) where
  mapOdom : Lookup
  odomBase : Lookup
  mapBase : Lookup
  now : K
  serviceIsReady : Bool
  submitted : Bool
  done : Bool
  result : Option Bool

structure Gate (K : Type*) where
  hold : ReadinessHold K
  future : Bool
  finished : Bool
  exitCode : ℕ

def Gate.init (p : Params K) : Gate K :=
  { hold := .init p.readyHoldSec p.readinessTimeoutSec, future := false, finished := false,
    exitCode := 0 }

/-- `startup` is the submission of the `STARTUP` request, `raised` an exception that leaves the tick. -/
inductive Occurrence (K : Type*)
  | received (ready : Bool) (now : K)
  | observed (tfValid : Bool) (now : K) (qualified : Bool)
  | startup
  | raised
  deriving DecidableEq

inductive Event (K : Type*)
  | onReady (data : Bool) (now : K)
  | tick (input : TickInput K)

abbrev GateReaction (K : Type*) := Reaction (Gate K) (Occurrence K)

def onReady (data : Bool) (now : K) (g : Gate K) : GateReaction K :=
  ({ g with hold := g.hold.receive data now }, [.received data now])

/-- The future is done: whatever it holds, the node is finished. -/
def conclude (result : Option Bool) (g : Gate K) : Gate K :=
  { g with finished := true, exitCode := if result = some true then g.exitCode else 1 }

def tick (p : Params K) (i : TickInput K) (g : Gate K) : GateReaction K :=
  if g.finished then (g, [])
  else if g.future then
    if i.done then (conclude i.result g, []) else (g, [])
  else
    match tfIsFresh p [i.mapOdom, i.odomBase, i.mapBase] with
    | none => (g, [.raised])
    | some tfValid =>
      let observed := g.hold.observe tfValid i.now
      let g := { g with hold := observed.1 }
      let said := Occurrence.observed tfValid i.now observed.2
      if !observed.2 || !i.serviceIsReady then (g, [said])
      -- Never resubmit: whether the call returns or raises, this branch is closed for good.
      else if i.submitted then ({ g with future := true }, [said, .startup])
      else ({ g with exitCode := 1, finished := true }, [said, .startup])

def step (p : Params K) : Event K → Gate K → GateReaction K
  | .onReady data now => onReady data now
  | .tick i => tick p i

/-- The calls of the hold among what has happened. -/
def Occurrence.call : Occurrence K → Option (Call K)
  | .received ready now => some (.receive ready now)
  | .observed tfValid now _ => some (.observe tfValid now)
  | .startup => none
  | .raised => none

def Occurrence.isStartup : Occurrence K → Bool
  | .startup => true
  | _ => false

/-- The number of `STARTUP` requests. -/
def startups (trace : List (Occurrence K)) : ℕ := trace.countP Occurrence.isStartup

/-! ### What a tick can do -/

/-- The hold has made its observation, and `startup` tells whether a request followed it. -/
structure Observed (p : Params K) (i : TickInput K) (g g' : Gate K) (tfValid : Bool) : Prop where
  idle : g.finished = false ∧ g.future = false
  fresh : tfIsFresh p [i.mapOdom, i.odomBase, i.mapBase] = some tfValid
  hold : g'.hold = (g.hold.observe tfValid i.now).1

theorem tick_cases (p : Params K) (i : TickInput K) (g : Gate K) :
    (∃ g', tick p i g = (g', []) ∧ g'.hold = g.hold ∧
      (g'.future = true ∨ g'.finished = true)) ∨
    tick p i g = (g, [.raised]) ∨
    (∃ g' tfValid, Observed p i g g' tfValid ∧
      tick p i g = (g', [.observed tfValid i.now (g.hold.observe tfValid i.now).2])) ∨
    (∃ g' tfValid, Observed p i g g' tfValid ∧ (g.hold.observe tfValid i.now).2 = true ∧
      (g'.future = true ∨ g'.finished = true) ∧
      tick p i g = (g', [.observed tfValid i.now true, .startup])) := by
  cases hfin : g.finished with
  | true => exact Or.inl ⟨g, by simp [tick, hfin], rfl, Or.inr hfin⟩
  | false =>
    cases hfut : g.future with
    | true =>
      left
      cases hdone : i.done with
      | true => exact ⟨conclude i.result g, by simp [tick, hfin, hfut, hdone], rfl, Or.inr rfl⟩
      | false => exact ⟨g, by simp [tick, hfin, hfut, hdone], rfl, Or.inl hfut⟩
    | false =>
      right
      cases hfresh : tfIsFresh p [i.mapOdom, i.odomBase, i.mapBase] with
      | none => exact Or.inl (by simp [tick, hfin, hfut, hfresh])
      | some tfValid =>
        right
        set hold := (g.hold.observe tfValid i.now).1 with hhold
        have observed : ∀ g' : Gate K, g'.hold = hold → Observed p i g g' tfValid := by
          intro g' hg'
          exact ⟨⟨hfin, hfut⟩, hfresh, hg'⟩
        cases hq : (g.hold.observe tfValid i.now).2 with
        | false =>
          refine Or.inl ⟨{ g with hold }, tfValid, observed _ rfl, ?_⟩
          simp [tick, hfin, hfut, hfresh, hq, hhold]
        | true =>
          cases hservice : i.serviceIsReady with
          | false =>
            refine Or.inl ⟨{ g with hold }, tfValid, observed _ rfl, ?_⟩
            simp [tick, hfin, hfut, hfresh, hq, hservice, hhold]
          | true =>
            right
            cases hsub : i.submitted with
            | true =>
              refine ⟨{ g with hold, future := true }, tfValid, observed _ rfl, hq, Or.inl rfl, ?_⟩
              simp [tick, hfin, hfut, hfresh, hq, hservice, hsub, hhold]
            | false =>
              refine ⟨{ g with hold, exitCode := 1, finished := true }, tfValid, observed _ rfl,
                hq, Or.inr rfl, ?_⟩
              simp [tick, hfin, hfut, hfresh, hq, hservice, hsub, hhold]

/-! ### Runs -/

section Run

variable (p : Params K)

/-- What every run keeps: the hold is what its calls make of it, and a request
closes the way to another one. -/
structure Submitted (g : Gate K) (trace : List (Occurrence K)) : Prop where
  hold : g.hold = performAll (.init p.readyHoldSec p.readinessTimeoutSec)
    (trace.filterMap Occurrence.call)
  once : startups trace ≤ 1
  closed : startups trace = 1 → g.future = true ∨ g.finished = true

theorem submitted_init : Submitted p (.init p) [] := by
  refine ⟨rfl, Nat.zero_le _, ?_⟩
  intro h
  cases h

variable {p} {g : Gate K} {trace : List (Occurrence K)}

theorem Submitted.onReady (h : Submitted p g trace) (data : Bool) (now : K) :
    Keeps (Submitted p) trace (onReady data now g) := by
  have hcount : startups (trace ++ [.received data now]) = startups trace := by
    simp [startups, Occurrence.isStartup]
  refine ⟨?_, ?_, ?_⟩
  · show g.hold.receive data now = _
    rw [Startup.onReady, List.filterMap_append, h.hold]
    exact (performAll_snoc _ _ (.receive data now)).symm
  · rw [Startup.onReady, hcount]
    exact h.once
  · rw [Startup.onReady, hcount]
    exact h.closed

theorem Submitted.tick (h : Submitted p g trace) (i : TickInput K) :
    Keeps (Submitted p) trace (tick p i g) := by
  have held : ∀ (tfValid qualified : Bool),
      (g.hold.observe tfValid i.now).1 = performAll (.init p.readyHoldSec p.readinessTimeoutSec)
        ((trace ++ [Occurrence.observed tfValid i.now qualified]).filterMap Occurrence.call) := by
    intro tfValid qualified
    rw [List.filterMap_append, h.hold]
    exact (performAll_snoc _ _ (.observe tfValid i.now)).symm
  rcases tick_cases p i g with ⟨g', heq, hhold, hclosed⟩ | heq | ⟨g', tfValid, ho, heq⟩ |
    ⟨g', tfValid, ho, hq, hclosed, heq⟩
  · rw [heq]
    refine ⟨?_, ?_, fun _ => hclosed⟩
    · rw [List.append_nil, hhold]
      exact h.hold
    · rw [List.append_nil]
      exact h.once
  · rw [heq]
    have hcount : startups (trace ++ [.raised]) = startups trace := by
      simp [startups, Occurrence.isStartup]
    refine ⟨?_, by rw [hcount]; exact h.once, by rw [hcount]; exact h.closed⟩
    have hcall : [Occurrence.raised (K := K)].filterMap Occurrence.call = [] := rfl
    rw [List.filterMap_append, hcall, List.append_nil]
    exact h.hold
  all_goals
    have hnone : startups trace = 0 := by
      have honce := h.once
      by_contra hne
      have hclosed := h.closed (by omega)
      rw [ho.idle.1, ho.idle.2] at hclosed
      simp at hclosed
  · rw [heq]
    have hcount : startups (trace ++ [.observed tfValid i.now (g.hold.observe tfValid i.now).2]) =
        0 := by
      simpa [startups, Occurrence.isStartup] using hnone
    refine ⟨by rw [ho.hold]; exact held tfValid _, ?_, ?_⟩
    · rw [hcount]
      exact Nat.zero_le 1
    · rw [hcount]
      intro hone
      cases hone
  · rw [heq]
    have hcount : startups (trace ++ [.observed tfValid i.now true, .startup]) = 1 := by
      rw [startups, List.countP_append, ← startups, hnone]
      rfl
    refine ⟨?_, hcount.le, fun _ => hclosed⟩
    rw [ho.hold, held tfValid true, List.filterMap_append, List.filterMap_append]
    rfl

variable (p)

theorem run_submitted (events : List (Event K)) :
    Submitted p (run (step p) (.init p) events).1 (run (step p) (.init p) events).2 := by
  induction events using List.reverseRecOn with
  | nil => exact submitted_init p
  | append_singleton events e ih =>
    rw [run_snoc]
    cases e with
    | onReady data now => exact ih.onReady data now
    | tick i => exact ih.tick i

variable {p}

/-- A request is submitted only by a tick, right after its own observation has qualified. -/
theorem startup_qualified {e : Event K} (h : .startup ∈ (step p e g).2) :
    ∃ i tfValid, e = .tick i ∧ tfIsFresh p [i.mapOdom, i.odomBase, i.mapBase] = some tfValid ∧
      (step p e g).2 = [.observed tfValid i.now true, .startup] ∧
      (g.hold.observe tfValid i.now).2 = true := by
  cases e with
  | onReady data now => simp [step, onReady] at h
  | tick i =>
    rcases tick_cases p i g with ⟨g', heq, -⟩ | heq | ⟨g', tfValid, -, heq⟩ |
      ⟨g', tfValid, ho, hq, -, heq⟩
    · simp [step, heq] at h
    · simp [step, heq] at h
    · simp [step, heq] at h
    · exact ⟨i, tfValid, rfl, ho.fresh, by rw [step, heq], hq⟩

end Run

/-! ### The gate as a whole -/

variable [IsStrictOrderedRing K]

/-- A hold that has lasted is exactly an unbroken stretch of healthy observations and
heartbeats at least `holdSec` long; and whatever the future does, a run of the node
submits one request at most, in a tick whose own observation has qualified. -/
theorem startup_gate :
    (∀ (H T : K) (calls : List (Call K)) (tfValid : Bool) (now : K), 0 < H → 0 < T →
      ((calls ++ [Call.observe tfValid now]).map Call.now).Pairwise (· ≤ ·) →
      (((performAll (.init H T) calls).observe tfValid now).2 = true ↔
        ∃ s, now - s ≥ H ∧
          Since (Sound T) (fun _ => ObservedAt s) (calls ++ [.observe tfValid now]))) ∧
    ∀ (p : Params K) (events : List (Event K)),
      startups (run (step p) (.init p) events).2 ≤ 1 ∧
      ∀ before e after, events = before ++ e :: after →
        .startup ∈ (step p e (run (step p) (.init p) before).1).2 →
        ∃ i tfValid, e = .tick i ∧ tfIsFresh p [i.mapOdom, i.odomBase, i.mapBase] = some tfValid ∧
          ((run (step p) (.init p) before).1.hold.observe tfValid i.now).2 = true := by
  constructor
  · intro H T calls tfValid now hH _ ht
    obtain ⟨hcalls, hnow⟩ := now_le_of_pairwise ht
    have h := (follows_performAll H T calls hcalls).observe_iff tfValid now hnow
      (by rw [performAll_holdSec]; exact hH)
    rw [performAll_holdSec, performAll_timeout] at h
    exact h
  · intro p events
    refine ⟨(run_submitted p events).once, ?_⟩
    intro before e after _ he
    obtain ⟨i, tfValid, rfl, hfresh, -, hq⟩ := startup_qualified he
    exact ⟨i, tfValid, rfl, hfresh, hq⟩

def sampleParams : Params ℚ :=
  { readyHoldSec := 1 / 2, readinessTimeoutSec := 1 / 4, tfMaxAge := 1, futureTolerance := 1 / 20 }

/-- Fresh transforms, a service that is there and a request that is never answered. -/
def sampleTick (now : ℚ) : TickInput ℚ :=
  let link := Lookup.found ⟨1, 0⟩ 1000000000
  { mapOdom := link, odomBase := link, mapBase := link, now, serviceIsReady := true,
    submitted := true, done := false, result := none }

/-- A heartbeat every fifth of a second, watched from the first one on. -/
def sampleEvents : List (Event ℚ) :=
  [.onReady true 0, .tick (sampleTick 0), .onReady true (1 / 5), .onReady true (2 / 5)]

theorem startup_gate_sample :
    (∃ s : ℚ, 1 / 2 - s ≥ 1 / 2 ∧ Since (Sound (1 / 4)) (fun _ => ObservedAt s)
      ([.receive true 0, .observe true 0, .receive true (1 / 5), .receive true (2 / 5)] ++
        [.observe true (1 / 2)])) ∧
    ∃ i tfValid, Event.tick (sampleTick (1 / 2)) = .tick i ∧
      tfIsFresh sampleParams [i.mapOdom, i.odomBase, i.mapBase] = some tfValid ∧
      ((run (step sampleParams) (.init sampleParams) sampleEvents).1.hold.observe tfValid i.now).2
        = true := by
  constructor
  · refine (startup_gate.1 (1 / 2) (1 / 4) _ true (1 / 2) ?_ ?_ ?_).mp ?_
    · norm_num
    · norm_num
    · decide +kernel
    · decide +kernel
  · exact (startup_gate.2 sampleParams (sampleEvents ++ [.tick (sampleTick (1 / 2))])).2
      sampleEvents (.tick (sampleTick (1 / 2))) [] rfl (by decide +kernel)

end X2Navigation.Startup
