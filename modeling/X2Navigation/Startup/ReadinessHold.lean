import X2Navigation.Numeric.Double
import X2Navigation.Temporal.Since

/-! `ReadinessHold` of `nav2_localization_startup_gate.py`: how long the heartbeat
and the transforms have been healthy without a break. One timestamp carries the
whole history: a bad observation clears it, and so does a heartbeat that is
false or late. -/

namespace X2Navigation.Startup

open Temporal

variable {K : Type*} [Field K] [LinearOrder K]

structure ReadinessHold (K : Type*) where
  holdSec : K
  heartbeatTimeoutSec : K
  lastReceived : Option K
  ready : Bool
  since : Option K

namespace ReadinessHold

def init (holdSec heartbeatTimeoutSec : K) : ReadinessHold K :=
  { holdSec, heartbeatTimeoutSec, lastReceived := none, ready := false, since := none }

/-- `now - self.lastReceived > self.heartbeatTimeoutSec`, for a heartbeat received at `last`. -/
def late (h : ReadinessHold K) (now last : K) : Bool :=
  decide (now - last > h.heartbeatTimeoutSec)

def receive (ready : Bool) (now : K) (h : ReadinessHold K) : ReadinessHold K :=
  { h with
    since := if !ready || h.lastReceived.any (h.late now) then none else h.since
    ready := ready
    lastReceived := some now }

def observe (tfValid : Bool) (now : K) (h : ReadinessHold K) : ReadinessHold K × Bool :=
  if !h.ready || h.lastReceived.all (h.late now) || !tfValid then
    ({ h with since := none }, false)
  else
    let since := h.since.getD now
    ({ h with since := some since }, decide (now - since ≥ h.holdSec))

end ReadinessHold

/-- A call of either entry point and the time it is given. -/
inductive Call (K : Type*)
  | receive (ready : Bool) (now : K)
  | observe (tfValid : Bool) (now : K)

namespace Call

def now : Call K → K
  | .receive _ now => now
  | .observe _ now => now

def perform (h : ReadinessHold K) : Call K → ReadinessHold K
  | .receive ready now => h.receive ready now
  | .observe tfValid now => (h.observe tfValid now).1

/-- What a `receive` says, and when. -/
def heartbeat : Call K → Option (Bool × K)
  | .receive ready now => some (ready, now)
  | .observe _ _ => none

end Call

def performAll (h : ReadinessHold K) (calls : List (Call K)) : ReadinessHold K :=
  calls.foldl Call.perform h

@[simp] theorem performAll_nil (h : ReadinessHold K) : performAll h [] = h := rfl

@[simp] theorem performAll_snoc (h : ReadinessHold K) (calls : List (Call K)) (c : Call K) :
    performAll h (calls ++ [c]) = c.perform (performAll h calls) := by
  simp [performAll]

/-! ### What the calls say -/

/-- The latest heartbeat. -/
def latest (calls : List (Call K)) : Option (Bool × K) :=
  (calls.filterMap Call.heartbeat).getLast?

/-- Nothing wrong with `c` after `calls`: an observation has valid transforms and
a latest heartbeat that is true and at most `T` old, a heartbeat is true and came
at most `T` after the one before it. -/
def Sound (T : K) (calls : List (Call K)) : Call K → Prop
  | .receive ready now => ready = true ∧ ∀ b ∈ latest calls, now - b.2 ≤ T
  | .observe tfValid now => tfValid = true ∧ ∃ t, latest calls = some (true, t) ∧ now - t ≤ T

/-- `c` is an observation at `s`. -/
def ObservedAt (s : K) (c : Call K) : Prop := ∃ tfValid, c = .observe tfValid s

section Latest
omit [Field K] [LinearOrder K]

@[simp] theorem latest_nil : latest ([] : List (Call K)) = none := rfl

@[simp] theorem latest_snoc_receive (calls : List (Call K)) (ready : Bool) (now : K) :
    latest (calls ++ [.receive ready now]) = some (ready, now) := by
  simp [latest, List.filterMap_append, Call.heartbeat]

@[simp] theorem latest_snoc_observe (calls : List (Call K)) (tfValid : Bool) (now : K) :
    latest (calls ++ [.observe tfValid now]) = latest calls := by
  simp [latest, List.filterMap_append, Call.heartbeat]

end Latest

section Step

variable (h : ReadinessHold K) {calls : List (Call K)}

@[simp] theorem perform_holdSec (c : Call K) : (c.perform h).holdSec = h.holdSec := by
  cases c with
  | receive ready now => rfl
  | observe tfValid now =>
    show (h.observe tfValid now).1.holdSec = h.holdSec
    rw [ReadinessHold.observe]
    split <;> rfl

@[simp] theorem perform_timeout (c : Call K) :
    (c.perform h).heartbeatTimeoutSec = h.heartbeatTimeoutSec := by
  cases c with
  | receive ready now => rfl
  | observe tfValid now =>
    show (h.observe tfValid now).1.heartbeatTimeoutSec = h.heartbeatTimeoutSec
    rw [ReadinessHold.observe]
    split <;> rfl

/-- Polling does not touch the heartbeat. -/
theorem perform_observe_heartbeat (tfValid : Bool) (now : K) :
    (Call.perform h (.observe tfValid now)).lastReceived = h.lastReceived ∧
      (Call.perform h (.observe tfValid now)).ready = h.ready := by
  rw [Call.perform, ReadinessHold.observe]
  split
  · exact ⟨rfl, rfl⟩
  · exact ⟨rfl, rfl⟩

variable {h}

theorem sound_receive_iff (hl : latest calls = h.lastReceived.map (h.ready, ·)) (ready : Bool)
    (now : K) : Sound h.heartbeatTimeoutSec calls (.receive ready now) ↔
      (!ready || h.lastReceived.any (h.late now)) = false := by
  rw [Sound, hl]
  cases hr : h.lastReceived with
  | none => simp
  | some t => simp [ReadinessHold.late]

theorem sound_observe_iff (hl : latest calls = h.lastReceived.map (h.ready, ·)) (tfValid : Bool)
    (now : K) : Sound h.heartbeatTimeoutSec calls (.observe tfValid now) ↔
      (!h.ready || h.lastReceived.all (h.late now) || !tfValid) = false := by
  rw [Sound, hl]
  cases hr : h.lastReceived with
  | none => simp
  | some t =>
    simp only [Option.map_some, Option.some.injEq, Prod.mk.injEq, Option.all_some,
      Bool.or_eq_false_iff, Bool.not_eq_false', ReadinessHold.late, decide_eq_false_iff_not,
      not_lt]
    constructor
    · rintro ⟨hv, t', ⟨hready, rfl⟩, ht⟩
      exact ⟨⟨hready, ht⟩, hv⟩
    · rintro ⟨⟨hready, ht⟩, hv⟩
      exact ⟨hv, t, ⟨hready, rfl⟩, ht⟩

open Classical in
/-- A call keeps the hold going exactly when nothing is wrong with it. -/
theorem perform_since (hl : latest calls = h.lastReceived.map (h.ready, ·)) (c : Call K) :
    (c.perform h).since =
      if Sound h.heartbeatTimeoutSec calls c then
        c.heartbeat.elim (some (h.since.getD c.now)) (fun _ => h.since)
      else none := by
  cases c with
  | receive ready now =>
    rw [if_congr (sound_receive_iff hl ready now) rfl rfl]
    show (if _ then none else h.since) = _
    cases hb : (!ready || h.lastReceived.any (h.late now)) with
    | true => rfl
    | false => rfl
  | observe tfValid now =>
    rw [if_congr (sound_observe_iff hl tfValid now) rfl rfl]
    show (h.observe tfValid now).1.since = _
    rw [ReadinessHold.observe]
    cases hb : (!h.ready || h.lastReceived.all (h.late now) || !tfValid) with
    | true => rfl
    | false => rfl

/-- What is said when nothing is wrong: the time since the hold began is long enough. -/
theorem observe_snd (hl : latest calls = h.lastReceived.map (h.ready, ·)) (tfValid : Bool)
    (now : K) : (h.observe tfValid now).2 = true ↔
      Sound h.heartbeatTimeoutSec calls (.observe tfValid now) ∧
        now - h.since.getD now ≥ h.holdSec := by
  rw [sound_observe_iff hl, ReadinessHold.observe]
  cases hb : (!h.ready || h.lastReceived.all (h.late now) || !tfValid) with
  | true => simp
  | false => simp

end Step

section Run

/-- `h` is what a fresh hold becomes after `calls`: it knows the latest heartbeat, and
its timestamp is the first observation of the stretch that nothing has broken. -/
structure Follows (h : ReadinessHold K) (calls : List (Call K)) : Prop where
  heartbeat : latest calls = h.lastReceived.map (h.ready, ·)
  started : ∀ s, h.since = some s →
    Since (Sound h.heartbeatTimeoutSec) (fun _ => ObservedAt s) calls
  earliest : ∀ s, Since (Sound h.heartbeatTimeoutSec) (fun _ => ObservedAt s) calls →
    ∃ s₀, h.since = some s₀ ∧ s₀ ≤ s

theorem follows_init (H T : K) : Follows (.init H T) [] := by
  refine ⟨rfl, ?_, ?_⟩
  · intro s hs
    cases hs
  · intro s hs
    exact absurd hs not_since_nil

variable {h : ReadinessHold K} {calls : List (Call K)}

/-- The stretch began at the time of one of the calls. -/
theorem Follows.since_mem (hf : Follows h calls) {s : K} (hs : h.since = some s) :
    ∃ c ∈ calls, c.now = s := by
  obtain ⟨before, e, after, rfl, ⟨b, rfl⟩, -⟩ := hf.started s hs
  exact ⟨.observe b s, by simp, rfl⟩

theorem Follows.perform_heartbeat (hf : Follows h calls) (c : Call K) :
    latest (calls ++ [c]) = (c.perform h).lastReceived.map ((c.perform h).ready, ·) := by
  cases c with
  | receive ready now => rw [latest_snoc_receive]; rfl
  | observe tfValid now =>
    obtain ⟨hlast, hready⟩ := perform_observe_heartbeat h tfValid now
    rw [latest_snoc_observe, hlast, hready, hf.heartbeat]

theorem Follows.perform_started (hf : Follows h calls) (c : Call K) {s : K}
    (hs : (c.perform h).since = some s) :
    Since (Sound h.heartbeatTimeoutSec) (fun _ => ObservedAt s) (calls ++ [c]) := by
  rw [perform_since hf.heartbeat] at hs
  split at hs
  · next hsound =>
    rw [since_snoc]
    refine ⟨hsound, ?_⟩
    cases c with
    | receive ready now => exact Or.inr (hf.started s hs)
    | observe tfValid now =>
      cases hold : h.since with
      | none =>
        have hnow : now = s := by simpa [Call.heartbeat, hold, Call.now] using hs
        exact Or.inl ⟨tfValid, by rw [hnow]⟩
      | some s' =>
        have hsame : s' = s := by simpa [Call.heartbeat, hold] using hs
        exact Or.inr (hf.started s (by rw [hold, hsame]))
  · cases hs

theorem Follows.perform_earliest (hf : Follows h calls) (c : Call K)
    (hnow : ∀ c' ∈ calls, c'.now ≤ c.now) {s : K}
    (hs : Since (Sound h.heartbeatTimeoutSec) (fun _ => ObservedAt s) (calls ++ [c])) :
    ∃ s₀, (c.perform h).since = some s₀ ∧ s₀ ≤ s := by
  rw [since_snoc] at hs
  obtain ⟨hsound, hs⟩ := hs
  rw [perform_since hf.heartbeat, if_pos hsound]
  rcases hs with ⟨tfValid, rfl⟩ | hs
  · show ∃ s₀, some (h.since.getD s) = some s₀ ∧ s₀ ≤ s
    refine ⟨h.since.getD s, rfl, ?_⟩
    cases hold : h.since with
    | none => exact le_refl s
    | some s' =>
      obtain ⟨c', hc', rfl⟩ := hf.since_mem hold
      exact hnow c' hc'
  · obtain ⟨s₀, hs₀, hle⟩ := hf.earliest s hs
    refine ⟨s₀, ?_, hle⟩
    cases c with
    | receive ready now => exact hs₀
    | observe tfValid now => simp [Call.heartbeat, hs₀]

theorem Follows.perform (hf : Follows h calls) (c : Call K)
    (hnow : ∀ c' ∈ calls, c'.now ≤ c.now) : Follows (c.perform h) (calls ++ [c]) := by
  refine ⟨hf.perform_heartbeat c, ?_, ?_⟩
  · intro s hs
    rw [perform_timeout]
    exact hf.perform_started c hs
  · intro s hs
    rw [perform_timeout] at hs
    exact hf.perform_earliest c hnow hs

@[simp] theorem performAll_holdSec (h : ReadinessHold K) (calls : List (Call K)) :
    (performAll h calls).holdSec = h.holdSec := by
  induction calls using List.reverseRecOn with
  | nil => rfl
  | append_singleton calls c ih => rw [performAll_snoc, perform_holdSec, ih]

@[simp] theorem performAll_timeout (h : ReadinessHold K) (calls : List (Call K)) :
    (performAll h calls).heartbeatTimeoutSec = h.heartbeatTimeoutSec := by
  induction calls using List.reverseRecOn with
  | nil => rfl
  | append_singleton calls c ih => rw [performAll_snoc, perform_timeout, ih]

omit [Field K] in
/-- Times that do not go back: every call is at or after the ones before it. -/
theorem now_le_of_pairwise {calls : List (Call K)} {c : Call K}
    (ht : ((calls ++ [c]).map Call.now).Pairwise (· ≤ ·)) :
    (calls.map Call.now).Pairwise (· ≤ ·) ∧ ∀ c' ∈ calls, c'.now ≤ c.now := by
  rw [List.map_append, List.pairwise_append] at ht
  obtain ⟨hcalls, -, hle⟩ := ht
  refine ⟨hcalls, ?_⟩
  intro c' hc'
  exact hle c'.now (List.mem_map_of_mem hc') c.now (by simp)

theorem follows_performAll (H T : K) (calls : List (Call K))
    (ht : (calls.map Call.now).Pairwise (· ≤ ·)) :
    Follows (performAll (.init H T) calls) calls := by
  induction calls using List.reverseRecOn with
  | nil => exact follows_init H T
  | append_singleton calls c ih =>
    obtain ⟨hcalls, hle⟩ := now_le_of_pairwise ht
    rw [performAll_snoc]
    exact (ih hcalls).perform c hle

variable [IsStrictOrderedRing K]

/-- An observation qualifies exactly when some observation at least `holdSec` before it
began a stretch that nothing has broken since. -/
theorem Follows.observe_iff (hf : Follows h calls) (tfValid : Bool) (now : K)
    (hnow : ∀ c ∈ calls, c.now ≤ now) (hpos : 0 < h.holdSec) :
    (h.observe tfValid now).2 = true ↔
      ∃ s, now - s ≥ h.holdSec ∧
        Since (Sound h.heartbeatTimeoutSec) (fun _ => ObservedAt s)
          (calls ++ [.observe tfValid now]) := by
  rw [observe_snd hf.heartbeat]
  constructor
  · rintro ⟨hsound, hlong⟩
    cases hold : h.since with
    | none =>
      rw [hold, Option.getD_none, sub_self] at hlong
      exact absurd hpos (not_lt.mpr hlong)
    | some s =>
      rw [hold] at hlong
      exact ⟨s, hlong, (since_snoc _ _).mpr ⟨hsound, Or.inr (hf.started s hold)⟩⟩
  · rintro ⟨s, hlong, hs⟩
    have hsound := ((since_snoc _ _).mp hs).1
    obtain ⟨s₀, hs₀, hle⟩ := hf.perform_earliest (.observe tfValid now) hnow hs
    refine ⟨hsound, ?_⟩
    have hbegan : h.since.getD now = s₀ := by
      rw [perform_since hf.heartbeat, if_pos hsound] at hs₀
      exact Option.some.inj hs₀
    rw [hbegan]
    linarith

end Run

end X2Navigation.Startup
