import X2Navigation.Interaction.Discipline
import X2Navigation.Server.Operations

/-! How an operation thread has to behave, whatever it is answered. Before it ends
it has stopped the alignment, and nothing was commanded since; it ends once, and
canceled only after it saw the cancellation; then it releases the server and does
nothing more. Once it has seen a navigation action, and not seen it gone again, it
only winds down and reports that. -/

namespace X2Navigation.FineAlignServer

open Interaction

/-- How much of `stopAlignment` has been done since the last command. -/
inductive Stop
  | no
  | inactive
  | cleared
  | done
  deriving DecidableEq

/-- What a thread has done and seen so far. `flickered` says that a navigation
action was seen and later found gone, `clock` is the last reading. -/
structure Conduct where
  stop : Stop
  canceling : Bool
  navigation : Bool
  flickered : Bool
  clock : Option TimePoint
  ended : Bool
  released : Bool

namespace Conduct

def start : Conduct := ⟨.no, false, false, false, none, false, false⟩

/-- Has to report the navigation action. -/
def Bound (g : Conduct) : Prop := g.navigation = true ∧ g.flickered = false ∧ g.canceling = false

/-- Still at work, and not in the middle of stopping. -/
structure Working (g : Conduct) : Prop where
  ended : g.ended = false
  released : g.released = false
  stop : g.stop = .no ∨ g.stop = .done

structure Free (g : Conduct) : Prop extends Working g where
  unbound : ¬ g.Bound

end Conduct

open Conduct

variable {K : Type}

/-- What may still be done while winding down. -/
def Op.IsWindDown : Op K → Bool
  | .isCanceling | .navigationActive | .setAlignmentActive false => true
  | _ => false

/-- The clock reading a command is written with. -/
def Op.writtenWith? : Op K → Option TimePoint
  | .writeCommand _ time => time
  | .writeRotation _ time => some time
  | _ => none

def Conduct.allows (g : Conduct) : Op K → Prop
  | .terminate outcome result => g.stop = .done ∧ g.ended = false ∧ g.released = false ∧
      (outcome = .canceled → g.canceling = true) ∧
      (g.Bound → outcome = .abort ∧ result.IsNavigationActive)
  | .release => g.stop = .done ∧ g.ended = true ∧ g.released = false
  | .clearCommand => g.stop = .inactive ∧ g.ended = false ∧ g.released = false
  | .publishZero => g.stop = .cleared ∧ g.ended = false ∧ g.released = false
  | o => g.Working ∧ (g.Bound → o.IsWindDown = true) ∧ (∀ t ∈ o.writtenWith?, g.clock = some t)

def Conduct.next (g : Conduct) : (o : Op K) → o.Answer → Conduct
  | .isCanceling, a => { g with canceling := g.canceling || a }
  | .navigationActive, a => { g with
      navigation := g.navigation || a, flickered := g.flickered || (g.navigation && !a) }
  | .steadyNow, t => { g with clock := some t }
  | .setAlignmentActive false, _ => { g with stop := .inactive }
  | .setAlignmentActive true, _ => { g with stop := .no }
  | .writeCommand _ _, _ => { g with stop := .no }
  | .writeRotation _ _, _ => { g with stop := .no }
  | .clearCommand, _ => { g with stop := .cleared }
  | .publishZero, _ => { g with stop := .done }
  | .terminate _ _, _ => { g with ended := true }
  | .release, _ => { g with released := true }
  | _, _ => g

abbrev conduct (K : Type) : Discipline (interface K) := ⟨Conduct, Conduct.allows, Conduct.next⟩

/-- An operation that neither ends nor stops anything, and reads neither of the two
causes to end. -/
def Op.IsNeutral : Op K → Bool
  | .isCanceling | .navigationActive | .clearCommand | .publishZero | .terminate _ _ | .release =>
    false
  | .setAlignmentActive active => active
  | _ => true

section Rules
variable {α β : Type} {g : Conduct} {Q : α → Conduct → Prop}

theorem Conduct.Free.next_neutral {o : Op K} (ho : o.IsNeutral = true) (h : g.Free) (a : o.Answer) :
    (g.next o a).Free := by
  obtain ⟨⟨he, hr, hs⟩, hb⟩ := h
  cases o with
  | setAlignmentActive active =>
    cases active with
    | true => exact ⟨⟨he, hr, .inl rfl⟩, hb⟩
    | false => cases ho
  | writeCommand | writeRotation => exact ⟨⟨he, hr, .inl rfl⟩, hb⟩
  | isCanceling | navigationActive | clearCommand | publishZero | terminate | release => cases ho
  | _ => exact ⟨⟨he, hr, hs⟩, hb⟩

theorem Conduct.Free.allows_neutral {o : Op K} (ho : o.IsNeutral = true) (h : g.Free)
    (ht : ∀ t ∈ o.writtenWith?, g.clock = some t) : g.allows o := by
  cases o with
  | isCanceling | navigationActive | clearCommand | publishZero | terminate | release => cases ho
  | _ => exact ⟨h.toWorking, fun hb => absurd hb h.unbound, ht⟩

/-- The clock reading in force after a neutral operation. -/
theorem clock_next_neutral {o : Op K} (ho : o.IsNeutral = true) (a : o.Answer)
    (h : o ≠ .steadyNow) : (g.next o a).clock = g.clock := by
  cases o with
  | setAlignmentActive active => cases active <;> rfl
  | isCanceling | navigationActive | clearCommand | publishZero | terminate | release => cases ho
  | steadyNow => exact absurd rfl h
  | _ => rfl

theorem safe_call {o : Op K} {Q : o.Answer → Conduct → Prop} (hal : g.allows o)
    (hq : ∀ a, Q a (g.next o a)) : (conduct K).Safe g (call o) Q :=
  Discipline.safe_perform.mpr ⟨fun _ => hal, fun a => Discipline.safe_pure.mpr (hq a)⟩

theorem safe_call_bind {o : Op K} {k : o.Answer → Operation K α} (hal : g.allows o)
    (hk : ∀ a, (conduct K).Safe (g.next o a) (k a) Q) : (conduct K).Safe g (call o >>= k) Q :=
  Discipline.safe_act_bind.mpr ⟨fun _ => hal, hk⟩

theorem safe_bind {p : Operation K β} {k : β → Operation K α} {R : β → Conduct → Prop}
    (hp : (conduct K).Safe g p R) (hk : ∀ b g', R b g' → (conduct K).Safe g' (k b) Q) :
    (conduct K).Safe g (p >>= k) Q := Discipline.Safe.bind hp hk

theorem safe_return {a : α} (h : Q a g) : (conduct K).Safe g (pure a) Q :=
  Discipline.safe_pure.mpr h

theorem safe_ite {c : Prop} [Decidable c] {p q : Operation K α}
    (hp : c → (conduct K).Safe g p Q) (hq : ¬ c → (conduct K).Safe g q Q) :
    (conduct K).Safe g (if c then p else q) Q := Discipline.safe_ite hp hq

theorem safe_neutral {o : Op K} {k : o.Answer → Operation K α} (h : g.Free)
    (ho : o.IsNeutral = true) (ht : ∀ t ∈ o.writtenWith?, g.clock = some t)
    (hk : ∀ a g', g'.Free → (o ≠ .steadyNow → g'.clock = g.clock) → (conduct K).Safe g' (k a) Q) :
    (conduct K).Safe g (call o >>= k) Q :=
  safe_call_bind (h.allows_neutral ho ht) fun a =>
    hk a _ (h.next_neutral ho a) (clock_next_neutral ho a)

theorem safe_steadyNow {k : TimePoint → Operation K α} (h : g.Free)
    (hk : ∀ t g', g'.Free → g'.clock = some t → (conduct K).Safe g' (k t) Q) :
    (conduct K).Safe g (steadyNow >>= k) Q :=
  safe_call_bind (h.allows_neutral rfl nofun) fun t => hk t _ (h.next_neutral rfl t) rfl

/-- Nothing has to be reported once the cancellation was seen. -/
theorem safe_isCanceling {k : Bool → Operation K α} (h : g.Working)
    (hyes : ∀ g', g'.Free → g'.canceling = true → g'.stop = g.stop →
      (conduct K).Safe g' (k true) Q)
    (hno : (conduct K).Safe g (k false) Q) : (conduct K).Safe g (isCanceling >>= k) Q := by
  refine safe_call_bind ⟨h, fun _ => rfl, nofun⟩ fun a => ?_
  cases a with
  | true =>
    refine hyes _ ⟨⟨h.ended, h.released, h.stop⟩, ?_⟩ (Bool.or_true _) rfl
    rintro ⟨-, -, hc⟩
    simp [Conduct.next] at hc
  | false =>
    have hg : g.next (K := K) .isCanceling false = g := by simp [Conduct.next]
    rwa [← hg] at hno

/-- A thread that finds no navigation action is free. -/
theorem safe_navigationActive {k : Bool → Operation K α} (h : g.Working)
    (hyes : ∀ g', g'.Working → g'.clock = g.clock → (conduct K).Safe g' (k true) Q)
    (hno : ∀ g', g'.Free → g'.clock = g.clock → (conduct K).Safe g' (k false) Q) :
    (conduct K).Safe g (navigationActive >>= k) Q := by
  refine safe_call_bind ⟨h, fun _ => rfl, nofun⟩ fun a => ?_
  cases a with
  | true => exact hyes _ ⟨h.ended, h.released, h.stop⟩ rfl
  | false =>
    refine hno _ ⟨⟨h.ended, h.released, h.stop⟩, ?_⟩ rfl
    rintro ⟨hn, hf, -⟩
    simp [Conduct.next] at hn hf
    simp [hn] at hf

/-- The loops of the bodies start every pass free. -/
theorem safe_whileOk {σ : Type} {body : Bool → σ → Operation K (σ ⊕ α)} {x : σ} (h : g.Free)
    (hbody : ∀ x g running, g.Free → (conduct K).Safe g (body running x)
      fun r g => Sum.elim (fun _ => g.Free) (Q · g) r) :
    (conduct K).Safe g (.repeatWhile .ok body x) Q := by
  refine Discipline.safe_repeatWhile (fun _ g => Conduct.Free g) (fun _ g h => ?_) ?_ h
  · exact Conduct.Free.allows_neutral (K := K) (o := .ok) rfl h nofun
  · exact fun x g running h =>
      hbody x _ running (Conduct.Free.next_neutral (K := K) (o := .ok) rfl h running)

end Rules

end X2Navigation.FineAlignServer
