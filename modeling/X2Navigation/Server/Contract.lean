import Mathlib.Data.List.Induction
import X2Navigation.Server.Duties

/-! What the conduct of a body means for its run: how every finished run ends, and
what becomes of a run that has seen a navigation action. -/

namespace X2Navigation.FineAlignServer

open Interaction

variable {K : Type}

namespace Op

/-- The terminal call or the release. -/
def Ends : Op K → Bool
  | .terminate _ _ | .release => true
  | _ => false

/-- Stops the alignment, reads a cause to end, or ends. -/
def WindsDown : Op K → Bool
  | .isCanceling | .navigationActive | .setAlignmentActive false | .clearCommand | .publishZero
  | .terminate _ _ | .release => true
  | _ => false

end Op

/-- The three steps of `stopAlignment`. -/
def stopCalls : List (OpEvent K) :=
  [⟨.setAlignmentActive false, ()⟩, ⟨.clearCommand, ()⟩, ⟨.publishZero, ()⟩]

/-- The alignment was stopped and nothing armed since. -/
def Stopped (tr : List (OpEvent K)) : Prop :=
  ∃ earlier later, tr = earlier ++ stopCalls ++ later ∧ ∀ e ∈ later, e.1.Arms = false

/-- How a finished run looks: one terminal call on a stopped alignment, canceled only
after the cancellation was seen, and after it one release. -/
def Concluded (tr : List (OpEvent K)) (outcome : Outcome) (result : Result K) : Prop :=
  ∃ before, tr = before ++ [⟨.terminate outcome result, ()⟩, ⟨.release, ()⟩] ∧
    (∀ e ∈ before, e.1.Ends = false) ∧ Stopped before ∧
    (outcome = .canceled → ⟨.isCanceling, true⟩ ∈ before)

/-- What is left of a stop in progress at the end of a run. -/
def StopTrace (tr : List (OpEvent K)) : Stop → Prop
  | .no => True
  | .inactive => ∃ earlier, tr = earlier ++ [⟨.setAlignmentActive false, ()⟩]
  | .cleared => ∃ earlier, tr = earlier ++ [⟨.setAlignmentActive false, ()⟩, ⟨.clearCommand, ()⟩]
  | .done => Stopped tr

/-! ### The conduct after a run -/

section Ghost
variable {tr : List (OpEvent K)}

abbrev conductAfter (tr : List (OpEvent K)) : Conduct := (conduct K).after .start tr

abbrev Obedient (tr : List (OpEvent K)) : Prop := (conduct K).Obeys .start tr

theorem conductAfter_snoc (tr : List (OpEvent K)) (e : OpEvent K) :
    conductAfter (tr ++ [e]) = (conductAfter tr).next e.1 e.2 := by
  simp [conductAfter]

theorem obedient_snoc {e : OpEvent K} :
    Obedient (tr ++ [e]) ↔ Obedient tr ∧ (conductAfter tr).allows e.1 := Discipline.obeys_snoc

/-- A flag that one event sets and none clears. -/
theorem flag_after {flag : Conduct → Bool} {event : OpEvent K} (hstart : flag .start = false)
    (hnext : ∀ (c : Conduct) (e : OpEvent K),
      flag (c.next e.1 e.2) = true ↔ flag c = true ∨ event = e) :
    flag (conductAfter tr) = true ↔ event ∈ tr := by
  induction tr using List.reverseRecOn with
  | nil => simp [conductAfter, hstart]
  | append_singleton tr e ih =>
    rw [conductAfter_snoc, hnext, ih, List.mem_append, List.mem_singleton]

theorem canceling_after : (conductAfter tr).canceling = true ↔ ⟨.isCanceling, true⟩ ∈ tr := by
  refine flag_after rfl fun c e => ?_
  obtain ⟨o, a⟩ := e
  cases o with
  | isCanceling => cases a <;> simp [Conduct.next]
  | setAlignmentActive active => cases active <;> simp [Conduct.next]
  | _ => simp [Conduct.next]

theorem navigation_after : (conductAfter tr).navigation = true ↔ ⟨.navigationActive, true⟩ ∈ tr := by
  refine flag_after rfl fun c e => ?_
  obtain ⟨o, a⟩ := e
  cases o with
  | navigationActive => cases a <;> simp [Conduct.next]
  | setAlignmentActive active => cases active <;> simp [Conduct.next]
  | _ => simp [Conduct.next]

theorem released_after : (conductAfter tr).released = true ↔ ⟨.release, ()⟩ ∈ tr := by
  refine flag_after rfl fun c e => ?_
  obtain ⟨o, a⟩ := e
  cases o with
  | release => simp [Conduct.next]
  | setAlignmentActive active => cases active <;> simp [Conduct.next]
  | _ => simp [Conduct.next]

/-- A navigation action that is gone was seen before. -/
theorem flickered_after (h : (conductAfter tr).flickered = true) :
    ∃ before after, tr = before ++ ⟨.navigationActive, true⟩ :: after ∧
      ⟨.navigationActive, false⟩ ∈ after := by
  induction tr using List.reverseRecOn with
  | nil => simp [conductAfter, Conduct.start] at h
  | append_singleton tr e ih =>
    rw [conductAfter_snoc] at h
    have old (h : (conductAfter tr).flickered = true) : ∃ before after,
        tr ++ [e] = before ++ ⟨.navigationActive, true⟩ :: after ∧
          ⟨.navigationActive, false⟩ ∈ after := by
      obtain ⟨before, after, rfl, hmem⟩ := ih h
      exact ⟨before, after ++ [e], by simp, List.mem_append_left _ hmem⟩
    obtain ⟨o, a⟩ := e
    cases o with
    | navigationActive =>
      cases a with
      | true => exact old (by simpa [Conduct.next] using h)
      | false =>
        by_cases hf : (conductAfter tr).flickered = true
        · exact old hf
        · have hn : (conductAfter tr).navigation = true := by
            simpa [Conduct.next, hf] using h
          obtain ⟨before, after, rfl⟩ := List.append_of_mem (navigation_after.mp hn)
          exact ⟨before, after ++ [⟨.navigationActive, false⟩], by simp, by simp⟩
    | setAlignmentActive active => cases active <;> exact old h
    | _ => exact old h

/-- An operation that is allowed comes before the release, and before the terminal
call unless it is the release. -/
theorem Conduct.allows_open {g : Conduct} {o : Op K} (h : g.allows o) :
    g.released = false ∧ (g.ended = true → o = .release) := by
  cases o with
  | terminate outcome result => exact ⟨h.2.2.1, fun he => by simp [h.2.1] at he⟩
  | release => exact ⟨h.2.2, fun _ => rfl⟩
  | clearCommand | publishZero => exact ⟨h.2.2, fun he => by simp [h.2.1] at he⟩
  | _ => exact ⟨h.1.released, fun he => by simp [h.1.ended] at he⟩

theorem ended_after (h : (conductAfter tr).ended = false) (hr : (conductAfter tr).released = false) :
    ∀ e ∈ tr, e.1.Ends = false := by
  induction tr using List.reverseRecOn with
  | nil => simp
  | append_singleton tr e ih =>
    rw [conductAfter_snoc] at h hr
    obtain ⟨o, a⟩ := e
    have hrest : (conductAfter tr).ended = false ∧ (conductAfter tr).released = false ∧
        o.Ends = false := by
      cases o with
      | setAlignmentActive active => cases active <;> exact ⟨h, hr, rfl⟩
      | terminate outcome result => cases h
      | release => cases hr
      | _ => exact ⟨h, hr, rfl⟩
    intro e he
    obtain he | he := List.mem_append.mp he
    · exact ih hrest.1 hrest.2.1 e he
    · obtain rfl := List.mem_singleton.mp he
      exact hrest.2.2

theorem Stopped.snoc (h : Stopped tr) {e : OpEvent K} (he : e.1.Arms = false) :
    Stopped (tr ++ [e]) := by
  obtain ⟨earlier, later, rfl, hl⟩ := h
  refine ⟨earlier, later ++ [e], by simp, ?_⟩
  intro x hx
  obtain hx | hx := List.mem_append.mp hx
  · exact hl x hx
  · obtain rfl := List.mem_singleton.mp hx
    exact he

/-- The progress of a stop is the progress its calls made. -/
theorem Obedient.stopTrace (h : Obedient tr) : StopTrace tr (conductAfter tr).stop := by
  induction tr using List.reverseRecOn with
  | nil => trivial
  | append_singleton tr e ih =>
    obtain ⟨htr, he⟩ := obedient_snoc.mp h
    have ih := ih htr
    rw [conductAfter_snoc]
    obtain ⟨o, a⟩ := e
    -- an operation that keeps the progress is made before the stop or after it
    have keep (hs : (conductAfter tr).stop = .no ∨ (conductAfter tr).stop = .done)
        (ho : o.Arms = false) : StopTrace (tr ++ [⟨o, a⟩]) (conductAfter tr).stop := by
      obtain hs | hs := hs
      · rw [hs]
        trivial
      · rw [hs] at ih ⊢
        exact Stopped.snoc ih ho
    cases o with
    | setAlignmentActive active =>
      cases active with
      | true => trivial
      | false => exact ⟨tr, rfl⟩
    | writeCommand | writeRotation => trivial
    | clearCommand =>
      obtain ⟨hs, -⟩ := he
      rw [hs] at ih
      obtain ⟨earlier, rfl⟩ := ih
      exact ⟨earlier, by simp⟩
    | publishZero =>
      obtain ⟨hs, -⟩ := he
      rw [hs] at ih
      obtain ⟨earlier, rfl⟩ := ih
      exact ⟨earlier, [], by simp [stopCalls], by simp⟩
    | terminate outcome result => exact keep (.inr he.1) rfl
    | release => exact keep (.inr he.1) rfl
    | _ => exact keep he.1.stop rfl

/-- The last two operations of a released run. -/
theorem Obedient.conclusion (h : Obedient tr) (hr : (conductAfter tr).released = true) :
    ∃ before outcome result,
      tr = before ++ [⟨.terminate outcome result, ()⟩, ⟨.release, ()⟩] ∧ Obedient before ∧
        (conductAfter before).allows (K := K) (.terminate outcome result) := by
  cases tr using List.reverseRecOn with
  | nil => simp [conductAfter, Conduct.start] at hr
  | append_singleton tr e =>
    obtain ⟨htr, he⟩ := obedient_snoc.mp h
    obtain ⟨hopen, hended⟩ := Conduct.allows_open he
    rw [conductAfter_snoc] at hr
    obtain ⟨o, a⟩ := e
    have ho : o = .release ∧ (conductAfter tr).ended = true := by
      cases o with
      | release => exact ⟨rfl, he.2.1⟩
      | setAlignmentActive active => cases active <;> simp [Conduct.next, hopen] at hr
      | _ => simp [Conduct.next, hopen] at hr
    obtain ⟨rfl, hend⟩ := ho
    cases tr using List.reverseRecOn with
    | nil => simp [conductAfter, Conduct.start] at hend
    | append_singleton tr e =>
      obtain ⟨htr', he'⟩ := obedient_snoc.mp htr
      obtain ⟨-, hended'⟩ := Conduct.allows_open he'
      rw [conductAfter_snoc] at hend hopen
      obtain ⟨o', a'⟩ := e
      cases o' with
      | terminate outcome result =>
        obtain rfl : a' = () := rfl
        exact ⟨tr, outcome, result, by simp, htr', he'⟩
      | release => cases hopen
      | setAlignmentActive active =>
        cases active <;> cases hended' (by simpa [Conduct.next] using hend)
      | _ => cases hended' (by simpa [Conduct.next] using hend)

end Ghost

/-! ### Finished runs -/

section Finished
variable [Field K] [LinearOrder K] {m : Libm K} {settings : Settings K} {goal : Goal K}
  {tr : List (OpEvent K)}

theorem obedient_of_steps {p : Operation K Unit} (h : Program.Steps (body m settings goal) tr p) :
    Obedient tr := (safe_body m settings goal tr p h).1

/-- A thread that has released the server does nothing more. -/
theorem not_released_of_next {p p' : Operation K Unit} {e : OpEvent K}
    (h : Program.Steps (body m settings goal) tr p) (hn : Program.Next p e p') :
    ⟨.release, ()⟩ ∉ tr := by
  have hobeys : Obedient (tr ++ [e]) := obedient_of_steps (h.trans (.cons hn (.refl p')))
  have hopen := (Conduct.allows_open (obedient_snoc.mp hobeys).2).1
  rw [← released_after, hopen]
  exact Bool.false_ne_true

theorem concluded_of_runs (h : Program.Runs (body m settings goal) tr ()) :
    ∃ outcome result, Concluded tr outcome result := by
  obtain ⟨hobeys, hover⟩ := safe_body m settings goal tr _ h
  obtain ⟨before, outcome, result, rfl, hbefore, hal⟩ := Obedient.conclusion hobeys (hover () rfl)
  obtain ⟨hs, he, hr, hc, -⟩ := hal
  refine ⟨outcome, result, before, rfl, ended_after he hr, ?_, fun ho => ?_⟩
  · have := Obedient.stopTrace hbefore
    rwa [hs] at this
  · exact canceling_after.mp (hc ho)

end Finished

end X2Navigation.FineAlignServer
