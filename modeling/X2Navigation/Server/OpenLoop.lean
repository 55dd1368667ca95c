import X2Navigation.Server.CommandOrigin
import X2Navigation.Server.Stopwatch

/-! A motion that is not steered is bounded in time, however its thread and the ticks are
scheduled. A tick publishes a command only while the reading recorded with it is recent,
and that reading was checked against the deadline; only the first command is not. -/

namespace X2Navigation.FineAlignServer

open Interaction Program Traced

variable {K : Type}

/-- The reading that a command is recorded with, unless the clock is read in the block. -/
def Op.recordedAt? : Op K → Option TimePoint
  | .writeCommand _ time => time
  | .writeRotation _ time => some time
  | _ => none

/-- What an operation has read of the clock. -/
def stopwatch (done : List (OpEvent K)) : Stopwatch K :=
  done.foldl (fun w e => w.next e.1 e.2) .new

/-- A tick that has read `time` publishes a command that is not zero, for the operation
`id`, which has been accepted and has not given the flag back. -/
def Publishes [Zero K] (tr : List (Entry K)) (id : ℕ) (goal : Goal K) (before : List (Entry K))
    (time : TimePoint) : Prop :=
  ∃ e navigation command, before ++ [e] <+: tr ∧
    e.occurrence = .ticked ⟨.selectCommand time, .operation navigation command⟩ ∧ command ≠ 0 ∧
    (∃ x ∈ before, x.occurrence = .accepted id goal) ∧ ¬ Released id before

/-! ### What has been read stays read -/

/-- Nothing that was read is read differently. -/
structure Stopwatch.Extends (w w' : Stopwatch K) : Prop where
  profile : ∀ profile ∈ w.profile, w'.profile = some profile
  start : ∀ t ∈ w.start, w'.start = some t
  first : ∀ t ∈ w.first, w'.first = some t
  rotation : ∀ t ∈ w.rotation, w'.rotation = some t

namespace Stopwatch

theorem Extends.refl (w : Stopwatch K) : Extends w w :=
  ⟨fun _ h => h, fun _ h => h, fun _ h => h, fun _ h => h⟩

theorem Extends.trans {u v w : Stopwatch K} (h : Extends u v) (h' : Extends v w) : Extends u w :=
  ⟨fun x hx => h'.profile x (h.profile x hx), fun x hx => h'.start x (h.start x hx),
    fun x hx => h'.first x (h.first x hx), fun x hx => h'.rotation x (h.rotation x hx)⟩

theorem or_of_mem {α : Type} {x : Option α} {a : α} (h : a ∈ x) (y : Option α) : x.or y = some a := by
  rw [Option.mem_def.mp h]
  rfl

theorem extends_next (w : Stopwatch K) (o : Op K) (a : o.Answer) : Extends w (w.next o a) := by
  cases o with
  | activeProfile => exact ⟨fun _ h => or_of_mem h _, fun _ h => h, fun _ h => h, fun _ h => h⟩
  | steadyNow => exact ⟨fun _ h => h, fun _ h => h, fun _ h => or_of_mem h _, fun _ h => h⟩
  | setAlignmentActive active =>
    cases active with
    | false => exact .refl w
    | true => exact ⟨fun _ h => h, fun _ h => or_of_mem h _, fun _ h => h, fun _ h => h⟩
  | writeRotation angularSpeed time =>
    exact ⟨fun _ h => h, fun _ h => h, fun _ h => h, fun _ h => or_of_mem h _⟩
  | _ => exact .refl w

theorem extends_foldl (w : Stopwatch K) (done : List (OpEvent K)) :
    Extends w (done.foldl (fun w e => w.next e.1 e.2) w) := by
  induction done generalizing w with
  | nil => exact .refl w
  | cons e done ih => exact (extends_next w e.1 e.2).trans (ih _)

end Stopwatch

theorem stopwatch_snoc (done : List (OpEvent K)) (e : OpEvent K) :
    stopwatch (done ++ [e]) = (stopwatch done).next e.1 e.2 := List.foldl_concat ..

theorem stopwatch_append (done later : List (OpEvent K)) :
    (stopwatch done).Extends (stopwatch (done ++ later)) := by
  unfold stopwatch
  rw [List.foldl_append]
  exact Stopwatch.extends_foldl _ _

variable [Field K] [LinearOrder K] {node : Node K}

theorem punctual_of_obeys {settings : Settings K} {goal : Goal K} {done : List (OpEvent K)}
    (h : (punctuality settings goal).Obeys .new done) {earlier later : List (OpEvent K)}
    {e : OpEvent K} (hdone : done = earlier ++ e :: later) :
    punctual settings goal (stopwatch earlier) e.1 := by
  subst hdone
  exact h.allows

/-! ### The command and its reading -/

section Bounds
variable {settings : Settings K} {done : List (OpEvent K)} {event : OpEvent K} {t : TimePoint}

/-- The reading of a rotation command is within the duration. -/
theorem rotation_within {goal : RotateInPlace.Goal K}
    (h : (punctuality settings (.rotate goal)).Obeys .new done) (hevent : event ∈ done)
    (hcommand : event.1.command?.isSome = true) (ht : ∀ c ∈ event.1.recordedAt?, c = t) :
    ∃ start, (stopwatch done).rotation = some start ∧ (elapsed t start : K) ≤ goal.duration.value := by
  obtain ⟨earlier, later, hdone⟩ := List.mem_iff_append.mp hevent
  have hal := punctual_of_obeys h hdone
  obtain ⟨o, a⟩ := event
  cases o with
  | writeCommand command time => cases hal
  | writeRotation angularSpeed time =>
    obtain rfl : time = t := ht time rfl
    refine ⟨(stopwatch earlier).rotation.getD time, ?_, le_of_lt hal⟩
    rw [hdone, List.append_cons]
    refine (stopwatch_append _ later).rotation _ ?_
    rw [stopwatch_snoc]
    exact Option.or_some
  | _ => cases hcommand

/-- The reading of a command of a timed retreat is within the limit, or the first one. -/
theorem reverse_within {goal : Undock.Goal} {profile : DockingProfile K}
    (h : (punctuality settings (.undock goal)).Obeys .new done) (hevent : event ∈ done)
    (hprofile : (stopwatch done).profile = some profile) (hmode : profile.undockMode = .timedReverse)
    (hcommand : event.1.command?.isSome = true) (ht : ∀ c ∈ event.1.recordedAt?, c = t) :
    ∃ start first, (stopwatch done).start = some start ∧ (stopwatch done).first = some first ∧
      (elapsed t start : K) ≤ max (reverseLimit settings profile) (elapsed first start) := by
  obtain ⟨earlier, later, hdone⟩ := List.mem_iff_append.mp hevent
  have hextends : (stopwatch earlier).Extends (stopwatch done) := by
    rw [hdone]
    exact stopwatch_append _ _
  obtain ⟨hread, hal⟩ := punctual_of_obeys h hdone
  cases hearlier : (stopwatch earlier).profile with
  | none =>
    rw [(hread hearlier).1] at hcommand
    cases hcommand
  | some profile' =>
    obtain rfl : profile' = profile :=
      Option.some.inj ((hextends.profile profile' hearlier).symm.trans hprofile)
    have hreverses := hal profile' hearlier hmode
    obtain ⟨o, a⟩ := event
    cases o with
    | writeCommand command time =>
      obtain ⟨t', start, first, rfl, hstart, hfirst, hor⟩ := hreverses
      obtain rfl : t' = t := ht t' rfl
      refine ⟨start, first, hextends.start start hstart, hextends.first first hfirst, ?_⟩
      obtain rfl | hlt := hor
      · exact le_max_right _ _
      · exact le_max_of_le_left hlt.le
    | writeRotation angularSpeed time => cases hreverses
    | _ => cases hcommand

theorem rotation_success {goal : RotateInPlace.Goal K}
    (h : (punctuality settings (.rotate goal)).Obeys .new done) {result : Result K}
    (hsuccess : ⟨.terminate .succeed result, ()⟩ ∈ done) :
    ∃ r, result = .rotate r ∧ goal.duration.value ≤ r.elapsedTime := by
  obtain ⟨earlier, later, hdone⟩ := List.mem_iff_append.mp hsuccess
  exact punctual_of_obeys h hdone

theorem reverse_success {goal : Undock.Goal} {profile : DockingProfile K}
    (h : (punctuality settings (.undock goal)).Obeys .new done)
    (hprofile : (stopwatch done).profile = some profile) (hmode : profile.undockMode = .timedReverse)
    {result : Result K} (hsuccess : ⟨.terminate .succeed result, ()⟩ ∈ done) :
    profile.timedReverseDuration ≤ settings.undockTimeout ∧
      ∃ r, result = .undock r ∧ profile.timedReverseDuration ≤ r.elapsedTime := by
  obtain ⟨earlier, later, hdone⟩ := List.mem_iff_append.mp hsuccess
  obtain ⟨hread, hal⟩ := punctual_of_obeys h hdone
  cases hearlier : (stopwatch earlier).profile with
  | none => cases (hread hearlier).2
  | some profile' =>
    have hextends : (stopwatch earlier).Extends (stopwatch done) := by
      rw [hdone]
      exact stopwatch_append _ _
    obtain rfl : profile' = profile :=
      Option.some.inj ((hextends.profile profile' hearlier).symm.trans hprofile)
    exact hal profile' hearlier hmode

end Bounds

/-! ### What the multiplexer holds -/

/-- The command that a tick would publish was written by the operation that has the flag,
with the reading that the tick compares. -/
def Dated (s : Server K) (tr : List (Entry K)) : Prop :=
  ∀ t ∈ s.shared.mux.alignmentCommandTime, ∃ id event, id + 1 = s.threads.length ∧
    event ∈ operations id tr ∧ event.1.command?.isSome = true ∧ ∀ c ∈ event.1.recordedAt?, c = t

/-- Every command that was published for an operation was read recently. -/
def AllDated (node : Node K) (tr : List (Entry K)) : Prop :=
  ∀ id goal before time, Publishes tr id goal before time → ∃ event t,
    event ∈ operations id before ∧ event.1.command?.isSome = true ∧
      (∀ c ∈ event.1.recordedAt?, c = t) ∧ Double.numLE (elapsed time t) node.commandTimeout = true

structure Clocked (node : Node K) (now : TimePoint) (s : Server K) (tr : List (Entry K)) : Prop where
  accounted : Accounted node now s tr
  listed : Listed s tr
  dated : Dated s tr
  published : AllDated node tr

section System
variable {s : Server K} {tr : List (Entry K)}

omit [LinearOrder K] in
theorem Dated.frame (h : Dated s tr) {s' : Server K} {entries : List (Entry K)}
    (hlength : s'.threads.length = s.threads.length)
    (htime : s'.shared.mux.alignmentCommandTime = s.shared.mux.alignmentCommandTime) :
    Dated s' (tr ++ entries) := by
  intro t ht
  rw [htime] at ht
  obtain ⟨id, event, hlast, hevent, hcommand, hrecorded⟩ := h t ht
  refine ⟨id, event, hlast.trans hlength.symm, ?_, hcommand, hrecorded⟩
  rw [operations_append]
  exact List.mem_append_left _ hevent

omit [LinearOrder K] in
/-- A step of an operation either leaves the command as it is, or clears it, or writes it
with its reading. -/
theorem operate_commandTime (now : TimePoint) (mux : Mux K) (o : Op K) :
    (mux.operate now o).alignmentCommandTime = mux.alignmentCommandTime ∨
      (mux.operate now o).alignmentCommandTime = none ∨
      o.command?.isSome = true ∧ ∀ t ∈ (mux.operate now o).alignmentCommandTime,
        ∀ c ∈ o.recordedAt?, c = t := by
  cases o with
  | clearCommand => exact .inr (.inl rfl)
  | writeCommand command time =>
    refine .inr (.inr ⟨rfl, ?_⟩)
    rintro t ht c rfl
    exact Option.some.inj ht
  | writeRotation angularSpeed time =>
    refine .inr (.inr ⟨rfl, ?_⟩)
    rintro t ht c hc
    exact (Option.some.inj hc).symm.trans (Option.some.inj ht)
  | _ => exact .inl rfl

theorem Dated.operated (h : Dated s tr) {now : Instant} {id : ℕ} {thread thread' : Thread K}
    {event : OpEvent K} {shared : Shared K} {handle : HandleState} (hlast : id + 1 = s.threads.length)
    (hw : operate node now (s.shared, thread.handle) event.1 = some (event.2, shared, handle)) :
    Dated { s with shared := shared, threads := s.threads.set id thread' }
      (tr ++ [⟨now, .operated id event⟩]) := by
  have hmux : shared.mux = s.shared.mux.operate now.steady event.1 := operate_mux hw
  obtain hsame | hnone | ⟨hcommand, hrecorded⟩ := operate_commandTime now.steady s.shared.mux event.1
  · exact h.frame (List.length_set ..) (by rw [hmux, hsame])
  · intro t ht
    rw [hmux, hnone] at ht
    cases ht
  · intro t ht
    rw [hmux] at ht
    refine ⟨id, event, by rw [List.length_set]; exact hlast, ?_, hcommand, hrecorded t ht⟩
    rw [operations_snoc_self]
    exact List.mem_append_right _ (List.mem_singleton.mpr rfl)

theorem AllDated.snoc (h : AllDated node tr) {x : Entry K}
    (hx : ∀ id goal time navigation command,
      x.occurrence = .ticked ⟨.selectCommand time, .operation navigation command⟩ → command ≠ 0 →
      (∃ e ∈ tr, e.occurrence = .accepted id goal) → ¬ Released id tr → ∃ event t,
        event ∈ operations id tr ∧ event.1.command?.isSome = true ∧
          (∀ c ∈ event.1.recordedAt?, c = t) ∧
          Double.numLE (elapsed time t) node.commandTimeout = true) : AllDated node (tr ++ [x]) := by
  rintro id goal before time ⟨e, navigation, command, hpre, he, hcommand, haccepted, hopen⟩
  obtain heq | hpre := List.prefix_concat_iff.mp hpre
  · obtain ⟨rfl, hlast⟩ := List.append_inj' heq rfl
    obtain rfl := List.singleton_inj.mp hlast
    exact hx id goal time navigation command he hcommand haccepted hopen
  · exact h id goal before time ⟨e, navigation, command, hpre, he, hcommand, haccepted, hopen⟩

theorem Undisturbed.commandTime {x : Entry K} {mux mux' : Mux K} (h : Undisturbed node x mux mux') :
    mux'.alignmentCommandTime = mux.alignmentCommandTime := by
  cases hactive : mux.operationActive with
  | true => rw [h.owned hactive]
  | false => rw [h.free hactive]

/-- An accepted operation that has not given the flag back is the latest one. -/
theorem Owned.latest (h : Owned node s tr) (hlisted : Listed s tr) {id : ℕ} {goal : Goal K}
    (haccepted : ∃ x ∈ tr, x.occurrence = .accepted id goal) (hopen : ¬ Released id tr) :
    id + 1 = s.threads.length := by
  have hid := (hlisted id goal).mp haccepted
  have hlt : id < s.goals.length := (List.getElem?_eq_some_iff.mp hid).1
  rw [Server.goals, List.length_map] at hlt
  have hearlier : ¬ id + 1 < s.threads.length := fun h' => hopen (h.earlier id h')
  omega

/-- What a tick publishes for an operation is recent by the reading of its command. -/
theorem Dated.select (h : Dated s tr) {navigationActive navigation : Bool} {time : TimePoint}
    {command : Twist (Double K)} {mux : Mux K}
    (hselect : s.shared.mux.select node navigationActive time = (.operation navigation command, mux))
    (hcommand : command ≠ 0) : ∃ id event t, id + 1 = s.threads.length ∧
      event ∈ operations id tr ∧ event.1.command?.isSome = true ∧
      (∀ c ∈ event.1.recordedAt?, c = t) ∧
      Double.numLE (elapsed time t) node.commandTimeout = true := by
  cases hactive : s.shared.mux.operationActive with
  | false =>
    rw [Mux.select_free node hactive] at hselect
    cases (Prod.mk.inj hselect).1
  | true =>
    rw [Mux.select_owned node hactive] at hselect
    obtain ⟨rfl, rfl⟩ := Selection.operation.inj (Prod.mk.inj hselect).1
    have hpublished : (!navigationActive && s.shared.mux.current node time) = true := by
      by_contra hnot
      rw [if_neg hnot] at hcommand
      exact hcommand rfl
    have hcurrent := (Bool.and_eq_true_iff.mp (Bool.and_eq_true_iff.mp hpublished).2).2
    cases ht : s.shared.mux.alignmentCommandTime with
    | none =>
      rw [ht] at hcurrent
      cases hcurrent
    | some t =>
      rw [ht] at hcurrent
      obtain ⟨id, event, hlast, hevent, hwrites, hrecorded⟩ := h t ht
      exact ⟨id, event, t, hlast, hevent, hwrites, hrecorded, hcurrent⟩

end System

section Run
variable [IsStrictOrderedRing K] {s : Server K} {tr : List (Entry K)}

theorem Clocked.moves {now : Instant} (h : Clocked node now.steady s tr) {s' : Server K}
    {entries : List (Entry K)} (hm : Moves node now s s' entries) :
    Clocked node now.steady s' (tr ++ entries) := by
  have haccounted := h.accounted.moves hm
  have hlisted := h.listed.moves hm
  have silent : ∀ {x : Entry K}, (∀ time selection, x.occurrence ≠ .ticked ⟨.selectCommand time, selection⟩) →
      AllDated node (tr ++ [x]) := by
    intro x hx
    exact h.published.snoc fun id goal time navigation command heq => absurd heq (hx time _)
  cases hm with
  | idle ok terminated =>
    rw [List.append_nil] at haccounted hlisted ⊢
    exact ⟨haccounted, hlisted, h.dated, h.published⟩
  | received message =>
    refine ⟨haccounted, hlisted, h.dated.frame rfl ?_, silent fun _ _ heq => by cases heq⟩
    exact (undisturbed_receive now s.shared message).commandTime
  | rejected goal hactive =>
    exact ⟨haccounted, hlisted, h.dated.frame rfl rfl, silent fun _ _ heq => by cases heq⟩
  | accepted goal hfree =>
    refine ⟨haccounted, hlisted, ?_, silent fun _ _ heq => by cases heq⟩
    intro t ht
    have hunset := (h.accounted.idle hfree).unset
    cases hunset.symm.trans ht
  | canceled id thread hid =>
    exact ⟨haccounted, hlisted, h.dated.frame (List.length_set ..) rfl,
      silent fun _ _ heq => by cases heq⟩
  | operated id thread event program shared handle hid hn hw =>
    obtain ⟨hlast, -⟩ := h.accounted.owned.last hid hn
    exact ⟨haccounted, hlisted, h.dated.operated hlast hw, silent fun _ _ heq => by cases heq⟩
  | ticked event program shared lookup hn hw =>
    refine ⟨haccounted, hlisted, h.dated.frame rfl (undisturbed_answerTick hw).commandTime, h.published.snoc ?_⟩
    intro id goal time navigation command heq hcommand haccepted hopen
    cases heq
    obtain ⟨id', event, t, hlast, hevent, hwrites, hrecorded, hrecent⟩ :=
      h.dated.select (answerTick_select hw) hcommand
    have hlatest := h.accounted.owned.latest h.listed haccepted hopen
    obtain rfl : id' = id := by omega
    exact ⟨event, t, hevent, hwrites, hrecorded, hrecent⟩

omit [IsStrictOrderedRing K] in
theorem clocked_initial (now : TimePoint) : Clocked node now (.initial node) [] where
  accounted := accounted_initial now
  listed := by simp [Listed, Server.initial, Server.goals]
  dated := nofun
  published := by
    rintro id goal before time ⟨e, navigation, command, hpre, -⟩
    simp at hpre

theorem clocked_serve (node : Node K) (inputs : List (Stimulus K))
    (hclock : (inputs.map (·.now.steady)).Pairwise (· ≤ ·)) :
    ∃ now, Clocked node now (serve node inputs).1 (serve node inputs).2 := by
  refine run_keeps_later clocked_initial (fun hle h => ?_) (fun x s tr h => ?_) inputs hclock
  · exact ⟨h.accounted.later hle, h.listed, h.dated, h.published⟩
  · exact h.moves (step_moves node x s)

omit [IsStrictOrderedRing K] in
/-- What an accepted operation has done by any point of the trace keeps its deadlines. -/
theorem Clocked.punctual {now : TimePoint} (h : Clocked node now s tr) {id : ℕ} {goal : Goal K}
    {before : List (Entry K)} (hbefore : before <+: tr)
    (haccepted : ∃ x ∈ tr, x.occurrence = .accepted id goal) :
    (punctuality node.settings goal).Obeys .new (operations id before) := by
  obtain ⟨rest, rfl⟩ := hbefore
  obtain ⟨thread, hthread, rfl⟩ := Option.map_eq_some_iff.mp
    ((List.getElem?_map ..).symm.trans ((h.listed id goal).mp haccepted))
  have hobeys := (punctual_body thread.goal _ _ (h.accounted.owned.runs id thread hthread)).1
  rw [operations_append] at hobeys
  exact (Discipline.obeys_append.mp hobeys).1

theorem elapsed_add (t s r : TimePoint) : (elapsed t s : K) + elapsed s r = elapsed t r := by
  simp only [elapsed]
  push_cast
  ring

/-- Under a steady clock that does not go back, a rotation is published only until its
duration and the command timeout have passed since its start; a timed retreat only until
the command timeout has passed since its limit, or since its first pass, whichever is
later. A success is reported only with the full duration as the elapsed time, and for a
retreat only if the undock timeout is not shorter. -/
theorem openLoop_bounded (node : Node K) (inputs : List (Stimulus K))
    (hclock : (inputs.map (·.now.steady)).Pairwise (· ≤ ·)) (id : ℕ) :
    (∀ goal before time, Publishes (serve node inputs).2 id (.rotate goal) before time →
      ∃ start, (stopwatch (operations id before)).rotation = some start ∧
        Double.numLE (elapsed time start - goal.duration.value) node.commandTimeout = true) ∧
    (∀ goal before time profile, Publishes (serve node inputs).2 id (.undock goal) before time →
      (stopwatch (operations id before)).profile = some profile →
      profile.undockMode = .timedReverse →
      ∃ start first, (stopwatch (operations id before)).start = some start ∧
        (stopwatch (operations id before)).first = some first ∧
        Double.numLE (elapsed time start -
          max (reverseLimit node.settings profile) (elapsed first start)) node.commandTimeout = true) ∧
    (∀ goal result, (∃ x ∈ (serve node inputs).2, x.occurrence = .accepted id (.rotate goal)) →
      ⟨.terminate .succeed result, ()⟩ ∈ operations id (serve node inputs).2 →
      ∃ r, result = .rotate r ∧ goal.duration.value ≤ r.elapsedTime) ∧
    ∀ goal profile result, (∃ x ∈ (serve node inputs).2, x.occurrence = .accepted id (.undock goal)) →
      (stopwatch (operations id (serve node inputs).2)).profile = some profile →
      profile.undockMode = .timedReverse →
      ⟨.terminate .succeed result, ()⟩ ∈ operations id (serve node inputs).2 →
      profile.timedReverseDuration ≤ node.settings.undockTimeout ∧
        ∃ r, result = .undock r ∧ profile.timedReverseDuration ≤ r.elapsedTime := by
  obtain ⟨now, hrun⟩ := clocked_serve node inputs hclock
  have hobeys : ∀ goal before time, Publishes (serve node inputs).2 id goal before time →
      (punctuality node.settings goal).Obeys .new (operations id before) := by
    rintro goal before time ⟨e, navigation, command, hpre, -, -, ⟨x, hx, haccepted⟩, -⟩
    have hbefore := (List.prefix_append before [e]).trans hpre
    exact hrun.punctual hbefore ⟨x, hbefore.subset hx, haccepted⟩
  refine ⟨?_, ?_, ?_, ?_⟩
  · intro goal before time hpublishes
    obtain ⟨event, t, hevent, hcommand, hrecorded, hrecent⟩ := hrun.published _ _ _ _ hpublishes
    obtain ⟨start, hstart, hwithin⟩ :=
      rotation_within (hobeys _ _ _ hpublishes) hevent hcommand hrecorded
    refine ⟨start, hstart, Double.numLE_mono ?_ hrecent⟩
    rw [← elapsed_add time t start]
    linarith
  · intro goal before time profile hpublishes hprofile hmode
    obtain ⟨event, t, hevent, hcommand, hrecorded, hrecent⟩ := hrun.published _ _ _ _ hpublishes
    obtain ⟨start, first, hstart, hfirst, hwithin⟩ :=
      reverse_within (hobeys _ _ _ hpublishes) hevent hprofile hmode hcommand hrecorded
    refine ⟨start, first, hstart, hfirst, Double.numLE_mono ?_ hrecent⟩
    rw [← elapsed_add time t start]
    linarith
  · intro goal result haccepted hsuccess
    exact rotation_success (hrun.punctual (List.prefix_refl _) haccepted) hsuccess
  · intro goal profile result haccepted hprofile hmode hsuccess
    exact reverse_success (hrun.punctual (List.prefix_refl _) haccepted) hprofile hmode hsuccess

end Run

theorem openLoop_bounded_turning :
    published (serve .declared turning).2 = [⟨0, ⟨0, 0, .finite (1 / 4)⟩⟩] ∧
      ∀ goal before time, Publishes (serve .declared turning).2 0 (.rotate goal) before time →
        ∃ start, (stopwatch (operations 0 before)).rotation = some start ∧
          Double.numLE (elapsed time start - goal.duration.value) Node.declared.commandTimeout = true :=
  ⟨by decide +kernel, (openLoop_bounded .declared turning (by decide +kernel) 0).1⟩

/-! ### A stall before the first pass -/

/-- The default profile, with a timed retreat. -/
def reversingProfile : DockingProfile ℚ := { DockingProfile.declared with undockMode := .timedReverse }

def Node.reversing : Node ℚ :=
  { Node.declared with
    profiles := [reversingProfile]
    initialProfile := reversingProfile
    resolved := by decide +kernel }

/-- Inputs of one moment. -/
def atOnce (steady : TimePoint) (inputs : List (Input ℚ)) : List (Stimulus ℚ) :=
  inputs.map (⟨⟨steady, 0⟩, ·⟩)

/-- A retreat starts, and its first pass and a tick come a minute later. -/
def stalled : List (Stimulus ℚ) :=
  atOnce 0 ([.message (.manipulationState .empty), .goal (.undock ⟨""⟩)] ++
    List.replicate 7 (.operation 0)) ++
  atOnce (60 * 10 ^ 9) (List.replicate 7 (.operation 0) ++ List.replicate 4 (.tick .unavailable))

/-- The time, the navigation status and the command of a tick that selected for an
operation. -/
def Entry.selection? (x : Entry K) : Option (TimePoint × Bool × Twist (Double K)) :=
  match x.occurrence with
  | .ticked ⟨.selectCommand time, .operation navigation command⟩ => some (time, navigation, command)
  | _ => none

omit [Field K] [LinearOrder K] in
theorem Entry.occurrence_of_selection? {x : Entry K} {time : TimePoint} {navigation : Bool}
    {command : Twist (Double K)} (h : x.selection? = some (time, navigation, command)) :
    x.occurrence = .ticked ⟨.selectCommand time, .operation navigation command⟩ := by
  unfold selection? at h
  split at h
  · next hoccurrence =>
    rw [hoccurrence]
    cases h
    rfl
  · cases h

/-- The start of the retreat is no bound for its first command. -/
theorem openLoop_stalled : (stalled.map (·.now.steady)).Pairwise (· ≤ ·) ∧
    ∃ before time, Publishes (serve .reversing stalled).2 0 (.undock ⟨""⟩) before time ∧
      (stopwatch (operations 0 before)).profile = some reversingProfile ∧
      reversingProfile.undockMode = .timedReverse ∧
      ∃ start, (stopwatch (operations 0 before)).start = some start ∧
        Double.numLE (elapsed time start - reverseLimit Node.reversing.settings reversingProfile)
          Node.reversing.commandTimeout = false := by
  have hlength : 19 < (serve .reversing stalled).2.length := by decide +kernel
  have hselection : ((serve .reversing stalled).2.get ⟨19, hlength⟩).selection? =
      some (60 * 10 ^ 9, false, ⟨⟨.finite (-1 / 10), 0, 0⟩, 0⟩) := by
    revert hlength
    decide +kernel
  have hreleased : (conductAfter (operations 0 ((serve .reversing stalled).2.take 19))).released =
      false := by decide +kernel
  refine ⟨by decide +kernel, (serve .reversing stalled).2.take 19, 60 * 10 ^ 9, ?_, by decide +kernel,
    rfl, 0, by decide +kernel, by decide +kernel⟩
  refine ⟨(serve .reversing stalled).2.get ⟨19, hlength⟩, _, _, ?_,
    Entry.occurrence_of_selection? hselection, by decide +kernel, ?_, ?_⟩
  · rw [List.get_eq_getElem, List.take_append_getElem]
    exact List.take_prefix _ _
  · exact ⟨_, .tail _ (.head _), rfl⟩
  · intro hopen
    rw [Released, ← released_after] at hopen
    rw [hopen] at hreleased
    cases hreleased

end X2Navigation.FineAlignServer
