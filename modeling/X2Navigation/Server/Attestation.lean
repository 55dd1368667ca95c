import X2Navigation.Server.Checks
import X2Navigation.Server.Testimony

/-! The robot is moved for an operation only where the messages allowed it. Behind every
command that a tick publishes for an operation stands a pass of that operation in which
it found the goal wanted, navigation idle, the manipulation state valid and no collision
stop; and what an operation finds is what the messages had said last. -/

namespace X2Navigation.FineAlignServer

open Interaction Traced

variable {K : Type}

/-! ### The news -/

/-- `nav_active_mask_`, of what the two topics show. -/
def activeMask (navigating : Fin 2 → Bool) : UInt32 :=
  (List.finRange 2).foldl (fun mask topic =>
    if navigating topic then mask ||| 1 <<< UInt32.ofNat topic else mask) 0

theorem activeMask_idle : activeMask (fun _ => false) = 0 := by decide

theorem activeMask_eq_zero : ∀ navigating : Fin 2 → Bool, activeMask navigating = 0 →
    ∀ topic, navigating topic = false := by decide

/-- A topic sets and clears its own bit. -/
theorem activeMask_update : ∀ (navigating : Fin 2 → Bool) (topic : Fin 2) (active : Bool),
    activeMask (Function.update navigating topic active) =
      if active then activeMask navigating ||| 1 <<< UInt32.ofNat topic
      else activeMask navigating &&& ~~~(1 <<< UInt32.ofNat topic) := by decide

/-- What the messages have said last: which of the two status topics shows an active
navigation goal, the manipulation state, and when the present collision stop began. -/
structure News where
  navigating : Fin 2 → Bool
  manipulation : ManipulationState
  stopSince : Option TimePoint

namespace News

def initial : News := ⟨fun _ => false, .unknown, none⟩

def hear (n : News) (now : Instant) : Message K → News
  | .navStatus topic statuses =>
    { n with navigating :=
        Function.update n.navigating topic (statuses.any GoalStatus.isActive) }
  | .manipulationState state => { n with manipulation := state }
  | .collisionState true => { n with stopSince := some (n.stopSince.getD now.steady) }
  | .collisionState false => { n with stopSince := none }
  | _ => n

def read (n : News) (x : Entry K) : News :=
  match x.occurrence with
  | .received message => n.hear x.now message
  | _ => n

end News

def news (tr : List (Entry K)) : News := tr.foldl News.read .initial

theorem news_snoc (tr : List (Entry K)) (x : Entry K) : news (tr ++ [x]) = (news tr).read x := by
  simp [news]

/-- The server knows the news. -/
structure Informed (s : Shared K) (n : News) : Prop where
  navigation : s.navActiveMask = activeMask n.navigating
  manipulation : s.acquisition.manipulationState = n.manipulation
  stopped : s.collisionStopped = n.stopSince.isSome
  since : s.collisionStopSince = n.stopSince

namespace Informed
variable {s s' : Shared K} {n : News}

theorem of_sameNews (h : Informed s n) (hsame : SameNews s s') : Informed s' n := by
  obtain ⟨hmask, hstopped, hsince, hstate⟩ := hsame
  exact ⟨hmask.trans h.navigation, hstate.trans h.manipulation, hstopped.trans h.stopped,
    hsince.trans h.since⟩

/-- No bit of the mask is set. -/
theorem idle (h : Informed s n) (hidle : s.navigationActive = false) (topic : Fin 2) :
    n.navigating topic = false := by
  refine activeMask_eq_zero _ ?_ topic
  rw [← h.navigation]
  simpa [Shared.navigationActive] using hidle

theorem unstopped (h : Informed s n) (hclear : s.collisionStopped = false) : n.stopSince = none := by
  rwa [h.stopped, Option.isSome_eq_false_iff, Option.isNone_iff_eq_none] at hclear

variable [Field K] [LinearOrder K] {node : Node K}

theorem patient (h : Informed s n) {now : TimePoint}
    (hclear : s.collisionStopTimedOut node now = false) :
    ∀ since ∈ n.stopSince,
      Double.numGT (elapsed now since) node.settings.parameters.collisionStopTimeout = false := by
  intro since hsince
  have hstop := Option.mem_def.mp hsince
  rwa [Shared.collisionStopTimedOut, h.stopped, h.since, hstop] at hclear

theorem receive (h : Informed s n) (now : Instant) (message : Message K) :
    Informed (s.receive node now message) (n.hear now message) := by
  cases message with
  | navCommand command => exact h.of_sameNews ⟨rfl, rfl, rfl, rfl⟩
  | navRawCommand command => exact h.of_sameNews ⟨rfl, rfl, rfl, rfl⟩
  | boxStates boxes => exact h.of_sameNews ⟨rfl, rfl, rfl, rfl⟩
  | detections topic message =>
    refine h.of_sameNews ⟨rfl, rfl, rfl, ?_⟩
    dsimp only [Shared.receive, Acquisition.detect]
    split
    · rfl
    · rfl
  | navStatus topic statuses =>
    refine ⟨?_, h.manipulation, h.stopped, h.since⟩
    rw [News.hear, activeMask_update, ← h.navigation]
    rfl
  | manipulationState state => exact ⟨h.navigation, rfl, h.stopped, h.since⟩
  | collisionState stop =>
    cases stop with
    | false => exact ⟨h.navigation, h.manipulation, rfl, rfl⟩
    | true =>
      refine ⟨h.navigation, h.manipulation, rfl, ?_⟩
      have hstopped := h.stopped
      have hsince := h.since
      simp only [Shared.receive, if_true, News.hear, hsince]
      cases hstop : n.stopSince with
      | none => rw [hstopped, hstop]; rfl
      | some since => rw [hstopped, hstop]; rfl

theorem moves {s s' : Server K} {tr entries : List (Entry K)} (h : Informed s.shared (news tr))
    {now : Instant} (hm : Moves node now s s' entries) : Informed s'.shared (news (tr ++ entries)) := by
  cases hm with
  | idle ok terminated =>
    rw [List.append_nil]
    exact h.of_sameNews ⟨rfl, rfl, rfl, rfl⟩
  | received message =>
    rw [news_snoc]
    exact h.receive now message
  | rejected goal hactive =>
    rw [news_snoc]
    exact h
  | accepted goal hfree =>
    rw [news_snoc]
    exact h.of_sameNews ⟨rfl, rfl, rfl, rfl⟩
  | canceled id thread hid hexecuting =>
    rw [news_snoc]
    exact h
  | operated id thread event program shared handle hid hn hw =>
    rw [news_snoc]
    exact h.of_sameNews (sameNews_operate hw)
  | ticked event program shared lookup hn hw =>
    rw [news_snoc]
    exact h.of_sameNews (sameNews_answerTick hw)

end Informed

/-! ### Cancellations -/

section Cancellations

theorem canceled_snoc {id : ℕ} {tr : List (Entry K)} {x : Entry K} :
    Canceled id (tr ++ [x]) ↔ Canceled id tr ∨ x.occurrence = .canceled id := by
  simp [Canceled, or_and_right, exists_or]

theorem ended_next {g : Conduct} (h : g.ended = true) (o : Op K) (a : o.Answer) :
    (g.next o a).ended = true := by
  cases o with
  | terminate outcome result => rfl
  | setAlignmentActive active => cases active <;> exact h
  | _ => exact h

/-- The goal of a canceled operation is not executing any more, and one that has ended
was ended by its operation. -/
structure Handled (s : Server K) (tr : List (Entry K)) : Prop where
  canceled : ∀ id, Canceled id tr →
    ∃ thread, s.threads[id]? = some thread ∧ thread.handle ≠ .executing
  ended : ∀ id thread outcome, s.threads[id]? = some thread → thread.handle = .ended outcome →
    (conductAfter (operations id tr)).ended = true

namespace Handled
variable {s s' : Server K} {tr : List (Entry K)}

/-- An entry of no thread. -/
theorem silent (h : Handled s tr) {x : Entry K} (hthreads : s'.threads = s.threads)
    (hcanceled : ∀ id, x.occurrence ≠ .canceled id) (hx : ∀ id, operations id [x] = []) :
    Handled s' (tr ++ [x]) := by
  refine ⟨fun id hcancel => ?_, fun id thread outcome hid => ?_⟩
  · rw [hthreads]
    exact h.canceled id ((canceled_snoc.mp hcancel).resolve_right (hcanceled id))
  · rw [operations_append_silent (hx id)]
    exact h.ended id thread outcome (hthreads ▸ hid)

theorem accepted (h : Handled s tr) {now : Instant} {goal : Goal K} {id : ℕ}
    {program : Operation K Unit} (hthreads : s'.threads = s.threads ++ [⟨goal, .executing, program⟩]) :
    Handled s' (tr ++ [⟨now, .accepted id goal⟩]) := by
  refine ⟨fun id' hcancel => ?_, fun id' thread outcome hid hended => ?_⟩
  · obtain ⟨thread, hid, hhandle⟩ := h.canceled id' ((canceled_snoc.mp hcancel).resolve_right nofun)
    refine ⟨thread, ?_, hhandle⟩
    rwa [hthreads, List.getElem?_append_left (List.getElem?_eq_some_iff.mp hid).1]
  · rw [operations_append_silent (operations_of_none rfl)]
    rw [hthreads, List.getElem?_append] at hid
    split at hid
    · exact h.ended id' thread outcome hid hended
    · obtain rfl := List.mem_singleton.mp (List.mem_of_getElem? hid)
      cases hended

theorem canceling (h : Handled s tr) {now : Instant} {id : ℕ} {thread : Thread K}
    (hid : s.threads[id]? = some thread)
    (hthreads : s'.threads = s.threads.set id { thread with handle := .canceling }) :
    Handled s' (tr ++ [⟨now, .canceled id⟩]) := by
  have hlt := (List.getElem?_eq_some_iff.mp hid).1
  refine ⟨fun id' hcancel => ?_, fun id' thread' outcome hid' hended => ?_⟩
  · by_cases heq : id = id'
    · subst heq
      exact ⟨{ thread with handle := .canceling }, by rw [hthreads, List.getElem?_set_self hlt], nofun⟩
    · have hne : (Occurrence.canceled id : Occurrence K) ≠ .canceled id' := by simpa using heq
      obtain ⟨thread', hid', hhandle⟩ := h.canceled id' ((canceled_snoc.mp hcancel).resolve_right hne)
      exact ⟨thread', by rwa [hthreads, List.getElem?_set_ne heq], hhandle⟩
  · rw [operations_append_silent (operations_of_none rfl)]
    rw [hthreads] at hid'
    by_cases heq : id = id'
    · subst heq
      rw [List.getElem?_set_self hlt] at hid'
      obtain rfl := Option.some.inj hid'
      cases hended
    · rw [List.getElem?_set_ne heq] at hid'
      exact h.ended id' thread' outcome hid' hended

variable [Field K] [LinearOrder K] {node : Node K}

theorem initial : Handled (.initial node) ([] : List (Entry K)) where
  canceled := by simp [Canceled]
  ended := by simp [Server.initial]

/-- An operation leaves the handle of its goal alone, or ends the goal. -/
theorem handle_operate {now : Instant} {shared shared' : Shared K} {handle handle' : HandleState}
    {e : OpEvent K} (hw : operate node now (shared, handle) e.1 = some (e.2, shared', handle')) :
    handle' = handle ∨ ∃ outcome, handle' = .ended outcome ∧ ∀ g : Conduct,
      (g.next e.1 e.2).ended = true := by
  obtain ⟨o, a⟩ := e
  cases o with
  | activateProfile requested undocking instanceId =>
    obtain ⟨acquisition, -, -, rfl⟩ := of_operate_activateProfile hw
    exact .inl rfl
  | terminate outcome result =>
    obtain ⟨hhandle, -⟩ := of_operate_terminate hw
    refine .inr ⟨outcome, ?_, fun _ => rfl⟩
    cases handle with
    | executing =>
      unfold HandleState.terminate at hhandle
      dsimp only at hhandle
      split at hhandle
      · cases hhandle
      · exact (Option.some.inj hhandle).symm
    | canceling => exact (Option.some.inj hhandle).symm
    | ended outcome => cases hhandle
  | _ =>
    cases hw
    exact .inl rfl

theorem operated (h : Handled s tr) {now : Instant} {id : ℕ} {thread : Thread K}
    {event : OpEvent K} {program : Operation K Unit} {shared : Shared K} {handle : HandleState}
    (hid : s.threads[id]? = some thread)
    (hw : operate node now (s.shared, thread.handle) event.1 = some (event.2, shared, handle))
    (hthreads : s'.threads =
      s.threads.set id { thread with handle := handle, program := program }) :
    Handled s' (tr ++ [⟨now, .operated id event⟩]) := by
  have hlt := (List.getElem?_eq_some_iff.mp hid).1
  refine ⟨fun id' hcancel => ?_, fun id' thread' outcome hid' hended => ?_⟩
  · obtain ⟨thread', hid', hhandle⟩ := h.canceled id' ((canceled_snoc.mp hcancel).resolve_right nofun)
    by_cases heq : id = id'
    · subst heq
      obtain rfl := Option.some.inj (hid.symm.trans hid')
      refine ⟨_, by rw [hthreads, List.getElem?_set_self hlt], ?_⟩
      obtain rfl | ⟨outcome, rfl, -⟩ := handle_operate hw
      · exact hhandle
      · exact nofun
    · exact ⟨thread', by rwa [hthreads, List.getElem?_set_ne heq], hhandle⟩
  · rw [hthreads] at hid'
    by_cases heq : id = id'
    · subst heq
      rw [List.getElem?_set_self hlt] at hid'
      obtain rfl := Option.some.inj hid'
      rw [operations_snoc_self, conductAfter_snoc]
      obtain hsame | ⟨-, -, hnext⟩ := handle_operate hw
      · exact ended_next (h.ended id thread outcome hid (hsame ▸ hended)) event.1 event.2
      · exact hnext _
    · rw [operations_append_silent (operations_operated_of_ne heq now event)]
      rw [List.getElem?_set_ne heq] at hid'
      exact h.ended id' thread' outcome hid' hended

theorem moves (h : Handled s tr) {now : Instant} {entries : List (Entry K)}
    (hm : Moves node now s s' entries) : Handled s' (tr ++ entries) := by
  cases hm with
  | idle ok terminated =>
    rw [List.append_nil]
    exact ⟨h.canceled, h.ended⟩
  | accepted goal hfree => exact h.accepted rfl
  | canceled id thread hid hexecuting => exact h.canceling hid rfl
  | operated id thread event program shared handle hid hn hw => exact h.operated hid hw rfl
  | received | rejected | ticked => exact h.silent rfl nofun fun _ => operations_of_none rfl

/-- A goal that its operation does not find canceled was not canceled. -/
theorem uncanceled (h : Handled s tr) {id : ℕ} {thread : Thread K} {now : Instant}
    {shared : Shared K} {handle : HandleState} (hid : s.threads[id]? = some thread)
    (hended : (conductAfter (operations id tr)).ended = false)
    (hw : operate node now (s.shared, thread.handle) .isCanceling = some (false, shared, handle)) :
    ¬ Canceled id tr := by
  intro hcancel
  obtain ⟨thread', hid', hhandle⟩ := h.canceled id hcancel
  obtain rfl := Option.some.inj (hid.symm.trans hid')
  have hanswer : decide (thread.handle = .canceling) = false := (Prod.mk.inj (Option.some.inj hw)).1
  cases hh : thread.handle with
  | executing => exact hhandle hh
  | canceling => simp [hh] at hanswer
  | ended outcome =>
    rw [h.ended id thread outcome hid hh] at hended
    cases hended

end Handled

end Cancellations

/-! ### Checks -/

/-- Ends what was found in order. -/
def Op.Forgets : Op K → Bool
  | .writeCommand _ _ | .writeRotation _ _ | .sleep _ => true
  | _ => false

/-- An operation has looked, what it looked at was in order then, and it has neither slept
nor written a command since. `P` is about the trace before that look and its time. -/
def Looked (id : ℕ) (P : List (Entry K) → TimePoint → Prop) (tr : List (Entry K)) : Prop :=
  ∃ past look since event, tr = past ++ look :: since ∧ look.occurrence = .operated id event ∧
    P past look.now.steady ∧ ∀ e ∈ operations id (look :: since), e.1.Forgets = false

section Looks
variable {id : ℕ} {P : List (Entry K) → TimePoint → Prop} {tr : List (Entry K)}

theorem Looked.extend (h : Looked id P tr) {x : Entry K}
    (hx : ∀ e ∈ operations id [x], e.1.Forgets = false) : Looked id P (tr ++ [x]) := by
  obtain ⟨past, look, since, event, rfl, hlook, hp, hsince⟩ := h
  refine ⟨past, look, since ++ [x], event, by simp, hlook, hp, fun e he => ?_⟩
  rw [← List.cons_append, operations_append] at he
  exact (List.mem_append.mp he).elim (hsince e) (hx e)

theorem looked_now {now : Instant} {event : OpEvent K} (ho : event.1.Forgets = false)
    (h : P tr now.steady) : Looked id P (tr ++ [⟨now, .operated id event⟩]) := by
  refine ⟨tr, _, [], event, rfl, rfl, h, fun e he => ?_⟩
  rw [operations_operated_self] at he
  exact List.mem_singleton.mp he ▸ ho

end Looks

/-- What an operation has found in order in the pass it is in: no cancellation of its
goal was accepted, no navigation action is active, the manipulation state allows motion,
and there is no collision stop, or one that a patient operation may wait out. -/
structure Cleared [Field K] [LinearOrder K] (node : Node K) (id : ℕ) (patient : Bool)
    (tr : List (Entry K)) : Prop where
  wanted : Looked id (fun past _ => ¬ Canceled id past) tr
  alone : Looked id (fun past _ => ∀ topic, (news past).navigating topic = false) tr
  fit : Looked id (fun past _ => validState (news past).manipulation = true) tr
  clear : Looked id (fun past now => ∀ since ∈ (news past).stopSince, patient = true ∧
    Double.numGT (elapsed now since) node.settings.parameters.collisionStopTimeout = false) tr

section Checking
variable [Field K] [LinearOrder K] {node : Node K} {id : ℕ} {patient : Bool}

/-- What passed a check was so. -/
structure Backed (node : Node K) (id : ℕ) (patient : Bool) (tr : List (Entry K)) (c : Checks) :
    Prop where
  wanted : c.wanted = true → Looked id (fun past _ => ¬ Canceled id past) tr
  alone : c.alone = true →
    Looked id (fun past _ => ∀ topic, (news past).navigating topic = false) tr
  fit : c.fit = true → Looked id (fun past _ => validState (news past).manipulation = true) tr
  clear : c.clear = true →
    Looked id (fun past now => ∀ since ∈ (news past).stopSince, patient = true ∧
      Double.numGT (elapsed now since) node.settings.parameters.collisionStopTimeout = false) tr

namespace Backed
variable {tr : List (Entry K)} {c : Checks}

theorem unread : Backed node id patient tr .unread := ⟨nofun, nofun, nofun, nofun⟩

theorem cleared (h : Backed node id patient tr c) (hc : c.Passed) : Cleared node id patient tr :=
  ⟨h.wanted hc.wanted, h.alone hc.alone, h.fit hc.fit, h.clear hc.clear⟩

theorem extend (h : Backed node id patient tr c) {x : Entry K}
    (hx : ∀ e ∈ operations id [x], e.1.Forgets = false) : Backed node id patient (tr ++ [x]) c where
  wanted hc := (h.wanted hc).extend hx
  alone hc := (h.alone hc).extend hx
  fit hc := (h.fit hc).extend hx
  clear hc := (h.clear hc).extend hx

/-- What an operation finds is what the news say. -/
theorem operated {s : Server K} {thread : Thread K} {now : Instant} {event : OpEvent K}
    {shared : Shared K} {handle : HandleState} (h : Backed node id patient tr c)
    (hinformed : Informed s.shared (news tr)) (hhandled : Handled s tr)
    (hid : s.threads[id]? = some thread) (hal : (conductAfter (operations id tr)).allows event.1)
    (hw : operate node now (s.shared, thread.handle) event.1 = some (event.2, shared, handle)) :
    Backed node id patient (tr ++ [⟨now, .operated id event⟩]) (c.next patient event.1 event.2) := by
  obtain ⟨o, a⟩ := event
  -- what was found before, unless the operation forgets it
  have keep (ho : o.Forgets = false) : Backed node id patient (tr ++ [⟨now, .operated id ⟨o, a⟩⟩]) c := by
    refine h.extend fun e he => ?_
    rw [operations_operated_self] at he
    obtain rfl := List.mem_singleton.mp he
    exact ho
  cases o with
  | isCanceling =>
    refine { keep rfl with wanted := fun hfound => looked_now rfl ?_ }
    obtain rfl : a = false := by simpa [Checks.next] using hfound
    exact hhandled.uncanceled hid hal.1.ended hw
  | navigationActive =>
    refine { keep rfl with alone := fun hfound => looked_now rfl (hinformed.idle ?_) }
    obtain rfl : a = false := by simpa [Checks.next] using hfound
    exact (Prod.mk.inj (Option.some.inj hw)).1
  | collisionStopped =>
    refine { keep rfl with clear := fun hfound => looked_now rfl ?_ }
    obtain rfl : a = false := by simpa [Checks.next] using hfound
    rw [hinformed.unstopped (Prod.mk.inj (Option.some.inj hw)).1]
    exact nofun
  | collisionStopTimedOut =>
    refine { keep rfl with clear := fun hfound => looked_now rfl fun since hsince => ?_ }
    obtain ⟨rfl, rfl⟩ : patient = true ∧ a = false := by simpa [Checks.next] using hfound
    exact ⟨rfl, hinformed.patient (Prod.mk.inj (Option.some.inj hw)).1 since hsince⟩
  | currentManipulationState =>
    refine { keep rfl with fit := fun hfound => looked_now rfl ?_ }
    obtain rfl : s.shared.acquisition.manipulationState = a := (Prod.mk.inj (Option.some.inj hw)).1
    rwa [← hinformed.manipulation]
  | stableMeasurement =>
    refine { keep rfl with fit := fun hfound => looked_now rfl ?_ }
    obtain ⟨state, measurement⟩ := a
    obtain rfl : s.shared.acquisition.manipulationState = state :=
      congrArg Prod.fst (Prod.mk.inj (Option.some.inj hw)).1
    rw [← hinformed.manipulation]
    exact ((Bool.and_eq_true _ _).mp hfound).1
  | ok =>
    have hkept := keep rfl
    exact ⟨hkept.wanted, hkept.alone, hkept.fit, hkept.clear⟩
  | writeCommand | writeRotation | sleep => exact unread
  | _ => exact keep rfl

end Backed

end Checking

/-! ### The whole server -/

section System
variable [Field K] [LinearOrder K] {node : Node K} {s s' : Server K} {tr : List (Entry K)}

/-- A tick that publishes a command of an operation has found navigation idle. -/
def AllCurrent (tr : List (Entry K)) : Prop :=
  ∀ before e time command, before ++ [e] <+: tr →
    e.occurrence = .ticked ⟨.selectCommand time, .operation false command⟩ →
      ∀ topic, (news before).navigating topic = false

omit [Field K] [LinearOrder K] in
theorem AllCurrent.snoc (h : AllCurrent tr) {x : Entry K}
    (hx : ∀ time command, x.occurrence = .ticked ⟨.selectCommand time, .operation false command⟩ →
      ∀ topic, (news tr).navigating topic = false) : AllCurrent (tr ++ [x]) := by
  intro before e time command hpre he
  obtain heq | hpre := List.prefix_concat_iff.mp hpre
  · obtain ⟨rfl, hlast⟩ := List.append_inj' heq rfl
    obtain rfl := List.singleton_inj.mp hlast
    exact hx time command he
  · exact h before e time command hpre he

/-- What holds of every state and its trace. -/
structure Watched (node : Node K) (s : Server K) (tr : List (Entry K)) : Prop where
  owned : Owned node s tr
  informed : Informed s.shared (news tr)
  handled : Handled s tr
  backed : ∀ id patient,
    Backed node id patient tr ((checking K patient).after .unread (operations id tr))
  current : AllCurrent tr

theorem Watched.initial : Watched node (.initial node) [] where
  owned := Owned.initial
  informed := ⟨activeMask_idle.symm, rfl, rfl, rfl⟩
  handled := Handled.initial
  backed _ _ := Backed.unread
  current := by simp [AllCurrent]

omit [Field K] [LinearOrder K] in
theorem Backed.silent [Field K] [LinearOrder K] {node : Node K} {id : ℕ} {patient : Bool}
    (h : Backed node id patient tr ((checking K patient).after .unread (operations id tr)))
    {x : Entry K} (hx : operations id [x] = []) : Backed node id patient (tr ++ [x])
      ((checking K patient).after .unread (operations id (tr ++ [x]))) := by
  rw [operations_append_silent hx]
  exact h.extend (by simp [hx])

theorem Watched.backed_moves (h : Watched node s tr) {now : Instant} {entries : List (Entry K)}
    (hm : Moves node now s s' entries) (id : ℕ) (patient : Bool) :
    Backed node id patient (tr ++ entries)
      ((checking K patient).after .unread (operations id (tr ++ entries))) := by
  cases hm with
  | idle ok terminated =>
    rw [List.append_nil]
    exact h.backed id patient
  | operated id' thread event program shared handle hid hn hw =>
    by_cases heq : id' = id
    · subst heq
      have hsteps := (h.owned.runs id' thread hid).trans (.cons hn (.refl program))
      have hal := (obedient_snoc.mp (obedient_of_steps hsteps)).2
      rw [operations_snoc_self, Discipline.after_append]
      exact (h.backed id' patient).operated h.informed h.handled hid hal hw
    · exact (h.backed id patient).silent (operations_operated_of_ne heq now event)
  | _ => exact (h.backed id patient).silent (operations_of_none rfl)

theorem Watched.current_moves (h : Watched node s tr) {now : Instant} {entries : List (Entry K)}
    (hm : Moves node now s s' entries) : AllCurrent (tr ++ entries) := by
  cases hm with
  | idle ok terminated =>
    rw [List.append_nil]
    exact h.current
  | ticked event program shared lookup hn hw =>
    refine h.current.snoc fun time command heq => h.informed.idle ?_
    cases heq
    have hselect := congrArg Prod.fst (answerTick_select hw)
    cases hactive : s.shared.mux.operationActive with
    | true =>
      rw [Mux.select_owned node hactive] at hselect
      exact (Selection.operation.inj hselect).1
    | false =>
      rw [Mux.select_free node hactive] at hselect
      cases hselect
  | _ =>
    refine h.current.snoc fun time command heq => ?_
    cases heq

theorem watched_serve (node : Node K) (inputs : List (Stimulus K)) :
    Watched node (serve node inputs).1 (serve node inputs).2 := by
  induction inputs using List.reverseRecOn with
  | nil => exact Watched.initial
  | append_singleton inputs x ih =>
    unfold serve at ih ⊢
    rw [run_snoc]
    have hm := step_moves node x (run (step node) (.initial node) inputs).1
    exact ⟨ih.owned.moves hm, ih.informed.moves hm, ih.handled.moves hm,
      ih.backed_moves hm, ih.current_moves hm⟩

/-- An operation has passed its checks when it writes a command. -/
theorem cleared_of_write {inputs : List (Stimulus K)} {before after : List (Entry K)}
    {write : Entry K} {id : ℕ} {goal : Goal K} {event : OpEvent K}
    (htrace : (serve node inputs).2 = before ++ write :: after)
    (haccepted : ∃ e ∈ before, e.occurrence = .accepted id goal)
    (hwrite : write.occurrence = .operated id event) (hcommand : event.1.command?.isSome = true) :
    Cleared node id goal.isPatient before := by
  obtain ⟨inputs₁, htrace₁⟩ := exists_serve_of_prefix ⟨_, htrace.symm⟩
  have hbefore := watched_serve node inputs₁
  rw [htrace₁] at hbefore
  rw [List.append_cons] at htrace
  obtain ⟨inputs₂, htrace₂⟩ := exists_serve_of_prefix ⟨after, htrace.symm⟩
  have hafter := heard_serve node inputs₂
  rw [htrace₂] at hafter
  obtain ⟨e, he, heq⟩ := haccepted
  have hgoal := (hafter.listed id goal).mp ⟨e, List.mem_append_left _ he, heq⟩
  obtain ⟨thread, hid, rfl⟩ := List.getElem?_map ▸ hgoal |> Option.map_eq_some_iff.mp
  have hsteps := hafter.owned.runs id thread hid
  obtain ⟨now, occurrence⟩ := write
  obtain rfl : occurrence = .operated id event := hwrite
  rw [operations_snoc_self] at hsteps
  have hobeys := (check_body (c := .unread) thread.goal _ _ hsteps).1
  exact (hbefore.backed id _).cleared ((Discipline.obeys_snoc.mp hobeys).2 hcommand)

/-- Behind a command of an operation that is published stands a write on passed checks. -/
theorem exists_cleared_write {inputs : List (Stimulus K)} {earlier later : List (Entry K)}
    {now : Instant} {time : TimePoint} {active : Bool} {command : Twist (Double K)}
    (hlawful : AllLawful node (serve node inputs).2)
    (h : (serve node inputs).2 =
      earlier ++ ⟨now, .ticked ⟨.selectCommand time, .operation active command⟩⟩ :: later)
    (hmoves : command ≠ 0) :
    active = false ∧ ∃ id goal event written before write after,
      earlier = before ++ write :: after ∧
      (∃ e ∈ before, e.occurrence = .accepted id goal) ∧
      write.occurrence = .operated id event ∧ event.1.command? = some written ∧
      command = written.finite ∧
      Double.numLE (elapsed time write.now.steady) node.commandTimeout = true ∧
      Cleared node id goal.isPatient before := by
  have hpre : earlier ++ [⟨now, .ticked ⟨.selectCommand time, .operation active command⟩⟩] <+:
      (serve node inputs).2 := ⟨later, by simp [h]⟩
  cases hlawful _ _ _ _ hpre rfl with
  | zero selection hzero => exact absurd hzero hmoves
  | @operation id goal start older newer accepted write event written hbefore haccepted howner
      hmoving hwrite hcommand hlast hrecent =>
    have hsplit : earlier = (start ++ accepted :: older) ++ write :: newer := by simp [hbefore]
    have hgiven : ∃ e ∈ start ++ accepted :: older, e.occurrence = .accepted id goal :=
      ⟨accepted, by simp, haccepted⟩
    refine ⟨rfl, id, goal, event, written, _, write, newer, hsplit, hgiven, hwrite, hcommand, rfl,
      hrecent, ?_⟩
    rw [hsplit, List.append_assoc, List.cons_append] at h
    exact cleared_of_write h hgiven hwrite (by simp [hcommand])

theorem idle_of_selected {inputs : List (Stimulus K)} {earlier later : List (Entry K)}
    {now : Instant} {time : TimePoint} {command : Twist (Double K)}
    (h : (serve node inputs).2 =
      earlier ++ ⟨now, .ticked ⟨.selectCommand time, .operation false command⟩⟩ :: later) :
    ∀ topic, (news earlier).navigating topic = false := by
  have hpre : earlier ++ [⟨now, .ticked ⟨.selectCommand time, .operation false command⟩⟩] <+:
      (serve node inputs).2 := ⟨later, by simp [h]⟩
  exact (watched_serve node inputs).current _ _ _ _ hpre rfl

variable [IsStrictOrderedRing K]

theorem allLawful_serve (node : Node K) (inputs : List (Stimulus K))
    (hclock : (inputs.map (·.now.steady)).Pairwise (· ≤ ·)) :
    AllLawful node (serve node inputs).2 := by
  obtain ⟨latest, hrun⟩ := run_keeps_later accounted_initial (fun hle h => h.later hle)
    (fun x s tr h => h.moves (step_moves node x s)) inputs hclock
  exact hrun.lawful

/-- Whatever the order of events, under a steady clock that does not go back every command
that moves the robot for an operation is one that its operation has written not longer ago
than the timeout, after it found in the same pass that it was free to move; and navigation
is idle when the command is published. -/
theorem motion_cleared (node : Node K) (inputs : List (Stimulus K))
    (hclock : (inputs.map (·.now.steady)).Pairwise (· ≤ ·)) {earlier later : List (Entry K)}
    {now : Instant} {time : TimePoint} {active : Bool} {command : Twist (Double K)}
    (h : (serve node inputs).2 =
      earlier ++ ⟨now, .ticked ⟨.selectCommand time, .operation active command⟩⟩ :: later)
    (hmoves : command ≠ 0) :
    (∀ topic, (news earlier).navigating topic = false) ∧
    ∃ id goal event written before write after,
      earlier = before ++ write :: after ∧
      (∃ e ∈ before, e.occurrence = .accepted id goal) ∧
      write.occurrence = .operated id event ∧ event.1.command? = some written ∧
      command = written.finite ∧
      Double.numLE (elapsed time write.now.steady) node.commandTimeout = true ∧
      Cleared node id goal.isPatient before := by
  obtain ⟨rfl, hwritten⟩ := exists_cleared_write (allLawful_serve node inputs hclock) h hmoves
  exact ⟨idle_of_selected h, hwritten⟩

end System

/-- The command that an entry publishes for an operation. -/
def Entry.moving? (x : Entry K) : Option (Twist (Double K)) :=
  match x.occurrence with
  | .ticked ⟨.selectCommand _, .operation _ command⟩ => some command
  | _ => none

theorem Entry.eq_of_moving? {x : Entry K} {command : Twist (Double K)}
    (h : x.moving? = some command) : ∃ now time active,
      x = ⟨now, .ticked ⟨.selectCommand time, .operation active command⟩⟩ := by
  obtain ⟨now, occurrence⟩ := x
  unfold moving? at h
  dsimp only at h
  split at h
  · next time active command' =>
    obtain rfl := Option.some.inj h
    exact ⟨now, time, active, rfl⟩
  · cases h

theorem motion_cleared_turning : ∃ (id : ℕ) (goal : Goal ℚ) (before : List (Entry ℚ)),
    before <+: (serve .declared turning).2 ∧ Cleared .declared id goal.isPatient before := by
  have hlength : (serve .declared turning).2.length = 13 := by decide +kernel
  have hlt : 12 < (serve .declared turning).2.length := by omega
  have hmoving : ((serve .declared turning).2.get ⟨12, hlt⟩).moving? =
      some ⟨0, ⟨0, 0, .finite (1 / 4)⟩⟩ := by
    revert hlt
    decide +kernel
  obtain ⟨now, time, active, heq⟩ := Entry.eq_of_moving? hmoving
  have hsplit : (serve .declared turning).2 = (serve .declared turning).2.take 12 ++
      ⟨now, .ticked ⟨.selectCommand time, .operation active ⟨0, ⟨0, 0, .finite (1 / 4)⟩⟩⟩⟩ :: [] := by
    rw [← heq, List.get_eq_getElem, List.take_append_getElem, List.take_of_length_le (by omega)]
  obtain ⟨-, id, goal, event, written, before, write, after, hbefore, -, -, -, -, -, hcleared⟩ :=
    motion_cleared .declared turning (by decide +kernel) hsplit (by decide +kernel)
  refine ⟨id, goal, before, ?_, hcleared⟩
  have hpre : before <+: (serve .declared turning).2.take 12 := ⟨write :: after, hbefore.symm⟩
  exact hpre.trans (List.take_prefix 12 _)

end X2Navigation.FineAlignServer
