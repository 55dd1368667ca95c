import X2Navigation.Server.Contract
import X2Navigation.Server.System

/-! Every interleaving leaves at most one operation unfinished. The operation that
took the flag is the only thread with anything left to do, and it gives the flag
back with its last step. -/

namespace X2Navigation.FineAlignServer

open Interaction Program Traced

variable {K : Type}

def Occurrence.operation? (id : ℕ) : Occurrence K → Option (OpEvent K)
  | .operated id' event => if id' = id then some event else none
  | _ => none

/-- What an operation has done so far. -/
def operations (id : ℕ) (tr : List (Entry K)) : List (OpEvent K) :=
  tr.filterMap (·.occurrence.operation? id)

@[simp] theorem operations_append (id : ℕ) (tr tr' : List (Entry K)) :
    operations id (tr ++ tr') = operations id tr ++ operations id tr' := List.filterMap_append

section
variable {id : ℕ} {x : Entry K}

theorem operations_of_some {event : OpEvent K} (h : x.occurrence.operation? id = some event) :
    operations id [x] = [event] := by
  rw [operations, List.filterMap_cons_some (by exact h), List.filterMap_nil]

/-- What is no operation leaves no trace. -/
theorem operations_of_none (h : x.occurrence.operation? id = none) : operations id [x] = [] := by
  rw [operations, List.filterMap_cons_none (by exact h), List.filterMap_nil]

end

theorem operations_operated_self (id : ℕ) (now : Instant) (e : OpEvent K) :
    operations id [⟨now, .operated id e⟩] = [e] := operations_of_some (if_pos rfl)

theorem operations_operated_of_ne {id id' : ℕ} (h : id' ≠ id) (now : Instant) (e : OpEvent K) :
    operations id [⟨now, .operated id' e⟩] = [] := operations_of_none (if_neg h)

/-- Entries that are none of its own do not change what an operation has done. -/
theorem operations_append_silent {id : ℕ} {entries : List (Entry K)}
    (h : operations id entries = []) (tr : List (Entry K)) :
    operations id (tr ++ entries) = operations id tr := by
  rw [operations_append, h, List.append_nil]

theorem operations_snoc_self (id : ℕ) (tr : List (Entry K)) (now : Instant) (e : OpEvent K) :
    operations id (tr ++ [⟨now, .operated id e⟩]) = operations id tr ++ [e] := by
  rw [operations_append, operations_operated_self]

theorem mem_operations_of_mem {tr : List (Entry K)} {x : Entry K} {id : ℕ} {event : OpEvent K}
    (hx : x ∈ tr) (hevent : x.occurrence = .operated id event) : event ∈ operations id tr := by
  refine List.mem_filterMap.mpr ⟨x, hx, ?_⟩
  rw [hevent]
  exact if_pos rfl

/-- The operation has given the flag back. -/
def Released (id : ℕ) (tr : List (Entry K)) : Prop := ⟨.release, ()⟩ ∈ operations id tr

/-- A cancellation of the goal was accepted. -/
def Canceled (id : ℕ) (tr : List (Entry K)) : Prop := ∃ e ∈ tr, e.occurrence = .canceled id

theorem Canceled.append {id : ℕ} {tr : List (Entry K)} (h : Canceled id tr) (tr' : List (Entry K)) :
    Canceled id (tr ++ tr') := by
  obtain ⟨e, he, heq⟩ := h
  exact ⟨e, List.mem_append_left _ he, heq⟩

variable [Field K] [LinearOrder K] {node : Node K}

/-! ### What an operation changes -/

section Refusable
variable {now : Instant} {s s' : Shared K} {h h' : HandleState}

/-- An activation that is carried out changes the acquisition alone. -/
theorem of_operate_activateProfile {requested instanceId : String} {undocking : Bool}
    {resolved : Option String}
    (hw : operate node now (s, h) (.activateProfile requested undocking instanceId) =
      some (resolved, s', h')) :
    ∃ acquisition, s.acquisition.activateProfile node now.ros requested undocking instanceId =
        some (resolved, acquisition) ∧
      s' = { s with acquisition := acquisition } ∧ h' = h := by
  obtain ⟨⟨resolved', acquisition⟩, hactivate, heq⟩ := Option.map_eq_some_iff.mp hw
  cases heq
  exact ⟨acquisition, hactivate, rfl, rfl⟩

/-- A goal that is ended changes the handle alone. -/
theorem of_operate_terminate {outcome : Outcome} {result : Result K} {a : Unit}
    (hw : operate node now (s, h) (.terminate outcome result) = some (a, s', h')) :
    h.terminate outcome = some h' ∧ s' = s := by
  obtain ⟨handle, hhandle, heq⟩ := Option.map_eq_some_iff.mp hw
  cases heq
  exact ⟨hhandle, rfl⟩

end Refusable

theorem operate_mux {now : Instant} {s s' : Shared K} {h h' : HandleState} {o : Op K} {a : o.Answer}
    (hw : operate node now (s, h) o = some (a, s', h')) : s'.mux = s.mux.operate now.steady o := by
  cases o with
  | activateProfile requested undocking instanceId =>
    obtain ⟨acquisition, -, rfl, -⟩ := of_operate_activateProfile hw
    rfl
  | terminate outcome result =>
    obtain ⟨-, rfl⟩ := of_operate_terminate hw
    rfl
  | _ =>
    cases hw
    rfl

theorem operate_handle {now : Instant} {s s' : Shared K} {h h' : HandleState} {o : Op K}
    {a : o.Answer} (hw : operate node now (s, h) o = some (a, s', h')) :
    h' = .canceling → h = .canceling := by
  cases o with
  | activateProfile requested undocking instanceId =>
    obtain ⟨acquisition, -, -, rfl⟩ := of_operate_activateProfile hw
    exact id
  | terminate outcome result =>
    obtain ⟨hh, -⟩ := of_operate_terminate hw
    rintro rfl
    cases h with
    | executing => simp [HandleState.terminate] at hh
    | canceling => rfl
    | ended outcome => cases hh
  | _ =>
    cases hw
    exact id

theorem operate_isCanceling {now : Instant} {s s' : Shared K} {h h' : HandleState}
    (hw : operate node now (s, h) .isCanceling = some (true, s', h')) : h = .canceling := by
  simpa using (Prod.mk.inj (Option.some.inj hw)).1

omit [LinearOrder K] in
theorem operationActive_operate (now : TimePoint) (mux : Mux K) (o : Op K) :
    (mux.operate now o).operationActive = true ↔ mux.operationActive = true ∧ o ≠ .release := by
  cases o <;> simp [Mux.operate]

theorem operationActive_receive (now : Instant) (s : Shared K) (message : Message K) :
    (s.receive node now message).mux.operationActive = s.mux.operationActive := by
  cases message with
  | navCommand command =>
    simp only [Shared.receive, Mux.update]
    split <;> rfl
  | navRawCommand command =>
    simp only [Shared.receive, Mux.updateRaw]
    split <;> rfl
  | collisionState stop => cases stop <;> rfl
  | _ => rfl

theorem answerTick_select {now : Instant} {lookup : Lookup K} {s s' : Shared K} {time : TimePoint}
    {a : Selection K} (hw : answerTick node now lookup s (.selectCommand time) = some (a, s')) :
    s.mux.select node s.navigationActive time = (a, s'.mux) := by
  cases hw
  rfl

theorem answerTick_mux {now : Instant} {lookup : Lookup K} {s s' : Shared K} {o : TickOp K}
    {a : o.Answer} (hw : answerTick node now lookup s o = some (a, s'))
    (ho : ∀ time, o ≠ .selectCommand time) : s'.mux = s.mux := by
  cases o with
  | selectCommand time => exact absurd rfl (ho time)
  | escape => cases hw
  | _ =>
    cases hw
    rfl

theorem operationActive_answerTick {now : Instant} {lookup : Lookup K} {s s' : Shared K}
    {o : TickOp K} {a : o.Answer} (hw : answerTick node now lookup s o = some (a, s')) :
    s'.mux.operationActive = s.mux.operationActive := by
  by_cases ho : ∃ time, o = .selectCommand time
  · obtain ⟨time, rfl⟩ := ho
    have hselect := answerTick_select hw
    cases hactive : s.mux.operationActive with
    | true =>
      rw [Mux.select_owned node hactive] at hselect
      rw [← (Prod.mk.inj hselect).2, hactive]
    | false =>
      rw [Mux.select_free node hactive] at hselect
      rw [← (Prod.mk.inj hselect).2]
      exact hactive
  · rw [answerTick_mux hw fun time heq => ho ⟨time, heq⟩]

/-! ### Ownership -/

/-- Every thread has got from its body to what is left of it, only the last one may
not have given the flag back, and the flag says whether it has not. -/
structure Owned (node : Node K) (s : Server K) (tr : List (Entry K)) : Prop where
  runs : ∀ id thread, s.threads[id]? = some thread →
    Steps (body node.m node.settings thread.goal) (operations id tr) thread.program
  unborn : ∀ id, s.threads.length ≤ id → operations id tr = []
  earlier : ∀ id, id + 1 < s.threads.length → Released id tr
  flag : s.shared.mux.operationActive = true ↔ ∃ id, id + 1 = s.threads.length ∧ ¬ Released id tr
  canceled : ∀ id thread, s.threads[id]? = some thread →
    thread.handle = .canceling ∨ ⟨.isCanceling, true⟩ ∈ operations id tr → Canceled id tr

namespace Owned
variable {s : Server K} {tr : List (Entry K)}

theorem initial : Owned node (.initial node) [] where
  runs := by simp [Server.initial]
  unborn := by simp [operations]
  earlier := by simp [Server.initial]
  flag := by simp [Server.initial, Shared.initial, Mux.initial]
  canceled := by simp [Server.initial]

/-- An entry of no operation changes nothing for the threads. -/
theorem of_silent (h : Owned node s tr) {s' : Server K} {entries : List (Entry K)}
    (hsilent : ∀ id, operations id entries = []) (hthreads : s'.threads = s.threads)
    (hflag : s'.shared.mux.operationActive = s.shared.mux.operationActive) :
    Owned node s' (tr ++ entries) := by
  have hops : ∀ id, operations id (tr ++ entries) = operations id tr :=
    fun id => operations_append_silent (hsilent id) tr
  constructor
  · intro id thread hid
    rw [hops]
    rw [hthreads] at hid
    exact h.runs id thread hid
  · intro id hid
    rw [hops]
    rw [hthreads] at hid
    exact h.unborn id hid
  · intro id hid
    rw [Released, hops]
    rw [hthreads] at hid
    exact h.earlier id hid
  · simp only [hflag, hthreads, Released, hops]
    exact h.flag
  · intro id thread hid hcan
    rw [hops] at hcan
    rw [hthreads] at hid
    exact (h.canceled id thread hid hcan).append entries

/-- A thread with something left to do owns the flag. -/
theorem last (h : Owned node s tr) {id : ℕ} {thread : Thread K} {event : OpEvent K}
    {program : Operation K Unit} (hid : s.threads[id]? = some thread)
    (hn : Next thread.program event program) :
    id + 1 = s.threads.length ∧ ¬ Released id tr := by
  have hopen : ¬ Released id tr := not_released_of_next (h.runs id thread hid) hn
  have hlt : id < s.threads.length := (List.getElem?_eq_some_iff.mp hid).1
  have hearlier : ¬ id + 1 < s.threads.length := fun hlt' => hopen (h.earlier id hlt')
  exact ⟨by omega, hopen⟩

theorem accepted (h : Owned node s tr) (now : Instant) (goal : Goal K)
    (hfree : s.shared.mux.operationActive = false) :
    Owned node
      { s with
        shared := { s.shared with mux := { s.shared.mux with operationActive := true } }
        threads := s.threads ++ [⟨goal, .executing, body node.m node.settings goal⟩] }
      (tr ++ [⟨now, .accepted s.threads.length goal⟩]) := by
  have hops : ∀ id, operations id (tr ++ [⟨now, .accepted s.threads.length goal⟩]) =
      operations id tr := fun id => operations_append_silent (operations_of_none rfl) tr
  have hnew : operations s.threads.length tr = [] := h.unborn _ le_rfl
  have hcases : ∀ id thread,
      (s.threads ++ [⟨goal, .executing, body node.m node.settings goal⟩])[id]? = some thread →
      s.threads[id]? = some thread ∨
        id = s.threads.length ∧ thread = ⟨goal, .executing, body node.m node.settings goal⟩ := by
    intro id thread hid
    by_cases hlt : id < s.threads.length
    · rw [List.getElem?_append_left hlt] at hid
      exact .inl hid
    · rw [List.getElem?_append_right (by omega), List.getElem?_singleton] at hid
      have hzero : id - s.threads.length = 0 := by
        by_contra hne
        rw [if_neg hne] at hid
        cases hid
      rw [if_pos hzero] at hid
      exact .inr ⟨by omega, (Option.some.inj hid).symm⟩
  constructor
  · intro id thread hid
    rw [hops]
    obtain hold | ⟨rfl, rfl⟩ := hcases id thread hid
    · exact h.runs id thread hold
    · rw [hnew]
      exact .refl _
  · intro id hid
    rw [hops]
    simp only [List.length_append, List.length_singleton] at hid
    exact h.unborn id (by omega)
  · intro id hid
    rw [Released, hops]
    simp only [List.length_append, List.length_singleton] at hid
    by_cases hlt : id + 1 < s.threads.length
    · exact h.earlier id hlt
    · have hnone : ¬ ∃ id, id + 1 = s.threads.length ∧ ¬ Released id tr := by
        rw [← h.flag, hfree]
        exact Bool.false_ne_true
      by_contra hopen
      exact hnone ⟨id, by omega, hopen⟩
  · simp only [Released, hops, List.length_append, List.length_singleton, true_iff]
    exact ⟨s.threads.length, rfl, by simp [hnew]⟩
  · intro id thread hid hcan
    rw [hops] at hcan
    obtain hold | ⟨rfl, rfl⟩ := hcases id thread hid
    · exact (h.canceled id thread hold hcan).append _
    · simp [hnew] at hcan

theorem canceling (h : Owned node s tr) (now : Instant) {id : ℕ} {thread : Thread K}
    (hid : s.threads[id]? = some thread) :
    Owned node { s with threads := s.threads.set id { thread with handle := .canceling } }
      (tr ++ [⟨now, .canceled id⟩]) := by
  have hops : ∀ id', operations id' (tr ++ [⟨now, .canceled id⟩]) = operations id' tr :=
    fun id' => operations_append_silent (operations_of_none rfl) tr
  have hlt : id < s.threads.length := (List.getElem?_eq_some_iff.mp hid).1
  constructor
  · intro id' thread' hid'
    rw [hops]
    by_cases heq : id = id'
    · subst heq
      rw [List.getElem?_set_self hlt] at hid'
      obtain rfl := Option.some.inj hid'
      exact h.runs id thread hid
    · rw [List.getElem?_set_ne heq] at hid'
      exact h.runs id' thread' hid'
  · intro id' hid'
    rw [hops]
    rw [List.length_set] at hid'
    exact h.unborn id' hid'
  · intro id' hid'
    rw [Released, hops]
    rw [List.length_set] at hid'
    exact h.earlier id' hid'
  · simp only [Released, hops, List.length_set]
    exact h.flag
  · intro id' thread' hid' hcan
    rw [hops] at hcan
    by_cases heq : id = id'
    · subst heq
      exact ⟨⟨now, .canceled id⟩, by simp, rfl⟩
    · rw [List.getElem?_set_ne heq] at hid'
      exact (h.canceled id' thread' hid' hcan).append _

theorem operated (h : Owned node s tr) {now : Instant} {id : ℕ} {thread : Thread K}
    {event : OpEvent K} {program : Operation K Unit} {shared : Shared K} {handle : HandleState}
    (hid : s.threads[id]? = some thread) (hn : Next thread.program event program)
    (hw : operate node now (s.shared, thread.handle) event.1 = some (event.2, shared, handle)) :
    Owned node
      { s with
        shared := shared
        threads := s.threads.set id { thread with handle := handle, program := program } }
      (tr ++ [⟨now, .operated id event⟩]) := by
  obtain ⟨hlast, hopen⟩ := h.last hid hn
  have hlt : id < s.threads.length := by omega
  have hself := operations_snoc_self id tr now event
  have hother : ∀ id', id ≠ id' →
      operations id' (tr ++ [⟨now, .operated id event⟩]) = operations id' tr :=
    fun id' hne => operations_append_silent (operations_operated_of_ne hne now event) tr
  constructor
  · intro id' thread' hid'
    by_cases heq : id = id'
    · subst heq
      rw [List.getElem?_set_self hlt] at hid'
      obtain rfl := Option.some.inj hid'
      rw [hself]
      exact (h.runs id thread hid).trans (.cons hn (.refl program))
    · rw [List.getElem?_set_ne heq] at hid'
      rw [hother id' heq]
      exact h.runs id' thread' hid'
  · intro id' hid'
    rw [List.length_set] at hid'
    rw [hother id' (by omega)]
    exact h.unborn id' hid'
  · intro id' hid'
    rw [List.length_set] at hid'
    rw [Released, hother id' (by omega)]
    exact h.earlier id' hid'
  · have hactive : s.shared.mux.operationActive = true := h.flag.mpr ⟨id, hlast, hopen⟩
    have hrelease : Released id (tr ++ [⟨now, .operated id event⟩]) ↔ event.1 = .release := by
      obtain ⟨o, a⟩ := event
      rw [Released, hself, List.mem_append, List.mem_singleton]
      constructor
      · rintro (hmem | heq)
        · exact absurd hmem hopen
        · cases heq
          rfl
      · rintro rfl
        exact .inr rfl
    rw [operate_mux hw, operationActive_operate]
    simp only [hactive, true_and, List.length_set]
    constructor
    · intro hne
      exact ⟨id, hlast, fun hr => hne (hrelease.mp hr)⟩
    · rintro ⟨id', hid', hr⟩ he
      obtain rfl : id' = id := by omega
      exact hr (hrelease.mpr he)
  · intro id' thread' hid' hcan
    by_cases heq : id = id'
    · subst heq
      rw [List.getElem?_set_self hlt] at hid'
      obtain rfl := Option.some.inj hid'
      refine (h.canceled id thread hid ?_).append _
      rw [hself, List.mem_append, List.mem_singleton] at hcan
      obtain hhandle | hmem | heq := hcan
      · exact .inl (operate_handle hw hhandle)
      · exact .inr hmem
      · subst heq
        exact .inl (operate_isCanceling hw)
    · rw [List.getElem?_set_ne heq] at hid'
      rw [hother id' heq] at hcan
      exact (h.canceled id' thread' hid' hcan).append _

theorem moves (h : Owned node s tr) {now : Instant} {s' : Server K} {entries : List (Entry K)}
    (hm : Moves node now s s' entries) : Owned node s' (tr ++ entries) := by
  cases hm with
  | idle ok terminated => exact h.of_silent (by simp [operations]) rfl rfl
  | received message =>
    exact h.of_silent (fun _ => operations_of_none rfl) rfl
      (operationActive_receive now s.shared message)
  | rejected goal => exact h.of_silent (fun _ => operations_of_none rfl) rfl rfl
  | accepted goal hfree => exact h.accepted now goal hfree
  | canceled id thread hid => exact h.canceling now hid
  | operated id thread event program shared handle hid hn hw => exact h.operated hid hn hw
  | ticked event program shared lookup hn hw =>
    exact h.of_silent (fun _ => operations_of_none rfl) rfl (operationActive_answerTick hw)

end Owned

theorem owned_serve (node : Node K) (inputs : List (Stimulus K)) :
    Owned node (serve node inputs).1 (serve node inputs).2 := by
  induction inputs using List.reverseRecOn with
  | nil => exact Owned.initial
  | append_singleton inputs x ih =>
    unfold serve at ih ⊢
    rw [run_snoc]
    exact ih.moves (step_moves node x _)

/-! ### One operation at a time -/

/-- The body of an accepted goal has not returned. -/
def Unfinished (s : Server K) (id : ℕ) : Prop :=
  ∃ thread, s.threads[id]? = some thread ∧ thread.program.result? = none

omit [LinearOrder K] in
/-- Every operation can be answered. -/
theorem Op.exists_answer (o : Op K) : Nonempty o.Answer := by
  cases o with
  | activeProfile => exact ⟨⟨"", 0, "", 0, 0, 0, "", .tagRelative, 0, 0, .tag⟩, ""⟩
  | stableMeasurement => exact ⟨.unknown, none⟩
  | currentManipulationState => exact ⟨.unknown⟩
  | _ => exact ⟨default⟩

omit [LinearOrder K] in
/-- A body that has not returned has something left to do. -/
theorem Program.exists_next {p : Operation K Unit} (h : p.result? = none) :
    ∃ event p', Next p event p' := by
  cases p with
  | pure a => cases h
  | perform o k =>
    obtain ⟨a⟩ := Op.exists_answer o
    exact ⟨_, _, .perform o k a⟩
  | loop guard body x k =>
    obtain ⟨a⟩ := Op.exists_answer guard
    exact ⟨_, _, .loop guard body x k a⟩

theorem Owned.unfinished_iff {s : Server K} {tr : List (Entry K)} (h : Owned node s tr) (id : ℕ) :
    Unfinished s id ↔ id + 1 = s.threads.length ∧ ¬ Released id tr := by
  constructor
  · rintro ⟨thread, hid, hnone⟩
    obtain ⟨event, p', hn⟩ := Program.exists_next hnone
    exact h.last hid hn
  · rintro ⟨hlast, hopen⟩
    have hlt : id < s.threads.length := by omega
    refine ⟨s.threads[id], List.getElem?_eq_getElem hlt, ?_⟩
    have hruns := h.runs id _ (List.getElem?_eq_getElem hlt)
    cases hresult : (s.threads[id]).program.result? with
    | none => rfl
    | some u =>
      rw [eq_pure_of_result? hresult] at hruns
      obtain ⟨outcome, result, before, heq, -⟩ := concluded_of_runs hruns
      refine absurd ?_ hopen
      rw [Released, heq]
      simp

/-- How every returned body has behaved: one terminal call, made on a stopped alignment
and canceled only if a cancellation of the goal was accepted, then one release. -/
def Fulfilled (s : Server K) (tr : List (Entry K)) : Prop :=
  ∀ id thread, s.threads[id]? = some thread → thread.program.result? = some () →
    ∃ outcome result, Concluded (operations id tr) outcome result ∧
      (outcome = .canceled → Canceled id tr)

/-- At most one accepted goal is unfinished, the flag is taken exactly while one is, and
every body that returned has ended its goal and given the flag back once. -/
theorem single_ownership (node : Node K) (inputs : List (Stimulus K)) :
    (∀ id id', Unfinished (serve node inputs).1 id → Unfinished (serve node inputs).1 id' →
      id = id') ∧
    ((serve node inputs).1.shared.mux.operationActive = true ↔
      ∃ id, Unfinished (serve node inputs).1 id) ∧
    Fulfilled (serve node inputs).1 (serve node inputs).2 := by
  have howned := owned_serve node inputs
  refine ⟨?_, ?_, ?_⟩
  · intro id id' hid hid'
    have h := (howned.unfinished_iff id).mp hid
    have h' := (howned.unfinished_iff id').mp hid'
    omega
  · rw [howned.flag]
    simp only [howned.unfinished_iff]
  · intro id thread hid hresult
    have hruns := howned.runs id thread hid
    rw [eq_pure_of_result? hresult] at hruns
    obtain ⟨outcome, result, before, heq, hends, hstopped, hseen⟩ := concluded_of_runs hruns
    refine ⟨outcome, result, ⟨before, heq, hends, hstopped, hseen⟩, fun hcanceled => ?_⟩
    refine howned.canceled id thread hid (.inr ?_)
    rw [heq]
    exact List.mem_append_left _ (hseen hcanceled)

end X2Navigation.FineAlignServer
