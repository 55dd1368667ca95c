import X2Navigation.Server.DockHistory
import X2Navigation.Server.Justification
import X2Navigation.Server.RetryDiscipline
import X2Navigation.Traced.Bus

/-! What a client is told about its goal is true. Every result of the server gives a
reason that its operation has seen, and what the operation has seen had been reported to
the server: a cancellation was accepted, a navigation action was active, the collision
monitor had stopped, or the manipulation state was told. -/

namespace X2Navigation.FineAlignServer

open Interaction Traced

variable {K : Type}

/-! ### What was reported -/

def Received (message : Message K) (tr : List (Entry K)) : Prop :=
  ∃ e ∈ tr, e.occurrence = .received message

/-- A navigation action was active. -/
def NavigationReported (tr : List (Entry K)) : Prop :=
  ∃ topic statuses, statuses.any GoalStatus.isActive = true ∧
    Received (.navStatus topic statuses) tr

/-- The state was told, or it is what the server starts with. -/
def StateReported (state : ManipulationState) (tr : List (Entry K)) : Prop :=
  state = .unknown ∨ Received (.manipulationState state) tr

section Growth
variable {tr : List (Entry K)}

theorem Received.append {message : Message K} (h : Received message tr) (tr' : List (Entry K)) :
    Received message (tr ++ tr') := by
  obtain ⟨e, he, heq⟩ := h
  exact ⟨e, List.mem_append_left _ he, heq⟩

theorem NavigationReported.append (h : NavigationReported tr) (tr' : List (Entry K)) :
    NavigationReported (tr ++ tr') := by
  obtain ⟨topic, statuses, hactive, h⟩ := h
  exact ⟨topic, statuses, hactive, h.append tr'⟩

theorem StateReported.append {state : ManipulationState} (h : StateReported state tr)
    (tr' : List (Entry K)) : StateReported state (tr ++ tr') := h.imp_right (·.append tr')

end Growth

section Sightings
variable (past : List (OpEvent K))

/-- The manipulation state was read, and it was neither empty nor holding. -/
def SawInvalid : Prop :=
  ∃ state, validState state = false ∧
    (⟨.currentManipulationState, state⟩ ∈ past ∨
      ∃ measurement, ⟨.stableMeasurement, (state, measurement)⟩ ∈ past)

def SawCollision : Prop :=
  ⟨.collisionStopped, true⟩ ∈ past ∨ ⟨.collisionStopTimedOut, true⟩ ∈ past

end Sightings

/-- What an operation has seen was reported. -/
structure Testified (tr : List (Entry K)) (past : List (OpEvent K)) : Prop where
  navigation : ⟨.navigationActive, true⟩ ∈ past → NavigationReported tr
  collision : SawCollision past → Received (.collisionState true) tr
  invalid : SawInvalid past → ∃ state, validState state = false ∧ StateReported state tr

/-- What the server knows was reported. -/
structure Told (s : Shared K) (tr : List (Entry K)) : Prop where
  navigation : s.navigationActive = true → NavigationReported tr
  collision : s.collisionStopped = true → Received (.collisionState true) tr
  manipulation : StateReported s.acquisition.manipulationState tr

/-- The two states know the same. -/
def SameNews (s s' : Shared K) : Prop :=
  s'.navActiveMask = s.navActiveMask ∧ s'.collisionStopped = s.collisionStopped ∧
    s'.collisionStopSince = s.collisionStopSince ∧
    s'.acquisition.manipulationState = s.acquisition.manipulationState

section News
variable {s s' : Shared K} {tr : List (Entry K)}

theorem Told.append (h : Told s tr) (tr' : List (Entry K)) : Told s (tr ++ tr') where
  navigation hactive := (h.navigation hactive).append tr'
  collision hstopped := (h.collision hstopped).append tr'
  manipulation := h.manipulation.append tr'

theorem Told.of_sameNews (h : Told s tr) (hsame : SameNews s s') : Told s' tr := by
  obtain ⟨hmask, hstopped, -, hstate⟩ := hsame
  refine ⟨fun hactive => h.navigation ?_, fun hstop => h.collision ?_, ?_⟩
  · rwa [Shared.navigationActive, hmask] at hactive
  · rwa [hstopped] at hstop
  · rw [hstate]
    exact h.manipulation

variable [Field K] [LinearOrder K] {node : Node K}

theorem manipulationState_activateProfile {a a' : Acquisition K} {rosNow : TimePoint} {requested : String}
    {undocking : Bool} {instanceId : String} {resolved : Option String}
    (h : a.activateProfile node rosNow requested undocking instanceId = some (resolved, a')) :
    a'.manipulationState = a.manipulationState := by
  simp only [Acquisition.activateProfile] at h
  split at h
  · cases h
  · cases h
    rfl
  split at h
  · cases h
    rfl
  split at h
  · cases h
    rfl
  · cases h
    rfl

theorem manipulationState_commit (a : Acquisition K) (generation : ℕ) (stamp : TimePoint)
    (raw : PlanarError K) (command : Twist K) :
    (a.commit node generation stamp raw command).2.manipulationState = a.manipulationState := by
  unfold Acquisition.commit
  split
  · rfl
  dsimp only
  split
  · rfl
  split
  · rfl
  · rfl

theorem sameNews_operate {now : Instant} {h h' : HandleState} {o : Op K} {a : o.Answer}
    (hw : operate node now (s, h) o = some (a, s', h')) : SameNews s s' := by
  cases o with
  | activateProfile requested undocking instanceId =>
    obtain ⟨acquisition, hactivate, rfl, -⟩ := of_operate_activateProfile hw
    exact ⟨rfl, rfl, rfl, manipulationState_activateProfile hactivate⟩
  | terminate outcome result =>
    obtain ⟨-, rfl⟩ := of_operate_terminate hw
    exact ⟨rfl, rfl, rfl, rfl⟩
  | _ =>
    cases hw
    exact ⟨rfl, rfl, rfl, rfl⟩

theorem sameNews_answerTick {now : Instant} {lookup : Lookup K} {o : TickOp K} {a : o.Answer}
    (hw : answerTick node now lookup s o = some (a, s')) : SameNews s s' := by
  cases o with
  | escape => cases hw
  | commit generation stamp raw command =>
    cases hw
    exact ⟨rfl, rfl, rfl, manipulationState_commit s.acquisition generation stamp raw command⟩
  | reject generation stamp =>
    cases hw
    refine ⟨rfl, rfl, rfl, ?_⟩
    dsimp only [Acquisition.reject]
    split
    · rfl
    · rfl
  | _ =>
    cases hw
    exact ⟨rfl, rfl, rfl, rfl⟩

/-- A message brings what it says. -/
theorem Told.receive (h : Told s tr) (now : Instant) (message : Message K) :
    Told (s.receive node now message) (tr ++ [⟨now, .received message⟩]) := by
  have hreceived : Received message (tr ++ [⟨now, .received message⟩]) :=
    ⟨⟨now, .received message⟩, by simp, rfl⟩
  have hbefore := h.append [⟨now, .received message⟩]
  cases message with
  | navCommand command => exact hbefore.of_sameNews ⟨rfl, rfl, rfl, rfl⟩
  | navRawCommand command => exact hbefore.of_sameNews ⟨rfl, rfl, rfl, rfl⟩
  | boxStates boxes => exact hbefore.of_sameNews ⟨rfl, rfl, rfl, rfl⟩
  | detections topic message =>
    refine hbefore.of_sameNews ⟨rfl, rfl, rfl, ?_⟩
    dsimp only [Shared.receive, Acquisition.detect]
    split
    · rfl
    · rfl
  | navStatus topic statuses =>
    refine ⟨fun hactive => ?_, hbefore.collision, hbefore.manipulation⟩
    cases hany : statuses.any GoalStatus.isActive with
    | true => exact ⟨topic, statuses, hany, hreceived⟩
    | false =>
      -- the mask only loses bits
      refine hbefore.navigation ?_
      by_contra hidle
      have hzero : s.navActiveMask = 0 := by simpa [Shared.navigationActive] using hidle
      simp [Shared.navigationActive, Shared.receive, hany, hzero] at hactive
  | manipulationState state => exact ⟨hbefore.navigation, hbefore.collision, .inr hreceived⟩
  | collisionState stop =>
    cases stop with
    | false =>
      exact ⟨hbefore.navigation, fun hstop => absurd hstop Bool.false_ne_true, hbefore.manipulation⟩
    | true => exact ⟨hbefore.navigation, fun _ => hreceived, hbefore.manipulation⟩

theorem Told.moves {s s' : Server K} (h : Told s.shared tr) {now : Instant}
    {entries : List (Entry K)} (hm : Moves node now s s' entries) : Told s'.shared (tr ++ entries) := by
  cases hm with
  | idle ok terminated => exact (h.append []).of_sameNews ⟨rfl, rfl, rfl, rfl⟩
  | received message => exact h.receive now message
  | rejected goal hactive => exact h.append _
  | accepted goal hfree => exact (h.append _).of_sameNews ⟨rfl, rfl, rfl, rfl⟩
  | canceled id thread hid hexecuting => exact h.append _
  | operated id thread event program shared handle hid hn hw =>
    exact (h.append _).of_sameNews (sameNews_operate hw)
  | ticked event program shared lookup hn hw =>
    exact (h.append _).of_sameNews (sameNews_answerTick hw)

end News

/-! ### What operations saw -/

section Operations
variable {tr : List (Entry K)} {past : List (OpEvent K)}

theorem Testified.append (h : Testified tr past) (tr' : List (Entry K)) :
    Testified (tr ++ tr') past where
  navigation hseen := (h.navigation hseen).append tr'
  collision hseen := (h.collision hseen).append tr'
  invalid hseen := by
    obtain ⟨state, hstate, hreported⟩ := h.invalid hseen
    exact ⟨state, hstate, hreported.append tr'⟩

variable [Field K] [LinearOrder K] {node : Node K} {s s' : Shared K}

/-- An answer says what the server knows. -/
theorem Testified.snoc (h : Testified tr past) (htold : Told s tr) {now : Instant}
    {handle handle' : HandleState} {e : OpEvent K}
    (hw : operate node now (s, handle) e.1 = some (e.2, s', handle')) :
    Testified tr (past ++ [e]) where
  navigation hseen := by
    rcases List.mem_append.mp hseen with hseen | hseen
    · exact h.navigation hseen
    · obtain rfl := List.mem_singleton.mp hseen
      exact htold.navigation (Prod.mk.inj (Option.some.inj hw)).1
  collision hseen := by
    rcases hseen with hseen | hseen
    · rcases List.mem_append.mp hseen with hseen | hseen
      · exact h.collision (.inl hseen)
      · obtain rfl := List.mem_singleton.mp hseen
        exact htold.collision (Prod.mk.inj (Option.some.inj hw)).1
    · rcases List.mem_append.mp hseen with hseen | hseen
      · exact h.collision (.inr hseen)
      · obtain rfl := List.mem_singleton.mp hseen
        have hstopped : s.collisionStopTimedOut node now.steady = true :=
          (Prod.mk.inj (Option.some.inj hw)).1
        exact htold.collision ((Bool.and_eq_true _ _).mp hstopped).1
  invalid hseen := by
    obtain ⟨state, hstate, hseen | ⟨measurement, hseen⟩⟩ := hseen
    · rcases List.mem_append.mp hseen with hseen | hseen
      · exact h.invalid ⟨state, hstate, .inl hseen⟩
      · obtain rfl := List.mem_singleton.mp hseen
        have hread : s.acquisition.manipulationState = state := (Prod.mk.inj (Option.some.inj hw)).1
        exact ⟨state, hstate, hread ▸ htold.manipulation⟩
    · rcases List.mem_append.mp hseen with hseen | hseen
      · exact h.invalid ⟨state, hstate, .inr ⟨measurement, hseen⟩⟩
      · obtain rfl := List.mem_singleton.mp hseen
        have hread : s.acquisition.manipulationState = state :=
          congrArg Prod.fst (Prod.mk.inj (Option.some.inj hw)).1
        exact ⟨state, hstate, hread ▸ htold.manipulation⟩

end Operations

/-! ### The whole server -/

section System
variable [Field K] [LinearOrder K] {node : Node K}

/-- What holds of every state and its trace. -/
structure Heard (node : Node K) (s : Server K) (tr : List (Entry K)) : Prop where
  owned : Owned node s tr
  listed : Listed s tr
  told : Told s.shared tr
  testified : ∀ id, Testified tr (operations id tr)

theorem Heard.initial : Heard node (.initial node) [] where
  owned := Owned.initial
  listed := by simp [Listed, Server.initial, Server.goals]
  told := ⟨fun hactive => by simp [Shared.navigationActive, Server.initial, Shared.initial] at hactive,
    nofun, .inl rfl⟩
  testified id := ⟨nofun, by simp [SawCollision, operations], by simp [SawInvalid, operations]⟩

omit [Field K] [LinearOrder K] in
/-- An entry of no operation. -/
theorem Testified.silent {tr entries : List (Entry K)} {id : ℕ} (h : Testified tr (operations id tr))
    (hsilent : operations id entries = []) : Testified (tr ++ entries) (operations id (tr ++ entries)) := by
  rw [operations_append, hsilent, List.append_nil]
  exact h.append entries

theorem Testified.moves {s s' : Server K} {tr entries : List (Entry K)} {now : Instant} {id : ℕ}
    (h : Testified tr (operations id tr)) (htold : Told s.shared tr)
    (hm : Moves node now s s' entries) : Testified (tr ++ entries) (operations id (tr ++ entries)) := by
  cases hm with
  | operated id' thread event program shared handle hid hn hw =>
    by_cases hsame : id' = id
    · subst hsame
      have hlast : operations id' ([⟨now, .operated id' event⟩] : List (Entry K)) = [event] := by
        simp [operations, Occurrence.operation?]
      rw [operations_append, hlast]
      exact (h.snoc htold hw).append _
    · refine h.silent ?_
      simp [operations, Occurrence.operation?, hsame]
  | _ => exact h.silent rfl

theorem heard_serve (node : Node K) (inputs : List (Stimulus K)) :
    Heard node (serve node inputs).1 (serve node inputs).2 := by
  have howned := owned_serve node inputs
  induction inputs using List.reverseRecOn with
  | nil => exact Heard.initial
  | append_singleton inputs x ih =>
    have h := ih (owned_serve node inputs)
    unfold serve at h howned ⊢
    rw [run_snoc] at howned ⊢
    have hm := step_moves node x (run (step node) (.initial node) inputs).1
    exact ⟨howned, h.listed.moves hm, h.told.moves hm, fun id => (h.testified id).moves h.told hm⟩

theorem Moves.length_le {s s' : Server K} {now : Instant} {entries : List (Entry K)}
    (h : Moves node now s s' entries) : entries.length ≤ 1 := by
  cases h with
  | idle => exact Nat.zero_le 1
  | _ => exact le_rfl

/-- What is in front of an entry is the whole trace after fewer inputs. -/
theorem exists_serve_of_prefix {inputs : List (Stimulus K)} {front : List (Entry K)}
    (h : front <+: (serve node inputs).2) : ∃ inputs', (serve node inputs').2 = front :=
  exists_run_of_prefix (fun x s => (step_moves node x s).length_le) _ inputs h

theorem Owned.exists_thread {s : Server K} {tr : List (Entry K)} (h : Owned node s tr) {id : ℕ}
    {e : OpEvent K} (he : e ∈ operations id tr) : ∃ thread, s.threads[id]? = some thread := by
  by_contra hnone
  have hle : s.threads.length ≤ id := by
    rw [← List.getElem?_eq_none_iff]
    exact Option.eq_none_iff_forall_ne_some.mpr fun thread heq => hnone ⟨thread, heq⟩
  rw [h.unborn id hle] at he
  cases he

omit [Field K] [LinearOrder K] in
/-- Once down, the middleware stays down. -/
theorem not_flickered {past : List (OpEvent K)} (h : (past.filterMap foundDown?).Pairwise (· ≤ ·)) :
    ¬ Flickered past := by
  intro hflickered
  have hdowns : ([true, false] : List Bool).Pairwise (· ≤ ·) := h.sublist (hflickered.filterMap foundDown?)
  exact absurd hdowns (by decide)

/-- Everything the server tells about a goal has its reason in what it was told: the
operation has seen it, and what it has seen was reported before. -/
theorem results_justified [IsStrictOrderedRing K] (node : Node K) (inputs : List (Stimulus K))
    {earlier later : List (Entry K)} {now : Instant} {id : ℕ} {outcome : Outcome} {result : Result K}
    (h : (serve node inputs).2 =
      earlier ++ ⟨now, .operated id ⟨.terminate outcome result, ()⟩⟩ :: later) :
    ∃ goal, (∃ e ∈ earlier, e.occurrence = .accepted id goal) ∧
      Justified node.m node.settings (operations id earlier) goal outcome result ∧
      Testified earlier (operations id earlier) ∧
      (⟨.isCanceling, true⟩ ∈ operations id earlier → Canceled id earlier) := by
  obtain ⟨inputs₁, htrace⟩ := exists_serve_of_prefix ⟨_, h.symm⟩
  have hbefore := heard_serve node inputs₁
  rw [htrace] at hbefore
  have hend := h.symm
  rw [List.append_cons] at hend
  obtain ⟨inputs₂, hended⟩ := exists_serve_of_prefix ⟨later, hend⟩
  have hafter := heard_serve node inputs₂
  rw [hended] at hafter
  have hoperations : operations id
      (earlier ++ [⟨now, .operated id ⟨.terminate outcome result, ()⟩⟩]) =
        operations id earlier ++ [⟨.terminate outcome result, ()⟩] := by
    simp [operations, Occurrence.operation?]
  obtain ⟨thread, hid⟩ := hafter.owned.exists_thread
    (hoperations ▸ List.mem_append_right _ (List.mem_singleton_self _))
  refine ⟨thread.goal, ?_, ?_, hbefore.testified id, fun hseen => ?_⟩
  · obtain ⟨e, he, haccepted⟩ := (hafter.listed id thread.goal).mpr (by simp [Server.goals, hid])
    rcases List.mem_append.mp he with he | he
    · exact ⟨e, he, haccepted⟩
    · obtain rfl := List.mem_singleton.mp he
      cases haccepted
  · have hsteps := hafter.owned.runs id thread hid
    rw [hoperations] at hsteps
    have hobeys := (justify_body thread.goal _ _ hsteps).1
    have hjustified := Discipline.obeys_ofPast.mp hobeys _ _ [] rfl
    refine hjustified.resolve_left (not_flickered ?_)
    rw [← htrace]
    exact (downs_serve node inputs₁).sublist (operations_filterMap_sublist (fun _ _ => rfl) id _)
  · obtain ⟨thread, hid⟩ := hbefore.owned.exists_thread hseen
    exact hbefore.owned.canceled id thread hid (.inr hseen)

end System

/-- The operation that an entry ends in success. -/
def Entry.succeeds? (x : Entry K) : Option ℕ :=
  match x.occurrence with
  | .operated id ⟨.terminate .succeed _, _⟩ => some id
  | _ => none

theorem Entry.eq_of_succeeds? {x : Entry K} {id : ℕ} (h : x.succeeds? = some id) :
    ∃ now result, x = ⟨now, .operated id ⟨.terminate .succeed result, ()⟩⟩ := by
  obtain ⟨now, occurrence⟩ := x
  unfold succeeds? at h
  dsimp only at h
  split at h
  · next result _ =>
    obtain rfl := Option.some.inj h
    exact ⟨now, result, rfl⟩
  · cases h

/-- The robot that docks at the table has settled there, and records that dock. -/
theorem results_justified_docking : ∃ r : FineAlign.Result ℚ,
    EndsSettled Node.withTable.m Node.withTable.settings
      (dockGauge Node.withTable.m Node.withTable.settings)
      (operations 0 ((serve .withTable docking).2.take 203))
      (stopCalls ++ [⟨.recordDock r.profileId r.instanceId, ()⟩]) := by
  have hlength : (serve .withTable docking).2.length = 205 := by decide +kernel
  have hlt : 203 < (serve .withTable docking).2.length := by omega
  have hending : ((serve .withTable docking).2.get ⟨203, hlt⟩).succeeds? = some 0 := by
    revert hlt
    decide +kernel
  have hgoals : (serve .withTable docking).1.goals = [.fineAlign ⟨true, "table", ""⟩] := by
    decide +kernel
  obtain ⟨now, result, heq⟩ := Entry.eq_of_succeeds? hending
  have hsplit : (serve .withTable docking).2 = (serve .withTable docking).2.take 203 ++
      ⟨now, .operated 0 ⟨.terminate .succeed result, ()⟩⟩ ::
        (serve .withTable docking).2.drop 204 := by
    rw [← heq, List.get_eq_getElem, ← List.drop_eq_getElem_cons hlt, List.take_append_drop]
  obtain ⟨goal, ⟨e, he, haccepted⟩, hjustified, -⟩ := results_justified .withTable docking hsplit
  have hgoal := ((heard_serve .withTable docking).listed 0 goal).mp
    ⟨e, List.mem_of_mem_take he, haccepted⟩
  rw [hgoals] at hgoal
  obtain rfl := Option.some.inj hgoal
  cases result with
  | fineAlign r =>
    obtain ⟨request, hrequest, -, -, hexecuted, -⟩ := hjustified
    cases hrequest
    exact ⟨r, hexecuted rfl⟩
  | undock r =>
    obtain ⟨request, hrequest, -⟩ := hjustified
    cases hrequest
  | rotate r =>
    obtain ⟨request, hrequest, -⟩ := hjustified
    cases hrequest

end X2Navigation.FineAlignServer
