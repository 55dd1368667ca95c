import X2Navigation.Command.GateHistory
import X2Navigation.Server.Ownership
import X2Navigation.Server.Restraint

/-! Where a published command comes from. While an operation owns the flag it is the
last command of that operation, recent enough and not stopped since; otherwise it
comes through the navigation gate from what arrived since the last operation. -/

namespace X2Navigation.FineAlignServer

open Interaction Program Traced

variable {K : Type}

/-- A step of `stopAlignment`. -/
def Op.Stops : Op K → Bool
  | .setAlignmentActive active => !active
  | .clearCommand | .publishZero => true
  | _ => false

namespace Occurrence

/-- Writes a command or takes part in a stop: what was written before is not to be
published any more. -/
def Supersedes [Zero K] : Occurrence K → Prop
  | .operated _ event => event.1.command?.isSome = true ∨ event.1.Stops = true
  | _ => False

/-- Neither starts an operation nor is a step of one. -/
def IsFree : Occurrence K → Prop
  | .accepted _ _ | .operated _ _ => False
  | _ => True

theorem IsFree.not_supersedes [Zero K] {x : Occurrence K} (h : x.IsFree) : ¬ x.Supersedes := by
  cases x with
  | operated id event => cases h
  | _ => exact id

end Occurrence

/-- The call of the navigation gate that an entry stands for, while no operation owns
the flag. -/
def Entry.gateCall? (x : Entry K) : Option (NavigationCommandGate.Call K) :=
  match x.occurrence with
  | .received (.navCommand command) => some (.update command x.now.steady)
  | .received (.navRawCommand command) => some (.updateRaw command x.now.steady)
  | .ticked ⟨.selectCommand time, _⟩ => some (.commandAt time)
  | _ => none

def gateCalls (tr : List (Entry K)) : List (NavigationCommandGate.Call K) :=
  tr.filterMap Entry.gateCall?

/-- Nothing has happened yet, or the last thing was that an operation gave the flag
back. -/
def AtRest (tr : List (Entry K)) : Prop :=
  tr = [] ∨ ∃ older e id, tr = older ++ [e] ∧ e.occurrence = .operated id ⟨.release, ()⟩

variable [Field K] [LinearOrder K]

/-- What a tick may select after a trace. A command that is not zero has one of two
origins. The operation that owns the flag has written it, as its last write and after
its last stop, not longer ago than the timeout, and it is there to move the robot. Or
no operation has taken the flag since the last one gave it back, and the navigation
gate has made the command of what arrived since then. -/
inductive Lawful (node : Node K) (before : List (Entry K)) (time : TimePoint) : Selection K → Prop
  | zero (selection : Selection K) (h : selection.command = 0) : Lawful node before time selection
  | operation {id : ℕ} {goal : Goal K} {start older newer : List (Entry K)}
      {accepted write : Entry K} {event : OpEvent K} {command : Twist K}
      (hbefore : before = start ++ accepted :: (older ++ write :: newer))
      (haccepted : accepted.occurrence = .accepted id goal)
      (howner : ¬ Released id (older ++ write :: newer))
      (hmoves : goal.measuresOnly = false)
      (hwrite : write.occurrence = .operated id event)
      (hcommand : event.1.command? = some command)
      (hlast : ∀ x ∈ newer, ¬ x.occurrence.Supersedes)
      (hrecent : Double.numLE (elapsed time write.now.steady) node.commandTimeout = true) :
      Lawful node before time (.operation false command.finite)
  | navigation {older recent : List (Entry K)} {command : Twist (Double K)}
      (hbefore : before = older ++ recent) (hrest : AtRest older)
      (hfree : ∀ x ∈ recent, x.occurrence.IsFree)
      (hgate : command = (((NavigationCommandGate.new node.monitorRaw).run node.commandTimeout
        (gateCalls recent)).commandAt time node.commandTimeout).2)
      (hreceived : ∃ x ∈ recent, x.occurrence = .received (.navCommand command)) :
      Lawful node before time (.navigation command)

/-- Every command that a trace shows published was selected lawfully. -/
def AllLawful (node : Node K) (tr : List (Entry K)) : Prop :=
  ∀ before e time selection, before ++ [e] <+: tr →
    e.occurrence = .ticked ⟨.selectCommand time, selection⟩ → Lawful node before time selection

/-! ### What the multiplexer holds -/

/-- What the progress of a stop says about the multiplexer, while the operation owns
the flag. -/
def Holds (node : Node K) (id : ℕ) (mux : Mux K) (since : List (Entry K)) : Stop → Prop
  | .no => ∀ t ∈ mux.alignmentCommandTime, ∃ older write newer event,
      since = older ++ write :: newer ∧ write.occurrence = .operated id event ∧
        event.1.command? = some mux.alignmentCommand ∧ t ≤ write.now.steady ∧
        ∀ x ∈ newer, ¬ x.occurrence.Supersedes
  | .inactive => mux.alignmentActive = false
  | .cleared | .done => mux.alignmentActive = false ∧ mux.alignmentCommandTime = none ∧
      mux.gate = .new node.monitorRaw

/-- The goals of the threads. -/
def Server.goals (s : Server K) : List (Goal K) := s.threads.map Thread.goal

/-- An operation owns the flag. -/
def Busy (node : Node K) (s : Server K) (tr : List (Entry K)) : Prop :=
  ∃ id goal start accepted since, s.goals[id]? = some goal ∧ id + 1 = s.goals.length ∧
    tr = start ++ accepted :: since ∧ accepted.occurrence = .accepted id goal ∧
    Holds node id s.shared.mux since (conductAfter (operations id tr)).stop

/-- No operation owns the flag. -/
structure Idle (node : Node K) (mux : Mux K) (tr : List (Entry K)) : Prop where
  inactive : mux.alignmentActive = false
  unset : mux.alignmentCommandTime = none
  gate : ∃ older recent, tr = older ++ recent ∧ AtRest older ∧
    (∀ x ∈ recent, x.occurrence.IsFree) ∧
    mux.gate = (NavigationCommandGate.new node.monitorRaw).run node.commandTimeout (gateCalls recent)

/-- What holds at every steady time of a run. -/
structure Accounted (node : Node K) (now : TimePoint) (s : Server K) (tr : List (Entry K)) :
    Prop where
  owned : Owned node s tr
  clock : ∀ id, ∀ t ∈ (conductAfter (operations id tr)).clock, t ≤ now
  monitor : s.shared.mux.gate.monitorRaw = node.monitorRaw
  busy : s.shared.mux.operationActive = true → Busy node s tr
  idle : s.shared.mux.operationActive = false → Idle node s.shared.mux tr
  lawful : AllLawful node tr

variable {node : Node K} {s : Server K} {tr : List (Entry K)}

/-- An entry that does not supersede what was written leaves it in force. -/
theorem Holds.extend {id : ℕ} {mux : Mux K} {since : List (Entry K)} {stop : Stop}
    (h : Holds node id mux since stop) {x : Entry K} (hx : ¬ x.occurrence.Supersedes) :
    Holds node id mux (since ++ [x]) stop := by
  cases stop with
  | no =>
    intro t ht
    obtain ⟨older, write, newer, event, rfl, hwrite, hcommand, hle, hlast⟩ := h t ht
    refine ⟨older, write, newer ++ [x], event, by simp, hwrite, hcommand, hle, ?_⟩
    intro y hy
    obtain hy | hy := List.mem_append.mp hy
    · exact hlast y hy
    · obtain rfl := List.mem_singleton.mp hy
      exact hx
  | inactive => exact h
  | cleared => exact h
  | done => exact h

theorem AllLawful.snoc (h : AllLawful node tr) {x : Entry K}
    (hx : ∀ time selection, x.occurrence = .ticked ⟨.selectCommand time, selection⟩ →
      Lawful node tr time selection) : AllLawful node (tr ++ [x]) := by
  intro before e time selection hpre he
  obtain heq | hpre := List.prefix_concat_iff.mp hpre
  · obtain ⟨rfl, hlast⟩ := List.append_inj' heq rfl
    obtain rfl := List.singleton_inj.mp hlast
    exact hx time selection he
  · exact h before e time selection hpre he

omit [Field K] [LinearOrder K] in
theorem operations_free {x : Entry K} (hx : x.occurrence.IsFree) (id : ℕ) :
    operations id [x] = [] := by
  obtain ⟨now, occurrence⟩ := x
  cases occurrence with
  | operated id' event => cases hx
  | _ => rfl

/-! ### Entries of no operation -/

omit [Field K] [LinearOrder K] in
theorem gateCalls_append (tr tr' : List (Entry K)) :
    gateCalls (tr ++ tr') = gateCalls tr ++ gateCalls tr' := List.filterMap_append

theorem Busy.free (h : Busy node s tr) {s' : Server K} {x : Entry K} (hx : x.occurrence.IsFree)
    (hgoals : s'.goals = s.goals) (hmux : s'.shared.mux = s.shared.mux) :
    Busy node s' (tr ++ [x]) := by
  obtain ⟨id, goal, start, accepted, since, hid, hlast, rfl, haccepted, hholds⟩ := h
  rw [← hgoals] at hid hlast
  refine ⟨id, goal, start, accepted, since ++ [x], hid, hlast, by simp, haccepted, ?_⟩
  rw [operations_append_silent (operations_free hx id), hmux]
  exact hholds.extend hx.not_supersedes

theorem Idle.free {mux : Mux K} (h : Idle node mux tr) {x : Entry K} (hx : x.occurrence.IsFree) :
    Idle node { mux with gate := mux.gate.run node.commandTimeout (gateCalls [x]) } (tr ++ [x]) := by
  obtain ⟨hinactive, hunset, older, recent, rfl, hrest, hfree, hgate⟩ := h
  refine ⟨hinactive, hunset, older, recent ++ [x], by simp, hrest, ?_, ?_⟩
  · intro y hy
    obtain hy | hy := List.mem_append.mp hy
    · exact hfree y hy
    · obtain rfl := List.mem_singleton.mp hy
      exact hx
  · rw [gateCalls_append, NavigationCommandGate.run_append, hgate]

/-- How an entry of no operation may change the multiplexer. -/
structure Undisturbed (node : Node K) (x : Entry K) (mux mux' : Mux K) : Prop where
  owned : mux.operationActive = true → mux' = mux
  free : mux.operationActive = false →
    mux' = { mux with gate := mux.gate.run node.commandTimeout (gateCalls [x]) }

theorem Undisturbed.operationActive {x : Entry K} {mux mux' : Mux K}
    (h : Undisturbed node x mux mux') : mux'.operationActive = mux.operationActive := by
  cases hactive : mux.operationActive with
  | true => rw [h.owned hactive, hactive]
  | false =>
    rw [h.free hactive]
    exact hactive

theorem Accounted.free {now : TimePoint} (h : Accounted node now s tr) {s' : Server K} {x : Entry K}
    (hx : x.occurrence.IsFree) (howned : Owned node s' (tr ++ [x]))
    (hgoals : s'.goals = s.goals)
    (hmux : Undisturbed node x s.shared.mux s'.shared.mux)
    (hlawful : ∀ time selection, x.occurrence = .ticked ⟨.selectCommand time, selection⟩ →
      Lawful node tr time selection) : Accounted node now s' (tr ++ [x]) where
  owned := howned
  clock id := by
    rw [operations_append_silent (operations_free hx id)]
    exact h.clock id
  monitor := by
    cases hactive : s.shared.mux.operationActive with
    | true =>
      rw [hmux.owned hactive]
      exact h.monitor
    | false =>
      rw [hmux.free hactive, NavigationCommandGate.monitorRaw_run]
      exact h.monitor
  busy hactive := by
    rw [hmux.operationActive] at hactive
    exact (h.busy hactive).free hx hgoals (hmux.owned hactive)
  idle hactive := by
    rw [hmux.operationActive] at hactive
    rw [hmux.free hactive]
    exact (h.idle hactive).free hx
  lawful := h.lawful.snoc hlawful

theorem undisturbed_receive (now : Instant) (shared : Shared K) (message : Message K) :
    Undisturbed node ⟨now, .received message⟩ shared.mux (shared.receive node now message).mux := by
  cases message with
  | navCommand command =>
    constructor
    · intro hactive
      simp only [Shared.receive, Mux.update, hactive, if_true]
    · intro hactive
      simp only [Shared.receive, Mux.update, hactive, Bool.false_eq_true, if_false]
      rfl
  | navRawCommand command =>
    constructor
    · intro hactive
      simp only [Shared.receive, Mux.updateRaw, hactive, if_true]
    · intro hactive
      simp only [Shared.receive, Mux.updateRaw, hactive, Bool.false_eq_true, if_false]
      rfl
  | collisionState stop => cases stop <;> exact ⟨fun _ => rfl, fun _ => rfl⟩
  | _ => exact ⟨fun _ => rfl, fun _ => rfl⟩

theorem undisturbed_answerTick {now : Instant} {lookup : Lookup K} {shared shared' : Shared K}
    {e : TickEvent K} (hw : answerTick node now lookup shared e.1 = some (e.2, shared')) :
    Undisturbed node ⟨now, .ticked e⟩ shared.mux shared'.mux := by
  obtain ⟨o, a⟩ := e
  by_cases ho : ∃ time, o = .selectCommand time
  · obtain ⟨time, rfl⟩ := ho
    have hselect := answerTick_select hw
    constructor
    · intro hactive
      rw [Mux.select_owned node hactive] at hselect
      exact (Prod.mk.inj hselect).2.symm
    · intro hactive
      rw [Mux.select_free node hactive] at hselect
      exact (Prod.mk.inj hselect).2.symm
  · have hcalls : gateCalls [(⟨now, .ticked ⟨o, a⟩⟩ : Entry K)] = [] := by
      cases o with
      | selectCommand time => exact absurd ⟨time, rfl⟩ ho
      | _ => rfl
    rw [answerTick_mux hw fun time heq => ho ⟨time, heq⟩]
    exact ⟨fun _ => rfl, fun _ => by rw [hcalls]; rfl⟩

/-! ### Steps of operations -/

omit [Field K] [LinearOrder K] in
/-- The time a command is recorded with is not later than its write. -/
theorem Conduct.recorded_le {g : Conduct} {now : TimePoint} (hclock : ∀ t ∈ g.clock, t ≤ now)
    {command : Twist K} {time : Option TimePoint} (hal : g.allows (.writeCommand command time)) :
    time.getD now ≤ now := by
  cases time with
  | none => exact le_rfl
  | some t =>
    obtain ⟨-, -, hread⟩ := hal
    exact hclock t (hread t rfl)

/-- A step of the operation that owns the flag keeps what the multiplexer holds. -/
theorem Holds.operate {id : ℕ} {mux : Mux K} {since : List (Entry K)} {g : Conduct} {now : Instant}
    {e : OpEvent K} (h : Holds node id mux since g.stop) (hal : g.allows e.1)
    (hclock : ∀ t ∈ g.clock, t ≤ now.steady) (hmonitor : mux.gate.monitorRaw = node.monitorRaw) :
    Holds node id (mux.operate now.steady e.1) (since ++ [⟨now, .operated id e⟩])
      (g.next e.1 e.2).stop := by
  obtain ⟨o, a⟩ := e
  -- an operation that neither writes nor stops
  have keep (hmux : mux.operate now.steady o = mux) (hcommand : o.command? = none)
      (hstops : o.Stops = false) : Holds node id (mux.operate now.steady o)
        (since ++ [⟨now, .operated id ⟨o, a⟩⟩]) g.stop := by
    rw [hmux]
    refine h.extend fun hsup => ?_
    obtain hwrites | hs := hsup
    · rw [hcommand] at hwrites
      cases hwrites
    · rw [hstops] at hs
      cases hs
  cases o with
  | setAlignmentActive active =>
    cases active with
    | false => rfl
    | true =>
      obtain ⟨hworking, -, -⟩ := hal
      obtain hno | hdone := hworking.stop
      · rw [hno] at h
        exact h.extend (by simp [Occurrence.Supersedes, Op.command?, Op.Stops])
      · rw [hdone] at h
        intro t ht
        exact absurd (h.2.1 ▸ ht) nofun
  | writeCommand command time =>
    intro t ht
    obtain rfl := Option.some.inj ht
    exact ⟨since, _, [], _, rfl, rfl, rfl, Conduct.recorded_le hclock hal, by simp⟩
  | writeRotation angularSpeed time =>
    intro t ht
    obtain rfl := Option.some.inj ht
    obtain ⟨-, -, hread⟩ := hal
    exact ⟨since, _, [], _, rfl, rfl, rfl, hclock _ (hread _ rfl), by simp⟩
  | clearCommand =>
    obtain ⟨hstop, -⟩ := hal
    rw [hstop] at h
    refine ⟨h, rfl, ?_⟩
    rw [← hmonitor]
    rfl
  | publishZero =>
    obtain ⟨hstop, -⟩ := hal
    rw [hstop] at h
    exact h
  | terminate outcome result =>
    obtain ⟨hstop, -⟩ := hal
    simp only [Conduct.next]
    rw [hstop] at h ⊢
    exact h
  | release =>
    obtain ⟨hstop, -⟩ := hal
    simp only [Conduct.next]
    rw [hstop] at h ⊢
    exact h
  | _ => exact keep rfl rfl rfl

theorem clock_next_le {now : Instant} {shared shared' : Shared K} {handle handle' : HandleState}
    {g : Conduct} {e : OpEvent K} (hclock : ∀ t ∈ g.clock, t ≤ now.steady)
    (hw : operate node now (shared, handle) e.1 = some (e.2, shared', handle')) :
    ∀ t ∈ (g.next e.1 e.2).clock, t ≤ now.steady := by
  obtain ⟨o, a⟩ := e
  cases o with
  | steadyNow =>
    cases hw
    intro t ht
    obtain rfl := Option.some.inj ht
    exact le_rfl
  | setAlignmentActive active => cases active <;> exact hclock
  | _ => exact hclock

omit [Field K] [LinearOrder K] in
theorem goals_set {id : ℕ} {thread thread' : Thread K} (hid : s.threads[id]? = some thread)
    (hgoal : thread'.goal = thread.goal) :
    (s.threads.set id thread').map Thread.goal = s.threads.map Thread.goal := by
  have hlt : id < (s.threads.map Thread.goal).length := by
    rw [List.length_map]
    exact (List.getElem?_eq_some_iff.mp hid).1
  have hsame : (s.threads.map Thread.goal)[id] = thread'.goal := by
    rw [List.getElem_map, hgoal, (List.getElem?_eq_some_iff.mp hid).2]
  rw [List.map_set, ← hsame, List.set_getElem_self]

/-- The goals of the threads are those that the trace shows accepted. -/
def Listed (s : Server K) (tr : List (Entry K)) : Prop :=
  ∀ id goal, (∃ e ∈ tr, e.occurrence = .accepted id goal) ↔ s.goals[id]? = some goal

omit [Field K] [LinearOrder K] in
theorem Listed.snoc (h : Listed s tr) {s' : Server K} {x : Entry K} (hgoals : s'.goals = s.goals)
    (hx : ∀ id goal, x.occurrence ≠ .accepted id goal) : Listed s' (tr ++ [x]) := by
  intro id goal
  rw [hgoals, ← h id goal]
  constructor
  · rintro ⟨e, he, haccepted⟩
    obtain he | he := List.mem_append.mp he
    · exact ⟨e, he, haccepted⟩
    · obtain rfl := List.mem_singleton.mp he
      exact absurd haccepted (hx id goal)
  · rintro ⟨e, he, haccepted⟩
    exact ⟨e, List.mem_append_left _ he, haccepted⟩

omit [Field K] [LinearOrder K] in
theorem getElem?_goals_snoc {goals : List (Goal K)} {goal goal' : Goal K} {id : ℕ} :
    (goals ++ [goal])[id]? = some goal' ↔
      goals[id]? = some goal' ∨ id = goals.length ∧ goal' = goal := by
  by_cases hlt : id < goals.length
  · rw [List.getElem?_append_left hlt]
    constructor
    · exact .inl
    · rintro (hold | ⟨heq, -⟩)
      · exact hold
      · omega
  · rw [List.getElem?_append_right (by omega), List.getElem?_singleton,
      List.getElem?_eq_none (by omega)]
    by_cases heq : id = goals.length
    · simp [heq, eq_comm]
    · have hne : id - goals.length ≠ 0 := by omega
      simp [heq, hne]

omit [Field K] [LinearOrder K] in
theorem Listed.accepted (h : Listed s tr) {s' : Server K} (now : Instant) (goal : Goal K)
    (hgoals : s'.goals = s.goals ++ [goal]) :
    Listed s' (tr ++ [⟨now, .accepted s.threads.length goal⟩]) := by
  intro id goal'
  rw [hgoals, getElem?_goals_snoc, ← h, Server.goals, List.length_map]
  constructor
  · rintro ⟨e, he, haccepted⟩
    obtain he | he := List.mem_append.mp he
    · exact .inl ⟨e, he, haccepted⟩
    · obtain rfl := List.mem_singleton.mp he
      cases haccepted
      exact .inr ⟨rfl, rfl⟩
  · rintro (⟨e, he, haccepted⟩ | ⟨rfl, rfl⟩)
    · exact ⟨e, List.mem_append_left _ he, haccepted⟩
    · exact ⟨_, List.mem_append_right _ (List.mem_singleton.mpr rfl), rfl⟩

theorem Listed.moves (h : Listed s tr) {now : Instant} {s' : Server K} {entries : List (Entry K)}
    (hm : Moves node now s s' entries) : Listed s' (tr ++ entries) := by
  cases hm with
  | idle ok terminated =>
    rw [List.append_nil]
    exact h
  | accepted goal hfree => exact h.accepted now goal (by simp [Server.goals])
  | canceled id thread hid =>
    refine h.snoc (goals_set hid rfl) fun id goal heq => ?_
    cases heq
  | operated id thread event program shared handle hid hn hw =>
    refine h.snoc (goals_set hid rfl) fun id goal heq => ?_
    cases heq
  | received | rejected | ticked =>
    refine h.snoc rfl fun id goal heq => ?_
    cases heq

theorem Accounted.operated {now : Instant} (h : Accounted node now.steady s tr) {id : ℕ}
    {thread : Thread K} {event : OpEvent K} {program : Operation K Unit} {shared : Shared K}
    {handle : HandleState} (hid : s.threads[id]? = some thread)
    (hn : Next thread.program event program)
    (hw : operate node now (s.shared, thread.handle) event.1 = some (event.2, shared, handle)) :
    Accounted node now.steady
      { s with
        shared := shared
        threads := s.threads.set id { thread with handle := handle, program := program } }
      (tr ++ [⟨now, .operated id event⟩]) := by
  obtain ⟨hlast, hopen⟩ := h.owned.last hid hn
  have hactive : s.shared.mux.operationActive = true := h.owned.flag.mpr ⟨id, hlast, hopen⟩
  have hself := operations_snoc_self id tr now event
  have hal : (conductAfter (operations id tr)).allows event.1 := by
    have hsteps := (h.owned.runs id thread hid).trans (.cons hn (.refl program))
    exact (obedient_snoc.mp (obedient_of_steps hsteps)).2
  have hmux := operate_mux hw
  -- what the multiplexer holds after the step
  obtain ⟨id', goal, start, accepted, since, hgoal, hlast', htr, haccepted, hholds⟩ := h.busy hactive
  obtain rfl : id' = id := by
    rw [Server.goals, List.length_map] at hlast'
    omega
  have hafter : Holds node id' shared.mux (since ++ [⟨now, .operated id' event⟩])
      (conductAfter (operations id' (tr ++ [⟨now, .operated id' event⟩]))).stop := by
    rw [hmux, hself, conductAfter_snoc]
    exact hholds.operate hal (h.clock id') h.monitor
  have hgoals : (s.threads.set id' { thread with handle := handle, program := program }).map
      Thread.goal = s.goals := goals_set hid rfl
  constructor
  · exact h.owned.operated hid hn hw
  · intro id t ht
    by_cases heq : id' = id
    · subst heq
      rw [hself, conductAfter_snoc] at ht
      exact clock_next_le (h.clock id') hw t ht
    · rw [operations_append_silent (operations_operated_of_ne heq now event)] at ht
      exact h.clock id t ht
  · rw [hmux]
    cases event.1 with
    | clearCommand => exact h.monitor
    | _ => exact h.monitor
  · intro _
    refine ⟨id', goal, start, accepted, since ++ [⟨now, .operated id' event⟩], ?_, ?_, ?_,
      haccepted, hafter⟩
    · rw [Server.goals, hgoals]
      exact hgoal
    · rw [Server.goals, hgoals]
      exact hlast'
    · rw [htr]
      simp
  · -- the flag is given back on a stopped alignment
    intro hfree
    rw [hmux] at hfree
    have hrelease : event.1 = .release := by
      by_contra hne
      have hstill := (operationActive_operate now.steady s.shared.mux event.1).mpr ⟨hactive, hne⟩
      rw [hfree] at hstill
      cases hstill
    obtain ⟨o, a⟩ := event
    obtain rfl : o = .release := hrelease
    rw [hself, conductAfter_snoc] at hafter
    have hdone : ((conductAfter (operations id' tr)).next (K := K) .release ()).stop = .done := hal.1
    rw [hdone] at hafter
    obtain ⟨hinactive, hunset, hgate⟩ := hafter
    exact ⟨hinactive, hunset, _, [], (List.append_nil _).symm, .inr ⟨tr, _, id', rfl, rfl⟩,
      by simp, hgate⟩
  · refine h.lawful.snoc fun time selection heq => ?_
    cases heq

theorem Accounted.accepted {now : Instant} (h : Accounted node now.steady s tr) (goal : Goal K)
    (hfree : s.shared.mux.operationActive = false) :
    Accounted node now.steady
      { s with
        shared := { s.shared with mux := { s.shared.mux with operationActive := true } }
        threads := s.threads ++ [⟨goal, .executing, body node.m node.settings goal⟩] }
      (tr ++ [⟨now, .accepted s.threads.length goal⟩]) := by
  obtain ⟨hinactive, hunset, -⟩ := h.idle hfree
  have hops : ∀ id, operations id (tr ++ [⟨now, .accepted s.threads.length goal⟩]) =
      operations id tr := fun id => operations_append_silent (operations_of_none rfl) tr
  constructor
  · exact h.owned.accepted now goal hfree
  · intro id
    rw [hops]
    exact h.clock id
  · exact h.monitor
  · intro _
    refine ⟨s.threads.length, goal, tr, _, [], ?_, by simp [Server.goals], rfl, rfl, ?_⟩
    · simp [Server.goals]
    · rw [hops, h.owned.unborn _ le_rfl]
      intro t ht
      rw [hunset] at ht
      cases ht
  · intro hidle
    cases hidle
  · refine h.lawful.snoc fun time selection heq => ?_
    cases heq

/-! ### What a tick selects -/

/-- An operation that has written a command is there to move the robot. -/
theorem Owned.moves_of_write (h : Owned node s tr) {id : ℕ} {goal : Goal K} {event : OpEvent K}
    {command : Twist K} (hid : s.goals[id]? = some goal) (hevent : event ∈ operations id tr)
    (hcommand : event.1.command? = some command) : goal.measuresOnly = false := by
  obtain ⟨thread, hthread, rfl⟩ := List.getElem?_map ▸ hid |> Option.map_eq_some_iff.mp
  by_contra hmeasures
  have hall := all_body_of_measuresOnly node.m node.settings
    (Bool.not_eq_false _ ▸ hmeasures)
  have hnone := (hall.steps (h.runs id thread hthread)).1 event hevent
  rw [hcommand] at hnone
  cases hnone

omit [Field K] [LinearOrder K] in
theorem gateCall?_eq_update {x : Entry K} {command : Twist (Double K)} {now : TimePoint}
    (h : x.gateCall? = some (.update command now)) :
    x.occurrence = .received (.navCommand command) := by
  obtain ⟨instant, occurrence⟩ := x
  cases occurrence with
  | received message =>
    cases message with
    | navCommand command' =>
      cases h
      rfl
    | navRawCommand command' => cases h
    | _ => cases h
  | ticked event =>
    obtain ⟨o, a⟩ := event
    cases o with
    | selectCommand time => cases h
    | _ => cases h
  | _ => cases h

variable [IsStrictOrderedRing K]

theorem Accounted.lawful_operation {now : TimePoint} (h : Accounted node now s tr)
    (hactive : s.shared.mux.operationActive = true) {time : TimePoint}
    (hcurrent : s.shared.mux.current node time = true) :
    Lawful node tr time (.operation false s.shared.mux.alignmentCommand.finite) := by
  obtain ⟨id, goal, start, accepted, since, hid, hlast, htr, haccepted, hholds⟩ := h.busy hactive
  rw [Mux.current, Bool.and_eq_true] at hcurrent
  obtain ⟨halignment, hrecent⟩ := hcurrent
  cases htime : s.shared.mux.alignmentCommandTime with
  | none =>
    rw [htime] at hrecent
    cases hrecent
  | some t =>
    rw [htime] at hrecent
    -- only an alignment that is not being stopped is active
    cases hstop : (conductAfter (operations id tr)).stop with
    | inactive =>
      rw [hstop] at hholds
      have hinactive : s.shared.mux.alignmentActive = false := hholds
      rw [hinactive] at halignment
      cases halignment
    | cleared =>
      rw [hstop] at hholds
      exact absurd (htime.symm.trans hholds.2.1) nofun
    | done =>
      rw [hstop] at hholds
      exact absurd (htime.symm.trans hholds.2.1) nofun
    | no =>
      rw [hstop] at hholds
      obtain ⟨older, write, newer, event, rfl, hwrite, hcommand, hle, hsuperseded⟩ :=
        hholds t htime
      have hopen : ¬ Released id tr := by
        obtain ⟨id', hlast', hopen'⟩ := h.owned.flag.mp hactive
        rw [Server.goals, List.length_map] at hlast
        obtain rfl : id' = id := by omega
        exact hopen'
      have hmem : event ∈ operations id tr := mem_operations_of_mem (by simp [htr]) hwrite
      refine .operation htr haccepted ?_ (h.owned.moves_of_write hid hmem hcommand) hwrite hcommand
        hsuperseded (Double.numLE_mono (elapsed_le_elapsed_of_le hle time) hrecent)
      intro hreleased
      refine hopen ?_
      rw [Released, htr, ← List.singleton_append, operations_append, operations_append]
      exact List.mem_append_right _ (List.mem_append_right _ hreleased)

omit [IsStrictOrderedRing K] in
theorem Idle.lawful {mux : Mux K} (h : Idle node mux tr) (time : TimePoint) :
    Lawful node tr time (.navigation (mux.gate.commandAt time node.commandTimeout).2) := by
  obtain ⟨-, -, older, recent, htr, hrest, hfree, hgate⟩ := h
  by_cases hzero : (mux.gate.commandAt time node.commandTimeout).2 = 0
  · exact .zero _ hzero
  have hread : (mux.gate.commandAt time node.commandTimeout).2 = mux.gate.command :=
    (NavigationCommandGate.commandAt_eq_command _ _ _).resolve_left hzero
  refine .navigation htr hrest hfree (by rw [hgate]) ?_
  rw [hread] at hzero ⊢
  rw [hgate] at hzero ⊢
  obtain ⟨now, hmem⟩ := (NavigationCommandGate.command_run _ _ _).resolve_left hzero
  obtain ⟨x, hx, hcall⟩ := List.mem_filterMap.mp hmem
  exact ⟨x, hx, gateCall?_eq_update hcall⟩

theorem Accounted.lawful_select {now : TimePoint} (h : Accounted node now s tr)
    (navigationActive : Bool) (time : TimePoint) :
    Lawful node tr time (s.shared.mux.select node navigationActive time).1 := by
  cases hactive : s.shared.mux.operationActive with
  | false =>
    rw [Mux.select_free node hactive]
    exact (h.idle hactive).lawful time
  | true =>
    rw [Mux.select_owned node hactive]
    by_cases hpublished : (!navigationActive && s.shared.mux.current node time) = true
    · rw [if_pos hpublished]
      rw [Bool.and_eq_true, Bool.not_eq_true'] at hpublished
      obtain ⟨rfl, hcurrent⟩ := hpublished
      exact h.lawful_operation hactive hcurrent
    · rw [if_neg hpublished]
      exact .zero _ rfl

theorem Accounted.moves {now : Instant} (h : Accounted node now.steady s tr) {s' : Server K}
    {entries : List (Entry K)} (hm : Moves node now s s' entries) :
    Accounted node now.steady s' (tr ++ entries) := by
  have howned := h.owned.moves hm
  cases hm with
  | idle ok terminated =>
    rw [List.append_nil] at howned ⊢
    exact ⟨howned, h.clock, h.monitor, h.busy, h.idle, h.lawful⟩
  | received message =>
    refine h.free trivial howned rfl (undisturbed_receive now s.shared message) ?_
    intro time selection heq
    cases heq
  | rejected goal hactive =>
    refine h.free trivial howned rfl ⟨fun _ => rfl, fun _ => rfl⟩ ?_
    intro time selection heq
    cases heq
  | accepted goal hfree => exact h.accepted goal hfree
  | canceled id thread hid =>
    refine h.free trivial howned (goals_set hid rfl) ⟨fun _ => rfl, fun _ => rfl⟩ ?_
    intro time selection heq
    cases heq
  | operated id thread event program shared handle hid hn hw => exact h.operated hid hn hw
  | ticked event program shared lookup hn hw =>
    refine h.free trivial howned rfl (undisturbed_answerTick hw) ?_
    intro time selection heq
    cases heq
    have hselect := congrArg Prod.fst (answerTick_select hw)
    rw [← show _ = selection from hselect]
    exact h.lawful_select _ time

omit [IsStrictOrderedRing K] in
theorem Accounted.later {now now' : TimePoint} (h : Accounted node now s tr) (hle : now ≤ now') :
    Accounted node now' s tr where
  owned := h.owned
  clock id t ht := (h.clock id t ht).trans hle
  monitor := h.monitor
  busy := h.busy
  idle := h.idle
  lawful := h.lawful

omit [IsStrictOrderedRing K] in
theorem accounted_initial (now : TimePoint) : Accounted node now (.initial node) [] where
  owned := Owned.initial
  clock := by simp [operations, conductAfter, Conduct.start]
  monitor := rfl
  busy := nofun
  idle _ := ⟨rfl, rfl, [], [], rfl, .inl rfl, by simp, rfl⟩
  lawful := by simp [AllLawful]

/-- Whatever the order of events, under a steady clock that does not go back every
published command is zero or has a lawful origin. -/
theorem commands_lawful (node : Node K) (inputs : List (Stimulus K))
    (hclock : (inputs.map (·.now.steady)).Pairwise (· ≤ ·)) :
    AllLawful node (serve node inputs).2 := by
  obtain ⟨latest, hrun⟩ := run_keeps_later accounted_initial (fun hle h => h.later hle)
    (fun x s tr h => h.moves (step_moves node x s)) inputs hclock
  exact hrun.lawful

/-- What the ticks of a trace have published. -/
def published (tr : List (Entry K)) : List (Twist (Double K)) :=
  tr.filterMap fun x => match x.occurrence with
    | .ticked ⟨.selectCommand _, selection⟩ => some selection.command
    | _ => none

/-- A rotation begins, and a tick comes after its first command. -/
def turning : List (Stimulus ℚ) :=
  everyMillisecond ([.message (.manipulationState .empty),
      .goal (.rotate ⟨.finite (1 / 4), .finite 2⟩)] ++
    List.replicate 7 (.operation 0) ++ List.replicate 4 (.tick .unavailable))

theorem commands_lawful_turning :
    published (serve .declared turning).2 = [⟨0, ⟨0, 0, .finite (1 / 4)⟩⟩] ∧
      AllLawful .declared (serve .declared turning).2 :=
  ⟨by decide +kernel, commands_lawful .declared turning (by decide +kernel)⟩

end X2Navigation.FineAlignServer
