import Mathlib.Data.Fintype.Basic
import Mathlib.Data.List.Nodup
import X2Navigation.Routing.Pipeline

/-! The way of a velocity command through the launched nodes. The topics are launch
arguments; the launch rejects them unless those that are in use are shared, resolve, and
are distinct. That is exactly what it takes for the nodes to have no loop, and then every
command of navigation passes the smoother, the collision monitor and the fine-align server
before the bridge gets it. -/

namespace X2Navigation.Launch

open Routing

/-- The launch arguments that decide on the way of a command. -/
structure Arguments where
  directAlignment : Bool
  rosNamespace : Option String
  navCmdTopic : String
  smoothedNavCmdTopic : String
  checkedNavCmdTopic : String
  rawCmdTopic : String
  velocityTopic : String
  enableVelocityBridge : Bool

def Arguments.declared : Arguments where
  directAlignment := false
  rosNamespace := none
  navCmdTopic := "/cmd_vel_nav"
  smoothedNavCmdTopic := "/cmd_vel_nav_smoothed"
  checkedNavCmdTopic := "/cmd_vel_nav_checked"
  rawCmdTopic := "/cmd_vel_raw"
  velocityTopic := "/cmd_vel"
  enableVelocityBridge := true

/-- `expand_topic_name`, of a topic, a node and its namespace, and
`validate_full_topic_name`. `none` and `false` are the exceptions they raise. -/
structure TopicNames where
  expand : String → String → String → Option String
  valid : String → Bool

/-- What the launch raises. -/
inductive Rejection
  | runtimeError (message : String)
  | invalidName
  deriving DecidableEq

namespace Arguments
variable (args : Arguments)

/-- An empty namespace counts as none. -/
def nodeNamespace : String :=
  match args.rosNamespace with
  | some "" | none => "/"
  | some space => space

/-- The topics in use, by the names of their arguments. -/
def usedTopics : List (String × String) :=
  [("nav_cmd_topic", args.navCmdTopic), ("smoothed_nav_cmd_topic", args.smoothedNavCmdTopic),
    ("velocity_topic", args.velocityTopic),
    if args.directAlignment then ("checked_nav_cmd_topic", args.checkedNavCmdTopic)
    else ("raw_cmd_topic", args.rawCmdTopic)]

def collisionInput : String :=
  if args.directAlignment then args.smoothedNavCmdTopic else args.rawCmdTopic

def collisionOutput : String :=
  if args.directAlignment then args.checkedNavCmdTopic else args.velocityTopic

def arbitrationInput : String :=
  if args.directAlignment then args.checkedNavCmdTopic else args.smoothedNavCmdTopic

def arbitrationOutput : String :=
  if args.directAlignment then args.velocityTopic else args.rawCmdTopic

end Arguments

/-! ### The check of the launch -/

/-- `topic.startswith("~")` -/
def isPrivate (topic : String) : Bool := topic.toList.head? == some '~'

section Validation
variable (names : TopicNames) (args : Arguments)

/-- The resolved name of a topic that may be used. -/
def fullTopic? (topic : String) : Option String :=
  if isPrivate topic then none
  else (names.expand topic "fine_align_server" args.nodeNamespace).filter names.valid

/-- The loop over the topics; `resolved` has the names of those before. -/
def resolveTopics : List (String × String) → List (String × String) → Except Rejection Unit
  | _, [] => .ok ()
  | resolved, (name, topic) :: rest =>
    if isPrivate topic then
      .error (.runtimeError s!"{name} must be shared between nodes, not private: {topic}")
    else match names.expand topic "fine_align_server" args.nodeNamespace with
      | none => .error .invalidName
      | some full =>
        if names.valid full = false then .error .invalidName
        else match resolved.find? (·.1 == full) with
          | some (_, other) => .error (.runtimeError
              s!"Command topics must be distinct: {name} and {other} both resolve to {full}")
          | none => resolveTopics ((full, name) :: resolved) rest

def validateCommandTopics : Except Rejection Unit := resolveTopics names args [] args.usedTopics

theorem resolveTopics_cons {name topic : String} {rest resolved : List (String × String)} :
    resolveTopics names args resolved ((name, topic) :: rest) = .ok () ↔
      ∃ full, fullTopic? names args topic = some full ∧ (∀ other ∈ resolved, other.1 ≠ full) ∧
        resolveTopics names args ((full, name) :: resolved) rest = .ok () := by
  rw [resolveTopics, fullTopic?]
  by_cases hprivate : isPrivate topic = true
  · simp [hprivate]
  cases hexpand : names.expand topic "fine_align_server" args.nodeNamespace with
  | none => simp [hprivate]
  | some full =>
    cases hvalid : names.valid full with
    | false => simp [hprivate, hvalid]
    | true =>
      cases hfind : resolved.find? (·.1 == full) with
      | none =>
        have hnew : ∀ other ∈ resolved, other.1 ≠ full := by simpa using hfind
        simp only [hprivate, Bool.false_eq_true, if_false, Option.filter_some, hvalid, if_true,
          Option.some.injEq, exists_eq_left', hfind]
        exact ⟨fun h => ⟨hnew, h⟩, fun h => h.2⟩
      | some other =>
        have hmem := List.mem_of_find?_eq_some hfind
        have hsame : other.1 = full := by simpa using List.find?_some hfind
        simp only [hprivate, Bool.false_eq_true, if_false, Option.filter_some, hvalid, if_true,
          Option.some.injEq, exists_eq_left', hfind, reduceCtorEq, false_iff]
        exact fun h => h.1 other hmem hsame

/-- The loop gets through if every topic has a name, and none that was there before. -/
theorem resolveTopics_eq_ok_iff (topics resolved : List (String × String)) :
    resolveTopics names args resolved topics = .ok () ↔
      (∀ entry ∈ topics, ∃ full, fullTopic? names args entry.2 = some full ∧
        ∀ other ∈ resolved, other.1 ≠ full) ∧
      topics.Pairwise fun entry entry' =>
        fullTopic? names args entry.2 ≠ fullTopic? names args entry'.2 := by
  induction topics generalizing resolved with
  | nil => simp [resolveTopics]
  | cons entry rest ih =>
    obtain ⟨name, topic⟩ := entry
    rw [resolveTopics_cons, List.forall_mem_cons, List.pairwise_cons]
    constructor
    · rintro ⟨full, hfull, hnew, hrest⟩
      obtain ⟨hnames, hpairs⟩ := (ih _).mp hrest
      refine ⟨⟨⟨full, hfull, hnew⟩, fun entry hentry => ?_⟩, fun entry hentry heq => ?_, hpairs⟩
      · obtain ⟨full', hfull', hnew'⟩ := hnames entry hentry
        exact ⟨full', hfull', fun other hother => hnew' other (List.mem_cons_of_mem _ hother)⟩
      · obtain ⟨full', hfull', hnew'⟩ := hnames entry hentry
        exact hnew' (full, name) List.mem_cons_self (Option.some.inj (hfull.symm.trans (heq.trans hfull')))
    · rintro ⟨⟨⟨full, hfull, hnew⟩, hnames⟩, hhead, hpairs⟩
      refine ⟨full, hfull, hnew, (ih _).mpr ⟨fun entry hentry => ?_, hpairs⟩⟩
      obtain ⟨full', hfull', hnew'⟩ := hnames entry hentry
      refine ⟨full', hfull', List.forall_mem_cons.mpr ⟨fun heq => ?_, hnew'⟩⟩
      exact hhead entry hentry (by rw [hfull, hfull', ← heq])

/-- An error that the launch words itself names the argument it is about, and the other one
if two resolve to one name. -/
theorem resolveTopics_runtimeError {topics resolved : List (String × String)} {message : String}
    (h : resolveTopics names args resolved topics = .error (.runtimeError message)) :
    ∃ entry ∈ topics, (isPrivate entry.2 = true ∧
        message = s!"{entry.1} must be shared between nodes, not private: {entry.2}") ∨
      ∃ full other, fullTopic? names args entry.2 = some full ∧
        ((full, other) ∈ resolved ∨ ∃ topic, (other, topic) ∈ topics ∧
          fullTopic? names args topic = some full) ∧
        message = s!"Command topics must be distinct: {entry.1} and {other} both resolve to {full}" := by
  induction topics generalizing resolved with
  | nil => cases h
  | cons entry rest ih =>
    obtain ⟨name, topic⟩ := entry
    unfold resolveTopics at h
    split at h
    · next hprivate =>
      cases h
      exact ⟨_, List.mem_cons_self, .inl ⟨hprivate, rfl⟩⟩
    next hshared =>
    split at h
    · cases h
    next full hexpand =>
    split at h
    · cases h
    next hvalid =>
    have hfull : fullTopic? names args topic = some full := by
      simp [fullTopic?, hshared, hexpand, hvalid]
    split at h
    · next known other hfind =>
      cases h
      have hsame : known = full := by simpa using List.find?_some hfind
      have hmem := hsame ▸ List.mem_of_find?_eq_some hfind
      exact ⟨_, List.mem_cons_self, .inr ⟨full, other, hfull, .inl hmem, rfl⟩⟩
    · obtain ⟨entry, hentry, hprivate | ⟨full', other, hfull', hknown, hmessage⟩⟩ := ih h
      · exact ⟨entry, List.mem_cons_of_mem _ hentry, .inl hprivate⟩
      refine ⟨entry, List.mem_cons_of_mem _ hentry, .inr ⟨full', other, hfull', ?_, hmessage⟩⟩
      rcases hknown with hknown | ⟨topic', hmem, htopic'⟩
      · rcases List.mem_cons.mp hknown with heq | hknown
        · cases heq
          exact .inr ⟨topic, List.mem_cons_self, hfull⟩
        · exact .inl hknown
      · exact .inr ⟨topic', List.mem_cons_of_mem _ hmem, htopic'⟩

end Validation

/-! ### The launched nodes -/

/-- The nodes that deal with velocity commands. -/
inductive CommandNode
  | controllerServer
  | behaviorServer
  | velocitySmoother
  | fineAlignServer
  | collisionMonitor
  | nav2ZmqVelocityBridge
  deriving DecidableEq

namespace CommandNode

instance : Fintype CommandNode where
  elems := {.controllerServer, .behaviorServer, .velocitySmoother, .fineAlignServer,
    .collisionMonitor, .nav2ZmqVelocityBridge}
  complete node := by cases node <;> decide

def name : CommandNode → String
  | .controllerServer => "controller_server"
  | .behaviorServer => "behavior_server"
  | .velocitySmoother => "velocity_smoother"
  | .fineAlignServer => "fine_align_server"
  | .collisionMonitor => "collision_monitor"
  | .nav2ZmqVelocityBridge => "nav2_zmq_velocity_bridge"

variable (args : Arguments)

/-- The topics whose commands a node passes on. -/
def reads : CommandNode → List String
  | .velocitySmoother => [args.navCmdTopic]
  | .fineAlignServer => [args.arbitrationInput]
  | .collisionMonitor => [args.collisionInput]
  | .nav2ZmqVelocityBridge => if args.enableVelocityBridge then [args.velocityTopic] else []
  | _ => []

/-- `nav_raw_cmd_topic`: these commands only shut the gate. -/
def watches : CommandNode → List String
  | .fineAlignServer => [args.navCmdTopic]
  | _ => []

def writes : CommandNode → List String
  | .controllerServer | .behaviorServer => [args.navCmdTopic]
  | .velocitySmoother => [args.smoothedNavCmdTopic]
  | .fineAlignServer => [args.arbitrationOutput]
  | .collisionMonitor => [args.collisionOutput]
  | .nav2ZmqVelocityBridge => []

end CommandNode

section Graphs
variable (names : TopicNames) (args : Arguments)

/-- The node resolves one of the topics to the name. -/
def Resolves (node : CommandNode) (topics : List String) (full : String) : Prop :=
  ∃ topic ∈ topics, names.expand topic node.name args.nodeNamespace = some full

/-- Whose commands are passed on to whom. -/
def commandGraph : Wiring CommandNode String where
  reads node := Resolves names args node (node.reads args)
  writes node := Resolves names args node (node.writes args)

/-- Whose commands have an effect on whom. -/
def influenceGraph : Wiring CommandNode String where
  reads node := Resolves names args node (node.reads args ++ node.watches args)
  writes node := Resolves names args node (node.writes args)

end Graphs

/-! ### The line of nodes -/

/-- The topics in use, in the order in which a command passes them. -/
inductive Place
  | navigated
  | smoothed
  | between
  | final
  deriving DecidableEq

namespace Place

instance : Fintype Place where
  elems := {.navigated, .smoothed, .between, .final}
  complete place := by cases place <;> decide

def index : Place → ℕ
  | .navigated => 0
  | .smoothed => 1
  | .between => 2
  | .final => 3

def ofIndex : ℕ → Place
  | 0 => .navigated
  | 1 => .smoothed
  | 2 => .between
  | _ => .final

theorem ofIndex_index (i : Place) : ofIndex i.index = i := by cases i <;> rfl

theorem index_le (i : Place) : i.index ≤ 3 := by cases i <;> decide

theorem forall_iff {P : Place → Prop} :
    (∀ i, P i) ↔ P .navigated ∧ P .smoothed ∧ P .between ∧ P .final := by
  constructor
  · intro h
    exact ⟨h _, h _, h _, h _⟩
  · rintro ⟨hnavigated, hsmoothed, hbetween, hfinal⟩ i
    cases i
    · exact hnavigated
    · exact hsmoothed
    · exact hbetween
    · exact hfinal

end Place

namespace Arguments
variable (args : Arguments)

def line : Place → String
  | .navigated => args.navCmdTopic
  | .smoothed => args.smoothedNavCmdTopic
  | .between => if args.directAlignment then args.checkedNavCmdTopic else args.rawCmdTopic
  | .final => args.velocityTopic

/-- The nodes between them. -/
def stages : List CommandNode :=
  if args.directAlignment then [.velocitySmoother, .collisionMonitor, .fineAlignServer]
  else [.velocitySmoother, .fineAlignServer, .collisionMonitor]

end Arguments

namespace CommandNode

/-- Where on the line a node reads, watches and writes. -/
def readsAt (direct bridge : Bool) : CommandNode → List (Place)
  | .velocitySmoother => [.navigated]
  | .fineAlignServer => if direct then [.between] else [.smoothed]
  | .collisionMonitor => if direct then [.smoothed] else [.between]
  | .nav2ZmqVelocityBridge => if bridge then [.final] else []
  | _ => []

def watchesAt : CommandNode → List (Place)
  | .fineAlignServer => [.navigated]
  | _ => []

def writesAt (direct : Bool) : CommandNode → List (Place)
  | .controllerServer | .behaviorServer => [.navigated]
  | .velocitySmoother => [.smoothed]
  | .fineAlignServer => if direct then [.final] else [.between]
  | .collisionMonitor => if direct then [.between] else [.final]
  | .nav2ZmqVelocityBridge => []

def rank (direct : Bool) : CommandNode → ℕ
  | .controllerServer | .behaviorServer => 0
  | .velocitySmoother => 1
  | .fineAlignServer => if direct then 3 else 2
  | .collisionMonitor => if direct then 2 else 3
  | .nav2ZmqVelocityBridge => 4

/-- Who gets the commands of a node. -/
def next? (direct bridge : Bool) : CommandNode → Option CommandNode
  | .controllerServer | .behaviorServer => some .velocitySmoother
  | .velocitySmoother => some (if direct then .collisionMonitor else .fineAlignServer)
  | .fineAlignServer =>
    if direct then if bridge then some .nav2ZmqVelocityBridge else none else some .collisionMonitor
  | .collisionMonitor =>
    if direct then some .fineAlignServer else if bridge then some .nav2ZmqVelocityBridge else none
  | .nav2ZmqVelocityBridge => none

variable {args : Arguments} {node : CommandNode}

theorem reads_eq : node.reads args =
    (node.readsAt args.directAlignment args.enableVelocityBridge).map args.line := by
  cases node <;> cases hdirect : args.directAlignment <;> cases hbridge : args.enableVelocityBridge <;>
    simp [reads, readsAt, Arguments.line, Arguments.arbitrationInput, Arguments.collisionInput,
      hdirect, hbridge]

theorem watches_eq : node.watches args = node.watchesAt.map args.line := by
  cases node <;> rfl

theorem writes_eq : node.writes args = (node.writesAt args.directAlignment).map args.line := by
  cases node <;> cases hdirect : args.directAlignment <;>
    simp [writes, writesAt, Arguments.line, Arguments.arbitrationOutput, Arguments.collisionOutput,
      hdirect]

/-- What a node reads or watches is written by nodes in front of it. -/
theorem rank_lt : ∀ (direct bridge : Bool) (a b : CommandNode) (i : Place), i ∈ a.writesAt direct →
    i ∈ b.readsAt direct bridge ++ b.watchesAt → a.rank direct < b.rank direct := by decide

theorem next?_eq : ∀ (direct bridge : Bool) (a b : CommandNode) (i : Place),
    i ∈ a.writesAt direct → i ∈ b.readsAt direct bridge → a.next? direct bridge = some b := by decide

end CommandNode

section Line
variable {names : TopicNames} {args : Arguments}

theorem forall_usedTopics {P : String → Prop} :
    (∀ entry ∈ args.usedTopics, P entry.2) ↔ ∀ i, P (args.line i) := by
  cases hdirect : args.directAlignment <;>
    simp [Arguments.usedTopics, Arguments.line, hdirect, Place.forall_iff] <;> tauto

theorem usedTopics_pairwise {α : Type} {f : String → α} :
    (args.usedTopics.Pairwise fun entry entry' => f entry.2 ≠ f entry'.2) ↔
      Function.Injective (f ∘ args.line) := by
  cases hdirect : args.directAlignment <;>
    simp [Arguments.usedTopics, Arguments.line, hdirect, Function.Injective, Place.forall_iff] <;>
      grind

/-- What the launch accepts: the topics in use have names, and these are distinct. -/
theorem validateCommandTopics_eq_ok_iff : validateCommandTopics names args = .ok () ↔
    (∀ i, (fullTopic? names args (args.line i)).isSome = true) ∧
      Function.Injective (fullTopic? names args ∘ args.line) := by
  rw [validateCommandTopics, resolveTopics_eq_ok_iff, usedTopics_pairwise,
    ← forall_usedTopics (P := fun topic => (fullTopic? names args topic).isSome = true)]
  simp [Option.isSome_iff_exists]

end Line

/-! ### Loops and routes -/

/-- A topic in use that is not private means the same to every node. -/
def Shared (names : TopicNames) (args : Arguments) : Prop :=
  ∀ entry ∈ args.usedTopics, isPrivate entry.2 = false → ∀ node : CommandNode,
    names.expand entry.2 node.name args.nodeNamespace =
      names.expand entry.2 "fine_align_server" args.nodeNamespace

section Graphs
variable {names : TopicNames} {args : Arguments} {full : Place → String}
  (hshared : Shared names args) (hfull : ∀ i, fullTopic? names args (args.line i) = some (full i))
include hshared hfull

theorem expand_eq (node : CommandNode) (i : Place) :
    names.expand (args.line i) node.name args.nodeNamespace = some (full i) := by
  have hi := hfull i
  unfold fullTopic? at hi
  split at hi
  · cases hi
  next hpublic =>
  have halike : isPrivate (args.line i) = false → ∀ node : CommandNode,
      names.expand (args.line i) node.name args.nodeNamespace =
        names.expand (args.line i) "fine_align_server" args.nodeNamespace :=
    (forall_usedTopics (P := fun topic => isPrivate topic = false → ∀ node : CommandNode,
      names.expand topic node.name args.nodeNamespace =
        names.expand topic "fine_align_server" args.nodeNamespace)).mp hshared i
  rw [halike (by simpa using hpublic) node]
  exact (Option.filter_eq_some_iff.mp hi).1

theorem resolves_iff {node : CommandNode} {places : List (Place)} {t : String} :
    Resolves names args node (places.map args.line) t ↔ ∃ i ∈ places, full i = t := by
  simp [Resolves, expand_eq hshared hfull]

theorem commandGraph_feeds_iff {a b : CommandNode} : (commandGraph names args).Feeds a b ↔
    ∃ i ∈ a.writesAt args.directAlignment,
      ∃ j ∈ b.readsAt args.directAlignment args.enableVelocityBridge, full i = full j := by
  simp only [Wiring.Feeds, commandGraph, CommandNode.reads_eq, CommandNode.writes_eq,
    resolves_iff hshared hfull]
  constructor
  · rintro ⟨t, ⟨i, hi, rfl⟩, ⟨j, hj, heq⟩⟩
    exact ⟨i, hi, j, hj, heq.symm⟩
  · rintro ⟨i, hi, j, hj, heq⟩
    exact ⟨full i, ⟨i, hi, rfl⟩, ⟨j, hj, heq.symm⟩⟩

theorem influenceGraph_feeds {a b : CommandNode} (h : (influenceGraph names args).Feeds a b) :
    ∃ i ∈ a.writesAt args.directAlignment,
      ∃ j ∈ b.readsAt args.directAlignment args.enableVelocityBridge ++ b.watchesAt,
        full i = full j := by
  obtain ⟨t, hwrites, hreads⟩ := h
  simp only [influenceGraph, CommandNode.reads_eq, CommandNode.writes_eq, CommandNode.watches_eq,
    ← List.map_append, resolves_iff hshared hfull] at hwrites hreads
  obtain ⟨i, hi, rfl⟩ := hwrites
  obtain ⟨j, hj, heq⟩ := hreads
  exact ⟨i, hi, j, hj, heq.symm⟩

omit hshared hfull in
/-- Who passes a command on to somebody has an effect on it. -/
theorem influenceGraph_of_commandGraph (a b : CommandNode)
    (h : (commandGraph names args).Feeds a b) : (influenceGraph names args).Feeds a b := by
  obtain ⟨t, hwrites, topic, htopic, hexpand⟩ := h
  exact ⟨t, hwrites, topic, List.mem_append_left _ htopic, hexpand⟩

/-- Distinct topics leave no loop. -/
theorem not_loops (hdistinct : Function.Injective full) : ¬ (influenceGraph names args).Loops := by
  refine Wiring.not_loops_of_rank (CommandNode.rank args.directAlignment) fun a b hfeeds => ?_
  obtain ⟨i, hi, j, hj, heq⟩ := influenceGraph_feeds hshared hfull hfeeds
  obtain rfl := hdistinct heq
  exact CommandNode.rank_lt _ _ a b i hi hj

theorem line_stages : (commandGraph names args).Line 3
    (fun i => args.stages.getD i .nav2ZmqVelocityBridge) (fun i => full (.ofIndex i)) := by
  intro i hi
  simp only [commandGraph, CommandNode.reads_eq, CommandNode.writes_eq, resolves_iff hshared hfull]
  obtain rfl | rfl | rfl : i = 0 ∨ i = 1 ∨ i = 2 := by omega
  all_goals
    cases hdirect : args.directAlignment <;>
      simp [Arguments.stages, hdirect, CommandNode.readsAt, CommandNode.writesAt, Place.ofIndex]

/-- Two topics of one name make a loop. -/
theorem loops_of_alias {i j : Place} (hij : i.index < j.index) (heq : full i = full j) :
    (commandGraph names args).Loops := by
  refine (line_stages hshared hfull).loops hij j.index_le ?_
  rwa [Place.ofIndex_index, Place.ofIndex_index]

/-- The one way of a command of navigation to the bridge. -/
theorem route_iff (hdistinct : Function.Injective full) {source : CommandNode}
    (hsource : source = .controllerServer ∨ source = .behaviorServer) (route : List CommandNode) :
    (commandGraph names args).Route (source :: (route ++ [.nav2ZmqVelocityBridge])) ↔
      args.enableVelocityBridge = true ∧ route = args.stages := by
  have hfeeds : ∀ a b, (commandGraph names args).Feeds a b ↔
      ∃ i ∈ a.writesAt args.directAlignment,
        i ∈ b.readsAt args.directAlignment args.enableVelocityBridge := by
    intro a b
    rw [commandGraph_feeds_iff hshared hfull]
    constructor
    · rintro ⟨i, hi, j, hj, heq⟩
      exact ⟨i, hi, hdistinct heq ▸ hj⟩
    · rintro ⟨i, hi, hread⟩
      exact ⟨i, hi, i, hread, rfl⟩
  have hnext : ∀ a b, (commandGraph names args).Feeds a b →
      a.next? args.directAlignment args.enableVelocityBridge = some b := by
    intro a b hab
    obtain ⟨i, hwrite, hread⟩ := (hfeeds a b).mp hab
    exact CommandNode.next?_eq _ _ a b i hwrite hread
  have hbridge : ∀ route, (commandGraph names args).Route
      (source :: (route ++ [.nav2ZmqVelocityBridge])) → args.enableVelocityBridge = true := by
    intro route hroute
    obtain ⟨b, hb⟩ := hroute.exists_feeds
    obtain ⟨i, -, hread⟩ := (hfeeds b _).mp hb
    by_contra hdisabled
    simp [CommandNode.readsAt, hdisabled] at hread
  have hstages : args.enableVelocityBridge = true → (commandGraph names args).Route
      (source :: (args.stages ++ [.nav2ZmqVelocityBridge])) := by
    intro henabled
    unfold Wiring.Route
    cases hdirect : args.directAlignment <;> rcases hsource with rfl | rfl <;>
      simp [Arguments.stages, hdirect, henabled, hfeeds, CommandNode.readsAt, CommandNode.writesAt]
  constructor
  · intro hroute
    have henabled := hbridge route hroute
    exact ⟨henabled, Wiring.Route.unique hnext rfl hroute (hstages henabled)⟩
  · rintro ⟨henabled, rfl⟩
    exact hstages henabled

end Graphs

/-- Where the topics in use mean the same to every node, the launch accepts them exactly
when they have names and the nodes have no loop. Then nothing a node writes has an effect
on itself, and the commands of navigation take one way to the bridge: through the velocity
smoother, and through the collision monitor and the fine-align server in the order of the
mode. -/
theorem commandTopics_accepted (names : TopicNames) (args : Arguments)
    (hshared : Shared names args) :
    (validateCommandTopics names args = .ok () ↔
      (∀ entry ∈ args.usedTopics, (fullTopic? names args entry.2).isSome = true) ∧
        ¬ (commandGraph names args).Loops) ∧
    (validateCommandTopics names args = .ok () →
      ¬ (influenceGraph names args).Loops ∧
        ∀ source, source = .controllerServer ∨ source = .behaviorServer → ∀ route,
          (commandGraph names args).Route (source :: (route ++ [.nav2ZmqVelocityBridge])) ↔
            args.enableVelocityBridge = true ∧ route = args.stages) := by
  have hnamed : (∀ entry ∈ args.usedTopics, (fullTopic? names args entry.2).isSome = true) ↔
      ∀ i, (fullTopic? names args (args.line i)).isSome = true :=
    forall_usedTopics (P := fun topic => (fullTopic? names args topic).isSome = true)
  have haccepts : validateCommandTopics names args = .ok () ↔
      (∀ i, (fullTopic? names args (args.line i)).isSome = true) ∧
        Function.Injective (fullTopic? names args ∘ args.line) :=
    validateCommandTopics_eq_ok_iff
  -- the names of the topics, where they have one
  have hnames : (∀ i, (fullTopic? names args (args.line i)).isSome = true) →
      ∃ full : Place → String, ∀ i, fullTopic? names args (args.line i) = some (full i) :=
    fun h => ⟨fun i => (fullTopic? names args (args.line i)).get (h i), fun i => (Option.some_get _).symm⟩
  have hdistinct : ∀ full : Place → String,
      (∀ i, fullTopic? names args (args.line i) = some (full i)) →
      (Function.Injective (fullTopic? names args ∘ args.line) ↔ Function.Injective full) := by
    intro full hfull
    have hcomp : fullTopic? names args ∘ args.line = some ∘ full := funext hfull
    rw [hcomp]
    exact (Option.some_injective _).of_comp_iff full
  refine ⟨?_, fun hok => ?_⟩
  · rw [haccepts, hnamed]
    refine and_congr_right fun h => ?_
    obtain ⟨full, hfull⟩ := hnames h
    rw [hdistinct full hfull]
    constructor
    · intro hinjective hloops
      exact not_loops hshared hfull hinjective (hloops.mono (influenceGraph_of_commandGraph))
    · intro hloops i j heq
      by_contra hne
      have hindex : i.index ≠ j.index := by
        intro hsame
        exact hne (by rw [← i.ofIndex_index, hsame, j.ofIndex_index])
      rcases lt_or_gt_of_ne hindex with hlt | hlt
      · exact hloops (loops_of_alias hshared hfull hlt heq)
      · exact hloops (loops_of_alias hshared hfull hlt heq.symm)
  · obtain ⟨h, hinjective⟩ := haccepts.mp hok
    obtain ⟨full, hfull⟩ := hnames h
    have hfulldistinct := (hdistinct full hfull).mp hinjective
    exact ⟨not_loops hshared hfull hfulldistinct, fun source hsource route =>
      route_iff hshared hfull hfulldistinct hsource route⟩

/-- Absolute topics are their own names. -/
def absoluteNames : TopicNames := ⟨fun topic _ _ => some topic, fun _ => true⟩

theorem commandTopics_accepted_declared :
    validateCommandTopics absoluteNames .declared = .ok () ∧
      ¬ (influenceGraph absoluteNames .declared).Loops ∧
      (commandGraph absoluteNames .declared).Route
        [.controllerServer, .velocitySmoother, .fineAlignServer, .collisionMonitor,
          .nav2ZmqVelocityBridge] := by
  have hok : validateCommandTopics absoluteNames .declared = .ok () := by decide +kernel
  have hshared : Shared absoluteNames .declared := fun _ _ _ _ => rfl
  obtain ⟨hloops, hroutes⟩ := (commandTopics_accepted absoluteNames .declared hshared).2 hok
  exact ⟨hok, hloops, (hroutes _ (.inl rfl) _).mpr ⟨rfl, rfl⟩⟩

end X2Navigation.Launch
