import X2Navigation.Server.Bookkeeping
import X2Navigation.Server.CommandOrigin
import X2Navigation.Server.Provenance

/-! The history of docks. In every interleaving an undocking without a profile resolves
to what the last fine alignment that was executed and succeeded was active for, or to the
default profile if there was none, whatever else has been tried since. -/

namespace X2Navigation.FineAlignServer

open Interaction Program Traced

variable {K : Type}

/-- The operation is a fine alignment that was executed, and has succeeded. -/
def Docked (tr : List (Entry K)) (id : ℕ) : Prop :=
  ∃ goal, goal.executes = true ∧ (∃ e ∈ tr, e.occurrence = .accepted id goal) ∧
    Reported (operations id tr)

/-- What the last operation before `id` that docked has read to be active. -/
def LastDock (tr : List (Entry K)) (id : ℕ) : Option (DockTarget K) → Prop
  | none => ∀ dock < id, ¬ Docked tr dock
  | some target => ∃ dock < id, Docked tr dock ∧
      (∀ other, dock < other → other < id → ¬ Docked tr other) ∧
      ∀ read, (⟨.activeProfile, read⟩ : OpEvent K) ∈ operations dock tr ↔ read = target

variable [Field K] [LinearOrder K] {node : Node K} {last : Option (DockTarget K)}

/-- What an undocking without a profile is for: the last dock, or else the default
profile. -/
def Node.undockTarget (node : Node K) (last : Option (DockTarget K)) : DockTarget K :=
  last.getD (node.initialProfile, "")

/-! ### While an operation is under way -/

/-- What the acquisition holds after an operation has done something, and before the next
one begins. -/
structure Underway (node : Node K) (last : Option (DockTarget K)) (done : List (OpEvent K))
    (a : Acquisition K) : Prop where
  untouched : ¬ Recorded done → Remembers node a last
  recorded : Recorded done → Remembers node a (some a.active)
  resolved : ∀ name, Resolved done name → a.activeProfile.name = name ∧ Registered node a.active
  read : ∀ name, Resolved done name →
    ∀ read, (⟨.activeProfile, read⟩ : OpEvent K) ∈ done → read = a.active

/-- Once an undocking without a profile has resolved one, it is that of the last dock; and
it does resolve if there was a dock. -/
structure ResolvesLast (node : Node K) (last : Option (DockTarget K)) (done : List (OpEvent K)) :
    Prop where
  name : ∀ name, Resolved done name → name = (node.undockTarget last).1.name
  read : ∀ name, Resolved done name →
    ∀ read, (⟨.activeProfile, read⟩ : OpEvent K) ∈ done → read = node.undockTarget last
  answered : last.isSome = true → ∀ requested undocking instanceId,
    (⟨.activateProfile requested undocking instanceId, none⟩ : OpEvent K) ∉ done

/-- Nothing that is known of docks differs. -/
structure SameDocks (a a' : Acquisition K) : Prop where
  activeProfile : a'.activeProfile = a.activeProfile
  activeInstanceId : a'.activeInstanceId = a.activeInstanceId
  lastDockedProfile : a'.lastDockedProfile = a.lastDockedProfile
  lastDockedTarget : a'.lastDockedTarget = a.lastDockedTarget
  lastDockedInstance : a'.lastDockedInstance = a.lastDockedInstance

namespace SameDocks
variable {a a' : Acquisition K}

omit [Field K] [LinearOrder K] in
theorem refl (a : Acquisition K) : SameDocks a a := ⟨rfl, rfl, rfl, rfl, rfl⟩

omit [Field K] [LinearOrder K] in
theorem active (h : SameDocks a a') : a'.active = a.active :=
  Prod.ext h.activeProfile h.activeInstanceId

theorem remembers (h : SameDocks a a') {last : Option (DockTarget K)} (hlast : Remembers node a last) :
    Remembers node a' last := by
  cases last with
  | none =>
    exact ⟨h.lastDockedProfile.trans hlast.1, h.lastDockedTarget.trans hlast.2.1,
      h.lastDockedInstance.trans hlast.2.2⟩
  | some target =>
    exact ⟨hlast.1, h.lastDockedProfile.trans hlast.2.1, h.lastDockedTarget.trans hlast.2.2.1,
      h.lastDockedInstance.trans hlast.2.2.2⟩

theorem receive (now : Instant) (shared : Shared K) (message : Message K) :
    SameDocks shared.acquisition (shared.receive node now message).acquisition := by
  cases message with
  | detections topic detections =>
    simp only [Shared.receive, Acquisition.detect]
    split <;> exact ⟨rfl, rfl, rfl, rfl, rfl⟩
  | collisionState stop => cases stop <;> exact refl _
  | _ => exact ⟨rfl, rfl, rfl, rfl, rfl⟩

theorem commit (a : Acquisition K) (node : Node K) (generation : ℕ) (stamp : TimePoint)
    (raw : PlanarError K) (command : Twist K) :
    SameDocks a (a.commit node generation stamp raw command).2 := by
  unfold Acquisition.commit
  split
  · exact refl _
  dsimp only
  split
  · exact ⟨rfl, rfl, rfl, rfl, rfl⟩
  split <;> exact ⟨rfl, rfl, rfl, rfl, rfl⟩

omit [Field K] [LinearOrder K] in
theorem reject (a : Acquisition K) (generation : ℕ) (stamp : TimePoint) :
    SameDocks a (a.reject generation stamp) := by
  unfold Acquisition.reject
  split <;> exact ⟨rfl, rfl, rfl, rfl, rfl⟩

theorem answerTick {now : Instant} {lookup : Lookup K} {shared shared' : Shared K} {o : TickOp K}
    {answer : o.Answer} (hw : answerTick node now lookup shared o = some (answer, shared')) :
    SameDocks shared.acquisition shared'.acquisition := by
  cases o with
  | commit generation stamp raw command =>
    have hacquisition := commit shared.acquisition node generation stamp raw command
    cases hw
    exact hacquisition
  | reject generation stamp =>
    have hacquisition := reject shared.acquisition generation stamp
    cases hw
    exact hacquisition
  | escape => cases hw
  | _ =>
    cases hw
    exact refl _

end SameDocks

section Operation
variable {done : List (OpEvent K)} {a a' : Acquisition K} {goal : Goal K}

theorem Underway.frame (h : Underway node last done a) (hsame : SameDocks a a') :
    Underway node last done a' where
  untouched hnot := hsame.remembers (h.untouched hnot)
  recorded hrecorded := by
    rw [hsame.active]
    exact hsame.remembers (h.recorded hrecorded)
  resolved name hname := by
    rw [hsame.active, hsame.activeProfile]
    exact h.resolved name hname
  read name hname := by
    rw [hsame.active]
    exact h.read name hname

/-- Nothing is done yet. -/
theorem Underway.start (h : Remembers node a last) : Underway node last [] a where
  untouched _ := h
  recorded := by
    rintro ⟨e, he, -⟩
    cases he
  resolved := by
    rintro name ⟨requested, undocking, instanceId, hmem⟩
    cases hmem
  read := by
    rintro name ⟨requested, undocking, instanceId, hmem⟩
    cases hmem

omit [Field K] [LinearOrder K] in
theorem recorded_snoc {e : OpEvent K} (he : e.1.Records = false) :
    Recorded (done ++ [e]) ↔ Recorded done := by
  constructor
  · intro h
    refine h.of_snoc.resolve_right ?_
    rw [he]
    exact Bool.false_ne_true
  · rintro ⟨x, hx, hrecords⟩
    exact ⟨x, List.mem_append_left _ hx, hrecords⟩

omit [Field K] [LinearOrder K] in
theorem resolved_snoc {e : OpEvent K} (he : e.1.Activates = false) (name : String) :
    Resolved (done ++ [e]) name ↔ Resolved done name := by
  constructor
  · rintro ⟨requested, undocking, instanceId, hmem⟩
    obtain hmem | hmem := List.mem_append.mp hmem
    · exact ⟨requested, undocking, instanceId, hmem⟩
    · rw [← List.mem_singleton.mp hmem] at he
      cases he
  · rintro ⟨requested, undocking, instanceId, hmem⟩
    exact ⟨requested, undocking, instanceId, List.mem_append_left _ hmem⟩

/-- What neither activates nor records leaves the books as they are; the active profile
is read as it is. -/
theorem Underway.later (h : Underway node last done a) {e : OpEvent K} (he : e.1.Later)
    (hread : ∀ read, e = ⟨.activeProfile, read⟩ → read = a.active) :
    Underway node last (done ++ [e]) a where
  untouched hnot := h.untouched fun hrecorded => hnot ((recorded_snoc he.2).mpr hrecorded)
  recorded hrecorded := h.recorded ((recorded_snoc he.2).mp hrecorded)
  resolved name hname := h.resolved name ((resolved_snoc he.1 name).mp hname)
  read name hname read hmem := by
    obtain hmem | hmem := List.mem_append.mp hmem
    · exact h.read name ((resolved_snoc he.1 name).mp hname) read hmem
    · exact hread read (List.mem_singleton.mp hmem).symm

/-- A dock is recorded as what is active. -/
theorem Underway.record (h : Underway node last done a) {profileId instanceId : String}
    (hresolved : Resolved done profileId)
    (hread : ∃ profile, (⟨.activeProfile, (profile, instanceId)⟩ : OpEvent K) ∈ done) :
    Underway node last (done ++ [⟨.recordDock profileId instanceId, ()⟩])
      (a.recordDock profileId instanceId) where
  untouched hnot := absurd ⟨_, List.mem_append_right _ (List.mem_singleton.mpr rfl), rfl⟩ hnot
  recorded _ := by
    obtain ⟨hname, hregistered⟩ := h.resolved profileId hresolved
    obtain ⟨profile, hmem⟩ := hread
    have hactive := h.read profileId hresolved (profile, instanceId) hmem
    exact ⟨hregistered, hname.symm, rfl, congrArg Prod.snd hactive⟩
  resolved name hname := h.resolved name ((resolved_snoc rfl name).mp hname)
  read name hname read hmem := by
    obtain hmem | hmem := List.mem_append.mp hmem
    · exact h.read name ((resolved_snoc rfl name).mp hname) read hmem
    · cases List.mem_singleton.mp hmem

/-- A profile is activated, before anything else is entered. -/
theorem Underway.activate (hnames : ∀ profile ∈ node.profiles, profile.name ≠ "")
    (h : Underway node last done a) (hfirst : ∀ e ∈ done, ¬ e.1.Books) {rosNow : TimePoint}
    {requested instanceId : String} {undocking : Bool} {answer : Option String}
    (ha : a.activateProfile node rosNow requested undocking instanceId = some (answer, a')) :
    Underway node last (done ++ [⟨.activateProfile requested undocking instanceId, answer⟩]) a' := by
  have hunrecorded : ¬ Recorded done := by
    rintro ⟨e, he, hrecords⟩
    exact hfirst e he (.inr (.inl hrecords))
  obtain ⟨hremembers, hresolved⟩ := activateProfile_registered hnames (h.untouched hunrecorded) ha
  have hanswer : ∀ name, Resolved
      (done ++ [(⟨.activateProfile requested undocking instanceId, answer⟩ : OpEvent K)]) name →
      answer = some name := by
    rintro name ⟨requested', undocking', instanceId', hmem⟩
    obtain hmem | hmem := List.mem_append.mp hmem
    · exact absurd (.inl rfl) (hfirst _ hmem)
    · cases List.mem_singleton.mp hmem
      rfl
  constructor
  · exact fun _ => hremembers
  · intro hrecorded
    exact absurd ((recorded_snoc rfl).mp hrecorded) hunrecorded
  · exact fun name hname => hresolved name (hanswer name hname)
  · intro name hname read hmem
    obtain hmem | hmem := List.mem_append.mp hmem
    · exact absurd (.inr (.inr rfl)) (hfirst _ hmem)
    · cases List.mem_singleton.mp hmem

/-- Whatever an operation does by its books, they stay in order. -/
theorem Underway.operate (hnames : ∀ profile ∈ node.profiles, profile.name ≠ "")
    {now : Instant} {shared shared' : Shared K} {handle handle' : HandleState} {e : OpEvent K}
    (h : Underway node last done shared.acquisition) (hal : booked goal done e.1)
    (hw : operate node now (shared, handle) e.1 = some (e.2, shared', handle')) :
    Underway node last (done ++ [e]) shared'.acquisition := by
  obtain ⟨o, answer⟩ := e
  cases o with
  | activateProfile requested undocking instanceId =>
    exact h.activate hnames hal.2 (operate_activateProfile hw)
  | recordDock profileId instanceId =>
    obtain ⟨-, -, hresolved, hread⟩ := hal
    cases hw
    exact h.record hresolved hread
  | activeProfile =>
    cases hw
    refine h.later ⟨rfl, rfl⟩ fun read heq => ?_
    cases heq
    rfl
  | terminate outcome result =>
    obtain ⟨-, rfl⟩ := of_operate_terminate hw
    refine h.later ⟨rfl, rfl⟩ fun read heq => ?_
    cases heq
  | _ =>
    cases hw
    refine h.later ⟨rfl, rfl⟩ fun read heq => ?_
    cases heq

/-- An undocking without a profile activates what is remembered. -/
theorem Underway.undock (h : Underway node last done a) (hfirst : ∀ e ∈ done, ¬ e.1.Books)
    {rosNow : TimePoint} {answer : Option String}
    (ha : a.activateProfile node rosNow "" true "" = some (answer, a')) :
    (last.isSome = true → answer ≠ none) ∧
      ∀ name, answer = some name → a'.active = node.undockTarget last := by
  have hremembers := h.untouched (by
    rintro ⟨e, he, hrecords⟩
    exact hfirst e he (.inr (.inl hrecords)))
  cases last with
  | none =>
    refine ⟨fun hsome => absurd hsome Bool.false_ne_true, fun name hname => ?_⟩
    exact (activateProfile_default hremembers ha name hname).2
  | some target =>
    obtain ⟨b, hb, hactive⟩ := activateProfile_remembered rosNow hremembers
    rw [hb] at ha
    obtain ⟨rfl, rfl⟩ := Prod.mk.inj (Option.some.inj ha)
    exact ⟨fun _ => nofun, fun _ _ => hactive⟩

/-- What an undocking without a profile does keeps to the last dock. -/
theorem undock_operate {now : Instant} {shared shared' : Shared K} {handle handle' : HandleState}
    {e : OpEvent K} (h : Underway node last done shared.acquisition)
    (hal : booked (.undock ⟨""⟩) done e.1)
    (hw : operate node now (shared, handle) e.1 = some (e.2, shared', handle'))
    (hanswered : last.isSome = true → ∀ requested undocking instanceId,
      (⟨.activateProfile requested undocking instanceId, none⟩ : OpEvent K) ∉ done)
    (hactive : ∀ name, Resolved done name → shared.acquisition.active = node.undockTarget last) :
    (last.isSome = true → ∀ requested undocking instanceId,
      (⟨.activateProfile requested undocking instanceId, none⟩ : OpEvent K) ∉ done ++ [e]) ∧
    ∀ name, Resolved (done ++ [e]) name → shared'.acquisition.active = node.undockTarget last := by
  cases hactivates : e.1.Activates with
  | false =>
    constructor
    · intro hsome requested undocking instanceId hmem
      obtain hmem | hmem := List.mem_append.mp hmem
      · exact hanswered hsome requested undocking instanceId hmem
      · rw [← List.mem_singleton.mp hmem] at hactivates
        cases hactivates
    · intro name hname
      rw [← hactive name ((resolved_snoc hactivates name).mp hname)]
      obtain heq | ⟨profileId, instanceId, heq⟩ := operate_acquisition hw hactivates
      · rw [heq]
      · rw [heq]
        rfl
  | true =>
    obtain ⟨o, answer⟩ := e
    cases o with
    | activateProfile requested undocking instanceId =>
      obtain ⟨hrequest, hfirst⟩ := hal
      cases hrequest
      obtain ⟨hsucceeds, htarget⟩ := h.undock hfirst (operate_activateProfile hw)
      constructor
      · intro hsome requested undocking instanceId hmem
        obtain hmem | hmem := List.mem_append.mp hmem
        · exact hanswered hsome requested undocking instanceId hmem
        · cases List.mem_singleton.mp hmem
          exact hsucceeds hsome rfl
      · rintro name ⟨requested, undocking, instanceId, hmem⟩
        obtain hmem | hmem := List.mem_append.mp hmem
        · exact absurd (.inl rfl) (hfirst _ hmem)
        · cases List.mem_singleton.mp hmem
          exact htarget name rfl
    | _ => cases hactivates

theorem Underway.resolvesLast (h : Underway node last done a)
    (hanswered : last.isSome = true → ∀ requested undocking instanceId,
      (⟨.activateProfile requested undocking instanceId, none⟩ : OpEvent K) ∉ done)
    (hactive : ∀ name, Resolved done name → a.active = node.undockTarget last) :
    ResolvesLast node last done where
  name name hname := by
    rw [← hactive name hname]
    exact (h.resolved name hname).1.symm
  read name hname read hread := by
    rw [← hactive name hname]
    exact h.read name hname read hread
  answered := hanswered

section Released
variable {m : Libm K} {settings : Settings K} {p : Operation K Unit}

/-- What a body has read before it recorded a dock. -/
theorem ready_of_recorded (h : Steps (body m settings goal) done p) (hrecorded : Recorded done) :
    goal.executes = true ∧ ∃ name target, Resolved done name ∧
      (⟨.activeProfile, target⟩ : OpEvent K) ∈ done := by
  obtain ⟨⟨o, answer⟩, he, hrecords⟩ := hrecorded
  cases o with
  | recordDock profileId instanceId =>
    obtain ⟨before, behind, rfl⟩ := List.mem_iff_append.mp he
    obtain ⟨hexecutes, -, ⟨requested, undocking, instance', hresolved⟩, profile, hread⟩ :=
      Discipline.obeys_ofPast.mp (booked_body goal _ p h).1 before _ behind rfl
    exact ⟨hexecutes, profileId, (profile, instanceId),
      ⟨requested, undocking, instance', List.mem_append_left _ hresolved⟩,
      List.mem_append_left _ hread⟩
  | _ => cases hrecords

theorem recorded_of_reported (h : Steps (body m settings goal) done p)
    (hexecutes : goal.executes = true) (hreported : Reported done) : Recorded done := by
  obtain ⟨⟨o, answer⟩, he, hsucceeds⟩ := hreported
  cases o with
  | terminate outcome result =>
    cases outcome with
    | succeed =>
      obtain ⟨before, behind, rfl⟩ := List.mem_iff_append.mp he
      obtain ⟨x, hx, hrecords⟩ :=
        Discipline.obeys_ofPast.mp (booked_body goal _ p h).1 before _ behind rfl hexecutes
      exact ⟨x, List.mem_append_left _ hx, hrecords⟩
    | abort => cases hsucceeds
    | canceled => cases hsucceeds
  | _ => cases hsucceeds

/-- The flag is not given back between the record and the report. -/
theorem reported_of_recorded (h : Steps (body m settings goal) done p)
    (hreleased : ⟨.release, ()⟩ ∈ done) (hrecorded : Recorded done) : Reported done := by
  obtain ⟨before, outcome, result, rfl, -, -⟩ :=
    Obedient.conclusion (obedient_of_steps h) (released_after.mpr hreleased)
  have hsplit : before ++ [(⟨.terminate outcome result, ()⟩ : OpEvent K), ⟨.release, ()⟩] =
      (before ++ [⟨.terminate outcome result, ()⟩]) ++ [⟨.release, ()⟩] := by simp
  rw [hsplit] at h hrecorded ⊢
  have hreport := Discipline.obeys_ofPast.mp (booked_body goal _ p h).1 _ _ [] rfl
  obtain ⟨x, hx, hsucceeds⟩ := hreport ((recorded_snoc rfl).mp hrecorded)
  exact ⟨x, List.mem_append_left _ hx, hsucceeds⟩

end Released

end Operation

/-! ### The whole run -/

/-- How the latest operation stands with what the acquisition holds. -/
structure Standing (node : Node K) (goal : Goal K) (last : Option (DockTarget K))
    (done : List (OpEvent K)) (a : Acquisition K) : Prop where
  underway : Underway node last done a
  active : goal = .undock ⟨""⟩ → ∀ name, Resolved done name → a.active = node.undockTarget last

/-- The books of every operation there was. -/
structure Chronicle (node : Node K) (s : Server K) (tr : List (Entry K)) : Prop where
  owned : Owned node s tr
  listed : Listed s tr
  fresh : s.goals = [] → Remembers node s.shared.acquisition none
  books : ∀ id goal, s.goals[id]? = some goal → ∃ last, LastDock tr id last ∧
    (goal = .undock ⟨""⟩ → ResolvesLast node last (operations id tr)) ∧
    (id + 1 = s.goals.length → Standing node goal last (operations id tr) s.shared.acquisition)

section Trace
variable {tr : List (Entry K)} {x : Entry K} {id : ℕ}

/-- An entry that is not about an operation. -/
def Entry.Spares (x : Entry K) (id : ℕ) : Prop :=
  operations id [x] = [] ∧ ∀ goal, x.occurrence ≠ .accepted id goal

omit [Field K] [LinearOrder K] in
theorem operations_snoc_of_spares (hx : x.Spares id) :
    operations id (tr ++ [x]) = operations id tr := operations_append_silent hx.1 tr

omit [Field K] [LinearOrder K] in
theorem docked_snoc (hx : x.Spares id) : Docked (tr ++ [x]) id ↔ Docked tr id := by
  constructor
  · rintro ⟨goal, hexecutes, ⟨e, he, haccepted⟩, hreported⟩
    rw [operations_snoc_of_spares hx] at hreported
    refine ⟨goal, hexecutes, ⟨e, ?_, haccepted⟩, hreported⟩
    obtain he | he := List.mem_append.mp he
    · exact he
    · obtain rfl := List.mem_singleton.mp he
      exact absurd haccepted (hx.2 goal)
  · rintro ⟨goal, hexecutes, ⟨e, he, haccepted⟩, hreported⟩
    refine ⟨goal, hexecutes, ⟨e, List.mem_append_left _ he, haccepted⟩, ?_⟩
    rwa [operations_snoc_of_spares hx]

omit [Field K] [LinearOrder K] in
/-- The last dock before an operation is settled once the operation has begun. -/
theorem LastDock.snoc {last : Option (DockTarget K)} (h : LastDock tr id last)
    (hx : ∀ dock < id, x.Spares dock) : LastDock (tr ++ [x]) id last := by
  cases last with
  | none =>
    intro dock hlt
    rw [docked_snoc (hx dock hlt)]
    exact h dock hlt
  | some target =>
    obtain ⟨dock, hlt, hdocked, hlatest, hread⟩ := h
    refine ⟨dock, hlt, (docked_snoc (hx dock hlt)).mpr hdocked, ?_, ?_⟩
    · intro other hother hlt'
      rw [docked_snoc (hx other hlt')]
      exact hlatest other hother hlt'
    · rw [operations_snoc_of_spares (hx dock hlt)]
      exact hread

omit [Field K] [LinearOrder K] in
theorem LastDock.succ {last : Option (DockTarget K)} (h : LastDock tr id last)
    (hnot : ¬ Docked tr id) : LastDock tr (id + 1) last := by
  have hlatest : ∀ other, other < id + 1 → other < id ∨ other = id := fun other hlt => by omega
  cases last with
  | none =>
    intro dock hlt
    obtain hlt | rfl := hlatest dock hlt
    · exact h dock hlt
    · exact hnot
  | some target =>
    obtain ⟨dock, hlt, hdocked, hnone, hread⟩ := h
    refine ⟨dock, by omega, hdocked, fun other hother hlt' => ?_, hread⟩
    obtain hlt' | rfl := hlatest other hlt'
    · exact hnone other hother hlt'
    · exact hnot

omit [Field K] [LinearOrder K] in
theorem spares_of_isFree (hx : x.occurrence.IsFree) (id : ℕ) : x.Spares id := by
  refine ⟨operations_free hx id, fun goal heq => ?_⟩
  rw [heq] at hx
  exact hx

end Trace

namespace Chronicle
variable {s : Server K} {tr : List (Entry K)}

theorem initial : Chronicle node (.initial node) [] where
  owned := Owned.initial
  listed := by simp [Listed, Server.initial, Server.goals]
  fresh _ := ⟨rfl, rfl, rfl⟩
  books := by simp [Server.initial, Server.goals]

/-- An entry of no operation. -/
theorem free (h : Chronicle node s tr) {s' : Server K} {x : Entry K} (hx : x.occurrence.IsFree)
    (howned : Owned node s' (tr ++ [x])) (hgoals : s'.goals = s.goals)
    (hsame : SameDocks s.shared.acquisition s'.shared.acquisition) : Chronicle node s' (tr ++ [x]) where
  owned := howned
  listed := h.listed.snoc hgoals fun id => (spares_of_isFree hx id).2
  fresh hnil := by
    rw [hgoals] at hnil
    exact hsame.remembers (h.fresh hnil)
  books id goal hid := by
    rw [hgoals] at hid ⊢
    obtain ⟨last, hlast, hresolves, hstanding⟩ := h.books id goal hid
    rw [operations_snoc_of_spares (spares_of_isFree hx id)]
    refine ⟨last, hlast.snoc fun dock _ => spares_of_isFree hx dock, hresolves, fun hlatest => ?_⟩
    obtain ⟨hunderway, hactive⟩ := hstanding hlatest
    refine ⟨hunderway.frame hsame, fun hgoal name hname => ?_⟩
    rw [hsame.active]
    exact hactive hgoal name hname

/-- The thread of a goal. -/
theorem steps (h : Chronicle node s tr) {id : ℕ} {goal : Goal K} (hid : s.goals[id]? = some goal) :
    ∃ p, Steps (body node.m node.settings goal) (operations id tr) p := by
  obtain ⟨thread, hthread, rfl⟩ := Option.map_eq_some_iff.mp ((List.getElem?_map ..).symm.trans hid)
  exact ⟨_, h.owned.runs id thread hthread⟩

/-- What there is to remember when no operation has the flag. -/
theorem remembered (h : Chronicle node s tr) (hfree : s.shared.mux.operationActive = false) :
    ∃ last, LastDock tr s.goals.length last ∧ Remembers node s.shared.acquisition last := by
  cases hlength : s.goals.length with
  | zero =>
    refine ⟨none, fun dock hlt => absurd hlt (Nat.not_lt_zero dock), h.fresh ?_⟩
    exact List.length_eq_zero_iff.mp hlength
  | succ n =>
    have hlt : n < s.goals.length := by omega
    have hid : s.goals[n]? = some s.goals[n] := List.getElem?_eq_getElem hlt
    obtain ⟨p, hsteps⟩ := h.steps hid
    obtain ⟨last, hlast, -, hstanding⟩ := h.books n _ hid
    have hunderway := (hstanding hlength.symm).underway
    have hreleased : Released n tr := by
      by_contra hopen
      have hactive := h.owned.flag.mpr ⟨n, by rw [← hlength, Server.goals, List.length_map], hopen⟩
      rw [hfree] at hactive
      cases hactive
    by_cases hrecorded : Recorded (operations n tr)
    · obtain ⟨hexecutes, name, target, hresolved, hread⟩ := ready_of_recorded hsteps hrecorded
      have hactive := hunderway.read name hresolved
      refine ⟨some s.shared.acquisition.active, ⟨n, by omega, ?_, ?_, ?_⟩, hunderway.recorded hrecorded⟩
      · exact ⟨_, hexecutes, (h.listed n _).mpr hid, reported_of_recorded hsteps hreleased hrecorded⟩
      · intro other hother hother'
        omega
      · intro read
        constructor
        · exact hactive read
        · rintro rfl
          rwa [← hactive target hread]
    · refine ⟨last, hlast.succ ?_, hunderway.untouched hrecorded⟩
      rintro ⟨goal, hexecutes, haccepted, hreported⟩
      rw [h.listed, hid] at haccepted
      obtain rfl := Option.some.inj haccepted
      exact hrecorded (recorded_of_reported hsteps hexecutes hreported)

theorem accept (h : Chronicle node s tr) (now : Instant) (goal : Goal K)
    (hfree : s.shared.mux.operationActive = false) :
    Chronicle node
      { s with
        shared := { s.shared with mux := { s.shared.mux with operationActive := true } }
        threads := s.threads ++ [⟨goal, .executing, body node.m node.settings goal⟩] }
      (tr ++ [⟨now, .accepted s.threads.length goal⟩]) := by
  have hlength : s.goals.length = s.threads.length := by rw [Server.goals, List.length_map]
  have hspares : ∀ id < s.threads.length,
      (⟨now, .accepted s.threads.length goal⟩ : Entry K).Spares id := by
    intro id hlt
    refine ⟨operations_of_none rfl, fun goal' heq => ?_⟩
    cases heq
    exact lt_irrefl _ hlt
  have hops : ∀ id, operations id (tr ++ [⟨now, .accepted s.threads.length goal⟩]) =
      operations id tr := fun id => operations_append_silent (operations_of_none rfl) tr
  have hgoals : ({ s with
      shared := { s.shared with mux := { s.shared.mux with operationActive := true } }
      threads := s.threads ++ [⟨goal, .executing, body node.m node.settings goal⟩] } :
        Server K).goals = s.goals ++ [goal] := by
    simp [Server.goals]
  constructor
  · exact h.owned.accepted now goal hfree
  · exact h.listed.accepted now goal hgoals
  · intro hnil
    rw [hgoals] at hnil
    simp at hnil
  · intro id goal' hid
    rw [hgoals, getElem?_goals_snoc, hlength] at hid
    rw [hgoals, hops]
    obtain hold | ⟨rfl, rfl⟩ := hid
    · have hlt : id < s.goals.length := (List.getElem?_eq_some_iff.mp hold).1
      obtain ⟨last, hlast, hresolves, -⟩ := h.books id goal' hold
      refine ⟨last, hlast.snoc fun dock hdock => hspares dock (by omega), hresolves, fun hlatest => ?_⟩
      rw [List.length_append, List.length_singleton] at hlatest
      omega
    · obtain ⟨last, hlast, hremembers⟩ := h.remembered hfree
      rw [h.owned.unborn _ le_rfl]
      rw [hlength] at hlast
      refine ⟨last, hlast.snoc hspares, fun _ => ?_, fun _ => ⟨Underway.start hremembers, ?_⟩⟩
      · exact (Underway.start hremembers).resolvesLast (by simp) (by simp [Resolved])
      · simp [Resolved]

theorem operated (hnames : ∀ profile ∈ node.profiles, profile.name ≠ "") (h : Chronicle node s tr)
    {now : Instant} {id : ℕ} {thread : Thread K}
    {event : OpEvent K} {program : Operation K Unit} {shared : Shared K} {handle : HandleState}
    (hid : s.threads[id]? = some thread) (hn : Next thread.program event program)
    (hw : operate node now (s.shared, thread.handle) event.1 = some (event.2, shared, handle)) :
    Chronicle node
      { s with
        shared := shared
        threads := s.threads.set id { thread with handle := handle, program := program } }
      (tr ++ [⟨now, .operated id event⟩]) := by
  obtain ⟨hlast, hopen⟩ := h.owned.last hid hn
  have hlength : s.goals.length = s.threads.length := by rw [Server.goals, List.length_map]
  have hself := operations_snoc_self id tr now event
  have hspares : ∀ id' < id, (⟨now, .operated id event⟩ : Entry K).Spares id' := by
    intro id' hlt
    exact ⟨operations_operated_of_ne (by omega) now event, fun goal heq => by cases heq⟩
  have hal : booked thread.goal (operations id tr) event.1 :=
    Discipline.obeys_ofPast.mp (booked_body thread.goal _ _
      ((h.owned.runs id thread hid).trans (.cons hn (.refl program)))).1 _ event [] rfl
  have hgoals : ({ s with
      shared := shared
      threads := s.threads.set id { thread with handle := handle, program := program } } :
        Server K).goals = s.goals := goals_set hid rfl
  constructor
  · exact h.owned.operated hid hn hw
  · refine h.listed.snoc hgoals fun id goal heq => ?_
    cases heq
  · intro hnil
    rw [hgoals] at hnil
    rw [hnil] at hlength
    simp at hlength
    omega
  · intro id' goal hgoal
    rw [hgoals] at hgoal ⊢
    obtain ⟨last, hdock, hresolves, hstanding⟩ := h.books id' goal hgoal
    have hlt : id' < s.goals.length := (List.getElem?_eq_some_iff.mp hgoal).1
    by_cases heq : id' = id
    · subst heq
      obtain rfl : thread.goal = goal := by
        rw [Server.goals, List.getElem?_map, hid] at hgoal
        exact Option.some.inj hgoal
      obtain ⟨hunderway, hactive⟩ := hstanding (by omega)
      have hunderway' := hunderway.operate hnames hal hw
      have hundock : thread.goal = .undock ⟨""⟩ → _ ∧ _ := fun hg =>
        undock_operate hunderway (hg ▸ hal) hw (hresolves hg).answered (hactive hg)
      rw [hself]
      refine ⟨last, hdock.snoc hspares, fun hg => ?_, fun _ => ⟨hunderway', fun hg => (hundock hg).2⟩⟩
      exact hunderway'.resolvesLast (hundock hg).1 (hundock hg).2
    · have hbefore : id' < id := by omega
      rw [operations_snoc_of_spares (hspares id' hbefore)]
      refine ⟨last, hdock.snoc fun dock hdock' => hspares dock (by omega), hresolves, fun hlatest => ?_⟩
      omega

theorem moves (hnames : ∀ profile ∈ node.profiles, profile.name ≠ "") (h : Chronicle node s tr)
    {now : Instant} {s' : Server K} {entries : List (Entry K)} (hm : Moves node now s s' entries) :
    Chronicle node s' (tr ++ entries) := by
  have howned := h.owned.moves hm
  cases hm with
  | idle ok terminated =>
    rw [List.append_nil] at howned ⊢
    exact ⟨howned, h.listed, h.fresh, h.books⟩
  | received message => exact h.free trivial howned rfl (SameDocks.receive now s.shared message)
  | rejected goal hactive => exact h.free trivial howned rfl (SameDocks.refl _)
  | accepted goal hfree => exact h.accept now goal hfree
  | canceled id thread hid => exact h.free trivial howned (goals_set hid rfl) (SameDocks.refl _)
  | operated id thread event program shared handle hid hn hw => exact h.operated hnames hid hn hw
  | ticked event program shared lookup hn hw =>
    exact h.free trivial howned rfl (SameDocks.answerTick hw)

end Chronicle

theorem chronicle_serve (node : Node K) (hnames : ∀ profile ∈ node.profiles, profile.name ≠ "")
    (inputs : List (Stimulus K)) : Chronicle node (serve node inputs).1 (serve node inputs).2 := by
  induction inputs using List.reverseRecOn with
  | nil => exact Chronicle.initial
  | append_singleton inputs x ih =>
    unfold serve at ih ⊢
    rw [run_snoc]
    exact ih.moves hnames (step_moves node x _)

/-- On a node whose profiles were added by its constructor, an undocking without a profile
resolves, if it does, to exactly what the last fine alignment that was executed and
succeeded has read to be active, or to the default profile if there was none; after a
dock it does resolve. Until the next goal is accepted that stays active. The activation is
always answered. -/
theorem undock_resolves_lastDock (node : Node K) {declared : List (DeclaredProfile K)}
    (hdeclared : DockingProfiles.declare declared = some node.profiles)
    (inputs : List (Stimulus K)) {id : ℕ}
    (hundock : ∃ e ∈ (serve node inputs).2, e.occurrence = .accepted id (.undock ⟨""⟩)) :
    (∃ last, LastDock (serve node inputs).2 id last ∧
      ResolvesLast node last (operations id (serve node inputs).2) ∧
      (id + 1 = (serve node inputs).1.threads.length →
        ∀ name, Resolved (operations id (serve node inputs).2) name →
          (serve node inputs).1.shared.acquisition.active = node.undockTarget last)) ∧
    ∀ now shared handle,
      (operate node now (shared, handle) (.activateProfile "" true "")).isSome = true := by
  have hbooks := chronicle_serve node (DockingProfiles.name_of_declare hdeclared) inputs
  constructor
  · have hid := (hbooks.listed id _).mp hundock
    obtain ⟨last, hlast, hresolves, hstanding⟩ := hbooks.books id _ hid
    refine ⟨last, hlast, hresolves rfl, fun hlatest name hname => ?_⟩
    have hlength : (serve node inputs).1.goals.length = (serve node inputs).1.threads.length := by
      rw [Server.goals, List.length_map]
    exact (hstanding (hlatest.trans hlength.symm)).active rfl name hname
  · intro now shared handle
    simp only [operate, Option.isSome_map, Acquisition.activateProfile, Acquisition.selectProfile,
      Bool.true_or, if_true]
    split
    · rfl
    · split <;> rfl

/-! ### A dock on a second profile -/

/-- The default profile as it is declared, and a second one. -/
def declaredDefault : DeclaredProfile ℚ :=
  ⟨"default", 9, "tag9", .finite (7 / 10), .finite 0, .finite 0, "/front_center_rectify/detections",
    "tag_relative", .finite (1 / 10), .finite 3, "tag"⟩

def declaredTable : DeclaredProfile ℚ :=
  { declaredDefault with name := "table", tagId := 7, tagFrame := "tag7" }

def tableProfile : DockingProfile ℚ :=
  { DockingProfile.declared with name := "table", tagId := 7, tagFrame := "tag7" }

def Node.withTable : Node ℚ :=
  { Node.declared with profiles := [.declared, tableProfile], resolved := by decide +kernel }

/-- The tag as a robot sees it that stands at its dock. -/
def facingTag : Rigid.Isometry3 ℚ := ⟨!![0, 0, -1; -1, 0, 0; 0, 1, 0], ![7 / 10, 0, 0]⟩

/-- Inputs in the quarter of a second with number `k` after the first second. -/
def quarter (k : ℕ) (inputs : List (Input ℚ)) : List (Stimulus ℚ) :=
  inputs.map (⟨⟨10 ^ 9 + 25 * 10 ^ 7 * k, 10 ^ 9 + 25 * 10 ^ 7 * k⟩, ·⟩)

/-- The tag is seen, a tick takes it up, and the operation goes on. -/
def seenInQuarter (k : ℕ) : List (Stimulus ℚ) :=
  quarter k ([.message (.detections "/front_center_rectify/detections"
      ⟨⟨⟨1, UInt32.ofNat (250000000 * k)⟩, "tag7"⟩, [⟨7, .finite 50⟩]⟩)] ++
    List.replicate 11 (.tick (.found facingTag)) ++ List.replicate 24 (.operation 0))

/-- A robot docks at the table. -/
def docking : List (Stimulus ℚ) :=
  quarter 0 [.message (.manipulationState .empty), .goal (.fineAlign ⟨true, "table", ""⟩)] ++
    (List.range 6).flatMap fun k => seenInQuarter (k + 1)

/-- Then it is asked to undock. -/
def leaving : List (Stimulus ℚ) :=
  docking ++ quarter 7 (.goal (.undock ⟨""⟩) :: List.replicate 3 (.operation 1))

theorem undock_resolves_lastDock_leaving :
    resolutions (operations 1 (serve .withTable leaving).2) = [some "table"] ∧
      ∃ target : DockTarget ℚ, target.1.name = "table" ∧
        LastDock (serve .withTable leaving).2 1 (some target) ∧
        ResolvesLast .withTable (some target) (operations 1 (serve .withTable leaving).2) := by
  have hdeclared : DockingProfiles.declare [declaredDefault, declaredTable] =
      some Node.withTable.profiles := by
    decide +kernel
  have hgoals : (serve .withTable leaving).1.goals =
      [.fineAlign ⟨true, "table", ""⟩, .undock ⟨""⟩] := by
    decide +kernel
  have hresolutions : resolutions (operations 1 (serve .withTable leaving).2) = [some "table"] := by
    decide +kernel
  have hsucceeded : (operations 0 (serve .withTable leaving).2).any (·.1.Succeeds) = true := by
    decide +kernel
  have hlisted := (chronicle_serve .withTable (DockingProfiles.name_of_declare hdeclared) leaving).listed
  have hdocked : Docked (serve .withTable leaving).2 0 :=
    ⟨_, rfl, (hlisted 0 _).mpr (by rw [hgoals]; rfl), List.any_eq_true.mp hsucceeded⟩
  obtain ⟨last, hlast, hresolves, -⟩ := (undock_resolves_lastDock .withTable hdeclared leaving
    ((hlisted 1 _).mpr (by rw [hgoals]; rfl))).1
  refine ⟨hresolutions, ?_⟩
  cases last with
  | none => exact absurd hdocked (hlast 0 one_pos)
  | some target =>
    have hname := hresolves.name "table" (resolved_of_resolutions (by simp [hresolutions]))
    exact ⟨target, hname.symm, hlast, hresolves⟩

end X2Navigation.FineAlignServer
