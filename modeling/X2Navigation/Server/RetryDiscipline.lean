import X2Navigation.Server.Attempts
import X2Navigation.Server.CommandOrigin
import X2Navigation.Server.Provenance

/-! A fine alignment retries with discipline. Sequence numbers only grow, so a target that
is newer than what was known of when a failure was handled is newer than every target up
to then; and an operation that has stopped its alignment keeps it stopped until it arms
it again. -/

namespace X2Navigation.FineAlignServer

open Interaction Program Traced

variable {K : Type}

/-! ### Sequence numbers -/

/-- The sequence number that an operation was shown. -/
def shownNumber? : OpEvent K → Option ℕ
  | ⟨.latestStableTargetSequence, latest⟩ => some latest
  | ⟨.stableMeasurement, (_, some x)⟩ => some x.sequence
  | _ => none

/-- The sequence number that was shown to an operation or given to a target. -/
def Occurrence.number? : Occurrence K → Option ℕ
  | .operated _ event => shownNumber? event
  | .ticked ⟨.commit _ _ _ _, published⟩ => published
  | _ => none

/-- Whether an operation has found the middleware down. -/
def foundDown? : OpEvent K → Option Bool
  | ⟨.ok, up⟩ => some !up
  | _ => none

def Occurrence.down? : Occurrence K → Option Bool
  | .operated _ event => foundDown? event
  | _ => none

theorem mem_number_of_publication {tr : List (Entry K)} {p : ℕ × TimePoint} (h : p ∈ publications tr) :
    p.1 ∈ tr.filterMap (·.occurrence.number?) := by
  obtain ⟨x, hx, heq⟩ := List.mem_filterMap.mp h
  refine List.mem_filterMap.mpr ⟨x, hx, ?_⟩
  split at heq
  · next generation stamp raw command published hoccurrence =>
    obtain ⟨n, rfl, rfl⟩ := Option.map_eq_some_iff.mp heq
    rw [hoccurrence]
    rfl
  · cases heq

theorem occurrence_of_operation? {id : ℕ} {occurrence : Occurrence K} {e : OpEvent K}
    (h : occurrence.operation? id = some e) : occurrence = .operated id e := by
  cases occurrence with
  | operated id' event =>
    obtain ⟨rfl, heq⟩ := Option.ite_none_right_eq_some.mp h
    rw [Option.some.inj heq]
  | _ => cases h

/-- What an operation was shown is part of what everybody was shown. -/
theorem operations_filterMap_sublist {β : Type} {reading : Occurrence K → Option β}
    {shown : OpEvent K → Option β} (hshown : ∀ id e, reading (.operated id e) = shown e) (id : ℕ)
    (tr : List (Entry K)) :
    ((operations id tr).filterMap shown).Sublist (tr.filterMap (reading ·.occurrence)) := by
  induction tr with
  | nil => exact .slnil
  | cons x tr ih =>
    have hcons : operations id (x :: tr) =
        (x.occurrence.operation? id).toList ++ operations id tr := by
      rw [operations, List.filterMap_cons]
      cases x.occurrence.operation? id <;> rfl
    rw [hcons]
    cases hop : x.occurrence.operation? id with
    | none =>
      exact ih.trans ((List.sublist_cons_self x tr).filterMap _)
    | some e =>
      have heq : reading x.occurrence = shown e := by rw [occurrence_of_operation? hop, hshown]
      rw [Option.toList_some, List.singleton_append, List.filterMap_cons, List.filterMap_cons, heq]
      cases shown e with
      | none => exact ih
      | some r => exact ih.cons_cons r

/-- Where in a trace an operation did something. -/
theorem split_operations {id : ℕ} {tr : List (Entry K)} {before after : List (OpEvent K)} {e : OpEvent K}
    (h : operations id tr = before ++ e :: after) :
    ∃ earlier x later, tr = earlier ++ x :: later ∧ operations id earlier = before ∧
      x.occurrence = .operated id e := by
  obtain ⟨earlier, rest, rfl, hbefore, hrest⟩ := List.filterMap_eq_append_iff.mp h
  obtain ⟨skipped, x, later, rfl, hskipped, hx, -⟩ := List.filterMap_eq_cons_iff.mp hrest
  refine ⟨earlier ++ skipped, x, later, by simp, ?_, occurrence_of_operation? hx⟩
  have hnone : operations id skipped = [] := List.filterMap_eq_nil_iff.mpr hskipped
  rw [operations_append_silent hnone]
  exact hbefore

variable [Field K] [LinearOrder K] {node : Node K}

theorem sequence_activateProfile {a a' : Acquisition K} {rosNow : TimePoint} {requested : String}
    {undocking : Bool} {instanceId : String} {resolved : Option String}
    (h : a.activateProfile node rosNow requested undocking instanceId = some (resolved, a')) :
    a'.stableTargetSequence = a.stableTargetSequence := by
  simp only [Acquisition.activateProfile] at h
  split at h
  · cases h
  · cases h
    rfl
  split at h
  · cases h
    rfl
  split at h
  · cases h
    rfl
  · cases h
    rfl

theorem sequence_operate {now : Instant} {shared shared' : Shared K} {h h' : HandleState}
    {o : Op K} {answer : o.Answer}
    (hw : operate node now (shared, h) o = some (answer, shared', h')) :
    shared'.acquisition.stableTargetSequence = shared.acquisition.stableTargetSequence := by
  cases ho : o.Activates with
  | false =>
    obtain heq | ⟨profileId, instanceId, heq⟩ := operate_acquisition hw ho
    · rw [heq]
    · rw [heq]
      rfl
  | true =>
    cases o with
    | activateProfile requested undocking instanceId =>
      exact sequence_activateProfile (operate_activateProfile hw)
    | _ => cases ho

theorem shownNumber_operate {now : Instant} {shared shared' : Shared K} {h h' : HandleState}
    {o : Op K} {answer : o.Answer}
    (hw : operate node now (shared, h) o = some (answer, shared', h')) :
    ∀ n ∈ shownNumber? ⟨o, answer⟩, n = shared.acquisition.stableTargetSequence := by
  intro n hn
  cases o with
  | latestStableTargetSequence =>
    cases hw
    exact (Option.some.inj hn).symm
  | stableMeasurement =>
    obtain ⟨state, measurement⟩ := answer
    obtain ⟨hanswer, -⟩ := Prod.mk.inj (Option.some.inj hw)
    have hmeasured := (Prod.mk.inj hanswer).2
    cases measurement with
    | none => cases hn
    | some x =>
      obtain rfl := Option.some.inj hn
      simp only [Acquisition.stableMeasurement] at hmeasured
      split at hmeasured
      · cases hmeasured
      · split at hmeasured
        · cases hmeasured
        · rw [← Option.some.inj hmeasured]
  | _ => cases hn

theorem sequence_receive (now : Instant) (shared : Shared K) (message : Message K) :
    (shared.receive node now message).acquisition.stableTargetSequence =
      shared.acquisition.stableTargetSequence := by
  cases message with
  | detections topic detections =>
    simp only [Shared.receive, Acquisition.detect]
    split <;> rfl
  | collisionState stop => cases stop <;> rfl
  | _ => rfl

/-- A target that is made stable is given the next number. -/
theorem sequence_commit (a : Acquisition K) (generation : ℕ) (stamp : TimePoint)
    (raw : PlanarError K) (command : Twist K) :
    a.stableTargetSequence ≤ (a.commit node generation stamp raw command).2.stableTargetSequence ∧
      ∀ n ∈ (a.commit node generation stamp raw command).1,
        n = (a.commit node generation stamp raw command).2.stableTargetSequence := by
  unfold Acquisition.commit
  split
  · exact ⟨le_rfl, by simp⟩
  dsimp only
  split
  · exact ⟨le_rfl, by simp⟩
  split
  · exact ⟨le_rfl, by simp⟩
  · exact ⟨Nat.le_succ _, by simp⟩

theorem sequence_answerTick {now : Instant} {lookup : Lookup K} {shared shared' : Shared K}
    {e : TickEvent K} (hw : answerTick node now lookup shared e.1 = some (e.2, shared')) :
    shared.acquisition.stableTargetSequence ≤ shared'.acquisition.stableTargetSequence ∧
      ∀ n ∈ (Occurrence.ticked e : Occurrence K).number?,
        n = shared'.acquisition.stableTargetSequence := by
  obtain ⟨o, answer⟩ := e
  cases o with
  | commit generation stamp raw command =>
    cases hw
    exact sequence_commit _ _ _ _ _
  | escape => cases hw
  | reject generation stamp =>
    cases hw
    refine ⟨?_, by simp [Occurrence.number?]⟩
    simp only [Acquisition.reject]
    split <;> exact le_rfl
  | _ =>
    cases hw
    exact ⟨le_rfl, by simp [Occurrence.number?]⟩

/-- The counter never goes back, and what is shown of it is what it is. -/
theorem sequence_moves {now : Instant} {s s' : Server K} {entries : List (Entry K)}
    (h : Moves node now s s' entries) :
    s.shared.acquisition.stableTargetSequence ≤ s'.shared.acquisition.stableTargetSequence ∧
      (entries.filterMap (·.occurrence.number?)).Pairwise (· ≤ ·) ∧
      ∀ n ∈ entries.filterMap (·.occurrence.number?),
        s.shared.acquisition.stableTargetSequence ≤ n ∧
          n ≤ s'.shared.acquisition.stableTargetSequence := by
  cases h with
  | idle ok terminated => exact ⟨le_rfl, List.Pairwise.nil, by simp⟩
  | received message =>
    exact ⟨(sequence_receive _ _ _).ge, pairwise_filterMap_singleton _ _,
      forall_mem_filterMap_of_none rfl⟩
  | rejected goal hactive =>
    exact ⟨le_rfl, pairwise_filterMap_singleton _ _, forall_mem_filterMap_of_none rfl⟩
  | accepted goal hfree =>
    exact ⟨le_rfl, pairwise_filterMap_singleton _ _, forall_mem_filterMap_of_none rfl⟩
  | canceled id thread hid hexecuting =>
    exact ⟨le_rfl, pairwise_filterMap_singleton _ _, forall_mem_filterMap_of_none rfl⟩
  | operated id thread event program shared handle hid hn hw =>
    obtain ⟨o, answer⟩ := event
    have hsame := sequence_operate hw
    have hshown := shownNumber_operate hw
    refine ⟨hsame.ge, pairwise_filterMap_singleton _ _, forall_mem_filterMap_singleton ?_⟩
    intro n heq
    rw [hshown n heq]
    exact ⟨le_rfl, hsame.ge⟩
  | ticked event program shared lookup hn hw =>
    obtain ⟨hle, hgiven⟩ := sequence_answerTick hw
    refine ⟨hle, pairwise_filterMap_singleton _ _, forall_mem_filterMap_singleton ?_⟩
    intro n heq
    rw [hgiven n heq]
    exact ⟨hle, le_rfl⟩

/-- Every sequence number that is shown is at least all that were shown or given before. -/
theorem numbers_serve (node : Node K) (inputs : List (Stimulus K)) :
    ((serve node inputs).2.filterMap (·.occurrence.number?)).Pairwise (· ≤ ·) :=
  (run_readings (fun s : Server K => s.shared.acquisition.stableTargetSequence)
    (fun x s => (sequence_moves (step_moves node x s)).1)
    (fun x s => (sequence_moves (step_moves node x s)).2.1)
    (fun x s => (sequence_moves (step_moves node x s)).2.2) _ inputs).1

/-! ### The middleware -/

theorem ok_operate {now : Instant} {shared shared' : Shared K} {h h' : HandleState}
    {o : Op K} {answer : o.Answer}
    (hw : operate node now (shared, h) o = some (answer, shared', h')) :
    shared'.ok = shared.ok ∧ ∀ down ∈ foundDown? ⟨o, answer⟩, down = !shared.ok := by
  cases o with
  | ok =>
    cases hw
    exact ⟨rfl, fun down hdown => (Option.some.inj hdown).symm⟩
  | activateProfile requested undocking instanceId =>
    obtain ⟨acquisition, -, rfl, -⟩ := of_operate_activateProfile hw
    exact ⟨rfl, fun down hdown => by cases hdown⟩
  | terminate outcome result =>
    obtain ⟨-, rfl⟩ := of_operate_terminate hw
    exact ⟨rfl, fun down hdown => by cases hdown⟩
  | _ =>
    cases hw
    exact ⟨rfl, fun down hdown => by cases hdown⟩

theorem ok_receive (now : Instant) (shared : Shared K) (message : Message K) :
    (shared.receive node now message).ok = shared.ok := by
  cases message with
  | collisionState stop => cases stop <;> rfl
  | _ => rfl

theorem ok_answerTick {now : Instant} {lookup : Lookup K} {shared shared' : Shared K}
    {o : TickOp K} {answer : o.Answer}
    (hw : answerTick node now lookup shared o = some (answer, shared')) : shared'.ok = shared.ok := by
  cases o with
  | escape => cases hw
  | _ =>
    cases hw
    rfl

/-- Once down, the middleware stays down. -/
theorem down_step (node : Node K) (x : Stimulus K) (s : Server K) :
    (!s.shared.ok) ≤ (!(step node x s).1.shared.ok) ∧
      ∀ down ∈ (step node x s).2.filterMap (·.occurrence.down?),
        down = (!s.shared.ok) ∧ down = !(step node x s).1.shared.ok := by
  unfold step
  split
  · exact ⟨le_rfl, by simp⟩
  split
  · split
    · refine ⟨?_, forall_mem_filterMap_of_none rfl⟩
      rw [ok_receive]
    · exact ⟨le_rfl, by simp⟩
  · unfold Server.acceptGoal
    split <;> exact ⟨le_rfl, forall_mem_filterMap_of_none rfl⟩
  · unfold Server.cancelGoal
    split
    · exact ⟨le_rfl, by simp⟩
    · split
      · exact ⟨le_rfl, forall_mem_filterMap_of_none rfl⟩
      · exact ⟨le_rfl, by simp⟩
  · unfold Server.runOperation
    split
    · exact ⟨le_rfl, by simp⟩
    split
    · exact ⟨le_rfl, by simp⟩
    · next event program shared handle hmove =>
      obtain ⟨-, hw⟩ := move_eq_some hmove
      obtain ⟨hok, hdown⟩ := ok_operate hw
      refine ⟨by rw [hok], forall_mem_filterMap_singleton fun down heq => ?_⟩
      rw [hok]
      exact ⟨hdown down heq, hdown down heq⟩
  · unfold Server.runTick
    split
    · exact ⟨le_rfl, by simp⟩
    · next event program shared hmove =>
      obtain ⟨-, hw⟩ := move_eq_some hmove
      exact ⟨by rw [ok_answerTick hw], forall_mem_filterMap_of_none rfl⟩
  · exact ⟨by simp, by simp⟩

theorem pairwise_down_step (node : Node K) (x : Stimulus K) (s : Server K) :
    ((step node x s).2.filterMap (·.occurrence.down?)).Pairwise (· ≤ ·) := by
  have hstep := (down_step node x s).2
  refine List.pairwise_of_forall_mem_list fun a ha b hb => ?_
  rw [(hstep a ha).1, (hstep b hb).1]

theorem downs_serve (node : Node K) (inputs : List (Stimulus K)) :
    ((serve node inputs).2.filterMap (·.occurrence.down?)).Pairwise (· ≤ ·) := by
  refine (run_readings (fun s : Server K => !s.shared.ok) (fun x s => (down_step node x s).1)
    (pairwise_down_step node) (fun x s down hmem => ?_) _ inputs).1
  obtain ⟨hbefore, hafter⟩ := (down_step node x s).2 down hmem
  exact ⟨hbefore.ge, hafter.le⟩

/-! ### What an operation has put into force -/

/-- What an operation leaves of the alignment's flag and command. -/
def Op.hold : Op K → Bool × Twist K → Bool × Twist K
  | .setAlignmentActive active, held => (active, held.2)
  | .writeCommand command _, held => (held.1, command)
  | .writeRotation angularSpeed _, _ => (true, ⟨0, ⟨0, 0, angularSpeed⟩⟩)
  | .clearCommand, held => (held.1, 0)
  | _, held => held

def heldAfter (ops : List (OpEvent K)) (held : Bool × Twist K) : Bool × Twist K :=
  ops.foldl (fun held e => e.1.hold held) held

def Mux.held (mux : Mux K) : Bool × Twist K := (mux.alignmentActive, mux.alignmentCommand)

omit [LinearOrder K] in
theorem held_operate (now : TimePoint) (mux : Mux K) (o : Op K) :
    (mux.operate now o).held = o.hold mux.held := by
  cases o <;> rfl

omit [LinearOrder K] in
theorem hold_unarmed {o : Op K} (h : o.Arms = false) : o.hold (false, 0) = (false, 0) := by
  cases o with
  | setAlignmentActive active =>
    obtain rfl : active = false := h
    rfl
  | writeCommand | writeRotation => cases h
  | _ => rfl

omit [LinearOrder K] in
/-- An alignment that was stopped, and not armed since, is inactive with a zero command. -/
theorem heldAfter_stopped {before since : List (OpEvent K)} {held : Bool × Twist K}
    (h : ∀ e ∈ since, e.1.Arms = false) :
    heldAfter (before ++ ⟨.setAlignmentActive false, ()⟩ :: ⟨.clearCommand, ()⟩ :: since) held =
      (false, 0) := by
  have hsince : heldAfter since (false, 0) = (false, (0 : Twist K)) := by
    induction since with
    | nil => rfl
    | cons e since ih =>
      have he : e.1.hold (false, 0) = (false, (0 : Twist K)) := hold_unarmed (h e (by simp))
      rw [heldAfter, List.foldl_cons, he]
      exact ih fun e' he' => h e' (by simp [he'])
  rw [heldAfter, List.foldl_append]
  exact hsince

/-- While an operation owns the flag, what it has put into force is in force. -/
def InForce (s : Server K) (tr : List (Entry K)) : Prop :=
  ∀ id, id + 1 = s.threads.length → ¬ Released id tr →
    ∃ held, s.shared.mux.held = heldAfter (operations id tr) held

/-- An entry of no operation leaves it in force. -/
theorem InForce.free {s s' : Server K} {tr : List (Entry K)} (h : InForce s tr)
    (howned : Owned node s tr) {x : Entry K} (hx : x.occurrence.IsFree)
    (hthreads : s'.threads.length = s.threads.length)
    (hmux : Undisturbed node x s.shared.mux s'.shared.mux) : InForce s' (tr ++ [x]) := by
  intro id hid hopen
  rw [hthreads] at hid
  rw [Released, operations_append_silent (operations_free hx id)] at hopen
  obtain ⟨held, heq⟩ := h id hid hopen
  refine ⟨held, ?_⟩
  rw [operations_append_silent (operations_free hx id), ← heq,
    hmux.owned (howned.flag.mpr ⟨id, hid, hopen⟩)]

theorem InForce.moves {s s' : Server K} {tr entries : List (Entry K)} (h : InForce s tr)
    (howned : Owned node s tr) {now : Instant} (hm : Moves node now s s' entries) :
    InForce s' (tr ++ entries) := by
  cases hm with
  | idle ok terminated =>
    rw [List.append_nil]
    exact h
  | received message => exact h.free howned trivial rfl (undisturbed_receive now s.shared message)
  | rejected goal hactive => exact h.free howned trivial rfl ⟨fun _ => rfl, fun _ => rfl⟩
  | canceled id thread hid hexecuting =>
    exact h.free howned trivial (by simp) ⟨fun _ => rfl, fun _ => rfl⟩
  | ticked event program shared lookup hn hw => exact h.free howned trivial rfl (undisturbed_answerTick hw)
  | accepted goal hfree =>
    intro id hid hopen
    obtain rfl : id = s.threads.length := by simpa using hid
    refine ⟨s.shared.mux.held, ?_⟩
    rw [operations_append, howned.unborn _ le_rfl]
    rfl
  | operated id thread event program shared handle hid hn hw =>
    intro id' hid' hopen'
    obtain ⟨hlast, hopen⟩ := howned.last hid hn
    obtain rfl : id' = id := by
      rw [List.length_set] at hid'
      omega
    obtain ⟨held, heq⟩ := h id' hlast hopen
    refine ⟨held, ?_⟩
    rw [operations_snoc_self, heldAfter, List.foldl_append]
    change shared.mux.held = event.1.hold (heldAfter (operations id' tr) held)
    rw [operate_mux hw, held_operate, heq]

theorem inForce_serve (node : Node K) (inputs : List (Stimulus K)) :
    InForce (serve node inputs).1 (serve node inputs).2 := by
  induction inputs using List.reverseRecOn with
  | nil => exact fun id hid => by cases hid
  | append_singleton inputs x ih =>
    have howned := owned_serve node inputs
    unfold serve at ih howned ⊢
    rw [run_snoc]
    exact ih.moves howned (step_moves node x _)

/-! ### Retries -/

section Retries
variable (node : Node K) (goal : FineAlign.Goal) (id : ℕ)

/-- The second call is a retry of the first. That has failed with a code that may be
retried, the goal was found not to be canceled, and the delay has elapsed. The sequence
number read in between is at least all that were given out before, and less than those of
all the targets the second call uses. -/
structure Retried (tr : List (Entry K)) (c c' : AttemptCall K) : Prop where
  failed : ∃ failure, c.Ended node.m node.settings goal (c'.result, some failure) ∧
    retryableFailure failure.code = true
  waited : ∃ delay, c'.past = c.past ++ c.during ++ handling c'.minimumSequence ++ delay ∧
    Waited node.settings delay
  newer : ∃ earlier x later, tr = earlier ++ x :: later ∧
    operations id earlier = c.past ++ c.during ++ stopCalls ++ [⟨.isCanceling, false⟩] ∧
    x.occurrence = .operated id ⟨.latestStableTargetSequence, c'.minimumSequence⟩ ∧
    (∀ p ∈ publications earlier, p.1 ≤ c'.minimumSequence) ∧
    ∀ y, c'.Uses node.settings y → c'.minimumSequence < y.sequence

/-- The last call has failed and the alignment was stopped since, or it is a retry that has
not passed its own acquisition. -/
def AwaitsTarget (ops : List (OpEvent K)) (calls : List (AttemptCall K)) (c : AttemptCall K) : Prop :=
  (∃ result failure since, c.Ended node.m node.settings goal (result, some failure) ∧
    ops = c.past ++ c.during ++ ⟨.setAlignmentActive false, ()⟩ :: ⟨.clearCommand, ()⟩ :: since) ∨
  1 < calls.length ∧ ¬ c.Passed node.m node.settings

/-- The calls of `runAttempt` that an operation has made up to a state and its trace. -/
structure RetryDiscipline (s : Server K) (tr : List (Entry K)) (calls : List (AttemptCall K)) :
    Prop where
  bounded : calls.length ≤ if goal.execute then node.settings.maximumRetries + 1 else 1
  uncalled : calls = [] → ∃ p, Steps (prepare goal) (operations id tr) p ∧
    ∀ result, p ≠ .pure (some result)
  first : ∀ c ∈ calls.head?, c.minimumSequence = 0 ∧ c.stage = .acquiring ∧
    Runs (prepare goal) c.past (some c.result)
  retried : calls.IsChain (Retried node goal id tr)
  last : ∀ c ∈ calls.getLast?,
    IsLast node.m node.settings goal calls.length c (operations id tr)
  inactive : ¬ Released id tr → ∀ c ∈ calls.getLast?,
    AwaitsTarget node goal (operations id tr) calls c →
      s.shared.mux.alignmentActive = false ∧ s.shared.mux.alignmentCommand = 0

end Retries

section Discipline
variable {goal : FineAlign.Goal} {id : ℕ} {tr : List (Entry K)} {c c' : AttemptCall K}
  {ops : List (OpEvent K)} {cs : List (AttemptCall K)} {m : Libm K} {settings : Settings K}

theorem IsLast.within {attempt : ℕ} (h : IsLast m settings goal attempt c ops) :
    c.past ++ c.during <+: ops := by
  obtain ⟨rfl, -⟩ | ⟨rest, _, _, rfl, -⟩ := h
  · exact List.prefix_rfl
  · exact List.prefix_append _ _

theorem Follows.within (h : Follows m settings goal c c') : c.past ++ c.during <+: c'.past := by
  obtain ⟨delay, hpast, -⟩ := h.delayed
  rw [hpast, List.append_assoc _ (handling _)]
  exact List.prefix_append _ _

/-- Every call is part of the run. -/
theorem within_of_isChain (h : cs.IsChain (Follows m settings goal))
    (hlast : ∀ last ∈ cs.getLast?, last.past ++ last.during <+: ops) :
    ∀ c ∈ cs, c.past ++ c.during <+: ops := by
  induction cs with
  | nil => simp
  | cons c cs ih =>
    cases cs with
    | nil =>
      intro x hx
      obtain rfl := List.mem_singleton.mp hx
      exact hlast x rfl
    | cons c' cs =>
      obtain ⟨hfollows, hchain⟩ := List.isChain_cons_cons.mp h
      have hrest := ih hchain (by simpa using hlast)
      intro x hx
      obtain rfl | hx := List.mem_cons.mp hx
      · exact hfollows.within.trans ((List.prefix_append _ _).trans (hrest c' (by simp)))
      · exact hrest x hx

/-- The targets that a call uses are newer than it was told. -/
theorem minimumSequence_lt_of_uses {y : Measurement K} (h : c.Uses settings y)
    (hshown : (c.during.filterMap shownNumber?).Pairwise (· ≤ ·)) : c.minimumSequence < y.sequence := by
  cases h with
  | capture acquiring state hmeasured => exact (runs_waitForMeasurement hmeasured.2).1
  | motion acquiring driving found state hmeasured hduring hread =>
    obtain ⟨state', x⟩ := found
    obtain ⟨hnewer, hmem⟩ := runs_waitForMeasurement hmeasured.2
    rw [hduring, List.filterMap_append, List.pairwise_append] at hshown
    have hx : x.sequence ∈ acquiring.filterMap shownNumber? := List.mem_filterMap.mpr ⟨_, hmem, rfl⟩
    have hy : y.sequence ∈ (⟨.setAlignmentActive true, ()⟩ :: driving).filterMap shownNumber? :=
      List.mem_filterMap.mpr ⟨_, List.mem_cons_of_mem _ hread, rfl⟩
    have hle : x.sequence ≤ y.sequence := hshown.2.2 _ hx _ hy
    omega

/-- A delay that is over never saw the middleware down. -/
theorem up_of_delay {result : FineAlign.Result K} {delay : List (OpEvent K)}
    (h : Runs (waitForRetryDelay settings result) delay true)
    (hdown : (delay.filterMap foundDown?).Pairwise (· ≤ ·)) : ⟨.ok, false⟩ ∉ delay := by
  obtain ⟨earlier, rfl⟩ := exists_waitForRetryDelay h
  intro hmem
  have hearlier : ⟨.ok, false⟩ ∈ earlier := by simpa using hmem
  rw [List.filterMap_append, List.pairwise_append] at hdown
  have hfound : true ∈ earlier.filterMap foundDown? := List.mem_filterMap.mpr ⟨_, hearlier, rfl⟩
  have hle : true ≤ false := hdown.2.2 true hfound false (List.mem_singleton.mpr rfl)
  cases hle rfl

theorem Follows.retried (h : Follows node.m node.settings goal c c')
    (hwithin : c'.past ++ c'.during <+: operations id tr)
    (hnumbers : (tr.filterMap (·.occurrence.number?)).Pairwise (· ≤ ·))
    (hdowns : (tr.filterMap (·.occurrence.down?)).Pairwise (· ≤ ·)) :
    Retried node goal id tr c c' := by
  obtain ⟨delay, hpast, hdelay⟩ := h.delayed
  obtain ⟨rest, hrest⟩ := hwithin
  have hops : operations id tr = (c.past ++ c.during ++ stopCalls ++ [⟨.isCanceling, false⟩]) ++
      ⟨.latestStableTargetSequence, c'.minimumSequence⟩ :: (delay ++ (c'.during ++ rest)) := by
    rw [← hrest, hpast]
    simp [handling]
  have hshown : ((operations id tr).filterMap shownNumber?).Pairwise (· ≤ ·) :=
    hnumbers.sublist (operations_filterMap_sublist (fun _ _ => rfl) id tr)
  have hfound : ((operations id tr).filterMap foundDown?).Pairwise (· ≤ ·) :=
    hdowns.sublist (operations_filterMap_sublist (fun _ _ => rfl) id tr)
  refine ⟨h.failed, ⟨delay, hpast, runs_waitForRetryDelay hdelay (up_of_delay hdelay ?_)⟩, ?_⟩
  · refine hfound.sublist (List.Sublist.filterMap _ ?_)
    rw [hops]
    exact ((List.sublist_append_left _ _).trans (List.sublist_cons_self _ _)).trans
      (List.sublist_append_right _ _)
  · obtain ⟨earlier, x, later, rfl, hearlier, hx⟩ := split_operations hops
    refine ⟨earlier, x, later, rfl, hearlier, hx, fun p hp => ?_, fun y hy => ?_⟩
    · rw [List.filterMap_append, List.pairwise_append] at hnumbers
      refine hnumbers.2.2 _ (mem_number_of_publication hp) _ (List.mem_filterMap.mpr ⟨x, by simp, ?_⟩)
      rw [hx]
      rfl
    · refine minimumSequence_lt_of_uses hy (hshown.sublist (List.Sublist.filterMap _ ?_))
      rw [← hrest]
      exact (List.sublist_append_right _ _).trans (List.sublist_append_left _ _)

/-- What comes after the last call arms nothing. -/
theorem IsLast.unarmed {attempt : ℕ} (h : IsLast m settings goal attempt c ops) :
    ∃ rest, ops = c.past ++ c.during ++ rest ∧ ∀ e ∈ rest, e.1.Arms = false := by
  obtain ⟨rfl, -⟩ | ⟨rest, outcome, p, rfl, -, hrest, -⟩ := h
  · exact ⟨[], by simp, by simp⟩
  · exact ⟨rest, rfl, ((unarmed_between attempt outcome).steps hrest).1⟩

/-- A call that has not passed its acquisition has armed nothing. -/
theorem IsLast.during_unarmed {attempt : ℕ} (h : IsLast m settings goal attempt c ops)
    (hpassed : ¬ c.Passed m settings) : ∀ e ∈ c.during, e.1.Arms = false := by
  have hsteps : ∃ p, Steps (c.program m settings goal) c.during p := by
    obtain ⟨-, hsteps⟩ | ⟨_, _, _, -, hended, -⟩ := h
    · exact hsteps
    · exact ⟨_, hended⟩
  obtain ⟨p, hp⟩ := hsteps
  obtain hunarmed | ⟨acquiring, driving, state, x, hduring, hacquired, hstate, hinside⟩ :=
    steps_runAttempt hp
  · exact hunarmed
  · refine absurd ⟨acquiring, state, x, ⟨?_, hacquired⟩, hstate, hinside⟩ hpassed
    rw [hduring]
    exact List.prefix_append _ _

/-- What was stopped and not armed since is inactive with a zero command. -/
theorem InForce.stopped {s : Server K} (h : InForce s tr) (howned : Owned node s tr)
    {thread : Thread K} (hthread : s.threads[id]? = some thread) (hopen : ¬ Released id tr)
    {before since : List (OpEvent K)}
    (hops : operations id tr =
      before ++ ⟨.setAlignmentActive false, ()⟩ :: ⟨.clearCommand, ()⟩ :: since)
    (hsince : ∀ e ∈ since, e.1.Arms = false) :
    s.shared.mux.alignmentActive = false ∧ s.shared.mux.alignmentCommand = 0 := by
  have hlt : id < s.threads.length := (List.getElem?_eq_some_iff.mp hthread).1
  have hlast : ¬ id + 1 < s.threads.length := fun hearlier => hopen (howned.earlier id hearlier)
  obtain ⟨held, hheld⟩ := h id (by omega) hopen
  rw [hops, heldAfter_stopped hsince] at hheld
  exact Prod.mk.inj hheld

theorem inactive_of_awaitsTarget {s : Server K} (h : InForce s tr) (howned : Owned node s tr)
    {thread : Thread K} (hthread : s.threads[id]? = some thread) (hopen : ¬ Released id tr)
    {attempt : ℕ} (hchain : cs.IsChain (Follows node.m node.settings goal))
    (hc : c ∈ cs.getLast?) (hlast : IsLast node.m node.settings goal attempt c (operations id tr))
    (hawaits : AwaitsTarget node goal (operations id tr) cs c) :
    s.shared.mux.alignmentActive = false ∧ s.shared.mux.alignmentCommand = 0 := by
  obtain ⟨rest, hrest, hunarmed⟩ := hlast.unarmed
  obtain ⟨_, _, since, -, hops⟩ | ⟨hlength, hpassed⟩ := hawaits
  · refine h.stopped howned hthread hopen hops fun e he => hunarmed e ?_
    obtain rfl := List.append_cancel_left (hrest.symm.trans hops)
    simp [he]
  · obtain ⟨front, rfl⟩ := List.getLast?_eq_some_iff.mp hc
    obtain rfl | ⟨front, c₀, rfl⟩ := List.eq_nil_or_concat front
    · simp at hlength
    have hfollows : Follows node.m node.settings goal c₀ c :=
      (List.isChain_append.mp hchain).2.2 c₀ (by simp) c rfl
    obtain ⟨delay, hpast, hdelay⟩ := hfollows.delayed
    have hdelayed : ∀ e ∈ delay, e.1.Arms = false := fun e he =>
      Op.unarmed_of_isStill (((still_waitForRetryDelay _).steps hdelay).1 e he)
    have hduring := hlast.during_unarmed hpassed
    have hops : operations id tr = (c₀.past ++ c₀.during) ++
        ⟨.setAlignmentActive false, ()⟩ :: ⟨.clearCommand, ()⟩ :: (⟨.publishZero, ()⟩ ::
          ⟨.isCanceling, false⟩ :: ⟨.latestStableTargetSequence, c.minimumSequence⟩ ::
            (delay ++ c.during ++ rest)) := by
      rw [hrest, hpast]
      simp [handling, stopCalls]
    refine h.stopped howned hthread hopen hops fun e he => ?_
    simp only [List.mem_append, List.mem_cons] at he
    obtain rfl | rfl | rfl | (he | he) | he := he
    · rfl
    · rfl
    · rfl
    · exact hdelayed e he
    · exact hduring e he
    · exact hunarmed e he

end Discipline

/-- Every fine alignment retries with discipline, at every moment of every run of the
server. -/
theorem retry_discipline (node : Node K) (inputs : List (Stimulus K)) (id : ℕ) (thread : Thread K)
    (goal : FineAlign.Goal) (hthread : (serve node inputs).1.threads[id]? = some thread)
    (hgoal : thread.goal = .fineAlign goal) :
    ∃ calls, RetryDiscipline node goal id (serve node inputs).1 (serve node inputs).2 calls := by
  have howned := owned_serve node inputs
  have hforce := inForce_serve node inputs
  have hruns := howned.runs id thread hthread
  rw [hgoal] at hruns
  change Steps (execute node.m node.settings goal) _ _ at hruns
  rw [execute_eq] at hruns
  obtain ⟨p, hp, hnone⟩ | ⟨past, result, tr, hops, hprepare, hcalls⟩ := steps_onward hruns
  · exact ⟨[], by simp, fun _ => ⟨p, hp, hnone⟩, by simp, List.isChain_nil, by simp, by simp⟩
  have hpos : 0 < maximumAttempts node.settings goal := by
    unfold maximumAttempts
    split <;> omega
  obtain ⟨during, later, hlength, hchain, hlast⟩ := steps_calls hcalls (by omega) past
  rw [← hops, Nat.sub_sub_self hpos, Nat.add_comm] at hlast
  have hwithin := within_of_isChain hchain fun last hmem => (hlast last hmem).within
  refine ⟨_ :: later, ?_, by simp, ?_, ?_, hlast, ?_⟩
  · rw [List.length_cons]
    change _ ≤ maximumAttempts node.settings goal
    omega
  · intro c hc
    obtain rfl := Option.some.inj hc
    exact ⟨rfl, rfl, hprepare⟩
  · refine List.IsChain.imp_of_mem_imp (fun c c' _ hc' hfollows => ?_) hchain
    exact hfollows.retried (hwithin c' hc') (numbers_serve node inputs) (downs_serve node inputs)
  · intro hopen c hc hawaits
    exact inactive_of_awaitsTarget hforce howned hthread hopen hchain hc (hlast c hc) hawaits

/-- A goal for which no tag is ever seen, with a second between two steps. -/
def unseen : List (Stimulus ℚ) :=
  (Input.goal (.fineAlign ⟨true, "", ""⟩) :: List.replicate 35 (Input.operation 0)).mapIdx
    fun i input => ⟨⟨10 ^ 9 * i, 10 ^ 9 * i⟩, input⟩

theorem retry_discipline_unseen :
    (operations 0 (serve .declared unseen).2).filterMap shownNumber? = [0] ∧
      ∃ calls, RetryDiscipline .declared ⟨true, "", ""⟩ 0 (serve .declared unseen).1
        (serve .declared unseen).2 calls := by
  have hgoals : (serve .declared unseen).1.threads[0]?.map Thread.goal =
      some (.fineAlign ⟨true, "", ""⟩) := by decide +kernel
  obtain ⟨thread, hthread, hgoal⟩ := Option.map_eq_some_iff.mp hgoals
  exact ⟨by decide +kernel, retry_discipline .declared unseen 0 thread _ hthread hgoal⟩

end X2Navigation.FineAlignServer
