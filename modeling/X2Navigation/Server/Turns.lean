import X2Navigation.Server.Deadlines
import X2Navigation.Server.Testimony

/-! Every accepted goal is ended. A thread whose clock goes on while it sleeps has a
bounded number of operations to perform; given that many turns, between whatever else
happens, it has made its terminal call and given the flag back. -/

namespace X2Navigation.FineAlignServer

open Interaction Program Traced

variable {K : Type}

/-- What an operation has done, with the steady time of each step. -/
def timeline (id : ℕ) (tr : List (Entry K)) : List (TimePoint × OpEvent K) :=
  tr.filterMap fun x => (x.occurrence.operation? id).map (x.now.steady, ·)

theorem operations_eq_timeline (id : ℕ) (tr : List (Entry K)) :
    operations id tr = (timeline id tr).map Prod.snd := by
  rw [operations, timeline, List.map_filterMap]
  congr 1
  funext x
  rw [Option.map_map]
  exact (Option.map_id' ..).symm

/-- The number of turns that a thread is given. -/
def turns (id : ℕ) (inputs : List (Stimulus K)) : ℕ :=
  inputs.countP fun x => match x.input with
    | .operation id' => id' = id
    | _ => false

/-- The next operation of a thread that has slept. -/
theorem turns_snoc (id : ℕ) (inputs : List (Stimulus K)) (x : Stimulus K) :
    turns id (inputs ++ [x]) = turns id inputs + turns id [x] := List.countP_append

theorem turns_singleton_of_ne {id : ℕ} {x : Stimulus K} (h : x.input ≠ .operation id) :
    turns id [x] = 0 := by
  refine List.countP_eq_zero.mpr fun y hy => ?_
  obtain rfl := List.mem_singleton.mp hy
  split
  · next id' heq =>
    rintro hid
    exact h (heq.trans (congrArg _ (of_decide_eq_true hid)))
  · exact Bool.false_ne_true

theorem turns_singleton_le (id : ℕ) (x : Stimulus K) : turns id [x] ≤ 1 := List.countP_le_length

variable [Field K] [LinearOrder K] {node : Node K}

/-! ### The clock of a thread -/

section Clock
variable [FloorRing K] {s : Settings K}

/-- How long an operation takes at least. -/
def Settings.rest (s : Settings K) : Op K → ℤ
  | .sleep pause => s.pause pause
  | _ => 0

/-- One step of a thread and a later one: the clock has not gone back, and a sleep is over. -/
def Rests (s : Settings K) (x y : TimePoint × OpEvent K) : Prop := x.1 + s.rest x.2.1 ≤ y.1

instance (s : Settings K) : DecidableRel (Rests s) := fun _ _ => inferInstanceAs (Decidable (_ ≤ _))

theorem Settings.Timed.rest_nonneg (hs : s.Timed) (o : Op K) : 0 ≤ s.rest o := by
  cases o with
  | sleep pause =>
    cases pause with
    | poll => exact (by norm_num : (0 : ℤ) ≤ 10 ^ 8)
    | controllerPeriod => exact hs.period.le
  | _ => exact le_rfl

/-- Every reading is the time of its step. -/
def ReadsClock (steps : List (TimePoint × OpEvent K)) : Prop :=
  ∀ t now, (t, ⟨.steadyNow, now⟩) ∈ steps → now = t

/-- A thread whose steps rest is answered as its environment answers. -/
theorem admits_of_rests {steps : List (TimePoint × OpEvent K)} (hrests : steps.Pairwise (Rests s))
    (hreads : ReadsClock steps) {g : TimePoint} (hg : ∀ x ∈ steps, g ≤ x.1) :
    (clock s).Admits g (steps.map Prod.snd) := by
  induction steps generalizing g with
  | nil => trivial
  | cons x steps ih =>
    obtain ⟨hfirst, hlast⟩ := List.pairwise_cons.mp hrests
    obtain ⟨t, o, a⟩ := x
    have ht : g ≤ t := hg _ List.mem_cons_self
    have hlater : ReadsClock steps := fun t now h => hreads t now (List.mem_cons_of_mem _ h)
    have hnext : ∀ y ∈ steps, (clock s).next g o a ≤ y.1 := by
      intro y hy
      have hrest : t + s.rest o ≤ y.1 := hfirst y hy
      cases o with
      | steadyNow =>
        have ha : a = t := hreads t a List.mem_cons_self
        exact ha.trans_le ((Int.add_zero t).symm.trans_le hrest)
      | sleep pause => exact (Int.add_le_add_right ht _).trans hrest
      | _ => exact ht.trans ((Int.add_zero t).symm.trans_le hrest)
    refine ⟨?_, ih hlast hlater hnext⟩
    cases o with
    | steadyNow =>
      obtain rfl := hreads t a List.mem_cons_self
      exact ht
    | _ => trivial

theorem exists_earliest (hs : s.Timed) {steps : List (TimePoint × OpEvent K)}
    (hrests : steps.Pairwise (Rests s)) : ∃ g, ∀ x ∈ steps, g ≤ x.1 := by
  cases steps with
  | nil => exact ⟨0, fun x hx => absurd hx List.not_mem_nil⟩
  | cons x steps =>
    refine ⟨x.1, fun y hy => ?_⟩
    obtain rfl | hy := List.mem_cons.mp hy
    · exact Int.le_refl _
    · have hrest : x.1 + s.rest x.2.1 ≤ y.1 := (List.pairwise_cons.mp hrests).1 y hy
      exact Int.le_trans (Int.le_add_of_nonneg_right (hs.rest_nonneg x.2.1)) hrest

end Clock

/-! ### The readings of a run -/

section Run
variable {s : Server K} {tr : List (Entry K)}

theorem operate_steadyNow {now : Instant} {shared shared' : Shared K} {handle handle' : HandleState}
    {time : TimePoint}
    (hw : operate node now (shared, handle) .steadyNow = some (time, shared', handle')) :
    time = now.steady := by
  cases hw
  rfl

theorem readsClock_serve (node : Node K) (inputs : List (Stimulus K)) (id : ℕ) :
    ReadsClock (timeline id (serve node inputs).2) := by
  intro t time h
  obtain ⟨x, hx, heq⟩ := List.mem_filterMap.mp h
  obtain ⟨event, hevent, hpair⟩ := Option.map_eq_some_iff.mp heq
  obtain ⟨rfl, rfl⟩ := Prod.mk.inj hpair
  clear h heq hpair
  unfold serve at hx
  induction inputs using List.reverseRecOn with
  | nil => cases hx
  | append_singleton inputs y ih =>
    rw [run_snoc, Reaction.andThen_snd] at hx
    obtain hx | hx := List.mem_append.mp hx
    · exact ih hx
    · -- the entry is the one of the last step
      have hmoves := step_moves node y (run (step node) (.initial node) inputs).1
      generalize step node y (run (step node) (.initial node) inputs).1 = r at hx hmoves
      obtain ⟨s', entries⟩ := r
      cases hmoves with
      | operated id' thread event' program shared handle hid hn hw =>
        obtain rfl := List.mem_singleton.mp hx
        unfold Occurrence.operation? at hevent
        dsimp only at hevent
        split at hevent
        · obtain rfl := Option.some.inj hevent
          exact operate_steadyNow hw
        · cases hevent
      | idle => cases hx
      | _ =>
        obtain rfl := List.mem_singleton.mp hx
        cases hevent

/-! ### Turns -/

/-- A thread that has returned. -/
def Returned (s : Server K) (id : ℕ) : Prop :=
  ∃ thread, s.threads[id]? = some thread ∧ thread.program.result?.isSome = true

theorem Returned.moves {id : ℕ} (h : Returned s id) {now : Instant} {s' : Server K}
    {entries : List (Entry K)} (hm : Moves node now s s' entries) : Returned s' id := by
  obtain ⟨thread, hid, hreturned⟩ := h
  have hlt : id < s.threads.length := (List.getElem?_eq_some_iff.mp hid).1
  cases hm with
  | accepted goal hfree =>
    refine ⟨thread, ?_, hreturned⟩
    rw [List.getElem?_append_left hlt]
    exact hid
  | canceled id' thread' hid' hexecuting =>
    by_cases hsame : id' = id
    · subst hsame
      obtain rfl := Option.some.inj (hid.symm.trans hid')
      exact ⟨_, List.getElem?_set_self hlt, hreturned⟩
    · exact ⟨thread, (List.getElem?_set_ne hsame).trans hid, hreturned⟩
  | operated id' thread' event program shared handle hid' hn hw =>
    by_cases hsame : id' = id
    · subst hsame
      obtain rfl := Option.some.inj (hid.symm.trans hid')
      -- a thread that has returned has nothing to do
      obtain ⟨u, hu⟩ := Option.isSome_iff_exists.mp hreturned
      rw [eq_pure_of_result? hu] at hn
      cases hn
    · exact ⟨thread, (List.getElem?_set_ne hsame).trans hid, hreturned⟩
  | _ => exact ⟨thread, hid, hreturned⟩

/-- A process that is down stays down. -/
theorem terminated_of_step {x : Stimulus K} (h : (step node x s).1.terminated = false) :
    s.terminated = false := by
  by_contra hdown
  rw [step, if_pos (by simpa using hdown)] at h
  exact hdown h

/-- A thread that is given a turn performs an operation, has returned, or brings the
process down. -/
theorem step_turn {id : ℕ} {x : Stimulus K} {thread : Thread K} (hid : s.threads[id]? = some thread)
    (hlive : (step node x s).1.terminated = false) (hx : x.input = .operation id) :
    Returned s id ∨ ∃ event, (step node x s).2 = [⟨x.now, .operated id event⟩] := by
  have hbefore := terminated_of_step hlive
  have hstep : step node x s = s.runOperation node x.now id := by
    rw [step, if_neg (by rw [hbefore]; exact Bool.false_ne_true), hx]
  rw [hstep] at hlive ⊢
  unfold Server.runOperation at hlive ⊢
  rw [hid] at hlive ⊢
  dsimp only at hlive ⊢
  cases hmove : move (operate node x.now) (s.shared, thread.handle) thread.program with
  | none =>
    rw [hmove] at hlive
    exact .inl ⟨thread, hid, by simpa using hlive⟩
  | some moved =>
    obtain ⟨event, program, shared, handle⟩ := moved
    exact .inr ⟨event, rfl⟩

theorem serve_append_snd (node : Node K) (earlier later : List (Stimulus K)) :
    (serve node earlier).2 <+: (serve node (earlier ++ later)).2 := by
  unfold serve
  rw [run_append, Reaction.andThen_snd]
  exact List.prefix_append _ _

omit [Field K] [LinearOrder K] in
theorem Listed.exists_thread {id : ℕ} {goal : Goal K} (h : Listed s tr)
    (haccepted : ∃ x ∈ tr, x.occurrence = .accepted id goal) :
    ∃ thread, s.threads[id]? = some thread ∧ thread.goal = goal := by
  have hgoal := (h id goal).mp haccepted
  rw [Server.goals, List.getElem?_map] at hgoal
  exact Option.map_eq_some_iff.mp hgoal

/-- Every turn is an operation, until the thread has returned. -/
theorem returned_or_turns_le {earlier later : List (Stimulus K)} {id : ℕ} {goal : Goal K}
    (haccepted : ∃ x ∈ (serve node earlier).2, x.occurrence = .accepted id goal)
    (hlive : (serve node (earlier ++ later)).1.terminated = false) :
    Returned (serve node (earlier ++ later)).1 id ∨
      turns id later ≤ (operations id (serve node (earlier ++ later)).2).length := by
  induction later using List.reverseRecOn with
  | nil => exact .inr (Nat.zero_le _)
  | append_singleton later x ih =>
    rw [← List.append_assoc] at hlive ⊢
    have hlisted := (heard_serve node (earlier ++ later)).listed
    have hprefix := serve_append_snd node earlier later
    unfold serve at hlive ih hlisted hprefix haccepted ⊢
    rw [run_snoc, Reaction.andThen_fst] at hlive ⊢
    rw [Reaction.andThen_snd, operations_append, List.length_append, turns_snoc]
    generalize run (step node) (.initial node) (earlier ++ later) = r at *
    obtain ⟨s, tr⟩ := r
    dsimp only at *
    obtain ⟨y, hy, haccepted⟩ := haccepted
    obtain ⟨thread, hid, -⟩ := hlisted.exists_thread ⟨y, hprefix.subset hy, haccepted⟩
    have hbefore := terminated_of_step hlive
    have hmoves := step_moves node x s
    by_cases hx : x.input = .operation id
    · rcases step_turn hid hlive hx with hreturned | ⟨event, hevent⟩
      · exact .inl (hreturned.moves hmoves)
      · refine (ih hbefore).imp (·.moves hmoves) fun hle => ?_
        rw [hevent, operations_operated_self]
        exact Nat.add_le_add hle (turns_singleton_le id x)
    · refine (ih hbefore).imp (·.moves hmoves) fun hle => ?_
      rw [turns_singleton_of_ne hx]
      exact hle.trans (Nat.le_add_right _ _)

/-- However the threads, the callbacks and the messages interleave: a goal that was accepted
takes its thread at most a known number of operations, and a thread that is given more
turns than that has ended its goal and given the flag back. -/
theorem operation_concludes [FloorRing K] [IsStrictOrderedRing K] (node : Node K)
    (hs : node.settings.Timed) {earlier later : List (Stimulus K)} {id : ℕ} {goal : Goal K}
    (haccepted : ∃ x ∈ (serve node earlier).2, x.occurrence = .accepted id goal)
    (hrests : (timeline id (serve node (earlier ++ later)).2).Pairwise (Rests node.settings))
    (hlive : (serve node (earlier ++ later)).1.terminated = false) :
    (operations id (serve node (earlier ++ later)).2).length ≤ node.settings.limit goal ∧
      (node.settings.limit goal < turns id later → ∃ outcome result,
        Concluded (operations id (serve node (earlier ++ later)).2) outcome result) := by
  have howned := owned_serve node (earlier ++ later)
  obtain ⟨y, hy, hoccurred⟩ := haccepted
  obtain ⟨thread, hid, hgoal⟩ := (heard_serve node (earlier ++ later)).listed.exists_thread
    ⟨y, (serve_append_snd node earlier later).subset hy, hoccurred⟩
  have hsteps := howned.runs id thread hid
  have hreads := readsClock_serve node (earlier ++ later) id
  have hlimit : (operations id (serve node (earlier ++ later)).2).length ≤
      node.settings.limit goal := by
    obtain ⟨g, hg⟩ := exists_earliest hs hrests
    rw [hgoal] at hsteps
    refine (halts_body (g := g) node.m hs goal _ _ hsteps ?_).1
    rw [operations_eq_timeline]
    exact admits_of_rests hrests hreads hg
  refine ⟨hlimit, fun hturns => ?_⟩
  rcases returned_or_turns_le ⟨y, hy, hoccurred⟩ hlive with hreturned | hle
  · obtain ⟨thread', hid', hresult⟩ := hreturned
    obtain rfl := Option.some.inj (hid.symm.trans hid')
    obtain ⟨u, hu⟩ := Option.isSome_iff_exists.mp hresult
    rw [eq_pure_of_result? hu] at hsteps
    exact concluded_of_runs hsteps
  · exact absurd (hturns.trans_le (hle.trans hlimit)) (lt_irrefl _)

end Run

theorem declared_timed : Settings.declared.Timed where
  acquisition := rfl
  approach := rfl
  period := Settings.controllerPeriod_pos _ |>.mpr (by decide +kernel)

/-- A rotation of a hundredth of a second. -/
def nudge : Goal ℚ := .rotate ⟨.finite (1 / 4), .finite (1 / 100)⟩

/-- Its goal, and more turns than it needs, each after the longest of its sleeps. -/
def nudged : List (Stimulus ℚ) × List (Stimulus ℚ) :=
  ([⟨⟨0, 0⟩, .message (.manipulationState .empty)⟩, ⟨⟨0, 0⟩, .goal nudge⟩],
    (List.range 28).map fun i => ⟨⟨50000000 * i, 50000000 * i⟩, .operation 0⟩)

theorem operation_concludes_nudged : ∃ outcome result,
    Concluded (operations 0 (serve .declared (nudged.1 ++ nudged.2)).2) outcome result :=
  (operation_concludes .declared declared_timed ⟨_, .tail _ (.head _), rfl⟩ (by decide +kernel) (by decide +kernel)).2
    (by decide +kernel)

end X2Navigation.FineAlignServer
