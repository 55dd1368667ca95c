import X2Navigation.Server.Attestation
import X2Navigation.Server.OpenLoop

/-! How soon the robot stops. Once a cause to stop has come up and stays, an operation
writes no further command but one whose checks were over before; so no command that moves
the robot is published longer after it than the command timeout and the time an operation
takes from its checks to its command. -/

namespace X2Navigation.FineAlignServer

open Interaction Traced

variable {K : Type}

/-! ### The times of a trace -/

/-- The entries are in the order of their times, none after `now`. -/
def Ordered (now : TimePoint) (tr : List (Entry K)) : Prop :=
  tr.Pairwise (fun x y => x.now.steady ≤ y.now.steady) ∧ ∀ x ∈ tr, x.now.steady ≤ now

theorem Ordered.mono {now now' : TimePoint} {tr : List (Entry K)} (h : Ordered now tr)
    (hle : now ≤ now') : Ordered now' tr := ⟨h.1, fun x hx => (h.2 x hx).trans hle⟩

theorem Ordered.append {now : Instant} {tr entries : List (Entry K)} (h : Ordered now.steady tr)
    (hnow : ∀ x ∈ entries, x.now = now) : Ordered now.steady (tr ++ entries) := by
  refine ⟨List.pairwise_append.mpr ⟨h.1, ?_, fun x hx y hy => ?_⟩, fun x hx => ?_⟩
  · refine List.pairwise_iff_forall_sublist.mpr fun {x y} hxy => ?_
    rw [hnow x (hxy.subset (by simp)), hnow y (hxy.subset (by simp))]
  · rw [hnow y hy]
    exact h.2 x hx
  · rcases List.mem_append.mp hx with hx | hx
    · exact h.2 x hx
    · rw [hnow x hx]

section Times
variable [Field K] [LinearOrder K] {node : Node K}

theorem Moves.now_eq {s s' : Server K} {now : Instant} {entries : List (Entry K)}
    (h : Moves node now s s' entries) : ∀ x ∈ entries, x.now = now := by
  cases h with
  | idle => simp
  | _ => exact List.forall_mem_singleton.mpr rfl

theorem ordered_serve (node : Node K) (inputs : List (Stimulus K))
    (hclock : (inputs.map (·.now.steady)).Pairwise (· ≤ ·)) :
    ∃ now, Ordered now (serve node inputs).2 :=
  @run_keeps_later _ _ _ _ _ _ _ _ (fun now (_ : Server K) tr => Ordered now tr) _
    (fun _ => ⟨List.Pairwise.nil, by simp⟩) (fun hle h => h.mono hle)
    (fun x s _ h => h.append (step_moves node x s).now_eq) inputs hclock

end Times

/-! ### Causes to stop -/

/-- Why an operation has to stop the robot. Navigation is not among them: a tick that
finds it active publishes no command of an operation. -/
inductive Hindrance
  | cancellation
  | manipulation
  | collision

section Causes
variable [Field K] [LinearOrder K] {node : Node K} {id : ℕ} {patient : Bool}

/-- The cause is there at some time after a trace. A collision stop is one for a patient
operation when it has lasted too long. -/
def Hindrance.Stands (node : Node K) (id : ℕ) (patient : Bool) (past : List (Entry K))
    (now : TimePoint) : Hindrance → Prop
  | .cancellation => Canceled id past
  | .manipulation => validState (news past).manipulation = false
  | .collision => ∃ since ∈ (news past).stopSince, patient = true →
      Double.numGT (elapsed now since) node.settings.parameters.collisionStopTimeout = true

omit [Field K] [LinearOrder K] in
theorem Looked.mono {P Q : List (Entry K) → TimePoint → Prop} {tr : List (Entry K)}
    (h : Looked id P tr) (hpq : ∀ past now, P past now → Q past now) : Looked id Q tr := by
  obtain ⟨past, look, since, event, htr, hlook, hp, hsince⟩ := h
  exact ⟨past, look, since, event, htr, hlook, hpq _ _ hp, hsince⟩

/-- What an operation has found in order was no cause to stop. -/
theorem Cleared.looked {tr : List (Entry K)} (h : Cleared node id patient tr) (cause : Hindrance) :
    Looked id (fun past now => ¬ cause.Stands node id patient past now) tr := by
  cases cause with
  | cancellation => exact h.wanted
  | manipulation =>
    refine h.fit.mono fun past now hvalid hinvalid => ?_
    exact Bool.false_ne_true (hinvalid.symm.trans hvalid)
  | collision =>
    refine h.clear.mono fun past now hclear hstop => ?_
    obtain ⟨since, hsince, hlong⟩ := hstop
    obtain ⟨hpatient, hshort⟩ := hclear since hsince
    exact Bool.false_ne_true (hshort.symm.trans (hlong hpatient))

variable [IsStrictOrderedRing K]

/-- A cause does not vanish by waiting. -/
theorem Hindrance.Stands.later {past : List (Entry K)} {now now' : TimePoint} {cause : Hindrance}
    (h : cause.Stands node id patient past now) (hle : now ≤ now') :
    cause.Stands node id patient past now' := by
  cases cause with
  | cancellation => exact h
  | manipulation => exact h
  | collision =>
    obtain ⟨since, hsince, hlong⟩ := h
    exact ⟨since, hsince, fun hpatient => Double.numGT_mono (elapsed_le_elapsed hle) (hlong hpatient)⟩

end Causes

/-! ### The bound -/

section Bound
variable [Field K] [LinearOrder K] {node : Node K}

/-- No operation takes longer than `P` from what it has looked at to the command of the
same pass. -/
def Brisk (P : K) (tr : List (Entry K)) : Prop :=
  ∀ id past look since write after event written,
    tr = past ++ look :: (since ++ write :: after) →
    look.occurrence = .operated id event → write.occurrence = .operated id written →
    written.1.command?.isSome = true → (∀ e ∈ operations id (look :: since), e.1.Forgets = false) →
    elapsed write.now.steady look.now.steady ≤ P

theorem Brisk.of_append {P : K} {tr tr' : List (Entry K)} (h : Brisk P (tr ++ tr')) : Brisk P tr := by
  rintro id past look since write after event written rfl
  exact h id past look since write (after ++ tr') event written (by simp)

variable [IsStrictOrderedRing K]

/-- A command that was checked for is not written long after a cause that stays. -/
theorem written_in_time {P : K} {id : ℕ} {patient : Bool} {cause : Hindrance}
    {before after old new : List (Entry K)} {write x : Entry K} {event : OpEvent K}
    (htimes : (before ++ write :: after).Pairwise (fun x y => x.now.steady ≤ y.now.steady))
    (hbrisk : Brisk P (before ++ write :: after)) (hcleared : Cleared node id patient before)
    (hwrite : write.occurrence = .operated id event) (hcommand : event.1.command?.isSome = true)
    (hx : before ++ write :: after = old ++ x :: new)
    (hstands : ∀ mid, mid <+: new →
      cause.Stands node id patient (old ++ x :: mid) x.now.steady) :
    elapsed write.now.steady x.now.steady ≤ P := by
  obtain ⟨past, look, since, e, rfl, hlook, hfound, hsince⟩ := hcleared.looked cause
  have hlate : elapsed write.now.steady look.now.steady ≤ P :=
    hbrisk id past look since write after e event (by simp) hlook hwrite hcommand hsince
  refine (elapsed_le_elapsed_of_le ?_ _).trans hlate
  have htrace : past ++ look :: (since ++ write :: after) = old ++ x :: new := by simpa using hx
  have htimes' : (past ++ look :: (since ++ write :: after)).Pairwise
      (fun x y => x.now.steady ≤ y.now.steady) := by simpa using htimes
  obtain ⟨between, hold, hrest⟩ | ⟨between, rfl, hrest⟩ := List.append_eq_append_iff.mp htrace
  · -- the look comes first
    have hmem : x = look ∨ x ∈ since ++ write :: after := by
      have hx : x ∈ look :: (since ++ write :: after) := by simp [hrest]
      simpa using hx
    rcases hmem with rfl | hmem
    · exact le_rfl
    · exact List.rel_of_pairwise_cons (List.pairwise_append.mp htimes').2.1 hmem
  · cases between with
    | nil =>
      obtain ⟨rfl, -⟩ := List.cons.inj hrest
      exact le_rfl
    | cons y mid =>
      -- a look after the cause would have found it
      obtain ⟨rfl, rfl⟩ := List.cons.inj hrest
      have hle : x.now.steady ≤ look.now.steady :=
        (List.pairwise_append.mp htimes').2.2 x (by simp) look (by simp)
      exact absurd ((hstands mid ⟨_, rfl⟩).later hle) hfound

/-- Whatever the order of events, under a steady clock that does not go back the operation
whose command is published to move the robot has written it at most `P` after any cause to
stop that has come up and stayed, so that not more than the command timeout and `P` has
passed since; and no tick publishes it while navigation is active. -/
theorem stops_in_time (node : Node K) (inputs : List (Stimulus K))
    (hclock : (inputs.map (·.now.steady)).Pairwise (· ≤ ·)) {P : K}
    (hbrisk : Brisk P (serve node inputs).2) {earlier later : List (Entry K)} {now : Instant}
    {time : TimePoint} {active : Bool} {command : Twist (Double K)}
    (h : (serve node inputs).2 =
      earlier ++ ⟨now, .ticked ⟨.selectCommand time, .operation active command⟩⟩ :: later)
    (hmoves : command ≠ 0) :
    (∀ topic, (news earlier).navigating topic = false) ∧
    ∃ id goal event written write, (∃ e ∈ earlier, e.occurrence = .accepted id goal) ∧
      write ∈ earlier ∧ write.occurrence = .operated id event ∧
      event.1.command? = some written ∧ command = written.finite ∧
      ∀ (cause : Hindrance) old x new, earlier = old ++ x :: new →
        (∀ mid, mid <+: new →
          cause.Stands node id goal.isPatient (old ++ x :: mid) x.now.steady) →
        elapsed write.now.steady x.now.steady ≤ P ∧
          Double.numLE (elapsed time x.now.steady - P) node.commandTimeout = true := by
  obtain ⟨latest, htimes, -⟩ := ordered_serve node inputs hclock
  obtain ⟨rfl, id, goal, event, written, before, write, after, rfl, ⟨e, he, haccepted⟩, hwrite,
    hcommand, rfl, hrecent, hcleared⟩ :=
      exists_cleared_write (allLawful_serve node inputs hclock) h hmoves
  refine ⟨idle_of_selected h, id, goal, event, written, write, ⟨e, by simp [he], haccepted⟩, by simp,
    hwrite, hcommand, rfl, fun cause old x new hx hstands => ?_⟩
  rw [h] at htimes hbrisk
  have hle : elapsed write.now.steady x.now.steady ≤ P :=
    written_in_time (List.pairwise_append.mp htimes).1 hbrisk.of_append hcleared hwrite
      (by simp [hcommand]) hx hstands
  refine ⟨hle, Double.numLE_mono ?_ hrecent⟩
  have hsum := elapsed_add (K := K) time write.now.steady x.now.steady
  linarith

end Bound

/-! ### A rotation whose state becomes unknown -/

theorem brisk_of_elapsed [Field K] [LinearOrder K] {P : K} {tr : List (Entry K)}
    (h : ∀ x ∈ tr, ∀ y ∈ tr, elapsed y.now.steady x.now.steady ≤ P) : Brisk P tr := by
  rintro id past look since write after event written rfl - - - -
  exact h look (by simp) write (by simp)

/-- The state is told after the first command, before the tick that publishes it. -/
def startled : List (Stimulus ℚ) :=
  everyMillisecond ([.message (.manipulationState .empty),
      .goal (.rotate ⟨.finite (1 / 4), .finite 2⟩)] ++ List.replicate 7 (.operation 0) ++
    [.message (.manipulationState .unknown)] ++ List.replicate 4 (.tick .unavailable))

theorem stops_in_time_startled : ∃ write ∈ (serve .declared startled).2,
    elapsed write.now.steady (9 * 10 ^ 6) ≤ (1 / 50 : ℚ) := by
  have hbrisk : Brisk (1 / 50) (serve .declared startled).2 := brisk_of_elapsed (by decide +kernel)
  have hlength : (serve .declared startled).2.length = 14 := by decide +kernel
  have hlt : 13 < (serve .declared startled).2.length := by omega
  have hmoving : ((serve .declared startled).2.get ⟨13, hlt⟩).moving? =
      some ⟨0, ⟨0, 0, .finite (1 / 4)⟩⟩ := by
    revert hlt
    decide +kernel
  obtain ⟨now, time, active, heq⟩ := Entry.eq_of_moving? hmoving
  have hsplit : (serve .declared startled).2 = (serve .declared startled).2.take 13 ++
      ⟨now, .ticked ⟨.selectCommand time, .operation active ⟨0, ⟨0, 0, .finite (1 / 4)⟩⟩⟩⟩ :: [] := by
    rw [← heq, List.get_eq_getElem, List.take_append_getElem, List.take_of_length_le (by omega)]
  obtain ⟨-, id, goal, event, written, write, -, hwrite, -, -, -, hstops⟩ :=
    stops_in_time .declared startled (by decide +kernel) hbrisk hsplit (by decide +kernel)
  refine ⟨write, List.mem_of_mem_take hwrite, ?_⟩
  have htold : 9 < ((serve .declared startled).2.take 13).length := by decide +kernel
  have hwhen : (((serve .declared startled).2.take 13).get ⟨9, htold⟩).now.steady = 9 * 10 ^ 6 := by
    revert htold
    decide +kernel
  have hstays : ∀ mid ∈ (((serve .declared startled).2.take 13).drop 10).inits,
      validState (news (((serve .declared startled).2.take 13).take 9 ++
        ((serve .declared startled).2.take 13).get ⟨9, htold⟩ :: mid)).manipulation = false := by
    revert htold
    decide +kernel
  rw [← hwhen]
  refine (hstops .manipulation _ _ _ ?_ fun mid hmid => hstays mid ((List.mem_inits _ _).mpr hmid)).1
  rw [List.get_eq_getElem, ← List.drop_eq_getElem_cons htold, List.take_append_drop]

end X2Navigation.FineAlignServer
