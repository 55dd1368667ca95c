import X2Navigation.Server.Bookkeeping
import X2Navigation.Server.Provenance

/-! What a failed activation leaves behind. `activateProfile` assigns the resolved
profile and clears the instance before it knows whether a target can be bound, and
advances the generation only at the end; so a refusal that comes between the two
changes the profile of a generation that is still in use. -/

namespace X2Navigation.FineAlignServer

open Interaction Program Traced

variable {K : Type} [Field K] [LinearOrder K]

/-- What the request and the state select: what was requested, or a docking profile of a
known box whose state is recent enough. -/
inductive Selected (node : Node K) (rosNow : TimePoint) (requested : String) (undocking : Bool)
    (instanceId : String) (a : Acquisition K) : String → Option BoxState → Prop
  | plain (h : undocking = true ∨ instanceId = "") :
      Selected node rosNow requested undocking instanceId a requested none
  | box (box : BoxState) (stamp : TimePoint) (selection : String)
      (hdock : undocking = false ∧ instanceId ≠ "")
      (hknown : a.boxStates instanceId = some box)
      (hstamp : box.header.stamp.nanoseconds? = some stamp)
      (hrecent : ¬ ((elapsed rosNow stamp : K) < 0 ∨ node.maximumPoseAge < elapsed rosNow stamp))
      (hselection : selection = if requested = "" then box.defaultDockingProfile else requested)
      (hlisted : selection ≠ "" ∧ selection ∈ box.dockingProfileIds) :
      Selected node rosNow requested undocking instanceId a selection (some box)

/-- No target can be bound: a tag profile with an instance; docking to a box that is not
known, has no tag frame, or has an instance that names no tag; undocking from a box that
was not docked to, and not by time. -/
def Unbindable (profile : DockingProfile K) (undocking : Bool) (instanceId : String)
    (box : Option BoxState) (a : Acquisition K) : Prop :=
  match profile.targetSource, undocking with
  | .tag, _ => instanceId ≠ ""
  | .box, false => ∀ known, box = some known →
      known.tagFrame = "" ∨ bindBoxDockingProfile profile instanceId known.tagFrame = none
  | .box, true => (∀ target, a.lastDockedTarget = some target → target.name ≠ profile.name) ∧
      profile.undockMode ≠ .timedReverse

/-- Should the activation fail after it has resolved a profile, that profile is the
active one already, and has no instance. -/
def Retains (node : Node K) (rosNow : TimePoint) (requested : String) (undocking : Bool)
    (instanceId : String) (a : Acquisition K) : Prop :=
  ∀ selection box profile, Selected node rosNow requested undocking instanceId a selection box →
    node.profiles.resolve selection node.defaultProfile
      (if undocking then a.lastDockedProfile else "") = some profile →
    Unbindable profile undocking instanceId box a →
      profile = a.activeProfile ∧ a.activeInstanceId = ""

variable {node : Node K} {rosNow : TimePoint} {requested instanceId selection : String}
  {undocking : Bool} {a a' : Acquisition K} {box : Option BoxState}

theorem selectProfile_eq_some_iff :
    a.selectProfile node rosNow requested undocking instanceId = some (some (selection, box)) ↔
      Selected node rosNow requested undocking instanceId a selection box := by
  constructor
  · intro h
    rw [Acquisition.selectProfile] at h
    split at h
    · next hplain =>
      obtain ⟨rfl, rfl⟩ := Prod.mk.inj (Option.some.inj (Option.some.inj h))
      exact .plain (by simpa using hplain)
    · next hbox =>
      split at h
      · cases h
      · next known hknown =>
        split at h
        · cases h
        · next stamp hstamp =>
          dsimp only at h
          split at h
          · cases h
          · next hrecent =>
            generalize hchosen : (if requested.isEmpty = true then known.defaultDockingProfile
              else requested) = chosen at h
            split at h
            · cases h
            · next hlisted =>
              obtain ⟨rfl, rfl⟩ := Prod.mk.inj (Option.some.inj (Option.some.inj h))
              refine .box known stamp _ (by simpa using hbox) hknown hstamp hrecent ?_ ?_
              · rw [← hchosen]
                simp
              · simpa using hlisted
  · rintro (hplain | ⟨known, stamp, selection, hdock, hknown, hstamp, hrecent, rfl, hlisted⟩)
    · rw [Acquisition.selectProfile, if_pos (by simpa using hplain)]
    · rw [Acquisition.selectProfile, if_neg (by simpa using hdock)]
      simp only [hknown, hstamp]
      rw [if_neg hrecent]
      have hsame : (if requested.isEmpty = true then known.defaultDockingProfile else requested) =
          if requested = "" then known.defaultDockingProfile else requested := by
        simp
      rw [hsame, if_neg (by simpa using hlisted)]

omit [Field K] [LinearOrder K] in
theorem bindTarget_eq_none_iff {profile : DockingProfile K} :
    a.bindTarget profile undocking instanceId box = none ↔
      Unbindable profile undocking instanceId box a := by
  unfold Acquisition.bindTarget Unbindable
  cases hsource : profile.targetSource with
  | tag => simp
  | box =>
    cases undocking with
    | false =>
      cases box with
      | none => simp
      | some known =>
        simp only [Bool.not_false, if_true, Option.some.injEq, forall_eq']
        rw [or_iff_not_imp_left]
        simp
    | true =>
      cases htarget : a.lastDockedTarget with
      | none => simp
      | some target =>
        by_cases hname : target.name = profile.name
        · have hfilter : Option.filter (fun x => decide (x.name = profile.name)) (some target) =
              some target := by simp [hname]
          simp only [hfilter]
          simp [hname]
        · have hfilter : Option.filter (fun x => decide (x.name = profile.name)) (some target) =
              none := by simp [hname]
          simp only [hfilter]
          simp [hname]

/-- What a failed activation changes. -/
theorem activateProfile_failed
    (h : a.activateProfile node rosNow requested undocking instanceId = some (none, a')) :
    a' = a ∨ ∃ selection box profile,
      Selected node rosNow requested undocking instanceId a selection box ∧
      node.profiles.resolve selection node.defaultProfile
        (if undocking then a.lastDockedProfile else "") = some profile ∧
      Unbindable profile undocking instanceId box a ∧
      a' = { a with activeProfile := profile, activeInstanceId := "" } := by
  unfold Acquisition.activateProfile at h
  split at h
  · cases h
  · obtain ⟨-, rfl⟩ := Prod.mk.inj (Option.some.inj h)
    exact Or.inl rfl
  · next selection box hselect =>
    split at h
    · obtain ⟨-, rfl⟩ := Prod.mk.inj (Option.some.inj h)
      exact Or.inl rfl
    · next profile hresolve =>
      dsimp only at h
      split at h
      · next hbind =>
        obtain ⟨-, rfl⟩ := Prod.mk.inj (Option.some.inj h)
        have hunbindable := bindTarget_eq_none_iff.mp hbind
        exact Or.inr ⟨selection, box, profile, selectProfile_eq_some_iff.mp hselect, hresolve,
          hunbindable, rfl⟩
      · cases h

/-- An activation that resolves a profile without a target for it fails, and changes it. -/
theorem activateProfile_of_unbindable {profile : DockingProfile K}
    (hselect : Selected node rosNow requested undocking instanceId a selection box)
    (hresolve : node.profiles.resolve selection node.defaultProfile
      (if undocking then a.lastDockedProfile else "") = some profile)
    (hunbindable : Unbindable profile undocking instanceId box a) :
    a.activateProfile node rosNow requested undocking instanceId =
      some (none, { a with activeProfile := profile, activeInstanceId := "" }) := by
  have hbind : Acquisition.bindTarget profile undocking instanceId box
      { a with activeProfile := profile, activeInstanceId := "" } = none :=
    bindTarget_eq_none_iff.mpr hunbindable
  unfold Acquisition.activateProfile
  simp only [selectProfile_eq_some_iff.mpr hselect, hresolve, hbind]

theorem unchanged_iff_retains :
    (∀ a', a.activateProfile node rosNow requested undocking instanceId = some (none, a') →
      a' = a) ↔ Retains node rosNow requested undocking instanceId a := by
  constructor
  · intro h selection box profile hselect hresolve hunbindable
    have hsame := h _ (activateProfile_of_unbindable hselect hresolve hunbindable)
    exact ⟨congrArg Acquisition.activeProfile hsame, (congrArg Acquisition.activeInstanceId hsame).symm⟩
  · intro h a' hfailed
    obtain rfl | ⟨selection, box, profile, hselect, hresolve, hunbindable, rfl⟩ :=
      activateProfile_failed hfailed
    · rfl
    · obtain ⟨hprofile, hinstance⟩ := h selection box profile hselect hresolve hunbindable
      rw [hprofile, ← hinstance]

/-! ### Generations along a run -/

/-- Either the generation has advanced, or it stands for the same profile and instance. -/
def Identifies (a a' : Acquisition K) : Prop :=
  a.profileGeneration < a'.profileGeneration ∨
    a'.profileGeneration = a.profileGeneration ∧ a'.activeProfile = a.activeProfile ∧
      a'.activeInstanceId = a.activeInstanceId

omit [Field K] [LinearOrder K] in
theorem identifies_refl (a : Acquisition K) : Identifies a a := Or.inr ⟨rfl, rfl, rfl⟩

omit [Field K] [LinearOrder K] in
theorem Identifies.trans {a'' : Acquisition K} (h : Identifies a a') (h' : Identifies a' a'') :
    Identifies a a'' := by
  rcases h with hlt | ⟨hgen, hprofile, hinstance⟩
  · rcases h' with hlt' | ⟨hgen', -, -⟩
    · exact Or.inl (hlt.trans hlt')
    · exact Or.inl (by omega)
  · rcases h' with hlt' | ⟨hgen', hprofile', hinstance'⟩
    · exact Or.inl (by omega)
    · exact Or.inr ⟨hgen'.trans hgen, hprofile'.trans hprofile, hinstance'.trans hinstance⟩

theorem Retains.identifies {answer : Option String}
    (hretains : Retains node rosNow requested undocking instanceId a)
    (h : a.activateProfile node rosNow requested undocking instanceId = some (answer, a')) :
    Identifies a a' := by
  cases answer with
  | none =>
    rw [unchanged_iff_retains.mpr hretains a' h]
    exact identifies_refl a
  | some name =>
    rcases activateProfile_cases h with ⟨hnone, -⟩ |
      ⟨selection, box, profile, target, boundInstance, -, -, -, -, rfl⟩
    · cases hnone
    · exact Or.inl (Nat.lt_succ_self _)

theorem identifies_receive (now : Instant) (shared : Shared K) (message : Message K) :
    Identifies shared.acquisition (shared.receive node now message).acquisition := by
  cases message with
  | detections topic detections =>
    simp only [Shared.receive, Acquisition.detect]
    split
    · exact Or.inr ⟨rfl, rfl, rfl⟩
    · exact identifies_refl _
  | collisionState stop => cases stop <;> exact identifies_refl _
  | boxStates boxes => exact Or.inr ⟨rfl, rfl, rfl⟩
  | manipulationState state => exact Or.inr ⟨rfl, rfl, rfl⟩
  | _ => exact identifies_refl _

theorem identifies_commit (a : Acquisition K) (generation : ℕ) (stamp : TimePoint)
    (raw : PlanarError K) (command : Twist K) :
    Identifies a (a.commit node generation stamp raw command).2 := by
  simp only [Acquisition.commit]
  split
  · exact identifies_refl _
  split
  · exact Or.inr ⟨rfl, rfl, rfl⟩
  split
  · exact Or.inr ⟨rfl, rfl, rfl⟩
  · exact Or.inr ⟨rfl, rfl, rfl⟩

omit [Field K] [LinearOrder K] in
theorem identifies_reject (a : Acquisition K) (generation : ℕ) (stamp : TimePoint) :
    Identifies a (a.reject generation stamp) := by
  rw [Acquisition.reject]
  split
  · exact identifies_refl _
  · exact Or.inr ⟨rfl, rfl, rfl⟩

theorem identifies_answerTick {now : Instant} {lookup : Lookup K} {shared shared' : Shared K}
    {o : TickOp K} {answer : o.Answer}
    (hw : answerTick node now lookup shared o = some (answer, shared')) :
    Identifies shared.acquisition shared'.acquisition := by
  cases o with
  | commit generation stamp raw command =>
    cases hw
    exact identifies_commit _ _ _ _ _
  | reject generation stamp =>
    cases hw
    exact identifies_reject _ _ _
  | escape => cases hw
  | _ =>
    cases hw
    exact identifies_refl _

theorem identifies_operate {now : Instant} {shared shared' : Shared K} {h h' : HandleState}
    {o : Op K} {answer : o.Answer}
    (hw : operate node now (shared, h) o = some (answer, shared', h'))
    (hretains : ∀ requested undocking instanceId, o = .activateProfile requested undocking instanceId →
      Retains node now.ros requested undocking instanceId shared.acquisition) :
    Identifies shared.acquisition shared'.acquisition := by
  cases ho : o.Activates with
  | false =>
    obtain heq | ⟨profileId, instanceId, heq⟩ := operate_acquisition hw ho
    · rw [heq]
      exact identifies_refl _
    · rw [heq]
      exact Or.inr ⟨rfl, rfl, rfl⟩
  | true =>
    cases o with
    | activateProfile requested undocking instanceId =>
      exact (hretains requested undocking instanceId rfl).identifies (operate_activateProfile hw)
    | _ => cases ho

/-- Every activation of the step that may fail late retains what was there. -/
def Server.Retaining (node : Node K) (x : Stimulus K) (s : Server K) : Prop :=
  ∀ id requested undocking instanceId answer,
    (⟨x.now, .operated id ⟨.activateProfile requested undocking instanceId, answer⟩⟩ : Entry K) ∈
      (step node x s).2 →
    Retains node x.now.ros requested undocking instanceId s.shared.acquisition

/-- A thread can only perform the activation it is about to perform. -/
theorem Server.retaining_of_requests {x : Stimulus K} {s : Server K}
    (h : ∀ (id : ℕ) (thread : Thread K) requested undocking instanceId, s.threads[id]? = some thread →
      thread.program.request = some (.activateProfile requested undocking instanceId) →
      Retains node x.now.ros requested undocking instanceId s.shared.acquisition) :
    s.Retaining node x := by
  intro id requested undocking instanceId answer hmem
  have hmoves := step_moves node x s
  generalize (step node x s).1 = s' at hmoves
  generalize (step node x s).2 = entries at hmoves hmem
  cases hmoves with
  | idle => cases hmem
  | operated id' thread event program shared handle hthread hn hw =>
    cases List.mem_singleton.mp hmem
    exact h id thread requested undocking instanceId hthread hn.request
  | _ => cases List.mem_singleton.mp hmem

theorem Server.Retaining.identifies {x : Stimulus K} {s : Server K} (h : s.Retaining node x) :
    Identifies s.shared.acquisition (step node x s).1.shared.acquisition := by
  have hmoves := step_moves node x s
  rw [Server.Retaining] at h
  generalize (step node x s).1 = s' at hmoves ⊢
  generalize (step node x s).2 = entries at hmoves h
  cases hmoves with
  | idle ok terminated => exact identifies_refl _
  | received message => exact identifies_receive x.now s.shared message
  | rejected goal hbusy => exact identifies_refl _
  | accepted goal hfree => exact identifies_refl _
  | canceled id thread hthread hexecuting => exact identifies_refl _
  | operated id thread event program shared handle hthread hn hw =>
    refine identifies_operate hw ?_
    intro requested undocking instanceId ho
    obtain ⟨o, answer⟩ := event
    subst ho
    exact h id requested undocking instanceId answer (by simp)
  | ticked event program shared lookup hn hw => exact identifies_answerTick hw

/-- From a state of a run to a later one. -/
theorem identifies_serve {inputs inputs' : List (Stimulus K)}
    (h : ∀ before x after, inputs ++ inputs' = before ++ x :: after →
      (serve node before).1.Retaining node x) :
    Identifies (serve node inputs).1.shared.acquisition
      (serve node (inputs ++ inputs')).1.shared.acquisition := by
  induction inputs' using List.reverseRecOn with
  | nil =>
    rw [List.append_nil]
    exact identifies_refl _
  | append_singleton inputs' x ih =>
    have hearlier := ih fun before y after heq =>
      h before y (after ++ [x]) (by rw [← List.append_assoc, heq]; simp)
    have hx : (serve node (inputs ++ inputs')).1.Retaining node x := h _ x [] (by simp)
    rw [← List.append_assoc]
    have hstep : (serve node (inputs ++ inputs' ++ [x])).1 =
        (step node x (serve node (inputs ++ inputs')).1).1 := by
      rw [serve, run_snoc]
      rfl
    rw [hstep]
    exact hearlier.trans hx.identifies

/-- A failed activation leaves everything as it was, for every state and request, exactly
when it cannot have assigned another profile or taken an instance away; and in a run whose
activations are all of that kind, a generation stands for one profile and one instance. -/
theorem activation_atomic_iff :
    (∀ (node : Node K) (rosNow : TimePoint) (requested : String) (undocking : Bool)
      (instanceId : String) (a : Acquisition K),
      (∀ a', a.activateProfile node rosNow requested undocking instanceId = some (none, a') →
        a' = a) ↔ Retains node rosNow requested undocking instanceId a) ∧
    ∀ (node : Node K) (inputs inputs' : List (Stimulus K)),
      (∀ before x after, inputs ++ inputs' = before ++ x :: after →
        (serve node before).1.Retaining node x) →
      Identifies (serve node inputs).1.shared.acquisition
        (serve node (inputs ++ inputs')).1.shared.acquisition :=
  ⟨fun _ _ _ _ _ _ => unchanged_iff_retains, fun _ _ _ => identifies_serve⟩

/-! ### A refusal that leaves everything as it was -/

/-- A box that lists the default profile, whose target is a tag, and a goal for it. -/
def crate : BoxState where
  header := ⟨⟨0, 1⟩, "map"⟩
  instanceId := "crate"
  tagFrame := "tag4"
  defaultDockingProfile := "default"
  dockingProfileIds := ["default"]

def offered : List (Stimulus ℚ) :=
  everyMillisecond [.message (.boxStates [crate]), .goal (.fineAlign ⟨false, "", "crate"⟩)]

/-- The default profile cannot be bound to a box, and it is the active one. -/
theorem retains_offered (rosNow : TimePoint) : Retains .declared rosNow "" false "crate"
    (serve .declared offered).1.shared.acquisition := by
  intro selection box profile hselected hresolved hunbindable
  cases hselected with
  | plain h => simp at h
  | box known stamp selection hdock hknown hstamp hrecent hselection hlisted =>
    obtain rfl : crate = known := Option.some.inj hknown
    obtain rfl : "default" = selection := hselection.symm
    cases hresolved
    exact ⟨rfl, rfl⟩

theorem activation_atomic_iff_refused :
    resolutions (operations 0 (serve .declared
        (offered ++ [⟨⟨10 ^ 7, 10 ^ 7⟩, .operation 0⟩])).2) = [none] ∧
      Identifies (serve .declared offered).1.shared.acquisition
        (serve .declared (offered ++
          [⟨⟨10 ^ 7, 10 ^ 7⟩, .operation 0⟩])).1.shared.acquisition := by
  refine ⟨by decide +kernel,
    activation_atomic_iff.2 .declared offered [⟨⟨10 ^ 7, 10 ^ 7⟩, .operation 0⟩]
    (forall_split_cons ?_ (forall_split_cons ?_ (forall_split_cons ?_ forall_split_nil)))⟩
  · intro id requested undocking instanceId answer hmem
    cases List.mem_singleton.mp hmem
  · intro id requested undocking instanceId answer hmem
    cases List.mem_singleton.mp hmem
  · refine Server.retaining_of_requests fun id thread requested undocking instanceId hthread hrequest => ?_
    cases id with
    | zero =>
      cases hthread
      cases hrequest
      exact retains_offered _
    | succ id => cases hthread

/-- A node that also knows a profile for boxes. -/
def Node.withBoxes : Node ℚ :=
  { Node.declared with
    profiles := [.declared, { DockingProfile.declared with name := "box", targetSource := .box }]
    resolved := by decide +kernel }

/-- Docking to a box without naming one is refused, and the box profile stays. -/
theorem activation_not_atomic :
    ∃ a', (Acquisition.initial .withBoxes).activateProfile .withBoxes 0 "box" false "" =
        some (none, a') ∧ a'.activeProfile.name = "box" ∧
      (Acquisition.initial .withBoxes).activeProfile.name = "default" ∧
      a'.profileGeneration = (Acquisition.initial .withBoxes).profileGeneration :=
  ⟨_, rfl, by decide +kernel, by decide +kernel, rfl⟩

end X2Navigation.FineAlignServer
