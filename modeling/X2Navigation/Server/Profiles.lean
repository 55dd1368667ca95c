import X2Navigation.Numeric.Double
import X2Navigation.Server.Messages

/-! Docking profiles: which tag to dock to, where to stand in front of it and how
to leave. A profile for boxes has no tag of its own; the tag is read from the
selected box's instance. -/

namespace X2Navigation

/-- Where the target of a profile comes from. -/
inductive TargetSource
  | tag
  | box
  deriving DecidableEq

/-- A profile as `add` stores it, after its checks. -/
structure DockingProfile (K : Type) where
  name : String
  tagId : ℤ
  tagFrame : String
  standoff : K
  lateralOffset : K
  yawOffset : K
  detectionsTopic : String
  undockMode : UndockMode
  timedReverseSpeed : K
  timedReverseDuration : K
  targetSource : TargetSource
  deriving DecidableEq

/-- The profile of the default parameters. -/
def DockingProfile.declared : DockingProfile ℚ :=
  ⟨"default", 9, "tag9", 7 / 10, 0, 0, "/front_center_rectify/detections", .tagRelative, 1 / 10, 3,
    .tag⟩

/-- A profile as it is declared. -/
structure DeclaredProfile (K : Type) where
  name : String
  tagId : ℤ
  tagFrame : String
  standoff : Double K
  lateralOffset : Double K
  yawOffset : Double K
  detectionsTopic : String
  undockMode : String
  timedReverseSpeed : Double K
  timedReverseDuration : Double K
  targetSource : String

variable {K : Type} [Field K] [LinearOrder K]

/-- A nonempty string of letters, digits and underscores. -/
def validProfileName (name : String) : Bool :=
  !name.isEmpty && name.toList.all fun c =>
    ('a' ≤ c && c ≤ 'z') || ('A' ≤ c && c ≤ 'Z') || ('0' ≤ c && c ≤ '9') || c == '_'

def UndockMode.parse (text : String) : Option UndockMode :=
  if text = "tag_relative" then some .tagRelative
  else if text = "timed_reverse" then some .timedReverse
  else none

def TargetSource.parse (text : String) : Option TargetSource :=
  if text = "tag" then some .tag else if text = "box" then some .box else none

/-- The checks of `add` on a single profile. -/
def DeclaredProfile.check (p : DeclaredProfile K) : Option (DockingProfile K) := do
  let source ← TargetSource.parse p.targetSource
  let mode ← UndockMode.parse p.undockMode
  if !validProfileName p.name || (source = .tag ∧ (p.tagId < 0 ∨ p.tagFrame.isEmpty)) ||
      p.detectionsTopic.isEmpty ||
      !p.timedReverseSpeed.isFinite || p.timedReverseSpeed.value ≤ 0 ||
      1 / 2 < p.timedReverseSpeed.value || !p.timedReverseDuration.isFinite ||
      p.timedReverseDuration.value ≤ 0 || !p.standoff.isFinite || p.standoff.value ≤ 0 ||
      !p.lateralOffset.isFinite || !p.yawOffset.isFinite then none
  else
    some ⟨p.name, p.tagId, p.tagFrame, p.standoff.value, p.lateralOffset.value, p.yawOffset.value,
      p.detectionsTopic, mode, p.timedReverseSpeed.value, p.timedReverseDuration.value, source⟩

/-- The profiles that were added, by their names. -/
abbrev DockingProfiles (K : Type) := List (DockingProfile K)

namespace DockingProfiles

def named (profiles : DockingProfiles K) (name : String) : Option (DockingProfile K) :=
  List.find? (·.name = name) profiles

/-- Refuses what fails a check, and a name that is taken. -/
def add (profiles : DockingProfiles K) (declared : DeclaredProfile K) :
    Option (DockingProfiles K) := do
  let profile ← declared.check
  if (named profiles profile.name).isSome then none else some (profiles ++ [profile])

/-- The profiles of a constructed node: all that are declared have been added. -/
def declare (declared : List (DeclaredProfile K)) : Option (DockingProfiles K) :=
  declared.foldlM add []

/-- The requested profile, else the last docked, else the default. -/
def resolve (profiles : DockingProfiles K) (requested defaultProfile lastDocked : String) :
    Option (DockingProfile K) :=
  named profiles (if requested.isEmpty then
    (if lastDocked.isEmpty then defaultProfile else lastDocked) else requested)

end DockingProfiles

namespace DockingProfiles

omit [Field K] [LinearOrder K] in
theorem named_eq_some {profiles : DockingProfiles K} {name : String} {profile : DockingProfile K}
    (h : named profiles name = some profile) : profile ∈ profiles ∧ profile.name = name :=
  ⟨List.mem_of_find?_eq_some h, by simpa using List.find?_some h⟩

theorem name_of_check {declared : DeclaredProfile K} {profile : DockingProfile K}
    (h : declared.check = some profile) : profile.name ≠ "" := by
  simp only [DeclaredProfile.check, Option.bind_eq_bind, Option.bind_eq_some_iff] at h
  obtain ⟨source, -, mode, -, h⟩ := h
  split at h
  · cases h
  · next hchecks =>
    obtain rfl := Option.some.inj h
    rintro hname
    have hempty : declared.name = "" := hname
    simp [validProfileName, hempty] at hchecks

/-- No profile of a node is without a name. -/
theorem name_of_declare {declared : List (DeclaredProfile K)} {profiles : DockingProfiles K}
    (h : declare declared = some profiles) : ∀ profile ∈ profiles, profile.name ≠ "" := by
  have hadd : ∀ (declared : List (DeclaredProfile K)) (before after : DockingProfiles K),
      declared.foldlM add before = some after → (∀ profile ∈ before, profile.name ≠ "") →
      ∀ profile ∈ after, profile.name ≠ "" := by
    intro declared
    induction declared with
    | nil =>
      intro before after h hbefore
      obtain rfl := Option.some.inj h
      exact hbefore
    | cons d declared ih =>
      intro before after h hbefore
      rw [List.foldlM_cons] at h
      obtain ⟨middle, hmiddle, h⟩ := Option.bind_eq_some_iff.mp h
      refine ih middle after h ?_
      simp only [add, Option.bind_eq_bind, Option.bind_eq_some_iff] at hmiddle
      obtain ⟨profile, hcheck, hmiddle⟩ := hmiddle
      split at hmiddle
      · cases hmiddle
      · obtain rfl := Option.some.inj hmiddle
        intro x hx
        obtain hx | hx := List.mem_append.mp hx
        · exact hbefore x hx
        · obtain rfl := List.mem_singleton.mp hx
          exact name_of_check hcheck
  exact hadd declared [] profiles h (by simp)

end DockingProfiles

/-- `std::from_chars` for a signed 64-bit number: the number and what follows it.
A number out of range is an error. -/
def fromChars (text : List Char) : Option (ℤ × List Char) :=
  let (negative, text) := match text with
    | '-' :: text => (true, text)
    | _ => (false, text)
  let digits := text.takeWhile Char.isDigit
  let magnitude : ℕ := digits.foldl (fun n c => 10 * n + (c.toNat - '0'.toNat)) 0
  let number : ℤ := if negative then -magnitude else magnitude
  if digits.isEmpty || number < -2 ^ 63 || 2 ^ 63 ≤ number then none
  else some (number, text.drop digits.length)

/-- Box instance ids encode the physical tag, independently of the box type. -/
def bindBoxDockingProfile (profile : DockingProfile K) (instanceId tagFrame : String) :
    Option (DockingProfile K) :=
  if profile.targetSource ≠ .box ∨ instanceId.toList.take 4 ≠ ['t', 'a', 'g', ':'] ∨
      tagFrame.isEmpty then none
  else
    let idText := instanceId.toList.drop 4
    match fromChars idText with
    | some (id, []) =>
      if id < 0 ∨ 2 ^ 31 - 1 < id ∨ (toString id).toList ≠ idText then none
      else some { profile with tagId := id, tagFrame := tagFrame }
    | _ => none

end X2Navigation
