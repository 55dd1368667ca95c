import Mathlib.Data.List.TakeWhile
import X2Navigation.Numeric.Decimal
import X2Navigation.Server.Profiles

/-! Which box a docking goes to. The instance of a box names the tag on it; a name is accepted
where it is the one that the number of the tag is written as. -/

namespace X2Navigation

variable {K : Type} {profile target : DockingProfile K} {instanceId tagFrame : String}

/-- The name of a box: the number of its tag, in 32 bits, after a fixed word. -/
def IsBoxInstance (instanceId : String) (n : ℕ) : Prop :=
  n ≤ 2147483647 ∧ ∃ digits, IsDecimal digits n ∧ instanceId.toList = "tag:".toList ++ digits

theorem isBoxInstance_iff {n : ℕ} :
    IsBoxInstance instanceId n ↔ n ≤ 2147483647 ∧ instanceId = "tag:" ++ toString n := by
  simp only [IsBoxInstance, isDecimal_iff, exists_eq_left, ← String.toList_append,
    String.toList_inj]

/-- A numeral in range is read to its end. -/
theorem fromChars_of_isDecimal {digits : List Char} {n : ℕ} (h : IsDecimal digits n)
    (hn : n < 2 ^ 63) : fromChars digits = some ((n : ℤ), []) := by
  have hsign : ∀ rest, digits ≠ '-' :: rest := by
    rintro rest rfl
    exact absurd (h.isDigit '-' List.mem_cons_self) (by decide)
  have hall : digits.takeWhile Char.isDigit = digits := List.takeWhile_eq_self_iff.mpr h.isDigit
  have hvalue := h.value
  rw [Nat.ofDigitChars_eq_foldl] at hvalue
  unfold fromChars
  split
  next negative text hmatch =>
  have hread : false = negative ∧ digits = text := by
    split at hmatch
    · exact absurd rfl (hsign _)
    · exact Prod.mk.inj hmatch
  obtain ⟨rfl, rfl⟩ := hread
  rw [hall]
  simp only [hvalue]
  simp [h.ne_nil]
  omega

/-- Of the checks, the last one decides: what is read is what is printed. -/
theorem bindBoxDockingProfile_eq_some (hbox : profile.targetSource = .box) (hframe : tagFrame ≠ "") :
    bindBoxDockingProfile profile instanceId tagFrame = some target ↔
      ∃ n : ℕ, IsBoxInstance instanceId n ∧
        target = { profile with tagId := n, tagFrame := tagFrame } := by
  unfold bindBoxDockingProfile
  constructor
  · intro h
    split at h
    · cases h
    next hword =>
    have htag : instanceId.toList.take 4 = "tag:".toList := by
      by_contra hne
      exact hword (.inr (.inl hne))
    dsimp only at h
    split at h
    next id _ =>
      split at h
      · cases h
      next hchecks =>
      obtain rfl := Option.some.inj h
      obtain ⟨hnonneg, hmax, hprinted⟩ : 0 ≤ id ∧ id ≤ 2 ^ 31 - 1 ∧
          (toString id).toList = instanceId.toList.drop 4 := by
        simpa [not_or] using hchecks
      obtain ⟨n, rfl⟩ := Int.eq_ofNat_of_zero_le hnonneg
      refine ⟨n, ⟨by omega, instanceId.toList.drop 4, isDecimal_iff.mpr hprinted.symm, ?_⟩, rfl⟩
      rw [← htag, List.take_append_drop]
    · cases h
  · rintro ⟨n, ⟨hn, digits, hdigits, hname⟩, rfl⟩
    have htake : instanceId.toList.take 4 = ['t', 'a', 'g', ':'] := by rw [hname]; rfl
    have hdrop : instanceId.toList.drop 4 = digits := by rw [hname]; rfl
    have hempty : tagFrame.isEmpty = false := by simpa using hframe
    have hprinted : (toString (n : ℤ)).toList = digits := (isDecimal_iff.mp hdigits).symm
    rw [if_neg (by simp [hbox, htake, hempty])]
    dsimp only
    rw [hdrop, fromChars_of_isDecimal hdigits (by omega)]
    dsimp only
    rw [if_neg (by rw [hprinted]; simp; omega)]

/-- A box is bound exactly by its name: the tag of the bound profile is the one in the name, and
names it again. -/
theorem bindBoxDockingProfile_accepts (profile : DockingProfile K)
    (hbox : profile.targetSource = .box) (tagFrame : String) (hframe : tagFrame ≠ "") :
    (∀ instanceId target, bindBoxDockingProfile profile instanceId tagFrame = some target ↔
      ∃ n : ℕ, IsBoxInstance instanceId n ∧
        target = { profile with tagId := n, tagFrame := tagFrame }) ∧
    (∀ instanceId, bindBoxDockingProfile profile instanceId tagFrame = none ↔
      ∀ n, ¬ IsBoxInstance instanceId n) ∧
    (∀ instanceId target, bindBoxDockingProfile profile instanceId tagFrame = some target →
      "tag:" ++ toString target.tagId = instanceId) ∧
    ∀ instanceId instanceId' target target',
      bindBoxDockingProfile profile instanceId tagFrame = some target →
      bindBoxDockingProfile profile instanceId' tagFrame = some target' →
        instanceId ≠ instanceId' → target.tagId ≠ target'.tagId := by
  have haccepts (instanceId : String) (target : DockingProfile K) :=
    @bindBoxDockingProfile_eq_some K profile target instanceId tagFrame hbox hframe
  have hreencodes (instanceId : String) (target : DockingProfile K)
      (h : bindBoxDockingProfile profile instanceId tagFrame = some target) :
      "tag:" ++ toString target.tagId = instanceId := by
    obtain ⟨n, hname, rfl⟩ := (haccepts instanceId target).mp h
    exact (isBoxInstance_iff.mp hname).2.symm
  refine ⟨haccepts, ?_, hreencodes, ?_⟩
  · intro instanceId
    constructor
    · intro h n hname
      rw [(haccepts instanceId _).mpr ⟨n, hname, rfl⟩] at h
      cases h
    · intro h
      rw [Option.eq_none_iff_forall_ne_some]
      intro target htarget
      obtain ⟨n, hname, -⟩ := (haccepts instanceId target).mp htarget
      exact h n hname
  · intro instanceId instanceId' target target' h h' hne htag
    apply hne
    rw [← hreencodes instanceId target h, ← hreencodes instanceId' target' h', htag]

/-- The profile of a test. -/
def boxProfile : DockingProfile ℚ :=
  ⟨"box", -1, "", 1 / 2, 0, 0, "/detections", .timedReverse, 1 / 10, 3, .box⟩

theorem bindBoxDockingProfile_accepts_seventeen :
    bindBoxDockingProfile boxProfile "tag:17" "tag17" =
        some { boxProfile with tagId := 17, tagFrame := "tag17" } ∧
      bindBoxDockingProfile boxProfile "tag:017" "tag17" = none := by
  obtain ⟨haccepts, hrefuses, -, -⟩ :=
    bindBoxDockingProfile_accepts boxProfile rfl "tag17" (by decide)
  constructor
  · exact (haccepts "tag:17" _).mpr ⟨17, isBoxInstance_iff.mpr ⟨by decide, by decide⟩, rfl⟩
  · refine (hrefuses "tag:017").mpr fun n hn => ?_
    obtain ⟨-, digits, hdigits, hname⟩ := hn
    have hdigits' : digits = ['0', '1', '7'] := List.append_cancel_left hname.symm
    rw [hdigits'] at hdigits
    exact absurd (hdigits.canonical rfl) (by decide)

end X2Navigation
