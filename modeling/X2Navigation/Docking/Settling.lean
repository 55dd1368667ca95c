import X2Navigation.Docking.Geometry
import Mathlib.Data.List.Induction

/-! The dwell at the end of an approach. Visual settling requires a zero command
and fresh, consistent relative poses; it is not an independent measurement of the
robot's velocity. When it completes, the calls since its last start are a block
of valid ones in which every new observation lies close to the first. -/

namespace X2Navigation

variable {K : Type*} [Field K] [LinearOrder K]

structure TagPoseSettling (K : Type*) where
  started : K
  active : Bool
  sequence : ℕ
  anchor : PlanarError K

namespace TagPoseSettling

def new : TagPoseSettling K := ⟨0, false, 0, ⟨0, 0, 0⟩⟩

/-- One call of `update`. Both callers call a pose valid only after comparisons that a
pose with a NaN or an infinity fails, so its coordinates are numbers. -/
structure Sighting (K : Type*) where
  valid : Bool
  now : K
  sequence : ℕ
  observed : PlanarError K

def start (c : Sighting K) : TagPoseSettling K := ⟨c.now, true, c.sequence, c.observed⟩

/-- How long, and within which spreads of the first pose. -/
structure Limits (K : Type*) where
  duration : K
  positionSpread : K
  angularSpread : K

variable (m : Libm K) (limits : Limits K)

def strayed (anchor observed : PlanarError K) : Bool :=
  decide (limits.positionSpread < m.hypot (observed.x - anchor.x) (observed.y - anchor.y) ∨
    limits.angularSpread < |wrapAngle m (observed.yaw - anchor.yaw)|)

def update (c : Sighting K) (s : TagPoseSettling K) : TagPoseSettling K × Bool :=
  if !c.valid then ({ s with active := false }, false)
  else if !s.active then (start c, false)
  else if c.sequence ≤ s.sequence then (s, false)
  else if strayed m limits s.anchor c.observed then (start c, false)
  else ({ s with sequence := c.sequence }, decide (limits.duration ≤ c.now - s.started))

def run (calls : List (Sighting K)) : TagPoseSettling K :=
  calls.foldl (fun s c => (update m limits c s).1) new

@[simp] theorem run_snoc (calls : List (Sighting K)) (c : Sighting K) :
    run m limits (calls ++ [c]) = (update m limits c (run m limits calls)).1 := by
  simp [run]

variable {m limits} in
/-- Only a valid sighting completes the dwell. -/
theorem valid_of_completed {c : Sighting K} {s : TagPoseSettling K}
    (h : (update m limits c s).2 = true) : c.valid = true := by
  cases hv : c.valid with
  | true => rfl
  | false => simp [update, hv] at h

/-! ### The block of calls since the last start -/

/-- The calls from `first` on are valid, and every observation with a new sequence
number, one that exceeds all before it, lies close to the first. -/
structure Dwell (first : Sighting K) (rest : List (Sighting K)) : Prop where
  valid : ∀ c ∈ first :: rest, c.valid = true
  close : ∀ earlier c later, rest = earlier ++ c :: later →
    (∀ d ∈ first :: earlier, d.sequence < c.sequence) →
    strayed m limits first.observed c.observed = false

variable {m limits} {first c : Sighting K} {rest : List (Sighting K)}

theorem dwell_singleton (h : c.valid = true) : Dwell m limits c [] := by
  refine ⟨by simpa using h, ?_⟩
  intro earlier d later hd
  simp at hd

theorem Dwell.snoc (h : Dwell m limits first rest) (hv : c.valid = true)
    (hc : (∀ d ∈ first :: rest, d.sequence < c.sequence) →
      strayed m limits first.observed c.observed = false) :
    Dwell m limits first (rest ++ [c]) := by
  constructor
  · intro d hd
    rw [← List.cons_append, List.mem_append, List.mem_singleton] at hd
    obtain hd | rfl := hd
    · exact h.valid d hd
    · exact hv
  · intro earlier d later hd hnew
    cases later using List.reverseRecOn with
    | nil =>
      obtain ⟨rfl, hdc⟩ := List.append_inj' hd rfl
      obtain rfl : c = d := by simpa using hdc
      exact hc hnew
    | append_singleton later e =>
      have hrest : rest = earlier ++ d :: later := by
        rw [← List.cons_append, ← List.append_assoc] at hd
        exact List.append_inj_left' hd rfl
      exact h.close earlier d later hrest hnew

/-- An active dwell remembers the first call of its block, and the highest
sequence number in it. -/
structure Since (m : Libm K) (limits : Limits K) (s : TagPoseSettling K) (first : Sighting K)
    (rest : List (Sighting K)) : Prop where
  dwell : Dwell m limits first rest
  started : s.started = first.now
  anchor : s.anchor = first.observed
  first_le : first.sequence ≤ s.sequence
  highest : ∃ d ∈ first :: rest, d.sequence = s.sequence

/-- Every active state of a run is inside a block. -/
theorem run_since (calls : List (Sighting K)) (h : (run m limits calls).active = true) :
    ∃ before first rest, calls = before ++ first :: rest ∧
      Since m limits (run m limits calls) first rest := by
  induction calls using List.reverseRecOn with
  | nil => simp [run, new] at h
  | append_singleton calls c ih =>
    rw [run_snoc] at h ⊢
    have fresh (hv : c.valid = true) : ∃ before first rest,
        calls ++ [c] = before ++ first :: rest ∧ Since m limits (start c) first rest :=
      ⟨calls, c, [], rfl, dwell_singleton hv, rfl, rfl, le_rfl, c, by simp, rfl⟩
    unfold update at h ⊢
    by_cases hv : c.valid = true
    · by_cases ha : (run m limits calls).active = true
      · obtain ⟨before, first, rest, hcalls, hs⟩ := ih ha
        obtain ⟨d, hd, hds⟩ := hs.highest
        have hblock : calls ++ [c] = before ++ first :: (rest ++ [c]) := by simp [hcalls]
        by_cases hle : c.sequence ≤ (run m limits calls).sequence
        · -- not a new observation
          simp only [hv, ha, hle, if_true, Bool.not_true, Bool.false_eq_true, if_false]
          refine ⟨before, first, rest ++ [c], hblock, ?_, hs.started, hs.anchor, hs.first_le,
            d, by simp only [← List.cons_append]; exact List.mem_append_left _ hd, hds⟩
          refine hs.dwell.snoc hv fun hnew => ?_
          have := hnew d hd
          omega
        · by_cases hstray : strayed m limits (run m limits calls).anchor c.observed = true
          · simp only [hv, ha, hle, hstray, if_true, Bool.not_true, Bool.false_eq_true, if_false]
            exact fresh hv
          · simp only [hv, ha, hle, hstray, Bool.not_true, Bool.false_eq_true, if_false]
            refine ⟨before, first, rest ++ [c], hblock, ?_, hs.started, hs.anchor, ?_, c, by simp, rfl⟩
            · refine hs.dwell.snoc hv fun _ => ?_
              rw [← hs.anchor]
              exact Bool.eq_false_iff.mpr hstray
            · have := hs.first_le
              change first.sequence ≤ c.sequence
              omega
      · simp only [hv, ha, Bool.not_true, Bool.false_eq_true, if_false, Bool.not_false, if_true]
        exact fresh hv
    · simp [hv] at h

/-- Completion: the block since the last start ends with this call, lasted long
enough and saw a newer observation than its first. -/
theorem completed_block {calls : List (Sighting K)}
    (h : (update m limits c (run m limits calls)).2 = true) :
    ∃ before first rest, calls = before ++ first :: rest ∧
      Dwell m limits first (rest ++ [c]) ∧ first.sequence < c.sequence ∧
      limits.duration ≤ c.now - first.now := by
  unfold update at h
  by_cases hv : c.valid = true
  · by_cases ha : (run m limits calls).active = true
    · obtain ⟨before, first, rest, hcalls, hs⟩ := run_since calls ha
      by_cases hle : c.sequence ≤ (run m limits calls).sequence
      · simp [hv, ha, hle] at h
      · by_cases hstray : strayed m limits (run m limits calls).anchor c.observed = true
        · simp [hv, ha, hle, hstray] at h
        · have hdur : limits.duration ≤ c.now - (run m limits calls).started := by
            simpa [hv, ha, hle, hstray] using h
          have hlt := hs.first_le
          refine ⟨before, first, rest, hcalls, ?_, by omega, hs.started ▸ hdur⟩
          refine hs.dwell.snoc hv fun _ => ?_
          rw [← hs.anchor]
          exact Bool.eq_false_iff.mpr hstray
    · simp [hv, ha] at h
  · simp [hv] at h

end TagPoseSettling

end X2Navigation
