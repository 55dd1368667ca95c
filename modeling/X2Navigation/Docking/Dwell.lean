import X2Navigation.Docking.ExactTracking
import X2Navigation.Docking.Settling

/-! When the dwell completes. It restarts with the first valid call and with an observation that
has strayed from the first; between two restarts only time and new sequence numbers count. So a
robot at rest settles, after one restart at most. -/

namespace X2Navigation.TagPoseSettling

variable {K : Type*} [Field K] [LinearOrder K] (m : Libm K) (limits : Limits K)

/-- The state after further calls. -/
def after (s : TagPoseSettling K) (calls : List (Sighting K)) : TagPoseSettling K :=
  calls.foldl (fun s c => (update m limits c s).1) s

/-- Whether a call starts the dwell, or starts it anew. -/
def restarts (c : Sighting K) (s : TagPoseSettling K) : Bool :=
  c.valid && (!s.active || (decide (s.sequence < c.sequence) && strayed m limits s.anchor c.observed))

/-- Neither the clock nor the sequence number of the observation goes back. -/
def Ordered (calls : List (Sighting K)) : Prop :=
  calls.Pairwise fun c d => c.now ≤ d.now ∧ c.sequence ≤ d.sequence

variable {m limits} {s : TagPoseSettling K} {c first : Sighting K}
  {before calls rest : List (Sighting K)}

theorem run_append (before calls : List (Sighting K)) :
    run m limits (before ++ calls) = after m limits (run m limits before) calls :=
  List.foldl_append

theorem after_cons (s : TagPoseSettling K) (c : Sighting K) (calls : List (Sighting K)) :
    after m limits s (c :: calls) = after m limits (update m limits c s).1 calls := rfl

/-! ### One call -/

theorem update_of_restarts (h : restarts m limits c s = true) :
    update m limits c s = (start c, false) := by
  simp only [restarts, Bool.and_eq_true, Bool.or_eq_true, Bool.not_eq_true', decide_eq_true_eq] at h
  obtain ⟨hv, ha | ⟨hnew, hstray⟩⟩ := h
  · simp [update, hv, ha]
  · simp [update, hv, not_le.mpr hnew, hstray]

/-- A valid call that does not restart the dwell only counts as an observation. -/
theorem update_of_continues (hv : c.valid = true) (h : restarts m limits c s = false) :
    s.active = true ∧
      (update m limits c s).1 = { s with sequence := max s.sequence c.sequence } ∧
      (s.sequence < c.sequence →
        (update m limits c s).2 = decide (limits.duration ≤ c.now - s.started)) := by
  simp only [restarts, hv, Bool.true_and, Bool.or_eq_false_iff, Bool.not_eq_false'] at h
  obtain ⟨ha, hclose⟩ := h
  refine ⟨ha, ?_⟩
  unfold update
  rw [if_neg (by simp [hv]), if_neg (by simp [ha])]
  by_cases hle : c.sequence ≤ s.sequence
  · rw [if_pos hle, max_eq_left hle]
    exact ⟨rfl, fun hlt => absurd hle (not_le.mpr hlt)⟩
  · have hlt := not_le.mp hle
    rw [decide_eq_true hlt, Bool.true_and] at hclose
    rw [if_neg hle, hclose, max_eq_right hlt.le]
    exact ⟨rfl, fun _ => rfl⟩

theorem continues_of_close (ha : s.active = true)
    (hclose : strayed m limits s.anchor c.observed = false) : restarts m limits c s = false := by
  rw [restarts, ha, hclose, Bool.and_false, Bool.not_true, Bool.or_false, Bool.and_false]

/-! ### Between restarts -/

/-- Where no call restarts the dwell of its first pose, the start and the first pose stay. -/
theorem after_keeps (ha : s.active = true) (hvalid : ∀ c ∈ calls, c.valid = true)
    (h : ∀ earlier c later, calls = earlier ++ c :: later →
      (after m limits s earlier).active = true → (after m limits s earlier).anchor = s.anchor →
        restarts m limits c (after m limits s earlier) = false) :
    (after m limits s calls).active = true ∧ (after m limits s calls).started = s.started ∧
      (after m limits s calls).anchor = s.anchor := by
  induction calls generalizing s with
  | nil => exact ⟨ha, rfl, rfl⟩
  | cons c calls ih =>
    obtain ⟨hv, hvalid⟩ := List.forall_mem_cons.mp hvalid
    have hc : restarts m limits c s = false := h [] c calls rfl ha rfl
    obtain ⟨-, hupdate, -⟩ := update_of_continues hv hc
    rw [after_cons, hupdate]
    refine ih ha hvalid fun earlier d later heq hactive hanchor => ?_
    have hd := h (c :: earlier) d later (by rw [heq, List.cons_append])
    rw [after_cons, hupdate] at hd
    exact hd hactive hanchor

/-- Where no call restarts the dwell, its start and its first pose stay. -/
theorem after_continues (ha : s.active = true) (hvalid : ∀ c ∈ calls, c.valid = true)
    (h : ∀ earlier c later, calls = earlier ++ c :: later →
      restarts m limits c (after m limits s earlier) = false) :
    (after m limits s calls).active = true ∧ (after m limits s calls).started = s.started ∧
      (after m limits s calls).anchor = s.anchor :=
  after_keeps ha hvalid fun earlier c later heq _ _ => h earlier c later heq

/-- Poses close to the first do not restart the dwell. -/
theorem after_close (ha : s.active = true) (hvalid : ∀ c ∈ calls, c.valid = true)
    (hclose : ∀ c ∈ calls, strayed m limits s.anchor c.observed = false) :
    (after m limits s calls).active = true ∧ (after m limits s calls).started = s.started ∧
      (after m limits s calls).anchor = s.anchor := by
  refine after_keeps ha hvalid fun earlier c later heq hactive hanchor => ?_
  apply continues_of_close hactive
  rw [hanchor]
  apply hclose
  rw [heq]
  simp

/-! ### Sequence numbers and the clock -/

theorem sequence_after_le {bound : ℕ} (hs : s.sequence ≤ bound)
    (h : ∀ c ∈ calls, c.sequence ≤ bound) : (after m limits s calls).sequence ≤ bound := by
  induction calls generalizing s with
  | nil => exact hs
  | cons c calls ih =>
    obtain ⟨hc, hrest⟩ := List.forall_mem_cons.mp h
    rw [after_cons]
    refine ih ?_ hrest
    cases hv : c.valid with
    | false => simpa [update, hv] using hs
    | true =>
      cases hr : restarts m limits c s with
      | true =>
        rw [update_of_restarts hr]
        exact hc
      | false =>
        rw [(update_of_continues hv hr).2.1]
        exact max_le hs hc

/-- A number above that of the last call is above all so far. -/
theorem sequence_run_lt {bound : ℕ} (hordered : Ordered calls) (hne : calls ≠ [])
    (hlast : ∀ d ∈ calls.getLast?, d.sequence < bound) :
    (run m limits calls).sequence < bound := by
  cases calls using List.reverseRecOn with
  | nil => exact absurd rfl hne
  | append_singleton calls d =>
    refine lt_of_le_of_lt ?_ (hlast d (by simp))
    refine sequence_after_le (Nat.zero_le _) fun c hc => ?_
    obtain hc | hc := List.mem_append.mp hc
    · exact ((List.pairwise_append.mp hordered).2.2 c hc d (by simp)).2
    · obtain rfl := List.mem_singleton.mp hc
      exact le_rfl

/-- A dwell has not started later than its last call. -/
theorem started_run_le {bound : K} (ha : (run m limits calls).active = true)
    (h : ∀ c ∈ calls, c.now ≤ bound) : (run m limits calls).started ≤ bound := by
  obtain ⟨before, first, rest, hcalls, hsince⟩ := run_since calls ha
  rw [hsince.started]
  exact h first (by simp [hcalls])

/-- There is no dwell at the beginning and after an invalid call. -/
theorem inactive_run (h : ∀ d ∈ before.getLast?, d.valid = false) :
    (run m limits before).active = false := by
  cases before using List.reverseRecOn with
  | nil => rfl
  | append_singleton before d =>
    have hd := h d (by simp)
    rw [run_snoc]
    simp [update, hd]

/-! ### From a restart on -/

/-- The calls after a restart, when their poses are close to its own. -/
theorem after_restart (hr : restarts m limits first (run m limits before) = true)
    (hvalid : ∀ c ∈ rest, c.valid = true)
    (hclose : ∀ c ∈ rest, strayed m limits first.observed c.observed = false) :
    (run m limits (before ++ first :: rest)).active = true ∧
      (run m limits (before ++ first :: rest)).started = first.now ∧
      (run m limits (before ++ first :: rest)).anchor = first.observed := by
  rw [run_append, after_cons, update_of_restarts hr]
  exact after_close (s := start first) rfl hvalid hclose

theorem completes_of_continues (hv : c.valid = true) (hr : restarts m limits c s = false)
    (hnew : s.sequence < c.sequence) (hduration : limits.duration ≤ c.now - s.started) :
    (update m limits c s).2 = true := by
  rw [(update_of_continues hv hr).2.2 hnew]
  exact decide_eq_true hduration

/-- A call long enough after a restart completes the dwell, when no pose has strayed. -/
theorem completes_of_restart (hordered : Ordered (before ++ first :: rest))
    (hr : restarts m limits first (run m limits before) = true)
    (hvalid : ∀ d ∈ rest ++ [c], d.valid = true)
    (hclose : ∀ d ∈ rest ++ [c], strayed m limits first.observed d.observed = false)
    (hnew : ∀ d ∈ (first :: rest).getLast?, d.sequence < c.sequence)
    (hduration : limits.duration ≤ c.now - first.now) :
    (update m limits c (run m limits (before ++ first :: rest))).2 = true := by
  obtain ⟨ha, hstarted, hanchor⟩ := after_restart hr
    (fun d hd => hvalid d (List.mem_append_left _ hd))
    (fun d hd => hclose d (List.mem_append_left _ hd))
  refine completes_of_continues (hvalid c (by simp)) (continues_of_close ha ?_) ?_ ?_
  · rw [hanchor]
    exact hclose c (by simp)
  · refine sequence_run_lt hordered (by simp) fun d hd => hnew d ?_
    rwa [List.getLast?_append_of_ne_nil _ (by simp)] at hd
  · rwa [hstarted]

/-- Poses that are pairwise close restart the dwell once at most. -/
theorem restarts_once {block earlier between later : List (Sighting K)} {second : Sighting K}
    (hvalid : ∀ d ∈ block, d.valid = true)
    (hclose : block.Pairwise fun c d => strayed m limits c.observed d.observed = false)
    (hblock : block = earlier ++ first :: (between ++ second :: later))
    (hr : restarts m limits first (run m limits (before ++ earlier)) = true) :
    restarts m limits second (run m limits (before ++ earlier ++ first :: between)) = false := by
  subst hblock
  have hafter := (List.pairwise_cons.mp (List.pairwise_append.mp hclose).2.1).1
  have hbetween : ∀ d ∈ between, d.valid = true := fun d hd => hvalid d (by simp [hd])
  obtain ⟨ha, -, hanchor⟩ := after_restart hr hbetween (fun d hd => hafter d (by simp [hd]))
  refine continues_of_close ha ?_
  rw [hanchor]
  exact hafter second (by simp)

/-- Without a restart the dwell goes on from before the block. -/
theorem completes_of_no_restart [IsStrictOrderedRing K] {block earlier later : List (Sighting K)}
    (hordered : Ordered (before ++ block)) (hvalid : ∀ d ∈ block, d.valid = true)
    (hblock : block = first :: (earlier ++ c :: later))
    (hnone : ∀ e₁ r e₂, first :: (earlier ++ [c]) = e₁ ++ r :: e₂ →
      restarts m limits r (run m limits (before ++ e₁)) = false)
    (hnew : ∀ d ∈ (first :: earlier).getLast?, d.sequence < c.sequence)
    (hduration : limits.duration ≤ c.now - first.now) :
    (update m limits c (run m limits (before ++ first :: earlier))).2 = true := by
  subst hblock
  have hfirst : restarts m limits first (run m limits before) = false := by
    have h := hnone [] first (earlier ++ [c]) rfl
    rwa [List.append_nil] at h
  have hc : restarts m limits c (run m limits (before ++ first :: earlier)) = false :=
    hnone (first :: earlier) c [] rfl
  have ha := (update_of_continues (hvalid first (by simp)) hfirst).1
  have hstart : (run m limits before).started ≤ first.now :=
    started_run_le ha fun d hd => ((List.pairwise_append.mp hordered).2.2 d hd first (by simp)).1
  have hvalid' : ∀ d ∈ first :: earlier, d.valid = true := fun d hd =>
    hvalid d (by obtain rfl | hd := List.mem_cons.mp hd <;> simp [*])
  have hnone' : ∀ e₁ r e₂, first :: earlier = e₁ ++ r :: e₂ →
      restarts m limits r (after m limits (run m limits before) e₁) = false := by
    intro e₁ r e₂ heq
    rw [← run_append]
    apply hnone e₁ r (e₂ ++ [c])
    rw [← List.cons_append, heq, List.append_assoc, List.cons_append]
  obtain ⟨-, hstarted, -⟩ := after_continues ha hvalid' hnone'
  rw [← run_append] at hstarted
  refine completes_of_continues (hvalid c (by simp)) hc ?_ ?_
  · refine sequence_run_lt ?_ (by simp) fun d hd => hnew d ?_
    · have hsplit : before ++ first :: (earlier ++ c :: later) =
          before ++ first :: earlier ++ c :: later := by simp
      rw [Ordered, hsplit] at hordered
      exact (List.pairwise_append.mp hordered).1
    · rwa [List.getLast?_append_of_ne_nil _ (by simp)] at hd
  · rw [hstarted]
    linarith

/-! ### Neither early nor never -/

/-- The window from `first` to the completing call `c`. -/
structure Completes (limits : Limits ℝ) (first : Sighting ℝ) (rest : List (Sighting ℝ))
    (c : Sighting ℝ) : Prop where
  valid : ∀ d ∈ first :: (rest ++ [c]), d.valid = true
  newer : first.sequence < c.sequence
  duration : limits.duration ≤ c.now - first.now
  close : ∀ earlier d later, first :: (rest ++ [c]) = earlier ++ d :: later →
    (∀ e ∈ earlier, e.sequence < d.sequence) →
    strayed Libm.real limits first.observed d.observed = false

theorem not_strayed_self {limits : Limits ℝ} (hposition : 0 ≤ limits.positionSpread)
    (hangular : 0 ≤ limits.angularSpread) (p : PlanarError ℝ) :
    strayed Libm.real limits p p = false := by
  have hstill : Libm.real.hypot 0 0 = 0 := by simp
  simp [strayed, wrapAngle_real_zero, hstill, hposition, hangular]

/-- Every completion is earned, and a robot at rest completes the dwell after one restart at
most. -/
theorem settles (limits : Limits ℝ) (hposition : 0 ≤ limits.positionSpread)
    (hangular : 0 ≤ limits.angularSpread) (calls : List (Sighting ℝ)) (hordered : Ordered calls) :
    (∀ before c later, calls = before ++ c :: later →
      (update Libm.real limits c (run Libm.real limits before)).2 = true →
        ∃ earlier first rest, before = earlier ++ first :: rest ∧ Completes limits first rest c) ∧
    (∀ before first rest c later, calls = before ++ first :: (rest ++ c :: later) →
      (∀ d ∈ before.getLast?, d.valid = false) →
      (∀ d ∈ first :: (rest ++ [c]),
        d.valid = true ∧ strayed Libm.real limits first.observed d.observed = false) →
      limits.duration ≤ c.now - first.now →
      (∀ d ∈ (first :: rest).getLast?, d.sequence < c.sequence) →
        (update Libm.real limits c (run Libm.real limits (before ++ first :: rest))).2 = true) ∧
    ∀ before block, calls = before ++ block → (∀ d ∈ block, d.valid = true) →
      (block.Pairwise fun c d => strayed Libm.real limits c.observed d.observed = false) →
      let restartsAt (earlier : List (Sighting ℝ)) (r : Sighting ℝ) : Prop :=
        restarts Libm.real limits r (run Libm.real limits (before ++ earlier)) = true
      (∀ earlier r between r' later, block = earlier ++ r :: (between ++ r' :: later) →
        ¬ (restartsAt earlier r ∧ restartsAt (earlier ++ r :: between) r')) ∧
      (∀ earlier r between c later, block = earlier ++ r :: (between ++ c :: later) →
        restartsAt earlier r → (∀ d ∈ (r :: between).getLast?, d.sequence < c.sequence) →
        limits.duration ≤ c.now - r.now →
          (update Libm.real limits c
            (run Libm.real limits (before ++ earlier ++ r :: between))).2 = true) ∧
      ∀ first earlier c later, block = first :: (earlier ++ c :: later) →
        (∀ e₁ r e₂, first :: (earlier ++ [c]) = e₁ ++ r :: e₂ → ¬ restartsAt e₁ r) →
        (∀ d ∈ (first :: earlier).getLast?, d.sequence < c.sequence) →
        limits.duration ≤ c.now - first.now →
          (update Libm.real limits c
            (run Libm.real limits (before ++ first :: earlier))).2 = true := by
  refine ⟨?_, ?_, ?_⟩
  · rintro before c later - hcompleted
    obtain ⟨earlier, first, rest, hbefore, hdwell, hnewer, hduration⟩ := completed_block hcompleted
    refine ⟨earlier, first, rest, hbefore, hdwell.valid, hnewer, hduration, ?_⟩
    intro e d l heq hnew
    cases e with
    | nil =>
      obtain ⟨rfl, -⟩ := List.cons.inj heq
      exact not_strayed_self hposition hangular _
    | cons x e =>
      obtain ⟨rfl, htail⟩ := List.cons.inj heq
      exact hdwell.close e d l htail hnew
  · rintro before first rest c later rfl hfresh hblock hduration hnew
    have hsplit : before ++ first :: (rest ++ c :: later) =
        before ++ first :: rest ++ c :: later := by simp
    rw [Ordered, hsplit] at hordered
    have hr : restarts Libm.real limits first (run Libm.real limits before) = true := by
      rw [restarts, (hblock first (by simp)).1, inactive_run hfresh]
      rfl
    exact completes_of_restart (List.pairwise_append.mp hordered).1 hr
      (fun d hd => (hblock d (List.mem_cons_of_mem _ hd)).1)
      (fun d hd => (hblock d (List.mem_cons_of_mem _ hd)).2) hnew hduration
  · rintro before block rfl hvalid hclose
    refine ⟨?_, ?_, ?_⟩
    · rintro earlier r between r' later hblock ⟨hr, hr'⟩
      have honce := restarts_once hvalid hclose hblock hr
      rw [List.append_assoc] at honce
      exact Bool.false_ne_true (honce.symm.trans hr')
    · rintro earlier r between c later rfl hr hnew hduration
      have hsplit : before ++ (earlier ++ r :: (between ++ c :: later)) =
          before ++ earlier ++ r :: between ++ c :: later := by simp
      rw [Ordered, hsplit] at hordered
      have hafter := (List.pairwise_cons.mp (List.pairwise_append.mp hclose).2.1).1
      have hmem {d : Sighting ℝ} (hd : d ∈ between ++ [c]) : d ∈ between ++ c :: later := by
        rw [List.append_cons]
        exact List.mem_append_left _ hd
      exact completes_of_restart (List.pairwise_append.mp hordered).1 hr
        (fun d hd => hvalid d (List.mem_append_right _ (List.mem_cons_of_mem _ (hmem hd))))
        (fun d hd => hafter d (hmem hd)) hnew hduration
    · intro first earlier c later hblock hnone hnew hduration
      exact completes_of_no_restart hordered hvalid hblock
        (fun e₁ r e₂ heq => Bool.eq_false_iff.mpr (hnone e₁ r e₂ heq)) hnew hduration

/-- Three observations at rest, a second apart. -/
theorem settles_at_rest :
    let limits : Limits ℝ := ⟨2, 1 / 100, 1 / 100⟩
    let seen (now : ℝ) (sequence : ℕ) : Sighting ℝ := ⟨true, now, sequence, ⟨1, 0, 0⟩⟩
    (update Libm.real limits (seen 2 3) (run Libm.real limits [seen 0 1, seen 1 2])).2 = true := by
  intro limits seen
  have hposition : 0 ≤ limits.positionSpread := by norm_num [limits]
  have hangular : 0 ≤ limits.angularSpread := by norm_num [limits]
  have hordered : Ordered [seen 0 1, seen 1 2, seen 2 3] := by
    simp only [Ordered, List.pairwise_cons, List.mem_cons, List.not_mem_nil, or_false,
      forall_eq_or_imp, forall_eq, false_imp_iff, implies_true, List.Pairwise.nil, and_true]
    norm_num [seen]
  have hclose (d : Sighting ℝ) (hd : d.observed = ⟨1, 0, 0⟩) :
      strayed Libm.real limits ⟨1, 0, 0⟩ d.observed = false := by
    rw [hd]
    exact not_strayed_self hposition hangular _
  refine (settles limits hposition hangular _ hordered).2.1 [] (seen 0 1) [seen 1 2] (seen 2 3) []
    rfl (by simp) ?_ (by norm_num [limits, seen]) (by simp [seen])
  intro d hd
  simp only [List.cons_append, List.nil_append, List.mem_cons, List.not_mem_nil, or_false] at hd
  obtain rfl | rfl | rfl := hd
  · exact ⟨rfl, hclose _ rfl⟩
  · exact ⟨rfl, hclose _ rfl⟩
  · exact ⟨rfl, hclose _ rfl⟩

end X2Navigation.TagPoseSettling
