import X2Navigation.Odin.FailClosed

/-! Readiness is exact. Only a tick publishes a heartbeat, and it publishes `ready` if and
only if, after it, the local stream and the correction in force qualify: nothing else is
asked for, and nothing that happened before counts. -/

namespace X2Navigation.OdinLocalizationAdapter

open Traced

variable {K : Type*} [Field K] [LinearOrder K] {p : Params K} {E : Rigid.Eigen3d K} {c : Clocks}
  {s : State K} {trace : List (Occurrence K)}

theorem eq_status_of_mem_report {text : String} {ready : Bool}
    (h : .status text ready ∈ (report p c s).2) : ready = (text == "ready") := by
  have hstatus : ∀ reason : Reason, Occurrence.status text ready = status (K := K) reason →
      ready = (text == "ready") := by
    intro reason heq
    obtain ⟨rfl, rfl⟩ := Occurrence.status.inj heq
    rfl
  unfold report at h
  dsimp only at h
  split at h
  · split at h
    · simp only [List.mem_cons, reduceCtorEq, List.not_mem_nil, or_false, false_or] at h
      exact hstatus _ h
    · exact hstatus _ (List.mem_singleton.mp h)
  · exact hstatus _ (List.mem_singleton.mp h)

/-- The flag of a heartbeat says what its text says. -/
theorem Ends.flag {r : Callback K} (h : Ends p E c trace r) {text : String} {ready : Bool}
    (hmem : .status text ready ∈ r.2) : ready = (text == "ready") := by
  obtain ⟨s, before, -, -, hno, rfl | rfl⟩ := h
  · rw [Reaction.andThen_snd, List.mem_append] at hmem
    exact eq_status_of_mem_report (hmem.resolve_left (hno text ready))
  · rw [Reaction.andThen_snd, List.mem_append] at hmem
    have heq := List.mem_singleton.mp (hmem.resolve_left (hno text ready))
    obtain ⟨rfl, rfl⟩ := Occurrence.status.inj heq
    rfl

/-- The localization is ready after a tick: the local stream is, and so is the
correction in force. -/
structure Ready (p : Params K) (E : Rigid.Eigen3d K) (c : Clocks) (s : State K)
    (trace : List (Occurrence K)) : Prop where
  stream : LocalReady p E c trace
  correction : CorrectionReady p c s trace

/-- What a tick needs: the local stream, and a confirmed correction that is recent on both
clocks and younger than every invalidation and every earlier native correction. -/
structure Qualified (p : Params K) (E : Rigid.Eigen3d K) (c : Clocks) (s : State K)
    (trace : List (Occurrence K)) : Prop where
  stream : LocalReady p E c trace
  confirmed : p.alignmentConfirmed = true
  correction : ∃ before k after, trace = before ++ .corrected k :: after ∧ corrections after = [] ∧
    s.correction = k.transform ∧ s.correctionStamp = some k.stamp ∧
    elapsed c.steady k.receivedAt ≤ p.correctionTimeout ∧
    -p.futureTolerance ≤ elapsed c.ros k.stamp ∧ elapsed c.ros k.stamp ≤ p.correctionTimeout ∧
    (∀ boundary ∈ boundaries trace, boundary < k.stamp) ∧ ∀ stamp ∈ nativeStamps before, stamp < k.stamp

theorem Ready.qualified (h : Ready p E c s trace) : Qualified p E c s trace := by
  obtain ⟨hstream, hconfirmed, before, k, after, htrace, hafter, hcorrection, hstamp, hrecent, hlow,
    hhigh, hboundary, hnative, -⟩ := h
  exact ⟨hstream, hconfirmed, before, k, after, htrace, hafter, hcorrection, hstamp, hrecent, hlow,
    hhigh, hboundary, hnative⟩

theorem Ends.finds_ready {r : Callback K} (h : Ends p E c trace r) (hr : "ready" ∈ statuses r.2) :
    Ready p E c r.1 (trace ++ r.2) := by
  have hpost : Consistent p E c r.1 (trace ++ r.2) := h.keeps
  obtain ⟨s, before, hs, hcur, hready, rfl⟩ := h.ready hr
  obtain ⟨hprev, hconf, hdiff, stamp, received, hstamp, hrec, hfresh, hrecent⟩ :=
    readiness_eq_ready hready hs.baseline.reason
  rw [Reaction.andThen_fst, report_of_ready hready hstamp] at hpost ⊢
  exact ⟨hpost.localReady hcur hprev hdiff,
    hpost.correctionReady hconf hstamp rfl hrec hfresh hrecent⟩

theorem receiveTransform_no_status (tf : TransformStamped (Double K)) (text : String) (ready : Bool) :
    .status text ready ∉ (receiveTransform p E c tf s).2 := by
  unfold receiveTransform
  split
  · simp
  split
  · simp
  split
  · simp
  split
  · simp
  dsimp only
  split <;> simp

theorem receiveNativeTf_no_status (tfs : List (TransformStamped (Double K))) (text : String)
    (ready : Bool) : .status text ready ∉ (receiveNativeTf p E c tfs s).2 := by
  unfold receiveNativeTf
  induction tfs using List.reverseRecOn with
  | nil => simp
  | append_singleton tfs tf ih =>
    rw [List.foldl_append]
    simp only [List.foldl_cons, List.foldl_nil, Reaction.andThen_snd, List.mem_append, not_or]
    exact ⟨ih, receiveTransform_no_status tf text ready⟩

theorem receiveOdometry_no_status (input : Odometry (Double K)) (text : String) (ready : Bool) :
    .status text ready ∉ (receiveOdometry p E c input s).2 := by
  unfold receiveOdometry
  split
  · simp [invalidateLocal]
  split
  · simp
  split <;> simp [invalidateLocal]

/-- Only a tick publishes a heartbeat, and one that is true finds the localization ready. -/
theorem ready_of_status [IsStrictOrderedRing K] {e : Event K} {text : String}
    (h : Consistent p E e.clocks s trace) (hmem : .status text true ∈ (step p E e s).2) :
    Ready p E e.clocks (step p E e s).1 (trace ++ (step p E e s).2) := by
  obtain ⟨c, input⟩ := e
  cases input with
  | odometry message => exact absurd hmem (receiveOdometry_no_status message text true)
  | nativeTf tfs => exact absurd hmem (receiveNativeTf_no_status tfs text true)
  | tick tf =>
    have hends : Ends p E c trace (process p E c tf s) := process_ends tf h
    have htext : text = "ready" := by simpa using (hends.flag hmem).symm
    refine hends.finds_ready (List.mem_filterMap.mpr ⟨_, hmem, ?_⟩)
    rw [htext]
    rfl


/-! ### Nothing else is needed -/

/-- The velocity has a baseline exactly where two samples were accepted. -/
def Differentiated (s : State K) (trace : List (Occurrence K)) : Prop :=
  s.differentiated = true ↔ 2 ≤ (samplesSince trace).length

omit [Field K] [LinearOrder K] in
theorem Differentiated.append (h : Differentiated s trace) {s' : State K}
    {more : List (Occurrence K)} (hsame : s'.differentiated = s.differentiated)
    (hmore : more.foldl keepSample (samplesSince trace) = samplesSince trace) :
    Differentiated s' (trace ++ more) := by
  rw [Differentiated, hsame, samplesSince_append, hmore]
  exact h

omit [Field K] [LinearOrder K] in
theorem differentiated_invalidateLocal (reason : Reason) :
    Keeps Differentiated trace (invalidateLocal c reason s) := by
  simp [Keeps, Differentiated, invalidateLocal]

theorem differentiated_receiveTransform (tf : TransformStamped (Double K))
    (h : Differentiated s trace) : Keeps Differentiated trace (receiveTransform p E c tf s) := by
  unfold receiveTransform
  split
  · exact h.append rfl rfl
  split
  · exact h.append rfl rfl
  split
  · exact h.append rfl rfl
  split
  · exact h.append rfl rfl
  dsimp only
  split
  · exact h.append rfl rfl
  · exact h.append rfl rfl

theorem differentiated_receiveOdometry (input : Odometry (Double K)) (h : Differentiated s trace) :
    Keeps Differentiated trace (receiveOdometry p E c input s) := by
  unfold receiveOdometry
  split
  · exact differentiated_invalidateLocal _
  split
  · exact h.append rfl rfl
  split
  · exact differentiated_invalidateLocal _
  · exact h.append rfl rfl

theorem differentiated_expire (h : Differentiated s trace) :
    Keeps Differentiated trace (expire p c s) := by
  unfold expire
  split
  · have hgiven : Keeps Differentiated trace (invalidateLocal c .localOdometryNotAdvancing s) :=
      differentiated_invalidateLocal _
    simpa [Keeps, Differentiated] using hgiven
  · exact h.append rfl rfl

/-- The first sample is the baseline of the second. -/
theorem differentiated_accept {index : ℕ} {stamp : TimePoint} {pose : Rigid.Isometry3d K}
    {twist : Twist (Double K)} (h : Consistent p E c s trace) :
    Keeps Differentiated trace (accept p E c index stamp pose twist s) := by
  have hstamp := h.baseline.stamp
  simp only [Keeps, Differentiated, accept, samplesSince_append, List.foldl_cons, List.foldl_nil,
    keepSample, List.length_append, List.length_singleton, hstamp, Option.isSome_map]
  cases hsamples : samplesSince trace with
  | nil => simp
  | cons first rest => simp

/-- Everything but the publication is left as it was found. -/
theorem report_kept (trace : List (Occurrence K)) (s : State K) :
    (∃ stamp, (report p c s).1 = { s with publishedCorrectionStamp := stamp }) ∧
      (report p c s).2.foldl keepSample (samplesSince trace) = samplesSince trace ∧
      corrections (report p c s).2 = [] ∧ (readiness p c s).text ∈ statuses (report p c s).2 := by
  unfold report
  dsimp only
  split
  · split
    · exact ⟨⟨_, rfl⟩, rfl, rfl, by simp [statuses, status]⟩
    · exact ⟨⟨_, rfl⟩, rfl, rfl, by simp [statuses, status]⟩
  · exact ⟨⟨_, rfl⟩, rfl, rfl, by simp [statuses, status]⟩

/-- A tick reports its readiness, unless it has just given up the baseline. -/
def Reports (p : Params K) (E : Rigid.Eigen3d K) (c : Clocks) (trace : List (Occurrence K))
    (r : Callback K) : Prop :=
  (∃ s before, Consistent p E c s (trace ++ before) ∧ Differentiated s (trace ++ before) ∧
    r = Reaction.andThen (s, before) (report p c)) ∨
  r.1.differentiated = false ∧ samplesSince (trace ++ r.2) = []

theorem Reports.prepend {r : Callback K} {f : State K → Callback K}
    (h : Reports p E c (trace ++ r.2) (f r.1)) : Reports p E c trace (r.andThen f) := by
  rcases h with ⟨s, before, hc, hd, hr⟩ | ⟨hd, hnone⟩
  · refine .inl ⟨s, r.2 ++ before, by simpa using hc, by simpa using hd, ?_⟩
    simp [Reaction.andThen, hr]
  · exact .inr ⟨hd, by simpa [List.append_assoc] using hnone⟩

theorem process_reports [IsStrictOrderedRing K] (tf : RobotTf K) (h : Consistent p E c s trace)
    (hd : Differentiated s trace) : Reports p E c trace (process p E c tf s) := by
  refine Reports.prepend ?_
  obtain ⟨hc, -, -⟩ := expire_keeps h
  have hd : Differentiated (expire p c s).1 (trace ++ (expire p c s).2) := differentiated_expire hd
  generalize (expire p c s).1 = s at *
  generalize trace ++ (expire p c _).2 = trace at *
  split
  · exact .inr ⟨rfl, by simp [invalidateLocal, status]⟩
  · exact .inl ⟨_, _, invalidateLocal_keeps hc.watermarks (by simp),
      differentiated_invalidateLocal _, rfl⟩
  · next index candidate pose twist hsel =>
    obtain ⟨-, hatt⟩ := select_eq_some (Option.ite_none_right_eq_some.mp hsel).2
    exact .inl ⟨_, _, accept_keeps hc (attempt_accept hatt), differentiated_accept hc, rfl⟩
  · exact .inl ⟨s, [], by simpa using hc, by simpa using hd, by simp [Reaction.andThen]⟩

theorem Reports.differentiated {r : Callback K} (h : Reports p E c trace r) :
    Keeps Differentiated trace r := by
  rcases h with ⟨s, before, -, hd, rfl⟩ | ⟨hd, hnone⟩
  · obtain ⟨⟨stamp, hstate⟩, hsamples, -, -⟩ := report_kept (p := p) (c := c) (trace ++ before) s
    rw [Keeps, Reaction.andThen_fst, Reaction.andThen_snd, ← List.append_assoc, hstate]
    exact hd.append rfl hsamples
  · simp [Keeps, Differentiated, hd, hnone]

theorem run_differentiated [IsStrictOrderedRing K] (events : List (Event K)) (c : Clocks)
    (hc : (events.map Event.clocks ++ [c]).Pairwise (· ≤ ·)) :
    Consistent p E c (run p E events).1 (run p E events).2 ∧
      Differentiated (run p E events).1 (run p E events).2 := by
  refine @run_keeps _ _ _ _ _ _ _ (fun c s trace => Consistent p E c s trace ∧ Differentiated s trace) _
    (fun c => ⟨consistent_initial c, by simp [Differentiated, State.initial, samplesSince]⟩)
    (fun hle h => ⟨h.1.mono hle, h.2⟩) (fun e s trace h => ⟨step_keeps e h.1, ?_⟩) events c hc
  obtain ⟨hcons, hd⟩ := h
  unfold step
  cases e.input with
  | odometry message => exact differentiated_receiveOdometry message hd
  | nativeTf transforms =>
    exact keeps_foldl _ (fun tf _ _ h => differentiated_receiveTransform tf h) transforms hd
  | tick tf => exact (process_reports tf hcons hd).differentiated

theorem readiness_of {previous stamp received : TimePoint} (hprevious : s.previousStamp = some previous)
    (hconfirmed : p.alignmentConfirmed = true) (hstamp : s.correctionStamp = some stamp)
    (hfresh : fresh p c stamp p.correctionTimeout = true)
    (hreceived : s.correctionReceivedAt = some received)
    (hrecent : elapsed c.steady received ≤ p.correctionTimeout) (hd : s.differentiated = true) :
    readiness p c s = .ready := by
  simp [readiness, hprevious, hconfirmed, hstamp, hfresh, hreceived, hrecent, hd]

/-- What qualifies after a tick, the tick has found ready. -/
theorem Reports.ready {r : Callback K} (h : Reports p E c trace r)
    (hready : Qualified p E c r.1 (trace ++ r.2)) : "ready" ∈ statuses r.2 := by
  obtain ⟨hstream, hconfirmed, before', k, after, htrace, hafter, -, hstamp, hrecent, hlow, hhigh, -⟩ :=
    hready
  rcases h with ⟨s, before, hs, hd, rfl⟩ | ⟨-, hnone⟩
  · obtain ⟨⟨published, hstate⟩, hsamples, hcorrections, hstatus⟩ :=
      report_kept (p := p) (c := c) (trace ++ before) s
    rw [Reaction.andThen_snd, ← List.append_assoc] at htrace hstream
    rw [Reaction.andThen_fst, hstate] at hstamp
    have hkept : samplesSince (trace ++ before ++ (report p c s).2) = samplesSince (trace ++ before) := by
      rw [samplesSince_append, hsamples]
    have htwo : 2 ≤ (samplesSince (trace ++ before)).length := hkept ▸ hstream.two
    obtain ⟨newest, hnewest, -⟩ := hstream.newest
    have hprevious : s.previousStamp = some newest.stamp := by
      rw [hs.baseline.stamp, ← hkept, hnewest, Option.map_some]
    -- the report tells no correction, so the one in force was there before
    obtain ⟨⟨k', hk', -, -, hreceived⟩, -⟩ := hs.watermarks.inForce k.stamp hstamp
    have hlast : (corrections (trace ++ before)).getLast? = some k := by
      have hall := congrArg corrections htrace
      simp only [corrections_append, corrections_cons, hcorrections, hafter, List.append_nil,
        Occurrence.correction?, Option.toList_some] at hall
      rw [corrections_append, hall, List.getLast?_append_of_ne_nil _ (by simp), List.getLast?_singleton]
    obtain rfl : k' = k := Option.some.inj (hk'.symm.trans hlast)
    have hfound := readiness_of hprevious hconfirmed hstamp (fresh_iff.mpr ⟨hlow, hhigh⟩) hreceived
      hrecent (hd.mpr htwo)
    rw [hfound] at hstatus
    rw [Reaction.andThen_snd, statuses, List.filterMap_append]
    exact List.mem_append_right _ hstatus
  · have htwo := hstream.two
    simp [hnone] at htwo

/-- A tick publishes `ready` if and only if the localization qualifies after it. -/
theorem ready_iff_qualified [IsStrictOrderedRing K] (events : List (Event K)) (c : Clocks)
    (tf : RobotTf K) (hc : (events.map Event.clocks ++ [c]).Pairwise (· ≤ ·)) :
    "ready" ∈ statuses (process p E c tf (run p E events).1).2 ↔
      Qualified p E c (run p E (events ++ [⟨c, .tick tf⟩])).1
        (run p E (events ++ [⟨c, .tick tf⟩])).2 := by
  obtain ⟨hcons, hd⟩ := run_differentiated (p := p) (E := E) events c hc
  have hrun : run p E (events ++ [⟨c, .tick tf⟩]) =
      (run p E events).andThen (process p E c tf) := run_snoc _ _ _ _
  rw [hrun, Reaction.andThen_fst, Reaction.andThen_snd]
  exact ⟨fun h => ((process_ends tf hcons).finds_ready h).qualified,
    (process_reports tf hcons hd).ready⟩

end X2Navigation.OdinLocalizationAdapter
