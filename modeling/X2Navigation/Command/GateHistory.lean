import X2Navigation.Command.NavigationCommandGate

/-! The monitored gate implements its history specification exactly, however it
is polled. The gate follows an ideal cache that is never cleared by a read, up
to contents that could not be returned any more; what the ideal cache holds is
a statement about the calls alone. -/

namespace X2Navigation.NavigationCommandGate

open Guarded

variable {K : Type*} [Field K] [LinearOrder K]

/-! ### The history specification -/

namespace Call

def IsUpdate (e : Call K) : Prop := ∃ c u, e = .update c u

def IsUpdateRaw (e : Call K) : Prop := ∃ r v, e = .updateRaw r v

/-- A raw command that stops navigation: zero or not finite. -/
def StopsRaw (e : Call K) : Prop :=
  ∃ r v, e = .updateRaw r v ∧ (hasFiniteComponents r = false ∨ r = 0)

def IsBadUpdate (e : Call K) : Prop := ∃ c u, e = .update c u ∧ hasFiniteComponents c = false

/-- The time of a raw command. -/
def rawTime? : Call K → Option TimePoint
  | .updateRaw _ v => some v
  | _ => none

end Call

/-- What the calls so far must look like for `c` to be the command at `t`:
`update c` at time `u` is the last update, and the raw stream has been running
without a stop, a reset or a gap longer than `T` since before `u`. -/
def Supported (T : K) (calls : List (Call K)) (t : TimePoint) (c : Twist (Double K)) : Prop :=
  ∃ before u after, calls = before ++ .update c u :: after ∧
    (∀ e ∈ after, ¬ e.IsUpdate) ∧ hasFiniteComponents c = true ∧ Within T u t ∧
    (∀ e ∈ after, e ≠ .reset ∧ ¬ e.StopsRaw) ∧
    ∃ older r v since, before = older ++ .updateRaw r v :: since ∧
      (∀ e ∈ since, ¬ e.IsUpdateRaw) ∧ hasFiniteComponents r = true ∧ r ≠ 0 ∧ Within T v u ∧
      (∀ e ∈ since, e ≠ .reset ∧ ¬ e.IsBadUpdate) ∧
      List.IsChain (Within T) (v :: (after.filterMap Call.rawTime? ++ [t]))

/-! ### The ideal cache -/

/-- Polling is not a signal: the ideal cache does not see it. -/
def Call.signal? : Call K → Option (Signal (Twist (Double K)) TimePoint)
  | .reset => some .halt
  | .updateRaw r v => some (if !hasFiniteComponents r || r = 0 then .halt else .beat v)
  | .update c u => some (if hasFiniteComponents c then .store c u else .halt)
  | .commandAt _ => none

def signals (calls : List (Call K)) : List (Signal (Twist (Double K)) TimePoint) :=
  calls.filterMap Call.signal?

/-- The gate read as a cache guarded by the raw stream. -/
def cache (g : NavigationCommandGate K) : Cache (Twist (Double K)) TimePoint :=
  ⟨g.rawReceivedAt, g.receivedAt.map (g.command, ·)⟩

theorem signal?_eq_beat {e : Call K} {v : TimePoint} :
    e.signal? = some (.beat v) ↔
      ∃ r, e = .updateRaw r v ∧ hasFiniteComponents r = true ∧ r ≠ 0 := by
  cases e <;> simp [Call.signal?] <;> grind

theorem signal?_eq_store {e : Call K} {c : Twist (Double K)} {u : TimePoint} :
    e.signal? = some (.store c u) ↔ e = .update c u ∧ hasFiniteComponents c = true := by
  cases e <;> simp [Call.signal?] <;> grind


/-- No receipt time of the gate lies after `now`. -/
def Settled (g : NavigationCommandGate K) (now : TimePoint) : Prop :=
  (∀ r ∈ g.rawReceivedAt, r ≤ now) ∧ ∀ r ∈ g.receivedAt, r ≤ now

theorem fresh_iff {T : K} (hT : 0 < T) {received : Option TimePoint} {now : TimePoint}
    (h : ∀ r ∈ received, r ≤ now) :
    fresh received now (.finite T) = true ↔ ∃ r, received = some r ∧ Within T r now := by
  cases received with
  | none => simp [fresh]
  | some r => simp [fresh, hT, h r rfl, Within]

theorem settled_apply {g : NavigationCommandGate K} {now : TimePoint} {timeout : Double K}
    (hg : g.Settled now) {e : Call K} {t : TimePoint} (hle : now ≤ t) (ht : ∀ s ∈ e.time?, s ≤ t) :
    (g.apply timeout e).Settled t := by
  obtain ⟨h1, h2⟩ := hg
  have hraw : ∀ r ∈ g.rawReceivedAt, r ≤ t := fun r hr => (h1 r hr).trans hle
  have hrec : ∀ r ∈ g.receivedAt, r ≤ t := fun r hr => (h2 r hr).trans hle
  cases e <;> simp only [Call.time?, Option.mem_def, Option.some.injEq, forall_eq'] at ht
  · simp [Settled, apply, reset, clear, new]
  · unfold Settled apply updateRaw
    grind [clear, new]
  · unfold Settled apply update
    grind [clear, new]
  · unfold Settled apply commandAt
    grind [clear, new]

/-- One call does to the gate what its signal does to a cache, except that it
may drop contents that are already too old. -/
theorem cache_apply_lags {T : K} (hT : 0 < T) {g : NavigationCommandGate K} {t : TimePoint}
    (hm : g.monitorRaw = true) (hg : g.Settled t) (e : Call K) (ht : ∀ s ∈ e.time?, s = t) :
    Lags (Within T) (Within T) t (g.apply (.finite T) e).cache
      (e.signal?.elim g.cache (g.cache.step (Within T))) := by
  have alive : fresh g.rawReceivedAt t (.finite T) = true ↔ g.cache.Alive (Within T) t :=
    fresh_iff hT hg.1
  cases e with
  | reset => exact Lags.refl t _
  | updateRaw r v =>
    obtain rfl : v = t := by simpa [Call.time?] using ht
    by_cases hr : (!hasFiniteComponents r || decide (r = 0)) = true
    · simp only [apply, updateRaw, Call.signal?, hr, if_true, Option.elim]
      exact Lags.refl v _
    · simp only [apply, updateRaw, Call.signal?, hr, if_false, Option.elim, Bool.false_eq_true]
      by_cases ha : g.cache.Alive (Within T) v
      · simp only [alive.mpr ha, if_true, Cache.step, ha]
        exact Lags.refl v _
      · simp only [mt alive.mp ha, if_false, Cache.step, ha, Bool.false_eq_true]
        exact Lags.refl v _
  | update c u =>
    obtain rfl : u = t := by simpa [Call.time?] using ht
    by_cases hc : hasFiniteComponents c = true
    · simp only [apply, update, Call.signal?, hc, hm, if_true, Option.elim, Bool.not_true,
        Bool.false_or, Bool.true_and]
      by_cases ha : g.cache.Alive (Within T) u
      · simp only [alive.mpr ha, Bool.not_true, if_false, Cache.step, ha, if_true, Bool.false_eq_true]
        exact Lags.refl u _
      · simp only [Bool.eq_false_iff.mpr (mt alive.mp ha), Bool.not_false, if_true, Cache.step, ha,
          if_false]
        exact ⟨.inr ⟨rfl, ha⟩, .inl rfl⟩
    · simp only [apply, update, Call.signal?, hc, Option.elim, Bool.not_false, Bool.true_or, if_true]
      exact Lags.refl u _
  | commandAt t =>
    obtain rfl : t = _ := by simpa [Call.time?] using ht
    simp only [apply, commandAt, Call.signal?, hm, Option.elim, Bool.true_and]
    by_cases ha : g.cache.Alive (Within T) t
    · simp only [alive.mpr ha, Bool.not_true, if_false, Bool.false_eq_true]
      by_cases hr : fresh g.receivedAt t (.finite T) = true
      · simp only [hr, Bool.not_true, if_false, Bool.false_eq_true]
        exact Lags.refl t _
      · simp only [hr, Bool.not_false, if_true]
        refine ⟨.inl rfl, .inr ⟨rfl, .inr ?_⟩⟩
        intro e he hn
        obtain ⟨u, hu, rfl⟩ : ∃ u, g.receivedAt = some u ∧ (g.command, u) = e := by
          simpa [cache] using he
        exact hr ((fresh_iff hT hg.2).mpr ⟨u, hu, hn⟩)
    · simp only [Bool.eq_false_iff.mpr (mt alive.mp ha), Bool.not_false, if_true]
      exact ⟨.inr ⟨rfl, ha⟩, .inr ⟨rfl, .inl ha⟩⟩

@[simp] theorem monitorRaw_apply (g : NavigationCommandGate K) (timeout : Double K) (e : Call K) :
    (g.apply timeout e).monitorRaw = g.monitorRaw := by
  cases e <;> simp only [apply, reset, updateRaw, update, commandAt, clear, new] <;> grind

/-- The command a gate holds was given to it. -/
theorem command_apply (g : NavigationCommandGate K) (timeout : Double K) (e : Call K) :
    (g.apply timeout e).command = 0 ∨ (g.apply timeout e).command = g.command ∨
      ∃ now, e = .update (g.apply timeout e).command now := by
  cases e with
  | reset => exact .inl rfl
  | updateRaw r now =>
    unfold apply updateRaw
    grind [clear, new]
  | update c now =>
    simp only [apply, update]
    split
    · exact .inl rfl
    · exact .inr (.inr ⟨now, rfl⟩)
  | commandAt now =>
    unfold apply commandAt
    grind [clear, new]

theorem run_snoc (g : NavigationCommandGate K) (timeout : Double K) (calls : List (Call K))
    (e : Call K) : g.run timeout (calls ++ [e]) = (g.run timeout calls).apply timeout e := by
  simp [run]

theorem run_append (g : NavigationCommandGate K) (timeout : Double K) (calls calls' : List (Call K)) :
    g.run timeout (calls ++ calls') = (g.run timeout calls).run timeout calls' := List.foldl_append

@[simp] theorem monitorRaw_run (g : NavigationCommandGate K) (timeout : Double K)
    (calls : List (Call K)) : (g.run timeout calls).monitorRaw = g.monitorRaw := by
  induction calls using List.reverseRecOn with
  | nil => rfl
  | append_singleton calls e ih => rw [run_snoc, monitorRaw_apply, ih]

theorem command_run (monitorRaw : Bool) (timeout : Double K) (calls : List (Call K)) :
    ((new monitorRaw).run timeout calls).command = 0 ∨
      ∃ now, .update ((new monitorRaw).run timeout calls).command now ∈ calls := by
  induction calls using List.reverseRecOn with
  | nil => exact .inl rfl
  | append_singleton calls e ih =>
    rw [run_snoc]
    obtain hzero | hkept | ⟨now, heq⟩ := command_apply ((new monitorRaw).run timeout calls) timeout e
    · exact .inl hzero
    · rw [hkept]
      obtain hzero | ⟨now, hmem⟩ := ih
      · exact .inl hzero
      · exact .inr ⟨now, List.mem_append_left _ hmem⟩
    · exact .inr ⟨now, by rw [← heq]; simp⟩

theorem commandAt_eq_command (g : NavigationCommandGate K) (timeout : Double K) (now : TimePoint) :
    (g.commandAt now timeout).2 = 0 ∨ (g.commandAt now timeout).2 = g.command := by
  unfold commandAt
  grind

/-- The value read is the one the gate offers as a cache, or zero. -/
theorem commandAt_snd {T : K} (hT : 0 < T) {g : NavigationCommandGate K} {t : TimePoint}
    (hm : g.monitorRaw = true) (hg : g.Settled t) :
    (∀ c, g.cache.Offers (Within T) (Within T) t c → (g.commandAt t (.finite T)).2 = c) ∧
      ((∀ c, ¬ g.cache.Offers (Within T) (Within T) t c) → (g.commandAt t (.finite T)).2 = 0) := by
  have alive : fresh g.rawReceivedAt t (.finite T) = true ↔ g.cache.Alive (Within T) t :=
    fresh_iff hT hg.1
  have recent := fresh_iff hT hg.2
  have offers : ∀ c, g.cache.Offers (Within T) (Within T) t c ↔
      fresh g.rawReceivedAt t (.finite T) = true ∧ fresh g.receivedAt t (.finite T) = true ∧
        g.command = c := by
    intro c
    rw [alive, recent]
    simp only [Cache.Offers, show g.cache.entry = g.receivedAt.map (g.command, ·) from rfl,
      Option.map_eq_some_iff, Prod.mk.injEq]
    grind
  simp only [offers, commandAt, hm]
  grind

/-- The gate after a run holds a lagging copy of the ideal cache of its signals. -/
theorem run_lags [IsStrictOrderedRing K] {T : K} (hT : 0 < T) {calls : List (Call K)}
    {now : TimePoint} (h : Nondecreasing calls now) :
    ((new true).run (.finite T) calls).monitorRaw = true ∧
      ((new true).run (.finite T) calls).Settled now ∧
      Lags (Within T) (Within T) now ((new true).run (.finite T) calls).cache
        (Cache.run (Within T) (signals calls)) := by
  have hn : Fading (Within T) := within_antitone
  have hstep : ∀ (e : Call K) (g : NavigationCommandGate K) k t t',
      (g.monitorRaw = true ∧ g.Settled t ∧ k = g.cache) →
      (t :: (e.time?.toList ++ [t'])).Pairwise (· ≤ ·) →
      ∃ s k', t ≤ s ∧ s ≤ t' ∧ At e.signal? s ∧
        ((g.apply (.finite T) e).monitorRaw = true ∧ (g.apply (.finite T) e).Settled t' ∧
          k' = (g.apply (.finite T) e).cache) ∧
        Lags (Within T) (Within T) s k' (e.signal?.elim k (k.step (Within T))) := by
    rintro e g _ t t' ⟨hm, hg, rfl⟩ hp
    cases ht : e.time? with
    | none =>
      have hle : t ≤ t' := by simpa [ht] using hp
      refine ⟨t, _, le_rfl, hle, ?_, ⟨by simpa using hm, settled_apply hg hle (by simp [ht]), rfl⟩,
        cache_apply_lags hT hm hg e (by simp [ht])⟩
      cases e <;> simp [Call.time?] at ht
      exact ⟨by simp [Call.signal?], by simp [Call.signal?]⟩
    | some s =>
      obtain ⟨⟨hts, -⟩, hst⟩ : (t ≤ s ∧ t ≤ t') ∧ s ≤ t' := by simpa [ht] using hp
      have hg' : g.Settled s :=
        ⟨fun r hr => (hg.1 r hr).trans hts, fun r hr => (hg.2 r hr).trans hts⟩
      refine ⟨s, _, hts, hst, ⟨fun v hv => ?_, fun c u hu => ?_⟩, ⟨by simpa using hm,
        settled_apply hg' hst (by simpa [ht] using hst), rfl⟩,
        cache_apply_lags hT hm hg' e (by simp [ht])⟩
      · obtain ⟨r, rfl, -⟩ := signal?_eq_beat.mp hv
        simpa [Call.time?] using ht
      · obtain ⟨rfl, -⟩ := signal?_eq_store.mp hu
        simpa [Call.time?] using ht
  obtain ⟨k, ⟨hm, hg, rfl⟩, hl⟩ := run_follows hn hn Call.signal? (·.time?.toList)
    (apply (.finite T)) (fun t g k => g.monitorRaw = true ∧ g.Settled t ∧ k = g.cache)
    (g := new true) (fun t => ⟨rfl, by simp [Settled, new], rfl⟩) hstep calls now
    (by simpa [Nondecreasing, List.filterMap_eq_flatMap_toList] using h)
  exact ⟨hm, hg, hl⟩

/-! ### The history of the calls is the history of the signals -/

/-- The raw times of calls that all signal beats or nothing. -/
theorem filterMap_rawTime? {calls : List (Call K)} (h : ∀ e ∈ calls, ¬ e.StopsRaw) :
    calls.filterMap Call.rawTime? = calls.filterMap (beatTime? Call.signal?) := by
  refine List.filterMap_congr fun e he => ?_
  cases e with
  | updateRaw r v =>
    obtain ⟨hf, h0⟩ : hasFiniteComponents r = true ∧ r ≠ 0 := by
      simpa [Call.StopsRaw] using h _ he
    simp [beatTime?, Call.signal?, Call.rawTime?, hf, h0]
  | update c u => by_cases hc : hasFiniteComponents c = true <;>
      simp [beatTime?, Call.signal?, Call.rawTime?, hc]
  | _ => rfl

/-- A call signals a beat or nothing unless it updates, resets or stops. -/
theorem quiet_iff (e : Call K) :
    (∀ y, e.signal? = some y → ∃ w, y = .beat w) ↔ ¬ e.IsUpdate ∧ e ≠ .reset ∧ ¬ e.StopsRaw := by
  cases e with
  | reset => simp [Call.signal?]
  | commandAt now => simp [Call.signal?, Call.IsUpdate, Call.StopsRaw]
  | update c u => by_cases hc : hasFiniteComponents c = true <;>
      simp [Call.signal?, Call.IsUpdate, hc]
  | updateRaw r v => by_cases hr : hasFiniteComponents r = false ∨ r = 0 <;>
      simp_all [Call.signal?, Call.IsUpdate, Call.StopsRaw]

theorem beating_signals_iff (calls : List (Call K)) (v : TimePoint) :
    Beating (signals calls) v ↔ ∃ older r since, calls = older ++ .updateRaw r v :: since ∧
      (∀ e ∈ since, ¬ e.IsUpdateRaw) ∧ hasFiniteComponents r = true ∧ r ≠ 0 ∧
      ∀ e ∈ since, e ≠ .reset ∧ ¬ e.IsBadUpdate := by
  have silent : ∀ e : Call K, (∀ w, e.signal? ≠ some (.beat w) ∧ e.signal? ≠ some .halt) ↔
      ¬ e.IsUpdateRaw ∧ e ≠ .reset ∧ ¬ e.IsBadUpdate := by
    intro e
    cases e with
    | updateRaw r v => by_cases hr : hasFiniteComponents r = false ∨ r = 0 <;>
        simp_all [Call.signal?, Call.IsUpdateRaw]
    | update c u => by_cases hc : hasFiniteComponents c = true <;>
        simp [Call.signal?, Call.IsUpdateRaw, Call.IsBadUpdate, hc]
    | _ => simp [Call.signal?, Call.IsUpdateRaw, Call.IsBadUpdate]
  unfold signals
  rw [beating_filterMap]
  simp only [signal?_eq_beat, silent]
  constructor
  · rintro ⟨older, e, since, rfl, ⟨r, rfl, hf, h0⟩, hq⟩
    exact ⟨older, r, since, rfl, fun e he => (hq e he).1, hf, h0, fun e he => (hq e he).2⟩
  · rintro ⟨older, r, since, rfl, hraw, hf, h0, hq⟩
    exact ⟨older, _, since, rfl, ⟨r, rfl, hf, h0⟩, fun e he => ⟨hraw e he, hq e he⟩⟩

theorem supported_iff_held (T : K) (calls : List (Call K)) (t : TimePoint)
    (c : Twist (Double K)) :
    Supported T calls t c ↔ ∃ u, Held (Within T) (signals calls) t c u ∧ Within T u t := by
  unfold signals
  simp only [held_filterMap, signal?_eq_store, quiet_iff]
  constructor
  · rintro ⟨before, u, after, rfl, hlast, hc, hu, hrun, older, r, v, since, hbefore, hraw, hf, h0,
      hv, hq, hchain⟩
    rw [filterMap_rawTime? fun e he => (hrun e he).2] at hchain
    exact ⟨u, ⟨before, _, after, v, rfl, ⟨rfl, hc⟩, fun e he => ⟨hlast e he, hrun e he⟩,
      (beating_signals_iff before v).mpr ⟨older, r, since, hbefore, hraw, hf, h0, hq⟩, hv, hchain⟩, hu⟩
  · rintro ⟨u, ⟨before, _, after, v, rfl, ⟨rfl, hc⟩, hrun, hb, hv, hchain⟩, hu⟩
    obtain ⟨older, r, since, hbefore, hraw, hf, h0, hq⟩ := (beating_signals_iff before v).mp hb
    rw [← filterMap_rawTime? fun e he => (hrun e he).2.2] at hchain
    exact ⟨before, u, after, rfl, fun e he => (hrun e he).1, hc, hu, fun e he => (hrun e he).2,
      older, r, v, since, hbefore, hraw, hf, h0, hv, hq, hchain⟩

variable [IsStrictOrderedRing K]

/-- The gate offers exactly what the history supports. -/
theorem run_offers_iff {T : K} (hT : 0 < T) {calls : List (Call K)} {t : TimePoint}
    (h : Nondecreasing calls t) (c : Twist (Double K)) :
    ((new true).run (.finite T) calls).cache.Offers (Within T) (Within T) t c ↔
      Supported T calls t c := by
  have hn : Fading (Within T) := within_antitone
  rw [(run_lags hT h).2.2.offers_iff hn hn le_rfl, supported_iff_held]
  simp only [Cache.Offers, ← run_entry_iff]
  grind

/-- The command read at `t` is the supported one, and zero where there is none. -/
theorem commandAt_of_history {T : K} (hT : 0 < T) {calls : List (Call K)} {t : TimePoint}
    (h : Nondecreasing calls t) :
    (∀ c, Supported T calls t c →
      (((new true).run (.finite T) calls).commandAt t (.finite T)).2 = c) ∧
    ((∀ c, ¬ Supported T calls t c) →
      (((new true).run (.finite T) calls).commandAt t (.finite T)).2 = 0) := by
  obtain ⟨hm, hg, -⟩ := run_lags hT h
  simpa only [run_offers_iff hT h] using commandAt_snd hT hm hg

omit [IsStrictOrderedRing K] in
theorem signals_filter_not_isPoll (calls : List (Call K)) :
    signals (calls.filter (!·.isPoll)) = signals calls := by
  induction calls with
  | nil => rfl
  | cons e calls ih =>
    unfold signals at *
    cases e with
    | commandAt now => rw [List.filter_cons_of_neg (by simp [Call.isPoll]), ih]; rfl
    | _ => rw [List.filter_cons_of_pos rfl, List.filterMap_cons, List.filterMap_cons, ih]

/-- The gate implements its history specification exactly, and two runs with the
same inputs agree however they were polled. -/
theorem commandAt_implements_history {T : K} (hT : 0 < T) (calls : List (Call K)) (t : TimePoint)
    (h : Nondecreasing calls t) :
    (∀ c, Supported T calls t c →
      (((new true).run (.finite T) calls).commandAt t (.finite T)).2 = c) ∧
    ((∀ c, ¬ Supported T calls t c) →
      (((new true).run (.finite T) calls).commandAt t (.finite T)).2 = 0) ∧
    ∀ calls', calls'.filter (!·.isPoll) = calls.filter (!·.isPoll) → Nondecreasing calls' t →
      (((new true).run (.finite T) calls').commandAt t (.finite T)).2 =
        (((new true).run (.finite T) calls).commandAt t (.finite T)).2 := by
  obtain ⟨hs, hz⟩ := commandAt_of_history hT h
  refine ⟨hs, hz, fun calls' hf h' => ?_⟩
  obtain ⟨hs', hz'⟩ := commandAt_of_history hT h'
  have hsig : signals calls' = signals calls := by
    rw [← signals_filter_not_isPoll calls', hf, signals_filter_not_isPoll]
  have same : ∀ c, Supported T calls' t c ↔ Supported T calls t c := by
    intro c
    rw [supported_iff_held, supported_iff_held, hsig]
  by_cases hc : ∃ c, Supported T calls t c
  · obtain ⟨c, hc⟩ := hc
    rw [hs c hc, hs' c ((same c).mpr hc)]
  · simp only [not_exists] at hc
    rw [hz hc, hz' fun c => mt (same c).mp (hc c)]

/-- A moving controller stream, polled once on the way. -/
theorem commandAt_implements_history_moving :
    (((new true).run (.finite (1 : ℚ)) [.updateRaw ⟨⟨.finite 1, 0, 0⟩, 0⟩ 0,
      .update ⟨⟨.finite (1 / 2), 0, 0⟩, 0⟩ 10, .commandAt 15]).commandAt 20 (.finite 1)).2 =
        (⟨⟨.finite (1 / 2), 0, 0⟩, 0⟩ : Twist (Double ℚ)) := by
  refine (commandAt_implements_history (by decide) _ 20 (by simp [Nondecreasing, Call.time?])).1 _
    ⟨[.updateRaw ⟨⟨.finite 1, 0, 0⟩, 0⟩ 0], 10, [.commandAt 15], rfl, ?_, rfl, by decide +kernel, ?_,
      [], ⟨⟨.finite 1, 0, 0⟩, 0⟩, 0, [], rfl, by simp, rfl, by decide, by decide +kernel, by simp,
      by decide +kernel⟩
  · simp [Call.IsUpdate]
  · simp [Call.StopsRaw]

end X2Navigation.NavigationCommandGate
