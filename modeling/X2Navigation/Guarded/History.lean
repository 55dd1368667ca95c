import Mathlib.Data.List.Chain
import Mathlib.Data.List.Induction
import Mathlib.Order.Basic

/-! A cached value that is only as good as the stream guarding it. The guard
beats; a value stored while the guard is alive stays usable as long as every
later beat follows its predecessor closely enough. The cache keeps one beat and
one entry. Proved: its contents are exactly what the whole history of signals
says, and an implementation that drops dead contents early, whenever it happens
to look, cannot be told apart from one that never does. Closeness in time is an
arbitrary relation `near`; only the second result needs it to be antitone. A
program that reads its own events as signals is followed by `run_follows`. -/

namespace X2Navigation.Guarded

variable {α τ : Type*}

/-- `beat` is one message of the guarding stream and `halt` ends that stream;
`store` offers a value and `spoil` withdraws it. -/
inductive Signal (α τ : Type*)
  | beat (v : τ)
  | halt
  | store (c : α) (u : τ)
  | spoil

structure Cache (α τ : Type*) where
  guard : Option τ
  entry : Option (α × τ)

namespace Cache

def empty : Cache α τ := ⟨none, none⟩

section
variable (near : τ → τ → Prop)

/-- The guard is alive at `t`. -/
def Alive (s : Cache α τ) (t : τ) : Prop := ∃ v ∈ s.guard, near v t

instance [DecidableRel near] (s : Cache α τ) (t : τ) : Decidable (s.Alive near t) :=
  inferInstanceAs (Decidable (∃ v ∈ s.guard, near v t))

theorem alive_iff (s : Cache α τ) (t : τ) : s.Alive near t ↔ ∃ v, s.guard = some v ∧ near v t :=
  Iff.rfl

@[simp] theorem not_alive_none (e : Option (α × τ)) (t : τ) :
    ¬ (⟨none, e⟩ : Cache α τ).Alive near t := by
  simp [Alive]

@[simp] theorem alive_some (v : τ) (e : Option (α × τ)) (t : τ) :
    (⟨some v, e⟩ : Cache α τ).Alive near t ↔ near v t := by
  simp [Alive]

variable [DecidableRel near]

def step (s : Cache α τ) : Signal α τ → Cache α τ
  | .beat v => ⟨some v, if s.Alive near v then s.entry else none⟩
  | .halt => ⟨none, none⟩
  | .store c u => ⟨s.guard, if s.Alive near u then some (c, u) else none⟩
  | .spoil => ⟨s.guard, none⟩

def run (signals : List (Signal α τ)) : Cache α τ := signals.foldl (step near) empty

@[simp] theorem run_nil : run near ([] : List (Signal α τ)) = empty := rfl

@[simp] theorem run_snoc (signals : List (Signal α τ)) (x : Signal α τ) :
    run near (signals ++ [x]) = (run near signals).step near x := by
  simp [run]

end

end Cache

/-! ### What the history says -/

/-- `v` is the last beat, and no halt came after it. -/
def Beating (signals : List (Signal α τ)) (v : τ) : Prop :=
  ∃ older since, signals = older ++ .beat v :: since ∧
    ∀ x ∈ since, ∀ w, x ≠ .beat w ∧ x ≠ .halt

/-- `c`, stored at `u` under a live guard, is still held at `t`: since then there
were only beats, and the beats up to `t` have no gap. -/
def Held (near : τ → τ → Prop) (signals : List (Signal α τ)) (t : τ) (c : α) (u : τ) : Prop :=
  ∃ before v beats, signals = before ++ .store c u :: beats.map .beat ∧
    Beating before v ∧ near v u ∧ List.IsChain near (v :: (beats ++ [t]))

theorem not_beating_nil (v : τ) : ¬ Beating ([] : List (Signal α τ)) v := by
  rintro ⟨older, since, h, _⟩
  simp at h

theorem beating_snoc_beat (signals : List (Signal α τ)) (v w : τ) :
    Beating (signals ++ [.beat w]) v ↔ v = w := by
  constructor
  · rintro ⟨older, since, h, hq⟩
    rcases List.eq_nil_or_concat since with rfl | ⟨since, x, rfl⟩
    · simpa using (List.append_inj' h rfl).2.symm
    · rw [List.concat_eq_append, ← List.cons_append, ← List.append_assoc] at h
      obtain rfl : x = .beat w := by simpa using (List.append_inj' h rfl).2.symm
      exact absurd rfl (hq _ (by simp) w).1
  · rintro rfl
    exact ⟨signals, [], rfl, by simp⟩

theorem not_beating_snoc_halt (signals : List (Signal α τ)) (v : τ) :
    ¬ Beating (signals ++ [.halt]) v := by
  rintro ⟨older, since, h, hq⟩
  rcases List.eq_nil_or_concat since with rfl | ⟨since, x, rfl⟩
  · simpa using (List.append_inj' h rfl).2
  · rw [List.concat_eq_append, ← List.cons_append, ← List.append_assoc] at h
    obtain rfl : x = .halt := by simpa using (List.append_inj' h rfl).2.symm
    exact (hq _ (by simp) v).2 rfl

/-- Stores and withdrawals leave the guarding stream alone. -/
theorem beating_snoc_other (signals : List (Signal α τ)) (x : Signal α τ) (v : τ)
    (hx : ∀ w, x ≠ .beat w ∧ x ≠ .halt) :
    Beating (signals ++ [x]) v ↔ Beating signals v := by
  constructor
  · rintro ⟨older, since, h, hq⟩
    rcases List.eq_nil_or_concat since with rfl | ⟨since, y, rfl⟩
    · exact absurd (by simpa using (List.append_inj' h rfl).2) (hx v).1
    · rw [List.concat_eq_append, ← List.cons_append, ← List.append_assoc] at h
      exact ⟨older, since, (List.append_inj' h rfl).1, fun y hy => hq y (by simp [hy])⟩
  · rintro ⟨older, since, rfl, hq⟩
    refine ⟨older, since ++ [x], by simp, ?_⟩
    intro y hy
    rcases List.mem_append.mp hy with hy | hy
    · exact hq y hy
    · rw [List.mem_singleton.mp hy]; exact hx

section
variable {near : τ → τ → Prop}

theorem not_held_nil (t u : τ) (c : α) : ¬ Held near [] t c u := by
  rintro ⟨before, v, beats, h, _⟩
  simp at h

theorem held_snoc_beat (signals : List (Signal α τ)) (t u w : τ) (c : α) :
    Held near (signals ++ [.beat w]) t c u ↔ Held near signals w c u ∧ near w t := by
  have chain : ∀ (v : τ) (beats : List τ), List.IsChain near (v :: (beats ++ [w] ++ [t])) ↔
      List.IsChain near (v :: (beats ++ [w])) ∧ near w t := by
    intro v beats
    rw [← List.cons_append, ← List.cons_append, List.isChain_append, List.getLast?_concat]
    simp
  constructor
  · rintro ⟨before, v, beats, h, hb, hu, hc⟩
    rcases List.eq_nil_or_concat beats with rfl | ⟨beats, x, rfl⟩
    · exact absurd (List.append_inj' h rfl).2 (by simp)
    · rw [List.concat_eq_append, List.map_append, ← List.cons_append, ← List.append_assoc] at h
      obtain ⟨rfl, hx⟩ := List.append_inj' h rfl
      obtain rfl : w = x := by simpa using hx
      rw [List.concat_eq_append, chain] at hc
      exact ⟨⟨before, v, beats, rfl, hb, hu, hc.1⟩, hc.2⟩
  · rintro ⟨⟨before, v, beats, rfl, hb, hu, hc⟩, ht⟩
    exact ⟨before, v, beats ++ [w], by simp, hb, hu, (chain v beats).mpr ⟨hc, ht⟩⟩

theorem held_snoc_store (signals : List (Signal α τ)) (t u w : τ) (c d : α) :
    Held near (signals ++ [.store d w]) t c u ↔
      c = d ∧ u = w ∧ ∃ v, Beating signals v ∧ near v w ∧ near v t := by
  constructor
  · rintro ⟨before, v, beats, h, hb, hu, hc⟩
    rcases List.eq_nil_or_concat beats with rfl | ⟨beats, x, rfl⟩
    · obtain ⟨rfl, h⟩ := List.append_inj' h rfl
      obtain ⟨rfl, rfl⟩ : d = c ∧ w = u := by simpa using h
      exact ⟨rfl, rfl, v, hb, hu, by simpa using hc⟩
    · rw [List.concat_eq_append, List.map_append, ← List.cons_append, ← List.append_assoc] at h
      exact absurd (List.append_inj' h rfl).2 (by simp)
  · rintro ⟨rfl, rfl, v, hb, hu, ht⟩
    exact ⟨signals, v, [], rfl, hb, hu, by simpa using ht⟩

theorem not_held_snoc (signals : List (Signal α τ)) (t u : τ) (c : α) (x : Signal α τ)
    (hx : x = .halt ∨ x = .spoil) : ¬ Held near (signals ++ [x]) t c u := by
  rintro ⟨before, v, beats, h, hb, hu, hc⟩
  rcases List.eq_nil_or_concat beats with rfl | ⟨beats, y, rfl⟩
  · have h := (List.append_inj' h rfl).2
    rcases hx with rfl | rfl <;> simp at h
  · rw [List.concat_eq_append, List.map_append, ← List.cons_append, ← List.append_assoc] at h
    have h := (List.append_inj' h rfl).2
    rcases hx with rfl | rfl <;> simp at h

variable [DecidableRel near]

theorem run_guard_iff (signals : List (Signal α τ)) (v : τ) :
    (Cache.run near signals).guard = some v ↔ Beating signals v := by
  induction signals using List.reverseRecOn with
  | nil => simp [Cache.empty, not_beating_nil]
  | append_singleton signals x ih =>
    cases x with
    | beat w => simp [Cache.step, beating_snoc_beat, eq_comm]
    | halt => simp [Cache.step, not_beating_snoc_halt]
    | store c u => simpa [Cache.step, beating_snoc_other] using ih
    | spoil => simpa [Cache.step, beating_snoc_other] using ih

/-- A live entry of the cache is exactly a value the history holds. -/
theorem run_entry_iff (signals : List (Signal α τ)) (t u : τ) (c : α) :
    ((Cache.run near signals).Alive near t ∧ (Cache.run near signals).entry = some (c, u)) ↔
      Held near signals t c u := by
  induction signals using List.reverseRecOn generalizing t with
  | nil => simp [Cache.empty, not_held_nil]
  | append_singleton signals x ih =>
    cases x with
    | beat w =>
      rw [held_snoc_beat, ← ih]
      by_cases hw : (Cache.run near signals).Alive near w <;> simp [Cache.step, hw, and_comm]
    | halt => simp [Cache.step, not_held_snoc]
    | store d w =>
      have hg : ((Cache.run near signals).step near (.store d w)).Alive near t ↔
          (Cache.run near signals).Alive near t := Iff.rfl
      rw [held_snoc_store, Cache.run_snoc, hg, Cache.alive_iff]
      simp only [Cache.step, ← @run_guard_iff _ _ near]
      constructor
      · rintro ⟨⟨v, hv, ht⟩, he⟩
        split at he
        · next hw =>
          obtain ⟨v', hv', hw⟩ := hw
          obtain rfl : v = v' := Option.some.inj (hv.symm.trans hv')
          obtain ⟨rfl, rfl⟩ : d = c ∧ w = u := by simpa using he
          exact ⟨rfl, rfl, v, hv, hw, ht⟩
        · simp at he
      · rintro ⟨rfl, rfl, v, hv, hw, ht⟩
        exact ⟨⟨v, hv, ht⟩, if_pos ⟨v, hv, hw⟩⟩
    | spoil => simp [Cache.step, not_held_snoc]

end

/-! ### Events read as signals -/

section Events
variable {ε : Type*} (f : ε → Option (Signal α τ))

/-- The time of an event that beats. -/
def beatTime? (e : ε) : Option τ :=
  match f e with
  | some (.beat v) => some v
  | _ => none

variable {f}

theorem filterMap_eq_append_cons {γ : Type*} {g : ε → Option γ} {events : List ε} {a b : List γ}
    {x : γ} (h : events.filterMap g = a ++ x :: b) :
    ∃ before e after, events = before ++ e :: after ∧ before.filterMap g = a ∧ g e = some x ∧
      after.filterMap g = b := by
  obtain ⟨l, l', rfl, ha, hb⟩ := List.filterMap_eq_append_iff.mp h
  obtain ⟨l₁, e, l₂, rfl, hnone, he, hb⟩ := List.filterMap_eq_cons_iff.mp hb
  refine ⟨l ++ l₁, e, l₂, by simp, ?_, he, hb⟩
  rw [List.filterMap_append, ha, List.filterMap_eq_nil_iff.mpr hnone, List.append_nil]

theorem beating_filterMap {events : List ε} {v : τ} :
    Beating (events.filterMap f) v ↔ ∃ older e since, events = older ++ e :: since ∧
      f e = some (.beat v) ∧ ∀ x ∈ since, ∀ w, f x ≠ some (.beat w) ∧ f x ≠ some .halt := by
  constructor
  · rintro ⟨a, b, h, hq⟩
    obtain ⟨older, e, since, rfl, -, he, rfl⟩ := filterMap_eq_append_cons h
    refine ⟨older, e, since, rfl, he, fun x hx w => ⟨fun hf => ?_, fun hf => ?_⟩⟩
    · exact (hq _ (List.mem_filterMap.mpr ⟨x, hx, hf⟩) w).1 rfl
    · exact (hq _ (List.mem_filterMap.mpr ⟨x, hx, hf⟩) v).2 rfl
  · rintro ⟨older, e, since, rfl, he, hq⟩
    refine ⟨older.filterMap f, since.filterMap f, by simp [he], fun y hy w => ?_⟩
    obtain ⟨x, hx, hf⟩ := List.mem_filterMap.mp hy
    exact ⟨fun h => (hq x hx w).1 (h ▸ hf), fun h => (hq x hx w).2 (h ▸ hf)⟩

theorem filterMap_eq_beats {events : List ε} :
    (∃ beats : List τ, events.filterMap f = beats.map .beat) ↔
      ∀ x ∈ events, ∀ y, f x = some y → ∃ w, y = .beat w := by
  constructor
  · rintro ⟨beats, h⟩ x hx y hy
    have hmem := List.mem_filterMap.mpr ⟨x, hx, hy⟩
    rw [h] at hmem
    obtain ⟨w, -, rfl⟩ := List.mem_map.mp hmem
    exact ⟨w, rfl⟩
  · intro h
    refine ⟨events.filterMap (beatTime? f), ?_⟩
    induction events with
    | nil => rfl
    | cons e events ih =>
      have ih := ih fun x hx => h x (by simp [hx])
      cases he : f e with
      | none => simpa [he, beatTime?] using ih
      | some y =>
        obtain ⟨w, rfl⟩ := h e (by simp) y he
        simpa [he, beatTime?] using ih

theorem filterMap_beatTime? {events : List ε} {beats : List τ}
    (h : events.filterMap f = beats.map .beat) : events.filterMap (beatTime? f) = beats := by
  have hb : (events.filterMap f).filterMap (beatTime? some) = events.filterMap (beatTime? f) := by
    rw [List.filterMap_filterMap]
    congr 1
    funext e
    cases he : f e <;> simp [beatTime?, he]
  rw [← hb, h, List.filterMap_map]
  exact List.filterMap_some

/-- What the events hold: the last store, and nothing but beats since. -/
theorem held_filterMap {near : τ → τ → Prop} {events : List ε} {t u : τ} {c : α} :
    Held near (events.filterMap f) t c u ↔ ∃ before e after v, events = before ++ e :: after ∧
      f e = some (.store c u) ∧ (∀ x ∈ after, ∀ y, f x = some y → ∃ w, y = .beat w) ∧
      Beating (before.filterMap f) v ∧ near v u ∧
      List.IsChain near (v :: (after.filterMap (beatTime? f) ++ [t])) := by
  constructor
  · rintro ⟨a, v, beats, h, hb, hu, hc⟩
    obtain ⟨before, e, after, rfl, rfl, he, ha⟩ := filterMap_eq_append_cons h
    refine ⟨before, e, after, v, rfl, he, filterMap_eq_beats.mp ⟨beats, ha⟩, hb, hu, ?_⟩
    rwa [filterMap_beatTime? ha]
  · rintro ⟨before, e, after, v, rfl, he, ha, hb, hu, hc⟩
    obtain ⟨beats, ha⟩ := filterMap_eq_beats.mpr ha
    rw [filterMap_beatTime? ha] at hc
    exact ⟨before.filterMap f, v, beats, by simp [he, ha], hb, hu, hc⟩

end Events

/-! ### Early clearing cannot be observed -/

section Lagging
variable [Preorder τ]

/-- Being recent enough does not come back once it is lost. -/
def Fading (near : τ → τ → Prop) : Prop := ∀ ⦃v t t'⦄, t ≤ t' → near v t' → near v t

variable {near fresh : τ → τ → Prop}

omit [Preorder τ] in
/-- The value a cache offers at `t`. `near` bounds the age of the guard and
`fresh` the age of the entry. -/
def Cache.Offers (near fresh : τ → τ → Prop) (s : Cache α τ) (t : τ) (c : α) : Prop :=
  s.Alive near t ∧ ∃ u, s.entry = some (c, u) ∧ fresh u t

/-- `k` differs from `s` at most by having dropped, by time `now`, a beat that
was too old or an entry that could not be offered any more. -/
structure Lags (near fresh : τ → τ → Prop) (now : τ) (k s : Cache α τ) : Prop where
  guard : k.guard = s.guard ∨ k.guard = none ∧ ¬ s.Alive near now
  entry : k.entry = s.entry ∨
    k.entry = none ∧ (¬ s.Alive near now ∨ ∀ e ∈ s.entry, ¬ fresh e.2 now)

omit [Preorder τ] in
theorem Lags.refl (now : τ) (s : Cache α τ) : Lags near fresh now s s := ⟨.inl rfl, .inl rfl⟩

theorem Cache.Alive.antitone (hn : Fading near) {s : Cache α τ} {t t' : τ} (h : t ≤ t')
    (ha : s.Alive near t') : s.Alive near t := by
  obtain ⟨v, hv, hv'⟩ := ha
  exact ⟨v, hv, hn h hv'⟩

theorem Lags.alive_iff (hn : Fading near) {now t : τ} {k s : Cache α τ}
    (h : Lags near fresh now k s) (hle : now ≤ t) : k.Alive near t ↔ s.Alive near t := by
  rcases h.guard with hg | ⟨hg, hd⟩
  · simp [Cache.alive_iff, hg]
  · have hd := mt (Cache.Alive.antitone hn hle) hd
    rw [iff_false_right hd]
    simp [Cache.alive_iff, hg]

theorem Lags.mono (hn : Fading near) (hf : Fading fresh) {now now' : τ} {k s : Cache α τ}
    (h : Lags near fresh now k s) (hle : now ≤ now') : Lags near fresh now' k s := by
  have dead : ¬ s.Alive near now → ¬ s.Alive near now' := mt (Cache.Alive.antitone hn hle)
  refine ⟨h.guard.imp_right (And.imp_right dead), h.entry.imp_right (And.imp_right ?_)⟩
  exact Or.imp dead (fun he e hm => mt (hf hle) (he e hm))

theorem Lags.trans (hn : Fading near) {now : τ} {k s r : Cache α τ}
    (h : Lags near fresh now k s) (h' : Lags near fresh now s r) : Lags near fresh now k r := by
  have ha := h'.alive_iff hn le_rfl
  constructor
  · rcases h.guard with hg | ⟨hg, hd⟩
    · rw [hg]; exact h'.guard
    · exact .inr ⟨hg, by rwa [← ha]⟩
  · rcases h.entry with he | ⟨he, hd⟩
    · rw [he]; exact h'.entry
    · refine .inr ⟨he, ?_⟩
      rcases hd with hd | hd
      · exact .inl (by rwa [← ha])
      · rcases h'.entry with he' | ⟨-, hd'⟩
        · exact .inr (by rwa [← he'])
        · exact hd'

/-- What is offered from `now` on does not depend on what was dropped. -/
theorem Lags.offers_iff (hn : Fading near) (hf : Fading fresh) {now t : τ} {k s : Cache α τ}
    (h : Lags near fresh now k s) (hle : now ≤ t) (c : α) :
    k.Offers near fresh t c ↔ s.Offers near fresh t c := by
  unfold Cache.Offers
  rw [h.alive_iff hn hle]
  rcases h.entry with he | ⟨he, hd⟩
  · rw [he]
  · constructor
    · rintro ⟨-, u, hk, -⟩
      simp [he] at hk
    · rintro ⟨ha, u, hs, hu⟩
      rcases hd with hd | hd
      · exact absurd (ha.antitone hn hle) hd
      · exact absurd (hf hle hu) (hd _ hs)

/-- One signal at `t`, given to both, keeps the lag. -/
theorem Lags.step [DecidableRel near] (hn : Fading near) (hf : Fading fresh) {now t : τ}
    {k s : Cache α τ} (h : Lags near fresh now k s) (hle : now ≤ t) (x : Signal α τ)
    (hx : ∀ v, x = .beat v → v = t) (hx' : ∀ c u, x = .store c u → u = t) :
    Lags near fresh t (k.step near x) (s.step near x) := by
  have ha := h.alive_iff hn hle
  have h := h.mono hn hf hle
  cases x with
  | beat v =>
    obtain rfl := hx v rfl
    refine ⟨.inl rfl, ?_⟩
    by_cases hs : s.Alive near v
    · simp only [Cache.step, ha, hs, if_true]
      rcases h.entry with he | ⟨he, hd | hd⟩
      · exact .inl he
      · exact absurd hs hd
      · exact .inr ⟨he, .inr hd⟩
    · simp [Cache.step, ha, hs]
  | halt => exact ⟨.inl rfl, .inl rfl⟩
  | store c u =>
    obtain rfl := hx' c u rfl
    exact ⟨h.guard, .inl (by simp only [Cache.step, ha])⟩
  | spoil => exact ⟨h.guard, .inl rfl⟩

/-- The signal `x`, if any, carries the time `t`. -/
def At (x : Option (Signal α τ)) (t : τ) : Prop :=
  (∀ v, x = some (.beat v) → v = t) ∧ ∀ c u, x = some (.store c u) → u = t

/-- A program whose every event does to the cache it holds what the signal of
the event does, up to dropping dead contents, holds a lagging copy of the cache
of its whole run. `readings` are the clock readings an event takes, in order. -/
theorem run_follows [DecidableRel near] (hn : Fading near) (hf : Fading fresh) {σ ε : Type*}
    (f : ε → Option (Signal α τ)) (readings : ε → List τ) (apply : σ → ε → σ)
    (Holds : τ → σ → Cache α τ → Prop) {g : σ} (h0 : ∀ t, Holds t g .empty)
    (hstep : ∀ e g k t t', Holds t g k → (t :: (readings e ++ [t'])).Pairwise (· ≤ ·) →
      ∃ s k', t ≤ s ∧ s ≤ t' ∧ At (f e) s ∧ Holds t' (apply g e) k' ∧
        Lags near fresh s k' ((f e).elim k (k.step near)))
    (events : List ε) (now : τ) (h : (events.flatMap readings ++ [now]).Pairwise (· ≤ ·)) :
    ∃ k, Holds now (events.foldl apply g) k ∧
      Lags near fresh now k (Cache.run near (events.filterMap f)) := by
  induction events using List.reverseRecOn generalizing now with
  | nil => exact ⟨_, h0 now, Lags.refl now _⟩
  | append_singleton events e ih =>
    -- time before `e`: its first reading, or `now` where it takes none
    obtain ⟨t, ht, hr⟩ : ∃ t, (events.flatMap readings ++ [t]).Pairwise (· ≤ ·) ∧
        (t :: (readings e ++ [now])).Pairwise (· ≤ ·) := by
      simp only [List.flatMap_append, List.flatMap_cons, List.flatMap_nil, List.append_nil,
        List.append_assoc] at h
      cases hr : readings e with
      | nil => exact ⟨now, by simpa [hr] using h, by simp⟩
      | cons t rest =>
        rw [hr] at h
        obtain ⟨h1, h2, h3⟩ := List.pairwise_append.mp h
        refine ⟨t, List.pairwise_append.mpr ⟨h1, by simp, fun a ha b hb => ?_⟩, ?_⟩
        · exact h3 a ha b (by simp_all)
        · refine List.pairwise_cons.mpr ⟨fun a ha => ?_, h2⟩
          rcases List.mem_cons.mp ha with rfl | ha
          · exact le_rfl
          · exact (List.pairwise_cons.mp h2).1 a ha
    obtain ⟨k, hk, hl⟩ := ih t ht
    obtain ⟨s, k', hts, hsn, hat, hk', hd⟩ := hstep e _ k t now hk hr
    refine ⟨k', by simpa using hk', ?_⟩
    rw [List.filterMap_append]
    cases hx : f e with
    | none =>
      rw [hx] at hd
      simpa [hx] using (hd.trans hn (hl.mono hn hf hts)).mono hn hf hsn
    | some x =>
      rw [hx] at hd hat
      have := hl.step hn hf hts x (fun v hv => hat.1 v (by rw [hv])) (fun c u hu => hat.2 c u (by rw [hu]))
      simpa [hx] using (hd.trans hn this).mono hn hf hsn

end Lagging

end X2Navigation.Guarded
