import X2Navigation.Traced.Machine

/-! Machines on a bus. The nodes of a system run as one machine, and each node is a
part of it. What the trace of a step posts is on its way from then on, and an event
that takes a message needs one that is on its way. Messages may be late or get lost,
and they may overtake each other; none is made up and none arrives twice. -/

namespace X2Navigation.Traced

variable {σ ε ω : Type*} {step : ε → σ → Reaction σ ω}

/-- If no step leaves more than one entry, the front of a trace is a trace. -/
theorem exists_run_of_prefix (hstep : ∀ e s, (step e s).2.length ≤ 1) (s : σ) (events : List ε)
    {front : List ω} (h : front <+: (run step s events).2) :
    ∃ events', (run step s events').2 = front := by
  induction events using List.reverseRecOn with
  | nil =>
    rw [run_nil] at h
    exact ⟨[], (List.prefix_nil.mp h).symm⟩
  | append_singleton events e ih =>
    by_cases hlength : front.length ≤ (run step s events).2.length
    · refine ih (List.prefix_of_prefix_length_le h ?_ hlength)
      rw [run_snoc, Reaction.andThen_snd]
      exact List.prefix_append _ _
    · have hle := h.length_le
      have hlast := hstep e (run step s events).1
      rw [run_snoc, Reaction.andThen_snd, List.length_append] at hle
      refine ⟨events ++ [e], (h.eq_of_length ?_).symm⟩
      rw [run_snoc, Reaction.andThen_snd, List.length_append]
      omega

/-! ### Parts of a machine -/

/-- `state` reads a machine of its own off the states of another. It is called with
the events that `event?` picks and leaves what `occurrence?` picks of the trace. -/
structure Part {σ' ε' ω' : Type*} (step : ε → σ → Reaction σ ω) (step' : ε' → σ' → Reaction σ' ω')
    (state : σ → σ') (event? : ε → Option ε') (occurrence? : ω → Option ω') : Prop where
  called : ∀ e s, ∀ e' ∈ event? e,
    step' e' (state s) = (state (step e s).1, (step e s).2.filterMap occurrence?)
  idle : ∀ e s, event? e = none →
    state (step e s).1 = state s ∧ (step e s).2.filterMap occurrence? = []

section Part
variable {σ' ε' ω' : Type*} {step' : ε' → σ' → Reaction σ' ω'} {state : σ → σ'}
  {event? : ε → Option ε'} {occurrence? : ω → Option ω'}

/-- A part runs as it would on its own. -/
theorem Part.follows (h : Part step step' state event? occurrence?) (s : σ) (events : List ε) :
    run step' (state s) (events.filterMap event?) =
      (state (run step s events).1, (run step s events).2.filterMap occurrence?) := by
  induction events using List.reverseRecOn with
  | nil => rfl
  | append_singleton events e ih =>
    rw [run_snoc, Reaction.andThen_fst, Reaction.andThen_snd, List.filterMap_append,
      List.filterMap_append]
    cases he : event? e with
    | none =>
      obtain ⟨hstate, htrace⟩ := h.idle e (run step s events).1 he
      rw [hstate, htrace, List.append_nil, ← ih]
      simp [he]
    | some e' =>
      have hcall := h.called e (run step s events).1 e' he
      have hlast : [e].filterMap event? = [e'] := by simp [he]
      rw [hlast, run_snoc, ih, Reaction.andThen, hcall]

end Part

/-! ### Messages on their way -/

/-- What is posted, and which events take a message. -/
structure Wiring (ε ω μ : Type*) where
  posts : ω → List μ
  takes : ε → Option μ

/-- A message with the event that posted it. -/
structure Parcel (ε μ : Type*) where
  sender : ε
  message : μ

section Travels
variable {μ : Type*} (step) (s₀ : σ) (wiring : Wiring ε ω μ)

def Wiring.posted (trace : List ω) : List μ := trace.flatMap wiring.posts

/-- The reaction to `e` after some events. -/
abbrev reaction (events : List ε) (e : ε) : Reaction σ ω := step e (run step s₀ events).1

def parcels (events : List ε) (e : ε) : List (Parcel ε μ) :=
  (wiring.posted (reaction step s₀ events e).2).map (⟨e, ·⟩)

/-- The runs of a machine on a bus, with what is on its way in the end. A message may
be taken by an event that its sender's admits. -/
inductive Travels (admits : ε → ε → Prop) : List ε → List (Parcel ε μ) → Prop
  | start : Travels admits [] []
  | act {events : List ε} {flight : List (Parcel ε μ)} (e : ε) (h : Travels admits events flight)
      (htakes : wiring.takes e = none) :
      Travels admits (events ++ [e]) (flight ++ parcels step s₀ wiring events e)
  | deliver {events : List ε} {flight flight' : List (Parcel ε μ)} {parcel : Parcel ε μ} (e : ε)
      (h : Travels admits events (flight ++ parcel :: flight'))
      (htakes : wiring.takes e = some parcel.message) (hadmits : admits parcel.sender e) :
      Travels admits (events ++ [e]) (flight ++ flight' ++ parcels step s₀ wiring events e)
  | lose {events : List ε} {flight flight' : List (Parcel ε μ)} {parcel : Parcel ε μ}
      (h : Travels admits events (flight ++ parcel :: flight')) : Travels admits events (flight ++ flight')

/-- One of the events is `sender`, and its reaction posted the message. -/
def Posted (events : List ε) (sender : ε) (message : μ) : Prop :=
  ∃ earlier between, events = earlier ++ sender :: between ∧
    message ∈ wiring.posted (reaction step s₀ earlier sender).2

variable {step s₀ wiring} {admits : ε → ε → Prop} {events : List ε} {flight : List (Parcel ε μ)}

theorem Posted.append {sender : ε} {message : μ} (h : Posted step s₀ wiring events sender message)
    (more : List ε) : Posted step s₀ wiring (events ++ more) sender message := by
  obtain ⟨earlier, between, rfl, hmem⟩ := h
  exact ⟨earlier, between ++ more, by simp, hmem⟩

theorem posted_of_mem_parcels {e : ε} {parcel : Parcel ε μ}
    (h : parcel ∈ parcels step s₀ wiring events e) :
    Posted step s₀ wiring (events ++ [e]) parcel.sender parcel.message := by
  obtain ⟨message, hmessage, rfl⟩ := List.mem_map.mp h
  exact ⟨events, [], rfl, hmessage⟩

/-- Nothing is on its way that was not posted. -/
theorem Travels.posted (h : Travels step s₀ wiring admits events flight) :
    ∀ parcel ∈ flight, Posted step s₀ wiring events parcel.sender parcel.message := by
  induction h with
  | start => simp
  | act e _ _ ih =>
    intro parcel hparcel
    rcases List.mem_append.mp hparcel with hold | hnew
    · exact (ih parcel hold).append [e]
    · exact posted_of_mem_parcels hnew
  | deliver e _ _ _ ih =>
    intro parcel hparcel
    rcases List.mem_append.mp hparcel with hold | hnew
    · refine (ih parcel ?_).append [e]
      rcases List.mem_append.mp hold with hbefore | hafter
      · exact List.mem_append_left _ hbefore
      · exact List.mem_append_right _ (List.mem_cons_of_mem _ hafter)
    · exact posted_of_mem_parcels hnew
  | lose _ ih =>
    intro parcel hparcel
    refine ih parcel ?_
    rcases List.mem_append.mp hparcel with hbefore | hafter
    · exact List.mem_append_left _ hbefore
    · exact List.mem_append_right _ (List.mem_cons_of_mem _ hafter)

/-- What an event takes was posted before it, by an event that admits it. -/
theorem Travels.origin (h : Travels step s₀ wiring admits events flight) {before after : List ε} {e : ε}
    (heq : events = before ++ e :: after) {message : μ} (htakes : wiring.takes e = some message) :
    ∃ sender, admits sender e ∧ Posted step s₀ wiring before sender message := by
  induction h generalizing after with
  | start => simp at heq
  | act x h hnone ih =>
    rcases List.eq_nil_or_concat after with rfl | ⟨after, y, rfl⟩
    · obtain ⟨-, hx⟩ := List.append_inj' heq rfl
      obtain rfl := List.singleton_inj.mp hx
      rw [hnone] at htakes
      cases htakes
    · rw [List.concat_eq_append, ← List.cons_append, ← List.append_assoc] at heq
      exact ih (List.append_inj' heq rfl).1
  | deliver x h hmessage hadmits ih =>
    rcases List.eq_nil_or_concat after with rfl | ⟨after, y, rfl⟩
    · obtain ⟨rfl, hx⟩ := List.append_inj' heq rfl
      obtain rfl := List.singleton_inj.mp hx
      obtain rfl := Option.some.inj (hmessage.symm.trans htakes)
      exact ⟨_, hadmits, h.posted _ (by simp)⟩
    · rw [List.concat_eq_append, ← List.cons_append, ← List.append_assoc] at heq
      exact ih (List.append_inj' heq rfl).1
  | lose _ ih => exact ih heq

/-! ### Building runs -/

/-- While nothing is taken, everything posted is on its way. -/
theorem exists_travels_of_acts (h : ∀ e ∈ events, wiring.takes e = none) :
    ∃ flight, Travels step s₀ wiring admits events flight ∧ ∀ parcel : Parcel ε μ,
      Posted step s₀ wiring events parcel.sender parcel.message → parcel ∈ flight := by
  induction events using List.reverseRecOn with
  | nil =>
    refine ⟨[], .start, ?_⟩
    rintro parcel ⟨earlier, between, heq, -⟩
    simp at heq
  | append_singleton events e ih =>
    obtain ⟨flight, htravels, hall⟩ := ih fun x hx => h x (List.mem_append_left _ hx)
    refine ⟨_, .act e htravels (h e (by simp)), ?_⟩
    rintro parcel ⟨earlier, between, heq, hmem⟩
    rcases List.eq_nil_or_concat between with rfl | ⟨between, x, rfl⟩
    · obtain ⟨rfl, hx⟩ := List.append_inj' heq rfl
      obtain rfl := List.singleton_inj.mp hx
      exact List.mem_append_right _ (List.mem_map.mpr ⟨parcel.message, hmem, rfl⟩)
    · rw [List.concat_eq_append, ← List.cons_append, ← List.append_assoc] at heq
      exact List.mem_append_left _ (hall parcel ⟨earlier, between, (List.append_inj' heq rfl).1, hmem⟩)

/-- What is on its way can be taken, and the rest stays on its way. -/
theorem Travels.take (h : Travels step s₀ wiring admits events flight) {parcel : Parcel ε μ}
    (hmem : parcel ∈ flight) {e : ε} (htakes : wiring.takes e = some parcel.message)
    (hadmits : admits parcel.sender e) :
    ∃ flight', Travels step s₀ wiring admits (events ++ [e]) flight' ∧
      ∀ other ∈ flight, other ≠ parcel → other ∈ flight' := by
  obtain ⟨before, after, rfl⟩ := List.append_of_mem hmem
  refine ⟨_, .deliver e h htakes hadmits, fun other hother hne => ?_⟩
  have hrest : other ∈ before ++ after := by simpa [hne] using hother
  exact List.mem_append_left _ hrest

end Travels

end X2Navigation.Traced
