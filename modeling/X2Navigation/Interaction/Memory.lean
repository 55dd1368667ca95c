import Mathlib.Data.List.DropRight
import X2Navigation.Interaction.Discipline

/-! Programs that may do an operation for what they have done before. What such a program
has done grows by its own run, so what was found in it stays there, and a rule about the
run of a part is a rule about the end of the past. What was done last, up to the first of
some final operations, is a suffix of it. -/

namespace X2Navigation.Interaction

open Program

variable {S : Signature} {α β σ : Type}

namespace Discipline

variable {allows : List (Event S) → S.Op → Prop} {past : List (Event S)}

/-- The past grows by the run. -/
theorem Safe.runs {p : Program S α} {Q : α → List (Event S) → Prop}
    (h : (ofPast allows).Safe past p Q) :
    (ofPast allows).Safe past p fun a past' => ∃ tr, past' = past ++ tr ∧ Runs p tr a ∧ Q a past' := by
  intro tr p' hs
  obtain ⟨hobeys, hq⟩ := h tr p' hs
  refine ⟨hobeys, ?_⟩
  rintro a rfl
  exact ⟨tr, ofPast_after past tr, hs, hq a rfl⟩

/-- A sequence, whose second part knows the run of the first. -/
theorem Safe.bind_runs {p : Program S α} {f : α → Program S β} {R : α → List (Event S) → Prop}
    {Q : β → List (Event S) → Prop} (h : (ofPast allows).Safe past p R)
    (hf : ∀ a tr, Runs p tr a → R a (past ++ tr) → (ofPast allows).Safe (past ++ tr) (f a) Q) :
    (ofPast allows).Safe past (p.bind f) Q := by
  refine h.runs.bind fun a past' hpast => ?_
  obtain ⟨tr, rfl, hr, hR⟩ := hpast
  exact hf a tr hr hR

/-- A loop, every pass of which knows the passes before. -/
theorem safe_repeatWhile_passes {guard : S.Op} {body : S.Answer guard → σ → Program S (σ ⊕ β)}
    {Q : β → List (Event S) → Prop} (I : σ → List (Event S) → Prop)
    (hguard : ∀ past', allows past' guard) {x : σ}
    (hbody : ∀ y tr a, Passes guard body x tr y → I y (past ++ tr) →
      (ofPast allows).Safe (past ++ tr ++ [⟨guard, a⟩]) (body a y) fun r past' =>
        Sum.elim (I · past') (Q · past') r)
    (h : I x past) : (ofPast allows).Safe past (repeatWhile guard body x) Q := by
  refine safe_repeatWhile
    (fun y past' => ∃ tr, past' = past ++ tr ∧ Passes guard body x tr y ∧ I y past')
    (fun _ past' _ => hguard past') ?_ ⟨[], (List.append_nil past).symm, .refl x, h⟩
  rintro y past' a ⟨tr, rfl, hpasses, hI⟩
  refine (hbody y tr a hpasses hI).runs.mono fun r past'' hr => ?_
  obtain ⟨tr', rfl, hrun, hr⟩ := hr
  cases r with
  | inl z =>
    refine ⟨tr ++ ⟨guard, a⟩ :: tr', ?_, hpasses.snoc hrun, hr⟩
    simp
  | inr b => exact hr

end Discipline

/-! ### The end of a past -/

section Ends
variable (final : S.Op → Bool) (past : List (Event S))

/-- What was done before the final operations. -/
def work : List (Event S) := past.rdropWhile fun e => final e.1

/-- The final operations. -/
def checks : List (Event S) := past.rtakeWhile fun e => final e.1

variable {final past} {e : Event S}

theorem work_snoc_of_final (h : final e.1 = true) : work final (past ++ [e]) = work final past :=
  List.rdropWhile_concat_pos _ _ _ h

theorem work_snoc (h : final e.1 = false) : work final (past ++ [e]) = past ++ [e] :=
  List.rdropWhile_concat_neg _ _ _ (by simp [h])

theorem checks_snoc (h : final e.1 = true) : checks final (past ++ [e]) = checks final past ++ [e] :=
  List.rtakeWhile_concat_pos _ _ _ h

theorem mem_of_mem_checks (h : e ∈ checks final past) : e ∈ past :=
  (List.rtakeWhile_suffix _ _).subset h

/-- Nothing but final operations was done since. -/
def Finishing (final : S.Op → Bool) (past past' : List (Event S)) : Prop :=
  ∃ rest, past' = past ++ rest ∧ ∀ e ∈ rest, final e.1 = true

namespace Finishing
variable {past' past'' : List (Event S)}

theorem refl (past : List (Event S)) : Finishing final past past := ⟨[], by simp, by simp⟩

theorem snoc (h : Finishing final past past') (he : final e.1 = true) :
    Finishing final past (past' ++ [e]) := by
  obtain ⟨rest, rfl, hrest⟩ := h
  refine ⟨rest ++ [e], List.append_assoc _ _ _, fun e' he' => ?_⟩
  rcases List.mem_append.mp he' with he' | he'
  · exact hrest e' he'
  · exact List.mem_singleton.mp he' ▸ he

theorem trans (h : Finishing final past past') (h' : Finishing final past' past'') :
    Finishing final past past'' := by
  obtain ⟨rest, rfl, hrest⟩ := h
  obtain ⟨rest', rfl, hrest'⟩ := h'
  refine ⟨rest ++ rest', List.append_assoc _ _ _, fun e he => ?_⟩
  exact (List.mem_append.mp he).elim (hrest e) (hrest' e)

theorem subset (h : Finishing final past past') : past ⊆ past' := by
  obtain ⟨rest, rfl, -⟩ := h
  exact List.subset_append_left _ _

/-- The work is done, and further checks are added. -/
theorem parts (h : Finishing final past past') :
    work final past' = work final past ∧ checks final past <+: checks final past' := by
  obtain ⟨rest, rfl, hrest⟩ := h
  induction rest using List.reverseRecOn with
  | nil => simp
  | append_singleton rest e ih =>
    obtain ⟨hwork, hchecks⟩ := ih fun e' he' => hrest e' (by simp [he'])
    have hfinal : final e.1 = true := hrest e (by simp)
    rw [← List.append_assoc, work_snoc_of_final hfinal, checks_snoc hfinal]
    exact ⟨hwork, hchecks.trans (List.prefix_append _ _)⟩

end Finishing

end Ends

end X2Navigation.Interaction
