import Mathlib.Algebra.BigOperators.Group.List.Lemmas
import Mathlib.Algebra.Order.Field.Basic
import Mathlib.Data.List.Dedup
import Mathlib.Data.List.Induction
import Mathlib.Data.List.NodupEquivFin

/-! Grouping a list by keys, in the order in which the keys first appear. One
pass does it with a map from keys to slots and one accumulator in each slot: a
new key opens the next slot, a known one is looked up. -/

namespace X2Navigation.Grouping

variable {α β κ : Type*} [DecidableEq κ]

/-! ### The groups -/

/-- The keys that appear, each once. -/
def keys (key : α → κ) (items : List α) : List κ := (items.map key).eraseDups

/-- The items of each key, in their order. -/
def groups (key : α → κ) (items : List α) : List (List α) :=
  (keys key items).map fun k => items.filter fun a => key a = k

theorem nodup_eraseDups (l : List κ) : l.eraseDups.Nodup := by
  induction l using List.reverseRecOn with
  | nil => exact List.nodup_nil
  | append_singleton l a ih =>
    rw [List.eraseDups_append]
    by_cases ha : a ∈ l
    · simpa [List.removeAll, ha] using ih
    · have hsnoc : (l.eraseDups ++ [a]).Nodup := by
        rw [List.nodup_append]
        refine ⟨ih, List.nodup_singleton a, fun b hb c hc => ?_⟩
        rintro rfl
        rw [List.mem_singleton.mp hc] at hb
        exact ha (List.mem_eraseDups.mp hb)
      simpa [List.removeAll, ha, List.eraseDups_cons] using hsnoc

variable (key : α → κ)

theorem nodup_keys (items : List α) : (keys key items).Nodup := nodup_eraseDups _

theorem mem_keys {items : List α} {k : κ} : k ∈ keys key items ↔ ∃ a ∈ items, key a = k := by
  simp [keys]

theorem keys_snoc (items : List α) (a : α) : keys key (items ++ [a]) =
    if key a ∈ keys key items then keys key items else keys key items ++ [key a] := by
  unfold keys
  rw [List.map_append, List.eraseDups_append]
  by_cases ha : key a ∈ items.map key
  · rw [if_pos (List.mem_eraseDups.mpr ha)]
    simp only [List.mem_map] at ha
    simp [List.removeAll, ha]
  · rw [if_neg (fun h => ha (List.mem_eraseDups.mp h))]
    simp only [List.mem_map] at ha
    simp [List.removeAll, ha, List.eraseDups_cons]

theorem length_groups (items : List α) : (groups key items).length = (keys key items).length :=
  List.length_map _

/-- No group is empty, and its items share their key. -/
theorem mem_groups {items : List α} {g : List α} (h : g ∈ groups key items) :
    g ≠ [] ∧ ∃ k ∈ keys key items, ∀ a ∈ g, a ∈ items ∧ key a = k := by
  obtain ⟨k, hk, rfl⟩ := List.mem_map.mp h
  obtain ⟨a, ha, rfl⟩ := (mem_keys key).mp hk
  refine ⟨List.ne_nil_of_mem (List.mem_filter.mpr ⟨ha, by simp⟩), key a, hk, fun b hb => ?_⟩
  simpa using List.mem_filter.mp hb

/-- Every item is in exactly one group. -/
theorem sum_length_groups (items : List α) :
    ((groups key items).map List.length).sum = items.length := by
  have hperm : (keys key items).Perm (items.map key).dedup :=
    (List.perm_ext_iff_of_nodup (nodup_keys key items) (List.nodup_dedup _)).mpr (by simp [keys])
  have hcount : (groups key items).map List.length =
      (keys key items).map fun k => (items.map key).count k := by
    rw [groups, List.map_map]
    refine List.map_congr_left fun k _ => ?_
    rw [Function.comp_apply, List.count, List.countP_map, List.countP_eq_length_filter]
    congr 1
  rw [hcount, (hperm.map _).sum_eq, List.sum_map_count_dedup_eq_length, List.length_map]

/-- A new item joins the group of its key, or opens a group at the end. -/
theorem groups_snoc (items : List α) (a : α) : groups key (items ++ [a]) =
    if key a ∈ keys key items then
      (groups key items).modify ((keys key items).idxOf (key a)) (· ++ [a])
    else groups key items ++ [[a]] := by
  have hother : ∀ k, k ≠ key a →
      (items ++ [a]).filter (fun b => key b = k) = items.filter fun b => key b = k := by
    intro k hk
    simp [List.filter_append, Ne.symm hk]
  unfold groups
  rw [keys_snoc]
  split
  · next ha =>
    refine List.ext_getElem? fun i => ?_
    rw [List.getElem?_modify, List.getElem?_map, List.getElem?_map]
    cases hi : (keys key items)[i]? with
    | none => simp
    | some k =>
      by_cases hk : k = key a
      · -- the one slot that has the key
        subst hk
        have hidx : (keys key items).idxOf (key a) = i := by
          obtain ⟨hlt, hget⟩ := List.getElem?_eq_some_iff.mp hi
          rw [← hget]
          exact (nodup_keys key items).idxOf_getElem i hlt
        simp [hidx, List.filter_append]
      · have hne : (keys key items).idxOf (key a) ≠ i := by
          rintro rfl
          rw [List.getElem?_idxOf ha] at hi
          exact hk (Option.some.inj hi).symm
        simp [hne, Ne.symm hk]
  · next ha =>
    have hnew : items.filter (fun b => key b = key a) = [] := by
      refine List.filter_eq_nil_iff.mpr fun b hb => ?_
      have : key b ≠ key a := fun h => ha ((mem_keys key).mpr ⟨b, hb, h⟩)
      simpa using this
    rw [List.map_append]
    congr 1
    · refine List.map_congr_left fun k hk => hother k ?_
      rintro rfl
      exact ha hk
    · simp [List.filter_append, hnew]

theorem groups_congr {key' : α → κ} {items : List α} (h : ∀ a ∈ items, key a = key' a) :
    groups key items = groups key' items := by
  have hkeys : keys key items = keys key' items := by
    unfold keys
    rw [List.map_congr_left h]
  unfold groups
  rw [hkeys]
  refine List.map_congr_left fun k _ => List.filter_congr fun a ha => ?_
  rw [h a ha]

/-- Items whose keys are all different stay alone. -/
theorem groups_of_nodup {items : List α} (h : (items.map key).Nodup) :
    groups key items = items.map fun a => [a] := by
  induction items using List.reverseRecOn with
  | nil => rfl
  | append_singleton items a ih =>
    rw [List.map_append, List.map_cons, List.map_nil, List.nodup_append] at h
    obtain ⟨hitems, -, hnew⟩ := h
    have hkey : key a ∉ keys key items := by
      intro hmem
      obtain ⟨b, hb, heq⟩ := (mem_keys key).mp hmem
      exact hnew (key b) (List.mem_map_of_mem hb) (key a) (List.mem_singleton_self _) heq
    rw [groups_snoc, if_neg hkey, ih hitems, List.map_append]
    rfl

variable {κ' : Type*} [DecidableEq κ']

theorem keys_comp {f : κ → κ'} (hf : Function.Injective f) (items : List α) :
    keys (f ∘ key) items = (keys key items).map f := by
  induction items using List.reverseRecOn with
  | nil => rfl
  | append_singleton items a ih =>
    rw [keys_snoc, keys_snoc, ih]
    simp only [Function.comp_apply, List.mem_map_of_injective hf]
    by_cases ha : key a ∈ keys key items
    · rw [if_pos ha, if_pos ha]
    · rw [if_neg ha, if_neg ha, List.map_append]
      rfl

/-- Keys can be renamed. -/
theorem groups_comp {f : κ → κ'} (hf : Function.Injective f) (items : List α) :
    groups (f ∘ key) items = groups key items := by
  unfold groups
  rw [keys_comp key hf, List.map_map]
  refine List.map_congr_left fun k _ => List.filter_congr fun a _ => ?_
  simp [hf.eq_iff]

/-! ### One pass -/

/-- A map from keys to slots that is only ever added to. -/
abbrev Index (κ : Type*) := List (κ × ℕ)

/-- The slot of a key and whether the key is new. -/
def Index.emplace (index : Index κ) (k : κ) (slot : ℕ) : Index κ × ℕ × Bool :=
  match index.lookup k with
  | some i => (index, i, false)
  | none => (index ++ [(k, slot)], slot, true)

structure Slots (κ β : Type*) where
  index : Index κ
  slots : List β

/-- Add an item to the slot of its key. -/
def collect (empty : β) (add : β → α → β) (s : Slots κ β) (a : α) : Slots κ β :=
  let (index, i, inserted) := s.index.emplace (key a) s.slots.length
  let slots := if inserted then s.slots ++ [empty] else s.slots
  ⟨index, slots.modify i (add · a)⟩

theorem lookup_zipIdx (ks : List κ) (k : κ) (n : ℕ) :
    (ks.zipIdx n).lookup k = if k ∈ ks then some (n + ks.idxOf k) else none := by
  induction ks generalizing n with
  | nil => rfl
  | cons k' ks ih =>
    rw [List.zipIdx_cons, List.lookup_cons]
    by_cases hk : k = k'
    · subst hk
      simp
    · have hbeq : (k == k') = false := by simpa using hk
      rw [hbeq, ih]
      by_cases hmem : k ∈ ks
      · simp only [List.mem_cons, hk, hmem, or_true, if_true,
          List.idxOf_cons_ne ks (Ne.symm hk)]
        congr 1
        omega
      · simp [hmem, hk]

theorem emplace_zipIdx (ks : List κ) (k : κ) : Index.emplace ks.zipIdx k ks.length =
    if k ∈ ks then (ks.zipIdx, ks.idxOf k, false) else ((ks ++ [k]).zipIdx, ks.length, true) := by
  unfold Index.emplace
  rw [lookup_zipIdx]
  by_cases hk : k ∈ ks
  · simp [hk]
  · simp [hk, List.zipIdx_append]

theorem modify_map {γ : Type*} (f : α → α) (f' : γ → γ) (g : α → γ) (h : ∀ x, f' (g x) = g (f x))
    (l : List α) (i : ℕ) : (l.map g).modify i f' = (l.modify i f).map g := by
  refine List.ext_getElem? fun j => ?_
  rw [List.getElem?_modify, List.getElem?_map, List.getElem?_map, List.getElem?_modify]
  cases l[j]? with
  | none => rfl
  | some x =>
    by_cases hij : i = j
    · simp [hij, h]
    · simp [hij]

theorem modify_snoc (l : List α) (a : α) (f : α → α) :
    (l ++ [a]).modify l.length f = l ++ [f a] := by
  induction l with
  | nil => rfl
  | cons b l ih => simp [ih]

/-- The pass computes the groups: key number `i` is in slot `i`, which holds what
the items of that key add up to. -/
theorem foldl_collect (empty : β) (add : β → α → β) (items : List α) :
    items.foldl (collect key empty add) ⟨[], []⟩ =
      ⟨(keys key items).zipIdx, (groups key items).map (List.foldl add empty)⟩ := by
  induction items using List.reverseRecOn with
  | nil => rfl
  | append_singleton items a ih =>
    rw [List.foldl_append, ih, List.foldl_cons, List.foldl_nil, collect]
    simp only [List.length_map, length_groups, emplace_zipIdx, keys_snoc, groups_snoc]
    by_cases ha : key a ∈ keys key items
    · simp only [if_pos ha, Bool.false_eq_true, if_false]
      rw [modify_map (· ++ [a])]
      intro g
      rw [List.foldl_append]
      rfl
    · have hlen : (keys key items).length = ((groups key items).map (List.foldl add empty)).length := by
        rw [List.length_map, length_groups]
      simp only [if_neg ha, if_true, List.map_append, List.map_cons, List.map_nil]
      rw [hlen, modify_snoc]
      rfl

end X2Navigation.Grouping
