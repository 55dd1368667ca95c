import X2Navigation.Cloud.Downsampling
import X2Navigation.Numeric.Checked
import X2Navigation.Numeric.EvenSpread

/-! The sampling of the voxel filter. Its loop spreads the samples evenly over the points:
the quotient is taken in every step, and the remainders make a step one longer whenever
they add up to another one. Nothing wraps, for any two counts of 64 bits. -/

namespace X2Navigation.PointCloudVoxelFilter

open Checked EvenSpread

/-! ### The states of the loop -/

/-- The states in which `n` iterations start. -/
def Sampling.states : ℕ → Sampling → List Sampling
  | 0, _ => []
  | n + 1, s => s :: Sampling.states n s.advance

/-- Before the iteration `k`: the index and what was left over are where an even spread of
the intervals has them. -/
structure Sampling.Visiting (n m : UInt64) (k : ℕ) (s : Sampling) : Prop where
  count : s.sampledPointCount = m
  intervals : s.sampleIntervalCount.toNat = m.toNat - 1
  base : s.baseSampleInterval.toNat = (n.toNat - 1) / (m.toNat - 1)
  remainder : s.sampleIntervalRemainder.toNat = (n.toNat - 1) % (m.toNat - 1)
  visited : s.samplesVisited.toNat = k
  index : s.nextSampleIndex.toNat = spread (n.toNat - 1) (m.toNat - 1) k
  error : s.sampleIntervalError.toNat = leftover (n.toNat - 1) (m.toNat - 1) k

/-- The additions of an iteration do not wrap. -/
structure Sampling.Exact (s : Sampling) : Prop where
  visited : s.samplesVisited.toNat + 1 < 2 ^ 64
  index : s.samplesVisited + 1 < s.sampledPointCount →
    s.nextSampleIndex.toNat + s.baseSampleInterval.toNat + 1 < 2 ^ 64
  error : s.samplesVisited + 1 < s.sampledPointCount →
    s.sampleIntervalError.toNat + s.sampleIntervalRemainder.toNat < 2 ^ 64

namespace Sampling
variable {n m : UInt64} {k : ℕ} {s : Sampling}

theorem visiting_start (hn : n ≠ 0) (hm : 2 ≤ m.toNat) : (start n m).Visiting n m 0 := by
  have hne : m ≠ 0 := by
    rintro rfl
    simp at hm
  have hone : (1 : UInt64) < m := UInt64.lt_iff_toNat_lt.mpr hm
  have hintervals : (start n m).sampleIntervalCount = m - 1 := if_pos hone
  constructor
  · rfl
  · rw [hintervals, toNat_sub_one hne]
  · change ((n - 1) / (start n m).sampleIntervalCount).toNat = _
    rw [hintervals, UInt64.toNat_div, toNat_sub_one hn, toNat_sub_one hne]
  · change ((n - 1) % (start n m).sampleIntervalCount).toNat = _
    rw [hintervals, UInt64.toNat_mod, toNat_sub_one hn, toNat_sub_one hne]
  · rfl
  · have hmany : m ≠ 1 := by
      rintro rfl
      simp at hm
    change (if m = 1 then (n - 1) / 2 else 0).toNat = _
    rw [if_neg hmany, spread_zero]
    rfl
  · rw [leftover_zero]
    rfl

theorem Visiting.exact (h : s.Visiting n m k) (hm : 2 ≤ m.toNat) (hle : m.toNat ≤ n.toNat)
    (hk : k < m.toNat) : s.Exact := by
  have hcount : 0 < m.toNat - 1 := by omega
  have hn := n.toNat_lt
  have hvisited : s.samplesVisited.toNat + 1 < 2 ^ 64 := by
    rw [h.visited]
    have hmlt := m.toNat_lt
    omega
  have hmore : s.samplesVisited + 1 < s.sampledPointCount → k + 1 < m.toNat := by
    intro hlt
    rw [UInt64.lt_iff_toNat_lt, toNat_add hvisited, h.visited, h.count] at hlt
    exact hlt
  refine ⟨hvisited, fun hlt => ?_, fun _ => ?_⟩
  · have hspread := @spread_succ (n.toNat - 1) _ hcount k
    have hnext := hmore hlt
    have hbound := @spread_le (n.toNat - 1) _ hcount (k + 1) (by omega)
    rw [h.index, h.base]
    omega
  · have hleft := leftover_add_lt hcount (by omega : m.toNat - 1 ≤ n.toNat - 1) k
    rw [h.error, h.remainder]
    omega

/-- An iteration that is not the last takes the step of the spread. -/
theorem Visiting.advance (h : s.Visiting n m k) (hm : 2 ≤ m.toNat) (hle : m.toNat ≤ n.toNat)
    (hk : k + 1 < m.toNat) : s.advance.Visiting n m (k + 1) := by
  have hcount : 0 < m.toNat - 1 := by omega
  have hexact := h.exact hm hle (by omega)
  have hvisited : (s.samplesVisited + 1).toNat = k + 1 := by
    rw [toNat_add hexact.visited, h.visited]
    rfl
  have hmore : s.samplesVisited + 1 < s.sampledPointCount := by
    rw [UInt64.lt_iff_toNat_lt, hvisited, h.count]
    exact hk
  have hspread := @spread_succ (n.toNat - 1) _ hcount k
  have hsucc := @leftover_succ (n.toNat - 1) _ hcount k
  have hindex := hexact.index hmore
  have herror : (s.sampleIntervalError + s.sampleIntervalRemainder).toNat =
      leftover (n.toNat - 1) (m.toNat - 1) k + (n.toNat - 1) % (m.toNat - 1) := by
    rw [toNat_add (hexact.error hmore), h.error, h.remainder]
  have hnext : (s.nextSampleIndex + s.baseSampleInterval).toNat =
      spread (n.toNat - 1) (m.toNat - 1) k + (n.toNat - 1) / (m.toNat - 1) := by
    rw [toNat_add (by omega), h.index, h.base]
  have hcase : s.sampleIntervalCount ≤ s.sampleIntervalError + s.sampleIntervalRemainder ↔
      m.toNat - 1 ≤ leftover (n.toNat - 1) (m.toNat - 1) k + (n.toNat - 1) % (m.toNat - 1) := by
    rw [UInt64.le_iff_toNat_le, herror, h.intervals]
  unfold Sampling.advance
  dsimp only
  rw [if_pos hmore]
  split
  · next hmake =>
    rw [hcase] at hmake
    rw [if_pos hmake] at hspread hsucc
    refine ⟨h.count, h.intervals, h.base, h.remainder, hvisited, ?_, ?_⟩
    · change (s.nextSampleIndex + s.baseSampleInterval + 1).toNat = _
      have hlt : (s.nextSampleIndex + s.baseSampleInterval).toNat + (1 : UInt64).toNat < 2 ^ 64 := by
        rw [toNat_add (by omega)]
        exact hindex
      rw [toNat_add hlt, hnext, hspread]
      rfl
    · change (s.sampleIntervalError + s.sampleIntervalRemainder - s.sampleIntervalCount).toNat = _
      rw [UInt64.toNat_sub_of_le _ _ (hcase.mpr hmake), herror, h.intervals, hsucc]
  · next hmake =>
    rw [hcase] at hmake
    rw [if_neg hmake] at hspread hsucc
    refine ⟨h.count, h.intervals, h.base, h.remainder, hvisited, ?_, ?_⟩
    · exact hnext.trans (by rw [hspread, Nat.add_zero])
    · exact herror.trans hsucc.symm

/-- From an iteration on, the loop visits what is left of the spread. -/
theorem Visiting.states (h : s.Visiting n m k) (hm : 2 ≤ m.toNat) (hle : m.toNat ≤ n.toNat)
    (j : ℕ) (hj : k + j ≤ m.toNat) :
    (∀ s' ∈ s.states j, s'.Exact) ∧ (s.indices j).map UInt64.toNat =
      (List.range' k j).map (spread (n.toNat - 1) (m.toNat - 1)) := by
  induction j generalizing k s with
  | zero => exact ⟨by simp [Sampling.states], rfl⟩
  | succ j ih =>
    have hexact := h.exact hm hle (by omega)
    have hrest : (∀ s' ∈ s.advance.states j, s'.Exact) ∧ (s.advance.indices j).map UInt64.toNat =
        (List.range' (k + 1) j).map (spread (n.toNat - 1) (m.toNat - 1)) := by
      cases j with
      | zero => exact ⟨by simp [Sampling.states], rfl⟩
      | succ j => exact ih (h.advance hm hle (by omega)) (by omega)
    constructor
    · intro s' hs'
      obtain rfl | hs' := List.mem_cons.mp hs'
      · exact hexact
      · exact hrest.1 s' hs'
    · rw [indices, List.map_cons, h.index, hrest.2, List.range'_succ, List.map_cons]

end Sampling

/-! ### What is visited -/

/-- The distances between neighbours. -/
def gaps (indices : List ℕ) : List ℕ := List.zipWith (fun i j => j - i) indices indices.tail

/-- `m` indices of `n` points, spread evenly. -/
structure Uniform (n m : ℕ) (indices : List ℕ) : Prop where
  length : indices.length = m
  closed : 2 ≤ m → indices = (List.range m).map fun k => k * (n - 1) / (m - 1)
  increasing : indices.Pairwise (· < ·)
  first : 2 ≤ m → indices.head? = some 0
  last : 2 ≤ m → indices.getLast? = some (n - 1)
  gaps : ∀ g ∈ gaps indices, ∀ g' ∈ gaps indices, g ≤ g' + 1
  every : m = n → indices = List.range n
  middle : m = 1 → indices = [(n - 1) / 2]

theorem mem_gaps_map {f : ℕ → ℕ} {m g : ℕ} (h : g ∈ gaps ((List.range m).map f)) :
    ∃ k, g = f (k + 1) - f k := by
  obtain ⟨k, hk, rfl⟩ := List.mem_iff_getElem.mp h
  exact ⟨k, by simp [gaps]⟩

theorem uniform_spread {n m : ℕ} (hm : 2 ≤ m) (hle : m ≤ n) :
    Uniform n m ((List.range m).map (spread (n - 1) (m - 1))) := by
  have hcount : 0 < m - 1 := by omega
  have hlen : ((List.range m).map (spread (n - 1) (m - 1))).length = m := by simp
  refine ⟨hlen, fun _ => rfl, ?_, fun _ => ?_, fun _ => ?_, ?_, ?_, by omega⟩
  · apply List.pairwise_lt_range.map
    intro k l hlt
    exact spread_strictMono hcount (by omega) hlt
  · rw [List.head?_map, List.head?_range, if_neg (by omega)]
    rw [Option.map_some, spread_zero]
  · rw [List.getLast?_map, List.getLast?_range, if_neg (by omega)]
    rw [Option.map_some, spread_last hcount]
  · intro g hg g' hg'
    obtain ⟨k, rfl⟩ := mem_gaps_map hg
    obtain ⟨l, rfl⟩ := mem_gaps_map hg'
    exact spread_gap hcount k l
  · rintro rfl
    conv_rhs => rw [← List.map_id (List.range m)]
    apply List.map_congr_left
    intro k _
    exact spread_self hcount k

theorem uniform_middle {n : ℕ} (hn : 0 < n) : Uniform n 1 [(n - 1) / 2] := by
  refine ⟨rfl, by omega, List.pairwise_singleton _ _, by omega, by omega, by simp [gaps], ?_,
    fun _ => rfl⟩
  rintro rfl
  rfl

/-- Nothing wraps in the loop, and what it visits is spread evenly. -/
theorem Sampling.uniform_start {n m : UInt64} (hm : m ≠ 0) (hle : m.toNat ≤ n.toNat) :
    (∀ s ∈ (start n m).states m.toNat, s.Exact) ∧
      Uniform n.toNat m.toNat (((start n m).indices m.toNat).map UInt64.toNat) := by
  have hpos := pos_of_ne_zero hm
  have hn : n ≠ 0 := by
    rintro rfl
    simp only [UInt64.toNat_zero] at hle
    omega
  by_cases hone : m = 1
  · subst hone
    have hindex : (start n 1).nextSampleIndex.toNat = (n.toNat - 1) / 2 := by
      change ((n - 1) / 2).toNat = _
      rw [UInt64.toNat_div, toNat_sub_one hn]
      rfl
    constructor
    · intro s hs
      obtain rfl := List.mem_singleton.mp hs
      have hlast : ¬ (0 : UInt64) + 1 < 1 := by decide
      exact ⟨Nat.one_lt_two_pow (by omega), fun hlt => absurd hlt hlast, fun hlt => absurd hlt hlast⟩
    · change Uniform n.toNat 1 [(start n 1).nextSampleIndex.toNat]
      rw [hindex]
      exact uniform_middle (by omega)
  · have hm2 : 2 ≤ m.toNat := by
      have hne : m.toNat ≠ 1 := fun heq => hone (UInt64.toNat_inj.mp heq)
      omega
    obtain ⟨hexact, hindices⟩ := (visiting_start hn hm2).states hm2 hle m.toNat (by omega)
    refine ⟨hexact, ?_⟩
    rw [hindices, ← List.range_eq_range']
    exact uniform_spread hm2 hle

theorem toNat_sampleCount (n maxInputPoints : UInt64) :
    (sampleCount n maxInputPoints).toNat = min n.toNat maxInputPoints.toNat := by
  unfold sampleCount
  split
  · next hlt =>
    rw [UInt64.lt_iff_toNat_lt] at hlt
    omega
  · next hle =>
    rw [UInt64.lt_iff_toNat_lt] at hle
    omega

/-- The sampling loop visits one index after another, spread evenly over the points. -/
theorem uniform_sampling {K : Type*} [Field K] [LinearOrder K] [FloorRing K] (P : Platform K)
    (r : Request K) (offsets : PointFieldOffsets) (w : Workspace K) (n maxInputPoints : UInt64)
    (hn : 1 ≤ n) (hmax : 1 ≤ maxInputPoints) :
    sampleLoop P r offsets (sampleCount n maxInputPoints).toNat
        (.start n (sampleCount n maxInputPoints)) w =
      ((Sampling.start n (sampleCount n maxInputPoints)).indices
        (sampleCount n maxInputPoints).toNat).foldl (visit P r offsets) w ∧
    Uniform n.toNat (min n.toNat maxInputPoints.toNat)
      (((Sampling.start n (sampleCount n maxInputPoints)).indices
        (sampleCount n maxInputPoints).toNat).map UInt64.toNat) := by
  refine ⟨sampleLoop_eq_foldl P r offsets _ _ w, ?_⟩
  have hcount := toNat_sampleCount n maxInputPoints
  rw [UInt64.le_iff_toNat_le, UInt64.toNat_one] at hn hmax
  have hne : sampleCount n maxInputPoints ≠ 0 := by
    intro hzero
    rw [hzero, UInt64.toNat_zero] at hcount
    omega
  rw [← hcount]
  exact (Sampling.uniform_start hne (by omega)).2

/-- Eight points under a limit of four. -/
theorem uniform_sampling_eight :
    ((Sampling.start 8 (sampleCount 8 4)).indices (sampleCount 8 4).toNat).map UInt64.toNat =
        [0, 2, 4, 7] ∧
      Uniform 8 4 (((Sampling.start 8 (sampleCount 8 4)).indices
        (sampleCount 8 4).toNat).map UInt64.toNat) :=
  ⟨by decide, (uniform_sampling samplePlatform sampleRequest ⟨0, 4, 8⟩ .new 8 4 (by decide)
    (by decide)).2⟩

end X2Navigation.PointCloudVoxelFilter
