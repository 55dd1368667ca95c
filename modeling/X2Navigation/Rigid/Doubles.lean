import X2Navigation.Numeric.Arithmetic
import X2Navigation.Rigid.Isometry

/-! Rigid transforms with translations in doubles. A rotation has entries of at most one, so
nothing of it overflows and it is kept exact; a translation is rounded at every operation.
Where nothing is rounded these are the exact transforms. -/

namespace X2Navigation.Rigid

open Matrix

/-- `Eigen::Isometry3d`, with its translation in doubles. -/
structure Isometry3d (K : Type*) where
  linear : Matrix (Fin 3) (Fin 3) K
  translation : Fin 3 → Double K

variable {K : Type*} [Field K] [LinearOrder K]

/-- The library on doubles, which rounds what it computes. -/
structure Eigen3d (K : Type*) [Field K] [LinearOrder K] extends Eigen K where
  rounding : Rounding K

/-- The norm of a difference. -/
def Eigen3d.distance (E : Eigen3d K) (v w : Fin 3 → Double K) : Double K :=
  E.rounding.distance E.sqrt v w

/-- A transform of finite doubles. -/
def Isometry3.toDouble (a : Isometry3 K) : Isometry3d K :=
  ⟨a.linear, fun i => .finite (a.translation i)⟩

def Quaterniond.finite (q : Quaterniond K) : Quaterniond (Double K) :=
  ⟨.finite q.x, .finite q.y, .finite q.z, .finite q.w⟩

namespace Isometry3d

instance : One (Isometry3d K) := ⟨⟨1, 0⟩⟩

variable (R : Rounding K)

def mulVec (M : Matrix (Fin 3) (Fin 3) K) (v : Fin 3 → Double K) : Fin 3 → Double K :=
  fun i => R.sum fun j => R.mul (.finite (M i j)) (v j)

def mul (a b : Isometry3d K) : Isometry3d K :=
  ⟨a.linear * b.linear, fun i => R.add (mulVec R a.linear b.translation i) (a.translation i)⟩

def inverse (a : Isometry3d K) : Isometry3d K :=
  ⟨a.linear.transpose, mulVec R (-a.linear.transpose) a.translation⟩

/-! ### Exact arithmetic -/

theorem mulVec_exact (M : Matrix (Fin 3) (Fin 3) K) (v : Fin 3 → K) :
    mulVec .exact M (fun i => .finite (v i)) = fun i => .finite ((M *ᵥ v) i) := by
  ext i
  simp [mulVec, Rounding.sum, Matrix.mulVec, dotProduct, Fin.sum_univ_three, add_assoc]

theorem mul_exact (a b : Isometry3 K) : mul .exact a.toDouble b.toDouble = (a * b).toDouble := by
  simp [mul, Isometry3.toDouble, mulVec_exact, Isometry3.mul_def]

theorem inverse_exact (a : Isometry3 K) : inverse .exact a.toDouble = a.inverse.toDouble := by
  simp [inverse, Isometry3.toDouble, mulVec_exact, Isometry3.inverse, neg_mulVec]

theorem distance_exact [IsStrictOrderedRing K] {E : Eigen3d K} (hexact : E.rounding = .exact)
    (a b : Isometry3 K) : E.distance a.toDouble.translation b.toDouble.translation =
      .finite (E.norm (a.translation - b.translation)) := by
  obtain ⟨v, w, hv, hw⟩ : ∃ v w, v = a.translation ∧ w = b.translation := ⟨_, _, rfl, rfl⟩
  rw [Eigen3d.distance, Isometry3.toDouble, Isometry3.toDouble, hexact, ← hv, ← hw]
  have hsum : ((v - w) ⬝ᵥ (v - w)) = (v 0 - w 0) * (v 0 - w 0) +
      ((v 1 - w 1) * (v 1 - w 1) + (v 2 - w 2) * (v 2 - w 2)) := by
    simp [dotProduct, Fin.sum_univ_three, add_assoc]
  have hnonneg : ¬ (v - w) ⬝ᵥ (v - w) < 0 := by
    rw [hsum, not_lt]
    exact add_nonneg (mul_self_nonneg _) (add_nonneg (mul_self_nonneg _) (mul_self_nonneg _))
  simp only [Rounding.distance, Rounding.sum, Rounding.exact_sub, Rounding.exact_mul,
    Rounding.exact_add, ← hsum]
  rw [Rounding.sqrt, if_neg hnonneg]
  rfl

end Isometry3d

end X2Navigation.Rigid
