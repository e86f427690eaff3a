/-
Quaternions in exact arithmetic: their components, rotations as an action on points, and the
orientation that a list of gates leads to when each gate turns the sphere about an axis fixed in
space.
-/
import BlochSphere.Proofs.Scalar.Real
import BlochSphere.Gate

namespace BlochSphere

attribute [ext] Vec3 Quat Amplitude

/-- The orientation after the gates of a list, the first of them first. -/
def Quat.turnAll {α : Type} [Scalar α] (q : Quat α) (gates : List Gate) : Quat α :=
  gates.foldl (fun q g => Quat.axisAngle g.axis g.angle * q) q

theorem Quat.turnAll_append {α : Type} [Scalar α] (q : Quat α) (front back : List Gate) :
    q.turnAll (front ++ back) = (q.turnAll front).turnAll back := List.foldl_append

/-! ## Points -/

namespace Vec3

/-- The length is Euclidean, though it is computed from two sides at a time. -/
theorem norm_eq (p : Vec3 ℝ) : p.norm = √(p.x ^ 2 + p.y ^ 2 + p.z ^ 2) := by
  have h : √(p.y ^ 2 + p.z ^ 2) ^ 2 = p.y ^ 2 + p.z ^ 2 := Real.sq_sqrt (by positivity)
  simp only [norm, Scalar.real_hypot, h]
  ring_nf

theorem unit_of_norm_eq_one {p : Vec3 ℝ} (h : p.norm = 1) : p.unit = p := by
  have hs : ∀ c : ℝ, 1 / (1 : ℝ) * c = c := fun c => by rw [div_one, one_mul]
  simp only [unit, h, scale, Scalar.real_one]
  ext <;> exact hs _

end Vec3

/-! ## Products and rotations -/

namespace Quat

section Components

variable (p q : Quat ℝ)

@[simp] theorem mul_re : (p * q).re = p.re * q.re - p.i * q.i - p.j * q.j - p.k * q.k := rfl

@[simp] theorem mul_i : (p * q).i = p.re * q.i + p.i * q.re + p.j * q.k - p.k * q.j := rfl

@[simp] theorem mul_j : (p * q).j = p.re * q.j - p.i * q.k + p.j * q.re + p.k * q.i := rfl

@[simp] theorem mul_k : (p * q).k = p.re * q.k + p.i * q.j - p.j * q.i + p.k * q.re := rfl

@[simp] theorem conj_re : q.conj.re = q.re := rfl

@[simp] theorem conj_i : q.conj.i = -q.i := rfl

@[simp] theorem conj_j : q.conj.j = -q.j := rfl

@[simp] theorem conj_k : q.conj.k = -q.k := rfl

end Components

@[simp] theorem ofPoint_re (v : Vec3 ℝ) : (ofPoint v).re = 0 := Scalar.real_zero

@[simp] theorem ofPoint_i (v : Vec3 ℝ) : (ofPoint v).i = v.x := rfl

@[simp] theorem ofPoint_j (v : Vec3 ℝ) : (ofPoint v).j = v.y := rfl

@[simp] theorem ofPoint_k (v : Vec3 ℝ) : (ofPoint v).k = v.z := rfl

/-- Rotating by a product is rotating by its right factor and then by its left one. Neither has to
be of length one. -/
theorem rotate_mul (p q : Quat ℝ) (v : Vec3 ℝ) : (p * q).rotate v = p.rotate (q.rotate v) := by
  ext <;> simp [rotate] <;> ring

theorem rotate_identity (v : Vec3 ℝ) : identity.rotate v = v := by
  ext <;> simp [rotate, identity]

/-- About an axis of length one, the rotation has the sine of half the angle along the axis. -/
theorem axisAngle_of_norm_eq_one {axis : Vec3 ℝ} (h : axis.norm = 1) (angle : ℝ) :
    axisAngle axis angle = ⟨Real.cos (angle / 2), Real.sin (angle / 2) * axis.x,
      Real.sin (angle / 2) * axis.y, Real.sin (angle / 2) * axis.z⟩ := by
  simp only [axisAngle, Vec3.unit_of_norm_eq_one h, Scalar.real_sin, Scalar.real_cos]

end Quat

/-! ## The axes of the gates -/

namespace Gate

theorem axis_h : (axis h : Vec3 ℝ) = ⟨1 / √2, 0, 1 / √2⟩ := by
  have hn : Vec3.norm (⟨1, 0, 1⟩ : Vec3 ℝ) = √2 := by
    rw [Vec3.norm_eq]
    norm_num
  simp only [axis, Vec3.unit, Vec3.scale, Scalar.real_zero, Scalar.real_one, hn]
  ext <;> simp

/-- Every gate's axis has length one. -/
theorem norm_axis (g : Gate) : (axis g : Vec3 ℝ).norm = 1 := by
  rw [Vec3.norm_eq]
  cases g with
  | h =>
    rw [axis_h]
    norm_num
  | _ => simp [axis]

end Gate

end BlochSphere
