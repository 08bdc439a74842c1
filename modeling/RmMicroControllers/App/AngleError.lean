import RmMicroControllers.App.Controllers

/-!
# The error of the angle loop

`format_angle_delta` brings the difference of two encoder readings back by one turn, where the
turn is `angle_limit[1]`. The default of a GM6020 is the largest reading, 8191, and not the
number of positions.

## Main results

- `JointData.pidAngle_error_iff` — when the error is the shortest rotation
-/

namespace RmMicroControllers

namespace MathTool

/-- `format_angle_delta` on integers. -/
def formatAngleDeltaInt (delta limit : ℤ) : ℤ :=
  if limit < 2 * |delta| then if 0 < delta then delta - limit else delta + limit else delta

theorem formatAngleDelta_intCast (delta limit : ℤ) :
    formatAngleDelta delta limit = formatAngleDeltaInt delta limit := by
  have hhalf : |(delta : ℚ)| > limit / 2 ↔ limit < 2 * |delta| := by
    rw [gt_iff_lt, div_lt_iff₀ two_pos, mul_comm]
    exact_mod_cast Iff.rfl
  have hsign : (delta : ℚ) > 0 ↔ 0 < delta := Int.cast_pos
  rw [formatAngleDelta, formatAngleDeltaInt]
  simp only [hhalf, hsign]
  split
  · split <;> push_cast <;> rfl
  · rfl

/-- Up to one and a half turns, the result is the shortest rotation on an encoder with `limit`
    positions. -/
theorem formatAngleDeltaInt_spec {delta limit : ℤ} (h : 2 * |delta| ≤ 3 * limit) :
    limit ∣ formatAngleDeltaInt delta limit - delta ∧
      2 * |formatAngleDeltaInt delta limit| ≤ limit := by
  rw [formatAngleDeltaInt]
  simp only [Int.abs_eq_natAbs] at h ⊢
  split
  · split
    · exact ⟨⟨-1, by ring⟩, by omega⟩
    · exact ⟨⟨1, by ring⟩, by omega⟩
  · exact ⟨⟨0, by ring⟩, by omega⟩

end MathTool

open MathTool

/-- The number of positions of a motor's encoder. -/
def encoderPositions : ℤ := 8192

/-- `error` is a shortest signed rotation over a difference of `delta` encoder positions. -/
def ShortestRotation (delta : ℤ) (error : ℚ) : Prop :=
  ∃ e : ℤ, error = e ∧ encoderPositions ∣ e - delta ∧ 2 * |e| ≤ encoderPositions

/-- A joint with the angle limits of a GM6020. -/
def JointData.IsRM6020 (j : JointData) : Prop :=
  j.coeff.angleLimit = (gJointDefault .kRM6020).angleLimit

namespace JointData

/-- What the angle loop stores as its new error. -/
theorem pidAngle_error {j : JointData} (hj : j.IsRM6020) (get set : ℤ) :
    ((j.pidAngle get set).pidCalc 1).error 0 = formatAngleDeltaInt (set - get) 8191 := by
  have hlimit : (j.coeff.angleLimit 1).toInt = 8191 := by
    rw [hj]
    rfl
  rw [← formatAngleDelta_intCast]
  simp only [pidAngle, Function.update_self, Pid.pidAngle, Pid.pidTarget, hlimit]
  push_cast
  rfl

/-- The error is the shortest rotation exactly while the two positions are at most 4095 apart,
    so that no turn is taken off; and two targets a multiple of a turn apart never give the
    same error. -/
theorem pidAngle_error_iff {j : JointData} (hj : j.IsRM6020) {get set : ℤ}
    (hset : |set - get| < 12288) :
    (ShortestRotation (set - get) (((j.pidAngle get set).pidCalc 1).error 0) ↔
      |set - get| ≤ 4095) ∧
    ∀ set' : ℤ, |set' - get| < 12288 → encoderPositions ∣ set' - set →
      (((j.pidAngle get set').pidCalc 1).error 0 = ((j.pidAngle get set).pidCalc 1).error 0 ↔
        set' = set) := by
  constructor
  · rw [pidAngle_error hj]
    constructor
    · rintro ⟨e, he, hdvd, -⟩
      obtain rfl := Int.cast_injective he
      by_contra hfar
      rw [encoderPositions, formatAngleDeltaInt] at hdvd
      rw [if_pos (by omega)] at hdvd
      split at hdvd <;> omega
    · intro hnear
      refine ⟨_, rfl, ?_⟩
      rw [encoderPositions, formatAngleDeltaInt]
      rw [if_neg (by omega)]
      exact ⟨by simp, by omega⟩
  · intro set' hset' hdvd
    rw [pidAngle_error hj, pidAngle_error hj, Int.cast_inj]
    rw [encoderPositions] at hdvd
    constructor
    · intro heq
      -- taking off 8191 positions instead of 8192 tells the two targets apart
      unfold formatAngleDeltaInt at heq
      simp only [Int.abs_eq_natAbs] at heq hset hset'
      split_ifs at heq <;> omega
    · exact fun h => h ▸ rfl

/-- A joint with the defaults of a GM6020. -/
def rm6020 : JointData := { coeff := gJointDefault .kRM6020 }

theorem rm6020_isRM6020 : rm6020.IsRM6020 := rfl

/-- From the last position to the first, a rotation by one position, the error is zero. -/
theorem pidAngle_error_wrong :
    ¬ ShortestRotation (0 - 8191) (((rm6020.pidAngle (8191 : ℤ) (0 : ℤ)).pidCalc 1).error 0) := by
  rw [pidAngle_error rm6020_isRM6020]
  rintro ⟨e, he, hdvd, -⟩
  obtain rfl := Int.cast_injective he
  revert hdvd
  decide

/-- Within half a turn the error is right. -/
theorem pidAngle_error_near :
    ShortestRotation (1000 - 4800)
      (((rm6020.pidAngle (4800 : ℤ) (1000 : ℤ)).pidCalc 1).error 0) :=
  (pidAngle_error_iff rm6020_isRM6020 (by decide)).1.mpr (by decide)

end JointData

end RmMicroControllers
