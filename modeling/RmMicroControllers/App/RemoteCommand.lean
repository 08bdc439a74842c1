import RmMicroControllers.App.CurrentLimit

/-!
# Commands of the remote control

A command is a coefficient times a channel over `RC_CHANNEL_VALUE_ERROR`, so it is bounded by
its coefficient as long as the channel is bounded by that constant. `dbusUpdate` checks this
for the four sticks and not for the wheel, which the chassis takes its speed from.

## Main results

- `command_bounded_iff` — which commands are bounded after any sequence of frames
-/

namespace RmMicroControllers

open DeviceMonitor Truncation

/-- The storage after a sequence of frames. -/
def dbusUpdates {ι : Type} (s : Storage ι) (frames : List DbusFrame) : Storage ι :=
  frames.foldl (fun s f => (dbusUpdate s f).2) s

/-- The last frame was rejected, or its wheel is between `RC_CH_VALUE_MIN` and
    `RC_CH_VALUE_MAX`. -/
def WheelInRange (frames : List DbusFrame) : Prop :=
  ∀ f ∈ frames.getLast?, dbusMismatch f = false →
    364 ≤ dbusWord f 16 17 ∧ dbusWord f 16 17 ≤ 1684

/-- A command is at most its coefficient and can be narrowed. -/
def CommandBounded {ι : Type} (s : Storage ι) (channel : Fin 5) (channelCoeff : ℚ) : Prop :=
  |getCommandDbusChannel s channel channelCoeff| ≤ |channelCoeff| ∧
    FitsInt16 (truncate (getCommandDbusChannel s channel channelCoeff))

/-- The chassis takes over a speed of at most 2700, whatever a conversion out of range gives. -/
def ChassisSpeedBounded (s : Storage Controller) : Prop :=
  ∀ (conv : Conversion) (c : ChassisControl) (i : Fin 6) (t : Storage Controller),
    c.singleSub.toNat = i → c.getCommand conv s = .ok t →
      |(t.joint (.chassis, i)).target.speed.toInt| ≤ 2700

section Bound

variable {ι : Type} {s : Storage ι} {channel : Fin 5}

/-- The bound of a command is the bound of its channel. -/
theorem commandBounded_iff {channelCoeff : ℚ} (hcoeff : |channelCoeff| ≤ 32767) :
    CommandBounded s channel channelCoeff ↔
      channelCoeff = 0 ∨ (s.deviceDbus.data.channel channel).toInt.natAbs ≤ 660 := by
  generalize hx : (s.deviceDbus.data.channel channel).toInt = x
  have habs : |getCommandDbusChannel s channel channelCoeff| =
      |channelCoeff| * |(x : ℚ)| / 660 := by
    rw [getCommandDbusChannel, hx, abs_div, abs_mul]
    norm_num [rcChannelValueError]
  have hbound : |getCommandDbusChannel s channel channelCoeff| ≤ |channelCoeff| ↔
      channelCoeff = 0 ∨ x.natAbs ≤ 660 := by
    have hnat : |(x : ℚ)| ≤ 660 ↔ x.natAbs ≤ 660 := by
      rw [← Int.cast_abs, Int.abs_eq_natAbs]
      exact_mod_cast Iff.rfl
    rw [habs, div_le_iff₀ (by norm_num), ← hnat]
    rcases (abs_nonneg channelCoeff).eq_or_lt with hzero | hpos
    · rw [← hzero, zero_mul, zero_mul]
      exact iff_of_true le_rfl (.inl (abs_eq_zero.mp hzero.symm))
    · rw [mul_le_mul_iff_right₀ hpos]
      exact (or_iff_right (abs_pos.mp hpos)).symm
  rw [CommandBounded]
  rw [← hbound, and_iff_left_iff_imp]
  intro hle
  obtain ⟨hlo, hhi⟩ := abs_le.mp (hle.trans hcoeff)
  exact fitsInt16_truncate (by linarith) hhi

end Bound

/-! ### What the frames leave -/

section Frames

variable {ι : Type} (s : Storage ι)

@[simp]
theorem dbusUpdates_nil : dbusUpdates s [] = s := rfl

@[simp]
theorem dbusUpdates_snoc (frames : List DbusFrame) (f : DbusFrame) :
    dbusUpdates s (frames ++ [f]) = (dbusUpdate (dbusUpdates s frames) f).2 := by
  simp [dbusUpdates]

theorem dbusUpdate_online (f : DbusFrame) :
    (dbusUpdate s f).2.deviceDbus.online = s.deviceDbus.online := by
  rw [dbusUpdate]
  split <;> rfl

theorem dbusUpdates_online (frames : List DbusFrame) :
    (dbusUpdates s frames).deviceDbus.online = s.deviceDbus.online := by
  induction frames using List.reverseRecOn with
  | nil => rfl
  | append_singleton frames f ih => rw [dbusUpdates_snoc, dbusUpdate_online, ih]

/-- The wheel after a frame. -/
theorem dbusUpdate_wheel (f : DbusFrame) :
    ((dbusUpdate s f).2.deviceDbus.data.channel 4).toInt.natAbs ≤ 660 ↔
      (dbusMismatch f = false → 364 ≤ dbusWord f 16 17 ∧ dbusWord f 16 17 ≤ 1684) := by
  rw [dbusUpdate]
  cases hmismatch : dbusMismatch f with
  | true => exact iff_of_true (Nat.zero_le _) fun h => absurd h.symm Bool.false_ne_true
  | false =>
    have hword : dbusWord f 16 17 < 65536 := by
      have hlo := (f 16).toNat_lt
      have hhi := (f 17).toNat_lt
      have hshift : (f 17).toNat <<< 8 < 2 ^ 16 := by
        rw [Nat.shiftLeft_eq]
        omega
      exact Nat.or_lt_two_pow (by omega) hshift
    show (Int16.ofNat (dbusWord f 16 17) - 1024).toInt.natAbs ≤ 660 ↔ _
    rw [Int16.toInt_sub, Int16.toInt_ofNat', Int.bmod_sub_bmod]
    show (Int.bmod (dbusWord f 16 17 - 1024) 65536).natAbs ≤ 660 ↔ _
    have hcentred : Int.bmod (dbusWord f 16 17 - 1024) 65536 =
        if dbusWord f 16 17 < 33792 then (dbusWord f 16 17 : ℤ) - 1024
        else (dbusWord f 16 17 : ℤ) - 66560 := by
      rw [Int.bmod_def]
      push_cast
      split <;> split <;> omega
    rw [hcentred, forall_prop_of_true rfl]
    split <;> omega

/-- The sticks are always bounded, and the wheel is if the last frame says so. -/
theorem dbusUpdates_channel (hs : s.deviceDbus.data = {}) (frames : List DbusFrame)
    (channel : Fin 5) :
    ((dbusUpdates s frames).deviceDbus.data.channel channel).toInt.natAbs ≤ 660 ↔
      channel ≠ 4 ∨ WheelInRange frames := by
  induction frames using List.reverseRecOn with
  | nil =>
    rw [dbusUpdates_nil, hs]
    refine iff_of_true (Nat.zero_le _) (.inr fun f hf => ?_)
    cases hf
  | append_singleton frames f _ =>
    rw [dbusUpdates_snoc]
    by_cases hchannel : channel = 4
    · subst hchannel
      rw [dbusUpdate_wheel]
      simp [WheelInRange]
    · obtain ⟨k, rfl⟩ := Fin.eq_castSucc_of_ne_last hchannel
      exact iff_of_true (Robot.dbusUpdate_stick _ f k) (.inl hchannel)

end Frames

/-! ### The two parts of the bound -/

theorem toInt_ofInt_saturate (z : ℤ) :
    (Int16.ofInt (saturate (-32768) 32767 z)).toInt = saturate (-32768) 32767 z := by
  have hlo : -32768 ≤ saturate (-32768) 32767 z := le_saturate
  have hhi : saturate (-32768) 32767 z ≤ 32767 := saturate_le (by decide)
  rw [Int16.toInt_ofInt]
  exact Int.bmod_eq_of_le (by simpa using hlo) (by simp only [Int16.size]; omega)

theorem toInt_saturated {x : ℚ} (hx : FitsInt16 (truncate x)) :
    (Int16.ofInt (saturate (-32768) 32767 (truncate x))).toInt = truncate x := by
  rw [toInt_ofInt_saturate, saturate_eq_self hx.1 hx.2]

/-- The conversion that saturates. -/
def Conversion.saturating : Conversion where
  toInt16 x := Int16.ofInt (saturate (-32768) 32767 (truncate x))
  toInt16_of_fits _ hx := toInt_saturated hx

theorem Conversion.saturating_toInt (x : ℚ) :
    (Conversion.saturating.toInt16 x).toInt = saturate (-32768) 32767 (truncate x) :=
  toInt_ofInt_saturate _

/-- What `get_command` stores. -/
theorem ChassisControl.getCommand_speed {conv : Conversion} {c : ChassisControl} {i : Fin 6}
    {s t : Storage Controller} (hi : c.singleSub.toNat = i) (h : c.getCommand conv s = .ok t) :
    (t.joint (.chassis, i)).target.speed = getCommandDefault conv s 4 2700 0 0 := by
  obtain ⟨k, hk, h⟩ := Fallible.bind_eq_ok.mp h
  obtain rfl : k = i := Fin.ext ((index_eq_ok.mp hk).symm.trans hi)
  rw [← Fallible.pure_eq_ok.mp h, Storage.modifyJoint_self]
  rfl

/-- The speed that channel 4 asks for is bounded by its coefficient exactly if the channel is
    bounded: one count more is four more, which truncation does not take back. -/
theorem abs_truncate_wheel_le_iff {s : Storage Controller} :
    |truncate (getCommandDbusChannel s 4 2700)| ≤ 2700 ↔
      (s.deviceDbus.data.channel 4).toInt.natAbs ≤ 660 := by
  have hcommand : getCommandDbusChannel s 4 2700 =
      (2700 * (s.deviceDbus.data.channel 4).toInt : ℤ) / 660 := by
    rw [getCommandDbusChannel]
    push_cast
    rfl
  generalize (s.deviceDbus.data.channel 4).toInt = x at hcommand
  rw [abs_le, le_truncate_iff (by decide), truncate_le_iff (by decide), hcommand,
    lt_div_iff₀ (by norm_num), div_lt_iff₀ (by norm_num)]
  have h₁ : (((-2700 : ℤ) : ℚ) - 1) * 660 < (2700 * x : ℤ) ↔ -1782660 < 2700 * x := by
    rw [show (((-2700 : ℤ) : ℚ) - 1) * 660 = ((-1782660 : ℤ) : ℚ) by norm_num, Int.cast_lt]
  have h₂ : ((2700 * x : ℤ) : ℚ) < ((2700 : ℤ) + 1) * 660 ↔ 2700 * x < 1782660 := by
    rw [show (((2700 : ℤ) : ℚ) + 1) * 660 = ((1782660 : ℤ) : ℚ) by norm_num, Int.cast_lt]
  rw [h₁, h₂]
  omega

/-- The speed of the chassis is bounded exactly when its command is. -/
theorem chassisSpeedBounded_iff {s : Storage Controller} :
    ChassisSpeedBounded s ↔ s.deviceDbus.online = false ∨
      (s.deviceDbus.data.channel 4).toInt.natAbs ≤ 660 := by
  constructor
  · intro h
    cases honline : s.deviceDbus.online with
    | false => exact .inl rfl
    | true =>
      -- a conversion that saturates keeps every speed out of range that the channel asks for
      have hcommand : ({} : ChassisControl).getCommand .saturating s = .ok _ := rfl
      have hspeed := h .saturating {} 0 _ rfl hcommand
      rw [ChassisControl.getCommand_speed rfl hcommand] at hspeed
      simp only [getCommandDefault, ne_eq, not_true_eq_false, if_false, honline, if_true,
        Conversion.saturating_toInt] at hspeed
      refine .inr (abs_truncate_wheel_le_iff.mp ?_)
      rw [saturate] at hspeed
      rw [abs_le] at hspeed ⊢
      omega
  · intro h conv c i t hi ht
    rw [ChassisControl.getCommand_speed hi ht]
    rcases h with hoffline | hwheel
    · rw [getCommandDefault_offline hoffline]
      decide
    · rw [getCommandDefault]
      cases s.deviceDbus.online with
      | false => simp
      | true =>
        have hle : |(2700 : ℚ)| ≤ 32767 := by norm_num [abs_of_pos]
        have hbounded : CommandBounded s 4 2700 := (commandBounded_iff hle).mpr (.inr hwheel)
        simp only [ne_eq, not_true_eq_false, if_false, if_true]
        rw [conv.toInt16_of_fits _ hbounded.2]
        exact abs_truncate_wheel_le_iff.mpr hwheel

/-- A frame with centred sticks, both switches up and the wheel at zero. -/
def wheelAtZero : DbusFrame :=
  ![0x00, 0x04, 0x20, 0x00, 0x01, 0x58, 0, 0, 0, 0, 0, 0, 0, 0, 0, 0, 0, 0]

end RmMicroControllers
