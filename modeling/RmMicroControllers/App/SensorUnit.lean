import RmMicroControllers.Devices.Bmi088Read
import RmMicroControllers.Library.Truncation
import RmMicroControllers.Tool.DoubleBuffer
import RmMicroControllers.Tool.PidForms

/-!
# The heater of the IMU

The loop of `sensorExternInterrupt`: read the temperature, feed it to a `PidControl` that holds
40 degrees, clamp the result at zero, and drive the heater with it as a `uint16_t`. Nothing
clamps the other end. In raw temperatures, of which eight make a degree, the result is one
fortieth of an integer: 8000 times the last distance from the command, plus the sum of all
distances.

## Main results

- `externInterrupts_heater` — the loop over a stream of answers is a run over its temperatures
- `externInterrupts_iff` — the loop can meet any raw temperatures of eleven bits and no others
- `heats_inRange_iff` — when the drive of the heater fits a `uint16_t` throughout a run
-/

namespace RmMicroControllers

open Truncation (truncate)
open Bmi088 (Sent deviceBmi088Read readingFrame rawTemp temperateOf)

/-- The conversion of a `float` to `uint16_t`, which the language fixes only where the truncated
    value fits. -/
structure UnsignedConversion where
  toUInt16 : ℚ → UInt16
  toUInt16_of_fits : ∀ x, 0 ≤ truncate x → truncate x ≤ 65535 →
    ((toUInt16 x).toNat : ℤ) = truncate x

/-- The conversion that keeps the low sixteen bits of the truncated value. -/
def UnsignedConversion.lowBits : UnsignedConversion where
  toUInt16 x := UInt16.ofNat (truncate x % 65536).toNat
  toUInt16_of_fits x hlo hhi := by
    have hmod : truncate x % 65536 = truncate x := Int.emod_eq_of_lt hlo (by omega)
    rw [hmod, UInt16.toNat_ofNat_of_lt' (by change (truncate x).toNat < 65536; omega)]
    exact Int.toNat_of_nonneg hlo

/-- The compare register of channel 1 of `htim10`. -/
structure Htim10 where
  ccr1 : UInt32
  deriving DecidableEq

/-- `heatTrigger`. It ignores the prescaler and always succeeds. -/
def heatTrigger (_psc pwm : UInt16) (htim10 : Htim10) : HalStatus × Htim10 :=
  (.ok, { htim10 with ccr1 := pwm.toUInt32 })

/-- What one pass of the loop of `sensorExternInterrupt` leaves behind: the controller, the value
    of `d` that was converted, and the timer. -/
structure Heater where
  bmi088Temperature : PidControl := PidControl.ofCmd 1600 0.2 0 40
  d : ℚ := 0
  htim10 : Htim10 := ⟨0⟩
  deriving DecidableEq

/-- The duty of the heater. -/
def Heater.duty (h : Heater) : ℕ := h.htim10.ccr1.toNat

/-- The pass once the temperature is read. -/
def Heater.heat (conv : UnsignedConversion) (h : Heater) (c : ℚ) : Heater :=
  let bmi088Temperature := h.bmi088Temperature.feedback c
  let d := bmi088Temperature.pid.out
  let d := if d > 0 then d else 0
  { bmi088Temperature := bmi088Temperature
    d := d
    htim10 := (heatTrigger 0 (conv.toUInt16 d) h.htim10).2 }

section Loop

variable (answers : ℕ → UInt8) (conv : UnsignedConversion)

/-- One pass of the loop. The two arrays are declared in it and nothing reads them. -/
def externInterrupt (s : Sent × Heater) : Sent × Heater :=
  let (reading, sent) := (deviceBmi088Read answers (fun _ => 0)).run s.1
  (sent, s.2.heat conv reading.temperate)

/-- A run of the heater over raw temperatures, the oldest first. -/
def heats (h : Heater) (raws : List ℤ) : Heater :=
  raws.foldl (fun h raw => h.heat conv (temperateOf raw)) h

/-- The raw temperature that the `k`-th reading finds, when the bus has sent `p` bytes before. -/
def rawAt (p k : ℕ) : ℤ := (rawTemp (answers (p + 21 * k + 19)) (answers (p + 21 * k + 20))).toInt

variable {conv}

theorem externInterrupt_eq (s : Sent × Heater) :
    externInterrupt answers conv s =
      (s.1 ++ readingFrame, s.2.heat conv (temperateOf (rawAt answers s.1.length 0))) := by
  obtain ⟨reading, hrun, htemp⟩ := Bmi088.deviceBmi088Read_run answers (fun _ => 0) s.1
  have hraw : temperateOf (rawAt answers s.1.length 0) = reading.temperate := htemp.symm
  rw [hraw]
  rw [externInterrupt]
  rw [hrun]
  rfl

/-- The loop, over any stream of answers, is a run of the heater over the temperatures in it. -/
theorem externInterrupts_heater (n : ℕ) (s : Sent × Heater) :
    ((externInterrupt answers conv)^[n] s).2 =
      heats conv s.2 ((List.range n).map (rawAt answers s.1.length)) := by
  induction n generalizing s with
  | zero => rfl
  | succ n ih =>
    have hshift : rawAt answers s.1.length ∘ Nat.succ = rawAt answers (s.1.length + 21) := by
      funext k
      simp only [Function.comp_apply, rawAt]
      rw [Nat.mul_succ, Nat.add_comm (21 * k), ← Nat.add_assoc]
    rw [Function.iterate_succ_apply, ih, externInterrupt_eq, List.range_succ_eq_map,
      List.map_cons, List.map_map, hshift]
    simp [heats]

/-- Any raw temperatures of eleven bits are found in some answers. -/
theorem exists_rawAt (p : ℕ) {raws : List ℤ} (h : ∀ raw ∈ raws, -1024 ≤ raw ∧ raw ≤ 1023) :
    ∃ answers : ℕ → UInt8, (List.range raws.length).map (rawAt answers p) = raws := by
  have hbytes : ∀ k : ℕ, ∃ high low, ∀ raw, raws[k]? = some raw →
      (rawTemp high low).toInt = raw := by
    intro k
    rcases hk : raws[k]? with _ | raw
    · exact ⟨0, 0, fun raw hraw => by cases hraw⟩
    · obtain ⟨hlo, hhi⟩ := h raw (List.mem_of_getElem? hk)
      obtain ⟨high, low, hraw⟩ := Bmi088.exists_rawTemp hlo hhi
      exact ⟨high, low, fun raw' hraw' => hraw.trans (Option.some.inj hraw')⟩
  choose high low hraw using hbytes
  -- the two bytes of a temperature end the 21 bytes of its reading
  refine ⟨fun n => if (n - p) % 21 = 19 then high ((n - p) / 21) else low ((n - p) / 21), ?_⟩
  apply List.ext_getElem (by simp)
  intro k _ hk
  have hhigh : (p + 21 * k + 19 - p) % 21 = 19 ∧ (p + 21 * k + 19 - p) / 21 = k := by omega
  have hlow : (p + 21 * k + 20 - p) % 21 ≠ 19 ∧ (p + 21 * k + 20 - p) / 21 = k := by omega
  rw [List.getElem_map, List.getElem_range, rawAt, if_pos hhigh.1, if_neg hlow.1, hhigh.2, hlow.2]
  exact hraw k _ (List.getElem?_eq_getElem hk)

/-- What the passes of the loop can leave are the runs over raw temperatures of eleven bits. -/
theorem externInterrupts_iff (sent : Sent) (n : ℕ) (h : Heater) :
    (∃ answers, ((externInterrupt answers conv)^[n] (sent, {})).2 = h) ↔
      ∃ raws : List ℤ, raws.length = n ∧ (∀ raw ∈ raws, -1024 ≤ raw ∧ raw ≤ 1023) ∧
        heats conv {} raws = h := by
  constructor
  · rintro ⟨answers, hrun⟩
    rw [externInterrupts_heater] at hrun
    refine ⟨_, by rw [List.length_map, List.length_range], fun raw hraw => ?_, hrun⟩
    obtain ⟨k, -, rfl⟩ := List.mem_map.mp hraw
    exact Bmi088.rawTemp_range _ _
  · rintro ⟨raws, rfl, hraws, hrun⟩
    obtain ⟨answers, hanswers⟩ := exists_rawAt sent.length hraws
    refine ⟨answers, ?_⟩
    rw [externInterrupts_heater, ← hrun]
    exact congrArg (heats conv {}) hanswers

end Loop

/-! ### The drive of the heater -/

/-- The distance of a raw temperature from the command, in eighths of a degree. -/
def rawError (raw : ℤ) : ℤ := 136 - raw

/-- What the controller asks for after `raws` and then `raw`, in fortieths. -/
def demand (raws : List ℤ) (raw : ℤ) : ℤ :=
  8000 * rawError raw + ((raws ++ [raw]).map rawError).sum

theorem error_eq (raw : ℤ) : 40 - temperateOf raw = rawError raw / 8 := by
  simp only [temperateOf, Bmi088.tempFactor, Bmi088.tempOffset, rawError]
  push_cast
  ring

theorem heats_append (conv : UnsignedConversion) (h : Heater) (raws : List ℤ) (raw : ℤ) :
    heats conv h (raws ++ [raw]) = (heats conv h raws).heat conv (temperateOf raw) := by
  simp [heats]

/-- The controller after a run is the one that was fed the temperatures. -/
theorem heats_control (conv : UnsignedConversion) (raws : List ℤ) :
    (heats conv {} raws).bmi088Temperature =
      PidControl.feedbacks 1600 0.2 0 40 (raws.map temperateOf) := by
  induction raws using List.reverseRecOn with
  | nil => rfl
  | append_singleton raws raw ih =>
    rw [heats_append, List.map_append, List.map_singleton, PidControl.feedbacks_append, ← ih]
    rfl

theorem sum_errors (raws : List ℤ) :
    ((raws.map temperateOf).map ((40 : ℚ) - ·)).sum = (raws.map rawError).sum / 8 := by
  induction raws with
  | nil => simp
  | cons raw raws ih =>
    simp only [List.map_cons, List.sum_cons, ih, error_eq]
    push_cast
    ring

/-- The output of the controller is one fortieth of the demand. -/
theorem heats_out (conv : UnsignedConversion) (raws : List ℤ) (raw : ℤ) :
    (heats conv {} (raws ++ [raw])).bmi088Temperature.pid.out = demand raws raw / 40 := by
  have hsum := sum_errors (raws ++ [raw])
  rw [List.map_append, List.map_singleton] at hsum
  rw [heats_control, List.map_append, List.map_singleton, PidControl.feedbacks_out, hsum, error_eq,
    demand]
  push_cast
  ring

theorem heats_d (conv : UnsignedConversion) (raws : List ℤ) (raw : ℤ) :
    (heats conv {} (raws ++ [raw])).d = max 0 (demand raws raw / 40 : ℚ) := by
  rw [← heats_out conv, heats_append]
  change (if _ > 0 then _ else (0 : ℚ)) = max 0 _
  split
  · next hpos => exact (max_eq_right (le_of_lt hpos)).symm
  · next hpos => exact (max_eq_left (not_lt.mp hpos)).symm

/-- The drive is never negative, and in range exactly when the demand is. -/
theorem heats_d_inRange_iff (conv : UnsignedConversion) (raws : List ℤ) (raw : ℤ) :
    (0 ≤ (heats conv {} (raws ++ [raw])).d ∧ (heats conv {} (raws ++ [raw])).d ≤ 65535) ↔
      demand raws raw ≤ 2621400 := by
  rw [heats_d, max_le_iff, div_le_iff₀ (by norm_num)]
  constructor
  · rintro ⟨-, -, h⟩
    norm_num at h
    exact_mod_cast h
  · intro h
    refine ⟨le_max_left _ _, by norm_num, ?_⟩
    norm_num
    exact_mod_cast h

/-- In range, the duty is the floor of the output, clamped at zero. -/
theorem heats_duty (conv : UnsignedConversion) {raws : List ℤ} {raw : ℤ}
    (h : demand raws raw ≤ 2621400) :
    ((heats conv {} (raws ++ [raw])).duty : ℤ) = max 0 (demand raws raw / 40) := by
  have hfloor : truncate (heats conv {} (raws ++ [raw])).d = max 0 (demand raws raw / 40) := by
    rw [heats_d, truncate, if_pos (le_max_left _ _)]
    have hdiv : ⌊(demand raws raw / 40 : ℚ)⌋ = demand raws raw / 40 := by
      exact_mod_cast Rat.floor_intCast_div_natCast (demand raws raw) 40
    obtain hle | hle := le_total (demand raws raw / 40 : ℚ) 0
    · have hnonpos := Int.floor_le_floor hle
      rw [hdiv, Int.floor_zero] at hnonpos
      rw [max_eq_left hle, Int.floor_zero, max_eq_left hnonpos]
    · have hnonneg := Int.floor_le_floor hle
      rw [hdiv, Int.floor_zero] at hnonneg
      rw [max_eq_right hle, hdiv, max_eq_right hnonneg]
  have hd : (heats conv {} (raws ++ [raw])).duty =
      (conv.toUInt16 (heats conv {} (raws ++ [raw])).d).toNat := by
    rw [heats_append]
    exact UInt16.toNat_toUInt32 _
  rw [hd, conv.toUInt16_of_fits _ (by omega) (by omega), hfloor]

theorem demand_antitone (raws : List ℤ) {raw warmer : ℤ} (h : raw ≤ warmer) :
    demand raws warmer ≤ demand raws raw := by
  simp only [demand, rawError, List.map_append, List.map_singleton, List.sum_append,
    List.sum_singleton]
  omega

/-- Throughout a run the drive is in range exactly when the demand of every reading is. A reading
    whose demand is in range gets the floor of the output as its duty, and no smaller a duty than
    a warmer reading after the same history. -/
theorem heats_inRange_iff (conv : UnsignedConversion) (raws : List ℤ) :
    ((∀ history raw, history ++ [raw] <+: raws →
        0 ≤ (heats conv {} (history ++ [raw])).d ∧
          (heats conv {} (history ++ [raw])).d ≤ 65535) ↔
      ∀ history raw, history ++ [raw] <+: raws → demand history raw ≤ 2621400) ∧
    ∀ history raw, demand history raw ≤ 2621400 →
      ((heats conv {} (history ++ [raw])).duty : ℤ) =
          max 0 ⌊(heats conv {} (history ++ [raw])).bmi088Temperature.pid.out⌋ ∧
        ∀ warmer, raw ≤ warmer →
          (heats conv {} (history ++ [warmer])).duty ≤
            (heats conv {} (history ++ [raw])).duty := by
  constructor
  · exact forall_congr' fun history => forall_congr' fun raw => forall_congr' fun _ =>
      heats_d_inRange_iff conv history raw
  · intro history raw h
    have hduty := heats_duty conv h
    refine ⟨?_, ?_⟩
    · have hdiv : ⌊(demand history raw / 40 : ℚ)⌋ = demand history raw / 40 := by
        exact_mod_cast Rat.floor_intCast_div_natCast (demand history raw) 40
      rw [hduty, heats_out, hdiv]
    · intro warmer hwarmer
      have hle := demand_antitone history hwarmer
      have hduty' := heats_duty conv (hle.trans h)
      omega

/-- A first reading of one degree below zero is already out of range. -/
theorem not_heats_inRange :
    ¬ ∀ (conv : UnsignedConversion) (raws : List ℤ), (∀ raw ∈ raws, -1024 ≤ raw ∧ raw ≤ 1023) →
      ∀ history raw, history ++ [raw] <+: raws →
        (0 ≤ (heats conv {} (history ++ [raw])).d ∧
          (heats conv {} (history ++ [raw])).d ≤ 65535) ∧
        ((heats conv {} (history ++ [raw])).duty : ℤ) =
          max 0 ⌊(heats conv {} (history ++ [raw])).bmi088Temperature.pid.out⌋ ∧
        ∀ warmer, raw ≤ warmer → warmer ≤ 1023 →
          (heats conv {} (history ++ [warmer])).duty ≤
            (heats conv {} (history ++ [raw])).duty := by
  intro h
  have hd := (h .lowBits [-192] (by decide) [] (-192) (List.prefix_refl _)).1
  have hdemand := (heats_d_inRange_iff _ [] (-192)).mp hd
  exact absurd hdemand (by decide)

-- the low sixteen bits of the drive at -1 degree, and the duty at 0 degrees
example : (heats .lowBits {} [-192]).duty = 72 ∧ (heats .lowBits {} [-184]).duty = 64008 := by
  decide +kernel

end RmMicroControllers
