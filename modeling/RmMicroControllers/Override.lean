import RmMicroControllers.Library.DownCounter
import RmMicroControllers.Library.Fallible

/-!
# `delay_us`

The loop of `override.c` that waits on the SysTick counter. It adds up the differences of
successive samples, never more than what elapsed, until they reach `nus * us_clock`. But
`us_clock` is the clock divided by a hundred million, and not by a million.

## Main results

- `delayLoop_elapsed` — the loop never ends before its target has elapsed
- `delayUs_longEnough_iff` — when a delay is as long as asked
-/

namespace RmMicroControllers

open DownCounter

/-- `us_clock`, the clock cycles that a microsecond counts for. -/
def usClock (systemCoreClock : UInt32) : UInt32 := systemCoreClock / 100000000

/-- The variables of the loop of `delay_us`. Two of them are `static`, and every call writes
    them before it reads them. -/
structure DelayState where
  told : UInt32
  tcnt : UInt32
  deriving DecidableEq

/-- One pass of the loop, with the sample `tnow` of `SysTick->VAL`. -/
def DelayState.sample (load : UInt32) (s : DelayState) (tnow : UInt32) : DelayState where
  told := tnow
  tcnt := if tnow ≤ s.told then s.tcnt + (s.told - tnow) else s.tcnt + (load - tnow + s.told)

/-- The loop over the samples that `SysTick->VAL` gives: after how many passes it breaks, or
    `none` when it still waits at the end of them. -/
def delayLoop (load ticks : UInt32) : DelayState → List UInt32 → Option ℕ
  | _, [] => none
  | s, tnow :: vals =>
    if (s.sample load tnow).tcnt ≥ ticks then some 1
    else (delayLoop load ticks (s.sample load tnow) vals).map (· + 1)

/-- `ticks` of `delay_us`. -/
def delayTicks (systemCoreClock : UInt32) (nus : UInt16) : UInt32 :=
  nus.toUInt32 * usClock systemCoreClock

/-- `delay_us`, over the samples that `SysTick->VAL` gives. -/
def delayUs (systemCoreClock load : UInt32) (nus : UInt16) : List UInt32 → Option ℕ
  | [] => none
  | told :: vals => delayLoop load (delayTicks systemCoreClock nus) ⟨told, 0⟩ vals

/-- What `SysTick->VAL` gives from a sample of `val` on, when the later samples are `gaps` cycles
    apart. -/
def sysTickVals (load : UInt32) (val : ℕ) (gaps : List ℕ) : List UInt32 :=
  (val :: samples (load.toNat + 1) val gaps).map UInt32.ofNat

/-- The target in cycles: the product does not overflow. -/
theorem delayTicks_toNat (systemCoreClock : UInt32) (nus : UInt16) :
    (delayTicks systemCoreClock nus).toNat =
      nus.toNat * (systemCoreClock.toNat / 100000000) := by
  have hnus := nus.toNat_lt
  have hclock := systemCoreClock.toNat_lt
  have hdiv : systemCoreClock.toNat / 100000000 ≤ 42 := by omega
  have hmul : nus.toNat * (systemCoreClock.toNat / 100000000) ≤ 65535 * 42 :=
    Nat.mul_le_mul (by omega) hdiv
  rw [delayTicks, usClock, UInt32.toNat_mul, UInt16.toNat_toUInt32, UInt32.toNat_div]
  exact Nat.mod_eq_of_lt (by
    change nus.toNat * (systemCoreClock.toNat / 100000000) < _
    omega)

/-- The cycles that a pass counts of a gap that starts when the counter shows `v`: all of them,
    or one less over a reload. -/
def counted (v gap : ℕ) : ℕ := if gap ≤ v then gap else gap - 1

theorem counted_le (v gap : ℕ) : counted v gap ≤ gap := by
  rw [counted]
  split <;> omega

section Loop

variable {load ticks : UInt32} {v gap : ℕ}

theorem toNat_ofNat_of_le {n : ℕ} (h : n ≤ load.toNat) : (UInt32.ofNat n).toNat = n :=
  UInt32.toNat_ofNat_of_lt' (lt_of_le_of_lt h load.toNat_lt)

theorem after_le (hv : v ≤ load.toNat) (gap : ℕ) : after (load.toNat + 1) v gap ≤ load.toNat :=
  Nat.le_of_lt_succ (after_lt (Nat.lt_succ_of_le hv) gap)

/-- The comparison of the two samples tells whether the counter reloaded between them. -/
theorem sample_le_iff (hv : v ≤ load.toNat) (hgap : gap ≤ load.toNat) :
    UInt32.ofNat (after (load.toNat + 1) v gap) ≤ UInt32.ofNat v ↔ gap ≤ v := by
  rw [UInt32.le_iff_toNat_le, toNat_ofNat_of_le hv, toNat_ofNat_of_le (after_le hv gap)]
  by_cases h : gap ≤ v
  · rw [after_of_le (Nat.lt_succ_of_le hv) h]
    omega
  · rw [after_of_lt (by omega) (by omega)]
    omega

/-- One pass counts the cycles since the last sample, or one less over a reload. -/
theorem sample_tcnt (hv : v ≤ load.toNat) (hgap : gap ≤ load.toNat) (tcnt : UInt32) :
    ((⟨UInt32.ofNat v, tcnt⟩ : DelayState).sample load
      (UInt32.ofNat (after (load.toNat + 1) v gap))).tcnt =
        tcnt + UInt32.ofNat (counted v gap) := by
  have hvval := toNat_ofNat_of_le hv
  have hnow := toNat_ofNat_of_le (after_le hv gap)
  have hcount := toNat_ofNat_of_le ((counted_le v gap).trans hgap)
  have hle := sample_le_iff hv hgap
  rw [DelayState.sample]
  dsimp only
  by_cases h : gap ≤ v
  · rw [if_pos (hle.mpr h)]
    refine congrArg (tcnt + ·) (UInt32.toNat_inj.mp ?_)
    rw [UInt32.toNat_sub_of_le _ _ (hle.mpr h), hvval, hnow, hcount,
      after_of_le (Nat.lt_succ_of_le hv) h, counted, if_pos h]
    omega
  · have hnowle : UInt32.ofNat (after (load.toNat + 1) v gap) ≤ load := by
      rw [UInt32.le_iff_toNat_le, hnow]
      exact after_le hv gap
    have hsum : load.toNat - after (load.toNat + 1) v gap + v = gap - 1 := by
      rw [after_of_lt (by omega) (by omega)]
      omega
    rw [if_neg (mt hle.mp h)]
    refine congrArg (tcnt + ·) (UInt32.toNat_inj.mp ?_)
    rw [UInt32.toNat_add, UInt32.toNat_sub_of_le _ _ hnowle, hvval, hnow, hcount, hsum, counted,
      if_neg h]
    have hload := load.toNat_lt
    exact Nat.mod_eq_of_lt (by omega)

/-- A pass never counts more than what elapsed. -/
theorem sample_tcnt_le (hv : v ≤ load.toNat) (hgap : gap ≤ load.toNat) (tcnt : UInt32) :
    ((⟨UInt32.ofNat v, tcnt⟩ : DelayState).sample load
      (UInt32.ofNat (after (load.toNat + 1) v gap))).tcnt.toNat ≤ tcnt.toNat + gap := by
  have hcount := counted_le v gap
  rw [sample_tcnt hv hgap, UInt32.toNat_add, toNat_ofNat_of_le (hcount.trans hgap)]
  exact (Nat.mod_le _ _).trans (by omega)

/-- One pass of the loop over the samples of the counter. -/
theorem delayLoop_cons (tcnt : UInt32) (gaps : List ℕ) :
    delayLoop load ticks ⟨UInt32.ofNat v, tcnt⟩
        ((samples (load.toNat + 1) v (gap :: gaps)).map UInt32.ofNat) =
      let next := ((⟨UInt32.ofNat v, tcnt⟩ : DelayState).sample load
        (UInt32.ofNat (after (load.toNat + 1) v gap))).tcnt
      if next ≥ ticks then some 1
      else (delayLoop load ticks ⟨UInt32.ofNat (after (load.toNat + 1) v gap), next⟩
        ((samples (load.toNat + 1) (after (load.toNat + 1) v gap) gaps).map
          UInt32.ofNat)).map (· + 1) := rfl

/-- The loop does not break before `ticks` cycles have elapsed since its first sample, however
    many reloads there were: what is counted never exceeds what elapsed. -/
theorem delayLoop_elapsed {gaps : List ℕ} (hv : v ≤ load.toNat)
    (hgaps : ∀ gap ∈ gaps, gap ≤ load.toNat) {tcnt : UInt32} {k : ℕ}
    (h : delayLoop load ticks ⟨UInt32.ofNat v, tcnt⟩
      ((samples (load.toNat + 1) v gaps).map UInt32.ofNat) = some k) :
    ticks.toNat ≤ tcnt.toNat + (gaps.take k).sum := by
  induction gaps generalizing v tcnt k with
  | nil => exact absurd h (by simp [samples, delayLoop])
  | cons gap gaps ih =>
    have hcount := sample_tcnt_le hv (hgaps gap (List.mem_cons_self ..)) tcnt
    rw [delayLoop_cons] at h
    dsimp only at h
    generalize ((⟨UInt32.ofNat v, tcnt⟩ : DelayState).sample load
      (UInt32.ofNat (after (load.toNat + 1) v gap))).tcnt = next at h hcount
    by_cases hticks : next ≥ ticks
    · -- the loop breaks here
      rw [if_pos hticks] at h
      obtain rfl : 1 = k := Option.some.inj h
      have hle := UInt32.le_iff_toNat_le.mp hticks
      simp only [List.take_succ_cons, List.take_zero, List.sum_cons, List.sum_nil]
      omega
    · rw [if_neg hticks] at h
      obtain ⟨n, hn, rfl⟩ := Option.map_eq_some_iff.mp h
      have hlater := ih (after_le hv gap) (fun g hg => hgaps g (List.mem_cons_of_mem _ hg)) hn
      simp only [List.take_succ_cons, List.sum_cons]
      omega

/-- A pass that reaches the target ends the loop. -/
theorem delayLoop_break (hv : v ≤ load.toNat) (hgap : gap ≤ load.toNat) {tcnt : UInt32}
    (h : ticks.toNat = tcnt.toNat + counted v gap) (gaps : List ℕ) :
    delayLoop load ticks ⟨UInt32.ofNat v, tcnt⟩
      ((samples (load.toNat + 1) v (gap :: gaps)).map UInt32.ofNat) = some 1 := by
  have hticks := ticks.toNat_lt
  have hge : tcnt + UInt32.ofNat (counted v gap) ≥ ticks := by
    rw [ge_iff_le, UInt32.le_iff_toNat_le, UInt32.toNat_add,
      toNat_ofNat_of_le ((counted_le v gap).trans hgap), Nat.mod_eq_of_lt (by omega)]
    omega
  rw [delayLoop_cons, sample_tcnt hv hgap]
  exact if_pos hge

/-- A pass that does not reach it leaves the loop one gap further. -/
theorem delayLoop_continue (ticks : UInt32) (hv : v ≤ load.toNat) (hgap : gap ≤ load.toNat)
    (tcnt : UInt32)
    (h : tcnt.toNat + counted v gap < ticks.toNat) :
    ∃ next : UInt32, next.toNat = tcnt.toNat + counted v gap ∧ ∀ gaps,
      delayLoop load ticks ⟨UInt32.ofNat v, tcnt⟩
          ((samples (load.toNat + 1) v (gap :: gaps)).map UInt32.ofNat) =
        (delayLoop load ticks ⟨UInt32.ofNat (after (load.toNat + 1) v gap), next⟩
          ((samples (load.toNat + 1) (after (load.toNat + 1) v gap) gaps).map
            UInt32.ofNat)).map (· + 1) := by
  have hticks := ticks.toNat_lt
  have hnext : (tcnt + UInt32.ofNat (counted v gap)).toNat = tcnt.toNat + counted v gap := by
    rw [UInt32.toNat_add, toNat_ofNat_of_le ((counted_le v gap).trans hgap)]
    exact Nat.mod_eq_of_lt (by omega)
  have hlt : ¬ tcnt + UInt32.ofNat (counted v gap) ≥ ticks := by
    rw [ge_iff_le, UInt32.le_iff_toNat_le, hnext]
    omega
  refine ⟨_, hnext, fun gaps => ?_⟩
  rw [delayLoop_cons, sample_tcnt hv hgap]
  exact if_neg hlt

/-- Sampled at every cycle, the loop ends within twice the cycles still to be counted: of two
    passes in a row at most one crosses a reload. -/
theorem exists_delayLoop_le (ticks : UInt32) (hload : 1 ≤ load.toNat) (n : ℕ) (hpos : 1 ≤ v)
    (hv : v ≤ load.toNat) (tcnt : UInt32) (h : ticks.toNat = tcnt.toNat + (n + 1)) :
    ∃ gaps k, (∀ gap ∈ gaps, gap ≤ load.toNat) ∧
      delayLoop load ticks ⟨UInt32.ofNat v, tcnt⟩
        ((samples (load.toNat + 1) v gaps).map UInt32.ofNat) = some k ∧
      (gaps.take k).sum ≤ 2 * n + 1 := by
  induction n generalizing v tcnt with
  | zero =>
    have hone : counted v 1 = 1 := if_pos hpos
    refine ⟨[1], 1, by simpa using hload, ?_, by simp⟩
    exact delayLoop_break hv hload (by omega) []
  | succ n ih =>
    have hone : counted v 1 = 1 := if_pos hpos
    have hafter : after (load.toNat + 1) v 1 = v - 1 := after_of_le (Nat.lt_succ_of_le hv) hpos
    obtain ⟨next, hnext, hcons⟩ := delayLoop_continue ticks hv hload tcnt
      (by omega)
    rw [hafter] at hcons
    by_cases hlow : 2 ≤ v
    · obtain ⟨gaps, k, hgaps, hrun, hsum⟩ :=
        ih (v := v - 1) (by omega) (by omega) next (by omega)
      refine ⟨1 :: gaps, k + 1, ?_, by rw [hcons, hrun]; rfl, ?_⟩
      · rintro gap (_ | ⟨_, hgap⟩)
        · exact hload
        · exact hgaps gap hgap
      · simp only [List.take_succ_cons, List.sum_cons]
        omega
    · -- the counter shows 0 now, and the next pass crosses the reload
      have hreload : after (load.toNat + 1) (v - 1) 1 = load.toNat := by
        rw [after_of_lt (by omega) (by omega)]
        omega
      have hzero : counted (v - 1) 1 = 0 := if_neg (by omega)
      obtain ⟨next', hnext', hcons'⟩ := delayLoop_continue ticks
        (v := v - 1) (by omega) hload next (by omega)
      rw [hreload] at hcons'
      obtain ⟨gaps, k, hgaps, hrun, hsum⟩ := ih hload le_rfl next' (by omega)
      refine ⟨1 :: 1 :: gaps, k + 2, ?_, by rw [hcons, hcons', hrun]; rfl, ?_⟩
      · rintro gap (_ | ⟨_, _ | ⟨_, hgap⟩⟩)
        · exact hload
        · exact hload
        · exact hgaps gap hgap
      · simp only [List.take_succ_cons, List.sum_cons]
        omega

end Loop

/-- Whenever `delay_us` returns, as many cycles have elapsed as were asked for. -/
def DelaysLongEnough (systemCoreClock load : UInt32) (nus : UInt16) : Prop :=
  ∀ val ≤ load.toNat, ∀ gaps : List ℕ, (∀ gap ∈ gaps, gap < load.toNat + 1) →
    ∀ k, delayUs systemCoreClock load nus (sysTickVals load val gaps) = some k →
      nus.toNat * systemCoreClock.toNat / 1000000 ≤ (gaps.take k).sum

/-- `delay_us` never returns before its own target has elapsed. -/
theorem delayUs_elapsed {systemCoreClock load : UInt32} {nus : UInt16} {val : ℕ}
    (hval : val ≤ load.toNat) {gaps : List ℕ} (hgaps : ∀ gap ∈ gaps, gap < load.toNat + 1) {k : ℕ}
    (h : delayUs systemCoreClock load nus (sysTickVals load val gaps) = some k) :
    (delayTicks systemCoreClock nus).toNat ≤ (gaps.take k).sum := by
  have helapsed := delayLoop_elapsed hval (fun gap hgap => Nat.le_of_lt_succ (hgaps gap hgap)) h
  rwa [UInt32.toNat_zero, Nat.zero_add] at helapsed

/-- Without a cycle between the samples, a target of zero is reached at once. -/
theorem delayUs_of_ticks_eq_zero {systemCoreClock : UInt32} {nus : UInt16}
    (h : (delayTicks systemCoreClock nus).toNat = 0) (load : UInt32) :
    delayUs systemCoreClock load nus (sysTickVals load 0 [0]) = some 1 :=
  delayLoop_break (Nat.zero_le _) (Nat.zero_le _) h []

/-- On a counter that counts, a target above zero can be reached within twice its cycles. -/
theorem exists_delayUs_le {systemCoreClock load : UInt32} {nus : UInt16}
    (hload : 1 ≤ load.toNat) (h : 1 ≤ (delayTicks systemCoreClock nus).toNat) :
    ∃ gaps k, (∀ gap ∈ gaps, gap < load.toNat + 1) ∧
      delayUs systemCoreClock load nus (sysTickVals load load.toNat gaps) = some k ∧
      (gaps.take k).sum < 2 * (delayTicks systemCoreClock nus).toNat := by
  obtain ⟨gaps, k, hgaps, hrun, hsum⟩ :=
    exists_delayLoop_le (delayTicks systemCoreClock nus) hload
      ((delayTicks systemCoreClock nus).toNat - 1) hload le_rfl 0
      (by rw [UInt32.toNat_zero]; omega)
  exact ⟨gaps, k, fun gap hgap => Nat.lt_succ_of_le (hgaps gap hgap), hrun, by omega⟩

/-- `delay_us` never returns before its own target has elapsed, and with a clock of whole
    megahertz that is as long as asked only for no time at all, for a clock of zero, or where the
    counter stands still and the loop never ends. -/
theorem delayUs_longEnough_iff (systemCoreClock load : UInt32) (nus : UInt16)
    (hclock : 1000000 ∣ systemCoreClock.toNat) :
    (∀ val ≤ load.toNat, ∀ gaps : List ℕ, (∀ gap ∈ gaps, gap < load.toNat + 1) →
      ∀ k, delayUs systemCoreClock load nus (sysTickVals load val gaps) = some k →
        (delayTicks systemCoreClock nus).toNat ≤ (gaps.take k).sum) ∧
    (DelaysLongEnough systemCoreClock load nus ↔
      nus = 0 ∨ systemCoreClock = 0 ∨ (load = 0 ∧ 100000000 ≤ systemCoreClock)) := by
  refine ⟨fun val hval gaps hgaps k h => delayUs_elapsed hval hgaps h, ?_⟩
  obtain ⟨mhz, hmhz⟩ := hclock
  have hticks := delayTicks_toNat systemCoreClock nus
  have htarget : nus.toNat * systemCoreClock.toNat / 1000000 = nus.toNat * mhz := by
    rw [hmhz, Nat.mul_left_comm]
    exact Nat.mul_div_cancel_left _ (by decide)
  have hus : systemCoreClock.toNat / 100000000 = mhz / 100 := by
    rw [hmhz]
    omega
  rw [hus] at hticks
  have hle : nus.toNat * (2 * (mhz / 100)) ≤ nus.toNat * mhz :=
    Nat.mul_le_mul_left _ (by omega)
  rw [Nat.mul_left_comm, ← hticks] at hle
  constructor
  · intro hlong
    by_contra hcond
    simp only [not_or, not_and, ← UInt16.toNat_inj, ← UInt32.toNat_inj, UInt32.le_iff_toNat_le]
      at hcond
    obtain ⟨hnus, hmhz0, hload⟩ := hcond
    have hpos : 0 < nus.toNat * mhz :=
      Nat.mul_pos (Nat.pos_of_ne_zero hnus) (Nat.pos_of_ne_zero fun h => hmhz0 (by simp [hmhz, h]))
    obtain hzero | hone := Nat.eq_zero_or_pos (delayTicks systemCoreClock nus).toNat
    · -- the target is zero, and the loop ends at its first sample
      have h := hlong 0 (Nat.zero_le _) [0] (by simp) 1 (delayUs_of_ticks_eq_zero hzero load)
      simp only [List.take_succ_cons, List.take_zero, List.sum_cons, List.sum_nil] at h
      omega
    · -- the target is at most a hundredth of what was asked for
      have hbig : 100 ≤ mhz := by
        by_contra hsmall
        rw [Nat.div_eq_of_lt (by omega), Nat.mul_zero] at hticks
        omega
      have hload1 : 1 ≤ load.toNat := by
        by_contra hlow
        refine hload ?_ ?_
        · change load.toNat = 0
          omega
        · change 100000000 ≤ systemCoreClock.toNat
          omega
      obtain ⟨gaps, k, hgaps, hrun, hsum⟩ := exists_delayUs_le hload1 hone
      have h := hlong load.toNat le_rfl gaps hgaps k hrun
      omega
  · intro hcond val hval gaps hgaps k h
    rw [htarget]
    obtain rfl | rfl | ⟨rfl, hbig⟩ := hcond
    · rw [UInt16.toNat_zero, Nat.zero_mul]
      exact Nat.zero_le _
    · have hzero : mhz = 0 := by
        rw [UInt32.toNat_zero] at hmhz
        omega
      rw [hzero, Nat.mul_zero]
      exact Nat.zero_le _
    · -- the counter stands still, so the loop ends only with a target of zero
      have hsum : (gaps.take k).sum = 0 := by
        rw [List.sum_eq_zero_iff_forall_eq_nat]
        intro gap hgap
        have hlt := hgaps gap (List.mem_of_mem_take hgap)
        rw [UInt32.toNat_zero] at hlt
        omega
      have helapsed := delayUs_elapsed hval hgaps h
      have hbig' : 100 ≤ mhz := by
        have := UInt32.le_iff_toNat_le.mp hbig
        change 100000000 ≤ systemCoreClock.toNat at this
        omega
      rw [hsum, hticks] at helapsed
      have hnus : nus.toNat = 0 := by
        obtain hz | hz := Nat.mul_eq_zero.mp (Nat.le_zero.mp helapsed)
        · exact hz
        · omega
      rw [hnus, Nat.zero_mul]
      exact Nat.zero_le _

/-- One microsecond at 168 megahertz. -/
theorem not_delaysLongEnough_168 : ¬ DelaysLongEnough 168000000 167999 1 :=
  mt (delayUs_longEnough_iff 168000000 167999 1 (by decide)).2.mp (by decide)

/-- At 168 megahertz a single cycle is enough for a microsecond. -/
theorem not_delayUs_longEnough :
    ¬ ∀ (systemCoreClock load : UInt32) (nus : UInt16), 1000000 ∣ systemCoreClock.toNat →
      ∀ val ≤ load.toNat, ∀ gaps : List ℕ, (∀ gap ∈ gaps, gap < load.toNat + 1) →
        ∀ k, delayUs systemCoreClock load nus (sysTickVals load val gaps) = some k →
          nus.toNat * systemCoreClock.toNat / 1000000 ≤ (gaps.take k).sum := by
  intro h
  have hcycles := h 168000000 167999 1 (by decide) 1000 (by decide) [1] (by decide) 1
    (by decide +kernel)
  exact absurd hcycles (by decide)

end RmMicroControllers
