import RmMicroControllers.App.MotorControl
import RmMicroControllers.Library.Sections
import RmMicroControllers.Tool.DoubleBuffer

/-!
# From the bytes of the remote control to its frames

The DMA of `HUART_DBUS` stores every byte of the line into one of two sections of 32 bytes. When
the line falls idle after some, but not 32, bytes in the section, the driver calls
`HAL_UARTEx_RxEventCallback`, which changes the section and hands over what came, if that were
18 bytes. The robot above it only knows whole frames.

## Main results

- `robot_run` — what a run over bytes is for the robot, and where the DMA is after it
- `runs_iff_heard` — the robot over frames is exactly what is left of the board over bytes
-/

namespace RmMicroControllers

open Transition DeviceMonitor

/-- `DBUS_CACHE_BYTE_LEN`. -/
def dbusCacheByteLen : ℕ := 32

/-- `DBUS_FRAME_BYTE_LEN`. -/
def dbusFrameByteLen : UInt16 := 18

/-- `gDbusCacheArray`. -/
abbrev DbusCache := Bool → Fin 32 → UInt8

/-- The bytes of a section that `dbusUpdate` reads. -/
def dbusRxData (cache : DbusCache) (used : Bool) : DbusFrame := fun i =>
  cache used (i.castLE (by decide))

/-- `transimitionDbusRx`. -/
def transimitionDbusRx {ι : Type} (cache : DbusCache) (used : Bool) (s : Storage ι) :
    HalStatus × Storage ι :=
  let (accepted, s) := dbusUpdate s (dbusRxData cache used)
  (if accepted then .ok else .error, s)

/-- The robot with the receiver of its remote control. -/
structure Board where
  robot : Robot
  uart : Uart Bool := {}
  cache : DbusCache := fun _ _ => 0

/-- What happens to a board: any call of the robot's but a frame of the remote control, a byte
on the line, and a call of the driver's. -/
inductive BoardEvent where
  | call (e : RobotEvent)
  | byte (b : UInt8)
  | rxEvent (size : UInt16)

namespace Board

/-- The line of `userCodeInit` about `HUART_DBUS`, and `motorInit`. -/
def start : Board where
  robot := started
  uart := (Uart.transimitionDmaInit {} false true (UInt16.ofNat dbusCacheByteLen)).2

/-- The DMA stores a byte: the first free cell is as far from the end of the section as `NDTR`
says, and after the last one `NDTR` is reloaded and `CT` changes. -/
def dmaStore (x : Board) (b : UInt8) : Board :=
  if x.uart.en && x.uart.dmar then
    { x with
      cache := Function.update x.cache x.uart.ct fun i =>
        if i.val + x.uart.ndtr.toNat = dbusCacheByteLen then b else x.cache x.uart.ct i
      uart := { x.uart with
        ct := if x.uart.ndtr = 1 then !x.uart.ct else x.uart.ct
        ndtr := if x.uart.ndtr = 1 then UInt16.ofNat dbusCacheByteLen else x.uart.ndtr - 1 } }
  else x

/-- `HAL_UARTEx_RxEventCallback` for `HUART_DBUS`. -/
def rxEventCallback (x : Board) (size : UInt16) : HalStatus × Board :=
  let uart := { x.uart with en := false }
  let (retVal, uart, storage) := uart.transimitionIdleHandler size
    (UInt16.ofNat dbusCacheByteLen) dbusFrameByteLen (transimitionDbusRx x.cache) x.robot.storage
  (retVal, { x with uart := uart, robot := { x.robot with storage := storage } })

/-- What one event does. -/
def step (conv : Conversion) (x : Board) : BoardEvent → Except Fault Board
  | .call e => return { x with robot := ← x.robot.step conv e }
  | .byte b => return x.dmaStore b
  | .rxEvent size => return (x.rxEventCallback size).2

/-- The driver calls when it waits for an idle line and the section is neither empty nor full,
with the number of bytes that came. Frames of the remote control come from the line only. -/
def Allowed (x : Board) : BoardEvent → Prop
  | .call (.dbusRx _) => False
  | .call _ | .byte _ => True
  | .rxEvent size => x.uart.idleIe = true ∧ x.uart.toIdle = true ∧
      0 < x.uart.ndtr.toNat ∧ x.uart.ndtr < x.uart.rxXferSize ∧
      size = x.uart.rxXferSize - x.uart.ndtr

instance (x : Board) (e : BoardEvent) : Decidable (x.Allowed e) := by
  unfold Allowed
  split <;> infer_instance

/-- The runs of a board. -/
abbrev Runs (conv : Conversion) (es : List BoardEvent) (x : Board) : Prop :=
  Run (Guarded Allowed (ofExcept (step conv))) start es x

/-! ### What the robot hears -/

/-- The last eighteen of some bytes. -/
def lastFrame (bytes : List UInt8) : DbusFrame := fun i => bytes.getD (bytes.length - 18 + i.val) 0

/-- The calls of a burst of bytes: a frame, if eighteen bytes are left after the full
sections. -/
def burst (bytes : List UInt8) : List RobotEvent :=
  if bytes.length % 32 = 18 then [.dbusRx (lastFrame bytes)] else []

/-- The calls so far, and the bytes since the last call of the driver's. -/
def hear (h : List RobotEvent × List UInt8) : BoardEvent → List RobotEvent × List UInt8
  | .call e => (h.1 ++ [e], h.2)
  | .byte b => (h.1, h.2 ++ [b])
  | .rxEvent _ => (h.1 ++ burst h.2, [])

/-- The calls that the events of a board are for its robot. -/
def heard (es : List BoardEvent) : List RobotEvent := (es.foldl hear ([], [])).1

/-! ### Where the DMA is -/

/-- The sections as the DMA fills them. -/
def sections (x : Board) : Sections UInt8 32 := ⟨x.uart.ct, x.uart.ndtr.toNat, x.cache⟩

/-- The receiver runs, and the section holds the bytes that the driver has not asked for. -/
structure Tracks (x : Board) (bytes : List UInt8) : Prop where
  enabled : x.uart.en = true ∧ x.uart.dmar = true
  waiting : x.uart.idleIe = true ∧ x.uart.toIdle = true
  rxXferSize : x.uart.rxXferSize = 32
  holds : x.sections.Holds bytes

theorem tracks_start : Tracks start [] := ⟨⟨rfl, rfl⟩, ⟨rfl, rfl⟩, rfl, .fresh rfl⟩

theorem sections_dmaStore {x : Board} (h : x.uart.en = true ∧ x.uart.dmar = true) (b : UInt8)
    (hroom : 0 < x.uart.ndtr.toNat) : (x.dmaStore b).sections = x.sections.put b := by
  have hon : (x.uart.en && x.uart.dmar) = true := by rw [h.1, h.2]; rfl
  have hone : x.uart.ndtr = 1 ↔ x.uart.ndtr.toNat = 1 := UInt16.toNat_inj.symm
  have hle : (1 : UInt16) ≤ x.uart.ndtr := UInt16.le_iff_toNat_le.mpr hroom
  rw [dmaStore, if_pos hon, sections, Sections.put, sections]
  by_cases hndtr : x.uart.ndtr = 1
  · simp only [if_pos hndtr, if_pos (hone.mp hndtr)]
    rfl
  · simp only [if_neg hndtr, if_neg (mt hone.mpr hndtr), UInt16.toNat_sub_of_le _ _ hle]
    rfl

theorem tracks_dmaStore {x : Board} {bytes : List UInt8} (h : Tracks x bytes) (b : UInt8) :
    Tracks (x.dmaStore b) (bytes ++ [b]) := by
  have hon : (x.uart.en && x.uart.dmar) = true := by rw [h.enabled.1, h.enabled.2]; rfl
  have hroom : 0 < x.uart.ndtr.toNat := by
    have hsum : x.uart.ndtr.toNat + bytes.length % 32 = 32 := h.holds.room
    omega
  refine ⟨?_, ?_, ?_, ?_⟩
  · rw [dmaStore, if_pos hon]
    exact h.enabled
  · rw [dmaStore, if_pos hon]
    exact h.waiting
  · rw [dmaStore, if_pos hon]
    exact h.rxXferSize
  · rw [sections_dmaStore h.enabled b hroom]
    exact h.holds.put (by decide) b

/-- The callback leaves an empty section. -/
theorem tracks_rxEventCallback {x : Board} {bytes : List UInt8} (h : Tracks x bytes)
    (size : UInt16) : Tracks (x.rxEventCallback size).2 [] :=
  ⟨⟨rfl, h.enabled.2⟩, ⟨rfl, rfl⟩, h.rxXferSize, .fresh rfl⟩

/-- The bytes of a section with eighteen bytes in it. -/
theorem dbusRxData_eq {x : Board} {bytes : List UInt8} (h : Tracks x bytes)
    (hlen : bytes.length % 32 = 18) : dbusRxData x.cache x.uart.ct = lastFrame bytes := by
  funext i
  have hcell := h.holds.tail (i := i.castLE (by decide)) (by rw [hlen]; exact i.isLt)
  rw [hlen] at hcell
  rw [lastFrame, List.getD_eq_getElem?_getD]
  exact (congrArg (fun a => a.getD 0) hcell).symm

/-! ### The simulation -/

theorem robot_rxEventCallback {x : Board} {bytes : List UInt8} (h : Tracks x bytes)
    {size : UInt16} (hsize : x.Allowed (.rxEvent size)) (conv : Conversion) :
    (bytes.length % 32 = 18 →
      x.robot.step conv (.dbusRx (lastFrame bytes)) = .ok (x.rxEventCallback size).2.robot) ∧
    (bytes.length % 32 ≠ 18 → (x.rxEventCallback size).2.robot = x.robot) := by
  obtain ⟨-, -, hpos, hlt, rfl⟩ := hsize
  have hsum : x.uart.ndtr.toNat + bytes.length % 32 = 32 := h.holds.room
  have hxor : x.uart.rxXferSize - x.uart.ndtr ^^^ dbusFrameByteLen ≠ 0 ↔
      bytes.length % 32 ≠ 18 := by
    rw [h.rxXferSize] at hlt ⊢
    rw [ne_eq, UInt16.xor_eq_zero_iff, ← UInt16.toNat_inj,
      UInt16.toNat_sub_of_le _ _ (UInt16.le_of_lt hlt)]
    change ¬ 32 - x.uart.ndtr.toNat = 18 ↔ _
    omega
  constructor
  · intro hlen
    rw [← dbusRxData_eq h hlen, rxEventCallback, Uart.transimitionIdleHandler]
    simp only [hxor, hlen, ne_eq, not_true, if_false]
    rfl
  · intro hlen
    rw [rxEventCallback, Uart.transimitionIdleHandler]
    simp only [hxor, hlen, ne_eq, not_false_iff, if_true]

/-- What one event is for the robot. -/
theorem robot_step {conv : Conversion} {x y : Board} {e : BoardEvent}
    {h : List RobotEvent × List UInt8} (hrobot : Robot.Runs conv h.1 x.robot)
    (hx : Tracks x h.2) (he : x.Allowed e) (hstep : x.step conv e = .ok y) :
    Robot.Runs conv (hear h e).1 y.robot ∧ Tracks y (hear h e).2 := by
  cases e with
  | call e =>
    obtain ⟨r, hr, hy⟩ := Fallible.bind_eq_ok.mp hstep
    obtain rfl := Fallible.pure_eq_ok.mp hy
    exact ⟨hrobot.snoc hr, ⟨hx.enabled, hx.waiting, hx.rxXferSize, hx.holds⟩⟩
  | byte b =>
    obtain rfl := Fallible.pure_eq_ok.mp hstep
    refine ⟨?_, tracks_dmaStore hx b⟩
    have hsame : (x.dmaStore b).robot = x.robot := by
      rw [dmaStore]
      split <;> rfl
    rw [hsame]
    exact hrobot
  | rxEvent size =>
    obtain rfl := Fallible.pure_eq_ok.mp hstep
    obtain ⟨hframe, hother⟩ := robot_rxEventCallback hx he conv
    refine ⟨?_, tracks_rxEventCallback hx size⟩
    change Robot.Runs conv (h.1 ++ burst h.2) _
    rw [burst]
    split
    · next hlen => exact hrobot.snoc (hframe hlen)
    · next hlen =>
      rw [hother hlen, List.append_nil]
      exact hrobot

/-- What the events of a run are for the robot. -/
theorem robot_run {conv : Conversion} {x y : Board} {es : List BoardEvent}
    {h : List RobotEvent × List UInt8} (hrobot : Robot.Runs conv h.1 x.robot)
    (hx : Tracks x h.2) (hrun : Run (Guarded Allowed (ofExcept (step conv))) x es y) :
    Robot.Runs conv (es.foldl hear h).1 y.robot ∧ Tracks y (es.foldl hear h).2 := by
  induction hrun with
  | nil => exact ⟨hrobot, hx⟩
  | snoc _ hstep ih =>
    rw [List.foldl_append]
    exact robot_step ih.1 ih.2 hstep.1 hstep.2

theorem robot_start : start.robot = started := by
  rw [start]

theorem runs_start (conv : Conversion) : Robot.Runs conv [] start.robot := by
  rw [robot_start]
  exact Run.nil

/-! ### Every frame can be sent -/

/-- The events of a board for a call of its robot: a frame is eighteen bytes, and then a call of
the driver's. -/
def deliver : RobotEvent → List BoardEvent
  | .dbusRx rxData => (List.ofFn rxData).map .byte ++ [.rxEvent dbusFrameByteLen]
  | e => [.call e]

theorem hear_bytes (h : List RobotEvent × List UInt8) (bytes : List UInt8) :
    (bytes.map BoardEvent.byte).foldl hear h = (h.1, h.2 ++ bytes) := by
  induction bytes generalizing h with
  | nil => simp
  | cons b bytes ih =>
    rw [List.map_cons, List.foldl_cons, ih]
    simp [hear]

theorem lastFrame_ofFn (rxData : DbusFrame) : lastFrame (List.ofFn rxData) = rxData := by
  funext i
  rw [lastFrame, List.length_ofFn, Nat.sub_self, Nat.zero_add, List.getD_eq_getElem?_getD,
    List.getElem?_ofFn]
  simp

theorem burst_ofFn (rxData : DbusFrame) : burst (List.ofFn rxData) = [.dbusRx rxData] := by
  rw [burst, lastFrame_ofFn, List.length_ofFn]
  rfl

/-- A delivery is heard as the call it is for, and leaves nothing pending. -/
theorem hear_deliver (calls : List RobotEvent) (e : RobotEvent) :
    (deliver e).foldl hear (calls, []) = (calls ++ [e], []) := by
  cases e with
  | dbusRx rxData =>
    rw [deliver, List.foldl_append, hear_bytes]
    change (calls ++ burst ([] ++ List.ofFn rxData), []) = _
    rw [List.nil_append, burst_ofFn]
  | _ => rfl

/-- Bytes can always come. -/
theorem run_bytes (conv : Conversion) (x : Board) (bytes : List UInt8) :
    ∃ y, Run (Guarded Allowed (ofExcept (step conv))) x (bytes.map .byte) y ∧
      y.robot = x.robot := by
  induction bytes using List.reverseRecOn with
  | nil => exact ⟨x, .nil, rfl⟩
  | append_singleton bytes b ih =>
    obtain ⟨y, hrun, hrobot⟩ := ih
    rw [List.map_append]
    refine ⟨y.dmaStore b, hrun.snoc ⟨trivial, rfl⟩, ?_⟩
    rw [← hrobot, dmaStore]
    split <;> rfl

theorem hear_deliveries (es : List RobotEvent) :
    (es.flatMap deliver).foldl hear ([], []) = (es, []) := by
  induction es using List.reverseRecOn with
  | nil => rfl
  | append_singleton es e ih =>
    rw [List.flatMap_append, List.foldl_append, ih, List.flatMap_singleton, hear_deliver]

/-- After the bytes of a frame the driver calls. -/
theorem allowed_of_tracks {x : Board} {bytes : List UInt8} (h : Tracks x bytes)
    (hlen : bytes.length = 18) : x.Allowed (.rxEvent dbusFrameByteLen) := by
  have hsum : x.uart.ndtr.toNat + bytes.length % 32 = 32 := h.holds.room
  have hndtr : x.uart.ndtr = 14 := UInt16.toNat_inj.mp (by
    rw [hlen] at hsum
    change _ = 14
    omega)
  refine ⟨h.waiting.1, h.waiting.2, ?_, ?_, ?_⟩
  · rw [hndtr]
    decide
  · rw [hndtr, h.rxXferSize]
    decide
  · rw [hndtr, h.rxXferSize]
    rfl

/-- Every run of the robot is a run of the board over the bytes of its frames. -/
theorem runs_deliveries {conv : Conversion} {es : List RobotEvent} {r : Robot}
    (h : Robot.Runs conv es r) : ∃ x, Runs conv (es.flatMap deliver) x ∧ x.robot = r := by
  induction h with
  | nil => exact ⟨start, .nil, robot_start⟩
  | @snoc es r t e hrun hstep ih =>
    obtain ⟨x, hx, rfl⟩ := ih
    rw [List.flatMap_append, List.flatMap_singleton]
    have hcall : x.Allowed (.call e) → deliver e = [.call e] →
        ∃ y, Runs conv (es.flatMap deliver ++ deliver e) y ∧ y.robot = t := by
      intro he hdeliver
      rw [hdeliver]
      refine ⟨{ x with robot := t }, hx.snoc ⟨he, ?_⟩, rfl⟩
      rw [Transition.ofExcept, step, hstep]
      rfl
    cases e with
    | dbusRx rxData =>
      obtain ⟨y, hy, hrobot⟩ := run_bytes conv x (List.ofFn rxData)
      have hlen : (List.ofFn rxData).length = 18 := List.length_ofFn
      have htracks : Tracks y (List.ofFn rxData) := by
        have hafter := (robot_run (h := ([], [])) (runs_start conv) tracks_start
          (hx.append hy)).2
        rw [List.foldl_append, hear_deliveries, hear_bytes] at hafter
        exact hafter
      have hallowed := allowed_of_tracks htracks hlen
      have hframe := (robot_rxEventCallback htracks hallowed conv).1 (by rw [hlen])
      rw [lastFrame_ofFn, hrobot, hstep] at hframe
      refine ⟨(y.rxEventCallback dbusFrameByteLen).2, ?_, (Except.ok.inj hframe).symm⟩
      rw [deliver, ← List.append_assoc]
      exact (hx.append hy).snoc ⟨hallowed, rfl⟩
    | tick => exact hcall trivial rfl
    | canRx hcan stdId rxData => exact hcall trivial rfl
    | updateToController => exact hcall trivial rfl
    | update p => exact hcall trivial rfl
    | setCanCurrent => exact hcall trivial rfl

/-- The runs of the robot are exactly what the runs of a board over bytes are for it. -/
theorem runs_iff_heard (conv : Conversion) (es : List RobotEvent) (r : Robot) :
    Robot.Runs conv es r ↔ ∃ bs x, Runs conv bs x ∧ heard bs = es ∧ x.robot = r := by
  constructor
  · intro h
    obtain ⟨x, hx, hr⟩ := runs_deliveries h
    refine ⟨es.flatMap deliver, x, hx, ?_, hr⟩
    rw [heard, hear_deliveries]
  · rintro ⟨bs, x, hx, rfl, rfl⟩
    exact (robot_run (h := ([], [])) (runs_start conv) tracks_start hx).1

end Board

end RmMicroControllers
