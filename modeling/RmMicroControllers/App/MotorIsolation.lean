import RmMicroControllers.App.Demultiplexer
import RmMicroControllers.App.FeedbackWindow
import RmMicroControllers.App.Progress
import RmMicroControllers.Library.Isolation

/-!
# Every motor by itself

The six motors share the registry, the array of the targets, the counters, the frames and, up to
three of them, a controller. What a motor hears on the bus nevertheless depends on the remote
control, the time, its own feedback and the cycles of its own controller only: not on what the
other motors send, nor on when the other controllers run.

## Main definitions

- `Robot.concerns` — the calls that a motor may take notice of
- `Robot.heardBy` — what a motor reads on the bus

## Main results

- `Robot.isolated` — two runs with the same calls that concern a motor tell it the same
-/

namespace RmMicroControllers

open Transition DeviceMonitor PartControl

namespace Robot

/-- The calls that may concern the motor of a joint: not the frames of other motors, and not the
cycles of other controllers. -/
def concerns (q : JointPtr Controller) : RobotEvent → Bool
  | .canRx _ stdId _ => stdId = gCanHeadFeedback (motorId q).castSucc
  | .update p => p = q.1
  | _ => true

/-- The first of the two bytes that the motor of a joint reads in its frame. -/
def slotByte (q : JointPtr Controller) : Fin 8 := Fin.ofNat 8 (2 * (((motorId q).val - 1) % 4))

/-- What the motor of a joint reads in the frames on the bus. -/
def heardBy (q : JointPtr Controller) (frames : List CanFrame) : List (UInt8 × UInt8) :=
  (frames.filter fun f => f.hcan = .hcan1 ∧ f.stdId = gCanHeadTarget (motorId q).castSucc).map
    fun f => (f.data (slotByte q), f.data (slotByte q + 1))

/-- Two robots that the motor of a joint cannot tell apart. The gimbal keeps a row of
calibration for each of its axes. -/
structure AlikeFor (q : JointPtr Controller) (r r' : Robot) : Prop where
  tick : r.storage.tick = r'.storage.tick
  deviceDbus : r.storage.deviceDbus = r'.storage.deviceDbus
  device : deviceOf r.storage q = deviceOf r'.storage q
  joint : r.storage.joint q = r'.storage.joint q
  gimbalMode : q.1 = .gimbal → r.gimbal.lastMode = r'.gimbal.lastMode
  calibration : q.1 = .gimbal → ∀ k : Fin 3, k.val = q.2.val →
    r.gimbal.angleCalibration k = r'.gimbal.angleCalibration k
  bulletMode : q.1 = .bullet → r.bullet.lastMode = r'.bullet.lastMode
  heard : heardBy q r.storage.canTx = heardBy q r'.storage.canTx

theorem alikeFor_equivalence (q : JointPtr Controller) : Equivalence (AlikeFor q) where
  refl _ := ⟨rfl, rfl, rfl, rfl, fun _ => rfl, fun _ _ _ => rfl, fun _ => rfl, rfl⟩
  symm h := ⟨h.tick.symm, h.deviceDbus.symm, h.device.symm, h.joint.symm,
    fun hq => (h.gimbalMode hq).symm, fun hq k hk => (h.calibration hq k hk).symm,
    fun hq => (h.bulletMode hq).symm, h.heard.symm⟩
  trans h h' := ⟨h.tick.trans h'.tick, h.deviceDbus.trans h'.deviceDbus,
    h.device.trans h'.device, h.joint.trans h'.joint,
    fun hq => (h.gimbalMode hq).trans (h'.gimbalMode hq),
    fun hq k hk => (h.calibration hq k hk).trans (h'.calibration hq k hk),
    fun hq => (h.bulletMode hq).trans (h'.bulletMode hq), h.heard.trans h'.heard⟩

end Robot

/-! ### The device of a motor -/

section Device

variable {s t : Storage Controller}

/-- A change of the devices that keeps their joints, seen from one joint. -/
theorem deviceOf_map {f : JointDevice Controller → JointDevice Controller}
    (hf : ∀ d, (f d).ptr = d.ptr)
    (h : ∀ bus, (t.deviceJoint bus).elems = (s.deviceJoint bus).elems.map f)
    (q : JointPtr Controller) : deviceOf t q = (deviceOf s q).map f := by
  have hdevices : devices t = (devices s).map f := by
    rw [devices, devices, h 0, h 1, List.map_append]
  rw [deviceOf, deviceOf, hdevices, List.find?_map]
  have hptr : ((fun d : JointDevice Controller => decide (d.ptr = q)) ∘ f) =
      fun d => decide (d.ptr = q) := by
    funext d
    rw [Function.comp_apply, hf]
  rw [hptr]

theorem ptr_of_deviceOf {q : JointPtr Controller} {d : JointDevice Controller}
    (h : deviceOf s q = some d) : d.ptr = q :=
  of_decide_eq_true (List.find?_some (p := fun d : JointDevice Controller => d.ptr = q) h)

/-- The robot's joints are registered once. -/
theorem Installed.homed (hs : Installed s) : s.config.Homed := by
  have hptrs : ∀ bus, s.config.ptrs bus = if bus = 1 then motors else [] := hs.ptrs
  constructor
  · intro bus
    rw [hptrs]
    split
    · decide
    · exact .nil
  · intro bus q hq
    rw [hptrs] at hq
    split at hq
    · next hbus =>
      subst hbus
      change (canCastToNum (s.part q.1).hcan).toNat = _
      rw [hs.hcan]
      rfl
    · cases hq

/-- `get_online` answers what the device of the joint says. -/
theorem Installed.isOnline_eq (hs : Installed s) {q : JointPtr Controller} (hq : q ∈ motors) :
    ∃ d, deviceOf s q = some d ∧ isOnline s q = d.online := by
  obtain ⟨d, hd, hptr, honline⟩ := hs.getOnline_eq hq
  refine ⟨d, hptr ▸ deviceOf_of_mem hs.homed hd, ?_⟩
  rw [isOnline, honline]
  rfl

/-- The id that a motor of the robot sends its feedback with. -/
theorem headFeedback_eq (hs : Installed s) (hc : s.config.OneBus) {q : JointPtr Controller}
    (hq : q ∈ motors) : (s.joint q).headFeedback = gCanHeadFeedback (motorId q).castSucc := by
  have hmem : q ∈ s.config.ptrs 1 := by
    change q ∈ (s.deviceJoint 1).elems.map (·.ptr)
    rw [hs.ptrs]
    exact hq
  obtain ⟨head, hid, -, -, -, -, hfeedback⟩ := hc.onBus1_of_mem hmem
  have hhead : head = (motorId q).castSucc := Fin.ext (hid.symm.trans (hs.id q hq))
  rw [← hhead]
  exact hfeedback

/-- A frame reaches the device of a motor if it carries the id of that motor. -/
theorem deviceOf_canRx (hs : Installed s) (hc : s.config.OneBus) {q : JointPtr Controller}
    (hq : q ∈ motors) (stdId : UInt32) (rxData : CanData) :
    deviceOf (jointUpdate s 1 stdId rxData).2 q =
      if stdId = gCanHeadFeedback (motorId q).castSucc then
        (deviceOf s q).map (receiveFeedback s.tick rxData)
      else deviceOf s q := by
  have hdistinct : ((s.deviceJoint 1).elems.map fun d => (s.joint d.ptr).headFeedback).Nodup := by
    have h := hc.distinct
    simp only [Storage.config, List.map_map] at h
    exact h
  have hloop : (jointUpdateLoop s.joint s.tick stdId rxData _).2 = _ :=
    jointUpdateLoop_listening hdistinct
  have hmap := deviceOf_map (s := s) (t := (jointUpdate s 1 stdId rxData).2)
    (f := fun d => if stdId = (s.joint d.ptr).headFeedback then receiveFeedback s.tick rxData d
      else d) ?_ ?_ q
  · rw [hmap]
    cases hd : deviceOf s q with
    | none => split <;> rfl
    | some d =>
      rw [Option.map_some, ptr_of_deviceOf hd, headFeedback_eq hs hc hq]
      split <;> rfl
  · intro d
    split <;> rfl
  · intro bus
    by_cases hbus : bus = 1
    · subst hbus
      simp only [jointUpdate, Storage.setElems, Function.update_self]
      exact hloop
    · have hempty : ∀ u : Storage Controller, (u.deviceJoint bus).elems.map (·.ptr) = [] →
          (u.deviceJoint bus).elems = [] := fun u h => List.map_eq_nil_iff.mp h
      have hold := hempty s (by rw [hs.ptrs, if_neg hbus])
      simp only [jointUpdate, Storage.setElems]
      rw [Function.update_of_ne hbus, hold]
      rfl

end Device

/-! ### What one call shows to a motor -/

/-- A row of the calibration after a cycle depends on that row and on the angle of its axis. -/
theorem GimbalControl.updateCalibration_congr {g g' : GimbalControl} {s s' : Storage Controller}
    {k : Fin 3} (hrow : g.angleCalibration k = g'.angleCalibration k)
    (hangle : measuredAngle s (k.castLE (by decide)) = measuredAngle s' (k.castLE (by decide)))
    (hdbus : s.deviceDbus = s'.deviceDbus) (modeChanged : Bool) :
    (g.updateCalibration s modeChanged).angleCalibration k =
      (g'.updateCalibration s' modeChanged).angleCalibration k := by
  funext k'
  unfold updateCalibration
  rw [hdbus]
  cases modeChanged <;> dsimp only <;> split <;> simp only [calibrate_apply, hrow, hangle, if_true,
    Bool.false_eq_true, if_false]

theorem GimbalControl.updateCalibration_lastMode (g : GimbalControl) (s : Storage Controller)
    (modeChanged : Bool) : (g.updateCalibration s modeChanged).lastMode = g.lastMode := by
  unfold updateCalibration
  cases modeChanged <;> dsimp only <;> split <;> rfl

namespace Robot

variable {q : JointPtr Controller} {r r' t t' : Robot} {conv : Conversion}
  {es es' : List RobotEvent}

/-- Both see a change of the gimbal's mode, or neither does. -/
theorem AlikeFor.modeChanged_eq (h : AlikeFor q r r') (hq : q.1 = .gimbal) :
    r.gimbal.modeChanged r.storage = r'.gimbal.modeChanged r'.storage := by
  rw [GimbalControl.modeChanged, GimbalControl.modeChanged, GimbalControl.commandedMode,
    GimbalControl.commandedMode, h.deviceDbus, h.gimbalMode hq]

/-- A cycle treats a joint alike in two robots that the joint cannot tell apart. -/
theorem AlikeFor.jointLaw_eq (h : AlikeFor q r r') (hr : Ready r) (hr' : Ready r')
    (hq : q ∈ motors) (j : JointData) : r.jointLaw conv q.1 q.2 j = r'.jointLaw conv q.1 q.2 j := by
  have hcommand : ∀ channel coeff, getCommandDefault conv r.storage channel coeff 0 0 =
      getCommandDefault conv r'.storage channel coeff 0 0 := by
    intro channel coeff
    rw [getCommandDefault, getCommandDefault, getCommandDbusChannel, getCommandDbusChannel,
      h.deviceDbus]
  obtain ⟨p, i⟩ := q
  cases p with
  | chassis =>
    change ChassisControl.jointLaw conv r.storage j = ChassisControl.jointLaw conv r'.storage j
    rw [ChassisControl.jointLaw, ChassisControl.jointLaw, hcommand]
  | gimbal =>
    have honline : isOnline r.storage (.gimbal, i) = isOnline r'.storage (.gimbal, i) := by
      obtain ⟨d, hd, hon⟩ := hr.installed.isOnline_eq hq
      obtain ⟨d', hd', hon'⟩ := hr'.installed.isOnline_eq hq
      rw [h.device, hd'] at hd
      rw [hon, hon', Option.some.inj hd]
    have haxis : ∀ (k : Fin 3) channel, k.val = i.val →
        r.gimbal.axisAngle conv r.storage k channel =
          r'.gimbal.axisAngle conv r'.storage k channel := by
      intro k channel hk
      rw [GimbalControl.axisAngle, GimbalControl.axisAngle, hcommand, h.calibration rfl k hk]
    have htarget : r.gimbal.targetAngle conv r.storage i =
        r'.gimbal.targetAngle conv r'.storage i := by
      have haxes : ∀ i : Fin 6, (Controller.gimbal, i) ∈ motors → i = 0 ∨ i = 1 := by decide
      rcases haxes i hq with rfl | rfl
      · exact haxis 0 3 rfl
      · exact haxis 1 2 rfl
    change GimbalControl.jointLaw conv r.gimbal r.storage i j =
      GimbalControl.jointLaw conv r'.gimbal r'.storage i j
    rw [GimbalControl.jointLaw, GimbalControl.jointLaw, h.modeChanged_eq rfl, honline, htarget]
  | bullet =>
    change ExtraControl.jointLaw conv r.bullet r.storage i j =
      ExtraControl.jointLaw conv r'.bullet r'.storage i j
    rw [ExtraControl.jointLaw, ExtraControl.jointLaw, ExtraControl.modeChanged,
      ExtraControl.modeChanged, ExtraControl.commandedMode, ExtraControl.commandedMode,
      h.deviceDbus, h.bulletMode rfl]

/-- The device of a motor after a cycle of any controller. -/
theorem deviceOf_update {p : Controller}
    (hupd : Updated r.storage p (r.jointLaw conv p) t.storage) :
    deviceOf t.storage q = deviceOf r.storage q := by
  rw [deviceOf, deviceOf, devices, devices, hupd.deviceJoint]

/-- A cycle of another controller. -/
theorem alikeFor_update_other (hr : Ready r) {p : Controller} (hp : p ≠ q.1)
    (h : r.update conv p = .ok t) : AlikeFor q r t := by
  obtain ⟨ht, hupd⟩ := update_eq_ok hr h
  have hmembers : (q.1 = .gimbal → t.gimbal = r.gimbal) ∧
      (q.1 = .bullet → t.bullet = r.bullet) := by
    rw [ht]
    constructor
    · intro hq
      cases p with
      | gimbal => exact absurd hq.symm hp
      | _ => rfl
    · intro hq
      cases p with
      | bullet => exact absurd hq.symm hp
      | _ => rfl
  have htick : t.storage.tick = r.storage.tick := by
    rw [hupd.frame]
    rfl
  refine ⟨htick.symm, hupd.deviceDbus.symm, (deviceOf_update hupd).symm, ?_, fun hq => ?_,
    fun hq _ _ => ?_, fun hq => ?_, ?_⟩
  · exact (hupd.joint_other fun hq => hp hq.1.symm).symm
  · rw [hmembers.1 hq]
  · rw [hmembers.1 hq]
  · rw [hmembers.2 hq]
  · rw [hupd.canTx]

/-- A cycle of the motor's own controller. -/
theorem AlikeFor.update (h : AlikeFor q r r') (hr : Ready r) (hr' : Ready r') (hq : q ∈ motors)
    (hstep : r.update conv q.1 = .ok t) (hstep' : r'.update conv q.1 = .ok t') :
    AlikeFor q t t' := by
  obtain ⟨ht, hupd⟩ := update_eq_ok hr hstep
  obtain ⟨ht', hupd'⟩ := update_eq_ok hr' hstep'
  have htick : t.storage.tick = r.storage.tick ∧ t'.storage.tick = r'.storage.tick := by
    rw [hupd.frame, hupd'.frame]
    exact ⟨rfl, rfl⟩
  refine ⟨?_, ?_, ?_, ?_, fun hp => ?_, fun hp k hk => ?_, fun hp => ?_, ?_⟩
  · rw [htick.1, htick.2, h.tick]
  · rw [hupd.deviceDbus, hupd'.deviceDbus, h.deviceDbus]
  · rw [deviceOf_update hupd, deviceOf_update hupd', h.device]
  · rw [hupd.joint_self hq, hupd'.joint_self hq, h.joint, h.jointLaw_eq hr hr' hq]
  · rw [ht, ht', hp]
    change ((r.gimbal.withMode r.storage).updateCalibration _ _).lastMode =
      ((r'.gimbal.withMode r'.storage).updateCalibration _ _).lastMode
    rw [GimbalControl.updateCalibration_lastMode, GimbalControl.updateCalibration_lastMode]
    change GimbalControl.commandedMode r.storage = GimbalControl.commandedMode r'.storage
    rw [GimbalControl.commandedMode, GimbalControl.commandedMode, h.deviceDbus]
  · rw [ht, ht', hp]
    change ((r.gimbal.withMode r.storage).updateCalibration _ _).angleCalibration k =
      ((r'.gimbal.withMode r'.storage).updateCalibration _ _).angleCalibration k
    rw [h.modeChanged_eq hp]
    have hjoint : q = (.gimbal, k.castLE (by decide)) := Prod.ext hp (Fin.ext hk.symm)
    apply GimbalControl.updateCalibration_congr
    · exact h.calibration hp k hk
    · rw [GimbalControl.measuredAngle, GimbalControl.measuredAngle, ← hjoint, h.joint]
    · exact h.deviceDbus
  · rw [ht, ht', hp]
    change ExtraControl.commandedMode r.storage = ExtraControl.commandedMode r'.storage
    rw [ExtraControl.commandedMode, ExtraControl.commandedMode, h.deviceDbus]
  · rw [hupd.canTx, hupd'.canTx, h.heard]

/-! ### The frames -/

theorem heardBy_append (q : JointPtr Controller) (frames frames' : List CanFrame) :
    heardBy q (frames ++ frames') = heardBy q frames ++ heardBy q frames' := by
  rw [heardBy, List.filter_append, List.map_append]
  rfl

/-- The slot of a motor in the two frames that are sent. -/
theorem slot_of_motor : ∀ q ∈ motors, ∃ j k : Fin 4, slotId j k = motorId q ∧
    (slotByte q).val = 2 * k.val ∧ (slotByte q + 1).val = (slotByte q).val + 1 ∧
    (j = 0 ∨ j = 1) ∧ ∀ j' : Fin 4, (gCanHeadTarget ((slotId j' 0).castLE (by decide)) =
      gCanHeadTarget (motorId q).castSucc ↔ j' = j) := by
  decide

/-- A transmission tells a motor its own target. -/
theorem heardBy_sentFrames (hrun : Runs conv es r) (hq : q ∈ motors) :
    heardBy q (sentFrames r.storage) =
      [currentBytes (r.storage.joint q).target.current] := by
  obtain ⟨j, k, hslot, hhi, hlo, hj, hgroup⟩ := slot_of_motor q hq
  have hdata : ((groupFrame r.storage 1 j).data (slotByte q),
      (groupFrame r.storage 1 j).data (slotByte q + 1)) =
        currentBytes (r.storage.joint q).target.current := by
    rw [← (mirrored_of_run hrun).target q hq, ← hslot]
    exact groupData_slot r.storage 1 j k hhi hlo
  have hframe : ∀ j' : Fin 4, decide ((groupFrame r.storage 1 j').hcan = .hcan1 ∧
      (groupFrame r.storage 1 j').stdId = gCanHeadTarget (motorId q).castSucc) =
        decide (j' = j) := by
    intro j'
    apply decide_eq_decide.mpr
    exact (and_iff_right rfl).trans (hgroup j')
  rw [sentFrames_eq hrun, heardBy, List.filter_cons, List.filter_cons, List.filter_nil, hframe,
    hframe]
  rcases hj with rfl | rfl
  · exact congrArg (· :: []) hdata
  · exact congrArg (· :: []) hdata

/-! ### The other calls -/

theorem oneBus_of_run (hrun : Runs conv es r) : r.storage.config.OneBus := by
  obtain ⟨_, hc⟩ := counted_of_robot_run hrun
  exact hc.oneBus

/-- What a frame of the remote control leaves is decided by the time and what was there. -/
theorem dbusUpdate_congr {s s' : Storage Controller} (htick : s.tick = s'.tick)
    (hdbus : s.deviceDbus = s'.deviceDbus) (rxData : DbusFrame) :
    (dbusUpdate s rxData).2.deviceDbus = (dbusUpdate s' rxData).2.deviceDbus := by
  rw [dbusUpdate, dbusUpdate, htick, hdbus]
  split <;> rfl

/-- A call that knows nothing of the controllers leaves their members alone. -/
theorem AlikeFor.of_storage (h : AlikeFor q r r') (ht : t = { r with storage := t.storage })
    (ht' : t' = { r' with storage := t'.storage })
    (htick : t.storage.tick = t'.storage.tick)
    (hdbus : t.storage.deviceDbus = t'.storage.deviceDbus)
    (hdevice : deviceOf t.storage q = deviceOf t'.storage q)
    (hjoint : t.storage.joint q = t'.storage.joint q)
    (hheard : heardBy q t.storage.canTx = heardBy q t'.storage.canTx) : AlikeFor q t t' := by
  refine ⟨htick, hdbus, hdevice, hjoint, fun hq => ?_, fun hq k hk => ?_, fun hq => ?_, hheard⟩
  · rw [ht, ht']
    exact h.gimbalMode hq
  · rw [ht, ht']
    exact h.calibration hq k hk
  · rw [ht, ht']
    exact h.bulletMode hq

/-- A feedback frame changes nothing but devices, and the device of a motor only if it carries
the id of that motor. -/
theorem canRx_of_run (hrun : Runs conv es r) (hq : q ∈ motors) {hcan : Can} {stdId : UInt32}
    {rxData : CanData} {s : Storage Controller}
    (hstep : RmMicroControllers.step r.storage (.canRx hcan stdId rxData) = .ok s) :
    s = { r.storage with deviceJoint := s.deviceJoint } ∧
      deviceOf s q =
        if stdId = gCanHeadFeedback (motorId q).castSucc then
          (deviceOf r.storage q).map (receiveFeedback r.storage.tick rxData)
        else deviceOf r.storage q := by
  obtain rfl := (canRx_ok_iff r.storage hcan stdId rxData).mp ⟨s, hstep⟩
  obtain ⟨bus, hbus, rfl⟩ := jointUpdate_of_step hstep
  obtain rfl : bus = 1 := Fin.ext hbus.symm
  exact ⟨rfl, deviceOf_canRx (ready_of_run hrun).installed (oneBus_of_run hrun) hq _ _⟩

/-- A pass of the monitor judges the device of a motor and passes its feedback on. -/
theorem updateToController_of_run (hrun : Runs conv es r) (q : JointPtr Controller)
    {s : Storage Controller} (hstep : updateToController r.storage = .ok s) :
    deviceOf s q = (deviceOf r.storage q).map (judge r.storage.tick) ∧
      s.joint q = { r.storage.joint q with
        feedback := refresh (r.storage.joint q).feedback
          ((deviceOf r.storage q).bind (passed r.storage.tick)) } := by
  have hpass := updateToController_pass hstep
  have hfeedback := updateToController_feedback (ready_of_run hrun).installed.homed hstep q
  constructor
  · apply deviceOf_map (fun d => judge_ptr r.storage.tick d)
    intro bus
    rw [hpass.deviceJoint]
  · obtain ⟨feedback, hjoint⟩ := hpass.joint q
    rw [hjoint] at hfeedback ⊢
    rw [snapshot] at hfeedback
    rw [← hfeedback]

/-- What concerns a motor acts alike on robots that the motor cannot tell apart. -/
theorem AlikeFor.step (h : AlikeFor q r r') (hrun : Runs conv es r) (hrun' : Runs conv es' r')
    (hq : q ∈ motors) {e : RobotEvent} (he : concerns q e = true)
    (hstep : r.step conv e = .ok t) (hstep' : r'.step conv e = .ok t') : AlikeFor q t t' := by
  have hr := ready_of_run hrun
  have hr' := ready_of_run hrun'
  rcases step_eq_ok hstep with ⟨p, rfl, hupd⟩ | ⟨e', he', hs, ht⟩
  · obtain rfl : p = q.1 := of_decide_eq_true he
    exact h.update hr hr' hq hupd hstep'
  · rcases step_eq_ok hstep' with ⟨p, rfl, _⟩ | ⟨e'', he'', hs', ht'⟩
    · cases he'
    · obtain rfl := Option.some.inj (he'.symm.trans he'')
      cases e with
      | update p => cases he'
      | tick =>
        obtain rfl := Option.some.inj he'
        obtain hs := Fallible.pure_eq_ok.mp hs
        obtain hs' := Fallible.pure_eq_ok.mp hs'
        apply h.of_storage ht ht' <;> rw [← hs, ← hs']
        · exact congrArg (· + 1) h.tick
        · exact h.deviceDbus
        · exact h.device
        · exact h.joint
        · exact h.heard
      | canRx hcan stdId rxData =>
        obtain rfl := Option.some.inj he'
        obtain ⟨hframe, hdevice⟩ := canRx_of_run hrun hq hs
        obtain ⟨hframe', hdevice'⟩ := canRx_of_run hrun' hq hs'
        apply h.of_storage ht ht'
        · rw [hframe, hframe']
          exact h.tick
        · rw [hframe, hframe']
          exact h.deviceDbus
        · rw [hdevice, hdevice', h.device, h.tick]
        · rw [hframe, hframe']
          exact h.joint
        · rw [hframe, hframe']
          exact h.heard
      | dbusRx rxData =>
        obtain rfl := Option.some.inj he'
        obtain hs := Fallible.pure_eq_ok.mp hs
        obtain hs' := Fallible.pure_eq_ok.mp hs'
        obtain ⟨data, error, hframe⟩ := dbusUpdate_eq r.storage rxData
        obtain ⟨data', error', hframe'⟩ := dbusUpdate_eq r'.storage rxData
        have hdbus := dbusUpdate_congr h.tick h.deviceDbus rxData
        rw [hs, hs'] at hdbus
        rw [hs] at hframe
        rw [hs'] at hframe'
        refine h.of_storage ht ht' ?_ hdbus ?_ ?_ ?_ <;> rw [hframe, hframe']
        · exact h.tick
        · exact h.device
        · exact h.joint
        · exact h.heard
      | updateToController =>
        obtain rfl := Option.some.inj he'
        have hpass := updateToController_pass hs
        have hpass' := updateToController_pass hs'
        obtain ⟨hdevice, hjoint⟩ := updateToController_of_run hrun q hs
        obtain ⟨hdevice', hjoint'⟩ := updateToController_of_run hrun' q hs'
        apply h.of_storage ht ht'
        · rw [hpass.tick, hpass'.tick, h.tick]
        · rw [hpass.deviceDbus, hpass'.deviceDbus, h.tick, h.deviceDbus]
        · rw [hdevice, hdevice', h.device, h.tick]
        · rw [hjoint, hjoint', h.joint, h.device, h.tick]
        · rw [hpass.canTx, hpass'.canTx, h.heard]
      | setCanCurrent =>
        obtain rfl := Option.some.inj he'
        obtain hs := setCanCurrent_of_step hs
        obtain hs' := setCanCurrent_of_step hs'
        apply h.of_storage ht ht' <;> rw [hs, hs']
        · exact h.tick
        · exact h.deviceDbus
        · exact h.device
        · exact h.joint
        · change heardBy q (r.storage.canTx ++ sentFrames r.storage) =
            heardBy q (r'.storage.canTx ++ sentFrames r'.storage)
          rw [heardBy_append, heardBy_append, heardBy_sentFrames hrun hq,
            heardBy_sentFrames hrun' hq, h.heard, h.joint]

/-- A call that does not concern a motor shows it nothing. -/
theorem alikeFor_of_unseen (hrun : Runs conv es r) (hq : q ∈ motors) {e : RobotEvent}
    (he : concerns q e = false) (hstep : r.step conv e = .ok t) : AlikeFor q r t := by
  rcases step_eq_ok hstep with ⟨p, rfl, hupd⟩ | ⟨e', he', hs, ht⟩
  · exact alikeFor_update_other (ready_of_run hrun) (of_decide_eq_false he) hupd
  · cases e with
    | canRx hcan stdId rxData =>
      obtain rfl := Option.some.inj he'
      obtain ⟨hframe, hdevice⟩ := canRx_of_run hrun hq hs
      apply ((alikeFor_equivalence q).refl r).of_storage rfl ht
      · rw [hframe]
      · rw [hframe]
      · rw [hdevice, if_neg (of_decide_eq_false he)]
      · rw [hframe]
        rfl
      · rw [hframe]
    | update p => cases he'
    | _ => cases he

theorem isolates (conv : Conversion) (hq : q ∈ motors) :
    Isolates (ofExcept (step conv)) started (concerns q) (AlikeFor q) where
  equiv := alikeFor_equivalence q
  unseen hrun he hstep := alikeFor_of_unseen hrun hq he hstep
  seen hrun hrun' he h hstep hstep' := h.step hrun hrun' hq he hstep hstep'

/-- Two runs with the same calls that concern a motor tell the motor the same. -/
theorem isolated (hq : q ∈ motors) (hrun : Runs conv es r) (hrun' : Runs conv es' r')
    (hes : es.filter (concerns q) = es'.filter (concerns q)) :
    heardBy q r.storage.canTx = heardBy q r'.storage.canTx :=
  ((isolates conv hq).same_of_runs hrun hrun' hes).heard

/-- A bullet motor is started, beside a gimbal that is heard and runs its own cycle. -/
theorem isolated_bullet : ∃ r r',
    Runs .lowBits [.dbusRx centredFrame, .update .bullet, .setCanCurrent] r ∧
    Runs .lowBits [.canRx .hcan1 0x207 fun _ => 1, .dbusRx centredFrame, .update .gimbal,
      .update .bullet, .setCanCurrent] r' ∧
    heardBy (.bullet, 0) r'.storage.canTx = [(226, 155)] := by
  obtain ⟨r, hrun, hend⟩ := Run.of_check (fun _ _ => True) (Robot.step .lowBits) started
    [.dbusRx centredFrame, .update .bullet, .setCanCurrent]
    (fun r => heardBy (.bullet, 0) r.storage.canTx) (x := [(226, 155)]) (by decide +kernel)
  obtain ⟨r', hrun', -⟩ := Run.of_check (fun _ _ => True) (Robot.step .lowBits) started
    [.canRx .hcan1 0x207 fun _ => 1, .dbusRx centredFrame, .update .gimbal, .update .bullet,
      .setCanCurrent] (fun _ => ()) (x := ()) (by decide +kernel)
  have hsame := isolated (q := (.bullet, 0)) (by decide) hrun.forget_guard hrun'.forget_guard rfl
  exact ⟨r, r', hrun.forget_guard, hrun'.forget_guard, hsame.symm.trans hend⟩

end Robot

end RmMicroControllers
