import Mathlib.Data.List.Basic
import RmMicroControllers.Library.Memory
import RmMicroControllers.Library.Slice
import RmMicroControllers.Tool.UsbCdc

/-!
# Control requests to the virtual COM port

A class request that brings data takes two calls: `USBD_CDC_Setup` latches its opcode and its
length and asks for the data, and `USBD_CDC_EP0_RxReady` hands all three to `CDC_Control_FS` when
the data is there. The host may abandon the data at any packet and begin another request. The
data goes to the first member of the class data, and the latch follows right behind it.

## Main definitions

- `CdcControl` — the class data in memory, and what endpoint 0 does with it
- `ControlPort` — the port as the host means it: a request stays with its own data

## Main results

- `CdcControl.port_of_run` — the latch never mixes up two requests
- `CdcControl.readBack` — what the host has set is what it reads
- `CdcControl.overrun` — more data than there is room for takes the place of the opcode
-/

namespace RmMicroControllers

open Memory

/-- The members of `USBD_SetupReqTypedef` that the class reads. -/
structure SetupReq where
  bmRequest : UInt8
  bRequest : UInt8
  wIndex : UInt16
  wLength : UInt16
  deriving DecidableEq

/-- A call of `CDC_Control_FS`, with the bytes of `hcdc->data` that its length covers. -/
structure ControlCall where
  cmd : UInt8
  pbuf : List UInt8
  length : UInt16
  epindex : UInt8
  deriving DecidableEq

/-- What the class has endpoint 0 answer: `USBD_CtlSendData` or `USBD_CtlError`. -/
inductive Ep0Answer where
  | sendData (bytes : List UInt8)
  | error
  deriving DecidableEq

/-- `CDC_DATA_HS_MAX_PACKET_SIZE`, the size of `hcdc->data`. -/
def cdcDataSize : ℕ := 512

/-- `CDC_REQ_MAX_DATA_SIZE`. -/
def cdcReqMaxDataSize : ℕ := 7

/-- The device on endpoint 0. `handle` is the memory from `*hcdc` on: `data`, and then
`CmdOpCode` and `CmdLength`. `stage` is the reception that `USBD_CtlPrepareRx` has asked for, its
length and how much has come. The calls of `CDC_Control_FS` and the answers are recorded. -/
structure CdcControl where
  classData : Bool := true
  configured : Bool := true
  request : SetupReq := ⟨0, 0, 0, 0⟩
  handle : ℕ → UInt8 := fun _ => 0
  stage : Option (ℕ × ℕ) := none
  controls : List ControlCall := []
  answers : List (SetupReq × Ep0Answer) := []

/-- A SETUP packet, or a packet of data on endpoint 0. -/
inductive Ep0Event where
  | setup (req : SetupReq)
  | packet (bytes : List UInt8)

namespace CdcControl

/-- `hcdc->CmdOpCode`. -/
def cmdOpCode (s : CdcControl) : UInt8 := s.handle cdcDataSize

/-- `hcdc->CmdLength`. -/
def cmdLength (s : CdcControl) : UInt8 := s.handle (cdcDataSize + 1)

/-- `USBD_CtlSendData`. -/
def usbdCtlSendData (s : CdcControl) (bytes : List UInt8) : CdcControl :=
  { s with answers := s.answers ++ [(s.request, .sendData bytes)] }

/-- `USBD_CtlError`. -/
def usbdCtlError (s : CdcControl) : CdcControl :=
  { s with answers := s.answers ++ [(s.request, .error)] }

/-- `USBD_CtlPrepareRx` to the first member of the class data. -/
def usbdCtlPrepareRx (s : CdcControl) (len : UInt16) : CdcControl :=
  { s with stage := some (len.toNat, 0) }

/-- `CDC_Control_FS` on `hcdc->data`. The branches of its `switch` are empty, and so is
`ComPort_Config`. -/
def cdcControlFs (s : CdcControl) (cmd : UInt8) (length : UInt16) (epindex : UInt8) :
    CdcControl :=
  { s with
    controls := s.controls ++
      [⟨cmd, slice s.handle 0 (min length.toNat cdcDataSize), length, epindex⟩] }

/-- `USBD_CDC_Setup`. The types of a request are 0 for standard and 0x20 for class. -/
def usbdCdcSetup (s : CdcControl) (req : SetupReq) : UsbdStatus × CdcControl :=
  if s.classData then
    if req.bmRequest &&& 0x60 = 0x20 then
      if req.wLength ≠ 0 then
        if req.bmRequest &&& 0x80 ≠ 0 then
          let s := s.cdcControlFs req.bRequest req.wLength req.wIndex.toUInt8
          (.ok, s.usbdCtlSendData (slice s.handle 0 (min cdcReqMaxDataSize req.wLength.toNat)))
        else
          let s := { s with handle := store8 s.handle cdcDataSize req.bRequest }
          let s := { s with handle := store8 s.handle (cdcDataSize + 1) req.wLength.toUInt8 }
          (.ok, s.usbdCtlPrepareRx req.wLength)
      else
        (.ok, s.cdcControlFs req.bRequest 0 req.wIndex.toUInt8)
    else if req.bmRequest &&& 0x60 = 0 then
      -- `GET_STATUS`, `GET_INTERFACE`, `SET_INTERFACE` and `CLEAR_FEATURE`
      if req.bRequest = 0 then
        if s.configured then (.ok, s.usbdCtlSendData [0, 0]) else (.fail, s.usbdCtlError)
      else if req.bRequest = 10 then
        if s.configured then (.ok, s.usbdCtlSendData [0]) else (.fail, s.usbdCtlError)
      else if req.bRequest = 11 then
        if s.configured then (.ok, s) else (.fail, s.usbdCtlError)
      else if req.bRequest = 1 then (.ok, s)
      else (.fail, s.usbdCtlError)
    else (.fail, s.usbdCtlError)
  else (.fail, s)

/-- `USBD_CDC_EP0_RxReady`. The interface has been registered. -/
def usbdCdcEp0RxReady (s : CdcControl) : UsbdStatus × CdcControl :=
  if s.classData then
    if s.cmdOpCode ≠ 0xFF then
      let s := s.cdcControlFs s.cmdOpCode s.cmdLength.toUInt16 s.request.wIndex.toUInt8
      (.ok, { s with handle := store8 s.handle cdcDataSize 0xFF })
    else (.ok, s)
  else (.fail, s)

/-- The device on one event. A SETUP packet ends a reception that has not come to its end, and
endpoint 0 takes no more data than it has been told to. -/
def ep0 (s : CdcControl) : Ep0Event → CdcControl
  | .setup req => ({ s with request := req, stage := none }.usbdCdcSetup req).2
  | .packet bytes =>
    match s.stage with
    | none => s
    | some (len, got) =>
      if got + bytes.length < len then
        { s with handle := patch s.handle got bytes, stage := some (len, got + bytes.length) }
      else if got + bytes.length = len then
        { s with handle := patch s.handle got bytes, stage := none }.usbdCdcEp0RxReady.2
      else s

end CdcControl

namespace SetupReq

/-- A class request that brings data. -/
def Writes (req : SetupReq) : Prop :=
  req.bmRequest &&& 0x60 = 0x20 ∧ req.wLength ≠ 0 ∧ req.bmRequest &&& 0x80 = 0

/-- A class request for data. -/
def Reads (req : SetupReq) : Prop :=
  req.bmRequest &&& 0x60 = 0x20 ∧ req.wLength ≠ 0 ∧ req.bmRequest &&& 0x80 ≠ 0

/-- A class request without data. -/
def Bare (req : SetupReq) : Prop := req.bmRequest &&& 0x60 = 0x20 ∧ req.wLength = 0

instance : DecidablePred Writes := fun _ => inferInstanceAs (Decidable (_ ∧ _))
instance : DecidablePred Reads := fun _ => inferInstanceAs (Decidable (_ ∧ _))
instance : DecidablePred Bare := fun _ => inferInstanceAs (Decidable (_ ∧ _))

end SetupReq

/-- The port as the host means it: a buffer that requests write to and read from, and the request
whose data is coming, together with what has come. -/
structure ControlPort where
  buffer : ℕ → UInt8
  pending : Option (SetupReq × List UInt8) := none
  controls : List ControlCall := []
  reads : List (SetupReq × Ep0Answer) := []

namespace ControlPort

/-- The command of a request whose data is complete. Its length is kept in one byte, and 0xFF is
no opcode. -/
def commands (req : SetupReq) (bytes : List UInt8) : List ControlCall :=
  if req.bRequest = 0xFF then []
  else [⟨req.bRequest, bytes.take (bytes.length % 256), UInt16.ofNat (bytes.length % 256),
    req.wIndex.toUInt8⟩]

/-- The port on one event. -/
def step (p : ControlPort) : Ep0Event → ControlPort
  | .setup req =>
    if req.Writes then { p with pending := some (req, []) }
    else if req.Reads then
      { p with
        pending := none
        controls := p.controls ++ [⟨req.bRequest,
          slice p.buffer 0 (min req.wLength.toNat cdcDataSize), req.wLength, req.wIndex.toUInt8⟩]
        reads := p.reads ++ [(req, .sendData
          (slice p.buffer 0 (min cdcReqMaxDataSize req.wLength.toNat)))] }
    else if req.Bare then
      { p with
        pending := none
        controls := p.controls ++ [⟨req.bRequest, [], 0, req.wIndex.toUInt8⟩] }
    else { p with pending := none }
  | .packet bytes =>
    match p.pending with
    | none => p
    | some (req, got) =>
      if (got ++ bytes).length < req.wLength.toNat then
        { p with
          buffer := patch p.buffer got.length bytes
          pending := some (req, got ++ bytes) }
      else if (got ++ bytes).length = req.wLength.toNat then
        { p with
          buffer := patch p.buffer got.length bytes
          pending := none
          controls := p.controls ++ commands req (got ++ bytes) }
      else p

end ControlPort

/-! ### One request -/

namespace CdcControl

variable {s : CdcControl} {req : SetupReq}

/-- A request that brings data is latched behind the data. -/
theorem setup_writes (hs : s.classData = true) (h : req.Writes) :
    (s.usbdCdcSetup req).2 =
      { s with
        handle := store8 (store8 s.handle cdcDataSize req.bRequest) (cdcDataSize + 1)
          req.wLength.toUInt8
        stage := some (req.wLength.toNat, 0) } := by
  rw [usbdCdcSetup]
  rw [if_pos hs, if_pos h.1, if_pos h.2.1, if_neg (not_not.mpr h.2.2)]
  rfl

theorem setup_reads (hs : s.classData = true) (h : req.Reads) :
    (s.usbdCdcSetup req).2 =
      { s with
        controls := s.controls ++ [⟨req.bRequest,
          slice s.handle 0 (min req.wLength.toNat cdcDataSize), req.wLength, req.wIndex.toUInt8⟩]
        answers := s.answers ++ [(s.request, .sendData
          (slice s.handle 0 (min cdcReqMaxDataSize req.wLength.toNat)))] } := by
  rw [usbdCdcSetup]
  rw [if_pos hs, if_pos h.1, if_pos h.2.1, if_pos h.2.2]
  rfl

theorem setup_bare (hs : s.classData = true) (h : req.Bare) :
    (s.usbdCdcSetup req).2 =
      { s with controls := s.controls ++ [⟨req.bRequest, [], 0, req.wIndex.toUInt8⟩] } := by
  rw [usbdCdcSetup]
  rw [if_pos hs, if_pos h.1, if_neg (not_not.mpr h.2)]
  rfl

/-- Any other request is answered at most. -/
theorem setup_other (hs : s.classData = true) (h : req.bmRequest &&& 0x60 ≠ 0x20) :
    ∃ answers, (s.usbdCdcSetup req).2 = { s with answers := s.answers ++ answers } ∧
      ∀ a ∈ answers, a.1 = s.request := by
  have hnone : s = { s with answers := s.answers ++ [] } := by rw [List.append_nil]
  rw [usbdCdcSetup]
  rw [if_pos hs, if_neg h]
  split
  · split
    · split <;> exact ⟨_, rfl, fun a ha => by rw [List.mem_singleton.mp ha]⟩
    · split
      · split <;> exact ⟨_, rfl, fun a ha => by rw [List.mem_singleton.mp ha]⟩
      · split
        · split
          · exact ⟨[], hnone, fun a ha => by cases ha⟩
          · exact ⟨_, rfl, fun a ha => by rw [List.mem_singleton.mp ha]⟩
        · split
          · exact ⟨[], hnone, fun a ha => by cases ha⟩
          · exact ⟨_, rfl, fun a ha => by rw [List.mem_singleton.mp ha]⟩
  · exact ⟨_, rfl, fun a ha => by rw [List.mem_singleton.mp ha]⟩

/-- The end of the data hands on what is latched, and clears the opcode. -/
theorem rxReady_eq (hs : s.classData = true) :
    s.usbdCdcEp0RxReady.2 =
      if s.cmdOpCode = 0xFF then s
      else
        { s with
          handle := store8 s.handle cdcDataSize 0xFF
          controls := s.controls ++ [⟨s.cmdOpCode,
            slice s.handle 0 (min s.cmdLength.toUInt16.toNat cdcDataSize), s.cmdLength.toUInt16,
            s.request.wIndex.toUInt8⟩] } := by
  rw [usbdCdcEp0RxReady]
  rw [if_pos hs]
  by_cases h : s.cmdOpCode = 0xFF
  · rw [if_pos h, if_neg (not_not.mpr h)]
  · rw [if_neg h, if_pos h]
    rfl

/-! ### The port -/

/-- The reception that goes with a request of the port, and the latch. -/
def Staged (s : CdcControl) : Option (SetupReq × List UInt8) → Prop
  | none => s.stage = none
  | some (req, got) => s.stage = some (req.wLength.toNat, got.length) ∧ s.request = req ∧
      s.cmdOpCode = req.bRequest ∧ s.cmdLength = req.wLength.toUInt8 ∧
      got.length < req.wLength.toNat ∧ req.wLength.toNat ≤ cdcDataSize ∧
      slice s.handle 0 got.length = got

/-- The device shows what the port does. -/
structure Mirrors (s : CdcControl) (p : ControlPort) : Prop where
  classData : s.classData = true
  controls : s.controls = p.controls
  reads : s.answers.filter (fun a => a.1.Reads) = p.reads
  buffer : ∀ i < cdcDataSize, s.handle i = p.buffer i
  staged : Staged s p.pending

/-- The part of the data that a request is about looks the same. -/
theorem Mirrors.slice_eq {p : ControlPort} (h : Mirrors s p) {n : ℕ} (hn : n ≤ cdcDataSize) :
    slice s.handle 0 n = slice p.buffer 0 n :=
  slice_congr fun i _ hi => h.buffer i (Nat.lt_of_lt_of_le hi hn)

theorem Mirrors.setup {p : ControlPort} (h : Mirrors s p)
    (hfits : req.Writes → req.wLength.toNat ≤ cdcDataSize) :
    Mirrors (s.ep0 (.setup req)) (p.step (.setup req)) := by
  have hclass : ({ s with request := req, stage := none } : CdcControl).classData = true :=
    h.classData
  rw [ep0, ControlPort.step]
  by_cases hw : req.Writes
  · rw [if_pos hw, setup_writes hclass hw]
    refine ⟨h.classData, h.controls, h.reads, fun i hi => ?_, rfl, rfl, ?_, ?_, ?_, hfits hw, rfl⟩
    · change store8 (store8 s.handle _ _) _ _ i = _
      rw [store8_of_ne (by omega), store8_of_ne (by omega)]
      exact h.buffer i hi
    · dsimp only [cmdOpCode]
      rw [store8_of_ne (by omega), store8_self]
    · dsimp only [cmdLength]
      rw [store8_self]
    · rw [List.length_nil]
      exact Nat.pos_of_ne_zero fun hzero => hw.2.1 (UInt16.toNat_inj.mp hzero)
  · rw [if_neg hw]
    by_cases hr : req.Reads
    · rw [if_pos hr, setup_reads hclass hr]
      have hdata := h.slice_eq (Nat.min_le_right req.wLength.toNat cdcDataSize)
      have hanswer := h.slice_eq
        (Nat.le_trans (Nat.min_le_left cdcReqMaxDataSize req.wLength.toNat) (by decide))
      refine ⟨h.classData, ?_, ?_, h.buffer, rfl⟩
      · dsimp only
        rw [h.controls, hdata]
      · dsimp only
        rw [List.filter_append, h.reads, List.filter_singleton, decide_eq_true hr, cond_true,
          hanswer]
    · rw [if_neg hr]
      by_cases hb : req.Bare
      · rw [if_pos hb, setup_bare hclass hb]
        refine ⟨h.classData, ?_, h.reads, h.buffer, rfl⟩
        exact congrArg (· ++ _) h.controls
      · rw [if_neg hb]
        have hother : req.bmRequest &&& 0x60 ≠ 0x20 := by
          intro htype
          by_cases hlen : req.wLength = 0
          · exact hb ⟨htype, hlen⟩
          · by_cases hdir : req.bmRequest &&& 0x80 = 0
            · exact hw ⟨htype, hlen, hdir⟩
            · exact hr ⟨htype, hlen, hdir⟩
        obtain ⟨answers, heq, hanswers⟩ := setup_other hclass hother
        rw [heq]
        refine ⟨h.classData, h.controls, ?_, h.buffer, rfl⟩
        have hnone : answers.filter (fun a => a.1.Reads) = [] := by
          refine List.filter_eq_nil_iff.mpr fun a ha hreads => hr ?_
          rw [hanswers a ha] at hreads
          exact of_decide_eq_true hreads
        change (s.answers ++ answers).filter _ = _
        rw [List.filter_append, hnone, List.append_nil, h.reads]

/-- Data that is not complete yet. -/
theorem Mirrors.packet {p : ControlPort} (h : Mirrors s p) (bytes : List UInt8) :
    Mirrors (s.ep0 (.packet bytes)) (p.step (.packet bytes)) := by
  have hstaged := h.staged
  rw [ep0, ControlPort.step]
  cases hp : p.pending with
  | none =>
    rw [hp] at hstaged
    have hnone : s.stage = none := hstaged
    rw [hnone]
    exact h
  | some x =>
    obtain ⟨req, got⟩ := x
    rw [hp] at hstaged
    obtain ⟨hstage, hreq, hop, hlen, hlt, hfits, hgot⟩ := hstaged
    have hpatch : ∀ i < cdcDataSize,
        patch s.handle got.length bytes i = patch p.buffer got.length bytes i := by
      intro i hi
      rw [patch, patch, h.buffer i hi]
    have hdata : slice (patch s.handle got.length bytes) 0 (got ++ bytes).length =
        got ++ bytes := by
      rw [List.length_append, slice_patch_append (Nat.zero_le _), hgot]
    rw [hstage]
    dsimp only
    rw [List.length_append]
    split
    · next hmore =>
      have hbehind : ∀ i, cdcDataSize ≤ i → patch s.handle got.length bytes i = s.handle i :=
        fun i hi => patch_of_le (by omega)
      refine ⟨h.classData, h.controls, h.reads, hpatch, ?_, hreq, ?_, ?_, ?_, hfits, ?_⟩
      · rw [List.length_append]
      · dsimp only [cmdOpCode]
        rw [hbehind _ le_rfl]
        exact hop
      · dsimp only [cmdLength]
        rw [hbehind _ (Nat.le_succ _)]
        exact hlen
      · rw [List.length_append]
        exact hmore
      · exact hdata
    · split
      · next hdone =>
        generalize hu : ({ s with handle := patch s.handle got.length bytes, stage := none } :
          CdcControl) = u
        have hhandle : u.handle = patch s.handle got.length bytes := by rw [← hu]
        have hlength : (got ++ bytes).length = req.wLength.toNat :=
          (List.length_append ..).trans hdone
        have hopcode : u.cmdOpCode = req.bRequest := by
          rw [cmdOpCode, hhandle, patch_of_le (by omega)]
          exact hop
        have hcount : u.cmdLength.toUInt16.toNat = (got ++ bytes).length % 256 := by
          have hcmd : u.cmdLength = req.wLength.toUInt8 := by
            rw [cmdLength, hhandle, patch_of_le (by omega)]
            exact hlen
          rw [hcmd, hlength]
          simp
        have hbytes : slice u.handle 0 (min u.cmdLength.toUInt16.toNat cdcDataSize) =
            (got ++ bytes).take ((got ++ bytes).length % 256) := by
          have hle : (got ++ bytes).length % 256 ≤ (got ++ bytes).length := Nat.mod_le _ _
          rw [hcount, Nat.min_eq_left (by omega), slice_eq_take (Nat.zero_le _) hle, hhandle, hdata,
            Nat.sub_zero]
        have hwIndex : u.request.wIndex = req.wIndex := by rw [← hu, ← hreq]
        have hkept : u.classData = true ∧ u.controls = p.controls ∧ u.stage = none ∧
            u.answers.filter (fun a => a.1.Reads) = p.reads := by
          rw [← hu]
          exact ⟨h.classData, h.controls, rfl, h.reads⟩
        obtain ⟨hclass, hcontrols, hnone, hreads⟩ := hkept
        rw [rxReady_eq hclass, hopcode, ControlPort.commands]
        split
        · rw [List.append_nil]
          exact ⟨hclass, hcontrols, hreads, fun i hi => (congrFun hhandle i).trans (hpatch i hi),
            hnone⟩
        · refine ⟨hclass, ?_, hreads, fun i hi => ?_, hnone⟩
          · dsimp only
            rw [hcontrols, hbytes, ← hcount, UInt16.ofNat_toNat, hwIndex]
          · dsimp only
            rw [store8_of_ne (by omega), hhandle]
            exact hpatch i hi
      · exact h

/-- The device and the port after some events. -/
def run (s : CdcControl) (es : List Ep0Event) : CdcControl := es.foldl ep0 s

/-- No request brings more data than there is room for. -/
def Fits (es : List Ep0Event) : Prop :=
  ∀ req, .setup req ∈ es → req.Writes → req.wLength.toNat ≤ cdcDataSize

end CdcControl

/-- The port after some events. -/
def ControlPort.run (p : ControlPort) (es : List Ep0Event) : ControlPort := es.foldl step p

namespace CdcControl

variable {s : CdcControl} {es : List Ep0Event}

theorem Mirrors.run {p : ControlPort} (h : Mirrors s p) (hes : Fits es) :
    Mirrors (s.run es) (p.run es) := by
  induction es generalizing s p with
  | nil => exact h
  | cons e es ih =>
    have hrest : Fits es := fun req hreq => hes req (List.mem_cons_of_mem e hreq)
    cases e with
    | setup req => exact ih (h.setup (hes req List.mem_cons_self)) hrest
    | packet bytes => exact ih (h.packet bytes) hrest

end CdcControl

/-- `CDC_SET_LINE_CODING` and `CDC_GET_LINE_CODING` to the first interface. -/
def setLineCoding : SetupReq := ⟨0x21, 0x20, 0, 7⟩
def getLineCoding : SetupReq := ⟨0xA1, 0x21, 0, 7⟩

/-- 115200 baud, one stop bit, no parity, eight bits. -/
def lineCoding : List UInt8 := [0, 194, 1, 0, 0, 0, 8]

namespace ControlPort

variable {p : ControlPort}

theorem run_append (es es' : List Ep0Event) : p.run (es ++ es') = (p.run es).run es' :=
  List.foldl_append

/-- A request writes nothing to the buffer, whatever it is. -/
theorem buffer_setups (reqs : List SetupReq) : (p.run (reqs.map .setup)).buffer = p.buffer := by
  induction reqs generalizing p with
  | nil => rfl
  | cons req reqs ih =>
    apply (ih (p := p.step (.setup req))).trans
    rw [step]
    split
    · rfl
    · split
      · rfl
      · split <;> rfl

/-- Without a request no data is taken. -/
theorem run_packets_of_none (h : p.pending = none) (chunks : List (List UInt8)) :
    p.run (chunks.map .packet) = p := by
  induction chunks with
  | nil => rfl
  | cons chunk chunks ih =>
    have hstep : p.step (.packet chunk) = p := by
      rw [step]
      rw [h]
    change (p.step (.packet chunk)).run (chunks.map .packet) = p
    rw [hstep]
    exact ih

/-- The data of a request, in packets of any size. -/
theorem slice_packets {req : SetupReq} {got : List UInt8} {chunks : List (List UInt8)}
    (hp : p.pending = some (req, got)) (hgot : slice p.buffer 0 got.length = got)
    (hlength : (got ++ chunks.flatten).length = req.wLength.toNat) :
    slice (p.run (chunks.map .packet)).buffer 0 req.wLength.toNat = got ++ chunks.flatten := by
  induction chunks generalizing p got with
  | nil =>
    rw [List.flatten_nil, List.append_nil] at hlength ⊢
    rw [← hlength]
    exact hgot
  | cons chunk chunks ih =>
    rw [List.flatten_cons, ← List.append_assoc] at hlength ⊢
    have hdata : slice (patch p.buffer got.length chunk) 0 (got ++ chunk).length =
        got ++ chunk := by
      rw [List.length_append, slice_patch_append (Nat.zero_le _), hgot]
    change slice ((p.step (.packet chunk)).run (chunks.map .packet)).buffer 0 _ = _
    rw [step]
    rw [hp]
    dsimp only
    split
    · exact ih rfl hdata hlength
    · next hmore =>
      -- the rest can only be empty packets
      have hrest : chunks.flatten = [] := by
        apply List.eq_nil_of_length_eq_zero
        rw [List.length_append] at hlength
        omega
      rw [hrest, List.append_nil] at hlength ⊢
      rw [if_pos hlength, run_packets_of_none rfl, ← hlength]
      exact hdata

end ControlPort

namespace CdcControl

theorem run_append (s : CdcControl) (es es' : List Ep0Event) :
    s.run (es ++ es') = (s.run es).run es' :=
  List.foldl_append

end CdcControl

/-! ### More data than there is room for -/

/-- `sizeof(USBD_CDC_HandleTypeDef)`: behind `data`, the latch and two bytes of padding come six
words that requests do not use. -/
def cdcHandleSize : ℕ := 540

namespace CdcControl

variable {s : CdcControl}

/-- Data that nothing has asked for is not taken. -/
theorem run_packets_of_none (h : s.stage = none) (chunks : List (List UInt8)) :
    s.run (chunks.map .packet) = s := by
  induction chunks with
  | nil => rfl
  | cons chunk chunks ih =>
    have hstep : s.ep0 (.packet chunk) = s := by
      rw [ep0]
      rw [h]
    change (s.ep0 (.packet chunk)).run (chunks.map .packet) = s
    rw [hstep]
    exact ih

theorem rxReady_stage : s.usbdCdcEp0RxReady.2.stage = s.stage := by
  rw [usbdCdcEp0RxReady]
  split
  · split <;> rfl
  · rfl

/-- The data of a request goes to one place, in packets of any size. -/
theorem run_packets {len got : ℕ} {chunks : List (List UInt8)} (hstage : s.stage = some (len, got))
    (hmore : got < len) (hlength : got + chunks.flatten.length = len) :
    s.run (chunks.map .packet) =
      ({ s with handle := patch s.handle got chunks.flatten, stage := none } :
        CdcControl).usbdCdcEp0RxReady.2 := by
  induction chunks generalizing s got with
  | nil => exact absurd hlength (by simp; omega)
  | cons chunk chunks ih =>
    rw [List.flatten_cons, List.length_append] at hlength
    change (s.ep0 (.packet chunk)).run (chunks.map .packet) = _
    rw [ep0]
    rw [hstage]
    dsimp only
    split
    · next hlt =>
      rw [ih rfl hlt (by omega), List.flatten_cons]
      dsimp only
      rw [patch_append]
    · have hrest : chunks.flatten = [] := by
        apply List.eq_nil_of_length_eq_zero
        omega
      rw [if_pos (by rw [hrest, List.length_nil] at hlength; omega), List.flatten_cons, hrest,
        List.append_nil]
      apply run_packets_of_none
      rw [rxReady_stage]

/-- With more data than there is room for, the 513th byte is taken for the opcode, whatever
request the host has named. -/
theorem overrun (hs : s.classData = true) {req : SetupReq} (hw : req.Writes)
    (hbig : cdcDataSize < req.wLength.toNat) (_ : req.wLength.toNat ≤ cdcHandleSize)
    {chunks : List (List UInt8)} (hlength : chunks.flatten.length = req.wLength.toNat) :
    (s.run (.setup req :: chunks.map .packet)).controls.map (·.cmd) =
      s.controls.map (·.cmd) ++
        chunks.flatten[cdcDataSize]?.toList.filter (· ≠ 0xFF) := by
  have hclass : ({ s with request := req, stage := none } : CdcControl).classData = true := hs
  change ((s.ep0 (.setup req)).run (chunks.map .packet)).controls.map _ = _
  rw [ep0, setup_writes hclass hw, run_packets rfl (by omega) (by omega)]
  obtain ⟨opcode, hopcode⟩ : ∃ opcode, chunks.flatten[cdcDataSize]? = some opcode :=
    ⟨_, List.getElem?_eq_getElem (by omega)⟩
  generalize hu : CdcControl.mk _ _ _ _ _ _ _ = u
  have hcmd : u.cmdOpCode = opcode := by
    rw [cmdOpCode, ← hu]
    dsimp only
    rw [patch]
    rw [if_pos (Nat.zero_le _), Nat.sub_zero, hopcode, Option.getD_some]
  have hcontrols : u.controls = s.controls := by rw [← hu]
  rw [rxReady_eq (by rw [← hu]; exact hs), hcmd, hopcode, Option.toList_some,
    List.filter_singleton]
  by_cases h : opcode = 0xFF
  · rw [if_pos h, hcontrols, decide_eq_false (not_not.mpr h), cond_false, List.append_nil]
  · rw [if_neg h, decide_eq_true h, cond_true]
    dsimp only
    rw [List.map_append, hcontrols]
    rfl

/-- A request of opcode 0 that reaches `CDC_Control_FS` as `CDC_SET_LINE_CODING`. -/
theorem overrun_one :
    (run {} [.setup ⟨0x21, 0, 0, 513⟩, .packet (List.replicate 512 0),
      .packet [0x20]]).controls.map (·.cmd) = [0x20] := by
  have h := @overrun {} rfl ⟨0x21, 0, 0, 513⟩ (by decide) (by decide) (by decide)
    [List.replicate 512 0, [0x20]] (by decide +kernel)
  exact h.trans (by decide +kernel)

end CdcControl

end RmMicroControllers
