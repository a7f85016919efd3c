import Muen.Components.Ahci.Device
import Muen.Lib.Machine

/-!
# AHCI block server

`Server` of the AHCI driver. Clients send requests through the channels of ports; requests to read, write or
discard are combined as long as they are contiguous, and are executed when the next one is not or when there is
no more data. What `Init` has set up is the configuration, the current requests of devices are the state.
-/

namespace Muen.Components.Ahci

open Muenblock

/-- The part of `Internal_Device_Type` that `Init` sets. A partition ends before the sector numbers do. -/
structure InternalDevice where
  ahciPort : Fin 32
  isValid : Bool
  sectorOffset : Unsigned64
  sectorCount : Unsigned64
  inRange : sectorOffset.toNat + sectorCount.toNat < 2 ^ 64

/-- `Ports_Config` and `Ahci_Drv_Component.Memory_Arrays`, with the devices that were found. -/
structure Config where
  ports : ℕ
  /-- `Devices_Max`. -/
  devicesMax : ℕ
  channels : ℕ
  shmAddressBase : Unsigned64
  shmElementSize : Unsigned64
  chanIdx : Fin ports → Fin channels
  devs : Fin ports → Fin (devicesMax + 1) → InternalDevice
  devices : Fin 32 → Device
  devicesMax_lt : devicesMax < 2 ^ 16
  shmInRange : shmAddressBase.toNat + channels * shmElementSize.toNat < 2 ^ 64

/-- `Current_Request_Type`, with the tags up to `Tag_Idx`. -/
structure CurrentRequest where
  requestKind : RequestKind
  deviceId : Unsigned16
  deviceOffset : Unsigned64
  bufferOffset : Unsigned64
  requestLength : Unsigned64
  tags : List Unsigned32
  deriving DecidableEq

def nullCurrent : CurrentRequest := ⟨RequestKind.none, 0, 0, 0, 0, []⟩

/-- `Requ_Max`, the last index of tags. -/
def requMax : ℕ := 64

/-- The operations of `Ahci.Device`. -/
inductive Operation
  | rwSectors (rw : RW) (start : Unsigned64) (count : Unsigned32) (address : Unsigned64)
  | discardSectors (start : Unsigned64) (count : Unsigned32)
  | getSmart (address : Unsigned64)
  | sync
  deriving DecidableEq

/-- `Ahci.Device.SMART_Status_Type`. -/
inductive SmartStatus
  | ok
  | thresholdExceeded
  | undefined

/-- `Muenblock.SMART_OK` and the others. -/
def SmartStatus.code : SmartStatus → Unsigned64
  | .ok => 1
  | .thresholdExceeded => 2
  | .undefined => 3

namespace Config

variable (C : Config)

abbrev Port := Fin C.ports
abbrev Dev := Fin (C.devicesMax + 1)

/-- A call of an operation on behalf of a client. -/
structure Call where
  port : C.Port
  dev : C.Dev
  operation : Operation
  deriving DecidableEq

/-- How the hardware reacts to calls. A command to read or write either succeeds and transfers all bytes,
or it fails. -/
structure Hardware where
  success : C.Call → Bool
  discard : C.Call → Status
  smart : C.Call → Status × SmartStatus
  sync : C.Call → Status

/-- The variables of the server, with all calls and all responses on channels so far. -/
structure Server where
  current : C.Port → C.Dev → CurrentRequest
  calls : List C.Call
  responses : Fin C.channels → List BlockResponse

def device (p : C.Port) (d : C.Dev) : Device := C.devices (C.devs p d).ahciPort

def sectorSize (p : C.Port) (d : C.Dev) : Unsigned32 := (C.device p d).sectorSize

def getShmBufferBase (i : Fin C.channels) : Unsigned64 :=
  C.shmAddressBase + BitVec.ofNat 64 i.val * C.shmElementSize

/-- The status of `RW_Sectors`. -/
def rwStatus (hw : C.Hardware) (c : C.Call) : Option Command → Status
  | none => .enotsup
  | some _ => if hw.success c then .ok else .eio

/-- The status of an operation. -/
def status (hw : C.Hardware) (c : C.Call) : Status :=
  match c.operation with
  | .rwSectors rw start count address =>
    C.rwStatus hw c (Ahci.rwSectors (C.device c.port c.dev) rw start count address)
  | .discardSectors _ _ => hw.discard c
  | .getSmart _ => (hw.smart c).1
  | .sync => hw.sync c

namespace Server

variable {C : Config}

def setCurrent (s : C.Server) (p : C.Port) (d : C.Dev) (r : CurrentRequest) : C.Server :=
  { s with current := Function.update s.current p (Function.update (s.current p) d r) }

def sendResponse (s : C.Server) (p : C.Port) (r : BlockResponse) : C.Server :=
  { s with responses := Function.update s.responses (C.chanIdx p) (s.responses (C.chanIdx p) ++ [r]) }

def call (s : C.Server) (c : C.Call) : C.Server := { s with calls := s.calls ++ [c] }

/-- The operation for the current request of a device. -/
def currentOperation (p : C.Port) (d : C.Dev) (cur : CurrentRequest) : Option Operation :=
  let startSec := cur.deviceOffset + (C.devs p d).sectorOffset
  let secCnt := (cur.requestLength / (C.sectorSize p d).setWidth 64).setWidth 32
  let address := cur.bufferOffset + C.getShmBufferBase (C.chanIdx p)
  if cur.requestKind = RequestKind.read then some (.rwSectors .read startSec secCnt address)
  else if cur.requestKind = RequestKind.write then some (.rwSectors .write startSec secCnt address)
  else if cur.requestKind = RequestKind.discard then some (.discardSectors startSec secCnt)
  else none

/-- The responses at the end of `Finish_Current_Request`. -/
def sendResponses (s : C.Server) (p : C.Port) (cur : CurrentRequest) (ret : Status) : C.Server :=
  cur.tags.foldl (fun s tag => s.sendResponse p ⟨cur.requestKind, cur.deviceId, tag, ret.toUnsigned64⟩) s

/-- The test of `Finish_Current_Request` for the alignment of the request. -/
def Aligned (sectorSize : Unsigned32) (cur : CurrentRequest) : Prop :=
  cur.deviceOffset &&& (sectorSize - 1).setWidth 64 = 0 ∨ cur.requestLength &&& (sectorSize - 1).setWidth 64 = 0

instance (sectorSize : Unsigned32) (cur : CurrentRequest) : Decidable (Aligned sectorSize cur) :=
  inferInstanceAs (Decidable (_ ∨ _))

/-- The end of `Finish_Current_Request` behind an operation. -/
def answer (s : C.Server) (p : C.Port) (d : C.Dev) (sendResp : Bool) (ret : Status) : C.Server :=
  (if sendResp then s.sendResponses p (s.current p d) ret else s).setCurrent p d nullCurrent

def finishCurrentRequest (hw : C.Hardware) (p : C.Port) (d : C.Dev) (sendResp : Bool) (s : C.Server) : C.Server :=
  let cur := s.current p d
  if cur.tags = [] ∨ C.sectorSize p d = 0 then s.setCurrent p d nullCurrent
  else if Aligned (C.sectorSize p d) cur then
    match currentOperation p d cur with
    | some operation => (s.call ⟨p, d, operation⟩).answer p d sendResp (C.status hw ⟨p, d, operation⟩)
    | none => s.setCurrent p d nullCurrent
  else s.answer p d sendResp .eio

/-- The loop over all valid devices of a port. -/
def finishCurrentRequests (hw : C.Hardware) (p : C.Port) (sendResp : Bool) (s : C.Server) : C.Server :=
  (List.finRange (C.devicesMax + 1)).foldl (fun s d =>
    if (C.devs p d).isValid then s.finishCurrentRequest hw p d sendResp else s) s

/-- The answer to a request that does not read, write or discard. -/
def processSimpleRequest (hw : C.Hardware) (p : C.Port) (d : C.Dev) (r : BlockRequest) (s : C.Server) : C.Server :=
  let respond := fun (s : C.Server) (code : Unsigned64) =>
    s.sendResponse p ⟨r.requestKind, r.deviceId, r.requestTag, code⟩
  if r.requestKind = RequestKind.mediaBlocks then respond s (C.devs p d).sectorCount
  else if r.requestKind = RequestKind.blockLength then respond s ((C.sectorSize p d).setWidth 64)
  else if r.requestKind = RequestKind.maxDevices then
    respond s (BitVec.ofNat 64 ((List.finRange (C.devicesMax + 1)).countP (fun d => (C.devs p d).isValid)))
  else if r.requestKind = RequestKind.maxBlocksCount then
    respond s ((getMaxSectorCount (C.device p d)).setWidth 64)
  else if r.requestKind = RequestKind.reset then respond (s.finishCurrentRequests hw p false) 0
  else if r.requestKind = RequestKind.getSmart then
    let c : C.Call := ⟨p, d, .getSmart ((s.current p d).bufferOffset + C.getShmBufferBase (C.chanIdx p))⟩
    respond (s.call c) (if C.status hw c = .ok then (hw.smart c).2.code else 0)
  else if r.requestKind = RequestKind.sync then
    let s := s.finishCurrentRequests hw p true
    let c : C.Call := ⟨p, d, .sync⟩
    respond (s.call c) (if C.status hw c = .ok then 0 else 1)
  else respond s 0

/-- A request continues the current request of the device. -/
def Contiguous (cur : CurrentRequest) (r : BlockRequest) : Prop :=
  r.requestKind = cur.requestKind ∧ r.bufferOffset = cur.bufferOffset + cur.requestLength ∧
    r.deviceOffset = cur.deviceOffset + cur.requestLength ∧ cur.tags.length ≠ requMax ∧ r.deviceId = cur.deviceId

instance (cur : CurrentRequest) (r : BlockRequest) : Decidable (Contiguous cur r) :=
  inferInstanceAs (Decidable (_ ∧ _))

/-- The current request after a request was added to it. -/
def addRequest (cur : CurrentRequest) (r : BlockRequest) : CurrentRequest :=
  let cur := if cur.requestKind = RequestKind.none then
      { cur with
        deviceOffset := r.deviceOffset
        deviceId := r.deviceId
        bufferOffset := r.bufferOffset
        requestKind := r.requestKind }
    else cur
  { cur with requestLength := cur.requestLength + r.requestLength, tags := cur.tags ++ [r.requestTag] }

def processRWDRequest (hw : C.Hardware) (p : C.Port) (d : C.Dev) (r : BlockRequest) (s : C.Server) : C.Server :=
  if ¬ (C.devs p d).isValid then s.sendResponse p ⟨r.requestKind, r.deviceId, r.requestTag, 1⟩
  else
    let s := if (s.current p d).tags ≠ [] ∧ ¬ Contiguous (s.current p d) r then
        s.finishCurrentRequest hw p d true
      else s
    s.setCurrent p d (addRequest (s.current p d) r)

/-- The kinds of requests that have a device and are answered at once. -/
def simpleKinds : List RequestKind :=
  [RequestKind.mediaBlocks, RequestKind.blockLength, RequestKind.maxBlocksCount, RequestKind.maxDevices,
    RequestKind.reset, RequestKind.getSmart, RequestKind.sync]

/-- The kinds of requests that transfer or discard data. -/
def rwdKinds : List RequestKind := [RequestKind.read, RequestKind.write, RequestKind.discard]

/-- The status for a request without a device. -/
def invalidStatus (kind : RequestKind) : Unsigned64 :=
  if kind ∈ [RequestKind.none, RequestKind.read, RequestKind.write, RequestKind.discard, RequestKind.sync,
    RequestKind.reset] then 1 else 0

def processRequest (hw : C.Hardware) (p : C.Port) (r : BlockRequest) (s : C.Server) : C.Server :=
  if h : r.deviceId.toNat < C.devicesMax + 1 then
    let d : C.Dev := ⟨r.deviceId.toNat, h⟩
    if r.requestKind ∈ rwdKinds then s.processRWDRequest hw p d r
    else if r.requestKind ∈ simpleKinds then s.processSimpleRequest hw p d r
    else s
  else s.sendResponse p ⟨r.requestKind, r.deviceId, r.requestTag, invalidStatus r.requestKind⟩

end Server

/-- What `Process_Port` does with the result of a read: there is a request, or there is no data. -/
inductive Event
  | request (p : C.Port) (r : BlockRequest) (hw : C.Hardware)
  | noData (p : C.Port) (hw : C.Hardware)

def Event.port {C : Config} : C.Event → C.Port
  | .request p _ _ => p
  | .noData p _ => p

def step (s : C.Server) : C.Event → Option C.Server
  | .request p r hw => some (s.processRequest hw p r)
  | .noData p hw => some (s.finishCurrentRequests hw p true)

/-- The server behind `Init`. -/
def initServer : C.Server := ⟨fun _ _ => nullCurrent, [], fun _ => []⟩

/-! ### Confinement -/

/-- The sectors are in the partition of the device. -/
def InPartition (p : C.Port) (d : C.Dev) (start : Unsigned64) (count : Unsigned32) : Prop :=
  (C.devs p d).sectorOffset.toNat ≤ start.toNat ∧
    start.toNat + count.toNat ≤ (C.devs p d).sectorOffset.toNat + (C.devs p d).sectorCount.toNat

/-- The sectors fit into the buffer of the client. -/
def InBuffer (p : C.Port) (d : C.Dev) (count : Unsigned32) (address : Unsigned64) : Prop :=
  (C.getShmBufferBase (C.chanIdx p)).toNat ≤ address.toNat ∧
    address.toNat + count.toNat * (C.sectorSize p d).toNat ≤
      (C.getShmBufferBase (C.chanIdx p)).toNat + C.shmElementSize.toNat

/-- A call leaves the data of other clients alone. -/
def Confined (c : C.Call) : Prop :=
  match c.operation with
  | .rwSectors _ start count address => C.InPartition c.port c.dev start count ∧ C.InBuffer c.port c.dev count address
  | .discardSectors start count => C.InPartition c.port c.dev start count
  | _ => True

/-- A range of sectors of the partition, and of bytes of the buffer, as the server takes it from a request: it
starts with a sector, and its length is in bytes. -/
def InRange (p : C.Port) (d : C.Dev) (kind : RequestKind) (deviceOffset bufferOffset length : Unsigned64) : Prop :=
  deviceOffset.toNat + length.toNat / (C.sectorSize p d).toNat ≤ (C.devs p d).sectorCount.toNat ∧
    (kind ≠ RequestKind.discard → bufferOffset.toNat + length.toNat ≤ C.shmElementSize.toNat)

/-- A request for a device stays in range, and the end of the current request it continues does not wrap
around. -/
def RequestOk (s : C.Server) (p : C.Port) (d : C.Dev) (r : BlockRequest) : Prop :=
  r.requestKind ∈ Server.rwdKinds → (C.devs p d).isValid → C.sectorSize p d ≠ 0 →
    C.InRange p d r.requestKind r.deviceOffset r.bufferOffset r.requestLength ∧
    ((s.current p d).tags ≠ [] → Server.Contiguous (s.current p d) r →
      (s.current p d).deviceOffset.toNat + (s.current p d).requestLength.toNat < 2 ^ 64)

instance (s : C.Server) (p : C.Port) (d : C.Dev) (r : BlockRequest) : Decidable (C.RequestOk s p d r) :=
  inferInstanceAs (Decidable (_ → _ → _ → (_ ∧ (_ → _)) ∧ (_ → _ → _)))

/-- The condition on the next event. -/
def EventOk (s : C.Server) : C.Event → Prop
  | .request p r _ => ∀ d : C.Dev, d.val = r.deviceId.toNat → C.RequestOk s p d r
  | .noData _ _ => True

instance (s : C.Server) : ∀ e, Decidable (C.EventOk s e)
  | .request p r _ => inferInstanceAs (Decidable (∀ d : C.Dev, d.val = r.deviceId.toNat → C.RequestOk s p d r))
  | .noData _ _ => isTrue trivial

variable {C : Config}

lemma getShmBufferBase_toNat (i : Fin C.channels) :
    (C.getShmBufferBase i).toNat = C.shmAddressBase.toNat + i.val * C.shmElementSize.toNat ∧
      C.shmAddressBase.toNat + i.val * C.shmElementSize.toNat + C.shmElementSize.toNat < 2 ^ 64 := by
  have hrange := C.shmInRange
  have hle : i.val * C.shmElementSize.toNat + C.shmElementSize.toNat ≤ C.channels * C.shmElementSize.toNat := by
    calc i.val * C.shmElementSize.toNat + C.shmElementSize.toNat = (i.val + 1) * C.shmElementSize.toNat :=
          (Nat.succ_mul _ _).symm
      _ ≤ C.channels * C.shmElementSize.toNat := Nat.mul_le_mul_right _ i.isLt
  refine ⟨?_, by omega⟩
  unfold getShmBufferBase
  have hmul : (BitVec.ofNat 64 i.val * C.shmElementSize).toNat = i.val * C.shmElementSize.toNat := by
    rw [BitVec.toNat_mul, BitVec.toNat_ofNat, Nat.mod_mul_mod]
    exact Nat.mod_eq_of_lt (by omega)
  rw [BitVec.toNat_add, hmul]
  exact Nat.mod_eq_of_lt (by omega)

/-- The number of sectors of a length. -/
lemma count_le {p : C.Port} {d : C.Dev} (length : Unsigned64) :
    ((length / (C.sectorSize p d).setWidth 64).setWidth 32 : Unsigned32).toNat ≤
      length.toNat / (C.sectorSize p d).toNat := by
  have hsize : ((C.sectorSize p d).setWidth 64).toNat = (C.sectorSize p d).toNat := by
    rw [BitVec.toNat_setWidth]
    exact Nat.mod_eq_of_lt (by have := (C.sectorSize p d).isLt; omega)
  rw [BitVec.toNat_setWidth, BitVec.toNat_udiv, hsize]
  exact Nat.mod_le _ _

/-- An operation for a current request in range is confined. -/
lemma confined_operation {p : C.Port} {d : C.Dev} {cur : CurrentRequest} {operation : Operation}
    (h : C.InRange p d cur.requestKind cur.deviceOffset cur.bufferOffset cur.requestLength)
    (hop : Server.currentOperation p d cur = some operation) : C.Confined ⟨p, d, operation⟩ := by
  obtain ⟨hsectors, hbuffer⟩ := h
  have hcount := count_le (p := p) (d := d) cur.requestLength
  have hrange := (C.devs p d).inRange
  have hstart : (cur.deviceOffset + (C.devs p d).sectorOffset).toNat =
      cur.deviceOffset.toNat + (C.devs p d).sectorOffset.toNat := by
    rw [BitVec.toNat_add]
    exact Nat.mod_eq_of_lt (by omega)
  have hpartition : C.InPartition p d (cur.deviceOffset + (C.devs p d).sectorOffset)
      ((cur.requestLength / (C.sectorSize p d).setWidth 64).setWidth 32) := by
    unfold InPartition
    rw [hstart]
    omega
  have hin : cur.requestKind ≠ RequestKind.discard → C.InBuffer p d
      ((cur.requestLength / (C.sectorSize p d).setWidth 64).setWidth 32)
      (cur.bufferOffset + C.getShmBufferBase (C.chanIdx p)) := by
    intro hkind
    obtain ⟨hbase, hend⟩ := getShmBufferBase_toNat (C.chanIdx p)
    have hfit := hbuffer hkind
    have haddress : (cur.bufferOffset + C.getShmBufferBase (C.chanIdx p)).toNat =
        cur.bufferOffset.toNat + (C.getShmBufferBase (C.chanIdx p)).toNat := by
      rw [BitVec.toNat_add]
      exact Nat.mod_eq_of_lt (by omega)
    have hbytes := Nat.mul_le_mul_right (C.sectorSize p d).toNat hcount
    have hlength := Nat.div_mul_le_self cur.requestLength.toNat (C.sectorSize p d).toNat
    unfold InBuffer
    rw [haddress]
    omega
  unfold Server.currentOperation at hop
  simp only at hop
  split_ifs at hop with hread hwrite hdiscard
  · obtain rfl := Option.some.inj hop
    exact ⟨hpartition, hin (by rw [hread]; decide)⟩
  · obtain rfl := Option.some.inj hop
    exact ⟨hpartition, hin (by rw [hwrite]; decide)⟩
  · obtain rfl := Option.some.inj hop
    exact hpartition

/-- The current request of a device, in range when there is one. -/
structure CurrentOk (p : C.Port) (d : C.Dev) (cur : CurrentRequest) : Prop where
  null : cur.tags = [] → cur = nullCurrent
  kind : cur.tags ≠ [] → cur.requestKind ∈ Server.rwdKinds
  range : cur.tags ≠ [] → C.sectorSize p d ≠ 0 →
    C.InRange p d cur.requestKind cur.deviceOffset cur.bufferOffset cur.requestLength

lemma currentOk_null (p : C.Port) (d : C.Dev) : CurrentOk p d nullCurrent :=
  ⟨fun _ => rfl, fun h => absurd rfl h, fun h => absurd rfl h⟩

/-- What holds of the server in a run with requests in range. -/
structure Server.Ok (s : C.Server) : Prop where
  current : ∀ p d, CurrentOk p d (s.current p d)
  calls : ∀ c ∈ s.calls, C.Confined c

namespace Server

variable {s : C.Server} {p : C.Port} {d : C.Dev} {hw : C.Hardware} {r : BlockRequest}

lemma setCurrent_current (s : C.Server) (p : C.Port) (d : C.Dev) (cur : CurrentRequest) :
    (s.setCurrent p d cur).current p d = cur := by
  simp [setCurrent]

lemma Ok.setCurrent (h : s.Ok) {cur : CurrentRequest} (hcur : CurrentOk p d cur) : (s.setCurrent p d cur).Ok := by
  refine ⟨fun q e => ?_, h.calls⟩
  unfold Server.setCurrent
  by_cases hq : q = p
  · subst hq
    by_cases he : e = d
    · subst he
      simpa using hcur
    · simpa [he] using h.current q e
  · simpa [hq] using h.current q e

lemma Ok.sendResponse (h : s.Ok) (b : BlockResponse) : (s.sendResponse p b).Ok := ⟨h.current, h.calls⟩

lemma Ok.sendResponses (h : s.Ok) (cur : CurrentRequest) (ret : Status) : (s.sendResponses p cur ret).Ok := by
  unfold Server.sendResponses
  induction cur.tags generalizing s with
  | nil => exact h
  | cons tag tags ih => exact ih (h.sendResponse _)

lemma Ok.call (h : s.Ok) {c : C.Call} (hc : C.Confined c) : (s.call c).Ok := by
  refine ⟨h.current, fun c' hc' => ?_⟩
  rcases List.mem_append.mp hc' with hc' | hc'
  · exact h.calls c' hc'
  · rw [List.mem_singleton.mp hc']
    exact hc

lemma Ok.answer (h : s.Ok) (sendResp : Bool) (ret : Status) : (s.answer p d sendResp ret).Ok := by
  unfold Server.answer
  cases sendResp with
  | false => exact h.setCurrent (currentOk_null p d)
  | true => exact (h.sendResponses _ _).setCurrent (currentOk_null p d)

lemma Ok.finishCurrentRequest (h : s.Ok) (sendResp : Bool) : (s.finishCurrentRequest hw p d sendResp).Ok := by
  unfold Server.finishCurrentRequest
  simp only
  split_ifs with hempty haligned
  · exact h.setCurrent (currentOk_null p d)
  · push Not at hempty
    cases hop : currentOperation p d (s.current p d) with
    | none => exact h.setCurrent (currentOk_null p d)
    | some operation =>
      exact (h.call (confined_operation ((h.current p d).range hempty.1 hempty.2) hop)).answer _ _
  · exact h.answer _ _

lemma Ok.finishCurrentRequests (h : s.Ok) (sendResp : Bool) : (s.finishCurrentRequests hw p sendResp).Ok := by
  unfold Server.finishCurrentRequests
  induction List.finRange (C.devicesMax + 1) generalizing s with
  | nil => exact h
  | cons d ds ih =>
    rw [List.foldl_cons]
    split_ifs
    · exact ih (h.finishCurrentRequest sendResp)
    · exact ih h

lemma Ok.processSimpleRequest (h : s.Ok) : (s.processSimpleRequest hw p d r).Ok := by
  have hsmart : ∀ {address}, C.Confined ⟨p, d, .getSmart address⟩ := trivial
  have hsync : C.Confined ⟨p, d, .sync⟩ := trivial
  unfold Server.processSimpleRequest
  simp only
  split_ifs
  · exact h.sendResponse _
  · exact h.sendResponse _
  · exact h.sendResponse _
  · exact h.sendResponse _
  · exact (h.finishCurrentRequests false).sendResponse _
  · exact (h.call hsmart).sendResponse _
  · exact (h.call hsmart).sendResponse _
  · exact ((h.finishCurrentRequests true).call hsync).sendResponse _
  · exact ((h.finishCurrentRequests true).call hsync).sendResponse _
  · exact h.sendResponse _

lemma finishCurrentRequest_current (s : C.Server) (hw : C.Hardware) (p : C.Port) (d : C.Dev) (sendResp : Bool) :
    (s.finishCurrentRequest hw p d sendResp).current p d = nullCurrent := by
  unfold Server.finishCurrentRequest
  simp only
  split_ifs
  · exact setCurrent_current _ _ _ _
  · cases currentOperation p d (s.current p d) with
    | none => exact setCurrent_current _ _ _ _
    | some operation => exact setCurrent_current _ _ _ _
  · exact setCurrent_current _ _ _ _

end Server

/-- The first request for a device. -/
lemma currentOk_first {p : C.Port} {d : C.Dev} {r : BlockRequest} (hkind : r.requestKind ∈ Server.rwdKinds)
    (h : C.sectorSize p d ≠ 0 → C.InRange p d r.requestKind r.deviceOffset r.bufferOffset r.requestLength) :
    CurrentOk p d (Server.addRequest nullCurrent r) := by
  have hadd : Server.addRequest nullCurrent r =
      ⟨r.requestKind, r.deviceId, r.deviceOffset, r.bufferOffset, r.requestLength, [r.requestTag]⟩ := by
    simp [Server.addRequest, nullCurrent]
  rw [hadd]
  exact ⟨fun hnil => absurd hnil (by simp), fun _ => hkind, fun _ => h⟩

lemma rwd_ne_none {kind : RequestKind} (h : kind ∈ Server.rwdKinds) : kind ≠ RequestKind.none := by
  rintro rfl
  exact absurd h (by decide)

/-- A request that continues the current one. -/
lemma CurrentOk.add {p : C.Port} {d : C.Dev} {cur : CurrentRequest} {r : BlockRequest} (hcur : CurrentOk p d cur)
    (htags : cur.tags ≠ []) (hcont : Server.Contiguous cur r)
    (h : C.sectorSize p d ≠ 0 → C.InRange p d r.requestKind r.deviceOffset r.bufferOffset r.requestLength ∧
      cur.deviceOffset.toNat + cur.requestLength.toNat < 2 ^ 64) :
    CurrentOk p d (Server.addRequest cur r) := by
  obtain ⟨hkind, hbuf, hdev, -, -⟩ := hcont
  have hadd : Server.addRequest cur r =
      { cur with requestLength := cur.requestLength + r.requestLength, tags := cur.tags ++ [r.requestTag] } := by
    unfold Server.addRequest
    rw [if_neg (rwd_ne_none (hcur.kind htags))]
  rw [hadd]
  refine ⟨fun hnil => absurd hnil (by simp), fun _ => hcur.kind htags, fun _ hsize => ?_⟩
  obtain ⟨⟨hsectors, hbuffer⟩, hwrap⟩ := h hsize
  obtain ⟨-, hold⟩ := hcur.range htags hsize
  have hsum : (cur.requestLength + r.requestLength).toNat ≤ cur.requestLength.toNat + r.requestLength.toNat := by
    rw [BitVec.toNat_add]
    exact Nat.mod_le _ _
  refine ⟨?_, fun hk => ?_⟩
  · rw [hdev, BitVec.toNat_add, Nat.mod_eq_of_lt hwrap] at hsectors
    have hpos : 0 < (C.sectorSize p d).toNat :=
      Nat.pos_of_ne_zero (fun h0 => hsize (BitVec.eq_of_toNat_eq h0))
    have hdiv : (cur.requestLength + r.requestLength).toNat / (C.sectorSize p d).toNat ≤
        cur.requestLength.toNat + r.requestLength.toNat / (C.sectorSize p d).toNat := by
      calc (cur.requestLength + r.requestLength).toNat / (C.sectorSize p d).toNat
          ≤ (r.requestLength.toNat + cur.requestLength.toNat * (C.sectorSize p d).toNat) /
              (C.sectorSize p d).toNat := by
            refine Nat.div_le_div_right (hsum.trans ?_)
            have := Nat.le_mul_of_pos_right cur.requestLength.toNat hpos
            omega
        _ = cur.requestLength.toNat + r.requestLength.toNat / (C.sectorSize p d).toNat := by
            rw [Nat.add_mul_div_right _ _ hpos, Nat.add_comm]
    show cur.deviceOffset.toNat + (cur.requestLength + r.requestLength).toNat / _ ≤ _
    omega
  · have hb := hold hk
    have hb' := hbuffer (hkind ▸ hk)
    have := C.shmElementSize.isLt
    rw [hbuf, BitVec.toNat_add, Nat.mod_eq_of_lt (by omega)] at hb'
    show cur.bufferOffset.toNat + (cur.requestLength + r.requestLength).toNat ≤ _
    omega

namespace Server

variable {s : C.Server} {p : C.Port} {d : C.Dev} {hw : C.Hardware} {r : BlockRequest}

lemma Ok.processRWDRequest (h : s.Ok) (hkind : r.requestKind ∈ rwdKinds) (hr : C.RequestOk s p d r) :
    (s.processRWDRequest hw p d r).Ok := by
  unfold Server.processRWDRequest
  by_cases hvalid : (C.devs p d).isValid
  · rw [if_neg (not_not.mpr hvalid)]
    have hrange := hr hkind hvalid
    by_cases htags : (s.current p d).tags = []
    · simp only [htags, ne_eq, not_true_eq_false, false_and, if_false]
      rw [(h.current p d).null htags]
      exact h.setCurrent (currentOk_first hkind (fun hsize => (hrange hsize).1))
    · by_cases hcont : Contiguous (s.current p d) r
      · simp only [hcont, not_true_eq_false, and_false, if_false]
        exact h.setCurrent ((h.current p d).add htags hcont
          (fun hsize => ⟨(hrange hsize).1, (hrange hsize).2 htags hcont⟩))
      · simp only [htags, hcont, ne_eq, not_false_eq_true, and_self, if_true]
        rw [finishCurrentRequest_current]
        exact (h.finishCurrentRequest true).setCurrent (currentOk_first hkind (fun hsize => (hrange hsize).1))
  · rw [if_pos hvalid]
    exact h.sendResponse _

lemma Ok.processRequest (h : s.Ok) (hr : ∀ d : C.Dev, d.val = r.deviceId.toNat → C.RequestOk s p d r) :
    (s.processRequest hw p r).Ok := by
  unfold Server.processRequest
  split_ifs with hdev hrwd hsimple
  · exact h.processRWDRequest hrwd (hr _ rfl)
  · exact h.processSimpleRequest
  · exact h
  · exact h.sendResponse _

end Server

lemma Server.Ok.step {s s' : C.Server} {e : C.Event} (h : s.Ok) (he : C.EventOk s e) (hs : C.step s e = some s') :
    s'.Ok := by
  cases e with
  | request p r hw =>
    obtain rfl := Option.some.inj hs
    exact h.processRequest he
  | noData p hw =>
    obtain rfl := Option.some.inj hs
    exact h.finishCurrentRequests true

/-- In every run with requests in range all calls are confined. -/
theorem calls_confined (C : Config) {s : C.Server}
    (h : Lib.Reaches C.step C.EventOk (fun s => s = C.initServer) s) : ∀ c ∈ s.calls, C.Confined c := by
  have hok : s.Ok := by
    refine h.invariant Server.Ok ?_ (fun s e s' hs he hstep => hs.step he hstep)
    rintro s rfl
    exact ⟨fun p d => currentOk_null p d, fun c hc => absurd hc (by simp [initServer])⟩
  exact hok.calls

end Config

lemma noDevices_lt : 0 < 2 ^ 16 := by decide

/-- Two clients with a partition of 2048 sectors each on the same disk. -/
def twoClients : Config where
  ports := 2
  devicesMax := 0
  channels := 2
  shmAddressBase := 0x10000000
  shmElementSize := 0x1000000
  chanIdx p := p
  devs p _ := ⟨0, true, if p = 0 then 2048 else 4096, 2048, by split_ifs <;> decide⟩
  devices _ := ⟨.sata, true, 512, 9, 8192⟩
  devicesMax_lt := noDevices_lt
  shmInRange := by decide

def firstClient : twoClients.Port := (0 : Fin 2)

def secondClient : twoClients.Port := (1 : Fin 2)

def onlyDev : twoClients.Dev := (0 : Fin 1)

/-- Hardware that always succeeds. -/
def goodHardware (C : Config) : C.Hardware := ⟨fun _ => true, fun _ => .ok, fun _ => (.ok, .ok), fun _ => .ok⟩

/-- The server has executed a single request of the first client. -/
def oneRequest (r : BlockRequest) : twoClients.Server :=
  (twoClients.initServer.processRequest (goodHardware _) firstClient r).finishCurrentRequests (goodHardware _)
    firstClient true

lemma oneRequest_reaches {allowed : twoClients.Server → twoClients.Event → Prop} {r : BlockRequest}
    (hr : allowed twoClients.initServer (.request firstClient r (goodHardware _)))
    (hnone : ∀ s, allowed s (.noData firstClient (goodHardware _))) :
    Lib.Reaches twoClients.step allowed (fun s => s = twoClients.initServer) (oneRequest r) :=
  .next (.next (.start rfl) hr rfl) (hnone _) rfl

/-- The first client reads the first sector of its partition and continues with a second request, and between the two
the second client writes the last sector of its own one. -/
def interleavedRequests : List twoClients.Event :=
  [.request firstClient ⟨RequestKind.read, 0, 1, 512, 0, 0⟩ (goodHardware _),
    .request secondClient ⟨RequestKind.write, 0, 7, 512, 2047, 0x800⟩ (goodHardware _),
    .request firstClient ⟨RequestKind.read, 0, 2, 512, 512, 512⟩ (goodHardware _),
    .noData firstClient (goodHardware _), .noData secondClient (goodHardware _)]

/-- The two requests of the first client are combined. -/
theorem calls_confined_last : ∃ s, Lib.run twoClients.step twoClients.initServer interleavedRequests = some s ∧
    s.calls = [⟨firstClient, onlyDev, .rwSectors .read 2048 2 0x10000000⟩,
      ⟨secondClient, onlyDev, .rwSectors .write 6143 1 0x11000800⟩] ∧ ∀ c ∈ s.calls, twoClients.Confined c := by
  have hreach : ∀ s, Lib.run twoClients.step twoClients.initServer interleavedRequests = some s →
      Lib.Reaches twoClients.step twoClients.EventOk (fun s => s = twoClients.initServer) s :=
    fun s hrun => Lib.Reaches.run (.start rfl) (by decide) hrun
  exact ⟨_, rfl, by decide, twoClients.calls_confined (hreach _ rfl)⟩

/-- A client reads the first sector of the other one into the buffer of the other one. -/
theorem calls_not_confined : ∃ s, Lib.Reaches twoClients.step (fun _ _ => True) (fun s => s = twoClients.initServer) s ∧
    ∃ start count address, (⟨firstClient, onlyDev, .rwSectors .read start count address⟩ : twoClients.Call) ∈ s.calls ∧
      ¬ twoClients.InPartition firstClient onlyDev start count ∧
      ¬ twoClients.InBuffer firstClient onlyDev count address := by
  refine ⟨oneRequest ⟨RequestKind.read, 0, 1, 512, 2048, 0x1000000⟩, oneRequest_reaches trivial (fun _ => trivial),
    4096, 1, 0x11000000, by decide, ?_, ?_⟩
  · unfold Config.InPartition
    decide
  · unfold Config.InBuffer
    decide

end Muen.Components.Ahci
