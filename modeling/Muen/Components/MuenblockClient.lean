import Muen.Components.Ahci.Server

/-!
# Muenblock client

`RW` of the native block client, connected to the AHCI server by the channels of a port. The steps of the client
and the reads of the server are interleaved in any way, and the server serves its other ports in between.
-/

namespace Muen.Components.MuenblockClient

open Muenblock Ahci

/-- The parameters of `RW`, with the port of the client and `Devices_Cnt`. -/
structure RWCall (C : Config) where
  port : C.Port
  devicesCnt : ℕ
  deviceId : C.Dev
  requestKind : RequestKind
  startSector : Unsigned64
  bufferOffset : Unsigned64
  sectorCnt : Unsigned64

/-- The places of the client in `RW`, with the variables that are in use. -/
inductive Phase
  | sending (cnt offset : Unsigned64) (requestsCnt : Unsigned32)
  | receiving (requestsCnt : Unsigned32)
  | returned (result : Unsigned64)
  deriving DecidableEq

/-- The client, the server and the channels between them: the requests that were not read yet, and the number
of responses that were. -/
structure Link (C : Config) where
  server : C.Server
  requests : List BlockRequest
  responsesRead : ℕ
  phase : Phase

variable {C : Config}

namespace RWCall

/-- `Device_Info (Device_Id)`, as the server has answered it. -/
def sectorSize (x : RWCall C) : Unsigned64 := (C.sectorSize x.port x.deviceId).setWidth 64

def maxSectors (x : RWCall C) : Unsigned64 := (getMaxSectorCount (C.device x.port x.deviceId)).setWidth 64

/-- The next request. -/
def request (x : RWCall C) (now offset : Unsigned64) (requestsCnt : Unsigned32) : BlockRequest :=
  ⟨x.requestKind, BitVec.ofNat 16 x.deviceId.val, 0x1000 + requestsCnt, now * x.sectorSize, x.startSector + offset,
    x.bufferOffset + offset⟩

/-- The start of `RW`. -/
def start (x : RWCall C) (server : C.Server) : Link C :=
  ⟨server, [], (server.responses (C.chanIdx x.port)).length,
    if x.deviceId.val < x.devicesCnt then .sending x.sectorCnt 0 0 else .returned 0⟩

/-- A step of `RW`; `error` is the outcome of `Receive`. -/
def clientStep (x : RWCall C) (error : Bool) (s : Link C) : Link C :=
  match s.phase with
  | .sending cnt offset requestsCnt =>
    if cnt = 0 then { s with phase := .receiving requestsCnt }
    else
      let now := if cnt > x.maxSectors then x.maxSectors else cnt
      { s with
        requests := s.requests ++ [x.request now offset requestsCnt]
        phase := .sending (cnt - now) (offset + now * x.sectorSize) (requestsCnt + 1) }
  | .receiving requestsCnt =>
    if requestsCnt = 0 then { s with phase := .returned x.sectorCnt }
    else if error then { s with phase := .returned 0 }
    else match (s.server.responses (C.chanIdx x.port))[s.responsesRead]? with
      | none => s
      | some response =>
        { s with
          responsesRead := s.responsesRead + 1
          phase := if response.statusCode ≠ 0 then .returned 0 else .receiving (requestsCnt - 1) }
  | .returned _ => s

/-- `Process_Port` reads the channel of the client. -/
def pollStep (x : RWCall C) (hw : C.Hardware) (s : Link C) : Link C :=
  match s.requests with
  | [] => { s with server := s.server.finishCurrentRequests hw x.port true }
  | r :: rest => { s with server := s.server.processRequest hw x.port r, requests := rest }

end RWCall

/-- A step of the client, a read of its channel by the server, or what the server does for another port. -/
inductive Event (C : Config)
  | client (error : Bool)
  | poll (hw : C.Hardware)
  | other (e : C.Event)

namespace RWCall

def step (x : RWCall C) (s : Link C) : Event C → Option (Link C)
  | .client error => some (x.clientStep error s)
  | .poll hw => some (x.pollStep hw s)
  | .other e => (C.step s.server e).map (fun server => { s with server := server })

/-- Other ports have another channel. -/
def Allowed (x : RWCall C) (_ : Link C) : Event C → Prop
  | .other e => C.chanIdx e.port ≠ C.chanIdx x.port
  | _ => True

end RWCall

/-- The command for a call of `RW_Sectors`. -/
def command (c : C.Call) : Option Command :=
  match c.operation with
  | .rwSectors rw start count address => rwSectors (C.device c.port c.dev) rw start count address
  | _ => none

/-- The calls transfer the byte of a sector of a disk from or to an address. -/
def Moved (calls : List C.Call) (rw : RW) (disk : Fin 32) (sector byte : ℕ) (address : Unsigned64) : Prop :=
  ∃ c ∈ calls, ∃ cmd, command c = some cmd ∧ cmd.rw = rw ∧ (C.devs c.port c.dev).ahciPort = disk ∧
    cmd.Moves (C.sectorSize c.port c.dev).toNat sector byte address

/-- The calls for a port. -/
def portCalls (p : C.Port) (s : C.Server) : List C.Call := s.calls.filter (fun c => c.port = p)

/-- The calls transfer exactly the sectors of the partition that were asked for, each from or to its place in
the buffer. -/
def Transferred (x : RWCall C) (calls : List C.Call) : Prop :=
  ∀ rw disk sector byte address, Moved calls rw disk sector byte address ↔
    rw = (if x.requestKind = RequestKind.read then .read else .write) ∧
    disk = (C.devs x.port x.deviceId).ahciPort ∧
    ∃ i < x.sectorCnt.toNat, ∃ j < (C.sectorSize x.port x.deviceId).toNat,
      sector = (C.devs x.port x.deviceId).sectorOffset.toNat + x.startSector.toNat + i ∧ byte = j ∧
      address = C.getShmBufferBase (C.chanIdx x.port) + x.bufferOffset +
        BitVec.ofNat 64 (i * (C.sectorSize x.port x.deviceId).toNat + j)

/-- What the callers of `Read` and `Write` ensure. -/
structure RWCall.Valid (x : RWCall C) : Prop where
  kind : x.requestKind = RequestKind.read ∨ x.requestKind = RequestKind.write
  sectorSize : (C.sectorSize x.port x.deviceId).toNat = 2 ^ (C.device x.port x.deviceId).sectorSizeShift
  sectors : x.startSector.toNat + x.sectorCnt.toNat ≤ (C.devs x.port x.deviceId).sectorCount.toNat
  buffer : x.bufferOffset.toNat + x.sectorCnt.toNat * (C.sectorSize x.port x.deviceId).toNat ≤ C.shmElementSize.toNat

/-- A transfer that is done with a single command. -/
structure RWCall.Single (x : RWCall C) : Prop where
  maxSectors : x.sectorCnt.toNat ≤ (getMaxSectorCount (C.device x.port x.deviceId)).toNat
  table : x.sectorCnt.toNat * (C.sectorSize x.port x.deviceId).toNat ≤ 0x2000000
  even : (C.getShmBufferBase (C.chanIdx x.port) + x.bufferOffset).toNat % 2 = 0

/-! ### Other ports -/

/-- Nothing has changed for a port. -/
structure Same (p : C.Port) (s s' : C.Server) : Prop where
  current : s'.current p = s.current p
  responses : s'.responses (C.chanIdx p) = s.responses (C.chanIdx p)
  calls : portCalls p s' = portCalls p s

namespace Same

variable {p q : C.Port} {s s' s'' : C.Server} {hw : C.Hardware} {d : C.Dev} {r : BlockRequest}

lemma refl (p : C.Port) (s : C.Server) : Same p s s := ⟨rfl, rfl, rfl⟩

lemma trans (h : Same p s s') (h' : Same p s' s'') : Same p s s'' :=
  ⟨h'.current.trans h.current, h'.responses.trans h.responses, h'.calls.trans h.calls⟩

lemma setCurrent (s : C.Server) (hq : C.chanIdx q ≠ C.chanIdx p) (cur : CurrentRequest) :
    Same p s (s.setCurrent q d cur) := by
  have hne : p ≠ q := fun heq => hq (by rw [heq])
  exact ⟨Function.update_of_ne hne _ _, rfl, rfl⟩

lemma sendResponse (s : C.Server) (hq : C.chanIdx q ≠ C.chanIdx p) (b : BlockResponse) :
    Same p s (s.sendResponse q b) :=
  ⟨rfl, Function.update_of_ne hq.symm _ _, rfl⟩

lemma sendResponses (s : C.Server) (hq : C.chanIdx q ≠ C.chanIdx p) (cur : CurrentRequest) (ret : Status) :
    Same p s (s.sendResponses q cur ret) := by
  unfold Config.Server.sendResponses
  induction cur.tags generalizing s with
  | nil => exact refl p s
  | cons tag tags ih => exact (sendResponse s hq _).trans (ih _)

lemma call (s : C.Server) (hq : C.chanIdx q ≠ C.chanIdx p) (operation : Operation) :
    Same p s (s.call ⟨q, d, operation⟩) := by
  have hne : q ≠ p := fun heq => hq (by rw [heq])
  refine ⟨rfl, rfl, ?_⟩
  unfold portCalls Config.Server.call
  rw [List.filter_append]
  simp [hne]

lemma answer (s : C.Server) (hq : C.chanIdx q ≠ C.chanIdx p) (sendResp : Bool) (ret : Status) :
    Same p s (s.answer q d sendResp ret) := by
  unfold Config.Server.answer
  cases sendResp with
  | false => exact setCurrent s hq _
  | true => exact (sendResponses s hq _ ret).trans (setCurrent _ hq _)

lemma finishCurrentRequest (s : C.Server) (hq : C.chanIdx q ≠ C.chanIdx p) (sendResp : Bool) :
    Same p s (s.finishCurrentRequest hw q d sendResp) := by
  unfold Config.Server.finishCurrentRequest
  simp only
  split_ifs
  · exact setCurrent s hq _
  · cases Config.Server.currentOperation q d (s.current q d) with
    | none => exact setCurrent s hq _
    | some operation => exact (call s hq operation).trans (answer _ hq _ _)
  · exact answer s hq _ _

lemma finishCurrentRequests (s : C.Server) (hq : C.chanIdx q ≠ C.chanIdx p) (sendResp : Bool) :
    Same p s (s.finishCurrentRequests hw q sendResp) := by
  unfold Config.Server.finishCurrentRequests
  induction List.finRange (C.devicesMax + 1) generalizing s with
  | nil => exact refl p s
  | cons d ds ih =>
    rw [List.foldl_cons]
    split_ifs
    · exact (finishCurrentRequest s hq sendResp).trans (ih _)
    · exact ih _

lemma processSimpleRequest (s : C.Server) (hq : C.chanIdx q ≠ C.chanIdx p) :
    Same p s (s.processSimpleRequest hw q d r) := by
  have hsmart : ∀ address, Same p s (s.call ⟨q, d, .getSmart address⟩) := fun address => call s hq _
  have hfinish : ∀ sendResp, Same p s (s.finishCurrentRequests hw q sendResp) :=
    fun sendResp => finishCurrentRequests s hq sendResp
  unfold Config.Server.processSimpleRequest
  simp only
  split_ifs
  · exact sendResponse s hq _
  · exact sendResponse s hq _
  · exact sendResponse s hq _
  · exact sendResponse s hq _
  · exact (hfinish false).trans (sendResponse _ hq _)
  · exact (hsmart _).trans (sendResponse _ hq _)
  · exact (hsmart _).trans (sendResponse _ hq _)
  · exact (hfinish true).trans ((call _ hq .sync).trans (sendResponse _ hq _))
  · exact (hfinish true).trans ((call _ hq .sync).trans (sendResponse _ hq _))
  · exact sendResponse s hq _

lemma processRWDRequest (s : C.Server) (hq : C.chanIdx q ≠ C.chanIdx p) :
    Same p s (s.processRWDRequest hw q d r) := by
  unfold Config.Server.processRWDRequest
  simp only
  split_ifs
  · exact (finishCurrentRequest s hq true).trans (setCurrent _ hq _)
  · exact setCurrent s hq _
  · exact sendResponse s hq _

/-- The server does something for another port. -/
lemma step {e : C.Event} (he : C.chanIdx e.port ≠ C.chanIdx p) (hs : C.step s e = some s') : Same p s s' := by
  cases e with
  | request q r hw =>
    obtain rfl := Option.some.inj hs
    unfold Config.Server.processRequest
    split_ifs
    · exact processRWDRequest s he
    · exact processSimpleRequest s he
    · exact refl p s
    · exact sendResponse s he _
  | noData q hw =>
    obtain rfl := Option.some.inj hs
    exact finishCurrentRequests s he true

end Same

/-! ### The port of the client -/

section Port

variable {p : C.Port} {d : C.Dev} {s : C.Server} {hw : C.Hardware}

lemma setCurrent_self (h : s.current p d = nullCurrent) : s.setCurrent p d nullCurrent = s := by
  unfold Config.Server.setCurrent
  rw [← h, Function.update_eq_self, Function.update_eq_self]

lemma setCurrent_other {d' : C.Dev} (hne : d' ≠ d) (s : C.Server) (cur : CurrentRequest) :
    (s.setCurrent p d cur).current p d' = s.current p d' := by
  simp [Config.Server.setCurrent, hne]

lemma sendResponses_current (s : C.Server) (cur : CurrentRequest) (ret : Status) :
    (s.sendResponses p cur ret).current = s.current ∧ (s.sendResponses p cur ret).calls = s.calls := by
  unfold Config.Server.sendResponses
  induction cur.tags generalizing s with
  | nil => exact ⟨rfl, rfl⟩
  | cons tag tags ih => exact ih (s.sendResponse p _)

lemma finish_null (h : s.current p d = nullCurrent) (sendResp : Bool) :
    s.finishCurrentRequest hw p d sendResp = s := by
  unfold Config.Server.finishCurrentRequest
  simp only [h]
  rw [if_pos (.inl rfl)]
  exact setCurrent_self h

lemma answer_other {d' : C.Dev} (hne : d' ≠ d) (s : C.Server) (sendResp : Bool) (ret : Status) :
    (s.answer p d sendResp ret).current p d' = s.current p d' := by
  unfold Config.Server.answer
  rw [setCurrent_other hne]
  cases sendResp with
  | false => rfl
  | true => exact congrFun (congrFun (sendResponses_current s _ ret).1 p) d'

lemma finish_other {d' : C.Dev} (hne : d' ≠ d) (s : C.Server) (sendResp : Bool) :
    (s.finishCurrentRequest hw p d sendResp).current p d' = s.current p d' := by
  unfold Config.Server.finishCurrentRequest
  simp only
  split_ifs
  · exact setCurrent_other hne _ _
  · cases Config.Server.currentOperation p d (s.current p d) with
    | none => exact setCurrent_other hne _ _
    | some operation => exact answer_other hne _ _ _
  · exact answer_other hne _ _ _

/-- The loop over the devices of a port of which only one is in use. -/
lemma finish_all (h : ∀ d' ≠ d, s.current p d' = nullCurrent) (sendResp : Bool) :
    s.finishCurrentRequests hw p sendResp =
      if (C.devs p d).isValid then s.finishCurrentRequest hw p d sendResp else s := by
  have hlist : ∀ (l : List C.Dev) (s : C.Server), (∀ d' ≠ d, s.current p d' = nullCurrent) →
      l.foldl (fun s d => if (C.devs p d).isValid then s.finishCurrentRequest hw p d sendResp else s) s =
        if d ∈ l ∧ (C.devs p d).isValid then s.finishCurrentRequest hw p d sendResp else s := by
    intro l
    induction l with
    | nil => intro s _; simp
    | cons e l ih =>
      intro s hs
      rw [List.foldl_cons]
      by_cases he : e = d
      · subst he
        by_cases hvalid : (C.devs p e).isValid
        · have hnull := Config.Server.finishCurrentRequest_current s hw p e sendResp
          rw [if_pos hvalid, ih _ (fun d' hd' => (finish_other hd' s sendResp).trans (hs d' hd')),
            finish_null hnull, ite_self, if_pos ⟨List.mem_cons_self, hvalid⟩]
        · rw [if_neg hvalid, ih s hs, if_neg (fun hh => hvalid hh.2), if_neg (fun hh => hvalid hh.2)]
      · have hskip : (if (C.devs p e).isValid then s.finishCurrentRequest hw p e sendResp else s) = s := by
          rw [finish_null (hs e he), ite_self]
        rw [hskip, ih s hs]
        refine if_congr ?_ rfl rfl
        simp [Ne.symm he]
  unfold Config.Server.finishCurrentRequests
  rw [hlist _ s h]
  refine if_congr ?_ rfl rfl
  simp

/-- The answer to a current request with a single tag. -/
lemma answer_single (s : C.Server) {tag : Unsigned32} (htags : (s.current p d).tags = [tag]) (ret : Status) :
    (s.answer p d true ret).responses (C.chanIdx p) = s.responses (C.chanIdx p) ++
      [⟨(s.current p d).requestKind, (s.current p d).deviceId, tag, ret.toUnsigned64⟩] ∧
    (s.answer p d true ret).calls = s.calls := by
  unfold Config.Server.answer Config.Server.sendResponses
  rw [htags]
  simp [Config.Server.setCurrent, Config.Server.sendResponse]

/-- `Finish_Current_Request` for a single request. -/
lemma finish_single (hw : C.Hardware) {tag : Unsigned32} {operation : Operation} (htags : (s.current p d).tags = [tag])
    (hsize : C.sectorSize p d ≠ 0)
    (hop : Config.Server.currentOperation p d (s.current p d) = some operation) :
    ∃ (ret : Status) (calls : List C.Call), (s.finishCurrentRequest hw p d true).responses (C.chanIdx p) = s.responses (C.chanIdx p) ++
        [⟨(s.current p d).requestKind, (s.current p d).deviceId, tag, ret.toUnsigned64⟩] ∧
      portCalls p (s.finishCurrentRequest hw p d true) = portCalls p s ++ calls ∧
      (ret = .ok → calls = [⟨p, d, operation⟩] ∧ C.status hw ⟨p, d, operation⟩ = .ok) := by
  unfold Config.Server.finishCurrentRequest
  simp only [htags, hsize, hop, List.cons_ne_nil, or_self, if_false]
  split_ifs
  · obtain ⟨hresp, hcalls⟩ := answer_single (p := p) (d := d) (s.call ⟨p, d, operation⟩) htags
      (C.status hw ⟨p, d, operation⟩)
    refine ⟨_, [⟨p, d, operation⟩], hresp, ?_, fun hret => ⟨rfl, hret⟩⟩
    unfold portCalls
    rw [hcalls]
    simp [Config.Server.call]
  · obtain ⟨hresp, hcalls⟩ := answer_single (p := p) (d := d) s htags .eio
    refine ⟨_, [], hresp, ?_, fun hret => absurd hret (by decide)⟩
    unfold portCalls
    rw [hcalls, List.append_nil]

end Port

/-! ### A single request -/

namespace RWCall

variable {x : RWCall C}

/-- The only request of a transfer. -/
def onlyRequest (x : RWCall C) : BlockRequest := x.request x.sectorCnt 0 0

lemma sectorSize_toNat (x : RWCall C) : x.sectorSize.toNat = (C.sectorSize x.port x.deviceId).toNat :=
  setWidth_toNat _

lemma Valid.sectorSize_pos (h : x.Valid) : 0 < (C.sectorSize x.port x.deviceId).toNat := by
  rw [h.sectorSize]
  exact Nat.two_pow_pos _

/-- The current request of the server is the only one. -/
lemma addRequest_onlyRequest (x : RWCall C) : Config.Server.addRequest nullCurrent x.onlyRequest =
    ⟨x.requestKind, BitVec.ofNat 16 x.deviceId.val, x.startSector, x.bufferOffset, x.sectorCnt * x.sectorSize,
      [0x1000]⟩ := by
  simp [Config.Server.addRequest, nullCurrent, onlyRequest, request]

lemma Valid.length_toNat (h : x.Valid) :
    (x.sectorCnt * x.sectorSize).toNat = x.sectorCnt.toNat * (C.sectorSize x.port x.deviceId).toNat := by
  have hbuffer := h.buffer
  have := C.shmElementSize.isLt
  rw [BitVec.toNat_mul, sectorSize_toNat]
  exact Nat.mod_eq_of_lt (by omega)

lemma Single.sectorCnt_lt (h : x.Single) : x.sectorCnt.toNat < 2 ^ 32 := by
  have := (getMaxSectorCount (C.device x.port x.deviceId)).isLt
  have := h.maxSectors
  omega

/-- The operation that the server makes of the request. -/
def onlyOperation (x : RWCall C) : Operation :=
  .rwSectors (if x.requestKind = RequestKind.read then .read else .write)
    (x.startSector + (C.devs x.port x.deviceId).sectorOffset) (BitVec.ofNat 32 x.sectorCnt.toNat)
    (x.bufferOffset + C.getShmBufferBase (C.chanIdx x.port))

lemma Valid.currentOperation (h : x.Valid) : Config.Server.currentOperation x.port x.deviceId
    (Config.Server.addRequest nullCurrent x.onlyRequest) = some x.onlyOperation := by
  have hcount : ((x.sectorCnt * x.sectorSize) / (C.sectorSize x.port x.deviceId).setWidth 64).setWidth 32 =
      BitVec.ofNat 32 x.sectorCnt.toNat := by
    apply BitVec.eq_of_toNat_eq
    rw [BitVec.toNat_setWidth, BitVec.toNat_udiv, h.length_toNat, setWidth_toNat,
      Nat.mul_div_cancel _ h.sectorSize_pos, BitVec.toNat_ofNat]
  rw [addRequest_onlyRequest]
  unfold Config.Server.currentOperation onlyOperation
  simp only [hcount]
  rcases h.kind with hkind | hkind
  · simp [hkind]
  · have hne : RequestKind.write ≠ RequestKind.read := by decide
    simp [hkind, hne]

/-- When the operation succeeds the transfer is as it was asked for. -/
lemma Valid.transferred (h : x.Valid) (hx : x.Single) (hpos : x.sectorCnt ≠ 0) {hw : C.Hardware}
    (hok : C.status hw ⟨x.port, x.deviceId, x.onlyOperation⟩ = .ok) :
    Transferred x [⟨x.port, x.deviceId, x.onlyOperation⟩] := by
  have hstart : (x.startSector + (C.devs x.port x.deviceId).sectorOffset).toNat =
      (C.devs x.port x.deviceId).sectorOffset.toNat + x.startSector.toNat := by
    have := (C.devs x.port x.deviceId).inRange
    have := h.sectors
    rw [BitVec.toNat_add, Nat.add_comm]
    exact Nat.mod_eq_of_lt (by omega)
  have hcount : (BitVec.ofNat 32 x.sectorCnt.toNat).toNat = x.sectorCnt.toNat := by
    rw [BitVec.toNat_ofNat]
    exact Nat.mod_eq_of_lt hx.sectorCnt_lt
  have haddress : x.bufferOffset + C.getShmBufferBase (C.chanIdx x.port) =
      C.getShmBufferBase (C.chanIdx x.port) + x.bufferOffset := BitVec.add_comm _ _
  have hcntpos : 0 < x.sectorCnt.toNat := Nat.pos_of_ne_zero (fun h0 => hpos (BitVec.eq_of_toNat_eq h0))
  obtain ⟨cmd, hcmd⟩ : ∃ cmd, command (⟨x.port, x.deviceId, x.onlyOperation⟩ : C.Call) = some cmd := by
    cases hc : command (⟨x.port, x.deviceId, x.onlyOperation⟩ : C.Call) with
    | some cmd => exact ⟨cmd, rfl⟩
    | none =>
      have hstatus : C.status hw ⟨x.port, x.deviceId, x.onlyOperation⟩ = .enotsup := by
        change C.rwStatus hw _ (command (⟨x.port, x.deviceId, x.onlyOperation⟩ : C.Call)) = _
        rw [hc]
        rfl
      rw [hstatus] at hok
      exact absurd hok (by decide)
  obtain ⟨hrw, hmoves⟩ := rwSectors_moves hcmd h.sectorSize (by rw [hcount]; exact hcntpos)
    (by rw [hcount]; exact hx.table) (by rw [haddress]; exact hx.even)
  intro rw disk sector byte address
  unfold Moved
  simp only [List.mem_singleton, exists_eq_left, hcmd, Option.some.injEq, exists_eq_left']
  rw [hrw]
  have hsize : (C.device x.port x.deviceId).sectorSize = C.sectorSize x.port x.deviceId := rfl
  rw [hsize, hcount, hstart, haddress] at hmoves
  rw [hmoves, eq_comm, eq_comm (a := disk)]

/-- What the server has done for the client since the call: its current request, its responses and its calls. -/
structure View (x : RWCall C) (s₀ s : C.Server) (cur : CurrentRequest) (responses : List BlockResponse)
    (calls : List C.Call) : Prop where
  others : ∀ d ≠ x.deviceId, s.current x.port d = nullCurrent
  current : s.current x.port x.deviceId = cur
  responses : s.responses (C.chanIdx x.port) = s₀.responses (C.chanIdx x.port) ++ responses
  calls : portCalls x.port s = portCalls x.port s₀ ++ calls

/-- The client has sent its request and waits for the response. -/
def Waiting (x : RWCall C) (phase : Phase) : Prop :=
  phase = .sending 0 (0 + x.sectorCnt * x.sectorSize) 1 ∨ phase = .receiving 1

/-- The stages of a transfer with a single request. -/
inductive Stage (x : RWCall C) (s₀ : C.Server) (s : Link C) : Prop
  | sending (v : View x s₀ s.server nullCurrent [] []) (requests : s.requests = [])
      (phase : s.phase = .sending x.sectorCnt 0 0)
      (read : s.responsesRead = (s₀.responses (C.chanIdx x.port)).length)
  | queued (v : View x s₀ s.server nullCurrent [] []) (requests : s.requests = [x.onlyRequest])
      (phase : x.Waiting s.phase) (read : s.responsesRead = (s₀.responses (C.chanIdx x.port)).length)
  | current (v : View x s₀ s.server (Config.Server.addRequest nullCurrent x.onlyRequest) [] [])
      (valid : (C.devs x.port x.deviceId).isValid) (requests : s.requests = []) (phase : x.Waiting s.phase)
      (read : s.responsesRead = (s₀.responses (C.chanIdx x.port)).length)
  | answered (b : BlockResponse) (calls : List C.Call) (v : View x s₀ s.server nullCurrent [b] calls)
      (status : b.statusCode = 0 → Transferred x calls) (requests : s.requests = []) (phase : x.Waiting s.phase)
      (read : s.responsesRead = (s₀.responses (C.chanIdx x.port)).length)
  | received (responses : List BlockResponse) (calls : List C.Call) (v : View x s₀ s.server nullCurrent responses calls)
      (transferred : Transferred x calls) (requests : s.requests = [])
      (phase : s.phase = .receiving 0 ∨ s.phase = .returned x.sectorCnt)
  | failed (phase : s.phase = .returned 0)

section Stages

variable {s₀ : C.Server} {s : Link C} {cur : CurrentRequest} {responses : List BlockResponse} {calls : List C.Call}

lemma View.same {t t' : C.Server} (v : View x s₀ t cur responses calls) (h : Same x.port t t') :
    View x s₀ t' cur responses calls := by
  refine ⟨fun d hd => ?_, ?_, ?_, ?_⟩
  · rw [h.current]
    exact v.others d hd
  · rw [h.current]
    exact v.current
  · rw [h.responses]
    exact v.responses
  · rw [h.calls]
    exact v.calls

/-- The server has nothing to do for the client. -/
lemma View.finish_idle {t : C.Server} (v : View x s₀ t nullCurrent responses calls) (hw : C.Hardware) :
    t.finishCurrentRequests hw x.port true = t := by
  rw [finish_all v.others, finish_null v.current, ite_self]

/-- The server finishes the request. -/
lemma View.finish {t : C.Server} (v : View x s₀ t (Config.Server.addRequest nullCurrent x.onlyRequest) [] [])
    (h : x.Valid) (hx : x.Single) (hpos : x.sectorCnt ≠ 0) (hvalid : (C.devs x.port x.deviceId).isValid)
    (hw : C.Hardware) :
    ∃ b calls, View x s₀ (t.finishCurrentRequests hw x.port true) nullCurrent [b] calls ∧
      (b.statusCode = 0 → Transferred x calls) := by
  have htags : (t.current x.port x.deviceId).tags = [0x1000] := by
    rw [v.current, addRequest_onlyRequest]
  have hsize : C.sectorSize x.port x.deviceId ≠ 0 := by
    intro h0
    have := h.sectorSize_pos
    rw [h0] at this
    exact absurd this (by decide)
  have hop : Config.Server.currentOperation x.port x.deviceId (t.current x.port x.deviceId) = some x.onlyOperation := by
    rw [v.current]
    exact h.currentOperation
  obtain ⟨ret, calls, hresp, hcalls, hok⟩ := finish_single hw htags hsize hop
  rw [finish_all v.others, if_pos hvalid]
  refine ⟨⟨_, _, _, ret.toUnsigned64⟩, calls, ⟨fun d hd => ?_, ?_, by rw [hresp, v.responses, List.append_nil], ?_⟩,
    fun hstatus => ?_⟩
  · rw [finish_other hd]
    exact v.others d hd
  · exact Config.Server.finishCurrentRequest_current _ _ _ _ _
  · rw [hcalls, v.calls, List.append_nil]
  · cases ret with
    | ok =>
      obtain ⟨rfl, hstat⟩ := hok rfl
      exact h.transferred hx hpos hstat
    | enotsup => exact absurd hstatus (by simp [Status.toUnsigned64])
    | eio => exact absurd hstatus (by simp [Status.toUnsigned64])

/-- The server reads the request. -/
lemma View.process {t : C.Server} (v : View x s₀ t nullCurrent [] []) (h : x.Valid) (hw : C.Hardware) :
    ((C.devs x.port x.deviceId).isValid ∧ View x s₀ (t.processRequest hw x.port x.onlyRequest)
      (Config.Server.addRequest nullCurrent x.onlyRequest) [] []) ∨
    ∃ b : BlockResponse, b.statusCode ≠ 0 ∧
      View x s₀ (t.processRequest hw x.port x.onlyRequest) nullCurrent [b] [] := by
  have hid : x.onlyRequest.deviceId.toNat = x.deviceId.val := by
    have := C.devicesMax_lt
    have := x.deviceId.isLt
    exact Nat.mod_eq_of_lt (by omega)
  have hkind : x.onlyRequest.requestKind ∈ Config.Server.rwdKinds := by
    show x.requestKind ∈ Config.Server.rwdKinds
    rcases h.kind with hkind | hkind
    · rw [hkind]
      decide
    · rw [hkind]
      decide
  have hprocess : t.processRequest hw x.port x.onlyRequest =
      t.processRWDRequest hw x.port x.deviceId x.onlyRequest := by
    have hlt : x.onlyRequest.deviceId.toNat < C.devicesMax + 1 := hid ▸ x.deviceId.isLt
    have hdev : (⟨x.onlyRequest.deviceId.toNat, hlt⟩ : C.Dev) = x.deviceId := Fin.ext hid
    unfold Config.Server.processRequest
    rw [dif_pos hlt]
    simp only [hdev]
    rw [if_pos hkind]
  rw [hprocess]
  unfold Config.Server.processRWDRequest
  have htags : (t.current x.port x.deviceId).tags = [] := by
    rw [v.current]
    rfl
  by_cases hvalid : (C.devs x.port x.deviceId).isValid
  · refine .inl ⟨hvalid, ?_⟩
    rw [if_neg (not_not.mpr hvalid)]
    simp only [htags, ne_eq, not_true_eq_false, false_and, if_false]
    rw [v.current]
    refine ⟨fun d hd => ?_, Config.Server.setCurrent_current _ _ _ _, v.responses, v.calls⟩
    rw [setCurrent_other hd]
    exact v.others d hd
  · refine .inr ⟨⟨x.onlyRequest.requestKind, x.onlyRequest.deviceId, x.onlyRequest.requestTag, 1⟩, by simp, ?_⟩
    rw [if_pos hvalid]
    refine ⟨v.others, v.current, ?_, v.calls⟩
    simp only [Config.Server.sendResponse, Function.update_self]
    rw [v.responses, List.append_nil]

lemma Single.send (hx : x.Single) (hpos : x.sectorCnt ≠ 0) (error : Bool)
    (hphase : s.phase = .sending x.sectorCnt 0 0) :
    x.clientStep error s =
      { s with
        requests := s.requests ++ [x.onlyRequest]
        phase := .sending 0 (0 + x.sectorCnt * x.sectorSize) 1 } := by
  have hnow : ¬ x.sectorCnt > x.maxSectors := by
    rw [gt_iff_lt, BitVec.lt_def, RWCall.maxSectors, setWidth_toNat]
    exact Nat.not_lt.mpr hx.maxSectors
  unfold clientStep
  rw [hphase]
  simp only [hpos, hnow, if_false, BitVec.sub_self]
  rfl

/-- A step of the client while it waits. -/
lemma Waiting.client (h : x.Waiting s.phase) (error : Bool) :
    ((x.clientStep error s).phase = .returned 0) ∨
    (x.Waiting (x.clientStep error s).phase ∧ (x.clientStep error s).server = s.server ∧
      (x.clientStep error s).requests = s.requests ∧ (x.clientStep error s).responsesRead = s.responsesRead) ∨
    ∃ b, (s.server.responses (C.chanIdx x.port))[s.responsesRead]? = some b ∧ b.statusCode = 0 ∧
      (x.clientStep error s).phase = .receiving 0 ∧ (x.clientStep error s).server = s.server ∧
      (x.clientStep error s).requests = s.requests := by
  unfold clientStep
  rcases h with hphase | hphase
  · rw [hphase]
    exact .inr (.inl ⟨.inr rfl, rfl, rfl, rfl⟩)
  · have hone : (1 : Unsigned32) ≠ 0 := by decide
    simp only [hphase, hone, if_false]
    cases error with
    | true => exact .inl rfl
    | false =>
      simp only [Bool.false_eq_true, if_false]
      cases hb : (s.server.responses (C.chanIdx x.port))[s.responsesRead]? with
      | none => exact .inr (.inl ⟨.inr hphase, rfl, rfl, rfl⟩)
      | some b =>
        by_cases hstatus : b.statusCode = 0
        · refine .inr (.inr ⟨b, rfl, hstatus, ?_, rfl, rfl⟩)
          simp [hstatus]
        · refine .inl ?_
          simp only [ne_eq, hstatus, not_false_eq_true, if_true]

lemma Stage.client (h : x.Stage s₀ s) (hx : x.Single) (hpos : x.sectorCnt ≠ 0) (error : Bool) :
    x.Stage s₀ (x.clientStep error s) := by
  cases h with
  | sending v requests phase read =>
    rw [hx.send hpos error phase, requests]
    exact .queued v rfl (.inl rfl) read
  | queued v requests phase read =>
    rcases phase.client error with hfail | ⟨hwait, hserver, hreq, hread⟩ | ⟨b, hb, -⟩
    · exact .failed hfail
    · exact .queued (by rwa [hserver]) (hreq.trans requests) hwait (hread.trans read)
    · rw [v.responses, List.append_nil, read, List.getElem?_length] at hb
      exact absurd hb (by simp)
  | current v valid requests phase read =>
    rcases phase.client error with hfail | ⟨hwait, hserver, hreq, hread⟩ | ⟨b, hb, -⟩
    · exact .failed hfail
    · exact .current (by rwa [hserver]) valid (hreq.trans requests) hwait (hread.trans read)
    · rw [v.responses, List.append_nil, read, List.getElem?_length] at hb
      exact absurd hb (by simp)
  | answered b calls v status requests phase read =>
    rcases phase.client error with hfail | ⟨hwait, hserver, hreq, hread⟩ | ⟨b', hb, hstatus, hphase, hserver, hreq⟩
    · exact .failed hfail
    · exact .answered b calls (by rwa [hserver]) status (hreq.trans requests) hwait (hread.trans read)
    · rw [v.responses, read, List.getElem?_concat_length] at hb
      obtain rfl := Option.some.inj hb
      exact .received [b] calls (by rwa [hserver]) (status hstatus) (hreq.trans requests) (.inl hphase)
  | received responses calls v transferred requests phase =>
    unfold clientStep
    rcases phase with hphase | hphase
    · rw [hphase]
      exact .received responses calls v transferred requests (.inr rfl)
    · rw [hphase]
      exact .received responses calls v transferred requests (.inr hphase)
  | failed phase =>
    unfold clientStep
    rw [phase]
    exact .failed phase

lemma Stage.poll (h : x.Stage s₀ s) (hvalid : x.Valid) (hx : x.Single) (hpos : x.sectorCnt ≠ 0) (hw : C.Hardware) :
    x.Stage s₀ (x.pollStep hw s) := by
  unfold pollStep
  cases h with
  | sending v requests phase read =>
    rw [requests]
    exact .sending (by rwa [v.finish_idle hw]) rfl phase read
  | queued v requests phase read =>
    rw [requests]
    rcases v.process hvalid hw with ⟨hdev, v'⟩ | ⟨b, hb, v'⟩
    · exact .current v' hdev rfl phase read
    · exact .answered b [] v' (fun h0 => absurd h0 hb) rfl phase read
  | current v valid requests phase read =>
    obtain ⟨b, calls, v', hb⟩ := v.finish hvalid hx hpos valid hw
    rw [requests]
    exact .answered b calls v' hb rfl phase read
  | answered b calls v status requests phase read =>
    rw [requests]
    exact .answered b calls (by rwa [v.finish_idle hw]) status rfl phase read
  | received responses calls v transferred requests phase =>
    rw [requests]
    exact .received responses calls (by rwa [v.finish_idle hw]) transferred rfl phase
  | failed phase =>
    cases s.requests with
    | nil => exact .failed phase
    | cons r rest => exact .failed phase

lemma Stage.other (h : x.Stage s₀ s) {t : C.Server} (hsame : Same x.port s.server t) :
    x.Stage s₀ { s with server := t } := by
  cases h with
  | sending v requests phase read => exact .sending (v.same hsame) requests phase read
  | queued v requests phase read => exact .queued (v.same hsame) requests phase read
  | current v valid requests phase read => exact .current (v.same hsame) valid requests phase read
  | answered b calls v status requests phase read =>
    exact .answered b calls (v.same hsame) status requests phase read
  | received responses calls v transferred requests phase =>
    exact .received responses calls (v.same hsame) transferred requests phase
  | failed phase => exact .failed phase

/-- A transfer of no sectors. -/
lemma transferred_nil (hzero : x.sectorCnt = 0) : Transferred x [] := by
  intro rw disk sector byte address
  unfold Moved
  simp [hzero]

lemma view_start (hidle : ∀ d, s₀.current x.port d = nullCurrent) : View x s₀ s₀ nullCurrent [] [] :=
  ⟨fun d _ => hidle d, hidle _, (List.append_nil _).symm, (List.append_nil _).symm⟩

lemma Stage.step (h : x.Stage s₀ s) (hvalid : x.Valid) (hx : x.Single) (hpos : x.sectorCnt ≠ 0) {e : Event C}
    {s' : Link C} (he : x.Allowed s e) (hs : x.step s e = some s') : x.Stage s₀ s' := by
  cases e with
  | client error =>
    obtain rfl := Option.some.inj hs
    exact h.client hx hpos error
  | poll hw =>
    obtain rfl := Option.some.inj hs
    exact h.poll hvalid hx hpos hw
  | other e =>
    obtain ⟨t, ht, rfl⟩ := Option.map_eq_some_iff.mp hs
    exact h.other (Same.step he ht)

/-- The client does not send anything when it is asked for no sectors. -/
structure Nothing (x : RWCall C) (s₀ : C.Server) (s : Link C) : Prop where
  view : View x s₀ s.server nullCurrent [] []
  requests : s.requests = []
  phase : s.phase = .sending 0 0 0 ∨ s.phase = .receiving 0 ∨ s.phase = .returned 0

lemma Nothing.step (h : x.Nothing s₀ s) (hzero : x.sectorCnt = 0) {e : Event C} {s' : Link C} (he : x.Allowed s e)
    (hs : x.step s e = some s') : x.Nothing s₀ s' := by
  cases e with
  | client error =>
    obtain rfl := Option.some.inj hs
    unfold clientStep
    rcases h.phase with hphase | hphase | hphase
    · rw [hphase]
      exact ⟨h.view, h.requests, .inr (.inl rfl)⟩
    · rw [hphase]
      exact ⟨h.view, h.requests, .inr (.inr (congrArg _ hzero))⟩
    · rw [hphase]
      exact ⟨h.view, h.requests, .inr (.inr hphase)⟩
  | poll hw =>
    obtain rfl := Option.some.inj hs
    unfold pollStep
    rw [h.requests]
    refine ⟨?_, rfl, h.phase⟩
    rw [h.view.finish_idle hw]
    exact h.view
  | other e =>
    obtain ⟨t, ht, rfl⟩ := Option.map_eq_some_iff.mp hs
    exact ⟨h.view.same (Same.step he ht), h.requests, h.phase⟩

end Stages

/-- A transfer with a single command is done as it was asked for when `RW` returns the number of sectors. -/
theorem transferred_of_returned (x : RWCall C) (hvalid : x.Valid) (hx : x.Single) {s₀ : C.Server}
    (hidle : ∀ d, s₀.current x.port d = nullCurrent) {s : Link C}
    (h : Lib.Reaches x.step x.Allowed (fun s => s = x.start s₀) s) (hret : s.phase = .returned x.sectorCnt) :
    ∃ calls, portCalls x.port s.server = portCalls x.port s₀ ++ calls ∧ Transferred x calls := by
  by_cases hpos : x.sectorCnt = 0
  · have hstage : x.Nothing s₀ s := by
      refine h.invariant (x.Nothing s₀) ?_ (fun s e s' hs he hstep => hs.step hpos he hstep)
      rintro s rfl
      refine ⟨view_start hidle, rfl, ?_⟩
      unfold RWCall.start
      split_ifs
      · exact .inl (by rw [hpos])
      · exact .inr (.inr rfl)
    exact ⟨[], hstage.view.calls, transferred_nil hpos⟩
  · have hstage : x.Stage s₀ s := by
      refine h.invariant (x.Stage s₀) ?_ (fun s e s' hs he hstep => hs.step hvalid hx hpos he hstep)
      rintro s rfl
      by_cases hdev : x.deviceId.val < x.devicesCnt
      · exact .sending (view_start hidle) rfl (if_pos hdev) rfl
      · exact .failed (if_neg hdev)
    cases hstage with
    | sending v requests phase read => exact absurd (phase.symm.trans hret) (by simp)
    | queued v requests phase read =>
      rcases phase with hphase | hphase
      · exact absurd (hphase.symm.trans hret) (by simp)
      · exact absurd (hphase.symm.trans hret) (by simp)
    | current v valid requests phase read =>
      rcases phase with hphase | hphase
      · exact absurd (hphase.symm.trans hret) (by simp)
      · exact absurd (hphase.symm.trans hret) (by simp)
    | answered b calls v status requests phase read =>
      rcases phase with hphase | hphase
      · exact absurd (hphase.symm.trans hret) (by simp)
      · exact absurd (hphase.symm.trans hret) (by simp)
    | received responses calls v transferred requests phase => exact ⟨calls, v.calls, transferred⟩
    | failed phase =>
      have hzero := phase.symm.trans hret
      injection hzero with hzero
      exact absurd hzero.symm hpos

end RWCall

/-- A client with a partition of 2048 sectors of a disk without the 48-bit feature set. -/
def oneClient : Config where
  ports := 1
  devicesMax := 0
  channels := 1
  shmAddressBase := 0x10000000
  shmElementSize := 0x1000000
  chanIdx p := p
  devs _ _ := ⟨0, true, 2048, 2048, by decide⟩
  devices _ := ⟨.sata, false, 512, 9, 262144⟩
  devicesMax_lt := noDevices_lt
  shmInRange := by decide

/-- A call to read from the start of the partition. -/
def readCall (sectorCnt : Unsigned64) : RWCall oneClient where
  port := (0 : Fin 1)
  devicesCnt := 1
  deviceId := (0 : Fin 1)
  requestKind := RequestKind.read
  startSector := 0
  bufferOffset := 0
  sectorCnt := sectorCnt

lemma readCall_valid {sectorCnt : Unsigned64} (h : sectorCnt.toNat ≤ 2048) : (readCall sectorCnt).Valid := by
  refine ⟨.inl rfl, rfl, ?_, ?_⟩
  · show 0 + sectorCnt.toNat ≤ 2048
    omega
  · show 0 + sectorCnt.toNat * 512 ≤ 0x1000000
    omega

instance (x : RWCall oneClient) (s : Link oneClient) (e : Event oneClient) : Decidable (x.Allowed s e) := by
  cases e with
  | other e => exact inferInstanceAs (Decidable (_ ≠ _))
  | client error => exact isTrue trivial
  | poll hw => exact isTrue trivial

/-- The steps up to the response to a single request. -/
def readRun : List (Event oneClient) :=
  [.client false, .client false, .poll (goodHardware _), .poll (goodHardware _), .client false, .client false]

/-- The server answers the first of two requests before the second one is sent. -/
def splitRun : List (Event oneClient) :=
  [.client false, .poll (goodHardware _), .poll (goodHardware _), .client false, .client false, .poll (goodHardware _),
    .poll (goodHardware _), .client false, .client false, .client false]

/-- The state behind a run of the client and the server. -/
def afterRun (x : RWCall oneClient) (events : List (Event oneClient)) : Link oneClient :=
  (Lib.run x.step (x.start oneClient.initServer) events).getD (x.start oneClient.initServer)

lemma afterRun_reaches {x : RWCall oneClient} {events : List (Event oneClient)}
    (hall : Lib.allowedRun x.step x.Allowed (x.start oneClient.initServer) events)
    (hsome : (Lib.run x.step (x.start oneClient.initServer) events).isSome) :
    Lib.Reaches x.step x.Allowed (fun s => s = x.start oneClient.initServer) (afterRun x events) := by
  obtain ⟨s, hs⟩ := Option.isSome_iff_exists.mp hsome
  have hstart : Lib.Reaches x.step x.Allowed (fun s => s = x.start oneClient.initServer)
      (x.start oneClient.initServer) := .start rfl
  unfold afterRun
  rw [hs]
  exact hstart.run hall hs

/-- Eight sectors are read with a single command. -/
theorem transferred_of_returned_eight : (afterRun (readCall 8) readRun).phase = .returned 8 ∧
    ∃ calls, portCalls (readCall 8).port (afterRun (readCall 8) readRun).server =
      portCalls (readCall 8).port oneClient.initServer ++ calls ∧ Transferred (readCall 8) calls := by
  have hret : (afterRun (readCall 8) readRun).phase = .returned 8 := by decide
  refine ⟨hret, (readCall 8).transferred_of_returned (readCall_valid (by decide)) ?_ (fun _ => rfl)
    (afterRun_reaches (by decide) (by decide)) hret⟩
  exact ⟨by decide, by decide, by decide⟩

/-- Of 257 sectors the last one is read from another place, since the offset of the second request is one in
bytes. -/
theorem not_transferred_of_returned : (readCall 257).Valid ∧
    ∃ s, Lib.Reaches (readCall 257).step (readCall 257).Allowed
        (fun s => s = (readCall 257).start oneClient.initServer) s ∧
      s.phase = .returned (readCall 257).sectorCnt ∧
      ¬ ∃ calls, portCalls (readCall 257).port s.server = portCalls (readCall 257).port oneClient.initServer ++ calls ∧
        Transferred (readCall 257) calls := by
  refine ⟨readCall_valid (by decide), afterRun (readCall 257) splitRun,
    afterRun_reaches (by decide) (by decide), by decide, ?_⟩
  rintro ⟨calls, hcalls, htransferred⟩
  let c (start : Unsigned64) (count : Unsigned32) (address : Unsigned64) : oneClient.Call :=
    ⟨(0 : Fin 1), (0 : Fin 1), .rwSectors .read start count address⟩
  have hlist : calls = [c 2048 256 0x10000000, c 133120 1 0x10020000] := by
    have hrun : portCalls (readCall 257).port (afterRun (readCall 257) splitRun).server =
        [c 2048 256 0x10000000, c 133120 1 0x10020000] := by decide
    rw [← hrun, hcalls]
    rfl
  have hmoved := (htransferred .read 0 2304 0 0x10020000).mpr
    ⟨rfl, rfl, 256, by decide, 0, by decide, by decide, rfl, by decide⟩
  obtain ⟨x, hx, cmd, hcmd, -, -, k, hk, hsector, -⟩ := hmoved
  have hsize : (oneClient.sectorSize x.port x.dev).toNat = 512 := rfl
  rw [hsize] at hk hsector
  have hshape : ∀ start count address n, (command (c start count address)).map (fun cmd => (cmd.start, cmd.sectors)) =
      some (start, n) → x = c start count address → cmd.start = start ∧ cmd.sectors = n := by
    rintro start count address n h rfl
    rw [hcmd] at h
    exact Prod.mk.inj (Option.some.inj h)
  rw [hlist] at hx
  rcases List.mem_cons.mp hx with heq | hx
  · obtain ⟨hstart, hsectors⟩ := hshape _ _ _ 256 (by decide) heq
    rw [hstart] at hsector
    rw [hsectors] at hk
    have : (2048 : Unsigned64).toNat = 2048 := rfl
    omega
  · obtain ⟨hstart, -⟩ := hshape _ _ _ 1 (by decide) (List.mem_singleton.mp hx)
    rw [hstart] at hsector
    have : (133120 : Unsigned64).toNat = 133120 := rfl
    omega

end Muen.Components.MuenblockClient
