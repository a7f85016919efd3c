import Muen.Components.Ahci.Server
import Mathlib.Data.List.Perm.Basic

/-!
# Bookkeeping of requests

Which requests of a port the server has answered, and what it did for them. A current request of the server stands for
the requests to read, write or discard that have been combined in it; until it is executed they are not answered.
-/

namespace Muen.Components.Ahci

open Muenblock

namespace Config

variable {C : Config}

/-- The state after an event; `step` gives nothing else. -/
def next (s : C.Server) : C.Event → C.Server
  | .request p r hw => s.processRequest hw p r
  | .noData p hw => s.finishCurrentRequests hw p true

lemma step_eq (s : C.Server) (e : C.Event) : C.step s e = some (next s e) := by
  cases e <;> rfl

/-- How the hardware reacts during the event. -/
def Event.hardware : C.Event → C.Hardware
  | .request _ _ hw => hw
  | .noData _ hw => hw

/-- The request to read, write or discard that comes with an event. -/
def incoming : C.Event → List BlockRequest
  | .request _ r _ => if r.requestKind ∈ Server.rwdKinds then [r] else []
  | .noData _ _ => []

/-- The event is a request to reset a device of the port. -/
def IsReset : C.Event → Prop
  | .request _ r _ => r.requestKind = RequestKind.reset ∧ r.deviceId.toNat < C.devicesMax + 1
  | .noData _ _ => False

instance : DecidablePred (IsReset (C := C)) := fun e => by
  cases e <;> unfold IsReset <;> infer_instance

/-- The responses to requests to read, write or discard that an event adds to the channel of its port. -/
def newResponses (s : C.Server) (e : C.Event) : List BlockResponse :=
  (((next s e).responses (C.chanIdx e.port)).drop (s.responses (C.chanIdx e.port)).length).filter
    (fun b => decide (b.requestKind ∈ Server.rwdKinds))

/-- The calls of device operations that an event makes. -/
def newCalls (s : C.Server) (e : C.Event) : List C.Call := (next s e).calls.drop s.calls.length

/-- A request with the status that it is answered with. -/
structure Answer where
  request : BlockRequest
  status : Unsigned64

def Answer.response (a : Answer) : BlockResponse :=
  ⟨a.request.requestKind, a.request.deviceId, a.request.requestTag, a.status⟩

/-- The address is one of the buffer of the request. -/
def Owns (p : C.Port) (r : BlockRequest) (a : Unsigned64) : Prop :=
  ∃ i < r.requestLength.toNat, a = r.bufferOffset + C.getShmBufferBase (C.chanIdx p) + BitVec.ofNat 64 i

/-- The kind of the requests for a transfer. -/
def kindOf : RW → RequestKind
  | .read => RequestKind.read
  | .write => RequestKind.write

/-- The operation covers all bytes of the request: every byte of it is moved between the sector that its device offset
gives and its place in the buffer, or all its sectors are discarded. -/
def Covers (c : C.Call) (r : BlockRequest) : Prop :=
  match c.operation with
  | .rwSectors rw start count address =>
    r.requestKind = kindOf rw ∧
      ∃ cmd, Ahci.rwSectors (C.device c.port c.dev) rw start count address = some cmd ∧ cmd.rw = rw ∧
        ∀ i < r.requestLength.toNat, cmd.Moves (C.sectorSize c.port c.dev).toNat
          ((r.deviceOffset + (C.devs c.port c.dev).sectorOffset).toNat + i / (C.sectorSize c.port c.dev).toNat)
          (i % (C.sectorSize c.port c.dev).toNat)
          (r.bufferOffset + C.getShmBufferBase (C.chanIdx c.port) + BitVec.ofNat 64 i)
  | .discardSectors start count =>
    r.requestKind = RequestKind.discard ∧ start = r.deviceOffset + (C.devs c.port c.dev).sectorOffset ∧
      r.requestLength.toNat ≤ count.toNat * (C.sectorSize c.port c.dev).toNat
  | _ => False

/-- The device reads or writes the address for the operation. An operation to get SMART data of a device that does not
support it gives no command. -/
def Dma (hw : C.Hardware) (c : C.Call) (a : Unsigned64) : Prop :=
  match c.operation with
  | .rwSectors rw start count address =>
    ∃ cmd, Ahci.rwSectors (C.device c.port c.dev) rw start count address = some cmd ∧
      ∃ sector byte, cmd.Moves (C.sectorSize c.port c.dev).toNat sector byte a
  | .getSmart address => (hw.smart c).1 ≠ .enotsup ∧ ∃ k < 512, prdtByte (cmdSlotPrepare 512 address).2 k = some a
  | _ => False

/-- The requests whose buffers an operation may use: to transfer data those of its device that are not answered, to get
SMART data also the request for it. -/
def MayUse (e : C.Event) (pend : List BlockRequest) (c : C.Call) (r : BlockRequest) : Prop :=
  match c.operation with
  | .getSmart _ => r ∈ pend ∨ ∃ p hw, e = .request p r hw
  | _ => r ∈ pend ∧ r.deviceId.toNat = c.dev.val

/-- An event of the port, with the requests that were not answered before it, those that it answers and those that are
left. -/
structure Accounted (s : C.Server) (e : C.Event) (pend : List BlockRequest) (answered : List Answer)
    (left : List BlockRequest) : Prop where
  responses : newResponses s e = answered.map Answer.response
  requests : (answered.map Answer.request ++ left).Perm (pend ++ incoming e)
  idle : ∀ p hw, e = .noData p hw → left = []
  tags : ∀ d, ((next s e).current e.port d).tags.length ≤ requMax

/-- What the event does for the requests. -/
structure Served (s : C.Server) (e : C.Event) (pend : List BlockRequest) (answered : List Answer) : Prop where
  covered : ∀ a ∈ answered, a.status = Status.ok.toUnsigned64 →
    ∃ c ∈ newCalls s e, C.status e.hardware c = .ok ∧ Covers c a.request
  dma : ∀ c ∈ newCalls s e, ∀ a, Dma e.hardware c a → ∃ r, MayUse e pend c r ∧ Owns e.port r a

/-- The books of a port over a run: after each event the requests that are not answered are those that are left, and
none after a reset. -/
def Books (strict : Prop) (p : C.Port) : C.Server → List BlockRequest → List C.Event → Prop
  | _, _, [] => True
  | s, pend, e :: es =>
    if e.port = p then
      ∃ answered left, Accounted s e pend answered left ∧ (strict → Served s e pend answered) ∧
        Books strict p (next s e) (if IsReset e then [] else left) es
    else Books strict p (next s e) pend es

/-! ### The condition -/

/-- `RW_Sectors` refuses the request. -/
def Refused (p : C.Port) (d : C.Dev) (r : BlockRequest) : Prop :=
  ∀ rw, Ahci.rwSectors (C.device p d) rw (r.deviceOffset + (C.devs p d).sectorOffset)
    ((r.requestLength / (C.sectorSize p d).setWidth 64).setWidth 32)
    (r.bufferOffset + C.getShmBufferBase (C.chanIdx p)) = none

/-- A transfer of a positive number of whole sectors, no more than a command can take, at an even address. -/
structure TransferFits (p : C.Port) (d : C.Dev) (r : BlockRequest) : Prop where
  positive : 0 < r.requestLength.toNat
  whole : (C.sectorSize p d).toNat ∣ r.requestLength.toNat
  small : r.requestLength.toNat ≤ 0x2000000
  even : (r.bufferOffset + C.getShmBufferBase (C.chanIdx p)).toNat % 2 = 0

/-- A request that the server executes as it is: it is a transfer that fits or that is refused, or it discards whole
sectors, no more than an operation can count. -/
structure RequestFits (p : C.Port) (d : C.Dev) (r : BlockRequest) : Prop where
  transfer : r.requestKind ≠ RequestKind.discard → Refused p d r ∨ TransferFits p d r
  discard : r.requestKind = RequestKind.discard → (C.sectorSize p d).toNat ∣ r.requestLength.toNat ∧
    r.requestLength.toNat / (C.sectorSize p d).toNat < 2 ^ 32

/-- The address is one of the buffer of the current request of a device. -/
def OwnsCurrent (s : C.Server) (p : C.Port) (a : Unsigned64) : Prop :=
  ∃ d, (s.current p d).tags ≠ [] ∧ ∃ i < (s.current p d).requestLength.toNat,
    a = (s.current p d).bufferOffset + C.getShmBufferBase (C.chanIdx p) + BitVec.ofNat 64 i

/-- The condition on the next event: a request to read, write or discard fits unless it is found to be misaligned, and
does not continue the current one, and SMART data goes to the buffer of its request or of a current one. -/
def EventFits (s : C.Server) : C.Event → Prop
  | .request p r hw => ∀ d : C.Dev, d.val = r.deviceId.toNat →
    (r.requestKind ∈ Server.rwdKinds → (C.devs p d).isValid →
      (Server.Aligned (C.sectorSize p d) (Server.addRequest nullCurrent r) → RequestFits p d r) ∧
        ((s.current p d).tags ≠ [] → ¬ Server.Contiguous (s.current p d) r)) ∧
    (r.requestKind = RequestKind.getSmart → ∀ a,
      Dma hw ⟨p, d, .getSmart ((s.current p d).bufferOffset + C.getShmBufferBase (C.chanIdx p))⟩ a →
        Owns p r a ∨ OwnsCurrent s p a)
  | .noData _ _ => True

/-- The condition holds at every event of the port. -/
def RunFits (p : C.Port) : C.Server → List C.Event → Prop
  | _, [] => True
  | s, e :: es => (e.port = p → EventFits s e) ∧ RunFits p (next s e) es

/-! ### One operation -/

/-- Sectors of a power of two bytes. -/
def PowerOfTwo (p : C.Port) (d : C.Dev) : Prop := (C.sectorSize p d).toNat = 2 ^ (C.device p d).sectorSizeShift

/-- The number of sectors of a length that fits. -/
lemma count_eq {p : C.Port} {d : C.Dev} (length : Unsigned64)
    (hlt : length.toNat / (C.sectorSize p d).toNat < 2 ^ 32) :
    ((length / (C.sectorSize p d).setWidth 64).setWidth 32 : Unsigned32).toNat =
      length.toNat / (C.sectorSize p d).toNat := by
  rw [BitVec.toNat_setWidth, BitVec.toNat_udiv, setWidth_toNat]
  exact Nat.mod_eq_of_lt hlt

lemma addRequest_null (r : BlockRequest) : Server.addRequest nullCurrent r =
    ⟨r.requestKind, r.deviceId, r.deviceOffset, r.bufferOffset, r.requestLength, [r.requestTag]⟩ := by
  simp [Server.addRequest, nullCurrent]

/-- The bytes that a command moves for a request that fits and is not refused. -/
lemma moves_iff {p : C.Port} {d : C.Dev} (hpow : PowerOfTwo p d) {r : BlockRequest} (hfits : RequestFits p d r)
    (hkind : r.requestKind ≠ RequestKind.discard) {rw : RW} {cmd : Command}
    (hcmd : Ahci.rwSectors (C.device p d) rw (r.deviceOffset + (C.devs p d).sectorOffset)
      ((r.requestLength / (C.sectorSize p d).setWidth 64).setWidth 32)
      (r.bufferOffset + C.getShmBufferBase (C.chanIdx p)) = some cmd)
    (hrefused : ¬ Refused p d r) :
    cmd.rw = rw ∧ ∀ sector byte a, cmd.Moves (C.sectorSize p d).toNat sector byte a ↔
      ∃ i < r.requestLength.toNat / (C.sectorSize p d).toNat, ∃ j < (C.sectorSize p d).toNat,
        sector = (r.deviceOffset + (C.devs p d).sectorOffset).toNat + i ∧ byte = j ∧
        a = r.bufferOffset + C.getShmBufferBase (C.chanIdx p) + BitVec.ofNat 64 (i * (C.sectorSize p d).toNat + j) := by
  have hfits' := (hfits.transfer hkind).resolve_left hrefused
  have hpos : 0 < (C.sectorSize p d).toNat := by
    rw [hpow]
    exact Nat.two_pow_pos _
  have hdiv : r.requestLength.toNat / (C.sectorSize p d).toNat ≤ r.requestLength.toNat := Nat.div_le_self _ _
  have hsmall := hfits'.small
  have hcount := count_eq (p := p) (d := d) r.requestLength (by omega)
  have hwhole : r.requestLength.toNat / (C.sectorSize p d).toNat * (C.sectorSize p d).toNat = r.requestLength.toNat :=
    Nat.div_mul_cancel hfits'.whole
  have hsectors : 0 < r.requestLength.toNat / (C.sectorSize p d).toNat :=
    Nat.div_pos (Nat.le_of_dvd hfits'.positive hfits'.whole) hpos
  have hmoves := rwSectors_moves hcmd hpow (by omega) (by
    rw [hcount]
    exact hwhole.trans_le hsmall) hfits'.even
  rw [hcount] at hmoves
  exact hmoves

/-- The transfer for a request. -/
def transfer (p : C.Port) (d : C.Dev) (r : BlockRequest) (rw : RW) : Operation :=
  .rwSectors rw (r.deviceOffset + (C.devs p d).sectorOffset)
    ((r.requestLength / (C.sectorSize p d).setWidth 64).setWidth 32)
    (r.bufferOffset + C.getShmBufferBase (C.chanIdx p))

/-- The operation for a request that was combined with no other one. -/
lemma currentOperation_single {p : C.Port} {d : C.Dev} {r : BlockRequest} {operation : Operation}
    (hop : Server.currentOperation p d (Server.addRequest nullCurrent r) = some operation) :
    (∃ rw, r.requestKind = kindOf rw ∧ operation = transfer p d r rw) ∨
    (r.requestKind = RequestKind.discard ∧
      operation = .discardSectors (r.deviceOffset + (C.devs p d).sectorOffset)
        ((r.requestLength / (C.sectorSize p d).setWidth 64).setWidth 32)) := by
  unfold Server.currentOperation at hop
  rw [addRequest_null] at hop
  simp only at hop
  by_cases hread : r.requestKind = RequestKind.read
  · rw [if_pos hread] at hop
    exact Or.inl ⟨.read, hread, (Option.some.inj hop).symm⟩
  rw [if_neg hread] at hop
  by_cases hwrite : r.requestKind = RequestKind.write
  · rw [if_pos hwrite] at hop
    exact Or.inl ⟨.write, hwrite, (Option.some.inj hop).symm⟩
  rw [if_neg hwrite] at hop
  by_cases hdiscard : r.requestKind = RequestKind.discard
  · rw [if_pos hdiscard] at hop
    exact Or.inr ⟨hdiscard, (Option.some.inj hop).symm⟩
  · rw [if_neg hdiscard] at hop
    exact absurd hop (by simp)

lemma kindOf_ne_discard (rw : RW) : kindOf rw ≠ RequestKind.discard := by
  cases rw <;> decide

lemma not_refused {p : C.Port} {d : C.Dev} {r : BlockRequest} {rw : RW} {cmd : Command}
    (hcmd : Ahci.rwSectors (C.device p d) rw (r.deviceOffset + (C.devs p d).sectorOffset)
      ((r.requestLength / (C.sectorSize p d).setWidth 64).setWidth 32)
      (r.bufferOffset + C.getShmBufferBase (C.chanIdx p)) = some cmd) : ¬ Refused p d r := by
  intro h
  rw [h rw] at hcmd
  exact absurd hcmd (by simp)

/-- The operation for a request that fits covers it when it succeeds. -/
lemma covers_single {hw : C.Hardware} {p : C.Port} {d : C.Dev} (hpow : PowerOfTwo p d) {r : BlockRequest}
    (hfits : RequestFits p d r) {operation : Operation}
    (hop : Server.currentOperation p d (Server.addRequest nullCurrent r) = some operation)
    (hok : C.status hw ⟨p, d, operation⟩ = .ok) : Covers ⟨p, d, operation⟩ r := by
  have hpos : 0 < (C.sectorSize p d).toNat := by
    rw [hpow]
    exact Nat.two_pow_pos _
  rcases currentOperation_single hop with ⟨rw, hkind, rfl⟩ | ⟨hkind, rfl⟩
  · cases hcmd : Ahci.rwSectors (C.device p d) rw (r.deviceOffset + (C.devs p d).sectorOffset)
        ((r.requestLength / (C.sectorSize p d).setWidth 64).setWidth 32)
        (r.bufferOffset + C.getShmBufferBase (C.chanIdx p)) with
    | none =>
      simp only [status, transfer, hcmd, rwStatus] at hok
      exact absurd hok (by decide)
    | some cmd =>
      have hne : r.requestKind ≠ RequestKind.discard := hkind ▸ kindOf_ne_discard rw
      have hwhole := Nat.div_mul_cancel ((hfits.transfer hne).resolve_left (not_refused hcmd)).whole
      obtain ⟨hcmdrw, hmoves⟩ := moves_iff hpow hfits hne hcmd (not_refused hcmd)
      refine ⟨hkind, cmd, hcmd, hcmdrw, fun i hi => ?_⟩
      rw [hmoves]
      refine ⟨i / (C.sectorSize p d).toNat, ?_, i % (C.sectorSize p d).toNat, Nat.mod_lt _ hpos, rfl, rfl, ?_⟩
      · apply Nat.div_lt_of_lt_mul
        rw [Nat.mul_comm, hwhole]
        exact hi
      · rw [Nat.div_add_mod']
  · obtain ⟨hwhole, hcount⟩ := hfits.discard hkind
    refine ⟨hkind, rfl, ?_⟩
    rw [count_eq _ hcount, Nat.div_mul_cancel hwhole]

/-- The operation for a request that fits stays in its buffer. -/
lemma dma_single {hw : C.Hardware} {p : C.Port} {d : C.Dev} (hpow : PowerOfTwo p d) {r : BlockRequest}
    (hfits : RequestFits p d r) {operation : Operation}
    (hop : Server.currentOperation p d (Server.addRequest nullCurrent r) = some operation) {a : Unsigned64}
    (hdma : Dma hw ⟨p, d, operation⟩ a) : Owns p r a := by
  rcases currentOperation_single hop with ⟨rw, hkind, rfl⟩ | ⟨hkind, rfl⟩
  · obtain ⟨cmd, hcmd, sector, byte, hmove⟩ := hdma
    have hne : r.requestKind ≠ RequestKind.discard := hkind ▸ kindOf_ne_discard rw
    have hwhole := ((hfits.transfer hne).resolve_left (not_refused hcmd)).whole
    obtain ⟨i, hi, j, hj, -, -, ha⟩ := ((moves_iff hpow hfits hne hcmd (not_refused hcmd)).2 sector byte a).mp hmove
    refine ⟨i * (C.sectorSize p d).toNat + j, ?_, ha⟩
    calc i * (C.sectorSize p d).toNat + j < (i + 1) * (C.sectorSize p d).toNat := by
          rw [Nat.succ_mul]
          omega
      _ ≤ r.requestLength.toNat / (C.sectorSize p d).toNat * (C.sectorSize p d).toNat := Nat.mul_le_mul_right _ hi
      _ = r.requestLength.toNat := Nat.div_mul_cancel hwhole
  · exact hdma.elim

/-! ### The current requests -/

/-- The requests that are combined in the current request of a device. In a run that meets the condition there is one
at most. -/
structure Combined (strict : Prop) (p : C.Port) (d : C.Dev) (cur : CurrentRequest) (reqs : List BlockRequest) :
    Prop where
  empty : reqs = [] → cur = nullCurrent
  tags : cur.tags = reqs.map (·.requestTag)
  few : reqs.length ≤ requMax
  valid : reqs ≠ [] → (C.devs p d).isValid
  kind : ∀ r ∈ reqs, r.requestKind ∈ Server.rwdKinds ∧ r.requestKind = cur.requestKind
  dev : ∀ r ∈ reqs, r.deviceId = cur.deviceId ∧ r.deviceId.toNat = d.val
  single : strict → ∀ r ∈ reqs, reqs = [r] ∧ cur = Server.addRequest nullCurrent r ∧
    (Server.Aligned (C.sectorSize p d) cur → RequestFits p d r)

lemma combined_null (strict : Prop) (p : C.Port) (d : C.Dev) : Combined strict p d nullCurrent [] where
  empty := fun _ => rfl
  tags := rfl
  few := Nat.zero_le _
  valid := fun h => absurd rfl h
  kind := by simp
  dev := by simp
  single := by simp

lemma Combined.tags_eq_nil {strict : Prop} {p : C.Port} {d : C.Dev} {cur : CurrentRequest} {reqs : List BlockRequest}
    (h : Combined strict p d cur reqs) : cur.tags = [] ↔ reqs = [] := by
  rw [h.tags, List.map_eq_nil_iff]

/-- The state after operations for a port: it has grown by calls and by responses on the channel of the port, and the
current requests of other ports are the same. -/
structure Grown (p : C.Port) (s s' : C.Server) (calls : List C.Call) (responses : List BlockResponse) : Prop where
  calls : s'.calls = s.calls ++ calls
  responses : s'.responses (C.chanIdx p) = s.responses (C.chanIdx p) ++ responses
  others : ∀ q, q ≠ p → s'.current q = s.current q

lemma Grown.refl (p : C.Port) (s : C.Server) : Grown p s s [] [] := ⟨by simp, by simp, fun _ _ => rfl⟩

lemma Grown.trans {p : C.Port} {s₁ s₂ s₃ : C.Server} {calls calls' : List C.Call} {rs rs' : List BlockResponse}
    (h : Grown p s₁ s₂ calls rs) (h' : Grown p s₂ s₃ calls' rs') : Grown p s₁ s₃ (calls ++ calls') (rs ++ rs') := by
  refine ⟨?_, ?_, fun q hq => (h'.others q hq).trans (h.others q hq)⟩
  · rw [h'.calls, h.calls, List.append_assoc]
  · rw [h'.responses, h.responses, List.append_assoc]

lemma grown_setCurrent (p : C.Port) (s : C.Server) (d : C.Dev) (cur : CurrentRequest) :
    Grown p s (s.setCurrent p d cur) [] [] where
  calls := by simp [Server.setCurrent]
  responses := by simp [Server.setCurrent]
  others := fun q hq => by simp [Server.setCurrent, hq]

lemma grown_call (p : C.Port) (s : C.Server) (c : C.Call) : Grown p s (s.call c) [c] [] where
  calls := rfl
  responses := by simp [Server.call]
  others := fun _ _ => rfl

lemma grown_sendResponse (p : C.Port) (s : C.Server) (b : BlockResponse) : Grown p s (s.sendResponse p b) [] [b] where
  calls := by simp [Server.sendResponse]
  responses := by simp [Server.sendResponse]
  others := fun _ _ => rfl

lemma grown_sendResponses (p : C.Port) (s : C.Server) (cur : CurrentRequest) (ret : Status) :
    Grown p s (s.sendResponses p cur ret) []
        (cur.tags.map (fun tag => ⟨cur.requestKind, cur.deviceId, tag, ret.toUnsigned64⟩)) ∧
      (s.sendResponses p cur ret).current = s.current := by
  unfold Server.sendResponses
  induction cur.tags generalizing s with
  | nil => exact ⟨Grown.refl p s, rfl⟩
  | cons tag tags ih =>
    obtain ⟨hgrown, hcurrent⟩ := ih (s.sendResponse p ⟨cur.requestKind, cur.deviceId, tag, ret.toUnsigned64⟩)
    exact ⟨(grown_sendResponse p s _).trans hgrown, hcurrent⟩

lemma setCurrent_current_of_ne {s : C.Server} {p : C.Port} {d e : C.Dev} (h : e ≠ d) (cur : CurrentRequest) :
    (s.setCurrent p d cur).current p e = s.current p e := by
  simp [Server.setCurrent, h]

/-- What finishing current requests does: the combined requests are those that are answered, they are covered if the
status is OK, and the operations use only their buffers. -/
structure Finished (strict : Prop) (hw : C.Hardware) (p : C.Port) (reqs : List BlockRequest) (calls : List C.Call)
    (answered : List Answer) : Prop where
  requests : answered.map Answer.request = reqs
  covered : strict → ∀ a ∈ answered, a.status = Status.ok.toUnsigned64 →
    ∃ c ∈ calls, C.status hw c = .ok ∧ Covers c a.request
  dma : strict → ∀ c ∈ calls, ∀ a, Dma hw c a →
    ∃ r ∈ reqs, Owns p r a ∧ r.deviceId.toNat = c.dev.val ∧ ∀ address, c.operation ≠ .getSmart address

lemma Finished.nil (strict : Prop) (hw : C.Hardware) (p : C.Port) : Finished strict hw p [] [] [] :=
  ⟨rfl, by simp, by simp⟩

lemma Finished.append {strict : Prop} {hw : C.Hardware} {p : C.Port} {reqs reqs' : List BlockRequest}
    {calls calls' : List C.Call} {as as' : List Answer} (h : Finished strict hw p reqs calls as)
    (h' : Finished strict hw p reqs' calls' as') :
    Finished strict hw p (reqs ++ reqs') (calls ++ calls') (as ++ as') where
  requests := by rw [List.map_append, h.requests, h'.requests]
  covered := by
    intro hstrict a ha hok
    rcases List.mem_append.mp ha with ha | ha
    · obtain ⟨c, hc, hcov⟩ := h.covered hstrict a ha hok
      exact ⟨c, List.mem_append_left _ hc, hcov⟩
    · obtain ⟨c, hc, hcov⟩ := h'.covered hstrict a ha hok
      exact ⟨c, List.mem_append_right _ hc, hcov⟩
  dma := by
    intro hstrict c hc a ha
    rcases List.mem_append.mp hc with hc | hc
    · obtain ⟨r, hr, howns⟩ := h.dma hstrict c hc a ha
      exact ⟨r, List.mem_append_left _ hr, howns⟩
    · obtain ⟨r, hr, howns⟩ := h'.dma hstrict c hc a ha
      exact ⟨r, List.mem_append_right _ hr, howns⟩

lemma toUnsigned64_ok {st : Status} (h : st.toUnsigned64 = Status.ok.toUnsigned64) : st = .ok := by
  cases st with
  | ok => rfl
  | enotsup => exact absurd h (by decide)
  | eio => exact absurd h (by decide)

lemma currentOperation_not_smart {p : C.Port} {d : C.Dev} {cur : CurrentRequest} {operation : Operation}
    (h : Server.currentOperation p d cur = some operation) (address : Unsigned64) : operation ≠ .getSmart address := by
  unfold Server.currentOperation at h
  simp only at h
  split_ifs at h
  · rw [← Option.some.inj h]
    exact Operation.noConfusion
  · rw [← Option.some.inj h]
    exact Operation.noConfusion
  · rw [← Option.some.inj h]
    exact Operation.noConfusion

lemma Combined.operation {strict : Prop} {p : C.Port} {d : C.Dev} {cur : CurrentRequest} {reqs : List BlockRequest}
    (h : Combined strict p d cur reqs) (hnil : reqs ≠ []) : Server.currentOperation p d cur ≠ none := by
  intro hop
  obtain ⟨r, hr⟩ := List.exists_mem_of_ne_nil reqs hnil
  obtain ⟨hkind, hcur⟩ := h.kind r hr
  rw [hcur] at hkind
  simp only [Server.rwdKinds, List.mem_cons, List.not_mem_nil, or_false] at hkind
  simp only [Server.currentOperation] at hop
  split_ifs at hop with hread hwrite hdiscard
  exact hkind.elim hread (fun hk => hk.elim hwrite hdiscard)

/-- The answers to combined requests. -/
def answers (reqs : List BlockRequest) (ret : Status) : List Answer := reqs.map (fun r => ⟨r, ret.toUnsigned64⟩)

lemma mem_answers {reqs : List BlockRequest} {ret : Status} {a : Answer} (h : a ∈ answers reqs ret) :
    a.request ∈ reqs ∧ a.status = ret.toUnsigned64 := by
  obtain ⟨r, hr, rfl⟩ := List.mem_map.mp h
  exact ⟨hr, rfl⟩

lemma answers_requests (reqs : List BlockRequest) (ret : Status) : (answers reqs ret).map Answer.request = reqs := by
  rw [answers, List.map_map]
  exact List.map_id reqs

lemma Combined.responses {strict : Prop} {p : C.Port} {d : C.Dev} {cur : CurrentRequest} {reqs : List BlockRequest}
    (h : Combined strict p d cur reqs) (ret : Status) :
    cur.tags.map (fun tag => (⟨cur.requestKind, cur.deviceId, tag, ret.toUnsigned64⟩ : BlockResponse)) =
      (answers reqs ret).map Answer.response := by
  rw [h.tags, answers, List.map_map, List.map_map]
  apply List.map_congr_left
  intro r hr
  rw [Function.comp_apply, Function.comp_apply, Answer.response, (h.kind r hr).2, (h.dev r hr).1]

lemma answer_spec {strict : Prop} {s : C.Server} {p : C.Port} {d : C.Dev} {reqs : List BlockRequest}
    (h : Combined strict p d (s.current p d) reqs) (sendResp : Bool) (ret : Status) :
    Grown p s (s.answer p d sendResp ret) []
      (if sendResp then (answers reqs ret).map Answer.response else []) ∧
      (s.answer p d sendResp ret).current p d = nullCurrent ∧
      ∀ e, e ≠ d → (s.answer p d sendResp ret).current p e = s.current p e := by
  unfold Server.answer
  cases sendResp with
  | false =>
    exact ⟨grown_setCurrent p s d nullCurrent, Server.setCurrent_current _ _ _ _,
      fun e he => setCurrent_current_of_ne he _⟩
  | true =>
    obtain ⟨hgrown, hcurrent⟩ := grown_sendResponses p s (s.current p d) ret
    rw [h.responses] at hgrown
    simp only [if_true]
    refine ⟨?_, Server.setCurrent_current _ _ _ _, fun e he => ?_⟩
    · simpa using hgrown.trans (grown_setCurrent p _ d nullCurrent)
    · rw [setCurrent_current_of_ne he, hcurrent]

lemma finishCurrentRequest_spec {strict : Prop} (hw : C.Hardware) {p : C.Port} {d : C.Dev} {s : C.Server}
    {reqs : List BlockRequest} (h : Combined strict p d (s.current p d) reqs)
    (hpow : (C.devs p d).isValid → PowerOfTwo p d) (sendResp : Bool) :
    ∃ calls answered, Grown p s (s.finishCurrentRequest hw p d sendResp) calls
        (if sendResp then answered.map Answer.response else []) ∧
      Finished strict hw p reqs calls answered ∧
      (s.finishCurrentRequest hw p d sendResp).current p d = nullCurrent ∧
      ∀ e, e ≠ d → (s.finishCurrentRequest hw p d sendResp).current p e = s.current p e := by
  by_cases hnil : reqs = []
  · have hrun : s.finishCurrentRequest hw p d sendResp = s.setCurrent p d nullCurrent := by
      simp only [Server.finishCurrentRequest]
      rw [if_pos (Or.inl (h.tags_eq_nil.mpr hnil))]
    rw [hrun, hnil]
    refine ⟨[], [], ?_, Finished.nil strict hw p, Server.setCurrent_current _ _ _ _,
      fun e he => setCurrent_current_of_ne he _⟩
    simpa using grown_setCurrent p s d nullCurrent
  have hexec : ¬ ((s.current p d).tags = [] ∨ C.sectorSize p d = 0) := by
    rintro (htags | h0)
    · exact hnil (h.tags_eq_nil.mp htags)
    · have hpow' := hpow (h.valid hnil)
      rw [PowerOfTwo, h0] at hpow'
      exact absurd hpow'.symm (Nat.two_pow_pos _).ne'
  by_cases haligned : Server.Aligned (C.sectorSize p d) (s.current p d)
  · obtain ⟨operation, hop⟩ := Option.ne_none_iff_exists'.mp (h.operation hnil)
    have hrun : s.finishCurrentRequest hw p d sendResp =
        (s.call ⟨p, d, operation⟩).answer p d sendResp (C.status hw ⟨p, d, operation⟩) := by
      simp only [Server.finishCurrentRequest]
      rw [if_neg hexec, if_pos haligned, hop]
    obtain ⟨hgrown, hnull, hothers⟩ := answer_spec (s := s.call ⟨p, d, operation⟩) h sendResp
      (C.status hw ⟨p, d, operation⟩)
    rw [hrun]
    refine ⟨[⟨p, d, operation⟩], answers reqs (C.status hw ⟨p, d, operation⟩),
      (grown_call p s ⟨p, d, operation⟩).trans hgrown, ⟨answers_requests _ _, fun hstrict a ha hst => ?_,
      fun hstrict c hc a ha => ?_⟩, hnull, hothers⟩
    · obtain ⟨hr, hstatus⟩ := mem_answers ha
      have hok := toUnsigned64_ok (hstatus.symm.trans hst)
      obtain ⟨-, hcur, hfits⟩ := h.single hstrict _ hr
      rw [hcur] at hop
      exact ⟨_, List.mem_singleton_self _, hok, covers_single (hpow (h.valid hnil)) (hfits haligned) hop hok⟩
    · rw [List.mem_singleton] at hc
      subst hc
      obtain ⟨r, hr⟩ := List.exists_mem_of_ne_nil reqs hnil
      obtain ⟨-, hcur, hfits⟩ := h.single hstrict r hr
      have hsmart := currentOperation_not_smart hop
      rw [hcur] at hop
      exact ⟨r, hr, dma_single (hpow (h.valid hnil)) (hfits haligned) hop ha, (h.dev r hr).2, hsmart⟩
  · have hrun : s.finishCurrentRequest hw p d sendResp = s.answer p d sendResp .eio := by
      simp only [Server.finishCurrentRequest]
      rw [if_neg hexec, if_neg haligned]
    obtain ⟨hgrown, hnull, hothers⟩ := answer_spec h sendResp .eio
    rw [hrun]
    refine ⟨[], answers reqs .eio, hgrown, ⟨answers_requests _ _, fun _ a ha hst => ?_, by simp⟩, hnull, hothers⟩
    exact absurd ((mem_answers ha).2.symm.trans hst) (by decide)

/-- The loop over the devices of a port answers the requests of all of them. -/
lemma finishCurrentRequests_spec {strict : Prop} (hw : C.Hardware) {p : C.Port} {s : C.Server}
    {reqs : C.Dev → List BlockRequest} (h : ∀ d, Combined strict p d (s.current p d) (reqs d))
    (hpow : ∀ d, (C.devs p d).isValid → PowerOfTwo p d) (sendResp : Bool) :
    ∃ calls answered, Grown p s (s.finishCurrentRequests hw p sendResp) calls
        (if sendResp then answered.map Answer.response else []) ∧
      Finished strict hw p ((List.finRange (C.devicesMax + 1)).flatMap reqs) calls answered ∧
      ∀ d, (s.finishCurrentRequests hw p sendResp).current p d = nullCurrent := by
  have hloop : ∀ (ds : List C.Dev) (s : C.Server), ds.Nodup → (∀ d, Combined strict p d (s.current p d) (if d ∈ ds
      then reqs d else [])) → ∃ calls answered,
      Grown p s (ds.foldl (fun s d => if (C.devs p d).isValid then s.finishCurrentRequest hw p d sendResp else s) s)
        calls (if sendResp then answered.map Answer.response else []) ∧
      Finished strict hw p (ds.flatMap reqs) calls answered ∧
      ∀ d, (ds.foldl (fun s d => if (C.devs p d).isValid then s.finishCurrentRequest hw p d sendResp else s)
        s).current p d = nullCurrent := by
    intro ds
    induction ds with
    | nil =>
      intro s _ hs
      refine ⟨[], [], ?_, Finished.nil strict hw p, fun d => (hs d).empty (by simp)⟩
      simpa using Grown.refl p s
    | cons d ds ih =>
      intro s hnodup hs
      obtain ⟨hd, hnodup⟩ := List.nodup_cons.mp hnodup
      have hcur : Combined strict p d (s.current p d) (reqs d) := by simpa using hs d
      rw [List.foldl_cons, List.flatMap_cons]
      by_cases hvalid : (C.devs p d).isValid
      · obtain ⟨calls, answered, hgrown, hfinished, hnull, hothers⟩ :=
          finishCurrentRequest_spec hw hcur (hpow d) sendResp
        rw [if_pos hvalid]
        obtain ⟨calls', answered', hgrown', hfinished', hnull'⟩ :=
          ih (s.finishCurrentRequest hw p d sendResp) hnodup (fun e => by
            by_cases he : e = d
            · subst he
              rw [hnull, if_neg hd]
              exact combined_null strict p e
            · rw [hothers e he]
              simpa [he] using hs e)
        refine ⟨calls ++ calls', answered ++ answered', ?_, hfinished.append hfinished', hnull'⟩
        have hboth := hgrown.trans hgrown'
        cases sendResp with
        | false => exact hboth
        | true => simpa using hboth
      · have hempty : reqs d = [] := by
          by_contra hne
          exact hvalid (hcur.valid hne)
        rw [if_neg hvalid, hempty, List.nil_append]
        apply ih s hnodup
        intro e
        by_cases he : e = d
        · subst he
          rw [if_neg hd, ← hempty]
          exact hcur
        · simpa [he] using hs e
  exact hloop _ s (List.nodup_finRange _) (fun d => by simpa using h d)

/-! ### Events -/

/-- The requests that are not answered are those combined in the current requests of the devices. -/
def Batched (strict : Prop) (p : C.Port) (s : C.Server) (pend : List BlockRequest) : Prop :=
  ∃ reqs : C.Dev → List BlockRequest, (∀ d, Combined strict p d (s.current p d) (reqs d)) ∧
    pend.Perm ((List.finRange (C.devicesMax + 1)).flatMap reqs)

/-- What is proved about an event: its books, and that the requests left are combined again. -/
def Booked (strict : Prop) (p : C.Port) (s : C.Server) (e : C.Event) (pend : List BlockRequest) : Prop :=
  ∃ answered left, Accounted s e pend answered left ∧ (strict → Served s e pend answered) ∧
    Batched strict p (next s e) (if IsReset e then [] else left)

lemma batched_null {strict : Prop} {p : C.Port} {s : C.Server} (h : ∀ d, s.current p d = nullCurrent) :
    Batched strict p s [] := by
  refine ⟨fun _ => [], fun d => ?_, by simp⟩
  rw [h d]
  exact combined_null strict p d

lemma Batched.tags {strict : Prop} {p : C.Port} {s : C.Server} {pend : List BlockRequest}
    (h : Batched strict p s pend) (d : C.Dev) : (s.current p d).tags.length ≤ requMax := by
  obtain ⟨reqs, hreqs, -⟩ := h
  rw [(hreqs d).tags, List.length_map]
  exact (hreqs d).few

lemma Grown.newCalls {s : C.Server} {e : C.Event} {calls : List C.Call} {responses : List BlockResponse}
    (h : Grown e.port s (next s e) calls responses) : newCalls s e = calls := by
  rw [Config.newCalls, h.calls, List.drop_left]

lemma Grown.newResponses {s : C.Server} {e : C.Event} {calls : List C.Call} {responses : List BlockResponse}
    (h : Grown e.port s (next s e) calls responses) :
    newResponses s e = responses.filter (fun b => decide (b.requestKind ∈ Server.rwdKinds)) := by
  rw [Config.newResponses, h.responses, List.drop_left]

/-- Answers to requests that are combined or that come with the event are not filtered out. -/
lemma filter_answers (answered : List Answer) (h : ∀ a ∈ answered, a.request.requestKind ∈ Server.rwdKinds) :
    (answered.map Answer.response).filter (fun b => decide (b.requestKind ∈ Server.rwdKinds)) =
      answered.map Answer.response := by
  apply List.filter_eq_self.mpr
  intro b hb
  obtain ⟨a, ha, rfl⟩ := List.mem_map.mp hb
  exact decide_eq_true (h a ha)

lemma flatMap_update_perm {α β : Type*} [DecidableEq α] {as : List α} (hnodup : as.Nodup) {a : α} (ha : a ∈ as)
    (f : α → List β) (l : List β) :
    (f a ++ as.flatMap (Function.update f a l)).Perm (as.flatMap f ++ l) := by
  induction as with
  | nil => exact absurd ha (by simp)
  | cons b bs ih =>
    obtain ⟨hb, hnodup⟩ := List.nodup_cons.mp hnodup
    rw [List.flatMap_cons, List.flatMap_cons]
    by_cases hab : b = a
    · subst hab
      have hrest : bs.flatMap (Function.update f b l) = bs.flatMap f := by
        apply List.flatMap_congr
        intro c hc
        have hcb : c ≠ b := by
          intro h
          rw [h] at hc
          exact hb hc
        rw [Function.update_of_ne hcb]
      rw [Function.update_self, hrest, List.append_assoc]
      exact List.Perm.append_left _ List.perm_append_comm
    · rw [Function.update_of_ne hab, List.append_assoc]
      have hmem : a ∈ bs := (List.mem_cons.mp ha).resolve_left (fun h => hab h.symm)
      have hstep := List.Perm.append_left (f b) (ih hnodup hmem)
      exact (List.perm_append_comm_assoc _ _ _).trans hstep

section Event

variable {strict : Prop} {p : C.Port} {s : C.Server} {pend : List BlockRequest} {r : BlockRequest} {hw : C.Hardware}

/-- An event that changes no current request of the port and answers no request to read, write or discard. -/
lemma booked_quiet (hinv : Batched strict p s pend) {calls : List C.Call} {responses : List BlockResponse}
    (hnext : Grown p s (s.processRequest hw p r) calls responses)
    (hsame : ∀ d, (s.processRequest hw p r).current p d = s.current p d)
    (hnot : r.requestKind ∉ Server.rwdKinds) (hreset : ¬ IsReset (C := C) (.request p r hw))
    (hresponses : ∀ b ∈ responses, b.requestKind = r.requestKind)
    (hdma : strict → ∀ c ∈ calls, ∀ a, Dma hw c a → ∃ r', MayUse (.request p r hw) pend c r' ∧ Owns p r' a) :
    Booked strict p s (.request p r hw) pend := by
  have hnone : newResponses s (.request p r hw) = [] := by
    rw [Grown.newResponses (e := .request p r hw) hnext, List.filter_eq_nil_iff]
    intro b hb
    rw [hresponses b hb]
    simpa using hnot
  have hcalls : newCalls s (.request p r hw) = calls := Grown.newCalls (e := .request p r hw) hnext
  refine ⟨[], pend, ⟨by rw [hnone]; rfl, ?_, fun q hw' h => by injection h, fun d => ?_⟩,
    fun hstrict => ⟨by simp, ?_⟩, ?_⟩
  · simp [incoming, hnot]
  · exact (congrArg (fun cur : CurrentRequest => cur.tags.length) (hsame d)).trans_le (hinv.tags d)
  · rw [hcalls]
    exact hdma hstrict
  · rw [if_neg hreset]
    obtain ⟨reqs, hreqs, hperm⟩ := hinv
    exact ⟨reqs, fun d => by rw [next, hsame d]; exact hreqs d, hperm⟩

lemma rwd_not_reset (hkind : r.requestKind ∈ Server.rwdKinds) : ¬ IsReset (C := C) (.request p r hw) := by
  rintro ⟨hr, -⟩
  rw [hr] at hkind
  exact absurd hkind (by decide)

lemma mayUse_of_mem (e : C.Event) {c : C.Call} (hr : r ∈ pend) (hdev : r.deviceId.toNat = c.dev.val) :
    MayUse e pend c r := by
  unfold MayUse
  cases c.operation with
  | getSmart address => exact Or.inl hr
  | rwSectors rw start count address => exact ⟨hr, hdev⟩
  | discardSectors start count => exact ⟨hr, hdev⟩
  | sync => exact ⟨hr, hdev⟩

/-- A request to read, write or discard that is refused with a response. -/
lemma booked_refused (hinv : Batched strict p s pend) (hkind : r.requestKind ∈ Server.rwdKinds)
    (st : Unsigned64) (hst : st ≠ Status.ok.toUnsigned64)
    (hnext : s.processRequest hw p r = s.sendResponse p ⟨r.requestKind, r.deviceId, r.requestTag, st⟩) :
    Booked strict p s (.request p r hw) pend := by
  have hgrown := grown_sendResponse p s (Answer.response ⟨r, st⟩)
  have hrun : next s (.request p r hw) = s.sendResponse p (Answer.response ⟨r, st⟩) := hnext
  rw [← hrun] at hgrown
  refine ⟨[⟨r, st⟩], pend, ⟨?_, ?_, fun q hw' h => by injection h, fun d => ?_⟩, fun _ => ⟨?_, ?_⟩, ?_⟩
  · rw [Grown.newResponses (e := .request p r hw) hgrown]
    exact filter_answers [⟨r, st⟩] (by simpa using hkind)
  · simp only [incoming, if_pos hkind]
    exact List.perm_append_comm
  · rw [hrun]
    exact hinv.tags d
  · intro a ha hok
    rw [List.mem_singleton.mp ha] at hok
    exact absurd hok hst
  · rw [Grown.newCalls (e := .request p r hw) hgrown]
    simp
  · rw [if_neg (rwd_not_reset hkind), hrun]
    exact hinv

lemma combined_first {d : C.Dev} (hkind : r.requestKind ∈ Server.rwdKinds) (hvalid : (C.devs p d).isValid)
    (hdev : r.deviceId.toNat = d.val) (hfits : strict →
      Server.Aligned (C.sectorSize p d) (Server.addRequest nullCurrent r) → RequestFits p d r) :
    Combined strict p d (Server.addRequest nullCurrent r) [r] where
  empty := fun h => absurd h (by simp)
  tags := by simp [addRequest_null]
  few := by simp [requMax]
  valid := fun _ => hvalid
  kind := by
    intro r' hr'
    rw [List.mem_singleton.mp hr', addRequest_null]
    exact ⟨hkind, rfl⟩
  dev := by
    intro r' hr'
    rw [List.mem_singleton.mp hr', addRequest_null]
    exact ⟨rfl, hdev⟩
  single := by
    intro hstrict r' hr'
    rw [List.mem_singleton.mp hr']
    exact ⟨rfl, rfl, hfits hstrict⟩

lemma Combined.add {d : C.Dev} {cur : CurrentRequest} {reqs : List BlockRequest} (h : Combined strict p d cur reqs)
    (hnil : reqs ≠ []) (hcont : Server.Contiguous cur r) (hloose : ¬ strict) :
    Combined strict p d (Server.addRequest cur r) (reqs ++ [r]) := by
  obtain ⟨hkind, -, -, hfull, hid⟩ := hcont
  obtain ⟨r₀, hr₀⟩ := List.exists_mem_of_ne_nil reqs hnil
  have hrwd := (h.kind r₀ hr₀).1
  rw [(h.kind r₀ hr₀).2] at hrwd
  have hadd : Server.addRequest cur r =
      { cur with requestLength := cur.requestLength + r.requestLength, tags := cur.tags ++ [r.requestTag] } := by
    unfold Server.addRequest
    rw [if_neg (rwd_ne_none hrwd)]
  rw [hadd]
  refine ⟨fun h' => absurd h' (by simp), ?_, ?_, fun _ => h.valid hnil, fun r' hr' => ?_, fun r' hr' => ?_,
    fun hstrict => absurd hstrict hloose⟩
  · simp [h.tags]
  · have hfew := h.few
    rw [h.tags, List.length_map] at hfull
    rw [List.length_append, List.length_singleton]
    omega
  · rcases List.mem_append.mp hr' with hr' | hr'
    · exact h.kind r' hr'
    · rw [List.mem_singleton.mp hr', hkind]
      exact ⟨hrwd, rfl⟩
  · rcases List.mem_append.mp hr' with hr' | hr'
    · exact h.dev r' hr'
    · rw [List.mem_singleton.mp hr', hid, ← (h.dev r₀ hr₀).1]
      exact ⟨rfl, (h.dev r₀ hr₀).2⟩

/-- The books when the current request of a device is replaced, after the requests in it were finished or with them. -/
lemma booked_add {d : C.Dev} {s' : C.Server} {reqs : C.Dev → List BlockRequest} {new : List BlockRequest}
    {cur : CurrentRequest} {calls : List C.Call} {answered : List Answer}
    (hreqs : ∀ e, Combined strict p e (s.current p e) (reqs e))
    (hperm : pend.Perm ((List.finRange (C.devicesMax + 1)).flatMap reqs)) (hkind : r.requestKind ∈ Server.rwdKinds)
    (hrun : s.processRequest hw p r = s'.setCurrent p d cur)
    (hgrown : Grown p s s' calls (answered.map Answer.response)) (hothers : ∀ e, e ≠ d → s'.current p e = s.current p e)
    {done : List BlockRequest} (hfinished : Finished strict hw p done calls answered)
    (hdone : (done ++ new).Perm (reqs d ++ [r])) (hsub : ∀ r' ∈ done, r' ∈ reqs d)
    (hnew : Combined strict p d cur new) : Booked strict p s (.request p r hw) pend := by
  have hnext : Grown p s (next s (.request p r hw)) calls (answered.map Answer.response) := by
    rw [next, hrun]
    simpa using hgrown.trans (grown_setCurrent p s' d cur)
  have hbatch : ∀ e, Combined strict p e ((next s (.request p r hw)).current p e) (Function.update reqs d new e) := by
    intro e
    rw [next, hrun]
    by_cases he : e = d
    · subst he
      rw [Server.setCurrent_current, Function.update_self]
      exact hnew
    · rw [setCurrent_current_of_ne he, Function.update_of_ne he, hothers e he]
      exact hreqs e
  have hleft : Batched strict p (next s (.request p r hw))
      ((List.finRange (C.devicesMax + 1)).flatMap (Function.update reqs d new)) := ⟨_, hbatch, List.Perm.refl _⟩
  have hmem : ∀ r' ∈ done, r' ∈ pend := by
    intro r' hr'
    rw [hperm.mem_iff, List.mem_flatMap]
    exact ⟨d, List.mem_finRange d, hsub r' hr'⟩
  refine ⟨answered, (List.finRange (C.devicesMax + 1)).flatMap (Function.update reqs d new), ⟨?_, ?_,
    fun q hw' h => by injection h, hleft.tags⟩, fun hstrict => ⟨?_, ?_⟩, ?_⟩
  · rw [Grown.newResponses (e := .request p r hw) hnext]
    apply filter_answers answered
    intro a ha
    have ha' : a.request ∈ done := by
      rw [← hfinished.requests]
      exact List.mem_map_of_mem ha
    exact ((hreqs d).kind _ (hsub _ ha')).1
  · rw [hfinished.requests]
    simp only [incoming, if_pos hkind]
    apply (List.perm_append_left_iff (reqs d)).mp
    have hupdate := flatMap_update_perm (List.nodup_finRange _) (List.mem_finRange d) reqs new
    calc List.Perm (reqs d ++ (done ++ (List.finRange (C.devicesMax + 1)).flatMap (Function.update reqs d new)))
          (done ++ (reqs d ++ (List.finRange (C.devicesMax + 1)).flatMap (Function.update reqs d new))) :=
          List.perm_append_comm_assoc _ _ _
      List.Perm _ (done ++ ((List.finRange (C.devicesMax + 1)).flatMap reqs ++ new)) := hupdate.append_left _
      List.Perm _ ((List.finRange (C.devicesMax + 1)).flatMap reqs ++ (done ++ new)) :=
          List.perm_append_comm_assoc _ _ _
      List.Perm _ ((List.finRange (C.devicesMax + 1)).flatMap reqs ++ (reqs d ++ [r])) := hdone.append_left _
      List.Perm _ (reqs d ++ ((List.finRange (C.devicesMax + 1)).flatMap reqs ++ [r])) :=
          List.perm_append_comm_assoc _ _ _
      List.Perm _ (reqs d ++ (pend ++ [r])) := (hperm.symm.append_right _).append_left _
  · rw [Grown.newCalls (e := .request p r hw) hnext]
    exact hfinished.covered hstrict
  · rw [Grown.newCalls (e := .request p r hw) hnext]
    intro c hc a ha
    obtain ⟨r', hr', howns, hdev, hsmart⟩ := hfinished.dma hstrict c hc a ha
    exact ⟨r', mayUse_of_mem _ (hmem r' hr') hdev, howns⟩
  · rw [if_neg (rwd_not_reset hkind)]
    exact hleft

lemma booked_rwd {d : C.Dev} (hinv : Batched strict p s pend)
    (hpow : ∀ d, (C.devs p d).isValid → PowerOfTwo p d) (hkind : r.requestKind ∈ Server.rwdKinds)
    (hdev : r.deviceId.toNat = d.val) (hrun : s.processRequest hw p r = s.processRWDRequest hw p d r)
    (hfits : strict → (C.devs p d).isValid →
      (Server.Aligned (C.sectorSize p d) (Server.addRequest nullCurrent r) → RequestFits p d r) ∧
        ((s.current p d).tags ≠ [] → ¬ Server.Contiguous (s.current p d) r)) :
    Booked strict p s (.request p r hw) pend := by
  by_cases hvalid : (C.devs p d).isValid
  swap
  · apply booked_refused hinv hkind 1 (by decide)
    rw [hrun, Server.processRWDRequest, if_pos hvalid]
  obtain ⟨reqs, hreqs, hperm⟩ := hinv
  have hfirst : Combined strict p d (Server.addRequest nullCurrent r) [r] :=
    combined_first hkind hvalid hdev (fun hstrict => (hfits hstrict hvalid).1)
  unfold Server.processRWDRequest at hrun
  rw [if_neg (not_not.mpr hvalid)] at hrun
  by_cases htags : (s.current p d).tags = []
  · have hnil : reqs d = [] := (hreqs d).tags_eq_nil.mp htags
    simp only [htags, ne_eq, not_true_eq_false, false_and, if_false] at hrun
    rw [(hreqs d).empty hnil] at hrun
    exact booked_add hreqs hperm hkind hrun (Grown.refl p s) (fun _ _ => rfl) (Finished.nil strict hw p)
      (by rw [hnil]) (by simp) hfirst
  by_cases hcont : Server.Contiguous (s.current p d) r
  · simp only [hcont, not_true_eq_false, and_false, if_false] at hrun
    have hne : reqs d ≠ [] := fun h => htags ((hreqs d).tags_eq_nil.mpr h)
    exact booked_add hreqs hperm hkind hrun (Grown.refl p s) (fun _ _ => rfl) (Finished.nil strict hw p)
      (List.Perm.refl _) (by simp)
      ((hreqs d).add hne hcont (fun hstrict => (hfits hstrict hvalid).2 htags hcont))
  · simp only [htags, hcont, ne_eq, not_false_eq_true, and_self, if_true] at hrun
    obtain ⟨calls, answered, hgrown, hfinished, hnull, hothers⟩ :=
      finishCurrentRequest_spec hw (hreqs d) (hpow d) true
    rw [hnull] at hrun
    exact booked_add hreqs hperm hkind hrun hgrown hothers hfinished (List.Perm.refl _) (fun _ h => h) hfirst

/-- All current requests of the port are finished, and what is sent and called besides is no matter of the books. -/
lemma booked_finish {e : C.Event} (he : e.port = p) (hinv : Batched strict p s pend)
    (hpow : ∀ d, (C.devs p d).isValid → PowerOfTwo p d) (sendResp : Bool) (calls : List C.Call)
    {responses : List BlockResponse}
    (hnext : Grown p (s.finishCurrentRequests e.hardware p sendResp) (next s e) calls responses)
    (hsame : (next s e).current p = (s.finishCurrentRequests e.hardware p sendResp).current p)
    (hnot : ∀ b ∈ responses, b.requestKind ∉ Server.rwdKinds) (hincoming : incoming e = [])
    (hsend : sendResp = false → IsReset e) (hidle : ∀ q hw, e = .noData q hw → sendResp = true)
    (hsync : ∀ c ∈ calls, ∀ a, ¬ Dma e.hardware c a) : Booked strict p s e pend := by
  obtain ⟨reqs, hreqs, hperm⟩ := hinv
  obtain ⟨calls₀, answered, hgrown, hfinished, hnull⟩ :=
    finishCurrentRequests_spec e.hardware hreqs hpow sendResp
  have hboth := hgrown.trans hnext
  subst he
  have hcurrent : ∀ d, (next s e).current e.port d = nullCurrent := fun d => (congrFun hsame d).trans (hnull d)
  have hfilter : responses.filter (fun b => decide (b.requestKind ∈ Server.rwdKinds)) = [] := by
    rw [List.filter_eq_nil_iff]
    intro b hb
    simpa using hnot b hb
  have hrwd : ∀ a ∈ answered, a.request.requestKind ∈ Server.rwdKinds := by
    intro a ha
    have ha' : a.request ∈ answered.map Answer.request := List.mem_map_of_mem ha
    rw [hfinished.requests] at ha'
    obtain ⟨d, -, hd⟩ := List.mem_flatMap.mp ha'
    exact ((hreqs d).kind _ hd).1
  have hdma : strict → ∀ c ∈ newCalls s e, ∀ a, Dma e.hardware c a → ∃ r, MayUse e pend c r ∧ Owns e.port r a := by
    intro hstrict c hc a ha
    rw [hboth.newCalls] at hc
    rcases List.mem_append.mp hc with hc | hc
    · obtain ⟨r, hr, howns, hdev, -⟩ := hfinished.dma hstrict c hc a ha
      exact ⟨r, mayUse_of_mem e (hperm.mem_iff.mpr hr) hdev, howns⟩
    · exact absurd ha (hsync c hc a)
  have hbatch : Batched strict e.port (next s e) [] := batched_null hcurrent
  cases sendResp with
  | false =>
    refine ⟨[], pend, ⟨?_, ?_, fun q hw h => absurd (hidle q hw h) (by simp), hbatch.tags⟩,
      fun hstrict => ⟨by simp, hdma hstrict⟩, ?_⟩
    · rw [hboth.newResponses]
      simpa using hfilter
    · simp [hincoming]
    · rw [if_pos (hsend rfl)]
      exact hbatch
  | true =>
    refine ⟨answered, [], ⟨?_, ?_, fun _ _ _ => rfl, hbatch.tags⟩, fun hstrict => ⟨?_, hdma hstrict⟩, ?_⟩
    · rw [hboth.newResponses, if_pos rfl, List.filter_append, hfilter, List.append_nil]
      exact filter_answers answered hrwd
    · rw [hfinished.requests, hincoming, List.append_nil, List.append_nil]
      exact hperm.symm
    · intro a ha hok
      obtain ⟨c, hc, hcov⟩ := hfinished.covered hstrict a ha hok
      rw [hboth.newCalls]
      exact ⟨c, List.mem_append_left _ hc, hcov⟩
    · rw [ite_self]
      exact hbatch

lemma rwd_not_simple {kind : RequestKind} (h : kind ∈ Server.rwdKinds) : kind ∉ Server.simpleKinds := by
  simp only [Server.rwdKinds, List.mem_cons, List.not_mem_nil, or_false] at h
  rcases h with rfl | rfl | rfl <;> decide

lemma processSimpleRequest_reset {d : C.Dev} (h : r.requestKind = RequestKind.reset) :
    s.processSimpleRequest hw p d r = (s.finishCurrentRequests hw p false).sendResponse p
      ⟨r.requestKind, r.deviceId, r.requestTag, 0⟩ := by
  simp only [Server.processSimpleRequest, h]
  rfl

lemma processSimpleRequest_sync (s : C.Server) (hw : C.Hardware) (p : C.Port) (d : C.Dev)
    (h : r.requestKind = RequestKind.sync) :
    ∃ code, s.processSimpleRequest hw p d r = ((s.finishCurrentRequests hw p true).call ⟨p, d, .sync⟩).sendResponse p
      ⟨r.requestKind, r.deviceId, r.requestTag, code⟩ := by
  simp only [Server.processSimpleRequest, h]
  exact ⟨_, rfl⟩

lemma processSimpleRequest_getSmart (s : C.Server) (hw : C.Hardware) (p : C.Port) (d : C.Dev)
    (h : r.requestKind = RequestKind.getSmart) :
    ∃ code, s.processSimpleRequest hw p d r = (s.call ⟨p, d, .getSmart ((s.current p d).bufferOffset +
      C.getShmBufferBase (C.chanIdx p))⟩).sendResponse p ⟨r.requestKind, r.deviceId, r.requestTag, code⟩ := by
  simp only [Server.processSimpleRequest, h]
  exact ⟨_, rfl⟩

lemma processSimpleRequest_info (s : C.Server) (hw : C.Hardware) (p : C.Port) (d : C.Dev)
    (hreset : r.requestKind ≠ RequestKind.reset) (hsync : r.requestKind ≠ RequestKind.sync)
    (hsmart : r.requestKind ≠ RequestKind.getSmart) :
    ∃ code, s.processSimpleRequest hw p d r =
      s.sendResponse p ⟨r.requestKind, r.deviceId, r.requestTag, code⟩ := by
  simp only [Server.processSimpleRequest, if_neg hreset, if_neg hsync, if_neg hsmart]
  split_ifs
  · exact ⟨_, rfl⟩
  · exact ⟨_, rfl⟩
  · exact ⟨_, rfl⟩
  · exact ⟨_, rfl⟩
  · exact ⟨_, rfl⟩

/-- An event that only sends a response to a request of another kind. -/
lemma booked_response (hinv : Batched strict p s pend) (hnot : r.requestKind ∉ Server.rwdKinds)
    (hreset : ¬ IsReset (C := C) (.request p r hw)) {code : Unsigned64}
    (hrun : s.processRequest hw p r = s.sendResponse p ⟨r.requestKind, r.deviceId, r.requestTag, code⟩) :
    Booked strict p s (.request p r hw) pend := by
  have hgrown := grown_sendResponse p s ⟨r.requestKind, r.deviceId, r.requestTag, code⟩
  rw [← hrun] at hgrown
  apply booked_quiet hinv hgrown (fun d => by rw [hrun]; rfl) hnot hreset
  · simp
  · simp

lemma booked_simple {d : C.Dev} (hinv : Batched strict p s pend)
    (hpow : ∀ d, (C.devs p d).isValid → PowerOfTwo p d) (hkind : r.requestKind ∈ Server.simpleKinds)
    (hdev : r.deviceId.toNat = d.val) (hrun : s.processRequest hw p r = s.processSimpleRequest hw p d r)
    (hfits : strict → r.requestKind = RequestKind.getSmart → ∀ a,
      Dma hw ⟨p, d, .getSmart ((s.current p d).bufferOffset + C.getShmBufferBase (C.chanIdx p))⟩ a →
        Owns p r a ∨ OwnsCurrent s p a) :
    Booked strict p s (.request p r hw) pend := by
  have hnot : r.requestKind ∉ Server.rwdKinds := fun h => rwd_not_simple h hkind
  have hincoming : incoming (C := C) (.request p r hw) = [] := by simp only [incoming, if_neg hnot]
  have hresponse : ∀ code, ∀ b ∈ [(⟨r.requestKind, r.deviceId, r.requestTag, code⟩ : BlockResponse)],
      b.requestKind ∉ Server.rwdKinds := by
    intro code b hb
    rw [List.mem_singleton.mp hb]
    exact hnot
  by_cases hreset : r.requestKind = RequestKind.reset
  · rw [processSimpleRequest_reset hreset] at hrun
    have hlt : r.deviceId.toNat < C.devicesMax + 1 := hdev.trans_lt d.isLt
    refine booked_finish (e := .request p r hw) rfl hinv hpow false [] ?_ ?_ (hresponse 0)
      hincoming (fun _ => ⟨hreset, hlt⟩) (fun q hw' h => by injection h) (by simp)
    · rw [next, hrun]
      exact grown_sendResponse p _ _
    · rw [next, hrun]
      rfl
  by_cases hsync : r.requestKind = RequestKind.sync
  · obtain ⟨code, hcode⟩ := processSimpleRequest_sync s hw p d hsync
    rw [hcode] at hrun
    refine booked_finish (e := .request p r hw) rfl hinv hpow true [⟨p, d, .sync⟩] ?_ ?_
      (hresponse code) hincoming (fun h => absurd h (by simp)) (fun _ _ _ => rfl) ?_
    · rw [next, hrun]
      exact (grown_call p _ _).trans (grown_sendResponse p _ _)
    · rw [next, hrun]
      rfl
    · intro c hc a ha
      rw [List.mem_singleton.mp hc] at ha
      exact ha
  have hnoreset : ¬ IsReset (C := C) (.request p r hw) := fun h => hreset h.1
  by_cases hsmart : r.requestKind = RequestKind.getSmart
  · obtain ⟨code, hcode⟩ := processSimpleRequest_getSmart s hw p d hsmart
    rw [hcode] at hrun
    have hgrown := (grown_call p s (⟨p, d, .getSmart ((s.current p d).bufferOffset +
      C.getShmBufferBase (C.chanIdx p))⟩ : C.Call)).trans
        (grown_sendResponse p _ ⟨r.requestKind, r.deviceId, r.requestTag, code⟩)
    rw [← hrun] at hgrown
    apply booked_quiet hinv hgrown (fun d => by rw [hrun]; rfl) hnot hnoreset
    · simp
    · intro hstrict c hc a ha
      rw [List.append_nil, List.mem_singleton] at hc
      subst hc
      rcases hfits hstrict hsmart a ha with howns | ⟨e, htags, i, hi, hai⟩
      · exact ⟨r, Or.inr ⟨p, hw, rfl⟩, howns⟩
      · obtain ⟨reqs, hreqs, hperm⟩ := hinv
        have hne : reqs e ≠ [] := fun h => htags ((hreqs e).tags_eq_nil.mpr h)
        obtain ⟨r', hr'⟩ := List.exists_mem_of_ne_nil _ hne
        obtain ⟨-, hcur, -⟩ := (hreqs e).single hstrict r' hr'
        rw [hcur, addRequest_null] at hi hai
        refine ⟨r', Or.inl ?_, i, hi, hai⟩
        rw [hperm.mem_iff, List.mem_flatMap]
        exact ⟨e, List.mem_finRange e, hr'⟩
  · obtain ⟨code, hcode⟩ := processSimpleRequest_info s hw p d hreset hsync hsmart
    rw [hcode] at hrun
    exact booked_response hinv hnot hnoreset hrun

lemma booked_request (hinv : Batched strict p s pend) (hpow : ∀ d, (C.devs p d).isValid → PowerOfTwo p d)
    (hfits : strict → EventFits s (.request p r hw)) : Booked strict p s (.request p r hw) pend := by
  by_cases hlt : r.deviceId.toNat < C.devicesMax + 1
  · by_cases hrwd : r.requestKind ∈ Server.rwdKinds
    · apply booked_rwd (d := ⟨r.deviceId.toNat, hlt⟩) hinv hpow hrwd rfl
      · simp only [Server.processRequest]
        rw [dif_pos hlt, if_pos hrwd]
      · exact fun hstrict => (hfits hstrict _ rfl).1 hrwd
    · by_cases hsimple : r.requestKind ∈ Server.simpleKinds
      · apply booked_simple (d := ⟨r.deviceId.toNat, hlt⟩) hinv hpow hsimple rfl
        · simp only [Server.processRequest]
          rw [dif_pos hlt, if_neg hrwd, if_pos hsimple]
        · exact fun hstrict => (hfits hstrict _ rfl).2
      · have hrun : s.processRequest hw p r = s := by
          simp only [Server.processRequest]
          rw [dif_pos hlt, if_neg hrwd, if_neg hsimple]
        have hgrown := Grown.refl p s
        nth_rewrite 2 [← hrun] at hgrown
        apply booked_quiet hinv hgrown (fun d => by rw [hrun]) hrwd
        · rintro ⟨hreset, -⟩
          rw [hreset] at hsimple
          exact hsimple (by decide)
        · simp
        · simp
  · have hrun : s.processRequest hw p r =
        s.sendResponse p ⟨r.requestKind, r.deviceId, r.requestTag, Server.invalidStatus r.requestKind⟩ := by
      simp only [Server.processRequest]
      rw [dif_neg hlt]
    by_cases hrwd : r.requestKind ∈ Server.rwdKinds
    · refine booked_refused hinv hrwd _ ?_ hrun
      simp only [Server.rwdKinds, List.mem_cons, List.not_mem_nil, or_false] at hrwd
      rcases hrwd with hk | hk | hk <;> rw [hk] <;> decide
    · exact booked_response hinv hrwd (fun h => hlt h.2) hrun

lemma booked_noData (hinv : Batched strict p s pend) (hpow : ∀ d, (C.devs p d).isValid → PowerOfTwo p d) :
    Booked strict p s (.noData p hw) pend :=
  booked_finish (e := .noData p hw) rfl hinv hpow true [] (Grown.refl p _) rfl (by simp) rfl
    (fun h => absurd h (by simp)) (fun _ _ _ => rfl) (by simp)

lemma booked_event {e : C.Event} (he : e.port = p) (hinv : Batched strict p s pend)
    (hpow : ∀ d, (C.devs p d).isValid → PowerOfTwo p d) (hfits : strict → EventFits s e) : Booked strict p s e pend := by
  subst he
  cases e with
  | request q r hw => exact booked_request hinv hpow hfits
  | noData q hw => exact booked_noData hinv hpow

end Event

/-! ### Runs -/

/-- The current requests of other ports are the same. -/
def Elsewhere (p : C.Port) (s s' : C.Server) : Prop := ∀ q, q ≠ p → s'.current q = s.current q

lemma Elsewhere.refl (p : C.Port) (s : C.Server) : Elsewhere p s s := fun _ _ => rfl

lemma Elsewhere.trans {p : C.Port} {s₁ s₂ s₃ : C.Server} (h : Elsewhere p s₁ s₂) (h' : Elsewhere p s₂ s₃) :
    Elsewhere p s₁ s₃ := fun q hq => (h' q hq).trans (h q hq)

lemma Grown.elsewhere {p : C.Port} {s s' : C.Server} {calls : List C.Call} {responses : List BlockResponse}
    (h : Grown p s s' calls responses) : Elsewhere p s s' := h.others

lemma elsewhere_answer (s : C.Server) (p : C.Port) (d : C.Dev) (sendResp : Bool) (ret : Status) :
    Elsewhere p s (s.answer p d sendResp ret) := by
  unfold Server.answer
  cases sendResp with
  | false => exact (grown_setCurrent p s d nullCurrent).elsewhere
  | true => exact (grown_sendResponses p s _ ret).1.elsewhere.trans (grown_setCurrent p _ d nullCurrent).elsewhere

lemma elsewhere_finishCurrentRequest (s : C.Server) (hw : C.Hardware) (p : C.Port) (d : C.Dev) (sendResp : Bool) :
    Elsewhere p s (s.finishCurrentRequest hw p d sendResp) := by
  unfold Server.finishCurrentRequest
  simp only
  split_ifs
  · exact (grown_setCurrent p s d nullCurrent).elsewhere
  · cases Server.currentOperation p d (s.current p d) with
    | none => exact (grown_setCurrent p s d nullCurrent).elsewhere
    | some operation => exact (grown_call p s _).elsewhere.trans (elsewhere_answer _ p d sendResp _)
  · exact elsewhere_answer s p d sendResp .eio

lemma elsewhere_finishCurrentRequests (s : C.Server) (hw : C.Hardware) (p : C.Port) (sendResp : Bool) :
    Elsewhere p s (s.finishCurrentRequests hw p sendResp) := by
  unfold Server.finishCurrentRequests
  induction List.finRange (C.devicesMax + 1) generalizing s with
  | nil => exact Elsewhere.refl p s
  | cons d ds ih =>
    rw [List.foldl_cons]
    split_ifs
    · exact (elsewhere_finishCurrentRequest s hw p d sendResp).trans (ih _)
    · exact ih s

lemma elsewhere_processSimpleRequest (s : C.Server) (hw : C.Hardware) (p : C.Port) (d : C.Dev) (r : BlockRequest) :
    Elsewhere p s (s.processSimpleRequest hw p d r) := by
  by_cases hreset : r.requestKind = RequestKind.reset
  · rw [processSimpleRequest_reset hreset]
    exact (elsewhere_finishCurrentRequests s hw p false).trans (grown_sendResponse p _ _).elsewhere
  by_cases hsync : r.requestKind = RequestKind.sync
  · obtain ⟨code, hcode⟩ := processSimpleRequest_sync s hw p d hsync
    rw [hcode]
    exact (elsewhere_finishCurrentRequests s hw p true).trans
      ((grown_call p _ _).trans (grown_sendResponse p _ _)).elsewhere
  by_cases hsmart : r.requestKind = RequestKind.getSmart
  · obtain ⟨code, hcode⟩ := processSimpleRequest_getSmart s hw p d hsmart
    rw [hcode]
    exact ((grown_call p s _).trans (grown_sendResponse p _ _)).elsewhere
  · obtain ⟨code, hcode⟩ := processSimpleRequest_info s hw p d hreset hsync hsmart
    rw [hcode]
    exact (grown_sendResponse p s _).elsewhere

lemma elsewhere_processRWDRequest (s : C.Server) (hw : C.Hardware) (p : C.Port) (d : C.Dev) (r : BlockRequest) :
    Elsewhere p s (s.processRWDRequest hw p d r) := by
  unfold Server.processRWDRequest
  simp only
  split_ifs
  · exact (elsewhere_finishCurrentRequest s hw p d true).trans (grown_setCurrent p _ d _).elsewhere
  · exact (grown_setCurrent p s d _).elsewhere
  · exact (grown_sendResponse p s _).elsewhere

lemma elsewhere_next (s : C.Server) (e : C.Event) : Elsewhere e.port s (next s e) := by
  cases e with
  | request p r hw =>
    simp only [next, Server.processRequest]
    split_ifs
    · exact elsewhere_processRWDRequest s hw p _ r
    · exact elsewhere_processSimpleRequest s hw p _ r
    · exact Elsewhere.refl p s
    · exact (grown_sendResponse p s _).elsewhere
  | noData p hw => exact elsewhere_finishCurrentRequests s hw p true

lemma books_of_batched {strict : Prop} {p : C.Port} (hpow : ∀ d, (C.devs p d).isValid → PowerOfTwo p d)
    (es : List C.Event) {s : C.Server} {pend : List BlockRequest} (hinv : Batched strict p s pend)
    (hfits : strict → RunFits p s es) : Books strict p s pend es := by
  induction es generalizing s pend with
  | nil => trivial
  | cons e es ih =>
    unfold Books
    by_cases he : e.port = p
    · rw [if_pos he]
      obtain ⟨answered, left, haccounted, hserved, hbatched⟩ :=
        booked_event he hinv hpow (fun hstrict => (hfits hstrict).1 he)
      exact ⟨answered, left, haccounted, hserved, ih hbatched (fun hstrict => (hfits hstrict).2)⟩
    · rw [if_neg he]
      apply ih _ (fun hstrict => (hfits hstrict).2)
      obtain ⟨reqs, hreqs, hperm⟩ := hinv
      refine ⟨reqs, fun d => ?_, hperm⟩
      rw [elsewhere_next s e p (Ne.symm he)]
      exact hreqs d

/-- In every run each request is accounted for, and the requests are served when all of them fit. -/
theorem books_served (C : Config) {p : C.Port} (hpow : ∀ d, (C.devs p d).isValid → PowerOfTwo p d)
    (es : List C.Event) :
    Books False p C.initServer [] es ∧ (RunFits p C.initServer es → Books True p C.initServer [] es) := by
  have hinit : ∀ strict, Batched strict p C.initServer [] := fun strict => batched_null (fun _ => rfl)
  exact ⟨books_of_batched hpow es (hinit False) False.elim,
    fun hfits => books_of_batched hpow es (hinit True) (fun _ => hfits)⟩

end Config

/-- Requests of the first client of which no one continues another one, with a reset behind the second one and a
request of the second client between them. -/
def servedRequests : List twoClients.Event :=
  [.request firstClient ⟨RequestKind.read, 0, 1, 512, 2047, 0⟩ (goodHardware _),
    .request secondClient ⟨RequestKind.read, 0, 1, 512, 0, 0⟩ (goodHardware _),
    .request firstClient ⟨RequestKind.write, 0, 2, 1024, 16, 512⟩ (goodHardware _),
    .request firstClient ⟨RequestKind.reset, 0, 3, 0, 0, 0⟩ (goodHardware _),
    .request firstClient ⟨RequestKind.discard, 0, 4, 4096, 0, 0⟩ (goodHardware _),
    .noData firstClient (goodHardware _)]

/-- A request of the first client for at most 32 whole sectors, which does not continue the current one. -/
lemma twoClients_fits {s : twoClients.Server} {r : BlockRequest} {hw : twoClients.Hardware}
    (hlength : 0 < r.requestLength.toNat ∧ 512 ∣ r.requestLength.toNat ∧ r.requestLength.toNat ≤ 0x4000)
    (heven : (r.bufferOffset + 0x10000000).toNat % 2 = 0) (hkind : r.requestKind ≠ RequestKind.getSmart)
    (hnew : (s.current firstClient onlyDev).tags = [] ∨ ¬ Config.Server.Contiguous (s.current firstClient onlyDev) r) :
    Config.EventFits (C := twoClients) s (.request firstClient r hw) := by
  intro d _
  obtain rfl : d = onlyDev := Subsingleton.elim (α := Fin 1) _ _
  have hsmall : r.requestLength.toNat ≤ 0x2000000 := hlength.2.2.trans (by decide)
  have hcount : r.requestLength.toNat / 512 < 2 ^ 32 := (Nat.div_le_self _ _).trans_lt (hsmall.trans_lt (by decide))
  refine ⟨fun _ _ => ⟨fun _ => ⟨fun _ => .inr ⟨hlength.1, hlength.2.1, hsmall, heven⟩, fun _ => ⟨hlength.2.1, hcount⟩⟩,
    fun htags => hnew.resolve_left htags⟩, fun h => absurd h hkind⟩

lemma servedRequests_fits : Config.RunFits firstClient twoClients.initServer servedRequests := by
  refine ⟨fun _ => ?_, fun h => absurd h (by decide), fun _ => ?_, fun _ d _ => ?_, fun _ => ?_,
    fun _ => trivial, trivial⟩
  · exact twoClients_fits (by decide) (by decide) (by decide) (by decide)
  · exact twoClients_fits (by decide) (by decide) (by decide) (by decide)
  · exact ⟨fun h => absurd h (by decide), fun h => absurd h (by decide)⟩
  · exact twoClients_fits (by decide) (by decide) (by decide) (by decide)

/-- The requests are served, with the write executed at the reset and not answered; requests of both clients, of which
two are combined, are accounted for. -/
theorem books_served_last :
    (Config.Books True firstClient twoClients.initServer [] servedRequests ∧
      (servedRequests.foldl Config.next twoClients.initServer).calls =
        [⟨firstClient, onlyDev, .rwSectors .read 4095 1 0x10000000⟩,
          ⟨firstClient, onlyDev, .rwSectors .write 2064 2 0x10000200⟩,
          ⟨firstClient, onlyDev, .discardSectors 2048 8⟩] ∧
      ((servedRequests.foldl Config.next twoClients.initServer).responses firstClient).map
        BlockResponse.requestTag = [1, 3, 4]) ∧
    Config.Books False firstClient twoClients.initServer [] interleavedRequests ∧
    (interleavedRequests.foldl Config.next twoClients.initServer).calls =
      [⟨firstClient, onlyDev, .rwSectors .read 2048 2 0x10000000⟩,
        ⟨secondClient, onlyDev, .rwSectors .write 6143 1 0x11000800⟩] ∧
    ((interleavedRequests.foldl Config.next twoClients.initServer).responses firstClient).map
      BlockResponse.requestTag = [1, 2] :=
  ⟨⟨(twoClients.books_served (p := firstClient) (fun _ _ => rfl) _).2 servedRequests_fits, by decide, by decide⟩,
    (twoClients.books_served (p := firstClient) (fun _ _ => rfl) _).1, by decide, by decide⟩

/-- A request for SMART data, with a buffer behind the first page of the client's memory. -/
def smartEvent : twoClients.Event :=
  .request firstClient ⟨RequestKind.getSmart, 0, 1, 512, 0, 0x1000⟩ (goodHardware _)

/-- SMART data is written to the start of the memory of the client, not to the buffer of the request. -/
theorem books_not_served : ¬ Config.Books True firstClient twoClients.initServer [] [smartEvent] := by
  intro h
  have hport : smartEvent.port = firstClient := rfl
  unfold Config.Books at h
  rw [if_pos hport] at h
  obtain ⟨answered, left, -, hserved, -⟩ := h
  have hcalls : Config.newCalls twoClients.initServer smartEvent =
      [⟨firstClient, onlyDev, .getSmart 0x10000000⟩] := by decide
  have hdma : Config.Dma (C := twoClients) smartEvent.hardware ⟨firstClient, onlyDev, .getSmart 0x10000000⟩
      0x10000000 := ⟨by decide, 0, by decide, by decide⟩
  obtain ⟨r, huse, i, hi, haddress⟩ := (hserved trivial).dma ⟨firstClient, onlyDev, .getSmart 0x10000000⟩
    (by rw [hcalls]; exact List.mem_singleton_self _) 0x10000000 hdma
  rcases huse with hmem | ⟨q, hw, hr⟩
  · exact absurd hmem (by simp)
  · injection hr with _ hr _
    subst hr
    have hlength : i < 512 := hi
    have hne : ∀ i < 512, (0x10000000 : Unsigned64) ≠ 0x1000 +
        twoClients.getShmBufferBase (twoClients.chanIdx firstClient) + BitVec.ofNat 64 i := by decide +kernel
    exact hne i hlength haddress

end Muen.Components.Ahci
