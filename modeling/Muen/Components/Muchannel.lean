import Muen.Lib.Machine
import Mathlib.Data.BitVec
import Mathlib.Tactic

/-!
# Muchannel

SHMStream channels: one writer and one reader of a header and a ring of elements in shared memory.
Every access to a header field and every copy of an element is one step, and the steps of the two
sides interleave in any order. The first access of a procedure is made by the step that calls it.

The epochs that came into force and the elements written in each of them are recorded beside the
channel. A read that returns success with a non-null epoch returns the element that its read
counter designates among those of the epoch.
-/

namespace Muen.Components.Muchannel
open Muen.Lib

abbrev HeaderField := BitVec 64

/-- The parameters of the generic package. -/
structure Instance (α : Type) where
  elements : Nat
  elements_pos : 0 < elements
  elements_lt : elements < 2 ^ 31
  nullElement : α
  protocol : HeaderField
  elementSize : HeaderField

def shmStreamMarker : HeaderField := 0x487312b6b79a9b6d

def nullEpoch : HeaderField := 0

structure Header where
  transport : HeaderField
  epoch : HeaderField
  protocol : HeaderField
  size : HeaderField
  elements : HeaderField
  reserved : HeaderField
  wsc : HeaderField
  wc : HeaderField

variable {α : Type} (C : Instance α)

structure Channel where
  header : Header
  data : Fin C.elements → α

/-- The slot of the element with the given number. -/
def position (count : HeaderField) : Fin C.elements :=
  ⟨count.toNat % C.elements, Nat.mod_lt _ C.elements_pos⟩

/-! ### The writer -/

/-- A store of `Initialize` between the two stores to the epoch. -/
inductive Store where
  | transport | protocol | size | elements | reserved | wsc | wc
  | data (i : Fin C.elements)

variable {C}

def Store.apply (channel : Channel C) : Store C → Channel C
  | .transport => { channel with header := { channel.header with transport := shmStreamMarker } }
  | .protocol => { channel with header := { channel.header with protocol := C.protocol } }
  | .size => { channel with header := { channel.header with size := C.elementSize } }
  | .elements => { channel with header := { channel.header with elements := BitVec.ofNat 64 C.elements } }
  | .reserved => { channel with header := { channel.header with reserved := 0 } }
  | .wsc => { channel with header := { channel.header with wsc := 0 } }
  | .wc => { channel with header := { channel.header with wc := 0 } }
  | .data i => { channel with data := Function.update channel.data i C.nullElement }

variable (C)

/-- The body of `Initialize` between the two stores to the epoch. -/
def initialization : List (Store C) :=
  [.transport, .protocol, .size, .elements, .reserved, .wsc, .wc] ++
    (List.finRange C.elements).map Store.data

/-- Where the writer stands, with its local variables. -/
inductive Writer where
  | idle
  | initializing (stores : List (Store C)) (epoch : HeaderField)
  | startCount (wc : HeaderField) (position : Fin C.elements) (element : α)
  | copy (wc : HeaderField) (position : Fin C.elements) (element : α)
  | count (wc : HeaderField)

/-! ### The reader -/

inductive Result where
  | inactive | incompatibleInterface | epochChanged | noData | overrunDetected | success
deriving DecidableEq, Repr

structure Reader where
  epoch : HeaderField
  protocol : HeaderField
  size : HeaderField
  elements : HeaderField
  rc : HeaderField
deriving DecidableEq, Repr

def nullReader : Reader := ⟨nullEpoch, 0, 0, 0, 0⟩

def hasEpochChanged (channelEpoch : HeaderField) (reader : Reader) : Bool := reader.epoch ≠ channelEpoch

def isValid (cProtocol cSize eSize eCount : HeaderField) : Bool :=
  eSize * eCount = cSize ∧ cProtocol = C.protocol

/-- The access that `Read` makes next. -/
inductive ReaderPc where
  | idle | isActive | transport | protocol | size | elements | epoch | recheck
  | count | copy | startCount | recover | check
deriving DecidableEq, Repr

/-- What a call of `Read` returned, with the read counter before the call and whether the call
synchronised with the epoch of the channel. -/
structure Outcome (α : Type) where
  result : Result
  epoch : HeaderField
  element : α
  rcBefore : HeaderField
  synchronised : Bool
deriving DecidableEq

structure Read (α : Type) where
  pc : ReaderPc
  reader : Reader
  channelEpoch : HeaderField
  transport : HeaderField
  element : α
  result : Result
  rcBefore : HeaderField
  synchronised : Bool
  outcome : Option (Outcome α)

def Read.ret (r : Read α) (result : Result) : Read α :=
  { r with
    pc := .idle
    result := result
    outcome := some ⟨result, r.reader.epoch, r.element, r.rcBefore, r.synchronised⟩ }

variable {C}

def readStep (channel : Channel C) (r : Read α) : Read α :=
  let h := channel.header
  match r.pc with
  | .idle =>
    { r with
      pc := .isActive
      channelEpoch := h.epoch
      element := C.nullElement
      rcBefore := r.reader.rc
      synchronised := false
      outcome := none }
  | .isActive =>
    if h.epoch = nullEpoch then
      Read.ret { r with reader := { r.reader with epoch := nullEpoch } } .inactive
    else if r.reader.epoch = nullEpoch ∨ hasEpochChanged r.channelEpoch r.reader then
      { r with pc := .transport, synchronised := true }
    else { r with pc := .count }
  | .transport => { r with pc := .protocol, transport := h.transport }
  | .protocol => { r with pc := .size, reader := { r.reader with protocol := h.protocol } }
  | .size => { r with pc := .elements, reader := { r.reader with size := h.size } }
  | .elements =>
    let reader := { r.reader with elements := h.elements }
    if r.transport = shmStreamMarker ∧ isValid C reader.protocol
        (BitVec.ofNat 64 C.elements * C.elementSize) reader.size reader.elements then
      { r with pc := .epoch, reader := reader }
    else Read.ret { r with reader := nullReader } .incompatibleInterface
  | .epoch => { r with pc := .recheck, reader := { r.reader with epoch := h.epoch, rc := 0 } }
  | .recheck =>
    if hasEpochChanged h.epoch r.reader then Read.ret { r with channelEpoch := h.epoch } .epochChanged
    else { r with pc := .count, channelEpoch := h.epoch, result := .success }
  | .count => if r.reader.rc ≥ h.wc then Read.ret r .noData else { r with pc := .copy }
  | .copy => { r with pc := .startCount, element := channel.data (position C r.reader.rc) }
  | .startCount =>
    if h.wsc > r.reader.rc + r.reader.elements then { r with pc := .recover, result := .overrunDetected }
    else { r with pc := .check, result := .success, reader := { r.reader with rc := r.reader.rc + 1 } }
  | .recover => { r with pc := .check, reader := { r.reader with rc := h.wc } }
  | .check =>
    let r := { r with channelEpoch := h.epoch }
    Read.ret r (if hasEpochChanged h.epoch r.reader then .epochChanged else r.result)

/-! ### The two sides together -/

variable (C)

structure State where
  channel : Channel C
  writer : Writer C
  read : Read α
  /-- The epochs of completed initialisations. -/
  epochs : List HeaderField
  /-- The elements of the calls of `Write` made in each epoch. -/
  writes : HeaderField → List α

inductive Action (α : Type) where
  | initializeChannel (epoch : HeaderField)
  | write (element : α)
  | deactivate
  /-- The next access of the procedure that the writer executes. -/
  | writer
  /-- The next access of `Read`; in between calls, the first access of a new one. -/
  | reader

variable {C}

def Channel.setEpoch (channel : Channel C) (epoch : HeaderField) : Channel C :=
  { channel with header := { channel.header with epoch := epoch } }

def writerStep (s : State C) : Option (State C) :=
  let channel := s.channel
  match s.writer with
  | .idle => none
  | .initializing (store :: stores) epoch =>
    some { s with channel := store.apply channel, writer := .initializing stores epoch }
  | .initializing [] epoch =>
    some { s with channel := channel.setEpoch epoch, writer := .idle, epochs := epoch :: s.epochs }
  | .startCount wc position element =>
    some { s with
      channel := { channel with header := { channel.header with wsc := wc } }
      writer := .copy wc position element }
  | .copy wc position element =>
    some { s with
      channel := { channel with data := Function.update channel.data position element }
      writer := .count wc }
  | .count wc =>
    some { s with
      channel := { channel with header := { channel.header with wc := wc } }
      writer := .idle }

/-- Record a call of `Write` under the epoch in force, if there is one. -/
def recordWrite (epoch : HeaderField) (element : α) (writes : HeaderField → List α) : HeaderField → List α :=
  if epoch = nullEpoch then writes else Function.update writes epoch (writes epoch ++ [element])

def step (s : State C) : Action α → Option (State C)
  | .initializeChannel epoch =>
    match s.writer with
    | .idle =>
      if epoch ≠ nullEpoch ∧ epoch ∉ s.epochs then
        some { s with channel := s.channel.setEpoch nullEpoch, writer := .initializing (initialization C) epoch }
      else none
    | _ => none
  | .write element =>
    match s.writer with
    | .idle =>
      let wc := s.channel.header.wc
      some { s with
        writer := .startCount (wc + 1) (position C wc) element
        writes := recordWrite s.channel.header.epoch element s.writes }
    | _ => none
  | .deactivate =>
    match s.writer with
    | .idle => some { s with channel := s.channel.setEpoch nullEpoch }
    | _ => none
  | .writer => writerStep s
  | .reader => some { s with read := readStep s.channel s.read }

/-- A channel that is not in use, and a reader that has not read. -/
structure Initial (s : State C) : Prop where
  epoch_eq : s.channel.header.epoch = nullEpoch
  writer_eq : s.writer = .idle
  pc_eq : s.read.pc = .idle
  reader_eq : s.read.reader = nullReader
  outcome_eq : s.read.outcome = none
  epochs_eq : s.epochs = []
  writes_eq : s.writes = fun _ => []

/-- The write counter of an epoch does not run over. -/
def Counts (s : State C) : Action α → Prop
  | .write _ => s.channel.header.epoch ≠ nullEpoch → (s.writes s.channel.header.epoch).length + 1 < 2 ^ 64
  | _ => True

instance (s : State C) : (a : Action α) → Decidable (Counts s a)
  | .write _ => inferInstanceAs (Decidable (_ → _))
  | .initializeChannel _ | .deactivate | .writer | .reader => inferInstanceAs (Decidable True)

/-- The number of the element that a successful read returned: the read counter before the call,
which a synchronising call resets. -/
def Outcome.index (o : Outcome α) : Nat := if o.synchronised then 0 else o.rcBefore.toNat

/-- A successful read under a non-null epoch returned the element it should. -/
def Delivered (epochs : List HeaderField) (writes : HeaderField → List α) (o : Outcome α) : Prop :=
  o.result = .success → o.epoch ≠ nullEpoch →
    o.epoch ∈ epochs ∧ (writes o.epoch)[o.index]? = some o.element

/-! ### What holds of the writer's side -/

def Formatted (h : Header) : Prop :=
  h.transport = shmStreamMarker ∧ h.protocol = C.protocol ∧ h.size = C.elementSize ∧
    h.elements = BitVec.ofNat 64 C.elements

/-- Completed writes whose slot has not been claimed again are in the ring. -/
def Slots (channel : Channel C) (written : List α) : Prop :=
  ∀ k < channel.header.wc.toNat, channel.header.wsc.toNat ≤ k + C.elements →
    written[k]? = some (channel.data ⟨k % C.elements, Nat.mod_lt _ C.elements_pos⟩)

/-- The counters, the ring and the recorded writes while an epoch is in force, for each place at
which the writer can be then. -/
def Counted (channel : Channel C) (written : List α) : Writer C → Prop
  | .idle => channel.header.wc.toNat = written.length ∧ channel.header.wsc = channel.header.wc
  | .initializing _ _ => False
  | .startCount wc position element =>
    channel.header.wc.toNat + 1 = wc.toNat ∧ written.length = wc.toNat ∧ channel.header.wsc = channel.header.wc ∧
      position.val = channel.header.wc.toNat % C.elements ∧ written[channel.header.wc.toNat]? = some element
  | .copy wc position element =>
    channel.header.wc.toNat + 1 = wc.toNat ∧ written.length = wc.toNat ∧ channel.header.wsc = wc ∧
      position.val = channel.header.wc.toNat % C.elements ∧ written[channel.header.wc.toNat]? = some element
  | .count wc =>
    channel.header.wc.toNat + 1 = wc.toNat ∧ written.length = wc.toNat ∧ channel.header.wsc = wc ∧
      written[channel.header.wc.toNat]? = some (channel.data (position C channel.header.wc))

/-- An initialisation under way has a new epoch and ends in a formatted header with null counters. -/
def Initializing (channel : Channel C) (epochs : List HeaderField) (writes : HeaderField → List α) :
    Writer C → Prop
  | .initializing stores epoch =>
    channel.header.epoch = nullEpoch ∧ epoch ≠ nullEpoch ∧ epoch ∉ epochs ∧ writes epoch = [] ∧
      Formatted (C := C) (stores.foldl Store.apply channel).header ∧
      (stores.foldl Store.apply channel).header.wsc = 0 ∧ (stores.foldl Store.apply channel).header.wc = 0
  | _ => True

structure WriterInv (s : State C) : Prop where
  epoch_mem : s.channel.header.epoch ≠ nullEpoch → s.channel.header.epoch ∈ s.epochs
  formatted : s.channel.header.epoch ≠ nullEpoch → Formatted (C := C) s.channel.header
  unwritten : ∀ e, e ∉ s.epochs → s.writes e = []
  counted : s.channel.header.epoch ≠ nullEpoch → Counted s.channel (s.writes s.channel.header.epoch) s.writer
  slots : s.channel.header.epoch ≠ nullEpoch → Slots s.channel (s.writes s.channel.header.epoch)
  init : Initializing s.channel s.epochs s.writes s.writer

/-- What a step of the writer can do to an epoch that has been in force. -/
structure Advances (s s' : State C) : Prop where
  epochs_subset : ∀ e ∈ s.epochs, e ∈ s'.epochs
  formatted : Formatted (C := C) s.channel.header → Formatted (C := C) s'.channel.header
  writes_grow : ∀ e, s.writes e <+: s'.writes e
  same_epoch : ∀ e ∈ s.epochs, e ≠ nullEpoch → s'.channel.header.epoch = e → s.channel.header.epoch = e
  wc_le : ∀ e ∈ s.epochs, e ≠ nullEpoch → s'.channel.header.epoch = e →
    s.channel.header.wc.toNat ≤ s'.channel.header.wc.toNat
  wsc_le : ∀ e ∈ s.epochs, e ≠ nullEpoch → s'.channel.header.epoch = e →
    s.channel.header.wsc.toNat ≤ s'.channel.header.wsc.toNat

lemma Store.apply_epoch (store : Store C) (channel : Channel C) :
    (store.apply channel).header.epoch = channel.header.epoch := by
  cases store <;> rfl

lemma Store.apply_formatted (store : Store C) {channel : Channel C}
    (h : Formatted (C := C) channel.header) : Formatted (C := C) (store.apply channel).header := by
  obtain ⟨h1, h2, h3, h4⟩ := h
  cases store <;> simp [Formatted, Store.apply, h1, h2, h3, h4]

lemma foldl_data_header (l : List (Fin C.elements)) (channel : Channel C) :
    ((l.map Store.data).foldl Store.apply channel).header = channel.header := by
  induction l generalizing channel with
  | nil => rfl
  | cons i l ih =>
    rw [List.map_cons, List.foldl_cons, ih]
    rfl

lemma initialization_header (channel : Channel C) :
    ((initialization C).foldl Store.apply channel).header =
      ⟨shmStreamMarker, channel.header.epoch, C.protocol, C.elementSize, BitVec.ofNat 64 C.elements, 0, 0, 0⟩ := by
  rw [initialization, List.foldl_append, foldl_data_header]
  rfl

/-- A step after which no epoch is in force. -/
lemma advances_of_null {s s' : State C} (hepochs : s'.epochs = s.epochs) (hwrites : s'.writes = s.writes)
    (hformat : Formatted (C := C) s.channel.header → Formatted (C := C) s'.channel.header)
    (hnull : s'.channel.header.epoch = nullEpoch) : Advances s s' where
  epochs_subset := fun e he => by rw [hepochs]; exact he
  formatted := hformat
  writes_grow := fun e => by rw [hwrites]
  same_epoch := fun e _ hne heq => absurd (heq.symm.trans hnull) hne
  wc_le := fun e _ hne heq => absurd (heq.symm.trans hnull) hne
  wsc_le := fun e _ hne heq => absurd (heq.symm.trans hnull) hne

lemma writerInv_of_null {s : State C} (hnull : s.channel.header.epoch = nullEpoch)
    (hunwritten : ∀ e, e ∉ s.epochs → s.writes e = [])
    (hinit : Initializing s.channel s.epochs s.writes s.writer) : WriterInv s where
  epoch_mem := fun h => absurd hnull h
  formatted := fun h => absurd hnull h
  unwritten := hunwritten
  counted := fun h => absurd hnull h
  slots := fun h => absurd hnull h
  init := hinit

lemma initialize_inv {s s' : State C} {epoch : HeaderField} (hinv : WriterInv s)
    (h : step s (.initializeChannel epoch) = some s') :
    WriterInv s' ∧ Advances s s' ∧ s'.read = s.read := by
  cases hw : s.writer with
  | idle =>
    simp only [step, hw] at h
    split_ifs at h with hnew
    obtain rfl := Option.some.inj h
    have hheader := initialization_header (s.channel.setEpoch nullEpoch)
    refine ⟨writerInv_of_null rfl hinv.unwritten ?_, advances_of_null rfl rfl (fun hf => hf) rfl, rfl⟩
    refine ⟨rfl, hnew.1, hnew.2, hinv.unwritten epoch hnew.2, ?_, ?_, ?_⟩
    · rw [hheader]
      exact ⟨rfl, rfl, rfl, rfl⟩
    · rw [hheader]
    · rw [hheader]
  | initializing | startCount | copy | count => simp [step, hw] at h

lemma deactivate_inv {s s' : State C} (hinv : WriterInv s) (h : step s .deactivate = some s') :
    WriterInv s' ∧ Advances s s' ∧ s'.read = s.read := by
  cases hw : s.writer with
  | idle =>
    simp only [step, hw] at h
    obtain rfl := Option.some.inj h
    refine ⟨writerInv_of_null rfl hinv.unwritten ?_, advances_of_null rfl rfl (fun hf => hf) rfl, rfl⟩
    simp only
    trivial
  | initializing | startCount | copy | count => simp [step, hw] at h

lemma writes_le_recordWrite (epoch : HeaderField) (element : α) (writes : HeaderField → List α) (e : HeaderField) :
    writes e <+: recordWrite epoch element writes e := by
  unfold recordWrite
  by_cases hnull : epoch = nullEpoch
  · rw [if_pos hnull]
  · rw [if_neg hnull]
    by_cases he : e = epoch
    · rw [he, Function.update_self]
      exact List.prefix_append _ _
    · rw [Function.update_of_ne he]

lemma getElem?_of_isPrefix {l m : List α} (h : l <+: m) {k : Nat} {x : α} (hx : l[k]? = some x) :
    m[k]? = some x := by
  obtain ⟨t, rfl⟩ := h
  obtain ⟨hk, -⟩ := List.getElem?_eq_some_iff.mp hx
  rw [List.getElem?_append_left hk]
  exact hx

lemma write_inv {s s' : State C} {element : α} (hinv : WriterInv s) (hcounts : Counts s (.write element))
    (h : step s (.write element) = some s') : WriterInv s' ∧ Advances s s' ∧ s'.read = s.read := by
  cases hw : s.writer with
  | idle =>
    simp only [step, hw] at h
    obtain rfl := Option.some.inj h
    have hadv : Advances s { s with
        writer := .startCount (s.channel.header.wc + 1) (position C s.channel.header.wc) element
        writes := recordWrite s.channel.header.epoch element s.writes } :=
      ⟨fun _ he => he, fun hf => hf, writes_le_recordWrite _ _ _, fun _ _ _ he => he, fun _ _ _ _ => le_refl _,
        fun _ _ _ _ => le_refl _⟩
    refine ⟨⟨hinv.epoch_mem, hinv.formatted, ?_, ?_, ?_, trivial⟩, hadv, rfl⟩
    · intro e he
      have hold := hinv.unwritten e he
      by_cases hnull : s.channel.header.epoch = nullEpoch
      · simpa only [recordWrite, if_pos hnull] using hold
      · have hne : e ≠ s.channel.header.epoch := fun heq => he (heq ▸ hinv.epoch_mem hnull)
        simpa only [recordWrite, if_neg hnull, Function.update_of_ne hne] using hold
    · intro hepoch
      have hlt := hcounts hepoch
      obtain ⟨hwc, hwsc⟩ : s.channel.header.wc.toNat = (s.writes s.channel.header.epoch).length ∧
          s.channel.header.wsc = s.channel.header.wc := by
        simpa only [hw, Counted] using hinv.counted hepoch
      have hsucc : (s.channel.header.wc + 1).toNat = s.channel.header.wc.toNat + 1 := by bv_omega
      simp only [recordWrite, if_neg hepoch, Function.update_self]
      refine ⟨hsucc.symm, ?_, hwsc, rfl, ?_⟩
      · rw [List.length_append, List.length_singleton, hsucc, hwc]
      · rw [hwc, List.getElem?_concat_length]
    · intro hepoch k hk hclaimed
      have hold := hinv.slots hepoch k hk hclaimed
      exact getElem?_of_isPrefix (writes_le_recordWrite _ element s.writes _) hold
  | initializing | startCount | copy | count => simp [step, hw] at h

lemma initializing_inv {s s' : State C} {stores : List (Store C)} {epoch : HeaderField} (hinv : WriterInv s)
    (hw : s.writer = .initializing stores epoch) (h : writerStep s = some s') :
    WriterInv s' ∧ Advances s s' ∧ s'.read = s.read := by
  have hi := hinv.init
  rw [hw] at hi
  obtain ⟨hnull, hne, hnew, hnone, hformat, hwsc, hwc⟩ := hi
  cases stores with
  | cons store stores =>
    simp only [writerStep, hw] at h
    obtain rfl := Option.some.inj h
    have hnull' : (store.apply s.channel).header.epoch = nullEpoch := (store.apply_epoch s.channel).trans hnull
    exact ⟨writerInv_of_null hnull' hinv.unwritten ⟨hnull', hne, hnew, hnone, hformat, hwsc, hwc⟩,
      advances_of_null rfl rfl store.apply_formatted hnull', rfl⟩
  | nil =>
    simp only [writerStep, hw] at h
    obtain rfl := Option.some.inj h
    rw [List.foldl_nil] at hformat hwsc hwc
    refine ⟨⟨fun _ => List.mem_cons_self, fun _ => hformat, ?_, ?_, ?_, trivial⟩, ?_, rfl⟩
    · intro e he
      exact hinv.unwritten e (fun hmem => he (List.mem_cons_of_mem epoch hmem))
    · intro _
      change s.channel.header.wc.toNat = (s.writes epoch).length ∧ s.channel.header.wsc = s.channel.header.wc
      rw [hnone, hwc, hwsc]
      exact ⟨rfl, rfl⟩
    · intro _ k hk
      change k < s.channel.header.wc.toNat at hk
      rw [hwc] at hk
      exact absurd hk (Nat.not_lt_zero k)
    · have hother : ∀ e ∈ s.epochs, e ≠ nullEpoch → epoch ≠ e := fun e he _ heq => hnew (heq ▸ he)
      exact ⟨fun e he => List.mem_cons_of_mem epoch he, fun hf => hf, fun e => List.prefix_refl _,
        fun e he hne heq => absurd heq (hother e he hne), fun e he hne heq => absurd heq (hother e he hne),
        fun e he hne heq => absurd heq (hother e he hne)⟩

lemma startCount_inv {s s' : State C} {wc : HeaderField} {pos : Fin C.elements} {element : α}
    (hinv : WriterInv s) (hw : s.writer = .startCount wc pos element) (h : writerStep s = some s') :
    WriterInv s' ∧ Advances s s' ∧ s'.read = s.read := by
  simp only [writerStep, hw] at h
  obtain rfl := Option.some.inj h
  have hcount : s.channel.header.epoch ≠ nullEpoch → _ := hinv.counted
  simp only [hw, Counted] at hcount
  refine ⟨⟨hinv.epoch_mem, hinv.formatted, hinv.unwritten, ?_, ?_, trivial⟩, ?_, rfl⟩
  · intro hepoch
    obtain ⟨h1, h2, -, h4, h5⟩ := hcount hepoch
    exact ⟨h1, h2, rfl, h4, h5⟩
  · intro hepoch k hk hclaimed
    obtain ⟨h1, -, h3, -, -⟩ := hcount hepoch
    change wc.toNat ≤ k + C.elements at hclaimed
    exact hinv.slots hepoch k hk (by rw [h3]; omega)
  · refine ⟨fun _ he => he, fun hf => hf, fun e => List.prefix_refl _, fun _ _ _ he => he,
      fun _ _ _ _ => le_refl _, ?_⟩
    intro e he hne heq
    obtain ⟨h1, -, h3, -, -⟩ := hcount (fun hn => hne (heq.symm.trans hn))
    change s.channel.header.wsc.toNat ≤ wc.toNat
    rw [h3]
    omega

lemma copy_inv {s s' : State C} {wc : HeaderField} {pos : Fin C.elements} {element : α}
    (hinv : WriterInv s) (hw : s.writer = .copy wc pos element) (h : writerStep s = some s') :
    WriterInv s' ∧ Advances s s' ∧ s'.read = s.read := by
  simp only [writerStep, hw] at h
  obtain rfl := Option.some.inj h
  have hcount : s.channel.header.epoch ≠ nullEpoch → _ := hinv.counted
  simp only [hw, Counted] at hcount
  refine ⟨⟨hinv.epoch_mem, hinv.formatted, hinv.unwritten, ?_, ?_, trivial⟩, ?_, rfl⟩
  · intro hepoch
    obtain ⟨h1, h2, h3, h4, h5⟩ := hcount hepoch
    have hpos : pos = position C s.channel.header.wc := Fin.ext h4
    refine ⟨h1, h2, h3, ?_⟩
    simp only
    rw [hpos, Function.update_self, h5]
  · intro hepoch k hk hclaimed
    obtain ⟨h1, -, h3, h4, -⟩ := hcount hepoch
    change k < s.channel.header.wc.toNat at hk
    change s.channel.header.wsc.toNat ≤ k + C.elements at hclaimed
    have hold := hinv.slots hepoch k hk hclaimed
    have hother : (⟨k % C.elements, Nat.mod_lt _ C.elements_pos⟩ : Fin C.elements) ≠ pos := by
      intro heq
      have hmod : k % C.elements = s.channel.header.wc.toNat % C.elements := by
        rw [← h4, ← heq]
      -- an older write of the same slot is at least one turn of the ring behind
      have hturn : k + C.elements ≤ s.channel.header.wc.toNat := by
        have hdvd := (Nat.modEq_iff_dvd' hk.le).mp hmod
        have := Nat.le_of_dvd (by omega) hdvd
        omega
      rw [h3] at hclaimed
      omega
    simp only
    rw [Function.update_of_ne hother]
    exact hold
  · exact ⟨fun _ he => he, fun hf => hf, fun e => List.prefix_refl _, fun _ _ _ he => he,
      fun _ _ _ _ => le_refl _, fun _ _ _ _ => le_refl _⟩

lemma count_inv {s s' : State C} {wc : HeaderField} (hinv : WriterInv s) (hw : s.writer = .count wc)
    (h : writerStep s = some s') : WriterInv s' ∧ Advances s s' ∧ s'.read = s.read := by
  simp only [writerStep, hw] at h
  obtain rfl := Option.some.inj h
  have hcount : s.channel.header.epoch ≠ nullEpoch → _ := hinv.counted
  simp only [hw, Counted] at hcount
  refine ⟨⟨hinv.epoch_mem, hinv.formatted, hinv.unwritten, ?_, ?_, trivial⟩, ?_, rfl⟩
  · intro hepoch
    obtain ⟨-, h2, h3, -⟩ := hcount hepoch
    exact ⟨h2.symm, h3⟩
  · intro hepoch k hk hclaimed
    obtain ⟨h1, -, -, h4⟩ := hcount hepoch
    change k < wc.toNat at hk
    by_cases hlast : k = s.channel.header.wc.toNat
    · rw [hlast]
      exact h4
    · exact hinv.slots hepoch k (by omega) hclaimed
  · refine ⟨fun _ he => he, fun hf => hf, fun e => List.prefix_refl _, fun _ _ _ he => he, ?_,
      fun _ _ _ _ => le_refl _⟩
    intro e he hne heq
    obtain ⟨h1, -⟩ := hcount (fun hn => hne (heq.symm.trans hn))
    change s.channel.header.wc.toNat ≤ wc.toNat
    omega

/-- Every step of the writer keeps its side consistent and advances it. -/
lemma writer_inv {s s' : State C} {a : Action α} (hinv : WriterInv s) (hcounts : Counts s a)
    (ha : a ≠ .reader) (h : step s a = some s') : WriterInv s' ∧ Advances s s' ∧ s'.read = s.read := by
  cases a with
  | initializeChannel epoch => exact initialize_inv hinv h
  | write element => exact write_inv hinv hcounts h
  | deactivate => exact deactivate_inv hinv h
  | reader => exact absurd rfl ha
  | writer =>
    cases hw : s.writer with
    | idle => simp [step, writerStep, hw] at h
    | initializing stores epoch => exact initializing_inv hinv hw h
    | startCount wc pos element => exact startCount_inv hinv hw h
    | copy wc pos element => exact copy_inv hinv hw h
    | count wc => exact count_inv hinv hw h

/-! ### What holds of the reader's side -/

def Read.index (r : Read α) : Nat := if r.synchronised then 0 else r.rcBefore.toNat

/-- The epoch of the reader is in force. -/
def Read.Live (channel : Channel C) (r : Read α) : Prop :=
  r.reader.epoch ≠ nullEpoch ∧ channel.header.epoch = r.reader.epoch

/-- What the reader knows at each place, provided its epoch is still in force. -/
def Known (channel : Channel C) (writes : HeaderField → List α) (r : Read α) : Prop :=
  match r.pc with
  | .idle => True
  | .isActive => r.synchronised = false ∧ r.rcBefore = r.reader.rc
  | .transport | .protocol | .size | .elements => Formatted (C := C) channel.header ∧ r.synchronised
  | .epoch => r.reader.elements = BitVec.ofNat 64 C.elements ∧ r.synchronised
  | .recheck => r.reader.rc = 0 ∧ r.synchronised
  | .count => r.reader.rc.toNat = r.index
  | .copy => r.reader.rc.toNat = r.index ∧
      (r.Live channel → r.reader.rc.toNat < channel.header.wc.toNat)
  | .startCount => r.reader.rc.toNat = r.index ∧
      (r.Live channel → channel.header.wsc.toNat ≤ r.reader.rc.toNat + C.elements →
        (writes r.reader.epoch)[r.index]? = some r.element)
  | .recover => r.result = .overrunDetected
  | .check => r.result = .success → r.Live channel → (writes r.reader.epoch)[r.index]? = some r.element

structure ReaderInv (s : State C) : Prop where
  seen : s.read.reader.epoch ≠ nullEpoch → s.read.reader.epoch ∈ s.epochs
  elements_eq : s.read.reader.epoch ≠ nullEpoch → s.read.reader.elements = BitVec.ofNat 64 C.elements
  known : Known s.channel s.writes s.read
  outcome : ∀ o, s.read.outcome = some o → Delivered s.epochs s.writes o

lemma Advances.delivered {s s' : State C} (h : Advances s s') {o : Outcome α}
    (ho : Delivered s.epochs s.writes o) : Delivered s'.epochs s'.writes o := by
  intro hsuccess hne
  obtain ⟨hmem, hget⟩ := ho hsuccess hne
  exact ⟨h.epochs_subset _ hmem, getElem?_of_isPrefix (h.writes_grow _) hget⟩

lemma Advances.live {s s' : State C} (h : Advances s s') {r : Read α}
    (hseen : r.reader.epoch ≠ nullEpoch → r.reader.epoch ∈ s.epochs) (hlive : r.Live s'.channel) :
    r.Live s.channel ∧ s.channel.header.wc.toNat ≤ s'.channel.header.wc.toNat ∧
      s.channel.header.wsc.toNat ≤ s'.channel.header.wsc.toNat := by
  obtain ⟨hne, heq⟩ := hlive
  have hmem := hseen hne
  exact ⟨⟨hne, h.same_epoch _ hmem hne heq⟩, h.wc_le _ hmem hne heq, h.wsc_le _ hmem hne heq⟩

/-- A step of the writer does not invalidate what the reader knows. -/
lemma ReaderInv.advance {s s' : State C} (hinv : ReaderInv s) (h : Advances s s')
    (hread : s'.read = s.read) : ReaderInv s' := by
  have hseen := hinv.seen
  refine ⟨?_, ?_, ?_, ?_⟩
  · rw [hread]
    exact fun hne => h.epochs_subset _ (hseen hne)
  · rw [hread]
    exact hinv.elements_eq
  · rw [hread]
    have hknown := hinv.known
    unfold Known at hknown ⊢
    cases hpc : s.read.pc <;> simp only [hpc] at hknown ⊢ <;> try exact hknown
    case transport => exact ⟨h.formatted hknown.1, hknown.2⟩
    case protocol => exact ⟨h.formatted hknown.1, hknown.2⟩
    case size => exact ⟨h.formatted hknown.1, hknown.2⟩
    case elements => exact ⟨h.formatted hknown.1, hknown.2⟩
    case copy =>
      refine ⟨hknown.1, fun hlive => ?_⟩
      obtain ⟨hold, hwc, -⟩ := h.live hseen hlive
      exact lt_of_lt_of_le (hknown.2 hold) hwc
    case startCount =>
      refine ⟨hknown.1, fun hlive hwsc => ?_⟩
      obtain ⟨hold, -, hle⟩ := h.live hseen hlive
      exact getElem?_of_isPrefix (h.writes_grow _) (hknown.2 hold (hle.trans hwsc))
    case check =>
      intro hsuccess hlive
      exact getElem?_of_isPrefix (h.writes_grow _) (hknown hsuccess (h.live hseen hlive).1)
  · rw [hread]
    exact fun o ho => h.delivered (hinv.outcome o ho)

/-- A call that returns anything but success delivers nothing. -/
lemma delivered_of_ne_success {epochs : List HeaderField} {writes : HeaderField → List α} {o : Outcome α}
    (h : o.result ≠ .success) : Delivered epochs writes o := fun hs => absurd hs h

lemma readerInv_of_failure {s : State C} {r : Read α} {result : Result} (hr : s.read = r.ret result)
    (hne : result ≠ .success) (hseen : r.reader.epoch ≠ nullEpoch → r.reader.epoch ∈ s.epochs)
    (helements : r.reader.epoch ≠ nullEpoch → r.reader.elements = BitVec.ofNat 64 C.elements) :
    ReaderInv s := by
  refine ⟨?_, ?_, ?_, ?_⟩
  · rw [hr]; exact hseen
  · rw [hr]; exact helements
  · rw [hr]; trivial
  · intro o ho
    rw [hr] at ho
    obtain rfl := Option.some.inj ho
    exact delivered_of_ne_success hne

/-- The copy of a slot that is not claimed again yields the element the read counter designates. -/
lemma copied_element {s : State C} (hw : WriterInv s) {r : Read α} (hlive : r.Live s.channel)
    (hindex : r.reader.rc.toNat = r.index) (hrc : r.reader.rc.toNat < s.channel.header.wc.toNat)
    (hwsc : s.channel.header.wsc.toNat ≤ r.reader.rc.toNat + C.elements) :
    (s.writes r.reader.epoch)[r.index]? = some (s.channel.data (position C r.reader.rc)) := by
  obtain ⟨hne, heq⟩ := hlive
  have hslot := hw.slots (fun hn => hne (heq.symm.trans hn)) _ hrc hwsc
  rw [heq, hindex] at hslot
  rw [hslot]
  congr 2
  exact Fin.ext (by simp only [position, hindex])

/-- The overrun check is at least as strict as the comparison without wrap-around. -/
lemma wsc_le_of_check {wsc rc elements : HeaderField} {n : Nat} (he : elements = BitVec.ofNat 64 n)
    (h : ¬wsc > rc + elements) : wsc.toNat ≤ rc.toNat + n := by
  have hle : wsc.toNat ≤ (rc + elements).toNat := by bv_omega
  rw [BitVec.toNat_add, he, BitVec.toNat_ofNat] at hle
  calc wsc.toNat ≤ (rc.toNat + n % 2 ^ 64) % 2 ^ 64 := hle
    _ ≤ rc.toNat + n % 2 ^ 64 := Nat.mod_le _ _
    _ ≤ rc.toNat + n := Nat.add_le_add_left (Nat.mod_le _ _) _

lemma reader_inv {s : State C} (hw : WriterInv s) (hr : ReaderInv s) :
    ReaderInv { s with read := readStep s.channel s.read } := by
  have hknown := hr.known
  unfold Known at hknown
  cases hpc : s.read.pc <;> simp only [hpc] at hknown
  case idle =>
    simp only [readStep, hpc]
    exact ⟨hr.seen, hr.elements_eq, ⟨rfl, rfl⟩, fun o ho => by simp at ho⟩
  case isActive =>
    simp only [readStep, hpc]
    by_cases hinactive : s.channel.header.epoch = nullEpoch
    · rw [if_pos hinactive]
      exact readerInv_of_failure rfl (by decide) (fun hne => absurd rfl hne) (fun hne => absurd rfl hne)
    rw [if_neg hinactive]
    by_cases hsync : s.read.reader.epoch = nullEpoch ∨ hasEpochChanged s.read.channelEpoch s.read.reader
    · rw [if_pos hsync]
      exact ⟨hr.seen, hr.elements_eq, ⟨hw.formatted hinactive, rfl⟩, hr.outcome⟩
    · rw [if_neg hsync]
      refine ⟨hr.seen, hr.elements_eq, ?_, hr.outcome⟩
      simp only [Known, Read.index, hknown.1, hknown.2, Bool.false_eq_true, if_false]
  case transport =>
    simp only [readStep, hpc]
    exact ⟨hr.seen, hr.elements_eq, hknown, hr.outcome⟩
  case protocol =>
    simp only [readStep, hpc]
    exact ⟨hr.seen, hr.elements_eq, hknown, hr.outcome⟩
  case size =>
    simp only [readStep, hpc]
    exact ⟨hr.seen, hr.elements_eq, hknown, hr.outcome⟩
  case elements =>
    have helements : s.channel.header.elements = BitVec.ofNat 64 C.elements := hknown.1.2.2.2
    simp only [readStep, hpc]
    split_ifs with hvalid
    · exact ⟨hr.seen, fun _ => helements, ⟨helements, hknown.2⟩, hr.outcome⟩
    · exact readerInv_of_failure rfl (by decide) (fun hne => absurd rfl hne) (fun hne => absurd rfl hne)
  case epoch =>
    simp only [readStep, hpc]
    exact ⟨hw.epoch_mem, fun _ => hknown.1, ⟨rfl, hknown.2⟩, hr.outcome⟩
  case recheck =>
    simp only [readStep, hpc]
    split_ifs with hchanged
    · exact readerInv_of_failure rfl (by decide) hr.seen hr.elements_eq
    · refine ⟨hr.seen, hr.elements_eq, ?_, hr.outcome⟩
      simp [Known, Read.index, hknown.1, hknown.2]
  case count =>
    simp only [readStep, hpc]
    split_ifs with hdata
    · exact readerInv_of_failure rfl (by decide) hr.seen hr.elements_eq
    · refine ⟨hr.seen, hr.elements_eq, ⟨hknown, fun _ => ?_⟩, hr.outcome⟩
      simp only
      bv_omega
  case copy =>
    simp only [readStep, hpc]
    refine ⟨hr.seen, hr.elements_eq, ⟨hknown.1, fun hlive hwsc => ?_⟩, hr.outcome⟩
    exact copied_element hw hlive hknown.1 (hknown.2 hlive) hwsc
  case startCount =>
    simp only [readStep, hpc]
    split_ifs with hoverrun
    · exact ⟨hr.seen, hr.elements_eq, rfl, hr.outcome⟩
    · refine ⟨hr.seen, hr.elements_eq, ?_, hr.outcome⟩
      intro _ hlive
      have hle := wsc_le_of_check (hr.elements_eq hlive.1) hoverrun
      exact hknown.2 hlive hle
  case recover =>
    simp only [readStep, hpc]
    refine ⟨hr.seen, hr.elements_eq, ?_, hr.outcome⟩
    intro hsuccess
    exact absurd (hknown.symm.trans hsuccess) (by decide)
  case check =>
    simp only [readStep, hpc]
    by_cases hchanged : hasEpochChanged s.channel.header.epoch s.read.reader
    · rw [if_pos hchanged]
      exact readerInv_of_failure rfl (by decide) hr.seen hr.elements_eq
    · rw [if_neg hchanged]
      refine ⟨hr.seen, hr.elements_eq, trivial, ?_⟩
      intro o ho
      obtain rfl := Option.some.inj ho
      intro hsuccess hne
      have heq : s.read.reader.epoch = s.channel.header.epoch := by simpa [hasEpochChanged] using hchanged
      exact ⟨hr.seen hne, hknown hsuccess ⟨hne, heq.symm⟩⟩

/-- In every state of every run, in whatever order the accesses of the two sides are made, a read
that returned success under a non-null epoch returned the element of that epoch that its read
counter designates. -/
theorem read_delivers {s : State C} (h : Reaches step Counts Initial s) :
    ∀ o, s.read.outcome = some o → Delivered s.epochs s.writes o := by
  have hinv : WriterInv s ∧ ReaderInv s := by
    refine h.invariant (fun s => WriterInv s ∧ ReaderInv s) ?_ ?_
    · intro s hs
      refine ⟨writerInv_of_null hs.epoch_eq (fun e _ => by rw [hs.writes_eq]) (by rw [hs.writer_eq]; trivial), ?_⟩
      have hnull : s.read.reader.epoch = nullEpoch := by rw [hs.reader_eq]; rfl
      refine ⟨fun hne => absurd hnull hne, fun hne => absurd hnull hne, ?_, fun o ho => ?_⟩
      · simp only [Known, hs.pc_eq]
      · rw [hs.outcome_eq] at ho
        cases ho
    · rintro s a s' ⟨hw, hr⟩ hcounts hstep
      by_cases ha : a = .reader
      · subst ha
        obtain rfl := Option.some.inj hstep
        exact ⟨⟨hw.epoch_mem, hw.formatted, hw.unwritten, hw.counted, hw.slots, hw.init⟩, reader_inv hw hr⟩
      · obtain ⟨hw', hadv, hread⟩ := writer_inv hw hcounts ha hstep
        exact ⟨hw', hr.advance hadv hread⟩
  exact hinv.2.outcome

/-- A channel of two elements before its first use. -/
def pairInstance : Instance Nat := ⟨2, by decide, by decide, 0, 1, 8⟩

def pairState : State pairInstance where
  channel := ⟨⟨0, 0, 0, 0, 0, 0, 0, 0⟩, fun _ => 0⟩
  writer := .idle
  read := ⟨.idle, nullReader, 0, 0, 0, .inactive, 0, false, none⟩
  epochs := []
  writes := fun _ => []

lemma pairState_initial : Initial pairState := ⟨rfl, rfl, rfl, rfl, rfl, rfl, rfl⟩

/-- One initialisation, one write and one complete call of `Read`. -/
def firstRead : List (Action Nat) :=
  .initializeChannel 1 :: List.replicate 10 .writer ++ .write 7 :: List.replicate 3 .writer ++
    List.replicate 12 .reader

/-- A read that begins during the initialisation, goes on between the accesses of a first write and returns between
those of a second one. -/
def overlappingRead : List (Action Nat) :=
  .initializeChannel 1 :: .reader :: List.replicate 10 .writer ++ [.reader, .reader] ++
    .write 7 :: [.reader, .writer, .reader, .writer, .reader, .writer] ++
    .write 8 :: [.reader, .writer, .reader, .reader, .writer, .reader, .reader, .reader]

/-- The next read, during which the second write ends and a third one stores its element. -/
def overlappingReads : List (Action Nat) :=
  overlappingRead ++ [.reader, .writer, .reader] ++
    .write 9 :: [.writer, .reader, .reader, .writer, .reader, .reader]

/-- A run from the start in which a read has returned while a write is under way. -/
lemma reached_during_write {as : List (Action Nat)} {o : Outcome Nat} {wsc wc : HeaderField}
    (hallowed : allowedRun step Counts pairState as = true) (hcounts : wc < wsc)
    (hout : (run step pairState as).map (fun s => (s.read.outcome, s.channel.header.wsc, s.channel.header.wc)) =
      some (some o, wsc, wc)) :
    ∃ s, run step pairState as = some s ∧ Reaches step Counts Initial s ∧
      s.channel.header.wc < s.channel.header.wsc ∧ s.read.outcome = some o := by
  obtain ⟨s, hrun, hs⟩ := Option.map_eq_some_iff.mp hout
  obtain ⟨ho, hheader⟩ := Prod.mk.inj hs
  obtain ⟨hwsc, hwc⟩ := Prod.mk.inj hheader
  exact ⟨s, hrun, (Reaches.start pairState_initial).run hallowed hrun, hwsc ▸ hwc ▸ hcounts, ho⟩

/-- When the two reads return, `WSC` is ahead of `WC`. -/
theorem read_delivers_firstRead :
    (∃ s o, run step pairState overlappingRead = some s ∧ s.channel.header.wc < s.channel.header.wsc ∧
      s.read.outcome = some o ∧ o.result = .success ∧ o.element = 7 ∧ Delivered s.epochs s.writes o) ∧
    ∃ s o, run step pairState overlappingReads = some s ∧ s.channel.header.wc < s.channel.header.wsc ∧
      s.read.outcome = some o ∧ o.result = .success ∧ o.element = 8 ∧ Delivered s.epochs s.writes o := by
  obtain ⟨s₁, hrun₁, hreach₁, hcounts₁, ho₁⟩ : ∃ s, run step pairState overlappingRead = some s ∧ _ :=
    reached_during_write (o := ⟨.success, 1, 7, 0, true⟩) (by decide) (by decide : (1 : HeaderField) < 2) (by decide)
  obtain ⟨s₂, hrun₂, hreach₂, hcounts₂, ho₂⟩ : ∃ s, run step pairState overlappingReads = some s ∧ _ :=
    reached_during_write (o := ⟨.success, 1, 8, 1, false⟩) (by decide) (by decide : (2 : HeaderField) < 3) (by decide)
  exact ⟨⟨s₁, _, hrun₁, hcounts₁, ho₁, rfl, rfl, read_delivers hreach₁ _ ho₁⟩,
    s₂, _, hrun₂, hcounts₂, ho₂, rfl, rfl, read_delivers hreach₂ _ ho₂⟩

/-- A second epoch with one write, read by a call that starts with read counter one. -/
def resynchronisation : List (Action Nat) :=
  firstRead ++ .initializeChannel 2 :: List.replicate 10 .writer ++ .write 9 :: List.replicate 3 .writer ++
    List.replicate 12 .reader

/-- The channel is deactivated after the reader has found it active. -/
def deactivation : List (Action Nat) :=
  .initializeChannel 1 :: List.replicate 10 .writer ++ .write 7 :: List.replicate 3 .writer ++
    [.reader, .reader, .deactivate] ++ List.replicate 10 .reader

/-- A synchronising call does not return the element of the read counter before the call, and a
call whose synchronisation meets a deactivation returns success with the null epoch. -/
theorem read_success_otherwise :
    Initial pairState ∧
    (∃ s o, run step pairState resynchronisation = some s ∧ s.read.outcome = some o ∧ o.result = .success ∧
      (s.writes o.epoch)[o.rcBefore.toNat]? ≠ some o.element) ∧
    (∃ s o, run step pairState deactivation = some s ∧ s.read.outcome = some o ∧ o.result = .success ∧
      o.epoch = nullEpoch) := by
  refine ⟨pairState_initial, ?_, ?_⟩
  · have hout : (run step pairState resynchronisation).map (fun s => (s.read.outcome, s.writes 2)) =
        some (some ⟨.success, 2, 9, 1, true⟩, [9]) := by decide
    obtain ⟨s, hrun, hs⟩ := Option.map_eq_some_iff.mp hout
    obtain ⟨ho, hwrites⟩ := Prod.mk.inj hs
    refine ⟨s, _, hrun, ho, rfl, ?_⟩
    simp only [hwrites]
    decide
  · have hout : (run step pairState deactivation).map (fun s => s.read.outcome) =
        some (some ⟨.success, 0, 7, 0, true⟩) := by decide
    obtain ⟨s, hrun, ho⟩ := Option.map_eq_some_iff.mp hout
    exact ⟨s, _, hrun, ho, rfl, rfl⟩

end Muen.Components.Muchannel
