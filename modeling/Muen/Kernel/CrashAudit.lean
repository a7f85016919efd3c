import Mathlib.Data.Fintype.Card
import Mathlib.Data.BitVec
import Mathlib.Order.Interval.Finset.Nat

/-!
# The crash audit

CPUs that hit an unrecoverable error allocate a slot of the crash audit store, fill it and finalize the
store before the system is reset. Every access of the shared counter and of the header is a step of its
own, and the steps of different CPUs may interleave in any order.
-/

namespace Muen.Kernel.CrashAudit

/-! ### The store -/

def maxDumps : Nat := 3

def crashMagic : BitVec 64 := 0x01000df750d50e9a

def reasonUndefined : BitVec 64 := 0

abbrev Positive := {n : Nat // 1 ≤ n}

abbrev DumpdataIndex := {n : Nat // 1 ≤ n ∧ n ≤ maxDumps}

inductive ContextKind
  | exception
  | mce
  | subject
  | init
  | vtx
  deriving DecidableEq

structure Header where
  versionMagic : BitVec 64
  versionString : Vector Char 64
  generation : BitVec 64
  bootCount : BitVec 64
  crashCount : BitVec 64
  dumpCount : Nat
  maxDumpCount : Nat

def nullHeader : Header where
  versionMagic := crashMagic
  versionString := Vector.replicate 64 (Char.ofNat 0)
  generation := 0
  bootCount := 1
  crashCount := 0
  dumpCount := 0
  maxDumpCount := maxDumps

section Store

variable (Context : ContextKind → Type)

/-- A crash audit entry; the layouts of the contexts are a parameter. -/
structure Dumpdata where
  tscValue : BitVec 64
  reason : BitVec 64
  apicId : BitVec 8
  fieldValidity : ContextKind → Bool
  context : (k : ContextKind) → Context k

structure Dump where
  header : Header
  data : DumpdataIndex → Dumpdata Context

/-- An assignment to the data of a slot. -/
inductive Assignment
  | clear
  | apicId (id : BitVec 8)
  | tscValue (tsc : BitVec 64)
  | reason (r : BitVec 64)
  | context (k : ContextKind) (v : Context k)
  | validity (k : ContextKind)

/-- A call of one of the `Set` operations. The reason that is set is defined. -/
inductive Setting
  | reason (r : {r : BitVec 64 // r ≠ reasonUndefined})
  | exceptionContext (v : Context .exception)
  | mceContext (v : Context .mce)
  | subjectContext (v : Context .subject)
  | initContext (v : Context .init)
  | vtxContext (v : Context .vtx)

/-- What a CPU records of its crash. An entry is finalized only when its reason has been set. -/
structure Crash where
  apicId : BitVec 8
  tsc : BitVec 64
  settings : List (Setting Context)
  valid : ∃ r, Setting.reason r ∈ settings

end Store

variable {Context : ContextKind → Type} [∀ k, Inhabited (Context k)]

def nullDumpdata : Dumpdata Context where
  tscValue := 0
  reason := reasonUndefined
  apicId := 0
  fieldValidity := fun _ => false
  context := fun _ => default

def nullDump : Dump Context where
  header := nullHeader
  data := fun _ => nullDumpdata

def init (store : Dump Context) : Dump Context :=
  if store.header.versionMagic ≠ crashMagic then
    nullDump
  else
    { store with header := { store.header with bootCount := store.header.bootCount + 1 } }

def Assignment.write : Assignment Context → Dumpdata Context → Dumpdata Context
  | clear, _ => nullDumpdata
  | apicId id, d => { d with apicId := id }
  | tscValue tsc, d => { d with tscValue := tsc }
  | reason r, d => { d with reason := r }
  | context k v, d => { d with context := Function.update d.context k v }
  | validity k, d => { d with fieldValidity := Function.update d.fieldValidity k true }

def setReason (r : BitVec 64) : List (Assignment Context) := [.reason r]

def setContext (k : ContextKind) (v : Context k) : List (Assignment Context) := [.context k v, .validity k]

def setExceptionContext (v : Context .exception) : List (Assignment Context) := setContext .exception v

def setMceContext (v : Context .mce) : List (Assignment Context) := setContext .mce v

def setSubjectContext (v : Context .subject) : List (Assignment Context) := setContext .subject v

def setInitContext (v : Context .init) : List (Assignment Context) := setContext .init v

def setVtxContext (v : Context .vtx) : List (Assignment Context) := setContext .vtx v

def Setting.assignments : Setting Context → List (Assignment Context)
  | reason r => setReason r
  | exceptionContext v => setExceptionContext v
  | mceContext v => setMceContext v
  | subjectContext v => setSubjectContext v
  | initContext v => setInitContext v
  | vtxContext v => setVtxContext v

/-- The assignments of `Allocate` once a slot has been handed out. -/
def allocate (crash : Crash Context) : List (Assignment Context) :=
  [.clear, .apicId crash.apicId, .tscValue crash.tsc]

def Crash.assignments (crash : Crash Context) : List (Assignment Context) :=
  allocate crash ++ crash.settings.flatMap Setting.assignments

/-! ### CPUs -/

/-- What a CPU that finalizes the store does next. -/
inductive Stage
  | readBoots (next : Positive)
  | writeDumpCount (next : Positive) (boots : BitVec 64)
  | writeVersion (i : Nat) (boots : BitVec 64)
  | incCrashCount
  | reset

/-- What a CPU does next. A CPU that audits and has no assignment left starts to finalize the store. -/
inductive Control (Context : ContextKind → Type)
  | running
  | allocating (number : Positive)
  | stopped (number : Positive)
  | auditing (slot : DumpdataIndex) (pending : List (Assignment Context))
  | finalizing (slot : DumpdataIndex) (stage : Stage)

def DumpdataIndex.positive (i : DumpdataIndex) : Positive := ⟨i.1, i.2.1⟩

/-- The slot index that the CPU has been handed out. -/
def Control.number : Control Context → Option Positive
  | running => none
  | allocating n => some n
  | stopped n => some n
  | auditing slot _ => some (DumpdataIndex.positive slot)
  | finalizing slot _ => some (DumpdataIndex.positive slot)

/-- The write of the dump count has been executed. -/
def Control.counted : Control Context → Bool
  | finalizing _ (.writeVersion _ _) => true
  | finalizing _ .incCrashCount => true
  | finalizing _ .reset => true
  | _ => false

/-- The increment of the crash count has been executed. -/
def Control.incremented : Control Context → Bool
  | finalizing _ .reset => true
  | _ => false

structure State (Cpu : Type) (Context : ContextKind → Type) where
  globalNextSlot : Positive
  store : Dump Context
  control : Cpu → Control Context

section Steps

variable {Cpu : Type} [DecidableEq Cpu]

def State.goto (s : State Cpu Context) (c : Cpu) (k : Control Context) : State Cpu Context :=
  { s with control := Function.update s.control c k }

def State.setHeader (s : State Cpu Context) (h : Header) : State Cpu Context :=
  { s with store := { s.store with header := h } }

def State.setData (s : State Cpu Context) (i : DumpdataIndex) (d : Dumpdata Context) : State Cpu Context :=
  { s with store := { s.store with data := Function.update s.store.data i d } }

def getAndInc (s : State Cpu Context) (c : Cpu) : State Cpu Context :=
  { s with globalNextSlot := ⟨s.globalNextSlot.1 + 1, by omega⟩ }.goto c (.allocating s.globalNextSlot)

def checkSlot (crash : Crash Context) (s : State Cpu Context) (c : Cpu) (n : Positive) : State Cpu Context :=
  if h : n.1 > maxDumps then
    s.goto c (.stopped n)
  else
    s.goto c (.auditing ⟨n.1, n.2, by omega⟩ crash.assignments)

/-- The dump count for the slot index that was read. -/
def dumpCountOf (next : Positive) : Nat :=
  if next.1 > maxDumps then maxDumps else next.1 - 1

def writeDumpCount (s : State Cpu Context) (c : Cpu) (slot : DumpdataIndex) (next : Positive) (boots : BitVec 64) :
    State Cpu Context :=
  (s.setHeader { s.store.header with dumpCount := dumpCountOf next }).goto c
    (.finalizing slot (.writeVersion 0 boots))

def atomicIncCrashCount (s : State Cpu Context) (c : Cpu) (slot : DumpdataIndex) : State Cpu Context :=
  (s.setHeader { s.store.header with crashCount := s.store.header.crashCount + 1 }).goto c (.finalizing slot .reset)

def finalize (version : List Char) (s : State Cpu Context) (c : Cpu) (slot : DumpdataIndex) :
    Stage → State Cpu Context
  | .readBoots next => s.goto c (.finalizing slot (.writeDumpCount next s.store.header.bootCount))
  | .writeDumpCount next boots => writeDumpCount s c slot next boots
  | .writeVersion i boots =>
    match version[i]? with
    | some ch =>
      (s.setHeader
        { s.store.header with versionString := s.store.header.versionString.setIfInBounds i ch }).goto c
        (.finalizing slot (.writeVersion (i + 1) boots))
    | none =>
      (s.setHeader { s.store.header with generation := boots + 1 }).goto c (.finalizing slot .incCrashCount)
  | .incCrashCount => atomicIncCrashCount s c slot
  | .reset => s

/-- The next atomic step of a CPU. A CPU that is stopped halts in a loop; one that has finalized the store
waits for the reset. -/
def step (version : List Char) (crash : Cpu → Crash Context) (s : State Cpu Context) (c : Cpu) :
    State Cpu Context :=
  match s.control c with
  | .running => getAndInc s c
  | .allocating n => checkSlot (crash c) s c n
  | .stopped _ => s
  | .auditing slot [] => s.goto c (.finalizing slot (.readBoots s.globalNextSlot))
  | .auditing slot (a :: pending) =>
    (s.setData slot (a.write (s.store.data slot))).goto c (.auditing slot pending)
  | .finalizing slot stage => finalize version s c slot stage

/-- The state in which the kernel runs once the store has been set up. -/
def boot (dump : Dump Context) : State Cpu Context where
  globalNextSlot := ⟨1, le_rfl⟩
  store := init dump
  control := fun _ => .running

/-- The state after the CPUs have made steps in the given order. -/
def run (version : List Char) (crash : Cpu → Crash Context) (dump : Dump Context) (order : List Cpu) :
    State Cpu Context :=
  order.foldl (step version crash) (boot dump)

end Steps

/-! ### The property -/

section Property

variable {Cpu : Type} [DecidableEq Cpu] [Fintype Cpu]

/-- The slot that has been handed out to a CPU. -/
def Control.slot (k : Control Context) : Option DumpdataIndex :=
  k.number.bind (fun n => if h : n.1 ≤ maxDumps then some ⟨n.1, n.2, h⟩ else none)

/-- The CPUs that hold a slot. -/
def holders (s : State Cpu Context) : Finset Cpu := Finset.univ.filter (fun c => (s.control c).slot.isSome)

def AllCounted (s : State Cpu Context) : Prop := ∀ c ∈ holders s, (s.control c).counted = true

/-- No crash record is lost or overwritten in the state or by the next step of any CPU. -/
structure Lossless (version : List Char) (crash : Cpu → Crash Context) (first s : State Cpu Context) : Prop where
  distinct : ∀ c c' i, (s.control c).slot = some i → (s.control c').slot = some i → c = c'
  refused : ∀ c n, (s.control c).number = some n → n.1 > maxDumps →
    (step version crash s c).store.data = s.store.data
  own : ∀ c i, (step version crash s c).store.data i ≠ s.store.data i → (s.control c).slot = some i
  dumpCount : AllCounted s → s.store.header.dumpCount = (holders s).card
  crashCount : s.store.header.crashCount = first.store.header.crashCount +
    BitVec.ofNat 64 (Finset.univ.filter (fun c => (s.control c).incremented = true)).card

/-- When the CPU is about to make the only outstanding write of the dump count, the next slot index is the
one that it has read, or the slots had run out already when it read it. -/
def OnTime (s : State Cpu Context) (c : Cpu) : Prop :=
  ∀ slot next boots, s.control c = .finalizing slot (.writeDumpCount next boots) →
    (∀ c' ∈ holders s, c' ≠ c → (s.control c').counted = true) →
    next = s.globalNextSlot ∨ (next.1 > maxDumps ∧ s.globalNextSlot.1 > maxDumps)

end Property

/-! ### Slots -/

section Slots

omit [∀ k, Inhabited (Context k)]

variable {Cpu : Type} [Fintype Cpu]

lemma Control.slot_eq_some {k : Control Context} {i : DumpdataIndex} :
    k.slot = some i ↔ k.number = some (DumpdataIndex.positive i) := by
  unfold slot
  cases k.number with
  | none => simp
  | some n =>
    by_cases h : n.1 ≤ maxDumps
    · simp [h, Subtype.ext_iff, DumpdataIndex.positive]
    · have hne : n ≠ DumpdataIndex.positive i := by
        intro he
        apply h
        rw [he]
        exact i.2.2
      simp [h, hne]

lemma mem_holders {s : State Cpu Context} {c : Cpu} :
    c ∈ holders s ↔ ∃ n, (s.control c).number = some n ∧ n.1 ≤ maxDumps := by
  simp only [holders, Finset.mem_filter, Finset.mem_univ, true_and, Option.isSome_iff_exists, Control.slot_eq_some]
  constructor
  · rintro ⟨i, hi⟩
    exact ⟨_, hi, i.2.2⟩
  · rintro ⟨n, hn, hle⟩
    exact ⟨⟨n.1, n.2, hle⟩, hn⟩

/-- The slot indices below the next one have been handed out, each of them to one CPU. -/
structure Numbered (s : State Cpu Context) : Prop where
  below : ∀ c n, (s.control c).number = some n → n.1 < s.globalNextSlot.1
  distinct : ∀ c c' n, (s.control c).number = some n → (s.control c').number = some n → c = c'
  handed : ∀ n : Positive, n.1 < s.globalNextSlot.1 → ∃ c, (s.control c).number = some n

lemma Numbered.card_holders {s : State Cpu Context} (h : Numbered s) :
    (holders s).card = dumpCountOf s.globalNextSlot := by
  have hcard : (holders s).card = (Finset.Icc 1 (dumpCountOf s.globalNextSlot)).card := by
    apply Finset.card_bij (fun c _ => ((s.control c).number.map Subtype.val).getD 0)
    · intro c hc
      obtain ⟨n, hn, hle⟩ := mem_holders.mp hc
      have hlt := h.below c n hn
      have hpos := n.2
      simp only [hn, Option.map_some, Option.getD_some, Finset.mem_Icc, dumpCountOf]
      split <;> omega
    · intro c hc c' hc' he
      obtain ⟨n, hn, -⟩ := mem_holders.mp hc
      obtain ⟨n', hn', -⟩ := mem_holders.mp hc'
      simp only [hn, hn', Option.map_some, Option.getD_some] at he
      obtain rfl := Subtype.ext he
      exact h.distinct c c' n hn hn'
    · intro m hm
      rw [Finset.mem_Icc] at hm
      have hlt : m < s.globalNextSlot.1 ∧ m ≤ maxDumps := by
        have hpos := s.globalNextSlot.2
        unfold dumpCountOf at hm
        split at hm <;> omega
      obtain ⟨c, hc⟩ := h.handed ⟨m, hm.1⟩ hlt.1
      refine ⟨c, mem_holders.mpr ⟨_, hc, hlt.2⟩, ?_⟩
      rw [hc]
      rfl
  rw [hcard, Nat.card_Icc]
  omega

lemma dumpCountOf_eq_iff {n g : Positive} :
    dumpCountOf n = dumpCountOf g ↔ n = g ∨ (n.1 > maxDumps ∧ g.1 > maxDumps) := by
  have hn := n.2
  have hg := g.2
  rw [Subtype.ext_iff]
  unfold dumpCountOf
  split <;> split <;> omega

end Slots

/-! ### Steps -/

section Quiet

omit [∀ k, Inhabited (Context k)]

variable {Cpu : Type}

/-- What is the same for the CPU of a step and for all others is the same for all. -/
lemma forall_of_goto {β : Type} {s s' : State Cpu Context} (f : Control Context → β) (c : Cpu)
    (hothers : ∀ c', c' ≠ c → s'.control c' = s.control c') (h : f (s'.control c) = f (s.control c)) :
    ∀ c', f (s'.control c') = f (s.control c') := by
  intro c'
  by_cases hc : c' = c
  · rw [hc, h]
  · rw [hothers c' hc]

/-- A step that neither hands out a slot nor writes one of the two counts. -/
structure Quiet (c : Cpu) (s s' : State Cpu Context) : Prop where
  next : s'.globalNextSlot = s.globalNextSlot
  others : ∀ c', c' ≠ c → s'.control c' = s.control c'
  number : (s'.control c).number = (s.control c).number
  counted : (s'.control c).counted = (s.control c).counted
  incremented : (s'.control c).incremented = (s.control c).incremented
  dumpCount : s'.store.header.dumpCount = s.store.header.dumpCount
  crashCount : s'.store.header.crashCount = s.store.header.crashCount

lemma Quiet.refl (c : Cpu) (s : State Cpu Context) : Quiet c s s :=
  ⟨rfl, fun _ _ => rfl, rfl, rfl, rfl, rfl, rfl⟩

variable [DecidableEq Cpu]

@[simp] lemma State.goto_store (s : State Cpu Context) (c : Cpu) (k : Control Context) :
    (s.goto c k).store = s.store := rfl

@[simp] lemma State.goto_globalNextSlot (s : State Cpu Context) (c : Cpu) (k : Control Context) :
    (s.goto c k).globalNextSlot = s.globalNextSlot := rfl

@[simp] lemma State.goto_control_self (s : State Cpu Context) (c : Cpu) (k : Control Context) :
    (s.goto c k).control c = k := Function.update_self ..

lemma State.goto_control_of_ne (s : State Cpu Context) {c c' : Cpu} (k : Control Context) (h : c' ≠ c) :
    (s.goto c k).control c' = s.control c' := Function.update_of_ne h ..

lemma forall_goto {β : Type} (s : State Cpu Context) {t : State Cpu Context} {c : Cpu} {k : Control Context}
    (f : Control Context → β) (ht : t.control = s.control) (hk : f k = f (s.control c)) :
    ∀ c', f ((t.goto c k).control c') = f (s.control c') := by
  apply forall_of_goto f c
  · intro c' hne
    rw [State.goto_control_of_ne _ _ hne, ht]
  · rw [State.goto_control_self, hk]

lemma Quiet.goto {c : Cpu} {s s' : State Cpu Context} {k : Control Context}
    (hnext : s'.globalNextSlot = s.globalNextSlot) (hcontrol : s'.control = s.control)
    (hnumber : k.number = (s.control c).number) (hcounted : k.counted = (s.control c).counted)
    (hincremented : k.incremented = (s.control c).incremented)
    (hdump : s'.store.header.dumpCount = s.store.header.dumpCount)
    (hcrash : s'.store.header.crashCount = s.store.header.crashCount) : Quiet c s (s'.goto c k) where
  next := hnext
  others := by
    intro c' hne
    rw [State.goto_control_of_ne _ _ hne, hcontrol]
  number := by rw [State.goto_control_self, hnumber]
  counted := by rw [State.goto_control_self, hcounted]
  incremented := by rw [State.goto_control_self, hincremented]
  dumpCount := hdump
  crashCount := hcrash

end Quiet

section Steps

variable {Cpu : Type} [DecidableEq Cpu]

variable (version : List Char) (crash : Cpu → Crash Context)

/-- What one step of a CPU can do. -/
lemma step_cases (s : State Cpu Context) (c : Cpu) :
    (s.control c = .running ∧ step version crash s c = getAndInc s c) ∨
    (∃ slot next boots, s.control c = .finalizing slot (.writeDumpCount next boots) ∧
      step version crash s c = writeDumpCount s c slot next boots) ∨
    (∃ slot, s.control c = .finalizing slot .incCrashCount ∧
      step version crash s c = atomicIncCrashCount s c slot) ∨
    ((s.control c ≠ .running ∧ ∀ slot next boots, s.control c ≠ .finalizing slot (.writeDumpCount next boots)) ∧
      Quiet c s (step version crash s c)) := by
  cases hc : s.control c with
  | running => exact Or.inl ⟨rfl, by rw [step, hc]⟩
  | allocating n =>
    refine Or.inr (Or.inr (Or.inr ⟨⟨nofun, nofun⟩, ?_⟩))
    rw [step, hc]
    dsimp only
    unfold checkSlot
    split
    · exact Quiet.goto rfl rfl (by rw [hc]; rfl) (by rw [hc]; rfl) (by rw [hc]; rfl) rfl rfl
    · exact Quiet.goto rfl rfl (by rw [hc]; rfl) (by rw [hc]; rfl) (by rw [hc]; rfl) rfl rfl
  | stopped n =>
    refine Or.inr (Or.inr (Or.inr ⟨⟨nofun, nofun⟩, ?_⟩))
    rw [step, hc]
    exact Quiet.refl c s
  | auditing slot pending =>
    refine Or.inr (Or.inr (Or.inr ⟨⟨nofun, nofun⟩, ?_⟩))
    rw [step, hc]
    cases pending with
    | nil => exact Quiet.goto rfl rfl (by rw [hc]; rfl) (by rw [hc]; rfl) (by rw [hc]; rfl) rfl rfl
    | cons a pending => exact Quiet.goto rfl rfl (by rw [hc]; rfl) (by rw [hc]; rfl) (by rw [hc]; rfl) rfl rfl
  | finalizing slot stage =>
    have hstep : step version crash s c = finalize version s c slot stage := by rw [step, hc]
    rw [hstep]
    cases stage with
    | writeDumpCount next boots => exact Or.inr (Or.inl ⟨slot, next, boots, rfl, rfl⟩)
    | incCrashCount => exact Or.inr (Or.inr (Or.inl ⟨slot, rfl, rfl⟩))
    | readBoots next =>
      refine Or.inr (Or.inr (Or.inr ⟨⟨nofun, nofun⟩, ?_⟩))
      exact Quiet.goto rfl rfl (by rw [hc]; rfl) (by rw [hc]; rfl) (by rw [hc]; rfl) rfl rfl
    | writeVersion i boots =>
      refine Or.inr (Or.inr (Or.inr ⟨⟨nofun, nofun⟩, ?_⟩))
      rw [finalize]
      split
      · exact Quiet.goto rfl rfl (by rw [hc]; rfl) (by rw [hc]; rfl) (by rw [hc]; rfl) rfl rfl
      · exact Quiet.goto rfl rfl (by rw [hc]; rfl) (by rw [hc]; rfl) (by rw [hc]; rfl) rfl rfl
    | reset =>
      refine Or.inr (Or.inr (Or.inr ⟨⟨nofun, nofun⟩, ?_⟩))
      exact Quiet.refl c s

/-- The data of a slot is written by its holder only. -/
lemma step_data (s : State Cpu Context) (c : Cpu) (i : DumpdataIndex)
    (h : (step version crash s c).store.data i ≠ s.store.data i) : (s.control c).slot = some i := by
  rw [step] at h
  cases hc : s.control c with
  | running =>
    rw [hc] at h
    exact absurd rfl h
  | allocating n =>
    rw [hc] at h
    dsimp only at h
    unfold checkSlot at h
    split at h
    · exact absurd rfl h
    · exact absurd rfl h
  | stopped n =>
    rw [hc] at h
    exact absurd rfl h
  | auditing slot pending =>
    rw [hc] at h
    cases pending with
    | nil => exact absurd rfl h
    | cons a pending =>
      have hslot : i = slot := by
        by_contra hne
        apply h
        exact Function.update_of_ne hne ..
      rw [Control.slot_eq_some, hslot]
      rfl
  | finalizing slot stage =>
    rw [hc] at h
    cases stage with
    | writeVersion i boots =>
      simp only [finalize] at h
      split at h
      · exact absurd rfl h
      · exact absurd rfl h
    | readBoots next => exact absurd rfl h
    | writeDumpCount next boots => exact absurd rfl h
    | incCrashCount => exact absurd rfl h
    | reset => exact absurd rfl h

end Steps

/-! ### Runs -/

section Runs

variable {Cpu : Type} [Fintype Cpu]

omit [∀ k, Inhabited (Context k)] in
lemma holders_congr {s s' : State Cpu Context} (h : ∀ c, (s'.control c).number = (s.control c).number) :
    holders s' = holders s := by
  ext c
  rw [mem_holders, mem_holders, h c]

omit [∀ k, Inhabited (Context k)] in
lemma allCounted_congr {s s' : State Cpu Context} (h : ∀ c, (s'.control c).number = (s.control c).number)
    (hcounted : ∀ c, (s'.control c).counted = (s.control c).counted) : AllCounted s' ↔ AllCounted s := by
  unfold AllCounted
  rw [holders_congr h]
  simp only [hcounted]

omit [∀ k, Inhabited (Context k)] [Fintype Cpu] in
lemma Numbered.congr {s s' : State Cpu Context} (h : Numbered s) (hnext : s'.globalNextSlot = s.globalNextSlot)
    (hnumber : ∀ c, (s'.control c).number = (s.control c).number) : Numbered s' where
  below := by
    intro c n hc
    rw [hnext]
    exact h.below c n (by rw [← hnumber, hc])
  distinct := by
    intro c c' n hc hc'
    exact h.distinct c c' n (by rw [← hnumber, hc]) (by rw [← hnumber, hc'])
  handed := by
    intro n hn
    rw [hnext] at hn
    obtain ⟨c, hc⟩ := h.handed n hn
    exact ⟨c, by rw [hnumber, hc]⟩

variable [DecidableEq Cpu] (version : List Char) (crash : Cpu → Crash Context)

omit [∀ k, Inhabited (Context k)] [Fintype Cpu] in
lemma getAndInc_number_self (s : State Cpu Context) (c : Cpu) :
    ((getAndInc s c).control c).number = some s.globalNextSlot := by
  unfold getAndInc
  rw [State.goto_control_self]
  rfl

omit [∀ k, Inhabited (Context k)] [Fintype Cpu] in
lemma getAndInc_control_of_ne (s : State Cpu Context) {c c' : Cpu} (h : c' ≠ c) :
    (getAndInc s c).control c' = s.control c' := by
  unfold getAndInc
  rw [State.goto_control_of_ne _ _ h]

omit [∀ k, Inhabited (Context k)] [Fintype Cpu] in
lemma Numbered.getAndInc {s : State Cpu Context} {c : Cpu} (h : Numbered s) (hrunning : s.control c = .running) :
    Numbered (getAndInc s c) where
  below := by
    intro c' n hn
    change n.1 < s.globalNextSlot.1 + 1
    by_cases hc : c' = c
    · rw [hc, getAndInc_number_self] at hn
      obtain rfl := Option.some.inj hn
      omega
    · rw [getAndInc_control_of_ne s hc] at hn
      have hlt := h.below c' n hn
      omega
  distinct := by
    intro c₁ c₂ n h₁ h₂
    by_cases hc₁ : c₁ = c
    · by_cases hc₂ : c₂ = c
      · rw [hc₁, hc₂]
      · rw [hc₁, getAndInc_number_self] at h₁
        rw [getAndInc_control_of_ne s hc₂, ← h₁] at h₂
        have hlt := h.below c₂ _ h₂
        omega
    · rw [getAndInc_control_of_ne s hc₁] at h₁
      by_cases hc₂ : c₂ = c
      · rw [hc₂, getAndInc_number_self] at h₂
        rw [← h₂] at h₁
        have hlt := h.below c₁ _ h₁
        omega
      · rw [getAndInc_control_of_ne s hc₂] at h₂
        exact h.distinct c₁ c₂ n h₁ h₂
  handed := by
    intro n hn
    change n.1 < s.globalNextSlot.1 + 1 at hn
    by_cases he : n = s.globalNextSlot
    · exact ⟨c, by rw [getAndInc_number_self, he]⟩
    · have hne : n.1 ≠ s.globalNextSlot.1 := fun hv => he (Subtype.ext hv)
      obtain ⟨c', hc'⟩ := h.handed n (by omega)
      refine ⟨c', ?_⟩
      by_cases hc : c' = c
      · rw [hc, hrunning] at hc'
        exact absurd hc' nofun
      · rw [getAndInc_control_of_ne s hc, hc']

omit [∀ k, Inhabited (Context k)] [Fintype Cpu] in
lemma writeDumpCount_number {s : State Cpu Context} {c : Cpu} {slot : DumpdataIndex} {next : Positive}
    {boots : BitVec 64} (hc : s.control c = .finalizing slot (.writeDumpCount next boots)) :
    ∀ c', ((writeDumpCount s c slot next boots).control c').number = (s.control c').number := by
  apply forall_goto s Control.number rfl
  rw [hc]
  rfl

omit [∀ k, Inhabited (Context k)] [Fintype Cpu] in
lemma atomicIncCrashCount_number {s : State Cpu Context} {c : Cpu} {slot : DumpdataIndex}
    (hc : s.control c = .finalizing slot .incCrashCount) :
    ∀ c', ((atomicIncCrashCount s c slot).control c').number = (s.control c').number := by
  apply forall_goto s Control.number rfl
  rw [hc]
  rfl

omit [Fintype Cpu] in
lemma Numbered.step {s : State Cpu Context} (h : Numbered s) (c : Cpu) : Numbered (step version crash s c) := by
  rcases step_cases version crash s c with ⟨hc, hs⟩ | ⟨slot, next, boots, hc, hs⟩ | ⟨slot, hc, hs⟩ | ⟨-, hq⟩
  · rw [hs]
    exact h.getAndInc hc
  · rw [hs]
    exact h.congr rfl (writeDumpCount_number hc)
  · rw [hs]
    exact h.congr rfl (atomicIncCrashCount_number hc)
  · exact h.congr hq.next (forall_of_goto Control.number c hq.others hq.number)

/-- When all CPUs that hold a slot have written the dump count, it is their number. -/
def Counted (s : State Cpu Context) : Prop := AllCounted s → s.store.header.dumpCount = (holders s).card

omit [∀ k, Inhabited (Context k)] [DecidableEq Cpu] in
lemma counted_congr {s s' : State Cpu Context} (hnumber : ∀ c, (s'.control c).number = (s.control c).number)
    (hcounted : ∀ c, (s'.control c).counted = (s.control c).counted)
    (hdump : s'.store.header.dumpCount = s.store.header.dumpCount) : Counted s' ↔ Counted s := by
  unfold Counted
  rw [allCounted_congr hnumber hcounted, holders_congr hnumber, hdump]

omit [∀ k, Inhabited (Context k)] in
lemma getAndInc_counted {s : State Cpu Context} {c : Cpu} (hrunning : s.control c = .running) (h : Counted s) :
    Counted (getAndInc s c) := by
  intro hall
  have hself : ((getAndInc s c).control c).counted = false := by
    unfold getAndInc
    rw [State.goto_control_self]
    rfl
  have hmax : ¬ s.globalNextSlot.1 ≤ maxDumps := by
    intro hle
    have hmem : c ∈ holders (getAndInc s c) := mem_holders.mpr ⟨_, getAndInc_number_self s c, hle⟩
    have htrue := hall c hmem
    rw [hself] at htrue
    exact absurd htrue nofun
  have hholders : holders (getAndInc s c) = holders s := by
    ext c'
    rw [mem_holders, mem_holders]
    by_cases hc : c' = c
    · rw [hc, getAndInc_number_self, hrunning]
      constructor
      · rintro ⟨n, hn, hle⟩
        obtain rfl := Option.some.inj hn
        exact absurd hle hmax
      · rintro ⟨n, hn, -⟩
        exact absurd hn nofun
    · rw [getAndInc_control_of_ne s hc]
  rw [hholders]
  apply h
  intro c' hc'
  have hne : c' ≠ c := by
    intro he
    rw [he, mem_holders, hrunning] at hc'
    obtain ⟨n, hn, -⟩ := hc'
    exact absurd hn nofun
  have htrue := hall c' (by rw [hholders]; exact hc')
  rwa [getAndInc_control_of_ne s hne] at htrue

omit [∀ k, Inhabited (Context k)] in
lemma writeDumpCount_counted_iff {s : State Cpu Context} {c : Cpu} {slot : DumpdataIndex} {next : Positive}
    {boots : BitVec 64} (h : Numbered s) (hc : s.control c = .finalizing slot (.writeDumpCount next boots)) :
    Counted (writeDumpCount s c slot next boots) ↔ OnTime s c := by
  have hholders := holders_congr (writeDumpCount_number hc)
  have hall : AllCounted (writeDumpCount s c slot next boots) ↔
      ∀ c' ∈ holders s, c' ≠ c → (s.control c').counted = true := by
    unfold AllCounted
    rw [hholders]
    constructor
    · intro hall c' hmem hne
      have htrue := hall c' hmem
      unfold writeDumpCount at htrue
      rwa [State.goto_control_of_ne _ _ hne] at htrue
    · intro hall c' hmem
      unfold writeDumpCount
      by_cases he : c' = c
      · rw [he, State.goto_control_self]
        rfl
      · rw [State.goto_control_of_ne _ _ he]
        exact hall c' hmem he
  have hdump : (writeDumpCount s c slot next boots).store.header.dumpCount = dumpCountOf next := rfl
  unfold Counted
  rw [hall, hholders, hdump, h.card_holders, dumpCountOf_eq_iff]
  constructor
  · intro hright slot' next' boots' he
    rw [hc] at he
    cases he
    exact hright
  · intro htime
    exact htime slot next boots hc

/-- A step keeps the count right exactly when it is not a late write of the dump count. -/
lemma step_counted_iff {s : State Cpu Context} (h : Numbered s) (hs : Counted s) (c : Cpu) :
    Counted (step version crash s c) ↔ OnTime s c := by
  rcases step_cases version crash s c with
    ⟨hc, hstep⟩ | ⟨slot, next, boots, hc, hstep⟩ | ⟨slot, hc, hstep⟩ | ⟨⟨-, hc⟩, hq⟩
  · have htime : OnTime s c := by
      intro slot next boots he
      rw [hc] at he
      exact absurd he nofun
    rw [hstep]
    exact iff_of_true (getAndInc_counted hc hs) htime
  · rw [hstep]
    exact writeDumpCount_counted_iff h hc
  · have htime : OnTime s c := by
      intro slot' next boots he
      rw [hc] at he
      exact absurd he nofun
    rw [hstep]
    apply iff_of_true _ htime
    apply (counted_congr (atomicIncCrashCount_number hc) _ rfl).mpr hs
    apply forall_goto s Control.counted rfl
    rw [hc]
    rfl
  · have htime : OnTime s c := by
      intro slot next boots he
      exact absurd he (hc slot next boots)
    rw [counted_congr (forall_of_goto Control.number c hq.others hq.number)
      (forall_of_goto Control.counted c hq.others hq.counted) hq.dumpCount]
    exact iff_of_true hs htime

/-! The count of crashes. -/

/-- The CPUs that have incremented the crash count. -/
def incrementers (s : State Cpu Context) : Finset Cpu :=
  Finset.univ.filter (fun c => (s.control c).incremented = true)

omit [∀ k, Inhabited (Context k)] [DecidableEq Cpu] in
lemma mem_incrementers {s : State Cpu Context} {c : Cpu} :
    c ∈ incrementers s ↔ (s.control c).incremented = true := by
  rw [incrementers, Finset.mem_filter]
  exact and_iff_right (Finset.mem_univ c)

omit [∀ k, Inhabited (Context k)] [DecidableEq Cpu] in
lemma incrementers_congr {s s' : State Cpu Context}
    (h : ∀ c, (s'.control c).incremented = (s.control c).incremented) : incrementers s' = incrementers s := by
  unfold incrementers
  simp only [h]

omit [∀ k, Inhabited (Context k)] in
lemma card_incrementers_atomicIncCrashCount {s : State Cpu Context} {c : Cpu} {slot : DumpdataIndex}
    (hc : s.control c = .finalizing slot .incCrashCount) :
    (incrementers (atomicIncCrashCount s c slot)).card = (incrementers s).card + 1 := by
  have hnotMem : c ∉ incrementers s := by
    rw [mem_incrementers, hc]
    exact Bool.false_ne_true
  rw [← Finset.card_insert_of_notMem hnotMem]
  congr 1
  ext c'
  rw [Finset.mem_insert, mem_incrementers, mem_incrementers]
  unfold atomicIncCrashCount
  by_cases he : c' = c
  · rw [he, State.goto_control_self]
    exact iff_of_true rfl (Or.inl rfl)
  · rw [State.goto_control_of_ne _ _ he]
    simp [he, State.setHeader]

/-- The crash count has grown by the number of CPUs that have incremented it. -/
def Grown (first : BitVec 64) (s : State Cpu Context) : Prop :=
  s.store.header.crashCount = first + BitVec.ofNat 64 (incrementers s).card

omit [∀ k, Inhabited (Context k)] [DecidableEq Cpu] in
lemma Grown.congr {first : BitVec 64} {s s' : State Cpu Context} (h : Grown first s)
    (hcrash : s'.store.header.crashCount = s.store.header.crashCount)
    (hinc : ∀ c, (s'.control c).incremented = (s.control c).incremented) : Grown first s' := by
  unfold Grown
  rw [hcrash, incrementers_congr hinc]
  exact h

lemma Grown.step {first : BitVec 64} {s : State Cpu Context} (h : Grown first s) (c : Cpu) :
    Grown first (step version crash s c) := by
  rcases step_cases version crash s c with
    ⟨hc, hs⟩ | ⟨slot, next, boots, hc, hs⟩ | ⟨slot, hc, hs⟩ | ⟨-, hq⟩
  · rw [hs]
    refine h.congr rfl (forall_goto s Control.incremented rfl ?_)
    rw [hc]
    rfl
  · rw [hs]
    refine h.congr rfl (forall_goto s Control.incremented rfl ?_)
    rw [hc]
    rfl
  · rw [hs]
    unfold Grown
    rw [card_incrementers_atomicIncCrashCount hc, BitVec.ofNat_add, ← add_assoc, ← h]
    rfl
  · exact h.congr hq.crashCount (forall_of_goto Control.incremented c hq.others hq.incremented)

/-! Whole runs. -/

omit [Fintype Cpu] in
lemma run_concat (dump : Dump Context) (order : List Cpu) (c : Cpu) :
    run version crash dump (order ++ [c]) = step version crash (run version crash dump order) c := by
  unfold run
  rw [List.foldl_append]
  rfl

omit [DecidableEq Cpu] [Fintype Cpu] in
lemma boot_numbered (dump : Dump Context) : Numbered (boot dump : State Cpu Context) where
  below := by
    intro c n h
    exact absurd h nofun
  distinct := by
    intro c c' n h
    exact absurd h nofun
  handed := by
    intro n hn
    have hpos := n.2
    change n.1 < 1 at hn
    omega

omit [Fintype Cpu] in
lemma run_numbered (dump : Dump Context) (order : List Cpu) : Numbered (run version crash dump order) := by
  induction order using List.reverseRecOn with
  | nil => exact boot_numbered dump
  | append_singleton order c ih =>
    rw [run_concat]
    exact ih.step version crash c

lemma run_grown (dump : Dump Context) (order : List Cpu) :
    Grown (init dump).header.crashCount (run version crash dump order) := by
  induction order using List.reverseRecOn with
  | nil =>
    have hnone : incrementers (boot dump : State Cpu Context) = ∅ := by
      simp [incrementers, boot, Control.incremented]
    change (init dump).header.crashCount = _ + BitVec.ofNat 64 (incrementers (boot dump : State Cpu Context)).card
    rw [hnone]
    simp
  | append_singleton order c ih =>
    rw [run_concat]
    exact ih.step version crash c

omit [DecidableEq Cpu] in
lemma boot_counted_iff (dump : Dump Context) :
    Counted (boot dump : State Cpu Context) ↔ (init dump).header.dumpCount = 0 := by
  have hnone : holders (boot dump : State Cpu Context) = ∅ := by
    simp [holders, boot, Control.slot, Control.number]
  unfold Counted AllCounted
  rw [hnone]
  simp [boot]

/-- The count is right throughout a run exactly when it is zero at its start and no write of it is late. -/
lemma run_counted_iff (dump : Dump Context) (order : List Cpu) :
    (∀ done, done <+: order → Counted (run version crash dump done)) ↔
      (init dump).header.dumpCount = 0 ∧
      ∀ done c, done ++ [c] <+: order → OnTime (run version crash dump done) c := by
  induction order using List.reverseRecOn with
  | nil => simp [run, boot_counted_iff]
  | append_singleton order c ih =>
    have hsplit : (∀ done, done <+: order ++ [c] → Counted (run version crash dump done)) ↔
        (∀ done, done <+: order → Counted (run version crash dump done)) ∧
          OnTime (run version crash dump order) c := by
      constructor
      · intro h
        have hbefore : ∀ done, done <+: order → Counted (run version crash dump done) :=
          fun done hdone => h done (hdone.trans (List.prefix_append _ _))
        refine ⟨hbefore, ?_⟩
        rw [← step_counted_iff version crash (run_numbered version crash dump order) (hbefore order List.prefix_rfl),
          ← run_concat]
        exact h _ List.prefix_rfl
      · rintro ⟨hbefore, htime⟩ done hdone
        rcases List.prefix_concat_iff.mp hdone with rfl | hdone
        · rw [run_concat, step_counted_iff version crash (run_numbered version crash dump order)
            (hbefore order List.prefix_rfl)]
          exact htime
        · exact hbefore done hdone
    rw [hsplit, ih, and_assoc]
    apply and_congr_right
    intro _
    constructor
    · rintro ⟨hbefore, htime⟩ done c' hdone
      rcases List.prefix_concat_iff.mp hdone with he | hdone
      · obtain ⟨rfl, hc⟩ := List.append_inj' he rfl
        obtain rfl := List.singleton_inj.mp hc
        exact htime
      · exact hbefore done c' hdone
    · intro h
      exact ⟨fun done c' hdone => h done c' (hdone.trans (List.prefix_append _ _)), h order c List.prefix_rfl⟩

lemma lossless_iff_counted {first s : State Cpu Context} (h : Numbered s)
    (hgrown : Grown first.store.header.crashCount s) :
    Lossless version crash first s ↔ Counted s := by
  constructor
  · intro hlossless
    exact hlossless.dumpCount
  · intro hcounted
    constructor
    · intro c c' i hc hc'
      rw [Control.slot_eq_some] at hc hc'
      exact h.distinct c c' _ hc hc'
    · intro c n hn hmax
      funext i
      by_contra hne
      have hslot := step_data version crash s c i hne
      rw [Control.slot_eq_some, hn] at hslot
      obtain rfl := Option.some.inj hslot
      have hle := i.2.2
      exact absurd hmax (Nat.not_lt.mpr hle)
    · exact step_data version crash s
    · exact hcounted
    · exact hgrown

/-- No crash record is lost in a run exactly when the dump count is zero at its start and no CPU makes the
last outstanding write of the dump count with a slot index that has been handed out since. -/
theorem run_lossless_iff (dump : Dump Context) (order : List Cpu) :
    (∀ done, done <+: order → Lossless version crash (boot dump) (run version crash dump done)) ↔
      (init dump).header.dumpCount = 0 ∧
      ∀ done c, done ++ [c] <+: order → OnTime (run version crash dump done) c := by
  rw [← run_counted_iff]
  apply forall_congr'
  intro done
  apply imp_congr_right
  intro _
  exact lossless_iff_counted version crash (run_numbered version crash dump done) (run_grown version crash dump done)

end Runs

/-! Two CPUs crash. The first one reads the next slot index before the second one is handed its slot and
writes the dump count after it. -/

def systemPanic : Crash (fun _ => Unit) where
  apicId := 0
  tsc := 0
  settings := [.reason ⟨0x2000, by decide⟩]
  valid := ⟨_, List.mem_singleton_self _⟩

theorem run_lossless_stale :
    ¬ ∀ done, done <+: List.replicate 8 (0 : Fin 2) ++ List.replicate 9 1 ++ [0] →
      Lossless [] (fun _ => systemPanic) (boot nullDump) (run [] (fun _ => systemPanic) nullDump done) := by
  intro h
  have hcount := (h _ List.prefix_rfl).dumpCount
  unfold AllCounted at hcount
  revert hcount
  decide

end Muen.Kernel.CrashAudit
