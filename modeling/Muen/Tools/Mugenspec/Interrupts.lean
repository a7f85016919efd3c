import Muen.Tools.Mucfgcheck.Devices
import Muen.Tools.Mugenspec.Events

/-!
# Spec.Skp_Interrupts

The table that routes host vectors to subjects, and the vectors that can be masked. Each interrupt that an accepted
policy assigns to a subject has its vector for itself.
-/

namespace Muen.Tools.Mugenspec.Interrupts

open Lib SystemPolicy
open Events (mapM_option map_of_mapM)

/-- `Mutools.XML_Utils.IRQ_Kind`. -/
inductive IrqKind
  | isa
  | pciLsi
  | pciMsi
deriving DecidableEq

def getIRQKind (dev : Device) : IrqKind :=
  if dev.msi = "" then .isa else if dev.msi = "true" then .pciMsi else .pciLsi

/-- `Mutools.Constants.Host_IRQ_Remap_Offset`. -/
def hostIRQRemapOffset : ℕ := 32

/-- `Vector_Route_Type`, without a subject for `Invalid_Subject`. -/
structure VectorRoute where
  subject : Option ℕ
  vector : ℕ
deriving DecidableEq

def nullVectorRoute : VectorRoute := ⟨none, 0⟩

variable (value : String → Option ℕ) (d : Document)

/-- The interrupt of the hardware with the names of an assigned one. -/
def physicalIRQ (irq : Subject × LogicalDevice × LogicalIrq) : Option (Device × Irq) := do
  let devNode ← getElement d.devices Device.name irq.2.1.physical
  let physicalIRQ ← getElement devNode.irqs Irq.name irq.2.2.physical
  some (devNode, physicalIRQ)

/-- What `Write_Interrupt` adds for an assigned interrupt. -/
structure Interrupt where
  hostVector : ℕ
  route : VectorRoute
  mask : Bool

def writeInterrupt (irq : Subject × LogicalDevice × LogicalIrq) : Option Interrupt := do
  let physical ← physicalIRQ d irq
  let irqNr ← natural value physical.2.number
  let subjectID ← natural value irq.1.globalId
  let subjectVector ← natural value irq.2.2.vector
  some ⟨irqNr + hostIRQRemapOffset, ⟨some subjectID, subjectVector⟩, getIRQKind physical.1 = .pciLsi⟩

/-- The loop over the assigned interrupts. -/
def interrupts : Option (List Interrupt) := d.irqs.mapM fun x => writeInterrupt value d x.1

/-- `Vector_Routing`. -/
def vectorRouting (l : List Interrupt) : Aggregate ℕ VectorRoute :=
  ⟨l.map fun interrupt => ([interrupt.hostVector], interrupt.route), some nullVectorRoute⟩

/-- `Mask_IRQ_Type`. -/
def maskIRQs (l : List Interrupt) : List ℕ := (l.filter Interrupt.mask).map Interrupt.hostVector

/-- What the schema of format B says of interrupts. -/
structure InFormatB : Prop where
  number : ∀ x ∈ d.physicalIrqs, ∃ n ≤ 220, natural value x.2.number = some n
  vector : ∀ x ∈ d.logicalIrqs, ∃ n, natural value x.2.2.vector = some n
  globalID : ∀ subject ∈ d.subjects, ∃ n, natural value subject.globalId = some n

/-- The checks of names and numbers of interrupts record no errors. -/
structure Accepted : Prop where
  devices : Mucfgcheck.Devices.physicalDeviceNameUniqueness d = some []
  names : Mucfgcheck.Devices.deviceIRQNameUniqueness d = some []
  numbers : Mucfgcheck.Devices.physicalIRQUniqueness value d = some []

/-- Vectors from the remap offset to 255 have one route: each assigned interrupt that to its subject, and the others
none. Interrupts that are level-triggered can be masked. -/
structure Routes (l : List Interrupt) : Prop where
  legal : (vectorRouting l).Legal fun vector => hostIRQRemapOffset ≤ vector ∧ vector ≤ 255
  assigned : ∀ x ∈ d.irqs, ∃ n subjectID vector, natural value x.2.2.number = some n ∧
    natural value x.1.1.globalId = some subjectID ∧ natural value x.1.2.2.vector = some vector ∧
    (vectorRouting l).find (n + hostIRQRemapOffset) = some ⟨some subjectID, vector⟩ ∧
    (n + hostIRQRemapOffset ∈ maskIRQs l ↔ getIRQKind x.2.1 = .pciLsi)
  other : ∀ n, (∀ x ∈ d.irqs, natural value x.2.2.number ≠ some n) →
    (vectorRouting l).find (n + hostIRQRemapOffset) = some nullVectorRoute ∧ n + hostIRQRemapOffset ∉ maskIRQs l

/-! ### Physical interrupts -/

variable {value d}

/-- The names of an assigned interrupt tell which one it is. -/
lemma physicalIRQ_eq (hA : Accepted value d) {x : (Subject × LogicalDevice × LogicalIrq) × Device × Irq}
    (hx : x ∈ d.irqs) : physicalIRQ d x.1 = some x.2 := by
  obtain ⟨-, hphysical, hvalid⟩ := mem_getMatching hx
  obtain ⟨hirq, hdevice⟩ := Bool.and_eq_true_iff.mp hvalid
  obtain ⟨hdeviceMem, hirqMem⟩ := mem_children.mp hphysical
  have hdev : getElement d.devices Device.name x.1.2.1.physical = some x.2.1 := by
    apply getElement_eq hdeviceMem (isValidReference_eq hdevice).symm
    intro device hmem hname
    have hnodup := Mucfgcheck.Devices.physicalDeviceNameUniqueness_nil hA.devices
    exact List.inj_on_of_nodup_map hnodup hmem hdeviceMem (hname.trans (isValidReference_eq hdevice))
  have hirqNode : getElement x.2.1.irqs Irq.name x.1.2.2.physical = some x.2.2 := by
    apply getElement_eq hirqMem (isValidReference_eq hirq).symm
    intro irq hmem hname
    have hnodup := Mucfgcheck.Devices.deviceIRQNameUniqueness_nil hA.names hdeviceMem
    exact List.inj_on_of_nodup_map hnodup hmem hirqMem (hname.trans (isValidReference_eq hirq))
  unfold physicalIRQ
  rw [hdev, Option.bind_eq_bind, Option.bind_some, hirqNode]
  rfl

lemma writeInterrupt_eq (hB : InFormatB value d) (hA : Accepted value d)
    {x : (Subject × LogicalDevice × LogicalIrq) × Device × Irq} (hx : x ∈ d.irqs) :
    ∃ n ≤ 220, ∃ subjectID vector, natural value x.2.2.number = some n ∧
      natural value x.1.1.globalId = some subjectID ∧ natural value x.1.2.2.vector = some vector ∧
      writeInterrupt value d x.1 =
        some ⟨n + hostIRQRemapOffset, ⟨some subjectID, vector⟩, getIRQKind x.2.1 = .pciLsi⟩ := by
  obtain ⟨hlogical, hphysical, -⟩ := mem_getMatching hx
  obtain ⟨n, hle, hn⟩ := hB.number x.2 hphysical
  obtain ⟨vector, hvector⟩ := hB.vector x.1 hlogical
  obtain ⟨subjectID, hid⟩ := hB.globalID x.1.1 (mem_grandchildren.mp hlogical).1
  refine ⟨n, hle, subjectID, vector, hn, hid, hvector, ?_⟩
  unfold writeInterrupt
  rw [physicalIRQ_eq hA hx, Option.bind_eq_bind, Option.bind_some, hn, hid, hvector]
  rfl

/-! ### Vectors -/

lemma indexes_vectorRouting (l : List Interrupt) :
    indexes (vectorRouting l).choices = l.map Interrupt.hostVector := by
  unfold indexes vectorRouting
  rw [List.flatMap_map]
  exact List.flatMap_pure_eq_map _ _

lemma chosen_vectorRouting {l : List Interrupt} {interrupt : Interrupt} (h : interrupt ∈ l) :
    Chosen (vectorRouting l).choices interrupt.hostVector interrupt.route :=
  ⟨[interrupt.hostVector], List.mem_map_of_mem h, List.mem_singleton_self _⟩

/-- The interrupts that are written for a policy. -/
lemma interrupts_spec (hB : InFormatB value d) (hA : Accepted value d) {l : List Interrupt}
    (hl : interrupts value d = some l) : (l.map Interrupt.hostVector).Nodup ∧
      ∀ interrupt, interrupt ∈ l ↔ ∃ x ∈ d.irqs, writeInterrupt value d x.1 = some interrupt := by
  have hmap : (d.irqs.map fun x => writeInterrupt value d x.1) = l.map some := map_of_mapM hl
  have hvectors : (l.map Interrupt.hostVector).map some =
      (d.irqs.map fun x => natural value x.2.2.number).map (Option.map (· + hostIRQRemapOffset)) := by
    calc (l.map Interrupt.hostVector).map some = (l.map some).map (Option.map Interrupt.hostVector) := by
          rw [List.map_map, List.map_map]
          rfl
      _ = (d.irqs.map fun x => writeInterrupt value d x.1).map (Option.map Interrupt.hostVector) := by rw [hmap]
      _ = (d.irqs.map fun x => natural value x.2.2.number).map (Option.map (· + hostIRQRemapOffset)) := by
          rw [List.map_map, List.map_map]
          apply List.map_congr_left
          intro x hx
          obtain ⟨n, -, subjectID, vector, hn, -, -, hwrite⟩ := writeInterrupt_eq hB hA hx
          rw [Function.comp_apply, Function.comp_apply, hwrite, hn]
          rfl
  have hnodup := Mucfgcheck.Devices.physicalIRQUniqueness_nil hA.numbers
  refine ⟨List.Nodup.of_map some ?_, fun interrupt => ?_⟩
  · rw [hvectors]
    exact hnodup.map (Option.map_injective (add_left_injective hostIRQRemapOffset))
  · rw [← List.mem_map_of_injective (Option.some_injective Interrupt), ← hmap, List.mem_map]

lemma hostVector_eq (hB : InFormatB value d) (hA : Accepted value d) {l : List Interrupt}
    (hl : interrupts value d = some l) {interrupt : Interrupt} (h : interrupt ∈ l) :
    ∃ x ∈ d.irqs, ∃ n ≤ 220, natural value x.2.2.number = some n ∧
      interrupt.hostVector = n + hostIRQRemapOffset := by
  obtain ⟨-, hmem⟩ := interrupts_spec hB hA hl
  obtain ⟨x, hx, hwrite⟩ := (hmem interrupt).mp h
  obtain ⟨n, hle, subjectID, vector, hn, -, -, hwrite'⟩ := writeInterrupt_eq hB hA hx
  exact ⟨x, hx, n, hle, hn, by rw [Option.some.inj (hwrite.symm.trans hwrite')]⟩

lemma vectorRouting_legal (hB : InFormatB value d) (hA : Accepted value d) {l : List Interrupt}
    (hl : interrupts value d = some l) :
    (vectorRouting l).Legal fun vector => hostIRQRemapOffset ≤ vector ∧ vector ≤ 255 where
  nodup := by
    rw [indexes_vectorRouting]
    exact (interrupts_spec hB hA hl).1
  inRange := by
    intro vector hvector
    rw [indexes_vectorRouting] at hvector
    obtain ⟨interrupt, hinterrupt, rfl⟩ := List.mem_map.mp hvector
    obtain ⟨x, -, n, hle, -, heq⟩ := hostVector_eq hB hA hl hinterrupt
    rw [heq, hostIRQRemapOffset]
    omega
  complete := fun hnone => absurd hnone (Option.some_ne_none _)

lemma assigned_route (hB : InFormatB value d) (hA : Accepted value d) {l : List Interrupt}
    (hl : interrupts value d = some l) {x : (Subject × LogicalDevice × LogicalIrq) × Device × Irq} (hx : x ∈ d.irqs) :
    ∃ n subjectID vector, natural value x.2.2.number = some n ∧ natural value x.1.1.globalId = some subjectID ∧
      natural value x.1.2.2.vector = some vector ∧
      (vectorRouting l).find (n + hostIRQRemapOffset) = some ⟨some subjectID, vector⟩ ∧
      (n + hostIRQRemapOffset ∈ maskIRQs l ↔ getIRQKind x.2.1 = .pciLsi) := by
  obtain ⟨hnodup, hmem⟩ := interrupts_spec hB hA hl
  obtain ⟨n, -, subjectID, vector, hn, hid, hvector, hwrite⟩ := writeInterrupt_eq hB hA hx
  have hinterrupt := (hmem _).mpr ⟨x, hx, hwrite⟩
  refine ⟨n, subjectID, vector, hn, hid, hvector, ?_, ?_⟩
  · exact Aggregate.find_of_chosen (vectorRouting_legal hB hA hl).nodup (chosen_vectorRouting hinterrupt)
  · unfold maskIRQs
    constructor
    · intro hmask
      obtain ⟨other, hother, hsame⟩ := List.mem_map.mp hmask
      obtain ⟨hotherMem, hotherMask⟩ := List.mem_filter.mp hother
      rw [List.inj_on_of_nodup_map hnodup hotherMem hinterrupt hsame] at hotherMask
      exact of_decide_eq_true hotherMask
    · intro hkind
      exact List.mem_map.mpr ⟨_, List.mem_filter.mpr ⟨hinterrupt, decide_eq_true hkind⟩, rfl⟩

lemma other_route (hB : InFormatB value d) (hA : Accepted value d) {l : List Interrupt}
    (hl : interrupts value d = some l) {n : ℕ} (hnone : ∀ x ∈ d.irqs, natural value x.2.2.number ≠ some n) :
    (vectorRouting l).find (n + hostIRQRemapOffset) = some nullVectorRoute ∧
      n + hostIRQRemapOffset ∉ maskIRQs l := by
  have hnot : n + hostIRQRemapOffset ∉ l.map Interrupt.hostVector := by
    intro hvector
    obtain ⟨interrupt, hinterrupt, hsame⟩ := List.mem_map.mp hvector
    obtain ⟨x, hx, n', -, hn', heq⟩ := hostVector_eq hB hA hl hinterrupt
    obtain rfl : n' = n := Nat.add_right_cancel (heq.symm.trans hsame)
    exact hnone x hx hn'
  refine ⟨Aggregate.find_of_notMem (by rwa [indexes_vectorRouting]), fun hmask => hnot ?_⟩
  obtain ⟨interrupt, hinterrupt, hsame⟩ := List.mem_map.mp hmask
  exact hsame ▸ List.mem_map_of_mem (List.mem_filter.mp hinterrupt).1

lemma callPolicy_inFormatB : InFormatB Events.decimal Events.callPolicy where
  number := by
    have hnumber : ∀ x ∈ Events.callPolicy.physicalIrqs, natural Events.decimal x.2.number = some 16 := by
      decide +kernel
    exact fun x hx => ⟨16, by decide, hnumber x hx⟩
  vector := by
    have hvector : ∀ x ∈ Events.callPolicy.logicalIrqs, natural Events.decimal x.2.2.vector = some 40 := by
      decide +kernel
    exact fun x hx => ⟨40, hvector x hx⟩
  globalID := fun subject hsubject => (Events.callPolicy_inFormatB.globalID subject hsubject).imp fun _ h => h.1

lemma callPolicy_accepted : Accepted Events.decimal Events.callPolicy where
  devices := by decide +kernel
  names := by decide +kernel
  numbers := by decide +kernel

end Muen.Tools.Mugenspec.Interrupts
