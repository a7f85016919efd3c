import Muen.Tools.Mucfgcheck.Scheduling

/-!
# System policies

The parts of a system policy in format B that tell which subjects there are, where they run and what events they send
each other. Attributes are texts; what number a text stands for is a parameter.
-/

namespace Muen.Tools.SystemPolicy

open Mucfgcheck.Scheduling (naturalValue unsigned64Value)

/-- An element below an event: the action, with its attributes. -/
structure Action where
  name : String
  number : String
  vector : String
deriving DecidableEq

/-- An element of a group of source events, with its tag. -/
structure SourceEvent where
  tag : String
  id : String
  logical : String
  physical : String
  actions : List Action
deriving DecidableEq

structure EventGroup where
  name : String
  events : List SourceEvent
deriving DecidableEq

structure TargetEvent where
  id : String
  logical : String
  physical : String
  actions : List Action
deriving DecidableEq

/-- The interrupt of a device that is assigned to a subject. -/
structure LogicalIrq where
  physical : String
  vector : String
deriving DecidableEq

structure LogicalDevice where
  physical : String
  irqs : List LogicalIrq
deriving DecidableEq

structure Subject where
  name : String
  globalId : String
  cpu : String
  schedGroupId : String
  groups : List EventGroup
  targets : List TargetEvent
  devices : List LogicalDevice
deriving DecidableEq

structure Event where
  name : String
  mode : String
deriving DecidableEq

/-- A scheduling group with the names of its subjects. -/
structure Group where
  id : String
  subjects : List String
deriving DecidableEq

structure Partition where
  id : String
  name : String
  cpu : String
  groups : List Group
deriving DecidableEq

structure MinorFrame where
  partition : String
  ticks : String
  barrier : String
deriving DecidableEq

structure Cpu where
  id : String
  minorFrames : List MinorFrame
deriving DecidableEq

structure MajorFrame where
  cpus : List Cpu
deriving DecidableEq

/-- A region of physical memory. -/
structure Memory where
  name : String
  type : String
  physicalAddress : String
  size : String
deriving DecidableEq

structure Irq where
  name : String
  number : String
deriving DecidableEq

/-- A device of the hardware; `msi` is that of its PCI element, and empty without one. -/
structure Device where
  name : String
  msi : String
  irqs : List Irq
  memory : List Memory
deriving DecidableEq

structure Document where
  events : List Event
  subjects : List Subject
  partitions : List Partition
  majorFrames : List MajorFrame
  memory : List Memory
  devices : List Device
  /-- The names of the aliases and classes of the platform. -/
  aliases : List String

section Paths

variable {α β γ : Type} (f : α → List β) (g : β → List γ) (nodes : List α)

/-- The children of nodes, with their parents. -/
def children : List (α × β) := nodes.flatMap fun node => (f node).map fun child => (node, child)

/-- The grandchildren of nodes, with their ancestors. -/
def grandchildren : List (α × β × γ) := nodes.flatMap fun node => (children g (f node)).map fun child => (node, child)

variable {f g nodes}

lemma mem_children {x : α × β} : x ∈ children f nodes ↔ x.1 ∈ nodes ∧ x.2 ∈ f x.1 := by
  unfold children
  constructor
  · intro h
    obtain ⟨node, hnode, h⟩ := List.mem_flatMap.mp h
    obtain ⟨child, hchild, rfl⟩ := List.mem_map.mp h
    exact ⟨hnode, hchild⟩
  · rintro ⟨hnode, hchild⟩
    apply List.mem_flatMap_of_mem hnode
    exact List.mem_map_of_mem hchild

lemma mem_grandchildren {x : α × β × γ} :
    x ∈ grandchildren f g nodes ↔ x.1 ∈ nodes ∧ x.2.1 ∈ f x.1 ∧ x.2.2 ∈ g x.2.1 := by
  unfold grandchildren
  constructor
  · intro h
    obtain ⟨node, hnode, h⟩ := List.mem_flatMap.mp h
    obtain ⟨child, hchild, rfl⟩ := List.mem_map.mp h
    exact ⟨hnode, mem_children.mp hchild⟩
  · rintro ⟨hnode, hchild⟩
    apply List.mem_flatMap_of_mem hnode
    exact List.mem_map_of_mem (mem_children.mpr hchild)

end Paths

namespace Document

variable (d : Document)

/-- `/system/subjects/subject/events/source/group/*`, with the subjects and the groups. -/
def sources : List (Subject × EventGroup × SourceEvent) := grandchildren Subject.groups EventGroup.events d.subjects

/-- `/system/subjects/subject/events/target/event`, with the subjects. -/
def targets : List (Subject × TargetEvent) := children Subject.targets d.subjects

/-- `/system/scheduling/partitions/partition/group`, with the partitions. -/
def groups : List (Partition × Group) := children Partition.groups d.partitions

/-- `/system/scheduling/partitions/partition/group/subject`, with the partitions and the groups. -/
def groupSubjects : List (Partition × Group × String) := grandchildren Partition.groups Group.subjects d.partitions

/-- `/system/scheduling/majorFrame/cpu/minorFrame`, with the major frames and the CPUs. -/
def minorFrames : List (MajorFrame × Cpu × MinorFrame) := grandchildren MajorFrame.cpus Cpu.minorFrames d.majorFrames

/-- `/system/subjects/subject/devices/device/irq`, with the subjects and the devices. -/
def logicalIrqs : List (Subject × LogicalDevice × LogicalIrq) :=
  grandchildren Subject.devices LogicalDevice.irqs d.subjects

/-- `/system/hardware/devices/device/irq`, with the devices. -/
def physicalIrqs : List (Device × Irq) := children Device.irqs d.devices

end Document

/-! ### Values of attributes -/

section Values

variable (value : String → Option ℕ)

/-- `Natural'Value`. -/
def natural (text : String) : Option ℕ := (value text).bind naturalValue

/-- `Interfaces.Unsigned_64'Value`. -/
def unsigned64 (text : String) : Option Unsigned64 := (value text).bind unsigned64Value

variable {value}

lemma natural_eq_some {text : String} {n : ℕ} : natural value text = some n ↔
    value text = some n ∧ n ≤ Mucfgcheck.Scheduling.naturalLast := by
  unfold natural naturalValue
  constructor
  · intro h
    obtain ⟨m, hm, hrange⟩ := Option.bind_eq_some_iff.mp h
    split at hrange
    · obtain rfl := Option.some.inj hrange
      exact ⟨hm, ‹_›⟩
    · cases hrange
  · rintro ⟨hvalue, hrange⟩
    rw [hvalue, Option.bind_some, if_pos hrange]

lemma unsigned64_eq_some {text : String} {n : Unsigned64} : unsigned64 value text = some n ↔
    value text = some n.toNat := by
  unfold unsigned64 unsigned64Value
  constructor
  · intro h
    obtain ⟨m, hm, hrange⟩ := Option.bind_eq_some_iff.mp h
    split at hrange
    · obtain rfl := Option.some.inj hrange
      rw [hm, BitVec.toNat_ofNat, Nat.mod_eq_of_lt ‹_›]
    · cases hrange
  · intro hvalue
    rw [hvalue, Option.bind_some, if_pos n.isLt, BitVec.ofNat_toNat, BitVec.setWidth_eq]

/-- Texts stand for the same number if they do as 64-bit numbers. -/
lemma value_eq_of_unsigned64 {text text' : String} {n : Unsigned64} (h : unsigned64 value text = some n)
    (h' : unsigned64 value text' = some n) : value text = value text' :=
  (unsigned64_eq_some.mp h).trans (unsigned64_eq_some.mp h').symm

end Values

/-! ### Lookups -/

section Lookups

variable {α : Type} (nodes : List α) (refAttr : α → String) (refValue : String)

/-- `Muxml.Utils.Get_Element`: the first node with an attribute. -/
def getElement : Option α := nodes.find? fun node => refAttr node = refValue

/-- `Muxml.Utils.Get_Elements`. -/
def getElements : List α := nodes.filter fun node => refAttr node = refValue

variable {nodes refAttr refValue}

lemma mem_getElements {node : α} : node ∈ getElements nodes refAttr refValue ↔
    node ∈ nodes ∧ refAttr node = refValue := by
  rw [getElements, List.mem_filter, decide_eq_true_eq]

lemma getElement_some {node : α} (h : getElement nodes refAttr refValue = some node) :
    node ∈ nodes ∧ refAttr node = refValue :=
  ⟨List.mem_of_find?_eq_some h, of_decide_eq_true (List.find?_some (p := fun n => decide (refAttr n = refValue)) h)⟩

lemma getElement_eq_none : getElement nodes refAttr refValue = none ↔ ∀ node ∈ nodes, refAttr node ≠ refValue := by
  rw [getElement, List.find?_eq_none]
  simp only [decide_eq_true_eq, ne_eq]

lemma exists_getElement {node : α} (hnode : node ∈ nodes) (h : refAttr node = refValue) :
    ∃ first, getElement nodes refAttr refValue = some first := by
  apply Option.ne_none_iff_exists'.mp
  exact fun hnone => getElement_eq_none.mp hnone node hnode h

/-- The first node with an attribute is the one node that has it. -/
lemma getElement_eq {node : α} (hnode : node ∈ nodes) (h : refAttr node = refValue)
    (hunique : ∀ node' ∈ nodes, refAttr node' = refValue → node' = node) :
    getElement nodes refAttr refValue = some node := by
  obtain ⟨first, hfirst⟩ := exists_getElement hnode h
  obtain ⟨hmem, hvalue⟩ := getElement_some hfirst
  rw [hfirst, hunique first hmem hvalue]

end Lookups

/-! ### Matching pairs -/

section Pairs

variable {α β : Type} (isMatch : α → β → Bool)

/-- `Muxml.Utils.Get_Matching` without multiple matches. -/
def getMatching (leftNodes : List α) (rightNodes : List β) : List (α × β) :=
  leftNodes.filterMap fun left => (rightNodes.find? (isMatch left)).map fun right => (left, right)

variable {isMatch} {leftNodes : List α} {rightNodes : List β}

lemma mem_getMatching {x : α × β} (h : x ∈ getMatching isMatch leftNodes rightNodes) :
    x.1 ∈ leftNodes ∧ x.2 ∈ rightNodes ∧ isMatch x.1 x.2 = true := by
  obtain ⟨left, hleft, hx⟩ := List.mem_filterMap.mp h
  obtain ⟨right, hright, rfl⟩ := Option.map_eq_some_iff.mp hx
  exact ⟨hleft, List.mem_of_find?_eq_some hright, List.find?_some (p := isMatch left) hright⟩

/-- `Mutools.Match.Is_Valid_Reference`. -/
def isValidReference (refName phyName : String) : Bool := refName ≠ "" && phyName ≠ "" && refName = phyName

lemma isValidReference_eq {refName phyName : String} (h : isValidReference refName phyName = true) :
    refName = phyName :=
  of_decide_eq_true (Bool.and_eq_true_iff.mp h).2

end Pairs

/-- `Mutools.Match.Is_Valid_Resource_Ref`. -/
def isValidResourceRef (left : Subject × LogicalDevice × LogicalIrq) (right : Device × Irq) : Bool :=
  isValidReference left.2.2.physical right.2.name && isValidReference left.2.1.physical right.1.name

/-- The assigned interrupts with those of the hardware. -/
def Document.irqs (d : Document) : List ((Subject × LogicalDevice × LogicalIrq) × Device × Irq) :=
  getMatching isValidResourceRef d.logicalIrqs d.physicalIrqs

end Muen.Tools.SystemPolicy
