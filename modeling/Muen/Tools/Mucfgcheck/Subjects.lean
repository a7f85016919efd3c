import Muen.Tools.Mucfgcheck.Checks

/-!
# Mucfgcheck: where subjects run

The checks of `Mucfgcheck.Subject`, `Mucfgcheck.Scheduling` and `Mucfgcheck.Memory` that tell which CPU, partition and
scheduling group a subject has, and where its VMCS is.
-/

namespace Muen.Tools.Mucfgcheck.Subjects

open Scheduling (img)
open SystemPolicy

variable (value : String → Option ℕ) (d : Document)

/-! ### Subjects -/

def nameUniqueness : Option (List String) :=
  uniqueTexts Subject.name (fun left right => "Subjects with global ID " ++ left.globalId ++ " and " ++
    right.globalId ++ " have identical name '" ++ left.name ++ "'") d.subjects

def runnability : Option (List String) :=
  checkEach (fun subject : Subject => some (unlessThat (getElement d.groupSubjects (fun x => x.2.2) subject.name ≠ none)
    ("Subject '" ++ subject.name ++ "' is not part of any scheduling group"))) d.subjects

/-! ### Partitions and groups -/

def partitionID : Option (List String) :=
  if d.partitions.length > 1 then
    uniqueNumbers value Partition.id (fun left right id => "Scheduling partition '" ++ left.name ++ "' and '" ++
      right.name ++ "' have identical ID" ++ img id) d.partitions
  else some []

def partitionCPUAffinity : Option (List String) :=
  checkEach (fun partition : Partition =>
    let partMinorFrames := getElements d.minorFrames (fun x => x.2.2.partition) partition.name
    some (unlessThat (partMinorFrames.length ≠ 0) ("Partition '" ++ partition.name ++ "' not scheduled on any CPU") ++
      partMinorFrames.flatMap fun x => unlessThat (partition.cpu = x.2.1.id) ("Partition '" ++ partition.name ++
        "' referenced by minor frame of CPU " ++ x.2.1.id ++ ", should only be scheduled on CPU " ++ partition.cpu)))
    d.partitions

def minorFramePartitionReferences : Option (List String) :=
  checkEach (fun x : MajorFrame × Cpu × MinorFrame =>
    some (unlessThat (getElement d.partitions Partition.name x.2.2.partition ≠ none)
      ("Scheduling partition '" ++ x.2.2.partition ++ "' referenced in scheduling plan not found"))) d.minorFrames

/-- The partition of a subject is on the CPU of the subject. -/
def matchCPUID (node : Partition × Group × String) (subject : Subject) : Option Bool := do
  let partitionCPU ← natural value node.1.cpu
  let subjectCPU ← natural value subject.cpu
  some (partitionCPU = subjectCPU && node.2.2 = subject.name)

def subjectCPUAffinity : Option (List String) :=
  forEachMatch (matchCPUID value) d.groupSubjects d.subjects (fun node => do
    let subject ← getElement d.subjects Subject.name node.2.2
    some ("Subject '" ++ node.2.2 ++ "' scheduled on wrong CPU " ++ node.1.cpu ++ ", should be " ++ subject.cpu)) false

/-! ### Memory -/

/-- The values that `Check_Overlap` compares. -/
def region (node : Memory) : Option Region := do
  let address ← unsigned64 value node.physicalAddress
  let size ← unsigned64 value node.size
  some ⟨node.name, address, size⟩

def physicalMemoryOverlap : Option (List String) :=
  comparePairs (fun left right => do
    let left ← region value left
    let right ← region value right
    some (checkOverlap "physical or device memory region" "" left right)) (d.memory ++ d.devices.flatMap Device.memory)

/-- `/system/memory/memory[@type='kernel_vmcs']`. -/
def vmcsRegions : List Memory := d.memory.filter fun node => node.type = "kernel_vmcs"

def vmcsRegionPresence : Option (List String) :=
  forEachMatch (fun (node : Subject) (memory : Memory) => some (decide (node.name ++ "|vmcs" = memory.name)))
    d.subjects (vmcsRegions d) (fun node => some ("VMCS region '" ++ node.name ++ "|vmcs" ++ "' for subject '" ++
      node.name ++ "' not found")) false

/-- `Mutools.Constants.Page_Size`. -/
def pageSize : ℕ := 4096

def vmcsRegionSize : Option (List String) :=
  checkAttribute value "VMCS memory" "size" "not 4K" Memory.name Memory.size (fun size => size.toNat = pageSize)
    (vmcsRegions d)

/-! ### Accepted policies -/

variable {value d}

lemma runnability_nil (h : runnability d = some []) {subject : Subject} (hsubject : subject ∈ d.subjects) :
    ∃ x, getElement d.groupSubjects (fun x => x.2.2) subject.name = some x := by
  have hsome := unlessThat_eq_nil.mp (Option.some.inj (checkEach_nil h subject hsubject))
  exact Option.ne_none_iff_exists'.mp hsome

lemma partitionCPUAffinity_nil (h : partitionCPUAffinity d = some []) {partition : Partition}
    (hpartition : partition ∈ d.partitions) {x : MajorFrame × Cpu × MinorFrame} (hx : x ∈ d.minorFrames)
    (hname : x.2.2.partition = partition.name) : partition.cpu = x.2.1.id := by
  have herrors := Option.some.inj (checkEach_nil h partition hpartition)
  have hcpus := List.flatMap_eq_nil_iff.mp (List.append_eq_nil_iff.mp herrors).2
  exact unlessThat_eq_nil.mp (hcpus x (mem_getElements.mpr ⟨hx, hname⟩))

lemma minorFramePartitionReferences_nil (h : minorFramePartitionReferences d = some [])
    {x : MajorFrame × Cpu × MinorFrame} (hx : x ∈ d.minorFrames) :
    ∃ partition, getElement d.partitions Partition.name x.2.2.partition = some partition := by
  have hsome := unlessThat_eq_nil.mp (Option.some.inj (checkEach_nil h x hx))
  exact Option.ne_none_iff_exists'.mp hsome

lemma subjectCPUAffinity_nil (h : subjectCPUAffinity value d = some []) {x : Partition × Group × String}
    (hx : x ∈ d.groupSubjects) : ∃ subject ∈ d.subjects, subject.name = x.2.2 ∧ ∃ cpu,
      natural value x.1.cpu = some cpu ∧ natural value subject.cpu = some cpu := by
  obtain ⟨subject, hsubject, hmatch⟩ := forEachMatch_nil h x hx
  obtain ⟨cpu, hcpu, hmatch⟩ := Option.bind_eq_some_iff.mp hmatch
  obtain ⟨cpu', hcpu', hmatch⟩ := Option.bind_eq_some_iff.mp hmatch
  obtain ⟨heq, hname⟩ := Bool.and_eq_true_iff.mp (Option.some.inj hmatch)
  rw [← of_decide_eq_true heq] at hcpu'
  exact ⟨subject, hsubject, (of_decide_eq_true hname).symm, cpu, hcpu, hcpu'⟩

lemma vmcsRegionPresence_nil (h : vmcsRegionPresence d = some []) {subject : Subject} (hsubject : subject ∈ d.subjects) :
    ∃ node ∈ vmcsRegions d, node.name = subject.name ++ "|vmcs" := by
  obtain ⟨node, hnode, hname⟩ := forEachMatch_nil h subject hsubject
  exact ⟨node, hnode, (of_decide_eq_true (Option.some.inj hname)).symm⟩

lemma vmcsRegionSize_nil (h : vmcsRegionSize value d = some []) {node : Memory} (hnode : node ∈ vmcsRegions d) :
    ∃ size, unsigned64 value node.size = some size ∧ size.toNat = pageSize := by
  obtain ⟨size, hsize, htest⟩ := checkAttribute_nil h node hnode
  exact ⟨size, hsize, of_decide_eq_true htest⟩

/-- Different VMCS regions are at different addresses, except at the top of the address space. -/
lemma vmcsRegions_disjoint (hoverlap : physicalMemoryOverlap value d = some []) (hsize : vmcsRegionSize value d = some [])
    {left right : Memory} (hpair : Pair d.memory left right) (hleft : left ∈ vmcsRegions d)
    (hright : right ∈ vmcsRegions d) {address : Unsigned64} (hend : address.toNat + pageSize < 2 ^ 64) :
    ¬ (unsigned64 value left.physicalAddress = some address ∧
      unsigned64 value right.physicalAddress = some address) := by
  rintro ⟨hleftAddress, hrightAddress⟩
  obtain ⟨i, j, hlt, hi, hj⟩ := hpair
  have hmem : Pair (d.memory ++ d.devices.flatMap Device.memory) left right := by
    refine ⟨i, j, hlt, ?_, ?_⟩
    · rw [List.getElem?_append_left (List.getElem?_eq_some_iff.mp hi).1, hi]
    · rw [List.getElem?_append_left (List.getElem?_eq_some_iff.mp hj).1, hj]
  have hcheck := comparePairs_nil hoverlap hmem
  obtain ⟨size, hleftSize, hsizeEq⟩ := vmcsRegionSize_nil hsize hleft
  obtain ⟨size', hrightSize, hsizeEq'⟩ := vmcsRegionSize_nil hsize hright
  have hregionLeft : region value left = some ⟨left.name, address, size⟩ := by
    rw [region, hleftAddress, hleftSize]
    rfl
  have hregionRight : region value right = some ⟨right.name, address, size'⟩ := by
    rw [region, hrightAddress, hrightSize]
    rfl
  rw [hregionLeft, hregionRight] at hcheck
  have hnil : checkOverlap "physical or device memory region" "" ⟨left.name, address, size⟩
    ⟨right.name, address, size'⟩ = [] := Option.some.inj hcheck
  have hoverlaps : overlaps ⟨left.name, address, size⟩ ⟨right.name, address, size'⟩ = true := by
    have hadd : (address + size).toNat = address.toNat + pageSize := by
      rw [BitVec.toNat_add, hsizeEq, Nat.mod_eq_of_lt hend]
    have hgt : address + size > address := by
      rw [gt_iff_lt, BitVec.lt_def, hadd]
      exact Nat.lt_add_of_pos_right (by decide)
    exact Bool.or_eq_true_iff.mpr (Or.inl (Bool.and_eq_true_iff.mpr
      ⟨decide_eq_true (BitVec.le_refl address), decide_eq_true hgt⟩))
  rw [checkOverlap, if_pos hoverlaps] at hnil
  exact absurd hnil (List.cons_ne_nil _ _)

end Muen.Tools.Mucfgcheck.Subjects
