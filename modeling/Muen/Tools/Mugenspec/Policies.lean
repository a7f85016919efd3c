import Muen.Kernel.Isolation
import Muen.Tools.Mucfgcheck.Subjects
import Muen.Tools.Mugenspec.Interrupts

/-!
# The policy of the kernel

Which tables of the kernel `mugenspec` generates from a system policy, as far as they say where subjects run, where
their VMCS are and what they send each other. Those of an accepted policy assign subjects to CPUs as the isolation of
subjects asks for.
-/

namespace Muen.Tools.Mugenspec.Policies

open Lib SystemPolicy Events
open Mucfgcheck.Events (EventGroupType)
open Mucfgcheck.Subjects (vmcsRegions pageSize)

/-- `Skp.Events.Source_Event_Action_Kind`. -/
def sourceAction : EventActionKind → Option Kernel.SourceAction
  | .subjectSleep => some .subjectSleep
  | .subjectYield => some .subjectYield
  | .systemReboot => some .systemReboot
  | .systemPanic => some .systemPanic
  | .systemPoweroff => some .systemPoweroff
  | .unmaskIrq => some .unmaskIrq
  | .noAction => some .noAction
  | .injectInterrupt => none
  | .reset => none

/-- The entry of a table, as the compiler reads it. -/
structure IsEntry {subjects : ℕ} (entry : SourceEntry) (event : Kernel.SourceEvent subjects) : Prop where
  sourceAction : sourceAction entry.sourceAction = some event.sourceAction
  targetSubject : entry.targetSubject = event.targetSubject.map Fin.val
  targetEvent : entry.targetEvent = event.targetEvent.map Fin.val
  handover : entry.handover = event.handover
  sendIPI : entry.sendIPI = event.sendIPI
  irqNumber : entry.irqNumber = event.irqNumber.toNat

variable (value : String → Option ℕ) (d : Document) (P : Kernel.Policy)

/-- What the tables of subjects have for a subject. -/
structure SubjectEntry where
  cpu : ℕ
  group : ℕ
  partition : ℕ
  vmcsAddress : Unsigned64

/-- The entries of `Skp.Subjects` and of the mappings of subjects in `Skp.Scheduling`. -/
def subjectEntry (subject : Subject) : Option SubjectEntry := do
  let cpu ← natural value subject.cpu
  let group ← natural value subject.schedGroupId
  let partSubj ← getElement d.groupSubjects (fun x => x.2.2) subject.name
  let partition ← natural value partSubj.1.id
  let vmcs ← getElement (vmcsRegions d) Memory.name (subject.name ++ "|vmcs")
  let vmcsAddress ← unsigned64 value vmcs.physicalAddress
  some ⟨cpu, group, partition, vmcsAddress⟩

/-- `Partition_ID` of `Write_Minor_Frame`. -/
def minorFramePartition (minor : MinorFrame) : Option ℕ := do
  let partition ← getElement d.partitions Partition.name minor.partition
  natural value partition.id

/-- The tables of a kernel are those of a system policy. Subjects stand at their positions; partitions and groups are
numbered from one. -/
structure Generated : Prop where
  subjects : d.subjects.length = P.subjects
  subject : ∀ (id : P.Subject) subject, d.subjects[id.val]? = some subject → subjectEntry value d subject =
    some ⟨(P.subjectCpu id).val, (P.subjectToGroup id).val + 1, (P.subjectToPartition id).val + 1,
      Kernel.vmcsAddress id⟩
  minorFrame : ∀ (c : P.Cpu) (major : P.Major) (minor : P.Minor), minor ≤ (P.schedulingPlans c major).length →
    ∃ frames cpu frame, d.majorFrames[major.val]? = some frames ∧ frames.cpus[c.val]? = some cpu ∧
      cpu.minorFrames[minor.val]? = some frame ∧ minorFramePartition value d frame =
        some (((P.schedulingPlans c major).minorFrames minor).partitionID.val + 1)
  lastTrap : P.lastTrap = EventGroupType.vmxExit.getMaxID
  trap : ∀ (id : P.Subject) subject, d.subjects[id.val]? = some subject →
    ∃ table, trapTable value d (groupEvents subject .vmxExit) = some table ∧
      ∀ n, ∃ entry, table.find n.val = some entry ∧ IsEntry entry (P.getTrap id n)
  sourceEvent : ∀ (id : P.Subject) subject, d.subjects[id.val]? = some subject →
    ∃ table, sourceEventTable value d (groupEvents subject .vmcall) = some table ∧
      ∀ n, ∃ entry, table.find n.val = some entry ∧ IsEntry entry (P.getSourceEvent id n)

/-- Global IDs are the positions of subjects, as `mucfgexpand` gives them. -/
def Numbered : Prop := ∀ (i : ℕ) subject, d.subjects[i]? = some subject → natural value subject.globalId = some i

/-- Numbers of subjects, partitions and VMCS regions can be read. -/
structure Readable : Prop where
  groupId : ∀ subject ∈ d.subjects, ∃ n, natural value subject.schedGroupId = some n
  partitionId : ∀ partition ∈ d.partitions, ∃ n, natural value partition.id = some n
  vmcsAddress : ∀ node ∈ vmcsRegions d, ∃ address, unsigned64 value node.physicalAddress = some address

/-- What the assignment to CPUs relies on and the checks do not look at: the CPUs of a major frame stand in the order of
their IDs, and VMCS regions are not at the top of the address space. -/
structure Expanded : Prop where
  globalId : Numbered value d
  cpu : ∀ frames ∈ d.majorFrames, ∀ (c : ℕ) cpu, frames.cpus[c]? = some cpu → natural value cpu.id = some c
  vmcsAddress : ∀ node ∈ vmcsRegions d, ∀ address, unsigned64 value node.physicalAddress = some address →
    address.toNat + pageSize < 2 ^ 64

/-- The checks of subjects, partitions and VMCS regions record no errors. -/
structure Placed : Prop where
  names : Mucfgcheck.Subjects.nameUniqueness d = some []
  runnability : Mucfgcheck.Subjects.runnability d = some []
  partitionID : Mucfgcheck.Subjects.partitionID value d = some []
  partitionCPUAffinity : Mucfgcheck.Subjects.partitionCPUAffinity d = some []
  partitionReferences : Mucfgcheck.Subjects.minorFramePartitionReferences d = some []
  subjectCPUAffinity : Mucfgcheck.Subjects.subjectCPUAffinity value d = some []
  overlap : Mucfgcheck.Subjects.physicalMemoryOverlap value d = some []
  vmcsPresence : Mucfgcheck.Subjects.vmcsRegionPresence d = some []
  vmcsSize : Mucfgcheck.Subjects.vmcsRegionSize value d = some []

variable {value d P}

/-! ### Subjects and partitions -/

lemma Generated.exists_subject (h : Generated value d P) (id : P.Subject) :
    ∃ subject, d.subjects[id.val]? = some subject :=
  ⟨_, List.getElem?_eq_getElem (by rw [h.subjects]; exact id.isLt)⟩

lemma Numbered.position (h : Numbered value d) {subject : Subject} (hsubject : subject ∈ d.subjects) {n : ℕ}
    (hn : natural value subject.globalId = some n) : d.subjects[n]? = some subject := by
  obtain ⟨i, hi⟩ := List.mem_iff_getElem?.mp hsubject
  rwa [← Option.some.inj ((h i subject hi).symm.trans hn)]

lemma Placed.subject_eq (h : Placed value d) {subject subject' : Subject} (hsubject : subject ∈ d.subjects)
    (hsubject' : subject' ∈ d.subjects) (hname : subject.name = subject'.name) : subject = subject' :=
  List.inj_on_of_nodup_map (Mucfgcheck.uniqueTexts_nil h.names) hsubject hsubject' hname

lemma Placed.partition_eq (h : Placed value d) {partition partition' : Partition}
    (hpartition : partition ∈ d.partitions) (hpartition' : partition' ∈ d.partitions)
    (hid : natural value partition.id = natural value partition'.id) :
    partition = partition' :=
  List.inj_on_of_nodup_map (Mucfgcheck.nodup_of_several h.partitionID Mucfgcheck.uniqueNumbers_nil) hpartition
    hpartition' hid

/-- The entry of a subject, by the nodes of the policy. -/
lemma subjectEntry_some {subject : Subject} {entry : SubjectEntry} (h : subjectEntry value d subject = some entry) :
    natural value subject.cpu = some entry.cpu ∧ ∃ x node,
      getElement d.groupSubjects (fun x => x.2.2) subject.name = some x ∧ natural value x.1.id = some entry.partition ∧
      getElement (vmcsRegions d) Memory.name (subject.name ++ "|vmcs") = some node ∧
      unsigned64 value node.physicalAddress = some entry.vmcsAddress := by
  obtain ⟨cpu, hcpu, h⟩ := Option.bind_eq_some_iff.mp h
  obtain ⟨group, -, h⟩ := Option.bind_eq_some_iff.mp h
  obtain ⟨x, hx, h⟩ := Option.bind_eq_some_iff.mp h
  obtain ⟨partition, hpartition, h⟩ := Option.bind_eq_some_iff.mp h
  obtain ⟨node, hnode, h⟩ := Option.bind_eq_some_iff.mp h
  obtain ⟨address, haddress, h⟩ := Option.bind_eq_some_iff.mp h
  obtain rfl := Option.some.inj h
  exact ⟨hcpu, x, node, hx, hpartition, hnode, haddress⟩

lemma minorFramePartition_some {minor : MinorFrame} {n : ℕ} (h : minorFramePartition value d minor = some n) :
    ∃ partition ∈ d.partitions, partition.name = minor.partition ∧ natural value partition.id = some n := by
  obtain ⟨partition, hpartition, h⟩ := Option.bind_eq_some_iff.mp h
  obtain ⟨hmem, hname⟩ := getElement_some hpartition
  exact ⟨partition, hmem, hname, h⟩

/-- The partition of a subject is on the CPU of the subject. -/
lemma partition_cpu (hP : Placed value d) {subject : Subject} (hsubject : subject ∈ d.subjects)
    {x : Partition × Group × String} (hx : getElement d.groupSubjects (fun x => x.2.2) subject.name = some x) :
    x.1 ∈ d.partitions ∧ ∃ cpu, natural value x.1.cpu = some cpu ∧ natural value subject.cpu = some cpu := by
  obtain ⟨hmem, hname⟩ := getElement_some hx
  obtain ⟨subject', hsubject', hname', hcpu⟩ :=
    Mucfgcheck.Subjects.subjectCPUAffinity_nil hP.subjectCPUAffinity hmem
  obtain rfl := hP.subject_eq hsubject' hsubject (hname'.trans hname)
  exact ⟨(mem_grandchildren.mp hmem).1, hcpu⟩

lemma exists_partition (hG : Generated value d P) (hP : Placed value d) (id : P.Subject) :
    ∃ partition ∈ d.partitions, natural value partition.id = some ((P.subjectToPartition id).val + 1) ∧
      natural value partition.cpu = some (P.subjectCpu id).val := by
  obtain ⟨subject, hsubject⟩ := hG.exists_subject id
  obtain ⟨hsubjectCPU, x, -, hx, hid, -⟩ := subjectEntry_some (hG.subject id subject hsubject)
  obtain ⟨hmem, cpu, hcpu, hcpu'⟩ := partition_cpu hP (List.mem_of_getElem? hsubject) hx
  exact ⟨x.1, hmem, hid, hcpu.trans (hcpu'.symm.trans hsubjectCPU)⟩

lemma cpu_eq_of_partition (hG : Generated value d P) (hP : Placed value d) {id : P.Subject} {partition : Partition}
    (hpartition : partition ∈ d.partitions) {c : P.Cpu}
    (hid : natural value partition.id = some ((P.subjectToPartition id).val + 1))
    (hcpu : natural value partition.cpu = some c.val) : P.subjectCpu id = c := by
  obtain ⟨own, hown, hownID, hownCPU⟩ := exists_partition hG hP id
  rw [hP.partition_eq hown hpartition (hownID.trans hid.symm), hcpu] at hownCPU
  exact Fin.ext (Option.some.inj hownCPU).symm

/-- The partition of a minor frame is on the CPU whose plan the minor frame stands in. -/
lemma exists_minorFrame (hG : Generated value d P) (hE : Expanded value d) (hP : Placed value d) {c : P.Cpu}
    {major : P.Major} {minor : P.Minor} (hminor : minor ≤ (P.schedulingPlans c major).length) :
    ∃ partition ∈ d.partitions, natural value partition.cpu = some c.val ∧
      natural value partition.id = some (((P.schedulingPlans c major).minorFrames minor).partitionID.val + 1) := by
  obtain ⟨frames, cpu, frame, hframes, hcpu, hframe, hpartition⟩ := hG.minorFrame c major minor hminor
  obtain ⟨partition, hmem, hname, hid⟩ := minorFramePartition_some hpartition
  have hx : (frames, cpu, frame) ∈ d.minorFrames :=
    mem_grandchildren.mpr ⟨List.mem_of_getElem? hframes, List.mem_of_getElem? hcpu, List.mem_of_getElem? hframe⟩
  have haffinity := Mucfgcheck.Subjects.partitionCPUAffinity_nil hP.partitionCPUAffinity hmem hx hname.symm
  refine ⟨partition, hmem, ?_, hid⟩
  rw [haffinity]
  exact hE.cpu frames (List.mem_of_getElem? hframes) c cpu hcpu

/-- Each subject of an accepted policy has an entry with the CPU of its partition, and each minor frame has a
partition. -/
theorem subjectEntry_total (hR : Readable value d) (hP : Placed value d) :
    (∀ subject ∈ d.subjects, ∃ entry, subjectEntry value d subject = some entry ∧ ∃ partition ∈ d.partitions,
      natural value partition.id = some entry.partition ∧ natural value partition.cpu = some entry.cpu) ∧
    ∀ x ∈ d.minorFrames, ∃ partition ∈ d.partitions, natural value partition.id = minorFramePartition value d x.2.2 ∧
      (minorFramePartition value d x.2.2).isSome = true ∧ partition.cpu = x.2.1.id := by
  constructor
  · intro subject hsubject
    obtain ⟨x, hx⟩ := Mucfgcheck.Subjects.runnability_nil hP.runnability hsubject
    obtain ⟨hmem, cpu, hpartitionCPU, hcpu⟩ := partition_cpu hP hsubject hx
    obtain ⟨group, hgroup⟩ := hR.groupId subject hsubject
    obtain ⟨partition, hpartition⟩ := hR.partitionId x.1 hmem
    obtain ⟨region, hregion, hname⟩ := Mucfgcheck.Subjects.vmcsRegionPresence_nil hP.vmcsPresence hsubject
    obtain ⟨node, hnode⟩ := exists_getElement hregion hname
    obtain ⟨address, haddress⟩ := hR.vmcsAddress node (getElement_some hnode).1
    refine ⟨⟨cpu, group, partition, address⟩, ?_, x.1, hmem, hpartition, hpartitionCPU⟩
    simp only [subjectEntry, hcpu, hgroup, hx, hpartition, hnode, haddress, Option.bind_eq_bind, Option.bind_some]
  · intro x hx
    obtain ⟨partition, hpartition⟩ :=
      Mucfgcheck.Subjects.minorFramePartitionReferences_nil hP.partitionReferences hx
    obtain ⟨hmem, hname⟩ := getElement_some hpartition
    obtain ⟨n, hn⟩ := hR.partitionId partition hmem
    have hframe : minorFramePartition value d x.2.2 = some n := by
      rw [minorFramePartition, hpartition, Option.bind_eq_bind, Option.bind_some, hn]
    refine ⟨partition, hmem, hn.trans hframe.symm, by rw [hframe]; rfl, ?_⟩
    exact Mucfgcheck.Subjects.partitionCPUAffinity_nil hP.partitionCPUAffinity hmem hx hname.symm

/-! ### Events -/

/-- An entry of the trap table panics, or is that of an event. -/
lemma trap_event (hvalue : ∀ n ≤ EventGroupType.vmxExit.getMaxID, value (toString n) = some n)
    (hB : InFormatB value d) (hA : Events.Accepted value d) (hS : SingleGroups d) {subject : Subject}
    (hsubject : subject ∈ d.subjects) {table : Aggregate ℕ SourceEntry}
    (htable : trapTable value d (groupEvents subject .vmxExit) = some table) {n : ℕ}
    (hn : n ≤ EventGroupType.vmxExit.getMaxID) {entry : SourceEntry} (hentry : table.find n = some entry) :
    entry = invalidEvent ∨ ∃ event ∈ groupEvents subject .vmxExit, Delivers value d subject event entry := by
  obtain ⟨table', htable', hof⟩ := trapTable_tableOf hvalue hB hA hS hsubject
  obtain rfl := Option.some.inj (htable.symm.trans htable')
  cases hvalid : EventGroupType.vmxExit.isValidEventID n with
  | false =>
    have hreserved := hof.reserved n (mem_reservedIDs.mpr ⟨hn, hvalid⟩)
    exact Or.inl (Option.some.inj (hentry.symm.trans hreserved))
  | true =>
    obtain ⟨event, hevent, hid⟩ := exists_trap hvalue hB hA hsubject hvalid
    exact Or.inr ⟨event, hevent, hof.delivers hevent hid hentry⟩

/-- An entry of the table of source events has no action, or is that of an event. -/
lemma sourceEvent_event (hB : InFormatB value d) (hA : Events.Accepted value d) (hS : SingleGroups d)
    {subject : Subject} (hsubject : subject ∈ d.subjects) {table : Aggregate ℕ SourceEntry}
    (htable : sourceEventTable value d (groupEvents subject .vmcall) = some table) {n : ℕ}
    (hn : n ≤ EventGroupType.vmcall.getMaxID) {entry : SourceEntry} (hentry : table.find n = some entry) :
    entry = nullSourceEvent ∨ ∃ event ∈ groupEvents subject .vmcall, Delivers value d subject event entry := by
  obtain ⟨table', htable', hof⟩ := sourceEventTable_tableOf hB hA hS hsubject
  obtain rfl := Option.some.inj (htable.symm.trans htable')
  by_cases hexists : ∃ event ∈ groupEvents subject .vmcall, natural value event.id = some n
  · obtain ⟨event, hevent, hid⟩ := hexists
    exact Or.inr ⟨event, hevent, hof.delivers hevent hid hentry⟩
  · have hother := sourceEventTable_other hB hA hS hsubject htable hn
      fun event hevent hid => hexists ⟨event, hevent, hid⟩
    exact Or.inl (Option.some.inj (hentry.symm.trans hother))

/-- A source event of the kernel that has a target is one of the policy. -/
lemma exists_event (hvalue : ∀ n ≤ EventGroupType.vmxExit.getMaxID, value (toString n) = some n)
    (hB : InFormatB value d) (hA : Events.Accepted value d) (hS : SingleGroups d) (hG : Generated value d P)
    {id : P.Subject} {event : Kernel.SourceEvent P.subjects} (hevent : Kernel.IsSourceEvent id event)
    {target : P.Subject} (htarget : event.targetSubject = some target) : ∃ subject, d.subjects[id.val]? = some subject ∧
      ∃ group, ∃ source ∈ groupEvents subject group, ∃ entry, Delivers value d subject source entry ∧
        IsEntry entry event ∧ entry.targetSubject = some target.val := by
  obtain ⟨subject, hsubject⟩ := hG.exists_subject id
  have hmem := List.mem_of_getElem? hsubject
  have hsome : ∀ entry : SourceEntry, IsEntry entry event → entry.targetSubject = some target.val := by
    intro entry hentry
    rw [hentry.targetSubject, htarget, Option.map_some]
  refine ⟨subject, hsubject, ?_⟩
  rcases hevent with ⟨n, rfl⟩ | ⟨n, rfl⟩
  · obtain ⟨table, htable, hentries⟩ := hG.sourceEvent id subject hsubject
    obtain ⟨entry, hfind, hentry⟩ := hentries n
    rcases sourceEvent_event hB hA hS hmem htable (Nat.le_of_lt_succ n.isLt) hfind with rfl | ⟨source, hsource, h⟩
    · cases hsome _ hentry
    · exact ⟨.vmcall, source, hsource, entry, h, hentry, hsome entry hentry⟩
  · obtain ⟨table, htable, hentries⟩ := hG.trap id subject hsubject
    obtain ⟨entry, hfind, hentry⟩ := hentries n
    have hn : n.val ≤ EventGroupType.vmxExit.getMaxID := hG.lastTrap ▸ Nat.le_of_lt_succ n.isLt
    rcases trap_event hvalue hB hA hS hmem htable hn hfind with rfl | ⟨source, hsource, h⟩
    · cases hsome _ hentry
    · exact ⟨.vmxExit, source, hsource, entry, h, hentry, hsome entry hentry⟩

lemma handover_cpu (hvalue : ∀ n ≤ EventGroupType.vmxExit.getMaxID, value (toString n) = some n)
    (hB : InFormatB value d) (hA : Events.Accepted value d) (hS : SingleGroups d) (hN : Numbered value d)
    (hG : Generated value d P) {id : P.Subject} {event : Kernel.SourceEvent P.subjects}
    (hevent : Kernel.IsSourceEvent id event) (hhandover : event.handover = true)
    {target : P.Subject} (htarget : event.targetSubject = some target) :
    P.subjectCpu target = P.subjectCpu id := by
  obtain ⟨subject, hsubject, _, _, _, entry, hdelivers, hentry, hsome⟩ := exists_event hvalue hB hA hS hG hevent htarget
  obtain ⟨x, hx, -, hid, -, -, hsame, -⟩ := hdelivers.target target.val hsome
  have hnode := hN.position (mem_children.mp hx).1 hid
  have hcpu := (hsame (hentry.handover.trans hhandover)).1
  have hsource := natural_eq_some.mp (subjectEntry_some (hG.subject id subject hsubject)).1
  have hdestination := natural_eq_some.mp (subjectEntry_some (hG.subject target x.1 hnode)).1
  rw [hsource.1, hdestination.1] at hcpu
  exact Fin.ext (Option.some.inj hcpu).symm

/-- The entry that the kernel has for an event of a table. -/
lemma exists_entry {subject : Subject} {group : EventGroupType} {table : Aggregate ℕ SourceEntry} {k : ℕ}
    {events : Fin k → Kernel.SourceEvent P.subjects} (h : TableOf value d subject group table)
    (hentries : ∀ n, ∃ entry, table.find n.val = some entry ∧ IsEntry entry (events n)) (hk : group.getMaxID < k)
    {source : SourceEvent} (hsource : source ∈ groupEvents subject group) :
    ∃ n entry, IsEntry entry (events n) ∧ Delivers value d subject source entry := by
  obtain ⟨n, entry, -, hle, hfind, -, hdelivers⟩ := h.event source hsource
  obtain ⟨entry', hfind', hentry⟩ := hentries ⟨n, hle.trans_lt hk⟩
  obtain rfl := Option.some.inj (hfind.symm.trans hfind')
  exact ⟨_, entry, hentry, hdelivers⟩

/-- The event of the kernel for a source event of the policy. -/
lemma exists_isSourceEvent (hvalue : ∀ n ≤ EventGroupType.vmxExit.getMaxID, value (toString n) = some n)
    (hB : InFormatB value d) (hA : Events.Accepted value d) (hS : SingleGroups d) (hG : Generated value d P)
    {id : P.Subject} {subject : Subject} (hsubject : d.subjects[id.val]? = some subject) {group : EventGroupType}
    {source : SourceEvent} (hsource : source ∈ groupEvents subject group) : ∃ event, Kernel.IsSourceEvent id event ∧
      ∃ entry, IsEntry entry event ∧ Delivers value d subject source entry := by
  have hmem := List.mem_of_getElem? hsubject
  cases group with
  | vmxExit =>
    obtain ⟨table, htable, hof⟩ := trapTable_tableOf hvalue hB hA hS hmem
    obtain ⟨table', htable', hentries⟩ := hG.trap id subject hsubject
    obtain rfl := Option.some.inj (htable.symm.trans htable')
    obtain ⟨n, entry, h⟩ := exists_entry hof hentries (hG.lastTrap ▸ Nat.lt_succ_self _) hsource
    exact ⟨_, Or.inr ⟨n, rfl⟩, entry, h⟩
  | vmcall =>
    obtain ⟨table, htable, hof⟩ := sourceEventTable_tableOf hB hA hS hmem
    obtain ⟨table', htable', hentries⟩ := hG.sourceEvent id subject hsubject
    obtain rfl := Option.some.inj (htable.symm.trans htable')
    obtain ⟨n, entry, h⟩ := exists_entry hof hentries (Nat.lt_succ_self _) hsource
    exact ⟨_, Or.inl ⟨n, rfl⟩, entry, h⟩

variable (value d P) in
/-- The policy has a source event of one subject and a target event of another one for the same physical event. A
handover to an event without an action has no target event. -/
def Connected (source target : P.Subject) (e : Kernel.EventNr) : Prop :=
  ∃ src dst, d.subjects[source.val]? = some src ∧ d.subjects[target.val]? = some dst ∧
    ∃ group, ∃ event ∈ groupEvents src group, ∃ x ∈ dst.targets, x.physical = event.physical ∧
      natural value x.id = some e.val ∧ ¬ (notifyMode d event.physical = "switch" ∧ x.actions = [])

/-- The kernel of an accepted policy can make an event pending if and only if the policy connects the subjects by it. -/
theorem sends_iff_connected (hvalue : ∀ n ≤ EventGroupType.vmxExit.getMaxID, value (toString n) = some n)
    (hB : InFormatB value d) (hS : SingleGroups d) (hN : Numbered value d) (hA : Events.Accepted value d)
    (hG : Generated value d P) (source target : P.Subject) (e : Kernel.EventNr) :
    P.Sends source target e ↔ Connected value d P source target e := by
  constructor
  · rintro ⟨event, hevent, htarget, htargetEvent⟩
    obtain ⟨src, hsrc, group, sourceEvent, hmem, entry, hdelivers, hentry, hsome⟩ :=
      exists_event hvalue hB hA hS hG hevent htarget
    obtain ⟨x, hx, hphysical, hid, -, htargetID, -⟩ := hdelivers.target target.val hsome
    obtain ⟨hdst, hxmem⟩ := mem_children.mp hx
    rw [hentry.targetEvent, htargetEvent, Option.map_some] at htargetID
    by_cases hnone : notifyMode d sourceEvent.physical = "switch" ∧ x.2.actions = []
    · rw [if_pos hnone] at htargetID
      exact absurd htargetID (Option.some_ne_none _)
    · rw [if_neg hnone] at htargetID
      exact ⟨src, x.1, hsrc, hN.position hdst hid, group, sourceEvent, hmem, x.2, hxmem, hphysical, htargetID.symm,
        hnone⟩
  · rintro ⟨src, dst, hsrc, hdst, group, sourceEvent, hmem, x, hx, hphysical, hid, hnone⟩
    obtain ⟨event, hevent, entry, hentry, hdelivers⟩ := exists_isSourceEvent hvalue hB hA hS hG hsrc hmem
    have htargets : (dst, x) ∈ d.targets := mem_children.mpr ⟨List.mem_of_getElem? hdst, hx⟩
    obtain ⟨n, hn⟩ := Option.ne_none_iff_exists'.mp
      fun hnot => hdelivers.noTarget.mp hnot (dst, x) htargets hphysical
    obtain ⟨y, hy, -, hglobalID, hunique, htargetID, -⟩ := hdelivers.target n hn
    obtain rfl := hunique (dst, x) htargets hphysical
    rw [if_neg hnone, hid] at htargetID
    obtain rfl := Option.some.inj ((hN target.val dst hdst).symm.trans hglobalID)
    refine ⟨event, hevent, ?_, ?_⟩
    · apply Option.map_injective Fin.val_injective
      rw [← hentry.targetSubject, hn, Option.map_some]
    · apply Option.map_injective Fin.val_injective
      rw [← hentry.targetEvent, htargetID, Option.map_some]

/-! ### Interrupts -/

variable (value d P) in
/-- The vector routing of a kernel is that of a system policy. -/
def GeneratedRouting : Prop := ∃ l, Interrupts.interrupts value d = some l ∧
  ∀ v, ∃ route, (Interrupts.vectorRouting l).find v.toNat = some route ∧
    route.subject = (P.vectorRouting v).subject.map Fin.val ∧ route.vector = (P.vectorRouting v).vector.toNat

/-- Vectors with a subject are those of assigned interrupts. -/
lemma exists_irq (hB : Interrupts.InFormatB value d) (hA : Interrupts.Accepted value d)
    {l : List Interrupts.Interrupt} (hl : Interrupts.interrupts value d = some l) {v subjectID vector : ℕ}
    (hfind : (Interrupts.vectorRouting l).find v = some ⟨some subjectID, vector⟩) : v ≤ 255 ∧
      ∃ x ∈ d.irqs, natural value x.1.1.globalId = some subjectID ∧ natural value x.1.2.2.vector = some vector := by
  have hmem : v ∈ indexes (Interrupts.vectorRouting l).choices := by
    by_contra hnot
    cases (Aggregate.find_of_notMem hnot).symm.trans hfind
  obtain ⟨hge, hle⟩ := (Interrupts.vectorRouting_legal hB hA hl).inRange v hmem
  obtain ⟨n, rfl⟩ := Nat.exists_eq_add_of_le' hge
  refine ⟨hle, ?_⟩
  by_cases hexists : ∃ x ∈ d.irqs, natural value x.2.2.number = some n
  · obtain ⟨x, hx, hn⟩ := hexists
    obtain ⟨n', subjectID', vector', hn', hid, hvector, hfind', -⟩ := Interrupts.assigned_route hB hA hl hx
    rw [← Option.some.inj (hn.symm.trans hn'), hfind] at hfind'
    cases hfind'
    exact ⟨x, hx, hid, hvector⟩
  · have hother := (Interrupts.other_route hB hA hl fun x hx hn => hexists ⟨x, hx, hn⟩).1
    cases hother.symm.trans hfind

/-- The kernel of an accepted policy routes a vector to a subject if and only if the policy assigns an interrupt with
this vector to the subject. -/
theorem routes_iff_assigned (hB : Interrupts.InFormatB value d) (hN : Numbered value d)
    (hA : Interrupts.Accepted value d) (hG : GeneratedRouting value d P) (target : P.Subject) (vector : Kernel.Byte) :
    P.Routes target vector ↔ ∃ x ∈ d.irqs, d.subjects[target.val]? = some x.1.1 ∧
      natural value x.1.2.2.vector = some vector.toNat := by
  obtain ⟨l, hl, hentries⟩ := hG
  constructor
  · rintro ⟨v, hsubject, rfl⟩
    obtain ⟨⟨subjectID, vector⟩, hfind, hid, hvector⟩ := hentries v
    dsimp only at hid hvector
    rw [hsubject, Option.map_some] at hid
    rw [hid] at hfind
    obtain ⟨-, x, hx, hglobalID, hirqVector⟩ := exists_irq hB hA hl hfind
    exact ⟨x, hx, hN.position (mem_grandchildren.mp (mem_getMatching hx).1).1 hglobalID, hvector ▸ hirqVector⟩
  · rintro ⟨x, hx, hsubject, hvector⟩
    obtain ⟨n, subjectID, vector', -, hid, hvector', hfind, -⟩ := Interrupts.assigned_route hB hA hl hx
    have hle := (exists_irq hB hA hl hfind).1
    let v := BitVec.ofNat 8 (n + Interrupts.hostIRQRemapOffset)
    have hv : v.toNat = n + Interrupts.hostIRQRemapOffset := by
      rw [BitVec.toNat_ofNat, Nat.mod_eq_of_lt (Nat.lt_succ_of_le hle)]
    obtain ⟨route, hroute, hrouteSubject, hrouteVector⟩ := hentries v
    rw [hv, hfind] at hroute
    obtain rfl := Option.some.inj hroute
    refine ⟨v, ?_, ?_⟩
    · apply Option.map_injective Fin.val_injective
      rw [← hrouteSubject, Option.map_some]
      exact hid.symm.trans (hN target.val _ hsubject)
    · apply BitVec.eq_of_toNat_eq
      rw [← hrouteVector]
      exact Option.some.inj (hvector'.symm.trans hvector)

/-! ### VMCS regions -/

lemma vmcsName_injective {name name' : String} (h : name ++ "|vmcs" = name' ++ "|vmcs") : name = name' := by
  have hlist := congrArg String.toList h
  rw [String.toList_append, String.toList_append] at hlist
  exact String.toList_injective (List.append_cancel_right hlist)

lemma pair_of_ne {α : Type} {nodes : List α} {left right : α} (hleft : left ∈ nodes) (hright : right ∈ nodes)
    (hne : left ≠ right) : Mucfgcheck.Pair nodes left right ∨ Mucfgcheck.Pair nodes right left := by
  obtain ⟨i, hi⟩ := List.mem_iff_getElem?.mp hleft
  obtain ⟨j, hj⟩ := List.mem_iff_getElem?.mp hright
  rcases lt_trichotomy i j with hlt | rfl | hgt
  · exact Or.inl ⟨i, j, hlt, hi, hj⟩
  · exact absurd (Option.some.inj (hi.symm.trans hj)) hne
  · exact Or.inr ⟨j, i, hgt, hj, hi⟩

/-- Subjects with one VMCS address are one subject. -/
lemma vmcsAddress_injective (hG : Generated value d P) (hE : Expanded value d) (hP : Placed value d)
    {id id' : P.Subject} (h : Kernel.vmcsAddress id = Kernel.vmcsAddress id') : id = id' := by
  obtain ⟨subject, hsubject⟩ := hG.exists_subject id
  obtain ⟨subject', hsubject'⟩ := hG.exists_subject id'
  obtain ⟨-, _, node, -, -, hnode, haddress⟩ := subjectEntry_some (hG.subject id subject hsubject)
  obtain ⟨-, _, node', -, -, hnode', haddress'⟩ := subjectEntry_some (hG.subject id' subject' hsubject')
  obtain ⟨hmem, hname⟩ := getElement_some hnode
  obtain ⟨hmem', hname'⟩ := getElement_some hnode'
  have hend := hE.vmcsAddress node hmem _ haddress
  dsimp only at haddress haddress' hend
  rw [h] at haddress hend
  have hsame : node = node' := by
    by_contra hne
    rcases pair_of_ne (List.mem_filter.mp hmem).1 (List.mem_filter.mp hmem').1 hne with hpair | hpair
    · exact Mucfgcheck.Subjects.vmcsRegions_disjoint hP.overlap hP.vmcsSize hpair hmem hmem' hend ⟨haddress, haddress'⟩
    · exact Mucfgcheck.Subjects.vmcsRegions_disjoint hP.overlap hP.vmcsSize hpair hmem' hmem hend ⟨haddress', haddress⟩
  have hnames : subject.name = subject'.name := vmcsName_injective (hname.symm.trans (hsame ▸ hname'))
  obtain rfl := hP.subject_eq (List.mem_of_getElem? hsubject) (List.mem_of_getElem? hsubject') hnames
  exact Fin.ext (Option.some.inj ((hE.globalId _ _ hsubject).symm.trans (hE.globalId _ _ hsubject')))

/-- The kernel of an accepted policy assigns each subject to one CPU: its partition and the minor frames of this
partition are there, its handovers stay there, and no other subject has its VMCS. -/
theorem generated_assigned (hvalue : ∀ n ≤ EventGroupType.vmxExit.getMaxID, value (toString n) = some n)
    (hB : InFormatB value d) (hS : SingleGroups d) (hE : Expanded value d) (hA : Events.Accepted value d)
    (hP : Placed value d) (hG : Generated value d P) : P.Assigned where
  partition := by
    intro id id' hsame
    obtain ⟨partition, hmem, hid, hcpu⟩ := exists_partition hG hP id'
    exact cpu_eq_of_partition hG hP hmem (hsame ▸ hid) hcpu
  plan := by
    intro c major minor hminor id hsame
    obtain ⟨partition, hmem, hcpu, hid⟩ := exists_minorFrame hG hE hP hminor
    exact cpu_eq_of_partition hG hP hmem (hsame ▸ hid) hcpu
  handover := by
    intro id event hevent hhandover target htarget
    exact handover_cpu hvalue hB hA hS hE.globalId hG hevent hhandover htarget
  vmcs := fun _ _ h => vmcsAddress_injective hG hE hP h

/-! ### The tables of a call -/

/-- The kernel of `callPolicy`. -/
def callTables : Kernel.Policy where
  subjects := 3
  partitions := 2
  groups := 2
  cpus := 2
  lastMajor := 0
  lastMinor := 0
  subjectCpu s := if s.val = 2 then 1 else 0
  subjectSpec s := Kernel.clearedSpec (BitVec.ofNat 64 (4096 * (s.val + 1)))
  schedulingPlans c _ := ⟨Fin.last 0, fun _ => ⟨c, none, 100⟩⟩
  majorFramePeriod _ := 100
  vmxTimerRate := 0
  lastGroupIndex _ := 0
  partitionGroups p i := if i.val = 0 then some p else none
  initialSubject g := if g = 0 then Fin.castSucc 0 else Fin.last 2
  groupIndex _ := 0
  subjectToPartition s := if s.val = 2 then 1 else 0
  subjectToGroup s := if s.val = 2 then 1 else 0
  lastTrap := 59
  getTrap _ _ := ⟨.systemPanic, none, none, false, false, 0⟩
  getSourceEvent s e := if s.val = 0 ∧ e.val = 1 then ⟨.noAction, some (Fin.castSucc 1), some 2, true, false, 0⟩
    else Kernel.nullSourceEvent
  getTargetEvent s e := if s.val = 1 ∧ e.val = 2 then .injectInterrupt 33 else .noAction
  remapOffset := 32
  vectorRouting v := if v = 48 then ⟨some (Fin.last 2), 40⟩ else ⟨none, 0⟩
  maskIrq v := v = 48
  partitionGroups_isSome := by decide
  partitionGroups_unique := by decide
  subject_in_partition := by decide
  initialSubject_group := by decide

/-- A test for the entries of a table. -/
def matchesEntry {subjects : ℕ} (entry : SourceEntry) (event : Kernel.SourceEvent subjects) : Bool :=
  sourceAction entry.sourceAction = some event.sourceAction ∧ entry.targetSubject = event.targetSubject.map Fin.val ∧
    entry.targetEvent = event.targetEvent.map Fin.val ∧ entry.handover = event.handover ∧
    entry.sendIPI = event.sendIPI ∧ entry.irqNumber = event.irqNumber.toNat

/-- A test for the table of a subject. -/
def matchesTable {subjects n : ℕ} (table : Option (Aggregate ℕ SourceEntry))
    (events : Fin n → Kernel.SourceEvent subjects) : Bool :=
  table.any fun table => ∀ i, ((table.find i.val).any fun entry => matchesEntry entry (events i)) = true

lemma matchesEntry_isEntry {subjects : ℕ} {entry : SourceEntry} {event : Kernel.SourceEvent subjects}
    (h : matchesEntry entry event = true) : IsEntry entry event := by
  obtain ⟨haction, hsubject, htarget, hhandover, hipi, hirq⟩ := of_decide_eq_true h
  exact ⟨haction, hsubject, htarget, hhandover, hipi, hirq⟩

lemma exists_of_any {α : Type} {o : Option α} {p : α → Bool} (h : o.any p = true) : ∃ a, o = some a ∧ p a = true := by
  cases o with
  | none => cases h
  | some a => exact ⟨a, rfl, h⟩

lemma matchesTable_entries {subjects n : ℕ} {table : Option (Aggregate ℕ SourceEntry)}
    {events : Fin n → Kernel.SourceEvent subjects} (h : matchesTable table events = true) :
    ∃ a, table = some a ∧ ∀ i, ∃ entry, a.find i.val = some entry ∧ IsEntry entry (events i) := by
  obtain ⟨a, ha, hall⟩ := exists_of_any h
  refine ⟨a, ha, fun i => ?_⟩
  obtain ⟨entry, hentry, hmatches⟩ := exists_of_any (of_decide_eq_true hall i)
  exact ⟨entry, hentry, matchesEntry_isEntry hmatches⟩

/-- What holds at all positions. -/
lemma of_positions {α : Type} {n : ℕ} {nodes : List α} {p : Fin n → α → Bool}
    (h : ∀ i, (nodes[i.val]?.any (p i)) = true) (i : Fin n) (node : α) (hnode : nodes[i.val]? = some node) :
    p i node = true := by
  have hi := h i
  rw [hnode] at hi
  exact hi

lemma callTables_generated : Generated decimal callPolicy callTables where
  subjects := rfl
  subject id subject hsubject := by
    have hany := of_positions (p := fun id subject => (subjectEntry decimal callPolicy subject).any fun entry =>
      entry.cpu = (callTables.subjectCpu id).val ∧ entry.group = (callTables.subjectToGroup id).val + 1 ∧
        entry.partition = (callTables.subjectToPartition id).val + 1 ∧
        entry.vmcsAddress = Kernel.vmcsAddress (P := callTables) id) (by decide +kernel) id subject hsubject
    obtain ⟨⟨cpu, group, partition, address⟩, hentry, hsame⟩ := exists_of_any hany
    obtain ⟨rfl, rfl, rfl, rfl⟩ := of_decide_eq_true hsame
    exact hentry
  minorFrame := by
    have hplan : ∀ c : callTables.Cpu, (callPolicy.majorFrames[0]?.any fun frames =>
        frames.cpus[c.val]?.any fun cpu => cpu.minorFrames[0]?.any fun frame =>
          minorFramePartition decimal callPolicy frame = some (c.val + 1)) = true := by decide +kernel
    intro c major minor _
    have hmajor : major.val = 0 := Nat.lt_one_iff.mp major.isLt
    have hfirst : minor.val = 0 := Nat.lt_one_iff.mp minor.isLt
    obtain ⟨frames, hframes, hcpus⟩ := exists_of_any (hplan c)
    obtain ⟨cpu, hcpu, hminors⟩ := exists_of_any hcpus
    obtain ⟨frame, hframe, hpartition⟩ := exists_of_any hminors
    rw [← hmajor] at hframes
    rw [← hfirst] at hframe
    exact ⟨frames, cpu, frame, hframes, hcpu, hframe, of_decide_eq_true hpartition⟩
  lastTrap := rfl
  trap id subject hsubject := matchesTable_entries (of_positions (p := fun id subject =>
    matchesTable (trapTable decimal callPolicy (groupEvents subject .vmxExit)) (callTables.getTrap id))
    (by decide +kernel) id subject hsubject)
  sourceEvent id subject hsubject := matchesTable_entries (of_positions (p := fun id subject =>
    matchesTable (sourceEventTable decimal callPolicy (groupEvents subject .vmcall)) (callTables.getSourceEvent id))
    (by decide +kernel) id subject hsubject)

/-- The numbers of the policy. -/
structure CallNumbers : Prop where
  globalId : ∀ i : Fin 3, (callPolicy.subjects[i.val]?.any fun subject =>
    natural decimal subject.globalId = some i.val) = true
  groupId : ∀ subject ∈ callPolicy.subjects, (natural decimal subject.schedGroupId).isSome
  partitionId : ∀ partition ∈ callPolicy.partitions, (natural decimal partition.id).isSome
  vmcsAddress : ∀ node ∈ vmcsRegions callPolicy, ((unsigned64 decimal node.physicalAddress).any fun address =>
    address.toNat < 2 ^ 32) = true
  cpu : ∀ frames ∈ callPolicy.majorFrames, frames.cpus.length = 2 ∧
    ∀ c : Fin 2, (frames.cpus[c.val]?.any fun cpu => natural decimal cpu.id = some c.val) = true

lemma callPolicy_numbers : CallNumbers := by constructor <;> decide +kernel

lemma callPolicy_numbered : Numbered decimal callPolicy := by
  intro i subject hsubject
  have hlt : i < 3 := (List.getElem?_eq_some_iff.mp hsubject).1
  exact of_decide_eq_true (of_positions callPolicy_numbers.globalId ⟨i, hlt⟩ subject hsubject)

/-- The VMCS regions are below 4 GB. -/
lemma callPolicy_vmcsRegions : ∀ node ∈ vmcsRegions callPolicy, ∃ address,
    unsigned64 decimal node.physicalAddress = some address ∧ address.toNat < 2 ^ 32 := by
  intro node hnode
  obtain ⟨address, haddress, hlt⟩ := exists_of_any (callPolicy_numbers.vmcsAddress node hnode)
  exact ⟨address, haddress, of_decide_eq_true hlt⟩

lemma callPolicy_readable : Readable decimal callPolicy where
  groupId subject hsubject := Option.isSome_iff_exists.mp (callPolicy_numbers.groupId subject hsubject)
  partitionId partition hpartition := Option.isSome_iff_exists.mp (callPolicy_numbers.partitionId partition hpartition)
  vmcsAddress node hnode := (callPolicy_vmcsRegions node hnode).imp fun _ h => h.1

lemma callPolicy_expanded : Expanded decimal callPolicy where
  globalId := callPolicy_numbered
  cpu frames hframes c cpu hcpu := by
    obtain ⟨hlength, hids⟩ := callPolicy_numbers.cpu frames hframes
    have hlt : c < 2 := hlength ▸ (List.getElem?_eq_some_iff.mp hcpu).1
    exact of_decide_eq_true (of_positions hids ⟨c, hlt⟩ cpu hcpu)
  vmcsAddress node hnode address haddress := by
    obtain ⟨address', haddress', hlt⟩ := callPolicy_vmcsRegions node hnode
    obtain rfl := Option.some.inj (haddress.symm.trans haddress')
    exact (Nat.add_lt_add_right hlt pageSize).trans (by decide)

lemma callPolicy_placed : Placed decimal callPolicy where
  names := by decide +kernel
  runnability := by decide +kernel
  partitionID := by decide +kernel
  partitionCPUAffinity := by decide +kernel
  partitionReferences := by decide +kernel
  subjectCPUAffinity := by decide +kernel
  overlap := by decide +kernel
  vmcsPresence := by decide +kernel
  vmcsSize := by decide +kernel

theorem subjectEntry_total_call :
    (∀ subject ∈ callPolicy.subjects, ∃ entry, subjectEntry decimal callPolicy subject = some entry ∧
      ∃ partition ∈ callPolicy.partitions, natural decimal partition.id = some entry.partition ∧
        natural decimal partition.cpu = some entry.cpu) ∧
    ∀ x ∈ callPolicy.minorFrames, ∃ partition ∈ callPolicy.partitions,
      natural decimal partition.id = minorFramePartition decimal callPolicy x.2.2 ∧
        (minorFramePartition decimal callPolicy x.2.2).isSome = true ∧ partition.cpu = x.2.1.id :=
  subjectEntry_total callPolicy_readable callPolicy_placed

theorem generated_assigned_call : callTables.Assigned :=
  generated_assigned decimal_toString callPolicy_inFormatB callPolicy_singleGroups callPolicy_expanded
    callPolicy_accepted callPolicy_placed callTables_generated

theorem sends_iff_connected_call : callTables.Sends (0 : Fin 3) (1 : Fin 3) (2 : Fin 64) ↔
    Connected decimal callPolicy callTables (0 : Fin 3) (1 : Fin 3) (2 : Fin 64) :=
  sends_iff_connected decimal_toString callPolicy_inFormatB callPolicy_singleGroups callPolicy_numbered
    callPolicy_accepted callTables_generated (0 : Fin 3) (1 : Fin 3) (2 : Fin 64)

lemma callTables_routing : GeneratedRouting decimal callPolicy callTables := by
  have hroutes : ((Interrupts.interrupts decimal callPolicy).any fun l => ∀ v : Kernel.Byte,
      ((Interrupts.vectorRouting l).find v.toNat).any (fun route =>
        route.subject = (callTables.vectorRouting v).subject.map Fin.val ∧
          route.vector = (callTables.vectorRouting v).vector.toNat) = true) = true := by decide +kernel
  obtain ⟨l, hl, hall⟩ := exists_of_any hroutes
  refine ⟨l, hl, fun v => ?_⟩
  obtain ⟨route, hroute, hsame⟩ := exists_of_any (of_decide_eq_true hall v)
  exact ⟨route, hroute, of_decide_eq_true hsame⟩

theorem routes_iff_assigned_call : callTables.Routes (2 : Fin 3) 40 ↔
    ∃ x ∈ callPolicy.irqs, callPolicy.subjects[2]? = some x.1.1 ∧ natural decimal x.1.2.2.vector = some 40 :=
  routes_iff_assigned Interrupts.callPolicy_inFormatB callPolicy_numbered Interrupts.callPolicy_accepted
    callTables_routing (2 : Fin 3) 40

end Muen.Tools.Mugenspec.Policies
