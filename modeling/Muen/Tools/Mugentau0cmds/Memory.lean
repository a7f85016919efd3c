import Muen.Tools.Mugentau0cmds.PageTables

/-!
# Cmd_Stream.Roots.Memory

The commands that create the memory regions: for each region the page tables from the top down, the pages with
their content, and the activation of the pages and of the page tables from the bottom up.
-/

namespace Muen.Tools.Mugentau0cmds
open Muen.Lib

/-- `Natural'Last`. -/
def naturalLast : Nat := 2147483647

inductive MemoryKind
  | system | systemVmxon | systemIobm | systemMsrbm | systemPt
  | systemVtdRoot | systemVtdContext | systemVtdIR
  | kernel | kernelBinary | kernelFpu | kernelInterface | kernelMicrocode
  | kernelMsrstore | kernelVmcs
  | subject | subjectInfo | subjectBinary | subjectZeropage | subjectInitrd
  | subjectChannel | subjectState | subjectTimedEvent | subjectInterrupts
  | subjectSchedulingInfo | subjectBios | subjectAcpiRsdp
  | subjectAcpiXsdt | subjectAcpiFadt | subjectAcpiDsdt | subjectDevice
  | subjectSolo5BootInfo | subjectCrashAudit
  | deviceRmrr
deriving DecidableEq

/-- The regions that are not created here. -/
def MemoryKind.isSystem : MemoryKind → Bool
  | system | systemPt | systemVmxon | systemIobm | systemMsrbm | systemVtdRoot | systemVtdContext | systemVtdIR => true
  | _ => false

/-- The content node of a region. The offset is absent when it is given as `none`, the size when it is missing. -/
inductive ContentNode
  | file (filename : String) (offset size : Option Unsigned64)
  | fill (pattern : String)

structure PhysicalRegion where
  name : String
  kind : MemoryKind
  caching : String
  size : Unsigned64
  physicalAddress : Unsigned64
  content : Option ContentNode
  hash : String
  tau0RootId : Option Nat

inductive MemoryCommand
  | clearPage (page : Unsigned64)
  | clearPages (basePage count : Unsigned64)
  | createMemoryRegion (region level : Nat) (caching : String) (hash : Option String)
  | createPageTableMR (page : Unsigned64) (region level : Nat) (virtualAddress : Unsigned64)
  | appendPagesMRFile (region : Nat) (basePage count : Unsigned64) (filename : String) (baseOffset : Unsigned64)
  | appendPagesMRFill (region : Nat) (basePage count : Unsigned64) (fill : String)
  | appendVacuousPages (region : Nat) (basePage count : Unsigned64)
  | lockMemoryRegion (region : Nat)
  | activatePagesMR (region : Nat) (baseVirtualAddress count : Unsigned64)
  | activatePageTableMR (region level : Nat) (virtualAddress : Unsigned64)
  | activateMemoryRegion (region : Nat)

/-- The exceptions, and a loop that does not end. -/
inductive StreamError
  | missingFilesize (message : String)
  | constraintError
  | endless

/-! ### Content -/

/-- The quad word that a byte pattern such as `16#ff#` fills memory with. -/
def fillQuad (fillStr : String) : Except StreamError String := do
  let fillByte ←
    if fillStr = "none" then .ok "00"
    else if fillStr.length < 5 then .error .constraintError
    else .ok (String.ofList ((fillStr.toList.drop 3).take 2))
  .ok ("16#" ++ fillByte ++ fillByte ++ "_" ++ fillByte ++ fillByte ++ "_" ++ fillByte ++ fillByte ++ "_" ++ fillByte ++
    fillByte ++ "#")

def addContent (region : Nat) (memName : String) (content : ContentNode) (baseAddress size : Unsigned64) :
    Except StreamError (List MemoryCommand) :=
  match content with
  | .file filename offset fileSize =>
    let curOffset := offset.getD 0
    match fileSize with
    | none => .error (.missingFilesize ("File '" ++ filename ++ "' which is content of memory region '" ++ memName ++
        "' has no size attribute"))
    | some fileSize =>
      let endAddr := baseAddress + fileSize - curOffset
      let endAddr := (endAddr + (4096 - 1)) / 4096
      let endAddr := endAddr * 4096
      .ok ([.clearPages baseAddress (size / 4096),
          .appendPagesMRFile region baseAddress ((endAddr - baseAddress) / 4096) filename curOffset] ++
        if endAddr < baseAddress + size then
          [.appendPagesMRFill region endAddr ((baseAddress + size - endAddr) / 4096) "16#0000_0000_0000_0000#"]
        else [])
  | .fill pattern => do
    let endAddr := baseAddress + size
    let fill ← fillQuad pattern
    .ok [.clearPages baseAddress (size / 4096),
      .appendPagesMRFill region baseAddress ((endAddr - baseAddress) / 4096) fill]

def addVacuousPages (region : Nat) (baseAddress size : Unsigned64) : List MemoryCommand :=
  [.appendVacuousPages region baseAddress (size / 4096)]

/-! ### Page tables -/

/-- The commands for the page tables of one level, and the next private page. -/
def createLevel (region lvl : Nat) (curMapSize : Unsigned64) :
    Nat → Unsigned64 → Unsigned64 → List MemoryCommand × Unsigned64
  | 0, _, nextPrivPage => ([], nextPrivPage)
  | ptCount + 1, curVirtAddr, nextPrivPage =>
    let (cmds, last) := createLevel region lvl curMapSize ptCount (curVirtAddr + curMapSize) (nextPrivPage + 4096)
    (.clearPage nextPrivPage :: .createPageTableMR nextPrivPage region lvl curVirtAddr :: cmds, last)

/-- The levels from the given one down to the first. -/
def createLevels (region : Nat) (size : Unsigned64) :
    Nat → Unsigned64 → Unsigned64 → Except StreamError (List MemoryCommand × Unsigned64)
  | 0, _, nextPrivPage => .ok ([], nextPrivPage)
  | lvl + 1, curMapSize, nextPrivPage =>
    if curMapSize = 0 then .error .constraintError
    else do
      let ptCount := (size + curMapSize - 1) / curMapSize
      let (cmds, nextPrivPage) := createLevel region (lvl + 1) curMapSize ptCount.toNat 0 nextPrivPage
      let (rest, nextPrivPage) ← createLevels region size lvl (curMapSize / 512) nextPrivPage
      .ok (cmds ++ rest, nextPrivPage)

def createPTs (region lastLevel : Nat) (size nextPrivPage : Unsigned64) :
    Except StreamError (List MemoryCommand × Unsigned64) :=
  createLevels region size (lastLevel - 1) (512 ^ (lastLevel - 1) * 4096) nextPrivPage

/-- Page tables are created for a region larger than a page. -/
def regionPTs (region level : Nat) (size nextPrivPage : Unsigned64) :
    Except StreamError (List MemoryCommand × Unsigned64) :=
  if size > 4096 then createPTs region level size nextPrivPage else .ok ([], nextPrivPage)

/-- The number of levels of a region. It is a natural number, and what is left of that type bounds the loop. -/
def mapLevel (size : Unsigned64) : Nat → Nat → Unsigned64 → Except StreamError Nat
  | 0, _, _ => .error .constraintError
  | left + 1, level, curMapSize =>
    if size > curMapSize then mapLevel size left (level + 1) (curMapSize * 512) else .ok level

/-- The activation of the page tables of one level. A loop that takes more steps than there are addresses does not
end. -/
def activateLevel (region lvl : Nat) (size : Unsigned64) : Nat → Unsigned64 → Except StreamError (List MemoryCommand)
  | 0, _ => .error .endless
  | left + 1, curVirtAddr =>
    if curVirtAddr < size then do
      let cmds ← activateLevel region lvl size left (curVirtAddr + 4096 * 512 ^ lvl)
      .ok (.activatePageTableMR region lvl curVirtAddr :: cmds)
    else .ok []

/-- The levels from the first one to the given one. -/
def activateLevels (region : Nat) (size : Unsigned64) : Nat → Except StreamError (List MemoryCommand)
  | 0 => .ok []
  | lvl + 1 => do
    let cmds ← activateLevels region size lvl
    let level ← activateLevel region (lvl + 1) size (2 ^ 64) 0
    .ok (cmds ++ level)

/-! ### Regions -/

/-- The stream, the variables of the package, and the regions that have been processed. -/
structure StreamState where
  stream : List MemoryCommand
  currentRoot : Nat
  nextPrivPage : Unsigned64
  regions : List PhysicalRegion

def noRegions : StreamState := ⟨[], 0, 0x400000000000, []⟩

/-- The commands for the pages of a region. -/
def PhysicalRegion.pageCommands (r : PhysicalRegion) (region : Nat) : Except StreamError (List MemoryCommand) :=
  match r.content with
  | some content => addContent region r.name content r.physicalAddress r.size
  | none => .ok (addVacuousPages region r.physicalAddress r.size)

/-- The commands of one region, and the next private page. -/
def regionCommands (region : Nat) (r : PhysicalRegion) (nextPrivPage : Unsigned64) :
    Except StreamError (List MemoryCommand × Unsigned64) := do
  let level ← mapLevel r.size naturalLast 1 4096
  let hash := if 0 < r.hash.length ∧ r.hash ≠ "none" ∧ r.content.isSome then some r.hash else none
  let (pts, nextPrivPage) ← regionPTs region level r.size nextPrivPage
  let pages ← r.pageCommands region
  let activate ← activateLevels region r.size (level - 1)
  .ok ([.createMemoryRegion region level r.caching hash] ++ pts ++ pages ++
    [.lockMemoryRegion region, .activatePagesMR region 0 (r.size / 4096)] ++ activate ++
    [.activateMemoryRegion region], nextPrivPage)

def createMemoryRegion (s : StreamState) (r : PhysicalRegion) : Except StreamError StreamState :=
  if r.kind.isSystem then .ok { s with regions := s.regions ++ [r] }
  else do
    let (commands, nextPrivPage) ← regionCommands s.currentRoot r s.nextPrivPage
    .ok ⟨s.stream ++ commands, s.currentRoot + 1, nextPrivPage,
      s.regions ++ [{ r with tau0RootId := some s.currentRoot }]⟩

def createMemoryRegions (s : StreamState) (physMemory : List PhysicalRegion) : Except StreamError StreamState :=
  physMemory.foldlM createMemoryRegion s

/-! ### The commands of a region in the stream -/

/-- The region that a command is for. -/
def MemoryCommand.region : MemoryCommand → Option Nat
  | clearPage _ => none
  | clearPages _ _ => none
  | createMemoryRegion region _ _ _ => some region
  | createPageTableMR _ region _ _ => some region
  | appendPagesMRFile region _ _ _ _ => some region
  | appendPagesMRFill region _ _ _ => some region
  | appendVacuousPages region _ _ => some region
  | lockMemoryRegion region => some region
  | activatePagesMR region _ _ => some region
  | activatePageTableMR region _ _ => some region
  | activateMemoryRegion region => some region

/-- The commands of the stream that are for the given region. -/
def StreamState.commandsFor (s : StreamState) (region : Nat) : List MemoryCommand :=
  s.stream.filter (fun c => c.region = some region)

namespace MemoryCommand

/-- The command is for none but the given region. -/
def OnlyFor (region : Nat) (c : MemoryCommand) : Prop := ∀ i, c.region = some i → i = region

/-- The commands that create page tables of a region. -/
inductive Creates (region : Nat) : MemoryCommand → Prop
  | clear (page : Unsigned64) : Creates region (clearPage page)
  | table (page : Unsigned64) (level : Nat) (virtualAddress : Unsigned64) :
    Creates region (createPageTableMR page region level virtualAddress)

/-- The commands that append pages to a region. -/
inductive Appends (region : Nat) : MemoryCommand → Prop
  | clear (basePage count : Unsigned64) : Appends region (clearPages basePage count)
  | file (basePage count : Unsigned64) (filename : String) (baseOffset : Unsigned64) :
    Appends region (appendPagesMRFile region basePage count filename baseOffset)
  | fill (basePage count : Unsigned64) (fill : String) : Appends region (appendPagesMRFill region basePage count fill)
  | vacuous (basePage count : Unsigned64) : Appends region (appendVacuousPages region basePage count)

/-- The commands that activate page tables of a region. -/
inductive Activates (region : Nat) : MemoryCommand → Prop
  | table (level : Nat) (virtualAddress : Unsigned64) :
    Activates region (activatePageTableMR region level virtualAddress)

variable {region : Nat} {c : MemoryCommand}

lemma onlyFor_of_some (h : c.region = some region) : c.OnlyFor region := by
  intro i hi
  rw [h] at hi
  exact (Option.some.inj hi).symm

lemma onlyFor_of_none (h : c.region = none) : c.OnlyFor region := by
  intro i hi
  rw [h] at hi
  cases hi

lemma Creates.onlyFor (h : c.Creates region) : c.OnlyFor region := by
  cases h with
  | clear => exact onlyFor_of_none rfl
  | table => exact onlyFor_of_some rfl

lemma Appends.onlyFor (h : c.Appends region) : c.OnlyFor region := by
  cases h with
  | clear => exact onlyFor_of_none rfl
  | file => exact onlyFor_of_some rfl
  | fill => exact onlyFor_of_some rfl
  | vacuous => exact onlyFor_of_some rfl

lemma Activates.onlyFor (h : c.Activates region) : c.OnlyFor region := by
  cases h with
  | table => exact onlyFor_of_some rfl

end MemoryCommand

section Kinds

variable {region : Nat}

lemma createLevel_creates (lvl : Nat) (curMapSize : Unsigned64) (ptCount : Nat) :
    ∀ curVirtAddr nextPrivPage, ∀ c ∈ (createLevel region lvl curMapSize ptCount curVirtAddr nextPrivPage).1,
      c.Creates region := by
  induction ptCount with
  | zero =>
    intro _ _ c hc
    simp [createLevel] at hc
  | succ ptCount ih =>
    intro curVirtAddr nextPrivPage c hc
    simp only [createLevel, List.mem_cons] at hc
    rcases hc with rfl | rfl | hc
    · exact .clear _
    · exact .table _ _ _
    · exact ih _ _ c hc

lemma createLevels_creates {size : Unsigned64} {levels : Nat} :
    ∀ {curMapSize nextPrivPage : Unsigned64} {commands : List MemoryCommand} {last : Unsigned64},
      createLevels region size levels curMapSize nextPrivPage = .ok (commands, last) →
      ∀ c ∈ commands, c.Creates region := by
  induction levels with
  | zero =>
    intro curMapSize nextPrivPage commands last h c hc
    cases h
    simp at hc
  | succ levels ih =>
    intro curMapSize nextPrivPage commands last h c hc
    unfold createLevels at h
    by_cases hzero : curMapSize = 0
    · rw [if_pos hzero] at h
      cases h
    · rw [if_neg hzero] at h
      obtain ⟨⟨rest, last'⟩, hrest, hok⟩ := bind_eq_ok h
      cases hok
      rcases List.mem_append.mp hc with hc | hc
      · exact createLevel_creates _ _ _ _ _ c hc
      · exact ih hrest c hc

lemma regionPTs_creates {level : Nat} {size nextPrivPage last : Unsigned64} {commands : List MemoryCommand}
    (h : regionPTs region level size nextPrivPage = .ok (commands, last)) : ∀ c ∈ commands, c.Creates region := by
  unfold regionPTs at h
  split_ifs at h
  · exact createLevels_creates h
  · cases h
    simp

lemma activateLevel_activates {lvl : Nat} {size : Unsigned64} {left : Nat} :
    ∀ {curVirtAddr : Unsigned64} {commands : List MemoryCommand},
      activateLevel region lvl size left curVirtAddr = .ok commands → ∀ c ∈ commands, c.Activates region := by
  induction left with
  | zero =>
    intro curVirtAddr commands h
    cases h
  | succ left ih =>
    intro curVirtAddr commands h c hc
    unfold activateLevel at h
    by_cases hlt : curVirtAddr < size
    · rw [if_pos hlt] at h
      obtain ⟨rest, hrest, hok⟩ := bind_eq_ok h
      cases hok
      rcases List.mem_cons.mp hc with rfl | hc
      · exact .table _ _
      · exact ih hrest c hc
    · rw [if_neg hlt] at h
      cases h
      simp at hc

lemma activateLevels_activates {size : Unsigned64} {levels : Nat} :
    ∀ {commands : List MemoryCommand}, activateLevels region size levels = .ok commands →
      ∀ c ∈ commands, c.Activates region := by
  induction levels with
  | zero =>
    intro commands h c hc
    cases h
    simp at hc
  | succ levels ih =>
    intro commands h c hc
    obtain ⟨before, hbefore, h⟩ := bind_eq_ok h
    obtain ⟨level, hlevel, hok⟩ := bind_eq_ok h
    cases hok
    rcases List.mem_append.mp hc with hc | hc
    · exact ih hbefore c hc
    · exact activateLevel_activates hlevel c hc

lemma addContent_appends {memName : String} {content : ContentNode} {baseAddress size : Unsigned64}
    {commands : List MemoryCommand} (h : addContent region memName content baseAddress size = .ok commands) :
    ∀ c ∈ commands, c.Appends region := by
  intro c hc
  cases content with
  | file filename offset fileSize =>
    cases fileSize with
    | none => cases h
    | some fileSize =>
      cases h
      rcases List.mem_append.mp hc with hc | hc
      · simp only [List.mem_cons, List.not_mem_nil, or_false] at hc
        rcases hc with rfl | rfl
        · exact .clear _ _
        · exact .file _ _ _ _
      · split_ifs at hc
        · rw [List.mem_singleton.mp hc]
          exact .fill _ _ _
        · simp at hc
  | fill pattern =>
    obtain ⟨fill, -, hok⟩ := bind_eq_ok h
    cases hok
    simp only [List.mem_cons, List.not_mem_nil, or_false] at hc
    rcases hc with rfl | rfl
    · exact .clear _ _
    · exact .fill _ _ _

lemma pageCommands_appends {r : PhysicalRegion} {commands : List MemoryCommand}
    (h : r.pageCommands region = .ok commands) : ∀ c ∈ commands, c.Appends region := by
  unfold PhysicalRegion.pageCommands at h
  cases hcontent : r.content with
  | none =>
    rw [hcontent] at h
    cases h
    intro c hc
    rw [List.mem_singleton.mp hc]
    exact .vacuous _ _
  | some content =>
    rw [hcontent] at h
    exact addContent_appends h

end Kinds

/-- The parts of the commands of a region. -/
structure RegionParts (region : Nat) (r : PhysicalRegion) (nextPrivPage : Unsigned64) (commands : List MemoryCommand)
    (last : Unsigned64) where
  level : Nat
  pts : List MemoryCommand
  pages : List MemoryCommand
  activate : List MemoryCommand
  level_eq : mapLevel r.size naturalLast 1 4096 = .ok level
  pts_eq : regionPTs region level r.size nextPrivPage = .ok (pts, last)
  pages_eq : r.pageCommands region = .ok pages
  activate_eq : activateLevels region r.size (level - 1) = .ok activate
  commands_eq : ∃ hash, commands = [.createMemoryRegion region level r.caching hash] ++ pts ++ pages ++
    [.lockMemoryRegion region, .activatePagesMR region 0 (r.size / 4096)] ++ activate ++ [.activateMemoryRegion region]

lemma regionCommands_parts {region : Nat} {r : PhysicalRegion} {nextPrivPage : Unsigned64}
    {commands : List MemoryCommand} {last : Unsigned64}
    (h : regionCommands region r nextPrivPage = .ok (commands, last)) :
    Nonempty (RegionParts region r nextPrivPage commands last) := by
  obtain ⟨level, hlevel, h⟩ := bind_eq_ok h
  obtain ⟨⟨pts, last'⟩, hpts, h⟩ := bind_eq_ok h
  obtain ⟨pages, hpages, h⟩ := bind_eq_ok h
  obtain ⟨activate, hactivate, h⟩ := bind_eq_ok h
  cases h
  exact ⟨level, pts, pages, activate, hlevel, hpts, hpages, hactivate, _, rfl⟩

lemma regionCommands_only {region : Nat} {r : PhysicalRegion} {nextPrivPage : Unsigned64}
    {commands : List MemoryCommand} {last : Unsigned64}
    (h : regionCommands region r nextPrivPage = .ok (commands, last)) : ∀ c ∈ commands, c.OnlyFor region := by
  obtain ⟨parts⟩ := regionCommands_parts h
  obtain ⟨hash, heq⟩ := parts.commands_eq
  intro c hc
  rw [heq] at hc
  simp only [List.mem_append, List.mem_cons, List.not_mem_nil, or_false] at hc
  rcases hc with ((((rfl | hc) | hc) | rfl | rfl) | hc) | rfl
  · exact MemoryCommand.onlyFor_of_some rfl
  · exact (regionPTs_creates parts.pts_eq c hc).onlyFor
  · exact (pageCommands_appends parts.pages_eq c hc).onlyFor
  · exact MemoryCommand.onlyFor_of_some rfl
  · exact MemoryCommand.onlyFor_of_some rfl
  · exact (activateLevels_activates parts.activate_eq c hc).onlyFor
  · exact MemoryCommand.onlyFor_of_some rfl

/-! ### Runs -/

namespace StreamState

/-- The commands of the stream are for regions that have been created. -/
def Fresh (s : StreamState) : Prop := ∀ c ∈ s.stream, ∀ region, c.region = some region → region < s.currentRoot

/-- What a run adds is for the regions that it creates. -/
structure Extends (s s' : StreamState) : Prop where
  root_le : s.currentRoot ≤ s'.currentRoot
  stream : ∃ commands, s'.stream = s.stream ++ commands ∧ ∀ c ∈ commands, ∀ region, c.region = some region →
    s.currentRoot ≤ region ∧ region < s'.currentRoot
  regions : ∃ regions, s'.regions = s.regions ++ regions

variable {s s₁ s₂ s' : StreamState}

lemma Extends.refl (s : StreamState) : s.Extends s :=
  ⟨le_refl _, ⟨[], (List.append_nil _).symm, by simp⟩, ⟨[], (List.append_nil _).symm⟩⟩

lemma Extends.trans (h : s.Extends s₁) (h' : s₁.Extends s₂) : s.Extends s₂ := by
  obtain ⟨commands, hstream, hcommands⟩ := h.stream
  obtain ⟨commands', hstream', hcommands'⟩ := h'.stream
  obtain ⟨regions, hregions⟩ := h.regions
  obtain ⟨regions', hregions'⟩ := h'.regions
  have hroot := h.root_le
  have hroot' := h'.root_le
  refine ⟨hroot.trans hroot', ⟨commands ++ commands', ?_, ?_⟩, ⟨regions ++ regions', ?_⟩⟩
  · rw [hstream', hstream, List.append_assoc]
  · intro c hc region hregion
    rcases List.mem_append.mp hc with hc | hc
    · have hbounds := hcommands c hc region hregion
      omega
    · have hbounds := hcommands' c hc region hregion
      omega
  · rw [hregions', hregions, List.append_assoc]

lemma Extends.fresh (h : s.Extends s₁) (hs : s.Fresh) : s₁.Fresh := by
  obtain ⟨commands, hstream, hcommands⟩ := h.stream
  intro c hc region hregion
  rw [hstream] at hc
  rcases List.mem_append.mp hc with hc | hc
  · exact (hs c hc region hregion).trans_le h.root_le
  · exact (hcommands c hc region hregion).2

lemma extends_step {r : PhysicalRegion} (h : createMemoryRegion s r = .ok s') : s.Extends s' := by
  unfold createMemoryRegion at h
  by_cases hsystem : r.kind.isSystem
  · rw [if_pos hsystem] at h
    cases h
    exact ⟨le_refl _, ⟨[], (List.append_nil _).symm, by simp⟩, ⟨[r], rfl⟩⟩
  · rw [if_neg hsystem] at h
    obtain ⟨⟨commands, last⟩, hcommands, hok⟩ := bind_eq_ok h
    cases hok
    refine ⟨Nat.le_succ _, ⟨commands, rfl, ?_⟩, ⟨_, rfl⟩⟩
    intro c hc region hregion
    have heq := regionCommands_only hcommands c hc region hregion
    simp only
    omega

lemma extends_run {rs : List PhysicalRegion} (h : createMemoryRegions s rs = .ok s') : s.Extends s' := by
  apply foldlM_ok (fun t _ => s.Extends t) (Extends.refl s) _ h
  intro _ r t t' ht hstep
  exact ht.trans (extends_step hstep)

/-- A run leaves the commands alone that are for an earlier region. -/
lemma Extends.commandsFor (h : s.Extends s') {region : Nat} (hregion : region < s.currentRoot) :
    s'.commandsFor region = s.commandsFor region := by
  obtain ⟨commands, hstream, hcommands⟩ := h.stream
  have hnone : commands.filter (fun c => c.region = some region) = [] := by
    apply List.filter_eq_nil_iff.mpr
    intro c hc heq
    have hbounds := hcommands c hc region (by simpa using heq)
    omega
  unfold StreamState.commandsFor
  rw [hstream, List.filter_append, hnone, List.append_nil]

lemma Fresh.commandsFor (h : s.Fresh) : s.commandsFor s.currentRoot = [] := by
  apply List.filter_eq_nil_iff.mpr
  intro c hc heq
  exact absurd (h c hc s.currentRoot (by simpa using heq)) (lt_irrefl _)

/-- In a run over a list of regions the commands for each of them are those of its own step. -/
lemma commandsFor_run {before after : List PhysicalRegion} {r : PhysicalRegion} (hs : s.Fresh)
    (hkind : r.kind.isSystem = false) (h : createMemoryRegions s (before ++ r :: after) = .ok s') :
    ∃ region nextPrivPage commands last, regionCommands region r nextPrivPage = .ok (commands, last) ∧
      { r with tau0RootId := some region } ∈ s'.regions ∧ commands <:+: s'.stream ∧
      s'.commandsFor region = commands.filter (fun c => c.region = some region) := by
  unfold createMemoryRegions at h
  rw [List.foldlM_append] at h
  obtain ⟨s₁, hbefore, h⟩ := bind_eq_ok h
  rw [List.foldlM_cons] at h
  obtain ⟨s₂, hstep, hafter⟩ := bind_eq_ok h
  have hfresh := (extends_run hbefore).fresh hs
  have hextends := extends_run hafter
  unfold createMemoryRegion at hstep
  rw [if_neg (by simp [hkind])] at hstep
  obtain ⟨⟨commands, last⟩, hcommands, hok⟩ := bind_eq_ok hstep
  cases hok
  refine ⟨s₁.currentRoot, s₁.nextPrivPage, commands, last, hcommands, ?_, ?_, ?_⟩
  · obtain ⟨regions, hregions⟩ := hextends.regions
    rw [hregions]
    simp
  · obtain ⟨rest, hstream, -⟩ := hextends.stream
    rw [hstream]
    exact ⟨s₁.stream, rest, rfl⟩
  · rw [hextends.commandsFor (Nat.lt_succ_self _)]
    have hnone := hfresh.commandsFor
    unfold StreamState.commandsFor at hnone ⊢
    rw [List.filter_append, hnone, List.nil_append]

end StreamState

end Muen.Tools.Mugentau0cmds
