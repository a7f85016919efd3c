import Muen.Tools.Mugentau0cmds.Memory
import Mathlib.Data.List.Infix

/-!
# The content of memory regions

The pages that are appended to a region with content tile it: first the pages that hold the bytes of the file from its
offset on, then the filled ones. As many pages are activated afterwards.
-/

namespace Muen.Tools.Mugentau0cmds
open Muen.Lib

/-- What the stream does with the pages of a region. -/
inductive PageEvent
  | file (page : Nat)
  | fill (page : Nat)
  | vacuous (page : Nat)
  | activated (count : Nat)
deriving DecidableEq

/-- The first addresses of pages that are named by the first one and their number. -/
def pagesFrom (basePage count : Nat) : List Nat := (List.range count).map (fun k => basePage + 4096 * k)

/-- What a command does with the pages of the given region. -/
def MemoryCommand.pageEvents (region : Nat) : MemoryCommand → List PageEvent
  | appendPagesMRFile r basePage count _ _ =>
    if r = region then (pagesFrom basePage.toNat count.toNat).map .file else []
  | appendPagesMRFill r basePage count _ =>
    if r = region then (pagesFrom basePage.toNat count.toNat).map .fill else []
  | appendVacuousPages r basePage count =>
    if r = region then (pagesFrom basePage.toNat count.toNat).map .vacuous else []
  | activatePagesMR r _ count => if r = region then [.activated count.toNat] else []
  | _ => []

def pageEvents (region : Nat) (commands : List MemoryCommand) : List PageEvent :=
  commands.flatMap (MemoryCommand.pageEvents region)

/-- The pages that a command clears or appends. -/
def MemoryCommand.namedPages : MemoryCommand → List Nat
  | clearPages basePage count => pagesFrom basePage.toNat count.toNat
  | appendPagesMRFile _ basePage count _ _ => pagesFrom basePage.toNat count.toNat
  | appendPagesMRFill _ basePage count _ => pagesFrom basePage.toNat count.toNat
  | appendVacuousPages _ basePage count => pagesFrom basePage.toNat count.toNat
  | _ => []

namespace ContentNode

/-- A file has a size and an offset in it, and what is behind the offset fits into the region. A fill pattern has the
form of a byte. -/
def Fits (size : Unsigned64) : ContentNode → Prop
  | file _ offset fileSize => ∃ bytes, fileSize = some bytes ∧ (offset.getD 0).toNat ≤ bytes.toNat ∧
      bytes.toNat - (offset.getD 0).toNat ≤ size.toNat
  | fill pattern => ∃ quad, fillQuad pattern = .ok quad

/-- The first byte of a file that is in memory. -/
def baseOffset : ContentNode → Unsigned64
  | file _ offset _ => offset.getD 0
  | fill _ => 0

/-- The number of bytes from the offset to the end of the file. -/
def fileBytes : ContentNode → Nat
  | file _ offset (some bytes) => bytes.toNat - (offset.getD 0).toNat
  | _ => 0

end ContentNode

section Pages

lemma pagesFrom_add (basePage m n : Nat) :
    pagesFrom basePage (m + n) = pagesFrom basePage m ++ pagesFrom (basePage + 4096 * m) n := by
  unfold pagesFrom
  rw [List.range_add, List.map_append, List.map_map]
  congr 1
  apply List.map_congr_left
  intro k _
  simp only [Function.comp]
  omega

lemma mem_pagesFrom {basePage count page : Nat} :
    page ∈ pagesFrom basePage count ↔ ∃ k < count, page = basePage + 4096 * k := by
  unfold pagesFrom
  rw [List.mem_map]
  constructor
  · rintro ⟨k, hk, rfl⟩
    exact ⟨k, List.mem_range.mp hk, rfl⟩
  · rintro ⟨k, hk, rfl⟩
    exact ⟨k, List.mem_range.mpr hk, rfl⟩

/-- The pages that hold the given number of bytes. -/
lemma mem_pagesFrom_bytes {basePage bytes page : Nat} :
    page ∈ pagesFrom basePage ((bytes + 4095) / 4096) ↔ ∃ byte < bytes, page = basePage + byte / 4096 * 4096 := by
  rw [mem_pagesFrom]
  constructor
  · rintro ⟨k, hk, rfl⟩
    exact ⟨4096 * k, by omega, by omega⟩
  · rintro ⟨byte, hbyte, rfl⟩
    exact ⟨byte / 4096, by omega, by omega⟩

end Pages

/-- The pages of a region one after the other, first those that hold the bytes of the file. -/
structure Tiles (base size : Unsigned64) (content : ContentNode) (filePart fillPart : List Nat) : Prop where
  all : filePart ++ fillPart = pagesFrom base.toNat (size.toNat / 4096)
  file : ∀ page, page ∈ filePart ↔ ∃ byte < content.fileBytes, page = base.toNat + byte / 4096 * 4096

section Content

variable {base size : Unsigned64}

/-- The end of the file part, rounded up to the next page. -/
lemma endAddr_toNat {fileSize offset : Unsigned64} (hbase : base.toNat % 4096 = 0) (hsize : size.toNat % 4096 = 0)
    (hend : base.toNat + size.toNat < 2 ^ 64) (hoffset : offset.toNat ≤ fileSize.toNat)
    (hfits : fileSize.toNat - offset.toNat ≤ size.toNat) :
    ((base + fileSize - offset + (4096 - 1)) / 4096 * 4096).toNat =
      base.toNat + 4096 * ((fileSize.toNat - offset.toNat + 4095) / 4096) := by
  have hraw : (base + fileSize - offset).toNat = base.toNat + (fileSize.toNat - offset.toNat) := by
    have hfile := fileSize.isLt
    rw [BitVec.toNat_sub, BitVec.toNat_add]
    omega
  have hround : (base + fileSize - offset + (4096 - 1)).toNat =
      base.toNat + (fileSize.toNat - offset.toNat) + 4095 := by
    rw [BitVec.toNat_add, hraw]
    apply Nat.mod_eq_of_lt
    change _ + 4095 < _
    omega
  rw [BitVec.toNat_mul, BitVec.toNat_udiv, hround]
  change (base.toNat + (fileSize.toNat - offset.toNat) + 4095) / 4096 * 4096 % 2 ^ 64 = _
  omega

lemma pageCount_toNat (size : Unsigned64) : (size / 4096).toNat = size.toNat / 4096 := BitVec.toNat_udiv

/-- The pages of the parts of a region lie in it. -/
lemma mem_pagesFrom_inside (first : Nat) {count page : Nat} (hsize : size.toNat % 4096 = 0)
    (hcount : first + count ≤ size.toNat / 4096) (hpage : page ∈ pagesFrom (base.toNat + 4096 * first) count) :
    base.toNat ≤ page ∧ page + 4096 ≤ base.toNat + size.toNat := by
  obtain ⟨k, hk, rfl⟩ := mem_pagesFrom.mp hpage
  omega

/-- The commands for the content of a region, and what they do with its pages. -/
structure ContentCommands (region : Nat) (base size : Unsigned64) (content : ContentNode)
    (commands : List MemoryCommand) (filePart fillPart : List Nat) : Prop where
  tiles : Tiles base size content filePart fillPart
  events : pageEvents region commands = filePart.map .file ++ fillPart.map .fill
  source : ∀ basePage count filename baseOffset,
    .appendPagesMRFile region basePage count filename baseOffset ∈ commands →
      basePage = base ∧ baseOffset = content.baseOffset
  inside : ∀ c ∈ commands, ∀ page ∈ c.namedPages, base.toNat ≤ page ∧ page + 4096 ≤ base.toNat + size.toNat

lemma pageEvents_clear (region : Nat) (base count : Unsigned64) (commands : List MemoryCommand) :
    pageEvents region (.clearPages base count :: commands) = pageEvents region commands := rfl

lemma pageEvents_file (region : Nat) (base count : Unsigned64) (filename : String) (offset : Unsigned64)
    (commands : List MemoryCommand) :
    pageEvents region (.appendPagesMRFile region base count filename offset :: commands) =
      (pagesFrom base.toNat count.toNat).map .file ++ pageEvents region commands := by
  simp [pageEvents, MemoryCommand.pageEvents]

lemma pageEvents_fill (region : Nat) (base count : Unsigned64) (fill : String) (commands : List MemoryCommand) :
    pageEvents region (.appendPagesMRFill region base count fill :: commands) =
      (pagesFrom base.toNat count.toNat).map .fill ++ pageEvents region commands := by
  simp [pageEvents, MemoryCommand.pageEvents]

/-- Filled pages only. -/
lemma addContent_fill (region : Nat) (memName : String) {pattern quad : String} (hquad : fillQuad pattern = .ok quad)
    (hsize : size.toNat % 4096 = 0) :
    ∃ commands, addContent region memName (.fill pattern) base size = .ok commands ∧
      ContentCommands region base size (.fill pattern) commands [] (pagesFrom base.toNat (size.toNat / 4096)) := by
  have hcount : ((base + size - base) / 4096).toNat = size.toNat / 4096 := by
    rw [BitVec.add_comm, BitVec.add_sub_cancel]
    exact pageCount_toNat size
  refine ⟨[.clearPages base (size / 4096), .appendPagesMRFill region base ((base + size - base) / 4096) quad], ?_, ?_⟩
  · simp only [addContent]
    rw [hquad]
    rfl
  · refine ⟨⟨rfl, ?_⟩, ?_, by simp, ?_⟩
    · intro page
      simp [ContentNode.fileBytes]
    · rw [pageEvents_clear, pageEvents_fill, hcount]
      exact List.append_nil _
    · intro c hc page hpage
      apply mem_pagesFrom_inside 0 hsize (by omega : 0 + size.toNat / 4096 ≤ size.toNat / 4096)
      rcases List.mem_cons.mp hc with rfl | hc
      · exact hpage
      · rw [List.mem_singleton.mp hc] at hpage
        simp only [MemoryCommand.namedPages, hcount] at hpage
        exact hpage

/-- The pages of the file, and filled pages for what is left of the region. -/
lemma addContent_file (region : Nat) (memName filename : String) {offset : Option Unsigned64} {bytes : Unsigned64}
    (hbase : base.toNat % 4096 = 0) (hsize : size.toNat % 4096 = 0) (hend : base.toNat + size.toNat < 2 ^ 64)
    (hoffset : (offset.getD 0).toNat ≤ bytes.toNat) (hfits : bytes.toNat - (offset.getD 0).toNat ≤ size.toNat) :
    ∃ commands filePart fillPart, addContent region memName (.file filename offset (some bytes)) base size =
        .ok commands ∧
      ContentCommands region base size (.file filename offset (some bytes)) commands filePart fillPart := by
  have hE := endAddr_toNat hbase hsize hend hoffset hfits
  generalize hendAddr : (base + bytes - offset.getD 0 + (4096 - 1)) / 4096 * 4096 = endAddr at hE
  generalize hn : (bytes.toNat - (offset.getD 0).toNat + 4095) / 4096 = n at hE
  have hnle : n ≤ size.toNat / 4096 := by omega
  have hcount : ((endAddr - base) / 4096).toNat = n := by
    rw [pageCount_toNat, BitVec.toNat_sub_of_le (by rw [BitVec.le_def]; omega)]
    omega
  have hsum : (base + size).toNat = base.toNat + size.toNat := by
    rw [BitVec.toNat_add, Nat.mod_eq_of_lt hend]
  have htiles : Tiles base size (.file filename offset (some bytes)) (pagesFrom base.toNat n)
      (pagesFrom (base.toNat + 4096 * n) (size.toNat / 4096 - n)) := by
    constructor
    · rw [← pagesFrom_add]
      congr 1
      omega
    · intro page
      rw [← hn]
      exact mem_pagesFrom_bytes
  have hclear : ∀ page ∈ pagesFrom base.toNat (size / 4096).toNat,
      base.toNat ≤ page ∧ page + 4096 ≤ base.toNat + size.toNat := by
    intro page hpage
    rw [pageCount_toNat] at hpage
    exact mem_pagesFrom_inside 0 hsize (by omega) hpage
  have hfile : ∀ page ∈ pagesFrom base.toNat ((endAddr - base) / 4096).toNat,
      base.toNat ≤ page ∧ page + 4096 ≤ base.toNat + size.toNat := by
    intro page hpage
    rw [hcount] at hpage
    exact mem_pagesFrom_inside 0 hsize (by omega) hpage
  by_cases hmore : endAddr < base + size
  · have hlt := BitVec.lt_def.mp hmore
    have hrest : ((base + size - endAddr) / 4096).toNat = size.toNat / 4096 - n := by
      rw [pageCount_toNat, BitVec.toNat_sub_of_le (by rw [BitVec.le_def]; omega)]
      omega
    refine ⟨[.clearPages base (size / 4096),
      .appendPagesMRFile region base ((endAddr - base) / 4096) filename (offset.getD 0),
      .appendPagesMRFill region endAddr ((base + size - endAddr) / 4096) "16#0000_0000_0000_0000#"], _, _, ?_,
      htiles, ?_, ?_, ?_⟩
    · simp only [addContent, hendAddr, if_pos hmore]
      rfl
    · rw [pageEvents_clear, pageEvents_file, pageEvents_fill, hcount, hrest, hE]
      exact congrArg _ (List.append_nil _)
    · intro basePage count file first hmem
      simp only [List.mem_cons, MemoryCommand.appendPagesMRFile.injEq, reduceCtorEq, List.not_mem_nil, or_false,
        false_or] at hmem
      exact ⟨hmem.2.1, hmem.2.2.2.2⟩
    · intro c hc
      simp only [List.mem_cons, List.not_mem_nil, or_false] at hc
      rcases hc with rfl | rfl | rfl
      · exact hclear
      · exact hfile
      · intro page hpage
        simp only [MemoryCommand.namedPages, hrest, hE] at hpage
        exact mem_pagesFrom_inside n hsize (by omega) hpage
  · have hall : size.toNat / 4096 - n = 0 := by
      rw [BitVec.lt_def] at hmore
      omega
    refine ⟨[.clearPages base (size / 4096),
      .appendPagesMRFile region base ((endAddr - base) / 4096) filename (offset.getD 0)], _, _, ?_, htiles, ?_, ?_,
      ?_⟩
    · simp only [addContent, hendAddr, if_neg hmore]
      rfl
    · rw [pageEvents_clear, pageEvents_file, hcount, hall]
      rfl
    · intro basePage count file first hmem
      simp only [List.mem_cons, MemoryCommand.appendPagesMRFile.injEq, reduceCtorEq, List.not_mem_nil, or_false,
        false_or] at hmem
      exact ⟨hmem.2.1, hmem.2.2.2.2⟩
    · intro c hc
      simp only [List.mem_cons, List.not_mem_nil, or_false] at hc
      rcases hc with rfl | rfl
      · exact hclear
      · exact hfile

lemma addContent_spec (region : Nat) (memName : String) {content : ContentNode} (hbase : base.toNat % 4096 = 0)
    (hsize : size.toNat % 4096 = 0) (hend : base.toNat + size.toNat < 2 ^ 64) (hfits : content.Fits size) :
    ∃ commands filePart fillPart, addContent region memName content base size = .ok commands ∧
      ContentCommands region base size content commands filePart fillPart := by
  cases content with
  | file filename offset fileSize =>
    obtain ⟨bytes, rfl, hoffset, hle⟩ := hfits
    exact addContent_file region memName filename hbase hsize hend hoffset hle
  | fill pattern =>
    obtain ⟨quad, hquad⟩ := hfits
    obtain ⟨commands, hcommands, hspec⟩ := addContent_fill region memName hquad hsize
    exact ⟨commands, _, _, hcommands, hspec⟩

end Content

/-! ### In a run -/

section Events

variable {region : Nat}

lemma pageEvents_append (commands rest : List MemoryCommand) :
    pageEvents region (commands ++ rest) = pageEvents region commands ++ pageEvents region rest :=
  List.flatMap_append

lemma pageEvents_creates {commands : List MemoryCommand} (h : ∀ c ∈ commands, c.Creates region) :
    pageEvents region commands = [] := by
  apply List.flatMap_eq_nil_iff.mpr
  intro c hc
  cases h c hc <;> rfl

lemma pageEvents_activates {commands : List MemoryCommand} (h : ∀ c ∈ commands, c.Activates region) :
    pageEvents region commands = [] := by
  apply List.flatMap_eq_nil_iff.mpr
  intro c hc
  cases h c hc
  rfl

lemma MemoryCommand.pageEvents_of_ne {c : MemoryCommand} (h : c.region ≠ some region) : c.pageEvents region = [] := by
  cases c with
  | appendPagesMRFile r basePage count filename offset => exact if_neg (fun heq => h (congrArg some heq))
  | appendPagesMRFill r basePage count fill => exact if_neg (fun heq => h (congrArg some heq))
  | appendVacuousPages r basePage count => exact if_neg (fun heq => h (congrArg some heq))
  | activatePagesMR r base count => exact if_neg (fun heq => h (congrArg some heq))
  | _ => rfl

/-- What is done with the pages of a region is done by the commands for it. -/
lemma pageEvents_filter (commands : List MemoryCommand) :
    pageEvents region (commands.filter (fun c => c.region = some region)) = pageEvents region commands := by
  induction commands with
  | nil => rfl
  | cons c commands ih =>
    by_cases h : c.region = some region
    · rw [List.filter_cons_of_pos (by simpa using h)]
      exact congrArg (c.pageEvents region ++ ·) ih
    · rw [List.filter_cons_of_neg (by simpa using h), ih]
      change _ = c.pageEvents region ++ pageEvents region commands
      rw [MemoryCommand.pageEvents_of_ne h, List.nil_append]

end Events

/-- In every run over the memory regions of a system: the pages that are appended to a region with content, and the
number of pages that are activated. -/
theorem region_content {r : PhysicalRegion} {content : ContentNode} (hkind : r.kind.isSystem = false)
    (hcontent : r.content = some content) (hbase : r.physicalAddress.toNat % 4096 = 0)
    (hsize : r.size.toNat % 4096 = 0) (hend : r.physicalAddress.toNat + r.size.toNat < 2 ^ 64)
    (hfits : content.Fits r.size) :
    (∀ region, ∃ commands filePart fillPart,
      addContent region r.name content r.physicalAddress r.size = .ok commands ∧
        ContentCommands region r.physicalAddress r.size content commands filePart fillPart) ∧
      ∀ s s' before after, s.Fresh → createMemoryRegions s (before ++ r :: after) = .ok s' →
        ∃ region commands filePart fillPart, { r with tau0RootId := some region } ∈ s'.regions ∧
          commands <:+: s'.stream ∧
          ContentCommands region r.physicalAddress r.size content commands filePart fillPart ∧
          pageEvents region s'.stream =
            filePart.map .file ++ fillPart.map .fill ++ [.activated (filePart ++ fillPart).length] := by
  refine ⟨fun region => addContent_spec region r.name hbase hsize hend hfits, ?_⟩
  intro s s' before after hs hrun
  obtain ⟨region, nextPrivPage, commands, last, hcommands, hmem, hinfix, hfor⟩ :=
    StreamState.commandsFor_run hs hkind hrun
  obtain ⟨parts⟩ := regionCommands_parts hcommands
  obtain ⟨hash, hcommandsEq⟩ := parts.commands_eq
  obtain ⟨pages, filePart, fillPart, hpages, hspec⟩ := addContent_spec region r.name hbase hsize hend hfits
  have hpagesEq : parts.pages = pages := by
    have heq := parts.pages_eq
    unfold PhysicalRegion.pageCommands at heq
    rw [hcontent] at heq
    exact Except.ok.inj (heq.symm.trans hpages)
  have hcount : (filePart ++ fillPart).length = (r.size / 4096).toNat := by
    rw [hspec.tiles.all, pageCount_toNat, pagesFrom, List.length_map, List.length_range]
  refine ⟨region, pages, filePart, fillPart, hmem, ?_, hspec, ?_⟩
  · apply List.IsInfix.trans _ hinfix
    rw [hcommandsEq, hpagesEq]
    exact ⟨[.createMemoryRegion region parts.level r.caching hash] ++ parts.pts,
      [.lockMemoryRegion region, .activatePagesMR region 0 (r.size / 4096)] ++ parts.activate ++
        [.activateMemoryRegion region], by simp only [List.append_assoc]⟩
  · rw [← pageEvents_filter s'.stream]
    change pageEvents region (s'.commandsFor region) = _
    have hcreate : pageEvents region [.createMemoryRegion region parts.level r.caching hash] = [] := rfl
    have hlock : pageEvents region [.lockMemoryRegion region, .activatePagesMR region 0 (r.size / 4096)] =
        [.activated (filePart ++ fillPart).length] := by
      rw [hcount]
      simp [pageEvents, MemoryCommand.pageEvents]
    have hlast : pageEvents region [.activateMemoryRegion region] = [] := rfl
    rw [hfor, pageEvents_filter, hcommandsEq, hpagesEq]
    simp only [pageEvents_append, hcreate, hlock, hlast, hspec.events, pageEvents_creates (regionPTs_creates parts.pts_eq),
      pageEvents_activates (activateLevels_activates parts.activate_eq), List.nil_append, List.append_nil]

/-- A file of 5000 bytes that is read from byte 100 on, in a region of four pages. -/
theorem region_content_file :
    let content : ContentNode := .file "initrd" (some 100) (some 5000)
    let r : PhysicalRegion := ⟨"initrd", .subjectInitrd, "WB", 0x4000, 0x100000, some content, "none", none⟩
    ∃ s' region commands filePart fillPart, createMemoryRegions noRegions [r] = .ok s' ∧
      { r with tau0RootId := some region } ∈ s'.regions ∧ commands <:+: s'.stream ∧
      ContentCommands region 0x100000 0x4000 content commands filePart fillPart ∧
      pageEvents region s'.stream =
        filePart.map .file ++ fillPart.map .fill ++ [.activated (filePart ++ fillPart).length] := by
  intro content r
  have hfresh : noRegions.Fresh := fun c hc => absurd hc (by simp [noRegions])
  have hfits : content.Fits r.size := ⟨5000, rfl, by decide, by decide⟩
  have hok : ∃ s', createMemoryRegions noRegions [r] = .ok s' := ⟨_, rfl⟩
  obtain ⟨s', hs'⟩ := hok
  obtain ⟨region, commands, filePart, fillPart, h⟩ :=
    (region_content (r := r) rfl rfl (by decide) (by decide) (by decide) hfits).2 noRegions s' [] [] hfresh hs'
  exact ⟨s', region, commands, filePart, fillPart, hs', h⟩

end Muen.Tools.Mugentau0cmds
