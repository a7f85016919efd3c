import Mathlib.Order.Interval.Finset.Nat
import Muen.Tools.Expanders.Scheduling

/-!
# Mucfgcheck.Scheduling

The checks of scheduling plans and their barriers. A check returns the errors it has recorded, or nothing when
an exception ends it. The attributes of a policy are numbers of any size.
-/

namespace Muen.Tools.Mucfgcheck.Scheduling

open Expanders.Scheduling (Deadline getMinorFrameDeadlines)

structure Barrier where
  id : ℕ
  size : ℕ

/-- The barrier of a minor frame is absent when the attribute is `none`. -/
structure MinorFrame where
  ticks : ℕ
  barrier : Option ℕ

structure Cpu where
  id : String
  minorFrames : List MinorFrame

structure MajorFrame where
  cpus : List Cpu
  barriers : List Barrier

/-- `Natural'Last`. -/
def naturalLast : ℕ := 2147483647

def naturalValue (n : ℕ) : Option ℕ := if n ≤ naturalLast then some n else none

def positiveValue (n : ℕ) : Option ℕ := if 1 ≤ n ∧ n ≤ naturalLast then some n else none

def unsigned64Value (n : ℕ) : Option Unsigned64 := if n < 2 ^ 64 then some (BitVec.ofNat 64 n) else none

/-- The attribute `Img` of a number that is not negative. -/
def img (n : ℕ) : String := " " ++ toString n

section Loops

variable {α : Type}

/-- A loop that records the errors of its rounds, which are numbered. -/
def each (f : ℕ → α → Option (List String)) : ℕ → List α → Option (List String)
  | _, [] => some []
  | i, a :: as => do
    let errors ← f i a
    let rest ← each f (i + 1) as
    some (errors ++ rest)

/-- A loop that may end with the return of its procedure. -/
def eachUntil (f : ℕ → α → Option (List String × Bool)) : ℕ → List α → Option (List String × Bool)
  | _, [] => some ([], false)
  | i, a :: as => do
    let (errors, returned) ← f i a
    if returned then some (errors, true)
    else
      let (rest, returned) ← eachUntil f (i + 1) as
      some (errors ++ rest, returned)

end Loops

/-- The loop of `Barrier_ID` over the barriers of the major frame `i`. -/
def checkBarrierIds (i barrierCount : ℕ) : (ℕ → Bool) → List Barrier → Option (List String × Bool)
  | _, [] => some ([], false)
  | idsPresent, barrier :: barriers => do
    let barrierId ← positiveValue barrier.id
    if barrierId > barrierCount then
      some (["Barrier of major frame" ++ img i ++ " has invalid ID" ++ img barrierId ++ ", must be in range 1 .." ++
        img barrierCount], true)
    else
      let (rest, returned) ← checkBarrierIds i barrierCount (Function.update idsPresent barrierId true) barriers
      some ((if idsPresent barrierId then
        ["Major frame" ++ img i ++ " has multiple barriers with ID" ++ img barrierId] else []) ++ rest, returned)

def barrierID (majors : List MajorFrame) : Option (List String) :=
  (eachUntil (fun i major => checkBarrierIds i major.barriers.length (fun _ => false) major.barriers) 0 majors).map
    Prod.fst

/-- `Mutools.XML_Utils.Get_Active_CPU_Count`. -/
def getActiveCPUCount : List MajorFrame → Option ℕ
  | [] => none
  | major :: _ => positiveValue major.cpus.length

def barrierSize (majors : List MajorFrame) : Option (List String) := do
  let cpuCount ← getActiveCPUCount majors
  each (fun _ barrier => do
    let size ← naturalValue barrier.size
    some (if size > cpuCount then
      ["Minor frame barrier with invalid size" ++ img size ++ ", must not exceed" ++ img cpuCount] else []))
    0 (majors.flatMap MajorFrame.barriers)

def cpuElementCount (majors : List MajorFrame) : Option (List String) := do
  let cpuCount ← getActiveCPUCount majors
  each (fun i major => some (if major.cpus.length ≠ cpuCount then
    ["CPU element count" ++ img major.cpus.length ++ " of major frame" ++ img (i + 1) ++
      " invalid, active CPU count is" ++ img cpuCount] else [])) 0 majors

/-- The ticks of the minor frames are added up as `Natural`. -/
def addTicks (cpuTicks : ℕ) : List MinorFrame → Option ℕ
  | [] => some cpuTicks
  | minor :: minors => do
    let ticks ← positiveValue minor.ticks
    let cpuTicks ← naturalValue (cpuTicks + ticks)
    addTicks cpuTicks minors

/-- The loop of `Major_Frame_Ticks` over the CPUs of the major frame `i`. -/
def checkTicks (i : ℕ) : ℕ → ℕ → List Cpu → Option (List String)
  | _, _, [] => some []
  | j, refTicks, cpu :: cpus => do
    let cpuTicks ← addTicks 0 cpu.minorFrames
    if refTicks = 0 then checkTicks i (j + 1) cpuTicks cpus
    else
      let rest ← checkTicks i (j + 1) refTicks cpus
      some ((if refTicks ≠ cpuTicks then
        ["CPU" ++ img j ++ " of major frame" ++ img i ++ " specifies invalid tick count" ++ img cpuTicks ++
          ", should be" ++ img refTicks] else []) ++ rest)

def majorFrameTicks (majors : List MajorFrame) : Option (List String) :=
  each (fun i major => checkTicks i 0 0 major.cpus) 0 majors

/-- The minor frames of a major frame with the CPUs they belong to. -/
def MajorFrame.minorFrames (major : MajorFrame) : List (Cpu × MinorFrame) :=
  major.cpus.flatMap fun cpu => cpu.minorFrames.map fun minor => (cpu, minor)

/-- The loop of `Minor_Frame_Barrier_Refs` over the minor frames: the references, or the error after which the
procedure returns. -/
def countRefs (i barrierCount : ℕ) : ℕ → (ℕ → ℕ) → List (Cpu × MinorFrame) → Option ((ℕ → ℕ) ⊕ String)
  | _, barrierRefs, [] => some (.inl barrierRefs)
  | j, barrierRefs, (cpu, minor) :: minors =>
    match minor.barrier with
    | none => countRefs i barrierCount (j + 1) barrierRefs minors
    | some barrierRef => do
      let refIdx ← naturalValue barrierRef
      if refIdx > barrierCount then
        some (.inr ("Minor frame" ++ img j ++ " of CPU " ++ cpu.id ++ " in major frame" ++ img i ++
          " references invalid barrier" ++ img refIdx ++ ", must be less than" ++ img barrierCount))
      -- the array of references starts at 1
      else if refIdx = 0 then none
      else countRefs i barrierCount (j + 1) (Function.update barrierRefs refIdx (barrierRefs refIdx + 1)) minors

/-- The loop of `Minor_Frame_Barrier_Refs` over the barriers. -/
def checkRefs (i barrierCount : ℕ) (barrierRefs : ℕ → ℕ) (barriers : List Barrier) : Option (List String) :=
  each (fun _ barrier => do
    let barrierId ← positiveValue barrier.id
    let size ← naturalValue barrier.size
    if barrierId > barrierCount then none
    else some (if size ≠ barrierRefs barrierId then
      ["References to barrier" ++ img barrierId ++ " of major frame" ++ img i ++ " do not match barrier size:" ++
        img (barrierRefs barrierId) ++ " /=" ++ img size] else []))
    0 barriers

/-- `Minor_Frame_Barrier_Refs` for the major frame `i`. -/
def checkMajorRefs (i : ℕ) (major : MajorFrame) : Option (List String × Bool) := do
  match ← countRefs i major.barriers.length 0 (fun _ => 0) major.minorFrames with
  | .inr error => some ([error], true)
  | .inl barrierRefs =>
    let errors ← checkRefs i major.barriers.length barrierRefs major.barriers
    some (errors, false)

def minorFrameBarrierRefs (majors : List MajorFrame) : Option (List String) :=
  (eachUntil checkMajorRefs 0 majors).map Prod.fst

/-- The variables of the loop of `Minor_Frame_Sync_Points` over the deadlines. -/
structure SyncPoints where
  syncPoints : ℕ → ℕ := fun _ => 1
  curIdx : ℕ := 1
  prevDeadline : Unsigned64 := 0

/-- One round of the loop; the array has `count` elements. -/
def syncDeadline (count : ℕ) (endTicks : Unsigned64) (s : SyncPoints) (deadline : Deadline) : Option SyncPoints :=
  if s.curIdx > count then none
  else if deadline.exitTime ≠ endTicks ∧ deadline.exitTime = s.prevDeadline then
    some { s with
      syncPoints := Function.update s.syncPoints s.curIdx (s.syncPoints s.curIdx + 1)
      prevDeadline := deadline.exitTime }
  else
    some { s with
      curIdx := if s.syncPoints s.curIdx > 1 then s.curIdx + 1 else s.curIdx
      prevDeadline := deadline.exitTime }

/-- `Minor_Frame_Sync_Points` for the major frame `i`. -/
def checkSyncPoints (i : ℕ) (major : MajorFrame) : Option (List String) := do
  let ticks ← major.cpus.mapM fun cpu => cpu.minorFrames.mapM fun minor => unsigned64Value minor.ticks
  let deadlines := getMinorFrameDeadlines ticks
  let last ← deadlines.getLast?
  let s ← deadlines.foldlM (syncDeadline deadlines.length last.exitTime) {}
  let syncPointCount := (List.range' 1 deadlines.length).countP fun j => s.syncPoints j > 1
  let errors ← each (fun _ barrier => do
    let barrierId ← positiveValue barrier.id
    let size ← positiveValue barrier.size
    if barrierId > deadlines.length then none
    else some (if size ≠ s.syncPoints barrierId then
      ["Barrier" ++ img barrierId ++ " of major frame" ++ img i ++ " has invalid size" ++ img size ++ ", should be" ++
        img (s.syncPoints barrierId)] else []))
    0 major.barriers
  some ((if syncPointCount ≠ major.barriers.length then
    ["Major frame" ++ img i ++ " has invalid barrier count" ++ img major.barriers.length ++ ", should be" ++
      img syncPointCount] else []) ++ errors)

def minorFrameSyncPoints (majors : List MajorFrame) : Option (List String) := each checkSyncPoints 0 majors

/-- No error is recorded for the plan. -/
structure Accepted (majors : List MajorFrame) : Prop where
  barrierID : barrierID majors = some []
  barrierSize : barrierSize majors = some []
  cpuElementCount : cpuElementCount majors = some []
  majorFrameTicks : majorFrameTicks majors = some []
  minorFrameBarrierRefs : minorFrameBarrierRefs majors = some []
  minorFrameSyncPoints : minorFrameSyncPoints majors = some []

/-! ### Checks without errors -/

section Loops

variable {α : Type} {i : ℕ} {as : List α}

lemma each_nil {f : ℕ → α → Option (List String)} (h : each f i as = some []) :
    ∀ a ∈ as, ∃ k, f k a = some [] := by
  induction as generalizing i with
  | nil => exact fun a ha => absurd ha List.not_mem_nil
  | cons a as ih =>
    unfold each at h
    cases hf : f i a with
    | none => rw [hf] at h; cases h
    | some errors =>
      cases hrest : each f (i + 1) as with
      | none => rw [hf, hrest] at h; cases h
      | some rest =>
        rw [hf, hrest] at h
        obtain ⟨rfl, rfl⟩ := List.append_eq_nil_iff.mp (Option.some.inj h)
        exact List.forall_mem_cons.mpr ⟨⟨i, hf⟩, ih hrest⟩

/-- A procedure that returns early has recorded an error. -/
lemma eachUntil_nil {f : ℕ → α → Option (List String × Bool)} (hf : ∀ k a e, f k a = some (e, true) → e ≠ [])
    (h : (eachUntil f i as).map Prod.fst = some []) : ∀ a ∈ as, ∃ k, f k a = some ([], false) := by
  induction as generalizing i with
  | nil => exact fun a ha => absurd ha List.not_mem_nil
  | cons a as ih =>
    unfold eachUntil at h
    cases hr : f i a with
    | none => rw [hr] at h; cases h
    | some r =>
      obtain ⟨errors, returned⟩ := r
      rw [hr] at h
      cases returned with
      | true => exact absurd (Option.some.inj h) (hf i a errors hr)
      | false =>
        cases hrest : eachUntil f (i + 1) as with
        | none => simp [hrest] at h
        | some rest =>
          simp only [Option.bind_eq_bind, Option.bind_some, hrest, Bool.false_eq_true, if_false, Option.map_some,
            Option.some_inj, List.append_eq_nil_iff] at h
          obtain ⟨rfl, hnil⟩ := h
          exact List.forall_mem_cons.mpr ⟨⟨i, hr⟩, ih (by rw [hrest, Option.map_some, hnil])⟩

end Loops

lemma positiveValue_eq {n m : ℕ} (h : positiveValue n = some m) : m = n ∧ 1 ≤ n := by
  unfold positiveValue at h
  split_ifs at h with hn
  exact ⟨(Option.some.inj h).symm, hn.1⟩

lemma naturalValue_eq {n m : ℕ} (h : naturalValue n = some m) : m = n := by
  unfold naturalValue at h
  split_ifs at h with hn
  exact (Option.some.inj h).symm

section BarrierIds

variable {i count : ℕ} {present : ℕ → Bool} {barriers : List Barrier}

lemma checkBarrierIds_returned {e : List String} (h : checkBarrierIds i count present barriers = some (e, true)) :
    e ≠ [] := by
  induction barriers generalizing present e with
  | nil => cases h
  | cons barrier barriers ih =>
    unfold checkBarrierIds at h
    cases hid : positiveValue barrier.id with
    | none => rw [hid] at h; cases h
    | some id =>
      rw [hid] at h
      simp only [Option.bind_eq_bind, Option.bind_some] at h
      by_cases hgt : id > count
      · rw [if_pos hgt] at h
        cases h
        exact List.cons_ne_nil _ _
      · rw [if_neg hgt] at h
        cases hrest : checkBarrierIds i count (Function.update present id true) barriers with
        | none => rw [hrest] at h; cases h
        | some r =>
          obtain ⟨rest, returned⟩ := r
          rw [hrest, Option.bind_some, Option.some_inj, Prod.mk.injEq] at h
          obtain ⟨rfl, rfl⟩ := h
          exact List.append_ne_nil_of_right_ne_nil _ (ih hrest)

lemma checkBarrierIds_nil (h : checkBarrierIds i count present barriers = some ([], false)) :
    (barriers.map Barrier.id).Nodup ∧ ∀ b ∈ barriers, 1 ≤ b.id ∧ b.id ≤ count ∧ present b.id = false := by
  induction barriers generalizing present with
  | nil => exact ⟨List.nodup_nil, fun b hb => absurd hb List.not_mem_nil⟩
  | cons barrier barriers ih =>
    unfold checkBarrierIds at h
    cases hid : positiveValue barrier.id with
    | none => rw [hid] at h; cases h
    | some id =>
      rw [hid] at h
      simp only [Option.bind_eq_bind, Option.bind_some] at h
      obtain ⟨rfl, hpos⟩ := positiveValue_eq hid
      by_cases hgt : barrier.id > count
      · rw [if_pos hgt] at h
        cases h
      · rw [if_neg hgt] at h
        cases hrest : checkBarrierIds i count (Function.update present barrier.id true) barriers with
        | none => rw [hrest] at h; cases h
        | some r =>
          obtain ⟨rest, returned⟩ := r
          rw [hrest, Option.bind_some, Option.some_inj, Prod.mk.injEq, List.append_eq_nil_iff] at h
          obtain ⟨⟨hpresent, rfl⟩, rfl⟩ := h
          have hnew : present barrier.id = false := by
            by_contra hp
            rw [if_pos (by simpa using hp)] at hpresent
            cases hpresent
          obtain ⟨hnodup, hall⟩ := ih hrest
          have hother : ∀ b ∈ barriers, b.id ≠ barrier.id ∧ present b.id = false := by
            intro b hb
            have hb' := (hall b hb).2.2
            have hne : b.id ≠ barrier.id := by
              intro heq
              rw [heq, Function.update_self] at hb'
              cases hb'
            exact ⟨hne, by rwa [Function.update_of_ne hne] at hb'⟩
          constructor
          · rw [List.map_cons, List.nodup_cons]
            refine ⟨fun hmem => ?_, hnodup⟩
            obtain ⟨b, hb, heq⟩ := List.mem_map.mp hmem
            exact (hother b hb).1 heq
          · rw [List.forall_mem_cons]
            exact ⟨⟨hpos, not_lt.mp hgt, hnew⟩, fun b hb => ⟨(hall b hb).1, (hall b hb).2.1, (hother b hb).2⟩⟩

end BarrierIds

/-- The IDs of the barriers are the numbers up to their count. -/
structure MajorFrame.Numbered (major : MajorFrame) : Prop where
  nodup : (major.barriers.map Barrier.id).Nodup
  range : ∀ b ∈ major.barriers, 1 ≤ b.id ∧ b.id ≤ major.barriers.length

theorem barrierID_numbered {majors : List MajorFrame} (h : barrierID majors = some []) :
    ∀ major ∈ majors, major.Numbered := by
  intro major hmajor
  obtain ⟨k, hk⟩ := eachUntil_nil (fun _ _ _ => checkBarrierIds_returned) h major hmajor
  obtain ⟨hnodup, hall⟩ := checkBarrierIds_nil hk
  exact ⟨hnodup, fun b hb => ⟨(hall b hb).1, (hall b hb).2.1⟩⟩

/-- Every number up to the count of barriers is the ID of one. -/
lemma MajorFrame.Numbered.exists_barrier {major : MajorFrame} (h : major.Numbered) {b : ℕ} (hb : 1 ≤ b)
    (hle : b ≤ major.barriers.length) : ∃ x ∈ major.barriers, x.id = b := by
  have hsub : (major.barriers.map Barrier.id).toFinset ⊆ Finset.Icc 1 major.barriers.length := by
    intro id hid
    obtain ⟨x, hx, rfl⟩ := List.mem_map.mp (List.mem_toFinset.mp hid)
    exact Finset.mem_Icc.mpr (h.range x hx)
  have hcard : (Finset.Icc 1 major.barriers.length).card ≤ (major.barriers.map Barrier.id).toFinset.card := by
    rw [List.toFinset_card_of_nodup h.nodup, List.length_map, Nat.card_Icc, Nat.add_sub_cancel]
  have hmem : b ∈ (major.barriers.map Barrier.id).toFinset := by
    rw [Finset.eq_of_subset_of_card_le hsub hcard]
    exact Finset.mem_Icc.mpr ⟨hb, hle⟩
  exact List.mem_map.mp (List.mem_toFinset.mp hmem)

def Cpu.ticks (cpu : Cpu) : List ℕ := cpu.minorFrames.map MinorFrame.ticks

lemma addTicks_eq {minors : List MinorFrame} {t u : ℕ} (h : addTicks t minors = some u) :
    u = t + (minors.map MinorFrame.ticks).sum ∧ ∀ m ∈ minors, 1 ≤ m.ticks := by
  induction minors generalizing t with
  | nil => exact ⟨(Option.some.inj h).symm, fun m hm => absurd hm List.not_mem_nil⟩
  | cons minor minors ih =>
    unfold addTicks at h
    cases hticks : positiveValue minor.ticks with
    | none => rw [hticks] at h; cases h
    | some ticks =>
      obtain ⟨rfl, hpos⟩ := positiveValue_eq hticks
      cases hsum : naturalValue (t + minor.ticks) with
      | none => simp [hticks, hsum] at h
      | some sum =>
        obtain rfl := naturalValue_eq hsum
        simp only [hticks, hsum, Option.bind_eq_bind, Option.bind_some] at h
        obtain ⟨rfl, hall⟩ := ih h
        rw [List.map_cons, List.sum_cons, Nat.add_assoc]
        exact ⟨rfl, List.forall_mem_cons.mpr ⟨hpos, hall⟩⟩

/-- The ticks of all CPUs are those of the first one. -/
lemma checkTicks_eq {i j refTicks : ℕ} {cpus : List Cpu} (hne : ∀ cpu ∈ cpus, cpu.minorFrames ≠ [])
    (h : checkTicks i j refTicks cpus = some []) :
    (∀ cpu ∈ cpus, ∀ t ∈ cpu.ticks, 1 ≤ t) ∧ ∃ t, (refTicks ≠ 0 → t = refTicks) ∧
      ∀ cpu ∈ cpus, cpu.ticks.sum = t := by
  induction cpus generalizing j refTicks with
  | nil => exact ⟨fun c hc => absurd hc List.not_mem_nil, refTicks, fun _ => rfl, fun c hc => absurd hc List.not_mem_nil⟩
  | cons cpu cpus ih =>
    rw [List.forall_mem_cons] at hne
    unfold checkTicks at h
    cases hticks : addTicks 0 cpu.minorFrames with
    | none => rw [hticks] at h; cases h
    | some cpuTicks =>
      obtain ⟨rfl, hpos⟩ := addTicks_eq hticks
      have hpos' : ∀ t ∈ cpu.ticks, 1 ≤ t := List.forall_mem_map.mpr hpos
      have hsum : 0 + (cpu.minorFrames.map MinorFrame.ticks).sum = cpu.ticks.sum := Nat.zero_add _
      rw [hticks, hsum] at h
      simp only [Option.bind_eq_bind, Option.bind_some] at h
      have hsum_pos : cpu.ticks.sum ≠ 0 := by
        obtain ⟨m, ms, hms⟩ := List.exists_cons_of_ne_nil hne.1
        have := hpos m (hms ▸ List.mem_cons_self)
        rw [Cpu.ticks, hms, List.map_cons, List.sum_cons]
        omega
      by_cases href : refTicks = 0
      · rw [if_pos href] at h
        obtain ⟨hall, t, ht, hsums⟩ := ih hne.2 h
        obtain rfl := ht hsum_pos
        exact ⟨List.forall_mem_cons.mpr ⟨hpos', hall⟩, _, fun h0 => absurd href h0,
          List.forall_mem_cons.mpr ⟨rfl, hsums⟩⟩
      · rw [if_neg href] at h
        cases hrest : checkTicks i (j + 1) refTicks cpus with
        | none => rw [hrest] at h; cases h
        | some rest =>
          rw [hrest, Option.bind_some, Option.some_inj, List.append_eq_nil_iff] at h
          obtain ⟨hsame, rfl⟩ := h
          obtain ⟨hall, t, ht, hsums⟩ := ih hne.2 hrest
          obtain rfl := ht href
          have heq : cpu.ticks.sum = t := by
            by_contra hneq
            rw [if_pos (Ne.symm hneq)] at hsame
            cases hsame
          exact ⟨List.forall_mem_cons.mpr ⟨hpos', hall⟩, t, fun _ => rfl, List.forall_mem_cons.mpr ⟨heq, hsums⟩⟩

section Refs

variable {i count j : ℕ} {refs refs' : ℕ → ℕ} {minors : List (Cpu × MinorFrame)}

lemma countRefs_eq (h : countRefs i count j refs minors = some (.inl refs')) :
    (∀ b, refs' b = refs b + minors.countP fun x => x.2.barrier = some b) ∧
      ∀ x ∈ minors, ∀ b, x.2.barrier = some b → 1 ≤ b ∧ b ≤ count := by
  induction minors generalizing j refs with
  | nil =>
    obtain rfl := Sum.inl.inj (Option.some.inj h)
    exact ⟨fun b => rfl, fun x hx => absurd hx List.not_mem_nil⟩
  | cons x minors ih =>
    obtain ⟨cpu, minor⟩ := x
    unfold countRefs at h
    cases hb : minor.barrier with
    | none =>
      rw [hb] at h
      obtain ⟨hrefs, hrange⟩ := ih h
      constructor
      · intro b
        rw [hrefs, List.countP_cons_of_neg (by simp [hb])]
      · refine List.forall_mem_cons.mpr ⟨fun b heq => ?_, hrange⟩
        rw [hb] at heq
        cases heq
    | some ref =>
      rw [hb] at h
      cases hvalue : naturalValue ref with
      | none => simp [hvalue] at h
      | some idx =>
        obtain rfl := naturalValue_eq hvalue
        simp only [hvalue, Option.bind_eq_bind, Option.bind_some] at h
        by_cases hgt : idx > count
        · rw [if_pos hgt] at h
          cases h
        · by_cases hzero : idx = 0
          · rw [if_neg hgt, if_pos hzero] at h
            cases h
          · rw [if_neg hgt, if_neg hzero] at h
            obtain ⟨hrefs, hrange⟩ := ih h
            constructor
            · intro b
              rw [hrefs]
              by_cases heq : idx = b
              · subst heq
                rw [Function.update_self, List.countP_cons_of_pos (by simp [hb])]
                omega
              · rw [Function.update_of_ne (Ne.symm heq), List.countP_cons_of_neg (by simpa [hb] using heq)]
            · refine List.forall_mem_cons.mpr ⟨fun b heq => ?_, hrange⟩
              rw [hb] at heq
              obtain rfl := Option.some.inj heq
              omega

end Refs

lemma checkRefs_nil {i count : ℕ} {refs : ℕ → ℕ} {barriers : List Barrier}
    (h : checkRefs i count refs barriers = some []) : ∀ b ∈ barriers, b.size = refs b.id := by
  intro b hb
  obtain ⟨k, hk⟩ := each_nil h b hb
  cases hid : positiveValue b.id with
  | none => simp [hid] at hk
  | some id =>
    obtain ⟨rfl, -⟩ := positiveValue_eq hid
    cases hsize : naturalValue b.size with
    | none => simp [hid, hsize] at hk
    | some size =>
      obtain rfl := naturalValue_eq hsize
      simp only [hid, hsize, Option.bind_eq_bind, Option.bind_some] at hk
      by_cases hgt : b.id > count
      · rw [if_pos hgt] at hk
        cases hk
      · rw [if_neg hgt] at hk
        by_contra hne
        rw [if_pos hne] at hk
        cases hk

/-- The number of minor frames with a barrier. -/
def MajorFrame.refCount (major : MajorFrame) (b : ℕ) : ℕ := major.minorFrames.countP fun x => x.2.barrier = some b

/-- What the references of the minor frames are checked for. -/
structure MajorFrame.Referenced (major : MajorFrame) : Prop where
  range : ∀ x ∈ major.minorFrames, ∀ b, x.2.barrier = some b → 1 ≤ b ∧ b ≤ major.barriers.length
  size : ∀ b ∈ major.barriers, b.size = major.refCount b.id

lemma checkMajorRefs_returned {i : ℕ} {major : MajorFrame} {e : List String}
    (h : checkMajorRefs i major = some (e, true)) : e ≠ [] := by
  unfold checkMajorRefs at h
  cases hcount : countRefs i major.barriers.length 0 (fun _ => 0) major.minorFrames with
  | none => rw [hcount] at h; cases h
  | some r =>
    rw [hcount, Option.bind_eq_bind, Option.bind_some] at h
    cases r with
    | inr error =>
      cases h
      exact List.cons_ne_nil _ _
    | inl refs =>
      cases hrefs : checkRefs i major.barriers.length refs major.barriers with
      | none => simp [hrefs] at h
      | some errors => simp [hrefs] at h

lemma checkMajorRefs_nil {i : ℕ} {major : MajorFrame} (h : checkMajorRefs i major = some ([], false)) :
    major.Referenced := by
  unfold checkMajorRefs at h
  cases hcount : countRefs i major.barriers.length 0 (fun _ => 0) major.minorFrames with
  | none => rw [hcount] at h; cases h
  | some r =>
    rw [hcount, Option.bind_eq_bind, Option.bind_some] at h
    cases r with
    | inr error => cases h
    | inl refs =>
      obtain ⟨hrefs, hrange⟩ := countRefs_eq hcount
      cases hcheck : checkRefs i major.barriers.length refs major.barriers with
      | none => simp [hcheck] at h
      | some errors =>
        simp only [hcheck, Option.bind_eq_bind, Option.bind_some, Option.some_inj, Prod.mk.injEq, and_true] at h
        subst h
        refine ⟨hrange, fun b hb => ?_⟩
        rw [checkRefs_nil hcheck b hb, hrefs, Nat.zero_add]
        rfl

theorem minorFrameBarrierRefs_referenced {majors : List MajorFrame} (h : minorFrameBarrierRefs majors = some []) :
    ∀ major ∈ majors, major.Referenced := by
  intro major hmajor
  obtain ⟨k, hk⟩ := eachUntil_nil (fun _ _ _ => checkMajorRefs_returned) h major hmajor
  exact checkMajorRefs_nil hk

theorem majorFrameTicks_eq {majors : List MajorFrame} (h : majorFrameTicks majors = some [])
    (hne : ∀ major ∈ majors, ∀ cpu ∈ major.cpus, cpu.minorFrames ≠ []) :
    ∀ major ∈ majors, (∀ cpu ∈ major.cpus, ∀ t ∈ cpu.ticks, 1 ≤ t) ∧
      ∀ cpu ∈ major.cpus, ∀ cpu' ∈ major.cpus, cpu.ticks.sum = cpu'.ticks.sum := by
  intro major hmajor
  obtain ⟨k, hk⟩ := each_nil h major hmajor
  obtain ⟨hpos, t, -, hsum⟩ := checkTicks_eq (hne major hmajor) hk
  exact ⟨hpos, fun cpu hcpu cpu' hcpu' => (hsum cpu hcpu).trans (hsum cpu' hcpu').symm⟩

end Muen.Tools.Mucfgcheck.Scheduling
