import Mathlib.Data.Finset.Card
import Mathlib.Data.List.Range
import Mathlib.Algebra.BigOperators.Group.List.Basic
import Muen.Tools.Utils

/-!
# Expanders.Scheduling

`Add_Barrier_Configs` and the deadlines of minor frames it works on. A major frame is given by the ticks of
the minor frames of every CPU; a minor frame node is the index of its CPU and its own index in there.
-/

namespace Muen.Tools.Expanders.Scheduling

/-- A node of a minor frame. -/
abbrev MinorFrame := ℕ × ℕ

/-- `Mutools.XML_Utils.Deadline_Type`; there is no node in a deadline that is not one of a minor frame. -/
structure Deadline where
  exitTime : Unsigned64
  minorFrame : Option MinorFrame

/-- `Insert` of the ordered multiset: behind all elements that are not greater. -/
def insertDeadline (d : Deadline) : List Deadline → List Deadline
  | [] => [d]
  | x :: xs => if d.exitTime < x.exitTime then d :: x :: xs else x :: insertDeadline d xs

/-- The deadlines of the minor frames of a CPU from an index on. -/
def cpuDeadlines (cpu : ℕ) : ℕ → Unsigned64 → List Unsigned64 → List Deadline
  | _, _, [] => []
  | index, currentTicks, minorTicks :: rest =>
    ⟨currentTicks + minorTicks, some (cpu, index)⟩ ::
      cpuDeadlines cpu (index + 1) (currentTicks + minorTicks) rest

def getMinorFrameDeadlines (major : List (List Unsigned64)) : List Deadline :=
  (major.zipIdx.flatMap (fun x => cpuDeadlines x.2 0 0 x.1)).foldl (fun set d => insertDeadline d set) []

/-- The variables of the loop over the deadlines of a major frame, the barrier attributes of minor frames
and the barriers with their sizes. An attribute that was not set is absent, one that was set is `none` or
a barrier. -/
structure BarrierLoop where
  curBarrierIdx : ℕ := 1
  curBarrierSize : ℕ := 1
  prevDeadline : Deadline := ⟨0, none⟩
  attributes : MinorFrame → Option (Option ℕ) := fun _ => none
  barriers : List (ℕ × ℕ) := []

/-- `Set_Attribute`, which fails without a node. -/
def setBarrier (node : Option MinorFrame) (value : Option ℕ) (s : BarrierLoop) : Option BarrierLoop :=
  node.map (fun f => { s with attributes := Function.update s.attributes f (some value) })

/-- The barrier is added to the major frame when a minor frame follows that does not wait for it. -/
def addBarrier (s : BarrierLoop) : BarrierLoop :=
  if s.curBarrierSize > 1 then
    { s with
      barriers := s.barriers ++ [(s.curBarrierIdx, s.curBarrierSize)]
      curBarrierSize := 1
      curBarrierIdx := s.curBarrierIdx + 1 }
  else s

/-- One round of the loop over the deadlines. -/
def examineDeadline (majorEndTicks : Unsigned64) (s : BarrierLoop) (cur : Deadline) : Option BarrierLoop :=
  if cur.exitTime = s.prevDeadline.exitTime ∧ cur.exitTime ≠ majorEndTicks then do
    let s := { s with curBarrierSize := s.curBarrierSize + 1 }
    let s ← if s.curBarrierSize = 2 then setBarrier s.prevDeadline.minorFrame (some s.curBarrierIdx) s
      else some s
    let s ← setBarrier cur.minorFrame (some s.curBarrierIdx) s
    some { s with prevDeadline := cur }
  else do
    let s ← setBarrier cur.minorFrame none (addBarrier s)
    some { s with prevDeadline := cur }

/-- `Add_Barrier_Configs` for one major frame. -/
def addBarrierConfig (major : List (List Unsigned64)) : Option BarrierLoop :=
  let minorExitTimes := getMinorFrameDeadlines major
  minorExitTimes.getLast?.bind (fun last => minorExitTimes.foldlM (examineDeadline last.exitTime) {})

def addBarrierConfigs (majors : List (List (List Unsigned64))) : Option (List BarrierLoop) :=
  majors.mapM addBarrierConfig

/-! ### Deadlines -/

/-- All minor frame nodes of a major frame. -/
def minorFrames (major : List (List Unsigned64)) : List MinorFrame :=
  major.zipIdx.flatMap (fun x => (List.range x.1.length).map (fun j => (x.2, j)))

/-- The tick at which a minor frame ends. -/
def endTick (major : List (List Unsigned64)) (f : MinorFrame) : ℕ :=
  (((major.getD f.1 []).take (f.2 + 1)).map BitVec.toNat).sum

def toDeadline (major : List (List Unsigned64)) (f : MinorFrame) : Deadline :=
  ⟨BitVec.ofNat 64 (endTick major f), some f⟩

lemma mem_minorFrames {major : List (List Unsigned64)} {f : MinorFrame} :
    f ∈ minorFrames major ↔ ∃ ticks, major[f.1]? = some ticks ∧ f.2 < ticks.length := by
  obtain ⟨c, j⟩ := f
  simp only [minorFrames, List.mem_flatMap, List.mem_map, List.mem_range, Prod.mk.injEq, Prod.exists,
    List.mem_zipIdx_iff_getElem?]
  constructor
  · rintro ⟨ticks, i, hi, k, hk, rfl, rfl⟩
    exact ⟨ticks, hi, hk⟩
  · rintro ⟨ticks, hi, hj⟩
    exact ⟨ticks, c, hi, j, hj, rfl, rfl⟩

lemma cpuDeadlines_eq (cpu : ℕ) (ticks : List Unsigned64) : ∀ (index : ℕ) (currentTicks : Unsigned64),
    cpuDeadlines cpu index currentTicks ticks = (List.range ticks.length).map (fun j =>
      ⟨BitVec.ofNat 64 (currentTicks.toNat + ((ticks.take (j + 1)).map BitVec.toNat).sum), some (cpu, index + j)⟩) := by
  induction ticks with
  | nil => exact fun _ _ => rfl
  | cons t ticks ih =>
    intro index currentTicks
    have hsum : ∀ n, BitVec.ofNat 64 ((currentTicks + t).toNat + n) =
        BitVec.ofNat 64 (currentTicks.toNat + (t.toNat + n)) := by
      intro n
      apply BitVec.eq_of_toNat_eq
      simp [BitVec.toNat_add, Nat.add_assoc]
    rw [cpuDeadlines, ih, List.length_cons, List.range_succ_eq_map, List.map_cons, List.map_map]
    have hfirst : currentTicks + t =
        BitVec.ofNat 64 (currentTicks.toNat + (((t :: ticks).take (0 + 1)).map BitVec.toNat).sum) := by
      simp [BitVec.ofNat_add]
    rw [← hfirst]
    refine congrArg₂ List.cons rfl (List.map_congr_left (fun j _ => ?_))
    simp only [Function.comp, Nat.succ_eq_add_one, List.take_succ_cons, List.map_cons, List.sum_cons, hsum]
    rw [Nat.add_assoc, Nat.add_comm 1 j]

/-- The deadlines before they are sorted. -/
lemma deadlines_eq (major : List (List Unsigned64)) :
    major.zipIdx.flatMap (fun x => cpuDeadlines x.2 0 0 x.1) = (minorFrames major).map (toDeadline major) := by
  unfold minorFrames
  rw [List.map_flatMap]
  refine List.flatMap_congr (fun x hx => ?_)
  have hget : major.getD x.2 [] = x.1 := by
    rw [List.getD_eq_getElem?_getD, List.mem_zipIdx_iff_getElem?.mp hx]
    rfl
  rw [cpuDeadlines_eq, List.map_map]
  refine List.map_congr_left (fun j _ => ?_)
  simp only [Function.comp, toDeadline, endTick, hget]
  simp

lemma insertDeadline_perm (d : Deadline) (xs : List Deadline) : (insertDeadline d xs).Perm (d :: xs) := by
  induction xs with
  | nil => exact List.Perm.refl _
  | cons x xs ih =>
    unfold insertDeadline
    by_cases h : d.exitTime < x.exitTime
    · rw [if_pos h]
    · rw [if_neg h]
      exact (ih.cons x).trans (List.Perm.swap d x xs)

/-- Deadlines in the order of their exit times. -/
def Sorted (xs : List Deadline) : Prop := xs.Pairwise (fun x y => x.exitTime ≤ y.exitTime)

lemma insertDeadline_sorted {d : Deadline} {xs : List Deadline} (h : Sorted xs) : Sorted (insertDeadline d xs) := by
  induction xs with
  | nil => exact List.pairwise_singleton ..
  | cons x xs ih =>
    obtain ⟨hx, hxs⟩ := List.pairwise_cons.mp h
    unfold insertDeadline
    by_cases hd : d.exitTime < x.exitTime
    · rw [if_pos hd]
      refine List.pairwise_cons.mpr ⟨fun y hy => ?_, h⟩
      rcases List.mem_cons.mp hy with rfl | hy
      · exact BitVec.le_of_lt hd
      · exact BitVec.le_trans (BitVec.le_of_lt hd) (hx y hy)
    · rw [if_neg hd]
      refine List.pairwise_cons.mpr ⟨fun y hy => ?_, ih hxs⟩
      rcases List.mem_cons.mp ((insertDeadline_perm d xs).mem_iff.mp hy) with rfl | hy
      · exact BitVec.not_lt.mp hd
      · exact hx y hy

lemma getMinorFrameDeadlines_spec (major : List (List Unsigned64)) :
    (getMinorFrameDeadlines major).Perm ((minorFrames major).map (toDeadline major)) ∧
      Sorted (getMinorFrameDeadlines major) := by
  have hgen : ∀ (l set : List Deadline), Sorted set →
      (l.foldl (fun set d => insertDeadline d set) set).Perm (l ++ set) ∧
      Sorted (l.foldl (fun set d => insertDeadline d set) set) := by
    intro l
    induction l with
    | nil => exact fun set h => ⟨List.Perm.refl _, h⟩
    | cons d l ih =>
      intro set h
      obtain ⟨hperm, hsorted⟩ := ih (insertDeadline d set) (insertDeadline_sorted h)
      refine ⟨hperm.trans (((insertDeadline_perm d set).append_left l).trans ?_), hsorted⟩
      exact List.perm_middle
  obtain ⟨hperm, hsorted⟩ := hgen (major.zipIdx.flatMap (fun x => cpuDeadlines x.2 0 0 x.1)) [] List.Pairwise.nil
  rw [List.append_nil] at hperm
  rw [← deadlines_eq]
  exact ⟨hperm, hsorted⟩

lemma minorFrames_nodup (major : List (List Unsigned64)) : (minorFrames major).Nodup := by
  unfold minorFrames
  refine List.nodup_flatMap.mpr ⟨fun x _ => ?_, ?_⟩
  · exact List.nodup_range.map (fun j j' h => (Prod.mk.inj h).2)
  · have hidx : (major.zipIdx.map Prod.snd).Nodup := by
      rw [List.zipIdx_map_snd]
      exact List.nodup_range'
    refine (List.pairwise_map.mp hidx).imp (fun hne => ?_)
    intro f hf hf'
    obtain ⟨j, -, rfl⟩ := List.mem_map.mp hf
    obtain ⟨j', -, h⟩ := List.mem_map.mp hf'
    exact hne (Prod.mk.inj h).1.symm

/-! ### The loop over deadlines -/

lemma lt_or_eq {t p : Unsigned64} (h : t ≤ p) : t < p ∨ t = p := by
  by_cases heq : t = p
  · exact .inr heq
  · exact .inl (BitVec.lt_of_le_ne h heq)

/-- The number of deadlines with the exit time. -/
def countAt (xs : List Deadline) (e : Unsigned64) : ℕ := xs.countP (fun d => d.exitTime = e)

/-- Minor frames that end at this time share a barrier. -/
def Shared (E : Unsigned64) (xs : List Deadline) (e : Unsigned64) : Prop := e ≠ E ∧ 2 ≤ countAt xs e

instance (E : Unsigned64) (xs : List Deadline) (e : Unsigned64) : Decidable (Shared E xs e) :=
  inferInstanceAs (Decidable (_ ∧ _))

/-- The times before `e` at which a barrier is shared. -/
def sharedBefore (E : Unsigned64) (xs : List Deadline) (e : Unsigned64) : Finset Unsigned64 :=
  (xs.map Deadline.exitTime).toFinset.filter (fun t => t < e ∧ Shared E xs t)

def rank (E : Unsigned64) (xs : List Deadline) (e : Unsigned64) : ℕ := (sharedBefore E xs e).card

lemma countAt_append (xs : List Deadline) (d : Deadline) (e : Unsigned64) :
    countAt (xs ++ [d]) e = countAt xs e + if d.exitTime = e then 1 else 0 := by
  unfold countAt
  rw [List.countP_append, List.countP_cons, List.countP_nil, Nat.zero_add]
  simp

lemma mem_of_countAt_pos {xs : List Deadline} {e : Unsigned64} (h : 0 < countAt xs e) :
    e ∈ (xs.map Deadline.exitTime).toFinset := by
  obtain ⟨d, hd, he⟩ := List.countP_pos_iff.mp h
  rw [List.mem_toFinset, List.mem_map]
  exact ⟨d, hd, of_decide_eq_true he⟩

lemma mem_sharedBefore {E : Unsigned64} {xs : List Deadline} {e t : Unsigned64} :
    t ∈ sharedBefore E xs e ↔ t < e ∧ Shared E xs t := by
  unfold sharedBefore
  rw [Finset.mem_filter]
  refine ⟨fun h => h.2, fun h => ⟨mem_of_countAt_pos ?_, h⟩⟩
  have := h.2.2
  omega

/-- A later deadline does not change the barriers before it. -/
lemma rank_append {E : Unsigned64} {xs : List Deadline} {d : Deadline} {e : Unsigned64} (h : e ≤ d.exitTime) :
    rank E (xs ++ [d]) e = rank E xs e := by
  unfold rank
  congr 1
  ext t
  rw [mem_sharedBefore, mem_sharedBefore]
  refine and_congr_right (fun ht => ?_)
  have hne : d.exitTime ≠ t := by
    rintro rfl
    exact absurd h (BitVec.not_le.mpr ht)
  unfold Shared
  rw [countAt_append, if_neg hne, Nat.add_zero]

/-- The barriers before the time `e` when the last time before it is `p`. -/
lemma rank_step {E : Unsigned64} {xs : List Deadline} {p e : Unsigned64} (hpe : p < e)
    (hle : ∀ d ∈ xs, d.exitTime ≤ p) :
    rank E xs e = rank E xs p + if Shared E xs p then 1 else 0 := by
  have hsplit : sharedBefore E xs e = if Shared E xs p then insert p (sharedBefore E xs p)
      else sharedBefore E xs p := by
    ext t
    have hlt : t < e ∧ Shared E xs t ↔ (t < p ∨ t = p) ∧ Shared E xs t := by
      refine and_congr_left (fun ht => ⟨fun _ => ?_, ?_⟩)
      · have hpos : 0 < countAt xs t := by
          have := ht.2
          omega
        have hmem := mem_of_countAt_pos hpos
        rw [List.mem_toFinset, List.mem_map] at hmem
        obtain ⟨d, hd, rfl⟩ := hmem
        exact lt_or_eq (hle d hd)
      · rintro (h | rfl)
        · exact BitVec.lt_trans h hpe
        · exact hpe
    rw [mem_sharedBefore, hlt]
    by_cases hp : Shared E xs p
    · rw [if_pos hp, Finset.mem_insert, mem_sharedBefore]
      constructor
      · rintro ⟨h | rfl, ht⟩
        · exact .inr ⟨h, ht⟩
        · exact .inl rfl
      · rintro (rfl | ⟨h, ht⟩)
        · exact ⟨.inr rfl, hp⟩
        · exact ⟨.inl h, ht⟩
    · rw [if_neg hp, mem_sharedBefore]
      constructor
      · rintro ⟨h | rfl, ht⟩
        · exact ⟨h, ht⟩
        · exact absurd ht hp
      · exact fun h => ⟨.inl h.1, h.2⟩
  unfold rank
  rw [hsplit]
  by_cases hp : Shared E xs p
  · rw [if_pos hp, if_pos hp, Finset.card_insert_of_notMem]
    rw [mem_sharedBefore]
    exact fun h => absurd h.1 (BitVec.lt_irrefl _)
  · rw [if_neg hp, if_neg hp, Nat.add_zero]

/-- The attribute of a minor frame with the deadline. -/
def attributeOf (E : Unsigned64) (xs : List Deadline) (d : Deadline) : Option ℕ :=
  if Shared E xs d.exitTime then some (rank E xs d.exitTime + 1) else none

/-- The state of the loop behind the deadlines `xs`. -/
structure LoopOk (E : Unsigned64) (xs : List Deadline) (s : BarrierLoop) : Prop where
  prev_nil : xs = [] → s.prevDeadline = ⟨0, none⟩
  prev_last : xs ≠ [] → xs.getLast? = some s.prevDeadline
  prev_max : ∀ d ∈ xs, d.exitTime ≤ s.prevDeadline.exitTime
  size : s.curBarrierSize = if s.prevDeadline.exitTime ≠ E ∧ xs ≠ [] then countAt xs s.prevDeadline.exitTime else 1
  idx : s.curBarrierIdx = rank E xs s.prevDeadline.exitTime + 1
  ids : s.barriers.map Prod.fst = List.range' 1 (rank E xs s.prevDeadline.exitTime)
  sizes : ∀ b ∈ s.barriers, ∃ e, e < s.prevDeadline.exitTime ∧ Shared E xs e ∧ b = (rank E xs e + 1, countAt xs e)
  attributes : ∀ d ∈ xs, ∀ f, d.minorFrame = some f → s.attributes f = some (attributeOf E xs d)

/-- A deadline leaves alone the times that are not its own. -/
lemma shared_append {E : Unsigned64} {xs : List Deadline} {cur : Deadline} {e : Unsigned64}
    (h : e ≠ cur.exitTime ∨ e = E) : Shared E (xs ++ [cur]) e ↔ Shared E xs e := by
  unfold Shared
  refine and_congr_right (fun hE => ?_)
  have hne : cur.exitTime ≠ e := (h.resolve_right hE).symm
  rw [countAt_append, if_neg hne, Nat.add_zero]

lemma attributeOf_append {E : Unsigned64} {xs : List Deadline} {cur d : Deadline}
    (hle : d.exitTime ≤ cur.exitTime) (h : d.exitTime ≠ cur.exitTime ∨ d.exitTime = E) :
    attributeOf E (xs ++ [cur]) d = attributeOf E xs d := by
  unfold attributeOf
  rw [rank_append hle]
  exact if_congr (shared_append h) rfl rfl

/-- Times with barriers are numbered in their order. -/
lemma rank_lt {E : Unsigned64} {xs : List Deadline} {e e' : Unsigned64} (h : e < e') (hs : Shared E xs e) :
    rank E xs e < rank E xs e' := by
  refine Finset.card_lt_card ?_
  rw [Finset.ssubset_iff_of_subset]
  · refine ⟨e, mem_sharedBefore.mpr ⟨h, hs⟩, fun hmem => ?_⟩
    exact absurd (mem_sharedBefore.mp hmem).1 (BitVec.lt_irrefl _)
  · intro t ht
    obtain ⟨hlt, hst⟩ := mem_sharedBefore.mp ht
    exact mem_sharedBefore.mpr ⟨BitVec.lt_trans hlt h, hst⟩

lemma rank_inj {E : Unsigned64} {xs : List Deadline} {e e' : Unsigned64} (hs : Shared E xs e)
    (hs' : Shared E xs e') (h : rank E xs e = rank E xs e') : e = e' := by
  rcases BitVec.le_total e e' with hle | hge
  · rcases lt_or_eq hle with hlt | heq
    · exact absurd h (rank_lt hlt hs).ne
    · exact heq
  · rcases lt_or_eq hge with hlt | heq
    · exact absurd h (rank_lt hlt hs').ne'
    · exact heq.symm

/-- What the loop over the deadlines relies on for the next one. -/
structure NextDeadline (E : Unsigned64) (xs : List Deadline) (cur : Deadline) : Prop where
  pos : cur.exitTime ≠ 0
  sorted : ∀ d ∈ xs, d.exitTime ≤ cur.exitTime
  le_end : cur.exitTime ≤ E
  node : ∀ d ∈ xs ++ [cur], d.minorFrame.isSome
  other : ∀ d ∈ xs, d.minorFrame ≠ cur.minorFrame
  inj : ∀ d ∈ xs, ∀ d' ∈ xs, d.minorFrame = d'.minorFrame → d = d'

lemma loopOk_init (E : Unsigned64) : LoopOk E [] {} where
  prev_nil := fun _ => rfl
  prev_last := fun h => absurd rfl h
  prev_max := by simp
  size := by simp
  idx := by simp [rank, sharedBefore]
  ids := by simp [rank, sharedBefore]
  sizes := by simp
  attributes := by simp

namespace LoopOk

variable {E : Unsigned64} {xs : List Deadline} {s : BarrierLoop} {cur : Deadline} {f : MinorFrame}

lemma eq_append (h : LoopOk E xs s) (hne : xs ≠ []) : ∃ ys, xs = ys ++ [s.prevDeadline] :=
  List.getLast?_eq_some_iff.mp (h.prev_last hne)

lemma prev_mem (h : LoopOk E xs s) (hne : xs ≠ []) : s.prevDeadline ∈ xs := by
  obtain ⟨ys, hys⟩ := h.eq_append hne
  rw [hys]
  simp

lemma prev_le (h : LoopOk E xs s) (hcur : NextDeadline E xs cur) : s.prevDeadline.exitTime ≤ cur.exitTime := by
  by_cases hne : xs = []
  · rw [h.prev_nil hne]
    exact BitVec.le_def.mpr (Nat.zero_le _)
  · exact hcur.sorted _ (h.prev_mem hne)

lemma max_append (hcur : NextDeadline E xs cur) : ∀ d ∈ xs ++ [cur], d.exitTime ≤ cur.exitTime := by
  intro d hd
  rcases List.mem_append.mp hd with hd | hd
  · exact hcur.sorted d hd
  · rw [List.mem_singleton.mp hd]
    exact BitVec.le_refl _

lemma countAt_prev_pos (h : LoopOk E xs s) (hne : xs ≠ []) : 0 < countAt xs s.prevDeadline.exitTime :=
  List.countP_pos_iff.mpr ⟨s.prevDeadline, h.prev_mem hne, decide_eq_true rfl⟩

lemma sizes_append (h : LoopOk E xs s) (hcur : NextDeadline E xs cur) {b : ℕ × ℕ} (hb : b ∈ s.barriers) :
    ∃ e, e < cur.exitTime ∧ Shared E (xs ++ [cur]) e ∧ b = (rank E (xs ++ [cur]) e + 1, countAt (xs ++ [cur]) e) := by
  obtain ⟨e, he, hs, rfl⟩ := h.sizes b hb
  have hle := h.prev_le hcur
  have hlt : e < cur.exitTime := by
    rw [BitVec.lt_def] at he ⊢
    rw [BitVec.le_def] at hle
    omega
  have hne : e ≠ cur.exitTime := fun heq => BitVec.lt_irrefl _ (heq ▸ hlt)
  refine ⟨e, hlt, (shared_append (.inl hne)).mpr hs, ?_⟩
  rw [rank_append (BitVec.le_of_lt hlt), countAt_append, if_neg hne.symm]
  rfl

/-- The first minor frame that ends at a time is the last one seen as long as it is alone. -/
lemma eq_prev (h : LoopOk E xs s) (hne : xs ≠ []) (hcount : countAt xs s.prevDeadline.exitTime = 1) {d : Deadline}
    (hd : d ∈ xs) (hexit : d.exitTime = s.prevDeadline.exitTime) : d = s.prevDeadline := by
  obtain ⟨ys, hys⟩ := h.eq_append hne
  have hzero : countAt ys s.prevDeadline.exitTime = 0 := by
    rw [hys, countAt_append, if_pos rfl] at hcount
    omega
  rw [hys] at hd
  rcases List.mem_append.mp hd with hd | hd
  · have hpos : 0 < countAt ys s.prevDeadline.exitTime :=
      List.countP_pos_iff.mpr ⟨d, hd, decide_eq_true hexit⟩
    omega
  · exact List.mem_singleton.mp hd

/-- The next deadline is at the time of the last one. -/
lemma same (h : LoopOk E xs s) (hcur : NextDeadline E xs cur) (heq : cur.exitTime = s.prevDeadline.exitTime)
    (hE : cur.exitTime ≠ E) : ∃ s', examineDeadline E s cur = some s' ∧ LoopOk E (xs ++ [cur]) s' := by
  have hne : xs ≠ [] := by
    intro hnil
    rw [h.prev_nil hnil] at heq
    exact hcur.pos heq
  obtain ⟨f, hf⟩ := Option.isSome_iff_exists.mp (hcur.node cur (by simp))
  have hmem := h.prev_mem hne
  obtain ⟨g, hg⟩ := Option.isSome_iff_exists.mp (hcur.node s.prevDeadline (List.mem_append_left _ hmem))
  have hsize : s.curBarrierSize = countAt xs s.prevDeadline.exitTime := by
    rw [h.size, if_pos ⟨heq ▸ hE, hne⟩]
  have hpos := h.countAt_prev_pos hne
  have hcount : countAt (xs ++ [cur]) cur.exitTime = s.curBarrierSize + 1 := by
    rw [countAt_append, if_pos rfl, hsize, heq]
  have hrank : rank E (xs ++ [cur]) cur.exitTime = rank E xs s.prevDeadline.exitTime := by
    rw [rank_append (BitVec.le_refl _), heq]
  have hshared : Shared E (xs ++ [cur]) cur.exitTime := ⟨hE, by omega⟩
  have hnow : ∀ d, d.exitTime = cur.exitTime → attributeOf E (xs ++ [cur]) d = some s.curBarrierIdx := by
    intro d hd
    unfold attributeOf
    rw [hd, if_pos hshared, hrank, h.idx]
  let attrs := if s.curBarrierSize + 1 = 2 then
    Function.update s.attributes g (some (some s.curBarrierIdx)) else s.attributes
  refine ⟨{ s with
    curBarrierSize := s.curBarrierSize + 1
    attributes := Function.update attrs f (some (some s.curBarrierIdx))
    prevDeadline := cur }, ?_, ?_⟩
  · unfold examineDeadline
    rw [if_pos ⟨heq, hE⟩]
    by_cases h2 : s.curBarrierSize + 1 = 2
    · simp only [attrs, if_pos h2, setBarrier, hf, hg, Option.map_some, Option.bind_eq_bind, Option.bind_some]
    · simp only [attrs, if_neg h2, setBarrier, hf, Option.map_some, Option.bind_eq_bind, Option.bind_some]
  · refine ⟨fun hnil => absurd hnil (by simp), fun _ => by simp, max_append hcur, ?_, ?_, ?_, ?_, ?_⟩
    · rw [if_pos ⟨hE, by simp⟩, hcount]
    · rw [hrank]
      exact h.idx
    · rw [hrank]
      exact h.ids
    · exact fun b hb => h.sizes_append hcur hb
    · intro d hd f' hf'
      rcases List.mem_append.mp hd with hd | hd
      · have hff : f' ≠ f := by
          rintro rfl
          exact hcur.other d hd (hf'.trans hf.symm)
        show Function.update attrs f _ f' = _
        rw [Function.update_of_ne hff]
        by_cases hd' : d.exitTime = cur.exitTime
        · rw [hnow d hd']
          by_cases h2 : s.curBarrierSize + 1 = 2
          · have hdp : d = s.prevDeadline := h.eq_prev hne (by omega) hd (hd'.trans heq)
            have hfg : f' = g := Option.some.inj (hf'.symm.trans (hdp ▸ hg))
            simp only [attrs, if_pos h2, hfg, Function.update_self]
          · simp only [attrs, if_neg h2]
            rw [h.attributes d hd f' hf']
            have hs : Shared E xs d.exitTime := ⟨hd' ▸ hE, by rw [hd', heq]; omega⟩
            unfold attributeOf
            rw [if_pos hs, hd', heq, h.idx]
        · rw [attributeOf_append (hcur.sorted d hd) (.inl hd'), ← h.attributes d hd f' hf']
          have hfg : f' ≠ g := by
            rintro rfl
            exact hd' (hcur.inj d hd _ hmem (hf'.trans hg.symm) ▸ heq.symm)
          by_cases h2 : s.curBarrierSize + 1 = 2
          · simp only [attrs, if_pos h2, Function.update_of_ne hfg]
          · simp only [attrs, if_neg h2]
      · obtain rfl := List.mem_singleton.mp hd
        obtain rfl := Option.some.inj (hf'.symm.trans hf)
        show Function.update attrs f' _ f' = _
        rw [Function.update_self, hnow d rfl]

lemma size_gt_one_iff (h : LoopOk E xs s) : s.curBarrierSize > 1 ↔ Shared E xs s.prevDeadline.exitTime := by
  rw [h.size]
  by_cases hne : xs = []
  · simp [hne, Shared, countAt]
  · by_cases hE : s.prevDeadline.exitTime = E
    · simp [hE, Shared]
    · rw [if_pos ⟨hE, hne⟩]
      exact ⟨fun hgt => ⟨hE, hgt⟩, fun hs => hs.2⟩

lemma size_pos (h : LoopOk E xs s) : 0 < s.curBarrierSize := by
  rw [h.size]
  by_cases hne : s.prevDeadline.exitTime ≠ E ∧ xs ≠ []
  · rw [if_pos hne]
    exact h.countAt_prev_pos hne.2
  · rw [if_neg hne]
    exact Nat.one_pos

/-- The minor frame gets no barrier for now, and the loop goes on behind a barrier that is complete. -/
lemma examine_none (hf : cur.minorFrame = some f)
    (h : ¬ (cur.exitTime = s.prevDeadline.exitTime ∧ cur.exitTime ≠ E)) :
    examineDeadline E s cur = some { addBarrier s with
      attributes := Function.update s.attributes f (some none)
      prevDeadline := cur } := by
  have hattr : (addBarrier s).attributes = s.attributes := by
    unfold addBarrier
    split <;> rfl
  unfold examineDeadline
  rw [if_neg h, ← hattr]
  simp only [setBarrier, hf, Option.map_some, Option.bind_eq_bind, Option.bind_some]

/-- The attributes when a minor frame does not share a barrier with those before. -/
lemma attributes_none (h : LoopOk E xs s) (hcur : NextDeadline E xs cur) (hf : cur.minorFrame = some f)
    (hold : ∀ d ∈ xs, d.exitTime ≠ cur.exitTime ∨ d.exitTime = E) (hs : ¬ Shared E (xs ++ [cur]) cur.exitTime) :
    ∀ d ∈ xs ++ [cur], ∀ f', d.minorFrame = some f' →
      Function.update s.attributes f (some none) f' = some (attributeOf E (xs ++ [cur]) d) := by
  intro d hd f' hf'
  rcases List.mem_append.mp hd with hd | hd
  · have hff : f' ≠ f := by
      rintro rfl
      exact hcur.other d hd (hf'.trans hf.symm)
    rw [Function.update_of_ne hff, attributeOf_append (hcur.sorted d hd) (hold d hd)]
    exact h.attributes d hd f' hf'
  · obtain rfl := List.mem_singleton.mp hd
    obtain rfl := Option.some.inj (hf'.symm.trans hf)
    unfold attributeOf
    rw [Function.update_self, if_neg hs]

/-- The next deadline is after the last one. -/
lemma later (h : LoopOk E xs s) (hcur : NextDeadline E xs cur) (hlt : s.prevDeadline.exitTime < cur.exitTime) :
    ∃ s', examineDeadline E s cur = some s' ∧ LoopOk E (xs ++ [cur]) s' := by
  obtain ⟨f, hf⟩ := Option.isSome_iff_exists.mp (hcur.node cur (by simp))
  have hne : s.prevDeadline.exitTime ≠ cur.exitTime := fun heq => BitVec.lt_irrefl _ (heq ▸ hlt)
  have hold : ∀ d ∈ xs, d.exitTime ≠ cur.exitTime := by
    intro d hd heq
    have := h.prev_max d hd
    exact absurd (heq ▸ this) (BitVec.not_le.mpr hlt)
  have hcount : countAt (xs ++ [cur]) cur.exitTime = 1 := by
    have hzero : countAt xs cur.exitTime = 0 :=
      List.countP_eq_zero.mpr (fun d hd => by simpa using hold d hd)
    rw [countAt_append, hzero, if_pos rfl]
  have hrank : rank E (xs ++ [cur]) cur.exitTime =
      rank E xs s.prevDeadline.exitTime + if s.curBarrierSize > 1 then 1 else 0 := by
    rw [rank_append (BitVec.le_refl _), rank_step hlt h.prev_max]
    exact congrArg _ (if_congr h.size_gt_one_iff.symm rfl rfl)
  refine ⟨_, examine_none hf (fun hh => hne hh.1.symm), ?_⟩
  refine ⟨fun hnil => absurd hnil (by simp), fun _ => by simp, max_append hcur, ?_, ?_, ?_, ?_, ?_⟩
  · show (addBarrier s).curBarrierSize = _
    rw [hcount, ite_self]
    unfold addBarrier
    by_cases hgt : s.curBarrierSize > 1
    · rw [if_pos hgt]
    · rw [if_neg hgt]
      have := h.size_pos
      omega
  · show (addBarrier s).curBarrierIdx = _
    rw [hrank]
    unfold addBarrier
    by_cases hgt : s.curBarrierSize > 1
    · rw [if_pos hgt, if_pos hgt, h.idx]
    · rw [if_neg hgt, if_neg hgt, h.idx, Nat.add_zero]
  · show (addBarrier s).barriers.map Prod.fst = _
    rw [hrank]
    unfold addBarrier
    by_cases hgt : s.curBarrierSize > 1
    · rw [if_pos hgt, if_pos hgt, List.map_append, h.ids, List.range'_concat, h.idx]
      simp [Nat.add_comm]
    · rw [if_neg hgt, if_neg hgt, h.ids, Nat.add_zero]
  · intro b hb
    change b ∈ (addBarrier s).barriers at hb
    unfold addBarrier at hb
    by_cases hgt : s.curBarrierSize > 1
    · rw [if_pos hgt] at hb
      rcases List.mem_append.mp hb with hb | hb
      · exact h.sizes_append hcur hb
      · have hs := h.size_gt_one_iff.mp hgt
        have hxs : xs ≠ [] := by
          rintro rfl
          exact absurd hs.2 (by simp [countAt])
        refine ⟨s.prevDeadline.exitTime, hlt, (shared_append (.inl hne)).mpr hs, ?_⟩
        rw [List.mem_singleton.mp hb, rank_append (BitVec.le_of_lt hlt), countAt_append, if_neg hne.symm,
          h.size, if_pos ⟨hs.1, hxs⟩, h.idx]
        rfl
    · rw [if_neg hgt] at hb
      exact h.sizes_append hcur hb
  · exact h.attributes_none hcur hf (fun d hd => .inl (hold d hd)) (fun hs => by have := hs.2; omega)

/-- The next deadline is at the end of the major frame as the last one is. -/
lemma atEnd (h : LoopOk E xs s) (hcur : NextDeadline E xs cur) (heq : cur.exitTime = s.prevDeadline.exitTime)
    (hE : cur.exitTime = E) : ∃ s', examineDeadline E s cur = some s' ∧ LoopOk E (xs ++ [cur]) s' := by
  obtain ⟨f, hf⟩ := Option.isSome_iff_exists.mp (hcur.node cur (by simp))
  have hsize : ¬ s.curBarrierSize > 1 := fun hgt => (h.size_gt_one_iff.mp hgt).1 (heq.symm.trans hE)
  have hrank : rank E (xs ++ [cur]) cur.exitTime = rank E xs s.prevDeadline.exitTime := by
    rw [rank_append (BitVec.le_refl _), heq]
  have hadd : addBarrier s = s := if_neg hsize
  refine ⟨_, examine_none hf (fun hh => hh.2 hE), ?_⟩
  rw [hadd]
  refine ⟨fun hnil => absurd hnil (by simp), fun _ => by simp, max_append hcur, ?_, ?_, ?_, ?_, ?_⟩
  · show s.curBarrierSize = _
    rw [if_neg (fun hh => hh.1 hE)]
    have := h.size_pos
    omega
  · rw [hrank]
    exact h.idx
  · rw [hrank]
    exact h.ids
  · exact fun b hb => h.sizes_append hcur hb
  · refine h.attributes_none hcur hf (fun d hd => ?_) (fun hs => hs.1 hE)
    by_cases hd' : d.exitTime = E
    · exact .inr hd'
    · exact .inl (hE ▸ hd')

/-- One round of the loop. -/
lemma examine (h : LoopOk E xs s) (hcur : NextDeadline E xs cur) :
    ∃ s', examineDeadline E s cur = some s' ∧ LoopOk E (xs ++ [cur]) s' := by
  rcases lt_or_eq (h.prev_le hcur) with hlt | heq
  · exact h.later hcur hlt
  · by_cases hE : cur.exitTime = E
    · exact h.atEnd hcur heq.symm hE
    · exact h.same hcur heq.symm hE

end LoopOk

/-- The loop over the deadlines. -/
lemma LoopOk.run {E : Unsigned64} {xs rest : List Deadline} {s : BarrierLoop} (h : LoopOk E xs s)
    (hnext : ∀ ys cur zs, xs ++ rest = ys ++ cur :: zs → NextDeadline E ys cur) :
    ∃ s', rest.foldlM (examineDeadline E) s = some s' ∧ LoopOk E (xs ++ rest) s' := by
  induction rest generalizing xs s with
  | nil => exact ⟨s, rfl, by rwa [List.append_nil]⟩
  | cons cur rest ih =>
    obtain ⟨s', hs', hok⟩ := h.examine (hnext xs cur rest rfl)
    obtain ⟨s'', hs'', hok'⟩ := ih hok (fun ys d zs heq => hnext ys d zs (by rw [← heq]; simp))
    refine ⟨s'', ?_, by simpa using hok'⟩
    rw [List.foldlM_cons, hs']
    exact hs''

/-! ### The barriers of a major frame -/

/-- A major frame of the length `T`. -/
structure ValidMajor (major : List (List Unsigned64)) (T : ℕ) : Prop where
  cpus : major ≠ []
  nonempty : ∀ ticks ∈ major, ticks ≠ []
  positive : ∀ ticks ∈ major, ∀ t ∈ ticks, t ≠ 0
  sum : ∀ ticks ∈ major, (ticks.map BitVec.toNat).sum = T

/-- The number of minor frames that end at a tick. -/
def endCount (major : List (List Unsigned64)) (t : ℕ) : ℕ := (minorFrames major).countP (fun f => endTick major f = t)

/-- The number of minor frames with a barrier. -/
def idCount (major : List (List Unsigned64)) (r : BarrierLoop) (id : ℕ) : ℕ :=
  (minorFrames major).countP (fun f => r.attributes f = some (some id))

/-- Barriers for exactly the ticks before the end of a major frame at which two or more minor frames
end. -/
structure BarriersOk (major : List (List Unsigned64)) (T : ℕ) (r : BarrierLoop) : Prop where
  /-- Every minor frame gets `none` or a barrier. -/
  set : ∀ f ∈ minorFrames major, ∃ value, r.attributes f = some value
  barrier_iff : ∀ f ∈ minorFrames major,
    (∃ id, r.attributes f = some (some id)) ↔ endTick major f < T ∧ 2 ≤ endCount major (endTick major f)
  common : ∀ f ∈ minorFrames major, ∀ g ∈ minorFrames major, ∀ id, r.attributes f = some (some id) →
    (r.attributes g = some (some id) ↔ endTick major f = endTick major g)
  ids : r.barriers.map Prod.fst = List.range' 1 r.barriers.length
  size : ∀ b ∈ r.barriers, b.2 = idCount major r b.1
  emitted : ∀ f ∈ minorFrames major, ∀ id, r.attributes f = some (some id) → id ∈ r.barriers.map Prod.fst

namespace ValidMajor

variable {major : List (List Unsigned64)} {T : ℕ}

lemma endTick_pos (h : ValidMajor major T) {f : MinorFrame} (hf : f ∈ minorFrames major) : 0 < endTick major f := by
  obtain ⟨ticks, hget, hlt⟩ := mem_minorFrames.mp hf
  have hmem := List.mem_of_getElem? hget
  unfold endTick
  rw [List.getD_eq_getElem?_getD, hget, Option.getD_some]
  obtain ⟨t, rest, rfl⟩ := List.exists_cons_of_ne_nil (h.nonempty ticks hmem)
  rw [List.take_succ_cons, List.map_cons, List.sum_cons]
  have hne : t.toNat ≠ 0 := fun h0 => h.positive _ hmem t List.mem_cons_self (BitVec.eq_of_toNat_eq h0)
  omega

lemma endTick_le (h : ValidMajor major T) {f : MinorFrame} (hf : f ∈ minorFrames major) : endTick major f ≤ T := by
  obtain ⟨ticks, hget, hlt⟩ := mem_minorFrames.mp hf
  rw [← h.sum ticks (List.mem_of_getElem? hget)]
  unfold endTick
  rw [List.getD_eq_getElem?_getD, hget, Option.getD_some]
  nth_rewrite 2 [← List.take_append_drop (f.2 + 1) ticks]
  rw [List.map_append, List.sum_append]
  exact Nat.le_add_right _ _

/-- The next minor frame of a CPU ends later. -/
lemma endTick_succ (h : ValidMajor major T) {c j : ℕ} (hj : (c, j + 1) ∈ minorFrames major) :
    endTick major (c, j) < endTick major (c, j + 1) := by
  obtain ⟨ticks, hget, hlt⟩ := mem_minorFrames.mp hj
  have hmem := List.mem_of_getElem? hget
  unfold endTick
  rw [List.getD_eq_getElem?_getD, hget, Option.getD_some, List.take_add_one (i := j + 1),
    List.getElem?_eq_getElem hlt, Option.toList_some, List.map_append, List.sum_append, List.map_singleton,
    List.sum_singleton]
  have hne : ticks[j + 1].toNat ≠ 0 := fun h0 =>
    h.positive _ hmem _ (List.getElem_mem hlt) (BitVec.eq_of_toNat_eq h0)
  exact Nat.lt_add_of_pos_right (Nat.pos_of_ne_zero hne)

lemma endTick_lt (h : ValidMajor major T) {c j j' : ℕ} (hlt : j < j') (hj : (c, j') ∈ minorFrames major) :
    endTick major (c, j) < endTick major (c, j') := by
  induction j', hlt using Nat.le_induction with
  | base => exact h.endTick_succ hj
  | succ n hn ih =>
    have hmem : (c, n) ∈ minorFrames major := by
      obtain ⟨ticks, hget, hlen⟩ := mem_minorFrames.mp hj
      exact mem_minorFrames.mpr ⟨ticks, hget, by simp only at hlen ⊢; omega⟩
    exact (ih hmem).trans (h.endTick_succ hj)

lemma exists_endTick_eq (h : ValidMajor major T) : ∃ f ∈ minorFrames major, endTick major f = T := by
  obtain ⟨ticks, rest, hmajor⟩ := List.exists_cons_of_ne_nil h.cpus
  have hmem : ticks ∈ major := by simp [hmajor]
  have hpos := List.length_pos_iff.mpr (h.nonempty ticks hmem)
  have hget : major[0]? = some ticks := by simp [hmajor]
  refine ⟨(0, ticks.length - 1), mem_minorFrames.mpr ⟨ticks, hget, Nat.sub_lt hpos Nat.one_pos⟩, ?_⟩
  unfold endTick
  rw [List.getD_eq_getElem?_getD, hget, Option.getD_some, Nat.sub_add_cancel hpos, List.take_length]
  exact h.sum ticks hmem

lemma exitTime_toNat (h : ValidMajor major T) (hT : T < 2 ^ 64) {f : MinorFrame} (hf : f ∈ minorFrames major) :
    (toDeadline major f).exitTime.toNat = endTick major f := by
  have hle := h.endTick_le hf
  unfold toDeadline
  rw [BitVec.toNat_ofNat]
  exact Nat.mod_eq_of_lt (by omega)

lemma exitTime_eq_iff (h : ValidMajor major T) (hT : T < 2 ^ 64) {f : MinorFrame} (hf : f ∈ minorFrames major)
    {t : ℕ} (ht : t < 2 ^ 64) : (toDeadline major f).exitTime = BitVec.ofNat 64 t ↔ endTick major f = t := by
  rw [← BitVec.toNat_inj, h.exitTime_toNat hT hf, BitVec.toNat_ofNat, Nat.mod_eq_of_lt ht]

lemma mem_deadlines {d : Deadline} :
    d ∈ getMinorFrameDeadlines major ↔ ∃ f ∈ minorFrames major, toDeadline major f = d := by
  rw [(getMinorFrameDeadlines_spec major).1.mem_iff, List.mem_map]

lemma deadlines_nodes_nodup (major : List (List Unsigned64)) :
    ((getMinorFrameDeadlines major).map Deadline.minorFrame).Nodup := by
  have hperm := (getMinorFrameDeadlines_spec major).1.map Deadline.minorFrame
  rw [hperm.nodup_iff, List.map_map]
  exact (minorFrames_nodup major).map (fun f g hfg => Option.some.inj hfg)

lemma countAt_deadlines (h : ValidMajor major T) (hT : T < 2 ^ 64) {t : ℕ} (ht : t < 2 ^ 64) :
    countAt (getMinorFrameDeadlines major) (BitVec.ofNat 64 t) = endCount major t := by
  unfold countAt endCount
  rw [(getMinorFrameDeadlines_spec major).1.countP_eq, List.countP_map]
  refine List.countP_congr (fun f hf => ?_)
  simp only [Function.comp, decide_eq_true_eq]
  exact h.exitTime_eq_iff hT hf ht

/-- The last deadline is the end of the major frame. -/
lemma getLast_deadlines (h : ValidMajor major T) (hT : T < 2 ^ 64) :
    ∃ last, (getMinorFrameDeadlines major).getLast? = some last ∧ last.exitTime = BitVec.ofNat 64 T := by
  obtain ⟨f, hf, hfT⟩ := h.exists_endTick_eq
  have hmem := mem_deadlines.mpr ⟨f, hf, rfl⟩
  obtain ⟨last, hlast⟩ := Option.isSome_iff_exists.mp (List.getLast?_isSome.mpr (List.ne_nil_of_mem hmem))
  refine ⟨last, hlast, ?_⟩
  obtain ⟨ys, hys⟩ := List.getLast?_eq_some_iff.mp hlast
  obtain ⟨g, hg, rfl⟩ := mem_deadlines.mp (List.mem_of_getLast? hlast)
  have hle : (toDeadline major f).exitTime ≤ (toDeadline major g).exitTime := by
    have hsorted := (getMinorFrameDeadlines_spec major).2
    rw [hys] at hsorted hmem
    rcases List.mem_append.mp hmem with hf' | hf'
    · exact (List.pairwise_append.mp hsorted).2.2 _ hf' _ (List.mem_singleton_self _)
    · rw [List.mem_singleton.mp hf']
      exact BitVec.le_refl _
  rw [h.exitTime_eq_iff hT hg hT]
  have := h.endTick_le hg
  rw [BitVec.le_def, h.exitTime_toNat hT hf, h.exitTime_toNat hT hg] at hle
  omega

/-- Each deadline of a major frame is as the loop expects it. -/
lemma nextDeadline (h : ValidMajor major T) (hT : T < 2 ^ 64) {ys zs : List Deadline} {cur : Deadline}
    (heq : getMinorFrameDeadlines major = ys ++ cur :: zs) : NextDeadline (BitVec.ofNat 64 T) ys cur := by
  have hmem : ∀ d ∈ ys ++ [cur], ∃ f ∈ minorFrames major, toDeadline major f = d := by
    intro d hd
    refine mem_deadlines.mp ?_
    rw [heq]
    rcases List.mem_append.mp hd with hd | hd
    · exact List.mem_append_left _ hd
    · rw [List.mem_singleton.mp hd]
      simp
  have hsorted := (getMinorFrameDeadlines_spec major).2
  have hnodup := deadlines_nodes_nodup major
  rw [heq] at hsorted hnodup
  rw [List.map_append, List.map_cons] at hnodup
  obtain ⟨f, hf, hfcur⟩ := hmem cur (by simp)
  have hpos := h.endTick_pos hf
  have hle := h.endTick_le hf
  have hnat := h.exitTime_toNat hT hf
  rw [hfcur] at hnat
  refine ⟨?_, ?_, ?_, ?_, ?_, ?_⟩
  · intro h0
    rw [h0] at hnat
    simp at hnat
    omega
  · intro d hd
    exact (List.pairwise_append.mp hsorted).2.2 d hd cur List.mem_cons_self
  · rw [BitVec.le_def, hnat, BitVec.toNat_ofNat, Nat.mod_eq_of_lt hT]
    exact hle
  · intro d hd
    obtain ⟨g, -, rfl⟩ := hmem d hd
    rfl
  · intro d hd
    exact (List.nodup_append.mp hnodup).2.2 _ (List.mem_map_of_mem hd) _ List.mem_cons_self
  · intro d hd d' hd' hdd
    exact List.inj_on_of_nodup_map (List.nodup_append.mp hnodup).1 hd hd' hdd

lemma shared_iff (h : ValidMajor major T) (hT : T < 2 ^ 64) {f : MinorFrame} (hf : f ∈ minorFrames major) :
    Shared (BitVec.ofNat 64 T) (getMinorFrameDeadlines major) (toDeadline major f).exitTime ↔
      endTick major f < T ∧ 2 ≤ endCount major (endTick major f) := by
  have hle := h.endTick_le hf
  unfold Shared
  rw [Ne, h.exitTime_eq_iff hT hf hT]
  refine and_congr ⟨fun hne => by omega, fun hlt => by omega⟩ ?_
  unfold toDeadline
  rw [h.countAt_deadlines hT (by omega)]

/-- The attribute tells the tick at which minor frames end. -/
lemma attributeOf_eq_iff (E : Unsigned64) (xs : List Deadline) {e : Unsigned64} (hs : Shared E xs e) (d : Deadline) :
    attributeOf E xs d = some (rank E xs e + 1) ↔ d.exitTime = e := by
  unfold attributeOf
  constructor
  · intro h
    by_cases hd : Shared E xs d.exitTime
    · rw [if_pos hd] at h
      exact rank_inj hd hs (Nat.succ.inj (Option.some.inj h))
    · rw [if_neg hd] at h
      exact absurd h (by simp)
  · rintro rfl
    rw [if_pos hs]

/-- `Add_Barrier_Configs` for a major frame whose length is in range. -/
lemma addBarrierConfig_ok (h : ValidMajor major T) (hT : T < 2 ^ 64) :
    ∃ r, addBarrierConfig major = some r ∧ BarriersOk major T r := by
  obtain ⟨last, hlast, hE⟩ := h.getLast_deadlines hT
  have hrun : ∃ r, (getMinorFrameDeadlines major).foldlM (examineDeadline (BitVec.ofNat 64 T)) {} = some r ∧
      LoopOk (BitVec.ofNat 64 T) ([] ++ getMinorFrameDeadlines major) r :=
    (loopOk_init _).run (fun ys cur zs heq => h.nextDeadline hT heq)
  obtain ⟨r, hr, hok⟩ := hrun
  rw [List.nil_append] at hok
  have hattr : ∀ f ∈ minorFrames major, r.attributes f = some (attributeOf (BitVec.ofNat 64 T)
      (getMinorFrameDeadlines major) (toDeadline major f)) :=
    fun f hf => hok.attributes _ (mem_deadlines.mpr ⟨f, hf, rfl⟩) f rfl
  have hprev : r.prevDeadline.exitTime = BitVec.ofNat 64 T := by
    have hne : getMinorFrameDeadlines major ≠ [] := by
      intro hnil
      rw [hnil] at hlast
      exact absurd hlast (by simp)
    rw [Option.some.inj ((hok.prev_last hne).symm.trans hlast), hE]
  have hexit : ∀ f ∈ minorFrames major, ∀ g ∈ minorFrames major,
      ((toDeadline major g).exitTime = (toDeadline major f).exitTime ↔ endTick major f = endTick major g) := by
    intro f hf g hg
    have := h.endTick_le hf
    exact (h.exitTime_eq_iff hT hg (t := endTick major f) (by omega)).trans eq_comm
  -- the barrier of a minor frame belongs to the time of its end
  have hcarry : ∀ f ∈ minorFrames major, ∀ id, r.attributes f = some (some id) →
      Shared (BitVec.ofNat 64 T) (getMinorFrameDeadlines major) (toDeadline major f).exitTime ∧
        id = rank (BitVec.ofNat 64 T) (getMinorFrameDeadlines major) (toDeadline major f).exitTime + 1 := by
    intro f hf id hid
    rw [hattr f hf, Option.some.injEq, attributeOf] at hid
    by_cases hs : Shared (BitVec.ofNat 64 T) (getMinorFrameDeadlines major) (toDeadline major f).exitTime
    · rw [if_pos hs] at hid
      exact ⟨hs, (Option.some.inj hid).symm⟩
    · rw [if_neg hs] at hid
      exact absurd hid (by simp)
  refine ⟨r, ?_, ?_, ?_, ?_, ?_, ?_, ?_⟩
  · show (getMinorFrameDeadlines major).getLast?.bind _ = some r
    rw [hlast, Option.bind_some, hE]
    exact hr
  · exact fun f hf => ⟨_, hattr f hf⟩
  · intro f hf
    rw [← h.shared_iff hT hf]
    refine ⟨fun ⟨id, hid⟩ => (hcarry f hf id hid).1, fun hs => ?_⟩
    rw [hattr f hf, attributeOf, if_pos hs]
    exact ⟨_, rfl⟩
  · intro f hf g hg id hid
    obtain ⟨hs, rfl⟩ := hcarry f hf id hid
    rw [hattr g hg, Option.some.injEq, attributeOf_eq_iff _ _ hs]
    exact hexit f hf g hg
  · have hlen := congrArg List.length hok.ids
    rw [List.length_map, List.length_range'] at hlen
    rw [hok.ids, hlen]
  · intro b hb
    obtain ⟨e, -, hs, rfl⟩ := hok.sizes b hb
    show countAt _ e = idCount major r _
    unfold countAt idCount
    rw [(getMinorFrameDeadlines_spec major).1.countP_eq, List.countP_map]
    refine List.countP_congr (fun f hf => ?_)
    simp only [Function.comp, decide_eq_true_eq]
    rw [hattr f hf, Option.some.injEq, attributeOf_eq_iff _ _ hs]
  · intro f hf id hid
    obtain ⟨hs, rfl⟩ := hcarry f hf id hid
    have hle := hok.prev_max _ (mem_deadlines.mpr ⟨f, hf, rfl⟩)
    have hlt := rank_lt (BitVec.lt_of_le_ne hle (hprev ▸ hs.1)) hs
    rw [hok.ids, List.mem_range'_1]
    omega

end ValidMajor

end Muen.Tools.Expanders.Scheduling
