import Muen.Components.Dbgserver.LogServer

/-!
# Nothing is lost or reordered

The flags of the buffers say what the history of a session says, so that the marks of the logged messages
are right. Every step of a session keeps the agreement of its buffers with its history, and the agreement
of its queue with the text of the history.
-/

namespace Muen.Components.Dbgserver

open ByteQueue Buffers

variable {n : Nat}

lemma output_append (es trace : List (Event n)) : output (es ++ trace) = output trace ++ output es := by
  unfold output
  rw [List.reverse_append, List.flatMap_append]

/-! ### What a subject buffer says of the history -/

/-- The buffer of a subject agrees with a history. -/
structure Tracked (s : Fin (n + 1)) (sb : SubjectBuffer) (trace : List (Event n)) : Prop where
  incomplete : sb.messageIncomplete = true ↔ Incomplete s trace
  overrun : sb.overrunOccurred = true ↔ .overrun s ∈ since s trace
  newEpoch : sb.newEpochOccurred = true ↔ .epochChanged s ∈ since s trace
  once : (if isMessagePresent sb then [sb.cache] else []) ++ trace.filterMap (Event.loggedOf s) =
    trace.filterMap (Event.receivedOf s)

/-- The event says nothing about the subject. -/
structure Foreign (s : Fin (n + 1)) (e : Event n) : Prop where
  notReceived : e.receivedOf s = none
  notLogged : e.loggedOf s = none
  notOverrun : e ≠ .overrun s
  notEpoch : e ≠ .epochChanged s

lemma since_cons {s : Fin (n + 1)} {e : Event n} (trace : List (Event n)) (h : e.loggedOf s = none) :
    since s (e :: trace) = e :: since s trace := by
  unfold since
  rw [List.takeWhile_cons_of_pos (by simp [h])]

lemma incomplete_cons {s : Fin (n + 1)} {e : Event n} (trace : List (Event n)) (h : e.loggedOf s = none) :
    Incomplete s (e :: trace) ↔ Incomplete s trace := by
  unfold Incomplete predecessor
  rw [List.filterMap_cons_none h]

lemma Tracked.foreign {s : Fin (n + 1)} {sb : SubjectBuffer} {trace : List (Event n)} (h : Tracked s sb trace)
    {e : Event n} (he : Foreign s e) : Tracked s sb (e :: trace) where
  incomplete := by rw [incomplete_cons trace he.notLogged, h.incomplete]
  overrun := by
    rw [since_cons trace he.notLogged, List.mem_cons, h.overrun]
    exact (or_iff_right he.notOverrun.symm).symm
  newEpoch := by
    rw [since_cons trace he.notLogged, List.mem_cons, h.newEpoch]
    exact (or_iff_right he.notEpoch.symm).symm
  once := by
    rw [List.filterMap_cons_none he.notLogged, List.filterMap_cons_none he.notReceived]
    exact h.once

lemma Tracked.foreign_append {s : Fin (n + 1)} {sb : SubjectBuffer} {trace : List (Event n)} (h : Tracked s sb trace)
    (es : List (Event n)) (hes : ∀ e ∈ es, Foreign s e) : Tracked s sb (es ++ trace) := by
  induction es with
  | nil => exact h
  | cons e es ih =>
    have htail := ih (fun e' he' => hes e' (List.mem_cons_of_mem _ he'))
    exact htail.foreign (hes e List.mem_cons_self)

/-! Reading. -/

lemma readEvents_foreign {s s' : Fin (n + 1)} (hne : s' ≠ s) {sb : SubjectBuffer} {read : Read} :
    ∀ e ∈ readEvents s' sb read, Foreign s e := by
  intro e he
  unfold readEvents at he
  split at he
  · split at he
    · obtain rfl := List.mem_singleton.mp he
      exact ⟨if_neg hne, rfl, nofun, nofun⟩
    · obtain rfl := List.mem_singleton.mp he
      exact ⟨rfl, rfl, nofun, fun h => hne (Event.epochChanged.inj h)⟩
    · obtain rfl := List.mem_singleton.mp he
      exact ⟨rfl, rfl, fun h => hne (Event.overrun.inj h), nofun⟩
    · exact absurd he List.not_mem_nil
  · exact absurd he List.not_mem_nil

lemma isMessagePresent_emptied (sb : SubjectBuffer) :
    isMessagePresent { sb with cache := ⟨timestampInvalid, nullMessage⟩ } = false := by
  simp [isMessagePresent]

/-- The cache is left empty by a read that does not succeed. -/
lemma Tracked.emptied {s : Fin (n + 1)} {sb : SubjectBuffer} {trace : List (Event n)} (h : Tracked s sb trace)
    (hpresent : isMessagePresent sb = false) :
    Tracked s { sb with cache := ⟨timestampInvalid, nullMessage⟩ } trace where
  incomplete := h.incomplete
  overrun := h.overrun
  newEpoch := h.newEpoch
  once := by
    rw [isMessagePresent_emptied, ← h.once, hpresent]
    rfl

lemma Tracked.received {s : Fin (n + 1)} {sb : SubjectBuffer} {trace : List (Event n)} (h : Tracked s sb trace)
    (hpresent : isMessagePresent sb = false) {d : Data} (hd : d.timestamp ≠ timestampInvalid) :
    Tracked s { sb with cache := d } (.received s d :: trace) where
  incomplete := by rw [incomplete_cons trace rfl, ← h.incomplete]
  overrun := by
    rw [since_cons trace rfl, List.mem_cons, ← h.overrun]
    exact (or_iff_right nofun).symm
  newEpoch := by
    rw [since_cons trace rfl, List.mem_cons, ← h.newEpoch]
    exact (or_iff_right nofun).symm
  once := by
    have hcached : isMessagePresent { sb with cache := d } = true := decide_eq_true hd
    have honce := h.once
    rw [hpresent] at honce
    have hreceived : Event.receivedOf s (.received s d) = some d := if_pos rfl
    rw [hcached, List.filterMap_cons_none rfl, List.filterMap_cons_some hreceived, ← honce]
    rfl

lemma Tracked.epochChanged {s : Fin (n + 1)} {sb : SubjectBuffer} {trace : List (Event n)} (h : Tracked s sb trace) :
    Tracked s { sb with newEpochOccurred := true } (.epochChanged s :: trace) where
  incomplete := by rw [incomplete_cons trace rfl, ← h.incomplete]
  overrun := by
    rw [since_cons trace rfl, List.mem_cons, ← h.overrun]
    exact (or_iff_right nofun).symm
  newEpoch := by
    rw [since_cons trace rfl]
    exact iff_of_true rfl List.mem_cons_self
  once := by
    rw [List.filterMap_cons_none rfl, List.filterMap_cons_none rfl]
    exact h.once

lemma Tracked.overran {s : Fin (n + 1)} {sb : SubjectBuffer} {trace : List (Event n)} (h : Tracked s sb trace) :
    Tracked s { sb with overrunOccurred := true } (.overrun s :: trace) where
  incomplete := by rw [incomplete_cons trace rfl, ← h.incomplete]
  overrun := by
    rw [since_cons trace rfl]
    exact iff_of_true rfl List.mem_cons_self
  newEpoch := by
    rw [since_cons trace rfl, List.mem_cons, ← h.newEpoch]
    exact (or_iff_right nofun).symm
  once := by
    rw [List.filterMap_cons_none rfl, List.filterMap_cons_none rfl]
    exact h.once

lemma Tracked.read {s : Fin (n + 1)} {sb : SubjectBuffer} {trace : List (Event n)} (h : Tracked s sb trace)
    (read : Read) :
    Tracked s (if sb.enabled then updateMessageBuffer sb read else sb) (readEvents s sb read ++ trace) := by
  by_cases hread : sb.enabled = true ∧ isMessagePresent sb = false
  · obtain ⟨henabled, hpresent⟩ := hread
    unfold readEvents updateMessageBuffer
    rw [if_pos henabled, hpresent]
    cases hresult : read.result with
    | success => simpa [henabled] using h.received hpresent (read.valid hresult)
    | epochChanged => simpa [henabled] using h.epochChanged.emptied hpresent
    | overrunDetected => simpa [henabled] using h.overran.emptied hpresent
    | inactive => simpa [henabled] using h.emptied hpresent
    | incompatibleInterface => simpa [henabled] using h.emptied hpresent
    | noData => simpa [henabled] using h.emptied hpresent
  · have hnone : readEvents s sb read = [] := by
      unfold readEvents
      rw [if_neg]
      simpa using hread
    have hsame : (if sb.enabled then updateMessageBuffer sb read else sb) = sb := by
      by_cases henabled : sb.enabled = true
      · have hpresent : isMessagePresent sb = true := by simpa [henabled] using hread
        rw [if_pos henabled, updateMessageBuffer, if_pos hpresent]
      · rw [if_neg henabled]
    rw [hnone, hsame]
    exact h

lemma flatMap_foreign {s : Fin (n + 1)} (l : List (Fin (n + 1))) (hl : s ∉ l) (b : Buffer n)
    (reads : Fin (n + 1) → Read) :
    ∀ e ∈ l.flatMap (fun s' => readEvents s' (b.subjects s') (reads s')), Foreign s e := by
  intro e he
  obtain ⟨s', hs', he⟩ := List.mem_flatMap.mp he
  apply readEvents_foreign _ e he
  intro heq
  rw [heq] at hs'
  exact hl hs'

/-- Filling the caches keeps the agreement with the history, for each subject. -/
lemma Tracked.update {s : Fin (n + 1)} {b : Buffer n} {trace : List (Event n)} (h : Tracked s (b.subjects s) trace)
    (reads : Fin (n + 1) → Read) :
    Tracked s ((updateMessageBuffers b reads).subjects s) (receivedEvents b reads ++ trace) := by
  have hmem : s ∈ (List.finRange (n + 1)).reverse := List.mem_reverse.mpr (List.mem_finRange s)
  have hnodup : (List.finRange (n + 1)).reverse.Nodup := List.nodup_reverse.mpr (List.nodup_finRange _)
  unfold receivedEvents
  obtain ⟨l₁, l₂, hsplit⟩ := List.append_of_mem hmem
  rw [hsplit] at hnodup ⊢
  have hnotMem := (List.nodup_cons.mp (List.nodup_middle.mp hnodup)).1
  rw [List.mem_append, not_or] at hnotMem
  rw [List.flatMap_append, List.flatMap_cons, List.append_assoc, List.append_assoc]
  apply Tracked.foreign_append _ _ (flatMap_foreign l₁ hnotMem.1 b reads)
  exact (h.foreign_append _ (flatMap_foreign l₂ hnotMem.2 b reads)).read (reads s)

/-! Logging. -/

/-- A subject buffer after its message has been logged. -/
def logged (sb : SubjectBuffer) (q : Queue) : SubjectBuffer :=
  { markAsLogged (addMessage sb q).1 with overrunOccurred := false, newEpochOccurred := false }

lemma Tracked.logged {s : Fin (n + 1)} {sb : SubjectBuffer} {trace : List (Event n)} (h : Tracked s sb trace)
    (hpresent : isMessagePresent sb = true) (mark : Option Mark) (q : Queue) :
    Tracked s (logged sb q) (.logged s mark sb.cache :: trace) := by
  have hlogged : Event.loggedOf s (.logged s mark sb.cache) = some sb.cache := if_pos rfl
  have hsince : since s (.logged s mark sb.cache :: trace) = [] := by
    unfold since
    rw [List.takeWhile_cons_of_neg]
    simp [hlogged]
  constructor
  · have hincomplete : Incomplete s (.logged s mark sb.cache :: trace) ↔ ¬ sb.cache.Terminated := by
      unfold Incomplete predecessor
      rw [List.filterMap_cons_some hlogged]
      simp
    have hchar := addMessageLoop_char (q := q) sb.cache.message.toList nul (by decide)
    rw [hincomplete]
    unfold Data.Terminated
    rw [← hchar]
    exact decide_eq_true_iff
  · rw [hsince]
    exact iff_of_false Bool.false_ne_true List.not_mem_nil
  · rw [hsince]
    exact iff_of_false Bool.false_ne_true List.not_mem_nil
  · have hempty : isMessagePresent (Dbgserver.logged sb q) = false := by
      simp [isMessagePresent, Dbgserver.logged, markAsLogged]
    have honce := h.once
    rw [hpresent] at honce
    rw [hempty, List.filterMap_cons_some hlogged, List.filterMap_cons_none rfl, ← honce]
    rfl

/-! ### What all buffers say of the history -/

structure Tracks (b : Buffer n) (trace : List (Event n)) : Prop where
  subject : ∀ s, Tracked s (b.subjects s) trace
  idle : b.isIdle = true ↔ lastOutput trace = some .idle
  last : ∀ s m d, lastOutput trace = some (.logged s m d) → b.lastSubject = s

lemma lastOutput_append (es trace : List (Event n)) (h : ∀ e ∈ es, e.isOutput = false) :
    lastOutput (es ++ trace) = lastOutput trace := by
  have hnone : es.filter Event.isOutput = [] := by
    rw [List.filter_eq_nil_iff]
    intro e he
    rw [h e he]
    exact Bool.false_ne_true
  unfold lastOutput
  rw [List.filter_append, hnone, List.nil_append]

lemma readEvents_not_output (s : Fin (n + 1)) (sb : SubjectBuffer) (read : Read) :
    ∀ e ∈ readEvents s sb read, e.isOutput = false := by
  intro e he
  unfold readEvents at he
  split at he
  · split at he
    · rw [List.mem_singleton.mp he]
      rfl
    · rw [List.mem_singleton.mp he]
      rfl
    · rw [List.mem_singleton.mp he]
      rfl
    · exact absurd he List.not_mem_nil
  · exact absurd he List.not_mem_nil

lemma receivedEvents_not_output (b : Buffer n) (reads : Fin (n + 1) → Read) :
    ∀ e ∈ receivedEvents b reads, e.isOutput = false := by
  intro e he
  obtain ⟨s, -, he⟩ := List.mem_flatMap.mp he
  exact readEvents_not_output s _ _ e he

lemma Tracks.update {b : Buffer n} {trace : List (Event n)} (h : Tracks b trace) (reads : Fin (n + 1) → Read) :
    Tracks (updateMessageBuffers b reads) (receivedEvents b reads ++ trace) where
  subject := fun s => (h.subject s).update reads
  idle := by
    rw [lastOutput_append _ _ (receivedEvents_not_output b reads)]
    exact h.idle
  last := by
    rw [lastOutput_append _ _ (receivedEvents_not_output b reads)]
    exact h.last

lemma Tracks.idled {b : Buffer n} {trace : List (Event n)} (h : Tracks b trace) :
    Tracks { b with isIdle := true } (.idle :: trace) where
  subject := fun s => (h.subject s).foreign ⟨rfl, rfl, nofun, nofun⟩
  idle := iff_of_true rfl rfl
  last := by
    intro s m d hlast
    exact absurd hlast nofun

lemma Tracks.logged {b : Buffer n} {trace : List (Event n)} (h : Tracks b trace) {s : Fin (n + 1)}
    (hpresent : isMessagePresent (b.subjects s) = true) (mark : Option Mark) (q : Queue) :
    Tracks ⟨Function.update b.subjects s (logged (b.subjects s) q), false, s⟩
      (.logged s mark (b.subjects s).cache :: trace) where
  subject := by
    intro s'
    by_cases hs : s' = s
    · subst hs
      dsimp only
      rw [Function.update_self]
      exact (h.subject s').logged hpresent mark q
    · dsimp only
      rw [Function.update_of_ne hs]
      exact (h.subject s').foreign ⟨rfl, if_neg (Ne.symm hs), nofun, nofun⟩
  idle := by
    apply iff_of_false Bool.false_ne_true
    intro hidle
    exact absurd (Option.some.inj hidle) nofun
  last := by
    intro s' m d hlast
    have he : Event.logged s mark (b.subjects s).cache = .logged s' m d := Option.some.inj hlast
    exact (Event.logged.inj he).1

lemma lastOutput_ne_none {s : Fin (n + 1)} {trace : List (Event n)} (h : Incomplete s trace) :
    lastOutput trace ≠ none := by
  obtain ⟨d, hd, -⟩ := h
  obtain ⟨e, he, hlogged⟩ := List.mem_filterMap.mp (List.mem_of_head? hd)
  intro hnone
  unfold lastOutput at hnone
  rw [List.head?_eq_none_iff, List.filter_eq_nil_iff] at hnone
  apply hnone e he
  cases e <;> first | rfl | exact absurd hlogged nofun

/-- The marks by the flags of the subject. -/
lemma lineMark_cases (b : Buffer n) (s : Fin (n + 1)) :
    (lineMark b s = some .newEpoch ↔ (b.subjects s).newEpochOccurred = true) ∧
    (lineMark b s = some .overrun ↔
      (b.subjects s).overrunOccurred = true ∧ ¬ (b.subjects s).newEpochOccurred = true) ∧
    ((lineMark b s = none ∨ lineMark b s = some .continuation) ↔ (b.subjects s).messageIncomplete = true ∧
      ¬ (b.subjects s).overrunOccurred = true ∧ ¬ (b.subjects s).newEpochOccurred = true) ∧
    (lineMark b s = none →
      (b.subjects s).messageIncomplete = true ∧ b.lastSubject = s ∧ ¬ b.isIdle = true) := by
  unfold lineMark markOf
  dsimp only
  by_cases hlast : b.lastSubject = s
  · cases (b.subjects s).messageIncomplete <;> cases (b.subjects s).overrunOccurred <;>
      cases (b.subjects s).newEpochOccurred <;> cases b.isIdle <;> simp [hlast]
  · cases (b.subjects s).messageIncomplete <;> cases (b.subjects s).overrunOccurred <;>
      cases (b.subjects s).newEpochOccurred <;> simp [hlast]

/-- The flags give the next message of a subject the right mark. -/
lemma Tracks.marked {b : Buffer n} {trace : List (Event n)} (h : Tracks b trace) (s : Fin (n + 1)) :
    Marked trace s (lineMark b s) := by
  have hs := h.subject s
  obtain ⟨hepoch, hoverrun, hcontinuation, hnone⟩ := lineMark_cases b s
  constructor
  · rw [hepoch, hs.newEpoch]
  · rw [hoverrun, hs.overrun, hs.newEpoch]
  · rw [hcontinuation, hs.incomplete, hs.overrun, hs.newEpoch]
  · intro hmark
    obtain ⟨hincomplete, hlast, hidle⟩ := hnone hmark
    rw [hs.incomplete] at hincomplete
    rw [h.idle] at hidle
    cases hout : lastOutput trace with
    | none => exact absurd hout (lastOutput_ne_none hincomplete)
    | some e =>
      have hisOutput : e.isOutput = true := (List.mem_filter.mp (List.mem_of_head? hout)).2
      cases e with
      | logged s' m d =>
        have hs' := h.last s' m d hout
        rw [hlast] at hs'
        rw [← hs']
        exact ⟨m, d, rfl⟩
      | idle => exact absurd hout hidle
      | received s' d => exact absurd hisOutput Bool.false_ne_true
      | overrun s' => exact absurd hisOutput Bool.false_ne_true
      | epochChanged s' => exact absurd hisOutput Bool.false_ne_true

/-! ### One run -/

/-- The subject that has been found, if any, has the candidate's time stamp. -/
structure IsCandidate (b : Buffer n) (candidate : BitVec 64) (found : Fin (n + 1) × Bool) : Prop where
  present : found.2 = true → (b.subjects found.1).cache.timestamp = candidate ∧ candidate ≠ timestampInvalid
  missing : found.2 = false → candidate = timestampInvalid

lemma ne_timestampInvalid_of_lt {t candidate : BitVec 64} (h : t < candidate) : t ≠ timestampInvalid := by
  intro he
  have hlt := candidate.isLt
  rw [he, BitVec.lt_def] at h
  have hall : timestampInvalid.toNat = 2 ^ 64 - 1 := BitVec.toNat_allOnes
  omega

lemma findOldestLoop_spec (b : Buffer n) (ss : List (Fin (n + 1))) (candidate : BitVec 64)
    (found : Fin (n + 1) × Bool) (h : IsCandidate b candidate found) :
    ∃ candidate', IsCandidate b candidate' (findOldestLoop b ss candidate found) ∧ candidate' ≤ candidate ∧
      ∀ s ∈ ss, candidate' ≤ (b.subjects s).cache.timestamp := by
  induction ss generalizing candidate found with
  | nil => exact ⟨candidate, h, BitVec.le_refl _, fun s hs => absurd hs List.not_mem_nil⟩
  | cons s ss ih =>
    rw [findOldestLoop]
    by_cases hlt : (b.subjects s).cache.timestamp < candidate
    · rw [if_pos hlt]
      obtain ⟨c, hc, hle, hall⟩ := ih (b.subjects s).cache.timestamp (s, true)
        ⟨fun _ => ⟨rfl, ne_timestampInvalid_of_lt hlt⟩, nofun⟩
      refine ⟨c, hc, BitVec.le_trans hle (BitVec.le_of_lt hlt), ?_⟩
      intro s' hs'
      rcases List.mem_cons.mp hs' with rfl | hs'
      · exact hle
      · exact hall s' hs'
    · rw [if_neg hlt]
      obtain ⟨c, hc, hle, hall⟩ := ih candidate found h
      refine ⟨c, hc, hle, ?_⟩
      intro s' hs'
      rcases List.mem_cons.mp hs' with rfl | hs'
      · exact BitVec.le_trans hle (BitVec.not_lt.mp hlt)
      · exact hall s' hs'

/-- A message that is found has the least time stamp; when none is found, no message is cached. -/
lemma findOldestMessage_spec (b : Buffer n) :
    ((findOldestMessage b).2 = true → isMessagePresent (b.subjects (findOldestMessage b).1) = true ∧
      ∀ s, (b.subjects (findOldestMessage b).1).cache.timestamp ≤ (b.subjects s).cache.timestamp) ∧
    ((findOldestMessage b).2 = false → ∀ s, isMessagePresent (b.subjects s) = false) := by
  obtain ⟨c, hc, -, hall⟩ := findOldestLoop_spec b (List.finRange (n + 1)) timestampInvalid (0, false)
    ⟨nofun, fun _ => rfl⟩
  constructor
  · intro hfound
    obtain ⟨htime, hvalid⟩ := hc.present hfound
    rw [← htime] at hvalid hall
    exact ⟨decide_eq_true hvalid, fun s => hall s (List.mem_finRange s)⟩
  · intro hmissing s
    have hle := hall s (List.mem_finRange s)
    rw [hc.missing hmissing] at hle
    have hinvalid : ¬ (b.subjects s).cache.timestamp ≠ timestampInvalid := by
      intro hne
      apply hne
      apply BitVec.le_antisymm _ hle
      have hlt := (b.subjects s).cache.timestamp.isLt
      have hones : timestampInvalid.toNat = 2 ^ 64 - 1 := BitVec.toNat_allOnes
      rw [BitVec.le_def]
      omega
    exact decide_eq_false hinvalid

/-- The queue in front of the text of a message, with its line prefix if it gets one. -/
lemma contents_linePrefix (b : Buffer n) (s : Fin (n + 1)) {q : Queue} (h : requiredMsgBytes ≤ bytesFree q) :
    (if !(b.subjects s).messageIncomplete || decide (b.lastSubject ≠ s) || (b.subjects s).overrunOccurred ||
          (b.subjects s).newEpochOccurred || b.isIdle then
        addLinePrefix s (b.subjects s).overrunOccurred (b.subjects s).newEpochOccurred
          (b.subjects s).messageIncomplete q
      else q).contents = q.contents ++ (lineMark b s).elim [] (fun m => m.linePrefix s) := by
  unfold requiredMsgBytes at h
  unfold lineMark
  dsimp only
  split
  · rw [addLinePrefix_eq, contents_appendString, Option.elim_some]
    rw [length_linePrefix]
    omega
  · rw [Option.elim_none, List.append_nil]

lemma length_linePrefix_le (mark : Option Mark) (s : Fin (n + 1)) :
    (mark.elim [] (fun m => m.linePrefix s)).length ≤ 11 := by
  cases mark with
  | none => exact Nat.zero_le _
  | some m => exact (length_linePrefix m s).le

lemma logMessage_spec {b : Buffer n} {trace : List (Event n)} (h : Tracks b trace) {s : Fin (n + 1)}
    (hpresent : isMessagePresent (b.subjects s) = true) {q : Queue} (hroom : requiredMsgBytes ≤ bytesFree q) :
    Tracks (logMessage b s q).1 (.logged s (lineMark b s) (b.subjects s).cache :: trace) ∧
      (logMessage b s q).2.contents =
        q.contents ++ (Event.logged s (lineMark b s) (b.subjects s).cache).bytes := by
  have hline := contents_linePrefix b s hroom
  have hlength := length_linePrefix_le (lineMark b s) s
  unfold logMessage
  rw [if_pos hroom]
  dsimp only
  constructor
  · exact h.logged hpresent _ _
  · unfold addMessage
    dsimp only
    rw [contents_addMessageLoop, hline, List.append_assoc]
    · rfl
    · rw [bytesFree_eq] at hroom ⊢
      rw [hline, List.length_append]
      unfold requiredMsgBytes at hroom
      rw [Vector.length_toList]
      omega

lemma idleMark_spec {b : Buffer n} {trace : List (Event n)} (h : Tracks b trace) (q : Queue) :
    Tracks (idleMark b q).1 ((if !b.isIdle && decide (bytesFree q ≥ 5) then [.idle] else []) ++ trace) ∧
      (idleMark b q).2.contents = q.contents ++
        output (if !b.isIdle && decide (bytesFree q ≥ 5) then [(.idle : Event n)] else []) := by
  unfold idleMark
  by_cases hidle : (!b.isIdle && decide (bytesFree q ≥ 5)) = true
  · rw [if_pos hidle, if_pos hidle]
    refine ⟨h.idled, ?_⟩
    have hroom : 5 ≤ bytesFree q := by
      rw [Bool.and_eq_true, decide_eq_true_iff] at hidle
      exact hidle.2
    have htext : appendString (appendNewLine q) ("---".toList.map pos) = appendString q (Event.idle (n := n)).bytes := rfl
    dsimp only
    rw [htext, contents_appendString]
    · simp [output]
    · exact hroom
  · rw [if_neg hidle, if_neg hidle]
    refine ⟨h, ?_⟩
    simp [output]

lemma logOldestMessage_eq (b : Buffer n) (q : Queue) : logOldestMessage b q =
    if (findOldestMessage b).2 then logMessage b (findOldestMessage b).1 q else idleMark b q := rfl

lemma outputEvents_eq (b : Buffer n) (q : Queue) : outputEvents b q =
    if (findOldestMessage b).2 then
      if bytesFree q ≥ requiredMsgBytes then
        [.logged (findOldestMessage b).1 (lineMark b (findOldestMessage b).1)
          (b.subjects (findOldestMessage b).1).cache]
      else []
    else
      if !b.isIdle && decide (bytesFree q ≥ 5) then [.idle] else [] := rfl

/-- Moving the oldest message keeps the agreement, and appends the text of what it puts out. -/
lemma logOldestMessage_spec {b : Buffer n} {trace : List (Event n)} (h : Tracks b trace) (q : Queue) :
    Tracks (logOldestMessage b q).1 (outputEvents b q ++ trace) ∧
      (logOldestMessage b q).2.contents = q.contents ++ output (outputEvents b q) := by
  obtain ⟨hfound, -⟩ := findOldestMessage_spec b
  rw [logOldestMessage_eq, outputEvents_eq]
  by_cases hpresent : (findOldestMessage b).2 = true
  · rw [if_pos hpresent, if_pos hpresent]
    by_cases hroom : bytesFree q ≥ requiredMsgBytes
    · rw [if_pos hroom]
      obtain ⟨htracks, hcontents⟩ := logMessage_spec h (hfound hpresent).1 hroom
      refine ⟨htracks, ?_⟩
      rw [hcontents]
      simp [output]
    · rw [if_neg hroom, logMessage, if_neg hroom]
      refine ⟨h, ?_⟩
      simp [output]
  · rw [if_neg hpresent, if_neg hpresent]
    exact idleMark_spec h q

/-! ### Whole sessions -/

/-- All messages that have been logged have the right mark. -/
def WellMarked (trace : List (Event n)) : Prop :=
  ∀ after s mark d before, trace = after ++ .logged s mark d :: before → Marked before s mark

lemma WellMarked.cons {trace : List (Event n)} (h : WellMarked trace) (e : Event n)
    (he : ∀ s mark d, e = .logged s mark d → Marked trace s mark) : WellMarked (e :: trace) := by
  intro after s mark d before hsplit
  cases after with
  | nil =>
    obtain ⟨hhead, rfl⟩ := List.cons.inj hsplit
    exact he s mark d hhead
  | cons e' after => exact h after s mark d before (List.cons.inj hsplit).2

lemma WellMarked.append_of_not_output {trace : List (Event n)} (h : WellMarked trace) (es : List (Event n))
    (hes : ∀ e ∈ es, e.isOutput = false) : WellMarked (es ++ trace) := by
  induction es with
  | nil => exact h
  | cons e es ih =>
    apply (ih (fun e' he' => hes e' (List.mem_cons_of_mem _ he'))).cons
    intro s mark d he
    have hout := hes e List.mem_cons_self
    rw [he] at hout
    exact absurd hout Bool.true_eq_false.mp

lemma Tracks.wellMarked {b : Buffer n} {trace : List (Event n)} (h : Tracks b trace) (hmarked : WellMarked trace)
    (q : Queue) : WellMarked (outputEvents b q ++ trace) := by
  rw [outputEvents_eq]
  by_cases hpresent : (findOldestMessage b).2 = true
  · rw [if_pos hpresent]
    by_cases hroom : bytesFree q ≥ requiredMsgBytes
    · rw [if_pos hroom]
      apply hmarked.cons
      intro s mark d he
      obtain ⟨rfl, rfl, -⟩ := Event.logged.inj he
      exact h.marked _
    · rw [if_neg hroom]
      exact hmarked
  · rw [if_neg hpresent]
    by_cases hidle : (!b.isIdle && decide (bytesFree q ≥ 5)) = true
    · rw [if_pos hidle]
      exact hmarked.cons _ nofun
    · rw [if_neg hidle]
      exact hmarked

/-- The buffers and the queue of a session agree with its history. -/
structure Consistent (x : Session n) : Prop where
  tracks : Tracks x.buffer x.trace
  wellMarked : WellMarked x.trace
  bytes : banner ++ output x.trace = x.taken ++ x.queue.contents

lemma Tracks.setEnabled {b : Buffer n} {trace : List (Event n)} (h : Tracks b trace) (id : Fin (n + 1))
    (enabled : Bool) : Tracks (setLogBufferState b id enabled) trace where
  subject := by
    intro s
    unfold setLogBufferState
    dsimp only
    by_cases hs : s = id
    · subst hs
      rw [Function.update_self]
      exact ⟨(h.subject s).incomplete, (h.subject s).overrun, (h.subject s).newEpoch, (h.subject s).once⟩
    · rw [Function.update_of_ne hs]
      exact h.subject s
  idle := h.idle
  last := h.last

lemma Tracks.setAllEnabled {b : Buffer n} {trace : List (Event n)} (h : Tracks b trace) (enabled : Bool) :
    Tracks (setAllLogBufferState b enabled) trace := by
  unfold setAllLogBufferState
  induction List.finRange (n + 1) generalizing b with
  | nil => exact h
  | cons id ids ih => exact ih (h.setEnabled id enabled)

lemma Consistent.drain {x : Session n} (h : Consistent x) (size sent : Nat) : Consistent (x.drain size sent) := by
  unfold Session.drain
  by_cases hpre : 0 < bytesUsed x.queue ∧ 0 < size
  · rw [if_pos hpre, peek_eq size hpre.1]
    refine ⟨h.tracks, h.wellMarked, ?_⟩
    have hused : x.queue.contents.length = bytesUsed x.queue := Lib.RingQueue.length_contents _
    dsimp only
    rw [contents_dropBytes _ (by omega), h.bytes, List.append_assoc]
    congr 1
    have hshown : (x.queue.contents.take size ++ List.replicate (size - x.queue.contents.length) (0 : Byte)).take
        (min sent (min size x.queue.contents.length)) =
        x.queue.contents.take (min sent (min size x.queue.contents.length)) := by
      rw [List.take_append_of_le_length, List.take_take]
      · congr 1
        omega
      · rw [List.length_take]
        omega
    rw [hshown, List.take_append_drop]
  · rw [if_neg hpre]
    exact h

lemma Consistent.step {x : Session n} (h : Consistent x) (a : Action n) : Consistent (x.step a) := by
  cases a with
  | run reads =>
    have hupdated := h.tracks.update reads
    obtain ⟨htracks, hcontents⟩ := logOldestMessage_spec hupdated x.queue
    have hmarked := h.wellMarked.append_of_not_output _ (receivedEvents_not_output x.buffer reads)
    have hsilent : output (receivedEvents x.buffer reads) = [] := by
      unfold output
      rw [List.flatMap_eq_nil_iff]
      intro e he
      have hout := receivedEvents_not_output x.buffer reads e (List.mem_reverse.mp he)
      cases e with
      | logged s m d => exact absurd hout Bool.true_eq_false.mp
      | idle => exact absurd hout Bool.true_eq_false.mp
      | received s d => rfl
      | overrun s => rfl
      | epochChanged s => rfl
    unfold Session.step
    dsimp only
    rw [List.append_assoc]
    refine ⟨htracks, hupdated.wellMarked hmarked x.queue, ?_⟩
    change _ = x.taken ++ (logOldestMessage (updateMessageBuffers x.buffer reads) x.queue).2.contents
    rw [hcontents, output_append, output_append, hsilent, List.append_nil, ← List.append_assoc, h.bytes,
      List.append_assoc]
  | setLogBufferState id enabled => exact ⟨h.tracks.setEnabled id enabled, h.wellMarked, h.bytes⟩
  | setAllLogBufferState enabled => exact ⟨h.tracks.setAllEnabled enabled, h.wellMarked, h.bytes⟩
  | toggleLogBufferState id => exact ⟨h.tracks.setEnabled id _, h.wellMarked, h.bytes⟩
  | drain size sent => exact h.drain size sent

lemma start_consistent : Consistent (Session.start : Session n) where
  tracks := by
    refine ⟨?_, iff_of_false Bool.false_ne_true nofun, nofun⟩
    intro s
    have hincomplete : ¬ Incomplete s ([] : List (Event n)) := by
      rintro ⟨d, hd, -⟩
      exact absurd hd nofun
    refine ⟨iff_of_false Bool.false_ne_true hincomplete, iff_of_false Bool.false_ne_true List.not_mem_nil,
      iff_of_false Bool.false_ne_true List.not_mem_nil, ?_⟩
    simp [Session.start, Buffers.initialized, isMessagePresent]
  wellMarked := by
    intro after s mark d before hsplit
    exact absurd hsplit (List.append_ne_nil_of_right_ne_nil after (List.cons_ne_nil _ _)).symm
  bytes := by
    have hfree : banner.length ≤ bytesFree ByteQueue.initialized := by decide
    change banner ++ [] = [] ++ (appendString ByteQueue.initialized banner).contents
    rw [contents_appendString _ hfree, contents_initialized, List.append_nil]
    rfl

lemma session_consistent (actions : List (Action n)) : Consistent (actions.foldl Session.step Session.start) := by
  induction actions using List.reverseRecOn with
  | nil => exact start_consistent
  | append_singleton actions a ih =>
    rw [List.foldl_append]
    exact ih.step a

/-- What the server puts out when it runs with the given caches: the oldest of the cached messages, unless
there may be no room for it, or at most an idle mark when no message is cached. -/
def PutsOut (b : Buffer n) (q : Queue) (out : List (Event n)) : Prop :=
  (out = [] ∧ (bytesFree q < requiredMsgBytes ∨ ∀ s, cached b s = [])) ∨
  (out = [.idle] ∧ ∀ s, cached b s = []) ∨
  ∃ s mark d, out = [.logged s mark d] ∧ cached b s = [d] ∧ ∀ s' d', cached b s' = [d'] → d.timestamp ≤ d'.timestamp

lemma outputEvents_putsOut (b : Buffer n) (q : Queue) : PutsOut b q (outputEvents b q) := by
  obtain ⟨hfound, hmissing⟩ := findOldestMessage_spec b
  rw [outputEvents_eq]
  by_cases hpresent : (findOldestMessage b).2 = true
  · obtain ⟨hcached, hle⟩ := hfound hpresent
    rw [if_pos hpresent]
    by_cases hroom : bytesFree q ≥ requiredMsgBytes
    · rw [if_pos hroom]
      refine Or.inr (Or.inr ⟨_, _, _, rfl, if_pos hcached, ?_⟩)
      intro s' d' hd'
      unfold cached at hd'
      split at hd'
      · rw [← List.singleton_inj.mp hd']
        exact hle s'
      · exact absurd hd' (List.cons_ne_nil _ _).symm
    · rw [if_neg hroom]
      exact Or.inl ⟨rfl, Or.inl (Nat.lt_of_not_le hroom)⟩
  · have hempty : ∀ s, cached b s = [] := by
      intro s
      unfold cached
      rw [hmissing (Bool.eq_false_of_not_eq_true hpresent) s]
      rfl
    rw [if_neg hpresent]
    split
    · exact Or.inr (Or.inl ⟨rfl, hempty⟩)
    · exact Or.inl ⟨rfl, Or.inr hempty⟩

/-- The server loses and reorders nothing that it has read. -/
structure Faithful (x : Session n) : Prop where
  once : ∀ s, cached x.buffer s ++ x.trace.filterMap (Event.loggedOf s) = x.trace.filterMap (Event.receivedOf s)
  marked : WellMarked x.trace
  bytes : banner ++ output x.trace = x.taken ++ x.queue.contents
  run : ∀ reads, ∃ out, (x.step (.run reads)).trace = out ++ receivedEvents x.buffer reads ++ x.trace ∧
    PutsOut (updateMessageBuffers x.buffer reads) x.queue out ∧ (output out).length ≤ bytesFree x.queue ∧
    (x.step (.run reads)).queue.contents = x.queue.contents ++ output out

lemma Consistent.faithful {x : Session n} (h : Consistent x) : Faithful x where
  once := fun s => (h.tracks.subject s).once
  marked := h.wellMarked
  bytes := h.bytes
  run := by
    intro reads
    obtain ⟨-, hcontents⟩ := logOldestMessage_spec (h.tracks.update reads) x.queue
    refine ⟨_, rfl, outputEvents_putsOut _ _, ?_, hcontents⟩
    have hle := length_contents_le (logOldestMessage (updateMessageBuffers x.buffer reads) x.queue).2
    rw [hcontents, List.length_append] at hle
    rw [bytesFree_eq]
    omega

/-- In every session the messages that have been read are logged once each, in order and with the right
marks, and the bytes taken from the queue are the text of the log; a byte queue is first in, first out. -/
theorem session_faithful (actions : List (Action n)) :
    Faithful (actions.foldl Session.step Session.start) ∧
      ∀ (ops : List Op) (p : Port), Lib.run Port.step Port.start ops = some p →
        p.Ordered ∧ bytesFree p.queue + p.queue.contents.length = 4095 ∧
        ∀ size, 0 < bytesUsed p.queue →
          peek p.queue size = (p.queue.contents.take size ++ List.replicate (size - p.queue.contents.length) 0,
            min size p.queue.contents.length) := by
  refine ⟨(session_consistent actions).faithful, ?_⟩
  intro ops p hrun
  refine ⟨Port.run_ordered hrun, ?_, fun size hused => peek_eq size hused⟩
  have hle := length_contents_le p.queue
  rw [bytesFree_eq]
  omega

/-! A message without LF is logged, the channel is overrun, and another message is logged. -/

def text (cs : List Char) : Message := Vector.ofFn (fun i => (cs.map pos).getD i.val nul)

def success (timestamp : BitVec 64) (cs : List Char) (h : timestamp ≠ timestampInvalid) : Fin 1 → Read :=
  fun _ => ⟨⟨timestamp, text cs⟩, .success, fun _ => h⟩

def overrunDetected : Fin 1 → Read := fun _ => ⟨⟨0, nullMessage⟩, .overrunDetected, nofun⟩

def overrunSession : Session 0 :=
  [.run (success 1 ['a'] (by decide)), .run overrunDetected, .run (success 2 ['b', '\n'] (by decide))].foldl
    Session.step Session.start

theorem overrunSession_marks :
    (¬ ∀ after s mark d before, overrunSession.trace = after ++ .logged s mark d :: before →
      ((mark = none ∨ mark = some .continuation) ↔ Incomplete s before)) ∧
    .idle ∈ overrunSession.trace := by
  have htrace : overrunSession.trace = [.logged 0 (some .overrun) ⟨2, text ['b', '\n']⟩,
      .received 0 ⟨2, text ['b', '\n']⟩, .idle, .overrun 0, .logged 0 (some .message) ⟨1, text ['a']⟩,
      .received 0 ⟨1, text ['a']⟩] := by
    decide
  rw [htrace]
  constructor
  · intro h
    have hmark := (h [] _ _ _ _ rfl).mpr ⟨⟨1, text ['a']⟩, rfl, by decide⟩
    revert hmark
    decide
  · exact List.mem_cons_of_mem _ (List.mem_cons_of_mem _ List.mem_cons_self)

end Muen.Components.Dbgserver
