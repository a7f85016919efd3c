import Muen.Components.Dbgserver.Buffers

/-!
# What the debug server logs

The history of a server is the list of what it has read and of what it has put out, newest first. The
output queue and the bytes taken from it are the text of this history, and every message that has been
read is in it exactly once or still cached.
-/

namespace Muen.Components.Dbgserver

open ByteQueue Buffers

variable {n : Nat}

/-! ### Texts -/

/-- How the line of a message starts. -/
inductive Mark
  | newEpoch
  | overrun
  | continuation
  | message
  deriving DecidableEq

def Mark.byte : Mark → Byte
  | newEpoch => pos '%'
  | overrun => pos '#'
  | continuation => pos '>'
  | message => pos '|'

def Mark.linePrefix (mark : Mark) (subject : Fin (n + 1)) : List Byte :=
  [cr, lf] ++ img (subjectNumber subject) ++ [mark.byte]

def isText (c : Byte) : Bool := decide (c ≠ lf) && decide (c ≠ nul)

/-- A message up to its first LF or NUL. -/
def Data.text (d : Data) : List Byte := d.message.toList.takeWhile isText

/-- The text of the message ends with an LF. -/
def Data.Terminated (d : Data) : Prop := (d.message.toList.dropWhile isText).head? = some lf

instance (d : Data) : Decidable d.Terminated := inferInstanceAs (Decidable (_ = _))

lemma length_imgLoop (k temp : Nat) (written : List Char) : (imgLoop k temp written).length = k + written.length := by
  induction k generalizing temp written with
  | zero => simp [imgLoop]
  | succ k ih =>
    rw [imgLoop]
    split
    · simp only [List.length_append, List.length_replicate, List.length_cons]
      omega
    · rw [ih, List.length_cons]
      omega

lemma length_img (item : BitVec 16) : (img item).length = 8 := by
  unfold img
  rw [List.length_map, List.length_append, List.length_append, List.length_drop, length_imgLoop]
  rfl

lemma length_linePrefix (mark : Mark) (subject : Fin (n + 1)) : (mark.linePrefix subject).length = 11 := by
  unfold Mark.linePrefix
  rw [List.length_append, List.length_append, length_img]
  rfl

lemma contents_appendString {q : Queue} (item : List Byte) (h : item.length ≤ bytesFree q) :
    (appendString q item).contents = q.contents ++ item := contents_foldl_append item h

/-- The mark of a line prefix with the given flags. -/
def markOf (overrun newEpoch continuation : Bool) : Mark :=
  if newEpoch then .newEpoch else if overrun then .overrun else if continuation then .continuation else .message

lemma addLinePrefix_eq (subject : Fin (n + 1)) (overrun newEpoch continuation : Bool) (q : Queue) :
    addLinePrefix subject overrun newEpoch continuation q =
      appendString q ((markOf overrun newEpoch continuation).linePrefix subject) := by
  have hline : ∀ mark : Mark, appendString q (mark.linePrefix subject) =
      appendCharacter (appendString (appendNewLine q) (img (subjectNumber subject))) mark.byte := by
    intro mark
    unfold appendString Mark.linePrefix
    rw [List.foldl_append, List.foldl_append]
    rfl
  rw [hline]
  unfold addLinePrefix markOf
  cases newEpoch <;> cases overrun <;> cases continuation <;> rfl

lemma contents_addMessageLoop {q : Queue} (cs : List Byte) (c : Byte) (h : cs.length ≤ bytesFree q) :
    (addMessageLoop cs c q).1.contents = q.contents ++ cs.takeWhile isText := by
  induction cs generalizing c q with
  | nil => simp [addMessageLoop]
  | cons c' cs ih =>
    rw [List.length_cons] at h
    by_cases hend : c' = lf ∨ c' = nul
    · have htext : isText c' = false := by
        rcases hend with rfl | rfl <;> decide
      rw [addMessageLoop, if_pos hend, List.takeWhile_cons_of_neg (by simp [htext]), List.append_nil]
    · have htext : isText c' = true := by
        rw [not_or] at hend
        simp [isText, hend.1, hend.2]
      have happend : (appendCharacter q c').contents = q.contents ++ [c'] := contents_append c' (by omega)
      rw [addMessageLoop, if_neg hend, ih, happend, List.takeWhile_cons_of_pos htext, List.append_assoc]
      · rfl
      · rw [bytesFree_eq] at h ⊢
        rw [happend, List.length_append, List.length_singleton]
        omega

/-- The loop ends at an LF exactly when the text does. -/
lemma addMessageLoop_char {q : Queue} (cs : List Byte) (c : Byte) (hc : c ≠ lf) :
    (addMessageLoop cs c q).2 = lf ↔ (cs.dropWhile isText).head? = some lf := by
  induction cs generalizing c q with
  | nil => simp [addMessageLoop, hc]
  | cons c' cs ih =>
    by_cases hend : c' = lf ∨ c' = nul
    · have htext : isText c' = false := by
        rcases hend with rfl | rfl <;> decide
      rw [addMessageLoop, if_pos hend, List.dropWhile_cons_of_neg (by simp [htext]), List.head?_cons,
        Option.some_inj]
    · have htext : isText c' = true := by
        rw [not_or] at hend
        simp [isText, hend.1, hend.2]
      rw [addMessageLoop, if_neg hend, List.dropWhile_cons_of_pos htext]
      exact ih c' (fun he => hend (Or.inl he))

/-! ### Histories -/

inductive Event (n : Nat)
  | received (s : Fin (n + 1)) (d : Data)
  | overrun (s : Fin (n + 1))
  | epochChanged (s : Fin (n + 1))
  | logged (s : Fin (n + 1)) (mark : Option Mark) (d : Data)
  | idle
  deriving DecidableEq

namespace Event

def bytes : Event n → List Byte
  | logged s mark d => (mark.elim [] (fun m => m.linePrefix s)) ++ d.text
  | idle => [cr, lf] ++ "---".toList.map pos
  | _ => []

def receivedOf (s : Fin (n + 1)) : Event n → Option Data
  | received s' d => if s' = s then some d else none
  | _ => none

def loggedOf (s : Fin (n + 1)) : Event n → Option Data
  | logged s' _ d => if s' = s then some d else none
  | _ => none

def isOutput : Event n → Bool
  | logged _ _ _ => true
  | idle => true
  | _ => false

end Event

/-- What has been put out in a history. -/
def output (trace : List (Event n)) : List Byte := trace.reverse.flatMap Event.bytes

/-- The message of a subject that has been logged last. -/
def predecessor (s : Fin (n + 1)) (trace : List (Event n)) : Option Data :=
  (trace.filterMap (Event.loggedOf s)).head?

/-- What has happened since a message of the subject has been logged. -/
def since (s : Fin (n + 1)) (trace : List (Event n)) : List (Event n) :=
  trace.takeWhile (fun e => (e.loggedOf s).isNone)

def Incomplete (s : Fin (n + 1)) (trace : List (Event n)) : Prop :=
  ∃ d, predecessor s trace = some d ∧ ¬ d.Terminated

def lastOutput (trace : List (Event n)) : Option (Event n) := (trace.filter Event.isOutput).head?

/-- The mark is the right one for a message of the subject after a history. A message without a line
prefix directly follows its predecessor. -/
structure Marked (before : List (Event n)) (s : Fin (n + 1)) (mark : Option Mark) : Prop where
  newEpoch : mark = some .newEpoch ↔ .epochChanged s ∈ since s before
  overrun : mark = some .overrun ↔ .overrun s ∈ since s before ∧ .epochChanged s ∉ since s before
  continuation : (mark = none ∨ mark = some .continuation) ↔
    Incomplete s before ∧ .overrun s ∉ since s before ∧ .epochChanged s ∉ since s before
  joined : mark = none → ∃ m d, lastOutput before = some (.logged s m d)

def cached (b : Buffer n) (s : Fin (n + 1)) : List Data :=
  if isMessagePresent (b.subjects s) then [(b.subjects s).cache] else []

/-! ### Sessions -/

inductive Action (n : Nat)
  | run (reads : Fin (n + 1) → Read)
  | setLogBufferState (id : Fin (n + 1)) (enabled : Bool)
  | setAllLogBufferState (enabled : Bool)
  | toggleLogBufferState (id : Fin (n + 1))
  | drain (size sent : Nat)

structure Session (n : Nat) where
  buffer : Buffer n
  queue : Queue
  taken : List Byte
  trace : List (Event n)

def banner : List Byte := "DBG-LOG>".toList.map pos

def Session.start : Session n where
  buffer := Buffers.initialized
  queue := appendString ByteQueue.initialized banner
  taken := []
  trace := []

/-- What reading from the channel of a subject shows to the server. -/
def readEvents (s : Fin (n + 1)) (sb : SubjectBuffer) (read : Read) : List (Event n) :=
  if sb.enabled && !isMessagePresent sb then
    match read.result with
    | .success => [.received s read.element]
    | .epochChanged => [.epochChanged s]
    | .overrunDetected => [.overrun s]
    | _ => []
  else
    []

def receivedEvents (b : Buffer n) (reads : Fin (n + 1) → Read) : List (Event n) :=
  (List.finRange (n + 1)).reverse.flatMap (fun s => readEvents s (b.subjects s) (reads s))

/-- The mark of the line prefix of the next message of a subject, if it gets one. -/
def lineMark (b : Buffer n) (s : Fin (n + 1)) : Option Mark :=
  let sb := b.subjects s
  if !sb.messageIncomplete || decide (b.lastSubject ≠ s) || sb.overrunOccurred || sb.newEpochOccurred || b.isIdle then
    some (markOf sb.overrunOccurred sb.newEpochOccurred sb.messageIncomplete)
  else
    none

/-- What the server puts out once it has filled its caches. -/
def outputEvents (b : Buffer n) (q : Queue) : List (Event n) :=
  let (s, messagePresent) := findOldestMessage b
  if messagePresent then
    if bytesFree q ≥ requiredMsgBytes then [.logged s (lineMark b s) (b.subjects s).cache] else []
  else
    if !b.isIdle && decide (bytesFree q ≥ 5) then [.idle] else []

/-- A sink peeks into a buffer of the given size while the queue is not empty and drops what it has sent. -/
def Session.drain (x : Session n) (size sent : Nat) : Session n :=
  if 0 < bytesUsed x.queue ∧ 0 < size then
    let (buffer, length) := peek x.queue size
    { x with queue := dropBytes x.queue (min sent length), taken := x.taken ++ buffer.take (min sent length) }
  else
    x

def Session.step (x : Session n) : Action n → Session n
  | .run reads =>
    { x with
      buffer := (Buffers.run x.buffer x.queue reads).1
      queue := (Buffers.run x.buffer x.queue reads).2
      trace := outputEvents (updateMessageBuffers x.buffer reads) x.queue ++ receivedEvents x.buffer reads ++ x.trace }
  | .setLogBufferState id enabled => { x with buffer := setLogBufferState x.buffer id enabled }
  | .setAllLogBufferState enabled => { x with buffer := setAllLogBufferState x.buffer enabled }
  | .toggleLogBufferState id => { x with buffer := toggleLogBufferState x.buffer id }
  | .drain size sent => x.drain size sent

end Muen.Components.Dbgserver
