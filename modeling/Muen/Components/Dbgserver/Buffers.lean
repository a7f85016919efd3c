import Mathlib.Data.List.FinRange
import Muen.Components.Dbgserver.ByteQueue

/-!
# The log buffers of the debug server

The server caches one message of each log channel. A cache without a message holds a time stamp that no
message has. Whenever it runs, it fills the empty caches of the enabled channels and moves the oldest
cached message to the output queue when there is room for any message with its line prefix.
-/

namespace Muen.Components.Dbgserver

abbrev Message := Vector Byte 56

structure Data where
  timestamp : BitVec 64
  message : Message
  deriving DecidableEq

/-- What reading from a channel results in. -/
inductive Result
  | inactive
  | incompatibleInterface
  | epochChanged
  | noData
  | overrunDetected
  | success
  deriving DecidableEq

structure SubjectBuffer where
  cache : Data
  messageIncomplete : Bool
  overrunOccurred : Bool
  newEpochOccurred : Bool
  enabled : Bool

/-- The buffers of at least one log channel. -/
structure Buffer (n : Nat) where
  subjects : Fin (n + 1) → SubjectBuffer
  isIdle : Bool
  lastSubject : Fin (n + 1)

namespace Buffers

def nul : Byte := 0

def lf : Byte := 10

def cr : Byte := 13

def nullMessage : Message := Vector.replicate 56 nul

def timestampInvalid : BitVec 64 := BitVec.allOnes 64

/-- CR/LF, the line prefix and the message. -/
def requiredMsgBytes : Nat := 2 + 9 + 56

/-- What a read from a channel returns. No message carries the time stamp of an empty cache. -/
structure Read where
  element : Data
  result : Result
  valid : result = .success → element.timestamp ≠ timestampInvalid

/-! ### Formatting -/

def pos (c : Char) : Byte := BitVec.ofNat 8 c.toNat

def appendCharacter (q : Queue) (item : Byte) : Queue := ByteQueue.append q item

def appendString (q : Queue) (item : List Byte) : Queue := item.foldl appendCharacter q

def appendNewLine (q : Queue) : Queue := appendCharacter (appendCharacter q cr) lf

def toCharacter : Nat → Char
  | 0x0 => '0'
  | 0x1 => '1'
  | 0x2 => '2'
  | 0x3 => '3'
  | 0x4 => '4'
  | 0x5 => '5'
  | 0x6 => '6'
  | 0x7 => '7'
  | 0x8 => '8'
  | 0x9 => '9'
  | 0xa => 'a'
  | 0xb => 'b'
  | 0xc => 'c'
  | 0xd => 'd'
  | 0xe => 'e'
  | 0xf => 'f'
  | _ => '?'

/-- The digits of a number are written from the last place of a string of zeros on. -/
def imgLoop : Nat → Nat → List Char → List Char
  | 0, _, written => written
  | k + 1, temp, written =>
    if temp / 16 = 0 then
      List.replicate k '0' ++ toCharacter (temp % 16) :: written
    else
      imgLoop k (temp / 16) (toCharacter (temp % 16) :: written)

def img (item : BitVec 16) : List Byte :=
  ("16#".toList ++ (imgLoop 16 item.toNat []).drop 12 ++ "#".toList).map pos

example : img 0x1f3 = "16#01f3#".toList.map pos := by decide

variable {n : Nat}

/-- The number of a subject in the policy. Subjects are counted from one. -/
def subjectNumber (subject : Fin (n + 1)) : BitVec 16 := BitVec.ofNat 16 (subject.val + 1)

def addLinePrefix (subject : Fin (n + 1)) (overrun newEpoch continuation : Bool) (q : Queue) : Queue :=
  let q := appendNewLine q
  let q := appendString q (img (subjectNumber subject))
  if newEpoch then appendCharacter q (pos '%')
  else if overrun then appendCharacter q (pos '#')
  else if continuation then appendCharacter q (pos '>')
  else appendCharacter q (pos '|')

/-- The loop of `Add_Message`: the queue, and the character at which it ends. -/
def addMessageLoop : List Byte → Byte → Queue → Queue × Byte
  | [], char, q => (q, char)
  | c :: cs, _, q => if c = lf ∨ c = nul then (q, c) else addMessageLoop cs c (appendCharacter q c)

def addMessage (sb : SubjectBuffer) (q : Queue) : SubjectBuffer × Queue :=
  let (q, char) := addMessageLoop sb.cache.message.toList nul q
  ({ sb with messageIncomplete := char ≠ lf }, q)

/-! ### Buffers -/

def initialized : Buffer n where
  subjects := fun _ => ⟨⟨timestampInvalid, nullMessage⟩, false, false, false, true⟩
  isIdle := false
  lastSubject := 0

def isMessagePresent (sb : SubjectBuffer) : Bool := sb.cache.timestamp ≠ timestampInvalid

def markAsLogged (sb : SubjectBuffer) : SubjectBuffer :=
  { sb with cache := { sb.cache with timestamp := timestampInvalid } }

/-- The loop of `Find_Oldest_Message` with the candidate so far. -/
def findOldestLoop (b : Buffer n) :
    List (Fin (n + 1)) → BitVec 64 → Fin (n + 1) × Bool → Fin (n + 1) × Bool
  | [], _, found => found
  | s :: ss, candidate, found =>
    if (b.subjects s).cache.timestamp < candidate then
      findOldestLoop b ss (b.subjects s).cache.timestamp (s, true)
    else
      findOldestLoop b ss candidate found

def findOldestMessage (b : Buffer n) : Fin (n + 1) × Bool :=
  findOldestLoop b (List.finRange (n + 1)) timestampInvalid (0, false)

def idleMark (b : Buffer n) (q : Queue) : Buffer n × Queue :=
  if !b.isIdle && decide (ByteQueue.bytesFree q ≥ 5) then
    ({ b with isIdle := true }, appendString (appendNewLine q) ("---".toList.map pos))
  else
    (b, q)

def logMessage (b : Buffer n) (subject : Fin (n + 1)) (q : Queue) : Buffer n × Queue :=
  if ByteQueue.bytesFree q ≥ requiredMsgBytes then
    let sb := b.subjects subject
    let q :=
      if !sb.messageIncomplete || decide (b.lastSubject ≠ subject) || sb.overrunOccurred || sb.newEpochOccurred ||
          b.isIdle then
        addLinePrefix subject sb.overrunOccurred sb.newEpochOccurred sb.messageIncomplete q
      else
        q
    let (sb, q) := addMessage sb q
    let sb := { markAsLogged sb with overrunOccurred := false, newEpochOccurred := false }
    ({ subjects := Function.update b.subjects subject sb, isIdle := false, lastSubject := subject }, q)
  else
    (b, q)

def logOldestMessage (b : Buffer n) (q : Queue) : Buffer n × Queue :=
  let (subject, messagePresent) := findOldestMessage b
  if messagePresent then logMessage b subject q else idleMark b q

def updateMessageBuffer (sb : SubjectBuffer) (read : Read) : SubjectBuffer :=
  if isMessagePresent sb then
    sb
  else
    let sb := { sb with cache := read.element }
    let sb :=
      if read.result = .epochChanged then { sb with newEpochOccurred := true }
      else if read.result = .overrunDetected then { sb with overrunOccurred := true }
      else sb
    if read.result ≠ .success then { sb with cache := ⟨timestampInvalid, nullMessage⟩ } else sb

def updateMessageBuffers (b : Buffer n) (reads : Fin (n + 1) → Read) : Buffer n :=
  { b with
    subjects := fun s =>
      if (b.subjects s).enabled then updateMessageBuffer (b.subjects s) (reads s) else b.subjects s }

/-- The reads are what the channels return in case they are read. -/
def run (b : Buffer n) (q : Queue) (reads : Fin (n + 1) → Read) : Buffer n × Queue :=
  logOldestMessage (updateMessageBuffers b reads) q

def setLogBufferState (b : Buffer n) (id : Fin (n + 1)) (enabled : Bool) : Buffer n :=
  { b with subjects := Function.update b.subjects id { b.subjects id with enabled := enabled } }

def setAllLogBufferState (b : Buffer n) (enabled : Bool) : Buffer n :=
  (List.finRange (n + 1)).foldl (fun b id => setLogBufferState b id enabled) b

def toggleLogBufferState (b : Buffer n) (id : Fin (n + 1)) : Buffer n :=
  { b with subjects := Function.update b.subjects id { b.subjects id with enabled := !(b.subjects id).enabled } }

end Buffers

end Muen.Components.Dbgserver
