import Mathlib.Data.BitVec

/-!
# Subject initialization

`Init.Run.Initialize` of a managed subject. It reads the command page that the controller writes and writes the
state in its own status page; between these accesses nothing else of it can be seen from outside.
-/

namespace Muen.Components.Controller

/-- `Mucontrol.Command.Command_Type`. -/
abbrev Command := BitVec 64

namespace Command

def nop : Command := 0x0000
def sync : Command := 0x0001
def erase : Command := 0x0002
def prepare : Command := 0x0003
def validate : Command := 0x0004
def run : Command := 0x0005
def selfCtrl : Command := 0xFFFFFFFFFFFFFFFF

end Command

/-- `Mucontrol.Status.State_Type`. -/
abbrev SubjectState := BitVec 64

namespace SubjectState

def initial : SubjectState := 0x0000
def synced : SubjectState := 0x0001
def erasing : SubjectState := 0x0002
def erased : SubjectState := 0x0003
def preparing : SubjectState := 0x0004
def prepared : SubjectState := 0x0005
def validating : SubjectState := 0x0006
def validated : SubjectState := 0x0007
def initializing : SubjectState := 0x0008
def finished : SubjectState := 0x000a
def error : SubjectState := 0x8000000000000000

end SubjectState

/-- The places of `Initialize` between its accesses to the command page and the status page, and its
operations on memory. -/
inductive Place
  | statusInitialize
  | checkInfo
  | waitForSync
  | setSynced
  | waitForEraseOrPrepare
  | setErasing
  | clearWritable
  | setErased
  | waitForPrepare
  | setPreparing
  | setupWritable
  | setPrepared
  | waitForValidate
  | setValidating
  | checkHashes
  | setValidated
  | waitForRun
  | setInitializing
  | error
  | returned (success : Bool)
  deriving DecidableEq

/-- What an incarnation of a subject has done: a command that it acted on, or an operation on memory with its
success. -/
inductive Action
  | received (cmd : Command)
  | clearWritable
  | setupWritable (success : Bool)
  | checkHashes (success : Bool)
  deriving DecidableEq

/-- A round of `Wait_For_Next` with the test of the command behind it. -/
def waitForNext (here : Place) (last expected : Command) (next : Place) (cmd : Command) : Place :=
  if cmd = last then here
  else if cmd = expected ∨ cmd = Command.selfCtrl then next
  else .error

namespace Place

/-- The place behind a step that reads the command `cmd`, or in which an operation has the outcome. -/
def next (cmd : Command) (outcome : Bool) : Place → Place
  | .statusInitialize => .checkInfo
  | .checkInfo => if outcome then .waitForSync else .error
  | .waitForSync => waitForNext .waitForSync Command.nop Command.sync .setSynced cmd
  | .setSynced => .waitForEraseOrPrepare
  | .waitForEraseOrPrepare =>
    if cmd = Command.erase then .setErasing
    else waitForNext .waitForEraseOrPrepare Command.sync Command.prepare .setPreparing cmd
  | .setErasing => .clearWritable
  | .clearWritable => .setErased
  | .setErased => .waitForPrepare
  | .waitForPrepare => waitForNext .waitForPrepare Command.erase Command.prepare .setPreparing cmd
  | .setPreparing => .setupWritable
  | .setupWritable => if outcome then .setPrepared else .error
  | .setPrepared => .waitForValidate
  | .waitForValidate => waitForNext .waitForValidate Command.prepare Command.validate .setValidating cmd
  | .setValidating => .checkHashes
  | .checkHashes => if outcome then .setValidated else .error
  | .setValidated => .waitForRun
  | .waitForRun => waitForNext .waitForRun Command.validate Command.run .setInitializing cmd
  | .setInitializing => .returned true
  | .error => .returned false
  | .returned success => .returned success

/-- The status behind a step. -/
def writeStatus (status : SubjectState) : Place → SubjectState
  | .statusInitialize => SubjectState.initial
  | .setSynced => SubjectState.synced
  | .setErasing => SubjectState.erasing
  | .setErased => SubjectState.erased
  | .setPreparing => SubjectState.preparing
  | .setPrepared => SubjectState.prepared
  | .setValidating => SubjectState.validating
  | .setValidated => SubjectState.validated
  | .setInitializing => SubjectState.initializing
  | .error => status ||| SubjectState.error
  | _ => status

/-- A wait for a command. -/
def Waits (p : Place) : Prop :=
  p = .waitForSync ∨ p = .waitForEraseOrPrepare ∨ p = .waitForPrepare ∨ p = .waitForValidate ∨ p = .waitForRun

instance (p : Place) : Decidable p.Waits := inferInstanceAs (Decidable (_ ∨ _))

/-- What is recorded for a step. -/
def actions (cmd : Command) (outcome : Bool) (p : Place) : List Action :=
  if p.Waits then (if p.next cmd outcome = p then [] else [.received cmd])
  else match p with
    | .clearWritable => [.clearWritable]
    | .setupWritable => [.setupWritable outcome]
    | .checkHashes => [.checkHashes outcome]
    | _ => []

end Place

end Muen.Components.Controller
