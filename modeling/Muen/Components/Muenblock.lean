import Muen.Lib.Literals
import Mathlib.Data.BitVec

/-!
# Muenblock

Requests and responses of the block protocol. All fields of a request are chosen by the client.
-/

namespace Muen.Components.Muenblock

abbrev Unsigned16 := BitVec 16
abbrev Unsigned32 := BitVec 32
abbrev Unsigned64 := BitVec 64

/-- `Request_Kind_Type`, of which only some values have a name. -/
abbrev RequestKind := Unsigned16

instance : LawfulBEq RequestKind := inferInstance

namespace RequestKind

def none : RequestKind := 0x0000
def read : RequestKind := 0x0001
def write : RequestKind := 0x0002
def discard : RequestKind := 0x0003
def sync : RequestKind := 0x0004
def getSmart : RequestKind := 0x0005
def mediaBlocks : RequestKind := 0x0010
def blockLength : RequestKind := 0x0011
def maxBlocksCount : RequestKind := 0x001a
def maxDevices : RequestKind := 0x001b
def reset : RequestKind := 0x001f

end RequestKind

/-- `Block_Request_Type`. -/
structure BlockRequest where
  requestKind : RequestKind
  deviceId : Unsigned16
  requestTag : Unsigned32
  requestLength : Unsigned64
  deviceOffset : Unsigned64
  bufferOffset : Unsigned64
  deriving DecidableEq

/-- `Block_Response_Type`. -/
structure BlockResponse where
  requestKind : RequestKind
  deviceId : Unsigned16
  requestTag : Unsigned32
  statusCode : Unsigned64
  deriving DecidableEq

end Muen.Components.Muenblock
