import Muen.Tools.VresAlloc.SubjectAllocation
import Mathlib.Order.CompletePartialOrder

/-!
# Allocations are disjoint

What a component and a subject are allocated, by the kind of resource. Memory that a component declares for a device or
provides itself is not looked at, and products and sums of 64-bit numbers may wrap around.
-/

namespace Muen.Tools.VresAlloc
open Muen.Lib Intervals Xml

lemma mem_of_lookup {mapping : Mapping} {k : String} {item : AddressAndSize} (h : mapping.lookup k = some item) :
    item ∈ mapping.map Prod.snd := by
  obtain ⟨before, after, rfl, -⟩ := List.lookup_eq_some_iff.mp h
  simp

section

variable (r : Runtime) (sizes : Sizes) (kind : ResourceKind)

variable {r sizes kind}

end

/-! ### A component with a device -/

def lowNode : Element :=
  .mk "memory" [("logical", "mmio"), ("size", "16#1000#"), ("virtualAddress", "16#1000#")] []

/-- A region behind that of the stack, at 16#0001_0000_1000#. -/
def secondNode : Element :=
  .mk "memory" [("logical", "buffer"), ("size", "16#1000#"), ("virtualAddress", "4294971392")] []

/-- A component with all of its resources set. -/
def driverComponent : Element :=
  .mk "component" [("name", "driver"), ("profile", "native")]
    [.mk "requires" []
      [.mk "memory" [] [secondNode], .mk "devices" [] [.mk "device" [("logical", "device")] [lowNode]]]]

def driverPolicy : Element := .mk "system" [] [.mk "components" [] [driverComponent]]

end Muen.Tools.VresAlloc
