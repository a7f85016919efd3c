import Muen.Tools.Mucfgcheck.Checks

/-!
# Mucfgcheck.Device: interrupts

Names tell the interrupts of the hardware apart, and no two that are assigned to subjects have the same number.
-/

namespace Muen.Tools.Mucfgcheck.Devices

open Scheduling (img)
open SystemPolicy

variable (value : String → Option ℕ) (d : Document)

def physicalDeviceNameUniqueness : Option (List String) :=
  uniqueTexts id (fun left _ => "Multiple physical devices, aliases or classes with name '" ++ left ++ "'")
    (d.devices.map Device.name ++ d.aliases)

def deviceIRQNameUniqueness : Option (List String) :=
  checkEach (fun device : Device =>
    if device.irqs.length > 1 then
      uniqueTexts Irq.name (fun left _ => "Device '" ++ device.name ++ "' has multiple IRQs with name '" ++ left.name ++
        "'") device.irqs
    else some []) d.devices

/-- The error of two assigned interrupts with the same number. -/
def checkIRQInequality (left right : Device × Irq) : Option (List String) :=
  differentNumbers value (fun x : Device × Irq => x.2.number) (fun left right number =>
    if left.1.name = right.1.name ∧ left.2.name = right.2.name then
      "Multiple assignment of IRQ '" ++ left.1.name ++ "->" ++ left.2.name ++ "'"
    else "Devices '" ++ left.1.name ++ "' and '" ++ right.1.name ++ "' share IRQ" ++ img number) left right

def physicalIRQUniqueness : Option (List String) :=
  if d.irqs.length < 2 then some [] else comparePairs (checkIRQInequality value) (d.irqs.map Prod.snd)

variable {value d}

lemma physicalDeviceNameUniqueness_nil (h : physicalDeviceNameUniqueness d = some []) :
    (d.devices.map Device.name).Nodup := by
  have hnodup := uniqueTexts_nil h
  rw [List.map_id_fun, id] at hnodup
  exact (List.nodup_append.mp hnodup).1

lemma deviceIRQNameUniqueness_nil (h : deviceIRQNameUniqueness d = some []) {device : Device}
    (hdevice : device ∈ d.devices) : (device.irqs.map Irq.name).Nodup :=
  nodup_of_several (checkEach_nil h device hdevice) uniqueTexts_nil

lemma physicalIRQUniqueness_nil (h : physicalIRQUniqueness value d = some []) :
    (d.irqs.map fun x => natural value x.2.2.number).Nodup := by
  by_cases hlength : d.irqs.length < 2
  · exact nodup_of_short _ (by omega)
  · rw [physicalIRQUniqueness, if_neg hlength] at h
    have hnodup := nodup_of_differentNumbers fun _ _ hpair => comparePairs_nil h hpair
    rw [List.map_map] at hnodup
    exact hnodup

end Muen.Tools.Mucfgcheck.Devices
