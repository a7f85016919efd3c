import Muen.Tools.VresAlloc.Available
import Muen.Tools.Xml

/-!
# Mutools.Vres_Alloc

What the allocation of the virtual resources of components and that of subjects share: the kinds of resources, the
domains, the nodes that have them, and the allocation for a single node.
-/

namespace Muen.Tools.VresAlloc
open Muen.Lib Intervals Xml

inductive ResourceKind
  | virtualAddresses
  | writerEvents
  | readerVectors
deriving DecidableEq

def toDecimal (number : Unsigned64) : String := Nat.repr number.toNat

structure AddressAndSize where
  firstAddress : Unsigned64
  size : Unsigned64
deriving DecidableEq

/-- A map from logical names, which holds each name once. -/
abbrev Mapping := List (String × AddressAndSize)

/-- What the code rests on: `Unsigned_64'Value`, which may raise, the path of a node in a message, and the order in
which the elements of a map are visited. -/
structure Runtime where
  value : String → Option Unsigned64
  getXpath : Element → String
  elements : Mapping → List AddressAndSize
  value_toDecimal : ∀ n, value (toDecimal n) = some n
  elements_perm : ∀ mapping, (elements mapping).Perm (mapping.map Prod.snd)

/-! ### Config -/

structure Domains where
  vaSpaceNative : Interval
  vaSpaceVm : Interval
  vectorNumbers : Interval
  eventNumbers : Interval

/-- The domain of a kind of resources for a profile. -/
def Domains.domain (domains : Domains) (profile : String) : ResourceKind → Interval
  | .virtualAddresses => if profile = "native" then domains.vaSpaceNative else domains.vaSpaceVm
  | .writerEvents => domains.eventNumbers
  | .readerVectors => domains.vectorNumbers

/-- The paths in a component where a resource is read and written. -/
def cReadWriteTargets : ResourceKind → List Path
  | .virtualAddresses =>
    [["requires", "memory", "memory"], ["requires", "memory", "array"], ["requires", "channels", "reader"],
      ["requires", "channels", "writer"], ["requires", "channels", "array"]]
  | .readerVectors =>
    [["requires", "channels", ⟨"reader", .present "vector"⟩],
      ["requires", "channels", ⟨"array", .present "vectorBase"⟩]]
  | .writerEvents =>
    [["requires", "channels", ⟨"writer", .present "event"⟩], ["requires", "channels", ⟨"array", .present "eventBase"⟩]]

/-- The paths in a component where a resource is read in order to block it. -/
def cReadOnlyTargets : ResourceKind → List Path
  | .virtualAddresses => [["devices", "device", "memory"], ["provides", "memory", "memory"]]
  | .readerVectors => [["requires", "events", "target", ⟨"event", .parent "inject_interrupt"⟩]]
  | .writerEvents => [["requires", "events", "source", "event"]]

def isAligned (address size : Unsigned64) : Bool := address % 0x1000 = 0 ∧ size % 0x1000 = 0 ∧ size > 0

def isUnset (attrValue : String) : Bool := attrValue = "" ∨ attrValue = "auto"

/-- The nodes that are counted in an array. -/
def nameFilter : List String := ["reader", "writer", "memory"]

section Nodes

variable (r : Runtime)

def Runtime.unsigned64 (text : String) : Except Error Unsigned64 :=
  match r.value text with
  | some n => .ok n
  | none => .error .constraint

def getResourceSize (elem : Element) (kind : ResourceKind) : Except Error Unsigned64 :=
  let checkSize (size : String) : Except Error Unsigned64 :=
    if kind = .virtualAddresses then
      if size = "" then
        .error (.validation ("Could not find 'size'/'elementSize' attribute in node at '" ++ r.getXpath elem ++ "'"))
      else r.unsigned64 size
    else .ok 1
  if elem.tagName = "array" then checkSize (elem.getAttribute "elementSize")
  else checkSize (elem.getAttribute "size")

def getResourceValue (elem : Element) : ResourceKind → Except Error String
  | .virtualAddresses =>
    if elem.tagName = "memory" ∨ elem.tagName = "reader" ∨ elem.tagName = "writer" then
      .ok (elem.getAttribute "virtualAddress")
    else if elem.tagName = "array" then .ok (elem.getAttribute "virtualAddressBase")
    else .error (.validation ("Found unexpected node tag '" ++ elem.tagName ++
      "' when reading attribute value for virtual address"))
  | .readerVectors =>
    if elem.tagName = "reader" then .ok (elem.getAttribute "vector")
    else if elem.tagName = "array" then .ok (elem.getAttribute "vectorBase")
    else if elem.tagName = "event" then
      match elem.getUniqueElementChild "inject_interrupt" with
      | some child => .ok (child.getAttribute "vector")
      | none => .ok ""
    else .error (.validation ("Found unexpected node tag '" ++ elem.tagName ++
      "' when reading attribute value for reader event"))
  | .writerEvents =>
    if elem.tagName = "writer" then .ok (elem.getAttribute "event")
    else if elem.tagName = "array" then .ok (elem.getAttribute "eventBase")
    else if elem.tagName = "event" then .ok (elem.getAttribute "id")
    else .error (.validation ("Found unexpected node tag '" ++ elem.tagName ++
      "' when reading attribute value for writer event"))

end Nodes

/-- A round of the loop over the nodes to serve, with the values set before it. -/
def allocateRound (allocate : Available → Element → Except Error (Unsigned64 × Available))
    (s : Available × List (Element × Unsigned64)) (node : Element) :
    Except Error (Available × List (Element × Unsigned64)) := do
  let (value, av) ← allocate s.1 node
  .ok (av, s.2 ++ [(node, value)])

/-! ### What is reserved -/

lemma isAligned_iff {address size : Unsigned64} :
    isAligned address size = true ↔ address.toNat % 4096 = 0 ∧ size.toNat % 4096 = 0 ∧ 0 < size.toNat := by
  unfold isAligned
  rw [decide_eq_true_eq]
  bv_omega

/-- A node is served with an interval of its size, at the start of a page if it is an address. -/
structure Served (kind : ResourceKind) (occupied : Set Nat) (a : Unsigned64) (av av' : Available) : Prop where
  fits : occupied ⊆ av.free
  free : av'.free = av.free \ occupied
  aligned : kind = .virtualAddresses → PageClosed av.free →
    PageClosed av'.free ∧ (occupied.Nonempty → a.toNat % 4096 = 0)

variable {r : Runtime}

section Assigned

variable {kind : ResourceKind} {occupied : Element × Unsigned64 → Set Nat} {domain : Set Nat}

variable (kind occupied) in
/-- The nodes that have been served, with what is left of the domain. -/
structure Assigned (domain : Set Nat) (s : Available × List (Element × Unsigned64)) (done : List Element) :
    Prop where
  allocation : Allocation occupied domain s.1 s.2
  nodes : s.2.map Prod.fst = done
  closed : kind = .virtualAddresses → PageClosed s.1.free
  aligned : kind = .virtualAddresses → ∀ x ∈ s.2, (occupied x).Nonempty → x.2.toNat % 4096 = 0

lemma Assigned.node {s : Available × List (Element × Unsigned64)} {done : List Element} {node : Element}
    {a : Unsigned64} {av : Available} (h : Assigned kind occupied domain s done)
    (hserved : Served kind (occupied (node, a)) a s.1 av) :
    Assigned kind occupied domain (av, s.2 ++ [(node, a)]) (done ++ [node]) := by
  refine ⟨h.allocation.add hserved.fits hserved.free, ?_, ?_, ?_⟩
  · rw [List.map_append, h.nodes]
    rfl
  · exact fun hkind => (hserved.aligned hkind (h.closed hkind)).1
  · intro hkind x hx hne
    rcases List.mem_append.mp hx with hx | hx
    · exact h.aligned hkind x hx hne
    · obtain rfl := List.mem_singleton.mp hx
      exact (hserved.aligned hkind (h.closed hkind)).2 hne

lemma Assigned.nodeList {allocate : Available → Element → Except Error (Unsigned64 × Available)}
    {nodeList done : List Element} {s s' : Available × List (Element × Unsigned64)}
    (hs : Assigned kind occupied domain s done)
    (hserved : ∀ node ∈ nodeList, ∀ av a av', allocate av node = .ok (a, av') →
      Served kind (occupied (node, a)) a av av')
    (h : nodeList.foldlM (allocateRound allocate) s = .ok s') :
    Assigned kind occupied domain s' (done ++ nodeList) := by
  induction nodeList generalizing s done with
  | nil =>
    obtain rfl := Except.ok.inj h
    rw [List.append_nil]
    exact hs
  | cons node nodeList ih =>
    rw [List.foldlM_cons] at h
    obtain ⟨s₁, hround, hrest⟩ := bind_eq_ok h
    obtain ⟨⟨a, av⟩, hallocate, hround⟩ := bind_eq_ok hround
    obtain rfl := Except.ok.inj hround
    have hnext := hs.node (hserved node List.mem_cons_self s.1 a av hallocate)
    have hall := ih hnext (fun d hd => hserved d (List.mem_cons_of_mem node hd)) hrest
    rwa [List.append_assoc, List.singleton_append] at hall

end Assigned

end Muen.Tools.VresAlloc
