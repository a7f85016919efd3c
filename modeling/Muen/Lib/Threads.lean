import Muen.Lib.Atomic
import Mathlib.Logic.Equiv.Defs

/-!
# Threads over shared state

`Prog.Guarantees` says what every step of a program does to the state, when between its steps others change the state
as the program can rely on. `Threads` runs programs side by side, each on a state of its own and a state that they
share; what their programs guarantee then holds of every step of every interleaving.
-/

namespace Muen.Lib

open Relation

namespace Prog

variable {L σ α β : Type}

/-- While the state changes as `R` allows between the steps, each step changes it as `G` allows, and a result has `Q`
together with the state in which it is returned. -/
def Guarantees (R G : σ → σ → Prop) : Prog L σ α → (α → σ → Prop) → σ → Prop
  | done a, Q, s => Q a s
  | halt, _, _ => True
  | step _ u k, Q, s => ∀ s', R s s' → G s' (u s') ∧ Guarantees R G (k s') Q (u s')

variable {R G : σ → σ → Prop}

lemma Guarantees.imp {p : Prog L σ α} {Q Q' : α → σ → Prop} {s : σ} (h : p.Guarantees R G Q s)
    (hQ : ∀ a s', Q a s' → Q' a s') : p.Guarantees R G Q' s := by
  induction p generalizing s with
  | done a => exact hQ a s h
  | halt => trivial
  | step l u k ih => exact fun s' hs => ⟨(h s' hs).1, ih s' (h s' hs).2⟩

lemma Guarantees.weaken {G' : σ → σ → Prop} {p : Prog L σ α} {Q : α → σ → Prop} {s : σ}
    (h : p.Guarantees R G Q s) (hG : ∀ s s', G s s' → G' s s') : p.Guarantees R G' Q s := by
  induction p generalizing s with
  | done a => exact h
  | halt => trivial
  | step l u k ih => exact fun s' hs => ⟨hG _ _ (h s' hs).1, ih s' (h s' hs).2⟩

lemma Guarantees.bind {p : Prog L σ α} {f : α → Prog L σ β} {Q : α → σ → Prop} {Q' : β → σ → Prop} {s : σ}
    (h : p.Guarantees R G Q s) (hf : ∀ a s', Q a s' → (f a).Guarantees R G Q' s') :
    (p >>= f).Guarantees R G Q' s := by
  induction p generalizing s with
  | done a => exact hf a s h
  | halt => trivial
  | step l u k ih => exact fun s' hs => ⟨(h s' hs).1, ih s' (h s' hs).2⟩

lemma Guarantees.stable (htrans : ∀ a b c, R a b → R b c → R a c) {p : Prog L σ α} {Q : α → σ → Prop}
    (hQ : ∀ a s s', R s s' → Q a s → Q a s') {s s' : σ} (hs : R s s') (h : p.Guarantees R G Q s) :
    p.Guarantees R G Q s' := by
  cases p with
  | done a => exact hQ a s s' hs h
  | halt => trivial
  | step l u k => exact fun s'' hs' => h s'' (htrans s s' s'' hs hs')

/-- From a state with `J` the steps of the program are as `G` allows, and it returns in such a state a result with
`Q`. -/
def Upholds (R G : σ → σ → Prop) (J : σ → Prop) (p : Prog L σ α) (Q : α → Prop) : Prop :=
  ∀ s, J s → p.Guarantees R G (fun a s' => J s' ∧ Q a) s

variable {J : σ → Prop}

lemma Upholds.bind {p : Prog L σ α} {f : α → Prog L σ β} {Q : α → Prop} {Q' : β → Prop} (h : p.Upholds R G J Q)
    (hf : ∀ a, Q a → (f a).Upholds R G J Q') : (p >>= f).Upholds R G J Q' :=
  fun s hs => (h s hs).bind fun a s' ha => hf a ha.2 s' ha.1

lemma upholds_pure {a : α} {Q : α → Prop} (h : Q a) : (pure a : Prog L σ α).Upholds R G J Q := fun _ hs => ⟨hs, h⟩

lemma upholds_halt {Q : α → Prop} : (halt : Prog L σ α).Upholds R G J Q := fun _ _ => trivial

section Stable

variable (hJ : ∀ s s', R s s' → J s → J s')

include hJ

lemma upholds_modify {l : L} {u : σ → σ} {Q : Unit → Prop} (hu : ∀ s, J s → J (u s) ∧ G s (u s)) (h : Q ()) :
    (modify l u).Upholds R G J Q := by
  intro s hs s' hs'
  have hkept := hu s' (hJ s s' hs' hs)
  exact ⟨hkept.2, hkept.1, h⟩

variable (hG : ∀ s, G s s)

include hG

lemma upholds_read {l : L} {f : σ → α} {Q : α → Prop} (h : ∀ s, J s → Q (f s)) : (read l f).Upholds R G J Q := by
  intro s hs s' hs'
  have hkept := hJ s s' hs' hs
  exact ⟨hG s', hkept, h s' hkept⟩

omit hJ in
lemma upholds_fail {l : L} {Q : α → Prop} : (fail l : Prog L σ α).Upholds R G J Q := fun _ _ s' _ => ⟨hG s', trivial⟩

omit hJ in
lemma upholds_require {l : L} {o : Option α} {Q : α → Prop} (h : ∀ a, o = some a → Q a) :
    (require l o).Upholds R G J Q := by
  cases o with
  | none => exact upholds_fail hG
  | some a => exact upholds_pure (h a rfl)

lemma upholds_attempt {l failed : L} {f : σ → Option σ} {Q : Unit → Prop}
    (hf : ∀ s s', J s → f s = some s' → J s' ∧ G s s') (h : Q ()) : (attempt l failed f).Upholds R G J Q := by
  intro s hs s' hs'
  have hkept := hJ s s' hs' hs
  cases hfs : f s' with
  | none =>
    simp only [hfs, Option.getD_none, Option.isSome_none, Bool.false_eq_true, if_false]
    exact ⟨hG s', upholds_fail hG s' hkept⟩
  | some s'' =>
    simp only [hfs, Option.getD_some, Option.isSome_some, if_true]
    have hchange := hf s' s'' hkept hfs
    exact ⟨hchange.2, hchange.1, h⟩

end Stable

end Prog

/-- Programs for operations of threads, with the state of a thread as its own part and the shared one. A thread that
runs no program may change these parts as well, and so may the environment the shared one. -/
structure Threads (ι Op L Λ S σ : Type) where
  view : σ ≃ Λ × S
  prog : ι → Op → Prog L σ Unit
  idle : ι → Λ × S → Λ × S → Prop
  environment : S → S → Prop

namespace Threads

variable {ι Op L Λ S σ : Type} [DecidableEq ι] (T : Threads ι Op L Λ S σ)

/-- The rest of the program that each thread runs, if any, with its own state, and the shared state. -/
structure Config (_ : Threads ι Op L Λ S σ) where
  threads : ι → Option (Prog L σ Unit) × Λ
  shared : S

variable {T}

def Config.set (c : T.Config) (i : ι) (program : Option (Prog L σ Unit)) (own : Λ) (shared : S) : T.Config :=
  ⟨Function.update c.threads i (program, own), shared⟩

@[simp] lemma Config.set_self (c : T.Config) (i : ι) (program : Option (Prog L σ Unit)) (own : Λ) (shared : S) :
    (c.set i program own shared).threads i = (program, own) := Function.update_self ..

lemma Config.set_other (c : T.Config) {i j : ι} (hj : j ≠ i) (program : Option (Prog L σ Unit)) (own : Λ)
    (shared : S) : (c.set i program own shared).threads j = c.threads j := Function.update_of_ne hj ..

@[simp] lemma Config.set_set (c : T.Config) (i : ι) (p p' : Option (Prog L σ Unit)) (own own' : Λ) (x x' : S) :
    (c.set i p own x).set i p' own' x' = c.set i p' own' x' := by
  unfold Config.set
  rw [Function.update_idem]

/-- A step of a thread, or of the environment. -/
inductive Step : Option ι → T.Config → T.Config → Prop
  | start {c : T.Config} {i : ι} (op : Op) : (c.threads i).1 = none →
      Step (some i) c (c.set i (some (T.prog i op)) (c.threads i).2 c.shared)
  | atomic {c : T.Config} {i : ι} {l : L} {u : σ → σ} {k : σ → Prog L σ Unit} {s : σ} :
      (c.threads i).1 = some (.step l u k) → s = T.view.symm ((c.threads i).2, c.shared) →
      Step (some i) c (c.set i (some (k s)) (T.view (u s)).1 (T.view (u s)).2)
  | finish {c : T.Config} {i : ι} : (c.threads i).1 = some (.done ()) →
      Step (some i) c (c.set i none (c.threads i).2 c.shared)
  | idle {c : T.Config} {i : ι} {own : Λ} {shared : S} : (c.threads i).1 = none →
      T.idle i ((c.threads i).2, c.shared) (own, shared) → Step (some i) c (c.set i none own shared)
  | environment {c : T.Config} {shared : S} : T.environment c.shared shared → Step none c ⟨c.threads, shared⟩

/-- The interleavings of the threads that are allowed to make steps. -/
def Runs (among : Option ι → Prop) : T.Config → T.Config → Prop :=
  ReflTransGen fun c c' => ∃ i, among i ∧ Step i c c'

/-- `J` of the own state, and `I` of the shared one. -/
def Relied (T : Threads ι Op L Λ S σ) (J : ι → Λ → Prop) (I : S → Prop) (i : ι) (s : σ) : Prop :=
  J i (T.view s).1 ∧ I (T.view s).2

/-- What the others do to the state that a thread sees: they leave its own part alone, and keep `I` of the shared
one. -/
def Interferes (T : Threads ι Op L Λ S σ) (I : S → Prop) (s s' : σ) : Prop :=
  (T.view s').1 = (T.view s).1 ∧ (I (T.view s).2 → I (T.view s').2)

/-- What a program of a thread does to the shared state. -/
def Granted (T : Threads ι Op L Λ S σ) (G : ι → S → S → Prop) (i : ι) (s s' : σ) : Prop :=
  G i (T.view s).2 (T.view s').2

variable {J : ι → Λ → Prop} {I : S → Prop} {G : ι → S → S → Prop}

omit [DecidableEq ι] in
lemma Relied.stable {i : ι} {s s' : σ} (h : T.Relied J I i s) (hs : T.Interferes I s s') : T.Relied J I i s' :=
  ⟨hs.1.symm ▸ h.1, hs.2 h.2⟩

omit [DecidableEq ι] in
lemma Interferes.trans {s s' s'' : σ} (h : T.Interferes I s s') (h' : T.Interferes I s' s'') :
    T.Interferes I s s'' :=
  ⟨h'.1.trans h.1, fun hI => h'.2 (h.2 hI)⟩

variable (T) in
/-- The rest of a program of a thread that has been started with `J`. -/
def Proceeds (J : ι → Λ → Prop) (I : S → Prop) (G : ι → S → S → Prop) (i : ι) (p : Prog L σ Unit) : σ → Prop :=
  p.Guarantees (T.Interferes I) (T.Granted G i) fun _ => T.Relied J I i

variable (T) in
/-- The programs and the idle threads keep `J` of the own state and change the shared one as `G` allows, which keeps
`I` of it. -/
structure Sound (J : ι → Λ → Prop) (I : S → Prop) (G : ι → S → S → Prop) : Prop where
  prog : ∀ i op s, T.Relied J I i s → T.Proceeds J I G i (T.prog i op) s
  idle : ∀ i x y, J i x.1 → I x.2 → T.idle i x y → J i y.1 ∧ G i x.2 y.2
  environment : ∀ x y, I x → T.environment x y → I y
  keeps : ∀ i x y, I x → G i x y → I y
  refl : ∀ i x, G i x x

/-- The threads that run no program have `J`, the others proceed, and the shared state has `I`. -/
structure Kept (J : ι → Λ → Prop) (I : S → Prop) (G : ι → S → S → Prop) (c : T.Config) : Prop where
  own : ∀ i, (c.threads i).1 = none → J i (c.threads i).2
  program : ∀ i p, (c.threads i).1 = some p →
    T.Proceeds J I G i p (T.view.symm ((c.threads i).2, c.shared))
  shared : I c.shared

omit [DecidableEq ι] in
lemma Proceeds.stable {i : ι} {p : Prog L σ Unit} {s s' : σ} (h : T.Proceeds J I G i p s) (hs : T.Interferes I s s') :
    T.Proceeds J I G i p s' :=
  Prog.Guarantees.stable (fun _ _ _ h h' => h.trans h') (fun _ _ _ h hQ => hQ.stable h) hs h

omit [DecidableEq ι] in
lemma interferes_shared {own : Λ} {x y : S} (h : I x → I y) :
    T.Interferes I (T.view.symm (own, x)) (T.view.symm (own, y)) := by
  constructor
  · rw [Equiv.apply_symm_apply, Equiv.apply_symm_apply]
  · rw [Equiv.apply_symm_apply, Equiv.apply_symm_apply]
    exact h

lemma Kept.set {c : T.Config} (hc : Kept J I G c) {i : ι} {program : Option (Prog L σ Unit)} {own : Λ} {shared : S}
    (hown : program = none → J i own) (hshared : I shared)
    (hprogram : ∀ p, program = some p → T.Proceeds J I G i p (T.view.symm (own, shared))) :
    Kept J I G (c.set i program own shared) := by
  refine ⟨?_, ?_, hshared⟩
  · intro j
    by_cases hj : j = i
    · rw [hj, Config.set_self]
      exact hown
    · rw [c.set_other hj]
      exact hc.own j
  · intro j p
    by_cases hj : j = i
    · rw [hj, Config.set_self]
      exact hprogram p
    · rw [c.set_other hj]
      exact fun hp => (hc.program j p hp).stable (interferes_shared fun _ => hshared)

/-- What a step does. -/
lemma Step.sound {c c' : T.Config} {o : Option ι} (hT : T.Sound J I G) (hstep : Step o c c') (hc : Kept J I G c) :
    Kept J I G c' ∧ (∀ i, o = some i → G i c.shared c'.shared) ∧ (o = none → T.environment c.shared c'.shared) := by
  cases hstep with
  | @start _ i op hidle =>
    refine ⟨hc.set nofun hc.shared ?_, ?_, nofun⟩
    · intro p hp
      obtain rfl := Option.some.inj hp
      apply hT.prog i op
      unfold Relied
      rw [Equiv.apply_symm_apply]
      exact ⟨hc.own i hidle, hc.shared⟩
    · intro j _
      exact hT.refl j c.shared
  | @atomic _ i l u k s hprogram hs =>
    have hview : T.view s = ((c.threads i).2, c.shared) := by rw [hs, Equiv.apply_symm_apply]
    have hproceeds := hc.program i _ hprogram
    rw [← hs] at hproceeds
    obtain ⟨hchange, hrest⟩ := hproceeds s ⟨rfl, id⟩
    unfold Granted at hchange
    rw [hview] at hchange
    refine ⟨hc.set nofun (hT.keeps i _ _ hc.shared hchange) ?_, ?_, nofun⟩
    · intro p hp
      obtain rfl := Option.some.inj hp
      have hafter : T.view.symm ((T.view (u s)).1, (T.view (u s)).2) = u s := T.view.symm_apply_apply (u s)
      rw [hafter]
      exact hrest
    · intro j hj
      obtain rfl := Option.some.inj hj
      exact hchange
  | @finish _ i hprogram =>
    have hresult : T.Relied J I i (T.view.symm ((c.threads i).2, c.shared)) := hc.program i _ hprogram
    unfold Relied at hresult
    rw [Equiv.apply_symm_apply] at hresult
    refine ⟨hc.set (fun _ => hresult.1) hc.shared nofun, ?_, nofun⟩
    intro j _
    exact hT.refl j c.shared
  | @idle _ i own shared hnone hidle =>
    obtain ⟨hown, hchange⟩ := hT.idle i _ _ (hc.own i hnone) hc.shared hidle
    refine ⟨hc.set (fun _ => hown) (hT.keeps i _ _ hc.shared hchange) nofun, ?_, nofun⟩
    intro j hj
    obtain rfl := Option.some.inj hj
    exact hchange
  | @environment _ shared henvironment =>
    have hshared := hT.environment _ _ hc.shared henvironment
    refine ⟨⟨hc.own, ?_, hshared⟩, nofun, fun _ => henvironment⟩
    exact fun i p hp => (hc.program i p hp).stable (interferes_shared fun _ => hshared)

lemma Runs.mono {among among' : Option ι → Prop} {c c' : T.Config} (hrun : Runs among c c')
    (h : ∀ o, among o → among' o) : Runs among' c c' :=
  ReflTransGen.mono (fun _ _ ⟨o, ho, hstep⟩ => ⟨o, h o ho, hstep⟩) _ _ hrun

/-- A thread that makes its steps while no other one does. -/
lemma Runs.exec {among : Option ι → Prop} {c : T.Config} {i : ι} (hi : among (some i)) {p : Prog L σ Unit}
    (hp : (c.threads i).1 = some p) {s s' : σ} (hs : s = T.view.symm ((c.threads i).2, c.shared))
    (hexec : p.exec s = some ((), s')) : Runs among c (c.set i none (T.view s').1 (T.view s').2) := by
  induction p generalizing c s with
  | done a =>
    obtain rfl := (Prod.mk.inj (Option.some.inj hexec)).2
    have hview : T.view s = ((c.threads i).2, c.shared) := by rw [hs, Equiv.apply_symm_apply]
    rw [hview]
    exact ReflTransGen.single ⟨some i, hi, Step.finish hp⟩
  | halt => cases hexec
  | step l u k ih =>
    have hstep : Step (some i) c (c.set i (some (k s)) (T.view (u s)).1 (T.view (u s)).2) := Step.atomic hp hs
    have hafter : u s = T.view.symm ((T.view (u s)).1, (T.view (u s)).2) := (T.view.symm_apply_apply (u s)).symm
    have hrest := ih s (c := c.set i (some (k s)) (T.view (u s)).1 (T.view (u s)).2) (s := u s) (by simp)
      (by rw [Config.set_self]; exact hafter) hexec
    rw [Config.set_set] at hrest
    exact hrest.head ⟨some i, hi, hstep⟩

lemma Runs.kept {among : Option ι → Prop} {c c' : T.Config} (hT : T.Sound J I G) (hc : Kept J I G c)
    (hrun : Runs among c c') : Kept J I G c' := by
  induction hrun with
  | refl => exact hc
  | tail _ hlast ih =>
    obtain ⟨o, -, hstep⟩ := hlast
    exact (hstep.sound hT ih).1

/-- A relation between shared states that the steps keep that are allowed is kept by their runs. -/
lemma Runs.changes {among : Option ι → Prop} {R : S → S → Prop} {c c' : T.Config} (hT : T.Sound J I G)
    (hrefl : ∀ x, R x x) (htrans : ∀ x y z, R x y → R y z → R x z)
    (hthread : ∀ i, among (some i) → ∀ x y, G i x y → R x y)
    (henvironment : ∀ x y, T.environment x y → R x y) (hc : Kept J I G c) (hrun : Runs among c c') :
    R c.shared c'.shared := by
  induction hrun with
  | refl => exact hrefl _
  | @tail d e hbefore hlast ih =>
    have hkept : Kept J I G d := Runs.kept hT hc hbefore
    obtain ⟨o, ho, hstep⟩ := hlast
    obtain ⟨-, hchange, hother⟩ := hstep.sound hT hkept
    apply htrans _ _ _ ih
    cases o with
    | none => exact henvironment _ _ (hother rfl)
    | some i => exact hthread i ho _ _ (hchange i rfl)

end Threads

end Muen.Lib
