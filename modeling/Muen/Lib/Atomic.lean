import Mathlib.Logic.Relation

/-!
# Programs of atomic steps under interference

A program is a tree of atomic steps: each step reads the state it finds, updates it and goes on with
what it has read. Between any two steps an environment may change the state, and a state of its own,
as its rely relation allows. `Prog.Sat` is the precondition of a program under such interference, and
`System` runs one program after the other.
-/

namespace Muen.Lib

variable {L ε σ α β : Type}

/-- Programs over states `σ` whose steps carry a label; `halt` is a program that never returns. -/
inductive Prog (L σ α : Type) : Type
  | done (a : α)
  | halt
  | step (label : L) (update : σ → σ) (next : σ → Prog L σ α)

namespace Prog

def bind : Prog L σ α → (α → Prog L σ β) → Prog L σ β
  | done a, f => f a
  | halt, _ => halt
  | step l u k, f => step l u (fun s => (k s).bind f)

instance : Monad (Prog L σ) where
  pure := done
  bind := bind

def read (l : L) (f : σ → α) : Prog L σ α := step l id (fun s => done (f s))

def modify (l : L) (u : σ → σ) : Prog L σ Unit := step l u (fun _ => done ())

/-- A run-time check that fails: the label marks it, and nothing follows. -/
def fail (l : L) : Prog L σ α := step l id (fun _ => halt)

/-- The value, or a failed check. -/
def require (l : L) : Option α → Prog L σ α
  | some a => done a
  | none => fail l

/-- A step that may fail a run-time check; the state is then left as it is. -/
def attempt (l failed : L) (f : σ → Option σ) : Prog L σ Unit :=
  step l (fun s => (f s).getD s) (fun s => if (f s).isSome then done () else fail failed)

/-- One move of a program or of its environment. -/
inductive Trans (rely : ε × σ → ε × σ → Prop) : Prog L σ α × (ε × σ) → Prog L σ α × (ε × σ) → Prop
  | interfere {p : Prog L σ α} {c c' : ε × σ} : rely c c' → Trans rely (p, c) (p, c')
  | atomic {l : L} {u : σ → σ} {k : σ → Prog L σ α} {e : ε} {s : σ} :
      Trans rely (step l u k, (e, s)) (k s, (e, u s))

/-- With interference by `rely` before every step, each step labelled `l` finds a state with `I (some l)`,
a program that halts does so in a state with `I none`, and `Q` holds of the result and of the state in
which the program returns. -/
def Sat (rely : ε × σ → ε × σ → Prop) (I : Option L → ε × σ → Prop) :
    Prog L σ α → (α → ε × σ → Prop) → ε × σ → Prop
  | done a, Q, c => ∀ c', Relation.ReflTransGen rely c c' → Q a c'
  | halt, _, c => ∀ c', Relation.ReflTransGen rely c c' → I none c'
  | step l u k, Q, c => ∀ c', Relation.ReflTransGen rely c c' →
      I (some l) c' ∧ Sat rely I (k c'.2) Q (c'.1, u c'.2)

/-- The result without interference. -/
def exec : Prog L σ α → σ → Option (α × σ)
  | done a, s => some (a, s)
  | halt, _ => none
  | step _ u k, s => (k s).exec (u s)

end Prog

/-- The environment keeps `P`. -/
def Stable (rely : ε × σ → ε × σ → Prop) (P : ε × σ → Prop) : Prop := ∀ c c', rely c c' → P c → P c'

section Rules

open Relation

variable {rely : ε × σ → ε × σ → Prop} {I : Option L → ε × σ → Prop}

lemma Stable.steps {P : ε × σ → Prop} (hP : Stable rely P) {c c' : ε × σ} (hc : ReflTransGen rely c c')
    (h : P c) : P c' := by
  induction hc with
  | refl => exact h
  | tail _ hstep ih => exact hP _ _ hstep ih

lemma Stable.and {P Q : ε × σ → Prop} (hP : Stable rely P) (hQ : Stable rely Q) :
    Stable rely (fun c => P c ∧ Q c) :=
  fun c c' hc h => ⟨hP c c' hc h.1, hQ c c' hc h.2⟩

namespace Prog

lemma Sat.mono {p : Prog L σ α} {Q Q' : α → ε × σ → Prop} {c : ε × σ} (h : p.Sat rely I Q c)
    (hQ : ∀ a c', Q a c' → Q' a c') : p.Sat rely I Q' c := by
  induction p generalizing c with
  | done a => exact fun c' hc => hQ a c' (h c' hc)
  | halt => exact h
  | step l u k ih => exact fun c' hc => ⟨(h c' hc).1, ih _ (h c' hc).2⟩

lemma Sat.imp {p : Prog L σ α} {I' : Option L → ε × σ → Prop} {Q : α → ε × σ → Prop} {c : ε × σ}
    (h : p.Sat rely I Q c) (hI : ∀ l c', I l c' → I' l c') : p.Sat rely I' Q c := by
  induction p generalizing c with
  | done a => exact h
  | halt => exact fun c' hc => hI none c' (h c' hc)
  | step l u k ih => exact fun c' hc => ⟨hI (some l) c' (h c' hc).1, ih _ (h c' hc).2⟩

/-- Two specifications of one program, of which the first one speaks about its steps. -/
lemma Sat.and {p : Prog L σ α} {I' : Option L → ε × σ → Prop} {Q Q' : α → ε × σ → Prop} {c : ε × σ}
    (h : p.Sat rely I Q c) (h' : p.Sat rely I' Q' c) : p.Sat rely I (fun a c' => Q a c' ∧ Q' a c') c := by
  induction p generalizing c with
  | done a => exact fun c' hc => ⟨h c' hc, h' c' hc⟩
  | halt => exact h
  | step l u k ih => exact fun c' hc => ⟨(h c' hc).1, ih _ (h c' hc).2 (h' c' hc).2⟩

lemma Sat.stable {p : Prog L σ α} {Q : α → ε × σ → Prop} : Stable rely (p.Sat rely I Q) := by
  intro c c' hc h
  cases p with
  | done a => exact fun c'' hc' => h c'' (hc'.head hc)
  | halt => exact fun c'' hc' => h c'' (hc'.head hc)
  | step l u k => exact fun c'' hc' => h c'' (hc'.head hc)

lemma sat_bind {p : Prog L σ α} {f : α → Prog L σ β} {Q : β → ε × σ → Prop} {c : ε × σ}
    (h : p.Sat rely I (fun a c' => (f a).Sat rely I Q c') c) : (p >>= f).Sat rely I Q c := by
  induction p generalizing c with
  | done a => exact h c ReflTransGen.refl
  | halt => exact h
  | step l u k ih => exact fun c' hc => ⟨(h c' hc).1, ih _ (h c' hc).2⟩

lemma sat_pure {a : α} {Q : α → ε × σ → Prop} {c : ε × σ} (hQ : Stable rely (Q a)) (h : Q a c) :
    (pure a : Prog L σ α).Sat rely I Q c :=
  fun _ hc => hQ.steps hc h

/-- A read, seen from an assertion that the environment keeps. -/
lemma sat_read {l : L} {f : σ → α} {k : α → Prog L σ β} {Q : β → ε × σ → Prop} {P : ε × σ → Prop}
    {c : ε × σ} (hP : Stable rely P) (h : P c) (hI : ∀ c', P c' → I (some l) c')
    (hk : ∀ c', P c' → (k (f c'.2)).Sat rely I Q c') : (read l f >>= k).Sat rely I Q c := by
  intro c' hc
  have h' := hP.steps hc h
  exact ⟨hI c' h', hk c' h'⟩

lemma sat_modify {l : L} {u : σ → σ} {k : Unit → Prog L σ β} {Q : β → ε × σ → Prop}
    {P : ε × σ → Prop} {c : ε × σ} (hP : Stable rely P) (h : P c) (hI : ∀ c', P c' → I (some l) c')
    (hk : ∀ c', P c' → (k ()).Sat rely I Q (c'.1, u c'.2)) : (modify l u >>= k).Sat rely I Q c := by
  intro c' hc
  have h' := hP.steps hc h
  exact ⟨hI c' h', hk c' h'⟩

lemma sat_attempt {l failed : L} {f : σ → Option σ} {k : Unit → Prog L σ β} {Q : β → ε × σ → Prop}
    {P : ε × σ → Prop} {c : ε × σ} (hP : Stable rely P) (h : P c) (hI : ∀ c', P c' → I (some l) c')
    (hk : ∀ c', P c' → ∃ s, f c'.2 = some s ∧ (k ()).Sat rely I Q (c'.1, s)) :
    (attempt l failed f >>= k).Sat rely I Q c := by
  intro c' hc
  have h' := hP.steps hc h
  obtain ⟨s, hs, hks⟩ := hk c' h'
  refine ⟨hI c' h', ?_⟩
  dsimp only
  rw [hs]
  exact hks

/-- Every step of the program keeps `J`, from any state in which `J` holds. -/
def Keeps (rely : ε × σ → ε × σ → Prop) (I : Option L → ε × σ → Prop) (J : ε × σ → Prop)
    (p : Prog L σ α) : Prop :=
  ∀ c, J c → p.Sat rely I (fun _ => J) c

section Keeps

variable {J : ε × σ → Prop} (hJ : Stable rely J)

lemma Keeps.bind {p : Prog L σ α} {f : α → Prog L σ β} (hp : p.Keeps rely I J)
    (hf : ∀ a, (f a).Keeps rely I J) : (p >>= f).Keeps rely I J :=
  fun c h => sat_bind ((hp c h).mono (fun a => hf a))

include hJ

lemma keeps_pure (a : α) : (pure a : Prog L σ α).Keeps rely I J := fun _ h => sat_pure hJ h

lemma keeps_read {l : L} (hI : ∀ c, J c → I (some l) c) (f : σ → α) : (read l f).Keeps rely I J :=
  fun _ h c' hc => ⟨hI c' (hJ.steps hc h), fun _ hc' => hJ.steps hc' (hJ.steps hc h)⟩

lemma keeps_modify {l : L} {u : σ → σ} (hI : ∀ c, J c → I (some l) c) (hu : ∀ c, J c → J (c.1, u c.2)) :
    (modify l u).Keeps rely I J :=
  fun _ h c' hc => ⟨hI c' (hJ.steps hc h), fun _ hc' => hJ.steps hc' (hu c' (hJ.steps hc h))⟩

lemma keeps_fail {l : L} (hI : ∀ c, J c → I (some l) c) (hhalt : ∀ c, J c → I none c) :
    (fail l : Prog L σ α).Keeps rely I J :=
  fun _ h c' hc => ⟨hI c' (hJ.steps hc h), fun c'' hc' => hhalt c'' (hJ.steps hc' (hJ.steps hc h))⟩

lemma keeps_require {l : L} (hI : ∀ c, J c → I (some l) c) (hhalt : ∀ c, J c → I none c) (o : Option α) :
    (require l o).Keeps rely I J := by
  cases o with
  | none => exact keeps_fail hJ hI hhalt
  | some a => exact keeps_pure hJ a

end Keeps

lemma Sat.trans {p p' : Prog L σ α} {Q : α → ε × σ → Prop} {c c' : ε × σ} (h : p.Sat rely I Q c)
    (hstep : Trans rely (p, c) (p', c')) : p'.Sat rely I Q c' := by
  cases hstep with
  | interfere hc => exact Sat.stable c c' hc h
  | atomic => exact (h _ ReflTransGen.refl).2

/-- A program that cannot halt has a run that returns. -/
lemma Sat.exists_return {p : Prog L σ α} {Q : α → ε × σ → Prop} {c : ε × σ} (h : p.Sat rely I Q c)
    (hI : ∀ c', ¬ I none c') : ∃ a c', ReflTransGen (Trans rely) (p, c) (done a, c') := by
  induction p generalizing c with
  | done a => exact ⟨a, c, ReflTransGen.refl⟩
  | halt => exact absurd (h c ReflTransGen.refl) (hI c)
  | step l u k ih =>
    obtain ⟨a, c', hrun⟩ := ih c.2 (h c ReflTransGen.refl).2
    exact ⟨a, c', hrun.head Trans.atomic⟩

lemma Sat.run {p p' : Prog L σ α} {Q : α → ε × σ → Prop} {c c' : ε × σ} (h : p.Sat rely I Q c)
    (hrun : ReflTransGen (Trans rely) (p, c) (p', c')) : p'.Sat rely I Q c' := by
  have hall : ∀ x, ReflTransGen (Trans rely) (p, c) x → x.1.Sat rely I Q x.2 := by
    intro x hx
    induction hx with
    | refl => exact h
    | tail _ hstep ih => exact ih.trans hstep
  exact hall _ hrun

/-- What a run of a program that meets its precondition can end in. -/
lemma Sat.returns {p : Prog L σ α} {Q : α → ε × σ → Prop} {a : α} {c c' : ε × σ} (h : p.Sat rely I Q c)
    (hrun : ReflTransGen (Trans rely) (p, c) (done a, c')) : Q a c' :=
  h.run hrun c' ReflTransGen.refl

/-- A program that cannot halt returns when nothing interferes. -/
lemma Sat.exec_eq {p : Prog L σ α} {Q : α → ε × σ → Prop} {c : ε × σ} (h : p.Sat rely I Q c)
    (hI : ∀ c', ¬ I none c') : ∃ a s, p.exec c.2 = some (a, s) ∧ Q a (c.1, s) := by
  induction p generalizing c with
  | done a => exact ⟨a, c.2, rfl, h c ReflTransGen.refl⟩
  | halt => exact absurd (h c ReflTransGen.refl) (hI c)
  | step l u k ih => exact ih c.2 (h c ReflTransGen.refl).2

lemma exec_bind (p : Prog L σ α) (f : α → Prog L σ β) (s : σ) :
    (p >>= f).exec s = (p.exec s).bind (fun r => (f r.1).exec r.2) := by
  induction p generalizing s with
  | done a => rfl
  | halt => rfl
  | step l u k ih => exact ih s (u s)

lemma exec_runs {p : Prog L σ α} {e : ε} {s s' : σ} {a : α} (h : p.exec s = some (a, s')) :
    ReflTransGen (Trans rely) (p, (e, s)) (done a, (e, s')) := by
  induction p generalizing s with
  | done b =>
    obtain ⟨rfl, rfl⟩ := Prod.mk.inj (Option.some.inj h)
    exact ReflTransGen.refl
  | halt => exact absurd h (by simp [exec])
  | step l u k ih => exact (ih s h).head Trans.atomic

end Prog

end Rules

/-- A processor that makes one operation after the other, each a program, with interference by its
environment at any time. -/
structure System (Op L ε σ : Type) where
  rely : ε × σ → ε × σ → Prop
  enabled : ε × σ → Op → Prop
  prog : Op → Prog L σ Unit

namespace System

open Relation

variable {Op : Type} (M : System Op L ε σ)

inductive Step : Option (Prog L σ Unit) × (ε × σ) → Option (Prog L σ Unit) × (ε × σ) → Prop
  | interfere {c c' : ε × σ} : M.rely c c' → Step (none, c) (none, c')
  | start {c : ε × σ} {op : Op} : M.enabled c op → Step (none, c) (some (M.prog op), c)
  | move {p p' : Prog L σ Unit} {c c' : ε × σ} : Prog.Trans M.rely (p, c) (p', c') →
      Step (some p, c) (some p', c')
  | finish {c : ε × σ} : Step (some (.done ()), c) (none, c)

/-- The configurations reached from an initial state: the rest of the program that is running, if
any, and the state. -/
def Reached (init : ε × σ → Prop) (x : Option (Prog L σ Unit) × (ε × σ)) : Prop :=
  ∃ c, init c ∧ ReflTransGen M.Step (none, c) x

/-- The assertion of a configuration: the invariant between two operations, and inside an operation
that the rest of it leads back to the invariant. -/
def Holds (I : Option L → ε × σ → Prop) (inv : ε × σ → Prop) : Option (Prog L σ Unit) × (ε × σ) → Prop
  | (none, c) => inv c
  | (some p, c) => p.Sat M.rely I (fun _ => inv) c

variable {M} {init inv : ε × σ → Prop} {I : Option L → ε × σ → Prop}

/-- An invariant that the environment keeps and that every operation restores holds in every reached
configuration. -/
lemma Reached.holds {x : Option (Prog L σ Unit) × (ε × σ)} (hx : M.Reached init x)
    (hinit : ∀ c, init c → inv c) (hstable : Stable M.rely inv)
    (hop : ∀ c op, inv c → M.enabled c op → (M.prog op).Sat M.rely I (fun _ => inv) c) :
    M.Holds I inv x := by
  obtain ⟨c, hc, hrun⟩ := hx
  induction hrun with
  | refl => exact hinit c hc
  | tail _ hstep ih =>
    cases hstep with
    | interfere h => exact hstable _ _ h ih
    | start h => exact hop _ _ ih h
    | move h => exact Prog.Sat.trans ih h
    | finish => exact ih _ ReflTransGen.refl

lemma Holds.idle {c : ε × σ} (h : M.Holds I inv (none, c)) : inv c := h

lemma Holds.label {l : L} {u : σ → σ} {k : σ → Prog L σ Unit} {c : ε × σ}
    (h : M.Holds I inv (some (.step l u k), c)) : I (some l) c :=
  (h c ReflTransGen.refl).1

lemma Holds.halted {c : ε × σ} (h : M.Holds I inv (some .halt, c)) : I none c := h c ReflTransGen.refl

lemma Reached.exec {c : ε × σ} {op : Op} {s' : σ} (h : M.Reached init (none, c)) (hop : M.enabled c op)
    (hexec : (M.prog op).exec c.2 = some ((), s')) : M.Reached init (none, (c.1, s')) := by
  obtain ⟨c₀, hc₀, hrun⟩ := h
  have hmoves : ∀ x, ReflTransGen (Prog.Trans M.rely) (M.prog op, c) x →
      ReflTransGen M.Step (some (M.prog op), c) (some x.1, x.2) := by
    intro x hx
    induction hx with
    | refl => exact ReflTransGen.refl
    | tail _ hstep ih => exact ih.tail (.move hstep)
  exact ⟨c₀, hc₀, ((hrun.tail (.start hop)).trans (hmoves _ (Prog.exec_runs hexec))).tail .finish⟩

/-- A sequence of operations without interference, each enabled where it starts. -/
def execOps (M : System Op L ε σ) [∀ c op, Decidable (M.enabled c op)] (e : ε) : List Op → σ → Option σ
  | [], s => some s
  | op :: ops, s =>
    if M.enabled (e, s) op then ((M.prog op).exec s).bind (fun r => M.execOps e ops r.2) else none

lemma Reached.execOps [∀ c op, Decidable (M.enabled c op)] {e : ε} {ops : List Op} {s s' : σ}
    (h : M.Reached init (none, (e, s))) (hexec : M.execOps e ops s = some s') :
    M.Reached init (none, (e, s')) := by
  induction ops generalizing s with
  | nil =>
    obtain rfl := Option.some.inj hexec
    exact h
  | cons op ops ih =>
    unfold System.execOps at hexec
    by_cases hop : M.enabled (e, s) op
    · rw [if_pos hop] at hexec
      obtain ⟨⟨_, s₁⟩, hs₁, hrest⟩ := Option.bind_eq_some_iff.mp hexec
      exact ih (h.exec hop hs₁) hrest
    · rw [if_neg hop] at hexec
      exact absurd hexec (by simp)

end System

end Muen.Lib
