import Mathlib.Data.List.Basic

/-!
# Recursive equations between partial values

The value of a key is computed from the values of other keys, which the computation asks for one after the other. The
keys that have a value are those for which the equations give one after finitely many rounds, from no values at all.
-/

namespace Muen.Lib

variable {κ ν α β : Type}

/-- What a partial map has another one has as well. -/
def Extends (f g : κ → Option ν) : Prop := ∀ k v, f k = some v → g k = some v

/-- A computation that asks for the values of keys. -/
inductive Query (κ ν α : Type)
  | done (a : α)
  | fail
  | ask (key : κ) (next : ν → Query κ ν α)

namespace Query

def bind : Query κ ν α → (α → Query κ ν β) → Query κ ν β
  | done a, f => f a
  | fail, _ => fail
  | ask key next, f => ask key fun v => (next v).bind f

instance : Monad (Query κ ν) where
  pure := done
  bind := bind

def ofOption : Option α → Query κ ν α
  | some a => done a
  | none => fail

/-- The result when a partial map answers. -/
def run (env : κ → Option ν) : Query κ ν α → Option α
  | done a => some a
  | fail => none
  | ask key next =>
    match env key with
    | some v => (next v).run env
    | none => none

lemma run_bind (env : κ → Option ν) (q : Query κ ν α) (f : α → Query κ ν β) :
    (q >>= f).run env = (q.run env).bind fun a => (f a).run env := by
  change (q.bind f).run env = _
  induction q with
  | done a => rfl
  | fail => rfl
  | ask key next ih =>
    rw [Query.bind, run, run]
    cases env key with
    | none => rfl
    | some v => exact ih v

lemma run_ofOption (env : κ → Option ν) (o : Option α) : (ofOption o : Query κ ν α).run env = o := by
  cases o with
  | none => rfl
  | some a => rfl

lemma run_mono {env env' : κ → Option ν} (h : Extends env env') (q : Query κ ν α) {a : α}
    (hrun : q.run env = some a) : q.run env' = some a := by
  induction q with
  | done b => exact hrun
  | fail => exact hrun
  | ask key next ih =>
    rw [run] at hrun ⊢
    cases henv : env key with
    | none =>
      rw [henv] at hrun
      cases hrun
    | some v =>
      rw [henv] at hrun
      rw [h key v henv]
      exact ih v hrun

end Query

/-! ### Rounds -/

section Rounds

variable (F : κ → Query κ ν ν)

/-- The values after a number of rounds. -/
def approx : Nat → κ → Option ν
  | 0, _ => none
  | n + 1, k => (F k).run (approx n)

/-- The value that the equations give to a key. -/
def HasValue (k : κ) (v : ν) : Prop := ∃ n, approx F n k = some v

/-- The result of a computation that is answered by the equations. -/
def Yields (q : Query κ ν α) (a : α) : Prop := ∃ n, q.run (approx F n) = some a

lemma approx_succ (n : Nat) : Extends (approx F n) (approx F (n + 1)) := by
  induction n with
  | zero => exact fun k v h => nomatch h
  | succ n ih => exact fun k v h => Query.run_mono ih (F k) h

lemma approx_mono {m n : Nat} (h : m ≤ n) : Extends (approx F m) (approx F n) := by
  induction h with
  | refl => exact fun k v h => h
  | step _ ih => exact fun k v h => approx_succ F _ k v (ih k v h)

variable {F}

lemma HasValue.unique {k : κ} {v w : ν} (hv : HasValue F k v) (hw : HasValue F k w) : v = w := by
  obtain ⟨m, hv⟩ := hv
  obtain ⟨n, hw⟩ := hw
  have hv' := approx_mono F (Nat.le_max_left m n) k v hv
  have hw' := approx_mono F (Nat.le_max_right m n) k w hw
  exact Option.some.inj (hv'.symm.trans hw')

lemma yields_done {a b : α} : Yields F (.done a : Query κ ν α) b ↔ a = b := by
  constructor
  · rintro ⟨n, h⟩
    exact Option.some.inj h
  · rintro rfl
    exact ⟨0, rfl⟩

lemma not_yields_fail {a : α} : ¬Yields F (.fail : Query κ ν α) a := by
  rintro ⟨n, h⟩
  cases h

lemma yields_bind {q : Query κ ν α} {f : α → Query κ ν β} {b : β} :
    Yields F (q >>= f) b ↔ ∃ a, Yields F q a ∧ Yields F (f a) b := by
  constructor
  · rintro ⟨n, h⟩
    rw [Query.run_bind, Option.bind_eq_some_iff] at h
    obtain ⟨a, ha, hb⟩ := h
    exact ⟨a, ⟨n, ha⟩, n, hb⟩
  · rintro ⟨a, ⟨m, ha⟩, n, hb⟩
    refine ⟨max m n, ?_⟩
    rw [Query.run_bind, Query.run_mono (approx_mono F (Nat.le_max_left m n)) q ha]
    exact Query.run_mono (approx_mono F (Nat.le_max_right m n)) (f a) hb

lemma yields_ask {k : κ} {next : ν → Query κ ν α} {a : α} :
    Yields F (.ask k next) a ↔ ∃ v, HasValue F k v ∧ Yields F (next v) a := by
  have hask : (.ask k next : Query κ ν α) = .ask k .done >>= next := rfl
  rw [hask, yields_bind]
  apply exists_congr
  intro v
  apply and_congr_left'
  constructor
  · rintro ⟨n, h⟩
    rw [Query.run] at h
    cases hk : approx F n k with
    | none =>
      rw [hk] at h
      cases h
    | some w =>
      rw [hk] at h
      exact ⟨n, hk.trans h⟩
  · rintro ⟨n, h⟩
    refine ⟨n, ?_⟩
    rw [Query.run, h]
    rfl

/-- The values solve the equations. -/
lemma hasValue_iff {k : κ} {v : ν} : HasValue F k v ↔ Yields F (F k) v := by
  constructor
  · rintro ⟨n, h⟩
    cases n with
    | zero => cases h
    | succ n => exact ⟨n, h⟩
  · rintro ⟨n, h⟩
    exact ⟨n + 1, h⟩

/-- The values are the least solution of the equations. -/
lemma HasValue.least {env : κ → Option ν} (hsolves : ∀ k v, (F k).run env = some v → env k = some v) {k : κ} {v : ν}
    (h : HasValue F k v) : env k = some v := by
  obtain ⟨n, h⟩ := h
  induction n generalizing k v with
  | zero => cases h
  | succ n ih => exact hsolves k v (Query.run_mono (fun k v h => ih h) (F k) h)

/-- The first round after which a key has its value. -/
lemma HasValue.exists_first {k : κ} {v : ν} {n : Nat} (h : approx F n k = some v) :
    ∃ m < n, approx F m k = none ∧ approx F (m + 1) k = some v := by
  induction n with
  | zero => cases h
  | succ n ih =>
    cases hn : approx F n k with
    | none => exact ⟨n, Nat.lt_succ_self n, hn, h⟩
    | some w =>
      have hw : w = v := Option.some.inj ((approx_succ F n k w hn).symm.trans h)
      obtain ⟨m, hlt, hm⟩ := ih (hn.trans (congrArg some hw))
      exact ⟨m, Nat.lt_succ_of_lt hlt, hm⟩

end Rounds

end Muen.Lib
