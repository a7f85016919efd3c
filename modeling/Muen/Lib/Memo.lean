import Muen.Lib.Query
import Muen.Lib.Fallible
import Mathlib.Data.List.Nodup
import Mathlib.Data.List.Perm.Subperm

/-!
# Evaluation that records values

A program evaluates recursive equations. It records the value of a key once it has it, and it keeps the keys whose
evaluation is under way, which it does not evaluate again. It gives the value that the equations give to a key, and
it needs no more nested evaluations than there are keys.
-/

namespace Muen.Lib

variable {σ ε κ ν α β : Type}

/-- What the states of a program say about the values of keys. -/
structure Store (σ κ ν : Type) where
  recorded : σ → κ → ν → Prop
  stack : σ → List κ
  withStack : σ → List κ → σ
  stack_withStack : ∀ s l, stack (withStack s l) = l
  recorded_withStack : ∀ s l k v, recorded (withStack s l) k v ↔ recorded s k v

namespace Store

variable (S : Store σ κ ν)

def Absent (s : σ) (k : κ) : Prop := ∀ v, ¬S.recorded s k v

def Sound (F : κ → Query κ ν ν) (s : σ) : Prop := ∀ k v, S.recorded s k v → HasValue F k v

/-- The keys under evaluation have no value yet, neither in the state nor after some rounds. -/
structure Ready (F : κ → Query κ ν ν) (n : Nat) (s : σ) : Prop where
  sound : S.Sound F s
  absent : ∀ k ∈ S.stack s, S.Absent s k
  later : ∀ k ∈ S.stack s, approx F n k = none

/-- The evaluations that may still be nested are enough for the keys that are not under evaluation. -/
structure Room (keys : List κ) (fuel : Nat) (s : σ) : Prop where
  nodup : (S.stack s).Nodup
  subset : S.stack s ⊆ keys
  lt : keys.length < fuel + (S.stack s).length

variable {S} {F : κ → Query κ ν ν} {keys : List κ}

lemma Room.pos {fuel : Nat} {s : σ} (h : S.Room keys fuel s) : 0 < fuel := by
  have hle := (List.subperm_of_subset h.nodup h.subset).length_le
  have hlt := h.lt
  omega

lemma Room.withStack {fuel : Nat} {s : σ} {k : κ} (h : S.Room keys (fuel + 1) s) (hk : k ∈ keys)
    (hnot : k ∉ S.stack s) : S.Room keys fuel (S.withStack s (S.stack s ++ [k])) := by
  refine ⟨?_, ?_, ?_⟩
  · rw [S.stack_withStack]
    exact h.nodup.append (List.nodup_singleton k) (List.disjoint_singleton.mpr hnot)
  · rw [S.stack_withStack]
    exact List.append_subset.mpr ⟨h.subset, List.cons_subset.mpr ⟨hk, List.nil_subset _⟩⟩
  · rw [S.stack_withStack, List.length_append, List.length_singleton]
    have hlt := h.lt
    omega

lemma Room.of_stack {fuel : Nat} {s s' : σ} (h : S.Room keys fuel s) (hstack : S.stack s' = S.stack s) :
    S.Room keys fuel s' :=
  ⟨hstack ▸ h.nodup, hstack ▸ h.subset, hstack ▸ h.lt⟩

lemma Ready.mono {m n : Nat} {s : σ} (h : S.Ready F n s) (hle : m ≤ n) : S.Ready F m s := by
  refine ⟨h.sound, h.absent, ?_⟩
  intro k hk
  cases hm : approx F m k with
  | none => rfl
  | some v =>
    have hn := approx_mono F hle k v hm
    rw [h.later k hk] at hn
    cases hn

lemma Sound.withStack {s : σ} (h : S.Sound F s) (l : List κ) : S.Sound F (S.withStack s l) :=
  fun k v hv => h k v ((S.recorded_withStack s l k v).mp hv)

lemma absent_withStack {s : σ} {l : List κ} {k : κ} : S.Absent (S.withStack s l) k ↔ S.Absent s k :=
  forall_congr' fun v => not_congr (S.recorded_withStack s l k v)

/-- Before the round that gives a key its value, it may be put under evaluation too. -/
lemma Ready.push {n : Nat} {s : σ} {k : κ} {v : ν} (h : S.Ready F n s) (hv : approx F n k = some v)
    (habsent : S.Absent s k) :
    k ∉ S.stack s ∧ ∃ l, (F k).run (approx F l) = some v ∧ S.Ready F l (S.withStack s (S.stack s ++ [k])) := by
  have hnot : k ∉ S.stack s := by
    intro hmem
    rw [h.later k hmem] at hv
    cases hv
  obtain ⟨l, hlt, hnone, hsome⟩ := HasValue.exists_first hv
  refine ⟨hnot, l, hsome, h.sound.withStack _, ?_, ?_⟩
  · intro b hb
    rw [S.stack_withStack, List.mem_append, List.mem_singleton] at hb
    apply absent_withStack.mpr
    rcases hb with hb | rfl
    · exact h.absent b hb
    · exact habsent
  · intro b hb
    rw [S.stack_withStack, List.mem_append, List.mem_singleton] at hb
    rcases hb with hb | rfl
    · exact (h.mono (Nat.le_of_lt hlt)).later b hb
    · exact hnone

end Store

/-! ### Programs -/

section Programs

variable (F : κ → Query κ ν ν) (S : Store σ κ ν) (keys : List κ) (overflow : ε)

/-- A program gives the results of a query. -/
structure Computes (fuel : Nat) (q : Query κ ν α) (m : StateT σ (Except ε) α) : Prop where
  stack : ∀ s a s', m s = .ok (a, s') → S.stack s' = S.stack s
  sound : ∀ s a s', S.Sound F s → m s = .ok (a, s') →
    Yields F q a ∧ S.Sound F s' ∧ ∀ k v, S.recorded s k v → S.recorded s' k v
  complete : ∀ n s a, q.run (approx F n) = some a → S.Ready F n s → S.Room keys fuel s →
    ∃ s', m s = .ok (a, s') ∧ ∀ k ∈ S.stack s, S.Absent s' k
  bounded : ∀ s, S.Room keys fuel s → m s ≠ .error overflow

/-- A program gives the value of a key that is not recorded yet, as far as it is of a kind, and records it. -/
structure Evaluates (fuel : Nat) (k : κ) (select : ν → Option α) (m : StateT σ (Except ε) α) : Prop where
  stack : ∀ s a s', m s = .ok (a, s') → S.stack s' = S.stack s
  sound : ∀ s a s', S.Sound F s → m s = .ok (a, s') →
    (∃ v, select v = some a ∧ S.recorded s' k v) ∧ S.Sound F s' ∧ ∀ k v, S.recorded s k v → S.recorded s' k v
  complete : ∀ n s v a, approx F n k = some v → select v = some a → S.Ready F n s → S.Room keys fuel s →
    S.Absent s k → ∃ s', m s = .ok (a, s') ∧ ∀ b ∈ S.stack s, S.Absent s' b
  bounded : ∀ s, S.Room keys fuel s → m s ≠ .error overflow

/-- A program does so while the key is under evaluation. -/
structure Records (fuel : Nat) (k : κ) (select : ν → Option α) (m : StateT σ (Except ε) α) : Prop where
  stack : ∀ s a s', m s = .ok (a, s') → S.stack s' = S.stack s
  sound : ∀ s a s', S.Sound F s → m s = .ok (a, s') →
    (∃ v, select v = some a ∧ S.recorded s' k v) ∧ S.Sound F s' ∧ ∀ k v, S.recorded s k v → S.recorded s' k v
  complete : ∀ n s v a, (F k).run (approx F n) = some v → select v = some a → S.Ready F n s → S.Room keys fuel s →
    k ∈ S.stack s → ∃ s', m s = .ok (a, s') ∧ ∀ b ∈ S.stack s, b ≠ k → S.Absent s' b
  bounded : ∀ s, S.Room keys fuel s → m s ≠ .error overflow

/-- A program records a value for a key, which must not have one. -/
structure Inserts (k : κ) (v : ν) (m : StateT σ (Except ε) Unit) : Prop where
  stack : ∀ s s', m s = .ok ((), s') → S.stack s' = S.stack s
  recorded : ∀ s s', m s = .ok ((), s') → ∀ j w, S.recorded s' j w ↔ S.recorded s j w ∨ j = k ∧ w = v
  absent : ∀ s, S.Absent s k → ∃ s', m s = .ok ((), s')
  bounded : ∀ s, m s ≠ .error overflow

variable {F S keys overflow} {fuel : Nat}

lemma bind_eq_error {x : Except ε α} {f : α → Except ε β} {e : ε} (h : (x >>= f) = .error e) :
    x = .error e ∨ ∃ a, x = .ok a ∧ f a = .error e := by
  cases x with
  | error d => exact Or.inl (congrArg Except.error (Except.error.inj h))
  | ok a => exact Or.inr ⟨a, rfl, h⟩

lemma stateT_bind (m : StateT σ (Except ε) α) (f : α → StateT σ (Except ε) β) (s : σ) :
    (m >>= f) s = (m s >>= fun r => f r.1 r.2) := rfl

/-- The errors of a program are replaced. -/
def withError (f : ε → ε) (m : StateT σ (Except ε) α) : StateT σ (Except ε) α := fun s =>
  match m s with
  | .ok r => .ok r
  | .error e => .error (f e)

namespace Computes

lemma done (a : α) : Computes F S keys overflow fuel (.done a : Query κ ν α) (pure a) := by
  refine ⟨?_, ?_, ?_, fun _ _ h => nomatch h⟩
  · intro s b s' h
    obtain ⟨rfl, rfl⟩ := Prod.mk.inj (Except.ok.inj h)
    rfl
  · intro s b s' hs h
    obtain ⟨rfl, rfl⟩ := Prod.mk.inj (Except.ok.inj h)
    exact ⟨yields_done.mpr rfl, hs, fun _ _ h => h⟩
  · intro n s b hrun hs _
    obtain rfl := Option.some.inj hrun
    exact ⟨s, rfl, hs.absent⟩

lemma fail {e : ε} (he : e ≠ overflow) : Computes F S keys overflow fuel (.fail : Query κ ν α) (throw e) := by
  refine ⟨?_, ?_, ?_, ?_⟩
  · intro s a s' h
    cases h
  · intro s a s' _ h
    cases h
  · intro n s a h
    cases h
  · intro s _ h
    exact he (Except.error.inj h)

lemma bind {q : Query κ ν α} {m : StateT σ (Except ε) α} {f : α → Query κ ν β} {g : α → StateT σ (Except ε) β}
    (hm : Computes F S keys overflow fuel q m) (hg : ∀ a, Computes F S keys overflow fuel (f a) (g a)) :
    Computes F S keys overflow fuel (q >>= f) (m >>= g) := by
  refine ⟨?_, ?_, ?_, ?_⟩
  · intro s b s' h
    obtain ⟨⟨a, t⟩, hstep, hrest⟩ := bind_eq_ok h
    exact ((hg a).stack t b s' hrest).trans (hm.stack s a t hstep)
  · intro s b s' hs h
    obtain ⟨⟨a, t⟩, hstep, hrest⟩ := bind_eq_ok h
    obtain ⟨hyields, ht, hkept⟩ := hm.sound s a t hs hstep
    obtain ⟨hyields', hs', hkept'⟩ := (hg a).sound t b s' ht hrest
    exact ⟨yields_bind.mpr ⟨a, hyields, hyields'⟩, hs', fun k v hv => hkept' k v (hkept k v hv)⟩
  · intro n s b hrun hs hroom
    rw [Query.run_bind, Option.bind_eq_some_iff] at hrun
    obtain ⟨a, ha, hb⟩ := hrun
    obtain ⟨t, ht, habsent⟩ := hm.complete n s a ha hs hroom
    have hstack := hm.stack s a t ht
    have hready : S.Ready F n t :=
      ⟨(hm.sound s a t hs.sound ht).2.1, hstack ▸ habsent, hstack ▸ hs.later⟩
    obtain ⟨s', hs', habsent'⟩ := (hg a).complete n t b hb hready (hroom.of_stack hstack)
    refine ⟨s', ?_, hstack ▸ habsent'⟩
    rw [stateT_bind, ht]
    exact hs'
  · intro s hroom h
    rcases bind_eq_error h with hstep | ⟨⟨a, t⟩, hstep, hrest⟩
    · exact hm.bounded s hroom hstep
    · exact (hg a).bounded t (hroom.of_stack (hm.stack s a t hstep)) hrest

/-- Errors may be replaced by others that do not say that there is no room. -/
lemma withError {q : Query κ ν α} {m : StateT σ (Except ε) α} {f : ε → ε}
    (h : Computes F S keys overflow fuel q m) (hf : ∀ e, e ≠ overflow → f e ≠ overflow) :
    Computes F S keys overflow fuel q (withError f m) := by
  have hok : ∀ s r, Lib.withError f m s = .ok r ↔ m s = .ok r := by
    intro s r
    unfold Lib.withError
    cases m s with
    | ok r' => exact Iff.rfl
    | error e => exact iff_of_false nofun nofun
  refine ⟨?_, ?_, ?_, ?_⟩
  · exact fun s a s' hrun => h.stack s a s' ((hok s _).mp hrun)
  · exact fun s a s' hs hrun => h.sound s a s' hs ((hok s _).mp hrun)
  · intro n s a hrun hs hroom
    obtain ⟨s', hs', habsent⟩ := h.complete n s a hrun hs hroom
    exact ⟨s', (hok s _).mpr hs', habsent⟩
  · intro s hroom herror
    unfold Lib.withError at herror
    cases hrun : m s with
    | ok r =>
      rw [hrun] at herror
      cases herror
    | error e =>
      rw [hrun] at herror
      refine hf e ?_ (Except.error.inj herror)
      rintro rfl
      exact h.bounded s hroom hrun

lemma ofOption {o : Option α} {e : ε} (he : e ≠ overflow) :
    Computes F S keys overflow fuel (.ofOption o : Query κ ν α) (o.elim (throw e) pure) := by
  cases o with
  | none => exact fail he
  | some a => exact done a

/-- What a query computes is computed by another one with the same results. -/
lemma congr {q q' : Query κ ν α} {m : StateT σ (Except ε) α} (h : Computes F S keys overflow fuel q m)
    (hq : ∀ env, q'.run env = q.run env) : Computes F S keys overflow fuel q' m := by
  refine ⟨h.stack, ?_, ?_, h.bounded⟩
  · intro s a s' hs hrun
    obtain ⟨⟨n, hn⟩, hrest⟩ := h.sound s a s' hs hrun
    exact ⟨⟨n, (hq _).trans hn⟩, hrest⟩
  · intro n s a hrun
    exact h.complete n s a ((hq _).symm.trans hrun)

end Computes

lemma Inserts.sound {k : κ} {v : ν} {m : StateT σ (Except ε) Unit} (hm : Inserts S overflow k v m) {s s' : σ}
    (hs : S.Sound F s) (hv : HasValue F k v) (h : m s = .ok ((), s')) :
    S.recorded s' k v ∧ S.Sound F s' ∧ ∀ j w, S.recorded s j w → S.recorded s' j w := by
  have hrecorded := hm.recorded s s' h
  refine ⟨(hrecorded k v).mpr (Or.inr ⟨rfl, rfl⟩), ?_, fun j w hw => (hrecorded j w).mpr (Or.inl hw)⟩
  intro j w hw
  rcases (hrecorded j w).mp hw with hw | ⟨rfl, rfl⟩
  · exact hs j w hw
  · exact hv

lemma Inserts.absent_of_ne {k j : κ} {v : ν} {m : StateT σ (Except ε) Unit} (hm : Inserts S overflow k v m)
    {s s' : σ} (h : m s = .ok ((), s')) (hne : j ≠ k) (habsent : S.Absent s j) : S.Absent s' j := by
  intro w hw
  rcases (hm.recorded s s' h j w).mp hw with hw | ⟨rfl, -⟩
  · exact habsent w hw
  · exact hne rfl

/-! ### References -/

/-- The question for the value of a key of a kind. -/
def askAs (k : κ) (select : ν → Option α) : Query κ ν α := .ask k fun v => .ofOption (select v)

lemma run_askAs (env : κ → Option ν) (k : κ) (select : ν → Option α) :
    (askAs k select).run env = (env k).bind select := by
  rw [askAs, Query.run]
  cases env k with
  | none => rfl
  | some v => exact Query.run_ofOption env (select v)

lemma yields_askAs {k : κ} {select : ν → Option α} {a : α} :
    Yields F (askAs k select) a ↔ ∃ v, HasValue F k v ∧ select v = some a := by
  unfold askAs
  rw [yields_ask]
  apply exists_congr
  intro v
  apply and_congr_right'
  cases select v with
  | none => exact iff_of_false not_yields_fail nofun
  | some b => exact yields_done.trans Option.some_inj.symm

/-- The value is taken from the state if it is there, and evaluated otherwise. -/
def knownOr (get : σ → Option α) (m : StateT σ (Except ε) α) : StateT σ (Except ε) α := fun s =>
  match get s with
  | some a => .ok (a, s)
  | none => m s

lemma knownOr_some {get : σ → Option α} {m : StateT σ (Except ε) α} {s : σ} {a : α} (h : get s = some a) :
    knownOr get m s = .ok (a, s) := by
  unfold knownOr
  rw [h]

lemma knownOr_none {get : σ → Option α} {m : StateT σ (Except ε) α} {s : σ} (h : get s = none) :
    knownOr get m s = m s := by
  unfold knownOr
  rw [h]

lemma Evaluates.knownOr {k : κ} {select : ν → Option α} {m : StateT σ (Except ε) α} {get : σ → Option α}
    (hm : Evaluates F S keys overflow fuel k select m)
    (hsome : ∀ s a, get s = some a → ∃ v, S.recorded s k v ∧ select v = some a)
    (hnone : ∀ s v, get s = none → S.recorded s k v → select v = none) :
    Computes F S keys overflow fuel (askAs k select) (Lib.knownOr get m) := by
  refine ⟨?_, ?_, ?_, ?_⟩
  · intro s a s' h
    cases hget : get s with
    | some b =>
      rw [knownOr_some hget] at h
      obtain ⟨-, rfl⟩ := Prod.mk.inj (Except.ok.inj h)
      rfl
    | none =>
      rw [knownOr_none hget] at h
      exact hm.stack s a s' h
  · intro s a s' hs h
    cases hget : get s with
    | some b =>
      rw [knownOr_some hget] at h
      obtain ⟨rfl, rfl⟩ := Prod.mk.inj (Except.ok.inj h)
      obtain ⟨v, hv, hselect⟩ := hsome s b hget
      exact ⟨yields_askAs.mpr ⟨v, hs k v hv, hselect⟩, hs, fun _ _ h => h⟩
    | none =>
      rw [knownOr_none hget] at h
      obtain ⟨⟨v, hselect, hv⟩, hs', hkept⟩ := hm.sound s a s' hs h
      exact ⟨yields_askAs.mpr ⟨v, hs' k v hv, hselect⟩, hs', hkept⟩
  · intro n s a hrun hs hroom
    rw [run_askAs, Option.bind_eq_some_iff] at hrun
    obtain ⟨v, hv, hselect⟩ := hrun
    have hunique : ∀ w, S.recorded s k w → w = v := fun w hw => (hs.sound k w hw).unique ⟨n, hv⟩
    cases hget : get s with
    | some b =>
      obtain ⟨w, hw, hselect'⟩ := hsome s b hget
      obtain rfl := hunique w hw
      obtain rfl := Option.some.inj (hselect'.symm.trans hselect)
      exact ⟨s, knownOr_some hget, hs.absent⟩
    | none =>
      have habsent : S.Absent s k := by
        intro w hw
        obtain rfl := hunique w hw
        have hcontra := hnone s w hget hw
        rw [hselect] at hcontra
        cases hcontra
      rw [knownOr_none hget]
      exact hm.complete n s v a hv hselect hs hroom habsent
  · intro s hroom h
    cases hget : get s with
    | some b =>
      rw [knownOr_some hget] at h
      cases h
    | none =>
      rw [knownOr_none hget] at h
      exact hm.bounded s hroom h

/-- A program that fails on a key that has no value of the kind. -/
lemma Evaluates.fail {k : κ} {select : ν → Option α} {e : ε} (he : e ≠ overflow)
    (hnone : ∀ v, HasValue F k v → select v = none) : Evaluates F S keys overflow fuel k select (throw e) := by
  refine ⟨?_, ?_, ?_, ?_⟩
  · intro s a s' h
    cases h
  · intro s a s' _ h
    cases h
  · intro n s v a hv hselect
    rw [hnone v ⟨n, hv⟩] at hselect
    cases hselect
  · intro s _ h
    exact he (Except.error.inj h)

/-- Without room for nested evaluations nothing is evaluated. -/
lemma Evaluates.zero {k : κ} {select : ν → Option α} :
    Evaluates F S keys overflow 0 k select (throw overflow) := by
  refine ⟨?_, ?_, ?_, ?_⟩
  · intro s a s' h
    cases h
  · intro s a s' _ h
    cases h
  · intro n s v a _ _ _ hroom
    exact absurd hroom.pos (Nat.lt_irrefl 0)
  · intro s hroom
    exact absurd hroom.pos (Nat.lt_irrefl 0)

/-- After its evaluation the value of a key is taken from the state. -/
lemma Evaluates.thenKnownOr {k : κ} {m : StateT σ (Except ε) Unit} {get : σ → Option ν} {e : ε}
    (hm : Evaluates F S keys overflow fuel k (fun _ => some ()) m) (he : e ≠ overflow)
    (hsome : ∀ s v, get s = some v → S.recorded s k v) (hnone : ∀ s, get s = none → S.Absent s k) :
    Evaluates F S keys overflow fuel k some (m >>= fun _ => Lib.knownOr get (throw e)) := by
  have hrun : ∀ s v s', (m >>= fun _ => Lib.knownOr get (throw e)) s = .ok (v, s') →
      m s = .ok ((), s') ∧ get s' = some v := by
    intro s v s' h
    obtain ⟨⟨⟨⟩, t⟩, hstep, hrest⟩ := bind_eq_ok h
    dsimp only at hrest
    cases hget : get t with
    | none =>
      rw [knownOr_none hget] at hrest
      cases hrest
    | some w =>
      rw [knownOr_some hget] at hrest
      obtain ⟨rfl, rfl⟩ := Prod.mk.inj (Except.ok.inj hrest)
      exact ⟨hstep, hget⟩
  refine ⟨?_, ?_, ?_, ?_⟩
  · intro s v s' h
    exact hm.stack s () s' (hrun s v s' h).1
  · intro s v s' hs h
    obtain ⟨hstep, hget⟩ := hrun s v s' h
    exact ⟨⟨v, rfl, hsome s' v hget⟩, (hm.sound s () s' hs hstep).2⟩
  · intro n s v a hv hselect hs hroom habsent
    obtain rfl := Option.some.inj hselect
    obtain ⟨s', hs', hkept⟩ := hm.complete n s v () hv rfl hs hroom habsent
    obtain ⟨⟨w, -, hw⟩, hsound, -⟩ := hm.sound s () s' hs.sound hs'
    refine ⟨s', ?_, hkept⟩
    rw [stateT_bind, hs']
    cases hget : get s' with
    | none => exact absurd hw (hnone s' hget w)
    | some u =>
      have hu : u = v := (hsound k u (hsome s' u hget)).unique ⟨n, hv⟩
      rw [← hu]
      exact knownOr_some hget
  · intro s hroom h
    rcases bind_eq_error h with hstep | ⟨⟨⟨⟩, t⟩, -, hrest⟩
    · exact hm.bounded s hroom hstep
    · dsimp only at hrest
      cases hget : get t with
      | none =>
        rw [knownOr_none hget] at hrest
        exact he (Except.error.inj hrest)
      | some w =>
        rw [knownOr_some hget] at hrest
        cases hrest

/-- The value is not needed, only that it is recorded. -/
lemma Evaluates.discard {k : κ} {select : ν → Option α} {m : StateT σ (Except ε) α}
    (hm : Evaluates F S keys overflow fuel k select m) (hselect : ∀ v, HasValue F k v → (select v).isSome) :
    Evaluates F S keys overflow fuel k (fun _ => some ()) (do let _ ← m) := by
  have hrun : ∀ s u s', (do let _ ← m : StateT σ (Except ε) Unit) s = .ok (u, s') → ∃ a, m s = .ok (a, s') := by
    intro s u s' h
    obtain ⟨⟨a, t⟩, hstep, hrest⟩ := bind_eq_ok h
    obtain ⟨-, rfl⟩ := Prod.mk.inj (Except.ok.inj hrest)
    exact ⟨a, hstep⟩
  refine ⟨?_, ?_, ?_, ?_⟩
  · intro s u s' h
    obtain ⟨a, hstep⟩ := hrun s u s' h
    exact hm.stack s a s' hstep
  · intro s u s' hs h
    obtain ⟨a, hstep⟩ := hrun s u s' h
    obtain ⟨⟨v, -, hv⟩, hrest⟩ := hm.sound s a s' hs hstep
    exact ⟨⟨v, rfl, hv⟩, hrest⟩
  · intro n s v u hv _ hs hroom habsent
    obtain ⟨a, ha⟩ := Option.isSome_iff_exists.mp (hselect v ⟨n, hv⟩)
    obtain ⟨s', hs', hkept⟩ := hm.complete n s v a hv ha hs hroom habsent
    refine ⟨s', ?_, hkept⟩
    rw [stateT_bind, hs']
    rfl
  · intro s hroom h
    rcases bind_eq_error h with hstep | ⟨r, -, hrest⟩
    · exact hm.bounded s hroom hstep
    · cases hrest

/-! ### Evaluations -/

/-- A program runs while a key is under evaluation, unless it already is. -/
def guarded [DecidableEq κ] (S : Store σ κ ν) (cyclic : σ → ε) (k : κ) (m : StateT σ (Except ε) α) :
    StateT σ (Except ε) α := fun s =>
  if k ∈ S.stack s then .error (cyclic s)
  else do
    let r ← m (S.withStack s (S.stack s ++ [k]))
    return (r.1, S.withStack r.2 (S.stack r.2).dropLast)

lemma Records.evaluates [DecidableEq κ] {cyclic : σ → ε} {k : κ} {select : ν → Option α}
    {m : StateT σ (Except ε) α} (hm : Records F S keys overflow fuel k select m) (hk : k ∈ keys)
    (hcyclic : ∀ s, cyclic s ≠ overflow) :
    Evaluates F S keys overflow (fuel + 1) k select (guarded S cyclic k m) := by
  have hrun : ∀ s a s', guarded S cyclic k m s = .ok (a, s') → k ∉ S.stack s ∧
      ∃ t, m (S.withStack s (S.stack s ++ [k])) = .ok (a, t) ∧ s' = S.withStack t (S.stack s) := by
    intro s a s' h
    unfold guarded at h
    by_cases hmem : k ∈ S.stack s
    · rw [if_pos hmem] at h
      cases h
    · rw [if_neg hmem] at h
      obtain ⟨⟨b, t⟩, hstep, hrest⟩ := bind_eq_ok h
      obtain ⟨rfl, rfl⟩ := Prod.mk.inj (Except.ok.inj hrest)
      refine ⟨hmem, t, hstep, ?_⟩
      rw [hm.stack _ b t hstep, S.stack_withStack, List.dropLast_concat]
  refine ⟨?_, ?_, ?_, ?_⟩
  · intro s a s' h
    obtain ⟨-, t, -, rfl⟩ := hrun s a s' h
    exact S.stack_withStack t _
  · intro s a s' hs h
    obtain ⟨-, t, ht, rfl⟩ := hrun s a s' h
    obtain ⟨⟨v, hselect, hv⟩, hsound, hkept⟩ := hm.sound _ a t (hs.withStack _) ht
    refine ⟨⟨v, hselect, (S.recorded_withStack _ _ k v).mpr hv⟩, hsound.withStack _, ?_⟩
    intro j w hw
    exact (S.recorded_withStack _ _ j w).mpr (hkept j w ((S.recorded_withStack _ _ j w).mpr hw))
  · intro n s v a hv hselect hs hroom habsent
    obtain ⟨hnot, l, hsome, hready⟩ := hs.push hv habsent
    have hmem : k ∈ S.stack (S.withStack s (S.stack s ++ [k])) := by
      rw [S.stack_withStack]
      simp
    obtain ⟨t, ht, hothers⟩ := hm.complete l _ v a hsome hselect hready (hroom.withStack hk hnot) hmem
    refine ⟨S.withStack t (S.stack t).dropLast, ?_, ?_⟩
    · unfold guarded
      rw [if_neg hnot, ht]
      rfl
    · intro b hb
      apply Store.absent_withStack.mpr
      apply hothers b
      · rw [S.stack_withStack]
        exact List.mem_append_left _ hb
      · rintro rfl
        exact hnot hb
  · intro s hroom h
    unfold guarded at h
    by_cases hmem : k ∈ S.stack s
    · rw [if_pos hmem] at h
      exact hcyclic s (Except.error.inj h)
    · rw [if_neg hmem] at h
      rcases bind_eq_error h with hstep | ⟨r, -, hrest⟩
      · exact hm.bounded _ (hroom.withStack hk hmem) hstep
      · cases hrest

/-- The value that a query gives is recorded when the equation of the key gives the same one. -/
lemma Computes.records {k : κ} {select : ν → Option α} {embed : α → ν} {q : Query κ ν α}
    {m : StateT σ (Except ε) α} {insert : α → StateT σ (Except ε) Unit}
    (hm : Computes F S keys overflow fuel q m) (hq : ∀ env, ((F k).run env).bind select = q.run env)
    (hselect : ∀ v a, select v = some a ↔ v = embed a)
    (hinsert : ∀ a, Inserts S overflow k (embed a) (insert a)) :
    Records F S keys overflow fuel k select (do
      let a ← m
      insert a
      return a) := by
  have hrun : ∀ s a s', (do let a ← m; insert a; return a : StateT σ (Except ε) α) s = .ok (a, s') →
      ∃ t, m s = .ok (a, t) ∧ insert a t = .ok ((), s') := by
    intro s a s' h
    obtain ⟨⟨b, t⟩, hstep, hrest⟩ := bind_eq_ok h
    obtain ⟨⟨⟨⟩, t'⟩, hins, hpure⟩ := bind_eq_ok hrest
    obtain ⟨rfl, rfl⟩ := Prod.mk.inj (Except.ok.inj hpure)
    exact ⟨t, hstep, hins⟩
  refine ⟨?_, ?_, ?_, ?_⟩
  · intro s a s' h
    obtain ⟨t, hstep, hins⟩ := hrun s a s' h
    exact ((hinsert a).stack t s' hins).trans (hm.stack s a t hstep)
  · intro s a s' hs h
    obtain ⟨t, hstep, hins⟩ := hrun s a s' h
    obtain ⟨⟨n, hn⟩, ht, hkept⟩ := hm.sound s a t hs hstep
    have hvalue : HasValue F k (embed a) := by
      rw [← hq, Option.bind_eq_some_iff] at hn
      obtain ⟨v, hv, hselected⟩ := hn
      rw [(hselect v a).mp hselected] at hv
      exact ⟨n + 1, hv⟩
    obtain ⟨hrecorded, hs', hkept'⟩ := (hinsert a).sound ht hvalue hins
    exact ⟨⟨embed a, (hselect _ a).mpr rfl, hrecorded⟩, hs', fun j w hw => hkept' j w (hkept j w hw)⟩
  · intro n s v a hv hselected hs hroom hk
    have hn : q.run (approx F n) = some a := by
      rw [← hq, hv]
      exact hselected
    obtain ⟨t, ht, habsent⟩ := hm.complete n s a hn hs hroom
    obtain ⟨s', hs'⟩ := (hinsert a).absent t (habsent k hk)
    refine ⟨s', ?_, ?_⟩
    · rw [stateT_bind, ht]
      change (insert a >>= fun _ => pure a) t = _
      rw [stateT_bind, hs']
      rfl
    · exact fun b hb hne => (hinsert a).absent_of_ne hs' hne (habsent b hb)
  · intro s hroom h
    rcases bind_eq_error h with hstep | ⟨⟨a, t⟩, -, hrest⟩
    · exact hm.bounded s hroom hstep
    · rcases bind_eq_error hrest with hins | ⟨u, -, hpure⟩
      · exact (hinsert a).bounded t hins
      · cases hpure

/-- A program fails on an equation that does not give a value of the kind. -/
lemma Records.fail {k : κ} {select : ν → Option α} {e : ε} (he : e ≠ overflow)
    (hnone : ∀ v, Yields F (F k) v → select v = none) : Records F S keys overflow fuel k select (throw e) := by
  refine ⟨?_, ?_, ?_, ?_⟩
  · intro s a s' h
    cases h
  · intro s a s' _ h
    cases h
  · intro n s v a hv hselect
    rw [hnone v ⟨n, hv⟩] at hselect
    cases hselect
  · intro s _ h
    exact he (Except.error.inj h)

/-- A value of any kind is recorded, and one of another kind is an error. -/
lemma Records.select {k : κ} {select : ν → Option α} {m : StateT σ (Except ε) ν} {e : ν → ε}
    (hm : Records F S keys overflow fuel k some m) (he : ∀ v, e v ≠ overflow) :
    Records F S keys overflow fuel k select (do
      let v ← m
      (select v).elim (throw (e v)) pure) := by
  have hrun : ∀ s a s', (do let v ← m; (select v).elim (throw (e v)) pure : StateT σ (Except ε) α) s =
      .ok (a, s') → ∃ v, m s = .ok (v, s') ∧ select v = some a := by
    intro s a s' h
    obtain ⟨⟨v, t⟩, hstep, hrest⟩ := bind_eq_ok h
    dsimp only at hrest
    cases hv : select v with
    | none =>
      rw [hv] at hrest
      cases hrest
    | some b =>
      rw [hv] at hrest
      obtain ⟨rfl, rfl⟩ := Prod.mk.inj (Except.ok.inj hrest)
      exact ⟨v, hstep, hv⟩
  refine ⟨?_, ?_, ?_, ?_⟩
  · intro s a s' h
    obtain ⟨v, hstep, -⟩ := hrun s a s' h
    exact hm.stack s v s' hstep
  · intro s a s' hs h
    obtain ⟨v, hstep, hselect⟩ := hrun s a s' h
    obtain ⟨⟨w, hw, hrecorded⟩, hrest⟩ := hm.sound s v s' hs hstep
    obtain rfl := Option.some.inj hw
    exact ⟨⟨w, hselect, hrecorded⟩, hrest⟩
  · intro n s v a hv hselect hs hroom hk
    obtain ⟨s', hs', hothers⟩ := hm.complete n s v v hv rfl hs hroom hk
    refine ⟨s', ?_, hothers⟩
    rw [stateT_bind, hs']
    dsimp only [ok_bind]
    rw [hselect]
    rfl
  · intro s hroom h
    rcases bind_eq_error h with hstep | ⟨⟨v, t⟩, -, hrest⟩
    · exact hm.bounded s hroom hstep
    · dsimp only at hrest
      cases hv : select v with
      | none =>
        rw [hv] at hrest
        exact he v (Except.error.inj hrest)
      | some b =>
        rw [hv] at hrest
        cases hrest

end Programs

end Muen.Lib
