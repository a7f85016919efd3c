import Mathlib.Data.List.Basic

/-!
# Fallible computations

Computations that raise are taken apart at their first step: the whole succeeds only if the first
step does and the rest does with its result.
-/

namespace Muen.Lib

variable {ε α β : Type}

lemma bind_eq_ok {x : Except ε α} {f : α → Except ε β} {b : β} (h : (x >>= f) = .ok b) :
    ∃ a, x = .ok a ∧ f a = .ok b := by
  cases x with
  | error e => cases h
  | ok a => exact ⟨a, rfl, h⟩

lemma ok_bind (a : α) (f : α → Except ε β) : ((.ok a : Except ε α) >>= f) = f a := rfl

/-- A computation succeeds with a result in `P`, or raises what is in `Q`. -/
def Outcome (P : α → Prop) (Q : ε → Prop) : Except ε α → Prop
  | .ok a => P a
  | .error e => Q e

lemma Outcome.bind {P : α → Prop} {P' : β → Prop} {Q : ε → Prop} {x : Except ε α} {f : α → Except ε β}
    (hx : Outcome P Q x) (hf : ∀ a, P a → Outcome P' Q (f a)) : Outcome P' Q (x >>= f) := by
  cases x with
  | error e => exact hx
  | ok a => exact hf a hx

lemma Outcome.imp {P P' : α → Prop} {Q : ε → Prop} {x : Except ε α} (hx : Outcome P Q x)
    (h : ∀ a, P a → P' a) : Outcome P' Q x := by
  cases x with
  | error e => exact hx
  | ok a => exact h a hx

/-- A map that is possible for some of the elements. -/
lemma mapM_eq_ok_iff {f : α → Except ε β} {P : α → Prop} {g : α → β} (hf : ∀ a b, f a = .ok b ↔ P a ∧ b = g a)
    {l : List α} {l' : List β} : l.mapM f = .ok l' ↔ (∀ a ∈ l, P a) ∧ l' = l.map g := by
  induction l generalizing l' with
  | nil =>
    rw [List.mapM_nil, List.map_nil]
    constructor
    · intro h
      exact ⟨fun a ha => absurd ha List.not_mem_nil, (Except.ok.inj h).symm⟩
    · rintro ⟨-, rfl⟩
      rfl
  | cons a l ih =>
    rw [List.mapM_cons, List.forall_mem_cons, List.map_cons]
    constructor
    · intro h
      obtain ⟨b, hb, hrest⟩ := bind_eq_ok h
      obtain ⟨bs, hbs, hpure⟩ := bind_eq_ok hrest
      obtain ⟨ha, rfl⟩ := (hf a b).mp hb
      obtain ⟨hl, rfl⟩ := ih.mp hbs
      exact ⟨⟨ha, hl⟩, (Except.ok.inj hpure).symm⟩
    · rintro ⟨⟨ha, hl⟩, rfl⟩
      rw [(hf a (g a)).mpr ⟨ha, rfl⟩, ih.mpr ⟨hl, rfl⟩]
      rfl

lemma foldlM_flatMap (f : β → α → Except ε β) {γ : Type} (g : γ → List α) (l : List γ) (b : β) :
    (l.flatMap g).foldlM f b = l.foldlM (fun b c => (g c).foldlM f b) b := by
  induction l generalizing b with
  | nil => rfl
  | cons c l ih =>
    rw [List.flatMap_cons, List.foldlM_append, List.foldlM_cons]
    congr 1
    funext b'
    exact ih b'

section Along

variable {f : β → α → Except ε β} {P : β → α → Prop}

/-- What holds before each step of a fold, up to the first one that raises. -/
def Along (f : β → α → Except ε β) (P : β → α → Prop) : β → List α → Prop
  | _, [] => True
  | b, a :: l => P b a ∧
    match f b a with
    | .ok b' => Along f P b' l
    | .error _ => True

instance decidableAlong [∀ b a, Decidable (P b a)] : (b : β) → (l : List α) → Decidable (Along f P b l)
  | _, [] => inferInstanceAs (Decidable True)
  | b, a :: l =>
    match h : f b a with
    | .ok b' =>
      have := decidableAlong b' l
      decidable_of_iff (P b a ∧ Along f P b' l) (by simp only [Along, h])
    | .error _ => decidable_of_iff (P b a) (by simp only [Along, h, and_true])

lemma Along.cons {b b' : β} {a : α} {l : List α} (h : Along f P b (a :: l)) (hstep : f b a = .ok b') :
    P b a ∧ Along f P b' l := by
  simpa only [Along, hstep] using h

lemma along_true (b : β) (l : List α) : Along f (fun _ _ => True) b l := by
  induction l generalizing b with
  | nil => trivial
  | cons a l ih =>
    unfold Along
    refine ⟨trivial, ?_⟩
    cases f b a with
    | ok b' => exact ih b'
    | error e => trivial

/-- What the steps of a successful fold keep, given what holds before each of them. -/
lemma Along.foldlM_ok (inv : β → List α → Prop) {l : List α} {b b' : β} (halong : Along f P b l)
    (hinit : inv b [])
    (hstep : ∀ done a s s', inv s done → P s a → f s a = .ok s' → inv s' (done ++ [a]))
    (h : l.foldlM f b = .ok b') : inv b' l := by
  have hgen : ∀ (l done : List α) (b : β), Along f P b l → inv b done → l.foldlM f b = .ok b' →
      inv b' (done ++ l) := by
    intro l
    induction l with
    | nil =>
      intro done b _ hb h
      obtain rfl := Except.ok.inj h
      rwa [List.append_nil]
    | cons a l ih =>
      intro done b halong hb h
      rw [List.foldlM_cons] at h
      obtain ⟨s, hs, hrest⟩ := bind_eq_ok h
      obtain ⟨hP, halong⟩ := halong.cons hs
      have hnext := ih (done ++ [a]) s halong (hstep done a b s hb hP hs) hrest
      rwa [List.append_assoc, List.singleton_append] at hnext
  exact hgen l [] b halong hinit h

/-- Folds in lockstep: the second one succeeds when the first one does. -/
lemma Along.lockstep {γ : Type} {g : γ → α → Except ε γ} {R : β → γ → Prop} {l : List α} {b b' : β} {c : γ}
    (halong : Along f P b l)
    (hstep : ∀ a s s' t, R s t → P s a → f s a = .ok s' → ∃ t', g t a = .ok t' ∧ R s' t')
    (hR : R b c) (h : l.foldlM f b = .ok b') : ∃ c', l.foldlM g c = .ok c' ∧ R b' c' := by
  induction l generalizing b c with
  | nil =>
    obtain rfl := Except.ok.inj h
    exact ⟨c, rfl, hR⟩
  | cons a l ih =>
    rw [List.foldlM_cons] at h
    obtain ⟨s, hs, hrest⟩ := bind_eq_ok h
    obtain ⟨hP, halong⟩ := halong.cons hs
    obtain ⟨t, ht, hR⟩ := hstep a b s c hR hP hs
    obtain ⟨c', hfold, hR⟩ := ih halong hR hrest
    refine ⟨c', ?_, hR⟩
    rw [List.foldlM_cons, ht]
    exact hfold

end Along

/-- What the steps of a successful fold keep. -/
lemma foldlM_ok {f : β → α → Except ε β} (inv : β → List α → Prop) {l : List α} {b b' : β}
    (hinit : inv b []) (hstep : ∀ done a s s', inv s done → f s a = .ok s' → inv s' (done ++ [a]))
    (h : l.foldlM f b = .ok b') : inv b' l := by
  apply (along_true b l).foldlM_ok inv hinit _ h
  intro done a s s' hs _ hrun
  exact hstep done a s s' hs hrun

/-- A loop over a list that ends at the first step that fails. -/
def foldWhile {α β : Type} (body : β → α → β × Bool) : β → List α → β × Bool
  | b, [] => (b, true)
  | b, a :: l =>
    let (b', success) := body b a
    if success then foldWhile body b' l else (b', false)

lemma foldWhile_success {body : β → α → β × Bool} (h : ∀ b a, (body b a).2 = true) (l : List α) (b : β) :
    (foldWhile body b l).2 = true := by
  induction l generalizing b with
  | nil => rfl
  | cons a l ih =>
    have hstep := h b a
    unfold foldWhile
    cases hbody : body b a with
    | mk b' success =>
      rw [hbody] at hstep
      simp only [if_pos hstep]
      exact ih b'

/-- What the steps of a loop keep that does not fail. -/
lemma foldWhile_ok {body : β → α → β × Bool} (inv : β → List α → Prop) {l : List α} {b b' : β} (hinit : inv b [])
    (hstep : ∀ done a rest s s', l = done ++ a :: rest → inv s done → body s a = (s', true) → inv s' (done ++ [a]))
    (h : foldWhile body b l = (b', true)) : inv b' l := by
  have hgen : ∀ (m done : List α) (b : β), l = done ++ m → inv b done → foldWhile body b m = (b', true) →
      inv b' (done ++ m) := by
    intro m
    induction m with
    | nil =>
      intro done b _ hb h
      obtain rfl := congrArg Prod.fst h
      rwa [List.append_nil]
    | cons a m ih =>
      intro done b hl hb h
      unfold foldWhile at h
      cases hbody : body b a with
      | mk s success =>
        rw [hbody] at h
        cases success with
        | false => cases congrArg Prod.snd h
        | true =>
          have hl' : l = (done ++ [a]) ++ m := by
            rw [List.append_assoc, List.singleton_append]
            exact hl
          have hnext := ih (done ++ [a]) s hl' (hstep done a m b s hl hb hbody) h
          rwa [List.append_assoc, List.singleton_append] at hnext
  exact hgen l [] b rfl hinit h

/-- A fold whose steps succeed when their element fits, alone and with each of the elements before it. -/
lemma foldlM_exists_iff {f : β → α → Except ε β} (inv : β → List α → Prop) {P : α → Prop} {R : α → α → Prop}
    {l : List α} {b : β} (hinit : inv b [])
    (hstep : ∀ done a s s', inv s done → f s a = .ok s' → inv s' (done ++ [a]))
    (hexists : ∀ done a s, (∀ x ∈ done ++ [a], x ∈ l) → inv s done →
      ((∃ s', f s a = .ok s') ↔ P a ∧ ∀ d ∈ done, R d a)) :
    (∃ b', l.foldlM f b = .ok b') ↔ (∀ a ∈ l, P a) ∧ l.Pairwise R := by
  have hgen : ∀ (m done : List α) (b : β), done ++ m = l → inv b done →
      ((∃ b', m.foldlM f b = .ok b') ↔ (∀ a ∈ m, P a ∧ ∀ d ∈ done, R d a) ∧ m.Pairwise R) := by
    intro m
    induction m with
    | nil => exact fun done b _ _ => iff_of_true ⟨b, rfl⟩ ⟨by simp, List.Pairwise.nil⟩
    | cons a m ih =>
      intro done b hl hb
      have hmem : ∀ x ∈ done ++ [a], x ∈ l := by
        intro x hx
        rw [← hl, ← List.singleton_append, ← List.append_assoc]
        exact List.mem_append_left m hx
      have hhead := hexists done a b hmem hb
      rw [List.foldlM_cons, List.pairwise_cons]
      constructor
      · rintro ⟨b', h⟩
        obtain ⟨s, hs, hrest⟩ := bind_eq_ok h
        obtain ⟨htail, hpair⟩ := (ih (done ++ [a]) s (by simp [hl]) (hstep done a b s hb hs)).mp ⟨b', hrest⟩
        refine ⟨?_, ?_, hpair⟩
        · intro x hx
          rcases List.mem_cons.mp hx with rfl | hx
          · exact hhead.mp ⟨s, hs⟩
          · exact ⟨(htail x hx).1, fun d hd => (htail x hx).2 d (List.mem_append_left _ hd)⟩
        · exact fun x hx => (htail x hx).2 a (by simp)
      · rintro ⟨hall, hnext, hpair⟩
        obtain ⟨s, hs⟩ := hhead.mpr (hall a List.mem_cons_self)
        rw [hs]
        apply (ih (done ++ [a]) s (by simp [hl]) (hstep done a b s hb hs)).mpr
        refine ⟨?_, hpair⟩
        intro x hx
        obtain ⟨hP, hR⟩ := hall x (List.mem_cons_of_mem a hx)
        refine ⟨hP, ?_⟩
        intro d hd
        rcases List.mem_append.mp hd with hd | hd
        · exact hR d hd
        · rw [List.mem_singleton.mp hd]
          exact hnext x hx
  rw [hgen l [] b rfl hinit]
  simp

end Muen.Lib
