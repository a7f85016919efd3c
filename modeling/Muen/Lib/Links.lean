import Mathlib.Data.List.Nodup
import Mathlib.Data.List.Pairwise
import Mathlib.Logic.Function.Basic

/-!
# Intrusive doubly linked lists

A family of lists that share one array of cells: every list has a head, and every cell holds the cell
before it and the cell after it in the one list it may be part of. `Links.Represents` relates the
pointers to the lists they stand for.
-/

namespace Muen.Lib

/-- Lists named by `κ` over cells `ι`. -/
structure Links (κ ι : Type) where
  head : κ → Option ι
  next : ι → Option ι
  prev : ι → Option ι

section Assign

variable {ι β : Type} [DecidableEq ι]

/-- Assignment through a pointer; nothing is assigned through the null pointer. -/
def assign (f : ι → β) : Option ι → β → ι → β
  | none, _ => f
  | some i, b => Function.update f i b

lemma assign_apply (f : ι → β) (o : Option ι) (b : β) (i : ι) :
    assign f o b i = if o = some i then b else f i := by
  cases o with
  | none => simp [assign]
  | some j => simp [assign, Function.update_apply, eq_comm]

end Assign

namespace Links

variable {κ ι : Type}

section Operations

variable [DecidableEq κ] [DecidableEq ι]

/-- The links after cell `x` of list `q` is cut out. -/
def unlink (l : Links κ ι) (q : κ) (x : ι) : Links κ ι where
  head := if l.prev x = none then Function.update l.head q (l.next x) else l.head
  next := Function.update (assign l.next (l.prev x) (l.next x)) x none
  prev := Function.update (assign l.prev (l.next x) (l.prev x)) x none

/-- The links after cell `x` is put into list `q` between two neighbours. -/
def link (l : Links κ ι) (q : κ) (x : ι) (p n : Option ι) : Links κ ι where
  head := if p = none then Function.update l.head q (some x) else l.head
  next := assign (Function.update l.next x n) p (some x)
  prev := assign (Function.update l.prev x p) n (some x)

end Operations

/-- The links stand for the lists: heads and neighbours are those of the lists, no cell occurs twice,
and a cell on no list has no neighbours. -/
structure Represents (l : Links κ ι) (f : κ → List ι) : Prop where
  head_eq : ∀ q, l.head q = (f q).head?
  links_eq : ∀ q as x bs, f q = as ++ x :: bs → l.prev x = as.getLast? ∧ l.next x = bs.head?
  nodup : ∀ q, (f q).Nodup
  disjoint : ∀ q q' x, x ∈ f q → x ∈ f q' → q = q'
  free : ∀ x, (∀ q, x ∉ f q) → l.prev x = none ∧ l.next x = none

variable {l : Links κ ι} {f : κ → List ι} {q : κ} {x : ι} {as bs : List ι}

lemma represents_nil : Represents (⟨fun _ => none, fun _ => none, fun _ => none⟩ : Links κ ι)
    (fun _ => []) where
  head_eq _ := rfl
  links_eq _ _ _ _ h := by simp at h
  nodup _ := List.nodup_nil
  disjoint _ _ _ h := by simp at h
  free _ _ := ⟨rfl, rfl⟩

/-- A cell of a list is found through its neighbour before it, or as the head of the list. -/
lemma Represents.mem_iff (h : l.Represents f) (hx : ∀ q', x ∈ f q' → q' = q) :
    x ∈ f q ↔ l.head q = some x ∨ l.prev x ≠ none := by
  constructor
  · intro hmem
    obtain ⟨as, bs, hf⟩ := List.append_of_mem hmem
    cases as with
    | nil => left; rw [h.head_eq, hf]; rfl
    | cons a as => right; rw [(h.links_eq q _ x bs hf).1]; simp
  · rintro (hhead | hprev)
    · rw [h.head_eq] at hhead
      exact List.mem_of_head? hhead
    · by_contra hmem
      have hfree : ∀ q', x ∉ f q' := fun q' hq' => hmem (hx q' hq' ▸ hq')
      exact hprev (h.free x hfree).1

/-- A cell is not a neighbour of a cell on another list. -/
lemma Represents.neighbours_mem (h : l.Represents f) (hx : x ∈ f q) :
    (∀ y, l.prev x = some y → y ∈ f q) ∧ (∀ y, l.next x = some y → y ∈ f q) := by
  obtain ⟨as, bs, hf⟩ := List.append_of_mem hx
  have hl := h.links_eq q as x bs hf
  constructor
  · intro y hy
    rw [hf]
    exact List.mem_append_left _ (List.mem_of_getLast? (hl.1 ▸ hy))
  · intro y hy
    rw [hf]
    exact List.mem_append_right _ (List.mem_cons_of_mem _ (List.mem_of_head? (hl.2 ▸ hy)))

/-- The neighbours before are the inverse of the neighbours behind. -/
lemma Represents.next_eq_some_iff (h : l.Represents f) (x y : ι) : l.next x = some y ↔ l.prev y = some x := by
  constructor
  · intro hxy
    by_cases hx : ∃ q, x ∈ f q
    · obtain ⟨q, hx⟩ := hx
      obtain ⟨as, bs, hf⟩ := List.append_of_mem hx
      rw [(h.links_eq q as x bs hf).2] at hxy
      obtain ⟨bs, rfl⟩ := List.head?_eq_some_iff.mp hxy
      rw [(h.links_eq q (as ++ [x]) y bs (by simp [hf])).1]
      simp
    · rw [(h.free x (not_exists.mp hx)).2] at hxy
      exact absurd hxy (by simp)
  · intro hyx
    by_cases hy : ∃ q, y ∈ f q
    · obtain ⟨q, hy⟩ := hy
      obtain ⟨as, bs, hf⟩ := List.append_of_mem hy
      rw [(h.links_eq q as y bs hf).1] at hyx
      obtain ⟨as, rfl⟩ := List.getLast?_eq_some_iff.mp hyx
      rw [(h.links_eq q as x (y :: bs) (by simp [hf])).2]
      simp
    · rw [(h.free y (not_exists.mp hy)).1] at hyx
      exact absurd hyx (by simp)

/-- In a list without repetition the last cell of the front part is not in the rest. -/
lemma getLast?_ne_of_nodup {y : ι} (hnd : (as ++ bs).Nodup) (hy : y ∈ bs) : as.getLast? ≠ some y := by
  intro h
  exact (List.nodup_append.mp hnd).2.2 y (List.mem_of_getLast? h) y hy rfl

lemma head?_ne_of_nodup {y : ι} (hnd : (as ++ bs).Nodup) (hy : y ∈ as) : bs.head? ≠ some y := by
  intro h
  exact (List.nodup_append.mp hnd).2.2 y hy y (List.mem_of_head? h) rfl

lemma getLast?_append_cons {y : ι} {cs : List ι} (hcs : cs ≠ []) :
    (as ++ y :: cs).getLast? = cs.getLast? := by
  rw [show as ++ y :: cs = (as ++ [y]) ++ cs by simp, List.getLast?_append_of_ne_nil _ hcs]

/-- The cell before a gap keeps its successor unless it is the last one before the gap. -/
lemma next_before_gap [DecidableEq ι] {y : ι} {cs zs : List ι} (hnd : (y :: cs).Nodup) :
    (if (as ++ y :: cs).getLast? = some y then bs.head? else (cs ++ zs).head?) = (cs ++ bs).head? := by
  by_cases hcs : cs = []
  · simp [hcs]
  · have hne : (as ++ y :: cs).getLast? ≠ some y := by
      intro hlast
      rw [getLast?_append_cons hcs] at hlast
      exact (List.nodup_cons.mp hnd).1 (List.mem_of_getLast? hlast)
    rw [if_neg hne, List.head?_append_of_ne_nil _ hcs, List.head?_append_of_ne_nil _ hcs]

/-- The cell behind a gap keeps its predecessor unless it is the first one behind the gap. -/
lemma prev_behind_gap [DecidableEq ι] {y : ι} {cs ys zs : List ι} (hnd : (cs ++ y :: ys).Nodup) :
    (if (cs ++ y :: ys).head? = some y then as.getLast? else (zs ++ cs).getLast?) = (as ++ cs).getLast? := by
  cases cs with
  | nil => simp
  | cons c cs =>
    have hne : c ≠ y := by
      rintro rfl
      simp at hnd
    rw [List.getLast?_append_of_ne_nil _ (List.cons_ne_nil c cs),
      List.getLast?_append_of_ne_nil _ (List.cons_ne_nil c cs)]
    simp [hne]

variable [DecidableEq κ] [DecidableEq ι]

lemma unlink_head (l : Links κ ι) (q q' : κ) (x : ι) :
    (l.unlink q x).head q' = if l.prev x = none ∧ q' = q then l.next x else l.head q' := by
  unfold unlink
  by_cases hp : l.prev x = none <;> simp [hp, Function.update_apply]

lemma unlink_next (l : Links κ ι) (q : κ) (x y : ι) :
    (l.unlink q x).next y = if y = x then none else if l.prev x = some y then l.next x else l.next y := by
  simp only [unlink, Function.update_apply, assign_apply]

lemma unlink_prev (l : Links κ ι) (q : κ) (x y : ι) :
    (l.unlink q x).prev y = if y = x then none else if l.next x = some y then l.prev x else l.prev y := by
  simp only [unlink, Function.update_apply, assign_apply]

lemma link_head (l : Links κ ι) (q q' : κ) (x : ι) (p n : Option ι) :
    (l.link q x p n).head q' = if p = none ∧ q' = q then some x else l.head q' := by
  unfold link
  by_cases hp : p = none <;> simp [hp, Function.update_apply]

lemma link_next (l : Links κ ι) (q : κ) (x y : ι) (p n : Option ι) :
    (l.link q x p n).next y = if p = some y then some x else if y = x then n else l.next y := by
  simp only [link, Function.update_apply, assign_apply]

lemma link_prev (l : Links κ ι) (q : κ) (x y : ι) (p n : Option ι) :
    (l.link q x p n).prev y = if n = some y then some x else if y = x then p else l.prev y := by
  simp only [link, Function.update_apply, assign_apply]

/-- The neighbours of a cell that stays on the list from which a cell is cut out. -/
lemma Represents.unlink_links (h : l.Represents f) (hf : f q = as ++ x :: bs) {as' bs' : List ι} {y : ι}
    (hy : as ++ bs = as' ++ y :: bs') :
    (l.unlink q x).prev y = as'.getLast? ∧ (l.unlink q x).next y = bs'.head? := by
  have hnd : (as ++ x :: bs).Nodup := hf ▸ h.nodup q
  obtain ⟨hprev, hnext⟩ := h.links_eq q as x bs hf
  have hyx : y ≠ x := by
    rintro rfl
    have hmem : y ∈ as ++ bs := by rw [hy]; simp
    rw [List.nodup_middle] at hnd
    exact (List.nodup_cons.mp hnd).1 hmem
  rw [unlink_prev, unlink_next, if_neg hyx, if_neg hyx, hprev, hnext]
  have hbehind : ∀ cs, as' = as ++ cs → bs = cs ++ y :: bs' →
      (if bs.head? = some y then as.getLast? else l.prev y) = as'.getLast? ∧
      (if as.getLast? = some y then bs.head? else l.next y) = bs'.head? := by
    rintro cs rfl rfl
    have hold := h.links_eq q (as ++ x :: cs) y bs' (by simp [hf])
    have hlast : as.getLast? ≠ some y := getLast?_ne_of_nodup hnd (by simp)
    rw [if_neg hlast, hold.1, hold.2]
    have hcs : (cs ++ y :: bs').Nodup := (List.nodup_cons.mp hnd.of_append_right).2
    refine ⟨?_, rfl⟩
    rw [show as ++ x :: cs = (as ++ [x]) ++ cs by simp]
    exact prev_behind_gap hcs
  rcases List.append_eq_append_iff.mp hy with ⟨cs, has', hbs⟩ | ⟨cs, has, hbs⟩
  · exact hbehind cs has' hbs
  · cases cs with
    | nil => exact hbehind [] (by simp [has]) (by simpa using hbs.symm)
    | cons c cs =>
      simp only [List.cons_append, List.cons.injEq] at hbs
      obtain ⟨rfl, rfl⟩ := hbs
      subst has
      have hold := h.links_eq q as' y (cs ++ x :: bs) (by simp [hf])
      have hhead : bs.head? ≠ some y := by
        have hnd' : ((as' ++ y :: cs ++ [x]) ++ bs).Nodup := by simpa using hnd
        exact head?_ne_of_nodup hnd' (by simp)
      rw [if_neg hhead, hold.1, hold.2]
      refine ⟨rfl, ?_⟩
      have hcs : (y :: cs).Nodup := ((List.nodup_append.mp hnd).1.of_append_right)
      exact next_before_gap hcs

/-- Cutting out a cell of a list takes it from that list and from no other. -/
lemma Represents.unlink (h : l.Represents f) (hf : f q = as ++ x :: bs) :
    (l.unlink q x).Represents (Function.update f q (as ++ bs)) := by
  have hnd : (as ++ x :: bs).Nodup := hf ▸ h.nodup q
  have hx : x ∈ f q := by rw [hf]; simp
  have hn := h.neighbours_mem hx
  have hsub : ∀ q' y, y ∈ Function.update f q (as ++ bs) q' → y ∈ f q' := by
    intro q' y hy
    by_cases hq : q' = q
    · subst hq
      rw [Function.update_self] at hy
      rw [hf]
      exact List.mem_append.mpr ((List.mem_append.mp hy).imp_right (List.mem_cons_of_mem x))
    · rwa [Function.update_of_ne hq] at hy
  constructor
  case head_eq =>
    intro q'
    obtain ⟨hprev, hnext⟩ := h.links_eq q as x bs hf
    rw [unlink_head, hprev, hnext]
    by_cases hq : q' = q
    · subst hq
      rw [Function.update_self]
      cases as with
      | nil => simp
      | cons a as => simp [h.head_eq, hf]
    · rw [if_neg (fun hc => hq hc.2), Function.update_of_ne hq, h.head_eq]
  case links_eq =>
    intro q' as' y bs' hq'
    by_cases hq : q' = q
    · subst hq
      rw [Function.update_self] at hq'
      exact h.unlink_links hf hq'
    · rw [Function.update_of_ne hq] at hq'
      have hy : y ∈ f q' := by rw [hq']; simp
      have hother : ∀ z ∈ f q, z ≠ y := by
        rintro z hz rfl
        exact hq (h.disjoint q' q z hy hz)
      rw [unlink_prev, unlink_next, if_neg (fun he => hother x hx he.symm),
        if_neg (fun he => hother y (hn.2 y he) rfl), if_neg (fun he => hother x hx he.symm),
        if_neg (fun he => hother y (hn.1 y he) rfl)]
      exact h.links_eq q' as' y bs' hq'
  case nodup =>
    intro q'
    by_cases hq : q' = q
    · subst hq
      rw [Function.update_self]
      rw [List.nodup_middle] at hnd
      exact (List.nodup_cons.mp hnd).2
    · rw [Function.update_of_ne hq]
      exact h.nodup q'
  case disjoint =>
    intro q₁ q₂ y h₁ h₂
    exact h.disjoint q₁ q₂ y (hsub q₁ y h₁) (hsub q₂ y h₂)
  case free =>
    intro y hy
    rw [unlink_prev, unlink_next]
    by_cases hyx : y = x
    · simp [hyx]
    · have hyq : y ∉ f q := by
        intro hmem
        have hgone := hy q
        rw [Function.update_self] at hgone
        rw [hf] at hmem
        simp_all
      have hfree := h.free y (fun q' hmem => by
        by_cases hq : q' = q
        · exact hyq (hq ▸ hmem)
        · exact hy q' (by rwa [Function.update_of_ne hq]))
      rw [if_neg hyx, if_neg (fun he => hyq (hn.2 y he)), if_neg hyx, if_neg (fun he => hyq (hn.1 y he))]
      exact hfree

/-- The neighbours of a cell of a list into which a cell is put. -/
lemma Represents.link_links (h : l.Represents f) (hf : f q = as ++ bs) (hx : x ∉ f q) {as' bs' : List ι}
    {y : ι} (hy : as ++ x :: bs = as' ++ y :: bs') :
    (l.link q x as.getLast? bs.head?).prev y = as'.getLast? ∧
      (l.link q x as.getLast? bs.head?).next y = bs'.head? := by
  have hnd : (as ++ bs).Nodup := hf ▸ h.nodup q
  have hxs : x ∉ as ∧ x ∉ bs := by simpa [hf] using hx
  rw [link_prev, link_next]
  rcases List.append_eq_append_iff.mp hy with ⟨cs, has', hbs⟩ | ⟨cs, has, hbs⟩
  · cases cs with
    | nil =>
      simp only [List.nil_append, List.cons.injEq] at hbs
      obtain ⟨rfl, rfl⟩ := hbs
      rw [if_neg (fun he => hxs.2 (List.mem_of_head? he)), if_neg (fun he => hxs.1 (List.mem_of_getLast? he))]
      simp [has']
    | cons c cs =>
      simp only [List.cons_append, List.cons.injEq] at hbs
      obtain ⟨rfl, rfl⟩ := hbs
      subst has'
      have hyx : y ≠ x := by rintro rfl; simp at hxs
      have hold := h.links_eq q (as ++ cs) y bs' (by simp [hf])
      have hlast : as.getLast? ≠ some y := getLast?_ne_of_nodup hnd (by simp)
      rw [if_neg hlast, if_neg hyx, if_neg hyx, hold.1, hold.2]
      have hgap := @prev_behind_gap ι (as ++ [x]) _ y cs bs' as hnd.of_append_right
      refine ⟨?_, rfl⟩
      simpa using hgap
  · cases cs with
    | nil =>
      simp only [List.nil_append, List.cons.injEq] at hbs
      obtain ⟨rfl, rfl⟩ := hbs
      rw [if_neg (fun he => hxs.2 (List.mem_of_head? he)), if_neg (fun he => hxs.1 (List.mem_of_getLast? he))]
      simp [has]
    | cons c cs =>
      simp only [List.cons_append, List.cons.injEq] at hbs
      obtain ⟨rfl, rfl⟩ := hbs
      subst has
      have hyx : y ≠ x := by rintro rfl; simp at hxs
      have hold := h.links_eq q as' y (cs ++ bs) (by simp [hf])
      have hhead : bs.head? ≠ some y := head?_ne_of_nodup hnd (by simp)
      rw [if_neg hhead, if_neg hyx, if_neg hyx, hold.1, hold.2]
      refine ⟨rfl, ?_⟩
      have hcs : (y :: cs).Nodup := ((List.nodup_append.mp hnd).1.of_append_right)
      exact @next_before_gap ι as' (x :: bs) _ y cs bs hcs

/-- A cell on no list can be put between two neighbours of a list. -/
lemma Represents.link (h : l.Represents f) (hf : f q = as ++ bs) (hx : ∀ q', x ∉ f q') :
    (l.link q x as.getLast? bs.head?).Represents (Function.update f q (as ++ x :: bs)) := by
  have hsub : ∀ q' y, y ∈ Function.update f q (as ++ x :: bs) q' → y ∈ f q' ∨ (y = x ∧ q' = q) := by
    intro q' y hy
    by_cases hq : q' = q
    · subst hq
      rw [Function.update_self] at hy
      rw [hf]
      simp only [List.mem_append, List.mem_cons] at hy ⊢
      tauto
    · exact .inl (by rwa [Function.update_of_ne hq] at hy)
  constructor
  case head_eq =>
    intro q'
    rw [link_head]
    by_cases hq : q' = q
    · subst hq
      rw [Function.update_self]
      cases as with
      | nil => simp
      | cons a as => simp [h.head_eq, hf]
    · rw [if_neg (fun hc => hq hc.2), Function.update_of_ne hq, h.head_eq]
  case links_eq =>
    intro q' as' y bs' hq'
    by_cases hq : q' = q
    · subst hq
      rw [Function.update_self] at hq'
      exact h.link_links hf (hx q') hq'
    · rw [Function.update_of_ne hq] at hq'
      have hy : y ∈ f q' := by rw [hq']; simp
      have hyx : y ≠ x := by rintro rfl; exact hx q' hy
      have hother : y ∉ as ∧ y ∉ bs := by
        have hyq : y ∉ f q := fun hmem => hq (h.disjoint q' q y hy hmem)
        simpa [hf] using hyq
      rw [link_prev, link_next, if_neg (fun he => hother.2 (List.mem_of_head? he)), if_neg hyx,
        if_neg (fun he => hother.1 (List.mem_of_getLast? he)), if_neg hyx]
      exact h.links_eq q' as' y bs' hq'
  case nodup =>
    intro q'
    by_cases hq : q' = q
    · subst hq
      rw [Function.update_self, List.nodup_middle]
      exact List.nodup_cons.mpr ⟨hf ▸ hx q', hf ▸ h.nodup q'⟩
    · rw [Function.update_of_ne hq]
      exact h.nodup q'
  case disjoint =>
    intro q₁ q₂ y h₁ h₂
    rcases hsub q₁ y h₁ with hy₁ | ⟨rfl, rfl⟩
    · rcases hsub q₂ y h₂ with hy₂ | ⟨rfl, rfl⟩
      · exact h.disjoint q₁ q₂ y hy₁ hy₂
      · exact absurd hy₁ (hx q₁)
    · rcases hsub q₂ y h₂ with hy₂ | ⟨-, rfl⟩
      · exact absurd hy₂ (hx q₂)
      · rfl
  case free =>
    intro y hy
    have hyq := hy q
    rw [Function.update_self] at hyq
    simp only [List.mem_append, List.mem_cons, not_or] at hyq
    have hfree := h.free y (fun q' hmem => by
      by_cases hq : q' = q
      · subst hq
        rw [hf] at hmem
        exact (List.mem_append.mp hmem).elim hyq.1 hyq.2.2
      · exact hy q' (by rwa [Function.update_of_ne hq]))
    rw [link_prev, link_next, if_neg (fun he => hyq.2.2 (List.mem_of_head? he)), if_neg hyq.2.1,
      if_neg (fun he => hyq.1 (List.mem_of_getLast? he)), if_neg hyq.2.1]
    exact hfree

end Links

end Muen.Lib
