import Muen.Tools.Conditionals.Expansion

/-!
# Runs of Mutools.Conditionals

While `Evaluate` walks along the children of a node, those before the current one are expanded and those behind it are
as they were. The walk comes to the end of them, and the document then has the expanded forests.
-/

namespace Muen.Tools.Conditionals
open Muen.Lib
open Muen.Tools.Xml

variable {values : Values} {access : NodeAccess}

/-- Only the links of some nodes change. -/
structure Changes (nodes : List Nat) (d d' : Document) : Prop where
  label : d'.label = d.label
  children : ∀ a, a ∉ nodes → d'.children a = d.children a

lemma Changes.refl (nodes : List Nat) (d : Document) : Changes nodes d d := ⟨rfl, fun _ _ => rfl⟩

lemma Changes.mono {nodes nodes' : List Nat} {d d' : Document} (h : Changes nodes d d') (hsubset : nodes ⊆ nodes') :
    Changes nodes' d d' :=
  ⟨h.label, fun a ha => h.children a fun hmem => ha (hsubset hmem)⟩

lemma Changes.trans {nodes : List Nat} {d d' d'' : Document} (h : Changes nodes d d') (h' : Changes nodes d' d'') :
    Changes nodes d d'' :=
  ⟨h'.label.trans h.label, fun a ha => (h'.children a ha).trans (h.children a ha)⟩

lemma Changes.repr {nodes : List Nat} {d d' : Document} (h : Changes nodes d d') {forest : Forest}
    (hrepr : forest.Repr d) (hdisjoint : ∀ a ∈ forest.ids, a ∉ nodes) : forest.Repr d' :=
  hrepr.congr fun a ha => h.children a (hdisjoint a ha)

lemma transferChildren_spec {oldParent newParent ref : Nat} (hne : oldParent ≠ newParent) {d : Document}
    {m l r : List Nat} (hold : d.children oldParent = m) (hnew : d.children newParent = l ++ ref :: r) {n : Nat}
    (hn : m.length ≤ n) :
    ∃ d', transferChildren oldParent newParent ref n d = .ok d' ∧ d'.children newParent = l ++ m ++ ref :: r ∧
      Changes [oldParent, newParent] d d' := by
  induction m generalizing l d n with
  | nil =>
    refine ⟨d, ?_, by rw [List.append_nil, hnew], Changes.refl _ d⟩
    cases n with
    | zero => rfl
    | succ n =>
      unfold transferChildren Dom.firstChild
      rw [hold]
      rfl
  | cons c m ih =>
    cases n with
    | zero => exact absurd hn (Nat.not_succ_le_zero _)
    | succ n =>
      have hmem : c ∈ d.children oldParent := by
        rw [hold]
        exact List.mem_cons_self
      have hc := Dom.not_mem_children_of_ne hmem (Ne.symm hne)
      obtain ⟨d₁, hinsert, hnew₁, hlabel, hothers⟩ := Dom.insertBefore_spec hnew hc
      have hold₁ : d₁.children oldParent = m := by
        rw [hothers oldParent hne, hold, List.erase_cons_head]
      have hsplit : d₁.children newParent = (l ++ [c]) ++ ref :: r := by
        rw [hnew₁, List.append_assoc]
        rfl
      obtain ⟨d', hrun, hnew', hchanges⟩ := ih hold₁ hsplit (Nat.le_of_succ_le_succ hn)
      refine ⟨d', ?_, by rw [hnew']; simp, ?_⟩
      · unfold transferChildren Dom.firstChild
        rw [hold]
        dsimp only [List.head?_cons]
        rw [hinsert]
        exact hrun
      · refine Changes.trans ⟨hlabel, ?_⟩ hchanges
        intro a ha
        have haold : a ≠ oldParent := fun heq => ha (by simp [heq])
        have hanew : a ≠ newParent := fun heq => ha (by simp [heq])
        rw [hothers a hanew, List.erase_of_not_mem (Dom.not_mem_children_of_ne hmem haold)]

lemma below_spec {d : Document} {forest : Forest} {id : Nat} (hid : id ∈ forest.roots) (hrepr : forest.Repr d)
    (hnodup : forest.ids.Nodup) :
    d.children id = (below id forest).roots ∧ (below id forest).Repr d ∧ id ∉ (below id forest).ids := by
  induction forest with
  | nil => cases hid
  | cons root children rest _ ih =>
    obtain ⟨hroot, hchildren, hrest⟩ := hrepr
    obtain ⟨hnot, hnodups⟩ := List.nodup_cons.mp hnodup
    unfold below
    by_cases heq : root = id
    · rw [if_pos heq, ← heq]
      exact ⟨hroot, hchildren, fun hmem => hnot (List.mem_append_left _ hmem)⟩
    · rw [if_neg heq]
      have hmem := (List.mem_cons.mp hid).resolve_left (Ne.symm heq)
      exact ih hmem hrest hnodups.of_append_right

lemma chosen_mem {label : Nat → Node} {children : List Nat} {caseNode : Node} {option : Nat}
    (h : chosen values access caseNode (options label children) = some option) : option ∈ children := by
  unfold chosen at h
  split at h
  · obtain ⟨o, hfind, rfl⟩ := Option.map_eq_some_iff.mp h
    have hmem := List.mem_of_mem_filter (List.mem_of_find?_eq_some hfind)
    obtain ⟨id, hid, rfl⟩ := List.mem_map.mp hmem
    exact hid
  · cases h

/-- The children of a node are moved in front of a sibling, and the sibling is taken away. -/
lemma transfer_remove_spec {d : Document} {parent child oldParent : Nat} {l r : List Nat} {forest : Forest}
    (hparent : d.children parent = l ++ child :: r) (hold : d.children oldParent = forest.roots)
    (hrepr : forest.Repr d) (hne : oldParent ≠ parent) (hforest : ∀ a ∈ forest.ids, a ≠ parent ∧ a ≠ oldParent) :
    ∃ d₁, transferChildren oldParent parent child (d.children oldParent).length d = .ok d₁ ∧
      (d₁.removeChild parent child).children parent = l ++ forest.roots ++ r ∧
      forest.Repr (d₁.removeChild parent child) ∧ Changes [oldParent, parent] d (d₁.removeChild parent child) := by
  obtain ⟨d₁, hrun, hnew, hchanges⟩ := transferChildren_spec hne rfl hparent (Nat.le_refl (d.children oldParent).length)
  obtain ⟨hremoved, hlabel, hothers⟩ := Dom.removeChild_spec hnew
  have hall : Changes [oldParent, parent] d (d₁.removeChild parent child) :=
    hchanges.trans ⟨hlabel, fun a ha => hothers a fun heq => ha (by simp [heq])⟩
  refine ⟨d₁, hrun, ?_, hall.repr hrepr ?_, hall⟩
  · rw [hremoved, hold]
  · intro a ha hmem
    obtain ⟨hparent', hold'⟩ := hforest a ha
    simp [hparent', hold'] at hmem

lemma expandConditional_spec {d : Document} {parent id : Nat} {l r : List Nat} {forest : Forest}
    (hparent : d.children parent = l ++ id :: r) (hid : d.children id = forest.roots) (hrepr : forest.Repr d)
    (hnodup : (parent :: id :: forest.ids).Nodup) (heval : ConditionEvaluates values access d.label id forest) :
    ∃ d', expandConditional values access parent id d = .ok d' ∧
      d'.children parent = l ++ (selected values access d.label id forest).roots ++ r ∧
      (selected values access d.label id forest).Repr d' ∧ Changes (parent :: id :: forest.ids) d d' := by
  obtain ⟨hparentNot, hrest⟩ := List.nodup_cons.mp hnodup
  obtain ⟨hidNot, hids⟩ := List.nodup_cons.mp hrest
  have hne : id ≠ parent := fun heq => hparentNot (by simp [heq])
  obtain ⟨hremoved, hlabel, hothers⟩ := Dom.removeChild_spec hparent
  have hgone : Changes (parent :: id :: forest.ids) d (d.removeChild parent id) :=
    ⟨hlabel, fun a ha => hothers a fun heq => ha (by simp [heq])⟩
  unfold expandConditional selected
  by_cases hif : (d.label id).nodeName = "if"
  · rw [if_pos hif, if_pos hif]
    obtain ⟨b, hb⟩ := heval.1 hif
    rw [hb, ← evaluateIf_ok hb]
    cases b with
    | true =>
      obtain ⟨d₁, hrun, hchildren, hrepr', hchanges⟩ := transfer_remove_spec hparent hid hrepr hne (by
        intro a ha
        exact ⟨fun heq => hparentNot (by simp [← heq, ha]), fun heq => hidNot (heq ▸ ha)⟩)
      refine ⟨_, ?_, hchildren, hrepr', hchanges.mono (by simp)⟩
      dsimp only [raising]
      rw [ok_bind, if_pos rfl, hrun]
      rfl
    | false => exact ⟨_, rfl, by simpa [Forest.roots] using hremoved, trivial, hgone⟩
  · rw [if_neg hif, if_neg hif]
    by_cases hcase : (d.label id).nodeName = "case"
    · rw [if_pos hcase, if_pos hcase]
      obtain ⟨option, hoption⟩ := heval.2 hcase
      rw [hid, hoption, ← evaluateCaseNodeFrame_ok hoption]
      cases option with
      | none => exact ⟨_, rfl, by simpa [Forest.roots] using hremoved, trivial, hgone⟩
      | some option =>
        have hmem := chosen_mem (evaluateCaseNodeFrame_ok hoption).symm
        have hin := forest.roots_sublist.mem hmem
        obtain ⟨hbelow, hreprBelow, hself⟩ := below_spec hmem hrepr hids
        have hoptionParent : option ≠ parent := fun heq => hparentNot (by simp [← heq, hin])
        obtain ⟨d₁, hrun, hchildren, hrepr', hchanges⟩ := transfer_remove_spec hparent hbelow hreprBelow
          hoptionParent (by
            intro a ha
            have hall := (below_sublist option forest).mem ha
            exact ⟨fun heq => hparentNot (by simp [← heq, hall]), fun heq => hself (heq ▸ ha)⟩)
        refine ⟨_, ?_, hchildren, hrepr', hchanges.mono (by simp [hin])⟩
        dsimp only [raising]
        rw [ok_bind]
        dsimp only
        rw [hrun]
        rfl
    · rw [if_neg hcase, if_neg hcase]
      exact ⟨d, rfl, by simp [hparent, Forest.roots], ⟨hid, hrepr, trivial⟩, Changes.refl _ d⟩

/-- The walk from some child of a node on expands it and its siblings. -/
lemma evaluate_spec {fuel : Nat} {forest : Forest} {d : Document} {parent : Nat} {l : List Nat}
    (hparent : d.children parent = l ++ forest.roots) (hrepr : forest.Repr d)
    (hnodup : (parent :: forest.ids).Nodup) (heval : Evaluates values access d.label forest)
    (hfuel : forest.ids.length < fuel) :
    ∃ d', evaluate values access fuel parent forest.roots.head? d = .ok d' ∧
      d'.children parent = l ++ (expanded values access d.label forest).roots ∧
      (expanded values access d.label forest).Repr d' ∧ Changes (parent :: forest.ids) d d' := by
  induction forest generalizing fuel d parent l with
  | nil =>
    obtain ⟨fuel, rfl⟩ := Nat.exists_eq_succ_of_ne_zero (Nat.pos_iff_ne_zero.mp hfuel)
    exact ⟨d, rfl, hparent, trivial, Changes.refl _ d⟩
  | cons id children rest ihChildren ihRest =>
    obtain ⟨fuel, rfl⟩ := Nat.exists_eq_succ_of_ne_zero (Nat.ne_zero_of_lt hfuel)
    obtain ⟨hid, hreprChildren, hreprRest⟩ := hrepr
    obtain ⟨hevalChildren, hevalId, hevalRest⟩ := heval
    have hlength : children.ids.length < fuel ∧ rest.ids.length < fuel := by
      simp only [Forest.ids, List.length_cons, List.length_append] at hfuel
      omega
    obtain ⟨hparentNot, hnodupAll⟩ := List.nodup_cons.mp hnodup
    obtain ⟨hidNot, hnodupBelow⟩ := List.nodup_cons.mp hnodupAll
    have hparentId : parent ≠ id := fun heq => hparentNot (by simp [Forest.ids, heq])
    have hparentChildren : parent ∉ children.ids := fun hmem => hparentNot (by simp [Forest.ids, hmem])
    have hparentRest : parent ∉ rest.ids := fun hmem => hparentNot (by simp [Forest.ids, hmem])
    have hidChildren : id ∉ children.ids := fun hmem => hidNot (List.mem_append_left _ hmem)
    have hidRest : id ∉ rest.ids := fun hmem => hidNot (List.mem_append_right _ hmem)
    have hdisjoint := List.disjoint_of_nodup_append hnodupBelow
    have hsublist : (expanded values access d.label children).ids.Sublist children.ids := expanded_sublist children
    -- The children of the current node.
    obtain ⟨d₁, hrun₁, hchildren₁, hrepr₁, hchanges₁⟩ := ihChildren (l := []) (by rw [hid]; rfl) hreprChildren
      (List.nodup_cons.mpr ⟨hidChildren, hnodupBelow.of_append_left⟩) hevalChildren hlength.1
    have hparent₁ : d₁.children parent = l ++ id :: rest.roots := by
      rw [hchanges₁.children parent (by simp [hparentId, hparentChildren]), hparent]
      rfl
    have hnext := Dom.nextSibling_of_split hparent₁
    -- The current node itself.
    rw [← hchanges₁.label] at hevalId
    have hnodupExpanded : (parent :: id :: (expanded values access d.label children).ids).Nodup := by
      refine List.nodup_cons.mpr ⟨?_, List.nodup_cons.mpr ⟨?_, hsublist.nodup hnodupBelow.of_append_left⟩⟩
      · simpa [hparentId] using fun hmem => hparentChildren (hsublist.mem hmem)
      · exact fun hmem => hidChildren (hsublist.mem hmem)
    rw [← hchanges₁.label] at hnodupExpanded hchildren₁ hrepr₁
    obtain ⟨d₂, hrun₂, hparent₂, hrepr₂, hchanges₂⟩ := expandConditional_spec hparent₁
      (by rw [hchildren₁]; rfl) hrepr₁ hnodupExpanded hevalId
    have hlabel₂ : d₂.label = d.label := hchanges₂.label.trans hchanges₁.label
    rw [hchanges₁.label] at hparent₂ hrepr₂ hchanges₂
    have hchanged : Changes (parent :: id :: children.ids) d d₂ := by
      refine (hchanges₁.mono (List.subset_cons_self _ _)).trans (hchanges₂.mono ?_)
      exact List.cons_subset_cons _ (List.cons_subset_cons _ hsublist.subset)
    -- The siblings behind it.
    have hreprRest₂ : rest.Repr d₂ := by
      apply hchanged.repr hreprRest
      intro a ha hmem
      rcases List.mem_cons.mp hmem with rfl | hmem
      · exact hparentRest ha
      · rcases List.mem_cons.mp hmem with rfl | hmem
        · exact hidRest ha
        · exact hdisjoint hmem ha
    rw [← hlabel₂] at hevalRest
    obtain ⟨d₃, hrun₃, hparent₃, hrepr₃, hchanges₃⟩ := ihRest hparent₂ hreprRest₂
      (List.nodup_cons.mpr ⟨hparentRest, hnodupBelow.of_append_right⟩) hevalRest hlength.2
    rw [hlabel₂] at hparent₃ hrepr₃
    refine ⟨d₃, ?_, ?_, ?_, ?_⟩
    · unfold evaluate
      dsimp only [Forest.roots, List.head?_cons]
      unfold Dom.firstChild
      rw [hid, hrun₁, ok_bind, hnext, hrun₂, ok_bind]
      exact hrun₃
    · rw [hparent₃]
      simp [expanded]
    · refine Forest.repr_append (hchanges₃.repr hrepr₂ ?_) hrepr₃
      intro a ha hmem
      have hselected := (selected_sublist id _).mem ha
      rcases List.mem_cons.mp hmem with rfl | hmem
      · rcases List.mem_cons.mp hselected with heq | hselected
        · exact hparentId heq
        · exact hparentChildren (hsublist.mem hselected)
      · rcases List.mem_cons.mp hselected with rfl | hselected
        · exact hidRest hmem
        · exact hdisjoint (hsublist.mem hselected) hmem
    · refine (hchanged.mono ?_).trans (hchanges₃.mono ?_)
      · exact List.cons_subset_cons _ (List.cons_subset_cons _ (List.subset_append_left _ _))
      · exact List.cons_subset_cons _ fun a ha => List.mem_cons_of_mem _ (List.mem_append_right _ ha)

/-- Nothing happens to a forest without conditionals. -/
lemma evaluate_unchanged {fuel : Nat} {forest : Forest} {d : Document} {parent : Nat} {l : List Nat}
    (hparent : d.children parent = l ++ forest.roots) (hrepr : forest.Repr d)
    (hnone : ∀ a ∈ forest.ids, isConditional (d.label a) = false) (hfuel : forest.ids.length < fuel) :
    evaluate values access fuel parent forest.roots.head? d = .ok d := by
  induction forest generalizing fuel parent l with
  | nil =>
    obtain ⟨fuel, rfl⟩ := Nat.exists_eq_succ_of_ne_zero (Nat.pos_iff_ne_zero.mp hfuel)
    rfl
  | cons id children rest ihChildren ihRest =>
    obtain ⟨fuel, rfl⟩ := Nat.exists_eq_succ_of_ne_zero (Nat.ne_zero_of_lt hfuel)
    obtain ⟨hid, hreprChildren, hreprRest⟩ := hrepr
    have hlength : children.ids.length < fuel ∧ rest.ids.length < fuel := by
      simp only [Forest.ids, List.length_cons, List.length_append] at hfuel
      omega
    have hself : expandConditional values access parent id d = .ok d := by
      have hconditional := hnone id List.mem_cons_self
      simp only [isConditional, Bool.or_eq_false_iff, decide_eq_false_iff_not] at hconditional
      unfold expandConditional
      rw [if_neg hconditional.1, if_neg hconditional.2]
    have hchildren := ihChildren (l := []) hid hreprChildren
      (fun a ha => hnone a (List.mem_cons_of_mem _ (List.mem_append_left _ ha))) hlength.1
    have hrest := ihRest (l := l ++ [id]) (by rw [hparent]; simp [Forest.roots]) hreprRest
      (fun a ha => hnone a (List.mem_cons_of_mem _ (List.mem_append_right _ ha))) hlength.2
    unfold evaluate
    dsimp only [Forest.roots, List.head?_cons]
    unfold Dom.firstChild
    rw [hid, hchildren, ok_bind, Dom.nextSibling_of_split hparent, hself, ok_bind]
    exact hrest

/-! ### Documents -/

section Sections

variable (values : Values) (access : NodeAccess) (label : Nat → Node)

/-- The document where the conditionals below its elements are expanded. -/
def expandedSections : Forest → Forest
  | .nil => .nil
  | .cons id children rest =>
    .cons id (if (label id).isElement then expanded values access label children else children) (expandedSections rest)

def SectionsEvaluate : Forest → Prop
  | .nil => True
  | .cons id children rest =>
    ((label id).isElement = true → Evaluates values access label children) ∧ SectionsEvaluate rest

/-- The nodes below the elements of a document. -/
def processed : Forest → List Nat
  | .nil => []
  | .cons id children rest => (if (label id).isElement then children.ids else []) ++ processed rest

end Sections

lemma roots_expandedSections (label : Nat → Node) (forest : Forest) :
    (expandedSections values access label forest).roots = forest.roots := by
  induction forest with
  | nil => rfl
  | cons id children rest _ ih => rw [expandedSections, Forest.roots, Forest.roots, ih]

lemma expandedSections_sublist (label : Nat → Node) (forest : Forest) :
    (expandedSections values access label forest).ids.Sublist forest.ids := by
  induction forest with
  | nil => exact List.Sublist.slnil
  | cons id children rest _ ih =>
    unfold expandedSections
    refine List.Sublist.cons_cons id (List.Sublist.append ?_ ih)
    split
    · exact expanded_sublist children
    · exact List.Sublist.refl _

lemma processed_expandedSections {label : Nat → Node} (forest : Forest) :
    ∀ a ∈ processed label (expandedSections values access label forest), isConditional (label a) = false := by
  induction forest with
  | nil => exact nofun
  | cons id children rest _ ih =>
    intro a ha
    unfold expandedSections processed at ha
    rcases List.mem_append.mp ha with ha | ha
    · by_cases helement : (label id).isElement = true
      · rw [if_pos helement, if_pos helement] at ha
        exact expanded_not_isConditional children a ha
      · rw [if_neg helement] at ha
        cases ha
    · exact ih a ha

/-- The sections of a document in turn. -/
lemma evaluate_sections {fuel : Nat} {forest : Forest} {d : Document} (hrepr : forest.Repr d)
    (hnodup : forest.ids.Nodup) (heval : SectionsEvaluate values access d.label forest)
    (hfuel : forest.ids.length < fuel) :
    ∃ d', (forest.roots.filter fun id => (d.label id).isElement).foldlM
        (fun d curSection => evaluate values access fuel curSection (d.firstChild curSection) d) d = .ok d' ∧
      (expandedSections values access d.label forest).Repr d' ∧ Changes forest.ids d d' := by
  induction forest generalizing d with
  | nil => exact ⟨d, rfl, trivial, Changes.refl _ d⟩
  | cons id children rest _ ih =>
    obtain ⟨hid, hreprChildren, hreprRest⟩ := hrepr
    obtain ⟨hevalChildren, hevalRest⟩ := heval
    have hlength : children.ids.length < fuel ∧ rest.ids.length < fuel := by
      simp only [Forest.ids, List.length_cons, List.length_append] at hfuel
      omega
    obtain ⟨hidNot, hnodupBelow⟩ := List.nodup_cons.mp hnodup
    have hidRest : id ∉ rest.ids := fun hmem => hidNot (List.mem_append_right _ hmem)
    have hdisjoint := List.disjoint_of_nodup_append hnodupBelow
    have hnodupSection : (id :: children.ids).Nodup :=
      List.nodup_cons.mpr ⟨fun hmem => hidNot (List.mem_append_left _ hmem), hnodupBelow.of_append_left⟩
    by_cases helement : (d.label id).isElement = true
    · obtain ⟨d₁, hrun₁, hchildren₁, hrepr₁, hchanges₁⟩ := evaluate_spec (l := []) hid hreprChildren
        hnodupSection (hevalChildren helement) hlength.1
      have hoff : ∀ a ∈ rest.ids, a ∉ id :: children.ids := by
        intro a ha hmem
        rcases List.mem_cons.mp hmem with rfl | hmem
        · exact hidRest ha
        · exact hdisjoint hmem ha
      rw [← hchanges₁.label] at hevalRest
      obtain ⟨d₂, hrun₂, hrepr₂, hchanges₂⟩ := ih (hchanges₁.repr hreprRest hoff) hnodupBelow.of_append_right
        hevalRest hlength.2
      rw [hchanges₁.label] at hrun₂ hrepr₂
      have hkept : ∀ a ∈ id :: (expanded values access d.label children).ids, a ∉ rest.ids := by
        intro a ha hmem
        exact hoff a hmem ((List.Sublist.cons_cons id (expanded_sublist children)).mem ha)
      refine ⟨d₂, ?_, ?_, ?_⟩
      · unfold Forest.roots
        rw [List.filter_cons, if_pos helement, List.foldlM_cons]
        unfold Dom.firstChild at hrun₂ ⊢
        rw [hid, hrun₁, ok_bind]
        exact hrun₂
      · unfold expandedSections
        rw [if_pos helement]
        refine ⟨?_, hchanges₂.repr hrepr₁ fun a ha => hkept a (List.mem_cons_of_mem _ ha), hrepr₂⟩
        rw [hchanges₂.children id (hkept id List.mem_cons_self), hchildren₁]
        rfl
      · refine (hchanges₁.mono ?_).trans (hchanges₂.mono ?_)
        · exact List.cons_subset_cons _ (List.subset_append_left _ _)
        · exact fun a ha => List.mem_cons_of_mem _ (List.mem_append_right _ ha)
    · obtain ⟨d₂, hrun₂, hrepr₂, hchanges₂⟩ := ih hreprRest hnodupBelow.of_append_right hevalRest hlength.2
      have hkept : ∀ a ∈ id :: children.ids, a ∉ rest.ids := by
        intro a ha hmem
        rcases List.mem_cons.mp ha with rfl | ha
        · exact hidRest hmem
        · exact hdisjoint ha hmem
      refine ⟨d₂, ?_, ?_, ?_⟩
      · unfold Forest.roots
        rw [List.filter_cons_of_neg (by simpa using helement)]
        exact hrun₂
      · unfold expandedSections
        rw [if_neg helement]
        refine ⟨?_, hchanges₂.repr hreprChildren fun a ha => hkept a (List.mem_cons_of_mem _ ha), hrepr₂⟩
        rw [hchanges₂.children id (hkept id List.mem_cons_self), hid]
      · exact hchanges₂.mono fun a ha => List.mem_cons_of_mem _ (List.mem_append_right _ ha)

lemma sections_unchanged {fuel : Nat} {forest : Forest} {d : Document} (hrepr : forest.Repr d)
    (hnone : ∀ a ∈ processed d.label forest, isConditional (d.label a) = false) (hfuel : forest.ids.length < fuel) :
    (forest.roots.filter fun id => (d.label id).isElement).foldlM
      (fun d curSection => evaluate values access fuel curSection (d.firstChild curSection) d) d = .ok d := by
  induction forest with
  | nil => rfl
  | cons id children rest _ ih =>
    obtain ⟨hid, hreprChildren, hreprRest⟩ := hrepr
    have hlength : children.ids.length < fuel ∧ rest.ids.length < fuel := by
      simp only [Forest.ids, List.length_cons, List.length_append] at hfuel
      omega
    have hrest := ih hreprRest (fun a ha => hnone a (List.mem_append_right _ ha)) hlength.2
    unfold Forest.roots
    by_cases helement : (d.label id).isElement = true
    · rw [List.filter_cons, if_pos helement, List.foldlM_cons]
      have hnoneBelow : ∀ a ∈ children.ids, isConditional (d.label a) = false := by
        intro a ha
        apply hnone a
        unfold processed
        rw [if_pos helement]
        exact List.mem_append_left _ ha
      have hsection : evaluate values access fuel id children.roots.head? d = .ok d :=
        evaluate_unchanged (l := []) hid hreprChildren hnoneBelow hlength.1
      unfold Dom.firstChild at hrest ⊢
      rw [hid, hsection, ok_bind]
      exact hrest
    · rw [List.filter_cons_of_neg (by simpa using helement)]
      exact hrest

/-- The document is expanded: nodes stay in their order with their labels, no conditionals are left below its elements,
and another expansion does not change it, even if the expanded configuration is rejected. -/
theorem expand_expandedSections {d : Document} {doc : Nat} {forest : Forest} (hdoc : IsDocument d doc forest)
    (haccess : initializeNodeAccess values (configNodes d doc) = .ok access)
    (heval : SectionsEvaluate values access d.label forest) {fuel : Nat} (hfuel : forest.ids.length < fuel) :
    ∃ d', expand values fuel doc d = .ok d' ∧
      IsDocument d' doc (expandedSections values access d.label forest) ∧ d'.label = d.label ∧
      (expandedSections values access d.label forest).ids.Sublist forest.ids ∧
      (∀ a ∈ processed d'.label (expandedSections values access d.label forest), isConditional (d'.label a) = false) ∧
      (expand values fuel doc d' = .ok d' ∨
        ∃ e, initializeNodeAccess values (configNodes d' doc) = .error e ∧ expand values fuel doc d' = .error (e, d')) := by
  obtain ⟨hroots, hrepr, hnodup⟩ := hdoc
  obtain ⟨hdocNot, hids⟩ := List.nodup_cons.mp hnodup
  obtain ⟨d', hrun, hrepr', hchanges⟩ := evaluate_sections hrepr hids heval hfuel
  have hsublist : (expandedSections values access d.label forest).ids.Sublist forest.ids :=
    expandedSections_sublist d.label forest
  have hroots' : d'.children doc = (expandedSections values access d.label forest).roots := by
    rw [hchanges.children doc hdocNot, hroots, roots_expandedSections]
  have hnone : ∀ a ∈ processed d'.label (expandedSections values access d.label forest),
      isConditional (d'.label a) = false := by
    rw [hchanges.label]
    exact processed_expandedSections forest
  refine ⟨d', ?_, ⟨hroots', hrepr', (hsublist.cons_cons doc).nodup hnodup⟩, hchanges.label, hsublist, hnone, ?_⟩
  · unfold expand sections
    rw [haccess, hroots]
    exact hrun
  · unfold expand sections
    cases haccess' : initializeNodeAccess values (configNodes d' doc) with
    | error e => exact Or.inr ⟨e, rfl, rfl⟩
    | ok access' =>
      left
      rw [hroots']
      exact sections_unchanged hrepr' hnone (Nat.lt_of_le_of_lt hsublist.length_le hfuel)

/-- A system with two variables, a conditional that holds with another one below it, and one that does not hold. -/
def smallDocument : Document where
  label
    | 1 => .element "system" []
    | 2 => .element "config" []
    | 3 => .element "boolean" [("name", "enabled"), ("value", "true")]
    | 4 => .element "string" [("name", "mode"), ("value", "fast")]
    | 5 => .element "if" [("variable", "enabled"), ("value", "true")]
    | 6 => .element "memory" []
    | 7 => .element "case" [("variable", "mode")]
    | 8 => .element "when" [("value", "slow")]
    | 9 => .element "when" [("value", "$mode")]
    | 11 => .element "events" []
    | 12 => .element "if" [("variable", "enabled"), ("value", "false")]
    | _ => .element "devices" []
  children
    | 0 => [1]
    | 1 => [2, 5, 12]
    | 2 => [3, 4]
    | 5 => [6, 7]
    | 7 => [8, 9]
    | 8 => [10]
    | 9 => [11]
    | 12 => [13]
    | _ => []
  parent
    | 1 => some 0
    | 2 | 5 | 12 => some 1
    | 3 | 4 => some 2
    | 6 | 7 => some 5
    | 8 | 9 => some 7
    | 10 => some 8
    | 11 => some 9
    | 13 => some 12
    | _ => none
  mem_children := by
    intro a b
    split <;> split <;> simp_all <;> omega
  nodup_children := by
    intro a
    split <;> simp

def smallForest : Forest :=
  .cons 1 (.cons 2 (.cons 3 .nil (.cons 4 .nil .nil))
    (.cons 5 (.cons 6 .nil (.cons 7 (.cons 8 (.cons 10 .nil .nil) (.cons 9 (.cons 11 .nil .nil) .nil)) .nil))
      (.cons 12 (.cons 13 .nil .nil) .nil))) .nil

def trueOrFalse : Values := ⟨fun s => if s = "true" then some true else if s = "false" then some false else none,
  fun _ => none⟩

def smallAccess : NodeAccess := ⟨[("enabled", true)], [], [("mode", "fast")]⟩

lemma conditionEvaluates_plain {label : Nat → Node} {id : Nat} {children : Forest}
    (h : isConditional (label id) = false) : ConditionEvaluates values access label id children := by
  unfold isConditional at h
  simp only [Bool.or_eq_false_iff, decide_eq_false_iff_not] at h
  exact ⟨fun hif => absurd hif h.1, fun hcase => absurd hcase h.2⟩

lemma smallDocument_evaluates : SectionsEvaluate trueOrFalse smallAccess smallDocument.label smallForest := by
  have hplain : ∀ id ∈ [2, 3, 4, 6, 8, 9, 10, 11, 13], ∀ children,
      ConditionEvaluates trueOrFalse smallAccess smallDocument.label id children := by
    intro id hid children
    apply conditionEvaluates_plain
    revert id
    decide
  have htrue : ∀ children, ConditionEvaluates trueOrFalse smallAccess smallDocument.label 5 children :=
    fun _ => ⟨fun _ => ⟨true, rfl⟩, fun h => absurd h (by decide)⟩
  have hfalse : ∀ children, ConditionEvaluates trueOrFalse smallAccess smallDocument.label 12 children :=
    fun _ => ⟨fun _ => ⟨false, rfl⟩, fun h => absurd h (by decide)⟩
  have hcase : ConditionEvaluates trueOrFalse smallAccess smallDocument.label 7
      (.cons 8 (.cons 10 .nil .nil) (.cons 9 (.cons 11 .nil .nil) .nil)) :=
    ⟨fun h => absurd h (by decide), fun _ => ⟨some 9, rfl⟩⟩
  refine ⟨fun _ => ⟨⟨trivial, hplain 3 ?_ _, trivial, hplain 4 ?_ _, trivial⟩, hplain 2 ?_ _,
    ⟨trivial, hplain 6 ?_ _, ⟨⟨trivial, hplain 10 ?_ _, trivial⟩, hplain 8 ?_ _,
      ⟨trivial, hplain 11 ?_ _, trivial⟩, hplain 9 ?_ _, trivial⟩, hcase, trivial⟩, htrue _,
    ⟨trivial, hplain 13 ?_ _, trivial⟩, hfalse _, trivial⟩, trivial⟩
  all_goals decide

/-- The nodes of the matching option take the place of the outer conditional, and nothing that of the false one. -/
theorem expand_expandedSections_small : ∃ d', expand trueOrFalse 14 0 smallDocument = .ok d' ∧
    IsDocument d' 0 (.cons 1 (.cons 2 (.cons 3 .nil (.cons 4 .nil .nil))
      (.cons 6 .nil (.cons 11 .nil .nil))) .nil) ∧ expand trueOrFalse 14 0 d' = .ok d' := by
  have hdoc : IsDocument smallDocument 0 smallForest := by
    refine ⟨rfl, ?_, by decide⟩
    simp only [smallForest, Forest.Repr]
    decide
  have haccess : initializeNodeAccess trueOrFalse (configNodes smallDocument 0) = .ok smallAccess := by rfl
  have hfuel : smallForest.ids.length < 14 := by decide
  obtain ⟨d', hrun, hdoc', hlabel, -, -, hagain⟩ :=
    expand_expandedSections hdoc haccess smallDocument_evaluates hfuel
  obtain ⟨hroots, ⟨hsystem, ⟨hconfig, -⟩, -⟩, -⟩ := id hdoc'
  have hsections : elements d' ["system", "component", "library"] 0 = [1] := by
    unfold elements
    rw [hroots, hlabel]
    rfl
  have hconfigs : elements d' ["config"] 1 = [2] := by
    unfold elements
    rw [hsystem, hlabel]
    rfl
  have hvariables : elements d' ["boolean", "integer", "string"] 2 = [3, 4] := by
    unfold elements
    rw [hconfig, hlabel]
    rfl
  refine ⟨d', hrun, hdoc', hagain.resolve_right ?_⟩
  rintro ⟨e, he, -⟩
  unfold configNodes at he
  rw [hsections, List.flatMap_singleton, hconfigs, List.flatMap_singleton, hvariables, hlabel] at he
  cases he

end Muen.Tools.Conditionals
