import HtmlLayout.Proofs.Delivery
import HtmlLayout.Proofs.LineBreaks
import HtmlLayout.Proofs.StackWalk
import Mathlib.Data.List.Chain
import Mathlib.Data.List.Forall2

/-!
# Runs of text

A reader of markup may deliver a run of text in any number of text nodes, and empty ones may be among
them. Nothing that is made of the tree depends on this. On every level of the converted tree a run of
text is one text, or none if the run is empty, and the other nodes stand between the runs as before.

Two trees that differ in how their text is split have the same normal form, and the converse holds as
well: a tree is turned into its normal form by nothing but cutting texts and putting in empty ones, or
the reverse of that.
-/

namespace HtmlLayout

/-! ### Rows and their runs of text -/

/-- A row of siblings by its runs of text: the text in front of the first node that is no text, and
each such node with the text between it and the next one. -/
structure Runs (α : Type) where
  lead : String
  parts : List (α × String)

namespace Runs

variable {α β γ : Type}

/-- A text as a row: an empty one is left out. -/
def held (ofText : String → β) (data : String) : List β := if data = "" then [] else [ofText data]

/-- The row with one text for each run that is not empty. -/
def woven (ofText : String → β) (ofPart : α → β) (runs : Runs α) : List β :=
  held ofText runs.lead ++ runs.parts.flatMap fun part => ofPart part.1 :: held ofText part.2

theorem map_held (f : β → γ) (ofText : String → β) (data : String) :
    (held ofText data).map f = held (f ∘ ofText) data := by
  unfold held
  split <;> rfl

theorem map_woven (f : β → γ) (ofText : String → β) (ofPart : α → β) (runs : Runs α) :
    (runs.woven ofText ofPart).map f = runs.woven (f ∘ ofText) (f ∘ ofPart) := by
  obtain ⟨lead, parts⟩ := runs
  simp only [woven, List.map_append, map_held, List.map_flatMap, List.map_cons]
  rfl

/-- In a woven row no text stands beside another, if the parts are no texts. -/
theorem isChain_woven {isText : β → Bool} {ofText : String → β} {ofPart : α → β} {runs : Runs α}
    (hparts : ∀ part ∈ runs.parts, isText (ofPart part.1) = false) :
    (runs.woven ofText ofPart).IsChain fun first next => ¬(isText first = true ∧ isText next = true) := by
  obtain ⟨lead, parts⟩ := runs
  induction parts generalizing lead with
  | nil =>
      unfold woven held
      split <;> simp
  | cons part rest ih =>
      obtain ⟨hpart, hrest⟩ := List.forall_mem_cons.mp hparts
      have hbehind : (ofPart part.1 :: woven ofText ofPart ⟨part.2, rest⟩).IsChain
          fun first next => ¬(isText first = true ∧ isText next = true) := by
        refine List.isChain_cons.mpr ⟨?_, ih part.2 hrest⟩
        simp [hpart]
      unfold woven held
      split
      · exact hbehind
      · refine List.isChain_cons_cons.mpr ⟨?_, hbehind⟩
        simp [hpart]

theorem mem_woven {ofText : String → β} {ofPart : α → β} {runs : Runs α} {x : β}
    (hx : x ∈ runs.woven ofText ofPart) :
    (∃ data, data ≠ "" ∧ x = ofText data) ∨ ∃ part ∈ runs.parts, x = ofPart part.1 := by
  have hheld : ∀ data, x ∈ held ofText data → ∃ data, data ≠ "" ∧ x = ofText data := by
    intro data hdata
    unfold held at hdata
    split at hdata
    · cases hdata
    · next hne => exact ⟨data, hne, List.mem_singleton.mp hdata⟩
  rcases List.mem_append.mp hx with hlead | hlater
  · exact .inl (hheld _ hlead)
  · obtain ⟨part, hpart, hmem⟩ := List.mem_flatMap.mp hlater
    rcases List.mem_cons.mp hmem with rfl | htext
    · exact .inr ⟨part, hpart, rfl⟩
    · exact .inl (hheld _ htext)

end Runs

namespace Node

/-- A node without its children. -/
def bare : Node → Node
  | document _ => document []
  | element tag attrs _ => element tag attrs []
  | node => node

/-- The children of a node that may have some. -/
def content? : Node → Option (List Node)
  | document children => some children
  | element _ _ children => some children
  | _ => none

/-- All rows of siblings in document order: the given one, and the children of each node below. -/
def levels (nodes : List Node) : List (List Node) := nodes :: (withinAll nodes).filterMap content?

end Node

namespace Dom

def content? : Dom → Option (List Dom)
  | element _ _ children => some children
  | _ => none

/-- All rows of siblings in document order: the given one, and the children of each element. -/
def levels (siblings : List Dom) : List (List Dom) :=
  siblings :: (listedAll siblings).filterMap content?

/-- The counterpart of a node without its children. -/
def bare : Dom → Node
  | element tag attrs _ => .element tag (attrs.map Attr.toAttribute) []
  | leaf => image leaf

/-- A node that is neither a section of character data nor of another kind. -/
def isPlain : Dom → Bool
  | cdata _ => false
  | other _ => false
  | _ => true

def runs : List Dom → Runs Dom
  | [] => { lead := "", parts := [] }
  | text data :: rest => { lead := data ++ (runs rest).lead, parts := (runs rest).parts }
  | node :: rest => { lead := "", parts := (node, (runs rest).lead) :: (runs rest).parts }

/-- A row of nodes is what becomes of a row of siblings: no text in it is empty, no two texts stand
side by side, and it consists of the siblings that are no texts in their order, with the texts of each
run between them joined to one. -/
structure Settles (row : List Dom) (made : List Node) : Prop where
  nonempty : ∀ data, .text data ∈ made → data ≠ ""
  apart : Node.Apart made
  joined : made.map Node.bare = (runs row).woven .text bare

/-! ### The normal form by its runs -/

theorem exists_of_mem_parts {row : List Dom} {part : Dom × String} (hpart : part ∈ (runs row).parts) :
    part.1 ∈ row ∧ ∀ data, part.1 ≠ .text data := by
  fun_induction runs row with
  | case1 => cases hpart
  | case2 data rest ih => exact ⟨List.mem_cons_of_mem _ (ih hpart).1, (ih hpart).2⟩
  | case3 node rest hnode ih =>
      rcases List.mem_cons.mp hpart with rfl | hrest
      · exact ⟨List.mem_cons_self, hnode⟩
      · exact ⟨List.mem_cons_of_mem _ (ih hrest).1, (ih hrest).2⟩

theorem normalize_ne_text {node : Dom} (hnode : ∀ data, node ≠ .text data) (data : String) :
    normalize node ≠ .text data := by
  cases node with
  | element tag attrs children => simp [normalize]
  | text data => exact absurd rfl (hnode data)
  | _ => simp [normalize]

theorem joinsText : JoinsText text joinText where
  empty row := rfl
  text hdata next rest := if_neg (by simpa using hdata)
  other hdata row hrow := by
    unfold joinText
    rw [if_neg (by simpa using hdata)]
    split
    · next next rest => exact absurd rfl (hrow next rest)
    · rfl

/-- The normal form of a row has one text for each run that is not empty. -/
theorem normalizeAll_eq_woven (row : List Dom) : normalizeAll row = (runs row).woven .text normalize := by
  fun_induction runs row with
  | case1 => rfl
  | case2 data rest ih =>
      rw [normalizeAll, ih]
      by_cases hdata : data = ""
      · simp [joinText, hdata]
      · have hrow : data ++ (runs rest).lead ≠ "" := by simp [hdata]
        by_cases hlead : (runs rest).lead = ""
        · rw [hlead, String.append_empty] at hrow ⊢
          simp only [Runs.woven, Runs.held, hlead, if_pos, if_neg hdata, List.nil_append,
            List.singleton_append]
          refine joinsText.other hdata ?_
          intro next others heq
          cases hparts : (runs rest).parts with
          | nil => simp [hparts] at heq
          | cons part more =>
              rw [hparts, List.flatMap_cons, List.cons_append] at heq
              have hpart := exists_of_mem_parts (hparts ▸ List.mem_cons_self)
              exact normalize_ne_text hpart.2 next (List.cons.inj heq).1
        · simp [Runs.woven, Runs.held, hlead, hrow, joinText, hdata]
  | case3 node rest hnode ih =>
      have hnormal : normalizeAll (node :: rest) = normalize node :: normalizeAll rest := by
        cases node with
        | text data => exact absurd rfl (hnode data)
        | _ => rw [normalizeAll]; simp
      rw [hnormal, ih]
      rfl

theorem bare_image_normalize (node : Dom) : (image (normalize node)).bare = node.bare := by
  cases node <;> rfl

theorem isText_bare (node : Node) : node.bare.isText = node.isText := by
  cases node <;> rfl

theorem settles_normalizeAll {row : List Dom} (hplain : ∀ node ∈ row, node.isPlain = true) :
    Settles row ((normalizeAll row).map image) := by
  have hjoined : ((normalizeAll row).map image).map Node.bare = (runs row).woven .text bare := by
    rw [normalizeAll_eq_woven, Runs.map_woven, Runs.map_woven]
    congr 1
    funext node
    exact bare_image_normalize node
  have hparts : ∀ part ∈ (runs row).parts, part.1.bare.isText = false := by
    intro part hpart
    obtain ⟨hmem, htext⟩ := exists_of_mem_parts hpart
    have hkind := hplain part.1 hmem
    rcases hnode : part.1 with _ | _ | _ | _ | _ | _ <;> simp_all [bare, image, Node.isText, isPlain]
  refine ⟨?_, ?_, hjoined⟩
  · intro data hdata
    have hmem : Node.text data ∈ (runs row).woven .text bare := by
      rw [← hjoined]
      exact List.mem_map_of_mem hdata
    rcases Runs.mem_woven hmem with ⟨found, hne, heq⟩ | ⟨part, hpart, heq⟩
    · cases heq
      exact hne
    · have hnone := hparts part hpart
      rw [← heq] at hnone
      cases hnone
  · have hchain := @Runs.isChain_woven _ _ _ Node.text _ _ hparts
    rw [← hjoined, List.isChain_map] at hchain
    simpa only [Node.Apart, isText_bare] using hchain

/-! ### The levels of a converted tree -/

theorem withinAll_imageAll_joinText (data : String) (rest : List Dom) :
    (Node.withinAll (imageAll (joinText data rest))).filterMap Node.content? =
      (Node.withinAll (imageAll rest)).filterMap Node.content? := by
  unfold joinText
  split
  · rfl
  · split <;> rfl

mutual

theorem contents_normalize (node : Dom) :
    (image (normalize node)).within.filterMap Node.content? =
      ((listed node).filterMap content?).map fun row => (normalizeAll row).map image := by
  cases node with
  | element tag attrs children =>
      have hbelow := contents_normalizeAll children
      rw [imageAll_eq_map] at hbelow
      simp only [normalize, image, imageAll_eq_map, Node.within, listed, List.filterMap_cons,
        Node.content?, content?, List.map_cons, hbelow]
  | _ => rfl

theorem contents_normalizeAll (siblings : List Dom) :
    (Node.withinAll (imageAll (normalizeAll siblings))).filterMap Node.content? =
      ((listedAll siblings).filterMap content?).map fun row => (normalizeAll row).map image := by
  match siblings with
  | [] => rfl
  | node :: rest =>
      have hnode := contents_normalize node
      have hrest := contents_normalizeAll rest
      cases node with
      | text data =>
          rw [normalizeAll, withinAll_imageAll_joinText, hrest]
          rfl
      | _ =>
          simp only [normalizeAll, imageAll, Node.withinAll, listedAll, List.filterMap_append,
            List.map_append, hnode, hrest]

end

/-- Every level of a converted tree is the converted level of the document tree. -/
theorem levels_normalizeAll (siblings : List Dom) :
    Node.levels ((normalizeAll siblings).map image) =
      (levels siblings).map fun row => (normalizeAll row).map image := by
  have hbelow := contents_normalizeAll siblings
  rw [imageAll_eq_map] at hbelow
  rw [Node.levels, levels, List.map_cons, hbelow]

theorem mem_listed (node : Dom) : node ∈ listed node := by
  cases node with
  | element tag attrs children => exact List.mem_cons_self
  | _ => exact List.mem_singleton_self _

theorem subset_listedAll (siblings : List Dom) : siblings ⊆ listedAll siblings := by
  induction siblings with
  | nil => exact List.nil_subset _
  | cons node rest ih =>
      rw [listedAll]
      refine List.cons_subset.mpr ⟨List.mem_append_left _ (mem_listed node), ?_⟩
      exact List.subset_append_of_subset_right _ ih

section Children

variable {tag : String} {attrs : List Attr} {children : List Dom}

mutual

/-- What lies below a node that is listed is listed too. -/
theorem children_subset_listed {node : Dom} (hmem : element tag attrs children ∈ listed node) :
    children ⊆ listed node := by
  cases node with
  | element name own below =>
      rcases List.mem_cons.mp hmem with hself | hbelow
      · obtain ⟨-, -, rfl⟩ := element.inj hself
        exact List.subset_cons_of_subset _ (subset_listedAll _)
      · exact List.subset_cons_of_subset _ (children_subset_listedAll hbelow)
  | _ => cases List.mem_singleton.mp hmem

theorem children_subset_listedAll {siblings : List Dom}
    (hmem : element tag attrs children ∈ listedAll siblings) : children ⊆ listedAll siblings := by
  match siblings with
  | [] => cases hmem
  | node :: rest =>
      rw [listedAll] at hmem ⊢
      rcases List.mem_append.mp hmem with hnode | hrest
      · exact List.subset_append_of_subset_left _ (children_subset_listed hnode)
      · exact List.subset_append_of_subset_right _ (children_subset_listedAll hrest)

end

end Children

theorem subset_of_mem_levels {siblings row : List Dom} (hrow : row ∈ levels siblings) :
    row ⊆ listedAll siblings := by
  rcases List.mem_cons.mp hrow with rfl | hbelow
  · exact subset_listedAll row
  · obtain ⟨node, hnode, hcontent⟩ := List.mem_filterMap.mp hbelow
    cases node with
    | element tag attrs children =>
        cases hcontent
        exact children_subset_listedAll hnode
    | _ => cases hcontent

/-- Every level of a converted tree is settled. -/
theorem forall₂_settles {siblings : List Dom}
    (hplain : ∀ node ∈ listedAll siblings, node.isPlain = true) :
    List.Forall₂ Settles (levels siblings) (Node.levels ((normalizeAll siblings).map image)) := by
  rw [levels_normalizeAll, List.forall₂_map_right_iff, List.forall₂_same]
  intro row hrow
  refine settles_normalizeAll ?_
  intro node hnode
  exact hplain node (subset_of_mem_levels hrow hnode)

/-! ### Splits that do not matter -/

/-- Two rows of siblings that differ only in how their text is split. A text may be cut in two, and an
empty text may be put in front of anything, on every level, any number of times and in either
direction. -/
inductive Resplit : List Dom → List Dom → Prop where
  | refl (row : List Dom) : Resplit row row
  | symm {row other : List Dom} : Resplit row other → Resplit other row
  | trans {row middle other : List Dom} : Resplit row middle → Resplit middle other → Resplit row other
  | cut (first second : String) (rest : List Dom) :
      Resplit (text (first ++ second) :: rest) (text first :: text second :: rest)
  | empty (row : List Dom) : Resplit (text "" :: row) row
  | behind (node : Dom) {row other : List Dom} :
      Resplit row other → Resplit (node :: row) (node :: other)
  | inside (tag : String) (attrs : List Attr) (rest : List Dom) {row other : List Dom} :
      Resplit row other → Resplit (element tag attrs row :: rest) (element tag attrs other :: rest)

/-- Splits change neither the normal form nor the nesting. -/
theorem Resplit.normalizeAll_eq {row other : List Dom} (hsplit : Resplit row other) :
    normalizeAll row = normalizeAll other ∧ nestingAll row = nestingAll other := by
  induction hsplit with
  | refl row => exact ⟨rfl, rfl⟩
  | symm _ ih => exact ⟨ih.1.symm, ih.2.symm⟩
  | trans _ _ ih₁ ih₂ => exact ⟨ih₁.1.trans ih₂.1, ih₁.2.trans ih₂.2⟩
  | cut first second rest =>
      constructor
      · rw [normalizeAll, normalizeAll, normalizeAll, joinsText.append]
      · simp [nestingAll, nesting]
  | empty row =>
      constructor
      · rw [normalizeAll]
        rfl
      · simp [nestingAll, nesting]
  | behind node _ ih =>
      constructor
      · cases node <;> simp only [normalizeAll, ih.1]
      · rw [nestingAll, nestingAll, ih.2]
  | inside tag attrs rest _ ih =>
      constructor
      · simp only [normalizeAll, normalize, ih.1]
      · simp only [nestingAll, nesting, ih.2]

theorem resplit_joinText (data : String) (rest : List Dom) :
    Resplit (text data :: rest) (joinText data rest) := by
  unfold joinText
  split
  · next hempty =>
      rw [eq_of_beq hempty]
      exact .empty rest
  · split
    · exact .symm (.cut _ _ _)
    · exact .refl _

mutual

theorem resplit_normalize (node : Dom) (rest : List Dom) :
    Resplit (node :: rest) (normalize node :: rest) := by
  cases node with
  | element tag attrs children => exact .inside tag attrs rest (resplit_normalizeAll children)
  | _ => exact .refl _

/-- The normal form differs from the tree only in how the text is split. -/
theorem resplit_normalizeAll (siblings : List Dom) : Resplit siblings (normalizeAll siblings) := by
  match siblings with
  | [] => exact .refl _
  | node :: rest =>
      have hrest := Resplit.behind node (resplit_normalizeAll rest)
      cases node with
      | text data => exact hrest.trans (resplit_joinText data _)
      | _ => exact hrest.trans (resplit_normalize _ _)

end

theorem resplit_iff {row other : List Dom} : Resplit row other ↔ normalizeAll row = normalizeAll other := by
  constructor
  · intro hsplit
    exact hsplit.normalizeAll_eq.1
  · intro heq
    refine (resplit_normalizeAll row).trans ?_
    rw [heq]
    exact .symm (resplit_normalizeAll other)

theorem Resplit.adapt_eq {row other : List Dom} (hsplit : Resplit row other) (calls : Nat)
    (target : Target) (sourceName : Option String) :
    adapt calls target sourceName (.ok other) = adapt calls target sourceName (.ok row) := by
  obtain ⟨hnormal, hnesting⟩ := hsplit.normalizeAll_eq
  simp only [adapt, hnormal, hnesting]

/-- Take a document tree that holds no section of character data and no node of another kind. It is
converted. On every level of the result no text is empty and no two texts stand side by side. The
other nodes are those of the same level in their order, and each run of texts between them has become
one text, or nothing if it is empty. Another tree has the same normal form exactly if it differs only
in how the text is split, and then reading and formatting do the same with it, to the outcome, on
every output and in every style. -/
theorem adapt_ignores_text_splits (calls : Nat) (siblings : List Dom)
    (hplain : ∀ node ∈ listedAll siblings, node.isPlain = true) :
    (∃ nodes, toNodes (normalizeAll siblings) = .ok nodes ∧
      (nestingAll siblings ≤ calls → ∀ target sourceName channel,
        ((adapt calls target sourceName (.ok siblings)).run.run channel).1 = .ok nodes) ∧
      List.Forall₂ Settles (levels siblings) (Node.levels nodes)) ∧
    ∀ other,
      (Resplit siblings other ↔ normalizeAll siblings = normalizeAll other) ∧
      (Resplit siblings other → ∀ target sourceName,
        adapt calls target sourceName (.ok other) = adapt calls target sourceName (.ok siblings) ∧
        ∀ style : Style, target.format calls style sourceName (.ok other) =
          target.format calls style sourceName (.ok siblings)) := by
  have hforeign : firstForeign? siblings = none := by
    rw [firstForeign?, List.findSome?_eq_none_iff]
    intro node hnode
    have hkind := hplain node hnode
    cases node with
    | other kind => cases hkind
    | _ => rfl
  constructor
  · refine ⟨(normalizeAll siblings).map image, ?_, ?_, forall₂_settles hplain⟩
    · rw [toNodes_eq_reported, firstForeign?_normalizeAll, hforeign]
      rfl
    · intro hdepth target sourceName channel
      rw [run_adapt target sourceName siblings channel hdepth, hforeign]
  · intro other
    refine ⟨resplit_iff, ?_⟩
    intro hsplit target sourceName
    have hadapt := hsplit.adapt_eq calls target sourceName
    refine ⟨hadapt, ?_⟩
    intro style
    rw [Target.format, Target.format, hadapt]

/-- A run of three texts, one of them empty, before a list item with an attribute, and an empty text
inside it: a tree that is split otherwise gives the same. -/
theorem adapt_ignores_text_splits_in_list :
    let attrs := Attr.set [] "value" "7"
    let siblings : List Dom := [.text "a", .text "", .text "b",
      .element "li" attrs [.text "", .comment "c", .text "d"], .text ""]
    let other : List Dom := [.text "ab", .element "li" attrs [.comment "c", .text "", .text "d"]]
    let nodes : List Node :=
      [.text "ab", .element "li" [⟨"value", "7", ""⟩] [.comment "c", .text "d"]]
    (∀ node ∈ listedAll siblings, node.isPlain = true) ∧ nestingAll siblings ≤ defaultCalls ∧
      Resplit siblings other ∧
      (∀ channel, ((adapt defaultCalls .document none (.ok siblings)).run.run channel).1 = .ok nodes) ∧
      List.Forall₂ Settles (levels siblings) (Node.levels nodes) ∧
      ∀ style : Style, Target.document.format defaultCalls style none (.ok other) =
        Target.document.format defaultCalls style none (.ok siblings) := by
  intro attrs siblings other nodes
  have hplain : ∀ node ∈ listedAll siblings, node.isPlain = true := by decide
  have hdepth : nestingAll siblings ≤ defaultCalls := by decide
  obtain ⟨⟨made, hmade, hadapt, hlevels⟩, hother⟩ :=
    adapt_ignores_text_splits defaultCalls siblings hplain
  have hsplit : Resplit siblings other := (hother other).1.mpr rfl
  obtain rfl : nodes = made := Except.ok.inj hmade
  exact ⟨hplain, hdepth, hsplit, hadapt hdepth .document none, hlevels,
    ((hother other).2 hsplit .document none).2⟩

end Dom

end HtmlLayout
