import HtmlLayout.Proofs.Spelling
import Mathlib.Data.List.Chain

/-!
# The written text determines the tree

Inserted line breaks look like whitespace that was there before, so a reader has to know where they
were put in. Before a start tag this depends on the tag alone. Before an end tag it depends on the
whole content: on an inline element anywhere in it, and on whether a first text is blank. The proof
shows that the signs of the content always let these questions be answered before the line break has
to be told from the text.

The children of an element are looked at as nodes with gaps of text between them. The signs of the
content determine the gaps, with the line break of the end tag still in the last one; the gaps
determine whether there is such a line break; and without it the gaps determine the children.
-/

namespace HtmlLayout

namespace Node

/-- The content of an element of raw text: nothing, or one text that does not look like an end tag. -/
def isLegibleRaw : List Node → Bool
  | [] => true
  | [text data] => data ≠ "" && ¬Sign.endTagStart <:+: data.toList
  | _ => false

theorem isLegibleRaw_iff {children : List Node} :
    isLegibleRaw children = true ↔ children = [] ∨
      ∃ data, children = [text data] ∧ data ≠ "" ∧ ¬Sign.endTagStart <:+: data.toList := by
  unfold isLegibleRaw
  split <;> simp_all

mutual

/-- Trees of elements, texts and comments whose names are names of markup, in which texts are
neither empty nor side by side, comments do not hold their own end, void elements are empty, raw
text is legible, and there is no `plaintext`. -/
def isLegible : Node → Bool
  | text data => data ≠ ""
  | comment data => ¬Sign.commentEnd <:+: data.toList
  | element tag attrs children =>
      Tag.isName tag && tag ≠ Tag.plaintext && (∀ attr ∈ attrs, attr.Legible) &&
        (!Tag.isVoid tag || children.isEmpty) &&
        if Tag.isRawText tag then isLegibleRaw children else areLegible children && Apart children
  | _ => false

def areLegible : List Node → Bool
  | [] => true
  | node :: rest => isLegible node && areLegible rest

end

theorem isLegible_element_iff {tag : String} {attrs : List Attribute} {children : List Node} :
    (element tag attrs children).isLegible = true ↔
      Tag.isName tag = true ∧ tag ≠ Tag.plaintext ∧ (∀ attr ∈ attrs, attr.Legible) ∧
        (Tag.isVoid tag = true → children = []) ∧
        if Tag.isRawText tag then isLegibleRaw children = true
        else areLegible children = true ∧ Apart children := by
  cases hraw : Tag.isRawText tag <;> cases hvoid : Tag.isVoid tag <;>
    simp [isLegible, and_assoc, hraw, hvoid]

theorem areLegible_iff {nodes : List Node} :
    areLegible nodes = true ↔ ∀ node ∈ nodes, node.isLegible = true := by
  induction nodes with
  | nil => simp [areLegible]
  | cons node rest ih => simp [areLegible, ih]

theorem ne_empty_of_areLegible {data : String} {rest : List Node}
    (hnodes : areLegible (text data :: rest) = true) : data ≠ "" :=
  of_decide_eq_true (Bool.and_eq_true_iff.mp hnodes).1

theorem exists_of_isText {node : Node} (hnode : node.isText = true) : ∃ data, node = text data := by
  cases node with
  | text data => exact ⟨data, rfl⟩
  | _ => simp [isText] at hnode

/-! ### Nodes with gaps of text between them -/

/-- Nodes with the text before the first and the text after each of them. -/
@[ext] structure Gaps where
  first : List Char
  rest : List (Node × List Char)

/-- The gaps of nodes, with a text added at the end. -/
def gaps (last : List Char) : List Node → Gaps
  | [] => { first := last, rest := [] }
  | text data :: rest =>
      { first := data.toList ++ (gaps last rest).first, rest := (gaps last rest).rest }
  | node :: rest => { first := [], rest := (node, (gaps last rest).first) :: (gaps last rest).rest }

theorem gaps_text (last : List Char) (data : String) (rest : List Node) :
    gaps last (text data :: rest) =
      { first := data.toList ++ (gaps last rest).first, rest := (gaps last rest).rest } := rfl

theorem gaps_cons {node : Node} (hnode : node.isText = false) (last : List Char) (rest : List Node) :
    gaps last (node :: rest) =
      { first := [], rest := (node, (gaps last rest).first) :: (gaps last rest).rest } := by
  cases node with
  | text data => simp [isText] at hnode
  | _ => rfl

theorem map_fst_gaps (last : List Char) (nodes : List Node) :
    (gaps last nodes).rest.map Prod.fst = nodes.filter fun node => !node.isText := by
  induction nodes with
  | nil => rfl
  | cons node rest ih =>
      cases hnode : node.isText with
      | true =>
          obtain ⟨data, rfl⟩ := exists_of_isText hnode
          simpa [gaps_text, isText] using ih
      | false => simp [gaps_cons hnode, hnode, ih]

def leadText : List Node → List Char
  | text data :: _ => data.toList
  | _ => []

theorem gaps_of_apart {data : String} {rest : List Node} (hapart : Apart (text data :: rest))
    (last : List Char) :
    rest = [] ∨ (gaps last rest).first = [] ∧ (gaps last rest).rest ≠ [] := by
  cases rest with
  | nil => exact .inl rfl
  | cons node more =>
      have hnode : node.isText = false := by
        have hpair := (List.isChain_cons_cons.mp hapart).1
        simpa [isText] using hpair
      right
      rw [gaps_cons hnode]
      simp

theorem eq_nil_of_gaps_eq {last : List Char} {nodes : List Node} (hnodes : areLegible nodes = true)
    (hapart : Apart nodes)
    (hgaps : gaps last nodes = { first := last, rest := [] }) : nodes = [] := by
  cases nodes with
  | nil => rfl
  | cons node rest =>
      cases hnode : node.isText with
      | true =>
          obtain ⟨data, rfl⟩ := exists_of_isText hnode
          rw [gaps_text, Gaps.mk.injEq] at hgaps
          rcases gaps_of_apart hapart last with rfl | ⟨-, hrest⟩
          · have hdata : data.toList = [] := List.append_left_eq_self.mp hgaps.1
            exact absurd (String.toList_eq_nil_iff.mp hdata) (ne_empty_of_areLegible hnodes)
          · exact absurd hgaps.2 hrest
      | false => simp [gaps_cons hnode] at hgaps

/-- Gaps determine nodes of which no text is empty and no two texts stand side by side. -/
theorem eq_of_gaps_eq {last : List Char} {nodes others : List Node} (hnodes : areLegible nodes = true)
    (hothers : areLegible others = true) (hapart : Apart nodes) (hotherApart : Apart others)
    (hgaps : gaps last nodes = gaps last others) : nodes = others := by
  induction nodes generalizing others with
  | nil => exact (eq_nil_of_gaps_eq hothers hotherApart hgaps.symm).symm
  | cons node rest ih =>
      cases others with
      | nil => exact eq_nil_of_gaps_eq hnodes hapart hgaps
      | cons other more =>
          have hrestLegible := (Bool.and_eq_true_iff.mp hnodes).2
          have hmoreLegible := (Bool.and_eq_true_iff.mp hothers).2
          have htail := ih hrestLegible hmoreLegible hapart.tail hotherApart.tail
          cases hnode : node.isText with
          | false =>
              cases hother : other.isText with
              | false =>
                  rw [gaps_cons hnode, gaps_cons hother] at hgaps
                  simp only [Gaps.mk.injEq, List.cons.injEq, Prod.mk.injEq, true_and] at hgaps
                  obtain ⟨⟨rfl, hfirst⟩, hrest⟩ := hgaps
                  rw [htail (Gaps.ext hfirst hrest)]
              | true =>
                  obtain ⟨data, rfl⟩ := exists_of_isText hother
                  rw [gaps_cons hnode, gaps_text, Gaps.mk.injEq] at hgaps
                  have hdata := (List.append_eq_nil_iff.mp hgaps.1.symm).1
                  exact absurd (String.toList_eq_nil_iff.mp hdata) (ne_empty_of_areLegible hothers)
          | true =>
              obtain ⟨data, rfl⟩ := exists_of_isText hnode
              cases hother : other.isText with
              | false =>
                  rw [gaps_cons hother, gaps_text, Gaps.mk.injEq] at hgaps
                  have hdata := (List.append_eq_nil_iff.mp hgaps.1).1
                  exact absurd (String.toList_eq_nil_iff.mp hdata) (ne_empty_of_areLegible hnodes)
              | true =>
                  obtain ⟨other, rfl⟩ := exists_of_isText hother
                  rw [gaps_text, gaps_text, Gaps.mk.injEq] at hgaps
                  obtain ⟨hfirst, hrest⟩ := hgaps
                  -- What follows either text is nothing, or a node that leaves no gap.
                  have hsame : (gaps last rest).first = (gaps last more).first := by
                    rcases gaps_of_apart hapart last with rfl | ⟨hnone, hsome⟩ <;>
                      rcases gaps_of_apart hotherApart last with rfl | ⟨hotherNone, hotherSome⟩
                    · rfl
                    · exact absurd hrest.symm hotherSome
                    · exact absurd hrest hsome
                    · rw [hnone, hotherNone]
                  rw [hsame, List.append_cancel_right_eq] at hfirst
                  rw [htail (Gaps.ext hsame hrest), String.toList_injective hfirst]

/-! ### Finding the added whitespace in the content of an element -/

/-- The first gap is the text the nodes start with, and the last gap where no node stands between
them. -/
theorem first_gaps {nodes : List Node} (hapart : Apart nodes) (last : List Char) :
    (gaps last nodes).first = leadText nodes ++ if (gaps last nodes).rest = [] then last else [] := by
  cases nodes with
  | nil => rfl
  | cons node rest =>
      cases hnode : node.isText with
      | false =>
          rw [gaps_cons hnode]
          cases node with
          | text data => simp [isText] at hnode
          | _ => rfl
      | true =>
          obtain ⟨data, rfl⟩ := exists_of_isText hnode
          rw [gaps_text, leadText]
          rcases gaps_of_apart hapart last with rfl | ⟨hfirst, hrest⟩
          · rfl
          · rw [hfirst, if_neg hrest]

theorem any_isInlineElement_eq (last : List Char) (nodes : List Node) :
    nodes.any isInlineElement = (gaps last nodes).rest.any fun entry => isInlineElement entry.1 := by
  have hmap : ((gaps last nodes).rest.map Prod.fst).any isInlineElement =
      nodes.any isInlineElement := by
    rw [map_fst_gaps, List.any_filter]
    congr 1
    funext node
    cases node <;> rfl
  rw [← hmap, List.any_map]
  rfl

theorem opensBlock_eq {nodes : List Node} (hnodes : areLegible nodes = true) :
    opensBlock nodes = (!nodes.isEmpty && (leadText nodes).all Text.isSpace) := by
  cases nodes with
  | nil => rfl
  | cons node rest =>
      cases node with
      | text data => rfl
      | comment data => rfl
      | element tag attrs children => rfl
      | _ => simp [areLegible, isLegible] at hnodes

theorem isEmpty_eq {nodes : List Node} (hnodes : areLegible nodes = true) (last : List Char) :
    nodes.isEmpty = ((leadText nodes).isEmpty && (gaps last nodes).rest.isEmpty) := by
  cases nodes with
  | nil => rfl
  | cons node rest =>
      cases hnode : node.isText with
      | false => simp [gaps_cons hnode]
      | true =>
          obtain ⟨data, rfl⟩ := exists_of_isText hnode
          have hdata := ne_empty_of_areLegible hnodes
          simp [leadText, hdata]

theorem savingNewline_eq (tag : String) (nodes : List Node) :
    savingNewline tag nodes =
      if Tag.dropsNewline tag && (leadText nodes).head? == some '\n' then ['\n'] else [] := by
  have hloses : losesNewline tag nodes =
      (Tag.dropsNewline tag && (leadText nodes).head? == some '\n') := by
    unfold losesNewline
    congr 1
    cases nodes with
    | nil => rfl
    | cons node rest =>
        cases node with
        | text data =>
            cases hchars : data.toList <;>
                simp [leading?, leadText, Text.startsWith, hchars, List.isPrefixOf,
                    Bool.beq_eq_decide_eq, eq_comm]
        | stray value => cases value <;> rfl
        | _ => rfl
  rw [savingNewline, hloses]

/-- A text that starts with a newline can be told from one that got it to save another. -/
theorem savedText_inj {tag : String} {nodes others : List Node}
    (happ : savingNewline tag nodes ++ leadText nodes = savingNewline tag others ++ leadText others) :
    leadText nodes = leadText others := by
  rw [savingNewline_eq, savingNewline_eq] at happ
  cases hdrops : Tag.dropsNewline tag with
  | false => simpa [hdrops] using happ
  | true =>
      simp only [hdrops, Bool.true_and, beq_iff_eq] at happ
      split at happ <;> split at happ
      · exact List.append_cancel_left happ
      · next hother => exact absurd (by rw [← List.nil_append (leadText others), ← happ]; rfl) hother
      · next hnone _ => exact absurd (by rw [← List.nil_append (leadText nodes), happ]; rfl) hnone
      · exact happ

theorem closingBreak_eq (tag : String) {nodes : List Node} (hnodes : areLegible nodes = true)
    (last : List Char) :
    closingBreak tag nodes =
      (!Tag.isInline tag && !Tag.keepsClosing tag &&
        !((gaps last nodes).rest.any fun entry => isInlineElement entry.1) &&
        (!((leadText nodes).isEmpty && (gaps last nodes).rest.isEmpty) &&
          (leadText nodes).all Text.isSpace)) := by
  rw [closingBreak, any_isInlineElement_eq last, opensBlock_eq hnodes, isEmpty_eq hnodes last]

/-- The content of an element as gaps, with the added whitespace in them. -/
def contentGaps (style : Style) (depth : Nat) (tag : String) (children : List Node) : Gaps :=
  let inner := gaps (endBreak style depth tag children) children
  { inner with first := savingNewline tag children ++ inner.first }

/-- Without a node between them, the gaps show whether the text of the content is empty and whether
it is blank. -/
theorem contentText_of_rest_eq_nil {style : Style} (hstyle : style.Blank) (depth : Nat)
    (tag : String) {nodes : List Node}
    (hnodes : areLegible nodes = true) (hrest : (gaps (endBreak style depth tag nodes) nodes).rest = []) :
    let content := savingNewline tag nodes ++ (leadText nodes ++ endBreak style depth tag nodes)
    (leadText nodes).isEmpty = content.isEmpty ∧
      (leadText nodes).all Text.isSpace = content.all Text.isSpace := by
  have hend := List.all_eq_true.mpr (isSpace_of_mem_endBreak hstyle depth tag nodes)
  have hsaving := List.all_eq_true.mpr (isSpace_of_mem_savingNewline tag nodes)
  refine ⟨?_, by simp [hend, hsaving]⟩
  cases hlead : leadText nodes with
  | cons c more => simp
  | nil =>
      have hsaved : savingNewline tag nodes = [] := by simp [savingNewline_eq, hlead]
      have hnone : endBreak style depth tag nodes = [] := by
        rw [endBreak, closingBreak_eq tag hnodes (endBreak style depth tag nodes), hrest, hlead]
        simp
      simp [hsaved, hnone]

/-- The gaps show all that decides about the line break before an end tag. -/
theorem endBreak_congr {style : Style} {depth : Nat} {tag : String} {nodes others : List Node}
    (hnodes : areLegible nodes = true) (hothers : areLegible others = true)
    (hrest : (gaps (endBreak style depth tag nodes) nodes).rest =
      (gaps (endBreak style depth tag others) others).rest)
    (hempty : (leadText nodes).isEmpty = (leadText others).isEmpty)
    (hblank : (leadText nodes).all Text.isSpace = (leadText others).all Text.isSpace) :
    endBreak style depth tag nodes = endBreak style depth tag others := by
  have hclosing : closingBreak tag nodes = closingBreak tag others := by
    rw [closingBreak_eq tag hnodes (endBreak style depth tag nodes),
      closingBreak_eq tag hothers (endBreak style depth tag others), hrest, hempty, hblank]
  rw [endBreak, endBreak, hclosing]

/-- The gaps of a content determine the children. -/
theorem eq_of_contentGaps_eq {style : Style} (hstyle : style.Blank) {depth : Nat} {tag : String}
    {nodes others : List Node}
    (hnodes : areLegible nodes = true) (hothers : areLegible others = true) (hapart : Apart nodes)
    (hotherApart : Apart others)
    (hgaps : contentGaps style depth tag nodes = contentGaps style depth tag others) :
    nodes = others := by
  simp only [contentGaps, Gaps.mk.injEq] at hgaps
  obtain ⟨hfirst, hrest⟩ := hgaps
  rw [first_gaps hapart, first_gaps hotherApart, ← hrest] at hfirst
  have hlead : leadText nodes = leadText others := by
    cases hnone : (gaps (endBreak style depth tag nodes) nodes).rest with
    | cons entry more => exact savedText_inj (by simpa [hnone] using hfirst)
    | nil =>
        rw [hnone, if_pos rfl, if_pos rfl] at hfirst
        obtain ⟨hempty, hblank⟩ := contentText_of_rest_eq_nil hstyle depth tag hnodes hnone
        obtain ⟨hotherEmpty, hotherBlank⟩ :=
            contentText_of_rest_eq_nil hstyle depth tag hothers (hrest ▸ hnone)
        have hbreak := endBreak_congr hnodes hothers hrest (by rw [hempty, hfirst, hotherEmpty])
          (by rw [hblank, hfirst, hotherBlank])
        rw [hbreak, ← List.append_assoc, ← List.append_assoc, List.append_cancel_right_eq] at hfirst
        exact savedText_inj hfirst
  have hbreak := endBreak_congr hnodes hothers hrest (by rw [hlead]) (by rw [hlead])
  rw [hbreak] at hrest
  refine eq_of_gaps_eq hnodes hothers hapart hotherApart (Gaps.ext ?_ hrest)
  rw [first_gaps hapart, first_gaps hotherApart, hlead, hrest]

/-! ### Finding the tree in the signs -/

def Gaps.signs (style : Style) (depth : Nat) (row : Gaps) : List Sign :=
  row.first.map .char ++ row.rest.flatMap fun entry => entry.1.signs style depth ++ entry.2.map .char

theorem signs_gaps (style : Style) (depth : Nat) (last : List Char) (nodes : List Node) :
    (gaps last nodes).signs style depth = signsAll style depth nodes ++ last.map .char := by
  induction nodes with
  | nil => simp [Gaps.signs, gaps, signsAll]
  | cons node rest ih =>
      cases hnode : node.isText with
      | false => simp [Gaps.signs, gaps_cons hnode, signsAll, ← ih]
      | true =>
          obtain ⟨data, rfl⟩ := exists_of_isText hnode
          simp [Gaps.signs, gaps_text, signsAll, Node.signs, ← ih]

/-- The first sign of an element after the line break. -/
def mark (style : Style) (depth : Nat) (tag : String) (attrs : List Attribute)
    (children : List Node) : Sign :=
  if Tag.isVoid tag then .empty tag attrs
  else if Tag.isRawText tag then
    .raw tag attrs (children.flatMap textChars ++ endBreak style depth tag children)
  else .opening tag attrs

/-- The signs of an element after the first one. -/
def content (style : Style) (depth : Nat) (tag : String) (children : List Node) : List Sign :=
  if Tag.isVoid tag || Tag.isRawText tag then []
  else (contentGaps style depth tag children).signs style (depth + 1) ++ [.closing tag]

theorem signs_element (style : Style) (depth : Nat) (tag : String) (attrs : List Attribute)
    (children : List Node) :
    (element tag attrs children).signs style depth =
      (leadBreak style depth tag).map .char ++
        mark style depth tag attrs children :: content style depth tag children := by
  have hgaps := signs_gaps style (depth + 1) (endBreak style depth tag children) children
  rw [Gaps.signs] at hgaps
  rw [signs, mark, content]
  cases Tag.isVoid tag <;> cases Tag.isRawText tag <;>
    simp [contentGaps, Gaps.signs, ← hgaps, ← List.append_assoc]

theorem mark_ne (style : Style) (depth : Nat) (tag : String) (attrs : List Attribute)
    (children : List Node) :
    (∀ c, mark style depth tag attrs children ≠ .char c) ∧
      (∀ name, mark style depth tag attrs children ≠ .closing name) ∧
      ∀ data, mark style depth tag attrs children ≠ .comment data := by
  unfold mark
  split
  · simp
  · split <;> simp

theorem mark_inj {style : Style} {depth : Nat} {tag name : String} {attrs others : List Attribute}
    {children nodes : List Node}
    (hmark : mark style depth tag attrs children = mark style depth name others nodes) :
    tag = name ∧ attrs = others := by
  unfold mark at hmark
  repeat' split at hmark
  all_goals simp_all

theorem exists_signs_eq {node : Node} (hnode : node.isLegible = true) (htext : node.isText = false)
    (style : Style) (depth : Nat) :
    ∃ (lead : List Char) (sign : Sign) (rest : List Sign),
      node.signs style depth = lead.map .char ++ sign :: rest ∧
      (∀ c, sign ≠ .char c) ∧ ∀ name, sign ≠ .closing name := by
  cases node with
  | text data => simp [isText] at htext
  | comment data => exact ⟨[], .comment data, [], rfl, by simp, by simp⟩
  | element tag attrs children =>
      obtain ⟨hchar, hclosing, -⟩ := mark_ne style depth tag attrs children
      exact ⟨_, _, _, signs_element style depth tag attrs children, hchar, hclosing⟩
  | _ => simp [isLegible] at hnode

theorem chars_append_inj {first others : List Char} {sign next : Sign} {rest more : List Sign}
    (hsign : ∀ c, sign ≠ .char c) (hnext : ∀ c, next ≠ .char c)
    (happ : first.map .char ++ sign :: rest = others.map .char ++ next :: more) :
    first = others ∧ sign = next ∧ rest = more := by
  obtain ⟨hchars, hrest⟩ :=
      Text.append_inj_of_class (fun sign => ∃ c, Sign.char c = sign) (by simp) (by simp)
    (by simpa [eq_comm] using hsign) (by simpa [eq_comm] using hnext) happ
  exact ⟨(List.map_inj_right fun _ _ => Sign.char.inj).mp hchars, List.cons.inj hrest⟩

/-- A node whose signs, with characters before them, can be told from the signs of every other node. -/
def Recognized (style : Style) (node : Node) : Prop :=
  ∀ {depth : Nat} {other : Node} {first others : List Char} {rest more : List Sign},
    other.isLegible = true → other.isText = false →
    first.map .char ++ (node.signs style depth ++ rest) =
      others.map .char ++ (other.signs style depth ++ more) →
      first = others ∧ node = other ∧ rest = more

/-- The signs up to an end tag determine the nodes and the gaps between them, if each node is
recognized. -/
theorem eq_of_signs_eq {style : Style} {depth : Nat} {row other : Gaps} {tag name : String}
    {rest more : List Sign}
    (hrow : ∀ entry ∈ row.rest, Recognized style entry.1 ∧ entry.1.isLegible = true ∧ entry.1.isText = false)
    (hother : ∀ entry ∈ other.rest, entry.1.isLegible = true ∧ entry.1.isText = false)
    (happ : row.signs style depth ++ .closing tag :: rest =
      other.signs style depth ++ .closing name :: more) :
    row = other ∧ rest = more := by
  obtain ⟨first, entries⟩ := row
  obtain ⟨others, remaining⟩ := other
  -- An end tag does not stand where the first sign of a node does.
  have hend : ∀ {node : Node} {first others : List Char} {tag : String} {rest more : List Sign},
      node.isLegible = true → node.isText = false →
      first.map Sign.char ++ .closing tag :: rest ≠
        others.map .char ++ (node.signs style depth ++ more) := by
    intro node first others tag rest more hnode htext happ
    obtain ⟨lead, sign, following, hsigns, hchar, hclosing⟩ := exists_signs_eq hnode htext style depth
    rw [hsigns, List.append_assoc, ← List.append_assoc, ← List.map_append] at happ
    exact hclosing tag (chars_append_inj (by simp) hchar happ).2.1.symm
  induction entries generalizing first others remaining with
  | nil =>
      cases remaining with
      | nil =>
          simp only [Gaps.signs, List.flatMap_nil, List.append_nil] at happ
          obtain ⟨rfl, -, hrest⟩ := chars_append_inj (by simp) (by simp) happ
          exact ⟨rfl, hrest⟩
      | cons entry remaining =>
          obtain ⟨hentry, -⟩ := List.forall_mem_cons.mp hother
          exact absurd (by simpa [Gaps.signs] using happ) (hend hentry.1 hentry.2)
  | cons entry entries ih =>
      obtain ⟨hentry, hentries⟩ := List.forall_mem_cons.mp hrow
      cases remaining with
      | nil => exact absurd (by simpa [Gaps.signs] using happ.symm) (hend hentry.2.1 hentry.2.2)
      | cons next remaining =>
          obtain ⟨hnext, hremaining⟩ := List.forall_mem_cons.mp hother
          simp only [Gaps.signs, List.flatMap_cons, List.append_assoc] at happ
          obtain ⟨rfl, hnode, htail⟩ := hentry.1 hnext.1 hnext.2 happ
          obtain ⟨hrest, hmore⟩ := ih entry.2 hentries next.2 remaining hremaining
            (by simpa [Gaps.signs] using htail)
          rw [Gaps.mk.injEq] at hrest
          rw [hrest.2, Prod.ext hnode hrest.1]
          exact ⟨rfl, hmore⟩

theorem mem_of_mem_rest_gaps {last : List Char} {nodes : List Node} {entry : Node × List Char}
    (hentry : entry ∈ (gaps last nodes).rest) : entry.1 ∈ nodes ∧ entry.1.isText = false := by
  have hmem : entry.1 ∈ (gaps last nodes).rest.map Prod.fst := List.mem_map_of_mem hentry
  rw [map_fst_gaps, List.mem_filter] at hmem
  exact ⟨hmem.1, by simpa using hmem.2⟩

theorem isLegible_of_mem_rest_gaps {nodes : List Node} (hnodes : areLegible nodes = true)
    (last : List Char) :
    ∀ entry ∈ (gaps last nodes).rest, entry.1.isLegible = true ∧ entry.1.isText = false := by
  intro entry hentry
  obtain ⟨hmem, htext⟩ := mem_of_mem_rest_gaps hentry
  exact ⟨areLegible_iff.mp hnodes _ hmem, htext⟩

theorem eq_of_content_eq {style : Style} (hstyle : style.Blank) {depth : Nat} {tag : String}
    {children nodes : List Node}
    {rest more : List Sign} (hvoid : Tag.isVoid tag = false) (hraw : Tag.isRawText tag = false)
    (hrecognized : ∀ child ∈ children,
      child.isLegible = true → child.isText = false → Recognized style child)
    (hchildren : areLegible children = true ∧ Apart children) (hnodes : areLegible nodes = true ∧ Apart nodes)
    (happ : content style depth tag children ++ rest = content style depth tag nodes ++ more) :
    children = nodes ∧ rest = more := by
  obtain ⟨hlegible, hapart⟩ := hchildren
  obtain ⟨hotherLegible, hotherApart⟩ := hnodes
  have hrow : ∀ entry ∈ (contentGaps style depth tag children).rest,
      Recognized style entry.1 ∧ entry.1.isLegible = true ∧ entry.1.isText = false := by
    intro entry hentry
    obtain ⟨hentryLegible, htext⟩ := isLegible_of_mem_rest_gaps hlegible _ entry hentry
    exact ⟨hrecognized _ (mem_of_mem_rest_gaps hentry).1 hentryLegible htext, hentryLegible, htext⟩
  simp only [content, hvoid, hraw, Bool.or_self, Bool.false_eq_true, if_false, List.append_assoc,
    List.singleton_append] at happ
  have hotherRow : ∀ entry ∈ (contentGaps style depth tag nodes).rest,
      entry.1.isLegible = true ∧ entry.1.isText = false :=
    isLegible_of_mem_rest_gaps hotherLegible _
  obtain ⟨hgaps, hmore⟩ := eq_of_signs_eq hrow hotherRow happ
  exact ⟨eq_of_contentGaps_eq hstyle hlegible hotherLegible hapart hotherApart hgaps, hmore⟩

theorem contentGaps_of_legibleRaw {tag : String} {children : List Node}
    (hraw : Tag.isRawText tag = true)
    (hchildren : isLegibleRaw children = true) (style : Style) (depth : Nat) :
    (areLegible children = true ∧ Apart children) ∧ contentGaps style depth tag children =
      { first := children.flatMap textChars ++ endBreak style depth tag children, rest := [] } := by
  have hsaving := savingNewline_of_isRawText hraw children
  rcases isLegibleRaw_iff.mp hchildren with rfl | ⟨data, rfl, hdata, -⟩
  · simp [areLegible, Apart, contentGaps, gaps, hsaving]
  · simp [areLegible, isLegible, Apart, hdata, contentGaps, gaps, hsaving, textChars]

theorem recognized_comment (style : Style) (data : String) : Recognized style (comment data) := by
  intro depth other first others rest more hother hotherText happ
  cases other with
  | text data => simp [isText] at hotherText
  | comment data =>
      obtain ⟨rfl, hsign, hrest⟩ := chars_append_inj (by simp) (by simp) happ
      exact ⟨rfl, congrArg comment (Sign.comment.inj hsign), hrest⟩
  | element tag attrs children =>
      obtain ⟨hchar, -, hcomment⟩ := mark_ne style depth tag attrs children
      rw [signs_element, List.append_assoc, ← List.append_assoc (others.map _),
          ← List.map_append] at happ
      exact absurd (chars_append_inj (by simp) hchar happ).2.1.symm (hcomment data)
  | _ => simp [isLegible] at hother

theorem recognized_element {style : Style} (hstyle : style.Blank) {tag : String}
    {attrs : List Attribute} {children : List Node} (hnode : (element tag attrs children).isLegible = true)
    (hrecognized : ∀ child ∈ children,
      child.isLegible = true → child.isText = false → Recognized style child) :
    Recognized style (element tag attrs children) := by
  intro depth other first others rest more hother hotherText happ
  obtain ⟨hchar, -, hcomment⟩ := mark_ne style depth tag attrs children
  rw [signs_element, List.append_assoc, ← List.append_assoc (first.map _), ← List.map_append] at happ
  cases other with
  | text data => simp [isText] at hotherText
  | comment data => exact absurd (chars_append_inj hchar (by simp) happ).2.1 (hcomment data)
  | element name attributes nodes =>
      rw [signs_element, List.append_assoc, ← List.append_assoc (others.map _),
          ← List.map_append] at happ
      obtain ⟨hlead, hmark, hcontent⟩ :=
          chars_append_inj hchar (mark_ne style depth name attributes nodes).1 happ
      obtain ⟨rfl, rfl⟩ := mark_inj hmark
      obtain rfl := List.append_cancel_right hlead
      obtain ⟨-, -, -, hempty, hchildren⟩ := isLegible_element_iff.mp hnode
      obtain ⟨-, -, -, hotherEmpty, hnodes⟩ := isLegible_element_iff.mp hother
      refine ⟨rfl, ?_⟩
      cases hvoid : Tag.isVoid tag with
      | true => simpa [hempty hvoid, hotherEmpty hvoid, content, hvoid] using hcontent
      | false =>
          cases hraw : Tag.isRawText tag with
          | true =>
              rw [hraw, if_pos rfl] at hchildren hnodes
              obtain ⟨⟨hlegible, hapart⟩, hgaps⟩ :=
                  contentGaps_of_legibleRaw hraw hchildren style depth
              obtain ⟨⟨hotherLegible, hotherApart⟩, hotherGaps⟩ :=
                  contentGaps_of_legibleRaw hraw hnodes style depth
              simp only [mark, hvoid, hraw, Bool.false_eq_true, if_false, if_true, Sign.raw.injEq,
                  true_and] at hmark
              rw [hmark, ← hotherGaps] at hgaps
              obtain rfl := eq_of_contentGaps_eq hstyle hlegible hotherLegible hapart hotherApart hgaps
              exact ⟨rfl, by simpa [content, hraw] using hcontent⟩
          | false =>
              rw [hraw, if_neg Bool.false_ne_true] at hchildren hnodes
              obtain ⟨rfl, hrest⟩ :=
                  eq_of_content_eq hstyle hvoid hraw hrecognized hchildren hnodes hcontent
              exact ⟨rfl, hrest⟩
  | _ => simp [isLegible] at hother

mutual

/-- Every node that is no text is recognized. -/
theorem recognized {style : Style} (hstyle : style.Blank) {node : Node} (hnode : node.isLegible = true)
    (htext : node.isText = false) :
    Recognized style node := by
  cases node with
  | text data => simp [isText] at htext
  | comment data => exact recognized_comment style data
  | element tag attrs children => exact recognized_element hstyle hnode (recognizedAll hstyle children)
  | _ => simp [isLegible] at hnode

theorem recognizedAll {style : Style} (hstyle : style.Blank) (nodes : List Node) :
    ∀ node ∈ nodes, node.isLegible = true → node.isText = false → Recognized style node := by
  match nodes with
  | [] => simp
  | node :: rest =>
      have hnode : node.isLegible = true → node.isText = false → Recognized style node := recognized hstyle
      exact List.forall_mem_cons.mpr ⟨hnode, recognizedAll hstyle rest⟩

end

/-- The signs of a tree determine it. -/
theorem signs_inj {style : Style} (hstyle : style.Blank) {node other : Node} (hnode : node.isLegible = true)
    (hother : other.isLegible = true)
    (hsigns : node.signs style 0 = other.signs style 0) : node = other := by
  have hapart : ∀ node : Node, Apart [node] := fun node => List.isChain_singleton node
  have hall : ∀ {node : Node}, node.isLegible = true → areLegible [node] = true := fun hnode =>
    Bool.and_eq_true_iff.mpr ⟨hnode, rfl⟩
  have hrow : ∀ entry ∈ (gaps [] [node]).rest, Recognized style entry.1 ∧ entry.1.isLegible = true ∧
      entry.1.isText = false := by
    intro entry hentry
    obtain ⟨hlegible, htext⟩ := isLegible_of_mem_rest_gaps (hall hnode) [] entry hentry
    exact ⟨recognized hstyle hlegible htext, hlegible, htext⟩
  -- An end tag after either row, as if both were the content of an element.
  have happ : (gaps [] [node]).signs style 0 ++ [.closing ""] =
      (gaps [] [other]).signs style 0 ++ [.closing ""] := by
    simp [signs_gaps, signsAll, hsigns]
  have hgaps := (eq_of_signs_eq hrow (isLegible_of_mem_rest_gaps (hall hother) []) happ).1
  have hrows := eq_of_gaps_eq (hall hnode) (hall hother) (hapart node) (hapart other) hgaps
  exact (List.cons.inj hrows).1

/-! ### Legible trees have legible signs -/

theorem not_endTagStart_append {data : List Char} (hdata : ¬Sign.endTagStart <:+: data)
    {blank : List Char}
    (hblank : ∀ c ∈ blank, Text.isSpace c = true) : ¬Sign.endTagStart <:+: data ++ blank := by
  rintro ⟨front, back, happ⟩
  have hslash : '/' ∉ blank := fun hmem => absurd (hblank _ hmem) (by decide)
  have hpieces : (front ++ ['<', '/']) ++ back = data ++ blank := happ
  rcases List.append_eq_append_iff.mp hpieces with ⟨shift, hdataEq, -⟩ | ⟨shift, hfront, hblankEq⟩
  · exact hdata ⟨front, shift, hdataEq.symm⟩
  · cases shift using List.reverseRecOn with
    | nil => exact hdata ⟨front, [], by simpa [Sign.endTagStart] using hfront⟩
    | append_singleton shift c =>
        rw [← List.append_assoc, show front ++ ['<', '/'] = (front ++ ['<']) ++ ['/'] by simp] at hfront
        obtain ⟨-, hc⟩ := List.append_inj' hfront rfl
        refine hslash ?_
        rw [hblankEq, List.cons.inj hc |>.1]
        simp

mutual

theorem regular_of_isLegible {node : Node} (hnode : node.isLegible = true) : node.Regular := by
  cases node with
  | text data => trivial
  | comment data => trivial
  | element tag attrs children =>
      obtain ⟨-, htag, -, hempty, hchildren⟩ := isLegible_element_iff.mp hnode
      refine ⟨htag, hempty, ?_⟩
      cases hraw : Tag.isRawText tag with
      | true =>
          rw [hraw, if_pos rfl] at hchildren
          rcases isLegibleRaw_iff.mp hchildren with rfl | ⟨data, rfl, -⟩ <;> simp [isText]
      | false =>
          rw [hraw, if_neg Bool.false_ne_true] at hchildren
          exact regularAll_of_areLegible hchildren.1
  | _ => simp [isLegible] at hnode

theorem regularAll_of_areLegible {nodes : List Node} (hnodes : areLegible nodes = true) :
    RegularAll nodes := by
  match nodes with
  | [] => trivial
  | node :: rest =>
      obtain ⟨hnode, hrest⟩ := Bool.and_eq_true_iff.mp hnodes
      exact ⟨regular_of_isLegible hnode, regularAll_of_areLegible hrest⟩

end

mutual

theorem legible_of_mem_signs {style : Style} (hstyle : style.Blank) (depth : Nat)
    {node : Node} (hnode : node.isLegible = true) :
    ∀ sign ∈ node.signs style depth, sign.Legible := by
  have hchars : ∀ chars : List Char, ∀ sign ∈ chars.map Sign.char, sign.Legible := by
    intro chars sign hsign
    obtain ⟨c, -, rfl⟩ := List.mem_map.mp hsign
    trivial
  cases node with
  | text data => exact hchars _
  | comment data =>
      have hdata : ¬Sign.commentEnd <:+: data.toList := of_decide_eq_true hnode
      exact List.forall_mem_singleton.mpr hdata
  | element tag attrs children =>
      obtain ⟨htag, -, hattrs, -, hchildren⟩ := isLegible_element_iff.mp hnode
      rw [signs]
      refine List.forall_mem_append.mpr ⟨hchars _, ?_⟩
      cases hvoid : Tag.isVoid tag with
      | true => exact List.forall_mem_singleton.mpr ⟨htag, hattrs⟩
      | false =>
          cases hraw : Tag.isRawText tag with
          | true =>
              rw [hraw, if_pos rfl] at hchildren
              have hbody : ¬Sign.endTagStart <:+: children.flatMap textChars := by
                rcases isLegibleRaw_iff.mp hchildren with rfl | ⟨data, rfl, -, hdata⟩
                · simp [Sign.endTagStart]
                · simpa [textChars] using hdata
              have hend :=
                  not_endTagStart_append hbody (isSpace_of_mem_endBreak hstyle depth tag children)
              exact List.forall_mem_singleton.mpr ⟨htag, hraw, hattrs, hend⟩
          | false =>
              rw [hraw, if_neg Bool.false_ne_true] at hchildren
              have hinner := legible_of_mem_signsAll hstyle (depth + 1) hchildren.1
              have hclosing : ∀ sign ∈ [Sign.closing tag], sign.Legible :=
                  List.forall_mem_singleton.mpr htag
              rw [if_neg Bool.false_ne_true, if_neg Bool.false_ne_true, List.forall_mem_cons]
              refine ⟨⟨htag, hraw, hattrs⟩, List.forall_mem_append.mpr ⟨hchars _, ?_⟩⟩
              exact List.forall_mem_append.mpr ⟨hinner,
                List.forall_mem_append.mpr ⟨hchars _, hclosing⟩⟩
  | _ => simp [isLegible] at hnode

theorem legible_of_mem_signsAll {style : Style} (hstyle : style.Blank) (depth : Nat)
    {nodes : List Node} (hnodes : areLegible nodes = true) :
    ∀ sign ∈ signsAll style depth nodes, sign.Legible := by
  match nodes with
  | [] => simp [signsAll]
  | node :: rest =>
      obtain ⟨hnode, hrest⟩ := Bool.and_eq_true_iff.mp hnodes
      exact List.forall_mem_append.mpr
        ⟨legible_of_mem_signs hstyle depth hnode, legible_of_mem_signsAll hstyle depth hrest⟩

end

/-- In a blank style every legible tree is written, and no two of them are written as the same text. -/
theorem toText_determines {style : Style} (hstyle : style.Blank) {node other : Node}
    (hnode : node.isLegible = true) (hother : other.isLegible = true) {calls : Nat}
    (hnesting : node.nesting ≤ calls) (hotherNesting : other.nesting ≤ calls) :
    (∃ written, (node.toText calls style).1 = .ok written) ∧
      ((node.toText calls style).1 = (other.toText calls style).1 → node = other) := by
  have hwritten := toText_eq_signs hstyle (regular_of_isLegible hnode) hnesting
  have hotherWritten := toText_eq_signs hstyle (regular_of_isLegible hother) hotherNesting
  refine ⟨⟨_, hwritten⟩, fun htexts => ?_⟩
  rw [hwritten, hotherWritten, Except.ok.injEq] at htexts
  have hsigns := Sign.spellAll_inj (legible_of_mem_signs hstyle 0 hnode)
    (legible_of_mem_signs hstyle 0 hother) (String.ofList_injective htexts)
  exact signs_inj hstyle hnode hother hsigns

/-- A newline more or less at the start of a `pre` shows in the text, although one is written that
was not there. -/
theorem toText_determines_pre :
    let style : Style := { margin := " ", indent := "\t" }
    let tree : String → Node :=
        fun data => element "div" [⟨"id", "\"<&>\"", "xml"⟩]
          [comment "--", element "pre" [] [text data]]
    (∃ written, ((tree "\n").toText defaultCalls style).1 = .ok written) ∧
      ((tree "\n").toText defaultCalls style).1 ≠ ((tree "\n\n").toText defaultCalls style).1 := by
  intro style tree
  have hstyle : style.Blank := ⟨by decide, by decide⟩
  have hnesting : ∀ data, (tree data).nesting ≤ defaultCalls := fun data => by
    simp [tree, nesting, nestingAll, defaultCalls]
  obtain ⟨hwritten, hdetermined⟩ := toText_determines hstyle
    (show (tree "\n").isLegible = true by decide) (show (tree "\n\n").isLegible = true by decide)
    (hnesting "\n") (hnesting "\n\n")
  refine ⟨hwritten, fun htexts => ?_⟩
  have htrees : tree "\n" = tree "\n\n" := hdetermined htexts
  simp [tree] at htrees

end Node

end HtmlLayout
