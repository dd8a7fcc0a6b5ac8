import HtmlLayout.Proofs.Depth
import HtmlLayout.Proofs.Reparse
import HtmlLayout.Proofs.TextRuns

/-!
# Preformatted text comes back unchanged

A preformatted element that holds texts and phrases of text is read back exactly as it was written.
The writer puts a line break in front of it and none inside. Reading drops a newline that directly
follows the start tag, and the writer has put one there exactly if the content starts with a newline
of its own. So nothing but the line break in front is new in the tree that is read.

Here all characters count. The marks of a tree tell every character of its texts, and a tree in which
no text is empty and no two texts stand side by side is known from these marks.
-/

namespace HtmlLayout

/-! ### Trees by all their marks -/

/-- All characters are kept. -/
def Text.isAny (_ : Char) : Bool := true

@[simp] theorem Text.sifted_isAny (text : String) : sifted isAny text = text := by
  have hall : text.toList.filter isAny = text.toList := List.filter_eq_self.mpr fun _ _ => rfl
  rw [sifted, hall, String.ofList_toList]

namespace Dom

theorem listedAll_append (first rest : List Dom) :
    listedAll (first ++ rest) = listedAll first ++ listedAll rest :=
  Rowwise.append ⟨rfl, fun _ _ => rfl⟩ List.nil_append List.append_assoc first rest

/-- Texts are joined alike before the conversion and after it, where no section of character data is
in the way. -/
theorem imageAll_joinText (data : String) {rest : List Dom}
    (hrest : ∀ held others, rest ≠ .cdata held :: others) :
    imageAll (joinText data rest) = Node.joinText data (imageAll rest) := by
  by_cases hdata : data = ""
  · simp [joinText, Node.joinText, hdata]
  · cases rest with
    | nil => simp [joinText, Node.joinText, hdata, imageAll, image]
    | cons node others =>
        cases node with
        | cdata data => exact absurd rfl (hrest data others)
        | _ => simp [joinText, Node.joinText, hdata, imageAll, image]

theorem normalizeAll_ne_cdata {nodes : List Dom} (hplain : ∀ node ∈ nodes, node.isPlain = true)
    (data : String) (others : List Dom) : normalizeAll nodes ≠ .cdata data :: others := by
  induction nodes with
  | nil => simp [normalizeAll]
  | cons node rest ih =>
      obtain ⟨hnode, hrest⟩ := List.forall_mem_cons.mp hplain
      cases node with
      | text first =>
          rw [normalizeAll]
          unfold joinText
          split
          · exact ih hrest
          · split <;> simp
      | cdata => cases hnode
      | _ => simp [normalizeAll, normalize]

mutual

theorem allToNodes_marks {node : Dom} (hplain : ∀ other ∈ listed node, other.isPlain = true)
    (htext : ∀ data, node ≠ .text data) (rest : List Mark) :
    Mark.allToNodes (node.marks Text.isAny ++ rest) =
      (normalize node).image :: Mark.allToNodes rest := by
  cases node with
  | element tag attrs children =>
      have hchildren := allToNodes_marksAll fun other hother =>
        hplain other (List.mem_cons_of_mem _ hother)
      simp [marks, Mark.allToNodes, Mark.toNodes, normalize, image, hchildren]
  | text data => exact absurd rfl (htext data)
  | comment data => rfl
  | doctype name publicId systemId =>
      simp [marks, leafNode, Node.marks, Mark.allToNodes, Mark.toNodes, normalize, image, presentId_eq]
  | cdata data => exact absurd (hplain _ (mem_listed _)) (by simp [isPlain])
  | other kind => exact absurd (hplain _ (mem_listed _)) (by simp [isPlain])

/-- The nodes that a tree is converted to are known from its marks. -/
theorem allToNodes_marksAll {nodes : List Dom}
    (hplain : ∀ node ∈ listedAll nodes, node.isPlain = true) :
    Mark.allToNodes (marksAll Text.isAny nodes) = imageAll (normalizeAll nodes) := by
  match nodes with
  | [] => rfl
  | node :: rest =>
      obtain ⟨hnode, hlater⟩ := List.forall_mem_append.mp hplain
      have hrest := allToNodes_marksAll hlater
      -- A text is the only node that what follows it can change.
      cases node with
      | text data =>
          have hcdata := normalizeAll_ne_cdata fun other hother =>
            hlater other (subset_listedAll rest hother)
          have hmarks := Mark.allToNodes_ofText Text.isAny data (marksAll Text.isAny rest)
          rw [Text.sifted_isAny, hrest, ← imageAll_joinText data hcdata] at hmarks
          exact hmarks
      | _ =>
          rw [marksAll, allToNodes_marks hnode (by simp), hrest, normalizeAll, imageAll]
          simp

end

/-- A tree with the marks of some nodes is converted to these nodes, if none of their texts is empty
or next to another. -/
theorem run_adapt_of_marks {siblings : List Dom} {nodes : List Node} {calls : Nat}
    (hplain : ∀ node ∈ listedAll siblings, node.isPlain = true)
    (hmarks : marksAll Text.isAny siblings = Node.marksAll Text.isAny nodes)
    (hnodes : Node.siftAll Text.isAny nodes = nodes) (hnesting : Node.nestingAll nodes ≤ calls)
    (target : Target) (sourceName : Option String) (channel : Channel) :
    ((adapt calls target sourceName (.ok siblings)).run.run channel).1 = .ok nodes := by
  have hdepth : nestingAll siblings ≤ calls := by
    have htwice : 2 * nestingAll siblings = Node.nestingAll nodes := by
      rw [← nestingAll_marksAll Text.isAny, hmarks, Node.nestingAll_marksAll]
    omega
  have hforeign : firstForeign? siblings = none := by
    rw [firstForeign?, List.findSome?_eq_none_iff]
    intro node hnode
    cases node with
    | other kind => exact absurd (hplain _ hnode) (by simp [isPlain])
    | _ => rfl
  have himages : (normalizeAll siblings).map image = nodes := by
    rw [← imageAll_eq_map, ← allToNodes_marksAll hplain, hmarks, ← Node.siftAll_eq_allToNodes, hnodes]
  rw [run_adapt target sourceName siblings channel hdepth, hforeign, himages]

end Dom

namespace Html.Draft

mutual

theorem isPlain_of_mem_listed_toDom (draft : Draft) :
    ∀ node ∈ Dom.listed draft.toDom, node.isPlain = true := by
  cases draft with
  | element label children =>
      rw [toDom, Dom.listed, List.forall_mem_cons]
      exact ⟨rfl, isPlain_of_mem_listedAll_toDoms children⟩
  | _ => exact List.forall_mem_singleton.mpr rfl

theorem isPlain_of_mem_listedAll_toDoms (drafts : List Draft) :
    ∀ node ∈ Dom.listedAll (toDoms drafts []), node.isPlain = true := by
  match drafts with
  | [] => simp [toDoms, Dom.listedAll]
  | draft :: rest =>
      rw [toDoms, toDoms_eq_append, Dom.listedAll_append, List.forall_mem_append]
      refine ⟨isPlain_of_mem_listedAll_toDoms rest, ?_⟩
      simpa [Dom.listedAll] using isPlain_of_mem_listed_toDom draft

end

end Html.Draft

/-! ### Phrases -/

/-- Elements that stand in a line of text. -/
def Html.phrasing : List String := ["span", "abbr", "kbd", "sub"]

namespace Node

mutual

/-- A text, or an element in a line of text with such content, that is read as it is written: no text
is empty or next to another, and neither nulls nor carriage returns are in it. -/
def isPhrase : Node → Bool
  | text data => data ≠ "" && '\x00' ∉ data.toList && '\r' ∉ data.toList
  | element tag attrs children =>
      tag ∈ Html.phrasing && Attribute.Ordinary attrs && Apart children && arePhrases children
  | _ => false

def arePhrases : List Node → Bool
  | [] => true
  | node :: rest => isPhrase node && arePhrases rest

end

/-- A preformatted element with a line of text in it. -/
def isPreformatted : Node → Bool
  | element tag attrs children =>
      tag = "pre" && Attribute.Ordinary attrs && Apart children && arePhrases children
  | _ => false

theorem isPhrase_text_iff {data : String} : (text data).isPhrase = true ↔
    data ≠ "" ∧ '\x00' ∉ data.toList ∧ '\r' ∉ data.toList := by
  simp [isPhrase, and_assoc]

section Element

variable {tag : String} {attrs : List Attribute} {children : List Node}

theorem isPhrase_element_iff : (element tag attrs children).isPhrase = true ↔
    tag ∈ Html.phrasing ∧ Attribute.Ordinary attrs ∧ Apart children ∧ arePhrases children = true := by
  simp [isPhrase, and_assoc]

theorem isPreformatted_element_iff : (element tag attrs children).isPreformatted = true ↔
    tag = "pre" ∧ Attribute.Ordinary attrs ∧ Apart children ∧ arePhrases children = true := by
  simp [isPreformatted, and_assoc]

end Element

theorem tag_of_mem_phrasing {tag : String} (htag : tag ∈ Html.phrasing) :
    tag ∈ Html.nestable ∧ Tag.isInline tag = true ∧ Tag.dropsNewline tag = false := by
  have hall : ∀ tag ∈ Html.phrasing,
      tag ∈ Html.nestable ∧ Tag.isInline tag = true ∧ Tag.dropsNewline tag = false := by decide
  exact hall tag htag

/-- No text is empty or next to another, so nothing is joined and nothing is dropped. -/
theorem siftAll_text_cons {data : String} (hdata : data ≠ "") {rest : List Node}
    (hapart : Apart (text data :: rest)) (hrest : siftAll Text.isAny rest = rest) :
    siftAll Text.isAny (text data :: rest) = text data :: rest := by
  rw [siftAll, Text.sifted_isAny, hrest]
  refine joinsText.other hdata ?_
  rintro next others rfl
  exact (List.isChain_cons_cons.mp hapart).1 ⟨rfl, rfl⟩

mutual

theorem sift_phrase {node : Node} (hnode : node.isPhrase = true) : node.sift Text.isAny = node := by
  cases node with
  | element tag attrs children =>
      obtain ⟨-, -, hapart, hchildren⟩ := isPhrase_element_iff.mp hnode
      rw [sift, siftAll_phrases hapart hchildren]
  | text data => rfl
  | _ => simp [isPhrase] at hnode

theorem siftAll_phrases {nodes : List Node} (hapart : Apart nodes)
    (hnodes : arePhrases nodes = true) : siftAll Text.isAny nodes = nodes := by
  match nodes with
  | [] => rfl
  | node :: others =>
      obtain ⟨hnode, hothers⟩ := Bool.and_eq_true_iff.mp hnodes
      have hrest : siftAll Text.isAny others = others := siftAll_phrases hapart.tail hothers
      cases node with
      | text data => exact siftAll_text_cons (isPhrase_text_iff.mp hnode).1 hapart hrest
      | element tag attrs children =>
          have hsame := sift_phrase hnode
          rw [siftAll, hsame, hrest]
          simp
      | _ => simp [isPhrase] at hnode

end

/-! ### Writing -/

/-- A phrase is written without line breaks. -/
theorem signs_phrase {tag : String} (htag : tag ∈ Html.phrasing) (style : Style) (depth : Nat)
    (attrs : List Attribute) (children : List Node) :
    (element tag attrs children).signs style depth =
      .opening tag attrs :: (signsAll style (depth + 1) children ++ [.closing tag]) := by
  obtain ⟨hnestable, hinline, hdrops⟩ := tag_of_mem_phrasing htag
  obtain ⟨hvoid, hraw, -, -⟩ := tag_of_mem_nestable hnestable
  simp [signs, leadBreak, savingNewline, endBreak, closingBreak, losesNewline, hinline, hdrops, hvoid,
    hraw]

mutual

theorem writes_phrase (style : Style) (depth : Nat) {node : Node} (hnode : node.isPhrase = true) :
    (node.outline depth).Writes style (Sign.spellAll (node.signs style depth)) := by
  cases node with
  | text data =>
      rw [signs, Sign.spellAll_chars, ← Text.toList_escape]
      exact .of_literal style _
  | element tag attrs children =>
      obtain ⟨htag, -, -, hchildren⟩ := isPhrase_element_iff.mp hnode
      obtain ⟨hnestable, hinline, hdrops⟩ := tag_of_mem_phrasing htag
      obtain ⟨hvoid, hraw, -, -⟩ := tag_of_mem_nestable hnestable
      have hall := writes_element attrs hvoid hraw (writes_phrases style (depth + 1) hchildren)
      rw [signs_phrase htag]
      simpa [leadBreak, savingNewline, endBreak, closingBreak, losesNewline, hinline, hdrops,
        Sign.spell] using hall
  | _ => simp [isPhrase] at hnode

theorem writes_phrases (style : Style) (depth : Nat) {nodes : List Node} (hnodes : arePhrases nodes = true) :
    (outlineAll depth false nodes).Writes style (Sign.spellAll (signsAll style depth nodes)) := by
  match nodes with
  | [] => exact ⟨rfl, rfl⟩
  | node :: rest =>
      have hraw : rawText? false node = none := by
        cases node <;> rfl
      obtain ⟨hnode, hrest⟩ := Bool.and_eq_true_iff.mp hnodes
      rw [outlineAll, hraw, signsAll, Sign.spellAll_append]
      exact (writes_phrase style depth hnode).andThen (writes_phrases style depth hrest)

end

mutual

/-- The signs of a phrase add all its marks. -/
theorem takeAll_phrase (style : Style) (depth : Nat) {node : Node} (hnode : node.isPhrase = true)
    (top : OpenElement) (outer : List OpenElement) :
    Sign.takeAll Text.isAny (top :: outer) (node.signs style depth) =
      some (top.add (node.marks Text.isAny) :: outer) := by
  cases node with
  | text data => exact Sign.takeAll_chars top outer data.toList
  | element tag attrs children =>
      obtain ⟨htag, -, -, hchildren⟩ := isPhrase_element_iff.mp hnode
      have hinside := takeAll_phrases style (depth + 1) hchildren { tag, attrs } (top :: outer)
      rw [signs_phrase htag, Sign.takeAll_cons, Sign.take, Option.bind_some, Sign.takeAll_append,
        hinside, Option.bind_some]
      simp [Sign.takeAll_cons, Sign.take, OpenElement.add, OpenElement.addAll, marks]
  | _ => simp [isPhrase] at hnode

theorem takeAll_phrases (style : Style) (depth : Nat) {nodes : List Node} (hnodes : arePhrases nodes = true)
    (top : OpenElement) (outer : List OpenElement) :
    Sign.takeAll Text.isAny (top :: outer) (signsAll style depth nodes) =
      some (top.add (marksAll Text.isAny nodes) :: outer) := by
  match nodes with
  | [] => simp [signsAll, marksAll]
  | node :: rest =>
      obtain ⟨hnode, hrest⟩ := Bool.and_eq_true_iff.mp hnodes
      rw [signsAll, Sign.takeAll_append, takeAll_phrase style depth hnode top outer,
        Option.bind_some, takeAll_phrases style depth hrest, marksAll]
      simp

end

mutual

theorem ordinary_of_mem_signs_phrase (style : Style) (depth : Nat) {node : Node}
    (hnode : node.isPhrase = true) :
    ∀ sign ∈ node.signs style depth, sign.Ordinary ∧ sign ≠ .char '\r' := by
  cases node with
  | text data =>
      obtain ⟨-, hnull, hreturn⟩ := isPhrase_text_iff.mp hnode
      intro sign hsign
      obtain ⟨c, hc, rfl⟩ := List.mem_map.mp hsign
      refine ⟨fun heq => hnull (heq ▸ hc), fun heq => ?_⟩
      cases heq
      exact hreturn hc
  | element tag attrs children =>
      obtain ⟨htag, hattrs, -, hchildren⟩ := isPhrase_element_iff.mp hnode
      have hnestable := (tag_of_mem_phrasing htag).1
      have hinside := ordinary_of_mem_signs_phrases style (depth + 1) hchildren
      rw [signs_phrase htag, List.forall_mem_cons, List.forall_mem_append, List.forall_mem_singleton]
      exact ⟨⟨⟨hnestable, hattrs⟩, by simp⟩, hinside, hnestable, by simp⟩
  | _ => simp [isPhrase] at hnode

theorem ordinary_of_mem_signs_phrases (style : Style) (depth : Nat) {nodes : List Node}
    (hnodes : arePhrases nodes = true) :
    ∀ sign ∈ signsAll style depth nodes, sign.Ordinary ∧ sign ≠ .char '\r' := by
  match nodes with
  | [] => simp [signsAll]
  | node :: rest =>
      obtain ⟨hnode, hrest⟩ := Bool.and_eq_true_iff.mp hnodes
      rw [signsAll, List.forall_mem_append]
      exact ⟨ordinary_of_mem_signs_phrase style depth hnode,
        ordinary_of_mem_signs_phrases style depth hrest⟩

end

end Node

/-! ### Reading -/

namespace Html.Parser

variable {keep : Char → Bool} {p : Parser}

theorem isPlain_of_mem_fragmentNodes (p : Parser) :
    ∀ node ∈ Dom.listedAll p.fragmentNodes, node.isPlain = true := by
  unfold fragmentNodes
  split
  · exact Draft.isPlain_of_mem_listedAll_toDoms _
  · simp [Dom.listedAll]

/-- A text without brackets and references is read as it is, although it was not escaped. -/
theorem Stands.feed_plain {top : OpenElement} {outer : List OpenElement}
    (hstands : p.Stands Text.isAny (top :: outer)) {text : List Char}
    (htext : ∀ c ∈ text, c ≠ '<' ∧ c ≠ '&' ∧ c ≠ '\x00') :
    (p.feed text).Stands Text.isAny (top.add (text.map .char) :: outer) := by
  induction text generalizing p top with
  | nil =>
      rw [List.map_nil, OpenElement.add_nil]
      exact hstands
  | cons c rest ih =>
      obtain ⟨⟨hless, hamp, hnull⟩, hrest⟩ := List.forall_mem_cons.mp htext
      have hsign : (Sign.char c).Ordinary := hnull
      have hfirst : (p.feed [c]).Stands Text.isAny (top.add [.char c] :: outer) :=
        hstands.feed_of_tells hsign (fun _ => hstands.keepsNewline)
          (Lexer.reads_plain hless hamp hnull) rfl
      have hmore := ih hfirst hrest
      rw [OpenElement.add_add] at hmore
      exact hmore

/-- After the start tag of a preformatted element the element is open, and it still is after a
newline. -/
theorem Reaches.feed_startPre {opened : List OpenElement} (hreaches : p.Reaches keep opened)
    {attrs : List Attribute} (hattrs : Attribute.AllSimple attrs) {q : Parser}
    (hq : p.feed ((Node.startTag "pre" attrs).toList ++ ['>']) = q) :
    q.Reaches keep ({ tag := "pre", attrs } :: opened) ∧
      (q.feed ['\n']).Stands keep ({ tag := "pre", attrs } :: opened) := by
  obtain ⟨⟨inRun, hstate⟩, hoverlong, branch, outer, hgrows, rfl⟩ := hreaches
  have hword : Text.isWord "pre" = true := by decide
  have hreads := Lexer.reads_startTag hword hattrs inRun
  obtain ⟨hopen, hdrop⟩ := hgrows.take_startPre (attrs.map Lexer.entry)
  rw [feed_eq hoverlong hgrows (hstate ▸ hreads) (by simp) hopen] at hq
  obtain ⟨hstate, hassembly, hoverlong⟩ : q.state = .text .data false ∧
      q.assembly = p.assembly.take (.startTag { name := "pre", attrs := attrs.map Lexer.entry }) ∧
      q.overlong = none := by
    rw [← hq]
    exact ⟨rfl, rfl, hoverlong⟩
  rw [← hassembly] at hopen hdrop
  have hopened : (p.assembly.freshBranch "pre" (attrs.map Lexer.entry) :: branch :: outer).map
      (Branch.opened keep) = { tag := "pre", attrs } :: (branch :: outer).map (Branch.opened keep) := by
    rw [List.map_cons, Assembly.opened_freshBranch keep p.assembly "pre" hattrs]
  obtain ⟨hnewline, hkeeps⟩ := hopen.take_firstNewline rfl hdrop
  have hspace : Lexer.Reads q.state ['\n'] (.text .data false) (.space '\n') := by
    rw [hstate]
    exact .single rfl
  refine ⟨⟨⟨false, hstate⟩, hoverlong, _, _, hopen, hopened⟩, ?_⟩
  rw [feed_eq hoverlong hopen hspace (by simp) hnewline]
  exact ⟨⟨⟨false, rfl⟩, hoverlong, _, _, hnewline, hopened⟩, hkeeps⟩

/-- Signs are read after the start tag of a preformatted element, if no newline comes first. -/
theorem Reaches.feed_spellAll {opened last : List OpenElement} (hreaches : p.Reaches keep opened)
    {signs : List Sign} (hsigns : ∀ sign ∈ signs, sign.Ordinary)
    (hfirst : signs.head? ≠ some (.char '\n')) (htake : Sign.takeAll keep opened signs = some last) :
    (p.feed (Sign.spellAll signs)).Reaches keep last := by
  cases signs with
  | nil =>
      obtain rfl := Option.some.inj htake
      exact hreaches
  | cons sign rest =>
      obtain ⟨hsign, hrest⟩ := List.forall_mem_cons.mp hsigns
      obtain ⟨next, hnext, hlast⟩ :=
          Option.bind_eq_some_iff.mp (Sign.takeAll_cons keep opened sign rest ▸ htake)
      have hkeeps : sign = .char '\n' → p.assembly.KeepsNewline :=
        fun heq => absurd (congrArg some heq) hfirst
      have hstands := hreaches.feed_of_tells hsign hkeeps (Sign.exists_reads hsign.simple) hnext
      rw [Sign.spellAll_cons, feed_append]
      exact (hstands.feed_spellAll hrest hlast).toReaches

theorem Reaches.feed_endPre {attrs : List Attribute} {content : List Mark} {parent : OpenElement}
    {outer : List OpenElement}
    (hreaches : p.Reaches keep ({ tag := "pre", attrs, content } :: parent :: outer)) :
    (p.feed (Node.endTag "pre").toList).Reaches keep
      (parent.add [.element "pre" attrs content] :: outer) := by
  obtain ⟨⟨inRun, hstate⟩, hoverlong, inner, branches, hgrows, hopened⟩ := hreaches
  obtain ⟨hinner, hbranches⟩ := List.cons.inj hopened
  cases branches with
  | nil => cases hbranches
  | cons branch others =>
      obtain ⟨rfl, rfl⟩ := List.cons.inj hbranches
      obtain ⟨name, -, hkind⟩ := hgrows.names inner.label (by simp [hgrows.stack])
      have hname : name = "pre" := by
        have htag := congrArg OpenElement.tag hinner
        simpa [Branch.opened, Label.name, hkind, Kind.html] using htag
      have hclosed := hgrows.take_endPre (by rw [hkind, hname])
      have hword : Text.isWord "pre" = true := by decide
      have hreads := Lexer.reads_endTag hword inRun
      rw [feed_eq hoverlong hgrows (hstate ▸ hreads) (by simp) hclosed]
      refine ⟨⟨false, rfl⟩, hoverlong, _, _, hclosed, ?_⟩
      rw [List.map_cons, Branch.opened_add, Branch.marks_element, hinner]

end Html.Parser

namespace Node

/-- If reading would drop no newline of the content, the content does not start with one. -/
theorem head_signsAll_ne (style : Style) (depth : Nat) {children : List Node}
    (hchildren : arePhrases children = true) (hkept : losesNewline "pre" children = false) :
    (signsAll style depth children).head? ≠ some (.char '\n') := by
  cases children with
  | nil => simp [signsAll]
  | cons child rest =>
      have hchild := (Bool.and_eq_true_iff.mp hchildren).1
      cases child with
      | text data =>
          have hstart : data.toList.head? ≠ some '\n' := by
            intro hhead
            obtain ⟨more, hmore⟩ := List.head?_eq_some_iff.mp hhead
            simp [losesNewline, Tag.dropsNewline, Tag.leadingNewline, leading?, Text.startsWith,
              hmore] at hkept
          obtain ⟨c, more, hdata⟩ : ∃ c more, data.toList = c :: more :=
            List.exists_cons_of_ne_nil (by simpa using (isPhrase_text_iff.mp hchild).1)
          simpa [signsAll, signs, hdata] using hstart
      | element tag attrs below =>
          rw [signsAll, signs_phrase (isPhrase_element_iff.mp hchild).1]
          simp
      | _ => simp [isPhrase] at hchild

/-- The text of a preformatted element behind the line break in front of it. -/
def preformattedText (style : Style) (attrs : List Attribute) (children : List Node) : List Char :=
  (startTag "pre" attrs).toList ++ ['>'] ++ savingNewline "pre" children ++
    Sign.spellAll (signsAll style 1 children) ++ (endTag "pre").toList

end Node

namespace Html.Parser

/-- A preformatted element is read as one with the same marks. -/
theorem Stands.feed_preformatted {p : Parser} {top : OpenElement} {outer : List OpenElement}
    (hstands : p.Stands Text.isAny (top :: outer)) {attrs : List Attribute}
    (hattrs : Attribute.Ordinary attrs) {children : List Node} (hchildren : Node.arePhrases children = true)
    (style : Style) :
    (p.feed (Node.preformattedText style attrs children)).Reaches Text.isAny
      (top.add [.element "pre" attrs (Node.marksAll Text.isAny children)] :: outer) := by
  obtain ⟨hopen, hnewline⟩ := hstands.feed_startPre hattrs.toAllSimple rfl
  have hsigns : ∀ sign ∈ Node.signsAll style 1 children, sign.Ordinary :=
    fun sign hsign => (Node.ordinary_of_mem_signs_phrases style 1 hchildren sign hsign).1
  have htake := Node.takeAll_phrases style 1 hchildren { tag := "pre", attrs } (top :: outer)
  unfold Node.preformattedText
  rw [feed_append, feed_append, feed_append]
  apply Reaches.feed_endPre
  unfold Node.savingNewline
  -- Either the newline that is dropped is the one the writer has added, or none comes first.
  cases hloses : Node.losesNewline "pre" children with
  | true => exact (hnewline.feed_spellAll hsigns htake).toReaches
  | false => exact hopen.feed_spellAll hsigns (Node.head_signsAll_ne style 1 hchildren hloses) htake

end Html.Parser

namespace Node

theorem return_not_mem_preformattedText (style : Style) {attrs : List Attribute}
    (hattrs : Attribute.Ordinary attrs) {children : List Node} (hchildren : arePhrases children = true) :
    '\r' ∉ preformattedText style attrs children := by
  have hstart := Sign.return_not_mem_startTag (show Text.isWord "pre" = true by decide) hattrs
  have hsaving : '\r' ∉ savingNewline "pre" children := by
    unfold savingNewline
    split <;> simp
  have hcontent : '\r' ∉ Sign.spellAll (signsAll style 1 children) := by
    intro hmem
    obtain ⟨sign, hsign, hreturn⟩ := List.mem_flatMap.mp hmem
    obtain ⟨hordinary, hne⟩ := ordinary_of_mem_signs_phrases style 1 hchildren sign hsign
    exact hordinary.return_not_mem_spell hne hreturn
  simp [preformattedText, endTag, hstart, hsaving, hcontent]

/-- A preformatted element is written on a line of its own, without any line break inside. -/
theorem toText_preformatted (style : Style) {attrs : List Attribute} {children : List Node}
    (hchildren : arePhrases children = true) {calls : Nat}
    (hnesting : (element "pre" attrs children).nesting ≤ calls) :
    ((element "pre" attrs children).toText calls style).1 =
      .ok (String.ofList ('\n' :: style.margin.toList ++ preformattedText style attrs children)) := by
  have hvoid : Tag.isVoid "pre" = false := by decide
  have hraw : Tag.isRawText "pre" = false := by decide
  have hlead : leadBreak style 0 "pre" = '\n' :: style.margin.toList := by
    simp [leadBreak, Tag.isInline, Tag.inline, Style.lineBreak, Style.indentation]
  have hend : endBreak style 0 "pre" children = [] := by
    simp [endBreak, closingBreak, Tag.keepsClosing, Tag.noClosingBreak]
  have hwrites := writes_element attrs hvoid hraw (writes_phrases style 1 hchildren)
  have htext : (element "pre" attrs children).toText calls style =
      (.ok (String.ofList ('\n' :: style.margin.toList ++ preformattedText style attrs children)),
        #[]) := by
    rw [toText_eq_iff_writes hnesting, String.toList_ofList]
    simpa [hlead, hend, preformattedText] using hwrites
  rw [htext]

end Node

namespace Target

/-- A preformatted element behind plain text is read as nodes with the marks of both. -/
theorem exists_readText_preformatted (style : Style) {lead : List Char}
    (hlead : ∀ c ∈ lead, c ≠ '<' ∧ c ≠ '&' ∧ c ≠ '\x00' ∧ c ≠ '\r') {attrs : List Attribute}
    (hattrs : Attribute.Ordinary attrs) {children : List Node} (hchildren : Node.arePhrases children = true) :
    ∃ siblings,
      (fragment "div").readText (String.ofList (lead ++ Node.preformattedText style attrs children)) =
        .ok siblings ∧
      (∀ node ∈ Dom.listedAll siblings, node.isPlain = true) ∧
      Dom.marksAll Text.isAny siblings =
        Node.marksAll Text.isAny [.text (String.ofList lead), .element "pre" attrs children] := by
  have hplain : ∀ c ∈ lead, c ≠ '<' ∧ c ≠ '&' ∧ c ≠ '\x00' :=
    fun c hc => ⟨(hlead c hc).1, (hlead c hc).2.1, (hlead c hc).2.2.1⟩
  have hreturn : '\r' ∉ lead ++ Node.preformattedText style attrs children := by
    rw [List.mem_append, not_or]
    exact ⟨fun hmem => (hlead _ hmem).2.2.2 rfl,
      Node.return_not_mem_preformattedText style hattrs hchildren⟩
  have hreaches := ((Html.Parser.stands_forFragment Text.isAny).feed_plain hplain).feed_preformatted
    hattrs hchildren style
  obtain ⟨hoverlong, -, hmarks⟩ := hreaches.fragmentNodes_finish
  have hunified := Html.unifyNewlines_append hreturn []
  have hparse : (fragment "div").parse (lead ++ Node.preformattedText style attrs children) =
      (((Html.Parser.forFragment "div").feed lead).feed
        (Node.preformattedText style attrs children)).finish := by
    rw [List.append_nil, Html.unifyNewlines, List.append_nil] at hunified
    rw [parse, hunified]
    rw [Html.Parser.feed_append]
    rfl
  refine ⟨_, ?_, Html.Parser.isPlain_of_mem_fragmentNodes _, hmarks.trans ?_⟩
  · rw [readText, String.toList_ofList, hparse, answer, hoverlong]
    rfl
  · have hall : lead.filter Text.isAny = lead := List.filter_eq_self.mpr fun _ _ => rfl
    simp [OpenElement.add, Node.marksAll, Node.marks, Mark.ofText, hall]

end Target

namespace Node

/-- A preformatted element that is written in any style and read again comes back as it was, behind
a text that is the line break in front of it. -/
theorem parse_toText_preformatted {style : Style}
    (hmargin : ∀ c ∈ style.margin.toList, c ≠ '<' ∧ c ≠ '&' ∧ c ≠ '\x00' ∧ c ≠ '\r') {tree : Node}
    (htree : tree.isPreformatted = true) {calls : Nat} (hnesting : tree.nesting ≤ calls) :
    ∃ written, (tree.toText calls style).1 = .ok written ∧
      ∀ (sourceName : Option String) (channel : Channel),
        (((Source.text written).parse calls (.fragment "div") sourceName).run.run channel).1 =
          .ok [text ("\n" ++ style.margin), tree] := by
  cases tree with
  | element tag attrs children =>
      obtain ⟨rfl, hattrs, hapart, hchildren⟩ := isPreformatted_element_iff.mp htree
      have hlead : ∀ c ∈ '\n' :: style.margin.toList, c ≠ '<' ∧ c ≠ '&' ∧ c ≠ '\x00' ∧ c ≠ '\r' :=
        List.forall_mem_cons.mpr ⟨by decide, hmargin⟩
      obtain ⟨siblings, hread, hplain, hmarks⟩ :=
        Target.exists_readText_preformatted style hlead hattrs hchildren
      have hbreak : String.ofList ('\n' :: style.margin.toList) = "\n" ++ style.margin := by simp
      have hpre : siftAll Text.isAny [element "pre" attrs children] =
          [element "pre" attrs children] := by
        simp [siftAll, sift, siftAll_phrases hapart hchildren]
      have hnodes : siftAll Text.isAny [text ("\n" ++ style.margin), element "pre" attrs children] =
          [text ("\n" ++ style.margin), element "pre" attrs children] :=
        siftAll_text_cons (by simp) (by simp [Apart, isText]) hpre
      have hdepth :
          nestingAll [text ("\n" ++ style.margin), element "pre" attrs children] ≤ calls := by
        calc nestingAll [text ("\n" ++ style.margin), element "pre" attrs children]
            = (element "pre" attrs children).nesting := by simp [nestingAll, nesting]
          _ ≤ calls := hnesting
      refine ⟨_, toText_preformatted style hchildren hnesting, fun sourceName channel => ?_⟩
      rw [Source.parse, Target.read, hread]
      exact Dom.run_adapt_of_marks hplain (hbreak ▸ hmarks) hnodes hdepth _ sourceName channel
  | _ => simp [isPreformatted] at htree

/-- Newlines at the start, at the end and in between, a phrase in a phrase, and a margin with quotes
and brackets. -/
theorem parse_toText_preformatted_newlines :
    let tree := element "pre" [⟨"title", "a \"b\"\n", ""⟩]
      [text "\n\n  <i>\t", element "span" [] [text "\n", element "kbd" [⟨"id", "&", ""⟩] []],
        text " \n"]
    let style : Style := { margin := "\">  ", indent := "<\r" }
    ∃ written, (tree.toText defaultCalls style).1 = .ok written ∧
      ∀ (sourceName : Option String) (channel : Channel),
        (((Source.text written).parse defaultCalls (.fragment "div") sourceName).run.run channel).1 =
          .ok [text "\n\">  ", tree] := by
  intro tree style
  have hmargin : ∀ c ∈ style.margin.toList, c ≠ '<' ∧ c ≠ '&' ∧ c ≠ '\x00' ∧ c ≠ '\r' := by
    simp [style]
  have htree : tree.isPreformatted = true := by decide
  have hnesting : tree.nesting ≤ defaultCalls := by decide
  exact parse_toText_preformatted hmargin htree hnesting

end Node

end HtmlLayout
