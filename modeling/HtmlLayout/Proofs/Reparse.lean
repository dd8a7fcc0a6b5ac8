import HtmlLayout.Proofs.Growth
import HtmlLayout.Proofs.Lexing
import HtmlLayout.Source

/-!
# Reading a written tree back

Between the text and the tree that is read from it stand the signs. A row of signs opens and closes
elements and adds marks to the innermost one; this takes no notice of whitespace. The signs of a
written tree add the marks of that tree, whatever line breaks are among them, and a parser that
reads the signs builds a tree with the marks they add. So the tree that is read has the shape of the
tree that was written.
-/

namespace HtmlLayout

/-- An element that signs have opened, with the marks of its content so far. -/
structure OpenElement where
  tag : String
  attrs : List Attribute
  content : List Mark := []

namespace OpenElement

def add (opened : OpenElement) (marks : List Mark) : OpenElement :=
  { opened with content := opened.content ++ marks }

@[simp] theorem add_nil (opened : OpenElement) : opened.add [] = opened := by simp [add]

@[simp] theorem add_add (opened : OpenElement) (first rest : List Mark) :
    (opened.add first).add rest = opened.add (first ++ rest) := by
  simp [add]

def addAll (marks : List Mark) : List OpenElement → Option (List OpenElement)
  | [] => none
  | top :: outer => some (top.add marks :: outer)

end OpenElement

namespace Sign

/-- What a sign does to the open elements, the innermost first. Characters that are not kept do
nothing, and an end tag has to be that of the innermost element. -/
def take (keep : Char → Bool) (opened : List OpenElement) : Sign → Option (List OpenElement)
  | char c => if keep c then OpenElement.addAll [.char c] opened else some opened
  | comment data => OpenElement.addAll [.leaf (.comment data)] opened
  | empty tag attrs => OpenElement.addAll [.element tag attrs []] opened
  | opening tag attrs => some ({ tag, attrs } :: opened)
  | closing tag =>
      match opened with
      | [] => none
      | top :: outer =>
          if top.tag = tag then OpenElement.addAll [.element top.tag top.attrs top.content] outer
          else none
  | raw _ _ _ => none

def takeAll (keep : Char → Bool) (opened : List OpenElement) (signs : List Sign) :
    Option (List OpenElement) :=
  signs.foldlM (take keep) opened

@[simp] theorem takeAll_nil (keep : Char → Bool) (opened : List OpenElement) :
    takeAll keep opened [] = some opened := rfl

theorem takeAll_cons (keep : Char → Bool) (opened : List OpenElement) (sign : Sign) (rest : List Sign) :
    takeAll keep opened (sign :: rest) =
      (take keep opened sign).bind fun next => takeAll keep next rest := rfl

theorem takeAll_append (keep : Char → Bool) (opened : List OpenElement) (first rest : List Sign) :
    takeAll keep opened (first ++ rest) =
      (takeAll keep opened first).bind fun next => takeAll keep next rest :=
  List.foldlM_append

variable {keep : Char → Bool}

theorem takeAll_chars (top : OpenElement) (outer : List OpenElement) (chars : List Char) :
    takeAll keep (top :: outer) (chars.map char) =
      some (top.add ((chars.filter keep).map .char) :: outer) := by
  induction chars generalizing top with
  | nil => simp
  | cons c rest ih =>
      rw [List.map_cons, takeAll_cons, take]
      cases hc : keep c <;> simp [hc, OpenElement.addAll, ih]

theorem takeAll_dropped (top : OpenElement) (outer : List OpenElement) {chars : List Char}
    (hchars : ∀ c ∈ chars, keep c = false) :
    takeAll keep (top :: outer) (chars.map char) = some (top :: outer) := by
  have hnone : chars.filter keep = [] := by simpa using hchars
  simp [takeAll_chars, hnone]

end Sign

/-! ### Trees that are read as they are written -/

structure Attribute.Ordinary (attrs : List Attribute) : Prop extends Attribute.AllSimple attrs where
  noReturn : ∀ attr ∈ attrs, '\r' ∉ attr.value.toList

instance (attrs : List Attribute) : Decidable (Attribute.Ordinary attrs) :=
  decidable_of_iff (Attribute.AllSimple attrs ∧ ∀ attr ∈ attrs, '\r' ∉ attr.value.toList)
    ⟨fun ⟨hsimple, hreturn⟩ => ⟨hsimple, hreturn⟩,
      fun ⟨hsimple, hreturn⟩ => ⟨hsimple, hreturn⟩⟩

namespace Node

mutual

/-- Trees of elements that nest freely, of elements that hold nothing, of texts and of comments,
without what is changed in reading: there is no null in them, comments hold neither dashes nor
closing brackets, attributes have words for keys, and carriage returns are in texts only. -/
def isOrdinary : Node → Bool
  | text data => '\x00' ∉ data.toList
  | comment data => Html.Lexer.isSimpleComment data && '\r' ∉ data.toList
  | element tag attrs children =>
      Attribute.Ordinary attrs &&
        (tag ∈ Html.nestable && areOrdinary children || tag ∈ Html.childless && children.isEmpty)
  | _ => false

def areOrdinary : List Node → Bool
  | [] => true
  | node :: rest => isOrdinary node && areOrdinary rest

end

theorem isOrdinary_comment_iff {data : String} : (comment data).isOrdinary = true ↔
    Html.Lexer.isSimpleComment data = true ∧ '\r' ∉ data.toList := by
  simp [isOrdinary]

theorem isOrdinary_element_iff {tag : String} {attrs : List Attribute} {children : List Node} :
    (element tag attrs children).isOrdinary = true ↔
      Attribute.Ordinary attrs ∧ (tag ∈ Html.nestable ∧ areOrdinary children = true ∨
        tag ∈ Html.childless ∧ children = []) := by
  simp [isOrdinary]

theorem tag_of_mem_nestable {tag : String} (htag : tag ∈ Html.nestable) :
    Tag.isVoid tag = false ∧ Tag.isRawText tag = false ∧ tag ≠ Tag.plaintext ∧
      Text.isWord tag = true := by
  have hall : ∀ tag ∈ Html.nestable,
      Tag.isVoid tag = false ∧ Tag.isRawText tag = false ∧ tag ≠ Tag.plaintext ∧
        Text.isWord tag = true := by decide
  exact hall tag htag

theorem tag_of_mem_childless {tag : String} (htag : tag ∈ Html.childless) :
    Tag.isVoid tag = true ∧ Tag.isRawText tag = false ∧ tag ≠ Tag.plaintext ∧
      Text.isWord tag = true := by
  have hall : ∀ tag ∈ Html.childless,
      Tag.isVoid tag = true ∧ Tag.isRawText tag = false ∧ tag ≠ Tag.plaintext ∧
        Text.isWord tag = true := by decide
  exact hall tag htag

mutual

theorem regular_of_isOrdinary {node : Node} (hnode : node.isOrdinary = true) : node.Regular := by
  cases node with
  | text data => trivial
  | comment data => trivial
  | element tag attrs children =>
      rcases (isOrdinary_element_iff.mp hnode).2 with ⟨htag, hchildren⟩ | ⟨htag, rfl⟩
      · obtain ⟨hvoid, hraw, hplaintext, -⟩ := tag_of_mem_nestable htag
        simpa [Regular, hplaintext, hvoid, hraw] using regularAll_of_areOrdinary hchildren
      · obtain ⟨-, -, hplaintext, -⟩ := tag_of_mem_childless htag
        simp [Regular, hplaintext, RegularAll]
  | _ => simp [isOrdinary] at hnode

theorem regularAll_of_areOrdinary {nodes : List Node} (hnodes : areOrdinary nodes = true) :
    RegularAll nodes := by
  match nodes with
  | [] => trivial
  | node :: rest =>
      obtain ⟨hnode, hrest⟩ := Bool.and_eq_true_iff.mp hnodes
      exact ⟨regular_of_isOrdinary hnode, regularAll_of_areOrdinary hrest⟩

end

variable {keep : Char → Bool} {style : Style}

mutual

/-- The signs of a written tree add its marks. -/
theorem takeAll_signs (hstyle : style.Blank) (hkeep : ∀ c, Text.isSpace c = true → keep c = false)
    (depth : Nat) {node : Node} (hnode : node.isOrdinary = true) (top : OpenElement)
    (outer : List OpenElement) :
    Sign.takeAll keep (top :: outer) (node.signs style depth) =
      some (top.add (node.marks keep) :: outer) := by
  cases node with
  | text data => exact Sign.takeAll_chars top outer data.toList
  | comment data => rfl
  | element tag attrs children =>
      have hlead : ∀ c ∈ leadBreak style depth tag, keep c = false :=
        fun c hc => hkeep c (isSpace_of_mem_leadBreak hstyle depth tag c hc)
      rw [signs, Sign.takeAll_append, Sign.takeAll_dropped _ _ hlead, Option.bind_some]
      rcases (isOrdinary_element_iff.mp hnode).2 with ⟨htag, hchildren⟩ | ⟨htag, rfl⟩
      · obtain ⟨hvoid, hraw, -, -⟩ := tag_of_mem_nestable htag
        have hsaving : ∀ c ∈ savingNewline tag children, keep c = false :=
          fun c hc => hkeep c (isSpace_of_mem_savingNewline tag children c hc)
        have hend : ∀ c ∈ endBreak style depth tag children, keep c = false :=
          fun c hc => hkeep c (isSpace_of_mem_endBreak hstyle depth tag children c hc)
        have hinside :=
            takeAll_signsAll hstyle hkeep (depth + 1) hchildren { tag, attrs } (top :: outer)
        rw [hvoid, hraw, if_neg Bool.false_ne_true, if_neg Bool.false_ne_true, Sign.takeAll_cons,
            Sign.take, Option.bind_some, Sign.takeAll_append, Sign.takeAll_dropped _ _ hsaving,
            Option.bind_some, Sign.takeAll_append, hinside, Option.bind_some, Sign.takeAll_append,
            Sign.takeAll_dropped _ _ hend, Option.bind_some]
        simp [Sign.takeAll_cons, Sign.take, OpenElement.add, OpenElement.addAll, marks]
      · obtain ⟨hvoid, -, -, -⟩ := tag_of_mem_childless htag
        rw [hvoid, if_pos rfl]
        rfl
  | _ => simp [isOrdinary] at hnode

theorem takeAll_signsAll (hstyle : style.Blank)
    (hkeep : ∀ c, Text.isSpace c = true → keep c = false) (depth : Nat) {nodes : List Node}
    (hnodes : areOrdinary nodes = true) (top : OpenElement) (outer : List OpenElement) :
    Sign.takeAll keep (top :: outer) (signsAll style depth nodes) =
      some (top.add (marksAll keep nodes) :: outer) := by
  match nodes with
  | [] => simp [signsAll, marksAll]
  | node :: rest =>
      obtain ⟨hnode, hrest⟩ := Bool.and_eq_true_iff.mp hnodes
      rw [signsAll, Sign.takeAll_append, takeAll_signs hstyle hkeep depth hnode top outer,
          Option.bind_some, takeAll_signsAll hstyle hkeep depth hrest, marksAll]
      simp

end

end Node

/-! ### Line ends -/

namespace Html

theorem unifyNewlines_cons {c : Char} (hc : c ≠ '\r') (rest : List Char) :
    unifyNewlines (c :: rest) = c :: unifyNewlines rest := by
  rw [unifyNewlines]
  · simp [hc]
  · simp [hc]

theorem unifyNewlines_return {rest : List Char} (hrest : rest.head? ≠ some '\n') :
    unifyNewlines ('\r' :: rest) = '\n' :: unifyNewlines rest := by
  rw [unifyNewlines]
  rintro more rfl
  exact hrest rfl

theorem unifyNewlines_append {text : List Char} (htext : '\r' ∉ text) (rest : List Char) :
    unifyNewlines (text ++ rest) = text ++ unifyNewlines rest := by
  induction text with
  | nil => rfl
  | cons c more ih =>
      obtain ⟨hc, hmore⟩ : c ≠ '\r' ∧ '\r' ∉ more := by simpa [eq_comm] using htext
      rw [List.cons_append, unifyNewlines_cons hc, ih hmore, List.cons_append]

end Html

namespace Sign

def unifyNewlines : List Sign → List Sign
  | [] => []
  | char '\r' :: char '\n' :: rest => char '\n' :: unifyNewlines rest
  | char '\r' :: rest => char '\n' :: unifyNewlines rest
  | sign :: rest => sign :: unifyNewlines rest

theorem eq_newline_of_head_spell {sign : Sign} (hsign : sign.spell.head? = some '\n') :
    sign = char '\n' := by
  cases sign with
  | char c =>
      unfold spell Text.escapeChar at hsign
      repeat' split at hsign
      all_goals simp_all
  | opening tag attrs => simp [spell, Node.toList_startTag] at hsign
  | empty tag attrs => simp [spell, Node.toList_startTag] at hsign
  | closing tag => simp [spell, Node.endTag] at hsign
  | comment data => simp [spell, Node.commentMarkup] at hsign
  | raw tag attrs body => simp [spell, Node.toList_startTag] at hsign

/-- Line ends can be made newlines before or after signs are written, if carriage returns are single
signs. -/
theorem unifyNewlines_spellAll {signs : List Sign}
    (hsigns : ∀ sign ∈ signs, sign ≠ char '\r' → '\r' ∉ sign.spell) :
    Html.unifyNewlines (spellAll signs) = spellAll (unifyNewlines signs) := by
  fun_induction unifyNewlines signs with
  | case1 => rfl
  | case2 rest ih =>
      obtain ⟨-, hrest⟩ := List.forall_mem_cons.mp (List.forall_mem_cons.mp hsigns).2
      exact congrArg ('\n' :: ·) (ih hrest)
  | case3 rest hpair ih =>
      obtain ⟨-, hrest⟩ := List.forall_mem_cons.mp hsigns
      have hhead : (spellAll rest).head? ≠ some '\n' := by
        cases rest with
        | nil => simp
        | cons sign more =>
            rw [spellAll_cons, List.head?_append_of_ne_nil _ (spell_ne_nil sign)]
            exact fun hnewline => hpair more (by rw [eq_newline_of_head_spell hnewline])
      exact (Html.unifyNewlines_return hhead).trans (congrArg ('\n' :: ·) (ih hrest))
  | case4 sign rest hpair hsingle ih =>
      obtain ⟨hsign, hrest⟩ := List.forall_mem_cons.mp hsigns
      rw [spellAll_cons, spellAll_cons, Html.unifyNewlines_append (hsign hsingle), ih hrest]

theorem mem_of_mem_unifyNewlines {sign : Sign} {signs : List Sign}
    (hsign : sign ∈ unifyNewlines signs) :
    sign = char '\n' ∨ sign ∈ signs := by
  fun_induction unifyNewlines signs with grind

/-- To make line ends newlines adds no marks where these are not kept. -/
theorem takeAll_unifyNewlines {keep : Char → Bool} (hreturn : keep '\r' = false)
    (hnewline : keep '\n' = false) (opened : List OpenElement) (signs : List Sign) :
    takeAll keep opened (unifyNewlines signs) = takeAll keep opened signs := by
  fun_induction unifyNewlines signs generalizing opened with
  | case1 => rfl
  | case2 rest ih => simp [takeAll_cons, take, hreturn, hnewline, ih]
  | case3 rest hpair ih => simp [takeAll_cons, take, hreturn, hnewline, ih]
  | case4 sign rest hpair hsingle ih => simp [takeAll_cons, ih]

/-- A sign of a tree that is read as it is written. -/
def Ordinary : Sign → Prop
  | char c => c ≠ '\x00'
  | opening tag attrs => tag ∈ Html.nestable ∧ Attribute.Ordinary attrs
  | empty tag attrs => tag ∈ Html.childless ∧ Attribute.Ordinary attrs
  | closing tag => tag ∈ Html.nestable
  | comment data => Html.Lexer.isSimpleComment data = true ∧ '\r' ∉ data.toList
  | raw _ _ _ => False

theorem Ordinary.simple {sign : Sign} (hsign : sign.Ordinary) : sign.Simple := by
  cases sign with
  | char c => exact hsign
  | opening tag attrs => exact ⟨(Node.tag_of_mem_nestable hsign.1).2.2.2, hsign.2.toAllSimple⟩
  | empty tag attrs => exact ⟨(Node.tag_of_mem_childless hsign.1).2.2.2, hsign.2.toAllSimple⟩
  | closing tag => exact (Node.tag_of_mem_nestable hsign).2.2.2
  | comment data => exact hsign.1
  | raw tag attrs body => exact hsign.elim

theorem return_not_mem_escapeChar {c : Char} (hc : c ≠ '\r') : '\r' ∉ Text.escapeChar c := by
  unfold Text.escapeChar
  repeat' split
  all_goals simp_all [eq_comm]

theorem return_not_mem_startTag {tag : String} (htag : Text.isWord tag = true) {attrs : List Attribute}
    (hattrs : Attribute.Ordinary attrs) : '\r' ∉ (Node.startTag tag attrs).toList := by
  have hmarkup : ∀ attr ∈ attrs, '\r' ∉ attr.markup.toList := by
    intro attr hattr
    have hsimple := hattrs.each attr hattr
    have hvalue : '\r' ∉ attr.value.toList.flatMap Text.escapeChar := by
      intro hmem
      obtain ⟨c, hc, hreturn⟩ := List.mem_flatMap.mp hmem
      exact return_not_mem_escapeChar (fun heq => hattrs.noReturn attr hattr (heq ▸ hc)) hreturn
    have hname := Text.not_mem_of_isWord hsimple.key (c := '\r') rfl
    simp [Attribute.toList_markup, Attribute.name, hsimple.qualifier, hname, hvalue]
  simpa [Node.toList_startTag, Text.not_mem_of_isWord htag (c := '\r') rfl] using hmarkup

theorem Ordinary.return_not_mem_spell {sign : Sign} (hsign : sign.Ordinary)
    (hreturn : sign ≠ char '\r') : '\r' ∉ sign.spell := by
  have hsimple := hsign.simple
  cases sign with
  | char c => exact return_not_mem_escapeChar fun heq => hreturn (by rw [heq])
  | opening tag attrs => simpa [spell] using return_not_mem_startTag hsimple.1 hsign.2
  | empty tag attrs => simpa [spell] using return_not_mem_startTag hsimple.1 hsign.2
  | closing tag => simpa [spell, Node.endTag] using Text.not_mem_of_isWord hsimple (c := '\r') rfl
  | comment data => simpa [spell, Node.commentMarkup] using hsign.2
  | raw tag attrs body => exact hsign.elim

end Sign

namespace Node

mutual

theorem ordinary_of_mem_signs {style : Style} (hstyle : style.Blank) (depth : Nat)
    {node : Node} (hnode : node.isOrdinary = true) :
    ∀ sign ∈ node.signs style depth, sign.Ordinary := by
  have hchars : ∀ {chars : List Char}, '\x00' ∉ chars →
      ∀ sign ∈ chars.map Sign.char, sign.Ordinary := by
    intro chars hnull sign hsign
    obtain ⟨c, hc, rfl⟩ := List.mem_map.mp hsign
    exact fun heq => hnull (heq ▸ hc)
  have hblank : ∀ {chars : List Char}, (∀ c ∈ chars, Text.isSpace c = true) →
      ∀ sign ∈ chars.map Sign.char, sign.Ordinary :=
    fun hspace => hchars fun hnull => absurd (hspace _ hnull) (by decide)
  cases node with
  | text data => exact hchars (of_decide_eq_true hnode)
  | comment data => exact List.forall_mem_singleton.mpr (isOrdinary_comment_iff.mp hnode)
  | element tag attrs children =>
      obtain ⟨hattrs, hcontent⟩ := isOrdinary_element_iff.mp hnode
      rw [signs]
      refine List.forall_mem_append.mpr ⟨hblank (isSpace_of_mem_leadBreak hstyle depth tag), ?_⟩
      rcases hcontent with ⟨htag, hchildren⟩ | ⟨htag, rfl⟩
      · obtain ⟨hvoid, hraw, -, -⟩ := tag_of_mem_nestable htag
        have hinner := ordinary_of_mem_signsAll hstyle (depth + 1) hchildren
        have hclosing : ∀ sign ∈ [Sign.closing tag], sign.Ordinary := List.forall_mem_singleton.mpr htag
        have hend := hblank (isSpace_of_mem_endBreak hstyle depth tag children)
        have hsaving := hblank (isSpace_of_mem_savingNewline tag children)
        rw [hvoid, hraw, if_neg Bool.false_ne_true, if_neg Bool.false_ne_true, List.forall_mem_cons]
        refine ⟨⟨htag, hattrs⟩, List.forall_mem_append.mpr ⟨hsaving, ?_⟩⟩
        exact List.forall_mem_append.mpr ⟨hinner, List.forall_mem_append.mpr ⟨hend, hclosing⟩⟩
      · rw [(tag_of_mem_childless htag).1, if_pos rfl]
        exact List.forall_mem_singleton.mpr ⟨htag, hattrs⟩
  | _ => simp [isOrdinary] at hnode

theorem ordinary_of_mem_signsAll {style : Style} (hstyle : style.Blank) (depth : Nat)
    {nodes : List Node} (hnodes : areOrdinary nodes = true) :
    ∀ sign ∈ signsAll style depth nodes, sign.Ordinary := by
  match nodes with
  | [] => simp [signsAll]
  | node :: rest =>
      obtain ⟨hnode, hrest⟩ := Bool.and_eq_true_iff.mp hnodes
      exact List.forall_mem_append.mpr
        ⟨ordinary_of_mem_signs hstyle depth hnode, ordinary_of_mem_signsAll hstyle depth hrest⟩

end

end Node

/-! ### Reading signs -/

namespace Html

def Branch.opened (keep : Char → Bool) (branch : Branch) : OpenElement :=
  { tag := branch.label.name
    attrs := branch.label.attrs.map Dom.Attr.toAttribute
    content := Draft.marksAll keep branch.done }

theorem Branch.opened_add (keep : Char → Bool) (branch : Branch) (node : Draft) :
    (branch.add node).opened keep = (branch.opened keep).add (node.toDom.marks keep) := by
  simp [Branch.opened, Branch.add, OpenElement.add, Draft.marksAll_cons]

theorem Branch.marks_element (keep : Char → Bool) (branch : Branch) :
    branch.element.toDom.marks keep =
      [.element (branch.opened keep).tag (branch.opened keep).attrs (branch.opened keep).content] := by
  simp [Branch.element, Draft.toDom, Dom.marks, Branch.opened, Draft.marksAll]

theorem Assembly.opened_freshBranch (keep : Char → Bool) (a : Assembly) (name : String)
    {attrs : List Attribute} (hattrs : Attribute.AllSimple attrs) :
    (a.freshBranch name (attrs.map Lexer.entry)).opened keep = { tag := name, attrs } := by
  have hcolon : ∀ entry ∈ attrs.map Lexer.entry, ':' ∉ entry.1.toList := by
    intro entry hentry
    obtain ⟨attr, hattr, rfl⟩ := List.mem_map.mp hentry
    exact Text.not_mem_of_isWord (hattrs.each attr hattr).key rfl
  have hdistinct : ((attrs.map Lexer.entry).map Prod.fst).Nodup := by
    rw [List.map_map]
    exact hattrs.distinct
  have hsame : ∀ attr ∈ attrs, (Dom.Attr.plain attr.key attr.value).toAttribute = attr := by
    intro attr hattr
    have hqualifier := (hattrs.each attr hattr).qualifier
    cases attr
    simp_all [Dom.Attr.plain, Dom.Attr.toAttribute]
  have hplain : (plainAttrs (attrs.map Lexer.entry)).map Dom.Attr.toAttribute = attrs := by
    rw [plainAttrs_eq hcolon hdistinct, List.map_map, List.map_map]
    exact (List.map_congr_left hsame).trans (List.map_id attrs)
  simp [freshBranch, Branch.opened, freshLabel, Label.name, Kind.html, hplain, Draft.marksAll,
      Draft.toDoms, Dom.marksAll]

namespace Parser

/-- A parser between two signs, with the elements that the signs before have opened. -/
structure Reaches (keep : Char → Bool) (p : Parser) (opened : List OpenElement) : Prop where
  state : ∃ inRun, p.state = .text .data inRun
  overlong : p.overlong = none
  assembly :
    ∃ branch outer, p.assembly.Grows (branch :: outer) ∧
      (branch :: outer).map (Branch.opened keep) = opened

/-- A parser between two signs that reads every sign that may come next. -/
structure Stands (keep : Char → Bool) (p : Parser) (opened : List OpenElement) : Prop
    extends Reaches keep p opened where
  keepsNewline : p.assembly.KeepsNewline

theorem take_eq {p : Parser} (hoverlong : p.overlong = none) {token : Token}
    (htoken : ∀ digits, token ≠ .overlong digits)
    (hcontent : (p.assembly.take token).content = none) :
    p.take token = { p with assembly := p.assembly.take token } := by
  cases token with
  | overlong digits => exact absurd rfl (htoken digits)
  | _ => simp [take, hoverlong, hcontent]

/-- A token is taken with the last character of its text. -/
theorem feed_eq {p : Parser} (hoverlong : p.overlong = none) {branch : Branch}
    {outer branches : List Branch} (hgrows : p.assembly.Grows (branch :: outer))
    {text : List Char} {running : Bool} {token : Token}
    (hreads : Lexer.Reads p.state text (.text .data running) token)
    (htoken : ∀ digits, token ≠ .overlong digits) (hgrown : (p.assembly.take token).Grows branches) :
    p.feed text = { p with state := .text .data running, assembly := p.assembly.take token } := by
  rw [feed_of_reads hoverlong hgrows.inForeign_eq_false hreads,
    @take_eq { p with state := .text .data running } hoverlong token htoken hgrown.content]

variable {keep : Char → Bool}

theorem Branch.isEmptyPre_add (branch : Branch) (node : Draft) :
    (branch.add node).isEmptyPre = false := by
  simp [Branch.isEmptyPre, Branch.add]

/-- A token of a sign does to the assembly what the sign does to the open elements. -/
theorem grows_of_tells {a : Assembly} {branch : Branch} {outer : List Branch}
    (hgrows : a.Grows (branch :: outer)) {sign : Sign}
    (hkeeps : sign = .char '\n' → a.KeepsNewline)
    (hsign : sign.Ordinary) {token : Token} (htells : sign.Tells token) {next : List OpenElement}
    (htake : sign.take keep ((branch :: outer).map (Branch.opened keep)) = some next) :
    ∃ top others, (a.take token).Grows (top :: others) ∧ top.isEmptyPre = false ∧
      (top :: others).map (Branch.opened keep) = next := by
  cases sign with
  | char c =>
      have hadded : (a.take token).Grows (branch.add (.text (String.singleton c)) :: outer) := by
        rcases htells with rfl | rfl
        · exact hgrows.take_char hsign
        · exact hgrows.take_space fun hc => hkeeps (congrArg Sign.char hc)
      refine ⟨_, _, hadded, Branch.isEmptyPre_add .., ?_⟩
      rw [List.map_cons, Branch.opened_add]
      cases hc : keep c <;>
        simpa [Sign.take, hc, OpenElement.addAll, Draft.toDom, Dom.marks, Dom.leafNode, Node.marks,
            Mark.ofText] using htake
  | comment data =>
      obtain rfl := htells
      refine ⟨_, _, hgrows.take_comment data, Branch.isEmptyPre_add .., ?_⟩
      rw [List.map_cons, Branch.opened_add]
      simpa [Sign.take, OpenElement.addAll, Draft.toDom, Dom.marks, Dom.leafNode,
          Node.marks] using htake
  | empty tag attrs =>
      obtain rfl := htells
      refine ⟨_, _, hgrows.take_emptyTag hsign.1 _ true, Branch.isEmptyPre_add .., ?_⟩
      rw [List.map_cons, Branch.opened_add, Branch.marks_element,
          Assembly.opened_freshBranch keep a tag hsign.2.toAllSimple]
      simpa [Sign.take, OpenElement.addAll] using htake
  | opening tag attrs =>
      obtain rfl := htells
      have hfresh : (a.freshBranch tag (attrs.map Lexer.entry)).isEmptyPre = false := by
        have hpre : ∀ name ∈ nestable, (name == "pre") = false := by decide
        simp [Branch.isEmptyPre, Assembly.freshBranch, Assembly.freshLabel, Label.name, Kind.html,
          hpre tag hsign.1]
      refine ⟨_, _, hgrows.take_startTag hsign.1 _, hfresh, ?_⟩
      rw [List.map_cons, Assembly.opened_freshBranch keep a tag hsign.2.toAllSimple]
      simpa [Sign.take] using htake
  | closing tag =>
      obtain rfl := htells
      cases outer with
      | nil => simp [Sign.take, OpenElement.addAll] at htake
      | cons parent outer =>
          obtain ⟨htag, hnext⟩ := Option.ite_none_right_eq_some.mp htake
          obtain ⟨name, -, hkind⟩ := hgrows.names branch.label (by simp [hgrows.stack])
          have hname : name = tag := by
            rw [← htag]
            simp [Branch.opened, Label.name, hkind, Kind.html]
          refine ⟨_, _, hgrows.take_endTag hsign (by rw [hkind, hname]), Branch.isEmptyPre_add .., ?_⟩
          rw [List.map_cons, Branch.opened_add, Branch.marks_element]
          exact Option.some.inj hnext
  | raw tag attrs body => exact hsign.elim

/-- A parser reads a text that tells a sign. -/
theorem Reaches.feed_of_tells {p : Parser} {opened next : List OpenElement}
    (hreaches : p.Reaches keep opened) {sign : Sign} (hsign : sign.Ordinary)
    (hkeeps : sign = .char '\n' → p.assembly.KeepsNewline) {text : List Char}
    (htext : ∀ inRun, ∃ running token,
      Lexer.Reads (.text .data inRun) text (.text .data running) token ∧ sign.Tells token)
    (htake : sign.take keep opened = some next) : (p.feed text).Stands keep next := by
  obtain ⟨⟨inRun, hstate⟩, hoverlong, branch, outer, hgrows, rfl⟩ := hreaches
  obtain ⟨running, token, hreads, htells⟩ := htext inRun
  obtain ⟨top, others, hgrown, htop, rfl⟩ := grows_of_tells hgrows hkeeps hsign htells htake
  have htoken : ∀ digits, token ≠ .overlong digits := by
    rintro digits rfl
    cases sign <;> simp [Sign.Tells] at htells
  rw [feed_eq hoverlong hgrows (hstate ▸ hreads) htoken hgrown]
  exact ⟨⟨⟨running, rfl⟩, hoverlong, top, others, hgrown, rfl⟩, hgrown.keepsNewline htop⟩

theorem Stands.feed_spell {p : Parser} {opened next : List OpenElement}
    (hstands : p.Stands keep opened) {sign : Sign}
    (hsign : sign.Ordinary) (htake : sign.take keep opened = some next) :
    (p.feed sign.spell).Stands keep next :=
  hstands.feed_of_tells hsign (fun _ => hstands.keepsNewline) (Sign.exists_reads hsign.simple) htake

/-- A parser reads written signs. -/
theorem Stands.feed_spellAll {p : Parser} {opened last : List OpenElement}
    (hstands : p.Stands keep opened) {signs : List Sign}
    (hsigns : ∀ sign ∈ signs, sign.Ordinary) (htake : Sign.takeAll keep opened signs = some last) :
    (p.feed (Sign.spellAll signs)).Stands keep last := by
  induction signs generalizing p opened with
  | nil =>
      obtain rfl := Option.some.inj htake
      exact hstands
  | cons sign rest ih =>
      obtain ⟨hsign, hrest⟩ := List.forall_mem_cons.mp hsigns
      obtain ⟨next, hnext, hlast⟩ :=
          Option.bind_eq_some_iff.mp (Sign.takeAll_cons keep opened sign rest ▸ htake)
      rw [Sign.spellAll_cons, feed_append]
      exact ih (hstands.feed_spell hsign hnext) hrest hlast

theorem stands_forFragment (keep : Char → Bool) :
    (forFragment "div").Stands keep [{ tag := "html", attrs := [] }] where
  state := ⟨false, rfl⟩
  overlong := rfl
  assembly := by
    refine ⟨{ label := { id := 0, kind := .html "html" }, done := [] }, [], ?_, rfl⟩
    have hstack : (forFragment "div").assembly.stack = [{ id := 0, kind := .html "html" }] := rfl
    refine { nodes := rfl, stack := rfl, distinct := ?_, fresh := ?_, names := ?_, mode := rfl,
             formatting := rfl, fostering := rfl, content := rfl }
    · rw [hstack]
      simp
    · rw [hstack]
      exact List.forall_mem_singleton.mpr Nat.zero_lt_one
    · rw [hstack]
      exact List.forall_mem_singleton.mpr ⟨"html", List.mem_cons_self, rfl⟩
  keepsNewline := rfl

/-- What a parser has read when all elements but the outermost are closed. -/
theorem Reaches.fragmentNodes_finish {p : Parser} {root : OpenElement}
    (hreaches : p.Reaches keep [root]) :
    p.finish.overlong = none ∧ Dom.areSupported p.finish.fragmentNodes = true ∧
      Dom.marksAll keep p.finish.fragmentNodes = root.content := by
  obtain ⟨⟨inRun, hstate⟩, hoverlong, branch, outer, hgrows, hopened⟩ := hreaches
  obtain ⟨rfl, houter⟩ := List.cons.inj hopened
  obtain rfl := List.map_eq_nil_iff.mp houter
  have hfinish : p.finish = p := by
    have hassembly := hgrows.finish_eq
    cases p
    simp_all [finish, Lexer.finish]
  have hnodes : p.fragmentNodes = Draft.toDoms branch.done [] := by
    rw [fragmentNodes, hgrows.nodes]
    rfl
  rw [hfinish, hnodes]
  exact ⟨hoverlong, Draft.areSupported_toDoms branch.done, rfl⟩

end Parser

end Html

/-! ### Reading a written tree -/

namespace Target

/-- The signs of an ordinary tree are read as nodes with the marks of the tree. -/
theorem exists_readText {keep : Char → Bool} (hkeep : ∀ c, Text.isSpace c = true → keep c = false)
    {style : Style} (hstyle : style.Blank) {tree : Node} (htree : tree.isOrdinary = true)
    {written : String} (hwritten : written.toList = Sign.spellAll (tree.signs style 0)) :
    ∃ siblings, (fragment "div").readText written = .ok siblings ∧ Dom.areSupported siblings = true ∧
      Dom.marksAll keep siblings = Node.marksAll keep [tree] := by
  have hsigns := Node.ordinary_of_mem_signs hstyle 0 htree
  have hunified : ∀ sign ∈ Sign.unifyNewlines (tree.signs style 0), sign.Ordinary := by
    intro sign hsign
    rcases Sign.mem_of_mem_unifyNewlines hsign with rfl | hsign
    · exact (by decide : '\n' ≠ '\x00')
    · exact hsigns sign hsign
  have htake : Sign.takeAll keep [{ tag := "html", attrs := [] }]
      (Sign.unifyNewlines (tree.signs style 0)) =
      some [{ tag := "html", attrs := [], content := Node.marksAll keep [tree] }] := by
    rw [Sign.takeAll_unifyNewlines (hkeep _ rfl) (hkeep _ rfl), Node.takeAll_signs hstyle hkeep 0 htree]
    simp [OpenElement.add, Node.marksAll]
  have hparse : (fragment "div").parse written.toList =
      ((Html.Parser.forFragment "div").feed
        (Sign.spellAll (Sign.unifyNewlines (tree.signs style 0)))).finish := by
    rw [parse, hwritten, Sign.unifyNewlines_spellAll fun sign hsign =>
        (hsigns sign hsign).return_not_mem_spell]
    rfl
  obtain ⟨hoverlong, hsupported, hmarks⟩ :=
    ((Html.Parser.stands_forFragment keep).feed_spellAll hunified htake).fragmentNodes_finish
  refine ⟨_, ?_, hsupported, hmarks⟩
  rw [readText, answer, hparse, hoverlong]
  rfl

end Target

namespace Node

/-- An ordinary tree that is written in a blank style and read again has the shape it had. -/
theorem parse_toText_shape {style : Style} (hstyle : style.Blank) {tree : Node}
    (htree : tree.isOrdinary = true) {calls : Nat} (hnesting : tree.nesting ≤ calls) :
    ∃ written nodes, (tree.toText calls style).1 = .ok written ∧ shapeAll nodes = shapeAll [tree] ∧
      ∀ (sourceName : Option String) (channel : Channel),
        (((Source.text written).parse calls (.fragment "div") sourceName).run.run channel).1 =
          .ok nodes := by
  have hkeep : ∀ c, Text.isSpace c = true → Text.isVisible c = false :=
      fun c hc => by simp [Text.isVisible, hc]
  have htext := toText_eq_signs hstyle (regular_of_isOrdinary htree) hnesting
  obtain ⟨siblings, hread, hsupported, hmarks⟩ :=
      Target.exists_readText hkeep hstyle htree String.toList_ofList
  obtain ⟨nodes, hnodes, hnodeMarks⟩ := Dom.exists_toNodes_normalizeAll Text.isVisible hsupported
  -- The reader opens half the calls that the writer needs.
  have hdepth : 2 * Dom.nestingAll siblings = tree.nesting := by
    rw [← Dom.nestingAll_marksAll Text.isVisible, hmarks, nestingAll_marksAll]
    simp [nestingAll]
  refine ⟨_, nodes, htext, ?_, fun sourceName channel => ?_⟩
  · rw [shapeAll, shapeAll, siftAll_eq_allToNodes, siftAll_eq_allToNodes, hnodeMarks, hmarks]
  · have hadapt : (Source.text (String.ofList (Sign.spellAll (tree.signs style 0)))).parse calls
          (.fragment "div") sourceName =
        adapt calls (.fragment "div") sourceName (.ok siblings) := by
      rw [← hread]
      rfl
    rw [hadapt, adapt, if_neg (by omega), hnodes]
    rfl

/-- A text that looks like markup, a carriage return and a line break of the layout, a comment and
attributes come back in their shape. -/
theorem parse_toText_shape_mixed :
    let tree := element "div" [⟨"title", "a \"b\" & <c>\n", ""⟩, ⟨"id", "&lt;", ""⟩]
      [text " &amp;\r", element "section" [] [comment " c ", element "br" [] []], text "<b> \n"]
    ∃ written nodes, (tree.toText defaultCalls { margin := "\r", indent := "\t" }).1 = .ok written ∧
      shapeAll nodes = [element "div" [⟨"title", "a \"b\" & <c>\n", ""⟩, ⟨"id", "&lt;", ""⟩]
        [text "&amp;", element "section" [] [comment " c ", element "br" [] []], text "<b>"]] ∧
      ∀ (sourceName : Option String) (channel : Channel),
        (((Source.text written).parse defaultCalls (.fragment "div") sourceName).run.run channel).1 =
          .ok nodes := by
  intro tree
  have hstyle : Style.Blank { margin := "\r", indent := "\t" } := ⟨by decide, by decide⟩
  have hordinary : tree.isOrdinary = true := by decide
  have hnesting : tree.nesting ≤ defaultCalls := by decide
  exact parse_toText_shape hstyle hordinary hnesting

end Node

end HtmlLayout
