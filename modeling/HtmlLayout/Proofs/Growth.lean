import HtmlLayout.Html.Parser
import HtmlLayout.Proofs.Conversion
import Mathlib.Data.List.TakeWhile

/-!
# Trees that grow at their end

While well nested markup of ordinary elements is read, a document tree only grows at its newest end.
Every open element is the newest child of the one around it, so the tree is known from the open
elements alone, each with the children it has so far. Such an element with its finished children is
a branch here, and `Grows` says that an assembly is made of branches and that none of the special
rules of tree construction is at work.

Every token of such markup leads from branches to branches: text and comments are added to the
innermost one, a start tag adds a branch, and an end tag makes the innermost branch a child of the
next.
-/

namespace HtmlLayout

/-! ### Attributes -/

namespace Dom.Attr

theorem localPart_eq {name : String} (hname : ':' ∉ name.toList) : localPart name = name := by
  have hnone : name.toList.dropWhile (· != ':') = [] := by
    rw [List.dropWhile_eq_nil_iff]
    intro c hc
    simpa using fun heq : c = ':' => hname (heq ▸ hc)
  simp [localPart, splitName, hnone]

theorem set_eq_append {attrs : List Attr} {name : String} (hname : ':' ∉ name.toList)
    (hnew : ∀ old ∈ attrs, old.name ≠ name ∧ old.leaf ≠ name) (value : String) :
    set attrs name value = attrs ++ [plain name value] := by
  have hany : (attrs.any fun old => old.name == name) = false := by
    simpa using fun old hold => (hnew old hold).1
  have hfilter : (attrs.filter fun old => !(old.name == name || old.collides (plain name value))) =
      attrs := by
    rw [List.filter_eq_self]
    intro old hold
    simp [(hnew old hold).1, collides, plain, localPart_eq hname, (hnew old hold).2]
  rw [set, hany, if_neg Bool.false_ne_true, push]
  exact congrArg (· ++ [plain name value]) hfilter

theorem foldl_set_eq_append {entries : List (String × String)}
    (hcolon : ∀ entry ∈ entries, ':' ∉ entry.1.toList)
    (hdistinct : (entries.map Prod.fst).Nodup) {attrs : List Attr}
    (hnew : ∀ entry ∈ entries, ∀ old ∈ attrs, old.name ≠ entry.1 ∧ old.leaf ≠ entry.1) :
    entries.foldl (fun done entry => set done entry.1 entry.2) attrs =
      attrs ++ entries.map fun entry => plain entry.1 entry.2 := by
  induction entries generalizing attrs with
  | nil => simp
  | cons entry rest ih =>
      obtain ⟨hentry, hrest⟩ := List.forall_mem_cons.mp hcolon
      obtain ⟨hkey, hkeys⟩ := List.nodup_cons.mp hdistinct
      obtain ⟨hfirst, hlater⟩ := List.forall_mem_cons.mp hnew
      have hadded : ∀ next ∈ rest, ∀ old ∈ attrs ++ [plain entry.1 entry.2],
          old.name ≠ next.1 ∧ old.leaf ≠ next.1 := by
        intro next hnext
        have hne : entry.1 ≠ next.1 := fun hsame => hkey (hsame ▸ List.mem_map_of_mem hnext)
        refine List.forall_mem_append.mpr ⟨hlater next hnext, List.forall_mem_singleton.mpr ?_⟩
        simpa [plain, localPart_eq hentry] using hne
      rw [List.foldl_cons, set_eq_append hentry hfirst, ih hrest hkeys hadded]
      simp

end Dom.Attr

/-- The attributes of a start tag are kept as they are, if no two have the same name and no name
holds a colon. -/
theorem Html.plainAttrs_eq {entries : List (String × String)}
    (hcolon : ∀ entry ∈ entries, ':' ∉ entry.1.toList) (hdistinct : (entries.map Prod.fst).Nodup) :
    plainAttrs entries = entries.map fun entry => Dom.Attr.plain entry.1 entry.2 := by
  rw [plainAttrs, Dom.Attr.foldl_set_eq_append hcolon hdistinct (by simp), List.nil_append]

namespace Html

/-! ### Branches -/

/-- An open element with its finished children, the newest first. -/
structure Branch where
  label : Label
  done : List Draft

namespace Branch

def element (branch : Branch) : Draft := .element branch.label branch.done

def add (branch : Branch) (node : Draft) : Branch := { branch with done := node :: branch.done }

/-- The tree that branches make up around nodes, the innermost branch first. -/
def plug : List Branch → List Draft → List Draft
  | [], inner => inner
  | branch :: outer, inner => plug outer [.element branch.label (inner ++ branch.done)]

/-- A change below all branches is a change at the end of the tree. -/
theorem modifyAll_plug {id : Nat} {change : Label → List Draft → Draft} {node changed : Draft}
    {outer : List Branch}
    (hfresh : ∀ branch ∈ outer, branch.label.id ≠ id) (hnode : node.modify id change = some changed) :
    Draft.modifyAll id change (plug outer [node]) = some (plug outer [changed]) := by
  induction outer generalizing node changed with
  | nil => simp [plug, Draft.modifyAll, hnode]
  | cons branch outer ih =>
      obtain ⟨hbranch, houter⟩ := List.forall_mem_cons.mp hfresh
      refine ih houter ?_
      simp [Draft.modify, Draft.modifyAll, hbranch, hnode]

/-- The children below all branches are found at the end of the tree. -/
theorem childrenOfAll?_plug {id : Nat} {node : Draft} {children : List Draft} {outer : List Branch}
    (hfresh : ∀ branch ∈ outer, branch.label.id ≠ id) (hnode : node.childrenOf? id = some children) :
    Draft.childrenOfAll? id (plug outer [node]) = some children := by
  induction outer generalizing node with
  | nil => simp [plug, Draft.childrenOfAll?, hnode]
  | cons branch outer ih =>
      obtain ⟨hbranch, houter⟩ := List.forall_mem_cons.mp hfresh
      refine ih houter ?_
      simp [Draft.childrenOf?, Draft.childrenOfAll?, hbranch, hnode]

/-- A preformatted element that has nothing in it yet. -/
def isEmptyPre (branch : Branch) : Bool := branch.label.name == "pre" && branch.done.isEmpty

end Branch

/-- Elements that may hold anything and are closed by their own end tags only. -/
def nestable : List String := ["div", "section", "article", "span", "abbr", "kbd", "sub"]

/-- Elements that hold nothing. -/
def childless : List String := ["br", "hr", "img", "wbr"]

def openNames : List String := "html" :: "pre" :: nestable

namespace Assembly

/-- An assembly that is made of branches and in which no special rule of tree construction is at
work. -/
structure Grows (a : Assembly) (branches : List Branch) : Prop where
  nodes : a.nodes = Branch.plug branches []
  stack : a.stack = branches.map Branch.label
  distinct : (a.stack.map Label.id).Nodup
  fresh : ∀ label ∈ a.stack, label.id < a.nextId
  names : ∀ label ∈ a.stack, ∃ name ∈ openNames, label.kind = .html name
  mode : a.mode = .inBody
  formatting : a.formatting = []
  fostering : a.fostering = false
  content : a.content = none

variable {a : Assembly} {branch : Branch} {outer : List Branch}

theorem Grows.outer_ids_ne (hgrows : a.Grows (branch :: outer)) :
    ∀ other ∈ outer, other.label.id ≠ branch.label.id := by
  have hdistinct := hgrows.distinct
  rw [hgrows.stack, List.map_cons, List.map_cons, List.nodup_cons, List.map_map] at hdistinct
  intro other hother hsame
  exact hdistinct.1 (List.mem_map.mpr ⟨other, hother, hsame⟩)

/-- A newline that comes next is kept. -/
def KeepsNewline (a : Assembly) : Prop := (a.dropNewline && a.atPreformattedStart) = false

theorem Grows.atPreformattedStart_eq (hgrows : a.Grows (branch :: outer)) :
    a.atPreformattedStart = branch.isEmptyPre := by
  have hchildren : Draft.childrenOfAll? branch.label.id a.nodes = some branch.done := by
    rw [hgrows.nodes]
    exact Branch.childrenOfAll?_plug hgrows.outer_ids_ne (by simp [Draft.childrenOf?])
  obtain ⟨name, hname, hkind⟩ := hgrows.names branch.label (by simp [hgrows.stack])
  have hpre : ["pre", "listing", "textarea"].contains name = (name == "pre") := by
    have hall : ∀ name ∈ openNames,
        ["pre", "listing", "textarea"].contains name = (name == "pre") := by decide
    exact hall name hname
  have hlabel : branch.label.name = name := by rw [Label.name, hkind, Kind.html]
  rw [atPreformattedStart, hgrows.stack]
  simp only [List.map_cons, hchildren, Option.getD_some, Branch.isEmptyPre, hlabel, hpre]

theorem Grows.keepsNewline (hgrows : a.Grows (branch :: outer)) (hbranch : branch.isEmptyPre = false) :
    a.KeepsNewline := by
  rw [KeepsNewline, hgrows.atPreformattedStart_eq, hbranch, Bool.and_false]

/-! ### Moves -/

theorem Grows.append_eq (hgrows : a.Grows (branch :: outer)) (node : Draft) :
    a.append node = { a with nodes := Branch.plug (branch.add node :: outer) [] } := by
  have hmodify : Draft.modifyAll branch.label.id (Draft.addChild node) a.nodes =
      some (Branch.plug (branch.add node :: outer) []) := by
    rw [hgrows.nodes]
    exact Branch.modifyAll_plug hgrows.outer_ids_ne
      (by simp [Draft.modify, Draft.addChild, Branch.add])
  simp [append, hgrows.stack, appendTo, hmodify]

theorem Grows.append (hgrows : a.Grows (branch :: outer)) (node : Draft) :
    (a.append node).Grows (branch.add node :: outer) := by
  rw [hgrows.append_eq]
  exact { hgrows with nodes := rfl }

theorem Grows.insert_eq (hgrows : a.Grows (branch :: outer)) (node : Draft) :
    a.insert node = a.append node := by
  simp [Assembly.insert, hgrows.fostering]

theorem Grows.reconstruct_eq {branches : List Branch} (hgrows : a.Grows branches) :
    a.reconstruct = a := by
  simp [reconstruct, hgrows.formatting]

def freshBranch (a : Assembly) (name : String) (attrs : List (String × String)) : Branch :=
  { label := a.freshLabel (.html name) (plainAttrs attrs), done := [] }

theorem Grows.insertHtml_eq (hgrows : a.Grows (branch :: outer)) (name : String)
    (attrs : List (String × String)) :
    a.insertHtml name attrs =
      { a with
        nodes := Branch.plug (branch.add (a.freshBranch name attrs).element :: outer) []
        nextId := a.nextId + 1
        stack := (a.freshBranch name attrs).label :: a.stack } := by
  rw [insertHtml, insertElement, hgrows.insert_eq, hgrows.append_eq]
  rfl

theorem Grows.insertHtml (hgrows : a.Grows (branch :: outer)) {name : String} (hname : name ∈ openNames)
    (attrs : List (String × String)) :
    (a.insertHtml name attrs).Grows (a.freshBranch name attrs :: branch :: outer) := by
  have hnew : ∀ label ∈ a.stack, label.id ≠ a.nextId :=
      fun label hlabel => Nat.ne_of_lt (hgrows.fresh label hlabel)
  rw [hgrows.insertHtml_eq]
  refine { hgrows with nodes := rfl, stack := ?_, distinct := ?_, fresh := ?_, names := ?_ }
  · rw [hgrows.stack]
    rfl
  · rw [List.map_cons, List.nodup_cons]
    exact ⟨by simpa [freshBranch, freshLabel] using hnew, hgrows.distinct⟩
  · exact List.forall_mem_cons.mpr ⟨Nat.lt_succ_self _,
      fun label hlabel => Nat.lt_succ_of_lt (hgrows.fresh label hlabel)⟩
  · exact List.forall_mem_cons.mpr ⟨⟨name, hname, rfl⟩, hgrows.names⟩

theorem Grows.insertHtml_pop (hgrows : a.Grows (branch :: outer)) (name : String)
    (attrs : List (String × String)) :
    (a.insertHtml name attrs).pop.Grows (branch.add (a.freshBranch name attrs).element :: outer) := by
  rw [hgrows.insertHtml_eq]
  exact
    { hgrows with
      nodes := rfl
      fresh := fun label hlabel => Nat.lt_succ_of_lt (hgrows.fresh label hlabel) }

theorem Grows.pop {inner : Branch} (hgrows : a.Grows (inner :: branch :: outer)) :
    a.pop.Grows (branch.add inner.element :: outer) := by
  have hstack : a.stack = inner.label :: branch.label :: outer.map Branch.label := hgrows.stack
  have hdrop : a.stack.drop 1 = branch.label :: outer.map Branch.label := by rw [hstack]; rfl
  have hsub : ∀ label ∈ a.stack.drop 1, label ∈ a.stack :=
      fun label hlabel => List.mem_of_mem_drop hlabel
  refine { hgrows with nodes := ?_, stack := hdrop, distinct := ?_, fresh := ?_, names := ?_ }
  · exact hgrows.nodes
  · exact hgrows.distinct.sublist ((List.drop_sublist 1 a.stack).map Label.id)
  · exact fun label hlabel => hgrows.fresh label (hsub label hlabel)
  · exact fun label hlabel => hgrows.names label (hsub label hlabel)

/-! ### Tokens -/

theorem Grows.inForeign_eq_false (hgrows : a.Grows (branch :: outer)) : a.inForeign = false := by
  obtain ⟨name, -, hkind⟩ := hgrows.names branch.label (by simp [hgrows.stack])
  simp [inForeign, hgrows.stack, hkind, Kind.isHtml, Kind.html]

/-- The rules of the body apply to a token, and one look at it is enough if it is done with then. -/
theorem Grows.take_eq (hgrows : a.Grows (branch :: outer)) {token : Token} {result : Assembly}
    (hdone : a.reactMode token = .done result) : a.take token = result := by
  obtain ⟨name, -, hkind⟩ := hgrows.names branch.label (by simp [hgrows.stack])
  have hforeign : a.isForeignToken token = false := by
    simp [isForeignToken, hgrows.stack, hkind, Kind.isHtml, Kind.html]
  rw [take, settle, react, hforeign, if_neg Bool.false_ne_true, hdone]

theorem Grows.take_char (hgrows : a.Grows (branch :: outer)) {c : Char} (hc : c ≠ '\x00') :
    (a.take (.char c)).Grows (branch.add (.text (String.singleton c)) :: outer) := by
  have hnull : String.singleton c ≠ "\x00" := by
    intro hsame
    exact hc (by simpa using congrArg String.toList hsame)
  have hdone : a.reactMode (.char c) = .done (a.bodyText (String.singleton c)) := by
    simp [reactMode, character, hgrows.mode]
  have hput : a.putText (String.singleton c) = a.append (.text (String.singleton c)) := by
    rw [putText, hgrows.reconstruct_eq, insertText, hgrows.insert_eq]
  have happend := hgrows.append (.text (String.singleton c))
  rw [hgrows.take_eq hdone, bodyText, if_neg (by simpa using hnull), hput]
  split
  · exact happend
  · exact { happend with }

theorem Grows.take_space (hgrows : a.Grows (branch :: outer)) {c : Char}
    (hkeeps : c = '\n' → a.KeepsNewline) :
    (a.take (.space c)).Grows (branch.add (.text (String.singleton c)) :: outer) := by
  have hdone : a.reactMode (.space c) = .done (a.bodySpace c) := by simp [reactMode, space, hgrows.mode]
  have hsame : { a with dropNewline := false }.Grows (branch :: outer) := { hgrows with }
  have hkept : ¬ (a.dropNewline && c == '\n' && a.atPreformattedStart) = true := by
    intro hdropped
    simp only [Bool.and_eq_true, beq_iff_eq] at hdropped
    simpa [KeepsNewline, hdropped] using hkeeps hdropped.1.2
  rw [hgrows.take_eq hdone, bodySpace, if_neg hkept, putText, hsame.reconstruct_eq, insertText,
      hsame.insert_eq]
  exact hsame.append _

theorem Grows.take_comment (hgrows : a.Grows (branch :: outer)) (data : String) :
    (a.take (.comment data)).Grows (branch.add (.comment data) :: outer) := by
  have hdone : a.reactMode (.comment data) = .done (a.append (.comment data)) := by
    simp [reactMode, comment, hgrows.mode, insertComment]
  rw [hgrows.take_eq hdone]
  exact hgrows.append _

theorem meets_eq_false {scope : Scope} {wanted : Label → Bool} {stack : List Label}
    (hstack : ∀ label ∈ stack, wanted label = false) : meets scope wanted stack = false := by
  induction stack with
  | nil => rfl
  | cons label outer ih =>
      obtain ⟨hlabel, houter⟩ := List.forall_mem_cons.mp hstack
      simp [meets, hlabel, ih houter]

theorem Grows.closeParagraph_eq {branches : List Branch} (hgrows : a.Grows branches) :
    a.closeParagraph = a := by
  have hscope : a.inScope .button "p" = false := by
    refine meets_eq_false fun label hlabel => ?_
    obtain ⟨name, hname, hkind⟩ := hgrows.names label hlabel
    have hne : name ≠ "p" := by
      rintro rfl
      revert hname
      decide
    simp [hkind, Kind.html, hne]
  simp [closeParagraph, hscope]

theorem Grows.take_startTag (hgrows : a.Grows (branch :: outer)) {name : String}
    (hname : name ∈ nestable) (attrs : List (String × String)) :
    (a.take (.startTag { name, attrs })).Grows (a.freshBranch name attrs :: branch :: outer) := by
  have hdone : a.reactMode (.startTag { name, attrs }) = .done (a.insertHtml name attrs) := by
    have hblock : a.insertBlock { name, attrs } = a.insertHtml name attrs := by
      rw [insertBlock, hgrows.closeParagraph_eq, insertTag]
    have hflowing : a.insertFlowing { name, attrs } = a.insertHtml name attrs := by
      rw [insertFlowing, hgrows.reconstruct_eq, insertTag]
    simp only [nestable, List.mem_cons, List.not_mem_nil, or_false] at hname
    rw [reactMode, startTag, hgrows.mode]
    rcases hname with rfl | rfl | rfl | rfl | rfl | rfl | rfl
    · exact congrArg Reply.done hblock
    · exact congrArg Reply.done hblock
    · exact congrArg Reply.done hblock
    all_goals exact congrArg Reply.done hflowing
  rw [hgrows.take_eq hdone]
  exact hgrows.insertHtml (List.mem_cons_of_mem _ (List.mem_cons_of_mem _ hname)) attrs

theorem Grows.take_emptyTag (hgrows : a.Grows (branch :: outer)) {name : String}
    (hname : name ∈ childless) (attrs : List (String × String)) (selfClosing : Bool) :
    (a.take (.startTag { name, attrs, selfClosing })).Grows
    (branch.add (a.freshBranch name attrs).element :: outer) := by
  have hdone : a.reactMode (.startTag { name, attrs, selfClosing }) =
      .done { (a.insertHtml name attrs).pop with framesetOk := false } := by
    have hrule : a.insertRule { name, attrs, selfClosing } =
        { (a.insertHtml name attrs).pop with framesetOk := false } := by
      rw [insertRule, insertBlock, hgrows.closeParagraph_eq, insertTag]
    have hflowing : a.insertFlowingEmpty { name, attrs, selfClosing } =
        { (a.insertHtml name attrs).pop with framesetOk := false } := by
      rw [insertFlowingEmpty, insertFlowing, hgrows.reconstruct_eq, insertTag]
    simp only [childless, List.mem_cons, List.not_mem_nil, or_false] at hname
    rw [reactMode, startTag, hgrows.mode]
    rcases hname with rfl | rfl | rfl | rfl
    · exact congrArg Reply.done hflowing
    · exact congrArg Reply.done hrule
    all_goals exact congrArg Reply.done hflowing
  rw [hgrows.take_eq hdone]
  exact { hgrows.insertHtml_pop name attrs with }

theorem Grows.closeImplied_eq {branches : List Branch} {inner : Branch}
    (hgrows : a.Grows (inner :: branches)) (himplied : inner.label.name ∉ impliedEnds)
    (keep : Option String) : a.closeImplied keep = a := by
  have hstack : a.stack = inner.label :: branches.map Branch.label := hgrows.stack
  rw [closeImplied, hstack, List.dropWhile_cons_of_neg (by simp [himplied])]
  simp [← hstack]

/-- The innermost element is closed by its end tag if it is a block. -/
theorem Grows.endBlock_eq {branches : List Branch} {inner : Branch} {name : String}
    (hgrows : a.Grows (inner :: branches)) (hinner : inner.label.kind = .html name)
    (himplied : name ∉ impliedEnds) (hdrop : name = "pre" → a.dropNewline = false) :
    a.endBlock name = a.pop := by
  have hstack : a.stack = inner.label :: branches.map Branch.label := hgrows.stack
  have hlabel : inner.label.name = name := by rw [Label.name, hinner, Kind.html]
  have hsame : (if name == "pre" then { a with dropNewline := false } else a) = a := by
    split
    · next hpre => rw [← hdrop (eq_of_beq hpre)]
    · rfl
  have hscope : a.inScope .ordinary name = true := by simp [inScope, hstack, meets, hinner]
  have hpopTo : a.popTo [name] = a := by
    rw [popTo, hstack, List.dropWhile_cons_of_neg (by simp [hlabel])]
    simp [← hstack]
  rw [endBlock, hsame, if_pos hscope, close, hgrows.closeImplied_eq (hlabel ▸ himplied), popThrough,
    hpopTo]

/-- The end tag of a nestable element that is innermost. -/
theorem Grows.take_endTag {inner : Branch} (hgrows : a.Grows (inner :: branch :: outer))
    {name : String} (hname : name ∈ nestable) (hinner : inner.label.kind = .html name) :
    (a.take (.endTag name)).Grows (branch.add inner.element :: outer) := by
  have hstack : a.stack = inner.label :: branch.label :: outer.map Branch.label := hgrows.stack
  have hlabel : inner.label.name = name := by rw [Label.name, hinner, Kind.html]
  obtain ⟨himplied, hpre⟩ : name ∉ impliedEnds ∧ name ≠ "pre" := by
    have hall : ∀ name ∈ nestable, name ∉ impliedEnds ∧ name ≠ "pre" := by decide
    exact hall name hname
  have hdone : a.reactMode (.endTag name) = .done a.pop := by
    have hblock : a.endBlock name = a.pop :=
      hgrows.endBlock_eq hinner himplied fun heq => absurd heq hpre
    have hother : a.endOther name = a.pop := by
      have hcloses : closes? name a.stack = some inner.label := by simp [hstack, closes?, hlabel]
      rw [endOther, hcloses]
      simp [hgrows.closeImplied_eq (hlabel ▸ himplied), popThroughId, hstack, Assembly.pop]
    simp only [nestable, List.mem_cons, List.not_mem_nil, or_false] at hname
    rw [reactMode, endTag, hgrows.mode]
    rcases hname with rfl | rfl | rfl | rfl | rfl | rfl | rfl
    · exact congrArg Reply.done hblock
    · exact congrArg Reply.done hblock
    · exact congrArg Reply.done hblock
    all_goals exact congrArg Reply.done hother
  rw [hgrows.take_eq hdone]
  exact hgrows.pop

/-! ### Preformatted elements -/

/-- After the start tag of a preformatted element a newline would be dropped. -/
theorem Grows.take_startPre (hgrows : a.Grows (branch :: outer)) (attrs : List (String × String)) :
    (a.take (.startTag { name := "pre", attrs })).Grows (a.freshBranch "pre" attrs :: branch :: outer) ∧
      (a.take (.startTag { name := "pre", attrs })).dropNewline = true := by
  have hdone : a.reactMode (.startTag { name := "pre", attrs }) =
      .done { a.insertHtml "pre" attrs with framesetOk := false, dropNewline := true } := by
    have hblock : a.insertBlock { name := "pre", attrs } = a.insertHtml "pre" attrs := by
      rw [insertBlock, hgrows.closeParagraph_eq, insertTag]
    rw [reactMode, startTag, hgrows.mode, ← hblock]
    rfl
  have hinserted := hgrows.insertHtml (show "pre" ∈ openNames by decide) attrs
  rw [hgrows.take_eq hdone]
  exact ⟨{ hinserted with }, rfl⟩

/-- A newline right after the start tag of a preformatted element is dropped, and no other is. -/
theorem Grows.take_firstNewline (hgrows : a.Grows (branch :: outer))
    (hbranch : branch.isEmptyPre = true) (hdrop : a.dropNewline = true) :
    (a.take (.space '\n')).Grows (branch :: outer) ∧ (a.take (.space '\n')).KeepsNewline := by
  have hdone : a.reactMode (.space '\n') = .done (a.bodySpace '\n') := by
    simp [reactMode, space, hgrows.mode]
  have hdropped : a.bodySpace '\n' = { a with dropNewline := false } := by
    simp [bodySpace, hdrop, hgrows.atPreformattedStart_eq, hbranch]
  rw [hgrows.take_eq hdone, hdropped]
  exact ⟨{ hgrows with }, rfl⟩

theorem Grows.take_endPre {inner : Branch} (hgrows : a.Grows (inner :: branch :: outer))
    (hinner : inner.label.kind = .html "pre") :
    (a.take (.endTag "pre")).Grows (branch.add inner.element :: outer) := by
  -- The end tag also settles that no newline is to be dropped, which is no matter to what grows.
  have hsame : { a with dropNewline := false }.Grows (inner :: branch :: outer) := { hgrows with }
  have hdone : a.reactMode (.endTag "pre") = .done (a.endBlock "pre") := by
    rw [reactMode, endTag, hgrows.mode]
    rfl
  have hblock : a.endBlock "pre" = { a with dropNewline := false }.pop :=
    hsame.endBlock_eq hinner (by decide) fun _ => rfl
  rw [hgrows.take_eq hdone, hblock]
  exact hsame.pop

theorem Grows.finish_eq {branches : List Branch} (hgrows : a.Grows branches) : a.finish = a := by
  simp [finish, settleEnd, reactEnd, hgrows.mode]

end Assembly

/-! ### Finished trees -/

namespace Draft

theorem toDoms_eq_append (drafts : List Draft) (later : List Dom) :
    toDoms drafts later = toDoms drafts [] ++ later := by
  induction drafts generalizing later with
  | nil => rfl
  | cons draft rest ih =>
      rw [toDoms, toDoms, ih, ih [toDom draft]]
      simp

mutual

theorem isSupported_toDom (draft : Draft) : draft.toDom.isSupported = true := by
  cases draft with
  | element label children => exact areSupported_toDoms children
  | _ => rfl

theorem areSupported_toDoms (drafts : List Draft) : Dom.areSupported (toDoms drafts []) = true := by
  match drafts with
  | [] => rfl
  | draft :: rest =>
      rw [toDoms, toDoms_eq_append, Dom.areSupported_append, areSupported_toDoms rest]
      simpa [Dom.areSupported] using isSupported_toDom draft

end

def marksAll (keep : Char → Bool) (drafts : List Draft) : List Mark :=
  Dom.marksAll keep (toDoms drafts [])

theorem marksAll_cons (keep : Char → Bool) (draft : Draft) (rest : List Draft) :
    marksAll keep (draft :: rest) = marksAll keep rest ++ draft.toDom.marks keep := by
  rw [marksAll, toDoms, toDoms_eq_append, Dom.marksAll_append]
  simp [marksAll, Dom.marksAll]

end Draft

end Html

end HtmlLayout
