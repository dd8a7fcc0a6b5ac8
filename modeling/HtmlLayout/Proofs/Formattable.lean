import HtmlLayout.Proofs.Delivery
import HtmlLayout.Proofs.Growth
import HtmlLayout.Proofs.VoidElements

/-!
# Formatting any text

Whatever text is formatted, as a document or in any containing element, the tree that is read from
it can be written unless it holds a foreign element under the name of a void one. Markup never puts
anything into a void element, but foreign content may: an `input` inside vector graphics is an
element like any other. The tree keeps no vocabulary, so such an element is refused as if it were
one of markup. Nothing else of a text is ever refused.
-/

namespace HtmlLayout

/-! ### Where the nodes of a tree come from -/

theorem Dom.exists_of_mem_visitAll {siblings : List Dom} {node : Dom}
    (hnode : node ∈ (visitAll siblings).met) : ∃ sibling ∈ siblings, node ∈ sibling.visit.met := by
  induction siblings with
  | nil => cases hnode
  | cons first rest ih =>
      rcases Visit.mem_of_mem_andThen hnode with hfirst | hrest
      · exact ⟨first, List.mem_cons_self .., hfirst⟩
      · obtain ⟨sibling, hsibling, hmet⟩ := ih hrest
        exact ⟨sibling, List.mem_cons_of_mem _ hsibling, hmet⟩

theorem Target.exists_of_mem_met {target : Target} {siblings : List Dom} {node : Dom}
    (hnode : node ∈ target.met siblings) : ∃ sibling ∈ siblings, node ∈ sibling.visit.met := by
  cases target with
  | document => exact Dom.exists_of_mem_visitAll hnode
  | fragment container => exact List.mem_flatMap.mp hnode

namespace Html

namespace Draft

theorem exists_of_mem_toDoms {drafts : List Draft} {dom : Dom} (hdom : dom ∈ toDoms drafts []) :
    ∃ draft ∈ drafts, dom = draft.toDom := by
  induction drafts with
  | nil => cases hdom
  | cons draft rest ih =>
      rw [toDoms, toDoms_eq_append] at hdom
      rcases List.mem_append.mp hdom with hrest | hlast
      · obtain ⟨other, hother, hsame⟩ := ih hrest
        exact ⟨other, List.mem_cons_of_mem _ hother, hsame⟩
      · exact ⟨draft, List.mem_cons_self .., List.mem_singleton.mp hlast⟩

section Met

variable {tag : String} {attrs : List Dom.Attr} {children : List Dom}

mutual

theorem exists_element_of_met (draft : Draft)
    (hmet : Dom.element tag attrs children ∈ draft.toDom.visit.met) :
    ∃ entry ∈ draft.elements, tag = entry.1.name ∧ children = toDoms entry.2 [] := by
  cases draft with
  | element label below =>
      rcases List.mem_cons.mp hmet with hself | hbelow
      · cases hself
        exact ⟨(label, below), List.mem_cons_self .., rfl, rfl⟩
      · obtain ⟨dom, hdom, hinside⟩ := Dom.exists_of_mem_visitAll hbelow
        obtain ⟨child, hchild, rfl⟩ := exists_of_mem_toDoms hdom
        obtain ⟨entry, hentry, hsame⟩ := exists_element_of_mem_met below child hchild hinside
        exact ⟨entry, List.mem_cons_of_mem _ hentry, hsame⟩
  | text data => cases List.mem_singleton.mp hmet
  | comment data => cases List.mem_singleton.mp hmet
  | doctype name publicId systemId => cases List.mem_singleton.mp hmet

theorem exists_element_of_mem_met (drafts : List Draft) (draft : Draft) (hdraft : draft ∈ drafts)
    (hmet : Dom.element tag attrs children ∈ draft.toDom.visit.met) :
    ∃ entry ∈ elementsAll drafts, tag = entry.1.name ∧ children = toDoms entry.2 [] := by
  match drafts with
  | [] => cases hdraft
  | first :: rest =>
      rcases List.mem_cons.mp hdraft with hfirst | hrest
      · rw [hfirst] at hmet
        obtain ⟨entry, hentry, hsame⟩ := exists_element_of_met first hmet
        exact ⟨entry, List.mem_append_left _ hentry, hsame⟩
      · obtain ⟨entry, hentry, hsame⟩ := exists_element_of_mem_met rest draft hrest hmet
        exact ⟨entry, List.mem_append_right _ hentry, hsame⟩

end

end Met

end Draft

/-- A foreign element with the name of a void one. -/
def Label.isForeignVoid (label : Label) : Bool := !label.kind.isHtml && Tag.isVoid label.name

end Html

/-! ### Reading and writing a text -/

namespace Target

open Html

/-- The nodes that are delivered are nodes of the tree, or stand right below its outermost element. -/
theorem exists_drafts (target : Target) (parser : Html.Parser) :
    ∃ drafts, target.nodes parser = Draft.toDoms drafts [] ∧
      Draft.elementsAll drafts ⊆ Draft.elementsAll parser.assembly.nodes := by
  cases target with
  | document => exact ⟨_, rfl, fun _ hentry => hentry⟩
  | fragment container =>
      unfold nodes Html.Parser.fragmentNodes
      dsimp only
      split
      · next label children rest hnodes =>
          refine ⟨children, rfl, fun entry hentry => ?_⟩
          rw [hnodes]
          exact List.mem_append_left _ (List.mem_cons_of_mem _ hentry)
      · exact ⟨[], rfl, by simp [Draft.elementsAll]⟩

theorem void_childless (target : Target) (text : List Char) :
    ∀ entry ∈ Draft.elementsAll (target.parse text).assembly.nodes,
      entry.1.kind.isVoid = true → entry.2 = [] := by
  cases target with
  | document => exact Parser.void_childless Parser.sound_forDocument _
  | fragment container => exact Parser.void_childless (Parser.sound_forFragment container) _

/-- What is refused of a text is a foreign element. -/
theorem exists_foreign_of_isStuffed (target : Target) (text : List Char) {node : Dom}
    (hmet : node ∈ target.met (target.nodes (target.parse text))) (hstuffed : node.isStuffed = true) :
    ∃ label children, (label, children) ∈ Draft.elementsAll (target.parse text).assembly.nodes ∧
      label.isForeignVoid = true ∧ children ≠ [] ∧ node.blame = .voidContent label.name := by
  obtain ⟨drafts, hnodes, hdrafts⟩ := target.exists_drafts (target.parse text)
  obtain ⟨tag, attrs, children, rfl⟩ := Dom.exists_of_isStuffed hstuffed
  obtain ⟨sibling, hsibling, hinside⟩ := exists_of_mem_met hmet
  rw [hnodes] at hsibling
  obtain ⟨draft, hdraft, rfl⟩ := Draft.exists_of_mem_toDoms hsibling
  obtain ⟨⟨label, below⟩, hentry, rfl, rfl⟩ := Draft.exists_element_of_mem_met drafts draft hdraft hinside
  obtain ⟨hvoid, hany⟩ := Bool.and_eq_true_iff.mp hstuffed
  have hbelow : below ≠ [] := by
    rintro rfl
    cases hany
  have hkind : label.kind.isVoid = false := by
    rw [Bool.eq_false_iff]
    intro hkind
    exact hbelow (target.void_childless text _ (hdrafts hentry) hkind)
  refine ⟨label, below, hdrafts hentry, ?_, hbelow, rfl⟩
  rw [Kind.isVoid, show Tag.isVoid label.kind.name = true from hvoid, Bool.and_true] at hkind
  rw [Label.isForeignVoid, hkind, hvoid]
  rfl

end Target

/-- What a format asks to be read. -/
def Format.target (format : Format) : Target :=
  if format.fragment then .fragment format.container else .document

namespace Source

theorem formatAs_eq_format (source : Source) (calls : Nat) (format : Format) :
    source.formatAs calls format =
      format.target.format calls format.style none (format.target.read source) := by
  unfold formatAs Format.target
  cases format.fragment <;> rfl

theorem result_formatText (source : Source) (calls : Nat) (format : Format) :
    ∃ build : Unit → String, (source.formatText calls format).1 =
      ((format.target.format calls format.style none (format.target.read source)).run.run {}).1.map
        build := by
  rw [← formatAs_eq_format]
  exact ⟨_, rfl⟩

/-- A text that is read without trouble is written, or a foreign element that has the name of a void
one and contents is refused. -/
theorem formatText_refuses_only_foreign_elements (data : String) {calls : Nat} (format : Format)
    (hnesting : 2 * Dom.nestingAll (format.target.nodes (format.target.parse data.toList)) < calls) :
    let parser := format.target.parse data.toList
    let result := (formatText (.text data) calls format).1
    (∀ digits, parser.overlong = some digits → ∃ error, result = .error (.parse error)) ∧
      (parser.overlong = none →
        (∃ text, result = .ok text) ∨
          ∃ label children, (label, children) ∈ Html.Draft.elementsAll parser.assembly.nodes ∧
            label.isForeignVoid = true ∧ children ≠ [] ∧
            result = .error (.render (.voidContent label.name))) := by
  intro parser result
  obtain ⟨build, hresult⟩ : ∃ build : Unit → String, result =
      ((format.target.format calls format.style none (format.target.answer parser)).run.run {}).1.map
        build :=
    result_formatText (.text data) calls format
  refine ⟨fun digits hoverlong => ?_, fun hoverlong => ?_⟩
  · rw [hresult, Target.answer, hoverlong]
    exact ⟨_, rfl⟩
  · obtain ⟨drafts, hnodes, -⟩ := format.target.exists_drafts parser
    have hsupported : Dom.areSupported (format.target.nodes parser) = true := by
      rw [hnodes]
      exact Html.Draft.areSupported_toDoms drafts
    have hwritten := @Target.result_format_of_supported calls {} format.target format.style none _
      hnesting hsupported rfl
    rw [hresult, Target.answer, hoverlong]
    dsimp only
    rw [hwritten, Dom.check]
    cases hfind : (format.target.met (format.target.nodes parser)).find? Dom.isStuffed with
    | none => exact .inl ⟨_, rfl⟩
    | some node =>
        obtain ⟨label, children, hmem, hforeign, hchildren, hblame⟩ :=
          format.target.exists_foreign_of_isStuffed data.toList (List.mem_of_find?_eq_some hfind)
            (List.find?_some hfind)
        refine .inr ⟨label, children, hmem, hforeign, hchildren, ?_⟩
        rw [← hblame]
        rfl

/-- A foreign `input` that closes itself is written. -/
theorem formatText_refuses_only_foreign_elements_closed :
    ∃ text, (formatText (.text "<svg><input/>x") 5 { fragment := true }).1 = .ok text := by
  let format : Format := { fragment := true }
  have hread : 2 * Dom.nestingAll (format.target.nodes (format.target.parse "<svg><input/>x".toList)) <
        5 ∧
      (format.target.parse "<svg><input/>x".toList).overlong = none ∧
      ∀ entry ∈ Html.Draft.elementsAll
          (format.target.parse "<svg><input/>x".toList).assembly.nodes,
        entry.1.isForeignVoid = true → entry.2.isEmpty = true := by decide +kernel
  have hformat := formatText_refuses_only_foreign_elements "<svg><input/>x" format hread.1
  rcases hformat.2 hread.2.1 with hwritten | ⟨label, children, hmem, hforeign, hchildren, -⟩
  · exact hwritten
  · exact absurd (List.isEmpty_iff.mp (hread.2.2 _ hmem hforeign)) hchildren

def refusedTag? : Except Failure String → Option String
  | .error (.render (.voidContent tag)) => some tag
  | _ => none

/-- A text may be refused: in vector graphics an `input` has contents. -/
theorem formatText_refuses_input_in_svg :
    ¬ ∀ (data : String) (calls : Nat) (format : Format),
      2 * Dom.nestingAll (format.target.nodes (format.target.parse data.toList)) < calls →
        ∀ error, (formatText (.text data) calls format).1 ≠ .error (.render error) := by
  intro hnever
  let format : Format := { fragment := true }
  have hread : 2 * Dom.nestingAll (format.target.nodes (format.target.parse "<svg><input>x".toList)) <
        5 ∧
      refusedTag? (formatText (.text "<svg><input>x") 5 format).1 = some "input" := by decide +kernel
  obtain ⟨hnesting, hrefused⟩ := hread
  unfold refusedTag? at hrefused
  split at hrefused
  · next hresult => exact hnever _ 5 format hnesting _ hresult
  · cases hrefused

end Source

end HtmlLayout
