import HtmlLayout.Proofs.Places

/-!
# What follows a `plaintext` element

Once a `plaintext` element has been written, nothing that comes after it in document order makes a
difference. What is written is the start tag of each element on the way to it, with all that comes
before on that level, then the start tag and the content of the `plaintext` element. That is all: no
end tag of the element or of one around it, and no look at what follows, be it faulty or not.
-/

namespace HtmlLayout

/-! ### The `plaintext` element -/

namespace Node

/-- The writes for a `plaintext` element: its start tag and its content, with the texts as they are. -/
def plaintextPieces (depth : Nat) (attrs : List Attribute) (children : List Node) : List Piece :=
  openingPieces depth Tag.plaintext attrs ++
    .literal ">" :: (outlineAll (depth + 1) true children).pieces

theorem outline_plaintext {attrs : List Attribute} {children : List Node}
    (hsound : ∀ entry ∈ (element Tag.plaintext attrs children).visit.met,
      entry.2.isRefused = false) (depth : Nat) :
    (element Tag.plaintext attrs children).outline depth =
      { pieces := plaintextPieces depth attrs children, ending := .ok .stop } := by
  have hvoid : Tag.isVoid Tag.plaintext = false := by decide
  have hending : (outlineAll (depth + 1) true children).ending = .ok (visitAll 0 children).flow := by
    rw [ending_outlineAll (depth + 1) true 0, verdict_of_sound]
    intro entry hentry
    refine hsound entry ?_
    rw [visit, if_neg (by simp [hvoid])]
    exact List.mem_cons_of_mem _ hentry
  have hbracket : bracketPieces Tag.plaintext children = [.literal ">"] := by
    have hkeeps : Tag.dropsNewline Tag.plaintext = false := by decide
    simp [bracketPieces, losesNewline, hkeeps]
  have hraw : Tag.isRawText Tag.plaintext = true := by decide
  rw [outline, if_neg (by simp [hvoid]), hraw, hbracket, Outline.andThen_of_proceed rfl]
  cases hflow : (visitAll 0 children).flow with
  | stop =>
      rw [hflow] at hending
      rw [Outline.andThen_of_ended (by simp [hending]), hending]
      simp [Outline.of, plaintextPieces]
  | proceed =>
      rw [hflow] at hending
      rw [Outline.andThen_of_proceed hending]
      simp [Outline.of, plaintextPieces, closingOutline, Outline.stopped]

end Node

namespace Ancestor

/-- What is written for a tree with a `plaintext` element at the end of a way does not depend on what
comes after it. -/
theorem outline_plug_plaintext {way other : List Ancestor} {attrs : List Attribute}
    {children : List Node} (hpast : other.map past = way.map past)
    (hpassed : ∀ ancestor ∈ way, ancestor.IsPassed)
    (hsound : ∀ entry ∈ (Node.element Tag.plaintext attrs children).visit.met,
      entry.2.isRefused = false) :
    (plug other (.element Tag.plaintext attrs children)).outline 0 =
      { pieces := openedAll 0 way ++ Node.plaintextPieces (depthAt 0 way) attrs children
        ending := .ok .stop } := by
  obtain ⟨hpieces, hdepth⟩ := openedAll_congr hpast 0
  have hown := Node.outline_plaintext hsound (depthAt 0 other)
  rw [outline_plug (isPassed_congr hpast hpassed) (by simp [hown]), hown, hpieces, hdepth]

end Ancestor

namespace Style

/-- Take a tree and a `plaintext` element in it that is met on a visit on which nothing is refused.
Change the tree in any way after that element: among its later siblings, and among the later siblings
of what lies around it. Writing the tree goes as before, whatever the style and the output: it makes
the same writes, ends well and notes the stop once. The writes are the start tag of each element on
the way, with what comes before on its level, and then the start tag and the content of the
`plaintext` element. There is no end tag of it or of an element around it. -/
theorem writeNode_ignores_rest_after_plaintext {calls : Nat} {node changed : Node}
    {way other : List Ancestor} {attrs : List Attribute} {children : List Node}
    (hnode : Ancestor.plug way (.element Tag.plaintext attrs children) = node)
    (hchanged : Ancestor.plug other (.element Tag.plaintext attrs children) = changed)
    (hpast : other.map Ancestor.past = way.map Ancestor.past)
    (hmet : (Ancestor.place way, .element Tag.plaintext attrs children) ∈ node.visit.met)
    (hsound : ∀ entry ∈ node.visit.met, entry.2.isRefused = false)
    (hnesting : node.nesting ≤ calls) (hlimit : changed.nesting ≤ calls)
    (style : Style) (channel : Channel) :
    let own := Node.plaintextPieces (Ancestor.depthAt 0 way) attrs children
    let after := (style.writeNode calls changed).run.run channel
    after = (style.writeNode calls node).run.run channel ∧
      (channel.room = none →
        after = (.ok (), { channel with
          writes := channel.writes ++
            ((Ancestor.openedAll 0 way ++ own).map (Piece.text style)).toArray
          records := channel.records.push Outline.stopRecord }) ∧
        after.2.writes.back? = (own.map (Piece.text style)).getLast?) := by
  intro own after
  obtain ⟨found, hplace, hfound, hpassed, hinner⟩ := Ancestor.exists_way_of_mem_visit hmet hsound
  obtain rfl : found = way := Ancestor.plug_injective hplace (hfound.trans hnode.symm)
  have houtline : changed.outline 0 =
      { pieces := Ancestor.openedAll 0 found ++ own, ending := .ok .stop } := by
    rw [← hchanged]
    exact Ancestor.outline_plug_plaintext hpast hpassed hinner
  have hsame : changed.outline 0 = node.outline 0 := by
    rw [houtline, ← hnode]
    exact (Ancestor.outline_plug_plaintext rfl hpassed hinner).symm
  constructor
  · have hscript : style.nodeScript calls changed = style.nodeScript calls node := by
      rw [style.nodeScript_of_nesting hlimit, style.nodeScript_of_nesting hnesting, hsame]
    rw [writeNode_eq_script, ← hscript, ← writeNode_eq_script]
  · intro hroom
    have hrun : after = (.ok (), { channel with
        writes := channel.writes ++
          ((Ancestor.openedAll 0 found ++ own).map (Piece.text style)).toArray
        records := channel.records.push Outline.stopRecord }) := by
      refine (style.writeNode_of_room_none hlimit hroom).trans ?_
      rw [houtline]
      rfl
    have hwritten : own.map (Piece.text style) ≠ [] := by simp [own, Node.plaintextPieces]
    refine ⟨hrun, ?_⟩
    rw [hrun, List.map_append, Array.back?_append, List.back?_toArray, List.getLast?_append,
      List.getLast?_eq_some_getLast hwritten, Option.some_or, Option.some_or]

/-- A `plaintext` element in a script, with a list item after it in one tree. In the other there are a
null, a placeholder, a line break that is not empty and a node of no kind. -/
theorem writeNode_ignores_rest_after_plaintext_in_script :
    let own := Node.element Tag.plaintext [{ key := "id", value := "x" }]
      [.text "<p", .element "b" [] [.text "&"]]
    let before := [Node.element "p" [] [.text "a"]]
    let way : List Ancestor :=
      [⟨none, [], []⟩, ⟨some ("ul", []), before, [.element "li" [] []]⟩, ⟨some ("script", []), [], []⟩]
    let other : List Ancestor :=
      [⟨none, [], [.unspecified]⟩, ⟨some ("ul", []), before, [.element "br" [] [.text "x"]]⟩,
        ⟨some ("script", []), [], [.stray .null, .malformed "never reached"]⟩]
    let node := Ancestor.plug way own
    let changed := Ancestor.plug other own
    other.map Ancestor.past = way.map Ancestor.past ∧ ([0, 1, 0], own) ∈ node.visit.met ∧
      (∀ entry ∈ node.visit.met, entry.2.isRefused = false) ∧ node.nesting ≤ defaultCalls ∧
      changed.nesting ≤ defaultCalls ∧
      (∀ (style : Style) (channel : Channel),
        (style.writeNode defaultCalls changed).run.run channel =
          (style.writeNode defaultCalls node).run.run channel) ∧
      (Style.writeNode { indent := " " } defaultCalls changed).run.run {} =
        (.ok (), {
          writes := #["\n", "<ul", ">", "\n ", "<p", ">", "a", "</p>", "\n ", "<script", ">", "\n  ",
            "<plaintext id=\"x\"", ">", "<p", "<b", ">", "&amp;", "</b>"]
          records := #[Outline.stopRecord] }) := by
  intro own before way other node changed
  have hsound : ∀ entry ∈ node.visit.met, entry.2.isRefused = false := by decide
  have hnesting : node.nesting ≤ defaultCalls := by decide
  have hlimit : changed.nesting ≤ defaultCalls := by decide
  have hmet : ([0, 1, 0], own) ∈ node.visit.met :=
    .tail _ (.tail _ (.tail _ (.tail _ (.tail _ (.head _)))))
  have hall := fun style channel => @writeNode_ignores_rest_after_plaintext defaultCalls node changed
    way other _ _ rfl rfl rfl hmet hsound hnesting hlimit style channel
  refine ⟨rfl, hmet, hsound, hnesting, hlimit, fun style channel => (hall style channel).1, ?_⟩
  have hwrites : (Ancestor.openedAll 0 way ++ Node.plaintextPieces (Ancestor.depthAt 0 way)
        [{ key := "id", value := "x" }] [.text "<p", .element "b" [] [.text "&"]]).map
          (Piece.text { indent := " " }) =
      ["\n", "<ul", ">", "\n ", "<p", ">", "a", "</p>", "\n ", "<script", ">", "\n  ",
        "<plaintext id=\"x\"", ">", "<p", "<b", ">", "&amp;", "</b>"] := by
    decide +kernel
  rw [((hall { indent := " " } {}).2 rfl).1, hwrites]
  rfl

end Style

end HtmlLayout
