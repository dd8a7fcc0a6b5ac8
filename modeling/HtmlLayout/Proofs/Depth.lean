import HtmlLayout.Proofs.Signs
import Mathlib.Data.List.Forall2

/-!
# Depth is a longer margin

A walk that starts at some depth writes what a walk from depth zero writes in a style whose margin
has the indentation of that depth at its end. The depth enters a line break only, and there the
margin stands right before the indentation. So the two walks agree step by step, down to the calls
they have left.

A tree can therefore be written piece by piece. The content of an element is what its children are
written as on their own, one step further in.
-/

namespace HtmlLayout

/-! ### Line breaks -/

namespace Style

/-- A style with the indentation of a depth at the end of its margin. -/
def indented (style : Style) (depth : Nat) : Style :=
  { style with margin := style.margin ++ style.indentation depth }

theorem indentation_add (style : Style) (outer depth : Nat) :
    style.indentation (outer + depth) = style.indentation outer ++ style.indentation depth := by
  induction outer with
  | zero => simp [indentation]
  | succ outer ih => rw [Nat.succ_add, indentation, indentation, ih, String.append_assoc]

theorem indentation_indented (style : Style) (outer depth : Nat) :
    (style.indented outer).indentation depth = style.indentation depth := by
  induction depth with
  | zero => rfl
  | succ depth ih => rw [indentation, indentation, ih]; rfl

theorem lineBreak_indented (style : Style) (outer depth : Nat) :
    (style.indented outer).lineBreak depth = style.lineBreak (outer + depth) := by
  rw [lineBreak, lineBreak, indentation_indented, indentation_add, indented]
  simp only [String.append_assoc]

end Style

/-! ### Walks -/

namespace Node

mutual

/-- A walk in a longer margin is the walk further in, however many calls it may open. -/
theorem render_indented (style : Style) (outer calls depth : Nat) (node : Node) :
    node.render (style.indented outer) calls depth = node.render style calls (outer + depth) := by
  cases node with
  | document children =>
      have hchildren := fun left => renderAll_indented style outer left depth false children
      simp only [render, hchildren]
  | element tag attrs children =>
      have hchildren := fun left =>
        renderAll_indented style outer left (depth + 1) (Tag.isRawText tag) children
      simp only [render, hchildren, style.lineBreak_indented, Nat.add_assoc]
  | _ => simp only [render]

theorem renderAll_indented (style : Style) (outer calls depth : Nat) (raw : Bool)
    (nodes : List Node) :
    renderAll (style.indented outer) calls depth raw nodes =
      renderAll style calls (outer + depth) raw nodes := by
  match nodes with
  | [] => simp only [renderAll]
  | node :: rest =>
      have hnode := render_indented style outer calls depth node
      have hrest := renderAll_indented style outer calls depth raw rest
      cases node with
      | text data => simp only [renderAll, hrest]
      | _ => simp only [renderAll, hnode, hrest]

end

theorem writes_outline_indented {style : Style} {outer : Nat} {node : Node} {text : List Char} :
    (node.outline 0).Writes (style.indented outer) text ↔ (node.outline outer).Writes style text := by
  have hrun := render_indented style outer node.nesting 0 node
  rw [Nat.add_zero, render_eq_outline _ _ (Nat.le_refl _), render_eq_outline _ _ (Nat.le_refl _)] at hrun
  obtain ⟨hending, hwrites⟩ := Script.eq_of_run_eq hrun
  have htexts := congrArg (List.flatMap String.toList) hwrites
  simp only [Outline.script, Action.writes_map_write, List.flatMap_map] at hending htexts
  have hend : (node.outline 0).ending = (node.outline outer).ending := by
    rcases hnear : (node.outline 0).ending with _ | _ <;>
      rcases hfar : (node.outline outer).ending with _ | _ <;>
      simp_all [Except.mapError]
  rw [Outline.Writes, Outline.Writes, htexts, hend]

/-! ### Content -/

theorem toText_eq_iff_writes {style : Style} {calls : Nat} {node : Node}
    (hnesting : node.nesting ≤ calls) {text : String} :
    node.toText calls style = (.ok text, #[]) ↔ (node.outline 0).Writes style text.toList := by
  rw [toText_eq_outline style hnesting]
  rcases node.outline 0 with ⟨pieces, _ | _ | _⟩ <;>
    simp [Outline.result, Outline.notes, Outline.Writes, Except.mapError, Except.map,
      ← String.toList_inj, List.flatMap_map]

theorem nesting_le_of_mem {node : Node} {nodes : List Node} (hnode : node ∈ nodes) :
    node.nesting ≤ nestingAll nodes := by
  induction nodes with
  | nil => cases hnode
  | cons first rest ih =>
      rcases List.mem_cons.mp hnode with rfl | hrest
      · exact Nat.le_max_left _ _
      · exact (ih hrest).trans (Nat.le_max_right _ _)

theorem writes_outlineAll {style : Style} {depth : Nat} {children : List Node} {texts : List String}
    (hchildren : List.Forall₂ (fun child text => (child.outline depth).Writes style text.toList)
      children texts) :
    (outlineAll depth false children).Writes style (String.join texts).toList := by
  induction hchildren with
  | nil => exact ⟨rfl, rfl⟩
  | @cons child text children texts hchild _ ih =>
      have hraw : rawText? false child = none := by cases child <;> rfl
      rw [outlineAll, hraw, String.join_cons, String.toList_append]
      exact hchild.andThen ih

theorem writes_element {style : Style} {depth : Nat} {tag : String} (attrs : List Attribute)
    {children : List Node} {content : List Char} (hvoid : Tag.isVoid tag = false)
    (hraw : Tag.isRawText tag = false)
    (hcontent : (outlineAll (depth + 1) false children).Writes style content) :
    ((element tag attrs children).outline depth).Writes style
      (leadBreak style depth tag ++ ((startTag tag attrs).toList ++
        '>' :: savingNewline tag children) ++
        (content ++ (endBreak style depth tag children ++ (endTag tag).toList))) := by
  have hplaintext : tag ≠ Tag.plaintext := by
    rintro rfl
    exact absurd hraw (by decide)
  have hopening := writes_opening style depth tag attrs (bracketPieces tag children)
  rw [text_bracketPieces] at hopening
  rw [outline, hvoid, hraw]
  exact hopening.andThen (hcontent.andThen (writes_closing style depth hplaintext children))

/-- Depth is a longer margin: whatever the output, a walk at a depth does what a walk from depth zero
does with the indentation of that depth in the margin. So what stands between the start tag of an
element, with the newline that is saved there, and its end tag, with the line break before it, is what
its children are written as one by one with one more indent in the margin. -/
theorem render_depth_is_margin (style : Style) (calls : Nat) :
    (∀ (depth : Nat) (node : Node),
      node.render style calls depth = node.render (style.indented depth) calls 0) ∧
    ∀ (tag : String) (attrs : List Attribute) (children : List Node) (texts : List String),
      Tag.isVoid tag = false → Tag.isRawText tag = false →
      (element tag attrs children).nesting ≤ calls →
      List.Forall₂ (fun child text =>
        child.toText calls { style with margin := style.margin ++ style.indent } = (.ok text, #[]))
        children texts →
      (element tag attrs children).toText calls style =
        (.ok ((if Tag.isInline tag then "" else style.lineBreak 0) ++ startTag tag attrs ++ ">" ++
          (if losesNewline tag children then "\n" else "") ++ String.join texts ++
          (if closingBreak tag children then style.lineBreak 0 else "") ++ endTag tag), #[]) := by
  refine ⟨fun depth node => (render_indented style depth calls 0 node).symm, ?_⟩
  intro tag attrs children texts hvoid hraw hnesting hchildren
  have hinner : { style with margin := style.margin ++ style.indent } = style.indented 1 := by
    simp [Style.indented, Style.indentation]
  have hwrites : List.Forall₂ (fun child text => (child.outline 1).Writes style text.toList)
      children texts := by
    rw [List.forall₂_iff_zip] at hchildren ⊢
    refine ⟨hchildren.1, fun {child text} hpair => ?_⟩
    have hlimit : child.nesting ≤ calls := by
      have hchild := nesting_le_of_mem (List.of_mem_zip hpair).1
      rw [nesting] at hnesting
      omega
    -- What a child is at depth zero in the longer margin it is at depth one in this one.
    have halone := (toText_eq_iff_writes hlimit).mp (hchildren.2 hpair)
    rw [hinner, writes_outline_indented] at halone
    exact halone
  rw [toText_eq_iff_writes hnesting]
  have hall := writes_element attrs hvoid hraw (writes_outlineAll hwrites)
  have hlead : (if Tag.isInline tag then "" else style.lineBreak 0).toList = leadBreak style 0 tag := by
    unfold leadBreak
    split <;> rfl
  have hsaving : (if losesNewline tag children then "\n" else "").toList =
      savingNewline tag children := by
    unfold savingNewline
    split <;> rfl
  have hend : (if closingBreak tag children then style.lineBreak 0 else "").toList =
      endBreak style 0 tag children := by
    unfold endBreak
    split <;> rfl
  simpa [hlead, hsaving, hend] using hall

/-- Preformatted text in a list item, at depth two: the newline in front of it is saved, and the line
breaks inside are those of the walk from depth zero. -/
theorem render_depth_is_margin_in_item :
    let style : Style := { margin := "| ", indent := "  " }
    let rule := element "hr" [] []
    let quoted := element "pre" [] [text "\na < b", rule]
    (∀ output : Channel, (quoted.render style defaultCalls 2).run.run output =
      (quoted.render { style with margin := "|     " } defaultCalls 0).run.run output) ∧
    rule.toText defaultCalls { style with margin := "|   " } = (.ok "\n|   <hr/>", #[]) ∧
    quoted.toText defaultCalls style = (.ok "\n| <pre>\n\na &lt; b\n|   <hr/></pre>", #[]) := by
  intro style rule quoted
  obtain ⟨hdepth, hcontent⟩ := render_depth_is_margin style defaultCalls
  have hrule : rule.toText defaultCalls { style with margin := "|   " } = (.ok "\n|   <hr/>", #[]) :=
    (toText_eq_iff_writes (by decide)).mpr ⟨rfl, by decide +kernel⟩
  have htext : (text "\na < b").toText defaultCalls { style with margin := "|   " } =
      (.ok "\na &lt; b", #[]) :=
    (toText_eq_iff_writes (by decide)).mpr ⟨rfl, by decide +kernel⟩
  refine ⟨fun output => ?_, hrule, ?_⟩
  · rw [hdepth 2 quoted]
    rfl
  · exact hcontent "pre" [] [text "\na < b", rule] _ rfl rfl (by decide)
      (.cons htext (.cons hrule .nil))

end Node

end HtmlLayout
