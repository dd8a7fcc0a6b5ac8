import HtmlLayout.Proofs.Script
import HtmlLayout.Rendering

/-!
# The outline of a tree

What the walk writes for a tree depends on the style in one place only: the text of a line break.
The outline of a tree is the list of its writes with the line breaks left open, together with the
way the walk ends. `render_eq_outline` says that the walk writes exactly the outline, whatever the
style and the output, if it can open as many calls as the tree is nested deep. With fewer calls it may
break off, and what it has written then is the start of the outline, by `walkScript_cutsOff`. The
three operations follow scripts in either case. Everything else about writing a tree is read off the
outline.
-/

namespace HtmlLayout

/-- A write of the walk, with a line break known by its depth alone. -/
inductive Piece where
  | literal (text : String)
  | lineBreak (depth : Nat)
  deriving DecidableEq, Repr

namespace Piece

def text (style : Style) : Piece → String
  | literal text => text
  | lineBreak depth => style.lineBreak depth

def literals : List Piece → List String
  | [] => []
  | literal text :: rest => text :: literals rest
  | lineBreak _ :: rest => literals rest

@[simp] theorem literals_append (first rest : List Piece) :
    literals (first ++ rest) = literals first ++ literals rest := by
  fun_induction literals first with
  | case1 => rfl
  | case2 text more ih => simp [literals, ih]
  | case3 depth more ih => simp [literals, ih]

end Piece

/-- The writes of a walk and how it ends. -/
structure Outline where
  pieces : List Piece
  ending : Except RenderError Flow

namespace Outline

def of (pieces : List Piece) : Outline := { pieces, ending := .ok .proceed }

def fault (error : RenderError) : Outline := { pieces := [], ending := .error error }

def stopped : Outline := { pieces := [], ending := .ok .stop }

/-- One outline after another. The second is reached only if the walk goes on after the first. -/
def andThen (first next : Outline) : Outline :=
  match first.ending with
  | .ok .proceed => { pieces := first.pieces ++ next.pieces, ending := next.ending }
  | _ => first

def script (style : Style) (outline : Outline) : Script Flow :=
  { actions := outline.pieces.map fun piece => .write (piece.text style)
    ending := outline.ending.mapError .render }

def result (outline : Outline) : Except Failure Unit :=
  (outline.ending.mapError .render).map fun _ => ()

def stopRecord : Record :=
  { level := .debug, origin := originName renderingPart, message := stopMessage }

/-- The records of writing an outline. -/
def notes (outline : Outline) : List Record :=
  match outline.ending with
  | .ok .stop => [stopRecord]
  | _ => []

end Outline

namespace Node

def openingPieces (depth : Nat) (tag : String) (attrs : List Attribute) : List Piece :=
  (if Tag.isInline tag then [] else [.lineBreak depth]) ++ [.literal (startTag tag attrs)]

def bracketPieces (tag : String) (children : List Node) : List Piece :=
  .literal ">" :: if losesNewline tag children then [.literal "\n"] else []

def closingOutline (depth : Nat) (tag : String) (children : List Node) : Outline :=
  if tag == Tag.plaintext then .stopped
  else .of ((if closingBreak tag children then [.lineBreak depth] else []) ++ [.literal (endTag tag)])

def rawText? (raw : Bool) : Node → Option String
  | text data => if raw then some data else none
  | _ => none

mutual

/-- The outline of a node at a depth. -/
def outline (depth : Nat) : Node → Outline
  | document children => outlineAll depth false children
  | text data => .of [.literal (Text.escape data)]
  | comment data => .of [.literal (commentMarkup data)]
  | doctype declaration => .of [.literal declaration.markup]
  | malformed message => .fault (.malformed (malformed message))
  | unspecified => .fault (.unknown unspecified)
  | stray value => .fault (.unknown (stray value))
  | element tag attrs children =>
      if Tag.isVoid tag then
        if (leading? children).isSome then .fault (.voidContent tag)
        else .of (openingPieces depth tag attrs ++ [.literal "/>"])
      else
        (Outline.of (openingPieces depth tag attrs ++ bracketPieces tag children)).andThen
          ((outlineAll (depth + 1) (Tag.isRawText tag) children).andThen
            (closingOutline depth tag children))

def outlineAll (depth : Nat) (raw : Bool) : List Node → Outline
  | [] => .of []
  | node :: rest =>
      (match rawText? raw node with
      | some data => Outline.of [.literal data]
      | none => outline depth node).andThen (outlineAll depth raw rest)

end

end Node

@[simp] theorem Flow.proceed_andThen (next : Run Flow) : proceed.andThen next = next := rfl

namespace Script

/-- One walk after another. The second is reached only if the walk goes on after the first. -/
def followedBy (first next : Script Flow) : Script Flow :=
  first.andThen fun flow =>
    match flow with
    | .stop => .ended (.ok .stop)
    | .proceed => next

/-- A walk inside `needed` calls, out of those that are left. -/
def within (calls needed : Nat) (script : Script Flow) : Script Flow :=
  if calls < needed then .ended (.error .tooDeep) else script

@[simp] theorem run_followedBy (first next : Script Flow) :
    (first.followedBy next).run = first.run >>= fun flow => flow.andThen next.run := by
  rw [followedBy, run_andThen]
  refine bind_congr fun flow => ?_
  cases flow <;> rfl

theorem enter_eq_within {calls needed : Nat} {inside : Nat → Run Flow} {script : Script Flow}
    (hinside : inside (calls - needed) = script.run) :
    enter calls needed inside = (script.within calls needed).run := by
  unfold enter within
  split
  · rfl
  · exact hinside

end Script

namespace Outline

theorem script_andThen (style : Style) (first next : Outline) :
    (first.andThen next).script style = (first.script style).followedBy (next.script style) := by
  rcases first with ⟨pieces, _ | _ | _⟩ <;>
    simp [andThen, script, Script.followedBy, Script.andThen, Script.lead, Script.ended, Except.mapError]

@[simp] theorem run_of_nil (style : Style) : ((of []).script style).run = pure .proceed := rfl

@[simp] theorem run_of_literal (style : Style) (text : String) (rest : List Piece) :
    ((of (.literal text :: rest)).script style).run = write text >>= fun _ =>
    ((of rest).script style).run :=
  Script.run_lead_write text ((of rest).script style)

@[simp] theorem run_of_lineBreak (style : Style) (depth : Nat) (rest : List Piece) :
    ((of (.lineBreak depth :: rest)).script style).run =
      write (style.lineBreak depth) >>= fun _ => ((of rest).script style).run :=
  Script.run_lead_write (style.lineBreak depth) ((of rest).script style)

@[simp] theorem run_fault (style : Style) (error : RenderError) :
    ((fault error).script style).run = throw (.render error) := rfl

end Outline

/-! ### Walks with a limited number of calls -/

namespace Node

mutual

/-- The script of a walk that has a number of calls left to open. -/
def walkScript (style : Style) (calls depth : Nat) : Node → Script Flow
  | document children => (walkScriptAll style (calls - 1) depth false children).within calls 1
  | element tag attrs children =>
      Script.within calls 2
        (if Tag.isVoid tag then ((element tag attrs children).outline depth).script style
        else
          ((Outline.of (openingPieces depth tag attrs ++ bracketPieces tag children)).script
              style).followedBy
            ((walkScriptAll style (calls - 2) (depth + 1) (Tag.isRawText tag) children).followedBy
              ((closingOutline depth tag children).script style)))
  | leaf => (leaf.outline depth).script style

def walkScriptAll (style : Style) (calls depth : Nat) (raw : Bool) : List Node → Script Flow
  | [] => (Outline.of []).script style
  | node :: rest =>
      (match rawText? raw node with
      | some data => (Outline.of [.literal data]).script style
      | none => walkScript style calls depth node).followedBy (walkScriptAll style calls depth raw rest)

end

theorem run_closingOutline (style : Style) (depth : Nat) (tag : String) (children : List Node) :
    ((closingOutline depth tag children).script style).run =
      if tag == Tag.plaintext then pure .stop
      else (if closingBreak tag children then write (style.lineBreak depth) else pure ()) >>= fun _ =>
        write (endTag tag) >>= fun _ => pure .proceed := by
  unfold closingOutline
  split
  · rfl
  · cases closingBreak tag children <;> simp

mutual

/-- The walk follows its script. -/
theorem render_eq_walkScript (style : Style) (calls depth : Nat) (node : Node) :
    node.render style calls depth = (node.walkScript style calls depth).run := by
  cases node with
  | document children =>
      rw [render, walkScript]
      exact Script.enter_eq_within (renderAll_eq_walkScript style _ depth false children)
  | element tag attrs children =>
      have hchildren :=
        renderAll_eq_walkScript style (calls - 2) (depth + 1) (Tag.isRawText tag) children
      rw [render, walkScript]
      apply Script.enter_eq_within
      cases hvoid : Tag.isVoid tag with
      | true =>
          cases hlead : (leading? children).isSome <;> cases hinline : Tag.isInline tag <;>
            simp [outline, openingPieces, hvoid, hlead, hinline]
      | false =>
          cases hinline : Tag.isInline tag <;> cases hloses : losesNewline tag children <;>
            cases hbreak : closingBreak tag children <;>
            simp [openingPieces, bracketPieces, run_closingOutline, hchildren, hinline, hloses, hbreak]
  | _ => simp [render, walkScript, outline]

theorem renderAll_eq_walkScript (style : Style) (calls depth : Nat) (raw : Bool) (nodes : List Node) :
    renderAll style calls depth raw nodes = (walkScriptAll style calls depth raw nodes).run := by
  match nodes with
  | [] => rw [renderAll, walkScriptAll, Outline.run_of_nil]
  | node :: rest =>
      have hrest := renderAll_eq_walkScript style calls depth raw rest
      have hnode := render_eq_walkScript style calls depth node
      rw [walkScriptAll, Script.run_followedBy]
      cases node with
      | text data =>
          rw [renderAll, hrest]
          cases raw <;> simp [rawText?, walkScript, outline]
      | _ =>
          simp only [rawText?]
          rw [← hnode, ← hrest]
          rfl

end

end Node

/-! ### Walks that run out of calls -/

namespace Script

/-- A walk is another one as far as its calls go: it is the same, or, only if they are `short`, it
breaks off on the way. -/
def CutsOff (short : Prop) (cut whole : Script Flow) : Prop :=
  cut = whole ∨ short ∧ cut.ending = .error .tooDeep ∧ cut.actions <+: whole.actions

namespace CutsOff

variable {short other : Prop} {cut whole next nextWhole : Script Flow}

theorem mono (himp : short → other) (hcut : CutsOff short cut whole) : CutsOff other cut whole := by
  rcases hcut with rfl | ⟨hshort, hending, hactions⟩
  · exact .inl rfl
  · exact .inr ⟨himp hshort, hending, hactions⟩

theorem within {calls needed : Nat} (himp : calls < needed → short) (hcut : CutsOff short cut whole) :
    CutsOff short (cut.within calls needed) whole := by
  by_cases hneeded : calls < needed
  · rw [Script.within, if_pos hneeded]
    exact .inr ⟨himp hneeded, rfl, List.nil_prefix⟩
  · rwa [Script.within, if_neg hneeded]

theorem followedBy (hcut : CutsOff short cut whole) (hnext : CutsOff short next nextWhole) :
    CutsOff short (cut.followedBy next) (whole.followedBy nextWhole) := by
  rcases hcut with rfl | ⟨hshort, hending, hactions⟩
  · rcases hnext with rfl | ⟨hshort, hending, hactions⟩
    · exact .inl rfl
    · rcases cut with ⟨actions, failure | _ | _⟩
      · exact .inl rfl
      · exact .inr ⟨hshort, hending, List.prefix_append_right_inj actions |>.mpr hactions⟩
      · exact .inl rfl
  · have hbroken : cut.followedBy next = { actions := cut.actions, ending := .error .tooDeep } := by
      rw [Script.followedBy, andThen, hending]
    have hwhole : whole.actions <+: (whole.followedBy nextWhole).actions := by
      rcases whole with ⟨actions, failure | _ | _⟩
      · exact List.prefix_refl _
      · exact List.prefix_append _ _
      · exact List.prefix_append _ _
    rw [hbroken]
    exact .inr ⟨hshort, rfl, hactions.trans hwhole⟩

end CutsOff

end Script

namespace Node

mutual

/-- A walk with a limited number of calls writes the outline, unless the tree is nested deeper than
that; then it may break off, with a part of the outline written. -/
theorem walkScript_cutsOff (style : Style) (calls depth : Nat) (node : Node) :
    Script.CutsOff (calls < node.nesting) (node.walkScript style calls depth)
      ((node.outline depth).script style) := by
  cases node with
  | document children =>
      have hchildren := walkScriptAll_cutsOff style (calls - 1) depth false children
      rw [walkScript, outline, nesting]
      exact (hchildren.mono (by omega)).within (by omega)
  | element tag attrs children =>
      have hchildren :=
        walkScriptAll_cutsOff style (calls - 2) (depth + 1) (Tag.isRawText tag) children
      rw [walkScript, nesting]
      apply Script.CutsOff.within (by omega)
      split
      · exact .inl rfl
      · next hvoid =>
          rw [outline, if_neg hvoid, Outline.script_andThen, Outline.script_andThen]
          exact Script.CutsOff.followedBy (.inl rfl)
            ((hchildren.mono (by omega)).followedBy (.inl rfl))
  | _ => exact .inl rfl

theorem walkScriptAll_cutsOff (style : Style) (calls depth : Nat) (raw : Bool) (nodes : List Node) :
    Script.CutsOff (calls < nestingAll nodes) (walkScriptAll style calls depth raw nodes)
      ((outlineAll depth raw nodes).script style) := by
  match nodes with
  | [] => exact .inl rfl
  | node :: rest =>
      have hnode := walkScript_cutsOff style calls depth node
      have hrest := walkScriptAll_cutsOff style calls depth raw rest
      rw [walkScriptAll, outlineAll, Outline.script_andThen, nestingAll]
      refine Script.CutsOff.followedBy ?_ (hrest.mono (by omega))
      split
      · exact .inl rfl
      · exact hnode.mono (by omega)

end

theorem walkScript_of_nesting (style : Style) {calls : Nat} (depth : Nat) {node : Node}
    (hnesting : node.nesting ≤ calls) :
    node.walkScript style calls depth = (node.outline depth).script style := by
  rcases node.walkScript_cutsOff style calls depth with hsame | ⟨hshort, -⟩
  · exact hsame
  · omega

/-- The walk writes the outline. -/
theorem render_eq_outline (style : Style) {calls : Nat} (depth : Nat) {node : Node}
    (hnesting : node.nesting ≤ calls) :
    node.render style calls depth = ((node.outline depth).script style).run := by
  rw [render_eq_walkScript, walkScript_of_nesting style depth hnesting]

end Node

/-! ### The operations on a tree -/

namespace Style

variable {calls : Nat}

/-- What is done at the end of a walk. -/
def settleScript : Flow → Script Unit
  | .stop => { actions := [.note Outline.stopRecord], ending := .ok () }
  | .proceed => .ended (.ok ())

/-- The script of writing a tree. -/
def nodeScript (style : Style) (calls : Nat) (node : Node) : Script Unit :=
  (node.walkScript style calls 0).andThen settleScript

theorem nodeScript_of_nesting (style : Style) {node : Node} (hnesting : node.nesting ≤ calls) :
    style.nodeScript calls node =
      { actions :=
          (node.outline 0).pieces.map (fun piece => .write (piece.text style)) ++
            (node.outline 0).notes.map .note
        ending := (node.outline 0).result } := by
  rw [nodeScript, Node.walkScript_of_nesting style 0 hnesting]
  rcases node.outline 0 with ⟨pieces, _ | _ | _⟩ <;>
    simp [settleScript, Outline.script, Outline.notes, Outline.result, Script.andThen, Script.lead,
      Script.ended, Except.mapError, Except.map]

theorem ending_nodeScript (style : Style) (calls : Nat) (node : Node) :
    (style.nodeScript calls node).ending =
      (node.walkScript style calls 0).ending.map fun _ => () := by
  unfold nodeScript
  rcases node.walkScript style calls 0 with ⟨actions, _ | _ | _⟩ <;> rfl

def newlineScript : Script Unit := { actions := [.write "\n"], ending := .ok () }

def nodesScript (style : Style) (calls : Nat) : List Node → Script Unit
  | [] => .ended (.ok ())
  | node :: rest => (style.nodeScript calls node).andThen fun _ => style.nodesScript calls rest

theorem run_newlineScript : newlineScript.run = write "\n" := by
  have hlead : newlineScript.run = write "\n" >>= fun _ => (Script.ended (.ok ())).run :=
    Script.run_lead_write "\n" (.ended (.ok ()))
  rw [hlead, Script.run_ended_ok, bind_pure_unit]

theorem writeNode_eq_script (style : Style) (calls : Nat) (node : Node) :
    style.writeNode calls node = (style.nodeScript calls node).run := by
  rw [writeNode, nodeScript, Script.run_andThen, Node.render_eq_walkScript]
  refine bind_congr fun flow => ?_
  cases flow <;> rfl

theorem writeDocument_eq_script (style : Style) (calls : Nat) (root : Node) :
    style.writeDocument calls root =
      ((style.nodeScript calls root).andThen fun _ => newlineScript).run := by
  rw [writeDocument, Script.run_andThen, writeNode_eq_script, run_newlineScript]

theorem writeNodes_eq_script (style : Style) (calls : Nat) (nodes : List Node) :
    style.writeNodes calls nodes = (style.nodesScript calls nodes).run := by
  induction nodes with
  | nil => rfl
  | cons node rest ih => rw [writeNodes, nodesScript, Script.run_andThen, writeNode_eq_script, ih]

theorem writeFragment_eq_script (style : Style) (calls : Nat) (nodes : List Node) :
    style.writeFragment calls nodes =
      ((style.nodesScript calls nodes).andThen fun _ => newlineScript).run := by
  rw [writeFragment, Script.run_andThen, writeNodes_eq_script, run_newlineScript]

theorem writeNode_of_room_none (style : Style) {node : Node} (hnesting : node.nesting ≤ calls)
    {channel : Channel} (hroom : channel.room = none) :
    (style.writeNode calls node).run.run channel =
      ((node.outline 0).result,
        { channel with
          writes := channel.writes ++ ((node.outline 0).pieces.map (Piece.text style)).toArray
          records := channel.records ++ (node.outline 0).notes.toArray }) := by
  rw [writeNode_eq_script, style.nodeScript_of_nesting hnesting]
  refine (Script.perform_of_room_none _ _ hroom).trans ?_
  simp [Channel.after, hroom]

end Style

/-! ### Trees as text -/

namespace Text.Builder

theorem build_write (builder : Builder) (text : String) :
    (builder.write text).build = builder.build ++ text := by
  unfold write
  split
  · next hempty => simp [build, eq_of_beq hempty]
  · simp [build]

theorem build_takeAll (builder : Builder) (texts : List String) :
    (builder.takeAll texts).build = builder.build ++ String.join texts := by
  induction texts generalizing builder with
  | nil => simp [takeAll]
  | cons text rest ih =>
      have hrest := ih (builder.write text)
      rw [build_write] at hrest
      simpa [takeAll, String.append_assoc] using hrest

end Text.Builder

/-- A tree as text is its pieces in a row, unless the walk fails. -/
theorem Node.toText_eq_outline (style : Style) {calls : Nat} {node : Node}
    (hnesting : node.nesting ≤ calls) :
    node.toText calls style =
      ((node.outline 0).result.map fun _ =>
        String.join ((node.outline 0).pieces.map (Piece.text style)),
        (node.outline 0).notes.toArray) := by
  have hrun := @Style.writeNode_of_room_none calls style node hnesting {} rfl
  simp only [Node.toText, Run.toText, hrun, Text.Builder.build_takeAll]
  simp [Text.Builder.build]

end HtmlLayout
