import HtmlLayout.Proofs.Places
import HtmlLayout.Proofs.Shape

/-!
# What a failed walk leaves in the output

A tree that cannot be written is written up to the node that is refused. Nothing of that node reaches
the output, and nothing that comes before it is missing or different. The second part is said by
comparison with a tree that has an empty text in the place of the node: its writes start with those of
the failed walk, followed by the empty write for that text. So no decision on the way looks ahead as
far as the fault, also where the node is the first child of its parent.

A walk that runs out of calls breaks off in the same way: what it has written is the start of what it
would write with calls enough.
-/

namespace HtmlLayout

namespace Node

theorem nestingAll_append (first rest : List Node) :
    nestingAll (first ++ rest) = max (nestingAll first) (nestingAll rest) :=
  rowwise_nestingAll.append Nat.zero_max Nat.max_assoc first rest

/-- A node that is refused fails at once. -/
theorem outline_of_isRefused {node : Node} (hrefused : node.isRefused = true) (depth : Nat) :
    node.outline depth = .fault node.blame := by
  cases node with
  | element tag attrs children =>
      obtain ⟨hvoid, hlead⟩ := Bool.and_eq_true_iff.mp hrefused
      rw [outline, if_pos hvoid, if_pos hlead]
      rfl
  | malformed message => rfl
  | unspecified => rfl
  | stray value => rfl
  | _ => cases hrefused

end Node

namespace Ancestor

theorem nesting_around_le {child other : Node} (hle : child.nesting ≤ other.nesting)
    (ancestor : Ancestor) : (ancestor.around child).nesting ≤ (ancestor.around other).nesting := by
  obtain ⟨_ | ⟨tag, attrs⟩, before, after⟩ := ancestor
  all_goals
    simp only [around, Node.nesting, Node.nestingAll_append, Node.nestingAll]
    omega

theorem nesting_le_plug (node : Node) (way : List Ancestor) :
    node.nesting ≤ (plug way node).nesting := by
  induction way with
  | nil => exact Nat.le_refl _
  | cons ancestor rest ih =>
      refine ih.trans ?_
      obtain ⟨_ | ⟨tag, attrs⟩, before, after⟩ := ancestor
      all_goals
        simp only [plug, around, Node.nesting, Node.nestingAll_append, Node.nestingAll]
        omega

theorem nesting_plug_le {node other : Node} (hle : node.nesting ≤ other.nesting)
    (way : List Ancestor) : (plug way node).nesting ≤ (plug way other).nesting := by
  induction way with
  | nil => exact hle
  | cons ancestor rest ih => exact nesting_around_le ih ancestor

/-! ### Where a walk fails -/

/-- The walk over a tree fails at the end of a way: of all that the visit meets, the node there is the
first that is refused. -/
def FailsAt (way : List Ancestor) (culprit node : Node) : Prop :=
  plug way culprit = node ∧
    node.visit.met.find? (fun entry => entry.2.isRefused) = some (place way, culprit)

/-- There is a way to the first node that is refused, and the walk gets to its end. -/
theorem exists_way_of_find? {node culprit : Node} {wanted : List Nat}
    (hfind : node.visit.met.find? (fun entry => entry.2.isRefused) = some (wanted, culprit)) :
    ∃ way, place way = wanted ∧ plug way culprit = node ∧ ∀ ancestor ∈ way, ancestor.IsPassed := by
  obtain ⟨-, earlier, later, hmet, hearlier⟩ := List.find?_eq_some_iff_append.mp hfind
  have hsound : ∀ entry ∈ earlier, entry.2.isRefused = false := by
    intro entry hentry
    simpa using hearlier entry hentry
  obtain ⟨way, hplace, hplug, hpassed, -⟩ := exists_way_of_met_eq hmet hsound
  exact ⟨way, hplace, hplug, hpassed⟩

theorem exists_failsAt {node : Node} {error : RenderError}
    (hverdict : Node.verdict node.visit = .error error) : ∃ way culprit, FailsAt way culprit node := by
  rw [Node.verdict, Visit.verdict] at hverdict
  cases hfind : node.visit.met.find? fun entry => entry.2.isRefused with
  | none =>
      rw [hfind] at hverdict
      cases hverdict
  | some entry =>
      obtain ⟨way, hplace, hplug, -⟩ := exists_way_of_find? hfind
      refine ⟨way, entry.2, hplug, ?_⟩
      rw [hfind, hplace]

namespace FailsAt

variable {way : List Ancestor} {culprit node : Node} (hfails : FailsAt way culprit node)
include hfails

theorem isRefused : culprit.isRefused = true := by
  have hfound := List.find?_some hfails.2
  exact hfound

theorem isPassed : ∀ ancestor ∈ way, ancestor.IsPassed := by
  obtain ⟨hplug, hfind⟩ := hfails
  obtain ⟨found, hplace, hfound, hpassed⟩ := exists_way_of_find? hfind
  obtain rfl : found = way := plug_injective hplace (hfound.trans hplug.symm)
  exact hpassed

/-- The outline of a tree that fails is what is written on the way to the node that is refused. -/
theorem outline_eq :
    node.outline 0 = { pieces := openedAll 0 way, ending := .error culprit.blame } := by
  have hfault := Node.outline_of_isRefused hfails.isRefused (depthAt 0 way)
  have hended : (culprit.outline (depthAt 0 way)).ending ≠ .ok .proceed := by
    rw [hfault]
    exact fun hok => by cases hok
  rw [← hfails.1, outline_plug hfails.isPassed hended, hfault]
  simp [Outline.fault]

/-- With an empty text in the place of the node that is refused, the same is written on the way, and
then the text. -/
theorem exists_pieces_eq :
    ∃ later, ((plug way (.text "")).outline 0).pieces =
      openedAll 0 way ++ .literal "" :: later := by
  have hempty : ∀ data, Node.text "" = .text data → data = "" := by
    rintro data ⟨⟩
    rfl
  obtain ⟨later, hlater⟩ := exists_outline_plug hfails.isPassed 0 hempty
  refine ⟨later.pieces, ?_⟩
  rw [hlater]
  rfl

end FailsAt

end Ancestor

namespace Style

/-- A failed walk leaves exactly the output of all that comes before the fault. There is a way to
the node where the walk fails, the first one on the visit that is refused. By itself that node fails
with the same error and writes nothing. What has been written then is the start tag of each element on
the way, with the children before on its level. Writing the tree with an empty text in the place of
the node starts with the same writes and the empty one, however it goes on. -/
theorem writeNode_keeps_output_before_fault (style : Style) {calls : Nat} {node : Node}
    {channel : Channel} {error : RenderError} (hnesting : node.nesting ≤ calls) (hroom : channel.room = none)
    (hfails : ((style.writeNode calls node).run.run channel).1 = .error (.render error)) :
    (∃ way culprit, Ancestor.FailsAt way culprit node) ∧
      ∀ way culprit, Ancestor.FailsAt way culprit node →
        let failed := ((style.writeNode calls node).run.run channel).2.writes.toList
        let mended :=
          ((style.writeNode calls (Ancestor.plug way (.text ""))).run.run channel).2.writes.toList
        (∀ depth, culprit.render style calls depth = throw (.render error)) ∧
          failed = channel.writes.toList ++ (Ancestor.openedAll 0 way).map (Piece.text style) ∧
          failed ++ [""] <+: mended := by
  have hrun := style.writeNode_of_room_none hnesting hroom
  have hending : (node.outline 0).ending = .error error := by
    rw [hrun, Outline.result] at hfails
    rcases hending : (node.outline 0).ending with found | flow
    · rw [hending] at hfails
      cases hfails
      rfl
    · rw [hending] at hfails
      cases hfails
  constructor
  · rw [node.ending_outline] at hending
    exact Ancestor.exists_failsAt hending
  · intro way culprit hat failed mended
    have houtline := hat.outline_eq
    have hblame : culprit.blame = error := by
      rw [houtline] at hending
      exact Except.error.inj hending
    have hfailed : failed =
        channel.writes.toList ++ (Ancestor.openedAll 0 way).map (Piece.text style) := by
      simp only [failed, hrun, houtline, Array.toList_append]
    refine ⟨?_, hfailed, ?_⟩
    · intro depth
      have hculprit : culprit.nesting ≤ calls := by
        refine le_trans ?_ hnesting
        rw [← hat.1]
        exact Ancestor.nesting_le_plug culprit way
      rw [Node.render_eq_outline style depth hculprit, Node.outline_of_isRefused hat.isRefused,
        hblame, Outline.run_fault]
    · have hlimit : (Ancestor.plug way (.text "")).nesting ≤ calls := by
        refine le_trans ?_ hnesting
        rw [← hat.1]
        exact Ancestor.nesting_plug_le (Nat.zero_le _) way
      obtain ⟨later, hlater⟩ := hat.exists_pieces_eq
      refine ⟨later.map (Piece.text style), ?_⟩
      rw [hfailed]
      simp only [mended, style.writeNode_of_room_none hlimit hroom, hlater]
      simp [Piece.text]

/-- A placeholder is the first child of preformatted text, before a text that starts with a newline. No
newline is saved for it, and the walk that finds an empty text there fails later on. -/
theorem writeNode_keeps_output_before_fault_in_pre :
    let before := [Node.element "p" [] [.text "a"]]
    let way : List Ancestor :=
      [⟨some ("div", []), before, [.unspecified]⟩, ⟨some ("pre", []), [], [.text "\nb"]⟩]
    let node := Ancestor.plug way (.malformed "x")
    let failed := ((Style.writeNode { indent := " " } defaultCalls node).run.run {}).2.writes.toList
    node.nesting ≤ defaultCalls ∧ Ancestor.FailsAt way (.malformed "x") node ∧
      ((Style.writeNode { indent := " " } defaultCalls node).run.run {}).1 =
        .error (.render (.malformed (.malformed "x"))) ∧
      failed = ["\n", "<div", ">", "\n ", "<p", ">", "a", "</p>", "\n ", "<pre", ">"] ∧
      failed ++ [""] <+: ((Style.writeNode { indent := " " } defaultCalls
        (Ancestor.plug way (.text ""))).run.run {}).2.writes.toList := by
  intro before way node failed
  have hnesting : node.nesting ≤ defaultCalls := by decide
  have hat : Ancestor.FailsAt way (.malformed "x") node := ⟨rfl, rfl⟩
  have hfails : ((Style.writeNode { indent := " " } defaultCalls node).run.run {}).1 =
      .error (.render (.malformed (.malformed "x"))) := by
    rw [Style.writeNode_of_room_none _ hnesting rfl]
    rfl
  obtain ⟨-, hall⟩ := writeNode_keeps_output_before_fault { indent := " " } hnesting rfl hfails
  obtain ⟨-, hfailed, hmended⟩ := hall way (.malformed "x") hat
  refine ⟨hnesting, hat, hfails, hfailed.trans ?_, hmended⟩
  decide +kernel

/-! ### Walks that run out of calls -/

/-- With fewer calls than a tree is nested deep, writing it does the same as with calls enough, or it
breaks off with a part of the outline written and nothing noted. -/
theorem writeNode_runs_out (style : Style) (calls : Nat) (node : Node) :
    style.writeNode calls node = style.writeNode node.nesting node ∨
      calls < node.nesting ∧ ∀ channel : Channel, channel.room = none →
        ∃ pieces, pieces <+: (node.outline 0).pieces ∧
          (style.writeNode calls node).run.run channel = (.error .tooDeep,
            { channel with writes := channel.writes ++ (pieces.map (Piece.text style)).toArray }) := by
  rcases node.walkScript_cutsOff style calls 0 with hwhole | ⟨hshort, hbroken, later, hlater⟩
  · refine .inl ?_
    rw [writeNode_eq_script, writeNode_eq_script, nodeScript, nodeScript, hwhole,
      Node.walkScript_of_nesting style 0 (Nat.le_refl _)]
  · refine .inr ⟨hshort, fun channel hroom => ?_⟩
    obtain ⟨pieces, others, hpieces, hactions, -⟩ := List.map_eq_append_iff.mp hlater.symm
    refine ⟨pieces, ⟨others, hpieces.symm⟩, ?_⟩
    have hscript : style.nodeScript calls node =
        { actions := pieces.map fun piece => .write (piece.text style), ending := .error .tooDeep } := by
      rw [nodeScript, Script.andThen, hbroken, hactions]
    rw [writeNode_eq_script, hscript]
    refine (Script.perform_of_room_none _ _ hroom).trans ?_
    simp [Channel.after, hroom]

example : ((Style.writeNode {} 3 (.element "div" [] [.text "a", .element "p" [] []])).run.run {}).2.writes =
    #["\n", "<div", ">", "a"] := by
  decide

end Style

end HtmlLayout
