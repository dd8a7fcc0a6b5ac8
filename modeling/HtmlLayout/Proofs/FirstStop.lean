import HtmlLayout.Proofs.Places

/-!
# Documents and fragments

The children of a document and the nodes of a fragment are written by different loops. A `plaintext`
element ends the loop over the children of a document for good, while in a fragment it ends only the
node it stands in. So the two agree up to the first node in which the walk is stopped: a document is
written like the fragment of its children up to and including that one, with the same writes, the same
outcome and the same records in the same order, on whatever output.

A fragment is nothing more than its nodes, each written by itself, and a newline at the end unless one
of them fails.
-/

namespace HtmlLayout

namespace Action

theorem writes_flatMap {α : Type} (actions : α → List Action) (items : List α) :
    writes (items.flatMap actions) = items.flatMap fun item => writes (actions item) := by
  induction items with
  | nil => rfl
  | cons item rest ih => rw [List.flatMap_cons, writes_append, ih, List.flatMap_cons]

theorem notes_flatMap {α : Type} (actions : α → List Action) (items : List α) :
    notes (items.flatMap actions) = items.flatMap fun item => notes (actions item) := by
  induction items with
  | nil => rfl
  | cons item rest ih => rw [List.flatMap_cons, notes_append, ih, List.flatMap_cons]

end Action

namespace Script

variable {α β : Type}

theorem andThen_of_ok {script : Script α} {value : α} (hending : script.ending = .ok value)
    (next : α → Script β) : script.andThen next = (next value).lead script.actions := by
  rw [andThen, hending]

theorem andThen_of_error {script : Script α} {failure : Failure}
    (hending : script.ending = .error failure) (next : α → Script β) :
    script.andThen next = { actions := script.actions, ending := .error failure } := by
  rw [andThen, hending]

theorem andThen_ended (script : Script Unit) : (script.andThen fun _ => ended (.ok ())) = script := by
  rcases script with ⟨actions, failure | value⟩
  · rfl
  · simp [andThen, lead, ended]

end Script

/-! ### How a node ends by itself -/

namespace Node

/-- How the walk over a node ends by itself, on an empty output without a limit. -/
def ownEnding (style : Style) (calls : Nat) (node : Node) : Except Failure Flow :=
  ((node.render style calls 0).run.run {}).1

theorem ownEnding_eq_ok {style : Style} {calls : Nat} {node : Node} (hnesting : node.nesting ≤ calls)
    {flow : Flow} : node.ownEnding style calls = .ok flow ↔ (node.outline 0).ending = .ok flow := by
  have hrun : (node.render style calls 0).run.run {} =
      Script.perform ((node.outline 0).script style).ending ((node.outline 0).script style).actions
        {} := by
    rw [render_eq_outline style 0 hnesting]
    rfl
  have hending : node.ownEnding style calls = (node.outline 0).ending.mapError .render := by
    rw [ownEnding, hrun, Script.perform_of_room_none _ _ rfl]
    rfl
  rw [hending]
  cases (node.outline 0).ending <;> simp [Except.mapError]

end Node

namespace Style

/-- The number of the first of some nodes in which the walk is stopped, none before it being at
fault. -/
def StopsFirstAt (style : Style) (calls : Nat) (nodes : List Node) (number : Nat) : Prop :=
  ∃ before node after, nodes = before ++ node :: after ∧ before.length = number ∧
    (∀ earlier ∈ before, earlier.ownEnding style calls = .ok .proceed) ∧
    node.ownEnding style calls = .ok .stop

variable {style : Style} {calls : Nat} {node : Node} {rest : List Node}

theorem StopsFirstAt.cons {number : Nat} (hnode : node.ownEnding style calls = .ok .proceed)
    (hrest : style.StopsFirstAt calls rest number) :
    style.StopsFirstAt calls (node :: rest) (number + 1) := by
  obtain ⟨before, last, after, rfl, rfl, hbefore, hlast⟩ := hrest
  refine ⟨node :: before, last, after, rfl, rfl, ?_, hlast⟩
  exact List.forall_mem_cons.mpr ⟨hnode, hbefore⟩

/-! ### The script of a document -/

theorem outline_document_cons (node : Node) (rest : List Node) :
    (Node.document (node :: rest)).outline 0 =
      (node.outline 0).andThen ((Node.document rest).outline 0) := by
  cases node <;> rfl

section Document

variable (hnesting : (Node.document (node :: rest)).nesting ≤ calls)
include hnesting

theorem nesting_le_of_document_cons :
    node.nesting ≤ calls ∧ (Node.document rest).nesting ≤ calls := by
  rw [Node.nesting, Node.nestingAll] at hnesting
  rw [Node.nesting]
  omega

theorem nodeScript_document_of_proceed (hnode : (node.outline 0).ending = .ok .proceed) :
    style.nodeScript calls (.document (node :: rest)) =
      (style.nodeScript calls node).andThen fun _ => style.nodeScript calls (.document rest) := by
  obtain ⟨hfirst, hothers⟩ := nesting_le_of_document_cons hnesting
  rw [style.nodeScript_of_nesting hfirst, style.nodeScript_of_nesting hothers,
    style.nodeScript_of_nesting hnesting, outline_document_cons, Outline.andThen_of_proceed hnode]
  simp [Script.andThen, Script.lead, Outline.result, Outline.notes, hnode, Except.map, Except.mapError]

theorem nodeScript_document_of_ended (hnode : (node.outline 0).ending ≠ .ok .proceed) :
    style.nodeScript calls (.document (node :: rest)) = style.nodeScript calls node := by
  obtain ⟨hfirst, -⟩ := nesting_le_of_document_cons hnesting
  rw [style.nodeScript_of_nesting hfirst, style.nodeScript_of_nesting hnesting,
    outline_document_cons, Outline.andThen_of_ended hnode]

theorem nodeScript_document_of_error {error : RenderError}
    (hnode : (node.outline 0).ending = .error error) :
    style.nodeScript calls (.document (node :: rest)) = style.nodesScript calls (node :: rest) := by
  obtain ⟨hfirst, -⟩ := nesting_le_of_document_cons hnesting
  have hending : (style.nodeScript calls node).ending = .error (.render error) := by
    rw [style.nodeScript_of_nesting hfirst, Outline.result, hnode]
    rfl
  rw [nodeScript_document_of_ended hnesting (by simp [hnode]), nodesScript,
    Script.andThen_of_error hending, ← hending]

end Document

/-- A document in which the walk is stopped has the script of the nodes up to there. -/
theorem nodeScript_document_of_stopsFirstAt {nodes : List Node} {number : Nat}
    (hnesting : (Node.document nodes).nesting ≤ calls)
    (hstops : style.StopsFirstAt calls nodes number) :
    style.nodeScript calls (.document nodes) = style.nodesScript calls (nodes.take (number + 1)) := by
  obtain ⟨before, last, after, rfl, rfl, hbefore, hlast⟩ := hstops
  induction before with
  | nil =>
      obtain ⟨hfirst, -⟩ := nesting_le_of_document_cons hnesting
      have hended : (last.outline 0).ending ≠ .ok .proceed := by
        rw [(Node.ownEnding_eq_ok hfirst).mp hlast]
        simp
      rw [List.nil_append, nodeScript_document_of_ended hnesting hended]
      exact (Script.andThen_ended _).symm
  | cons node before ih =>
      obtain ⟨hnode, hothers⟩ := List.forall_mem_cons.mp hbefore
      rw [List.cons_append] at hnesting ⊢
      obtain ⟨hfirst, hlater⟩ := nesting_le_of_document_cons hnesting
      have hproceed := (Node.ownEnding_eq_ok hfirst).mp hnode
      rw [nodeScript_document_of_proceed hnesting hproceed, ih hlater hothers]
      rfl

/-- A document in which no walk is stopped before a fault has the script of its children. -/
theorem nodeScript_document_of_not_stopsFirstAt {nodes : List Node}
    (hnesting : (Node.document nodes).nesting ≤ calls)
    (hnone : ∀ number, ¬style.StopsFirstAt calls nodes number) :
    style.nodeScript calls (.document nodes) = style.nodesScript calls nodes := by
  induction nodes with
  | nil => exact style.nodeScript_of_nesting hnesting
  | cons node rest ih =>
      obtain ⟨hfirst, hlater⟩ := nesting_le_of_document_cons hnesting
      rcases hending : (node.outline 0).ending with error | _ | _
      · exact nodeScript_document_of_error hnesting hending
      · have hnode : node.ownEnding style calls = .ok .proceed :=
          (Node.ownEnding_eq_ok hfirst).mpr hending
        have hbelow := ih hlater fun number hrest => hnone (number + 1) (hrest.cons hnode)
        rw [nodeScript_document_of_proceed hnesting hending, hbelow]
        rfl
      · have hnode : node.ownEnding style calls = .ok .stop :=
          (Node.ownEnding_eq_ok hfirst).mpr hending
        exact absurd ⟨[], node, rest, rfl, rfl, List.forall_mem_nil _, hnode⟩ (hnone 0)

/-! ### The script of a fragment -/

/-- Nodes that are written well come one after the other. -/
theorem nodesScript_append (style : Style) (calls : Nat) {before : List Node}
    (hbefore : ∀ node ∈ before, (style.nodeScript calls node).ending = .ok ()) (rest : List Node) :
    style.nodesScript calls (before ++ rest) =
      (style.nodesScript calls rest).lead (before.flatMap fun node => (style.nodeScript calls node).actions) := by
  induction before with
  | nil => rfl
  | cons node before ih =>
      obtain ⟨hnode, hothers⟩ := List.forall_mem_cons.mp hbefore
      rw [List.cons_append, nodesScript, Script.andThen_of_ok hnode, ih hothers, List.flatMap_cons]
      simp [Script.lead]

/-- What a node does by itself, on an empty output without a limit. -/
def alone (style : Style) (calls : Nat) (node : Node) : Except Failure Unit × Channel :=
  (style.writeNode calls node).run.run {}

/-- The writes of nodes that are written one by one. -/
def writesOf (style : Style) (calls : Nat) (nodes : List Node) : List String :=
  nodes.flatMap fun node => (style.alone calls node).2.writes.toList

/-- The records of nodes that are written one by one. -/
def recordsOf (style : Style) (calls : Nat) (nodes : List Node) : List Record :=
  nodes.flatMap fun node => (style.alone calls node).2.records.toList

theorem alone_eq (style : Style) (calls : Nat) (node : Node) :
    style.alone calls node =
      ((style.nodeScript calls node).ending, ({} : Channel).after (style.nodeScript calls node).actions) := by
  rw [alone, writeNode_eq_script]
  exact Script.perform_of_room_none _ _ rfl

theorem writesOf_eq (style : Style) (calls : Nat) (nodes : List Node) :
    style.writesOf calls nodes = Action.writes (nodes.flatMap fun node => (style.nodeScript calls node).actions) := by
  simp [writesOf, alone_eq, Action.writes_flatMap, Channel.after]

theorem recordsOf_eq (style : Style) (calls : Nat) (nodes : List Node) :
    style.recordsOf calls nodes = Action.notes (nodes.flatMap fun node => (style.nodeScript calls node).actions) := by
  simp [recordsOf, alone_eq, Action.notes_flatMap, Channel.after]

theorem writeFragment_of_room_none (style : Style) (calls : Nat) (nodes : List Node) {channel : Channel}
    (hroom : channel.room = none) :
    (style.writeFragment calls nodes).run.run channel =
      (((style.nodesScript calls nodes).andThen fun _ => newlineScript).ending,
        channel.after ((style.nodesScript calls nodes).andThen fun _ => newlineScript).actions) := by
  rw [writeFragment_eq_script]
  exact Script.perform_of_room_none _ _ hroom

/-- A fragment of nodes that are written well ends with a newline. -/
theorem writeFragment_of_ok {nodes : List Node}
    (hnodes : ∀ node ∈ nodes, (style.alone calls node).1 = .ok ()) {channel : Channel}
    (hroom : channel.room = none) :
    (style.writeFragment calls nodes).run.run channel =
      (.ok (), { channel with
        writes := channel.writes ++ (style.writesOf calls nodes ++ ["\n"]).toArray
        records := channel.records ++ (style.recordsOf calls nodes).toArray }) := by
  have hending : ∀ node ∈ nodes, (style.nodeScript calls node).ending = .ok () := by
    simpa only [alone_eq] using hnodes
  have hscript := style.nodesScript_append calls hending []
  rw [List.append_nil] at hscript
  rw [style.writeFragment_of_room_none calls nodes hroom, hscript, Script.andThen_of_ok rfl,
    writesOf_eq, recordsOf_eq]
  simp [Channel.after, hroom, Script.lead, nodesScript, newlineScript, Script.ended]

/-- A fragment ends with the first node that fails. -/
theorem writeFragment_of_error {before : List Node} {failure : Failure}
    (hbefore : ∀ earlier ∈ before, (style.alone calls earlier).1 = .ok ())
    (hnode : (style.alone calls node).1 = .error failure) (after : List Node) {channel : Channel}
    (hroom : channel.room = none) :
    (style.writeFragment calls (before ++ node :: after)).run.run channel =
      (.error failure, { channel with
        writes := channel.writes ++ (style.writesOf calls (before ++ [node])).toArray
        records := channel.records ++ (style.recordsOf calls (before ++ [node])).toArray }) := by
  have hending : ∀ earlier ∈ before, (style.nodeScript calls earlier).ending = .ok () := by
    simpa only [alone_eq] using hbefore
  have hfails : (style.nodeScript calls node).ending = .error failure := by
    simpa only [alone_eq] using hnode
  have hlast : style.nodesScript calls (node :: after) =
      { actions := (style.nodeScript calls node).actions, ending := .error failure } := by
    rw [nodesScript, Script.andThen_of_error hfails]
  rw [style.writeFragment_of_room_none calls _ hroom, style.nodesScript_append calls hending, hlast,
    Script.andThen_of_error rfl, writesOf_eq, recordsOf_eq]
  simp [Channel.after, hroom, Script.lead]

/-! ### Documents and fragments -/

/-- A document is written like the fragment of its children up to the first in which the walk is
stopped, none before it being at fault, and like the fragment of all its children if there is no such
child. That holds on every output: the writes, the outcome and the records are the same. A fragment in
turn is written like its nodes one by one, also behind a node in which the walk was stopped. If all are
written well, a newline comes last. Otherwise it ends with the first that fails, and there is no
newline. -/
theorem writeDocument_eq_fragment_through_stop (style : Style) (calls : Nat) (nodes : List Node) :
    ((Node.document nodes).nesting ≤ calls →
      (∀ number, style.StopsFirstAt calls nodes number →
        style.writeDocument calls (.document nodes) = style.writeFragment calls (nodes.take (number + 1))) ∧
      ((∀ number, ¬style.StopsFirstAt calls nodes number) →
        style.writeDocument calls (.document nodes) = style.writeFragment calls nodes)) ∧
    ∀ channel : Channel, channel.room = none →
      let run := (style.writeFragment calls nodes).run.run channel
      ((∀ node ∈ nodes, (style.alone calls node).1 = .ok ()) →
        run = (.ok (), { channel with
          writes := channel.writes ++ (style.writesOf calls nodes ++ ["\n"]).toArray
          records := channel.records ++ (style.recordsOf calls nodes).toArray })) ∧
      ∀ before node after failure, nodes = before ++ node :: after →
        (∀ earlier ∈ before, (style.alone calls earlier).1 = .ok ()) →
        (style.alone calls node).1 = .error failure →
        run = (.error failure, { channel with
          writes := channel.writes ++ (style.writesOf calls (before ++ [node])).toArray
          records := channel.records ++ (style.recordsOf calls (before ++ [node])).toArray }) := by
  constructor
  · intro hnesting
    constructor
    · intro number hstops
      rw [writeDocument_eq_script, nodeScript_document_of_stopsFirstAt hnesting hstops,
        ← writeFragment_eq_script]
    · intro hnone
      rw [writeDocument_eq_script, nodeScript_document_of_not_stopsFirstAt hnesting hnone,
        ← writeFragment_eq_script]
  · intro channel hroom run
    constructor
    · intro hnodes
      exact writeFragment_of_ok hnodes hroom
    · rintro before node after failure rfl hbefore hnode
      exact writeFragment_of_error hbefore hnode after hroom

/-- The second node holds a `plaintext` element and the last one is a placeholder. The document gets as
far as the second node, the fragment gets to the placeholder. -/
theorem writeDocument_eq_fragment_through_stop_before_fault :
    let stopped := Node.element "div" []
      [.element "plaintext" [] [.text "x"], .malformed "never reached"]
    let before := [.text "a", stopped, .element "p" [] []]
    let nodes := before ++ [.malformed "met"]
    let style : Style := {}
    let written := ["a", "\n", "<div", ">", "\n", "<plaintext", ">", "x", "\n", "<p", ">", "</p>"]
    (Node.document nodes).nesting ≤ defaultCalls ∧ style.StopsFirstAt defaultCalls nodes 1 ∧
      style.writeDocument defaultCalls (.document nodes) = style.writeFragment defaultCalls [.text "a", stopped] ∧
      (∀ earlier ∈ before, (style.alone defaultCalls earlier).1 = .ok ()) ∧
      (style.alone defaultCalls (.malformed "met")).1 = .error (.render (.malformed (.malformed "met"))) ∧
      (style.writeFragment defaultCalls nodes).run.run {} =
        (.error (.render (.malformed (.malformed "met"))),
          { writes := written.toArray, records := #[Outline.stopRecord] }) ∧
      (style.writeFragment defaultCalls before).run.run {} =
        (.ok (), { writes := (written ++ ["\n"]).toArray, records := #[Outline.stopRecord] }) := by
  intro stopped before nodes style written
  have hnesting : (Node.document nodes).nesting ≤ defaultCalls := by decide
  have hstops : style.StopsFirstAt defaultCalls nodes 1 := by
    refine ⟨[.text "a"], stopped, [.element "p" [] [], .malformed "met"], rfl, rfl, ?_, ?_⟩
    · rintro _ (_ | ⟨_, ⟨⟩⟩)
      exact (Node.ownEnding_eq_ok (by decide)).mpr rfl
    · exact (Node.ownEnding_eq_ok (by decide)).mpr rfl
  have hbefore : ∀ earlier ∈ before, (style.alone defaultCalls earlier).1 = .ok () := by
    simp only [before, List.forall_mem_cons, alone_eq]
    exact ⟨rfl, rfl, rfl, List.forall_mem_nil _⟩
  have hfails : (style.alone defaultCalls (.malformed "met")).1 =
      .error (.render (.malformed (.malformed "met"))) := by
    rw [alone_eq]
    rfl
  obtain ⟨hdocument, hfragment⟩ := writeDocument_eq_fragment_through_stop style defaultCalls nodes
  obtain ⟨-, hgood⟩ := writeDocument_eq_fragment_through_stop style defaultCalls before
  have hall : style.writesOf defaultCalls nodes = written ∧ style.recordsOf defaultCalls nodes = [Outline.stopRecord] := by
    rw [writesOf_eq, recordsOf_eq]
    decide +kernel
  have hmost : style.writesOf defaultCalls before = written ∧ style.recordsOf defaultCalls before = [Outline.stopRecord] := by
    rw [writesOf_eq, recordsOf_eq]
    decide +kernel
  refine ⟨hnesting, hstops, (hdocument hnesting).1 1 hstops, hbefore, hfails, ?_, ?_⟩
  · refine ((hfragment {} rfl).2 before _ [] _ rfl hbefore hfails).trans ?_
    rw [hall.1, hall.2]
    rfl
  · refine ((hgood {} rfl).1 hbefore).trans ?_
    rw [hmost.1, hmost.2]
    rfl

end Style

end HtmlLayout
