import HtmlLayout.Proofs.Outline
import Mathlib.Data.List.Find

/-!
# The first fault of a tree

A visit goes through a tree in document order, does not look below a void element, and ends with the
last child of the first `plaintext` element. It knows nothing of styles, writes or failures; it only
lists what it meets, each node with its place. Writing a tree fails exactly if the visit meets a
node that is refused, and then with the error of the first such node, whatever the style and whatever
else is wrong further on. If nothing is refused, the visit also tells whether the stop is noted.

A void element is refused for the node that leads its children. A null in first place does not count
as one, so a void element whose children start with a null is written, although it is not empty.
-/

namespace HtmlLayout

/-- What a visit meets, in order, and whether a `plaintext` element has ended it. -/
structure Visit (α : Type) where
  met : List α
  flow : Flow

/-- How one thing after another ends. The second counts only if the first says to go on. -/
def Flow.then {ε : Type} (first next : Except ε Flow) : Except ε Flow :=
  match first with
  | .ok .proceed => next
  | ended => ended

namespace Visit

variable {α β ε : Type}

def map (f : α → β) (visit : Visit α) : Visit β := { visit with met := visit.met.map f }

/-- One visit after another. The second is made only if nothing has ended the first. -/
def andThen (first next : Visit α) : Visit α :=
  match first.flow with
  | .stop => first
  | .proceed => { met := first.met ++ next.met, flow := next.flow }

theorem mem_of_mem_andThen {first next : Visit α} {x : α} (hx : x ∈ (first.andThen next).met) :
    x ∈ first.met ∨ x ∈ next.met := by
  unfold andThen at hx
  split at hx
  · exact .inl hx
  · exact List.mem_append.mp hx

/-- How a walk along a visit ends if some of what is met is refused. -/
def verdict (refused : α → Bool) (blame : α → ε) (visit : Visit α) : Except ε Flow :=
  match visit.met.find? refused with
  | some x => .error (blame x)
  | none => .ok visit.flow

theorem verdict_map (refused : β → Bool) (blame : β → ε) (f : α → β) (visit : Visit α) :
    (visit.map f).verdict refused blame = visit.verdict (refused ∘ f) (blame ∘ f) := by
  unfold verdict map
  rw [List.find?_map]
  cases visit.met.find? (refused ∘ f) <;> rfl

theorem verdict_andThen (refused : α → Bool) (blame : α → ε) (first next : Visit α) :
    (first.andThen next).verdict refused blame =
      Flow.then (first.verdict refused blame) (next.verdict refused blame) := by
  obtain ⟨met, flow⟩ := first
  cases flow with
  | stop =>
      unfold andThen verdict
      cases met.find? refused <;> rfl
  | proceed =>
      simp only [andThen, verdict, List.find?_append]
      cases met.find? refused <;> rfl

theorem verdict_lead {refused : α → Bool} {x : α} (hx : refused x = false) (blame : α → ε)
    (visit : Visit α) (flow : Flow → Flow) :
    verdict refused blame { met := x :: visit.met, flow := flow visit.flow } =
      (visit.verdict refused blame).map flow := by
  simp only [verdict, List.find?_cons, hx]
  cases visit.met.find? refused <;> rfl

end Visit

namespace Node

mutual

/-- The visit of a tree. A place is the way down to a node: the numbers of the children on it. -/
def visit : Node → Visit (List Nat × Node)
  | document children =>
      let below := visitAll 0 children
      { below with met := ([], document children) :: below.met }
  | element tag attrs children =>
      if Tag.isVoid tag then { met := [([], element tag attrs children)], flow := .proceed }
      else
        let below := visitAll 0 children
        { met := ([], element tag attrs children) :: below.met
          flow := if tag == Tag.plaintext then .stop else below.flow }
  | node => { met := [([], node)], flow := .proceed }

def visitAll (number : Nat) : List Node → Visit (List Nat × Node)
  | [] => { met := [], flow := .proceed }
  | node :: rest =>
      (node.visit.map fun entry => (number :: entry.1, entry.2)).andThen (visitAll (number + 1) rest)

end

/-- Whether a node cannot be written, its children apart. -/
def isRefused : Node → Bool
  | malformed _ => true
  | unspecified => true
  | stray _ => true
  | element tag _ children => Tag.isVoid tag && (leading? children).isSome
  | _ => false

/-- The error of a node that is refused. -/
def blame : Node → RenderError
  | malformed message => .malformed (malformed message)
  | element tag _ _ => .voidContent tag
  | node => .unknown node

/-- How a walk over nodes has to end by their visit. -/
def verdict (visit : Visit (List Nat × Node)) : Except RenderError Flow :=
  visit.verdict (fun entry => entry.2.isRefused) fun entry => entry.2.blame

theorem verdict_visitAll_cons (number : Nat) (node : Node) (rest : List Node) :
    verdict (visitAll number (node :: rest)) =
      Flow.then (verdict node.visit) (verdict (visitAll (number + 1) rest)) := by
  have hplaces : verdict (node.visit.map fun entry => (number :: entry.1, entry.2)) =
      verdict node.visit := Visit.verdict_map ..
  rw [← hplaces, visitAll]
  exact Visit.verdict_andThen ..

theorem verdict_visit_of_isVoid {tag : String} (hvoid : Tag.isVoid tag = true)
    (attrs : List Attribute) (children : List Node) :
    verdict (element tag attrs children).visit =
      if (leading? children).isSome then .error (.voidContent tag) else .ok .proceed := by
  cases hlead : (leading? children).isSome <;>
    simp [visit, verdict, Visit.verdict, isRefused, blame, hvoid, hlead]

theorem verdict_visit_of_not_isVoid {tag : String} (hvoid : Tag.isVoid tag = false)
    (attrs : List Attribute) (children : List Node) :
    verdict (element tag attrs children).visit =
      (verdict (visitAll 0 children)).map fun flow =>
        if tag == Tag.plaintext then .stop else flow := by
  have hpassed : (element tag attrs children).isRefused = false := by simp [isRefused, hvoid]
  rw [visit, if_neg (by simp [hvoid])]
  exact @Visit.verdict_lead _ _ (fun entry : List Nat × Node => entry.2.isRefused)
    ([], element tag attrs children) hpassed (fun entry => entry.2.blame) (visitAll 0 children)
    fun flow => if tag == Tag.plaintext then .stop else flow

end Node

namespace Outline

theorem ending_andThen (first next : Outline) :
    (first.andThen next).ending = Flow.then first.ending next.ending := by
  rcases first with ⟨pieces, _ | _ | _⟩ <;> rfl

end Outline

namespace Node

theorem ending_closingOutline (depth : Nat) (tag : String) (children : List Node) :
    (closingOutline depth tag children).ending =
      .ok (if tag == Tag.plaintext then .stop else .proceed) := by
  unfold closingOutline
  split <;> rfl

mutual

/-- The walk over a tree ends as its visit says, at every depth. -/
theorem ending_outline (depth : Nat) (node : Node) :
    (node.outline depth).ending = verdict node.visit := by
  cases node with
  | document children =>
      rw [outline, visit, ending_outlineAll depth false 0 children]
      rfl
  | element tag attrs children =>
      rw [outline]
      cases hvoid : Tag.isVoid tag with
      | true =>
          rw [verdict_visit_of_isVoid hvoid, if_pos rfl]
          split <;> rfl
      | false =>
          have hbelow := ending_outlineAll (depth + 1) (Tag.isRawText tag) 0 children
          rw [verdict_visit_of_not_isVoid hvoid, if_neg Bool.false_ne_true, Outline.ending_andThen,
            Outline.ending_andThen, hbelow, ending_closingOutline]
          rcases verdict (visitAll 0 children) with error | flow
          · rfl
          · cases flow <;> simp [Outline.of, Flow.then, Except.map]
  | text data => rfl
  | comment data => rfl
  | doctype declaration => rfl
  | malformed message => rfl
  | unspecified => rfl
  | stray value => rfl

theorem ending_outlineAll (depth : Nat) (raw : Bool) (number : Nat) (nodes : List Node) :
    (outlineAll depth raw nodes).ending = verdict (visitAll number nodes) := by
  match nodes with
  | [] => rfl
  | node :: rest =>
      have hrest := ending_outlineAll depth raw (number + 1) rest
      rw [outlineAll, Outline.ending_andThen, verdict_visitAll_cons, hrest]
      cases node with
      | text data => cases raw <;> rfl
      | _ =>
          rw [← ending_outline depth]
          rfl

end

/-! ### Faulty nodes -/

/-- A node that has no markup: a placeholder, something that is no node of a known kind, or a void
element that is not empty. -/
def isFaulty : Node → Bool
  | malformed _ => true
  | unspecified => true
  | stray _ => true
  | element tag _ children => Tag.isVoid tag && !children.isEmpty
  | _ => false

/-- A void element whose children start with a null. -/
def startsWithNull : Node → Bool
  | element tag _ (stray .null :: _) => Tag.isVoid tag
  | _ => false

theorem isRefused_eq_isFaulty {node : Node} (hnull : node.startsWithNull = false) :
    node.isRefused = node.isFaulty := by
  cases node with
  | element tag attrs children =>
      cases children with
      | nil => simp [isRefused, isFaulty, leading?]
      | cons child rest =>
          rcases child with _ | _ | _ | _ | _ | _ | _ | value
          case stray => cases value <;> simp_all [isRefused, isFaulty, leading?, startsWithNull]
          all_goals simp [isRefused, isFaulty, leading?]
  | _ => rfl

end Node

namespace Style

variable {calls : Nat} {node : Node} {channel : Channel}

/-- The outcome of writing a tree, and the records it adds, by the visit of the tree. -/
theorem writeNode_eq_verdict (style : Style) (hnesting : node.nesting ≤ calls)
    (hroom : channel.room = none) :
    let after := (style.writeNode calls node).run.run channel
    match Node.verdict node.visit with
    | .error error => after.1 = .error (.render error) ∧ after.2.records = channel.records
    | .ok flow => after.1 = .ok () ∧ after.2.records =
        channel.records ++ if flow = .stop then #[Outline.stopRecord] else #[] := by
  rw [style.writeNode_of_room_none hnesting hroom, Outline.result, Outline.notes,
    node.ending_outline 0]
  rcases Node.verdict node.visit with error | _ | _ <;> simp [Except.map, Except.mapError]

/-- Writing a tree fails exactly at the first faulty node that its visit meets, provided that no void
element on the way has a null as its first child. The error is that of the node: a placeholder and
something unknown are handed back, and a void element that is not empty is told by its tag. A visit
that meets no faulty node is written to its end, and a record says so if it was stopped. -/
theorem writeNode_fails_at_first_fault (style : Style) (hnesting : node.nesting ≤ calls)
    (hnull : ∀ entry ∈ node.visit.met, entry.2.startsWithNull = false)
    (hroom : channel.room = none) :
    let after := (style.writeNode calls node).run.run channel
    ((∃ error, after.1 = .error (.render error)) ↔ ∃ entry ∈ node.visit.met, entry.2.isFaulty = true) ∧
      (∀ entry, node.visit.met.find? (fun entry => entry.2.isFaulty) = some entry →
        after.1 = .error (.render entry.2.blame)) ∧
      ((∀ entry ∈ node.visit.met, entry.2.isFaulty = false) →
        after.1 = .ok () ∧ after.2.records =
          channel.records ++ if node.visit.flow = .stop then #[Outline.stopRecord] else #[]) ∧
      (∀ met, (RenderError.malformed met).message = "html: cannot render an ErrorNode node") ∧
      ∀ met, (RenderError.unknown met).message = "html: unknown node type" := by
  intro after
  have hfault : ∀ entry ∈ node.visit.met, entry.2.isRefused = entry.2.isFaulty :=
    fun entry hentry => Node.isRefused_eq_isFaulty (hnull entry hentry)
  have hfirst : node.visit.met.find? (fun entry => entry.2.isRefused) =
      node.visit.met.find? fun entry => entry.2.isFaulty := List.find?_congr hfault
  have hverdict := writeNode_eq_verdict style hnesting hroom
  rw [Node.verdict, Visit.verdict, hfirst] at hverdict
  cases hfind : node.visit.met.find? fun entry => entry.2.isFaulty with
  | some entry =>
      rw [hfind] at hverdict
      have hmem := List.mem_of_find?_eq_some hfind
      have hfaulty := List.find?_some hfind
      refine ⟨⟨fun _ => ⟨entry, hmem, hfaulty⟩, fun _ => ⟨_, hverdict.1⟩⟩, ?_, ?_, ?_, ?_⟩
      · rintro other ⟨⟩
        exact hverdict.1
      · intro hnone
        rw [hnone entry hmem] at hfaulty
        exact absurd hfaulty Bool.false_ne_true
      · exact fun met => rfl
      · exact fun met => rfl
  | none =>
      rw [hfind] at hverdict
      have hnone : ∀ entry ∈ node.visit.met, entry.2.isFaulty = false := by
        simpa using hfind
      refine ⟨⟨?_, ?_⟩, ?_, fun _ => hverdict, fun met => rfl, fun met => rfl⟩
      · rintro ⟨error, herror⟩
        rw [hverdict.1] at herror
        cases herror
      · rintro ⟨entry, hmem, hfaulty⟩
        rw [hnone entry hmem] at hfaulty
        exact absurd hfaulty Bool.false_ne_true
      · intro entry hentry
        cases hentry

/-- A void element below raw text, with a placeholder after it: the void element comes first. -/
theorem writeNode_fails_at_first_fault_below_script :
    let node := Node.element "div" []
      [.element "br" [] [],
        .element "script" [] [.text "<", .element "img" [] [.text "x", .stray .null]],
        .malformed "never reached"]
    node.nesting ≤ defaultCalls ∧ (∀ entry ∈ node.visit.met, entry.2.startsWithNull = false) ∧
      ∀ style : Style,
        ((style.writeNode defaultCalls node).run.run {}).1 = .error (.render (.voidContent "img")) := by
  intro node
  have hnesting : node.nesting ≤ defaultCalls := by decide
  have hnull : ∀ entry ∈ node.visit.met, entry.2.startsWithNull = false := by decide
  refine ⟨hnesting, hnull, fun style => ?_⟩
  have hfirst := (@writeNode_fails_at_first_fault defaultCalls node {} style hnesting hnull rfl).2.1
  exact hfirst ([1, 1], .element "img" [] [.text "x", .stray .null]) rfl

/-- A line break whose only child is a null is not empty, and it is written all the same. -/
theorem writeNode_passes_null_in_void :
    let node := Node.element "br" [] [.stray .null]
    node.nesting ≤ defaultCalls ∧ (∃ entry ∈ node.visit.met, entry.2.isFaulty = true) ∧
      ∀ style : Style,
        (style.writeNode defaultCalls node).run.run {} = (.ok (), { writes := #["<br", "/>"] }) := by
  refine ⟨by decide, ⟨([], .element "br" [] [.stray .null]), ?_, by decide⟩, fun style => ?_⟩
  · exact List.mem_singleton_self _
  · exact (style.writeNode_of_room_none (by decide) rfl).trans rfl

end Style

end HtmlLayout
