import HtmlLayout.Formatting
import HtmlLayout.Proofs.Conversion
import HtmlLayout.Proofs.Faults

/-!
# Formatting a delivered document tree

Whatever document tree a reader delivers, formatting can fail in two ways only. A node of a kind that
has no counterpart ends it before anything is written, wherever in the tree it stands. If there is
none, only void elements can fail, namely those that still hold something once the tree is in normal
form. The visit of a document tree finds the first of them: it goes through the tree as delivered and
ends with the first `plaintext` element, for a document once and for all, for a fragment within the
node of the fragment that holds it.
-/

namespace HtmlLayout

namespace Dom

/-! ### Visits of document trees -/

def isEmptyText : Dom → Bool
  | text data => data == ""
  | _ => false

/-- A void element with a child that stays when the tree is put in normal form. -/
def isStuffed : Dom → Bool
  | element tag _ children => Tag.isVoid tag && children.any fun child => !child.isEmptyText
  | _ => false

theorem exists_of_isStuffed {node : Dom} (hnode : node.isStuffed = true) :
    ∃ tag attrs children, node = element tag attrs children := by
  cases node with
  | element tag attrs children => exact ⟨tag, attrs, children, rfl⟩
  | _ => cases hnode

def blame : Dom → RenderError
  | element tag _ _ => .voidContent tag
  | _ => .voidContent ""

mutual

/-- All nodes in document order, up to the end of the first `plaintext` element. -/
def visit : Dom → Visit Dom
  | element tag attrs children =>
      let below := visitAll children
      { met := element tag attrs children :: below.met
        flow := if tag == Tag.plaintext then .stop else below.flow }
  | leaf => { met := [leaf], flow := .proceed }

def visitAll : List Dom → Visit Dom
  | [] => { met := [], flow := .proceed }
  | node :: rest => (visit node).andThen (visitAll rest)

end

def verdict (visit : Visit Dom) : Except RenderError Flow := visit.verdict isStuffed blame

/-! ### Conversion node by node -/

theorem convertAll_cons_eq_ok {node : Dom} {rest : List Dom} {nodes : List Node}
    (hnodes : convertAll (node :: rest) = .ok nodes) :
    ∃ made others, convert node = .ok made ∧ convertAll rest = .ok others ∧
      nodes = made :: others := by
  rw [convertAll] at hnodes
  cases hmade : convert node with
  | error kind => rw [hmade] at hnodes; cases hnodes
  | ok made =>
      cases hothers : convertAll rest with
      | error kind => rw [hmade, hothers] at hnodes; cases hnodes
      | ok others =>
          rw [hmade, hothers] at hnodes
          cases hnodes
          exact ⟨made, others, rfl, rfl, rfl⟩

theorem convert_element_eq_ok {tag : String} {attrs : List Attr} {children : List Dom} {made : Node}
    (hmade : convert (element tag attrs children) = .ok made) :
    ∃ nodes, convertAll children = .ok nodes ∧
      made = .element tag (attrs.map Attr.toAttribute) nodes := by
  rw [convert] at hmade
  cases hnodes : convertAll children with
  | error kind => rw [hnodes] at hmade; cases hmade
  | ok nodes =>
      rw [hnodes] at hmade
      cases hmade
      exact ⟨nodes, rfl, rfl⟩

section Summary

variable {τ : Type} {combine : τ → τ → τ} {ofNode : Node → τ} {ofDom : Dom → τ}

/-- A text that is put before others adds nothing to a summary that passes over texts. -/
theorem exists_convertAll_of_joinText
    (htext : ∀ data rest, combine (ofNode (.text data)) rest = rest) (last : τ)
    {data : String} {rest : List Dom} {nodes : List Node}
    (hnodes : convertAll (joinText data rest) = .ok nodes) :
    ∃ others, convertAll rest = .ok others ∧
      nodes.foldr (fun node => combine (ofNode node)) last =
        others.foldr (fun node => combine (ofNode node)) last := by
  unfold joinText at hnodes
  split at hnodes
  · exact ⟨nodes, hnodes, rfl⟩
  · split at hnodes
    · next next others =>
        obtain ⟨made, more, hmade, hmore, rfl⟩ := convertAll_cons_eq_ok hnodes
        cases hmade
        refine ⟨.text next :: more, ?_, ?_⟩
        · rw [convertAll, hmore]
          rfl
        · rw [List.foldr_cons, List.foldr_cons, htext, htext]
    · obtain ⟨made, more, hmade, hmore, rfl⟩ := convertAll_cons_eq_ok hnodes
      cases hmade
      exact ⟨more, hmore, by rw [List.foldr_cons, htext]⟩

/-- A summary of nodes in a row that passes over texts is the summary of the document tree they come
from, if it is so for every node by itself. -/
theorem foldr_convertAll (htext : ∀ data rest, combine (ofNode (.text data)) rest = rest)
    (hdom : ∀ data rest, combine (ofDom (.text data)) rest = rest) (last : τ) {siblings : List Dom}
    (hsame : ∀ node ∈ siblings, ∀ made, convert (normalize node) = .ok made →
      ofNode made = ofDom node)
    {nodes : List Node} (hnodes : convertAll (normalizeAll siblings) = .ok nodes) :
    nodes.foldr (fun node => combine (ofNode node)) last =
      siblings.foldr (fun node => combine (ofDom node)) last := by
  induction siblings generalizing nodes with
  | nil =>
      cases hnodes
      rfl
  | cons node rest ih =>
      obtain ⟨hnode, hrest⟩ := List.forall_mem_cons.mp hsame
      have hother : normalizeAll (node :: rest) = normalize node :: normalizeAll rest →
          nodes.foldr (fun node => combine (ofNode node)) last =
            (node :: rest).foldr (fun node => combine (ofDom node)) last := by
        intro hnormal
        rw [hnormal] at hnodes
        obtain ⟨made, others, hmade, hothers, rfl⟩ := convertAll_cons_eq_ok hnodes
        rw [List.foldr_cons, List.foldr_cons, hnode made hmade, ih hrest hothers]
      cases node with
      | text data =>
          rw [normalizeAll] at hnodes
          obtain ⟨others, hothers, hfold⟩ := exists_convertAll_of_joinText htext last hnodes
          rw [hfold, List.foldr_cons, hdom, ih hrest hothers]
      | element tag attrs children => exact hother (by simp [normalizeAll])
      | cdata data => exact hother (by simp [normalizeAll])
      | comment data => exact hother (by simp [normalizeAll])
      | doctype name publicId systemId => exact hother (by simp [normalizeAll])
      | other kind => exact hother (by simp [normalizeAll])

end Summary

/-! ### What stays in normal form -/

theorem normalizeAll_eq_nil_iff (siblings : List Dom) :
    normalizeAll siblings = [] ↔ ∀ node ∈ siblings, node.isEmptyText = true := by
  induction siblings with
  | nil => simp [normalizeAll]
  | cons node rest ih =>
      cases node with
      | text data =>
          by_cases hempty : data = ""
          · simp [normalizeAll, joinText, isEmptyText, hempty, ih]
          · have hjoin : joinText data (normalizeAll rest) ≠ [] := by
              unfold joinText
              split
              · next h => exact absurd (eq_of_beq h) hempty
              · split <;> simp
            simp [normalizeAll, hjoin, isEmptyText, hempty]
      | _ => simp [normalizeAll, isEmptyText]

theorem isSome_leading?_of_convertAll {siblings : List Dom} {nodes : List Node}
    (hnodes : convertAll siblings = .ok nodes) :
    (Node.leading? nodes).isSome = !siblings.isEmpty := by
  cases siblings with
  | nil =>
      cases hnodes
      rfl
  | cons node rest =>
      obtain ⟨made, others, hmade, -, rfl⟩ := convertAll_cons_eq_ok hnodes
      cases node with
      | element tag attrs children =>
          obtain ⟨below, -, rfl⟩ := convert_element_eq_ok hmade
          rfl
      | other kind => cases hmade
      | _ =>
          cases hmade
          rfl

/-- A void element is refused if and only if something in it stays. -/
theorem isRefused_eq_isStuffed {tag : String} {attrs : List Attr} {children : List Dom} {made : Node}
    (hmade : convert (normalize (element tag attrs children)) = .ok made) :
    made.isRefused = (element tag attrs children).isStuffed := by
  rw [normalize] at hmade
  obtain ⟨nodes, hnodes, rfl⟩ := convert_element_eq_ok hmade
  have hempty : (normalizeAll children).isEmpty = !children.any fun child => !child.isEmptyText := by
    rw [Bool.eq_iff_iff, List.isEmpty_iff, normalizeAll_eq_nil_iff]
    simp
  rw [Node.isRefused, isStuffed, isSome_leading?_of_convertAll hnodes, hempty, Bool.not_not]

end Dom

namespace Node

/-- How writing a tree ends on an output without a limit. -/
def outcome (node : Node) : Except RenderError Unit := (verdict node.visit).map fun _ => ()

/-- How writing trees one by one ends. -/
def outcomeAll (nodes : List Node) : Except RenderError Unit :=
  nodes.foldr (fun node rest => node.outcome >>= fun _ => rest) (.ok ())

/-- The number that a row starts with does not matter, since the outline knows none. -/
theorem rowwise_verdict : Rowwise (fun nodes => verdict (visitAll 0 nodes))
    (fun node => verdict node.visit) Flow.then (.ok .proceed) where
  nil := rfl
  cons node rest := by
    rw [verdict_visitAll_cons, ← ending_outlineAll 0 false 1 rest, ending_outlineAll 0 false 0 rest]

end Node

namespace Dom

theorem rowwise_verdict : Rowwise (fun siblings => verdict (visitAll siblings))
    (fun node => verdict node.visit) Flow.then (.ok .proceed) where
  nil := rfl
  cons _ _ := Visit.verdict_andThen ..

theorem verdict_convertAll {siblings : List Dom} {nodes : List Node}
    (hsame : ∀ node ∈ siblings, ∀ made, convert (normalize node) = .ok made →
      Node.verdict made.visit = verdict node.visit)
    (hnodes : convertAll (normalizeAll siblings) = .ok nodes) :
    Node.verdict (Node.visitAll 0 nodes) = verdict (visitAll siblings) := by
  refine (Node.rowwise_verdict.eq_foldr nodes).trans ?_
  rw [foldr_convertAll (fun _ _ => rfl) (fun _ _ => rfl) _ hsame hnodes]
  exact (rowwise_verdict.eq_foldr siblings).symm

mutual

/-- A node ends the walk as the part of the document tree that it comes from says. -/
theorem verdict_convert (node : Dom) {made : Node} (hmade : convert (normalize node) = .ok made) :
    Node.verdict made.visit = verdict node.visit := by
  cases node with
  | element tag attrs children =>
      have hrefused := isRefused_eq_isStuffed hmade
      rw [normalize] at hmade
      obtain ⟨nodes, hnodes, rfl⟩ := convert_element_eq_ok hmade
      have hbelow : Node.verdict (Node.visitAll 0 nodes) = verdict (visitAll children) :=
        verdict_convertAll (forall_verdict_convert children) hnodes
      cases hvoid : Tag.isVoid tag with
      | false =>
          have hpassed : (element tag attrs children).isStuffed = false := by simp [isStuffed, hvoid]
          rw [Node.verdict_visit_of_not_isVoid hvoid, hbelow]
          exact (Visit.verdict_lead hpassed blame (visitAll children) _).symm
      | true =>
          rw [Node.verdict_visit_of_isVoid hvoid]
          rw [Node.isRefused, hvoid, Bool.true_and] at hrefused
          rw [hrefused]
          cases hstuffed : (element tag attrs children).isStuffed with
          | true => simp [visit, verdict, Visit.verdict, hstuffed, blame]
          | false =>
              -- Nothing stays in the element, so nothing below it is met that counts.
              have hempty := isSome_leading?_of_convertAll hnodes
              rw [hrefused, hstuffed, eq_comm, Bool.not_eq_false', List.isEmpty_iff] at hempty
              rw [hempty] at hnodes
              cases hnodes
              have htag : (tag == Tag.plaintext) = false := by
                refine beq_false_of_ne fun hplain => ?_
                rw [hplain] at hvoid
                exact absurd hvoid (by decide)
              have hself := Visit.verdict_lead hstuffed blame (visitAll children) fun flow => flow
              rw [visit, htag]
              exact (hself.trans (by rw [← verdict, ← hbelow]; rfl)).symm
  | text data => cases hmade; rfl
  | cdata data => cases hmade; rfl
  | comment data => cases hmade; rfl
  | doctype name publicId systemId => cases hmade; rfl
  | other kind => cases hmade

theorem forall_verdict_convert (siblings : List Dom) :
    ∀ node ∈ siblings, ∀ made, convert (normalize node) = .ok made →
      Node.verdict made.visit = verdict node.visit := by
  match siblings with
  | [] => simp
  | node :: rest =>
      rw [List.forall_mem_cons]
      exact ⟨fun made hmade => verdict_convert node hmade, forall_verdict_convert rest⟩

end

mutual

theorem isSupported_of_convert {node : Dom} {made : Node} (hmade : convert node = .ok made) :
    node.isSupported = true := by
  cases node with
  | element tag attrs children =>
      obtain ⟨nodes, hnodes, -⟩ := convert_element_eq_ok hmade
      exact areSupported_of_convertAll hnodes
  | other kind => cases hmade
  | _ => rfl

theorem areSupported_of_convertAll {siblings : List Dom} {nodes : List Node}
    (hnodes : convertAll siblings = .ok nodes) :
    areSupported siblings = true := by
  match siblings with
  | [] => rfl
  | node :: rest =>
      obtain ⟨made, others, hmade, hothers, -⟩ := convertAll_cons_eq_ok hnodes
      rw [areSupported, isSupported_of_convert hmade, areSupported_of_convertAll hothers]
      rfl

end

theorem exists_toNodes_error {siblings : List Dom} (hsiblings : areSupported siblings = false) :
    ∃ kind, toNodes (normalizeAll siblings) = .error kind := by
  cases hnodes : toNodes (normalizeAll siblings) with
  | error kind => exact ⟨kind, rfl⟩
  | ok nodes =>
      rw [toNodes_eq_convertAll] at hnodes
      rw [← areSupported_normalizeAll, areSupported_of_convertAll hnodes] at hsiblings
      cases hsiblings

/-- The first thing that fails among nodes that are met. -/
def check (met : List Dom) : Except RenderError Unit :=
  match met.find? isStuffed with
  | some node => .error node.blame
  | none => .ok ()

theorem check_append (first rest : List Dom) :
    check (first ++ rest) = check first >>= fun _ => check rest := by
  unfold check
  rw [List.find?_append]
  cases first.find? isStuffed <;> rfl

theorem map_verdict_eq_check (visit : Visit Dom) :
    (verdict visit).map (fun _ => ()) = check visit.met := by
  unfold verdict Visit.verdict check
  cases visit.met.find? isStuffed <;> rfl

/-- A document ends as its visit says. -/
theorem outcome_document {siblings : List Dom} {nodes : List Node}
    (hnodes : convertAll (normalizeAll siblings) = .ok nodes) :
    (Node.document nodes).outcome = check (visitAll siblings).met := by
  have hbelow : Node.verdict (Node.visitAll 0 nodes) = verdict (visitAll siblings) :=
    verdict_convertAll (forall_verdict_convert siblings) hnodes
  rw [← map_verdict_eq_check, ← hbelow]
  rfl

/-- The nodes of a fragment end one by one as their visits say. -/
theorem outcomeAll_eq_check {siblings : List Dom} {nodes : List Node}
    (hnodes : convertAll (normalizeAll siblings) = .ok nodes) :
    Node.outcomeAll nodes = check (siblings.flatMap fun node => node.visit.met) := by
  have hcheck : check (siblings.flatMap fun node => node.visit.met) =
      siblings.foldr (fun node rest => (verdict node.visit).map (fun _ => ()) >>= fun _ => rest)
        (.ok ()) := by
    clear hnodes
    induction siblings with
    | nil => rfl
    | cons node rest ih =>
        rw [List.flatMap_cons, check_append, List.foldr_cons, ih, map_verdict_eq_check]
  rw [hcheck]
  refine @foldr_convertAll _ (fun first rest : Except RenderError Unit => first >>= fun _ => rest)
    _ _ (fun _ _ => rfl) (fun _ _ => rfl) _ _ ?_ _ hnodes
  intro node hnode made hmade
  rw [Node.outcome, forall_verdict_convert siblings node hnode made hmade]

end Dom

/-! ### The operations -/

namespace Run

variable {α β : Type} {operation : Run α} {next : α → Run β} {channel after : Channel}

theorem run_bind_of_ok {value : α} (hrun : operation.run.run channel = (.ok value, after)) :
    (operation >>= next).run.run channel = (next value).run.run after := by
  change ExceptT.bindCont next (operation.run.run channel).1 (operation.run.run channel).2 = _
  rw [hrun]
  rfl

theorem run_bind_of_error {failure : Failure}
    (hrun : operation.run.run channel = (.error failure, after)) :
    (operation >>= next).run.run channel = (.error failure, after) := by
  change ExceptT.bindCont next (operation.run.run channel).1 (operation.run.run channel).2 = _
  rw [hrun]
  rfl

end Run

namespace Style

variable {calls : Nat} {channel : Channel}

theorem exists_writeNode (style : Style) {node : Node} (hnesting : node.nesting ≤ calls)
    (hroom : channel.room = none) :
    ∃ after, (style.writeNode calls node).run.run channel = (node.outcome.mapError .render, after) ∧
      after.room = none := by
  refine ⟨_, (style.writeNode_of_room_none hnesting hroom).trans (Prod.ext ?_ rfl), hroom⟩
  rw [Outline.result, node.ending_outline, Node.outcome]
  cases Node.verdict node.visit <;> rfl

theorem exists_writeNodes (style : Style) {nodes : List Node}
    (hnesting : Node.nestingAll nodes ≤ calls) (hroom : channel.room = none) :
    ∃ after, (style.writeNodes calls nodes).run.run channel =
        ((Node.outcomeAll nodes).mapError .render, after) ∧
      after.room = none := by
  induction nodes generalizing channel with
  | nil => exact ⟨channel, rfl, hroom⟩
  | cons node rest ih =>
      obtain ⟨hnode, hrest⟩ := Nat.max_le.mp hnesting
      obtain ⟨after, hrun, hafter⟩ := style.exists_writeNode hnode hroom
      rw [writeNodes, Node.outcomeAll, List.foldr_cons]
      cases houtcome : node.outcome with
      | error error =>
          rw [houtcome] at hrun
          exact ⟨after, Run.run_bind_of_error hrun, hafter⟩
      | ok done =>
          rw [houtcome] at hrun
          obtain ⟨last, hlast, hroom⟩ := ih hrest hafter
          exact ⟨last, (Run.run_bind_of_ok hrun).trans hlast, hroom⟩

/-- A newline at the end does not change how an operation ends. -/
theorem run_then_newline {operation : Run Unit} {result : Except RenderError Unit} {after : Channel}
    (hrun : operation.run.run channel = (result.mapError .render, after))
    (hroom : after.room = none) :
    ((operation >>= fun _ => write "\n").run.run channel).1 = result.mapError .render := by
  cases result with
  | error error =>
      rw [Run.run_bind_of_error hrun]
      rfl
  | ok done =>
      rw [Run.run_bind_of_ok hrun]
      simp [write, ExceptT.run, StateT.run, hroom, Except.mapError]

end Style

namespace Target

def write (target : Target) (calls : Nat) (style : Style) (nodes : List Node) : Run Unit :=
  match target with
  | document => style.writeDocument calls (.document nodes)
  | fragment _ => style.writeFragment calls nodes

/-- Formatting whatever a reader has answered. -/
def format (target : Target) (calls : Nat) (style : Style) (sourceName : Option String)
    (answer : Except ReadFault (List Dom)) : Run Unit :=
  adapt calls target sourceName answer >>= target.write calls style

/-- The nodes of a delivered tree that formatting reaches: a document ends with its first `plaintext`
element, and so does each node of a fragment by itself. -/
def met (target : Target) (siblings : List Dom) : List Dom :=
  match target with
  | document => (Dom.visitAll siblings).met
  | fragment _ => siblings.flatMap fun node => node.visit.met

variable {calls : Nat} {channel : Channel}

theorem result_write (target : Target) (style : Style) {siblings : List Dom} {nodes : List Node}
    (hnodes : Dom.convertAll (Dom.normalizeAll siblings) = .ok nodes)
    (hnesting : (Node.document nodes).nesting ≤ calls) (hroom : channel.room = none) :
    ((target.write calls style nodes).run.run channel).1 =
      (Dom.check (target.met siblings)).mapError .render := by
  cases target with
  | document =>
      obtain ⟨after, hrun, hafter⟩ := style.exists_writeNode hnesting hroom
      have hcheck : (Node.document nodes).outcome = Dom.check (document.met siblings) :=
        Dom.outcome_document hnodes
      rw [hcheck] at hrun
      exact Style.run_then_newline hrun hafter
  | fragment container =>
      obtain ⟨after, hrun, hafter⟩ := style.exists_writeNodes (Nat.le_of_succ_le hnesting) hroom
      have hcheck : Node.outcomeAll nodes = Dom.check ((fragment container).met siblings) :=
        Dom.outcomeAll_eq_check hnodes
      rw [hcheck] at hrun
      exact Style.run_then_newline hrun hafter

theorem run_format_of_unsupported (target : Target) (style : Style) (sourceName : Option String)
    {siblings : List Dom} (hdepth : Dom.nestingAll siblings ≤ calls)
    (hsiblings : Dom.areSupported siblings = false) (channel : Channel) :
    ∃ error, (target.format calls style sourceName (.ok siblings)).run.run channel =
      (.error (.parse error), channel) := by
  obtain ⟨kind, hkind⟩ := Dom.exists_toNodes_error hsiblings
  refine ⟨{ detail := "unsupported DOM node type " ++ toString kind, sourceName }, ?_⟩
  apply Run.run_bind_of_error
  rw [adapt, if_neg (Nat.not_lt.mpr hdepth), hkind]
  rfl

theorem result_format_of_supported (target : Target) (style : Style) (sourceName : Option String)
    {siblings : List Dom} (hnesting : 2 * Dom.nestingAll siblings < calls)
    (hsiblings : Dom.areSupported siblings = true) (hroom : channel.room = none) :
    ((target.format calls style sourceName (.ok siblings)).run.run channel).1 =
      (Dom.check (target.met siblings)).mapError .render := by
  have hdepth : Dom.nestingAll siblings ≤ calls := by omega
  obtain ⟨nodes, hnodes, hmarks⟩ := Dom.exists_toNodes_normalizeAll Text.isVisible hsiblings
  have hsame : (Node.document nodes).nesting = 2 * Dom.nestingAll siblings + 1 := by
    rw [Node.nesting, ← Node.nestingAll_marksAll Text.isVisible, hmarks, Dom.nestingAll_marksAll]
  have hadapt : ∃ after, (adapt calls target sourceName (.ok siblings)).run.run channel =
      (.ok nodes, after) ∧ after.room = none := by
    rw [adapt, if_neg (Nat.not_lt.mpr hdepth), hnodes]
    exact ⟨_, rfl, hroom⟩
  obtain ⟨after, hadapt, hafter⟩ := hadapt
  rw [Dom.toNodes_eq_convertAll] at hnodes
  rw [format, Run.run_bind_of_ok hadapt]
  exact target.result_write style hnodes (hsame.trans_le hnesting) hafter

/-- Formatting a delivered tree fails on a node of another kind wherever it stands, and then nothing
is written or noted. Otherwise it can fail only at a void element that still holds something, and it
does so exactly if it reaches one, with the tag of the first. Formatting a source is formatting what
is read from it. -/
theorem format_fails_only_at_void_elements (target : Target) (style : Style)
    (sourceName : Option String) (siblings : List Dom)
    (hdepth : Dom.nestingAll siblings ≤ calls) (hroom : channel.room = none) :
    let after := (target.format calls style sourceName (.ok siblings)).run.run channel
    (Dom.areSupported siblings = false → ∃ error, after = (.error (.parse error), channel)) ∧
      (2 * Dom.nestingAll siblings < calls →
        ((∃ error, after.1 = .error (.parse error)) ↔ Dom.areSupported siblings = false) ∧
        (Dom.areSupported siblings = true →
          (∀ error, after.1 = .error error → ∃ tag, error = .render (.voidContent tag)) ∧
          ((∃ tag, after.1 = .error (.render (.voidContent tag))) ↔
            ∃ node ∈ target.met siblings, node.isStuffed = true) ∧
          ∀ tag attrs children,
            (target.met siblings).find? Dom.isStuffed = some (.element tag attrs children) →
              after.1 = .error (.render (.voidContent tag)))) ∧
      (∀ source : Source, source.formatDocument calls style sourceName =
        document.format calls style sourceName (document.read source)) ∧
      ∀ (source : Source) (container : String),
        source.formatFragment calls style container sourceName =
          (fragment container).format calls style sourceName ((fragment container).read source) := by
  intro after
  have hunsupported : Dom.areSupported siblings = false →
      ∃ error, after = (.error (.parse error), channel) := by
    intro hsiblings
    exact target.run_format_of_unsupported style sourceName hdepth hsiblings channel
  refine ⟨hunsupported, fun hnesting => ?_, fun source => rfl, fun source container => rfl⟩
  cases hsiblings : Dom.areSupported siblings with
  | false =>
      obtain ⟨error, hafter⟩ := hunsupported hsiblings
      simp [hafter]
  | true =>
      have hresult : after.1 = (Dom.check (target.met siblings)).mapError .render :=
        target.result_format_of_supported style sourceName hnesting hsiblings hroom
      rw [Dom.check] at hresult
      cases hfind : (target.met siblings).find? Dom.isStuffed with
      | none =>
          have hnone : ∀ node ∈ target.met siblings, node.isStuffed = false := by simpa using hfind
          have hok : after.1 = .ok () := by rw [hresult, hfind]; rfl
          simpa [hok] using hnone
      | some node =>
          have hstuffed := List.find?_some hfind
          have hmet := List.mem_of_find?_eq_some hfind
          obtain ⟨tag, attrs, children, rfl⟩ := Dom.exists_of_isStuffed hstuffed
          have herror : after.1 = .error (.render (.voidContent tag)) := by rw [hresult, hfind]; rfl
          have hiff : (∃ tag, after.1 = .error (.render (.voidContent tag))) ↔
              ∃ node ∈ target.met siblings, node.isStuffed = true :=
            ⟨fun _ => ⟨_, hmet, hstuffed⟩, fun _ => ⟨tag, herror⟩⟩
          refine ⟨by simp [herror], fun _ => ⟨?_, hiff, ?_⟩⟩
          · intro error hafter
            rw [herror] at hafter
            cases hafter
            exact ⟨tag, rfl⟩
          · rintro _ _ _ ⟨⟩
            exact herror

/-- An empty text in a line break does not count, an empty section of character data does. Behind a
`plaintext` element it is out of reach in a document and within reach in a fragment, and a node of
another kind comes before all. -/
theorem format_fails_only_at_void_elements_after_plaintext :
    let siblings : List Dom := [.element "plaintext" [] [.element "br" [] [.text ""]],
      .element "hr" [] [.text "", .cdata ""]]
    2 * Dom.nestingAll siblings < 5 ∧
      (∀ style : Style, ∀ tag, ((document.format 5 style none (.ok siblings)).run.run {}).1 ≠
        .error (.render (.voidContent tag))) ∧
      (∀ style : Style, (((fragment "div").format 5 style none (.ok siblings)).run.run {}).1 =
        .error (.render (.voidContent "hr"))) ∧
      ∀ style : Style, ∃ error,
        ((fragment "div").format 5 style none (.ok (siblings ++ [.other Dom.instructionKind]))).run.run {} =
          (.error (.parse error), {}) := by
  intro siblings
  have hnesting : 2 * Dom.nestingAll siblings < 5 := by decide
  refine ⟨hnesting, fun style tag => ?_, fun style => ?_, fun style => ?_⟩
  · have hdocument := @format_fails_only_at_void_elements 5 {} document style none siblings
      (by decide) rfl
    have hvoid := ((hdocument.2.1 hnesting).2 rfl).2.1
    intro herror
    obtain ⟨node, hnode, hstuffed⟩ := hvoid.mp ⟨tag, herror⟩
    revert node
    decide
  · have hfragment := @format_fails_only_at_void_elements 5 {} (fragment "div") style none siblings
      (by decide) rfl
    exact ((hfragment.2.1 hnesting).2 rfl).2.2 "hr" [] [.text "", .cdata ""] rfl
  · have hother := @format_fails_only_at_void_elements 5 {} (fragment "div") style none
      (siblings ++ [.other Dom.instructionKind]) (by decide) rfl
    exact hother.1 rfl

end Target

end HtmlLayout
