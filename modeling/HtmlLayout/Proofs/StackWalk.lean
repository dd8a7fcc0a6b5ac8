import HtmlLayout.Proofs.Conversion
import HtmlLayout.Reading
import Mathlib.Algebra.GroupWithZero.Nat
import Mathlib.Logic.Relation

/-!
# The walk over a document tree

The walk keeps two stacks, and a turn looks at the top of both. It is never stranded: the stacks
always have the same height and are never empty, and every turn lowers the number of turns that are
left by one. All of this is said once, of a single turn, in `Aligned.turn_cases`.

What the walk comes to is told here without stacks and without failures on the way. `listedAll` is
the tree in document order, and the first node on it that has no counterpart decides whether there
is a result. If there is none, each sibling is sent to its `image`.
-/

namespace HtmlLayout.Dom

/-! ### The two stacks -/

namespace Walk

/-- The two stacks belong together: there is a level, and nodes are kept for just the levels there are. -/
structure Aligned (walk : Walk) : Prop where
  nonempty : walk.frames ≠ []
  height : walk.made.length = walk.frames.length

/-- The turns that are left: those of the children still to be visited, and one to leave each level. -/
def work (walk : Walk) : Nat :=
  (walk.frames.map fun frame => turnsAll frame.pending + 1).sum

/-- What turn after turn leads to. -/
def Reaches : Walk → Walk → Prop := Relation.ReflTransGen fun walk next => walk.turn = .goesOn next

theorem aligned_start (siblings : List Dom) : (start siblings).Aligned :=
  ⟨List.cons_ne_nil _ _, rfl⟩

theorem exists_made {frame : Frame} {outer : List Frame} {made : List (List Node)}
    (haligned : Aligned { frames := frame :: outer, made }) :
    ∃ nodes rest, made = nodes :: rest ∧ rest.length = outer.length := by
  have hheight : made.length = outer.length + 1 := haligned.height
  obtain ⟨nodes, rest, rfl⟩ := List.exists_cons_of_length_eq_add_one hheight
  exact ⟨nodes, rest, rfl, Nat.succ.inj hheight⟩

/-- What a turn of a walk with aligned stacks can be: the last one, which leaves the outermost level
or meets a node without a counterpart, or one that keeps the stacks aligned and has less to do. -/
theorem Aligned.turn_cases {walk : Walk} (haligned : walk.Aligned) :
    (∃ nodes, walk.turn = .finished nodes ∧ walk.work = 1) ∨
      (∃ kind, walk.turn = .unsupported kind) ∨
      ∃ next, walk.turn = .goesOn next ∧ next.Aligned ∧ next.work + 1 = walk.work := by
  obtain ⟨frames, made⟩ := walk
  cases frames with
  | nil => exact absurd rfl haligned.nonempty
  | cons frame outer =>
      obtain ⟨nodes, rest, rfl, hrest⟩ := exists_made haligned
      obtain ⟨tag, attrs, pending⟩ := frame
      cases pending with
      | nil =>
          cases outer with
          | nil => exact .inl ⟨nodes.reverse, rfl, rfl⟩
          | cons parent around =>
              obtain ⟨siblings, others, rfl⟩ := List.exists_cons_of_length_eq_add_one hrest
              refine .inr (.inr ⟨_, rfl, ⟨List.cons_ne_nil _ _, hrest⟩, ?_⟩)
              simp only [work, List.map_cons, List.sum_cons, turnsAll]
              omega
      | cons child pending =>
          have hheight : (nodes :: rest).length = outer.length + 1 := haligned.height
          cases child with
          | element name own children =>
              refine .inr (.inr ⟨_, rfl, ⟨List.cons_ne_nil _ _, ?_⟩, ?_⟩)
              · simpa using hheight
              · simp only [work, List.map_cons, List.sum_cons, turnsAll, turns]
                omega
          | other kind => exact .inr (.inl ⟨kind, rfl⟩)
          | _ =>
              refine .inr (.inr ⟨_, rfl, ⟨List.cons_ne_nil _ _, hheight⟩, ?_⟩)
              simp only [work, List.map_cons, List.sum_cons, turnsAll, turns]
              omega

theorem Aligned.turn_ne_stranded {walk : Walk} (haligned : walk.Aligned) :
    walk.turn ≠ .stranded := by
  intro hstranded
  obtain ⟨_, hturn, -⟩ | ⟨_, hturn⟩ | ⟨_, hturn, -⟩ := haligned.turn_cases
  all_goals
    rw [hturn] at hstranded
    cases hstranded

theorem Aligned.of_goesOn {walk next : Walk} (haligned : walk.Aligned)
    (hturn : walk.turn = .goesOn next) : next.Aligned ∧ next.work + 1 = walk.work := by
  obtain ⟨_, hlast, -⟩ | ⟨_, hlast⟩ | ⟨other, hother, hnext⟩ := haligned.turn_cases
  · rw [hlast] at hturn
    cases hturn
  · rw [hlast] at hturn
    cases hturn
  · rw [hother] at hturn
    cases hturn
    exact hnext

/-- The stacks stay aligned however many turns are made. -/
theorem Reaches.aligned {first last : Walk} (hfirst : first.Aligned) (hreaches : Reaches first last) :
    last.Aligned := by
  induction hreaches with
  | refl => exact hfirst
  | tail _ hturn ih => exact (ih.of_goesOn hturn).1

end Walk

/-! ### Document order -/

mutual

/-- A node and all below it in document order. -/
def listed : Dom → List Dom
  | element tag attrs children => element tag attrs children :: listedAll children
  | leaf => [leaf]

def listedAll : List Dom → List Dom
  | [] => []
  | node :: rest => listed node ++ listedAll rest

end

/-- The kind of a node that has no counterpart. -/
def foreignKind? : Dom → Option Nat
  | other kind => some kind
  | _ => none

/-- The kind of the first node in document order that has no counterpart. -/
def firstForeign? (siblings : List Dom) : Option Nat := (listedAll siblings).findSome? foreignKind?

mutual

/-- The counterpart of a node, where each node has one. -/
def image : Dom → Node
  | element tag attrs children => .element tag (attrs.map Attr.toAttribute) (imageAll children)
  | text data => .text data
  | cdata data => .text data
  | comment data => .comment data
  | doctype name publicId systemId =>
      .doctype
        { name
          publicId := if publicId = some "" then none else publicId
          systemId := if systemId = some "" then none else systemId }
  | other _ => .unspecified

def imageAll : List Dom → List Node
  | [] => []
  | node :: rest => image node :: imageAll rest

end

theorem imageAll_eq_map (siblings : List Dom) : imageAll siblings = siblings.map image := by
  induction siblings with
  | nil => rfl
  | cons node rest ih => rw [imageAll, ih, List.map_cons]

theorem presentId_eq (identifier : Option String) :
    presentId identifier = if identifier = some "" then none else identifier := by
  cases identifier with
  | none => rfl
  | some text => by_cases hempty : text = "" <;> simp [presentId, hempty]

/-- The result where some nodes may have no counterpart: the first of them is reported. -/
def reported {α : Type} (foreign : Option Nat) (result : α) : Except Nat α :=
  match foreign with
  | some kind => .error kind
  | none => .ok result

mutual

theorem convert_eq_reported (node : Dom) :
    convert node = reported ((listed node).findSome? foreignKind?) node.image := by
  cases node with
  | element tag attrs children =>
      have hbelow := convertAll_eq_reported children
      rw [firstForeign?] at hbelow
      rw [convert, listed, List.findSome?_cons, hbelow]
      cases hfirst : (listedAll children).findSome? foreignKind? <;>
        simp [reported, foreignKind?, image, Except.map]
  | doctype name publicId systemId =>
      simp [convert, leafNode, listed, foreignKind?, reported, image, presentId_eq]
  | _ => rfl

theorem convertAll_eq_reported (siblings : List Dom) :
    convertAll siblings = reported (firstForeign? siblings) (imageAll siblings) := by
  match siblings with
  | [] => rfl
  | node :: rest =>
      have hrest := convertAll_eq_reported rest
      rw [firstForeign?] at hrest
      rw [convertAll, convert_eq_reported node, hrest, firstForeign?, listedAll,
        List.findSome?_append]
      cases (listed node).findSome? foreignKind? with
      | some kind => rfl
      | none => cases (listedAll rest).findSome? foreignKind? <;> rfl

end

/-! ### Nodes without a counterpart in the normal form -/

theorem firstForeign?_cons (node : Dom) (rest : List Dom) :
    firstForeign? (node :: rest) =
      ((listed node).findSome? foreignKind?).or (firstForeign? rest) := by
  rw [firstForeign?, listedAll, List.findSome?_append, firstForeign?]

theorem firstForeign?_joinText (data : String) (rest : List Dom) :
    firstForeign? (joinText data rest) = firstForeign? rest := by
  unfold joinText
  split
  · rfl
  · split <;> simp [firstForeign?_cons, listed, foreignKind?]

mutual

theorem findSome?_normalize (node : Dom) :
    (listed (normalize node)).findSome? foreignKind? = (listed node).findSome? foreignKind? := by
  cases node with
  | element tag attrs children =>
      have hbelow := firstForeign?_normalizeAll children
      rw [firstForeign?, firstForeign?] at hbelow
      rw [normalize, listed, listed, List.findSome?_cons, List.findSome?_cons, hbelow]
      rfl
  | _ => rfl

theorem firstForeign?_normalizeAll (siblings : List Dom) :
    firstForeign? (normalizeAll siblings) = firstForeign? siblings := by
  match siblings with
  | [] => rfl
  | node :: rest =>
      have hrest := firstForeign?_normalizeAll rest
      have hnode := findSome?_normalize node
      rw [firstForeign?_cons]
      cases node with
      | text data =>
          rw [normalizeAll, firstForeign?_joinText, hrest]
          rfl
      | _ => simp only [normalizeAll, firstForeign?_cons, hnode, hrest]

end

/-! ### The result -/

theorem toNodes_eq_reported (siblings : List Dom) :
    toNodes siblings = reported (firstForeign? siblings) (siblings.map image) := by
  rw [toNodes_eq_convertAll, convertAll_eq_reported, imageAll_eq_map]

theorem run_adapt {calls : Nat} (target : Target) (sourceName : Option String) (siblings : List Dom)
    (channel : Channel) (hdepth : nestingAll siblings ≤ calls) :
    ((adapt calls target sourceName (.ok siblings)).run.run channel).1 =
      match firstForeign? siblings with
      | some kind =>
          .error (.parse { detail := "unsupported DOM node type " ++ toString kind, sourceName })
      | none => .ok ((normalizeAll siblings).map image) := by
  rw [adapt, if_neg (Nat.not_lt.mpr hdepth), toNodes_eq_reported, firstForeign?_normalizeAll]
  cases firstForeign? siblings <;> rfl

/-- The conversion with stacks is the plain recursion. On the way both stacks have the same height
and neither is empty, no turn is stranded, and every turn leaves less to do. The walk ends however
many turns it is allowed beyond those it needs. If every node in the whole tree has a counterpart,
the result is the list of the images; otherwise the kind of the first node in document order that
has none is reported, and reading fails with a parse error that gives this kind and names the
source. -/
theorem toNodes_eq_plain_recursion (siblings : List Dom) :
    (∀ walk, Walk.Reaches (.start siblings) walk →
      walk.frames ≠ [] ∧ walk.made.length = walk.frames.length ∧ walk.turn ≠ .stranded ∧
        ∀ next, walk.turn = .goesOn next → next.work < walk.work) ∧
      (∀ allowed, turnsAll siblings < allowed →
        Walk.run allowed (.start siblings) =
          match firstForeign? siblings with
          | some kind => .unsupported kind
          | none => .finished (siblings.map image)) ∧
      (toNodes siblings =
        match firstForeign? siblings with
        | some kind => .error kind
        | none => .ok (siblings.map image)) ∧
      ∀ (calls : Nat) (target : Target) (sourceName : Option String) (channel : Channel),
        nestingAll siblings ≤ calls →
          ((adapt calls target sourceName (.ok siblings)).run.run channel).1 =
            match firstForeign? siblings with
            | some kind =>
                .error (.parse { detail := "unsupported DOM node type " ++ toString kind, sourceName })
            | none => .ok ((normalizeAll siblings).map image) := by
  refine ⟨?_, ?_, toNodes_eq_reported siblings, ?_⟩
  · intro walk hreaches
    have haligned := hreaches.aligned (Walk.aligned_start siblings)
    refine ⟨haligned.nonempty, haligned.height, haligned.turn_ne_stranded, ?_⟩
    intro next hturn
    have hwork := (haligned.of_goesOn hturn).2
    omega
  · intro allowed hallowed
    obtain ⟨left, rfl⟩ : ∃ left, allowed = turnsAll siblings + (left + 1) :=
      ⟨allowed - turnsAll siblings - 1, by omega⟩
    rw [run_start, convertAll_eq_reported, imageAll_eq_map]
    cases firstForeign? siblings <;> rfl
  · intro calls target sourceName channel hdepth
    exact run_adapt target sourceName siblings channel hdepth

/-- An instruction in a paragraph comes before a reference to an entity behind it. Without the two the
tree is converted, an attribute in a namespace with its name in two parts. -/
theorem toNodes_eq_plain_recursion_instructions :
    let attrs := Attr.setQualified (Attr.set [] "a:b" "x") (some "links") "xlink:href" "y"
    let declared := Dom.doctype "html" (some "") none
    let inside : List Dom := [.cdata "b", .comment "c", .element "br" [] []]
    let siblings : List Dom :=
      [declared, .element "p" attrs (inside ++ [.other instructionKind]), .other 5]
    nestingAll siblings ≤ 2 ∧ turnsAll siblings < 10 ∧
      Walk.run 10 (.start siblings) = .unsupported 7 ∧
      (∀ channel, ((adapt 2 .document (some "page") (.ok siblings)).run.run channel).1 =
        .error (.parse { detail := "unsupported DOM node type 7", sourceName := some "page" })) ∧
      toNodes [declared, .element "p" attrs inside] =
        .ok [.doctype { name := "html" },
          .element "p" [{ key := "a:b", value := "x" }, { key := "href", value := "y", qualifier := "xlink" }]
            [.text "b", .comment "c", .element "br" [] []]] := by
  intro attrs declared inside siblings
  obtain ⟨-, hrun, -, hadapt⟩ := toNodes_eq_plain_recursion siblings
  obtain ⟨-, -, hnodes, -⟩ := toNodes_eq_plain_recursion [declared, .element "p" attrs inside]
  have hdepth : nestingAll siblings ≤ 2 := by decide
  refine ⟨hdepth, by decide, hrun 10 (by decide), ?_, hnodes⟩
  intro channel
  exact hadapt 2 .document (some "page") channel hdepth

end HtmlLayout.Dom
