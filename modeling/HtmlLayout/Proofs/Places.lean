import HtmlLayout.Proofs.Faults

/-!
# Places in a tree

A place in a tree is known by the way down to it: the documents and elements that lie around it, each
with its children before and after. The visit gets to a place if it looks below everything on the way
and gets past all that comes before. What is written until then is the start tag of each element on
the way, with the children before on its level, and it does not depend on what stands at the place or
after it.
-/

namespace HtmlLayout

/-! ### Places in a tree -/

/-- A document or an element that lies around a place, with its children before and after it. -/
structure Ancestor where
  /-- The tag and the attributes of an element. A document has none. -/
  label : Option (String × List Attribute)
  before : List Node
  after : List Node

namespace Ancestor

/-- An ancestor with a node put in the place. -/
def around (ancestor : Ancestor) (node : Node) : Node :=
  match ancestor.label with
  | none => .document (ancestor.before ++ node :: ancestor.after)
  | some (tag, attrs) => .element tag attrs (ancestor.before ++ node :: ancestor.after)

/-- All of an ancestor that comes before the place. -/
def past (ancestor : Ancestor) : Option (String × List Attribute) × List Node :=
  (ancestor.label, ancestor.before)

/-- The tree that has a node at the end of a way, the outermost ancestor first. -/
def plug : List Ancestor → Node → Node
  | [], node => node
  | ancestor :: rest, node => ancestor.around (plug rest node)

/-- The numbers of the children on the way down. -/
def place (way : List Ancestor) : List Nat := way.map fun ancestor => ancestor.before.length

/-- The depth of the children of an ancestor. -/
def below (depth : Nat) (ancestor : Ancestor) : Nat :=
  if ancestor.label.isSome then depth + 1 else depth

/-- The writes for an ancestor until its child on the way has its turn: the start tag, and all the
children before. -/
def opened (depth : Nat) (ancestor : Ancestor) : List Piece :=
  match ancestor.label with
  | none => (Node.outlineAll depth false ancestor.before).pieces
  | some (tag, attrs) =>
      Node.openingPieces depth tag attrs ++ Node.bracketPieces tag ancestor.before ++
        (Node.outlineAll (depth + 1) (Tag.isRawText tag) ancestor.before).pieces

def openedAll (depth : Nat) : List Ancestor → List Piece
  | [] => []
  | ancestor :: rest => ancestor.opened depth ++ openedAll (ancestor.below depth) rest

/-- The depth at the end of a way. -/
def depthAt (depth : Nat) (way : List Ancestor) : Nat := way.foldl below depth

theorem around_injective {ancestor other : Ancestor} {child node : Node}
    (hcount : ancestor.before.length = other.before.length)
    (haround : ancestor.around child = other.around node) : ancestor = other ∧ child = node := by
  obtain ⟨label, before, after⟩ := ancestor
  obtain ⟨label', before', after'⟩ := other
  have hparts : label = label' ∧ before ++ child :: after = before' ++ node :: after' := by
    rcases label with _ | ⟨tag, attrs⟩ <;> rcases label' with _ | ⟨tag', attrs'⟩ <;>
      simp_all [around]
  obtain ⟨rfl, hchildren⟩ := hparts
  obtain ⟨rfl, hrest⟩ := List.append_inj hchildren hcount
  obtain ⟨rfl, rfl⟩ := List.cons.inj hrest
  exact ⟨rfl, rfl⟩

/-- A tree and a place in it determine the way. -/
theorem plug_injective {way other : List Ancestor} {node : Node} (hplace : place way = place other)
    (hplug : plug way node = plug other node) : way = other := by
  induction way generalizing other with
  | nil =>
      rw [place, List.map_nil, place, eq_comm, List.map_eq_nil_iff] at hplace
      exact hplace.symm
  | cons ancestor rest ih =>
      cases other with
      | nil => cases hplace
      | cons first others =>
          obtain ⟨hcount, hplaces⟩ := List.cons.inj hplace
          obtain ⟨rfl, hbelow⟩ := around_injective hcount hplug
          rw [ih hplaces hbelow]

/-- What is written on a way does not depend on what comes after it. -/
theorem openedAll_congr {way other : List Ancestor} (hpast : way.map past = other.map past)
    (depth : Nat) :
    openedAll depth way = openedAll depth other ∧ depthAt depth way = depthAt depth other := by
  induction way generalizing other depth with
  | nil =>
      rw [List.map_nil, eq_comm, List.map_eq_nil_iff] at hpast
      subst hpast
      exact ⟨rfl, rfl⟩
  | cons ancestor rest ih =>
      cases other with
      | nil => cases hpast
      | cons first others =>
          obtain ⟨hfirst, hrest⟩ := List.cons.inj hpast
          obtain ⟨hlabel, hbefore⟩ := Prod.mk.inj hfirst
          have hopened : ancestor.opened depth = first.opened depth := by
            simp only [opened, hlabel, hbefore]
          have hbelow : ancestor.below depth = first.below depth := by
            simp only [below, hlabel]
          obtain ⟨hpieces, hdepth⟩ := ih hrest (first.below depth)
          constructor
          · rw [openedAll, openedAll, hopened, hbelow, hpieces]
          · rw [depthAt, depthAt, List.foldl_cons, List.foldl_cons, hbelow]
            exact hdepth

end Ancestor

/-! ### Reaching a place -/

namespace Node

/-- A visit on which nothing is refused ends as its flow says. -/
theorem verdict_of_sound {visit : Visit (List Nat × Node)}
    (hsound : ∀ entry ∈ visit.met, entry.2.isRefused = false) : verdict visit = .ok visit.flow := by
  have hfind : visit.met.find? (fun entry => entry.2.isRefused) = none := by
    simpa using hsound
  rw [verdict, Visit.verdict, hfind]

/-- An entry of a visit as it is met from one level further up. -/
def lifted (number : Nat) (entry : List Nat × Node) : List Nat × Node :=
  (number :: entry.1, entry.2)

theorem met_visitAll_cons (number : Nat) (node : Node) (rest : List Node) :
    (visitAll number (node :: rest)).met =
      node.visit.met.map (lifted number) ++
        if node.visit.flow = .proceed then (visitAll (number + 1) rest).met else [] := by
  rw [visitAll, Visit.andThen]
  cases hflow : node.visit.flow <;> simp [Visit.map, hflow, lifted]

/-- What is met among siblings is met of one of them, and the visit gets past those before. What is
met earlier is what is met of those before, and what is met earlier of that one. -/
theorem exists_child_of_met_eq {number : Nat} {nodes : List Node} {entry : List Nat × Node}
    {earlier later : List (List Nat × Node)}
    (hmet : (visitAll number nodes).met = earlier ++ entry :: later) :
    ∃ before child after inner met others, nodes = before ++ child :: after ∧
      child.visit.met = met ++ inner :: others ∧ entry = lifted (number + before.length) inner ∧
      (visitAll number before).flow = .proceed ∧
      earlier = (visitAll number before).met ++ met.map (lifted (number + before.length)) ∧
      child.visit.met.map (lifted (number + before.length)) ⊆ (visitAll number nodes).met := by
  induction nodes generalizing number earlier with
  | nil => simp [visitAll] at hmet
  | cons node rest ih =>
      have hcons := met_visitAll_cons number node rest
      rw [hcons, List.append_eq_append_iff] at hmet
      -- The entry is met of the first node, or the visit gets past that one.
      have hcases : (∃ others, node.visit.met.map (lifted number) = earlier ++ entry :: others) ∨
          ∃ more, earlier = node.visit.met.map (lifted number) ++ more ∧
            (if node.visit.flow = .proceed then (visitAll (number + 1) rest).met else []) =
              more ++ entry :: later := by
        rcases hmet with ⟨more, hearlier, hlater⟩ | ⟨more, hfirst, hlater⟩
        · exact .inr ⟨more, hearlier, hlater⟩
        · cases more with
          | nil => exact .inr ⟨[], by simpa using hfirst.symm, by simpa using hlater.symm⟩
          | cons first others =>
              obtain ⟨rfl, -⟩ := List.cons.inj hlater
              exact .inl ⟨others, hfirst⟩
      rcases hcases with ⟨others, hfirst⟩ | ⟨more, rfl, hrest⟩
      · obtain ⟨met, tail, hvisit, hearlier, htail⟩ := List.map_eq_append_iff.mp hfirst
        obtain ⟨inner, behind, rfl, hentry, -⟩ := List.map_eq_cons_iff.mp htail
        refine ⟨[], node, rest, inner, met, behind, rfl, hvisit, hentry.symm, rfl, ?_, ?_⟩
        · simpa [visitAll] using hearlier.symm
        · rw [hcons]
          exact List.subset_append_left _ _
      · have hflow : node.visit.flow = .proceed := by
          by_contra hstop
          rw [if_neg hstop] at hrest
          simp at hrest
        rw [if_pos hflow] at hrest
        obtain ⟨before, child, after, inner, met, others, rfl, hvisit, hentry, hpast, rfl, hsub⟩ :=
          ih hrest
        have hcount : number + 1 + before.length = number + (node :: before).length := by
          rw [List.length_cons]
          omega
        rw [hcount] at hentry hsub
        refine ⟨node :: before, child, after, inner, met, others, rfl, hvisit, hentry, ?_, ?_, ?_⟩
        · rw [visitAll, Visit.andThen]
          simpa [Visit.map, hflow] using hpast
        · rw [met_visitAll_cons, if_pos hflow, hcount, List.append_assoc]
        · rw [hcons, if_pos hflow]
          exact List.subset_append_of_subset_right _ hsub

end Node

namespace Ancestor

/-- The walk gets to the child of an ancestor on the way: it looks below the ancestor at all, and
gets past the children before. -/
def IsPassed (ancestor : Ancestor) : Prop :=
  (∀ tag attrs, ancestor.label = some (tag, attrs) → Tag.isVoid tag = false) ∧
    Node.verdict (Node.visitAll 0 ancestor.before) = .ok .proceed

/-- A step down to what is met of a node: it is met of a child, at which the walk arrives, and nothing
is refused of the child before. All that is met of the child is met of the node. -/
def StepsDown (node : Node) (entry : List Nat × Node) : Prop :=
  ∃ (ancestor : Ancestor) (child : Node) (inner : List Nat × Node)
      (met others : List (List Nat × Node)),
    node = ancestor.around child ∧ ancestor.IsPassed ∧
      child.visit.met = met ++ inner :: others ∧ (∀ entry ∈ met, entry.2.isRefused = false) ∧
      entry = Node.lifted ancestor.before.length inner ∧
      child.visit.met.map (Node.lifted ancestor.before.length) ⊆ node.visit.met

section StepsDown

variable {node : Node} {entry : List Nat × Node} {earlier later : List (List Nat × Node)}
  (hmet : node.visit.met = earlier ++ entry :: later)
  (hsound : ∀ entry ∈ earlier, entry.2.isRefused = false)
include hmet hsound

theorem eq_or_stepsDown_of_visitAll {label : Option (String × List Attribute)} {children : List Node}
    (hvoid : ∀ tag attrs, label = some (tag, attrs) → Tag.isVoid tag = false)
    (hvisit : node.visit.met = ([], node) :: (Node.visitAll 0 children).met)
    (haround : ∀ before child after, children = before ++ child :: after →
      node = around ⟨label, before, after⟩ child) :
    entry = ([], node) ∨ StepsDown node entry := by
  rw [hvisit] at hmet
  cases earlier with
  | nil => exact .inl (List.cons.inj hmet).1.symm
  | cons first more =>
      obtain ⟨before, child, after, inner, met, others, hchildren, hchild, hentry, hflow, rfl, hsub⟩ :=
        Node.exists_child_of_met_eq (List.cons.inj hmet).2
      rw [Nat.zero_add] at hentry hsub hsound
      rw [List.forall_mem_cons, List.forall_mem_append] at hsound
      have hpassed : IsPassed ⟨label, before, after⟩ := by
        refine ⟨hvoid, ?_⟩
        rw [Node.verdict_of_sound hsound.2.1, hflow]
      refine .inr ⟨⟨label, before, after⟩, child, inner, met, others,
        haround before child after hchildren, hpassed, hchild, ?_, hentry, ?_⟩
      · intro other hother
        exact hsound.2.2 (Node.lifted before.length other) (List.mem_map_of_mem hother)
      · rw [hvisit]
        exact List.subset_cons_of_subset _ hsub

/-- What is met is the node itself, or there is a step down to it. -/
theorem eq_or_stepsDown : entry = ([], node) ∨ StepsDown node entry := by
  have halone : node.visit.met = [([], node)] → entry = ([], node) := by
    intro hvisit
    have hmem : entry ∈ node.visit.met := by
      rw [hmet]
      exact List.mem_append_right _ List.mem_cons_self
    rw [hvisit] at hmem
    exact List.mem_singleton.mp hmem
  cases node with
  | document children =>
      refine @eq_or_stepsDown_of_visitAll _ _ _ _ hmet hsound none children ?_ rfl ?_
      · rintro _ _ ⟨⟩
      · rintro before child after rfl
        rfl
  | element tag attrs children =>
      cases hvoid : Tag.isVoid tag with
      | true => exact .inl (halone (by rw [Node.visit, if_pos hvoid]))
      | false =>
          refine @eq_or_stepsDown_of_visitAll _ _ _ _ hmet hsound (some (tag, attrs)) children ?_ ?_ ?_
          · rintro _ _ ⟨⟩
            exact hvoid
          · rw [Node.visit, if_neg (by simp [hvoid])]
          · rintro before child after rfl
            rfl
  | _ => exact .inl (halone rfl)

end StepsDown

/-- There is a way down to everything that is met. If nothing is refused earlier, all ancestors on it
are passed. All that is met from the end of the way is met from the top. -/
theorem exists_way_of_met_eq {node target : Node} {wanted : List Nat}
    {earlier later : List (List Nat × Node)}
    (hmet : node.visit.met = earlier ++ (wanted, target) :: later)
    (hsound : ∀ entry ∈ earlier, entry.2.isRefused = false) :
    ∃ way, place way = wanted ∧ plug way target = node ∧ (∀ ancestor ∈ way, ancestor.IsPassed) ∧
      ∀ entry ∈ target.visit.met, (wanted ++ entry.1, entry.2) ∈ node.visit.met := by
  induction wanted generalizing node earlier later with
  | nil =>
      rcases eq_or_stepsDown hmet hsound with hself | ⟨_, _, _, _, _, -, -, -, -, hentry, -⟩
      · obtain ⟨-, rfl⟩ := Prod.mk.inj hself
        exact ⟨[], rfl, rfl, List.forall_mem_nil _, fun entry hentry => hentry⟩
      · cases hentry
  | cons number rest ih =>
      rcases eq_or_stepsDown hmet hsound with hself | ⟨ancestor, child, inner, met, others, rfl,
        hpassed, hchild, hmore, hentry, hsub⟩
      · cases hself
      · obtain ⟨lower, found⟩ := inner
        cases hentry
        obtain ⟨way, rfl, rfl, hall, htarget⟩ := ih hchild hmore
        refine ⟨ancestor :: way, rfl, rfl, List.forall_mem_cons.mpr ⟨hpassed, hall⟩, ?_⟩
        intro entry hentry
        exact hsub (List.mem_map_of_mem (htarget entry hentry))

/-- There is a way down to everything that is met. If nothing is refused, all ancestors on it are
passed, and nothing is refused at its end. -/
theorem exists_way_of_mem_visit {node target : Node} {wanted : List Nat}
    (hmet : (wanted, target) ∈ node.visit.met)
    (hsound : ∀ entry ∈ node.visit.met, entry.2.isRefused = false) :
    ∃ way, place way = wanted ∧ plug way target = node ∧ (∀ ancestor ∈ way, ancestor.IsPassed) ∧
      ∀ entry ∈ target.visit.met, entry.2.isRefused = false := by
  obtain ⟨earlier, later, hsplit⟩ := List.append_of_mem hmet
  have hearlier : ∀ entry ∈ earlier, entry.2.isRefused = false := by
    intro entry hentry
    refine hsound entry ?_
    rw [hsplit]
    exact List.mem_append_left _ hentry
  obtain ⟨way, hplace, hplug, hpassed, htarget⟩ := exists_way_of_met_eq hsplit hearlier
  refine ⟨way, hplace, hplug, hpassed, ?_⟩
  intro entry hentry
  exact hsound (wanted ++ entry.1, entry.2) (htarget entry hentry)

theorem isPassed_congr {way other : List Ancestor} (hpast : other.map past = way.map past)
    (hpassed : ∀ ancestor ∈ way, ancestor.IsPassed) : ∀ ancestor ∈ other, ancestor.IsPassed := by
  intro ancestor hmem
  have hmember : ancestor.past ∈ way.map past := by
    rw [← hpast]
    exact List.mem_map_of_mem hmem
  obtain ⟨same, hsame, heq⟩ := List.mem_map.mp hmember
  obtain ⟨hlabel, hbefore⟩ := Prod.mk.inj heq
  have hpasses := hpassed same hsame
  rw [IsPassed, hlabel, hbefore] at hpasses
  exact hpasses

end Ancestor

/-! ### What is written on the way -/

namespace Outline

theorem andThen_of_proceed {first : Outline} (hfirst : first.ending = .ok .proceed) (next : Outline) :
    first.andThen next = { pieces := first.pieces ++ next.pieces, ending := next.ending } := by
  rw [andThen, hfirst]

theorem andThen_of_ended {first : Outline} (hfirst : first.ending ≠ .ok .proceed) (next : Outline) :
    first.andThen next = first := by
  rcases first with ⟨pieces, _ | _ | _⟩
  · rfl
  · exact absurd rfl hfirst
  · rfl

theorem andThen_assoc (first second third : Outline) :
    (first.andThen second).andThen third = first.andThen (second.andThen third) := by
  rcases first with ⟨pieces, _ | _ | _⟩ <;> rcases second with ⟨others, _ | _ | _⟩ <;>
    simp [andThen]

theorem andThen_nil (outline : Outline) : outline.andThen (of []) = outline := by
  rcases outline with ⟨pieces, _ | _ | _⟩ <;> simp [andThen, of]

theorem of_append (first rest : List Piece) : of (first ++ rest) = (of first).andThen (of rest) := rfl

/-- The pieces alone tell an outline after which the walk goes on. -/
theorem eq_of_pieces {outline : Outline} (hending : outline.ending = .ok .proceed) :
    outline = of outline.pieces := by
  rw [of, ← hending]

end Outline

namespace Node

theorem outlineAll_append (depth : Nat) (raw : Bool) (first rest : List Node) :
    outlineAll depth raw (first ++ rest) =
      (outlineAll depth raw first).andThen (outlineAll depth raw rest) := by
  induction first with
  | nil => rfl
  | cons node first ih => rw [List.cons_append, outlineAll, outlineAll, ih, Outline.andThen_assoc]

section Untexted

-- A node that is no text, or an empty one: raw or not, it is written in the same way, and it is never
-- the newline that gets lost in reading.
variable {child : Node} (hchild : ∀ data, child = .text data → data = "")
include hchild

theorem outlineAll_cons_of_untexted (depth : Nat) (raw : Bool) (after : List Node) :
    outlineAll depth raw (child :: after) =
      (child.outline depth).andThen (outlineAll depth raw after) := by
  cases child with
  | text data =>
      rw [hchild data rfl]
      cases raw <;> rfl
  | _ => rfl

theorem losesNewline_append (tag : String) (before after : List Node) :
    losesNewline tag (before ++ child :: after) = losesNewline tag before := by
  cases before with
  | nil =>
      cases child with
      | text data =>
          rw [hchild data rfl]
          rfl
      | stray value => cases value <;> rfl
      | _ => rfl
  | cons first rest =>
      cases first with
      | stray value => cases value <;> rfl
      | _ => rfl

end Untexted

end Node

namespace Ancestor

/-- Around a child, what comes before it is written first, then the child, and then there may be
more. -/
theorem exists_outline_around {ancestor : Ancestor} (hpassed : ancestor.IsPassed) (depth : Nat)
    {child : Node} (hchild : ∀ data, child = .text data → data = "") :
    ∃ later, (ancestor.around child).outline depth =
      (Outline.of (ancestor.opened depth)).andThen
        ((child.outline (ancestor.below depth)).andThen later) := by
  obtain ⟨label, before, after⟩ := ancestor
  obtain ⟨hvoid, hbefore⟩ := hpassed
  have hinner : ∀ depth raw, Node.outlineAll depth raw (before ++ child :: after) =
      (Outline.of (Node.outlineAll depth raw before).pieces).andThen
        ((child.outline depth).andThen (Node.outlineAll depth raw after)) := by
    intro depth raw
    have hproceed : (Node.outlineAll depth raw before).ending = .ok .proceed := by
      rw [Node.ending_outlineAll depth raw 0, hbefore]
    rw [Node.outlineAll_append, Node.outlineAll_cons_of_untexted hchild,
      ← Outline.eq_of_pieces hproceed]
  rcases label with _ | ⟨tag, attrs⟩
  · exact ⟨_, hinner depth false⟩
  · refine ⟨(Node.outlineAll (depth + 1) (Tag.isRawText tag) after).andThen
      (Node.closingOutline depth tag (before ++ child :: after)), ?_⟩
    have hbracket : Node.bracketPieces tag (before ++ child :: after) =
        Node.bracketPieces tag before := by
      rw [Node.bracketPieces, Node.bracketPieces, Node.losesNewline_append hchild]
    rw [around, Node.outline, if_neg (by simp [hvoid tag attrs rfl]), hinner, hbracket]
    simp only [opened, below, Outline.of_append, Outline.andThen_assoc]
    rfl

/-- What is written along a way, then at its end, and then there may be more. -/
theorem exists_outline_plug {way : List Ancestor} (hpassed : ∀ ancestor ∈ way, ancestor.IsPassed)
    (depth : Nat) {node : Node} (hnode : ∀ data, node = .text data → data = "") :
    ∃ later, (plug way node).outline depth =
      (Outline.of (openedAll depth way)).andThen
        ((node.outline (depthAt depth way)).andThen later) := by
  induction way generalizing depth with
  | nil =>
      refine ⟨.of [], ?_⟩
      rw [Outline.andThen_nil]
      rfl
  | cons ancestor rest ih =>
      rw [List.forall_mem_cons] at hpassed
      have hchild : ∀ data, plug rest node = .text data → data = "" := by
        intro data hdata
        cases rest with
        | nil => exact hnode data hdata
        | cons next others =>
            obtain ⟨_ | ⟨tag, attrs⟩, before, after⟩ := next <;> cases hdata
      obtain ⟨inner, hinner⟩ := ih hpassed.2 (ancestor.below depth)
      obtain ⟨outer, houter⟩ := exists_outline_around hpassed.1 depth hchild
      refine ⟨inner.andThen outer, ?_⟩
      rw [plug, houter, hinner, openedAll, Outline.of_append]
      simp only [Outline.andThen_assoc]
      rfl

/-- Along a way to a node after which the walk does not go on, what is written ends with that node. -/
theorem outline_plug {way : List Ancestor} {node : Node} {depth : Nat}
    (hpassed : ∀ ancestor ∈ way, ancestor.IsPassed)
    (hended : (node.outline (depthAt depth way)).ending ≠ .ok .proceed) :
    (plug way node).outline depth =
      { pieces := openedAll depth way ++ (node.outline (depthAt depth way)).pieces
        ending := (node.outline (depthAt depth way)).ending } := by
  have htext : ∀ data, node = .text data → data = "" := by
    rintro data rfl
    exact absurd rfl hended
  obtain ⟨later, hlater⟩ := exists_outline_plug hpassed depth htext
  rw [hlater, Outline.andThen_of_ended hended]
  rfl

end Ancestor

end HtmlLayout
