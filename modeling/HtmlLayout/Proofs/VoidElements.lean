import HtmlLayout.Proofs.Rules

/-!
# Void elements stay empty

No rule of tree construction puts anything into an element of markup that cannot have contents.
Such an element is barren from the start: it is inserted without children and closed at once, so it
is never among the elements that later rules refer back to, which are the open ones, the formatting
elements and the head. A node that is put before another one, and a block that is moved out of a
formatting element, land in an element that has children already.
-/

namespace HtmlLayout.Html

namespace Draft

/-! ### Tidy trees -/

mutual

/-- The void elements of a tree have barren numbers and no children. -/
def Tidy (barren : Nat → Prop) : Draft → Prop
  | element label children =>
      (label.kind.isVoid = true → barren label.id ∧ children = []) ∧ AllTidy barren children
  | _ => True

def AllTidy (barren : Nat → Prop) : List Draft → Prop
  | [] => True
  | node :: rest => Tidy barren node ∧ AllTidy barren rest

end

mutual

/-- The elements of a tree, each with its children. -/
def elements : Draft → List (Label × List Draft)
  | element label children => (label, children) :: elementsAll children
  | _ => []

def elementsAll : List Draft → List (Label × List Draft)
  | [] => []
  | node :: rest => elements node ++ elementsAll rest

end

variable {barren : Nat → Prop} {id : Nat}

mutual

theorem Tidy.childless (node : Draft) (hnode : node.Tidy barren) :
    ∀ entry ∈ node.elements, entry.1.kind.isVoid = true → entry.2 = [] := by
  cases node with
  | element label children =>
      rw [elements, List.forall_mem_cons]
      exact ⟨fun hvoid => (hnode.1 hvoid).2, AllTidy.childless children hnode.2⟩
  | _ => simp [elements]

theorem AllTidy.childless (nodes : List Draft) (hnodes : AllTidy barren nodes) :
    ∀ entry ∈ elementsAll nodes, entry.1.kind.isVoid = true → entry.2 = [] := by
  match nodes with
  | [] => simp [elementsAll]
  | node :: rest =>
      rw [elementsAll, List.forall_mem_append]
      exact ⟨Tidy.childless node hnodes.1, AllTidy.childless rest hnodes.2⟩

end

theorem tidy_of_isLeaf {node : Draft} (hnode : node.isLeaf = true) : node.Tidy barren := by
  cases node with
  | element label children => cases hnode
  | _ => trivial

theorem tidy_of_kind {label : Label} {children : List Draft} (hlabel : label.kind.isVoid = false)
    (hchildren : AllTidy barren children) : (element label children).Tidy barren :=
  ⟨fun hvoid => absurd (hlabel.symm.trans hvoid) Bool.false_ne_true, hchildren⟩

mutual

theorem Tidy.mono {more : Nat → Prop} (hmore : ∀ id, barren id → more id) (node : Draft)
    (hnode : node.Tidy barren) : node.Tidy more := by
  cases node with
  | element label children =>
      refine ⟨fun hvoid => ?_, AllTidy.mono hmore children hnode.2⟩
      exact ⟨hmore _ (hnode.1 hvoid).1, (hnode.1 hvoid).2⟩
  | _ => trivial

theorem AllTidy.mono {more : Nat → Prop} (hmore : ∀ id, barren id → more id) (nodes : List Draft)
    (hnodes : AllTidy barren nodes) : AllTidy more nodes := by
  match nodes with
  | [] => trivial
  | node :: rest => exact ⟨Tidy.mono hmore node hnodes.1, AllTidy.mono hmore rest hnodes.2⟩

end

/-- An element with children is not void, and may get other children. -/
theorem Tidy.replace {label : Label} {children others : List Draft}
    (hnode : (element label children).Tidy barren) (hchildren : children ≠ [])
    (hothers : AllTidy barren others) : (element label others).Tidy barren :=
  ⟨fun hvoid => absurd (hnode.1 hvoid).2 hchildren, hothers⟩

mutual

theorem Tidy.modify {change : Label → List Draft → Draft}
    (hchange : ∀ label children, label.id = id → (element label children).Tidy barren →
      (change label children).Tidy barren)
    (node : Draft) (hnode : node.Tidy barren) {changed : Draft}
    (hchanged : node.modify id change = some changed) : changed.Tidy barren := by
  cases node with
  | element label children =>
      rw [Draft.modify] at hchanged
      split at hchanged
      · next hid =>
          cases hchanged
          exact hchange label children (eq_of_beq hid) hnode
      · obtain ⟨others, hothers, rfl⟩ := Option.map_eq_some_iff.mp hchanged
        have hsome : children ≠ [] := by
          rintro rfl
          cases hothers
        exact hnode.replace hsome (AllTidy.modifyAll hchange children hnode.2 hothers)
  | _ => cases hchanged

theorem AllTidy.modifyAll {change : Label → List Draft → Draft}
    (hchange : ∀ label children, label.id = id → (element label children).Tidy barren →
      (change label children).Tidy barren)
    (nodes : List Draft) (hnodes : AllTidy barren nodes) {changed : List Draft}
    (hchanged : Draft.modifyAll id change nodes = some changed) : AllTidy barren changed := by
  match nodes with
  | [] => cases hchanged
  | node :: rest =>
      rw [Draft.modifyAll] at hchanged
      split at hchanged
      · next first hfirst =>
          cases hchanged
          exact ⟨Tidy.modify hchange node hnodes.1 hfirst, hnodes.2⟩
      · obtain ⟨others, hothers, rfl⟩ := Option.map_eq_some_iff.mp hchanged
        exact ⟨hnodes.1, AllTidy.modifyAll hchange rest hnodes.2 hothers⟩

end

theorem AllTidy.addChild {nodes changed : List Draft} {node : Draft} (hnodes : AllTidy barren nodes)
    (hid : ¬ barren id) (hnode : node.Tidy barren)
    (hchanged : Draft.modifyAll id (Draft.addChild node) nodes = some changed) :
    AllTidy barren changed := by
  refine AllTidy.modifyAll (fun label children hlabel helement => ?_) nodes hnodes hchanged
  refine ⟨fun hvoid => absurd (helement.1 hvoid).1 ?_, hnode, helement.2⟩
  rwa [hlabel]

theorem AllTidy.setAttrs {nodes changed : List Draft} {attrs : List Dom.Attr}
    (hnodes : AllTidy barren nodes)
    (hchanged : Draft.modifyAll id (Draft.setAttrs attrs) nodes = some changed) :
    AllTidy barren changed := by
  refine AllTidy.modifyAll (fun label children _ helement => ?_) nodes hnodes hchanged
  exact helement

mutual

theorem Tidy.placeBefore {fresh : Draft} (hfresh : fresh.Tidy barren) (node : Draft)
    (hnode : node.Tidy barren) {changed : Draft}
    (hchanged : Draft.placeBefore id fresh node = some changed) : changed.Tidy barren := by
  cases node with
  | element label children =>
      rw [Draft.placeBefore] at hchanged
      obtain ⟨others, hothers, rfl⟩ := Option.map_eq_some_iff.mp hchanged
      have hsome : children ≠ [] := by
        rintro rfl
        cases hothers
      exact hnode.replace hsome (AllTidy.placeBeforeAll hfresh children hnode.2 hothers)
  | _ => cases hchanged

theorem AllTidy.placeBeforeAll {fresh : Draft} (hfresh : fresh.Tidy barren) (nodes : List Draft)
    (hnodes : AllTidy barren nodes) {changed : List Draft}
    (hchanged : Draft.placeBeforeAll id fresh nodes = some changed) : AllTidy barren changed := by
  match nodes with
  | [] => cases hchanged
  | node :: rest =>
      rw [Draft.placeBeforeAll] at hchanged
      split at hchanged
      · cases hchanged
        exact ⟨hnodes.1, hfresh, hnodes.2⟩
      split at hchanged
      · next first hfirst =>
          cases hchanged
          exact ⟨Tidy.placeBefore hfresh node hnodes.1 hfirst, hnodes.2⟩
      · obtain ⟨others, hothers, rfl⟩ := Option.map_eq_some_iff.mp hchanged
        exact ⟨hnodes.1, AllTidy.placeBeforeAll hfresh rest hnodes.2 hothers⟩

end

mutual

theorem Tidy.detach (node : Draft) (hnode : node.Tidy barren) {taken left : Draft}
    (hdetached : node.detach id = some (taken, left)) :
    taken.id? = some id ∧ taken.Tidy barren ∧ left.Tidy barren := by
  cases node with
  | element label children =>
      rw [Draft.detach] at hdetached
      obtain ⟨⟨found, others⟩, hothers, hpair⟩ := Option.map_eq_some_iff.mp hdetached
      cases hpair
      have hsome : children ≠ [] := by
        rintro rfl
        cases hothers
      obtain ⟨hid, htaken, hleft⟩ := AllTidy.detachAll children hnode.2 hothers
      exact ⟨hid, htaken, hnode.replace hsome hleft⟩
  | _ => cases hdetached

theorem AllTidy.detachAll (nodes : List Draft) (hnodes : AllTidy barren nodes) {taken : Draft}
    {left : List Draft} (hdetached : Draft.detachAll id nodes = some (taken, left)) :
    taken.id? = some id ∧ taken.Tidy barren ∧ AllTidy barren left := by
  match nodes with
  | [] => cases hdetached
  | node :: rest =>
      rw [Draft.detachAll] at hdetached
      split at hdetached
      · next hid =>
          cases hdetached
          exact ⟨eq_of_beq hid, hnodes⟩
      split at hdetached
      · next found first hfirst =>
          cases hdetached
          obtain ⟨hid, htaken, hleft⟩ := Tidy.detach node hnodes.1 hfirst
          exact ⟨hid, htaken, hleft, hnodes.2⟩
      · obtain ⟨⟨found, others⟩, hothers, hpair⟩ := Option.map_eq_some_iff.mp hdetached
        cases hpair
        obtain ⟨hid, htaken, hleft⟩ := AllTidy.detachAll rest hnodes.2 hothers
        exact ⟨hid, htaken, hnodes.1, hleft⟩

end

end Draft

/-! ### Intact assemblies -/

/-- An element that may get contents: its number has been given out and is not barren. -/
structure Label.Fertile (barren : Nat → Prop) (nextId : Nat) (label : Label) : Prop where
  issued : label.id < nextId
  notBarren : ¬ barren label.id
  kind : label.kind.isVoid = false

namespace Assembly

/-- All void elements are barren, and no element that rules refer back to is. -/
structure Intact (barren : Nat → Prop) (a : Assembly) : Prop where
  issued : ∀ id, barren id → id < a.nextId
  tidy : Draft.AllTidy barren a.nodes
  stack : ∀ label ∈ a.stack, label.Fertile barren a.nextId
  formatting : ∀ label, some label ∈ a.formatting → label.Fertile barren a.nextId
  head : ∀ label, a.head = some label → label.Fertile barren a.nextId

end Assembly

variable {barren : Nat → Prop} {a : Assembly} {node : Draft}

theorem Label.Fertile.mono {label : Label} {nextId later : Nat} (hlabel : label.Fertile barren nextId)
    (hlater : nextId ≤ later) : label.Fertile barren later :=
  { hlabel with issued := Nat.lt_of_lt_of_le hlabel.issued hlater }

namespace Assembly

/-! ### Insertion -/

section Insertion

variable (htidy : Draft.AllTidy barren a.nodes) (hstack : ∀ label ∈ a.stack, ¬ barren label.id)
  (hnode : node.Tidy barren)

include htidy hnode

theorem tidy_appendTo {id : Nat} (hid : ¬ barren id) :
    Draft.AllTidy barren (a.appendTo id node).nodes := by
  unfold appendTo
  cases hchanged : Draft.modifyAll id (Draft.addChild node) a.nodes with
  | none => exact htidy
  | some changed => exact htidy.addChild hid hnode hchanged

theorem tidy_appendToDocument : Draft.AllTidy barren (a.appendToDocument node).nodes := ⟨hnode, htidy⟩

include hstack

theorem tidy_append : Draft.AllTidy barren (a.append node).nodes := by
  unfold append
  split
  · exact tidy_appendToDocument htidy hnode
  · next label outer hlabel => exact tidy_appendTo htidy hnode (hstack label (by simp [hlabel]))

theorem tidy_appendToRoot : Draft.AllTidy barren (a.appendToRoot node).nodes := by
  unfold appendToRoot
  split
  · exact tidy_appendToDocument htidy hnode
  · next root hroot => exact tidy_appendTo htidy hnode (hstack root (List.mem_of_getLast? hroot))

theorem tidy_placeBeforeTable : Draft.AllTidy barren (a.placeBeforeTable node).nodes := by
  unfold placeBeforeTable
  split
  · exact tidy_appendToRoot htidy hstack hnode
  split
  · next changed hchanged => exact Draft.AllTidy.placeBeforeAll hnode _ htidy hchanged
  · exact tidy_appendToRoot htidy hstack hnode

theorem tidy_insert : Draft.AllTidy barren (a.insert node).nodes := by
  unfold Assembly.insert
  split
  · exact tidy_placeBeforeTable htidy hstack hnode
  · exact tidy_append htidy hstack hnode

end Insertion

namespace Intact

variable (h : a.Intact barren)

include h

theorem not_barren_nextId : ¬ barren a.nextId := fun hbarren => Nat.lt_irrefl _ (h.issued _ hbarren)

theorem not_barren_stack : ∀ label ∈ a.stack, ¬ barren label.id :=
  fun label hlabel => (h.stack label hlabel).notBarren

theorem of_nodes {b : Assembly} (hsame : b = { a with nodes := b.nodes })
    (hnodes : Draft.AllTidy barren b.nodes) : b.Intact barren := by
  rw [hsame]
  exact { h with tidy := hnodes }

theorem shrink {stack : List Label} (hstack : stack ⊆ a.stack) : { a with stack }.Intact barren :=
  { h with stack := fun label hlabel => h.stack label (hstack hlabel) }

/-- The next number is given to an element that may get contents. -/
theorem bump : { a with nextId := a.nextId + 1 }.Intact barren :=
  { issued := fun id hid => Nat.lt_succ_of_lt (h.issued id hid)
    tidy := h.tidy
    stack := fun label hlabel => (h.stack label hlabel).mono (Nat.le_succ _)
    formatting := fun label hlabel => (h.formatting label hlabel).mono (Nat.le_succ _)
    head := fun label hlabel => (h.head label hlabel).mono (Nat.le_succ _) }

/-- The next number is given to a void element. No element that is referred back to has it. -/
theorem bar : { a with nextId := a.nextId + 1 }.Intact (fun id => barren id ∨ id = a.nextId) := by
  have hfertile : ∀ label : Label, label.Fertile barren a.nextId →
      label.Fertile (fun id => barren id ∨ id = a.nextId) (a.nextId + 1) := by
    intro label hlabel
    refine ⟨Nat.lt_succ_of_lt hlabel.issued, ?_, hlabel.kind⟩
    rintro (hid | hid)
    · exact hlabel.notBarren hid
    · exact Nat.ne_of_lt hlabel.issued hid
  constructor
  · rintro id (hid | rfl)
    · exact Nat.lt_succ_of_lt (h.issued id hid)
    · exact Nat.lt_succ_self _
  · exact Draft.AllTidy.mono (fun _ => .inl) _ h.tidy
  · exact fun label hlabel => hfertile label (h.stack label hlabel)
  · exact fun label hlabel => hfertile label (h.formatting label hlabel)
  · exact fun label hlabel => hfertile label (h.head label hlabel)

theorem insertElement {kind : Kind} (hkind : kind.isVoid = false) (attrs : List Dom.Attr) :
    (a.insertElement kind attrs).Intact barren := by
  have hchildless : (Draft.element (a.freshLabel kind attrs) []).Tidy barren :=
    Draft.tidy_of_kind hkind trivial
  rw [insertElement_eq]
  refine { h.bump with tidy := tidy_insert h.tidy h.not_barren_stack hchildless, stack := ?_ }
  exact List.forall_mem_cons.mpr ⟨⟨Nat.lt_succ_self _, h.not_barren_nextId, hkind⟩, h.bump.stack⟩

end Intact

/-- Some numbers are barren, and all others may be referred back to. -/
def Sound (a : Assembly) : Prop := ∃ barren, a.Intact barren

theorem Intact.sound_insertElement_pop (h : a.Intact barren) (kind : Kind) (attrs : List Dom.Attr) :
    (a.insertElement kind attrs).pop.Sound := by
  cases hkind : kind.isVoid with
  | false => exact ⟨barren, (h.insertElement hkind attrs).shrink (List.drop_subset 1 _)⟩
  | true =>
      have hchildless : (Draft.element (a.freshLabel kind attrs) []).Tidy
          (fun id => barren id ∨ id = a.nextId) :=
        ⟨fun _ => ⟨.inr rfl, rfl⟩, trivial⟩
      rw [insertElement_eq]
      exact ⟨_, { h.bar with tidy := @tidy_insert _ a _ h.bar.tidy h.bar.not_barren_stack hchildless }⟩

/-! ### Formatting -/

theorem Intact.reopen (h : a.Intact barren) {entry : Option Label}
    (hentry : ∀ label, entry = some label → label.kind.isVoid = false) :
    (a.reopen entry).Intact barren := by
  cases entry with
  | none => exact h
  | some label =>
      have hopened := h.insertElement (hentry label rfl)
        (plainAttrs (label.attrs.map fun attr => (attr.name, attr.value)))
      refine { hopened with formatting := fun listed hlisted => ?_ }
      rcases List.mem_append.mp hlisted with hold | hnew
      · exact (h.formatting listed hold).mono (Nat.le_succ _)
      · cases List.mem_singleton.mp hnew
        exact hopened.stack _ (List.mem_cons_self ..)

theorem Intact.foldl_reopen (h : a.Intact barren) {lost : List (Option Label)}
    (hlost : ∀ label, some label ∈ lost → label.kind.isVoid = false) :
    (lost.foldl Assembly.reopen a).Intact barren := by
  induction lost generalizing a with
  | nil => exact h
  | cons entry lost ih =>
      apply ih
      · exact h.reopen fun label hlabel => hlost label (by simp [hlabel])
      · exact fun label hlabel => hlost label (List.mem_cons_of_mem _ hlabel)

theorem Intact.reconstruct (h : a.Intact barren) : a.reconstruct.Intact barren := by
  unfold Assembly.reconstruct
  dsimp only
  split
  · exact h
  · apply foldl_reopen
    · exact { h with formatting := fun label hlabel => h.formatting label (List.mem_of_mem_take hlabel) }
    · intro label hlabel
      have hmem := (List.takeWhile_sublist _).subset (List.mem_reverse.mp hlabel)
      exact (h.formatting label (List.mem_reverse.mp hmem)).kind

/-- A block on its way is tidy, and so is the tree it was taken from. -/
structure Move.Intact (barren : Nat → Prop) (move : Move) : Prop where
  assembly : move.assembly.Intact barren
  carried : move.carried.Tidy barren
  kept : ∀ label ∈ move.kept, label.Fertile barren move.assembly.nextId

theorem Intact.copyOf (h : a.Intact barren) {label : Label} (hlabel : label.kind.isVoid = false) :
    (a.copyOf label).Fertile barren (a.nextId + 1) :=
  ⟨Nat.lt_succ_self _, h.not_barren_nextId, hlabel⟩

/-- A copy of a formatting element is put around what is moved. -/
theorem Move.Intact.wrapIn {move : Move} (hmove : move.Intact barren) {label : Label}
    (hlabel : label.kind.isVoid = false) (bookmark : Nat) :
    let copy := move.assembly.copyOf label
    Move.Intact barren
      { assembly :=
          { move.assembly.replaceFormatting label.id copy with nextId := move.assembly.nextId + 1 }
        carried := .element copy [move.carried]
        bookmark
        kept := move.kept ++ [copy] } := by
  intro copy
  have hcopy : copy.Fertile barren (move.assembly.nextId + 1) := hmove.assembly.copyOf hlabel
  refine ⟨{ hmove.assembly.bump with formatting := ?_ }, ?_, ?_⟩
  · intro other hother
    obtain ⟨entry, hentry, hsame⟩ := List.mem_map.mp hother
    split at hsame
    · cases hsame
      exact hcopy
    · rw [hsame] at hentry
      exact hmove.assembly.bump.formatting other hentry
  · exact Draft.tidy_of_kind hlabel ⟨hmove.carried, trivial⟩
  · refine List.forall_mem_append.mpr ⟨?_, List.forall_mem_singleton.mpr hcopy⟩
    exact fun other hother => (hmove.kept other hother).mono (Nat.le_succ _)

theorem Move.Intact.wrap {move : Move} {around : List Label} (hmove : move.Intact barren)
    (haround : ∀ label ∈ around, label.Fertile barren move.assembly.nextId) (count : Nat)
    (innermost : Bool) :
    (Assembly.wrap count innermost move around).Intact barren ∧
      move.assembly.nextId ≤ (Assembly.wrap count innermost move around).assembly.nextId := by
  induction around generalizing count innermost move with
  | nil =>
      have hsame : Assembly.wrap count innermost move [] = move := by cases count <;> simp [Assembly.wrap]
      rw [hsame]
      exact ⟨hmove, Nat.le_refl _⟩
  | cons label outer ih =>
      obtain ⟨hlabel, houter⟩ := List.forall_mem_cons.mp haround
      cases count with
      | zero =>
          refine ⟨{ hmove with kept := ?_ }, Nat.le_refl _⟩
          exact List.forall_mem_append.mpr ⟨hmove.kept, haround⟩
      | succ count =>
          unfold Assembly.wrap
          split
          · let bookmark := if innermost then move.assembly.positionOf label.id + 1 else move.bookmark
            have hwrapped := ih (hmove.wrapIn hlabel.kind bookmark)
              (fun other hother => (houter other hother).mono (Nat.le_succ _)) count false
            exact ⟨hwrapped.1, Nat.le_of_succ_le hwrapped.2⟩
          · exact ih hmove houter count innermost

/-- The block that is taken out of the tree is an element that may have contents. -/
theorem Intact.exists_detached (h : a.Intact barren) {block : Label} (hblock : block ∈ a.stack) :
    ∃ label children left,
      (Draft.detachAll block.id a.nodes).getD (.element block [], a.nodes) =
          (.element label children, left) ∧
        label.kind.isVoid = false ∧ Draft.AllTidy barren children ∧ Draft.AllTidy barren left := by
  cases hdetached : Draft.detachAll block.id a.nodes with
  | none => exact ⟨block, [], a.nodes, rfl, (h.stack block hblock).kind, trivial, h.tidy⟩
  | some pair =>
      obtain ⟨taken, left⟩ := pair
      obtain ⟨hid, htaken, hleft⟩ := Draft.AllTidy.detachAll a.nodes h.tidy hdetached
      cases taken with
      | element label children =>
          refine ⟨label, children, left, rfl, ?_, htaken.2, hleft⟩
          rw [Bool.eq_false_iff]
          intro hvoid
          have hbarren := (htaken.1 hvoid).1
          rw [Option.some.inj hid] at hbarren
          exact (h.stack block hblock).notBarren hbarren
      | text data => cases hid
      | comment data => cases hid
      | doctype name publicId systemId => cases hid

theorem mem_of_mem_insertAt {α : Type} {position : Nat} {x y : α} {xs : List α}
    (hmem : y ∈ insertAt position x xs) : y = x ∨ y ∈ xs := by
  rcases List.mem_append.mp hmem with hold | hnew
  · exact .inr (List.mem_of_mem_take hold)
  · rcases List.mem_cons.mp hnew with hsame | hold
    · exact .inl hsame
    · exact .inr (List.mem_of_mem_drop hold)

/-- What is moved has found its place, and the copy of the formatting element its own. -/
theorem Move.Intact.land {move : Move} (hmove : move.Intact barren) {placed : Assembly}
    (hplaced : placed = { move.assembly with nodes := placed.nodes } ∧
      Draft.AllTidy barren placed.nodes)
    {copy : Label} (hcopy : copy.Fertile barren move.assembly.nextId) {stack : List Label}
    (hstack : ∀ label ∈ stack, label.Fertile barren move.assembly.nextId) (id : Nat) :
    Assembly.Intact barren
      { placed.forget id with
        formatting := insertAt move.bookmark (some copy) (placed.forget id).formatting
        stack } := by
  obtain ⟨hplaced, hnodes⟩ := hplaced
  rw [hplaced]
  refine { hmove.assembly with tidy := hnodes, stack := hstack, formatting := fun label hlabel => ?_ }
  rcases mem_of_mem_insertAt hlabel with hsame | hold
  · cases hsame
    exact hcopy
  · exact hmove.assembly.formatting label (List.mem_filter.mp hold).1

theorem Intact.moveOut (h : a.Intact barren) {formatting block : Label}
    (hformatting : formatting.kind.isVoid = false) (hblock : block ∈ a.stack) :
    (a.moveOut formatting block).Intact barren := by
  obtain ⟨label, children, left, hdetached, hlabel, hchildren, hleft⟩ := h.exists_detached hblock
  have hcopy : (a.copyOf formatting).Fertile barren (a.nextId + 1) := h.copyOf hformatting
  have hstack : ∀ label ∈ a.stack, label.Fertile barren (a.nextId + 1) := h.bump.stack
  have hfirst : Move.Intact barren
      { assembly := { a with nodes := left, nextId := a.nextId + 1 }
        carried := .element label [.element (a.copyOf formatting) children]
        bookmark := a.positionOf formatting.id } := by
    refine ⟨{ h.bump with tidy := hleft }, ?_, by simp⟩
    exact Draft.tidy_of_kind hlabel ⟨Draft.tidy_of_kind hcopy.kind hchildren, trivial⟩
  unfold Assembly.moveOut
  rw [hdetached]
  dsimp only
  -- The parts of the stack that are put together again were all open before.
  have hinside : ∀ label ∈ a.stack.takeWhile fun label => label.id != block.id, label ∈ a.stack :=
    fun label hlabel => (List.takeWhile_sublist _).subset hlabel
  have houtside : ∀ label ∈ (a.stack.dropWhile fun label => label.id != block.id).drop 1,
      label ∈ a.stack :=
    fun label hlabel => (List.dropWhile_sublist _).subset (List.mem_of_mem_drop hlabel)
  generalize (a.stack.takeWhile fun label => label.id != block.id) = inside at hinside ⊢
  generalize (a.stack.dropWhile fun label => label.id != block.id).drop 1 = outside at houtside ⊢
  have hbelow : ∀ label ∈ (outside.dropWhile fun label => label.id != formatting.id).drop 1,
      label ∈ a.stack :=
    fun label hlabel =>
      houtside label ((List.dropWhile_sublist _).subset (List.mem_of_mem_drop hlabel))
  generalize (outside.dropWhile fun label => label.id != formatting.id).drop 1 = below at hbelow ⊢
  obtain ⟨hmoved, hlater⟩ := hfirst.wrap
    (fun label hlabel => hstack label (houtside label ((List.takeWhile_sublist
      fun label => label.id != formatting.id).subset hlabel))) 3 true
  generalize Assembly.wrap 3 true _ _ = moved at hmoved hlater ⊢
  have hopen : ∀ label ∈ a.stack, label.Fertile barren moved.assembly.nextId :=
    fun label hlabel => (hstack label hlabel).mono hlater
  have hreopened : ∀ label ∈ inside ++ a.copyOf formatting :: block :: (moved.kept ++ below),
      label.Fertile barren moved.assembly.nextId := by
    simp only [List.forall_mem_append, List.forall_mem_cons]
    exact ⟨fun label hlabel => hopen label (hinside label hlabel), hcopy.mono hlater,
      hopen block hblock, hmoved.kept, fun label hlabel => hopen label (hbelow label hlabel)⟩
  refine hmoved.land ?_ (hcopy.mono hlater) hreopened formatting.id
  split
  · exact ⟨rfl, tidy_appendToDocument hmoved.assembly.tidy hmoved.carried⟩
  split
  · exact ⟨placeBeforeTable_eq .., tidy_placeBeforeTable hmoved.assembly.tidy
      hmoved.assembly.not_barren_stack hmoved.carried⟩
  · exact ⟨rfl, tidy_appendTo hmoved.assembly.tidy hmoved.carried (hopen _ (hbelow _ (by simp))).notBarren⟩

/-! ### Every edit -/

theorem Intact.congr (h : a.Intact barren) {b : Assembly} (hcore : b.core = a.core) :
    b.Intact barren := by
  obtain ⟨hnodes, hnextId, hstack, hformatting, hhead, -⟩ := by simpa [core] using hcore
  constructor
  · rw [hnextId]
    exact h.issued
  · rw [hnodes]
    exact h.tidy
  · rw [hstack, hnextId]
    exact h.stack
  · rw [hformatting, hnextId]
    exact h.formatting
  · rw [hhead, hnextId]
    exact h.head

theorem Intact.insertRoot (h : a.Intact barren) : a.insertRoot.Intact barren := by
  have hkind : (a.freshLabel (.html "html") []).kind.isVoid = false :=
    show (Kind.html "html").isVoid = false by decide
  refine { h.bump with tidy := ⟨Draft.tidy_of_kind hkind trivial, h.tidy⟩, stack := ?_ }
  exact List.forall_mem_singleton.mpr ⟨Nat.lt_succ_self _, h.not_barren_nextId, hkind⟩

theorem Intact.mergeAttrs (h : a.Intact barren) (target : Label) (attrs : List (String × String)) :
    (a.mergeAttrs target attrs).Intact barren := by
  refine { h with tidy := ?_, stack := ?_ }
  · unfold Assembly.mergeAttrs
    dsimp only
    generalize attrs.foldl _ target.attrs = merged
    cases hchanged : Draft.modifyAll target.id (Draft.setAttrs merged) a.nodes with
    | none => exact h.tidy
    | some changed => exact h.tidy.setAttrs hchanged
  · intro label hlabel
    obtain ⟨old, hold, rfl⟩ := List.mem_map.mp hlabel
    have hfertile := h.stack old hold
    split
    · exact { hfertile with }
    · exact hfertile

/-- No edit puts anything into a void element. -/
theorem Edit.sound {declares : Prop} {b : Assembly} (hedit : Edit declares a b) (hsound : a.Sound) :
    b.Sound := by
  obtain ⟨barren, h⟩ := hsound
  cases hedit with
  | set hcore => exact ⟨barren, h.congr hcore⟩
  | shrink hstack => exact ⟨barren, h.shrink hstack⟩
  | thin hformatting =>
      exact ⟨barren, { h with formatting := fun label hlabel => h.formatting label (hformatting hlabel) }⟩
  | mark =>
      refine ⟨barren, { h with formatting := fun label hlabel => h.formatting label ?_ }⟩
      simpa [addMarker] using hlabel
  | list hlabel =>
      refine ⟨barren, { h with formatting := fun other hother => ?_ }⟩
      rcases List.mem_append.mp hother with hold | hnew
      · exact h.formatting other hold
      · cases List.mem_singleton.mp hnew
        exact h.stack _ hlabel
  | insert hnode =>
      have htidy := tidy_insert h.tidy h.not_barren_stack (Draft.tidy_of_isLeaf hnode)
      exact ⟨barren, h.of_nodes (a.insert_eq _) htidy⟩
  | append hnode =>
      have htidy := tidy_append h.tidy h.not_barren_stack (Draft.tidy_of_isLeaf hnode)
      exact ⟨barren, h.of_nodes (a.append_eq _) htidy⟩
  | appendToRoot hnode =>
      have htidy := tidy_appendToRoot h.tidy h.not_barren_stack (Draft.tidy_of_isLeaf hnode)
      exact ⟨barren, h.of_nodes (a.appendToRoot_eq _) htidy⟩
  | appendToDocument hnode =>
      exact ⟨barren, h.of_nodes rfl (tidy_appendToDocument h.tidy (Draft.tidy_of_isLeaf hnode))⟩
  | start hkind attrs => exact ⟨barren, h.insertElement hkind attrs⟩
  | startAndEnd kind attrs => exact h.sound_insertElement_pop kind attrs
  | root => exact ⟨barren, h.insertRoot⟩
  | merge target attrs => exact ⟨barren, h.mergeAttrs target attrs⟩
  | keepHead hlabel =>
      refine ⟨barren, { h with head := ?_ }⟩
      rintro _ ⟨⟩
      exact h.stack _ hlabel
  | reopenHead hlabel =>
      refine ⟨barren, { h with stack := ?_ }⟩
      exact List.forall_mem_cons.mpr ⟨h.head _ hlabel, h.stack⟩
  | detach id =>
      refine ⟨barren, { h with tidy := ?_ }⟩
      cases hdetached : Draft.detachAll id a.nodes with
      | none => exact h.tidy
      | some pair => exact (Draft.AllTidy.detachAll a.nodes h.tidy hdetached).2.2
  | reconstruct => exact ⟨barren, h.reconstruct⟩
  | moveOut hformatting hblock =>
      exact ⟨barren, h.moveOut (h.formatting _ hformatting).kind hblock⟩
  | declare hdeclares label => exact ⟨barren, { h with }⟩

theorem Edits.sound {declares : Prop} {first : Assembly} (hedits : Edits declares first a)
    (hsound : first.Sound) : a.Sound := by
  induction hedits with
  | refl => exact hsound
  | tail _ hedit ih => exact hedit.sound ih

end Assembly

/-! ### Whole texts -/

namespace Parser

theorem sound_forDocument : forDocument.assembly.Sound :=
  ⟨fun _ => False, by simp, trivial, by simp [forDocument], by simp [forDocument], by simp [forDocument]⟩

theorem sound_forFragment (container : String) : (forFragment container).assembly.Sound := by
  have hempty : Assembly.Sound { container := some (Text.lower container) } :=
    ⟨fun _ => False, by simp, trivial, by simp, by simp, by simp⟩
  have hroot : Assembly.Edits True { container := some (Text.lower container) }
      (forFragment container).assembly :=
    (Assembly.Edits.edit .refl .root).set rfl
  exact hroot.sound hempty

/-- Whatever is read, no void element of the tree has contents. -/
theorem void_childless {p : Parser} (hsound : p.assembly.Sound) (text : List Char) :
    ∀ entry ∈ Draft.elementsAll (p.feed text).finish.assembly.nodes,
      entry.1.kind.isVoid = true → entry.2 = [] := by
  have hfed : Assembly.Edits True p.assembly (p.feed text).assembly := edits_feed .refl text
  obtain ⟨barren, hintact⟩ := (edits_finish hfed).sound hsound
  exact Draft.AllTidy.childless _ hintact.tidy

end Parser

end HtmlLayout.Html
