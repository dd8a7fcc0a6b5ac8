import HtmlLayout.Dom.Convert
import HtmlLayout.Proofs.Shape

/-!
# Conversion of document trees

The conversion of a document tree works on stacks of its own and counts its turns. It does what the
plain recursion does: every node is converted by itself, with its children converted in the same
way, and the first node that has no counterpart ends it. The counter is never used up.

Neither the conversion nor the normal form changes the marks of a tree.
-/

namespace HtmlLayout.Dom

/-! ### The plain recursion -/

mutual

/-- The node of a document tree, or the kind of the first node without a counterpart. -/
def convert : Dom → Except Nat Node
  | element tag attrs children => (convertAll children).map (.element tag (attrs.map Attr.toAttribute))
  | leaf => leafNode leaf

def convertAll : List Dom → Except Nat (List Node)
  | [] => .ok []
  | node :: rest => do
      let made ← convert node
      let others ← convertAll rest
      return made :: others

end

/-- How the walk goes on once nodes have been converted. -/
def Walk.resume {α : Type} (next : α → Turn) : Except Nat α → Turn
  | .ok made => next made
  | .error kind => .unsupported kind

open Walk in
mutual

theorem run_node (node : Dom) (more : List Dom) (left : Nat) (frame : Frame) (outer : List Frame)
    (nodes : List Node) (rest : List (List Node)) :
    run (turns node + left)
        { frames := { frame with pending := node :: more } :: outer, made := nodes :: rest } =
      resume (fun made => run left
        { frames := { frame with pending := more } :: outer, made := (made :: nodes) :: rest })
        (convert node) := by
  cases node with
  | element tag attrs children =>
      -- One turn goes down to the children, theirs convert them, and one turn comes back up.
      have hinside := run_siblings children [] (left + 1) { tag, attrs, pending := [] }
        ({ frame with pending := more } :: outer) [] (nodes :: rest)
      have hturns : turns (element tag attrs children) + left =
          turnsAll children + (left + 1) + 1 := by
        simp only [turns]
        omega
      rw [List.append_nil] at hinside
      have hdown : run (turnsAll children + (left + 1) + 1)
          { frames := { frame with pending := element tag attrs children :: more } :: outer
            made := nodes :: rest } =
          run (turnsAll children + (left + 1))
            { frames := { tag, attrs, pending := children } :: { frame with pending := more } :: outer
              made := [] :: nodes :: rest } := rfl
      rw [hturns, hdown, hinside, convert]
      cases convertAll children with
      | error kind => rfl
      | ok made => simp [resume, run, turn, leave, add, Except.map]
  | _ =>
      simp only [turns, Nat.add_comm 1 left]
      rfl

theorem run_siblings (siblings more : List Dom) (left : Nat) (frame : Frame) (outer : List Frame)
    (nodes : List Node) (rest : List (List Node)) :
    run (turnsAll siblings + left)
        { frames := { frame with pending := siblings ++ more } :: outer, made := nodes :: rest } =
      resume (fun made => run left
        { frames := { frame with pending := more } :: outer
          made := (made.reverse ++ nodes) :: rest }) (convertAll siblings) := by
  match siblings with
  | [] => simp [turnsAll, convertAll, resume]
  | node :: others =>
      have hnode := run_node node (others ++ more) (turnsAll others + left) frame outer nodes rest
      rw [turnsAll, Nat.add_assoc, List.cons_append, hnode, convertAll]
      cases convert node with
      | error kind => rfl
      | ok made =>
          have hothers := run_siblings others more left frame outer (made :: nodes) rest
          simp only [resume] at hothers ⊢
          rw [hothers]
          cases convertAll others with
          | error kind => rfl
          | ok further => simp [bind, Except.bind, pure, Except.pure]

end

/-- However many turns are allowed beyond those it needs, the walk ends with the plain recursion. -/
theorem run_start (siblings : List Dom) (left : Nat) :
    Walk.run (turnsAll siblings + (left + 1)) (.start siblings) =
      Walk.resume .finished (convertAll siblings) := by
  have hrun := run_siblings siblings [] (left + 1) { pending := [] } [] [] []
  rw [List.append_nil] at hrun
  refine hrun.trans ?_
  cases convertAll siblings with
  | error kind => rfl
  | ok made => simp [Walk.resume, Walk.run, Walk.turn, Walk.leave]

/-- The conversion is the plain recursion. -/
theorem toNodes_eq_convertAll (siblings : List Dom) : toNodes siblings = convertAll siblings := by
  rw [toNodes, run_start siblings 0]
  cases convertAll siblings <;> rfl

/-! ### The normal form -/

mutual

/-- The marks of a document tree. -/
def marks (keep : Char → Bool) : Dom → List Mark
  | element tag attrs children => [.element tag (attrs.map Attr.toAttribute) (marksAll keep children)]
  | leaf =>
      match leafNode leaf with
      | .ok node => node.marks keep
      | .error _ => []

def marksAll (keep : Char → Bool) : List Dom → List Mark
  | [] => []
  | node :: rest => marks keep node ++ marksAll keep rest

end

theorem rowwise_marksAll (keep : Char → Bool) : Rowwise (marksAll keep) (marks keep) (· ++ ·) [] :=
  ⟨rfl, fun _ _ => rfl⟩

theorem marksAll_append (keep : Char → Bool) (first rest : List Dom) :
    marksAll keep (first ++ rest) = marksAll keep first ++ marksAll keep rest :=
  (rowwise_marksAll keep).append List.nil_append List.append_assoc first rest

theorem marksAll_joinText (keep : Char → Bool) (data : String) (rest : List Dom) :
    marksAll keep (joinText data rest) = Mark.ofText keep data ++ marksAll keep rest := by
  unfold joinText
  split
  · next hempty => simp [eq_of_beq hempty, Mark.ofText]
  · split
    · simp [marksAll, marks, leafNode, Node.marks, Mark.ofText]
    · rfl

mutual

theorem marks_normalize (keep : Char → Bool) (node : Dom) :
    (normalize node).marks keep = node.marks keep := by
  cases node with
  | element tag attrs children => simp [normalize, marks, marksAll_normalizeAll keep children]
  | _ => rfl

theorem marksAll_normalizeAll (keep : Char → Bool) (nodes : List Dom) :
    marksAll keep (normalizeAll nodes) = marksAll keep nodes := by
  match nodes with
  | [] => rfl
  | node :: rest =>
      have hrest := marksAll_normalizeAll keep rest
      cases node with
      | text data => rw [normalizeAll, marksAll_joinText, hrest]; rfl
      | element tag attrs children =>
          have hnode := marks_normalize keep (element tag attrs children)
          simp only [normalizeAll, marksAll, hnode, hrest]
      | _ => simp only [normalizeAll, marksAll, normalize, hrest]

end

theorem rowwise_two_mul_nestingAll :
    Rowwise (fun nodes => 2 * nestingAll nodes) (fun node => 2 * node.nesting) max 0 :=
  ⟨rfl, fun _ _ => (Nat.mul_max_mul_left ..).symm⟩

/-- A walk over what is made of a node opens two calls for each element on the longest way down. -/
theorem nestingAll_marks (keep : Char → Bool) (node : Dom) :
    Mark.nestingAll (node.marks keep) = 2 * node.nesting := by
  cases node with
  | element tag attrs children =>
      have hchildren : Mark.nestingAll (marksAll keep children) = 2 * nestingAll children :=
        (rowwise_marksAll keep).map_eq rowwise_two_mul_nestingAll rfl Mark.nestingAll_append
          fun child _ => nestingAll_marks keep child
      simp [marks, Mark.nestingAll, Mark.nesting, nesting, hchildren, Nat.mul_add]
  | other kind => rfl
  | _ => simp [marks, leafNode, Node.marks, Mark.nestingAll, Mark.nesting, nesting, Node.nesting]

theorem nestingAll_marksAll (keep : Char → Bool) (nodes : List Dom) :
    Mark.nestingAll (marksAll keep nodes) = 2 * nestingAll nodes :=
  (rowwise_marksAll keep).map_eq rowwise_two_mul_nestingAll rfl Mark.nestingAll_append
    fun node _ => nestingAll_marks keep node

/-! ### Trees that can be converted -/

mutual

/-- Whether all nodes of a document tree have counterparts. -/
def isSupported : Dom → Bool
  | element _ _ children => areSupported children
  | other _ => false
  | _ => true

def areSupported : List Dom → Bool
  | [] => true
  | node :: rest => isSupported node && areSupported rest

end

theorem areSupported_append (first rest : List Dom) :
    areSupported (first ++ rest) = (areSupported first && areSupported rest) :=
  Rowwise.append ⟨rfl, fun _ _ => rfl⟩ Bool.true_and Bool.and_assoc first rest

theorem areSupported_joinText (data : String) (rest : List Dom) :
    areSupported (joinText data rest) = areSupported rest := by
  unfold joinText
  split
  · rfl
  · split <;> simp [areSupported, isSupported]

mutual

theorem isSupported_normalize (node : Dom) : (normalize node).isSupported = node.isSupported := by
  cases node with
  | element tag attrs children => simp [normalize, isSupported, areSupported_normalizeAll children]
  | _ => rfl

theorem areSupported_normalizeAll (nodes : List Dom) :
    areSupported (normalizeAll nodes) = areSupported nodes := by
  match nodes with
  | [] => rfl
  | node :: rest =>
      have hrest := areSupported_normalizeAll rest
      cases node with
      | text data => simp [normalizeAll, areSupported_joinText, areSupported, isSupported, hrest]
      | element tag attrs children =>
          have hnode := isSupported_normalize (element tag attrs children)
          simp only [normalizeAll, areSupported, hnode, hrest]
      | _ => simp only [normalizeAll, areSupported, normalize, hrest]

end

mutual

theorem exists_convert (keep : Char → Bool) {node : Dom} (hnode : node.isSupported = true) :
    ∃ made, convert node = .ok made ∧ made.marks keep = node.marks keep := by
  cases node with
  | element tag attrs children =>
      obtain ⟨made, hmade, hmarks⟩ := exists_convertAll keep hnode
      exact ⟨.element tag (attrs.map Attr.toAttribute) made, by simp [convert, hmade, Except.map],
        by simp [Node.marks, marks, hmarks]⟩
  | other kind => simp [isSupported] at hnode
  | _ => exact ⟨_, rfl, rfl⟩

/-- Nodes that all have counterparts are converted, and keep their marks. -/
theorem exists_convertAll (keep : Char → Bool) {nodes : List Dom} (hnodes : areSupported nodes = true) :
    ∃ made, convertAll nodes = .ok made ∧ Node.marksAll keep made = marksAll keep nodes := by
  match nodes with
  | [] => exact ⟨[], rfl, rfl⟩
  | node :: rest =>
      obtain ⟨hnode, hrest⟩ := Bool.and_eq_true_iff.mp hnodes
      obtain ⟨made, hmade, hmarks⟩ := exists_convert keep hnode
      obtain ⟨others, hothers, hotherMarks⟩ := exists_convertAll keep hrest
      exact ⟨made :: others, by simp [convertAll, hmade, hothers, bind, Except.bind, pure, Except.pure],
        by simp [Node.marksAll, marksAll, hmarks, hotherMarks]⟩

end

theorem exists_toNodes_normalizeAll (keep : Char → Bool) {siblings : List Dom}
    (hsiblings : areSupported siblings = true) :
    ∃ nodes, toNodes (normalizeAll siblings) = .ok nodes ∧
      Node.marksAll keep nodes = marksAll keep siblings := by
  rw [← areSupported_normalizeAll] at hsiblings
  obtain ⟨nodes, hnodes, hmarks⟩ := exists_convertAll keep hsiblings
  exact ⟨nodes, by rw [toNodes_eq_convertAll, hnodes], by rw [hmarks, marksAll_normalizeAll]⟩

end HtmlLayout.Dom
