import HtmlLayout.Layout
import HtmlLayout.Proofs.Conversion

/-!
# Attribute names from a document tree to a start tag

An attribute of a document tree has its qualified name, and besides a prefix and a local name. The
conversion to nodes keeps prefix and local name where there is a prefix that is not empty, and the
qualified name otherwise; a start tag joins what it finds. The two agree on every attribute that was
set, be it by its whole name, which is never split, or by a qualified name, which is split at the
first colon: the name in the start tag is the qualified name, wherever its colons are.

That an attribute was set in one of these two ways is all that is asked of it. It holds of whatever an
element comes to hold, since setting an attribute anew changes its prefix and its name together.
-/

namespace HtmlLayout.Dom

/-! ### Names that are split -/

/-- A name that is split is its prefix, a colon and its local name. -/
theorem join_splitName {name lead leaf : String} (hsplit : splitName name = (some lead, leaf)) :
    lead ++ ":" ++ leaf = name := by
  have hwhole := List.takeWhile_append_dropWhile (p := (· != ':')) (l := name.toList)
  have hhead := List.head?_dropWhile_not (· != ':') name.toList
  simp only [splitName] at hsplit
  split at hsplit
  · cases hsplit
  · next colon rest hdrop =>
      simp only [Prod.mk.injEq, Option.some.injEq] at hsplit
      obtain ⟨rfl, rfl⟩ := hsplit
      rw [hdrop] at hwhole hhead
      have hcolon : colon = ':' := by simpa using hhead
      rw [hcolon] at hwhole
      apply String.toList_injective
      simpa using hwhole

namespace Attr

/-- What an attribute is right after it was set, by its whole name or by a qualified name. -/
inductive IsSet : Attr → Prop
  | plain (name value : String) : IsSet (.plain name value)
  | qualified (space : Option String) (name value : String) : IsSet (.qualified space name value)

theorem qualified_eq {name leaf : String} {lead : Option String} (hsplit : splitName name = (lead, leaf))
    (space : Option String) (value : String) :
    qualified space name value = { name, value, space, lead, leaf } := by
  rw [qualified, hsplit]

@[simp] theorem value_toAttribute (attr : Attr) : attr.toAttribute.value = attr.value := by
  unfold toAttribute
  repeat' split
  all_goals rfl

/-- A name is kept in two parts only if it was split at a colon that is not its first character. -/
theorem qualifier_toAttribute (attr : Attr) : attr.toAttribute.qualifier = attr.lead.getD "" := by
  unfold toAttribute
  split
  · next hlead => rw [hlead, Option.getD_none]
  · next lead hlead =>
      rw [hlead, Option.getD_some]
      split
      · next hempty => exact (eq_of_beq hempty).symm
      · rfl

/-- The prefix and the local name that the conversion keeps are joined to the qualified name. -/
theorem IsSet.name_toAttribute {attr : Attr} (hset : attr.IsSet) :
    attr.toAttribute.name = attr.name := by
  cases hset with
  | plain name value => rfl
  | qualified space name value =>
      rcases hsplit : splitName name with ⟨lead, leaf⟩
      rw [qualified_eq hsplit]
      cases lead with
      | none => rfl
      | some lead =>
          by_cases hempty : lead = ""
          · subst hempty
            rfl
          · simpa [toAttribute, Attribute.name, hempty] using join_splitName hsplit

/-! ### What an element comes to hold -/

theorem IsSet.withValue {attr : Attr} (hset : attr.IsSet) (value : String) :
    { attr with value }.IsSet := by
  cases hset with
  | plain name _ => exact .plain name value
  | qualified space name _ => exact .qualified space name value

/-- An attribute that is set anew with another prefix is as if it had not been there before. -/
theorem IsSet.renew {old : Attr} (hset : old.IsSet) {space : Option String} {name value : String}
    (hcollides : old.collides (.qualified space name value) = true) :
    (old.renew (.qualified space name value)).IsSet := by
  unfold Attr.renew
  split
  · exact hset.withValue _
  · have hsame : old.space = space ∧ old.leaf = (splitName name).2 := by
      simpa [collides, Attr.qualified] using hcollides
    rw [hsame.1, hsame.2]
    exact .qualified space name value

section Operations

variable {attrs : List Attr} (hattrs : ∀ attr ∈ attrs, attr.IsSet)

include hattrs

theorem isSet_push {fresh : Attr} (hfresh : fresh.IsSet) : ∀ attr ∈ push attrs fresh, attr.IsSet := by
  intro attr hattr
  rw [push, List.mem_append, List.mem_singleton] at hattr
  obtain hold | rfl := hattr
  · exact hattrs attr (List.mem_of_mem_filter hold)
  · exact hfresh

theorem isSet_set (name value : String) : ∀ attr ∈ set attrs name value, attr.IsSet := by
  unfold set
  split
  · intro attr hattr
    obtain ⟨old, hold, rfl⟩ := List.mem_map.mp hattr
    split
    · exact (hattrs old hold).withValue value
    · exact hattrs old hold
  · exact isSet_push hattrs (.plain name value)

theorem isSet_setQualified (space : Option String) (name value : String) :
    ∀ attr ∈ setQualified attrs space name value, attr.IsSet := by
  unfold setQualified
  extract_lets fresh
  split
  · intro attr hattr
    obtain ⟨old, hold, rfl⟩ := List.mem_map.mp hattr
    split
    · next hcollides => exact (hattrs old hold).renew hcollides
    · exact hattrs old hold
  · exact isSet_push hattrs (.qualified space name value)

theorem isSet_addMissing (name value : String) :
    ∀ attr ∈ addMissing attrs name value, attr.IsSet := by
  unfold addMissing
  split
  · exact hattrs
  · exact List.forall_mem_append.mpr ⟨hattrs, List.forall_mem_singleton.mpr (.plain name value)⟩

end Operations

/-- The attributes that an element can come to hold, one setting after the other. -/
inductive Held : List Attr → Prop
  | empty : Held []
  | set {attrs : List Attr} (name value : String) : Held attrs → Held (Attr.set attrs name value)
  | setQualified {attrs : List Attr} (space : Option String) (name value : String) :
      Held attrs → Held (Attr.setQualified attrs space name value)
  | addMissing {attrs : List Attr} (name value : String) :
      Held attrs → Held (Attr.addMissing attrs name value)

theorem Held.isSet {attrs : List Attr} (hheld : Held attrs) : ∀ attr ∈ attrs, attr.IsSet := by
  induction hheld with
  | empty => simp
  | set name value _ ih => exact isSet_set ih name value
  | setQualified space name value _ ih => exact isSet_setQualified ih space name value
  | addMissing name value _ ih => exact isSet_addMissing ih name value

end Attr

/-! ### Start tags -/

/-- An element on its own is converted as soon as its children are. -/
theorem toNodes_element (tag : String) (attrs : List Attr) (children : List Dom) :
    toNodes [element tag attrs children] =
      (toNodes children).map fun nodes => [.element tag (attrs.map Attr.toAttribute) nodes] := by
  rw [toNodes_eq_convertAll, toNodes_eq_convertAll, convertAll, convert]
  cases convertAll children <;> rfl

/-- The start tag of an element that was converted. Its attributes are those of the element in their
order, each with the qualified name it has there and with its escaped value, although the conversion
keeps a prefix apart from the rest of the name. -/
theorem startTag_writes_qualified_names (tag : String) {attrs : List Attr}
    (hset : ∀ attr ∈ attrs, attr.IsSet) :
    ∃ converted : List Attribute,
      (∀ children, toNodes [element tag attrs children] =
        (toNodes children).map fun nodes => [.element tag converted nodes]) ∧
      converted.map Attribute.qualifier = attrs.map (fun attr => attr.lead.getD "") ∧
      converted.map Attribute.name = attrs.map Attr.name ∧
      Node.startTag tag converted =
        "<" ++ tag ++ String.join (attrs.map fun attr =>
          " " ++ attr.name ++ "=\"" ++ Text.escape attr.value ++ "\"") := by
  refine ⟨attrs.map Attr.toAttribute, toNodes_element tag attrs, ?_, ?_, ?_⟩
  · rw [List.map_map]
    exact List.map_congr_left fun attr _ => attr.qualifier_toAttribute
  · rw [List.map_map]
    exact List.map_congr_left fun attr hattr => (hset attr hattr).name_toAttribute
  · have hmarkup : ∀ attr ∈ attrs, attr.toAttribute.markup =
        " " ++ attr.name ++ "=\"" ++ Text.escape attr.value ++ "\"" := by
      intro attr hattr
      rw [Attribute.markup, (hset attr hattr).name_toAttribute, Attr.value_toAttribute]
    rw [Node.startTag, List.map_map]
    exact congrArg (fun texts => "<" ++ tag ++ String.join texts) (List.map_congr_left hmarkup)

/-- Names with a colon at every place, set in both ways, and one of them set anew with another prefix. -/
theorem startTag_writes_qualified_names_colons :
    let plainly := Attr.set (Attr.set [] "a:b:c" "<") ":d" "1"
    let attrs := Attr.setQualified (Attr.setQualified (Attr.setQualified (Attr.setQualified plainly
      (some "u") "x:y:z" "\"") (some "u") ":e" "") none "f:" "&") (some "u") "w:e" "2"
    (∀ attr ∈ attrs, attr.IsSet) ∧
      ∃ converted : List Attribute,
        toNodes [element "svg" attrs []] = .ok [.element "svg" converted []] ∧
        converted.map Attribute.qualifier = ["", "", "x", "w", "f"] ∧
        Node.startTag "svg" converted =
          "<svg a:b:c=\"&lt;\" :d=\"1\" x:y:z=\"&quot;\" w:e=\"2\" f:=\"&amp;\"" := by
  intro plainly attrs
  have hset : ∀ attr ∈ attrs, attr.IsSet :=
    ((((((Attr.Held.empty.set _ _).set _ _).setQualified _ _ _).setQualified _ _ _).setQualified
      _ _ _).setQualified _ _ _).isSet
  obtain ⟨converted, hnodes, hqualifiers, -, htag⟩ := startTag_writes_qualified_names "svg" hset
  exact ⟨hset, converted, hnodes [], hqualifiers.trans (by decide), htag.trans (by decide)⟩

end HtmlLayout.Dom
