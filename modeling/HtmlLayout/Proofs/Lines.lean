import HtmlLayout.Proofs.Escape
import HtmlLayout.Text.Ascii

/-!
# Lines of text

The lines of a text are what stands between its newlines, so a text without a newline is one line and
a text that ends with a newline has an empty last line. Text that holds no newline lengthens the line
it is put in front of, and a newline opens a new one.
-/

namespace HtmlLayout.Text

/-- A text without a newline. -/
def IsLine (text : String) : Prop := '\n' ∉ text.toList

instance (text : String) : Decidable (IsLine text) :=
  inferInstanceAs (Decidable ('\n' ∉ text.toList))

theorem IsLine.append {first rest : String} (hfirst : IsLine first) (hrest : IsLine rest) :
    IsLine (first ++ rest) := by
  intro hmem
  rw [String.toList_append, List.mem_append] at hmem
  exact hmem.elim hfirst hrest

theorem isLine_join {texts : List String} (htexts : ∀ text ∈ texts, IsLine text) :
    IsLine (String.join texts) := by
  induction texts with
  | nil => decide
  | cons text rest ih =>
      obtain ⟨htext, hrest⟩ := List.forall_mem_cons.mp htexts
      rw [String.join_cons]
      exact htext.append (ih hrest)

theorem isLine_escape {text : String} (htext : IsLine text) : IsLine (escape text) := by
  have hchar : ∀ c, '\n' ∈ escapeChar c → c = '\n' := by
    intro c hc
    unfold escapeChar at hc
    repeat' split at hc
    all_goals simp_all [eq_comm]
  intro hmem
  rw [toList_escape] at hmem
  obtain ⟨c, hc, hnewline⟩ := List.mem_flatMap.mp hmem
  rw [hchar c hnewline] at hc
  exact htext hc

theorem IsLine.startsWith_newline {text : String} (htext : IsLine text) :
    startsWith text "\n" = false := by
  rw [Bool.eq_false_iff]
  intro hstart
  have hfirst : ['\n'] <+: text.toList := by simpa [startsWith] using hstart
  exact htext (hfirst.subset List.mem_cons_self)

/-- The texts between the newlines of a text. -/
def lines (text : String) : List String := (text.toList.splitOn '\n').map String.ofList

theorem lines_append {first : String} (hfirst : IsLine first) (rest : String) :
    lines (first ++ rest) = (lines rest).modifyHead (first ++ ·) := by
  have hsplit : ∀ chars : List Char, '\n' ∉ chars →
      (chars ++ rest.toList).splitOn '\n' = (rest.toList.splitOn '\n').modifyHead (chars ++ ·) := by
    intro chars hchars
    induction chars with
    | nil =>
        rw [List.nil_append]
        cases rest.toList.splitOn '\n' <;> rfl
    | cons c chars ih =>
        rw [List.mem_cons, not_or] at hchars
        have hother : ¬(c == '\n') = true := by simpa using Ne.symm hchars.1
        rw [List.cons_append, List.splitOn_cons_eq_if_modifyHead, if_neg hother, ih hchars.2,
          List.modifyHead_modifyHead]
        rfl
  rw [lines, String.toList_append, hsplit _ hfirst, lines]
  cases rest.toList.splitOn '\n' with
  | nil => rfl
  | cons line others => simp

theorem lines_newline_append (rest : String) : lines ("\n" ++ rest) = "" :: lines rest := by
  have hsplit : ("\n" ++ rest).toList.splitOn '\n' = [] :: rest.toList.splitOn '\n' := by
    rw [String.toList_append]
    exact List.splitOn_cons_eq_if_modifyHead '\n' rest.toList
  rw [lines, hsplit, List.map_cons, lines]

theorem lines_ne_nil (text : String) : lines text ≠ [] := by
  rw [lines, Ne, List.map_eq_nil_iff]
  exact List.splitOn_ne_nil _ _

end HtmlLayout.Text
