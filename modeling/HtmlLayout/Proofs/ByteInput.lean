import HtmlLayout.Formatting
import HtmlLayout.Proofs.TagNames
import HtmlLayout.Proofs.Utf8

/-!
# Bytes are read like the text they encode

The bytes of a text, in UTF-8, are read exactly as the text itself, unless something in them says
otherwise: a byte order mark, which only a text that starts with one encodes to, or a declaration,
which takes a `<meta` somewhere. The search of the first bytes and the reading itself both see the
text a little changed. The one sees bytes in place of characters, the other sees newlines in place of
other line ends and replacements in place of nulls. None of these changes brings a word about that
was not there.
-/

namespace HtmlLayout

namespace Text

/-- `shown` is `text` with some stretches covered by characters that are not in `word`. -/
inductive Covers (word : List Char) : List Char → List Char → Prop where
  | nil : Covers word [] []
  | keep (c : Char) {text shown : List Char} (hrest : Covers word text shown) :
      Covers word (c :: text) (c :: shown)
  | cover (stretch : List Char) {c : Char} {text shown : List Char} (hc : c ∉ word)
      (hrest : Covers word text shown) : Covers word (stretch ++ text) (c :: shown)

namespace Covers

variable {word text shown : List Char}

theorem isPrefix_of_shown (h : Covers word text shown) {part : List Char} (hpart : part ⊆ word)
    (hstart : part <+: shown) : part <+: text := by
  induction h generalizing part with
  | nil => exact hstart
  | keep c _ ih =>
      cases part with
      | nil => exact List.nil_prefix
      | cons d part =>
          obtain ⟨hd, hmore⟩ := List.cons_prefix_cons.mp hstart
          exact List.cons_prefix_cons.mpr ⟨hd, ih (List.subset_of_cons_subset hpart) hmore⟩
  | cover stretch hc _ ih =>
      cases part with
      | nil => exact List.nil_prefix
      | cons d part =>
          obtain ⟨rfl, -⟩ := List.cons_prefix_cons.mp hstart
          exact absurd (hpart List.mem_cons_self) hc

/-- A word that is there after some stretches are covered was there before. -/
theorem isInfix_of_shown (h : Covers word text shown) (hword : word <:+: shown) : word <:+: text := by
  have hself : word ⊆ word := List.Subset.refl word
  induction h with
  | nil => exact hword
  | keep c hrest ih =>
      obtain hstart | hin := List.infix_cons_iff.mp hword
      · exact ((keep c hrest).isPrefix_of_shown hself hstart).isInfix
      · exact (ih hin).trans (List.suffix_cons ..).isInfix
  | cover stretch hc hrest ih =>
      obtain hstart | hin := List.infix_cons_iff.mp hword
      · exact ((cover stretch hc hrest).isPrefix_of_shown hself hstart).isInfix
      · exact (ih hin).trans (List.suffix_append ..).isInfix

/-- A whole text of other characters covers a stretch. -/
theorem append {cover : List Char} (hcover : ∀ c ∈ cover, c ∉ word) (hsome : cover ≠ [])
    (stretch : List Char) (h : Covers word text shown) :
    Covers word (stretch ++ text) (cover ++ shown) := by
  induction cover generalizing stretch with
  | nil => exact absurd rfl hsome
  | cons c others ih =>
      have hc : c ∉ word := hcover c List.mem_cons_self
      cases others with
      | nil => exact .cover stretch hc h
      | cons d more =>
          have hrest := ih (fun e he => hcover e (List.mem_cons_of_mem _ he)) (by simp) []
          exact .cover stretch hc hrest

end Covers

/-- Characters beyond ASCII have no case. -/
theorem lowerChar_of_le {c : Char} (hc : 0x80 ≤ c.toNat) : lowerChar c = c := by
  unfold lowerChar
  apply if_neg
  simp only [Bool.and_eq_true, decide_eq_true_eq, not_and]
  intro _ hupper
  have hlast : c.toNat ≤ 'Z'.toNat := hupper
  have hz : 'Z'.toNat = 0x5A := rfl
  omega

end Text

namespace Encoding

theorem afterWord_eq_none {word text : List Char} (hword : ¬ word <:+: text) :
    afterWord word text = none := by
  induction text with
  | nil => rfl
  | cons c rest ih =>
      rw [List.infix_cons_iff, not_or] at hword
      rw [afterWord, if_neg (by simpa using hword.1)]
      exact ih hword.2

/-! ### The first bytes -/

/-- A byte beyond ASCII is no character of a word of ASCII. -/
theorem not_mem_of_byte {word : List Char} (hword : ∀ c ∈ word, c.toNat < 0x80) {byte : UInt8}
    (hbyte : 0x80 ≤ byte.toNat) : Text.lowerChar (Char.ofNat byte.toNat) ∉ word := by
  have hlast : byte.toNat < 0x100 := byte.toNat_lt
  have hchar : (Char.ofNat byte.toNat).toNat = byte.toNat := by
    rw [Char.ofNat, dif_pos (.inl (by omega))]
    rfl
  intro hmem
  rw [Text.lowerChar_of_le (by omega)] at hmem
  have := hword _ hmem
  omega

/-- The search for a declaration sees the text itself, but for characters beyond ASCII. -/
theorem covers_toUTF8 {word : List Char} (hword : ∀ c ∈ word, c.toNat < 0x80) (text : String) :
    Text.Covers word (text.toList.map Text.lowerChar)
      (text.toUTF8.data.toList.map fun byte => Text.lowerChar (Char.ofNat byte.toNat)) := by
  rw [toUTF8_eq_flatMap]
  induction text.toList with
  | nil => exact .nil
  | cons c rest ih =>
      rw [List.flatMap_cons, List.map_append, List.map_cons]
      by_cases hc : c.toNat < 0x80
      · obtain ⟨byte, hbytes, hbyte⟩ := encodeChar_of_lt hc
        rw [hbytes, List.map_singleton, hbyte, Char.ofNat_toNat]
        exact .keep _ ih
      · refine Text.Covers.append ?_ (by simp [String.utf8EncodeChar_ne_nil]) [Text.lowerChar c] ih
        intro d hd
        obtain ⟨byte, hbyte, rfl⟩ := List.mem_map.mp hd
        exact not_mem_of_byte hword ((encodeChar_bounds c byte hbyte).1 (by omega))

theorem prescan_toUTF8 {text : String}
    (hmeta : ¬ "<meta".toList <:+: text.toList.map Text.lowerChar) :
    prescan text.toUTF8.data.toList = none := by
  have hascii : ∀ c ∈ "<meta".toList, c.toNat < 0x80 := by simp
  have hcovers := covers_toUTF8 hascii text
  have hword : ¬ "<meta".toList <:+: (text.toUTF8.data.toList.take prescanLength).map fun byte =>
      Text.lowerChar (Char.ofNat byte.toNat) := by
    intro hseen
    have hstart := (List.take_prefix prescanLength text.toUTF8.data.toList).map
      fun byte => Text.lowerChar (Char.ofNat byte.toNat)
    exact hmeta (hcovers.isInfix_of_shown (hseen.trans hstart.isInfix))
  unfold prescan
  dsimp only
  rw [afterWord_eq_none hword]
  rfl

/-- The marks of encodings of more than one byte hold bytes that occur in no text. -/
theorem take_toUTF8_ne (text : String) {byte : UInt8} (hbyte : 0xFE ≤ byte.toNat)
    {start : List UInt8} (hmem : byte ∈ start) (count : Nat) :
    (text.toUTF8.data.toList.take count == start) = false := by
  apply beq_false_of_ne
  rintro rfl
  have hbytes : byte ∈ text.toUTF8.data.toList := List.mem_of_mem_take hmem
  rw [toUTF8_eq_flatMap] at hbytes
  obtain ⟨c, -, hencoded⟩ := List.mem_flatMap.mp hbytes
  have := (encodeChar_bounds c byte hencoded).2
  omega

/-- Only a text that starts with a mark starts with the bytes of one. -/
theorem take_three_toUTF8_ne {text : String} (hmark : text.toList.head? ≠ some '\ufeff') :
    (text.toUTF8.data.toList.take 3 == [0xEF, 0xBB, 0xBF]) = false := by
  apply beq_false_of_ne
  intro htake
  apply hmark
  -- The text is what its bytes decode to, and these bytes decode to a mark.
  rw [← decodeUtf8_toUTF8, ← List.take_append_drop 3 text.toUTF8.data.toList, htake]
  rfl

/-- Bytes of a text without a mark and without a declaration are taken for what they are. -/
theorem sniff_toUTF8 {text : String} (hmark : text.toList.head? ≠ some '\ufeff')
    (hmeta : ¬ "<meta".toList <:+: text.toList.map Text.lowerChar) :
    sniff (some likelyName) text.toUTF8.data.toList =
      { encoding := utf8, certain := false, body := text.toUTF8.data.toList } := by
  have hhigh : 0xFE ≤ (0xFF : UInt8).toNat := by decide
  have hwide : isWideMark text.toUTF8.data.toList = false := by
    unfold isWideMark
    rw [take_toUTF8_ne text hhigh (by decide), take_toUTF8_ne text hhigh (by decide), Bool.or_false]
  unfold sniff
  dsimp only
  rw [take_three_toUTF8_ne hmark, hwide, take_toUTF8_ne text hhigh (by decide),
    take_toUTF8_ne text hhigh (by decide), prescan_toUTF8 hmeta]
  rfl

end Encoding

/-! ### The text itself -/

namespace Html

theorem nameChar_of_ne {c : Char} (hc : c ≠ '\x00') : Lexer.nameChar c = Text.lowerChar c := by
  simp [Lexer.nameChar, Lexer.denull, hc]

/-- The lexer sees names in the text itself, but for line ends and nulls. -/
theorem covers_unifyNewlines {word : List Char} (hnewline : '\n' ∉ word)
    (hreplacement : '\ufffd' ∉ word) (text : List Char) :
    Text.Covers word (text.map Text.lowerChar) ((unifyNewlines text).map Lexer.nameChar) := by
  fun_induction unifyNewlines text with
  | case1 => exact .nil
  | case2 rest ih => exact .cover ['\r', '\n'] hnewline ih
  | case3 rest _ ih => exact .cover ['\r'] hnewline ih
  | case4 c rest _ _ ih =>
      rw [List.map_cons, List.map_cons]
      by_cases hc : c = '\x00'
      · subst hc
        exact .cover ['\x00'] hreplacement ih
      · rw [nameChar_of_ne hc]
        exact .keep _ ih

end Html

namespace Target

theorem undeclared (target : Target) (rest : List Char) : target.parser.Undeclared rest := by
  cases target with
  | document => exact ⟨fun _ => trivial, rfl⟩
  | fragment container =>
      have hroot : Html.Assembly.Edits False { container := some (Text.lower container) }
          (Html.Parser.forFragment container).assembly :=
        (Html.Assembly.Edits.edit .refl .root).set rfl
      exact ⟨fun _ => trivial, hroot.charsets_eq⟩

/-- A text that nowhere says `<meta`, in whatever case, declares no encoding. -/
theorem charsets_parse (target : Target) {text : List Char}
    (hmeta : ¬ "<meta".toList <:+: text.map Text.lowerChar) :
    (target.parse text).assembly.charsets = [] := by
  apply (target.undeclared _).charsets_finish_feed
  intro hseen
  exact hmeta ((Html.covers_unifyNewlines (by decide) (by decide) text).isInfix_of_shown hseen)

theorem readBytes_toUTF8 (target : Target) {text : String}
    (hmark : text.toList.head? ≠ some '\ufeff')
    (hmeta : ¬ "<meta".toList <:+: text.toList.map Text.lowerChar) :
    target.readBytes (some Encoding.likelyName) text.toUTF8.data.toList = target.readText text := by
  have hdecoded : Encoding.utf8.decode text.toUTF8.data.toList = text.toList :=
    Encoding.decodeUtf8_toUTF8 text
  unfold readBytes readText
  rw [Encoding.sniff_toUTF8 hmark hmeta]
  dsimp only
  rw [hdecoded, charsets_parse target hmeta]
  rfl

end Target

/-- The bytes of a text that neither starts with a mark nor says `<meta` are read as the text is,
given directly or as a stream, with the same nodes, records and failures. So they are formatted as
the text is. -/
theorem Source.bytes_read_like_text {text : String} (hmark : text.toList.head? ≠ some '\ufeff')
    (hmeta : ¬ "<meta".toList <:+: text.toList.map Text.lowerChar) :
    (∀ source ∈ [bytes text.toUTF8.data.toList, byteStream text.toUTF8.data.toList, textStream text],
      ∀ (calls : Nat) (target : Target) (sourceName : Option String),
        source.parse calls target sourceName = (Source.text text).parse calls target sourceName) ∧
    ∀ (calls : Nat) (style : Style), formatBytes text.toUTF8.data.toList calls style =
      ((formatText (.text text) calls { style }).1.map fun written => written.toUTF8.data.toList,
        (formatText (.text text) calls { style }).2) := by
  have hread : ∀ target : Target, target.read (.bytes text.toUTF8.data.toList) =
      target.read (.text text) := fun target => target.readBytes_toUTF8 hmark hmeta
  constructor
  · intro source hsource calls target sourceName
    have hsame : target.read source = target.read (.text text) := by
      simp only [List.mem_cons, List.not_mem_nil, or_false] at hsource
      obtain rfl | rfl | rfl := hsource
      · exact hread target
      · exact hread target
      · rfl
    rw [parse, parse, hsame]
  · intro calls style
    have hformat : formatText (.bytes text.toUTF8.data.toList) calls { style } =
        formatText (.text text) calls { style } := by
      simp only [formatText, formatAs, formatDocument, formatFragment, parse, hread]
    rw [formatBytes, hformat]

/-- Characters of every length, a line end of two characters, and a tag that is almost the one. -/
theorem Source.bytes_read_like_text_beyond_ascii :
    ∃ text, text = "é€𝄞\r\n<met\x00a charset=x>" ∧ text.toList.head? ≠ some '\ufeff' ∧
      ¬ "<meta".toList <:+: text.toList.map Text.lowerChar ∧
      ∀ calls sourceName, (byteStream text.toUTF8.data.toList).parse calls .document sourceName =
        (Source.text text).parse calls .document sourceName := by
  obtain ⟨text, htext⟩ : ∃ text, text = "é€𝄞\r\n<met\x00a charset=x>" := ⟨_, rfl⟩
  have hmark : text.toList.head? ≠ some '\ufeff' := by simp [htext]
  have hmeta : ¬ "<meta".toList <:+: text.toList.map Text.lowerChar := by
    simp [htext, List.infix_cons_iff, Text.lowerChar]
  have hstream := (bytes_read_like_text hmark hmeta).1 (byteStream text.toUTF8.data.toList) (by simp)
  exact ⟨text, htext, hmark, hmeta, fun calls => hstream calls .document⟩

end HtmlLayout
