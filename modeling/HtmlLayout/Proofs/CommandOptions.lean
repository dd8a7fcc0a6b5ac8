import HtmlLayout.CommandLine.Command
import HtmlLayout.Proofs.EntryPoints
import HtmlLayout.Proofs.Faults
import HtmlLayout.Proofs.Lines
import Mathlib.Data.List.Induction
import Mathlib.Data.List.Perm.Basic

/-!
# Options of the command

A request is an argument that leaves nothing open: a switch by itself, or a text option with its
value behind an equals sign. Whatever requests are made and in whatever order, the command does its
job with the last text of each kind, and a switch counts as soon as it occurs. The value may be any
text at all but two dashes, which stand for no value.

The job then succeeds, or it fails in one of four ways, none of them about the arguments. The
failure is the last line of the error output; that it is one line is part of what is proved.
-/

namespace HtmlLayout

namespace CommandLine

/-! ### Requests -/

/-- An argument that leaves nothing open. -/
inductive Request where
  | fragment (isLong : Bool)
  | verbose (isLong : Bool)
  | margin (value : String)
  | indent (value : String)
  deriving DecidableEq, Repr

namespace Request

/-- A request as it stands among the arguments. -/
def spell : Request → String
  | fragment isLong => if isLong then "--fragment" else "-f"
  | verbose isLong => if isLong then "--verbose" else "-v"
  | margin value => "--prefix=" ++ value
  | indent value => "--indent=" ++ value

def isFragment : Request → Bool
  | fragment _ => true
  | _ => false

def isVerbose : Request → Bool
  | verbose _ => true
  | _ => false

def margin? : Request → Option String
  | margin value => some value
  | _ => none

def indent? : Request → Option String
  | indent value => some value
  | _ => none

/-- Whether a request gives a value where it takes one: two dashes are none. -/
def IsProper (request : Request) : Prop := request.margin? ≠ some "--" ∧ request.indent? ≠ some "--"

instance (request : Request) : Decidable request.IsProper :=
  inferInstanceAs (Decidable (_ ∧ _))

/-- What a request looks like to the command. -/
def word : Request → Word
  | fragment isLong => .option .fragment isLong none
  | verbose isLong => .option .verbose isLong none
  | margin value => .option .margin true (some value.toList)
  | indent value => .option .indent true (some value.toList)

/-- The values of the arguments once a request has taken effect. -/
def apply (arguments : Arguments) : Request → Arguments
  | fragment _ => { arguments with fragment := true }
  | verbose _ => { arguments with verbose := true }
  | margin value => { arguments with margin := .text value }
  | indent value => { arguments with indent := .text value }

/-- The last text of a kind, empty if there is none. -/
def last (value? : Request → Option String) (requests : List Request) : String :=
  (requests.filterMap value?).getLast?.getD ""

end Request

/-! ### Classification -/

theorem find?_eq_none_of_equals {name : String} (hequals : '=' ∈ name.toList)
    {spelling : Switch → String} (hspelling : ∀ switch, '=' ∉ (spelling switch).toList) :
    Switch.all.find? (fun switch => spelling switch == name) = none := by
  rw [List.find?_eq_none]
  intro switch _ hname
  rw [← eq_of_beq hname] at hequals
  exact hspelling switch hequals

/-- No option has an equals sign in its name. -/
theorem ofName?_eq_none {name : String} (hequals : '=' ∈ name.toList) :
    Switch.ofName? name = none := by
  have hshort : ∀ switch : Switch, '=' ∉ switch.short.toList := by
    intro switch
    cases switch <;> decide
  have hlong : ∀ switch : Switch, '=' ∉ switch.long.toList := by
    intro switch
    cases switch <;> decide
  rw [Switch.ofName?, find?_eq_none_of_equals hequals hshort, find?_eq_none_of_equals hequals hlong]
  rfl

/-- A long name with an equals sign is an option with all that follows as its value. -/
theorem classify_of_long {switch : Switch} {argument value : String} {rest : List Char}
    (hlong : switch.long.toList = '-' :: '-' :: rest)
    (hargument : argument.toList = switch.long.toList ++ '=' :: value.toList) :
    classify argument = .ok (.option switch true (some value.toList)) := by
  have hname : Switch.ofName? argument = none := by
    apply ofName?_eq_none
    rw [hargument]
    exact List.mem_append_right _ (List.mem_cons_self ..)
  have hall : switch.long.toList.all (· != '=') = true := by
    cases switch <;> decide
  have hequals := List.all_eq_true.mp hall
  have htake : argument.toList.takeWhile (· != '=') = switch.long.toList := by
    rw [hargument, List.takeWhile_append_of_pos hequals]
    simp
  have hdrop : argument.toList.dropWhile (· != '=') = '=' :: value.toList := by
    rw [hargument, List.dropWhile_append_of_pos hequals]
    simp
  have hfound : Switch.ofName? (String.ofList switch.long.toList) = some (switch, true) := by
    cases switch <;> decide
  have hvalue : withValue? argument.toList = some (.option switch true (some value.toList)) := by
    rw [withValue?, hdrop, htake, hfound]
    rfl
  have hstart : argument.toList = '-' :: '-' :: (rest ++ '=' :: value.toList) := by
    rw [hargument, hlong]
    rfl
  rw [classify, hname, hvalue, hstart]
  rfl

theorem classify_spell (request : Request) : classify request.spell = .ok request.word := by
  cases request with
  | fragment isLong => cases isLong <;> decide
  | verbose isLong => cases isLong <;> decide
  | margin value =>
      apply @classify_of_long .margin _ value "prefix".toList (by decide)
      exact String.toList_append
  | indent value =>
      apply @classify_of_long .indent _ value "indent".toList (by decide)
      exact String.toList_append

theorem spell_ne_separator (request : Request) : request.spell ≠ "--" := by
  intro hspell
  have hlength := congrArg (fun text => text.toList.length) hspell
  cases request with
  | fragment isLong => cases isLong <;> revert hspell <;> decide
  | verbose isLong => cases isLong <;> revert hspell <;> decide
  | margin value => simp [Request.spell] at hlength
  | indent value => simp [Request.spell] at hlength

theorem classifyAll_spell (requests : List Request) :
    classifyAll (requests.map Request.spell) =
      .ok (requests.map fun request => (request.spell, request.word)) := by
  induction requests with
  | nil => rfl
  | cons request rest ih =>
      have hspell : (request.spell == "--") = false := by
        rw [beq_eq_false_iff_ne]
        exact spell_ne_separator request
      simp only [List.map_cons, classifyAll, hspell, classify_spell, ih]
      rfl

/-! ### Effects -/

theorem settingOf_of_ne {value : String} (hvalue : value ≠ "--") : settingOf value = .text value := by
  rw [settingOf, if_neg]
  simpa using hvalue

theorem effects_of_takesValue {switch : Switch} (hswitch : switch.takesValue = true)
    (next : Option String) (value : String) :
    effects next switch true (some value.toList) = .ok { actions := [(switch, value)] } := by
  simp [effects, hswitch]

/-- A request takes effect by itself, whatever comes next. -/
theorem interpret_cons (arguments : Arguments) {request : Request} (hproper : request.IsProper)
    (rest : List (String × Word)) :
    interpret 0 arguments ((request.spell, request.word) :: rest) =
      interpret 0 (request.apply arguments) rest := by
  cases request with
  | fragment isLong => rfl
  | verbose isLong => rfl
  | margin value =>
      have hvalue : value ≠ "--" := by
        intro heq
        exact hproper.1 (congrArg some heq)
      rw [Request.apply, ← settingOf_of_ne hvalue, Request.word, interpret,
        effects_of_takesValue rfl]
      rfl
  | indent value =>
      have hvalue : value ≠ "--" := by
        intro heq
        exact hproper.2 (congrArg some heq)
      rw [Request.apply, ← settingOf_of_ne hvalue, Request.word, interpret,
        effects_of_takesValue rfl]
      rfl

theorem interpret_spell (arguments : Arguments) {requests : List Request}
    (hproper : ∀ request ∈ requests, request.IsProper) :
    interpret 0 arguments (requests.map fun request => (request.spell, request.word)) =
      .ok (requests.foldl Request.apply arguments, []) := by
  induction requests generalizing arguments with
  | nil => rfl
  | cons request rest ih =>
      rw [List.forall_mem_cons] at hproper
      rw [List.map_cons, interpret_cons arguments hproper.1, ih _ hproper.2, List.foldl_cons]

/-- The values of the arguments after requests: the last text of each kind, and the switches that
occur, on top of the values before. -/
theorem foldl_apply (requests : List Request) (margin indent : String) (fragment verbose : Bool) :
    requests.foldl Request.apply { margin := .text margin, indent := .text indent, fragment, verbose } =
      { margin := .text ((requests.filterMap Request.margin?).getLast?.getD margin)
        indent := .text ((requests.filterMap Request.indent?).getLast?.getD indent)
        fragment := fragment || requests.any Request.isFragment
        verbose := verbose || requests.any Request.isVerbose } := by
  induction requests generalizing margin indent fragment verbose with
  | nil => simp
  | cons request rest ih =>
      rw [List.foldl_cons]
      cases request <;>
        simp [Request.apply, ih, Request.margin?, Request.indent?, Request.isFragment,
          Request.isVerbose, List.getLast?_cons]

/-- The format that requests ask for. -/
def requestedFormat (requests : List Request) : Format :=
  { style := { margin := Request.last Request.margin? requests, indent := Request.last Request.indent? requests }
    fragment := requests.any Request.isFragment
    container := "div" }

/-- The values of the arguments that requests come to. -/
def requestedArguments (requests : List Request) : Arguments :=
  { margin := .text (Request.last Request.margin? requests)
    indent := .text (Request.last Request.indent? requests)
    fragment := requests.any Request.isFragment
    verbose := requests.any Request.isVerbose }

theorem parseArguments_spell {requests : List Request}
    (hproper : ∀ request ∈ requests, request.IsProper) :
    parseArguments (requests.map Request.spell) = .ok (requestedArguments requests) := by
  have hvalues : requests.foldl Request.apply {} = requestedArguments requests := by
    refine (foldl_apply requests "" "" false false).trans ?_
    simp only [Bool.false_or]
    rfl
  rw [parseArguments, classifyAll_spell]
  change interpret 0 {} _ >>= _ = _
  rw [interpret_spell {} hproper, hvalues]
  rfl

theorem validate_requestedArguments (requests : List Request) :
    (requestedArguments requests).options.validate = .ok (requestedFormat requests) := rfl

end CommandLine

/-! ### Failures of the job -/

theorem Text.isLine_toString (number : Nat) : IsLine (toString number) := by
  intro hmem
  rw [Nat.toString_eq_repr, Nat.repr, String.toList_ofList] at hmem
  have hdigit := Nat.isDigit_of_mem_toDigits (by decide) (by decide) hmem
  revert hdigit
  decide

open Text (IsLine)

namespace Failure

/-- A failure of parsing, of writing, of the output, of the input, or of a tree that is too deep. -/
def isOfFormatting : Failure → Bool
  | parse _ | render _ | output _ | tooDeep => true
  | reader fault => fault.trouble == .device
  | option _ => false

/-- A failure of formatting that is told in one line. -/
def IsPlain (failure : Failure) : Prop :=
  failure.isOfFormatting = true ∧ IsLine failure.message

end Failure

theorem isLine_of_mem_void {tag : String} (htag : tag ∈ Tag.void) : IsLine tag := by
  revert tag
  decide

/-- What is refused has a message of one line: a tag that is named in it is that of a void element. -/
theorem isPlain_of_ending {node : Node} {error : RenderError}
    (hending : (node.outline 0).ending = .error error) : (Failure.render error).IsPlain := by
  refine ⟨rfl, ?_⟩
  rw [node.ending_outline, Node.verdict, Visit.verdict] at hending
  cases hfind : node.visit.met.find? fun entry => entry.2.isRefused with
  | none =>
      rw [hfind] at hending
      cases hending
  | some entry =>
      rw [hfind] at hending
      cases hending
      obtain ⟨place, met⟩ := entry
      have hrefused := List.find?_some hfind
      change met.isRefused = true at hrefused
      cases met with
      | element tag attrs children =>
          have hvoid : Tag.isVoid tag = true := (Bool.and_eq_true_iff.mp hrefused).1
          have htag : IsLine tag := isLine_of_mem_void (List.contains_iff_mem.mp hvoid)
          have hstart : IsLine "html: " := by decide
          have hbefore : IsLine "void element <" := by decide
          have hafter : IsLine "> has child nodes" := by decide
          exact hstart.append ((hbefore.append htag).append hafter)
      | malformed message => exact (by decide : IsLine (RenderError.malformed .unspecified).message)
      | unspecified => exact (by decide : IsLine (RenderError.unknown .unspecified).message)
      | stray value => exact (by decide : IsLine (RenderError.unknown .unspecified).message)
      | document children => cases hrefused
      | text data => cases hrefused
      | comment data => cases hrefused
      | doctype declaration => cases hrefused

namespace Target

theorem exists_of_answer_error {target : Target} {parser : Html.Parser} {fault : ReadFault}
    (hanswer : target.answer parser = .error fault) :
    ∃ digits, fault = { trouble := .value, text := overlongWords digits } := by
  unfold answer at hanswer
  split at hanswer
  · next digits _ =>
      cases hanswer
      exact ⟨digits, rfl⟩
  · cases hanswer

/-- Reading bytes fails only over a number with too many digits. -/
theorem exists_of_read_error {target : Target} {bytes : List UInt8} {fault : ReadFault}
    (hread : target.read (.bytes bytes) = .error fault) :
    ∃ digits, fault = { trouble := .value, text := overlongWords digits } := by
  simp only [read, readBytes] at hread
  split at hread
  · exact exists_of_answer_error hread
  · split at hread
    · exact exists_of_answer_error hread
    · exact exists_of_answer_error hread

theorem isLine_name (target : Target) : IsLine target.name := by
  cases target with
  | document => exact (by decide : IsLine "document")
  | fragment container => exact (by decide : IsLine "fragment")

theorem isLine_overlongWords (digits : Nat) : IsLine (overlongWords digits) := by
  unfold overlongWords
  apply Text.IsLine.append
  · apply Text.IsLine.append
    · apply Text.IsLine.append
      · exact Text.IsLine.append (by decide) (Text.isLine_toString _)
      · decide
    · exact Text.isLine_toString digits
  · decide

end Target

namespace CommandLine

open Run

/-- A detail of one line makes a message of one line. -/
theorem isPlain_parse {detail : String} (hdetail : IsLine detail) (cause : Option ReadTrouble) :
    (Failure.parse { detail, sourceName := some inputName, cause }).IsPlain := by
  have hname : IsLine (inputName ++ ": ") := by decide
  exact ⟨rfl, hname.append hdetail⟩

theorem failsOnly_parse (calls : Nat) (target : Target) (bytes : List UInt8) :
    FailsOnly Failure.IsPlain (Source.parse (.bytes bytes) calls target (some inputName)) := by
  unfold Source.parse adapt
  split
  · next fault hread =>
      obtain ⟨digits, rfl⟩ := Target.exists_of_read_error hread
      have hstart : IsLine "cannot parse " := by decide
      have hmark : IsLine ": " := by decide
      have hwords := Target.isLine_overlongWords digits
      apply failsOnly_throw
      exact isPlain_parse (((hstart.append target.isLine_name).append hmark).append hwords) _
  · split
    · apply failsOnly_throw
      exact ⟨rfl, by decide⟩
    · split
      · next kind _ =>
          have hstart : IsLine "unsupported DOM node type " := by decide
          apply failsOnly_throw
          exact isPlain_parse (hstart.append (Text.isLine_toString kind)) _
      · refine FailsOnly.bind (failsOnly_note _ _ _) ?_
        intro _
        exact failsOnly_pure _

theorem failsOnly_formatAs (calls : Nat) (format : Format) (bytes : List UInt8) :
    FailsOnly Failure.IsPlain
      (Source.formatAs (.bytes bytes) calls format (some inputName)) := by
  have hdeep : Failure.tooDeep.IsPlain := ⟨rfl, by decide⟩
  have hrender : ∀ (node : Node) error, (node.outline 0).ending = .error error →
      (Failure.render error).IsPlain := fun _ _ hending => isPlain_of_ending hending
  unfold Source.formatAs
  split
  · apply FailsOnly.bind (failsOnly_parse _ _ _)
    intro nodes
    exact Style.failsOnly_writeFragment hdeep hrender format.style calls nodes
  · apply FailsOnly.bind (failsOnly_parse _ _ _)
    intro nodes
    exact Style.failsOnly_writeDocument hdeep hrender format.style calls (.document nodes)

/-- The words that the streams of a run may fail with. -/
def spoken (input : Input) (output : Channel) : List String :=
  (match input with
    | .error words => [words]
    | .ok _ => []) ++ output.refusal :: output.flushRefusal.toList

/-- The job fails in one of the ways of formatting, with a message of one line or with what one of the
streams says. -/
theorem failure_of_job {part : String} {calls : Nat} {format : Format} {input : Input}
    {output : Channel} {failure : Failure}
    (hfailure : ((job part calls format input).run.run output).1 = .error failure) :
    failure.isOfFormatting = true ∧
      (failure.message ∈ spoken input output ∨ IsLine failure.message) := by
  cases input with
  | error words =>
      cases hfailure
      exact ⟨rfl, .inl List.mem_cons_self⟩
  | ok bytes =>
      have hscripted := Source.scripted_formatAs (.bytes bytes) calls format (some inputName)
      rw [run_job, run_then_flush hscripted] at hfailure
      split at hfailure
      · next words hflush =>
          cases hfailure
          exact ⟨rfl, .inl (List.mem_cons_of_mem _ (Option.mem_toList.mpr hflush))⟩
      · rcases (failsOnly_formatAs calls format bytes _).2 failure hfailure with rfl | hplain
        · exact ⟨rfl, .inl List.mem_cons_self⟩
        · exact ⟨hplain.1, .inr hplain.2⟩

/-! ### The last line -/

/-- A record that stands last in a text: only a newline follows, and another one precedes it unless
it is the first. -/
def StandsLast (record text : String) : Prop :=
  ∃ lines, text = lines ++ record ++ "\n" ∧ (lines = "" ∨ ∃ others, lines = others ++ "\n")

def IsLastLine (line text : String) : Prop := IsLine line ∧ StandsLast line text

theorem shownRecords_push_error (verbose : Bool) (records : Array Record) (origin message : String) :
    shownRecords verbose (records.push { level := .error, origin, message }) =
      shownRecords verbose records ++ ("ERROR " ++ origin ++ ": " ++ message) ++ "\n" := by
  have hweight : (threshold verbose).weight ≤ Level.error.weight := by
    cases verbose <;> decide
  simp [shownRecords, hweight, recordLine, Level.name, String.append_assoc]

theorem shownRecords_lines (verbose : Bool) (records : Array Record) :
    shownRecords verbose records = "" ∨ ∃ others, shownRecords verbose records = others ++ "\n" := by
  unfold shownRecords
  generalize records.toList.filter _ = shown
  induction shown using List.reverseRecOn with
  | nil => exact .inl rfl
  | append_singleton earlier record ih =>
      refine .inr ⟨String.join (earlier.map recordLine) ++
        (record.level.name ++ " " ++ record.origin ++ ": " ++ record.message), ?_⟩
      simp [recordLine, String.append_assoc]

theorem isLine_originName {part : String} (hpart : IsLine part) : IsLine (originName part) := by
  have hprogram : IsLine (programName ++ ".") := by decide
  unfold originName
  split
  · exact hpart
  · exact hprogram.append hpart

/-! ### The command -/

section Runs

variable {part : String} {calls : Nat} {requests : List Request} {input : Input}
  {output after : Channel}

theorem command_spell (hproper : ∀ request ∈ requests, request.IsProper) :
    command part calls (requests.map Request.spell) input output =
      execute part calls (requestedArguments requests) input output := by
  rw [command, parseArguments_spell hproper]

theorem perform_requestedArguments :
    perform part calls (requestedArguments requests) input =
      job part calls (requestedFormat requests) input := by
  rw [perform, validate_requestedArguments]

/-- The requests matter only through the texts of each kind in order and through what occurs. -/
theorem requestedArguments_congr {others : List Request} (hperm : others.Perm requests)
    (hmargins : others.filterMap Request.margin? = requests.filterMap Request.margin?)
    (hindents : others.filterMap Request.indent? = requests.filterMap Request.indent?) :
    requestedArguments others = requestedArguments requests := by
  have hfragment : others.any Request.isFragment = requests.any Request.isFragment :=
    hperm.any_eq
  have hverbose : others.any Request.isVerbose = requests.any Request.isVerbose := hperm.any_eq
  simp only [requestedArguments, Request.last, hmargins, hindents, hfragment, hverbose]

theorem execute_of_ok
    (hran : (job part calls (requestedFormat requests) input).run.run output = (.ok (), after)) :
    execute part calls (requestedArguments requests) input output =
      { status := 0
        output := after.text
        errorOutput := shownRecords (requests.any Request.isVerbose) after.records } := by
  rw [execute, perform_requestedArguments, hran]
  rfl

theorem execute_of_error {failure : Failure}
    (hran : (job part calls (requestedFormat requests) input).run.run output =
      (.error failure, after)) :
    execute part calls (requestedArguments requests) input output =
      { status := 1
        output := after.text
        errorOutput := shownRecords (requests.any Request.isVerbose) after.records ++
          ("ERROR " ++ originName part ++ ": " ++ failure.message) ++ "\n"
        failure := some failure } := by
  rw [execute, perform_requestedArguments, hran, ← shownRecords_push_error]
  rfl

end Runs

/-- The options of the command reach its job unchanged, the last one winning. Whatever requests are
made, the arguments are understood and the options fit: the margin and the indent are the last ones
asked for, a fragment is read as soon as one is asked for, and the container is `div`. The output is
that of the job with this format. The status is zero if the job succeeds. If it fails, the failure is
one of formatting, the status is one, and the error output ends with the record that tells it, which
is the last line unless one of the streams says more than a line. The order of the requests matters
only among those for a margin and among those for an indent. -/
theorem command_takes_last_options (part : String) (hpart : IsLine part) (calls : Nat)
    (requests : List Request) (hproper : ∀ request ∈ requests, request.IsProper) (input : Input)
    (output : Channel) :
    let format : Format :=
      { style :=
          { margin := (requests.filterMap Request.margin?).getLast?.getD ""
            indent := (requests.filterMap Request.indent?).getLast?.getD "" }
        fragment := requests.any Request.isFragment
        container := "div" }
    let outcome := command part calls (requests.map Request.spell) input output
    let ran := (job part calls format input).run.run output
    (∃ values, parseArguments (requests.map Request.spell) = .ok values ∧
        values.options.validate = .ok format) ∧
      outcome.output = ran.2.text ∧
      (ran.1 = .ok () → outcome.status = 0 ∧ outcome.failure = none) ∧
      (∀ failure, ran.1 = .error failure →
        let record := "ERROR " ++ originName part ++ ": " ++ failure.message
        failure.isOfFormatting = true ∧ outcome.status = 1 ∧ outcome.failure = some failure ∧
          StandsLast record outcome.errorOutput ∧
          ((∀ words ∈ spoken input output, IsLine words) → IsLastLine record outcome.errorOutput)) ∧
      ∀ others : List Request, others.Perm requests →
        others.filterMap Request.margin? = requests.filterMap Request.margin? →
        others.filterMap Request.indent? = requests.filterMap Request.indent? →
          command part calls (others.map Request.spell) input output = outcome := by
  intro format outcome ran
  have houtcome : outcome = execute part calls (requestedArguments requests) input output :=
    command_spell hproper
  refine ⟨⟨_, parseArguments_spell hproper, validate_requestedArguments requests⟩, ?_, ?_, ?_, ?_⟩
  · rw [houtcome]
    rcases hran : ran with ⟨failure | done, after⟩
    · rw [execute_of_error hran]
    · rw [execute_of_ok hran]
  · intro hok
    rw [houtcome, execute_of_ok (Prod.ext hok rfl)]
    exact ⟨rfl, rfl⟩
  · intro failure herror record
    obtain ⟨hkind, hmessage⟩ := failure_of_job herror
    have hlast : StandsLast record outcome.errorOutput := by
      rw [houtcome, execute_of_error (Prod.ext herror rfl)]
      exact ⟨_, rfl, shownRecords_lines _ _⟩
    refine ⟨hkind, ?_, ?_, hlast, fun hwords => ⟨?_, hlast⟩⟩
    · rw [houtcome, execute_of_error (Prod.ext herror rfl)]
    · rw [houtcome, execute_of_error (Prod.ext herror rfl)]
    · have horigin := isLine_originName hpart
      have hstart : IsLine "ERROR " := by decide
      have hmark : IsLine ": " := by decide
      have hline : IsLine failure.message := hmessage.elim (hwords _) id
      exact ((hstart.append horigin).append hmark).append hline
  · intro others hperm hmargins hindents
    have hothers : ∀ request ∈ others, request.IsProper :=
      fun request hrequest => hproper request (hperm.subset hrequest)
    rw [houtcome, command_spell hothers, requestedArguments_congr hperm hmargins hindents]

/-- Whether a run ended because the output did not take a write, in words of its own. -/
def endedSaying (words : String) : Except Failure Unit → Bool
  | .error (.output said) => said == words
  | _ => false

theorem eq_of_endedSaying {words : String} {result : Except Failure Unit}
    (hended : endedSaying words result = true) : result = .error (.output words) := by
  unfold endedSaying at hended
  split at hended
  · rw [eq_of_beq hended]
  · cases hended

/-- Margins that look like options or hold an equals sign and a newline, an empty indent that comes
last, and an output with room for three writes that could not be flushed either. -/
theorem command_takes_last_options_full_output :
    let requests : List Request :=
      [.margin "--indent=x", .fragment false, .indent "  ", .margin "-f=\n ", .indent "", .verbose true]
    let input : Input := .ok "<p>x".toUTF8.data.toList
    let output : Channel := { room := some 3, refusal := "disk full", flushRefusal := some "broken pipe" }
    let outcome := command "htmlindent.cli" defaultCalls (requests.map Request.spell) input output
    (∀ request ∈ requests, request.IsProper) ∧ outcome.output = "\n-f=\n <p>" ∧
      outcome.status = 1 ∧ IsLastLine "ERROR htmlindent.cli: disk full" outcome.errorOutput := by
  intro requests input output outcome
  have hproper : ∀ request ∈ requests, request.IsProper := by decide
  have hran :
      let ran := (job "htmlindent.cli" defaultCalls
        { style := { margin := "-f=\n " }, fragment := true } input).run.run output
      endedSaying "disk full" ran.1 = true ∧ ran.2.text = "\n-f=\n <p>" := by decide +kernel
  obtain ⟨-, houtput, -, hfailed, -⟩ := command_takes_last_options "htmlindent.cli" (by decide)
    defaultCalls requests hproper input output
  obtain ⟨-, hstatus, -, -, hline⟩ := hfailed (.output "disk full") (eq_of_endedSaying hran.1)
  exact ⟨hproper, houtput.trans hran.2, hstatus, hline (by decide)⟩

end CommandLine

end HtmlLayout
