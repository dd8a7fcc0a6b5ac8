import HtmlLayout.CommandLine.Job
import HtmlLayout.Proofs.Outline

/-!
# The ways to format

A source can be formatted to an output, into a text, into bytes, and by the command. All of them
write the same. The text is what an output without a limit receives, although the builder that
collects it drops empty writes; the bytes are that text encoded; and the command does on every
output what formatting its input does there, apart from one record in front, and flushes the output
at the end.

Two facts about operations carry this. An operation that follows a script adds records to those that
are there and never looks at them. And the name of a source shows in parse errors only.
-/

namespace HtmlLayout

/-! ### Operations that follow a script -/

namespace Run

variable {α β : Type}

/-- An operation that is known by what it does where every write succeeds. -/
def Scripted (operation : Run α) : Prop := ∃ script : Script α, operation = script.run

theorem scripted_throw (failure : Failure) : Scripted (throw failure : Run α) :=
  ⟨.ended (.error failure), rfl⟩

theorem scripted_note (level : Level) (part message : String) (value : α) :
    Scripted (note level part message >>= fun _ => pure value) :=
  ⟨{ actions := [.note { level, origin := originName part, message }], ending := .ok value }, rfl⟩

theorem Scripted.bind {operation : Run α} {next : α → Run β} (hoperation : Scripted operation)
    (hnext : ∀ value, Scripted (next value)) : Scripted (operation >>= next) := by
  obtain ⟨script, rfl⟩ := hoperation
  choose scripts hscripts using hnext
  refine ⟨script.andThen scripts, ?_⟩
  rw [Script.run_andThen]
  exact bind_congr hscripts

/-- Records that are there already do not matter: what an operation adds goes behind them. -/
theorem Scripted.run_with_records {operation : Run α} (hoperation : Scripted operation)
    (channel : Channel) (lead : Array Record) :
    ∃ added, (operation.run.run channel).2.records = channel.records ++ added ∧
      operation.run.run { channel with records := channel.records ++ lead } =
        ((operation.run.run channel).1,
          { (operation.run.run channel).2 with records := channel.records ++ lead ++ added }) := by
  obtain ⟨script, rfl⟩ := hoperation
  obtain ⟨result, actions, hperformed⟩ := script.exists_performed channel.room channel.refusal
  refine ⟨(Action.notes actions).toArray, ?_, ?_⟩
  · rw [hperformed channel rfl rfl]
    rfl
  · rw [hperformed channel rfl rfl,
      hperformed { channel with records := channel.records ++ lead } rfl rfl]
    rfl

theorem Scripted.flushRefusal_eq {operation : Run α} (hoperation : Scripted operation)
    (channel : Channel) : (operation.run.run channel).2.flushRefusal = channel.flushRefusal := by
  obtain ⟨script, rfl⟩ := hoperation
  obtain ⟨result, actions, hperformed⟩ := script.exists_performed channel.room channel.refusal
  rw [hperformed channel rfl rfl]
  rfl

/-! ### How operations fail -/

/-- An operation that leaves the words of the output alone and fails only when the output says them, or
in some other ways. -/
def FailsOnly (allowed : Failure → Prop) (operation : Run α) : Prop :=
  ∀ channel, (operation.run.run channel).2.refusal = channel.refusal ∧
    ∀ failure, (operation.run.run channel).1 = .error failure →
      failure = .output channel.refusal ∨ allowed failure

variable {allowed : Failure → Prop}

theorem failsOnly_throw {failure : Failure} (hfailure : allowed failure) :
    FailsOnly allowed (throw failure : Run α) := by
  intro channel
  refine ⟨rfl, fun other hother => ?_⟩
  cases hother
  exact .inr hfailure

theorem failsOnly_pure (value : α) : FailsOnly allowed (pure value : Run α) := by
  intro channel
  refine ⟨rfl, fun failure hfailure => ?_⟩
  cases hfailure

theorem failsOnly_note (level : Level) (part message : String) :
    FailsOnly allowed (note level part message) := by
  intro channel
  refine ⟨rfl, fun failure hfailure => ?_⟩
  cases hfailure

theorem FailsOnly.bind {operation : Run α} {next : α → Run β}
    (hoperation : FailsOnly allowed operation) (hnext : ∀ value, FailsOnly allowed (next value)) :
    FailsOnly allowed (operation >>= next) := by
  intro channel
  obtain ⟨hkept, hfails⟩ := hoperation channel
  change (ExceptT.bindCont next (operation.run.run channel).1
      (operation.run.run channel).2).2.refusal = _ ∧
    ∀ failure, (ExceptT.bindCont next (operation.run.run channel).1
      (operation.run.run channel).2).1 = _ → _
  rcases hrun : operation.run.run channel with ⟨other | value, after⟩
  · rw [hrun] at hkept hfails
    refine ⟨hkept, fun failure hfailure => ?_⟩
    cases hfailure
    exact hfails _ rfl
  · rw [hrun] at hkept
    rw [← hkept]
    exact hnext value after

/-- A script fails as it ends, or as the output says. -/
theorem failsOnly_script {script : Script α}
    (hending : ∀ failure, script.ending = .error failure → allowed failure) :
    FailsOnly allowed script.run := by
  intro channel
  change (Script.perform script.ending script.actions channel).2.refusal = _ ∧
    ∀ failure, (Script.perform script.ending script.actions channel).1 = _ → _
  cases hroom : channel.room with
  | none =>
      rw [Script.perform_of_room_none _ _ hroom]
      exact ⟨rfl, fun failure hfailure => .inr (hending failure hfailure)⟩
  | some room =>
      rw [Script.perform_of_room_some _ _ hroom]
      refine ⟨rfl, fun failure hfailure => ?_⟩
      by_cases henough : (Action.writes script.actions).length ≤ room
      · rw [if_pos henough] at hfailure
        exact .inr (hending failure hfailure)
      · rw [if_neg henough] at hfailure
        cases hfailure
        exact .inl rfl

end Run

/-! ### Writing -/

namespace Style

open Run

theorem scripted_writeDocument (style : Style) (calls : Nat) (root : Node) :
    Scripted (style.writeDocument calls root) :=
  ⟨_, style.writeDocument_eq_script calls root⟩

theorem scripted_writeFragment (style : Style) (calls : Nat) (nodes : List Node) :
    Scripted (style.writeFragment calls nodes) :=
  ⟨_, style.writeFragment_eq_script calls nodes⟩

theorem failsOnly_newline {allowed : Failure → Prop} : FailsOnly allowed (write "\n") := by
  rw [← run_newlineScript]
  exact failsOnly_script (by intro failure hfailure; cases hfailure)

section Allowed

variable {allowed : Failure → Prop} (hdeep : allowed .tooDeep)
  (hrender : ∀ (node : Node) error, (node.outline 0).ending = .error error → allowed (.render error))

include hdeep hrender

theorem failsOnly_writeNode (style : Style) (calls : Nat) (node : Node) :
    FailsOnly allowed (style.writeNode calls node) := by
  rw [writeNode_eq_script]
  apply failsOnly_script
  intro failure hfailure
  rw [ending_nodeScript] at hfailure
  rcases node.walkScript_cutsOff style calls 0 with hwhole | ⟨-, hbroken, -⟩
  · rw [hwhole, Outline.script] at hfailure
    cases hending : (node.outline 0).ending with
    | error error =>
        simp only [hending, Except.mapError, Except.map] at hfailure
        cases hfailure
        exact hrender node error hending
    | ok flow =>
        simp only [hending, Except.mapError, Except.map] at hfailure
        cases hfailure
  · rw [hbroken] at hfailure
    cases hfailure
    exact hdeep

theorem failsOnly_writeDocument (style : Style) (calls : Nat) (root : Node) :
    FailsOnly allowed (style.writeDocument calls root) := by
  apply FailsOnly.bind (failsOnly_writeNode hdeep hrender style calls root)
  intro _
  exact failsOnly_newline

theorem failsOnly_writeFragment (style : Style) (calls : Nat) (nodes : List Node) :
    FailsOnly allowed (style.writeFragment calls nodes) := by
  have hnodes : FailsOnly allowed (style.writeNodes calls nodes) := by
    induction nodes with
    | nil => exact failsOnly_pure ()
    | cons node rest ih =>
        apply FailsOnly.bind (failsOnly_writeNode hdeep hrender style calls node)
        intro _
        exact ih
  apply FailsOnly.bind hnodes
  intro _
  exact failsOnly_newline

end Allowed

end Style

/-! ### Parsing -/

theorem scripted_adapt (calls : Nat) (target : Target) (sourceName : Option String)
    (answer : Except ReadFault (List Dom)) : Run.Scripted (adapt calls target sourceName answer) := by
  unfold adapt
  split
  · exact Run.scripted_throw _
  · split
    · exact Run.scripted_throw _
    · split
      · exact Run.scripted_throw _
      · exact Run.scripted_note ..

namespace Failure

/-- A failure with the name of a source, which only a parse error shows. -/
def inSource (sourceName : Option String) : Failure → Failure
  | parse error => parse { error with sourceName }
  | other => other

/-- A failure that does not come from parsing. -/
def IsNameless (failure : Failure) : Prop :=
  ∀ sourceName, failure.inSource sourceName = failure

end Failure

theorem ReadFault.inSource_failure (fault : ReadFault) (target : Target)
    (sourceName : Option String) :
    (fault.failure target none).inSource sourceName = fault.failure target sourceName := by
  unfold failure
  split <;> rfl

/-- A source name shows in a parse error and nowhere else. -/
theorem run_adapt_inSource (calls : Nat) (target : Target) (sourceName : Option String)
    (answer : Except ReadFault (List Dom)) (channel : Channel) :
    (adapt calls target sourceName answer).run.run channel =
      (((adapt calls target none answer).run.run channel).1.mapError (Failure.inSource sourceName),
        ((adapt calls target none answer).run.run channel).2) := by
  cases answer with
  | error fault =>
      simp only [adapt]
      rw [← fault.inSource_failure]
      rfl
  | ok siblings =>
      simp only [adapt]
      split
      · rfl
      · split <;> rfl

/-- What is done with the nodes may fail in its own ways, as long as these do not name a source. -/
theorem run_adapt_bind_inSource {calls : Nat} {target : Target} (sourceName : Option String)
    {answer : Except ReadFault (List Dom)} {next : List Node → Run Unit}
    (hnext : ∀ nodes, Run.FailsOnly Failure.IsNameless (next nodes)) (channel : Channel) :
    (adapt calls target sourceName answer >>= next).run.run channel =
      (((adapt calls target none answer >>= next).run.run channel).1.mapError
          (Failure.inSource sourceName),
        ((adapt calls target none answer >>= next).run.run channel).2) := by
  change ExceptT.bindCont next ((adapt calls target sourceName answer).run.run channel).1
      ((adapt calls target sourceName answer).run.run channel).2 =
    ((ExceptT.bindCont next ((adapt calls target none answer).run.run channel).1
        ((adapt calls target none answer).run.run channel).2).1.mapError (Failure.inSource sourceName),
      (ExceptT.bindCont next ((adapt calls target none answer).run.run channel).1
        ((adapt calls target none answer).run.run channel).2).2)
  rw [run_adapt_inSource]
  rcases hadapt : (adapt calls target none answer).run.run channel with ⟨failure | nodes, after⟩
  · rfl
  · change (next nodes).run.run after = (((next nodes).run.run after).1.mapError _, _)
    apply Prod.ext
    · cases hresult : ((next nodes).run.run after).1 with
      | ok done => rfl
      | error failure =>
          have hname : failure.inSource sourceName = failure := by
            rcases (hnext nodes after).2 failure hresult with rfl | hname
            · rfl
            · exact hname sourceName
          simp only [Except.mapError, hname]
    · rfl

/-! ### Formatting -/

namespace Text.Builder

/-- A builder keeps just the writes that are not empty. -/
theorem parts_takeAll (builder : Builder) (texts : List String) :
    (builder.takeAll texts).parts.toList = builder.parts.toList ++ texts.filter (· ≠ "") := by
  induction texts generalizing builder with
  | nil => simp [takeAll]
  | cons text rest ih =>
      have hrest := ih (builder.write text)
      rw [takeAll, List.foldl_cons]
      refine hrest.trans ?_
      by_cases hempty : text = "" <;> simp [write, hempty]

end Text.Builder

namespace Run

theorem toText_eq_join (operation : Run Unit) :
    operation.toText =
      ((operation.run.run {}).1.map fun _ => String.join (operation.run.run {}).2.writes.toList,
        (operation.run.run {}).2.records) := by
  unfold toText
  rcases operation.run.run {} with ⟨result, channel⟩
  have hbuild : (Text.Builder.takeAll {} channel.writes.toList).build =
      String.join channel.writes.toList := by
    rw [Text.Builder.build_takeAll]
    exact String.empty_append
  simp only [hbuild]

end Run

namespace Source

open Run

theorem scripted_formatDocument (source : Source) (calls : Nat) (style : Style)
    (sourceName : Option String) : Scripted (source.formatDocument calls style sourceName) := by
  apply (scripted_adapt _ _ _ _).bind
  intro nodes
  exact style.scripted_writeDocument _ _

theorem scripted_formatFragment (source : Source) (calls : Nat) (style : Style) (container : String)
    (sourceName : Option String) :
    Scripted (source.formatFragment calls style container sourceName) := by
  apply (scripted_adapt _ _ _ _).bind
  intro nodes
  exact style.scripted_writeFragment _ _

theorem scripted_formatAs (source : Source) (calls : Nat) (format : Format)
    (sourceName : Option String) : Scripted (source.formatAs calls format sourceName) := by
  unfold formatAs
  split
  · exact source.scripted_formatFragment ..
  · exact source.scripted_formatDocument ..

theorem run_formatAs_inSource (source : Source) (calls : Nat) (format : Format)
    (sourceName : Option String) (channel : Channel) :
    (source.formatAs calls format sourceName).run.run channel =
      (((source.formatAs calls format).run.run channel).1.mapError (Failure.inSource sourceName),
        ((source.formatAs calls format).run.run channel).2) := by
  have hdeep : Failure.tooDeep.IsNameless := fun _ => rfl
  have hrender : ∀ (node : Node) error, (node.outline 0).ending = .error error →
      (Failure.render error).IsNameless := fun _ _ _ _ => rfl
  unfold formatAs
  cases format.fragment with
  | true =>
      apply run_adapt_bind_inSource sourceName
      intro nodes
      exact Style.failsOnly_writeFragment hdeep hrender format.style calls nodes
  | false =>
      apply run_adapt_bind_inSource sourceName
      intro nodes
      exact Style.failsOnly_writeDocument hdeep hrender format.style calls (.document nodes)

end Source

namespace CommandLine

/-- The record that comes before all others when the command formats a fragment. -/
def announcement (part : String) (format : Format) : Array Record :=
  if format.fragment then
    #[{ level := .info, origin := originName part, message := "parsing fragment" }]
  else #[]

/-- An operation after which the output is flushed. -/
theorem run_then_flush {operation : Run Unit} (hoperation : Run.Scripted operation)
    (channel : Channel) :
    (operation >>= fun _ => flush).run.run channel =
      (match (operation.run.run channel).1, channel.flushRefusal with
        | .ok _, some words => .error (.output words)
        | ended, _ => ended,
        (operation.run.run channel).2) := by
  have hkept := hoperation.flushRefusal_eq channel
  change ExceptT.bindCont (fun _ => flush) (operation.run.run channel).1 (operation.run.run channel).2 = _
  rcases hrun : operation.run.run channel with ⟨failure | done, after⟩
  · rfl
  · rw [hrun] at hkept
    change flush after = _
    rw [← hkept, flush]
    cases after.flushRefusal <;> rfl

/-- The job of the command is to format its input, after the announcement, and to flush its output. -/
theorem run_job (part : String) (calls : Nat) (format : Format) (bytes : List UInt8)
    (channel : Channel) :
    (job part calls format (.ok bytes)).run.run channel =
      (Source.formatAs (.bytes bytes) calls format (some inputName) >>= fun _ => flush).run.run
        { channel with records := channel.records ++ announcement part format } := by
  cases hfragment : format.fragment with
  | true =>
      have hjob : job part calls format (.ok bytes) = note .info part "parsing fragment" >>= fun _ =>
          Source.formatAs (.bytes bytes) calls format (some inputName) >>= fun _ => flush := by
        simp [job, readInput, Source.formatAs, Source.formatFragment, hfragment]
      rw [hjob, announcement, if_pos hfragment]
      rfl
  | false =>
      simp [job, readInput, Source.formatAs, Source.formatDocument, announcement, hfragment]

end CommandLine

/-- All ways to format a source write the same. `direct` formats to an output, as a document or as a
fragment. The text is what `direct` writes to an output without a limit, in one piece, although the
builder keeps only the writes that are not empty; the bytes are that text in UTF-8; both fail as
`direct` does. The job of the command makes on every output the writes of `direct` and ends in the
same way, unless all goes well and the output then cannot be flushed, and its records differ only by
the announcement in front. A source name changes nothing but the name in a parse error. -/
theorem entry_points_agree (source : Source) (input : List UInt8) (calls : Nat) (format : Format)
    (part : String) :
    let direct := fun (source : Source) (sourceName : Option String) =>
      if format.fragment then source.formatFragment calls format.style format.container sourceName
      else source.formatDocument calls format.style sourceName
    let full := (direct source none).run.run {}
    let whole := (Source.formatDocument (.bytes input) calls format.style).run.run {}
    (source.formatText calls format =
        (full.1.map fun _ => String.join full.2.writes.toList, full.2.records) ∧
      (Text.Builder.takeAll {} full.2.writes.toList).parts.toList =
        full.2.writes.toList.filter (· ≠ "")) ∧
      Source.formatBytes input calls format.style =
        (whole.1.map fun _ => (String.join whole.2.writes.toList).toUTF8.data.toList,
          whole.2.records) ∧
      (∀ channel : Channel, ∃ added : Array Record,
        let named := (direct (.bytes input) (some "<stdin>")).run.run channel
        let announced : Array Record :=
          if format.fragment then
            #[{ level := .info, origin := originName part, message := "parsing fragment" }]
          else #[]
        named.2.records = channel.records ++ added ∧
          (CommandLine.job part calls format (.ok input)).run.run channel =
            (match named.1, channel.flushRefusal with
              | .ok _, some words => .error (.output words)
              | ended, _ => ended,
              { named.2 with records := channel.records ++ announced ++ added })) ∧
      ∀ (sourceName : Option String) (channel : Channel),
        (direct source sourceName).run.run channel =
          (((direct source none).run.run channel).1.mapError (Failure.inSource sourceName),
            ((direct source none).run.run channel).2) := by
  intro direct full whole
  refine ⟨⟨?_, ?_⟩, ?_, ?_, ?_⟩
  · exact Run.toText_eq_join (source.formatAs calls format)
  · exact Text.Builder.parts_takeAll {} full.2.writes.toList
  · have htext := Run.toText_eq_join (Source.formatDocument (.bytes input) calls format.style)
    have hbytes : Source.formatBytes input calls format.style =
        ((Run.toText (Source.formatDocument (.bytes input) calls format.style)).1.map
            fun written => written.toUTF8.data.toList,
          (Run.toText (Source.formatDocument (.bytes input) calls format.style)).2) := rfl
    rw [hbytes, htext]
    apply Prod.ext
    · change (whole.1.map _).map _ = whole.1.map _
      cases whole.1 <;> rfl
    · rfl
  · intro channel
    have hscripted := Source.scripted_formatAs (.bytes input) calls format (some "<stdin>")
    obtain ⟨added, hadded, hrun⟩ :=
      hscripted.run_with_records channel (CommandLine.announcement part format)
    refine ⟨added, hadded, ?_⟩
    rw [CommandLine.run_job]
    refine (CommandLine.run_then_flush hscripted _).trans ?_
    rw [hrun]
    rfl
  · intro sourceName channel
    exact source.run_formatAs_inSource calls format sourceName channel

end HtmlLayout
