import HtmlLayout.Channel
import Mathlib.Data.List.Basic

/-!
# Operations as scripts

An operation on an output is known completely by what it does when every write succeeds: the writes
and notes in order, and how it ends. That is its script. Running a script on an output with limited
room stops at the first write that finds no room, so what an operation does on any output follows
from its script alone. The rest of the theory reaches `Run` only through the equations of this
module.
-/

namespace HtmlLayout

/-- Something an operation does to its output or to the records. -/
inductive Action where
  | write (text : String)
  | note (record : Record)
  deriving DecidableEq, Repr

namespace Action

def written? : Action → Option String
  | write text => some text
  | note _ => none

def noted? : Action → Option Record
  | write _ => none
  | note record => some record

def writes (actions : List Action) : List String := actions.filterMap written?

def notes (actions : List Action) : List Record := actions.filterMap noted?

/-- The actions that come before the write after the first `count` writes. -/
def before : Nat → List Action → List Action
  | _, [] => []
  | count, note record :: rest => note record :: before count rest
  | 0, write _ :: _ => []
  | count + 1, write text :: rest => write text :: before count rest

@[simp] theorem writes_nil : writes [] = [] := rfl

@[simp] theorem writes_write (text : String) (rest : List Action) :
    writes (write text :: rest) = text :: writes rest := rfl

@[simp] theorem writes_note (record : Record) (rest : List Action) :
    writes (note record :: rest) = writes rest := rfl

@[simp] theorem writes_append (first rest : List Action) :
    writes (first ++ rest) = writes first ++ writes rest :=
  List.filterMap_append

@[simp] theorem notes_nil : notes [] = [] := rfl

@[simp] theorem notes_write (text : String) (rest : List Action) :
    notes (write text :: rest) = notes rest := rfl

@[simp] theorem notes_note (record : Record) (rest : List Action) :
    notes (note record :: rest) = record :: notes rest := rfl

@[simp] theorem notes_append (first rest : List Action) :
    notes (first ++ rest) = notes first ++ notes rest :=
  List.filterMap_append

@[simp] theorem writes_map_write {α : Type} (text : α → String) (items : List α) :
    writes (items.map fun item => write (text item)) = items.map text := by
  induction items with
  | nil => rfl
  | cons item rest ih => simp [ih]

@[simp] theorem notes_map_write {α : Type} (text : α → String) (items : List α) :
    notes (items.map fun item => write (text item)) = [] := by
  induction items with
  | nil => rfl
  | cons item rest ih => simp [ih]

@[simp] theorem writes_map_note (records : List Record) : writes (records.map note) = [] := by
  induction records with
  | nil => rfl
  | cons record rest ih => simp [ih]

@[simp] theorem notes_map_note (records : List Record) : notes (records.map note) = records := by
  induction records with
  | nil => rfl
  | cons record rest ih => simp [ih]

end Action

/-- What an operation does where every write succeeds, and how it ends. -/
structure Script (α : Type) where
  actions : List Action
  ending : Except Failure α

namespace Script

variable {α β : Type}

/-- Goes through actions on an output until a write fails. -/
def perform (ending : Except Failure α) : List Action → Channel → Except Failure α × Channel
  | [], channel => (ending, channel)
  | .write text :: rest, channel =>
      match channel.room with
      | some 0 => (.error (.output channel.refusal), channel)
      | some (room + 1) =>
          perform ending rest { channel with writes := channel.writes.push text, room := some room }
      | none => perform ending rest { channel with writes := channel.writes.push text }
  | .note record :: rest, channel =>
      perform ending rest { channel with records := channel.records.push record }

def run (script : Script α) : Run α := fun channel => perform script.ending script.actions channel

def ended (ending : Except Failure α) : Script α := { actions := [], ending }

def lead (actions : List Action) (script : Script α) : Script α :=
  { script with actions := actions ++ script.actions }

/-- A script that goes on with another one, unless it ends with a failure. -/
def andThen (script : Script α) (next : α → Script β) : Script β :=
  match script.ending with
  | .ok value => (next value).lead script.actions
  | .error failure => { actions := script.actions, ending := .error failure }

@[simp] theorem lead_actions (actions : List Action) (script : Script α) :
    (script.lead actions).actions = actions ++ script.actions := rfl

@[simp] theorem lead_ending (actions : List Action) (script : Script α) :
    (script.lead actions).ending = script.ending := rfl

theorem perform_append (ending : Except Failure α) (first rest : List Action) (channel : Channel) :
    perform ending (first ++ rest) channel =
      match perform (.ok ()) first channel with
      | (.ok _, next) => perform ending rest next
      | (.error failure, next) => (.error failure, next) := by
  induction first generalizing channel with
  | nil => rfl
  | cons action first ih =>
      cases action with
      | write text =>
          rcases hroom : channel.room with _ | _ | room
          · simp only [List.cons_append, perform, hroom, ih]
          · simp only [List.cons_append, perform, hroom]
          · simp only [List.cons_append, perform, hroom, ih]
      | note record => simp only [List.cons_append, perform, ih]

/-- The ending of a script shows only if the output takes all the writes. -/
theorem perform_eq (ending : Except Failure α) (actions : List Action) (channel : Channel) :
    perform ending actions channel =
      match perform (.ok ()) actions channel with
      | (.ok _, next) => (ending, next)
      | (.error failure, next) => (.error failure, next) := by
  have happend := perform_append ending actions [] channel
  rw [List.append_nil] at happend
  exact happend

/-! ### The equations of `Run` -/

@[simp] theorem run_ended_ok (value : α) : (ended (.ok value)).run = pure value := rfl

theorem run_andThen (script : Script α) (next : α → Script β) :
    (script.andThen next).run = script.run >>= fun value => (next value).run := by
  funext channel
  change (script.andThen next).run channel = ExceptT.bindCont (fun value => (next value).run)
    (perform script.ending script.actions channel).1 (perform script.ending script.actions channel).2
  rw [perform_eq script.ending]
  rcases hending : script.ending with failure | value
  · simp only [andThen, hending, run]
    rw [perform_eq]
    rcases perform (.ok ()) script.actions channel with ⟨_ | _, after⟩ <;> rfl
  · simp only [andThen, hending, run, lead_actions, lead_ending, perform_append]
    rcases perform (.ok ()) script.actions channel with ⟨_ | _, after⟩ <;> rfl

theorem run_lead_write (text : String) (script : Script α) :
    (script.lead [.write text]).run = HtmlLayout.write text >>= fun _ => script.run := by
  funext channel
  change perform script.ending (.write text :: script.actions) channel =
    ExceptT.bindCont (fun _ => script.run) (HtmlLayout.write text channel).1
      (HtmlLayout.write text channel).2
  rcases hroom : channel.room with _ | _ | room <;> simp only [perform, HtmlLayout.write, hroom] <;> rfl

end Script

/-! ### What a script does on an output -/

def Channel.after (channel : Channel) (actions : List Action) : Channel :=
  { channel with
    writes := channel.writes ++ (Action.writes actions).toArray
    room := channel.room.map (· - (Action.writes actions).length)
    records := channel.records ++ (Action.notes actions).toArray }

namespace Script

variable {α : Type}

@[simp] theorem after_nil (channel : Channel) : channel.after [] = channel := by
  rcases channel with ⟨writes, _ | room, refusal, flushRefusal, records⟩ <;> simp [Channel.after]

theorem after_write (channel : Channel) (text : String) (rest : List Action) :
    channel.after (.write text :: rest) =
      { channel with writes := channel.writes.push text, room := channel.room.map (· - 1) }.after
        rest := by
  have hroom : channel.room.map (· - (1 + (Action.writes rest).length)) =
      (channel.room.map (· - 1)).map (· - (Action.writes rest).length) := by
    cases channel.room <;> simp [Nat.sub_sub]
  simp [Channel.after, hroom, Nat.add_comm]

theorem after_note (channel : Channel) (record : Record) (rest : List Action) :
    channel.after (.note record :: rest) =
      { channel with records := channel.records.push record }.after rest := by
  simp [Channel.after]

theorem perform_of_room_none (ending : Except Failure α) (actions : List Action) {channel : Channel}
    (hroom : channel.room = none) :
    perform ending actions channel = (ending, channel.after actions) := by
  induction actions generalizing channel with
  | nil => rw [after_nil, perform]
  | cons action rest ih =>
      cases action with
      | write text =>
          simp only [perform, hroom]
          rw [ih rfl, after_write, hroom]
          rfl
      | note record =>
          rw [perform, ih (by exact hroom), after_note]

/-- What a script writes and how it ends can be seen from what it does. -/
theorem eq_of_run_eq {script other : Script α} (hrun : script.run = other.run) :
    script.ending = other.ending ∧ Action.writes script.actions = Action.writes other.actions := by
  have hempty : perform script.ending script.actions {} = perform other.ending other.actions {} :=
    congrFun hrun {}
  rw [perform_of_room_none _ _ rfl, perform_of_room_none _ _ rfl, Prod.mk.injEq] at hempty
  refine ⟨hempty.1, ?_⟩
  simpa [Channel.after] using congrArg Channel.writes hempty.2

/-- With room for a number of writes a script is performed up to the write that finds none. -/
theorem perform_of_room_some (ending : Except Failure α) (actions : List Action) {channel : Channel}
    {room : Nat} (hroom : channel.room = some room) :
    perform ending actions channel =
      (if (Action.writes actions).length ≤ room then ending else .error (.output channel.refusal),
        channel.after (Action.before room actions)) := by
  induction actions generalizing channel room with
  | nil => simp [perform, Action.before]
  | cons action rest ih =>
      cases action with
      | write text =>
          cases room with
          | zero => simp [perform, hroom, Action.before]
          | succ room =>
              simp only [perform, hroom]
              rw [ih rfl, Action.before, after_write, hroom]
              simp
      | note record =>
          rw [perform, ih (by exact hroom), Action.before, after_note]
          rfl

/-- What an operation that follows a script does depends on the room and the words of the output, and on
nothing else. -/
theorem exists_performed (script : Script α) (room : Option Nat) (refusal : String) :
    ∃ result actions, ∀ channel : Channel, channel.room = room → channel.refusal = refusal →
      script.run.run.run channel = (result, channel.after actions) := by
  cases room with
  | none => exact ⟨_, _, fun _ hroom _ => perform_of_room_none _ _ hroom⟩
  | some room =>
      refine ⟨if (Action.writes script.actions).length ≤ room then script.ending
        else .error (.output refusal), Action.before room script.actions, ?_⟩
      rintro channel hroom rfl
      exact perform_of_room_some _ _ hroom

end Script

end HtmlLayout
