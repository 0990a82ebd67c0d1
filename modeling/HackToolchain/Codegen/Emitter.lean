import HackToolchain.Codegen.Generator
import HackToolchain.Codegen.Sink
import HackToolchain.Vm.Source

/-!
# Emitters

An emitter generates the code of commands and writes it to a sink, on request
after a remark that shows the command.  The code is made before anything is
written, so a failing write does not change which labels and statics have been
used.  An emitter can be used after a failure.
-/

namespace HackToolchain.Codegen

open HackToolchain.Vm

/-- Why an operation of an emitter fails. -/
inductive Failure where
  | fault (located : LocatedFault)
  | sink (failure : SinkFailure)
  deriving DecidableEq, Repr

/-- A generator together with the sink it writes to. -/
structure Emitter where
  /-- What is kept between commands. -/
  generator : Generator
  /-- Whether code is preceded by a remark. -/
  annotate : Bool
  /-- Where the code goes. -/
  sink : Sink

namespace Emitter

def start (annotate : Bool) (sink : Sink) : Emitter :=
  ⟨.initial, annotate, sink⟩

def emitBlock (block : Block) (emitter : Emitter) : Except SinkFailure Unit × Emitter :=
  let (result, sink) := emitter.sink.write (block.text emitter.annotate).toUTF8
  (result, { emitter with sink })

/-- Write the code that sets up the stack and calls the entry function. -/
def bootstrap (entry : String) (emitter : Emitter) : Except SinkFailure Unit × Emitter :=
  emitBlock (emitter.generator.bootstrapBlock entry)
    { emitter with generator := emitter.generator.advanceBootstrap }

def beginUnit (name : String) (emitter : Emitter) : Emitter :=
  { emitter with generator := emitter.generator.beginUnit name }

def setAnnotate (annotate : Bool) (emitter : Emitter) : Emitter :=
  { emitter with annotate }

def emit (command : Command) (emitter : Emitter) : Except SinkFailure Unit × Emitter :=
  emitBlock (emitter.generator.block command)
    { emitter with generator := emitter.generator.advance command }

/-- Whether the write succeeds or fails, the labels and statics of a command are used. -/
@[simp] theorem generator_emit (command : Command) (emitter : Emitter) :
    (emitter.emit command).2.generator = emitter.generator.advance command := rfl

end Emitter

/-- How far the readings of a source have been compiled. -/
structure Progress where
  emitter : Emitter
  commands : Nat
  /-- The readings that were passed over, the latest first. -/
  skipped : List Reading

namespace Progress

def start (emitter : Emitter) : Progress :=
  ⟨emitter, 0, []⟩

/-- Act on a reading: emit its command, fail with its fault, or pass it over. -/
def advance (reading : Reading) (progress : Progress) : Except Failure Unit × Progress :=
  match reading.outcome with
  | .command command =>
      match progress.emitter.emit command with
      | (.ok (), emitter) =>
          (.ok (), { progress with emitter, commands := progress.commands + 1 })
      | (.error failure, emitter) => (.error (.sink failure), { progress with emitter })
  | .fault fault => (.error (.fault ⟨reading.line, reading.text, fault⟩), progress)
  | .skipped => (.ok (), { progress with skipped := reading :: progress.skipped })

/-- Act on readings in order, up to the first failure. -/
def advanceAll : List Reading → Progress → Except Failure Unit × Progress
  | [], progress => (.ok (), progress)
  | reading :: rest, progress =>
      match progress.advance reading with
      | (.ok (), progress) => advanceAll rest progress
      | (.error failure, progress) => (.error failure, progress)

end Progress

/-- What an emitter can be asked to do. -/
inductive Operation where
  | bootstrap (entry : String)
  | beginUnit (name : String)
  | annotate (annotate : Bool)
  | command (command : Command)
  | source (text : String)
  deriving DecidableEq, Repr

namespace Emitter

def perform (operation : Operation) (emitter : Emitter) : Except Failure Unit × Emitter :=
  match operation with
  | .bootstrap entry =>
      let (result, emitter) := emitter.bootstrap entry
      (result.mapError .sink, emitter)
  | .beginUnit name => (.ok (), emitter.beginUnit name)
  | .annotate annotate => (.ok (), emitter.setAnnotate annotate)
  | .command command =>
      let (result, emitter) := emitter.emit command
      (result.mapError .sink, emitter)
  | .source text =>
      let (result, progress) := (Progress.start emitter).advanceAll (readings text)
      (result, progress.emitter)

/-- Perform operations in order, failed or not, with the result and the state after each. -/
def performAll : List Operation → Emitter → List (Except Failure Unit × Emitter)
  | [], _ => []
  | operation :: rest, emitter =>
      let step := emitter.perform operation
      step :: performAll rest step.2

end Emitter

end HackToolchain.Codegen
