/-!
# Byte sinks

Generated text is written to a sink that may have room for only so many bytes.
A write that does not fit stores what fits and fails; the sink is then full and
every further byte is refused.  A destination that recovers from a failure is
another sink put in the place of the full one.
-/

namespace HackToolchain.Codegen

/-- Why a sink refuses. -/
inductive SinkFailure where
  | full
  | flush
  deriving DecidableEq, Repr

def SinkFailure.message : SinkFailure → String
  | full => "sink full"
  | flush => "flush failed"

/-- A destination for bytes. -/
structure Sink where
  /-- The bytes it has room for; without a number it takes all. -/
  room : Option Nat
  /-- Whether flushing it fails. -/
  flushFails : Bool
  /-- The bytes it has taken. -/
  written : ByteArray

namespace Sink

/-- An empty sink that takes everything. -/
def unbounded : Sink :=
  ⟨none, false, .empty⟩

/-- Write bytes: store what fits, and fail if that is not all. -/
def write (bytes : ByteArray) (sink : Sink) : Except SinkFailure Unit × Sink :=
  match sink.room with
  | none => (.ok (), { sink with written := sink.written ++ bytes })
  | some room =>
      if sink.written.size + bytes.size ≤ room then
        (.ok (), { sink with written := sink.written ++ bytes })
      else
        (.error .full,
          { sink with written := sink.written ++ bytes.extract 0 (room - sink.written.size) })

theorem write_of_room_eq_none {sink : Sink} (limitless : sink.room = none) (bytes : ByteArray) :
    sink.write bytes = (.ok (), { sink with written := sink.written ++ bytes }) := by
  simp [write, limitless]

/-- Flush the sink and give out its bytes. -/
def flush (sink : Sink) : Except SinkFailure ByteArray :=
  if sink.flushFails then .error .flush else .ok sink.written

end Sink

end HackToolchain.Codegen
