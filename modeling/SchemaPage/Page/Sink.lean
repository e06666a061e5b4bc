/-!
# Sinks

A sink takes the bytes of a page.  It may have room for a limited number of them; what no longer
fits is refused, after the part that fits has been taken.

* `Sink.write`: hand some bytes to a sink.
* `Sink.flush`: finish writing.
* `SinkError.message`: the report of a sink that refuses.
-/

namespace SchemaPage

/-- Why a sink takes no more. -/
inductive SinkError where
  /-- The sink refuses bytes. -/
  | closed
  /-- The sink is asked to take bytes and takes none. -/
  | stalled
  /-- The sink refuses to finish. -/
  | flushRefused
  /-- Any other reason, as it is reported. -/
  | other (message : String)
  deriving DecidableEq, Repr

/-- The report of the error. -/
def SinkError.message : SinkError → String
  | closed => "sink closed"
  | stalled => "failed to write whole buffer"
  | flushRefused => "flush refused"
  | other message => message

/-- A place that bytes are written to. -/
structure Sink where
  /-- How many bytes there is still room for; without a number there is always room. -/
  room : Option Nat
  /-- What happens when there is no room left. -/
  whenFull : SinkError
  /-- Whether the sink refuses to finish. -/
  refusesFlush : Bool
  /-- The bytes that were taken. -/
  taken : ByteArray

namespace Sink

/-- A sink that takes everything. -/
def unlimited : Sink := ⟨none, .closed, false, .empty⟩

/-- Hand some bytes to the sink, which takes as many as it has room for. -/
def write (s : Sink) (bytes : ByteArray) : Sink × Option SinkError :=
  match s.room with
  | none => ({ s with taken := s.taken ++ bytes }, none)
  | some n =>
    if bytes.size ≤ n then
      ({ s with room := some (n - bytes.size), taken := s.taken ++ bytes }, none)
    else
      ({ s with room := some 0, taken := s.taken ++ bytes.extract 0 n }, some s.whenFull)

/-- Finish writing. -/
def flush (s : Sink) : Option SinkError := if s.refusesFlush then some .flushRefused else none

end Sink

end SchemaPage
