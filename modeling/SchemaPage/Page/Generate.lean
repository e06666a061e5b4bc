import SchemaPage.Page.Document
import SchemaPage.Page.Sink

/-!
# Writing a page

A draft is handed to a sink piece by piece.  The writing stops with the first piece that the sink
does not take whole; a reference that stops the draft is reported only once everything before it
has been taken.

* `RenderError`: why a page was not written to its end.
* `Sink.deliver`: hand the pieces of a draft to a sink.
* `Document.generate`: write the page of a graph.
-/

namespace SchemaPage

/-- Why a page was not written to its end. -/
inductive RenderError where
  /-- The sink took no more. -/
  | sink (cause : SinkError)
  /-- A type name stands for nothing. -/
  | resolve (cause : ResolveError)
  /-- A part of the frame could not be filled in. -/
  | frame (reason : String)
  deriving DecidableEq, Repr

namespace RenderError

/-- The report of what lies behind the error. -/
def cause : RenderError → String
  | sink e => e.message
  | resolve e => e.message
  | frame reason => reason

/-- The report of the error. -/
def message : RenderError → String
  | sink e => "failed to write document: " ++ e.message
  | resolve e => "failed to resolve type: " ++ e.message
  | frame reason => "failed to render template: " ++ reason

end RenderError

namespace Sink

/-- Hand pieces to the sink, one after the other, up to the first that it does not take whole. -/
def writePieces (s : Sink) : List Piece → Sink × Option SinkError
  | [] => (s, none)
  | piece :: pieces =>
    match s.write piece.render.toUTF8 with
    | (s, some e) => (s, some e)
    | (s, none) => s.writePieces pieces

/-- Hand a draft to the sink. -/
def deliver (s : Sink) (d : Draft) : Sink × Except RenderError Unit :=
  match s.writePieces d.pieces with
  | (s, some e) => (s, .error (.sink e))
  | (s, none) =>
    match d.failure with
    | some e => (s, .error (.resolve e))
    | none => (s, .ok ())

end Sink

namespace Document

/-- Write the page of a graph into a sink and finish. -/
def generate (g : Graph) (options : PageOptions) (s : Sink) : Sink × Except RenderError Unit :=
  match s.deliver (draft g options) with
  | (s, .error e) => (s, .error e)
  | (s, .ok ()) =>
    match s.flush with
    | some e => (s, .error (.sink e))
    | none => (s, .ok ())

end Document

end SchemaPage
