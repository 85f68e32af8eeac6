import Restconf.Http.Handler

/-!
# Requests by the line

A gateway that takes a request from each line of its input and writes the answer as lines: the
status, the headers, an empty line and the body. What has come for open streams follows.

## Main definitions

* `HttpRequest.ofLine?` — the request of a line.
* `HttpAnswer.lines` — the lines of an answer.
* `Console` — a gateway and the streams that are open; `Console.respond`, `Console.close`.
-/

namespace Restconf

/-- The request of a line: the method, the URI and the body, with single spaces between them. -/
def HttpRequest.ofLine? (line : String) : Option HttpRequest :=
  match line.splitOn " " with
  | method :: uri :: body => some { method, uri, body := " ".intercalate body }
  | _ => none

/-- The line of a header, if there is a value for it. -/
def HttpAnswer.header (name : String) : Option String → List String
  | some value => [name ++ ": " ++ value]
  | none => []

/-- The lines of an answer. -/
def HttpAnswer.lines (answer : HttpAnswer) : List String :=
  toString answer.status :: header "location" answer.location
    ++ header "content-type" answer.contentType ++ header "cache-control" answer.cacheControl
    ++ ["", answer.body]

/-- A gateway with the streams that are open. -/
structure Console where
  gateway : Gateway
  streams : List SubscriptionId := []

namespace Console

/-- Runs the gateway and takes what has come for the open streams. -/
def collect (console : Console) : List String × Console :=
  let gateway := console.gateway.settle
  let (chunks, gateway) := console.streams.foldl (fun (chunks, gateway) id =>
    let (more, _, gateway) := Gateway.receive gateway id none
    (chunks ++ more, gateway)) ([], gateway)
  let lines := chunks.map fun chunk => (chunk.dropEndWhile Char.isWhitespace).toString
  (lines, { console with gateway })

/-- The lines that answer a line. -/
def respond (console : Console) (line : String) : List String × Console :=
  match HttpRequest.ofLine? line with
  | none => (["400", "", "a request is a method, a URI and a body"], console)
  | some request =>
    let (answer, gateway) := console.gateway.handle request
    let (chunks, console) :=
      collect { gateway, streams := console.streams ++ answer.stream.toList }
    (answer.lines ++ chunks, console)

/-- Ends all streams. -/
def close (console : Console) : List String :=
  (collect { console with gateway := console.gateway.shutdown }).1

end Console

end Restconf
