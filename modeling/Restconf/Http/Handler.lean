import Restconf.Gateway.State
import Restconf.Http.Router
import Restconf.Http.Target

/-!
# Answering HTTP requests

## Main definitions

* `HttpRequest`, `HttpAnswer`.
* `HttpAnswer.ofFault` — the error answer for a fault.
* `Gateway.handle` — the answer to a request and the gateway after it.

## Implementation notes

A body is parsed before the path is looked at, and one that is too large is not parsed at all. The
body of a `DELETE` does not count. `OPTIONS` is answered for every path, since requests from any
origin are allowed.

A `HEAD` is answered like the `GET` of the same path, without the body. At a stream this makes a
subscription without a reader, which ends with its first line.
-/

namespace Restconf

/-- A request. -/
structure HttpRequest where
  method : String
  uri : String
  body : String := ""
deriving Repr

/-- An answer. -/
structure HttpAnswer where
  status : Nat
  location : Option String := none
  contentType : Option String := none
  cacheControl : Option String := none
  body : String := ""
  /-- The body is the stream of a subscription. -/
  stream : Option SubscriptionId := none
deriving Repr

namespace HttpAnswer

/-- An answer without content. -/
def empty (status : Nat) : HttpAnswer := { status }

/-- An answer in plain text. -/
def plain (status : Nat) (body : String) : HttpAnswer :=
  { status, contentType := some "text/plain; charset=utf-8", body }

/-- An answer in JSON. -/
def json (status : Nat) (document : Json) : HttpAnswer :=
  { status, contentType := some "application/json", body := document.render }

/-- A character that cannot stand in a header. -/
def isControl (c : Char) : Bool := c.toNat < 0x20 || c.toNat == 0x7F

/-- The answer to a create. The location of what is new is the path of the request; where this
cannot stand in a header, the body says so. -/
def created (path : String) : HttpAnswer :=
  if path.toList.any isControl then plain 201 "failed to parse header value"
  else { status := 201, location := some path }

/-- An error answer. -/
def error (category : Category) (message : String) : HttpAnswer :=
  json category.status (.object [("error", .string category.label), ("message", .string message)])

/-- The error answer for a fault. -/
def ofFault (fault : Fault) : HttpAnswer := error fault.category fault.message

/-- The error answer for a body that is no JSON document. -/
def invalidBody : HttpAnswer := error .badRequest "Invalid JSON body"

/-- The error answer for a body that is too large. -/
def bodyTooLarge : HttpAnswer :=
  plain 413 "Failed to buffer the request body: length limit exceeded"

/-- No route leads to the path. -/
def notFound : HttpAnswer := empty 404

/-- The route does not take the method. -/
def methodNotAllowed : HttpAnswer := empty 405

/-- A parameter of the path is not text. -/
def invalidParameter (name : String) : HttpAnswer :=
  plain 400 s!"Invalid URL: Invalid UTF-8 in `{name}`"

/-- The path of a stream has more parameters than the name of the stream. -/
def wrongParameterCount (count : Nat) : HttpAnswer :=
  plain 500 <|
    s!"Wrong number of path arguments for `Path`. Expected 1 but got {count}. " ++
    "Note that multiple parameters must be extracted with a tuple `Path<(_, _)>` " ++
    "or a struct `Path<YourParams>`"

end HttpAnswer

/-! ### Parameters -/

/-- The bytes of a text, every escape read as one byte. A percent sign without two digits stands for
itself. -/
def Percent.toBytes : List Char → List UInt8
  | [] => []
  | '%' :: high :: low :: rest =>
    match Hex.value? high, Hex.value? low with
    | some h, some l => UInt8.ofNat (16 * h + l) :: toBytes rest
    | _, _ => String.utf8EncodeChar '%' ++ toBytes (high :: low :: rest)
  | c :: rest => String.utf8EncodeChar c ++ toBytes rest

/-- What a parameter says. Its escapes spell bytes of UTF-8. -/
def Capture.value? (parameter : Capture) : Option String :=
  String.fromUTF8? ⟨(Percent.toBytes parameter.text).toArray⟩

namespace Gateway

/-! ### Data resources -/

/-- The answer to a read. -/
def readData (g : Gateway) (path : String) : HttpAnswer × Gateway :=
  match g.read path with
  | (.ok document, g) => (.json 200 document, g)
  | (.error fault, g) => (.ofFault fault, g)

/-- How many bytes a body may have. -/
def bodyLimit : Nat := 2 * 1024 * 1024

/-- The answer to an edit with a body. -/
def editData (g : Gateway) (intent : Intent) (path body : String) (success : HttpAnswer) :
    HttpAnswer × Gateway :=
  if bodyLimit < body.utf8ByteSize then (.bodyTooLarge, g)
  else
    match Json.parse? body with
    | none => (.invalidBody, g)
    | some document =>
      match g.edit intent path (some document) with
      | (.ok (), g) => (success, g)
      | (.error fault, g) => (.ofFault fault, g)

/-- The answer to a delete. -/
def deleteData (g : Gateway) (path : String) : HttpAnswer × Gateway :=
  match g.edit .delete path none with
  | (.ok (), g) => (.empty 204, g)
  | (.error fault, g) => (.ofFault fault, g)

/-- The answer to a request on a data resource. -/
def handleData (g : Gateway) (method path body : String) : HttpAnswer × Gateway :=
  match method with
  | "GET" => g.readData path
  | "POST" => g.editData .create path body (.created path)
  | "PUT" => g.editData .replace path body (.empty 204)
  | "DELETE" => g.deleteData path
  | _ => (.methodNotAllowed, g)

/-! ### Streams -/

/-- How many chunks wait for the client of a stream. -/
def streamCapacity : Nat := 16

/-- The answer to a subscription: its body goes on for as long as the subscription lives. -/
def openStream (g : Gateway) (stream : String) : HttpAnswer × Gateway :=
  match g.subscribe stream (.channel (.ofCapacity streamCapacity)) with
  | .error fault => (.ofFault fault, g)
  | .ok (id, g) =>
    ({ status := 200, contentType := some "application/json", cacheControl := some "no-cache"
       stream := some id }, g)

/-- The answer to a request on a stream. Its path may have no parameters but the name. -/
def handleStream (g : Gateway) (parameters : List Capture) : HttpAnswer × Gateway :=
  match parameters.find? fun p => p.value?.isNone with
  | some invalid => (.invalidParameter invalid.name, g)
  | none =>
    match parameters.filterMap Capture.value? with
    | [stream] => g.openStream stream
    | values => (.wrongParameterCount values.length, g)

/-! ### Requests -/

/-- The answer to a request for a path, `HEAD` and `OPTIONS` apart. -/
def handlePath (g : Gateway) (method : String) (path : List Char) (body : String) :
    HttpAnswer × Gateway :=
  match Route.ofPath? g.service.rootPath path, method with
  | none, _ => (.notFound, g)
  | some .health, "GET" => (.plain 200 "OK", g)
  | some .data, _ => g.handleData method (.ofList path) body
  | some (.stream parameters), "GET" => g.handleStream parameters
  | some _, _ => (.methodNotAllowed, g)

/-- An answer without its body. Nobody reads the stream that the body would have been. -/
def withoutBody (answer : HttpAnswer) (g : Gateway) : HttpAnswer × Gateway :=
  ({ answer with body := "" }, answer.stream.elim g g.abandon)

/-- The answer to a request. -/
def handle (g : Gateway) (request : HttpRequest) : HttpAnswer × Gateway :=
  let path := Target.path request.uri.toList
  match request.method with
  | "OPTIONS" => (.empty 200, g)
  | "HEAD" =>
    let (answer, g) := g.handlePath "GET" path request.body
    withoutBody answer g
  | method => g.handlePath method path request.body

end Gateway

end Restconf
