/-
# The service

The library answers requests over HTTP: it resolves entry points, makes programs, recovers verdicts
and runs solutions. A request that cannot be answered is refused, and of several reasons the first
of these counts: an unknown path, a wrong method, a body that is not announced as JSON, a body that
is not JSON, and JSON of another shape. A refusal has a status and no body of its own.
-/

import HarnessSynthesis.Harness.Program
import HarnessSynthesis.Judge.Catalog
import HarnessSynthesis.Simulation

namespace HarnessSynthesis

open Json

/-! ## Media types -/

namespace MediaType

/-- The characters of a token in a header. -/
def isTokenChar (c : Char) : Bool :=
  c.isAlphanum || c ∈ "!#$%&'*+-.^_`|~".toList

/-- A character inside the quotes of a parameter. -/
def isQuotedChar (c : Char) : Bool :=
  c = '\t' || ' ' ≤ c && c ≤ '~'

/-- The rest behind a quoted value and the quote that ends it. -/
def quotedValue? : Text → Option Text
  | [] => none
  | '"' :: rest => some rest
  | '\\' :: c :: rest => if isQuotedChar c then quotedValue? rest else none
  | c :: rest => if isQuotedChar c then quotedValue? rest else none

/-- Whether a text lists parameters, each behind a semicolon. -/
def areParameters : (fuel : Nat) → Text → Bool
  | 0, t => t.isEmpty
  | _, [] => true
  | fuel + 1, c :: rest =>
    if c ≠ ';' then false
    else
      let inner := rest.dropWhile (· = ' ')
      if inner.isEmpty then true
      else
        let name := inner.takeWhile isTokenChar
        match name, inner.dropWhile isTokenChar with
        | _ :: _, '=' :: '"' :: value =>
          match quotedValue? value with
          | some behind => areParameters fuel (behind.dropWhile (· = ' '))
          | none => false
        | _ :: _, '=' :: value => areParameters fuel (value.dropWhile isTokenChar)
        | _, _ => false

/-- The part of a subtype in front of its last plus sign, and the suffix behind it. -/
def splitSuffix (subtype : Text) : Text × Option Text :=
  let suffix := Text.takeEndWhile (· ≠ '+') subtype
  let before := (Text.dropEndWhile (· ≠ '+') subtype).dropLast
  if before.isEmpty then (subtype, none) else (before, some suffix)

/-- Whether a header announces JSON: the media type is that of JSON or of a format built on it. -/
def isJson (header : Text) : Bool :=
  let written := Text.lower header
  let whole := written.takeWhile isTokenChar
  match written.dropWhile isTokenChar with
  | '/' :: behind =>
    let (subtype, suffix) := splitSuffix (behind.takeWhile isTokenChar)
    whole == ("application" : Text) && (subtype == ("json" : Text) || suffix == some "json") &&
      areParameters header.length (behind.dropWhile isTokenChar)
  | _ => false

end MediaType

/-! ## Requests and responses -/

/-- A request to the service. -/
structure HttpRequest where
  method : Text
  path : Text
  contentType : Option Text
  body : Text
  deriving DecidableEq, Repr

/-- An answer of the service. -/
structure HttpResponse where
  status : Nat
  /-- The document in the body, when there is one. -/
  body : Option Node
  deriving Repr

namespace HttpResponse

/-- A refusal. -/
def refusal (status : Nat) : HttpResponse := ⟨status, none⟩

def ok (body : Node) : HttpResponse := ⟨200, some body⟩

/-- An answer that says what went wrong. -/
def error (status : Nat) (message : Text) : HttpResponse :=
  ⟨status, some (.record [("error", .text message)])⟩

end HttpResponse

/-! ## Routes -/

namespace Service

/-- What the service can be asked for. -/
inductive Route where
  | status
  | metrics
  | synthesize
  | synthesizeCall
  | run
  | extract
  | resolve
  deriving DecidableEq, Repr

namespace Route

/-- The route of a path, which is compared as it is. -/
def ofPath? (path : Text) : Option Route :=
  if path = "/status" then some .status
  else if path = "/metrics" then some .metrics
  else if path = "/synthesize" then some .synthesize
  else if path = "/synthesize/judge" then some .synthesizeCall
  else if path = "/run" then some .run
  else if path = "/extract" then some .extract
  else if path = "/resolve" then some .resolve
  else none

/-- Whether a route only reads. -/
def isRead : Route → Bool
  | .status => true
  | .metrics => true
  | _ => false

def allows (method : Text) (r : Route) : Bool :=
  if r.isRead then method = "GET" || method = "HEAD" else method = "POST"

end Route

/-- A program with the function that it calls. -/
def programAnswer (l : Language) (entry : EntryPoint) (program : Text) : HttpResponse :=
  .ok (.record [("language", l.encode), ("entryPoint", entry.encode), ("program", .text program)])

/-- The verdict objects found in an output. -/
def extractAnswer (output : Text) : HttpResponse :=
  match Recovery.extract output with
  | .ok items => .ok (.record [("results", .array (items.map .ofValue))])
  | .error e => .error 422 e.message

/-- The body of an extraction request. -/
def outputDecoder : Decoder Text :=
  (Shape.field "output" Decoder.text .required .done).decoder.map fun (output, ()) => output

/-- The answer to a request with a JSON body. Text behind the body's document does not count. -/
def withBody {α : Type} (decode : Decoder α) (request : HttpRequest) (f : α → HttpResponse) :
    HttpResponse :=
  if !(request.contentType.map MediaType.isJson).getD false then .refusal 415
  else
    match decode.decodeHead request.body with
    | .ok a => f a
    | .error .malformed => .refusal 400
    | .error .mismatch => .refusal 422

/-- The path of a target, without the query behind it. -/
def pathOf (target : Text) : Text :=
  target.takeWhile fun c => c ≠ '?' && c ≠ '#'

/-- The answer to a request, when `catalog` says what the judge knows and `run` how it ran. -/
def respond (catalog : Catalog) (run : RunRequest → Except Failure RunReport)
    (request : HttpRequest) : HttpResponse :=
  match Route.ofPath? (pathOf request.path) with
  | none => .refusal 404
  | some route =>
    if !route.allows request.method then .refusal 405
    else
      match route with
      | .status => .ok (.record [("languages", .array (catalog.languages.map Language.encode)),
          ("status", .text "ok")])
      | .metrics => ⟨200, none⟩
      | .synthesize => withBody RunRequest.decoder request fun r =>
          programAnswer r.language r.entryPoint r.program
      | .synthesizeCall => withBody CallRequest.decoder request fun r =>
          programAnswer r.language r.entryPoint r.program
      | .run => withBody RunRequest.decoder request fun r =>
          match run r with
          | .ok report => .ok report.encode
          | .error f => .error 502 f.message
      | .extract => withBody outputDecoder request extractAnswer
      | .resolve => withBody ResolveRequest.decoder request fun r => .ok r.answer

end Service

end HarnessSynthesis
