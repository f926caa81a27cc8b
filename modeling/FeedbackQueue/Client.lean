import FeedbackQueue.Client.Address
import FeedbackQueue.Json.Encoding
import FeedbackQueue.Web

/-!
# Requests from clients

How a request gets to the web service and what it asks for: its target names a path on
a server, the path and the method name a call, and the body may hold a document. The
service itself knows calls only, and nothing here is part of it.
-/

namespace FeedbackQueue.Client

open Web (Call Response)

inductive Method where
  | get | post
deriving DecidableEq, Repr

structure Request where
  method : Method
  /-- A path or a whole address, with query and fragment. -/
  target : String
  contentType : String
  body : String
deriving DecidableEq, Repr

/-- Why a request cannot be made. -/
inductive RequestError where
  | address (e : AddressError)
  /-- A header holds a line end. -/
  | header
deriving DecidableEq, Repr

def RequestError.message : RequestError → String
  | .address e => e.message
  | .header => "Header values must not contain newline characters."

/-! ## Addresses -/

/-- What a path leads to. -/
inductive Route where
  | config | reference | simulate
  /-- A static file, of which there are none. -/
  | asset
deriving DecidableEq, Repr

namespace Route

def method : Route → Method
  | .simulate => .post
  | _ => .get

/-- A file under the static folder, whose name starts with no slash and goes on
in one line. -/
def isAsset (path : List Char) : Bool :=
  let name := path.drop "/static/".length
  "/static/".toList.isPrefixOf path && name.head?.any (· ≠ '/') && '\n' ∉ name.tail

def ofPath? (path : List Char) : Option Route :=
  if path = "/api/config".toList then some .config
  else if path = "/api/reference".toList then some .reference
  else if path = "/api/simulate".toList then some .simulate
  else if isAsset path then some .asset
  else none

end Route

/-- Each pair of slashes as one. -/
def mergeSlashes : List Char → List Char
  | '/' :: '/' :: rest => '/' :: mergeSlashes rest
  | c :: rest => c :: mergeSlashes rest
  | [] => []

/-- What is known about a path and a method before the request is answered. -/
inductive Resolution where
  | found (route : Route)
  | moved
  | wrongMethod
  | unknown
deriving DecidableEq, Repr

def resolve (method : Method) (path : List Char) : Resolution :=
  match Route.ofPath? path with
  | some route => if route.method = method then .found route else .wrongMethod
  | none =>
    match Route.ofPath? (mergeSlashes path) with
    | some route => if route.method = method then .moved else .wrongMethod
    | none => .unknown

/-! ## Bodies -/

/-- The media type without its parameters, in lower case. -/
def mediaType (contentType : String) : List Char :=
  (Text.trim (contentType.toList.takeWhile (· ≠ ';'))).map Char.toLower

def isJson (mediaType : List Char) : Bool :=
  mediaType = "application/json".toList ||
    ("application/".toList.isPrefixOf mediaType && "+json".toList.isSuffixOf mediaType)

/-- The document of a request, if its body is one. -/
def Request.document? (r : Request) : Option Json.Value :=
  if isJson (mediaType r.contentType) then Json.decode? r.body.toUTF8.data.toList else none

/-! ## Answers -/

/-- What a service whose configuration in force is `config` answers at a location. -/
def answer (config : Config) (r : Request) (location : Location) : Response :=
  match resolve r.method location.path with
  | .found .config => Web.answer config .config
  | .found .reference => Web.answer config .reference
  | .found .simulate => Web.answer config (.simulate r.document?)
  | .found .asset | .unknown => .bare 404
  | .wrongMethod => .bare 405
  | .moved => .bare (if location.canRedirect then 308 else 500)

/-- Make a request of a service and answer it. -/
def respond (config : Config) (r : Request) : Except RequestError Response := do
  let location ← (Location.ofTarget r.target).mapError .address
  if r.contentType.toList.any fun c => c = '\n' || c = '\r' then throw .header
  location.checkShown.mapError .address
  return if location.isKnownServer then answer config r location else .bare 400

end FeedbackQueue.Client
