import LiveLayout.Decoding.Basic

/-!
# Options

What holds for all requests of a renderer: the base of relative endpoints, the
time a request may take, headers that every request carries, and the name the
program goes by.
-/

namespace LiveLayout

open Json (Document)
open Decoding

structure Options where
  baseUrl : Option String
  /-- Milliseconds a request may take. -/
  timeout : Nat
  defaultHeaders : Fields String
  userAgent : String
  deriving DecidableEq

namespace Options

-- powers are those of the core library, whatever else is in scope
attribute [local instance (high)] instPowNat

def default : Options := ⟨none, 10000, [], "mini-layout/0.1.0"⟩

def maxTimeout : Nat := 2 ^ (64 : Nat) - 1

def withBaseUrl (o : Options) (url : String) : Options := { o with baseUrl := some url }

/-- A time given in nanoseconds counts in whole milliseconds. -/
def withTimeout (o : Options) (nanoseconds : Nat) : Options :=
  { o with timeout := min (nanoseconds / 10 ^ (6 : Nat)) maxTimeout }

def withHeader (o : Options) (name value : String) : Options :=
  { o with defaultHeaders := Fields.put o.defaultHeaders name value }

-- ---------------------------------------------------------------------------
-- Endpoints
-- ---------------------------------------------------------------------------

def isAbsolute (endpoint : List Char) : Bool :=
  "http://".toList.isPrefixOf endpoint || "https://".toList.isPrefixOf endpoint

def isSlash (c : Char) : Bool := c == '/'

/-- An endpoint under a base, with one slash between them. -/
def join (base endpoint : List Char) : List Char :=
  (base.reverse.dropWhile isSlash).reverse ++ '/' :: endpoint.dropWhile isSlash

/-- Relative endpoints are below the base, if there is one. -/
def fullEndpoint (o : Options) (endpoint : String) : String :=
  match o.baseUrl with
  | none => endpoint
  | some base =>
    if isAbsolute endpoint.toList then endpoint
    else String.ofList (join base.toList endpoint.toList)

-- ---------------------------------------------------------------------------
-- Decoding
-- ---------------------------------------------------------------------------

structure Draft where
  baseUrl : Option (Option String)
  timeout : Option Nat
  defaultHeaders : Option (Fields String)
  userAgent : Option String

def decodeField (draft : Draft) (name : String) (d : Document) : Result Draft := do
  match name with
  | "baseUrl" => pure { draft with baseUrl := ← once name draft.baseUrl (optional string) d }
  | "fetchTimeoutMs" => pure { draft with timeout := ← once name draft.timeout word d }
  | "defaultHeaders" =>
    pure { draft with defaultHeaders := ← once name draft.defaultHeaders (map string) d }
  | "userAgent" => pure { draft with userAgent := ← once name draft.userAgent string d }
  | _ =>
    ignore d
    pure draft

def decode (origin : Origin) : Document → Result Options
  | .object fields stop => do
    let draft ← fields.foldlM (fun draft p => decodeField draft p.1 p.2) ⟨none, none, none, none⟩
    ended stop
    pure ⟨draft.baseUrl.join, draft.timeout.getD default.timeout,
      draft.defaultHeaders.getD [], draft.userAgent.getD default.userAgent⟩
  | .array items stop =>
    let reader : RowReader Options := do
      let baseUrl ← Row.nextOr none (optional string)
      let timeout ← Row.nextOr default.timeout word
      let headers ← Row.nextOr [] (map string)
      let agent ← Row.nextOr default.userAgent string
      pure ⟨baseUrl, timeout, headers, agent⟩
    Row.read origin reader items stop
  | d => refuse "struct RenderOptions" d

def ofText (text : String) : Result Options := run decode (.text text)

end Options

end LiveLayout
