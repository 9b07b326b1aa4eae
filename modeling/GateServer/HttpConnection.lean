import GateServer.LogicalSystem

/-!
# A connection's request

What happens between the end of `http::async_read` and the start of the response:
the dispatch on the method, the two route tables, the handlers, and the `try` around
all of it. The target is bytes; a text that a byte string stands for has one
character for each byte.
-/

namespace GateServer

open Interact

abbrev Bytes := List UInt8

def Bytes.text (bytes : Bytes) : String := .ofList (bytes.map fun b => Char.ofNat b.toNat)

inductive Verb
  | get
  | post
  | other (name : String)
  deriving DecidableEq, Repr

structure HttpRequest where
  method : Verb
  target : Bytes
  version : Nat
  body : String
  deriving DecidableEq, Repr

inductive HttpStatus
  | ok
  | notFound
  deriving DecidableEq, Repr

/-- A response without its body, whose pieces are operations of their own. -/
structure HttpResponse where
  version : Nat
  keepAlive : Bool
  result : HttpStatus := .ok
  contentType : Option String := none
  server : Option String := none
  deriving DecidableEq, Repr

-- ---------------------------------------------------------------------------
-- Operations
-- ---------------------------------------------------------------------------

/-- The operations besides those of the handlers: the peer's address, a piece of the body, the
start of a write and the start of the timer's wait. -/
inductive HttpOp
  | op (op : Op)
  | remoteEndpoint
  | text (piece : String)
  | writeResponse (response : HttpResponse)
  | asyncWait

/-- `remote_endpoint()` throws when the socket is no longer connected. -/
abbrev HttpAns : HttpOp → Type
  | .op op => Ans op
  | .remoteEndpoint => Except String String
  | .text _ | .writeResponse _ | .asyncWait => Unit

abbrev HttpAct (α : Type) := Prog HttpAns α
abbrev HttpEv := Event HttpAns
abbrev HttpTrace := List HttpEv

def askHttp (op : HttpOp) : HttpAct (HttpAns op) := Prog.ask op

def Act.http (p : Act α) : HttpAct α := p.lift HttpOp.op fun _ a => a

def pushHttp (level : LogLevel) (message : String) : HttpAct Unit :=
  askHttp (.op (.push level message))

def logHttp (level : LogLevel) (message : String) : HttpAct Unit :=
  askHttp (.op (.log level message))

def remoteEndpoint : HttpAct String := do
  .ofExcept (← askHttp .remoteEndpoint)

-- ---------------------------------------------------------------------------
-- GET parameters
-- ---------------------------------------------------------------------------

namespace HttpConnection

def toHex (x : UInt8) : UInt8 := if x > 9 then x + 55 else x + 48

def isAlnum (b : UInt8) : Bool :=
  (48 ≤ b && b ≤ 57) || (65 ≤ b && b ≤ 90) || (97 ≤ b && b ≤ 122)

def urlEncodeByte (b : UInt8) : Bytes :=
  if isAlnum b || b == 45 || b == 95 || b == 46 || b == 126 then [b]
  else if b == 32 then [43]
  else [37, toHex (b >>> 4), toHex (b &&& 15)]

def urlEncode (str : Bytes) : Bytes := str.flatMap urlEncodeByte

/-- `find` and two `substr`: the parts before and after the first such byte. -/
def cut (sep : UInt8) : Bytes → Option (Bytes × Bytes)
  | [] => none
  | b :: rest => if b = sep then some ([], rest) else (cut sep rest).map fun p => (b :: p.1, p.2)

/-- `get_params`, in the order in which the keys first came. -/
abbrev Params := List (Bytes × Bytes)

def Params.set (key value : Bytes) : Params → Params
  | [] => [(key, value)]
  | p :: rest => if p.1 = key then (key, value) :: rest else p :: Params.set key value rest

/-- A pair without `=` is left out. Both parts are put through `UrlEncode`. -/
def addPair (params : Params) (pair : Bytes) : Params :=
  match cut 61 pair with
  | some (key, value) => params.set (urlEncode key) (urlEncode value)
  | none => params

/-- The loop over the query string; `pair` is what was read since the last `&`. -/
def parseQuery (params : Params) (pair : Bytes) : Bytes → Params
  | [] => if pair = [] then params else addPair params pair
  | b :: rest =>
    if b = 38 then parseQuery (addPair params pair) [] rest
    else parseQuery params (pair ++ [b]) rest

def preParseGetParams (uri : Bytes) : Bytes × Params :=
  match cut 63 uri with
  | none => (uri, [])
  | some (getUrl, queryString) => (getUrl, parseQuery [] [] queryString)

end HttpConnection

-- ---------------------------------------------------------------------------
-- The route tables
-- ---------------------------------------------------------------------------

namespace LogicalSystem

open HttpConnection

def printParams (i : Nat) : Params → HttpAct Unit
  | [] => return
  | (key, value) :: rest => do
    let i := i + 1
    askHttp (.text (" params" ++ toString i ++ " key:" ++ key.text ++ " value:" ++ value.text ++
      "\r\n"))
    logHttp .debug ("GET parameter " ++ toString i ++ ": " ++ key.text ++ " = " ++ value.text)
    printParams i rest

/-- `/get_test`. The order of an `unordered_map` is the library's. -/
def getTest (iterate : Params → Params) (getParams : Params) : HttpAct Unit := do
  logHttp .info "Received GET request on /get_test endpoint"
  askHttp (.text "receive get request\r\n")
  printParams 0 (iterate getParams)

def getHandlers (iterate : Params → Params) : List (String × (Params → HttpAct Unit)) :=
  [("/get_test", getTest iterate)]

def contentType : String → Option String
  | "/get_varify_code" | "/user_register" | "/user_login" => some "text/json"
  | _ => none

def handleGet (iterate : Params → Params) (path : String) (getParams : Params) :
    HttpAct Bool := do
  match (getHandlers iterate).lookup path with
  | none =>
    pushHttp .warn ("GET request to unregistered path: " ++ path)
    return false
  | some handler =>
    pushHttp .debug ("Handling GET request for path: " ++ path)
    handler getParams
    return true

def handlePost (libs : Libs) (url body : String) : HttpAct Bool := do
  match (postHandlers libs (.ofDao libs)).lookup url with
  | none =>
    pushHttp .warn ("POST request to unregistered URL: " ++ url)
    pushHttp .info ("Request IP:" ++ (← remoteEndpoint))
    return false
  | some handler =>
    pushHttp .debug ("Handling POST request for URL: " ++ url)
    pushHttp .info ("Request IP:" ++ (← remoteEndpoint))
    let _ ← (handler body).http
    return true

end LogicalSystem

-- ---------------------------------------------------------------------------
-- The connection
-- ---------------------------------------------------------------------------

namespace HttpConnection

variable (libs : Libs) (iterate : Params → Params)

def writeResponse (response : HttpResponse) : HttpAct Unit := askHttp (.writeResponse response)

def checkDeadline : HttpAct Unit := askHttp .asyncWait

def writeNotFound (response : HttpResponse) : HttpAct Unit := do
  askHttp (.text "url not found\r\n")
  writeResponse { response with result := .notFound, contentType := some "text/plain" }

def handlereq (request : HttpRequest) : HttpAct Unit := do
  let response : HttpResponse := { version := request.version, keepAlive := false }
  if request.method = .get then
    let (getUrl, getParams) := preParseGetParams request.target
    let success ← LogicalSystem.handleGet iterate getUrl.text getParams
    if !success then
      writeNotFound response
      return
    writeResponse { response with result := .ok, server := some "GateServer" }
  if request.method = .post then
    let url := request.target.text
    let success ← LogicalSystem.handlePost libs url request.body
    if !success then
      writeNotFound response
      return
    writeResponse { response with
      result := .ok, contentType := LogicalSystem.contentType url, server := some "GateServer" }

/-- The completion handler that `start` gives to `async_read`. -/
def onRead (ec : Option String) (request : HttpRequest) : HttpAct Unit :=
  Prog.tryCatch
    (do
      if ec.isSome then return
      handlereq libs iterate request
      checkDeadline)
    fun _ => return

end HttpConnection

-- ---------------------------------------------------------------------------
-- Reading a trace
-- ---------------------------------------------------------------------------

def HttpEv.handler? : HttpEv → Option Ev
  | ⟨.op op, a⟩ => some ⟨op, a⟩
  | _ => none

def asked (tr : HttpTrace) : Trace := tr.filterMap HttpEv.handler?

/-- The responses whose writing was started. -/
def written (tr : HttpTrace) : List HttpResponse :=
  tr.filterMap fun
    | ⟨.writeResponse response, _⟩ => some response
    | _ => none

@[simp] theorem asked_append (tr tr' : HttpTrace) : asked (tr ++ tr') = asked tr ++ asked tr' :=
  List.filterMap_append ..

@[simp] theorem written_append (tr tr' : HttpTrace) :
    written (tr ++ tr') = written tr ++ written tr' := List.filterMap_append ..

theorem mem_of_lookup [BEq κ] [LawfulBEq κ] {table : List (κ × β)}
    (h : table.lookup key = some b) : (key, b) ∈ table := by
  obtain ⟨l, l', rfl, -⟩ := List.lookup_eq_some_iff.mp h
  simp

theorem spec_http (p : Act α) {h : HttpTrace} : Spec .any h p.http fun h' e =>
    ∃ tr, h' = h ++ tr ∧ Runs p (asked tr) e ∧ ∀ ev ∈ tr, ∃ op, ev.op = .op op := by
  have hpull : ∀ op a, HttpEv.handler? ⟨.op op, a⟩ = some ⟨op, a⟩ := fun _ _ => rfl
  exact spec_lift hpull p

theorem written_of_ops (hops : ∀ ev ∈ tr, ∃ op, Event.op ev = .op op) : written tr = [] := by
  refine filterMap_of_ops (P := fun op => ∃ op', op = .op op') (fun op a hop => ?_) hops
  obtain ⟨op', rfl⟩ := hop
  rfl

end GateServer
