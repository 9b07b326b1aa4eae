import GateServer.Json
import GateServer.Interact.Program

/-!
# External operations

Every effect of the handlers, the data-access layer and the gRPC client is one operation:
a pool's critical section, a round trip to Redis, MySQL or a gRPC service, a log record, a
piece of the response body. The answers are arbitrary; `Gateway` restricts those of the
pools. Console output is not modelled.
-/

namespace GateServer

open Interact

inductive Pool
  | redis
  | mySql
  | status
  | varify
  deriving DecidableEq, Repr

abbrev Conn := Nat

-- ---------------------------------------------------------------------------
-- MySQL
-- ---------------------------------------------------------------------------

/-- The statements of the data-access layer, each argument quoted as one literal. -/
inductive Query
  | regUser (name pwd email : String)
  | selectResult
  | loginUser (email pwd : String) (uid : Nat) (isEmail : Int)
  | selectLoginResult
  | selectUserUid
  | selectUidByEmail (email : String)
  | changePasswd (email uid newPasswd : String)
  | selectIsok
  | selectUserIcon (uid : Int)
  | selectGetUserUid (email : String)
  deriving DecidableEq, Repr

/-- A `mysqlpp::String`; an SQL null has some text in `data`. -/
structure Cell where
  data : String
  isNull : Bool
  deriving DecidableEq, Repr

/-- Every statement selects one column, so a row is its only cell; `ok` is the conversion to
`bool`. -/
structure StoreQueryResult where
  ok : Bool
  rows : List Cell
  deriving DecidableEq, Repr

def StoreQueryResult.first (res : StoreQueryResult) : Option Cell :=
  if res.ok then res.rows.head? else none

inductive DaoCall
  | regUser (name email pwd : String)
  | loginUser (pwd : String) (user : UserInfo) (isEmail : Int)
  | existsUser (email uid : String)
  | changePasswd (email uid newPasswd : String)
  | getUserIcon (uid : Int)
  | getUserUid (email : String)
  deriving DecidableEq, Repr

/-- `loginUser` also hands back the `user_info` it was given by reference. -/
abbrev DaoCall.Result : DaoCall → Type
  | .regUser .. => Int
  | .loginUser .. => Int × UserInfo
  | .existsUser .. => Bool
  | .changePasswd .. => Int
  | .getUserIcon _ => String
  | .getUserUid _ => Nat

-- ---------------------------------------------------------------------------
-- gRPC
-- ---------------------------------------------------------------------------

structure Status where
  ok : Bool
  errorMessage : String
  deriving DecidableEq, Repr

/-- The defaults of a message without fields. -/
structure GetVarifyRsp where
  error : Int := 0
  email : String := ""
  code : String := ""
  deriving DecidableEq, Repr

structure GetChatServerRsp where
  error : Int := 0
  host : String := ""
  port : String := ""
  token : String := ""
  deriving DecidableEq, Repr

-- ---------------------------------------------------------------------------
-- Operations
-- ---------------------------------------------------------------------------

inductive Op
  | push (level : LogLevel) (message : String)
  | log (level : LogLevel) (message : String)
  | write (doc : Json.Object)
  | acquire (pool : Pool)
  | release (pool : Pool) (conn : Conn)
  | redisGet (conn : Conn) (key : String)
  | redisExists (conn : Conn) (key : String)
  | execute (conn : Conn) (query : Query)
  | store (conn : Conn) (query : Query)
  | getVarifyCode (stub : Conn) (email : String)
  | getChatServer (stub : Conn) (uid : Int)
  | dao (call : DaoCall)

/-- A call that can throw answers with the exception's text. -/
abbrev Ans : Op → Type
  | .push .. | .log .. | .write _ | .release .. => Unit
  | .acquire _ => Option Conn
  | .redisGet .. => Except String (Option String)
  | .redisExists .. => Except String Bool
  | .execute .. => Except String Bool
  | .store .. => Except String StoreQueryResult
  | .getVarifyCode .. => Status × GetVarifyRsp
  | .getChatServer .. => Status × GetChatServerRsp
  | .dao call => call.Result

def Op.answer : (op : Op) → Ans op
  | .push .. | .log .. | .write _ | .release .. => ()
  | .acquire _ => none
  | .redisGet .. => .ok none
  | .redisExists .. => .ok false
  | .execute .. => .ok true
  | .store .. => .ok ⟨false, []⟩
  | .getVarifyCode .. => (⟨true, ""⟩, {})
  | .getChatServer .. => (⟨true, ""⟩, {})
  | .dao (.regUser ..) | .dao (.changePasswd ..) => (0 : Int)
  | .dao (.loginUser _ user _) => (0, user)
  | .dao (.existsUser ..) => false
  | .dao (.getUserIcon _) => ""
  | .dao (.getUserUid _) => (0 : Nat)

abbrev Act (α : Type) := Prog Ans α
abbrev Ev := Event Ans
abbrev Trace := List Ev

def ask (op : Op) : Act (Ans op) := Prog.ask op

def push (level : LogLevel) (message : String) : Act Unit := ask (.push level message)

/-- `LogSystem::log`, not through the queue. -/
def log (level : LogLevel) (message : String) : Act Unit := ask (.log level message)

/-- `beast::ostream(response_.body()) << root.toStyledString()`. -/
def write (doc : Json.Object) : Act Unit := ask (.write doc)

def execute (conn : Conn) (query : Query) : Act Bool := do
  .ofExcept (← ask (.execute conn query))

def store (conn : Conn) (query : Query) : Act StoreQueryResult := do
  .ofExcept (← ask (.store conn query))

def redisGet (conn : Conn) (key : String) : Act (Option String) := do
  .ofExcept (← ask (.redisGet conn key))

def redisExists (conn : Conn) (key : String) : Act Bool := do
  .ofExcept (← ask (.redisExists conn key))

/-- Libraries that are not part of the repository: `Json::Reader::parse`, the conversion of a
`mysqlpp::String` to `bool` (`none` when it throws), base64 encoding. -/
structure Libs where
  parse : String → Option Json.Value
  truth : Cell → Option Bool
  base64 : String → String

def Libs.ofBodies (bodies : List (String × Json.Value)) : Libs where
  parse body := bodies.lookup body
  truth cell := some (cell.data != "0")
  base64 data := data

theorem runs_ask {op : Op} {tr : Trace} {e : Exit (Ans op)} (h : Runs (ask op) tr e) :
    ∃ a, tr = [⟨op, a⟩] ∧ e = .ret a := by
  cases h with
  | call a h =>
    cases h
    exact ⟨a, rfl, rfl⟩

-- ---------------------------------------------------------------------------
-- Reading a trace
-- ---------------------------------------------------------------------------

def replies (tr : Trace) : List Json.Object :=
  tr.filterMap fun
    | ⟨.write doc, _⟩ => some doc
    | _ => none

def lookups (tr : Trace) : List (String × Option String) :=
  tr.filterMap fun
    | ⟨.redisGet _ key, .ok found⟩ => some (key, found)
    | _ => none

def executed (tr : Trace) : List (Query × Bool) :=
  tr.filterMap fun
    | ⟨.execute _ query, .ok done⟩ => some (query, done)
    | _ => none

def selected (tr : Trace) : List (Query × StoreQueryResult) :=
  tr.filterMap fun
    | ⟨.store _ query, .ok res⟩ => some (query, res)
    | _ => none

def chatServers (tr : Trace) : List (Int × Status × GetChatServerRsp) :=
  tr.filterMap fun
    | ⟨.getChatServer _ uid, (status, respon)⟩ => some (uid, status, respon)
    | _ => none

theorem mem_selected : (query, res) ∈ selected tr → ∃ conn, ⟨.store conn query, .ok res⟩ ∈ tr := by
  intro h
  obtain ⟨⟨op, a⟩, hev, h⟩ := List.mem_filterMap.mp h
  cases op with
  | store conn q =>
    cases a with
    | error w => cases h
    | ok r =>
      cases h
      exact ⟨conn, hev⟩
  | _ => cases h

@[simp] theorem replies_append (tr tr' : Trace) :
    replies (tr ++ tr') = replies tr ++ replies tr' := List.filterMap_append ..

@[simp] theorem lookups_append (tr tr' : Trace) :
    lookups (tr ++ tr') = lookups tr ++ lookups tr' := List.filterMap_append ..

@[simp] theorem executed_append (tr tr' : Trace) :
    executed (tr ++ tr') = executed tr ++ executed tr' := List.filterMap_append ..

@[simp] theorem selected_append (tr tr' : Trace) :
    selected (tr ++ tr') = selected tr ++ selected tr' := List.filterMap_append ..

@[simp] theorem chatServers_append (tr tr' : Trace) :
    chatServers (tr ++ tr') = chatServers tr ++ chatServers tr' := List.filterMap_append ..

end GateServer
