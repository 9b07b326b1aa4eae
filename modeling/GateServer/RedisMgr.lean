import GateServer.Const
import GateServer.Interact.Lending

/-!
# The Redis manager

`RedisMgr` has a queue of connections of its own. `connect` fills it, `close` empties it,
and every command borrows a connection for one call to Redis. The mutex is held for one
group of statements at a time, each of which is one operation here.
-/

namespace GateServer.RedisMgr

open Interact

/-- A `sw::redis::Redis`; `origin`, the call of `connect` that made it, is a ghost field. -/
structure Redis where
  origin : Nat
  number : Nat
  deriving DecidableEq, Repr

/-- A password is assigned only when there is one. -/
structure ConnectionOptions where
  host : String
  port : Int
  password : Option String
  socketTimeout : Nat := 100
  connectTimeout : Nat := 100
  keepAlive : Bool := true
  deriving DecidableEq, Repr

/-- Milliseconds and, for the lifetime, minutes. -/
structure ConnectionPoolOptions where
  size : Nat := 3
  waitTimeout : Nat := 50
  connectionLifetime : Nat := 10
  deriving DecidableEq, Repr

-- ---------------------------------------------------------------------------
-- Operations
-- ---------------------------------------------------------------------------

inductive Command
  | set (key value : String)
  | get (key : String)
  | del (key : String)
  | exists (key : String)
  | lpush (key value : String)
  | rpush (key value : String)
  | lpop (key : String)
  | rpop (key : String)
  | llen (key : String)
  | lrange (key : String) (start stop : Int)
  | sadd (key member : String)
  | srem (key member : String)
  | sismember (key member : String)
  | smembers (key : String)
  | hset (key field value : String)
  | hget (key field : String)
  | hdel (key field : String)
  | hexists (key field : String)
  | expire (key : String) (seconds : Int)
  | ttl (key : String)
  deriving DecidableEq, Repr

abbrev Command.Reply : Command → Type
  | .set .. | .sismember .. | .hexists .. | .expire .. => Bool
  | .get _ | .lpop _ | .rpop _ | .hget .. => Option String
  | .del _ | .exists _ | .lpush .. | .rpush .. | .llen _ | .sadd .. | .srem .. | .hset ..
  | .hdel .. | .ttl _ => Int
  | .lrange .. | .smembers _ => List String

/-- `setAddress` answers with the number of the call of `connect`, a ghost value that marks
what the call makes and its success. -/
inductive Op
  | setAddress (host : String) (port : Int) (password : String)
  | address
  | makeRedis (call : Nat) (options : ConnectionOptions) (poolOpts : ConnectionPoolOptions)
  | ping (conn : Redis)
  | pushConnection (conn : Redis)
  | setConnected (call : Nat) (connected : Bool)
  | isConnected
  | takeConnection
  | giveConnection (conn : Redis)
  | command (conn : Redis) (cmd : Command)
  | closePool
  | push (level : LogLevel) (message : String)

/-- The answer of `isConnected` includes a ghost value, the call of `connect` that succeeded
last. -/
abbrev Ans : Op → Type
  | .setAddress .. => Nat
  | .address => String × Int × String
  | .makeRedis .. => Except String Redis
  | .ping _ => Except String Unit
  | .isConnected => Bool × Option Nat
  | .takeConnection => Option Redis
  | .command _ cmd => Except String cmd.Reply
  | .pushConnection _ | .setConnected .. | .giveConnection _ | .closePool | .push .. => Unit

abbrev Act (α : Type) := Prog Ans α
abbrev Ev := Event Ans
abbrev Trace := List Ev

def ask (op : Op) : Act (Ans op) := Prog.ask op

def push (level : LogLevel) (message : String) : Act Unit := ask (.push level message)

-- ---------------------------------------------------------------------------
-- Connecting and closing
-- ---------------------------------------------------------------------------

/-- The loop of `connect` with the rounds that are left. -/
def fill (call : Nat) (options : ConnectionOptions) (poolOpts : ConnectionPoolOptions) :
    Nat → Act Unit
  | 0 => pure ()
  | n + 1 => do
    let conn ← .ofExcept (← ask (.makeRedis call options poolOpts))
    let _ ← .ofExcept (← ask (.ping conn))
    ask (.pushConnection conn)
    fill call options poolOpts n

def connect (host : String := "172.21.76.104") (port : Int := 6379)
    (password : String := "123456") : Act Bool := do
  let call ← ask (.setAddress host port password)
  Prog.tryCatch (do
      let (host_, port_, password_) ← ask .address
      let options : ConnectionOptions :=
        { host := host_, port := port_
          password := if password_.isEmpty then none else some password_ }
      fill call options {} 3
      ask (.setConnected call true)
      push .info ("Redis connected successfully to " ++ host ++ ":" ++ toString port)
      return true)
    fun what => do
      push .error ("Redis connection failed: " ++ what)
      ask (.setConnected call false)
      return false

def close : Act Unit := do
  ask .closePool
  push .info "Redis connection closed"

-- ---------------------------------------------------------------------------
-- Commands
-- ---------------------------------------------------------------------------

/-- Null when the queue stayed empty for 100 ms. -/
def getConnection : Act (Option Redis) := do
  match ← ask .takeConnection with
  | none =>
    push .warn "Redis connection pool timeout"
    return none
  | some conn => return some conn

def returnConnection : Option Redis → Act Unit
  | none => pure ()
  | some conn => ask (.giveConnection conn)

variable {α β : Type}

def command (failure : α) (name : String) (cmd : Command) (reply : cmd.Reply → α) : Act α := do
  if !(← ask .isConnected).1 then return failure
  let conn ← getConnection
  Prog.tryCatch (do
      let result ← .ofExcept (← ask (.command (← .ofOption .nullPointer conn) cmd))
      returnConnection conn
      return reply result)
    fun what => do
      returnConnection conn
      push .error ("Redis " ++ name ++ " failed: " ++ what)
      return failure

def set (key value : String) : Act Bool := command false "SET" (.set key value) fun _ => true

def get (key : String) : Act String := command "" "GET" (.get key) fun result => result.getD ""

def del (key : String) : Act Bool := command false "DEL" (.del key) fun result => result > 0

def «exists» (key : String) : Act Bool :=
  command false "EXISTS" (.exists key) fun result => result > 0

def lpush (key value : String) : Act Bool := command false "LPUSH" (.lpush key value) fun _ => true

def rpush (key value : String) : Act Bool := command false "RPUSH" (.rpush key value) fun _ => true

def lpop (key : String) : Act String := command "" "LPOP" (.lpop key) fun result => result.getD ""

def rpop (key : String) : Act String := command "" "RPOP" (.rpop key) fun result => result.getD ""

def llen (key : String) : Act Int := command 0 "LLEN" (.llen key) fun result => result

def lrange (key : String) (start stop : Int) : Act (List String) :=
  command [] "LRANGE" (.lrange key start stop) fun result => result

def sadd (key member : String) : Act Bool := command false "SADD" (.sadd key member) fun _ => true

def srem (key member : String) : Act Bool :=
  command false "SREM" (.srem key member) fun result => result > 0

def sismember (key member : String) : Act Bool :=
  command false "SISMEMBER" (.sismember key member) fun result => result

def smembers (key : String) : Act (List String) :=
  command [] "SMEMBERS" (.smembers key) fun result => result

def hset (key field value : String) : Act Bool :=
  command false "HSET" (.hset key field value) fun _ => true

def hget (key field : String) : Act String :=
  command "" "HGET" (.hget key field) fun result => result.getD ""

def hdel (key field : String) : Act Bool :=
  command false "HDEL" (.hdel key field) fun result => result > 0

def hexists (key field : String) : Act Bool :=
  command false "HEXISTS" (.hexists key field) fun result => result

def expire (key : String) (seconds : Int) : Act Bool :=
  command false "EXPIRE" (.expire key seconds) fun result => result

def ttl (key : String) : Act Int := command (-1) "TTL" (.ttl key) fun result => result

-- ---------------------------------------------------------------------------
-- The calls that threads make
-- ---------------------------------------------------------------------------

inductive Value
  | unit
  | bool (b : Bool)
  | text (s : String)
  | number (n : Int)
  | texts (l : List String)
  deriving DecidableEq, Repr

def Command.call : Command → Act Value
  | .set key value => .bool <$> RedisMgr.set key value
  | .get key => .text <$> RedisMgr.get key
  | .del key => .bool <$> RedisMgr.del key
  | .exists key => .bool <$> RedisMgr.exists key
  | .lpush key value => .bool <$> RedisMgr.lpush key value
  | .rpush key value => .bool <$> RedisMgr.rpush key value
  | .lpop key => .text <$> RedisMgr.lpop key
  | .rpop key => .text <$> RedisMgr.rpop key
  | .llen key => .number <$> RedisMgr.llen key
  | .lrange key start stop => .texts <$> RedisMgr.lrange key start stop
  | .sadd key member => .bool <$> RedisMgr.sadd key member
  | .srem key member => .bool <$> RedisMgr.srem key member
  | .sismember key member => .bool <$> RedisMgr.sismember key member
  | .smembers key => .texts <$> RedisMgr.smembers key
  | .hset key field value => .bool <$> RedisMgr.hset key field value
  | .hget key field => .text <$> RedisMgr.hget key field
  | .hdel key field => .bool <$> RedisMgr.hdel key field
  | .hexists key field => .bool <$> RedisMgr.hexists key field
  | .expire key seconds => .bool <$> RedisMgr.expire key seconds
  | .ttl key => .number <$> RedisMgr.ttl key

def Command.failure : Command → Value
  | .get _ | .lpop _ | .rpop _ | .hget .. => .text ""
  | .llen _ => .number 0
  | .ttl _ => .number (-1)
  | .lrange .. | .smembers _ => .texts []
  | _ => .bool false

inductive Job
  | command (cmd : Command)
  | connect (host : String) (port : Int) (password : String)
  | close
  deriving DecidableEq, Repr

def Job.call : Job → Act Value
  | .command cmd => cmd.call
  | .connect host port password => .bool <$> RedisMgr.connect host port password
  | .close => (fun _ => .unit) <$> RedisMgr.close

-- ---------------------------------------------------------------------------
-- The manager
-- ---------------------------------------------------------------------------

/-- The members of the class, and ghost fields: the numbers of calls of `connect` and of
connections made, the calls that have finished connecting, everything pushed by them, the last
call that succeeded, and whether `close` was called after it. -/
structure Manager where
  host : String := ""
  port : Int := 0
  password : String := ""
  connected : Bool := false
  connectionPool : List Redis := []
  calls : Nat := 0
  made : Nat := 0
  through : List Nat := []
  pushed : List Redis := []
  last : Option Nat := none
  closed : Bool := false
  deriving DecidableEq, Repr

def Manager.finish (m : Manager) (call : Nat) : Manager := { m with through := m.through ++ [call] }

inductive Acts : Manager → Ev → Manager → Prop
  | setAddress : Acts m ⟨.setAddress host port password, m.calls⟩
      { m with host, port, password, calls := m.calls + 1 }
  | address : Acts m ⟨.address, (m.host, m.port, m.password)⟩ m
  | made : Acts m ⟨.makeRedis call options poolOpts, .ok ⟨call, m.made⟩⟩
      { m with made := m.made + 1 }
  | unmade : Acts m ⟨.makeRedis call options poolOpts, .error what⟩ (m.finish call)
  | pong : Acts m ⟨.ping conn, .ok ()⟩ m
  | silence : Acts m ⟨.ping conn, .error what⟩ (m.finish conn.origin)
  | pushConnection : Acts m ⟨.pushConnection conn, ()⟩
      { m with connectionPool := m.connectionPool ++ [conn], pushed := m.pushed ++ [conn] }
  | succeed : Acts m ⟨.setConnected call true, ()⟩
      { m.finish call with connected := true, last := some call, closed := false }
  | fail : Acts m ⟨.setConnected call false, ()⟩ { m with connected := false }
  | isConnected : Acts m ⟨.isConnected, (m.connected, m.last)⟩ m
  | take : m.connectionPool = conn :: rest →
      Acts m ⟨.takeConnection, some conn⟩ { m with connectionPool := rest }
  | timeout : m.connectionPool = [] → Acts m ⟨.takeConnection, none⟩ m
  | giveConnection : Acts m ⟨.giveConnection conn, ()⟩
      { m with connectionPool := m.connectionPool ++ [conn] }
  | command : Acts m ⟨.command conn cmd, reply⟩ m
  | closePool : Acts m ⟨.closePool, ()⟩
      { m with connectionPool := [], connected := false, closed := true }
  | push : Acts m ⟨.push level message, ()⟩ m

def arena : Arena Ans Manager where
  act := Acts
  env _ _ := False

def moves : Ev → Move Redis
  | ⟨.takeConnection, some conn⟩ => .take conn
  | ⟨.giveConnection conn, _⟩ => .give conn
  | _ => .stay

@[simp] theorem moves_take (conn : Redis) : moves ⟨.takeConnection, some conn⟩ = .take conn := rfl
@[simp] theorem moves_timeout : moves ⟨.takeConnection, none⟩ = .stay := rfl
@[simp] theorem moves_give (conn : Redis) (a : Ans (.giveConnection conn)) :
    moves ⟨.giveConnection conn, a⟩ = .give conn := rfl

@[simp] theorem moves_take_ne_give (a : Ans .takeConnection) (conn : Redis) :
    moves ⟨.takeConnection, a⟩ ≠ .give conn := by
  cases a <;> simp

@[simp] theorem moves_stay {op : Op} (htake : op ≠ .takeConnection)
    (hgive : ∀ conn, op ≠ .giveConnection conn) (a : Ans op) : moves ⟨op, a⟩ = .stay := by
  cases op with
  | takeConnection => exact absurd rfl htake
  | giveConnection conn => exact absurd rfl (hgive conn)
  | _ => rfl

-- ---------------------------------------------------------------------------
-- What a command does
-- ---------------------------------------------------------------------------

inductive CommandRun (failure : α) (name : String) (cmd : Command) (reply : cmd.Reply → α) :
    Trace → Exit α → Prop
  | disconnected (last) :
      CommandRun failure name cmd reply [⟨.isConnected, (false, last)⟩] (.ret failure)
  | timeout (last) :
      CommandRun failure name cmd reply [⟨.isConnected, (true, last)⟩, ⟨.takeConnection, none⟩,
        ⟨.push .warn "Redis connection pool timeout", ()⟩] (.undef .nullPointer)
  | replied (last conn result) :
      CommandRun failure name cmd reply [⟨.isConnected, (true, last)⟩,
        ⟨.takeConnection, some conn⟩, ⟨.command conn cmd, .ok result⟩, ⟨.giveConnection conn, ()⟩]
        (.ret (reply result))
  | threw (last conn what) :
      CommandRun failure name cmd reply [⟨.isConnected, (true, last)⟩,
        ⟨.takeConnection, some conn⟩, ⟨.command conn cmd, .error what⟩,
        ⟨.giveConnection conn, ()⟩, ⟨.push .error ("Redis " ++ name ++ " failed: " ++ what), ()⟩]
        (.ret failure)

theorem command_run (failure : α) (name : String) (cmd : Command) (reply : cmd.Reply → α) :
    Spec .any [] (command failure name cmd reply) (CommandRun failure name cmd reply) := by
  refine .ask fun ⟨connected, last⟩ => ?_
  cases connected with
  | false => exact .disconnected last
  | true =>
    refine .ask fun conn => ?_
    cases conn with
    | none => exact .ask fun _ => .timeout last
    | some conn =>
      refine .ask fun result => ?_
      cases result with
      | ok result => exact .ask fun _ => .replied last conn result
      | error what => exact .ask fun _ => .ask fun _ => .threw last conn what

theorem CommandRun.map {failure : α} {reply : cmd.Reply → α} (g : α → β)
    (h : CommandRun failure name cmd reply tr e) :
    CommandRun (g failure) name cmd (fun result => g (reply result)) tr (e.map g) := by
  cases h with
  | disconnected last => exact .disconnected last
  | timeout last => exact .timeout last
  | replied last conn result => exact .replied last conn result
  | threw last conn what => exact .threw last conn what

theorem map_command_run (g : α → β) (failure : α) (name : String) (cmd : Command)
    (reply : cmd.Reply → α) : Spec .any [] (g <$> command failure name cmd reply)
      (CommandRun (g failure) name cmd fun result => g (reply result)) :=
  spec_map.mpr ((command_run failure name cmd reply).mono fun _ _ h => h.map g)

theorem call_run (cmd : Command) : ∃ name reply,
    Spec .any [] cmd.call (CommandRun cmd.failure name cmd reply) := by
  cases cmd <;> exact ⟨_, _, map_command_run ..⟩

-- ---------------------------------------------------------------------------
-- Commands that find no connection
-- ---------------------------------------------------------------------------

/-- The obligations of a finished command to the pool and to its caller. -/
structure Safe (cmd : Command) (t : Thread Ans Job Value) : Prop where
  defined : t.rest ≠ .done (.undef .nullPointer)
  once : Settles moves t.hist
  failed : (∀ conn, ⟨.takeConnection, some conn⟩ ∉ t.hist) ∨
    (∃ conn what, ⟨.command conn cmd, .error what⟩ ∈ t.hist) → t.rest = .done (.ret cmd.failure)

theorem CommandRun.settles {failure : α} {reply : cmd.Reply → α}
    (h : CommandRun failure name cmd reply tr e) : Settles moves tr := by
  cases h <;>
    simp [Settles, Guarded, GivesHeld, GaveBack, held, taken, givenBack]

theorem returned_ne_undef (v : Value) (why : Fault) :
    (.done (.ret v) : Act Value) ≠ .done (.undef why) := by
  intro h
  cases h

theorem CommandRun.safe_iff {reply : cmd.Reply → Value}
    (h : CommandRun cmd.failure name cmd reply tr e) (job : Job) :
    Safe cmd ⟨job, tr, .done e⟩ ↔ ⟨.takeConnection, none⟩ ∉ tr := by
  have hsettles := h.settles
  cases h with
  | timeout last => exact iff_of_false (fun hsafe => hsafe.defined rfl) (by simp)
  | disconnected last | threw last conn what =>
    exact iff_of_true ⟨returned_ne_undef _ _, hsettles, fun _ => rfl⟩ (by simp)
  | replied last conn result =>
    refine iff_of_true ⟨returned_ne_undef _ _, hsettles, ?_⟩ (by simp)
    rintro (hnone | ⟨conn', what, hthrew⟩)
    · exact absurd (by simp) (hnone conn)
    · simp at hthrew

/-- In any interleaving, a command meets its obligations iff `getConnection` does not time
out. -/
theorem command_safe_iff (hr : Reachable arena (.start Job.call m jobs) c) (ht : t ∈ c.threads)
    (hjob : t.job = .command cmd) (hdone : t.Finished) :
    Safe cmd t ↔ ⟨.takeConnection, none⟩ ∉ t.hist := by
  obtain ⟨job, tr, rest⟩ := t
  obtain ⟨e, rfl⟩ := hdone
  cases hjob
  obtain ⟨name, reply, hrun⟩ := call_run cmd
  exact (hrun.ends (hr.steps _ ht)).safe_iff _

theorem command_safe_iff_served : Safe (.get "key")
    ⟨.command (.get "key"), [⟨.isConnected, (true, some 0)⟩, ⟨.takeConnection, some ⟨0, 0⟩⟩,
      ⟨.command ⟨0, 0⟩ (.get "key"), .ok (some "value")⟩, ⟨.giveConnection ⟨0, 0⟩, ()⟩],
      .done (.ret (.text "value"))⟩ := by
  have hplays : Plays arena { connected := true, connectionPool := [⟨0, 0⟩], last := some 0 }
      [⟨.isConnected, (true, some 0)⟩, ⟨.takeConnection, some ⟨0, 0⟩⟩,
        ⟨.command ⟨0, 0⟩ (.get "key"), .ok (some "value")⟩, ⟨.giveConnection ⟨0, 0⟩, ()⟩]
      { connected := true, connectionPool := [⟨0, 0⟩], last := some 0 } :=
    .cons Acts.isConnected (.cons (Acts.take rfl) (.cons Acts.command
      (.cons Acts.giveConnection .nil)))
  have hsteps : Steps (Job.call (.command (.get "key")))
      [⟨.isConnected, (true, some 0)⟩, ⟨.takeConnection, some ⟨0, 0⟩⟩,
        ⟨.command ⟨0, 0⟩ (.get "key"), .ok (some "value")⟩, ⟨.giveConnection ⟨0, 0⟩, ()⟩]
      (.done (.ret (.text "value"))) :=
    .call _ (.call _ (.call _ (.call _ .refl)))
  exact (command_safe_iff (.alone hsteps hplays) List.mem_cons_self rfl ⟨_, rfl⟩).mpr (by simp)

def stocked : Manager where
  host := "redis"
  port := 6379
  connected := true
  connectionPool := [⟨0, 0⟩, ⟨0, 1⟩, ⟨0, 2⟩]
  calls := 1
  made := 3
  through := [0]
  pushed := [⟨0, 0⟩, ⟨0, 1⟩, ⟨0, 2⟩]
  last := some 0

def stockingRound (number : Nat) : Trace :=
  [⟨.makeRedis 0 { host := "redis", port := 6379, password := none } {}, .ok ⟨0, number⟩⟩,
    ⟨.ping ⟨0, number⟩, .ok ()⟩, ⟨.pushConnection ⟨0, number⟩, ()⟩]

def stocking : Trace :=
  ⟨.setAddress "redis" 6379 "", 0⟩ :: ⟨.address, ("redis", 6379, "")⟩ ::
    (stockingRound 0 ++ stockingRound 1 ++ stockingRound 2 ++ [⟨.setConnected 0 true, ()⟩,
      ⟨.push .info ("Redis connected successfully to redis:" ++ toString (6379 : Int)), ()⟩])

theorem stocking_steps : Steps (Job.call (.connect "redis" 6379 "")) stocking
    (.done (.ret (.bool true))) :=
  .call _ (.call _ (.call _ (.call _ (.call _ (.call _ (.call _ (.call _
    (.call _ (.call _ (.call _ (.call _ (.call _ .refl))))))))))))

theorem stocking_plays : Plays arena {} stocking stocked :=
  .cons Acts.setAddress (.cons Acts.address
    (.cons Acts.made (.cons Acts.pong (.cons Acts.pushConnection
    (.cons Acts.made (.cons Acts.pong (.cons Acts.pushConnection
    (.cons Acts.made (.cons Acts.pong (.cons Acts.pushConnection
    (.cons Acts.succeed (.cons Acts.push .nil))))))))))))

def crowd : List Job :=
  [.connect "redis" 6379 "", .command (.get "a"), .command (.get "b"), .command (.get "c"),
    .command (.get "d")]

/-- Three commands hold the three connections, and a fourth one times out. -/
theorem exhausted_nullPointer : ∃ c t, Reachable arena (.start Job.call {} crowd) c ∧
    t ∈ c.threads ∧ t.job = .command (.get "d") ∧ t.rest = .done (.undef .nullPointer) ∧
    ¬ Safe (.get "d") t := by
  have hborrow {m : Manager} {conn : Redis} {rest : List Redis}
      (hpool : m.connectionPool = conn :: rest) : Plays arena m
        [⟨.isConnected, (m.connected, m.last)⟩, ⟨.takeConnection, some conn⟩]
        { m with connectionPool := rest } :=
    .cons Acts.isConnected (.cons (Acts.take hpool) .nil)
  have hstart : Reachable arena (.start Job.call {} crowd) (.start Job.call {} crowd) := .start
  have hconnect := hstart.goOn [] [_, _, _, _] stocking_steps stocking_plays
  have hfirst := hconnect.goOn [_] [_, _, _] (.call _ (.call _ .refl)) (hborrow rfl)
  have hsecond := hfirst.goOn [_, _] [_, _] (.call _ (.call _ .refl)) (hborrow rfl)
  have hthird := hsecond.goOn [_, _, _] [_] (.call _ (.call _ .refl)) (hborrow rfl)
  have hfourth := hthird.goOn [_, _, _, _] [] (.call _ (.call _ (.call _ .refl)))
    (.cons Acts.isConnected (.cons (Acts.timeout rfl) (.cons Acts.push .nil)))
  exact ⟨_, _, hfourth, .tail _ (.tail _ (.tail _ (.tail _ (.head _)))), rfl, rfl,
    fun hsafe => hsafe.defined rfl⟩

end GateServer.RedisMgr
