import GateServer.ConfiMgr
import GateServer.Interact.Passing
import GateServer.Operations
import GateServer.Singleton.Relock

/-!
# From `main` to `ioc.run()`

`main` reads the configuration, opens the Redis pool with the connections that can be
made, and listens. An exception leads to its `catch` block, except in a constructor called
by `getInstance`, where the base destructor locks the mutex that is held.
-/

namespace GateServer.Startup

open Interact

-- ---------------------------------------------------------------------------
-- What main asks
-- ---------------------------------------------------------------------------

structure ConnectionOptions where
  host : String
  port : Int
  password : String

/-- `constructs` is an operation of a singleton's constructor in `getInstance`, and `init` one
of `LogSystem::init`. `connectRedis` is the construction of a client and its first `ping`,
`listen` the construction of the `Server`, `strat` the rest of `Server::strat` after
`getInstance`, and `run` is `ioc.run()` with the connections of the Redis pool. -/
inductive Op
  | connectMySql
  | constructs (cls : Singleton.Class) (op : Singleton.Op)
  | init (op : Singleton.Op)
  | info (message : String)
  | runLogQueue
  | readIni
  | connectRedis (options : ConnectionOptions)
  | push (level : LogLevel) (message : String)
  | openSignals
  | listen (port : Nat)
  | strat
  | run (redispool : List Conn)
  | stopLogQueue

abbrev Ans : Op → Type
  | .info _ | .push .. | .stopLogQueue => Unit
  | .readIni => Except String Ptree
  | .constructs _ op | .init op => Singleton.Ans op
  | _ => Except String Unit

abbrev Act (α : Type) := Prog Ans α
abbrev Ev := Event Ans

def ask (op : Op) : Act (Ans op) := Prog.ask op

/-- `std::stoul`: a sign is read, and a negated value is taken as an `unsigned long`. -/
def stoul (s : String) : Except String Nat :=
  let read (negative : Bool) (cs : List Char) : Except String Nat :=
    let numeral := cs.takeWhile Char.isDigit
    let value : Nat := Nat.ofDigitChars 10 numeral 0
    if numeral ≠ [] ∧ value < 2 ^ 64 then
      .ok (if negative then toUInt64 (-value) else value)
    else
      .error "stoul"
  match s.toList.dropWhile isSpace with
  | '-' :: cs => read true cs
  | '+' :: cs => read false cs
  | cs => read false cs

def toUInt16 (n : Int) : Nat := (n % 2 ^ 16).toNat

-- ---------------------------------------------------------------------------
-- The singletons
-- ---------------------------------------------------------------------------

/-- A constructor while `getInstance` holds the mutex. An exception runs `~singleton`, which
locks the mutex again, and so does `getInstance` of another class. -/
def underMutex (cls : Singleton.Class) : Singleton.Ctor → Act Unit
  | .done (.ret ()) => return
  | .done (.threw _) => Prog.fault .relock
  | .done (.undef u) => Prog.fault u
  | .call (.getInstance _) _ => Prog.fault .relock
  | .call op next => .call (.constructs cls op) fun a => underMutex cls (next a)

def getInstance (cls : Singleton.Class) : Act Unit := underMutex cls (Singleton.construct cls)

def initLog (dir : String) : Act Unit := (Singleton.init dir).lift Op.init fun _ a => a

-- ---------------------------------------------------------------------------
-- RedisPool
-- ---------------------------------------------------------------------------

/-- A connection is identified by the attempt that made it. -/
def createConnection (options : ConnectionOptions) (i : Nat) : Act (Option Conn) := do
  let made : Except String Unit ← ask (.connectRedis options)
  match made with
  | .ok () => return some i
  | .error what => do
    ask (.push .error ("Failed to create Redis connection: " ++ what))
    return none

def createConnections (options : ConnectionOptions) :
    (left i : Nat) → (available : List Conn) → Act (List Conn)
  | 0, _, available => return available
  | left + 1, i, available => do
    let conn ← createConnection options i
    createConnections options left (i + 1) (available ++ conn.toList)

def redisPool (cfg : Singleton.Config) : Act (List Conn) := do
  let host := cfg "Redis" "host"
  let port ← .ofExcept (Singleton.stoi (cfg "Redis" "port"))
  let password := cfg "Redis" "passwd"
  let poolSize ← .ofExcept (stoul (cfg "Redis" "pool_size"))
  let available ← createConnections ⟨host, port, password⟩ poolSize 0 []
  ask (.push .info ("Redis connection pool initialized with " ++ toString available.length ++
    " connections"))
  return available

-- ---------------------------------------------------------------------------
-- main
-- ---------------------------------------------------------------------------

/-- The `try` block before `ioc.run()`. -/
def prepare : Act (List Conn) := do
  getInstance .logSystem
  initLog "logs"
  ask (.info "GateServer starting...")
  getInstance .logQueue
  .ofExcept (← ask .runLogQueue)
  let pt ← .ofExcept (← ask .readIni)
  let cfg := (ConfiMgr.ofPtree pt).config
  let redispool ← redisPool cfg
  let port := atoi (cfg "GateServer" "port")
  .ofExcept (← ask .openSignals)
  .ofExcept (← ask (.listen (toUInt16 port)))
  getInstance .asioIOServicePool
  .ofExcept (← ask .strat)
  return redispool

def tryBlock : Act Int := do
  let redispool ← prepare
  .ofExcept (← ask (.run redispool))
  return 0

/-- The probe of MySQL has a `try` block of its own, and `main` continues after it. -/
def main : Act Int := do
  let _ ← ask .connectMySql
  tryBlock.tryCatch fun what => do
    ask (.push .error ("Exception occurred: " ++ what))
    ask .stopLogQueue
    return -1

-- ---------------------------------------------------------------------------
-- What stops it
-- ---------------------------------------------------------------------------

/-- Only these two settings can be refused, by the constructor of the Redis pool. -/
def Readable (cfg : Singleton.Config) : Prop :=
  (∃ port, Singleton.stoi (cfg "Redis" "port") = .ok port) ∧
    ∃ size, stoul (cfg "Redis" "pool_size") = .ok size

/-- The answers with which the server runs. MySQL and Redis may be unreachable. -/
@[simp] def LetsServe : Ev → Prop
  | ⟨.constructs cls op, a⟩ => Singleton.Fine cls ⟨op, a⟩
  | ⟨.init op, a⟩ => Singleton.Fine .logSystem ⟨op, a⟩
  | ⟨.runLogQueue, a⟩ => a = .ok ()
  | ⟨.readIni, a⟩ => ∃ pt, a = .ok pt ∧ Readable (ConfiMgr.ofPtree pt).config
  | ⟨.openSignals, a⟩ => a = .ok ()
  | ⟨.listen _, a⟩ => a = .ok ()
  | ⟨.strat, a⟩ => a = .ok ()
  | _ => True

/-- How any other answer ends `prepare`: with an exception, unless a constructor got it. -/
@[simp] def failure : Ev → Option Fault
  | ⟨.constructs .., _⟩ => some .relock
  | _ => none

abbrev ServePasses (May : Op → Prop) (p : Act α) : Prop := Passes May LetsServe failure p

variable {May : Op → Prop}

/-- After a bad answer the constructor ends with an exception or asks for a singleton. -/
theorem underMutex_stops {cls : Singleton.Class} {p : Singleton.Ctor}
    (hmet : ¬ Singleton.AllFine cls met)
    (hp : Spec (Singleton.relocks cls) met p (Singleton.Ends cls)) :
    Stops (some .relock) (underMutex cls p) := by
  cases p with
  | done e =>
    cases e with
    | ret => exact absurd hp hmet
    | threw what => exact stops_fault .relock
    | undef u => exact hp.elim
  | call op next =>
    have hop : op.isGet = true := hp.1.mpr hmet
    cases op with
    | getInstance other => exact stops_fault .relock
    | _ => cases hop

theorem underMutex_passes {cls : Singleton.Class} {p : Singleton.Ctor}
    (hmay : ∀ op, May (.constructs cls op)) (hmet : Singleton.AllFine cls met)
    (hp : Spec (Singleton.relocks cls) met p (Singleton.Ends cls)) :
    ServePasses May (underMutex cls p) := by
  induction p generalizing met with
  | done e =>
    cases e with
    | ret => exact .pure ()
    | threw what => exact absurd hmet hp
    | undef u => exact hp.elim
  | call op next ih =>
    cases hop : op.isGet with
    | true => exact absurd hmet (hp.1.mp hop)
    | false =>
      have hunder : underMutex cls (.call op next) =
          .call (.constructs cls op) fun a => underMutex cls (next a) := by
        cases op <;> first | rfl | cases hop
      rw [hunder]
      exact ⟨hmay op, fun a => ⟨fun hfine => ih a (hmet.snoc hfine) (hp.2 a hop), fun hbad =>
        underMutex_stops (Singleton.not_allFine_snoc hbad) (hp.2 a hop)⟩⟩

theorem getInstance_passes (cls : Singleton.Class) (hmay : ∀ op, May (.constructs cls op)) :
    ServePasses May (getInstance cls) :=
  underMutex_passes hmay Singleton.allFine_nil (Singleton.construct_ok cls)

theorem initLog_passes (dir : String) (hmay : ∀ op, May (.init op)) :
    ServePasses May (initLog dir) := by
  refine .ask_bind (hmay _) ?_ fun present hbad => ?_
  · rintro _ ⟨present, rfl⟩
    cases present with
    | true => exact .pure ()
    | false =>
      refine .ask_bind (hmay _) ?_ fun created hbad => ?_
      · rintro _ rfl
        exact .pure ()
      · cases created with
        | ok => exact absurd rfl hbad
        | error what => exact stops_threw what
  · cases present with
    | ok present => exact absurd ⟨present, rfl⟩ hbad
    | error what => exact stops_threw what

theorem createConnections_passes (options : ConnectionOptions) (left i : Nat)
    (available : List Conn) (hconnect : May (.connectRedis options))
    (hpush : ∀ level message, May (.push level message)) :
    ServePasses May (createConnections options left i available) := by
  induction left generalizing i available with
  | zero => exact .pure _
  | succ left ih =>
    refine .bind (.bind (.ask hconnect fun _ => trivial) fun made => ?_) fun conn => ih _ _
    cases made with
    | ok => exact .pure _
    | error what => exact .bind (.ask (hpush _ _) fun _ => trivial) fun _ => .pure _

@[simp] def Prepares : Op → Prop
  | .run _ => False
  | _ => True

theorem redisPool_passes {cfg : Singleton.Config} (h : Readable cfg) :
    ServePasses Prepares (redisPool cfg) := by
  obtain ⟨⟨port, hport⟩, size, hsize⟩ := h
  simp only [redisPool, hport, hsize, Prog.ofExcept_ok, pure_bind]
  refine .bind (createConnections_passes _ _ _ _ trivial fun _ _ => trivial) fun available => ?_
  exact .bind (.ask trivial fun _ => trivial) fun _ => .pure _

theorem redisPool_stops {cfg : Singleton.Config} (h : ¬ Readable cfg) :
    Stops none (redisPool cfg) := by
  unfold redisPool
  cases hport : Singleton.stoi (cfg "Redis" "port") with
  | error w => exact stops_threw w
  | ok port =>
    cases hsize : stoul (cfg "Redis" "pool_size") with
    | error w => exact stops_threw w
    | ok size => exact absurd ⟨⟨port, hport⟩, size, hsize⟩ h

theorem check_passes (op : Op) {f : Unit → Act α} (hmay : Prepares op)
    (back : Ans op → Except String Unit) (hgood : ∀ a, LetsServe ⟨op, a⟩ ↔ back a = .ok ())
    (hthrows : ∀ a, failure ⟨op, a⟩ = none) (hf : ServePasses Prepares (f ())) :
    ServePasses Prepares (ask op >>= fun a => .ofExcept (back a) >>= f) := by
  refine .ask_bind hmay (fun a h => ?_) fun a h => ?_
  · rw [(hgood a).mp h]
    exact hf
  · rw [hthrows a]
    cases hback : back a with
    | ok => exact absurd ((hgood a).mpr hback) h
    | error w => exact stops_threw w

theorem prepare_passes : ServePasses Prepares prepare := by
  refine .bind (getInstance_passes .logSystem fun _ => trivial) fun _ => ?_
  refine .bind (initLog_passes "logs" fun _ => trivial) fun _ => ?_
  refine .bind (.ask trivial fun _ => trivial) fun _ => ?_
  refine .bind (getInstance_passes .logQueue fun _ => trivial) fun _ => ?_
  refine check_passes .runLogQueue trivial id (fun _ => Iff.rfl) (fun _ => rfl) ?_
  refine .ask_bind trivial ?_ fun read hbad => ?_
  · rintro _ ⟨pt, rfl, hpt⟩
    show ServePasses _ (redisPool (ConfiMgr.ofPtree pt).config >>= _)
    refine .bind (redisPool_passes hpt) fun redispool => ?_
    refine check_passes .openSignals trivial id (fun _ => Iff.rfl) (fun _ => rfl) ?_
    refine check_passes (.listen _) trivial id (fun _ => Iff.rfl) (fun _ => rfl) ?_
    refine .bind (getInstance_passes .asioIOServicePool fun _ => trivial) fun _ => ?_
    exact check_passes .strat trivial id (fun _ => Iff.rfl) (fun _ => rfl) (.pure _)
  · cases read with
    | error w => exact stops_threw w
    | ok pt => exact (redisPool_stops fun h => hbad ⟨pt, rfl, h⟩).bind

-- ---------------------------------------------------------------------------
-- What it runs with
-- ---------------------------------------------------------------------------

@[simp] def attempt? : Ev → Option (ConnectionOptions × Except String Unit)
  | ⟨.connectRedis options, made⟩ => some (options, made)
  | _ => none

@[simp] def listen? : Ev → Option Nat
  | ⟨.listen port, _⟩ => some port
  | _ => none

def attempts (tr : List Ev) : List (ConnectionOptions × Except String Unit) :=
  tr.filterMap attempt?

def listened (tr : List Ev) : List Nat := tr.filterMap listen?

@[simp] theorem attempts_append (tr tr' : List Ev) :
    attempts (tr ++ tr') = attempts tr ++ attempts tr' := List.filterMap_append

@[simp] theorem listened_append (tr tr' : List Ev) :
    listened (tr ++ tr') = listened tr ++ listened tr' := List.filterMap_append

@[simp] theorem attempts_cons (ev : Ev) (tr : List Ev) :
    attempts (ev :: tr) = (attempt? ev).toList ++ attempts tr := filterMap_cons_toList ..

@[simp] theorem listened_cons (ev : Ev) (tr : List Ev) :
    listened (ev :: tr) = (listen? ev).toList ++ listened tr := filterMap_cons_toList ..

@[simp] theorem attempts_nil : attempts [] = [] := rfl
@[simp] theorem listened_nil : listened [] = [] := rfl

@[simp] def Quiet : Op → Prop
  | .connectRedis _ | .listen _ | .run _ => False
  | _ => True

theorem attempts_quiet (h : ∀ ev ∈ tr, Quiet (Event.op ev)) : attempts tr = [] := by
  refine filterMap_of_ops (fun op a hop => ?_) h
  cases op <;> first | rfl | cases hop

theorem listened_quiet (h : ∀ ev ∈ tr, Quiet (Event.op ev)) : listened tr = [] := by
  refine filterMap_of_ops (fun op a hop => ?_) h
  cases op <;> first | rfl | cases hop

def connected : (i : Nat) → List (Except String Unit) → List Conn
  | _, [] => []
  | i, .ok () :: made => i :: connected (i + 1) made
  | i, .error _ :: made => connected (i + 1) made

theorem le_of_mem_connected {made : List (Except String Unit)} (h : conn ∈ connected i made) :
    i ≤ conn := by
  induction made generalizing i with
  | nil => cases h
  | cons attempt made ih =>
    cases attempt with
    | ok =>
      cases h with
      | head => exact Nat.le_refl _
      | tail _ h => exact Nat.le_of_succ_le (ih h)
    | error w => exact Nat.le_of_succ_le (ih h)

theorem nodup_connected (i : Nat) (made : List (Except String Unit)) :
    (connected i made).Nodup := by
  induction made generalizing i with
  | nil => exact .nil
  | cons attempt made ih =>
    cases attempt with
    | ok =>
      refine List.nodup_cons.mpr ⟨fun h => ?_, ih (i + 1)⟩
      have := le_of_mem_connected h
      omega
    | error w => exact ih (i + 1)

theorem createConnections_ok (options : ConnectionOptions) (left i : Nat) (available : List Conn) :
    Spec .any h (createConnections options left i available) fun h' e => ∃ made tr,
      made.length = left ∧ e = .ret (available ++ connected i made) ∧ h' = h ++ tr ∧
      attempts tr = made.map (options, ·) ∧ listened tr = [] := by
  induction left generalizing h i available with
  | zero => exact ⟨[], [], rfl, by simp [connected], by simp, rfl, rfl⟩
  | succ left ih =>
    refine spec_bind.mpr (.ask fun made => ?_)
    cases made with
    | ok =>
      refine (ih (i + 1) (available ++ [i])).mono ?_
      rintro h' e ⟨made, tr, hlen, rfl, rfl, hattempts, hlistened⟩
      refine ⟨.ok () :: made, ⟨.connectRedis options, .ok ()⟩ :: tr, ?_, ?_, ?_, ?_, ?_⟩
      · simp [hlen]
      · simp [connected]
      · simp
      · simp [hattempts]
      · simp [hlistened]
    | error what =>
      refine .call fun _ => (ih (i + 1) (available ++ [])).mono ?_
      rintro h' e ⟨made, tr, hlen, rfl, rfl, hattempts, hlistened⟩
      refine ⟨.error what :: made, ⟨.connectRedis options, .error what⟩ ::
        ⟨.push .error ("Failed to create Redis connection: " ++ what), ()⟩ :: tr,
        ?_, ?_, ?_, ?_, ?_⟩
      · simp [hlen]
      · simp [connected]
      · simp
      · simp [hattempts]
      · simp [hlistened]

/-- The server runs with the connections that were made, and listens at the port that its
setting begins with. -/
structure Serves (tr : List Ev) (redispool : List Conn) (cfg : Singleton.Config) (port : Int)
    (made : List (Except String Unit)) : Prop where
  read : ∃ pt, ⟨.readIni, .ok pt⟩ ∈ tr ∧ cfg = (ConfiMgr.ofPtree pt).config
  readable : Singleton.stoi (cfg "Redis" "port") = .ok port
  size : stoul (cfg "Redis" "pool_size") = .ok made.length
  tried : attempts tr = made.map (⟨cfg "Redis" "host", port, cfg "Redis" "passwd"⟩, ·)
  opened : redispool = connected 0 made
  listens : listened tr = [toUInt16 (atoi (cfg "GateServer" "port"))]

theorem quiet_bind {p : Act α} {f : α → Act β} {R : List Ev → β → Prop}
    (hp : ServePasses Quiet p) (hf : ∀ a tr, attempts tr = [] → listened tr = [] →
      Spec .any (h ++ tr) (f a) fun h' e => ∀ b, e = .ret b → R h' b) :
    Spec .any h (p >>= f) fun h' e => ∀ b, e = .ret b → R h' b := by
  refine (spec_run p).bind ?_
  rintro _ e ⟨tr, rfl, hrun⟩
  have hquiet := hp.asks hrun
  cases e with
  | ret a => exact hf a tr (attempts_quiet hquiet) (listened_quiet hquiet)
  | threw w => exact nofun
  | undef u => exact nofun

theorem prepare_ok (hattempts : attempts h = []) (hlistened : listened h = []) :
    Spec .any h prepare fun h' e => ∀ redispool, e = .ret redispool →
      ∃ cfg port made, Serves h' redispool cfg port made := by
  refine quiet_bind (getInstance_passes .logSystem fun _ => trivial) fun _ atLog hlog hlog' => ?_
  refine quiet_bind (initLog_passes "logs" fun _ => trivial) fun _ atInit hinit hinit' => ?_
  refine .ask fun _ => ?_
  refine quiet_bind (getInstance_passes .logQueue fun _ => trivial)
    fun _ atQueue hqueue hqueue' => ?_
  refine .ask fun ran => ?_
  cases ran with
  | error w => exact nofun
  | ok =>
  refine .ask fun read => ?_
  cases read with
  | error w => exact nofun
  | ok pt =>
  obtain ⟨cfg, hcfg⟩ : ∃ cfg, cfg = (ConfiMgr.ofPtree pt).config := ⟨_, rfl⟩
  simp only [Prog.ofExcept_ok, pure_bind, ← hcfg, redisPool, bind_assoc]
  cases hport : Singleton.stoi (cfg "Redis" "port") with
  | error w => exact nofun
  | ok port =>
  cases hsize : stoul (cfg "Redis" "pool_size") with
  | error w => exact nofun
  | ok size =>
  simp only [Prog.ofExcept_ok, pure_bind]
  refine spec_bind.mpr ((createConnections_ok _ _ _ _).mono ?_)
  rintro h' e ⟨made, tr, rfl, rfl, rfl, hmade, hports⟩
  refine .ask fun _ => .ask fun opened => ?_
  cases opened with
  | error w => exact nofun
  | ok =>
  refine .ask fun listening => ?_
  cases listening with
  | error w => exact nofun
  | ok =>
  simp only [Prog.ofExcept_ok, pure_bind]
  refine quiet_bind (getInstance_passes .asioIOServicePool fun _ => trivial)
    fun _ atPool hpool hpool' => ?_
  refine .ask fun posted => ?_
  cases posted with
  | error w => exact nofun
  | ok =>
  rintro redispool ⟨⟩
  refine ⟨cfg, port, made, ⟨pt, by simp, hcfg⟩, hport, hsize, ?_, rfl, ?_⟩
  · simp [hmade, hattempts, hlog, hinit, hqueue, hpool]
  · simp [hports, hlistened, hlog', hinit', hqueue', hpool', hcfg]

theorem Serves.within (h : Serves tr redispool cfg port made) (hattempts : attempts tr' = [])
    (hlistened : listened tr' = []) (probed : Except String Unit) :
    Serves (⟨.connectMySql, probed⟩ :: (tr ++ tr')) redispool cfg port made where
  read := by
    obtain ⟨pt, hpt, hcfg⟩ := h.read
    exact ⟨pt, by simp [hpt], hcfg⟩
  readable := h.readable
  size := h.size
  tried := by simp [hattempts, h.tried]
  opened := h.opened
  listens := by simp [hlistened, h.listens]

/-- A constructor under the mutex got an answer that is not fine. -/
@[simp] def Spoils : Ev → Prop
  | ⟨.constructs cls op, a⟩ => ¬ Singleton.Fine cls ⟨op, a⟩
  | _ => False

structure MainEnds (tr : List Ev) (e : Exit Int) : Prop where
  exit : e = .ret 0 ∨ e = .ret (-1) ∨ e = .undef .relock
  relocks : e = .undef .relock ↔ ∃ ev ∈ tr, Spoils ev
  runs : (∃ redispool ran, ⟨.run redispool, ran⟩ ∈ tr) ↔ ∀ ev ∈ tr, LetsServe ev
  serves : ∀ redispool ran, ⟨.run redispool, ran⟩ ∈ tr →
    redispool.Nodup ∧ ∃ cfg port made, Serves tr redispool cfg port made

theorem not_spoils {ev : Ev} (h : LetsServe ev) : ¬ Spoils ev := by
  obtain ⟨op, a⟩ := ev
  cases op with
  | constructs cls op => exact fun hspoils => hspoils h
  | _ => exact id

/-- The first bad answer determines how `prepare` ends. -/
theorem fails_iff {ev : Ev} (hbad : ¬ LetsServe ev) (h : Exit.Fails (failure ev) e) :
    (∃ w, e = .threw w) ∧ ¬ Spoils ev ∨ e = .undef .relock ∧ Spoils ev := by
  obtain ⟨op, a⟩ := ev
  cases e with
  | ret => exact h.elim
  | threw w =>
    refine .inl ⟨⟨w, rfl⟩, ?_⟩
    cases op with
    | constructs => cases h
    | _ => exact id
  | undef u =>
    cases op with
    | constructs =>
      cases h
      exact .inr ⟨rfl, hbad⟩
    | _ => cases h

@[simp] def Cleans : Op → Prop
  | .push .. | .stopLogQueue => True
  | _ => False

theorem cleans_serve {ev : Ev} (h : Cleans ev.op) : LetsServe ev := by
  obtain ⟨op, a⟩ := ev
  cases op <;> trivial

theorem cleans_quiet (h : Cleans op) : Quiet op := by
  cases op <;> trivial

theorem mem_run {ran' : Except String Unit} (hrun : Runs prepare tr e)
    (hrest : ∀ ev ∈ rest, Cleans (Event.op ev))
    (h : ⟨.run other, ran'⟩ ∈ (⟨.connectMySql, probed⟩ :: (tr ++ between ++ rest) : List Ev)) :
    ⟨.run other, ran'⟩ ∈ between := by
  simp only [List.mem_cons, List.mem_append] at h
  rcases h with h | (h | h) | h
  · cases h
  · exact (prepare_passes.asks hrun _ h).elim
  · exact h
  · exact (hrest _ h).elim

theorem ran_ends (hrun : Runs prepare tr (.ret redispool)) (ran : Except String Unit)
    (hrest : ∀ ev ∈ rest, Cleans (Event.op ev)) (hexit : e = .ret 0 ∨ e = .ret (-1)) :
    MainEnds (⟨.connectMySql, probed⟩ :: (tr ++ [⟨.run redispool, ran⟩] ++ rest)) e := by
  have hgood : ∀ ev ∈ tr, LetsServe ev := by
    rcases prepare_passes.ends hrun with ⟨-, hgood⟩ | ⟨before, ev, -, -, -, hfails⟩
    · exact hgood
    · exact hfails.elim
  have hserve : ∀ ev ∈ (⟨.connectMySql, probed⟩ :: (tr ++ [⟨.run redispool, ran⟩] ++ rest) :
      List Ev), LetsServe ev := by
    simp only [List.forall_mem_cons, List.forall_mem_append, List.not_mem_nil, false_imp_iff]
    exact ⟨trivial, ⟨hgood, trivial, fun _ => trivial⟩, fun ev hev => cleans_serve (hrest ev hev)⟩
  have hquiet : ∀ ev ∈ rest, Quiet (Event.op ev) := fun ev hev => cleans_quiet (hrest ev hev)
  refine ⟨hexit.imp_right .inl, ?_, iff_of_true ⟨redispool, ran, by simp⟩ hserve, ?_⟩
  · refine iff_of_false ?_ fun ⟨ev, hev, hspoils⟩ => not_spoils (hserve ev hev) hspoils
    rcases hexit with rfl | rfl <;> exact nofun
  · intro other ran' hmem
    cases List.mem_singleton.mp (mem_run hrun hrest hmem)
    obtain ⟨cfg, port, made, hserves⟩ := (prepare_ok rfl rfl).ends hrun redispool rfl
    refine ⟨hserves.opened ▸ nodup_connected 0 made, cfg, port, made, ?_⟩
    rw [List.append_assoc]
    exact hserves.within (by simp [attempts_quiet hquiet]) (by simp [listened_quiet hquiet]) probed

theorem failed_ends (hrun : Runs prepare (before ++ [last]) e')
    (hbefore : ∀ ev ∈ before, LetsServe ev) (hbad : ¬ LetsServe last)
    (hrest : ∀ ev ∈ rest, Cleans (Event.op ev))
    (hexit : e = .ret (-1) ∧ ¬ Spoils last ∨ e = .undef .relock ∧ Spoils last) :
    MainEnds (⟨.connectMySql, probed⟩ :: (before ++ [last] ++ [] ++ rest)) e := by
  have hnone : ¬ ∃ redispool ran, ⟨.run redispool, ran⟩ ∈
      (⟨.connectMySql, probed⟩ :: (before ++ [last] ++ [] ++ rest) : List Ev) := by
    rintro ⟨redispool, ran, hmem⟩
    cases mem_run hrun hrest hmem
  have hspoils : (∃ ev ∈ (⟨.connectMySql, probed⟩ :: (before ++ [last] ++ [] ++ rest) : List Ev),
      Spoils ev) ↔ Spoils last := by
    refine ⟨?_, fun h => ⟨last, by simp, h⟩⟩
    rintro ⟨ev, hev, h⟩
    simp only [List.mem_cons, List.mem_append, List.not_mem_nil, or_false] at hev
    rcases hev with rfl | (hev | rfl) | hev
    · exact h.elim
    · exact absurd h (not_spoils (hbefore ev hev))
    · exact h
    · exact absurd h (not_spoils (cleans_serve (hrest ev hev)))
  refine ⟨?_, ?_, iff_of_false hnone fun hall => hbad (hall last (by simp)), ?_⟩
  · rcases hexit with ⟨rfl, -⟩ | ⟨rfl, -⟩
    · exact .inr (.inl rfl)
    · exact .inr (.inr rfl)
  · rw [hspoils]
    rcases hexit with ⟨rfl, hlast⟩ | ⟨rfl, hlast⟩
    · exact iff_of_false nofun hlast
    · exact iff_of_true rfl hlast
  · exact fun redispool ran hmem => absurd ⟨redispool, ran, hmem⟩ hnone

theorem connected_eq_nil {made : List (Except String Unit)}
    (h : ∀ attempt ∈ made, attempt ≠ .ok ()) : connected i made = [] := by
  induction made generalizing i with
  | nil => rfl
  | cons attempt made ih =>
    rw [List.forall_mem_cons] at h
    cases attempt with
    | ok => exact absurd rfl h.1
    | error w => exact ih h.2

theorem MainEnds.no_connection (h : MainEnds tr e) (hrun : ⟨.run redispool, ran⟩ ∈ tr)
    (hdown : ∀ options made, (options, made) ∈ attempts tr → made ≠ .ok ()) : redispool = [] := by
  obtain ⟨cfg, port, made, hserves⟩ := (h.serves redispool ran hrun).2
  rw [hserves.opened]
  refine connected_eq_nil fun attempt hmem => ?_
  have htried : (⟨cfg "Redis" "host", port, cfg "Redis" "passwd"⟩, attempt) ∈ attempts tr := by
    rw [hserves.tried]
    exact List.mem_map_of_mem hmem
  exact hdown _ attempt htried

theorem main_ok : Spec .any [] main MainEnds := by
  refine .ask fun probed => spec_tryCatch.mpr (spec_bind.mpr ((spec_run prepare).mono ?_))
  have hcaught (w : String) : ∀ ev ∈ ([⟨.push .error ("Exception occurred: " ++ w), ()⟩,
      ⟨.stopLogQueue, ()⟩] : List Ev), Cleans ev.op := by simp
  rintro _ e ⟨tr, rfl, hrun⟩
  obtain ⟨⟨redispool, rfl⟩, -⟩ | ⟨before, last, rfl, hbefore, hbad, hfails⟩ :=
    prepare_passes.ends hrun
  · refine .ask fun ran => ?_
    cases ran with
    | ok =>
      show MainEnds _ (.ret 0)
      simpa using ran_ends hrun (.ok ()) (List.forall_mem_nil _) (.inl rfl)
    | error w =>
      refine .ask fun _ => .ask fun _ => ?_
      simpa using ran_ends hrun (.error w) (hcaught w) (.inr rfl)
  · obtain ⟨⟨w, rfl⟩, hlast⟩ | ⟨rfl, hlast⟩ := fails_iff hbad hfails
    · refine .ask fun _ => .ask fun _ => ?_
      simpa using failed_ends hrun hbefore hbad (hcaught w) (.inl ⟨rfl, hlast⟩)
    · show MainEnds _ (.undef .relock)
      simpa using failed_ends hrun hbefore hbad (List.forall_mem_nil _) (.inr ⟨rfl, hlast⟩)

example : Runs main [⟨.connectMySql, .ok ()⟩, ⟨.constructs .logSystem .currentPath, .error "gone"⟩]
    (.undef .relock) := .call _ (.call _ .refl)

/-- The server runs iff none of the listed calls failed, whatever is unreachable, and it runs
with the connections that were made. -/
theorem main_serves (hr : Runs main tr e) :
    (e = .ret 0 ∨ e = .ret (-1) ∨ e = .undef .relock) ∧
    (e = .undef .relock ↔ ∃ ev ∈ tr, Spoils ev) ∧
    ((∃ redispool ran, ⟨.run redispool, ran⟩ ∈ tr) ↔ ∀ ev ∈ tr, LetsServe ev) ∧
    ∀ redispool ran, ⟨.run redispool, ran⟩ ∈ tr →
      redispool.Nodup ∧ ∃ cfg port made, Serves tr redispool cfg port made :=
  have h := main_ok.ends hr
  ⟨h.exit, h.relocks, h.runs, h.serves⟩

def sampleIni : Ptree :=
  .node "" [("GateServer", .node "" [("port", .node "8080" [])]),
    ("Redis", .node "" [("host", .node "h" []), ("port", .node "6379" []),
      ("pool_size", .node "2" [])])]

def sampleTrace : List Ev :=
  [⟨.connectMySql, .error "down"⟩, ⟨.constructs .logSystem .currentPath, .ok "/srv"⟩,
    ⟨.constructs .logSystem (.pathExists "/srv/logs"), .ok true⟩,
    ⟨.init (.pathExists "logs"), .ok true⟩, ⟨.info "GateServer starting...", ()⟩,
    ⟨.runLogQueue, .ok ()⟩, ⟨.readIni, .ok sampleIni⟩, ⟨.connectRedis ⟨"h", 6379, ""⟩, .error "x"⟩,
    ⟨.push .error "Failed to create Redis connection: x", ()⟩,
    ⟨.connectRedis ⟨"h", 6379, ""⟩, .ok ()⟩,
    ⟨.push .info "Redis connection pool initialized with 1 connections", ()⟩,
    ⟨.openSignals, .ok ()⟩, ⟨.listen 8080, .ok ()⟩,
    ⟨.constructs .asioIOServicePool (.startThread 0), .ok ()⟩,
    ⟨.constructs .asioIOServicePool (.startThread 1), .ok ()⟩, ⟨.strat, .ok ()⟩,
    ⟨.run [1], .ok ()⟩]

theorem sampleTrace_runs : Runs main sampleTrace (.ret 0) := by
  refine .call _ (.call _ (.call _ (.call _ (.call _ (.call _ (.call _ ?_))))))
  refine .call _ (.call _ (.call _ (.call _ ?_)))
  exact .call _ (.call _ (.call _ (.call _ (.call _ (.call _ .refl)))))

theorem main_serves_partly : ∃ cfg port made, Serves sampleTrace [1] cfg port made :=
  ((main_serves sampleTrace_runs).2.2.2 [1] (.ok ()) (by simp [sampleTrace])).2

end GateServer.Startup
