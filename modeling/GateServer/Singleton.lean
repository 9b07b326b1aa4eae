import Mathlib.Logic.Function.Basic
import GateServer.Const
import GateServer.Interact.Monitor
import GateServer.Interact.Program

/-!
# The singletons

Eight classes derive from `singleton`. They share one mutex, which is not recursive and is
held while an instance is constructed. A constructor runs under the mutex, and so does the
destructor of its base when an exception leaves it.
-/

namespace GateServer.Singleton

open Interact

inductive Class
  | logSystem
  | logQueue
  | asioIOServicePool
  | logicalSystem
  | redisMgr
  | gRPCServerPool
  | varfiyGrpcClient
  | mySqlMgr
  deriving DecidableEq, Repr

-- ---------------------------------------------------------------------------
-- The constructors
-- ---------------------------------------------------------------------------

/-- The value of a key of a section in `ConfiMgr`, empty if there is none. -/
abbrev Config := (sectionName key : String) → String

/-- The external calls of the constructors, and `getInstance` of other classes. `terminate` is
`std::terminate`. -/
inductive Op
  | currentPath
  | pathExists (dir : String)
  | createDirectories (dir : String)
  | startThread (i : Nat)
  | config
  | newStub (address : String)
  | connect (db host user passwd : String) (port : Int)
  | getInstance (cls : Class)
  | terminate

/-- A call that can throw answers with the exception's text. A `mysqlpp::Connection` says
whether it is connected. -/
abbrev Ans : Op → Type
  | .currentPath => Except String String
  | .pathExists _ => Except String Bool
  | .createDirectories _ | .startThread _ | .newStub _ => Except String Unit
  | .config => Except String Config
  | .connect .. => Except String Bool
  | .getInstance _ => Unit
  | .terminate => Empty

abbrev Ctor := Prog Ans Unit
abbrev Ev := Event Ans

def ask (op : Op) : Prog Ans (Ans op) := Prog.ask op

def init (dir : String) : Ctor := do
  let present ← .ofExcept (← ask (.pathExists dir))
  if present then
    return
  .ofExcept (← ask (.createDirectories dir))

def logSystem : Ctor := do
  let currentPath ← .ofExcept (← ask .currentPath)
  init (currentPath ++ "/logs")

/-- A `std::thread` that cannot be started throws; destroying the joinable ones that were
started calls `std::terminate`. -/
def startThreads : (size i : Nat) → Ctor
  | 0, _ => return
  | size + 1, i => do
    let started : Except String Unit ← ask (.startThread i)
    match started with
    | .ok () => startThreads size (i + 1)
    | .error what => if i = 0 then .done (.threw what) else .call .terminate nofun

def newStubs (address : String) : Nat → Ctor
  | 0 => return
  | n + 1 => do
    .ofExcept (← ask (.newStub address))
    newStubs address n

def gRPCServerPool : Ctor :=
  Prog.tryCatch
    (do
      let cfg ← .ofExcept (← ask .config)
      newStubs (cfg "StautsServer" "host" ++ ":" ++ cfg "StautsServer" "port") 300)
    fun _ => return

def varfiyGrpcClient : Ctor := do
  let cfg ← .ofExcept (← ask .config)
  newStubs (cfg "VarifyServer" "host" ++ ":" ++ cfg "VarifyServer" "port") 4

/-- `std::stoi` throws if there is no number, or none in the range of an `int`. -/
def stoi (s : String) : Except String Int :=
  let numeral := match s.toList.dropWhile isSpace with
    | '-' :: cs | '+' :: cs => cs.takeWhile Char.isDigit
    | cs => cs.takeWhile Char.isDigit
  if numeral ≠ [] ∧ -2 ^ 31 ≤ strtol s ∧ strtol s < 2 ^ 31 then .ok (strtol s) else .error "stoi"

def Config.port (cfg : Config) : Except String Int :=
  if cfg "Mysql" "port" = "" then .ok 3306 else stoi (cfg "Mysql" "port")

/-- `MySqlPool`, with the configuration that `MysqlDao` has read. -/
def mySqlPool (cfg : Config) : (poolSize : Nat) → Ctor
  | 0 => return
  | n + 1 => do
    let port ← .ofExcept cfg.port
    let connected ← .ofExcept (← ask (.connect (cfg "Mysql" "database") (cfg "Mysql" "host")
      (cfg "Mysql" "user") (cfg "Mysql" "passwd") port))
    if connected then
      mySqlPool cfg n
    else
      -- to push "Failed to create MySQL connection"
      ask (.getInstance .logQueue)
      mySqlPool cfg n

def mySqlMgr : Ctor := do
  let cfg ← .ofExcept (← ask .config)
  mySqlPool cfg 5

/-- The other three constructors initialise members or register handlers. -/
def construct : Class → Ctor
  | .logSystem => logSystem
  | .asioIOServicePool => startThreads 2 0
  | .gRPCServerPool => gRPCServerPool
  | .varfiyGrpcClient => varfiyGrpcClient
  | .mySqlMgr => mySqlMgr
  | .logQueue | .logicalSystem | .redisMgr => return

-- ---------------------------------------------------------------------------
-- getInstance, step by step
-- ---------------------------------------------------------------------------

/-- The once flag and the pointer of a class. `made` is a ghost field: the objects whose
construction completed. -/
structure Statics where
  flag : Bool
  ptr : Option Nat
  made : List Nat
  deriving DecidableEq

structure Shared where
  locked : Bool
  statics : Class → Statics
  objects : Nat

/-- `build` keeps the constructor's answers. A thread whose constructor calls `getInstance`, or
was left by an exception, is about to lock the mutex that it holds. -/
inductive Place
  | out
  | lock (cls : Class)
  | once (cls : Class)
  | test (cls : Class)
  | build (cls : Class) (met : List Ev) (rest : Ctor)
  | assign (cls : Class) (obj : Nat)
  | setFlag (cls : Class)
  | unlock (cls : Class)
  | copy (cls : Class)

/-- `got` is a ghost field: what the calls have returned. -/
structure Thread where
  place : Place
  got : List (Class × Option Nat)

def Shared.set (s : Shared) (cls : Class) (v : Statics) : Shared :=
  { s with statics := Function.update s.statics cls v }

inductive Next : Shared → Thread → Signal Empty → Shared → Thread → Prop
  | call : Next s ⟨.out, got⟩ .quiet s ⟨.lock cls, got⟩
  | lock : s.locked = false →
      Next s ⟨.lock cls, got⟩ .quiet { s with locked := true } ⟨.once cls, got⟩
  | passed : (s.statics cls).flag = true → Next s ⟨.once cls, got⟩ .quiet s ⟨.unlock cls, got⟩
  | first : (s.statics cls).flag = false → Next s ⟨.once cls, got⟩ .quiet s ⟨.test cls, got⟩
  | isSet : (s.statics cls).ptr = some obj →
      Next s ⟨.test cls, got⟩ .quiet s ⟨.setFlag cls, got⟩
  | isNull : (s.statics cls).ptr = none →
      Next s ⟨.test cls, got⟩ .quiet s ⟨.build cls [] (construct cls), got⟩
  | ask {next : Ans op → Ctor} (a : Ans op) : (∀ other, op ≠ .getInstance other) →
      Next s ⟨.build cls met (.call op next), got⟩ .quiet s
        ⟨.build cls (met ++ [⟨op, a⟩]) (next a), got⟩
  | built : Next s ⟨.build cls met (.done (.ret ())), got⟩ .quiet
      { s.set cls { s.statics cls with made := s.objects :: (s.statics cls).made } with
        objects := s.objects + 1 } ⟨.assign cls s.objects, got⟩
  | assign : Next s ⟨.assign cls obj, got⟩ .quiet
      (s.set cls { s.statics cls with ptr := some obj }) ⟨.setFlag cls, got⟩
  | setFlag : Next s ⟨.setFlag cls, got⟩ .quiet
      (s.set cls { s.statics cls with flag := true }) ⟨.unlock cls, got⟩
  | unlock : Next s ⟨.unlock cls, got⟩ .quiet { s with locked := false } ⟨.copy cls, got⟩
  | copy : Next s ⟨.copy cls, got⟩ .quiet s ⟨.out, (cls, (s.statics cls).ptr) :: got⟩

def machine : Machine Shared Thread Empty where
  next := Next
  parked _ := none
  woken t := t

def start (n : Nat) : Monitor Shared Thread :=
  ⟨⟨false, fun _ => ⟨false, none, []⟩, 0⟩, List.replicate n ⟨.out, []⟩⟩

-- ---------------------------------------------------------------------------
-- The mutex
-- ---------------------------------------------------------------------------

@[simp] def Place.inside : Place → Bool
  | .out | .lock _ | .copy _ => false
  | _ => true

theorem lock : machine.Lock (K := Unit) (fun s _ => s.locked) fun t _ => t.place.inside where
  balance := by
    rintro s t sig s' t' hn - hflag
    cases hn <;> simp_all [Shared.set]
  woken := nofun

abbrev OneInside : Monitor Shared Thread → Prop :=
  Machine.Excludes (K := Unit) (fun s _ => s.locked) fun t _ => t.place.inside

theorem start_oneInside : OneInside (start n) := by
  intro
  simp [start]

-- ---------------------------------------------------------------------------
-- One object for each class
-- ---------------------------------------------------------------------------

def Statics.fresh : Statics := ⟨false, none, []⟩

def Statics.done (obj : Nat) : Statics := ⟨true, some obj, [obj]⟩

def Statics.Settled (v : Statics) : Prop := v = .fresh ∨ ∃ obj, v = .done obj

def Shared.SettledBut (s : Shared) (cls : Class) : Prop :=
  ∀ other, other ≠ cls → (s.statics other).Settled

def Shared.Settled (s : Shared) : Prop := ∀ cls, (s.statics cls).Settled

def Asked (cls : Class) (met : List Ev) (rest : Ctor) : Prop :=
  Steps (construct cls) met rest ∧ ∀ ev ∈ met, ∀ other, ev.op ≠ .getInstance other

def Place.Knows (s : Shared) : Place → Prop
  | .out | .lock _ => True
  | .once _ => s.Settled
  | .test cls => s.Settled ∧ s.statics cls = .fresh
  | .build cls met rest => s.Settled ∧ s.statics cls = .fresh ∧ Asked cls met rest
  | .assign cls obj => s.SettledBut cls ∧ s.statics cls = ⟨false, none, [obj]⟩
  | .setFlag cls => s.SettledBut cls ∧ ∃ obj, s.statics cls = ⟨false, some obj, [obj]⟩
  | .unlock cls => s.Settled ∧ ∃ obj, s.statics cls = .done obj
  | .copy cls => ∃ obj, s.statics cls = .done obj

structure Knows (s : Shared) (t : Thread) : Prop where
  holds : t.place.inside = true → s.locked = true
  free : s.locked = false → s.Settled
  got : ∀ cls o, (cls, o) ∈ t.got → ∃ obj, o = some obj ∧ s.statics cls = .done obj
  place : t.place.Knows s

theorem Shared.set_self (s : Shared) (cls : Class) (v : Statics) : (s.set cls v).statics cls = v :=
  Function.update_self ..

theorem Shared.set_ne (s : Shared) (v : Statics) (h : other ≠ cls) :
    (s.set cls v).statics other = s.statics other := Function.update_of_ne h ..

theorem Shared.SettledBut.set {s : Shared} (h : s.SettledBut cls) (v : Statics) :
    (s.set cls v).SettledBut cls := by
  intro other hne
  rw [s.set_ne v hne]
  exact h other hne

theorem Shared.SettledBut.settled {s : Shared} (h : s.SettledBut cls)
    (hcls : (s.statics cls).Settled) : s.Settled := by
  intro other
  by_cases hother : other = cls
  · exact hother ▸ hcls
  · exact h other hother

theorem Shared.Settled.but {s : Shared} (h : s.Settled) (cls : Class) : s.SettledBut cls :=
  fun other _ => h other

/-- A step writes only the statics of a class that is not done. -/
theorem Next.writes (hn : Next s t sig s' t') (ht : t.place.Knows s) :
    s'.statics = s.statics ∨ ∃ cls v, s'.statics = (s.set cls v).statics ∧
      (∀ obj, s.statics cls ≠ .done obj) ∧ v.made.length ≤ 1 := by
  cases hn with
  | built =>
    refine .inr ⟨_, _, rfl, ?_⟩
    rw [ht.2.1]
    exact ⟨nofun, Nat.le_refl 1⟩
  | assign =>
    refine .inr ⟨_, _, rfl, ?_⟩
    rw [ht.2]
    exact ⟨nofun, Nat.le_refl 1⟩
  | setFlag =>
    obtain ⟨-, obj, hobj⟩ := ht
    refine .inr ⟨_, _, rfl, ?_⟩
    rw [hobj]
    exact ⟨nofun, Nat.le_refl 1⟩
  | _ => exact .inl rfl

theorem Next.done (hn : Next s t sig s' t') (ht : t.place.Knows s)
    (h : s.statics cls = .done obj) : s'.statics cls = .done obj := by
  rcases hn.writes ht with hsame | ⟨other, v, hset, hnot, -⟩
  · rw [hsame, h]
  · have hne : cls ≠ other := fun heq => hnot obj (heq ▸ h)
    rw [hset, s.set_ne v hne, h]

theorem Next.free (hn : Next s t sig s' t') (ht : Knows s t) (h : s'.locked = false) :
    s'.Settled := by
  cases hn with
  | lock => cases h
  | unlock => exact ht.place.1
  | built => cases (ht.holds rfl).symm.trans h
  | assign => cases (ht.holds rfl).symm.trans h
  | setFlag => cases (ht.holds rfl).symm.trans h
  | _ => exact ht.free h

theorem Next.place (hn : Next s t sig s' t') (ht : Knows s t) : t'.place.Knows s' := by
  obtain ⟨hholds, hfree, -, hplace⟩ := ht
  cases hn with
  | call => trivial
  | lock hflag => exact hfree hflag
  | @passed s cls got hflag =>
    refine ⟨hplace, ?_⟩
    rcases hplace cls with hfresh | ⟨obj, hdone⟩
    · rw [hfresh] at hflag
      cases hflag
    · exact ⟨obj, hdone⟩
  | @first s cls got hflag =>
    refine ⟨hplace, ?_⟩
    rcases hplace cls with hfresh | ⟨obj, hdone⟩
    · exact hfresh
    · rw [hdone] at hflag
      cases hflag
  | isSet hptr =>
    rw [hplace.2] at hptr
    cases hptr
  | isNull => exact ⟨hplace.1, hplace.2, .refl, by simp⟩
  | ask a hop =>
    obtain ⟨hsettled, hfresh, hsteps, hmet⟩ := hplace
    refine ⟨hsettled, hfresh, hsteps.snoc a, ?_⟩
    intro ev hev
    rcases List.mem_append.mp hev with hev | hev
    · exact hmet ev hev
    · cases List.mem_singleton.mp hev
      exact hop
  | built =>
    obtain ⟨hsettled, hfresh, -⟩ := hplace
    refine ⟨(hsettled.but _).set _, ?_⟩
    rw [hfresh]
    exact Shared.set_self ..
  | @assign s cls obj got =>
    obtain ⟨hbut, hstatics⟩ := hplace
    refine ⟨hbut.set _, obj, ?_⟩
    rw [hstatics]
    exact Shared.set_self ..
  | @setFlag s cls got =>
    obtain ⟨hbut, obj, hstatics⟩ := hplace
    have hdone : (s.set cls { s.statics cls with flag := true }).statics cls = .done obj := by
      rw [hstatics]
      exact Shared.set_self ..
    exact ⟨(hbut.set _).settled (.inr ⟨obj, hdone⟩), obj, hdone⟩
  | unlock => exact hplace.2
  | copy => trivial

theorem Next.got (hn : Next s t sig s' t') (ht : Knows s t) (h : (cls, o) ∈ t'.got) :
    ∃ obj, o = some obj ∧ s'.statics cls = .done obj := by
  have hold (h : (cls, o) ∈ t.got) : ∃ obj, o = some obj ∧ s'.statics cls = .done obj := by
    obtain ⟨obj, ho, hdone⟩ := ht.got cls o h
    exact ⟨obj, ho, hn.done ht.place hdone⟩
  cases hn with
  | copy =>
    obtain ⟨obj, hdone⟩ := ht.place
    rcases List.mem_cons.mp h with heq | h
    · cases heq
      exact ⟨obj, by rw [hdone]; rfl, hdone⟩
    · exact hold h
  | _ => exact hold h

theorem Next.holds (hn : Next s t sig s' t') (ht : Knows s t) (h : t'.place.inside = true) :
    s'.locked = true := by
  cases hn with
  | call => cases h
  | lock => rfl
  | unlock => cases h
  | copy => cases h
  | _ => exact ht.holds rfl

theorem Next.same (hn : Next s t sig s' t')
    (h : t.place.inside = false ∧ t'.place.inside = false) : s' = s := by
  cases hn with
  | call => rfl
  | copy => rfl
  | lock => cases h.2
  | _ => cases h.1

theorem outline : machine.Outline (K := Unit) Ok (fun t _ => t.place.inside) Knows where
  own := by
    intro s _ t t' sig s' _ hn ht
    exact ⟨hn.holds ht, hn.free ht, fun _ _ => hn.got ht, hn.place ht⟩
  others := by
    intro s t sig s' t' u hn ht hu hapart
    cases hin : u.place.inside with
    | true =>
      rw [hn.same (hapart () hin)]
      exact hu
    | false =>
      refine ⟨fun h => ?_, hn.free ht, ?_, ?_⟩
      · cases hin.symm.trans h
      · intro cls o h
        obtain ⟨obj, ho, hdone⟩ := hu.got cls o h
        exact ⟨obj, ho, hn.done ht.place hdone⟩
      · obtain ⟨place, got⟩ := u
        cases place with
        | out => trivial
        | lock => trivial
        | copy cls =>
          obtain ⟨obj, hdone⟩ := hu.place
          exact ⟨obj, hn.done ht.place hdone⟩
        | _ => cases hin
  woken := nofun

theorem knows (hr : machine.Reachable Ok (start n) c) : ∀ t ∈ c.threads, Knows c.shared t := by
  refine outline.holds lock start_oneInside (fun t ht => ?_) hr
  obtain ⟨-, rfl⟩ := List.mem_replicate.mp ht
  exact ⟨nofun, fun _ _ => .inl rfl, nofun, trivial⟩

/-- At most one object of a class is constructed, and every `getInstance` of the class has
returned it. -/
structure Unique (c : Monitor Shared Thread) : Prop where
  once : ∀ cls, (c.shared.statics cls).made.length ≤ 1
  same : ∀ t ∈ c.threads, ∀ cls o, (cls, o) ∈ t.got →
    ∃ obj, o = some obj ∧ (c.shared.statics cls).made = [obj]

theorem Next.once (hn : Next s t sig s' t') (ht : t.place.Knows s)
    (h : (s.statics cls).made.length ≤ 1) : (s'.statics cls).made.length ≤ 1 := by
  rcases hn.writes ht with hsame | ⟨other, v, hset, -, hv⟩
  · rw [hsame]
    exact h
  · rw [hset]
    by_cases heq : cls = other
    · rw [heq, Shared.set_self]
      exact hv
    · rw [s.set_ne v heq]
      exact h

theorem once (hr : machine.Reachable Ok (start n) c) (cls : Class) :
    (c.shared.statics cls).made.length ≤ 1 := by
  refine hr.invariant (I := fun c => (c.shared.statics cls).made.length ≤ 1) (Nat.zero_le _) ?_
  intro c t t' c' hr _ hs hle
  obtain ⟨ts, us, sig, -, hn, -⟩ := hs.inv
  exact hn.once (knows hr t hs.mover).place hle

theorem unique (hr : machine.Reachable Ok (start n) c) : Unique c := by
  refine ⟨once hr, ?_⟩
  intro t ht cls o h
  obtain ⟨obj, ho, hdone⟩ := (knows hr t ht).got cls o h
  exact ⟨obj, ho, by rw [hdone]; rfl⟩

end GateServer.Singleton
